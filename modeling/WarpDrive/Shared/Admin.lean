import WarpDrive.Interfaces

/-!
# The interface every contract implements

Each contract keeps its admin, a pending admin, its version and its code, and
each implements `WarpDriveInterface` on them with the same bodies.  The two-step
transfer is the admin module of `warpdrive-shared`; that module owns the pending
slot, and the contract itself writes the admin after `accept` returns.

`Base` holds these entries together with the events the contract has published.
The contracts run the code of this file on the `Base` part of their storage.
-/

namespace WarpDrive

/-- What every contract stores. -/
structure Base where
  admin : Address
  /-- `symbol_short!("pnd_admin")` -/
  pndAdmin : Option Address
  version : String
  wasm : BytesN 32
  events : List Event
deriving DecidableEq, Repr

/-- `env!("CARGO_PKG_VERSION")`, the version of the workspace. -/
def cargoPkgVersion : String := "0.3.0-rc.1"

/-- The entries a constructor sets, for a contract deployed with the code `wasm`. -/
def Base.deployed (wasm : BytesN 32) (admin : Address) : Base where
  admin := admin
  pndAdmin := none
  version := cargoPkgVersion
  wasm := wasm
  events := []

variable {ε : Type}

/-- `event.publish(env)`. -/
def publish (e : Event) : Contract Base ε Unit :=
  modify fun b => { b with events := b.events ++ [e] }

/-! ## The admin module -/

namespace Admin

/-- Store a pending admin transfer. Requires auth from the current admin. -/
def propose (env : Env) (currentAdmin newAdmin : Address) : Contract Base ε Unit := do
  requireAuth env currentAdmin
  modify fun b => { b with pndAdmin := some newAdmin }
  publish (.adminProposed currentAdmin newAdmin)

/-- Accept a pending admin transfer. Requires auth from the pending admin. -/
def accept (env : Env) : Contract Base ε Address := do
  let b ← get
  let pending ← expect b.pndAdmin
  requireAuth env pending
  modify fun b => { b with pndAdmin := none }
  publish (.adminAccepted pending)
  return pending

end Admin

/-! ## `WarpDriveInterface` -/

def upgrade (env : Env) (newWasmHash : BytesN 32) (newVersion : String) :
    Contract Base ε Unit := do
  let b ← get
  requireAuth env b.admin
  modify fun b => { b with version := newVersion }
  modify fun b => { b with wasm := newWasmHash }
  publish (.contractUpgraded newVersion)

def proposeAdmin (env : Env) (newAdmin : Address) : Contract Base ε Unit := do
  let b ← get
  Admin.propose env b.admin newAdmin

def acceptAdmin (env : Env) : Contract Base ε Unit := do
  let newAdmin ← Admin.accept env
  modify fun b => { b with admin := newAdmin }

/-- The functions of the interface, as a call reaches them.  The host refuses a
function that the contract does not export. -/
def warpDriveInterface (env : Env) : Call → Contract Base ε Val
  | .upgrade newWasmHash newVersion => do
      upgrade env newWasmHash newVersion
      return .void
  | .proposeAdmin newAdmin => do
      proposeAdmin env newAdmin
      return .void
  | .acceptAdmin => do
      acceptAdmin env
      return .void
  | .admin => view fun b => some (.address b.admin)
  | .pendingAdmin => view fun b => some (.optAddress b.pndAdmin)
  | .version => view fun b => some (.string b.version)
  | _ => trap

/-! ## What the functions do -/

theorem upgrade_run (env : Env) (newWasmHash : BytesN 32) (newVersion : String) (b : Base) :
    (upgrade env newWasmHash newVersion : Contract Base ε Unit).run b =
      if env.authorized b.admin then
        .ok ((), { b with
          version := newVersion
          wasm := newWasmHash
          events := b.events ++ [.contractUpgraded newVersion] })
      else .error .trap := by
  simp only [upgrade, StateT.run_bind, StateT.run_get, pure_bind, run_requireAuth]
  split <;> rfl

theorem proposeAdmin_run (env : Env) (newAdmin : Address) (b : Base) :
    (proposeAdmin env newAdmin : Contract Base ε Unit).run b =
      if env.authorized b.admin then
        .ok ((), { b with
          pndAdmin := some newAdmin
          events := b.events ++ [.adminProposed b.admin newAdmin] })
      else .error .trap := by
  simp only [proposeAdmin, Admin.propose, StateT.run_bind, StateT.run_get, pure_bind,
    run_requireAuth]
  split <;> rfl

theorem acceptAdmin_run (env : Env) (b : Base) :
    (acceptAdmin env : Contract Base ε Unit).run b =
      match b.pndAdmin with
      | none => .error .trap
      | some pending =>
          if env.authorized pending then
            .ok ((), { b with
              admin := pending
              pndAdmin := none
              events := b.events ++ [.adminAccepted pending] })
          else .error .trap := by
  simp only [acceptAdmin, Admin.accept, StateT.run_bind, StateT.run_get, pure_bind]
  cases hpending : b.pndAdmin with
  | none => rfl
  | some pending =>
      simp only [run_expect_some, ok_bind, run_requireAuth]
      split <;> rfl

/-- What a call of the interface that returns can do: an upgrade or a proposal
that the admin authorized, an acceptance that the pending admin authorized, or
nothing. -/
inductive BaseStep (env : Env) (b : Base) : Call → Base → Prop
  | upgrade (newWasmHash : BytesN 32) (newVersion : String)
      (hauth : env.authorized b.admin = true) :
      BaseStep env b (.upgrade newWasmHash newVersion) { b with
        version := newVersion
        wasm := newWasmHash
        events := b.events ++ [.contractUpgraded newVersion] }
  | propose (newAdmin : Address) (hauth : env.authorized b.admin = true) :
      BaseStep env b (.proposeAdmin newAdmin) { b with
        pndAdmin := some newAdmin
        events := b.events ++ [.adminProposed b.admin newAdmin] }
  | accept (pending : Address) (hpending : b.pndAdmin = some pending)
      (hauth : env.authorized pending = true) :
      BaseStep env b .acceptAdmin { b with
        admin := pending
        pndAdmin := none
        events := b.events ++ [.adminAccepted pending] }
  | query (call : Call) (hcall : call.isGovernance = false) : BaseStep env b call b

theorem warpDriveInterface_step {env : Env} {call : Call} {b b' : Base} {v : Val}
    (h : (warpDriveInterface env call : Contract Base ε Val).run b = .ok (v, b')) :
    BaseStep env b call b' := by
  cases call with
  | upgrade newWasmHash newVersion =>
      obtain ⟨_, _, hrun, hret⟩ := bind_run_eq_ok.mp h
      rw [upgrade_run] at hrun
      split at hrun
      · next hauth =>
          cases hrun
          cases hret
          exact .upgrade newWasmHash newVersion hauth
      · cases hrun
  | proposeAdmin newAdmin =>
      obtain ⟨_, _, hrun, hret⟩ := bind_run_eq_ok.mp h
      rw [proposeAdmin_run] at hrun
      split at hrun
      · next hauth =>
          cases hrun
          cases hret
          exact .propose newAdmin hauth
      · cases hrun
  | acceptAdmin =>
      obtain ⟨_, _, hrun, hret⟩ := bind_run_eq_ok.mp h
      rw [acceptAdmin_run] at hrun
      cases hpending : b.pndAdmin with
      | none =>
          rw [hpending] at hrun
          cases hrun
      | some pending =>
          simp only [hpending] at hrun
          split at hrun
          · next hauth =>
              cases hrun
              cases hret
              exact .accept pending hpending hauth
          · cases hrun
  | admin | pendingAdmin | version =>
      obtain rfl := Reads.view _ _ _ _ h
      exact .query _ rfl
  | _ => cases h

end WarpDrive
