import WarpDrive.Deployer.Adoption
import WarpDrive.Guarantees.Resend

/-!
# The commands for handlers

`deploy-handler` creates the handler of the pipeline, with project_root as its admin from
birth, and records it in the manifest; where the deployer is the admin of project_root it
also has it tracked, which is what `register-handler` does.

Creating a handler is one more action, so these commands are scripts of the deployer's
actions and of this one.
-/

namespace WarpDrive.Deployer

open Interaction Transfer

/-! ## Manifests -/

namespace StellarDeployManifest

/-- `set_handler` -/
def setHandler (m : StellarDeployManifest) (id : Address) : StellarDeployManifest :=
  match m.variant with
  | .ethereum => { m with contracts := { m.contracts with ethereumHandler := some id } }
  | .stellar => { m with contracts := { m.contracts with stellarHandler := some id } }

variable {m : StellarDeployManifest} {id : Address}

@[simp] theorem handler_setHandler : (m.setHandler id).handler = some id := by
  obtain ⟨_, _, _, variant, _⟩ := m
  cases variant <;> rfl

/-- The slot of the handler is beside those of the pipeline. -/
theorem slots_setHandler : (m.setHandler id).variant = m.variant ∧
    (m.setHandler id).security = m.security ∧ (m.setHandler id).verification = m.verification ∧
    (m.setHandler id).projectRoot = m.projectRoot := by
  obtain ⟨_, _, _, variant, _⟩ := m
  cases variant <;> exact ⟨rfl, rfl, rfl, rfl⟩

end StellarDeployManifest

/-! ## Scripts -/

/-- A handler to create: the wasm of a variant, with its constructor arguments. -/
structure HandlerDeployment where
  variant : Variant
  admin : Address
  verification : Address
deriving DecidableEq, Repr

namespace HandlerDeployment

/-- The contract that is created from the uploaded wasm. -/
def construct (d : HandlerDeployment) (wasm : BytesN 32) : Instance :=
  .handler d.variant.scheme (Handler.construct wasm d.admin d.verification)

/-- What its creation comes back with. -/
def Response (_ : HandlerDeployment) : Type :=
  Option Address

end HandlerDeployment

abbrev HandlerAction := Action ⊕ HandlerDeployment

abbrev HandlerCommand (α : Type) :=
  Script HandlerAction (Sum.elim Action.Response HandlerDeployment.Response) DeployerError α

/-- A command of the deployer, as a part of one for handlers. -/
def base {α : Type} (command : Command α) : HandlerCommand α :=
  command.among HandlerDeployment.Response

def createHandler (d : HandlerDeployment) : HandlerCommand (Option Address) :=
  Script.perform (Sum.inr d)

/-- `deploy_one`, for a handler. -/
def deployHandlerContract (cfg : RetryConfig) (d : HandlerDeployment) :
    HandlerCommand Address := do
  match ← (createHandler d).retry DeployerError.isRetryable (cfg.maxRetries - 1) with
  | some id => pure id
  | none => .fail (.soroban .contractDeployedConfigsNotSet)

/-- `register-handler`: track the deployed handler in project_root's handler set. -/
def registerHandler (m : StellarDeployManifest) (cfg : RetryConfig) : Command String := do
  let projectRoot ← propagate (requireProjectRoot m)
  let handler ← propagate (requireHandler m)
  let resp ← retry cfg (execute projectRoot (.registerHandler handler))
  txHash resp

section DeployHandler

variable (texts : Texts) (account : Address) (cfg : RetryConfig)

/-- Reuse the handler of the manifest, or deploy and record one. -/
def fillHandler (manifest : StellarDeployManifest) (projectRoot : Address) :
    HandlerCommand StellarDeployManifest :=
  match manifest.handler with
  | some _ => pure manifest
  | none => do
      let verification ← base (propagate (requireVerification manifest))
      let id ← deployHandlerContract cfg ⟨manifest.variant, projectRoot, verification⟩
      base (persist texts (manifest.setHandler id))
      pure (manifest.setHandler id)

/-- Only the admin of project_root can have the handler tracked; another deployer is told
so. -/
def trackHandler (manifest : StellarDeployManifest) (projectRoot : Address) : Command Unit := do
  let prAdmin ← admin projectRoot
  if prAdmin = account then do
    let _ ← registerHandler manifest cfg
  else pure ()

/-- `deploy-handler` -/
def deployHandler : HandlerCommand StellarDeployManifest := do
  let manifest ← base (load texts)
  let projectRoot ← base (propagate (requireProjectRoot manifest))
  let manifest ← fillHandler texts cfg manifest projectRoot
  base (trackHandler account cfg manifest projectRoot)
  pure manifest

end DeployHandler

/-! ## The setting -/

section Setting

variable (p : Platform) (account : Address) (c : Circumstances)

/-- A handler is created at a fresh address. -/
def CreatesHandler (s : Site) (d : HandlerDeployment) (a : Address) (s' : Site) : Prop :=
  ∃ wasm, s.system.world.contracts a = none ∧ s' = s.deploy a (d.construct wasm)

/-- The creation comes back with the address, or it fails before it takes effect, or its
answer is lost or names no contract. -/
inductive HandlerActs (s : Site) (d : HandlerDeployment) :
    Except DeployerError (Option Address) → Site → Prop
  | performed (a : Address) (s' : Site) (hcreates : CreatesHandler s d a s') :
      HandlerActs s d (.ok (some a)) s'
  | failed (e : DeployerError) (hmishaps : c.mishaps) : HandlerActs s d (.error e) s
  | lost (e : DeployerError) (a : Address) (s' : Site) (hmishaps : c.mishaps)
      (hcreates : CreatesHandler s d a s') : HandlerActs s d (.error e) s'
  | noId (a : Address) (s' : Site) (hmishaps : c.mishaps) (hcreates : CreatesHandler s d a s') :
      HandlerActs s d (.ok none) s'

def handlerSetting : Setting HandlerAction (Sum.elim Action.Response HandlerDeployment.Response)
    DeployerError Site :=
  (setting p account c).extend fun s d r s' => HandlerActs c s d r s'

end Setting

/-! ## The transaction -/

section Transaction

variable {p : Platform} {tx : Transaction} {depth : ℕ} {stack : List Address} {w : World}
  {a root handler : Address} {q : ProjectRoot.Storage} {t : VerificationType}
  {s : Handler.Storage}

/-- A handler answers the probe. -/
theorem invoke_verificationContract (hstack : a ∉ stack)
    (hinst : w.contracts a = some (.handler t s)) :
    (invoke p tx (depth + 1) stack a .verificationContract w).1 =
        .ok (.address s.verificationContract) ∧
      (invoke p tx (depth + 1) stack a .verificationContract w).2.contracts = w.contracts := by
  generalize hcall : Call.verificationContract = call
  rw [invoke_succ hstack hinst, dispatch]
  have hrun : entryPoint (Handler.call p (hostBelow p tx depth (a :: stack)) t
      (tx.env stack a call) call) ⟨s, w⟩ = .ok (.address s.verificationContract, ⟨s, w⟩) := by
    subst hcall
    cases t <;> rfl
  rw [hrun]
  exact ⟨rfl, World.commit_contracts_eq hinst⟩

/-- The handler of the pipeline is tracked, if the admin of project_root signed. -/
theorem invoke_registerHandler (hroot : w.contracts root = some (.projectRoot q))
    (hhandler : w.contracts handler = some (.handler t s))
    (hpoints : s.verificationContract = q.verificationContract)
    (hverification : handler ≠ q.verificationContract)
    (hsecurity : handler ≠ q.securityContract) :
    ((tx.env [] root (.registerHandler handler)).authorized q.base.admin = true ∧
      ∃ w', invoke p tx depthLimit [] root (.registerHandler handler) w = (.ok .void, w') ∧
        w'.contracts = Function.update w.contracts root
          (some (.projectRoot (q.track handler)))) ∨
    ¬(tx.env [] root (.registerHandler handler)).authorized q.base.admin = true ∧
      ∃ e, invoke p tx depthLimit [] root (.registerHandler handler) w = (.error e, w) := by
  have hne : handler ∉ [root] := by
    simpa using World.ne_of_contracts hhandler hroot nofun
  obtain ⟨hprobe, hcontracts⟩ :=
    @invoke_verificationContract p tx 98 [root] w handler t s hne hhandler
  have hinvoke : invoke p tx depthLimit [] root (.registerHandler handler) w = _ :=
    invoke_succ List.not_mem_nil hroot
  rw [dispatch] at hinvoke
  by_cases hauth : (tx.env [] root (.registerHandler handler)).authorized q.base.admin = true
  · left
    have hrun : (ProjectRoot.registerHandler (hostBelow p tx 99 [root])
        (tx.env [] root (.registerHandler handler)) handler).run ⟨q, w⟩ = .ok ((), _) :=
      ProjectRoot.registerHandler_eq_ok.mpr
        ⟨hauth, ⟨hverification, hsecurity, hprobe.trans (by rw [hpoints])⟩, rfl⟩
    have hcall : entryPoint (ProjectRoot.call (hostBelow p tx 99 [root])
        (tx.env [] root (.registerHandler handler)) (.registerHandler handler)) ⟨q, w⟩ =
        .ok (.void, _) := entryPoint_eq_ok.mpr (ProjectRoot.void_eq_ok.mpr ⟨hrun, rfl⟩)
    rw [hcall] at hinvoke
    refine ⟨hauth, _, hinvoke, ?_⟩
    exact congrArg (Function.update · root _) hcontracts
  · right
    refine ⟨hauth, ?_⟩
    cases hcall : entryPoint (ProjectRoot.call (hostBelow p tx 99 [root])
        (tx.env [] root (.registerHandler handler)) (.registerHandler handler)) ⟨q, w⟩ with
    | error e =>
        rw [hcall] at hinvoke
        exact ⟨e, hinvoke⟩
    | ok r =>
        have hrun := (ProjectRoot.void_eq_ok.mp (entryPoint_eq_ok.mp hcall)).1
        exact absurd (ProjectRoot.registerHandler_eq_ok.mp hrun).1 hauth

end Transaction

end WarpDrive.Deployer
