import WarpDrive.Guarantees.Provenance
import WarpDrive.ProjectRoot.Forwarders

/-!
# Who administers what

The view of a network that its administration has: at each address what the contract
is and points at, which never changes, and its office, the admin and the pending admin.
The lemmas say what the transactions of an administrator do to this view: the queries
`admin` and `pending_admin`, a proposal, an acceptance, and the acceptance that
ProjectRoot makes on its own behalf.
-/

namespace WarpDrive

open Transfer

variable {p : Platform} {tx : Transaction} {depth : ℕ} {stack : List Address} {w : World}
  {a : Address} {ω : Type} {host : Host ω} {env : Env}

/-- The shared interface on the base entries, where it returns. -/
def Base.answer (env : Env) : Call → Base → Option (Val × Base)
  | .upgrade newWasmHash newVersion, b =>
      if env.authorized b.admin then
        some (.void, { b with
          version := newVersion
          wasm := newWasmHash
          events := b.events ++ [.contractUpgraded newVersion] })
      else none
  | .proposeAdmin newAdmin, b =>
      if env.authorized b.admin then
        some (.void, { b with
          pndAdmin := some newAdmin
          events := b.events ++ [.adminProposed b.admin newAdmin] })
      else none
  | .acceptAdmin, b =>
      match b.pndAdmin with
      | none => none
      | some pending =>
          if env.authorized pending then
            some (.void, { b with
              admin := pending
              pndAdmin := none
              events := b.events ++ [.adminAccepted pending] })
          else none
  | .admin, b => some (.address b.admin, b)
  | .pendingAdmin, b => some (.optAddress b.pndAdmin, b)
  | .version, b => some (.string b.version, b)
  | _, _ => none

theorem warpDriveInterface_run {ε : Type} (call : Call) (b : Base) :
    (warpDriveInterface env call : Contract Base ε Val).run b =
      match Base.answer env call b with
      | some r => .ok r
      | none => .error .trap := by
  cases call with
  | upgrade newWasmHash newVersion =>
      simp only [warpDriveInterface, Base.answer, StateT.run_bind, upgrade_run]
      split <;> rfl
  | proposeAdmin newAdmin =>
      simp only [warpDriveInterface, Base.answer, StateT.run_bind, proposeAdmin_run]
      split <;> rfl
  | acceptAdmin =>
      simp only [warpDriveInterface, Base.answer, StateT.run_bind, acceptAdmin_run]
      cases b.pndAdmin with
      | none => rfl
      | some pending =>
          simp only
          split <;> rfl
  | _ => rfl

/-- The calls of the shared interface. -/
def Call.isShared : Call → Bool
  | .upgrade .. | .proposeAdmin _ | .acceptAdmin | .admin | .pendingAdmin | .version => true
  | _ => false

namespace Instance

def withBase : Instance → Base → Instance
  | security t s, b => security t { s with base := b }
  | verification t s, b => verification t { s with base := b }
  | handler t s, b => handler t { s with base := b }
  | projectRoot s, b => projectRoot { s with base := b }
  | foreign f, _ => foreign f

end Instance

theorem entryPoint_interface {σ ε : Type} [ContractError ε] (get : σ → Base) (set : σ → Base → σ)
    (call : Call) (s : σ) (world : ω) :
    entryPoint (onStorage (zoom get set (warpDriveInterface env call) : Contract σ ε Val))
        ⟨s, world⟩ =
      match Base.answer env call (get s) with
      | some (v, b) => .ok (v, ⟨set s b, world⟩)
      | none => .error .abort := by
  unfold entryPoint onStorage
  simp only [run_zoom, warpDriveInterface_run]
  cases Base.answer env call (get s) <;> rfl

theorem dispatch_of_interface {σ : Type} (ε : Type) [ContractError ε] {wrap : σ → Instance}
    (get : σ → Base) (set : σ → Base → σ) {call : Call} {s : σ} {world : ω}
    (hwrap : ∀ b, wrap (set s b) = (wrap s).withBase b)
    (hdispatch : dispatch p host env call (wrap s) world = asInstance wrap
      (entryPoint (onStorage (zoom get set (warpDriveInterface env call) : Contract σ ε Val))
        ⟨s, world⟩)) :
    dispatch p host env call (wrap s) world =
      match Base.answer env call (get s) with
      | some (v, b) => .ok (v, ⟨(wrap s).withBase b, world⟩)
      | none => .error .abort := by
  rw [hdispatch, entryPoint_interface]
  cases Base.answer env call (get s) with
  | none => rfl
  | some answer =>
      have hcommit : asInstance wrap (.ok (answer.1, ⟨set s answer.2, world⟩)) =
          .ok (answer.1, ⟨wrap (set s answer.2), world⟩) := rfl
      exact hcommit.trans (by rw [hwrap])

theorem dispatch_shared {inst : Instance} {b : Base} {call : Call} {world : ω}
    (hbase : inst.base? = some b) (hcall : call.isShared = true) :
    dispatch p host env call inst world =
      match Base.answer env call b with
      | some (v, b') => .ok (v, ⟨inst.withBase b', world⟩)
      | none => .error .abort := by
  cases inst with
  | security t s =>
      cases hbase
      apply dispatch_of_interface SecurityError Security.Storage.base
        (fun s b => { s with base := b }) (fun _ => rfl)
      cases call with
      | upgrade | proposeAdmin | acceptAdmin | admin | pendingAdmin | version => rfl
      | _ => cases hcall
  | verification t s =>
      cases hbase
      apply dispatch_of_interface VerifyError Verification.Storage.base
        (fun s b => { s with base := b }) (fun _ => rfl)
      cases call with
      | upgrade | proposeAdmin | acceptAdmin | admin | pendingAdmin | version => rfl
      | _ => cases hcall
  | handler t s =>
      cases hbase
      apply dispatch_of_interface HandlerError Handler.Storage.base
        (fun s b => { s with base := b }) (fun _ => rfl)
      cases call with
      | upgrade | proposeAdmin | acceptAdmin | admin | pendingAdmin | version => cases t <;> rfl
      | _ => cases hcall
  | projectRoot s =>
      cases hbase
      apply dispatch_of_interface ProjectRootError ProjectRoot.Storage.base
        (fun s b => { s with base := b }) (fun _ => rfl)
      cases call with
      | upgrade | proposeAdmin | acceptAdmin | admin | pendingAdmin | version => rfl
      | _ => cases hcall
  | foreign f => cases hbase

/-! ## The view -/

/-- What a contract is, and which contracts it was constructed on. -/
inductive Shape where
  | security (t : VerificationType)
  | verification (t : VerificationType) (securityContract : Address)
  | handler (t : VerificationType) (verificationContract : Address)
  | projectRoot (securityContract verificationContract : Address)
  | foreign
deriving DecidableEq, Repr

def Shape.isRoot : Shape → Bool
  | projectRoot .. => true
  | _ => false

/-- The contracts that a contract was constructed on. -/
def Shape.links : Shape → List Address
  | security _ | foreign => []
  | verification _ securityContract => [securityContract]
  | handler _ verificationContract => [verificationContract]
  | projectRoot securityContract verificationContract => [securityContract, verificationContract]

theorem Shape.ne_projectRoot {shape : Shape} (h : shape.isRoot = false) {sec ver : Address} :
    shape ≠ .projectRoot sec ver := by
  rintro rfl
  cases h

structure Listing where
  shape : Shape
  office : Office Address

def Instance.shape : Instance → Shape
  | security t _ => .security t
  | verification t s => .verification t s.securityContract
  | handler t s => .handler t s.verificationContract
  | projectRoot s => .projectRoot s.securityContract s.verificationContract
  | foreign _ => .foreign

def Instance.listing? (inst : Instance) : Option Listing :=
  inst.base?.map fun b => ⟨inst.shape, b.office⟩

def World.listing (w : World) (a : Address) : Option Listing :=
  (w.contracts a).bind Instance.listing?

variable {l : Listing}

theorem World.listing_eq_some : w.listing a = some l ↔
    ∃ inst b, w.contracts a = some inst ∧ inst.base? = some b ∧ l = ⟨inst.shape, b.office⟩ := by
  constructor
  · intro h
    obtain ⟨inst, hinst, hl⟩ := Option.bind_eq_some_iff.mp h
    obtain ⟨b, hbase, rfl⟩ := Option.map_eq_some_iff.mp hl
    exact ⟨inst, b, hinst, hbase, rfl⟩
  · rintro ⟨inst, b, hinst, hbase, rfl⟩
    rw [World.listing, hinst, Option.bind_some, Instance.listing?, hbase]
    rfl

theorem World.ne_of_shape {b : Address} {l' : Listing} (ha : w.listing a = some l)
    (hb : w.listing b = some l') (hshape : l.shape ≠ l'.shape) : a ≠ b := by
  rintro rfl
  rw [ha] at hb
  cases hb
  exact hshape rfl

theorem Instance.base?_withBase {inst : Instance} {b b' : Base} (h : inst.base? = some b) :
    (inst.withBase b').base? = some b' ∧ (inst.withBase b').shape = inst.shape := by
  cases inst with
  | foreign f => cases h
  | _ => exact ⟨rfl, rfl⟩

theorem World.listing_commit {inst inst' : Instance} {b b' : Base} {inv : Invocation}
    (hbase : inst.base? = some b) (hbase' : inst' = inst.withBase b') :
    (w.commit a inst' inv).listing =
      Function.update w.listing a (some ⟨inst.shape, b'.office⟩) := by
  obtain ⟨hnew, hshape⟩ : (inst.withBase b').base? = some b' ∧ _ :=
    Instance.base?_withBase hbase
  funext c
  by_cases hc : c = a
  · subst hc
    rw [World.listing, World.commit_contracts_self, Option.bind_some, Instance.listing?, hbase',
      hnew, hshape, Function.update_self]
    rfl
  · rw [World.listing, World.commit_contracts_of_ne hc, Function.update_of_ne hc]
    rfl

/-- The shape of the contract at an address. -/
def World.shape (w : World) (a : Address) : Option Shape :=
  (w.contracts a).map Instance.shape

/-- No invocation changes what a contract is. -/
theorem Instance.Executes.shape {inst inst' : Instance} {inv : Invocation}
    (h : inst.Executes p inv inst') : inst'.shape = inst.shape := by
  have heffect := h.effect
  generalize inv.call = call at heffect
  cases heffect with
  | security => rfl
  | verification t heffect =>
      cases heffect with
      | base | query => rfl
  | handler heffect =>
      cases heffect with
      | accept | base => rfl
  | projectRoot heffect =>
      cases heffect with
      | base | query => rfl
      | gated _ _ _ _ hkept _ =>
          rw [Instance.shape, Instance.shape, hkept.securityContract, hkept.verificationContract]
  | foreign => rfl

theorem Instance.shape_of_path {inst inst' : Instance} {J : List Invocation}
    (h : Transition.Path (Instance.Executes p) inst J inst') : inst'.shape = inst.shape := by
  induction h with
  | nil => rfl
  | snoc _ hexecutes ih => exact hexecutes.shape.trans ih

theorem invoke_shape (target : Address) (call : Call) :
    (invoke p tx depth stack target call w).2.shape = w.shape := by
  obtain ⟨J, hextends⟩ := invoke_extends p tx depth stack target call w
  funext a
  unfold World.shape
  cases ha : w.contracts a with
  | none => rw [(hextends.absent a ha).1]
  | some inst =>
      obtain ⟨inst', hinst', hpath⟩ := hextends.evolves a inst ha
      rw [hinst', Option.map_some, Option.map_some, Instance.shape_of_path hpath]

/-! ## The shared interface -/

theorem invoke_shared {inst : Instance} {b : Base} {call : Call} (hstack : a ∉ stack)
    (hinst : w.contracts a = some inst) (hbase : inst.base? = some b)
    (hcall : call.isShared = true) :
    invoke p tx (depth + 1) stack a call w =
      match Base.answer (tx.env stack a call) call b with
      | some (v, b') => (.ok v, w.commit a (inst.withBase b') ⟨tx.env stack a call, call⟩)
      | none => (.error .abort, w) := by
  rw [invoke_succ hstack hinst, dispatch_shared hbase hcall]
  cases Base.answer (tx.env stack a call) call b <;> rfl

theorem invoke_admin (hstack : a ∉ stack) (hl : w.listing a = some l) :
    (invoke p tx (depth + 1) stack a .admin w).1 = .ok (.address l.office.holder) := by
  obtain ⟨inst, b, hinst, hbase, rfl⟩ := World.listing_eq_some.mp hl
  rw [invoke_shared hstack hinst hbase rfl]
  rfl

theorem invoke_pendingAdmin (hstack : a ∉ stack) (hl : w.listing a = some l) :
    (invoke p tx (depth + 1) stack a .pendingAdmin w).1 =
      .ok (.optAddress l.office.candidate) := by
  obtain ⟨inst, b, hinst, hbase, rfl⟩ := World.listing_eq_some.mp hl
  rw [invoke_shared hstack hinst hbase rfl]
  rfl

/-- A proposal names the candidate, if the holder of the office signed. -/
theorem invoke_proposeAdmin {newAdmin : Address} (hstack : a ∉ stack)
    (hl : w.listing a = some l)
    (hauth : (tx.env stack a (.proposeAdmin newAdmin)).authorized l.office.holder = true) :
    (invoke p tx (depth + 1) stack a (.proposeAdmin newAdmin) w).1 = .ok .void ∧
      (invoke p tx (depth + 1) stack a (.proposeAdmin newAdmin) w).2.listing =
        Function.update w.listing a (some ⟨l.shape, l.office.holder, some newAdmin⟩) := by
  obtain ⟨inst, b, hinst, hbase, rfl⟩ := World.listing_eq_some.mp hl
  have hadmin : (tx.env stack a (.proposeAdmin newAdmin)).authorized b.admin = true := hauth
  rw [invoke_shared hstack hinst hbase rfl, Base.answer, if_pos hadmin]
  exact ⟨rfl, World.listing_commit hbase rfl⟩

theorem invoke_proposeAdmin_refused {newAdmin : Address} (hstack : a ∉ stack)
    (hl : w.listing a = some l)
    (hauth : ¬(tx.env stack a (.proposeAdmin newAdmin)).authorized l.office.holder = true) :
    invoke p tx (depth + 1) stack a (.proposeAdmin newAdmin) w = (.error .abort, w) := by
  obtain ⟨inst, b, hinst, hbase, rfl⟩ := World.listing_eq_some.mp hl
  have hadmin : ¬(tx.env stack a (.proposeAdmin newAdmin)).authorized b.admin = true := hauth
  rw [invoke_shared hstack hinst hbase rfl, Base.answer, if_neg hadmin]

/-- An acceptance makes the candidate the holder, if it signed. -/
theorem invoke_acceptAdmin {candidate : Address} (hstack : a ∉ stack)
    (hl : w.listing a = some l) (hcandidate : l.office.candidate = some candidate)
    (hauth : (tx.env stack a .acceptAdmin).authorized candidate = true) :
    (invoke p tx (depth + 1) stack a .acceptAdmin w).1 = .ok .void ∧
      (invoke p tx (depth + 1) stack a .acceptAdmin w).2.listing =
        Function.update w.listing a (some ⟨l.shape, candidate, none⟩) := by
  obtain ⟨inst, b, hinst, hbase, rfl⟩ := World.listing_eq_some.mp hl
  have hpending : b.pndAdmin = some candidate := hcandidate
  have hanswer : Base.answer (tx.env stack a .acceptAdmin) .acceptAdmin b =
      some (.void, { b with
        admin := candidate
        pndAdmin := none
        events := b.events ++ [.adminAccepted candidate] }) := by
    simp only [Base.answer, hpending, if_pos hauth]
  rw [invoke_shared hstack hinst hbase rfl, hanswer]
  exact ⟨rfl, World.listing_commit hbase rfl⟩

theorem invoke_acceptAdmin_refused (hstack : a ∉ stack) (hl : w.listing a = some l)
    (hauth : ∀ candidate, l.office.candidate = some candidate →
      ¬(tx.env stack a .acceptAdmin).authorized candidate = true) :
    invoke p tx (depth + 1) stack a .acceptAdmin w = (.error .abort, w) := by
  obtain ⟨inst, b, hinst, hbase, rfl⟩ := World.listing_eq_some.mp hl
  rw [invoke_shared hstack hinst hbase rfl, Base.answer]
  cases hpending : b.pndAdmin with
  | none => rfl
  | some candidate => simp only [if_neg (hauth candidate hpending)]

/-! ## The acceptance that ProjectRoot makes -/

section Adoption

open ProjectRoot

/-- The registered contracts pass without a probe. -/
theorem ensureOurContract_run {s : ProjectRoot.Storage} {target : Address} {world : ω}
    (htarget : target = s.verificationContract ∨ target = s.securityContract) :
    ∃ ctype : ContractType, ctype ≠ .handler ∧
      (ensureOurContract host target).run ⟨s, world⟩ = .ok (ctype, ⟨s, world⟩) := by
  unfold ensureOurContract
  rw [bind_get_run]
  by_cases hverification : target = s.verificationContract
  · simp only [if_pos hverification]
    exact ⟨.verification, nofun, rfl⟩
  · have hsecurity : target = s.securityContract := htarget.resolve_left hverification
    simp only [if_neg hverification, if_pos hsecurity]
    exact ⟨.security, nofun, rfl⟩

theorem acceptContractAdmin_run {s : ProjectRoot.Storage} {target : Address} {world : ω}
    (htarget : target = s.verificationContract ∨ target = s.securityContract)
    (hauth : env.authorized s.base.admin = true) :
    (acceptContractAdmin host env target).run ⟨s, world⟩ =
      match (host.invoke target .acceptAdmin world).1 with
      | .ok _ => .ok ((), ⟨s.forwarded target "accept_admin",
          (host.invoke target .acceptAdmin world).2⟩)
      | .error (.contract code) =>
          match (ContractError.ofCode? code : Option SecurityError) with
          | some e => .error (.error (.fromSecurityError e))
          | none => .error (.panicWithError code)
      | .error .abort => .error .trap := by
  obtain ⟨ctype, hctype, hensure⟩ :
      ∃ ctype : ContractType, ctype ≠ .handler ∧
        (ensureOurContract host target).run ⟨s, world⟩ = _ := ensureOurContract_run htarget
  unfold acceptContractAdmin toOurContract
  rw [StateT.run_bind, StateT.run_bind, hensure, ok_bind, StateT.run_bind, securityErrors,
    run_mapError, proxy_run hauth]
  cases (host.invoke target .acceptAdmin world).1 with
  | ok v =>
      simp only [ok_bind, StateT.run_pure, pure_eq_ok, if_neg hctype]
  | error e =>
      cases e with
      | abort => rfl
      | contract code =>
          simp only
          cases (ContractError.ofCode? code : Option SecurityError) <;> rfl

theorem acceptContractAdmin_run_unauthorized {s : ProjectRoot.Storage} {target : Address}
    {world : ω} (htarget : target = s.verificationContract ∨ target = s.securityContract)
    (hauth : ¬env.authorized s.base.admin = true) :
    (acceptContractAdmin host env target).run ⟨s, world⟩ = .error .trap := by
  have hproxy : (proxy host env target "accept_admin" .acceptAdmin).run ⟨s, world⟩ =
      .error .trap := by
    unfold proxy
    rw [bind_get_run, StateT.run_bind, run_requireAuth, if_neg hauth]
    rfl
  obtain ⟨ctype, -, hensure⟩ :
      ∃ ctype : ContractType, ctype ≠ .handler ∧
        (ensureOurContract host target).run ⟨s, world⟩ = _ := ensureOurContract_run htarget
  unfold acceptContractAdmin toOurContract
  rw [StateT.run_bind, StateT.run_bind, hensure, ok_bind, StateT.run_bind, securityErrors,
    run_mapError, hproxy]
  rfl

theorem call_acceptContractAdmin (target : Address) :
    ProjectRoot.call host env (.acceptContractAdmin target) =
      void (acceptContractAdmin host env target) := rfl

/-- ProjectRoot accepts for itself where it is the candidate of a registered contract,
if its admin signed. -/
theorem invoke_acceptContractAdmin {root target : Address} {sec ver : Address}
    {o : Office Address} (hroot : root ∉ stack) (htarget : target ∉ stack)
    (hrootListing : w.listing root = some ⟨.projectRoot sec ver, o⟩)
    (hregistered : target = ver ∨ target = sec) (hl : w.listing target = some l)
    (hshape : l.shape ≠ .projectRoot sec ver)
    (hauth : (tx.env stack root (.acceptContractAdmin target)).authorized o.holder = true)
    (hcandidate : l.office.candidate = some root) :
    (invoke p tx (depth + 2) stack root (.acceptContractAdmin target) w).1 = .ok .void ∧
      (invoke p tx (depth + 2) stack root (.acceptContractAdmin target) w).2.listing =
        Function.update w.listing target (some ⟨l.shape, root, none⟩) := by
  obtain ⟨inst, b, hinst, hbase, heq⟩ := World.listing_eq_some.mp hrootListing
  have hne : target ≠ root := World.ne_of_shape hl hrootListing hshape
  have hstack : target ∉ root :: stack := List.not_mem_cons_of_ne_of_not_mem hne htarget
  cases inst with
  | projectRoot s =>
      cases hbase
      cases heq
      -- below, ProjectRoot is the invoker, so it authorizes the acceptance
      have hinvoker : (tx.env (root :: stack) target .acceptAdmin).authorized root = true := by
        simp [Transaction.env, Env.authorized]
      obtain ⟨hreply, hlisting⟩ : (invoke p tx (depth + 1) (root :: stack) target .acceptAdmin
          w).1 = .ok .void ∧ _ := invoke_acceptAdmin hstack hl hcandidate hinvoker
      have hcall : entryPoint (ProjectRoot.call (hostBelow p tx (depth + 1) (root :: stack))
          (tx.env stack root (.acceptContractAdmin target)) (.acceptContractAdmin target))
          ⟨s, w⟩ = .ok (.void, ⟨s.forwarded target "accept_admin",
            (invoke p tx (depth + 1) (root :: stack) target .acceptAdmin w).2⟩) := by
        rw [call_acceptContractAdmin, entryPoint, void, StateT.run_bind,
          acceptContractAdmin_run hregistered hauth]
        simp only [hostBelow, hreply]
        rfl
      rw [invoke_succ hroot hinst, dispatch, hcall]
      refine ⟨rfl, ?_⟩
      -- the audit event leaves the office of ProjectRoot as it was
      have hcommit : ∀ inv : Invocation, ((invoke p tx (depth + 1) (root :: stack) target
          .acceptAdmin w).2.commit root (.projectRoot (s.forwarded target "accept_admin"))
            inv).listing = Function.update _ root _ := fun inv =>
        World.listing_commit (rfl : (Instance.projectRoot s).base? = some s.base) rfl
      have hsame : Function.update w.listing target (some ⟨l.shape, root, none⟩) root =
          some ⟨.projectRoot s.securityContract s.verificationContract, s.base.office⟩ := by
        rw [Function.update_of_ne hne.symm, hrootListing]
      apply (hcommit _).trans
      rw [hlisting]
      exact (congrArg _ hsame.symm).trans (Function.update_eq_self _ _)
  | _ => cases heq

/-- It fails where its admin did not sign, and where there is no candidate. -/
theorem invoke_acceptContractAdmin_refused {root target : Address} {sec ver : Address}
    {o : Office Address} (hroot : root ∉ stack) (htarget : target ∉ stack)
    (hrootListing : w.listing root = some ⟨.projectRoot sec ver, o⟩)
    (hregistered : target = ver ∨ target = sec) (hl : w.listing target = some l)
    (hshape : l.shape ≠ .projectRoot sec ver)
    (hrefused : ¬(tx.env stack root (.acceptContractAdmin target)).authorized o.holder = true ∨
      l.office.candidate = none) :
    invoke p tx (depth + 2) stack root (.acceptContractAdmin target) w = (.error .abort, w) := by
  obtain ⟨inst, b, hinst, hbase, heq⟩ := World.listing_eq_some.mp hrootListing
  have hne : target ≠ root := World.ne_of_shape hl hrootListing hshape
  have hstack : target ∉ root :: stack := List.not_mem_cons_of_ne_of_not_mem hne htarget
  cases inst with
  | projectRoot s =>
      cases hbase
      cases heq
      have hcall : entryPoint (ProjectRoot.call (hostBelow p tx (depth + 1) (root :: stack))
          (tx.env stack root (.acceptContractAdmin target)) (.acceptContractAdmin target))
          ⟨s, w⟩ = .error .abort := by
        rw [call_acceptContractAdmin, entryPoint, void, StateT.run_bind]
        by_cases hauth : (tx.env stack root
            (.acceptContractAdmin target)).authorized s.base.admin = true
        · have hvacant : l.office.candidate = none := hrefused.resolve_left (not_not.mpr hauth)
          have hreply : invoke p tx (depth + 1) (root :: stack) target .acceptAdmin w =
              (.error .abort, w) := by
            apply invoke_acceptAdmin_refused hstack hl
            intro candidate hcandidate
            rw [hvacant] at hcandidate
            cases hcandidate
          rw [acceptContractAdmin_run hregistered hauth]
          simp only [hostBelow, hreply]
          rfl
        · rw [acceptContractAdmin_run_unauthorized hregistered hauth]
          rfl
      rw [invoke_succ hroot hinst, dispatch, hcall]
      rfl
  | _ => cases heq

end Adoption

end WarpDrive
