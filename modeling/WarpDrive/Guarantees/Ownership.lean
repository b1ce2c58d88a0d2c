import WarpDrive.Guarantees.Lockout
import WarpDrive.Multisig.Account

/-!
# A project that a multisig account owns

The owner of a project is a contract account: it calls no other contract, and what it
signs for its `__check_auth` has accepted.  ProjectRoot changes, and calls others, only in
the functions it reserves for its admin.  So whoever calls what in which order, the
governance of the project is what it was until a quorum of the keys of the account has
signed for such a call.
-/

namespace WarpDrive

variable {p : Platform} {tx : Transaction} {ω : Type} {host : Host ω} {env : Env}

/-! ## What ProjectRoot reserves for its admin -/

/-- The functions of ProjectRoot that only its admin can use. -/
def Call.isAdministrative : Call → Bool
  | .upgrade .. | .proposeAdmin _ | .updateProjectSpecRepo _
  | .addSecp256k1Signer .. | .removeSecp256k1Signer _
  | .addEd25519Signer .. | .removeEd25519Signer _ | .setThreshold ..
  | .upgradeContract .. | .proposeContractAdmin .. | .acceptContractAdmin _
  | .registerHandler _ | .unregisterHandler _ => true
  | _ => false

theorem BaseStep.authorized {b b' : Base} {c : Call} (h : BaseStep env b c b')
    (hcall : c.isAdministrative = true) (hgovernance : c.isGovernance = true) :
    env.authorized b.admin = true := by
  cases h with
  | upgrade _ _ hauth => exact hauth
  | propose _ hauth => exact hauth
  | accept _ _ _ => cases hcall
  | query _ hquery =>
      rw [hquery] at hgovernance
      cases hgovernance

/-- With no transfer pending, the rest of the shared interface only reads. -/
theorem BaseStep.eq_of_not_isAdministrative {b b' : Base} {c : Call} (h : BaseStep env b c b')
    (hcall : c.isAdministrative = false) (hpending : b.pndAdmin = none) : b' = b := by
  cases h with
  | upgrade _ _ _ => cases hcall
  | propose _ _ => cases hcall
  | accept pending haccept _ =>
      rw [hpending] at haccept
      cases haccept
  | query _ _ => rfl

namespace ProjectRoot

variable {c : Call} {frame frame' : Frame Storage ω} {v : Val}

theorem Gated.expect {α β : Type} {o : Option α}
    {f : α → Contract (Frame Storage ω) ProjectRootError β} (h : ∀ a, Gated env (f a)) :
    Gated env (expect o >>= f) := by
  intro frame b frame' hrun
  obtain ⟨a, -, hrun⟩ := bind_expect_eq_ok.mp hrun
  exact h a _ _ _ hrun

theorem authorized_of_isAdministrative (hcall : c.isAdministrative = true)
    (h : (call host env c).run frame = .ok (v, frame')) :
    env.authorized frame.storage.base.admin = true := by
  cases c with
  | upgrade | proposeAdmin =>
      obtain ⟨b, hrun, rfl⟩ := onBase_run_eq_ok.mp h
      exact (warpDriveInterface_step hrun).authorized hcall rfl
  | updateProjectSpecRepo repo =>
      obtain ⟨_, _, hrun, -⟩ := bind_run_eq_ok.mp h
      simp only [updateProjectSpecRepo, bind_get_run, bind_requireAuth_eq_ok] at hrun
      exact hrun.1
  | registerHandler handler =>
      obtain ⟨_, _, hrun, -⟩ := bind_run_eq_ok.mp h
      simp only [registerHandler, bind_get_run, bind_requireAuth_eq_ok] at hrun
      exact hrun.1
  | unregisterHandler handler =>
      obtain ⟨_, _, hrun, -⟩ := bind_run_eq_ok.mp h
      simp only [unregisterHandler, bind_get_run, bind_requireAuth_eq_ok] at hrun
      exact hrun.1
  | addSecp256k1Signer | removeSecp256k1Signer | addEd25519Signer | removeEd25519Signer =>
      exact Gated.expect (fun key => .bind (.mapError (.toSecurity _ _))) _ _ _ h
  | setThreshold =>
      exact Gated.bind (.mapError (.toSecurity _ _)) _ _ _ h
  | upgradeContract | proposeContractAdmin | acceptContractAdmin =>
      exact Gated.bind (.bind (.toOurContract _ _ _)) _ _ _ h
  | _ => cases hcall

/-- With no transfer pending, no other function changes anything or calls anyone. -/
theorem eq_of_not_isAdministrative (hcall : c.isAdministrative = false)
    (hpending : frame.storage.base.pndAdmin = none)
    (h : (call host env c).run frame = .ok (v, frame')) : frame' = frame := by
  cases c with
  | securityContract | verificationContract | projectSpecRepo | verificationType
  | listHandlers => exact Reads.view _ _ _ _ h
  | updateProjectSpecRepo | addSecp256k1Signer | removeSecp256k1Signer | addEd25519Signer
  | removeEd25519Signer | setThreshold | upgradeContract | proposeContractAdmin
  | acceptContractAdmin | registerHandler | unregisterHandler => cases hcall
  | _ =>
      obtain ⟨b, hrun, rfl⟩ := onBase_run_eq_ok.mp h
      rw [(warpDriveInterface_step hrun).eq_of_not_isAdministrative hcall hpending]

end ProjectRoot

/-! ## The account on the network -/

/-- The account as others can call it: it answers, and calls nobody.  Only its
constructor writes. -/
def MultisigAccount.contract (answers : Env → Call → Reply) : Foreign where
  code env memory call := .reply (answers env call) memory
  memory := []

theorem MultisigAccount.eq_of_dispatch {answers : Env → Call → Reply} {call : Call} {world : ω}
    {v : Val} {frame : Frame Instance ω}
    (h : dispatch p host env call (.foreign (contract answers)) world = .ok (v, frame)) :
    frame = ⟨.foreign (contract answers), world⟩ := by
  rw [dispatch] at h
  cases hreply : answers env call with
  | error e =>
      simp only [contract, hreply, Behaviour.run] at h
      cases h
  | ok v' =>
      simp only [contract, hreply, Behaviour.run] at h
      cases h
      rfl

/-! ## One call -/

/-- The account owns ProjectRoot, ProjectRoot owns `ours`, and no transfer is pending. -/
structure Owned (account root : Address) (ours : Set Address) (answers : Env → Call → Reply)
    (w : World) : Prop where
  account_eq : w.contracts account = some (.foreign (MultisigAccount.contract answers))
  root_eq : ∃ s, w.contracts root = some (.projectRoot s) ∧ s.base.admin = account ∧
    s.base.pndAdmin = none
  members : ∀ a ∈ ours, ∃ inst b, w.contracts a = some inst ∧ inst.base? = some b ∧
    b.admin = root ∧ b.pndAdmin = none

section Calls

variable {account root : Address} {ours : Set Address} {answers : Env → Call → Reply}
  {approves : Call → Prop} {condition condition' : Prop} {stack : List Address}
  {w w' w'' : World}

theorem Owned.of_unchanged (h : Owned account root ours answers w)
    (haccount : w'.contracts account = w.contracts account)
    (hsame : Unchanged (insert root ours) w w') : Owned account root ours answers w' where
  account_eq := haccount.trans h.account_eq
  root_eq := by
    obtain ⟨s, hs, hadmin, hpending⟩ := h.root_eq
    obtain ⟨inst', hinst', hlater⟩ := hsame root (Set.mem_insert _ _) _ hs
    cases hlater
    exact ⟨s, hinst', hadmin, hpending⟩
  members a ha := by
    obtain ⟨inst, b, hinst, hbase, hadmin, hpending⟩ := h.members a ha
    obtain ⟨inst', hinst', hlater⟩ := hsame a (Set.mem_insert_of_mem _ ha) inst hinst
    obtain ⟨b', hbase', hadmin', hpending'⟩ := hlater.base? hbase
    exact ⟨inst', b', hinst', hbase', hadmin'.trans hadmin, hpending'.trans hpending⟩

theorem Unchanged.refl (S : Set Address) (w : World) : Unchanged S w w :=
  fun _ _ inst hinst => ⟨inst, hinst, .same inst⟩

/-- A committed call that the owner had to approve. -/
structure Approved (root : Address) (approves : Call → Prop) (inv : Invocation) : Prop where
  self : inv.env.self = root
  administrative : inv.call.isAdministrative = true
  approved : approves inv.call

/-- From `w` to `w'` the journal grew; under the condition, if the project was owned,
either the owner approved a call that it grew by, or the account and the governance of
the project are as before. -/
def Guards (account root : Address) (ours : Set Address) (answers : Env → Call → Reply)
    (approves : Call → Prop) (condition : Prop) (w w' : World) : Prop :=
  ∃ J, w'.journal = w.journal ++ J ∧
    (condition → Owned account root ours answers w →
      (∃ inv ∈ J, Approved root approves inv) ∨
        w'.contracts account = w.contracts account ∧ Unchanged (insert root ours) w w')

namespace Guards

theorem refl (condition : Prop) (w : World) :
    Guards account root ours answers approves condition w w :=
  ⟨[], (List.append_nil _).symm,
    fun _ _ => Or.inr ⟨rfl, .refl _ w⟩⟩

theorem trans (h : Guards account root ours answers approves condition w w')
    (h' : Guards account root ours answers approves condition w' w'') :
    Guards account root ours answers approves condition w w'' := by
  obtain ⟨J, hJ, hguards⟩ := h
  obtain ⟨J', hJ', hguards'⟩ := h'
  refine ⟨J ++ J', by rw [hJ', hJ, List.append_assoc], ?_⟩
  intro hcondition howned
  rcases hguards hcondition howned with ⟨inv, hinv, happroved⟩ | ⟨haccount, hsame⟩
  · exact Or.inl ⟨inv, List.mem_append_left _ hinv, happroved⟩
  -- what the first part left is owned as before
  have howned' : Owned account root ours answers w' := howned.of_unchanged haccount hsame
  rcases hguards' hcondition howned' with ⟨inv, hinv, happroved⟩ | ⟨haccount', hsame'⟩
  · exact Or.inl ⟨inv, List.mem_append_right _ hinv, happroved⟩
  · exact Or.inr ⟨haccount'.trans haccount, hsame.trans hsame'⟩

theorem mono (h : Guards account root ours answers approves condition w w')
    (hle : condition' → condition) : Guards account root ours answers approves condition' w w' := by
  obtain ⟨J, hJ, hguards⟩ := h
  exact ⟨J, hJ, fun hcondition => hguards (hle hcondition)⟩

theorem of_steps {step : World → World → Prop}
    (hstep : ∀ u u', step u u' → Guards account root ours answers approves condition u u')
    (h : Relation.ReflTransGen step w w') :
    Guards account root ours answers approves condition w w' := by
  induction h with
  | refl => exact refl condition w
  | tail _ hlast ih => exact ih.trans (hstep _ _ hlast)

end Guards

/-- Who may be on top of the stack when `c` is called: not the account, and ProjectRoot only
to consult. -/
def Admits (account root : Address) (stack : List Address) (c : Call) : Prop :=
  stack.head? ≠ some account ∧ (stack.head? = some root → c.isConsultation = true)

/-- The owner signs for what it approves of, and ProjectRoot does not sign. -/
structure Endorses (account root : Address) (approves : Call → Prop) (tx : Transaction) :
    Prop where
  owner : ∀ call, tx.signed account root call = true → approves call
  root : ∀ target call, tx.signed root target call = false

/-- Nobody but ProjectRoot, calling itself, authorizes a call on the contracts it owns. -/
theorem Owned.closed {target : Address} {call : Call} {inst : Instance}
    (h : Owned account root ours answers w) (hendorses : Endorses account root approves tx)
    (hadmits : Admits account root stack call) (htarget : target ∈ ours)
    (hinst : w.contracts target = some inst) :
    ∃ b, inst.base? = some b ∧ Closed (tx.env stack target call) call b := by
  obtain ⟨inst₀, b, hinst₀, hbase, hadmin, hpending⟩ := h.members target htarget
  obtain rfl : inst = inst₀ := Option.some.inj (hinst.symm.trans hinst₀)
  refine ⟨b, hbase, fun x hx hauth => ?_⟩
  obtain rfl : x = root := by
    rcases hx with rfl | hx
    · exact hadmin
    · rw [hpending] at hx
      cases hx
  have hinvoker : stack.head? = some x := by
    simpa [Env.authorized, Transaction.env, hendorses.root] using hauth
  exact hadmits.2 hinvoker

/-- What ProjectRoot itself does on a call: it was approved, or it changes nothing and
calls nobody. -/
theorem Owned.root_step {call : Call} {inst : Instance} {v : Val} {frame : Frame Instance ω}
    {world : ω} (h : Owned account root ours answers w)
    (hendorses : Endorses account root approves tx) (hadmits : Admits account root stack call)
    (hinst : w.contracts root = some inst)
    (hrun : dispatch p host (tx.env stack root call) call inst world = .ok (v, frame)) :
    Approved root approves ⟨tx.env stack root call, call⟩ ∨ frame = ⟨inst, world⟩ := by
  obtain ⟨s, hs, hadmin, hpending⟩ := h.root_eq
  obtain rfl : inst = .projectRoot s := Option.some.inj (hinst.symm.trans hs)
  obtain ⟨inner, hcall, rfl⟩ := asInstance_eq_ok.mp hrun
  have hreturns := entryPoint_eq_ok.mp hcall
  cases hcase : call.isAdministrative with
  | true =>
      have hauth := ProjectRoot.authorized_of_isAdministrative hcase hreturns
      rw [hadmin] at hauth
      -- the account does not call, so it signed
      have hsigned : tx.signed account root call = true := by
        simpa [Env.authorized, Transaction.env, hadmits.1] using hauth
      exact Or.inl ⟨rfl, hcase, hendorses.owner call hsigned⟩
  | false =>
      rw [ProjectRoot.eq_of_not_isAdministrative hcase hpending hreturns]
      exact Or.inr rfl

/-- A commit leaves the governance alone if it leaves that of its target alone. -/
theorem Unchanged.commit {S : Set Address} {target : Address} {inst inst' : Instance}
    {inv : Invocation} (h : Unchanged S w w') (hinst : w.contracts target = some inst)
    (hsame : target ∈ S → inst.SameGovernance inst') :
    Unchanged S w (w'.commit target inst' inv) := by
  intro a ha inst₀ hinst₀
  by_cases heq : a = target
  · subst heq
    obtain rfl : inst = inst₀ := Option.some.inj (hinst.symm.trans hinst₀)
    exact ⟨inst', w'.commit_contracts_self .., hsame ha⟩
  · obtain ⟨inst₁, hinst₁, hlater⟩ := h a ha inst₀ hinst₀
    exact ⟨inst₁, by rw [World.commit_contracts_of_ne heq, hinst₁], hlater⟩

/-- An invocation guards the governance of an owned project. -/
theorem invoke_guards (p : Platform) (hendorses : Endorses account root approves tx) (depth : ℕ)
    (stack : List Address) (target : Address) (call : Call) (w : World) :
    Guards account root ours answers approves (Admits account root stack call) w
      (invoke p tx depth stack target call w).2 := by
  -- on the depth: what the called contract invokes runs one frame deeper
  induction depth generalizing stack target call w with
  | zero => exact .refl _ w
  | succ depth ih =>
      rcases invoke_cases p tx (depth + 1) stack target call w with
        ⟨e, hfailed⟩ | ⟨below, inst, v, frame, hdepth, hstack, hinst, hrun, hcommitted⟩
      · rw [hfailed]
        exact .refl _ w
      obtain rfl : depth = below := Nat.succ_injective hdepth
      rw [hcommitted]
      have hnested : Guards account root ours answers approves
          (target ≠ account ∧ target ≠ root) w frame.world := by
        refine Guards.of_steps (fun u u' => ?_) (dispatch_visits hrun)
        rintro ⟨a, c, -, rfl⟩
        refine (ih (target :: stack) a c u).mono fun hne => ⟨?_, ?_⟩
        · exact fun h => hne.1 (Option.some.inj h)
        · exact fun h => absurd (Option.some.inj h) hne.2
      obtain ⟨J, hJ, hguards⟩ := hnested
      refine ⟨J ++ [⟨tx.env stack target call, call⟩], ?_, ?_⟩
      · rw [World.commit_journal, hJ, List.append_assoc]
      intro hadmits howned
      by_cases haccount : target = account
      · subst haccount
        obtain rfl : inst = .foreign _ := Option.some.inj (hinst.symm.trans howned.account_eq)
        obtain rfl := MultisigAccount.eq_of_dispatch hrun
        refine Or.inr ⟨?_, (Unchanged.refl _ w).commit hinst fun _ => .same _⟩
        rw [World.commit_contracts_self, hinst]
      by_cases hroot : target = root
      · subst hroot
        rcases howned.root_step hendorses hadmits hinst hrun with happroved | rfl
        · exact Or.inl ⟨_, List.mem_append_right _ (List.mem_singleton_self _), happroved⟩
        · refine Or.inr ⟨?_, (Unchanged.refl _ w).commit hinst fun _ => .same _⟩
          exact World.commit_contracts_of_ne (Ne.symm haccount)
      -- any other contract is above what it calls
      rcases hguards ⟨haccount, hroot⟩ howned with ⟨inv, hinv, happroved⟩ | ⟨hkept, hsame⟩
      · exact Or.inl ⟨inv, List.mem_append_left _ hinv, happroved⟩
      refine Or.inr ⟨?_, hsame.commit hinst fun htarget => ?_⟩
      · rw [World.commit_contracts_of_ne (Ne.symm haccount), hkept]
      · have hours : target ∈ ours := htarget.resolve_left hroot
        obtain ⟨b, hbase, hclosed⟩ := howned.closed hendorses hadmits hours hinst
        have hexecutes : inst.Executes p ⟨tx.env stack target call, call⟩ frame.storage :=
          ⟨World, _, w, frame.world, v, hrun⟩
        exact hexecutes.sameGovernance hbase hclosed

/-! ## Runs -/

/-- Every transaction of the operations is one that `Endorses` describes. -/
def AllEndorse (account root : Address) (approves : Call → Prop) (ops : List Operation) : Prop :=
  ∀ tx target call, .transact tx target call ∈ ops → Endorses account root approves tx

theorem Step.guards {sys sys' : System} {op : Operation} (h : Step p sys op sys')
    (hendorses : AllEndorse account root approves [op]) :
    Guards account root ours answers approves True sys.world sys'.world := by
  cases h with
  | deploy a inst hfresh _ =>
      -- what is there already is not at a fresh address
      have hkept : ∀ b inst', sys.world.contracts b = some inst' →
          Function.update sys.world.contracts a (some inst) b = some inst' := by
        intro b inst' hinst'
        have hne : b ≠ a := by
          rintro rfl
          rw [hfresh] at hinst'
          cases hinst'
        rw [Function.update_of_ne hne, hinst']
      refine ⟨[], (List.append_nil _).symm, fun _ howned => Or.inr ⟨?_, ?_⟩⟩
      · rw [howned.account_eq]
        exact hkept _ _ howned.account_eq
      · exact fun b _ inst' hinst' => ⟨inst', hkept b inst' hinst', .same inst'⟩
  | transact tx target call _ =>
      have htx : Endorses account root approves tx :=
        hendorses tx target call (List.mem_singleton_self _)
      -- nothing is on the stack of a transaction
      exact (invoke_guards p htx depthLimit [] target call sys.world).mono fun _ =>
        ⟨by simp, by simp⟩

theorem guards_of_path {sys sys' : System} {ops : List Operation}
    (h : Transition.Path (Step p) sys ops sys') (hendorse : AllEndorse account root approves ops) :
    Guards account root ours answers approves True sys.world sys'.world := by
  induction h with
  | nil => exact .refl True _
  | snoc _ hlast ih =>
      have hops : AllEndorse account root approves _ :=
        fun tx target call h => hendorse tx target call (List.mem_append_left _ h)
      have hop : AllEndorse account root approves _ :=
        fun tx target call h => hendorse tx target call (List.mem_append_right _ h)
      exact (ih hops).trans (hlast.guards hop)

end Calls

/-! ## The quorum -/

namespace MultisigAccount

/-- The host takes a call as signed by the account when `__check_auth` has accepted
signatures over a payload that covers it. -/
def Authenticates (p : Platform) (covers : BytesN 32 → Address → Call → Prop) (account : Address)
    (s : Storage) (tx : Transaction) : Prop :=
  ∀ target call, tx.signed account target call = true →
    ∃ payload sigs, covers payload target call ∧ Accepts p s payload sigs

/-- At least `n` of the keys have signed one payload, and it covers the call. -/
def Endorsed (p : Platform) (covers : BytesN 32 → Address → Call → Prop)
    (keys : List (BytesN 32)) (n : ℕ) (target : Address) (call : Call) : Prop :=
  ∃ payload, covers payload target call ∧ ∃ signed : Finset (BytesN 32), n ≤ signed.card ∧
    ∀ key ∈ signed, key ∈ keys ∧
      ∃ signature, p.ed25519Verify key payload.toArray signature = true

theorem Authenticates.endorsed {covers : BytesN 32 → Address → Call → Prop}
    {account target : Address} {call : Call} {keys : List (BytesN 32)} {n : ℕ}
    (h : Authenticates p covers account ⟨some keys, some n⟩ tx)
    (hsigned : tx.signed account target call = true) : Endorsed p covers keys n target call := by
  obtain ⟨payload, sigs, hcovers, haccepts⟩ := h target call hsigned
  obtain ⟨signed, hcard, hsigned⟩ := (accepts_iff.mp haccepts).signed
  refine ⟨payload, hcovers, signed, hcard, fun key hkey => ?_⟩
  obtain ⟨hregistered, signature, -, hverifies⟩ := hsigned key hkey
  exact ⟨hregistered, signature, hverifies⟩

end MultisigAccount

section Quorum

variable {account root handler : Address} {t t' t'' : VerificationType}
  {q : ProjectRoot.Storage} {s : Security.Storage t} {v : Verification.Storage}
  {h : Handler.Storage} {answers : Env → Call → Reply} {w w' : World}
  {covers : BytesN 32 → Address → Call → Prop} {keys : List (BytesN 32)} {n : ℕ}

/-- The project has no transfer of an admin role pending. -/
def NoTransfer (q : ProjectRoot.Storage) (s : Security.Storage t) (v : Verification.Storage)
    (h : Handler.Storage) : Prop :=
  ∀ pending ∈ [q.base.pndAdmin, s.base.pndAdmin, v.base.pndAdmin, h.base.pndAdmin],
    pending = none

theorem HandedOver.owned (hproject : HandedOver w root handler t t' t'' q s v h)
    (howner : q.base.admin = account)
    (haccount : w.contracts account = some (.foreign (MultisigAccount.contract answers)))
    (hvacant : NoTransfer q s v h) :
    Owned account root {q.securityContract, q.verificationContract, handler} answers w where
  account_eq := haccount
  root_eq := ⟨q, hproject.root_eq, howner, hvacant _ (by simp)⟩
  members a ha := by
    rcases ha with rfl | rfl | rfl
    · exact ⟨_, s.base, hproject.security_eq, rfl, hproject.security_admin,
        hvacant _ (by simp)⟩
    · exact ⟨_, v.base, hproject.verification_eq, rfl, hproject.verification_admin,
        hvacant _ (by simp)⟩
    · exact ⟨_, h.base, hproject.handler_eq, rfl, hproject.handler_admin,
        hvacant _ (by simp)⟩

theorem HandedOver.of_unchanged (hproject : HandedOver w root handler t t' t'' q s v h)
    (hsame : Unchanged (project root handler q) w w') :
    ∃ h', HandedOver w' root handler t t' t'' q s v h' ∧ Handler.Kept h h' := by
  have hours : ∀ a ∈ [root, q.securityContract, q.verificationContract, handler],
      a ∈ project root handler q := by simp [project]
  obtain ⟨inst', hinst', hlater⟩ := hsame handler (hours _ (by simp)) _ hproject.handler_eq
  obtain ⟨h', rfl, hkept⟩ : ∃ h', inst' = .handler t'' h' ∧ Handler.Kept h h' := by
    cases hlater with
    | same => exact ⟨h, rfl, rfl, rfl, rfl, rfl, rfl⟩
    | handler hkept => exact ⟨_, rfl, hkept⟩
  have hadmin' : h'.base.admin = root := hkept.admin.trans hproject.handler_admin
  refine ⟨h', ⟨?_, ?_, ?_, hinst', hproject.security_admin, hproject.verification_admin,
    hadmin'⟩, hkept⟩
  · exact hsame.of_same (hours _ (by simp)) hproject.root_eq fun _ h => by cases h; rfl
  · exact hsame.of_same (hours _ (by simp)) hproject.security_eq fun _ h => by cases h; rfl
  · exact hsame.of_same (hours _ (by simp)) hproject.verification_eq fun _ h => by cases h; rfl

/-- The governance of a project that a multisig account owns changes in a run only if at
least as many of its keys as its threshold says have signed for a call that ProjectRoot
reserves for its admin, and that call returned.  ProjectRoot itself signs for nothing. -/
theorem multisig_governs {s₀ st : MultisigAccount.Storage} {sys sys' : System}
    {ops : List Operation} {J : List Invocation}
    (hconstructed : (MultisigAccount.constructor keys n).run s₀ = .ok ((), st))
    (hproject : HandedOver sys.world root handler t t' t'' q s v h)
    (howner : q.base.admin = account)
    (haccount : sys.world.contracts account = some (.foreign (MultisigAccount.contract answers)))
    (hvacant : NoTransfer q s v h)
    (hpath : Transition.Path (Step p) sys ops sys')
    (hjournal : sys'.world.journal = sys.world.journal ++ J)
    (hauthenticates : ∀ tx target call, .transact tx target call ∈ ops →
      MultisigAccount.Authenticates p covers account st tx)
    (hroot : ∀ tx target call, .transact tx target call ∈ ops →
      ∀ target' call', tx.signed root target' call' = false) :
    (∃ h', HandedOver sys'.world root handler t t' t'' q s v h' ∧ Handler.Kept h h') ∨
      ∃ inv ∈ J, inv.env.self = root ∧ inv.call.isAdministrative = true ∧
        MultisigAccount.Endorsed p covers keys n root inv.call := by
  obtain ⟨-, rfl⟩ := MultisigAccount.constructor_run_eq_ok.mp hconstructed
  have hendorse : AllEndorse account root (MultisigAccount.Endorsed p covers keys n root) ops := by
    intro tx target call hop
    exact ⟨fun _ hsigned => (hauthenticates tx target call hop).endorsed hsigned,
      hroot tx target call hop⟩
  obtain ⟨J', hJ', hguards⟩ := guards_of_path hpath hendorse
  obtain rfl : J' = J := List.append_cancel_left (hJ'.symm.trans hjournal)
  rcases hguards trivial (hproject.owned howner haccount hvacant) with
    ⟨inv, hinv, happroved⟩ | ⟨-, hsame⟩
  · exact Or.inr ⟨inv, hinv, happroved.self, happroved.administrative, happroved.approved⟩
  · exact Or.inl (hproject.of_unchanged hsame)

end Quorum

/-! ## A payment

The two keys of the account at address 0 sign for a call on the intruder, which tries to
take over the Security contract of the project the account owns. -/

section Sample

open MultisigAccount

def sampleAnswers : Env → Call → Reply :=
  fun _ _ => .ok .void

def ownedProject : World :=
  { sampleProject with
    contracts := Function.update sampleProject.contracts ⟨0⟩
      (some (.foreign (MultisigAccount.contract sampleAnswers))) }

theorem ownedProject_handedOver : HandedOver ownedProject ⟨9⟩ ⟨3⟩ .stellar .stellar .stellar
    governingRoot sampleRegistry (Verification.construct Sample.zeroHash ⟨9⟩ ⟨1⟩)
    (Handler.construct Sample.zeroHash ⟨9⟩ ⟨2⟩) :=
  ⟨rfl, rfl, rfl, rfl, rfl, rfl, rfl⟩

def signedByQuorum : Transaction where
  ledger := 120
  signed x target call := x == ⟨0⟩ && target == ⟨7⟩ && call == .other "pay"

def coversPayment (payload : BytesN 32) (target : Address) (call : Call) : Prop :=
  payload = Sample.messageHash ∧ target = ⟨7⟩ ∧ call = .other "pay"

theorem payment_authenticates : Authenticates Sample.platform coversPayment ⟨0⟩
    ⟨some [Sample.lowKey, Sample.highKey], some 2⟩ signedByQuorum := by
  intro target call hsigned
  obtain ⟨rfl, rfl⟩ : target = ⟨7⟩ ∧ call = .other "pay" := by
    simpa [signedByQuorum] using hsigned
  refine ⟨Sample.messageHash, [⟨Sample.lowKey, Sample.lowSignature⟩,
    ⟨Sample.highKey, Sample.highSignature⟩], ⟨rfl, rfl, rfl⟩, accepts_iff.mpr ⟨?_, ?_, ?_, ?_⟩⟩
  · decide
  · decide
  · decide
  · decide

/-- The system after the payment. -/
def paid : System where
  world := (invoke Sample.platform signedByQuorum depthLimit [] ⟨7⟩ (.other "pay") ownedProject).2
  ledger := 120

theorem payment_path : Transition.Path (Step Sample.platform) ⟨ownedProject, 0⟩
    [.transact signedByQuorum ⟨7⟩ (.other "pay")] paid :=
  (Transition.Path.nil _).snoc (.transact _ signedByQuorum ⟨7⟩ (.other "pay") (Nat.zero_le _))

theorem multisig_governs_sample :
    ∃ h', HandedOver paid.world ⟨9⟩ ⟨3⟩ .stellar .stellar .stellar governingRoot
        sampleRegistry (Verification.construct Sample.zeroHash ⟨9⟩ ⟨1⟩) h' ∧
      Handler.Kept (Handler.construct Sample.zeroHash ⟨9⟩ ⟨2⟩) h' := by
  have hconstructed : (constructor [Sample.lowKey, Sample.highKey] 2).run ⟨none, none⟩ =
      .ok ((), ⟨some [Sample.lowKey, Sample.highKey], some 2⟩) :=
    constructor_run_eq_ok.mpr ⟨⟨by decide, by decide, by decide⟩, rfl⟩
  have hvacant : NoTransfer governingRoot sampleRegistry
      (Verification.construct Sample.zeroHash ⟨9⟩ ⟨1⟩)
      (Handler.construct Sample.zeroHash ⟨9⟩ ⟨2⟩) := by
    intro pending hmem
    have hnone : [governingRoot.base.pndAdmin, sampleRegistry.base.pndAdmin,
        (Verification.construct Sample.zeroHash ⟨9⟩ ⟨1⟩).base.pndAdmin,
        (Handler.construct Sample.zeroHash ⟨9⟩ ⟨2⟩).base.pndAdmin] = List.replicate 4 none := rfl
    rw [hnone] at hmem
    exact (List.mem_replicate.mp hmem).2
  have hauthenticates : ∀ tx target call,
      .transact tx target call ∈ [Operation.transact signedByQuorum ⟨7⟩ (.other "pay")] →
        Authenticates Sample.platform coversPayment ⟨0⟩
          ⟨some [Sample.lowKey, Sample.highKey], some 2⟩ tx := by
    intro tx target call hop
    cases List.mem_singleton.mp hop
    exact payment_authenticates
  have hroot : ∀ tx target call,
      .transact tx target call ∈ [Operation.transact signedByQuorum ⟨7⟩ (.other "pay")] →
        ∀ target' call', tx.signed ⟨9⟩ target' call' = false := by
    intro tx target call hop target' call'
    cases List.mem_singleton.mp hop
    rfl
  -- the intruder was called, and it read the signers
  rcases multisig_governs (J := [⟨signedByQuorum.env [⟨7⟩] ⟨1⟩ .listSigners, .listSigners⟩,
      ⟨signedByQuorum.env [] ⟨7⟩ (.other "pay"), .other "pay"⟩]) hconstructed
    ownedProject_handedOver rfl rfl hvacant payment_path rfl hauthenticates hroot with
    hkept | ⟨inv, hinv, hself, -⟩
  · exact hkept
  · rcases List.mem_cons.mp hinv with rfl | hinv
    · cases hself
    · obtain rfl := List.mem_singleton.mp hinv
      cases hself

end Sample

end WarpDrive
