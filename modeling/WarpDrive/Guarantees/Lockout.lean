import WarpDrive.Guarantees.Acceptance

/-!
# The lock-out after a handover

A contract lets nobody but its admin and its pending admin change how it is governed.
If these are contracts of the project, or addresses that authorize nothing, then the
governance of the project is locked: the contracts of the project call each other only
to consult, since a forwarder that returns was authorized by the admin of ProjectRoot.
-/

namespace WarpDrive

/-! ## One call -/

/-- Whoever governs the contract authorizes consultations at most. -/
def Closed (env : Env) (c : Call) (b : Base) : Prop :=
  ∀ x, x = b.admin ∨ b.pndAdmin = some x → env.authorized x = true → c.isConsultation = true

section Effects

variable {p : Platform} {t : VerificationType} {ω : Type} {host : Host ω} {env : Env} {c : Call}

theorem Closed.consults {b : Base} (h : Closed env c b) (hauth : env.authorized b.admin = true) :
    c.isConsultation = true :=
  h b.admin (Or.inl rfl) hauth

theorem BaseStep.eq_of_closed {b b' : Base} (h : BaseStep env b c b') (hclosed : Closed env c b) :
    b' = b := by
  cases h with
  | upgrade _ _ hauth => cases hclosed.consults hauth
  | propose _ hauth => cases hclosed.consults hauth
  | accept pending hpending hauth => cases hclosed pending (Or.inr hpending) hauth
  | query _ _ => rfl

theorem Security.Effect.eq_of_closed {s s' : Security.Storage t} (h : Security.Effect env s c s')
    (hclosed : Closed env c s.base) : s' = s := by
  cases h with
  | add _ _ _ hauth _ _ => cases hclosed.consults hauth
  | remove _ _ hauth _ _ => cases hclosed.consults hauth
  | removeUnknown _ hauth _ => cases hclosed.consults hauth
  | setThreshold _ _ hauth _ => cases hclosed.consults hauth
  | base _ _ _ hbase => rw [hbase.eq_of_closed hclosed]

theorem Verification.Effect.eq_of_closed {frame frame' : Frame Verification.Storage ω}
    (h : Verification.Effect host env frame c frame') (hclosed : Closed env c frame.storage.base) :
    frame'.storage = frame.storage := by
  cases h with
  | base _ hbase => rw [hbase.eq_of_closed hclosed]
  | query _ _ _ => rfl

theorem ProjectRoot.Effect.eq_of_closed {frame frame' : Frame ProjectRoot.Storage ω}
    (h : ProjectRoot.Effect host env frame c frame') (hclosed : Closed env c frame.storage.base) :
    frame'.storage = frame.storage := by
  cases h with
  | base _ hbase => rw [hbase.eq_of_closed hclosed]
  | query _ => rfl
  | gated _ _ hconsultation hauth _ _ =>
      rw [hclosed.consults hauth] at hconsultation
      cases hconsultation

/-- What a submission leaves alone in a handler. -/
structure Handler.Kept (s s' : Handler.Storage) : Prop where
  admin : s'.base.admin = s.base.admin
  pndAdmin : s'.base.pndAdmin = s.base.pndAdmin
  version : s'.base.version = s.base.version
  wasm : s'.base.wasm = s.base.wasm
  verificationContract : s'.verificationContract = s.verificationContract

theorem Handler.Kept.trans {s s' s'' : Handler.Storage} (h : Kept s s') (h' : Kept s' s'') :
    Kept s s'' :=
  ⟨h'.admin.trans h.admin, h'.pndAdmin.trans h.pndAdmin, h'.version.trans h.version,
    h'.wasm.trans h.wasm, h'.verificationContract.trans h.verificationContract⟩

theorem Handler.Effect.kept_of_closed {frame frame' : Frame Handler.Storage ω}
    (h : Handler.Effect p t host env frame c frame') (hclosed : Closed env c frame.storage.base) :
    Handler.Kept frame.storage frame'.storage := by
  cases h with
  | accept bytes sigData m _ _ => exact ⟨rfl, rfl, rfl, rfl, rfl⟩
  | base _ b _ hbase =>
      rw [hbase.eq_of_closed hclosed]
      exact ⟨rfl, rfl, rfl, rfl, rfl⟩

end Effects

/-- A contract and the same contract later, under the same governance: only the
events that a handler has recorded may differ. -/
inductive Instance.SameGovernance : Instance → Instance → Prop
  | same (inst : Instance) : SameGovernance inst inst
  | handler {t : VerificationType} {s s' : Handler.Storage} (hkept : Handler.Kept s s') :
      SameGovernance (.handler t s) (.handler t s')

namespace Instance.SameGovernance

variable {inst inst' inst'' : Instance}

theorem trans (h : inst.SameGovernance inst') (h' : inst'.SameGovernance inst'') :
    inst.SameGovernance inst'' := by
  cases h with
  | same => exact h'
  | handler hkept =>
      cases h' with
      | same => exact .handler hkept
      | handler hkept' => exact .handler (hkept.trans hkept')

theorem base? {b : Base} (h : inst.SameGovernance inst') (hbase : inst.base? = some b) :
    ∃ b', inst'.base? = some b' ∧ b'.admin = b.admin ∧ b'.pndAdmin = b.pndAdmin := by
  cases h with
  | same => exact ⟨b, hbase, rfl, rfl⟩
  | handler hkept =>
      cases hbase
      exact ⟨_, rfl, hkept.admin, hkept.pndAdmin⟩

end Instance.SameGovernance

section Invocations

variable {p : Platform} {inst inst' : Instance} {inv : Invocation} {b : Base}

/-- A call that nobody who governs the contract authorized leaves its governance alone. -/
theorem Instance.Executes.sameGovernance (h : inst.Executes p inv inst')
    (hbase : inst.base? = some b) (hclosed : Closed inv.env inv.call b) :
    inst.SameGovernance inst' := by
  cases h.effect with
  | security heffect =>
      cases hbase
      rw [heffect.eq_of_closed hclosed]
      exact .same _
  | verification _ heffect =>
      cases hbase
      rw [heffect.eq_of_closed hclosed]
      exact .same _
  | handler heffect =>
      cases hbase
      exact .handler (heffect.kept_of_closed hclosed)
  | projectRoot heffect =>
      cases hbase
      rw [heffect.eq_of_closed hclosed]
      exact .same _
  | foreign _ _ => cases hbase

/-- Such a call makes no calls itself but consultations. -/
theorem Outgoing.isConsultation {env : Env} {call c : Call} (h : Outgoing env call inst c)
    (hbase : inst.base? = some b) (hclosed : Closed env call b) : c.isConsultation = true := by
  cases inst with
  | security t s => exact absurd h id
  | verification t s => exact h
  | handler t s => exact h
  | projectRoot s =>
      cases hbase
      obtain ⟨hauth, hconsultation⟩ := h
      rw [hclosed.consults hauth] at hconsultation
      cases hconsultation
  | foreign f => cases hbase

end Invocations

/-! ## Nested calls -/

section Locked

variable {p : Platform} {tx : Transaction} {A ours : Set Address} {stack : List Address}
  {w w' w'' : World} {condition condition' : Prop}

/-- Nobody in `A` governs a contract of `ours`. -/
def GovernedOutside (A ours : Set Address) (w : World) : Prop :=
  ∀ a ∈ ours, ∃ inst b, w.contracts a = some inst ∧ inst.base? = some b ∧
    b.admin ∉ A ∧ ∀ x, b.pndAdmin = some x → x ∉ A

/-- Nobody authorizes the call but addresses in `A`, and the contract of `ours` that
makes the call, if one does. -/
def AuthorizedWithin (A ours : Set Address) (env : Env) : Prop :=
  ∀ x, env.authorized x = true → x ∈ A ∨ x ∈ ours ∧ env.invoker = some x

/-- A call that a contract of `ours` makes is a consultation. -/
def Consulting (ours : Set Address) (stack : List Address) (c : Call) : Prop :=
  ∀ x ∈ ours, stack.head? = some x → c.isConsultation = true

/-- The contracts of `ours` are under the same governance in both worlds. -/
def Unchanged (ours : Set Address) (w w' : World) : Prop :=
  ∀ a ∈ ours, ∀ inst, w.contracts a = some inst →
    ∃ inst', w'.contracts a = some inst' ∧ inst.SameGovernance inst'

theorem Unchanged.trans (h : Unchanged ours w w') (h' : Unchanged ours w' w'') :
    Unchanged ours w w'' := by
  intro a ha inst hinst
  obtain ⟨inst', hinst', hsame⟩ := h a ha inst hinst
  obtain ⟨inst'', hinst'', hsame'⟩ := h' a ha inst' hinst'
  exact ⟨inst'', hinst'', hsame.trans hsame'⟩

theorem GovernedOutside.of_unchanged (h : GovernedOutside A ours w) (hsame : Unchanged ours w w') :
    GovernedOutside A ours w' := by
  intro a ha
  obtain ⟨inst, b, hinst, hbase, hadmin, hpending⟩ := h a ha
  obtain ⟨inst', hinst', hsame⟩ := hsame a ha inst hinst
  obtain ⟨b', hbase', hadmin', hpending'⟩ := hsame.base? hbase
  exact ⟨inst', b', hinst', hbase', hadmin' ▸ hadmin, fun x hx => hpending x (hpending' ▸ hx)⟩

/-- Who governs a contract of `ours` is not in `A`, so such an address can authorize a
call only by making it. -/
theorem AuthorizedWithin.closed {env : Env} {c : Call} {b : Base}
    (h : AuthorizedWithin A ours env) (hinvoker : env.invoker = stack.head?)
    (hconsulting : Consulting ours stack c) (hadmin : b.admin ∉ A)
    (hpending : ∀ x, b.pndAdmin = some x → x ∉ A) : Closed env c b := by
  intro x hx hauth
  have houtside : x ∉ A := by
    rcases hx with rfl | hx
    · exact hadmin
    · exact hpending x hx
  rcases h x hauth with hmem | ⟨hours, hmakes⟩
  · exact absurd hmem houtside
  · exact hconsulting x hours (hinvoker ▸ hmakes)

/-- From `w` to `w'` the journal grew; under the condition, if the calls it grew by are
authorized within `A`, the contracts of `ours` are unchanged. -/
def Locks (A ours : Set Address) (condition : Prop) (w w' : World) : Prop :=
  ∃ J, w'.journal = w.journal ++ J ∧
    (condition → (∀ inv ∈ J, AuthorizedWithin A ours inv.env) → GovernedOutside A ours w →
      Unchanged ours w w')

namespace Locks

theorem refl (A ours : Set Address) (condition : Prop) (w : World) : Locks A ours condition w w :=
  ⟨[], (List.append_nil _).symm, fun _ _ _ _ _ inst hinst => ⟨inst, hinst, .same inst⟩⟩

theorem trans (h : Locks A ours condition w w') (h' : Locks A ours condition w' w'') :
    Locks A ours condition w w'' := by
  obtain ⟨J, hJ, hsame⟩ := h
  obtain ⟨J', hJ', hsame'⟩ := h'
  refine ⟨J ++ J', by rw [hJ', hJ, List.append_assoc], ?_⟩
  intro hcondition hwithin hgoverned
  obtain ⟨hwithin₁, hwithin₂⟩ := List.forall_mem_append.mp hwithin
  have hfirst : Unchanged ours w w' := hsame hcondition hwithin₁ hgoverned
  -- what the first part left is governed as before
  have hgoverned' : GovernedOutside A ours w' := hgoverned.of_unchanged hfirst
  have hsecond : Unchanged ours w' w'' := hsame' hcondition hwithin₂ hgoverned'
  exact hfirst.trans hsecond

theorem mono (h : Locks A ours condition w w') (hle : condition' → condition) :
    Locks A ours condition' w w' := by
  obtain ⟨J, hJ, hsame⟩ := h
  exact ⟨J, hJ, fun hcondition => hsame (hle hcondition)⟩

theorem of_steps {step : World → World → Prop}
    (hstep : ∀ u u', step u u' → Locks A ours condition u u')
    (h : Relation.ReflTransGen step w w') : Locks A ours condition w w' := by
  induction h with
  | refl => exact refl A ours condition w
  | tail _ hlast ih => exact ih.trans (hstep _ _ hlast)

end Locks

/-- An invocation authorized within `A` leaves the contracts of `ours` unchanged. -/
theorem invoke_locks (p : Platform) (tx : Transaction) (A ours : Set Address) (depth : ℕ)
    (stack : List Address) (target : Address) (call : Call) (w : World) :
    Locks A ours (Consulting ours stack call) w (invoke p tx depth stack target call w).2 := by
  refine invoke_induction (motive := fun stack _ call w w' =>
    Locks A ours (Consulting ours stack call) w w')
    (fun stack _ call w => .refl A ours _ w) ?_ depth stack target call w
  intro stack target call w w' inst inst' hstack hinst hexecutes hbelow
  have hnested : Locks A ours (∀ c, Outgoing (tx.env stack target call) call inst c →
      Consulting ours (target :: stack) c) w w' := by
    refine Locks.of_steps (fun u u' => ?_) hbelow
    rintro ⟨a, c, houtgoing, hlocks⟩
    exact hlocks.mono fun h => h c houtgoing
  obtain ⟨J, hJ, hsame⟩ := hnested
  refine ⟨J ++ [⟨tx.env stack target call, call⟩], ?_, ?_⟩
  · rw [World.commit_journal, hJ, List.append_assoc]
  intro hconsulting hwithin hgoverned
  obtain ⟨hwithin₁, hwithin₂⟩ := List.forall_mem_append.mp hwithin
  have henv : AuthorizedWithin A ours (tx.env stack target call) :=
    hwithin₂ _ (List.mem_singleton_self _)
  -- what the call may do, if its target is one of ours
  have hclosed : target ∈ ours → ∃ b, inst.base? = some b ∧
      Closed (tx.env stack target call) call b := by
    intro htarget
    obtain ⟨inst₀, b, hinst₀, hbase, hadmin, hpending⟩ := hgoverned target htarget
    obtain rfl : inst = inst₀ := Option.some.inj (hinst.symm.trans hinst₀)
    exact ⟨b, hbase, henv.closed rfl hconsulting hadmin hpending⟩
  -- a contract of ours consults when it is not called to do more, so the calls below
  -- are authorized within `A` again
  have hbelow : Unchanged ours w w' := by
    refine hsame ?_ hwithin₁ hgoverned
    intro c houtgoing x hx hhead
    obtain rfl : target = x := Option.some.inj hhead
    obtain ⟨b, hbase, hclosed⟩ := hclosed hx
    exact houtgoing.isConsultation hbase hclosed
  -- the host commits the target's storage over what the calls below left
  intro a ha inst₀ hinst₀
  by_cases heq : a = target
  · subst heq
    obtain rfl : inst = inst₀ := Option.some.inj (hinst.symm.trans hinst₀)
    obtain ⟨b, hbase, hclosed⟩ := hclosed ha
    exact ⟨inst', w'.commit_contracts_self .., hexecutes.sameGovernance hbase hclosed⟩
  · obtain ⟨inst₁, hinst₁, hunchanged⟩ := hbelow a ha inst₀ hinst₀
    exact ⟨inst₁, by rw [World.commit_contracts_of_ne heq, hinst₁], hunchanged⟩

/-! ## Runs -/

theorem Step.locks {sys sys' : System} {op : Operation} (h : Step p sys op sys') :
    Locks A ours True sys.world sys'.world := by
  cases h with
  | deploy a inst hfresh _ =>
      refine ⟨[], (List.append_nil _).symm, fun _ _ _ b _ inst' hinst' => ?_⟩
      have hne : b ≠ a := by
        rintro rfl
        rw [hfresh] at hinst'
        cases hinst'
      exact ⟨inst', (Function.update_of_ne hne ..).trans hinst', .same inst'⟩
  | transact tx target call _ =>
      -- nothing is on the stack of a transaction
      have hconsulting : Consulting ours [] call := fun _ _ h => by cases h
      exact (invoke_locks p tx A ours depthLimit [] target call sys.world).mono fun _ => hconsulting

theorem locks_of_path {sys sys' : System} {ops : List Operation}
    (h : Transition.Path (Step p) sys ops sys') : Locks A ours True sys.world sys'.world := by
  induction h with
  | nil => exact .refl A ours True _
  | snoc _ hlast ih => exact ih.trans hlast.locks

end Locked

/-- A project after the handover: ProjectRoot, the Security and the Verification
contract registered with it, and a handler, with ProjectRoot as their admin.  Nothing
depends on the three being for one signature scheme. -/
structure HandedOver (w : World) (root handler : Address) (t t' t'' : VerificationType)
    (q : ProjectRoot.Storage) (s : Security.Storage t) (v : Verification.Storage)
    (h : Handler.Storage) : Prop where
  root_eq : w.contracts root = some (.projectRoot q)
  security_eq : w.contracts q.securityContract = some (.security t s)
  verification_eq : w.contracts q.verificationContract = some (.verification t' v)
  handler_eq : w.contracts handler = some (.handler t'' h)
  security_admin : s.base.admin = root
  verification_admin : v.base.admin = root
  handler_admin : h.base.admin = root

section Lockout

variable {p : Platform} {A : Set Address} {root handler : Address} {t t' t'' : VerificationType}
  {q : ProjectRoot.Storage} {s : Security.Storage t} {v : Verification.Storage}
  {h : Handler.Storage} {w w' : World}

/-- The contracts of the project. -/
def project (root handler : Address) (q : ProjectRoot.Storage) : Set Address :=
  {root, q.securityContract, q.verificationContract, handler}

theorem HandedOver.governedOutside (hproject : HandedOver w root handler t t' t'' q s v h)
    (hroot : root ∉ A) (hadmin : q.base.admin ∉ A)
    (hpending : ∀ x ∈ A, some x ∉ [q.base.pndAdmin, s.base.pndAdmin, v.base.pndAdmin,
      h.base.pndAdmin]) : GovernedOutside A (project root handler q) w := by
  have houtside : ∀ pending ∈ [q.base.pndAdmin, s.base.pndAdmin, v.base.pndAdmin,
      h.base.pndAdmin], ∀ x, pending = some x → x ∉ A := by
    rintro _ hmem x rfl hx
    exact hpending x hx hmem
  intro a ha
  rcases ha with rfl | rfl | rfl | rfl
  · exact ⟨_, q.base, hproject.root_eq, rfl, hadmin, houtside _ (by simp)⟩
  · exact ⟨_, s.base, hproject.security_eq, rfl, hproject.security_admin ▸ hroot,
      houtside _ (by simp)⟩
  · exact ⟨_, v.base, hproject.verification_eq, rfl, hproject.verification_admin ▸ hroot,
      houtside _ (by simp)⟩
  · exact ⟨_, h.base, hproject.handler_eq, rfl, hproject.handler_admin ▸ hroot,
      houtside _ (by simp)⟩

theorem Unchanged.of_same {ours : Set Address} {a : Address} {inst : Instance}
    (h : Unchanged ours w w') (ha : a ∈ ours) (hinst : w.contracts a = some inst)
    (hsame : ∀ inst', inst.SameGovernance inst' → inst' = inst) :
    w'.contracts a = some inst := by
  obtain ⟨inst', hinst', hunchanged⟩ := h a ha inst hinst
  rw [hinst', hsame inst' hunchanged]

/-- No run in which only addresses outside the governance of a project authorize
anything changes it.  `A` holds every address that signs for a call of the run, and
every contract outside the project that makes one. -/
theorem governance_lockout {sys sys' : System} {ops : List Operation} {J : List Invocation}
    (hproject : HandedOver sys.world root handler t t' t'' q s v h)
    (hroot : root ∉ A) (hadmin : q.base.admin ∉ A)
    (hpending : ∀ x ∈ A, some x ∉ [q.base.pndAdmin, s.base.pndAdmin, v.base.pndAdmin,
      h.base.pndAdmin])
    (hpath : Transition.Path (Step p) sys ops sys')
    (hjournal : sys'.world.journal = sys.world.journal ++ J)
    (hauthorized : ∀ inv ∈ J, AuthorizedWithin A (project root handler q) inv.env) :
    ∃ h', HandedOver sys'.world root handler t t' t'' q s v h' ∧ Handler.Kept h h' := by
  obtain ⟨J', hJ', hunchanged⟩ := locks_of_path hpath
  obtain rfl : J' = J := List.append_cancel_left (hJ'.symm.trans hjournal)
  have hsame : Unchanged (project root handler q) sys.world sys'.world :=
    hunchanged trivial hauthorized (hproject.governedOutside hroot hadmin hpending)
  have hours : ∀ a ∈ [root, q.securityContract, q.verificationContract, handler],
      a ∈ project root handler q := by simp [project]
  obtain ⟨inst', hinst', hlater⟩ := hsame handler (hours _ (by simp)) _ hproject.handler_eq
  obtain ⟨h', rfl, hkept⟩ : ∃ h', inst' = .handler t'' h' ∧ Handler.Kept h h' := by
    cases hlater with
    | same => exact ⟨h, rfl, rfl, rfl, rfl, rfl, rfl⟩
    | handler hkept => exact ⟨_, rfl, hkept⟩
  have hadmin' : h'.base.admin = root := hkept.admin.trans hproject.handler_admin
  refine ⟨h', ⟨?_, ?_, ?_, hinst', hproject.security_admin, hproject.verification_admin,
    hadmin'⟩, hkept⟩
  · exact hsame.of_same (hours _ (by simp)) hproject.root_eq fun _ h => by cases h; rfl
  · exact hsame.of_same (hours _ (by simp)) hproject.security_eq fun _ h => by cases h; rfl
  · exact hsame.of_same (hours _ (by simp)) hproject.verification_eq fun _ h => by cases h; rfl

end Lockout

/-! ## An intruder

The contract at address 7 calls the Security contract of a project to become its admin,
and does so again when the upgrade forwarder probes it.  Address 5 sends both calls. -/

section Sample

open Security

def sampleRegistry : Ed25519Security :=
  { twoSignersState with base := { twoSignersState.base with admin := ⟨9⟩ } }

def governingRoot : ProjectRoot.Storage :=
  ProjectRoot.construct Sample.zeroHash ⟨0⟩ ⟨1⟩ ⟨2⟩ "spec" .stellar

def intruder : Foreign where
  code _ memory call :=
    .invoke ⟨1⟩ (.proposeAdmin ⟨7⟩) fun _ =>
      match call with
      | .verificationContract => .reply (.ok (.address ⟨2⟩)) memory
      | _ => .invoke ⟨1⟩ .listSigners fun _ => .reply (.ok .void) memory
  memory := []

def sampleProject : World where
  contracts a :=
    if a = ⟨1⟩ then some (.security .stellar sampleRegistry)
    else if a = ⟨2⟩ then
      some (.verification .stellar (Verification.construct Sample.zeroHash ⟨9⟩ ⟨1⟩))
    else if a = ⟨3⟩ then some (.handler .stellar (Handler.construct Sample.zeroHash ⟨9⟩ ⟨2⟩))
    else if a = ⟨9⟩ then some (.projectRoot governingRoot)
    else if a = ⟨7⟩ then some (.foreign intruder)
    else none
  journal := []

theorem sampleProject_handedOver : HandedOver sampleProject ⟨9⟩ ⟨3⟩ .stellar .stellar .stellar
    governingRoot sampleRegistry (Verification.construct Sample.zeroHash ⟨9⟩ ⟨1⟩)
    (Handler.construct Sample.zeroHash ⟨9⟩ ⟨2⟩) :=
  ⟨rfl, rfl, rfl, rfl, rfl, rfl, rfl⟩

def signedByFive : Transaction where
  ledger := 120
  signed x _ _ := x == ⟨5⟩

def intrusion : List Operation :=
  [.transact signedByFive ⟨7⟩ (.other "intrude"),
    .transact signedByFive ⟨9⟩ (.upgradeContract ⟨7⟩ Sample.zeroHash "2")]

/-- The system after the intrusion. -/
def intruded : System where
  world := (invoke Sample.platform signedByFive depthLimit [] ⟨9⟩
    (.upgradeContract ⟨7⟩ Sample.zeroHash "2")
    (invoke Sample.platform signedByFive depthLimit [] ⟨7⟩ (.other "intrude") sampleProject).2).2
  ledger := 120

theorem intrusion_path :
    Transition.Path (Step Sample.platform) ⟨sampleProject, 0⟩ intrusion intruded := by
  have hstart : Transition.Path (Step Sample.platform) ⟨sampleProject, 0⟩ [] ⟨sampleProject, 0⟩ :=
    .nil _
  have hfirst := hstart.snoc (.transact _ signedByFive ⟨7⟩ (.other "intrude") (Nat.zero_le _))
  exact hfirst.snoc (.transact _ signedByFive ⟨9⟩ (.upgradeContract ⟨7⟩ Sample.zeroHash "2")
    (Nat.le_refl _))

/-- The invocations that returned: the intruder was called, and it read the signers. -/
def intrusionJournal : List Invocation :=
  [⟨signedByFive.env [⟨7⟩] ⟨1⟩ .listSigners, .listSigners⟩,
    ⟨signedByFive.env [] ⟨7⟩ (.other "intrude"), .other "intrude"⟩]

theorem intrusionJournal_authorized (ours : Set Address) :
    ∀ inv ∈ intrusionJournal, AuthorizedWithin {⟨5⟩, ⟨7⟩} ours inv.env := by
  intro inv hinv x hauth
  have hsender : x = ⟨5⟩ ∨ x = ⟨7⟩ := by
    rcases List.mem_cons.mp hinv with rfl | hinv
    · have hcalled : x = ⟨5⟩ ∨ ⟨7⟩ = x := by
        simpa [Env.authorized, Transaction.env, signedByFive] using hauth
      exact hcalled.imp_right Eq.symm
    · obtain rfl := List.mem_singleton.mp hinv
      have hsent : x = ⟨5⟩ := by
        simpa [Env.authorized, Transaction.env, signedByFive] using hauth
      exact Or.inl hsent
  exact Or.inl hsender

theorem governance_lockout_sample :
    ∃ h', HandedOver intruded.world ⟨9⟩ ⟨3⟩ .stellar .stellar .stellar governingRoot
        sampleRegistry (Verification.construct Sample.zeroHash ⟨9⟩ ⟨1⟩) h' ∧
      Handler.Kept (Handler.construct Sample.zeroHash ⟨9⟩ ⟨2⟩) h' := by
  have hadmin : governingRoot.base.admin = ⟨0⟩ := rfl
  have hvacant : [governingRoot.base.pndAdmin, sampleRegistry.base.pndAdmin,
      (Verification.construct Sample.zeroHash ⟨9⟩ ⟨1⟩).base.pndAdmin,
      (Handler.construct Sample.zeroHash ⟨9⟩ ⟨2⟩).base.pndAdmin] = [none, none, none, none] := rfl
  exact governance_lockout sampleProject_handedOver (by simp) (by simp [hadmin])
    (by simp [hvacant]) intrusion_path rfl (intrusionJournal_authorized _)

end Sample

end WarpDrive
