import WarpDrive.System.World

/-!
# Runs of the system, contract by contract

`invoke_induction` is the induction rule for nested invocations: a relation
between the worlds before and after holds of every invocation if it holds of the
failed ones, and if it holds of a committed one whenever it holds of all those
that were made below it.

Its first use is `invoke_extends`: an invocation extends the journal, leaves the
contracts on its stack alone, and takes every other contract through exactly the
invocations the journal records for it.  So in a reachable system each contract
is in a state that a run of that contract alone reaches (`Reachable.consistent`).
-/

namespace WarpDrive

variable {p : Platform} {ω : Type} {tx : Transaction}

/-! ## What one call invokes -/

/-- The calls that `inst` may make to others while it answers `call` in `env`. -/
def Outgoing (env : Env) (call : Call) : Instance → Call → Prop
  | .security _ _, _ => False
  | .verification _ _, c => c.isConsultation = true
  | .handler _ _, c => c.isConsultation = true
  | .projectRoot s, _ => env.authorized s.base.admin = true ∧ call.isConsultation = false
  | .foreign _, _ => True

theorem asInstance_eq_ok {σ : Type} {wrap : σ → Instance}
    {result : Except InvokeError (Val × Frame σ ω)} {v : Val} {frame : Frame Instance ω} :
    asInstance wrap result = .ok (v, frame) ↔
      ∃ inner, result = .ok (v, inner) ∧ frame = ⟨wrap inner.storage, inner.world⟩ := by
  cases result with
  | error e => simp [asInstance]
  | ok r =>
      obtain ⟨v', inner⟩ := r
      simp only [asInstance, Except.ok.injEq, Prod.mk.injEq]
      constructor
      · rintro ⟨rfl, rfl⟩
        exact ⟨inner, ⟨rfl, rfl⟩, rfl⟩
      · rintro ⟨_, ⟨rfl, rfl⟩, rfl⟩
        exact ⟨rfl, rfl⟩

theorem Behaviour.visits {host : Host ω} (behaviour : Behaviour) {world world' : ω} {v : Val}
    {memory : Bytes} (h : behaviour.run host world = .ok (v, memory, world')) :
    Visits host (fun _ => True) world world' := by
  induction behaviour generalizing world with
  | reply reply memory =>
      cases reply with
      | error e => cases h
      | ok v =>
          cases h
          exact .refl
  | invoke target call next ih =>
      exact .head ⟨target, call, trivial, rfl⟩ (ih _ h)

theorem dispatch_security_eq_ok {host : Host ω} {env : Env} {c : Call} {t : VerificationType}
    {s : Security.Storage t} {world : ω} {v : Val} {frame : Frame Instance ω} :
    dispatch p host env c (.security t s) world = .ok (v, frame) ↔
      ∃ s', (Security.call env c).run s = .ok (v, s') ∧ frame = ⟨.security t s', world⟩ := by
  rw [dispatch, asInstance_eq_ok]
  simp only [entryPoint_eq_ok, onStorage, zoom_run_eq_ok]
  constructor
  · rintro ⟨inner, ⟨s', hrun, rfl⟩, rfl⟩
    exact ⟨s', hrun, rfl⟩
  · rintro ⟨s', hrun, rfl⟩
    exact ⟨⟨s', world⟩, ⟨s', hrun, rfl⟩, rfl⟩

/-- A call that returns affects the world only through its outgoing calls. -/
theorem dispatch_visits {host : Host ω} {env : Env} {c : Call} {inst : Instance} {world : ω}
    {v : Val} {frame : Frame Instance ω}
    (h : dispatch p host env c inst world = .ok (v, frame)) :
    Visits host (Outgoing env c inst) world frame.world := by
  cases inst with
  | security t s =>
      obtain ⟨s', -, rfl⟩ := dispatch_security_eq_ok.mp h
      exact .refl
  | verification t s =>
      obtain ⟨inner, hrun, rfl⟩ := asInstance_eq_ok.mp h
      cases Verification.call_effect (entryPoint_eq_ok.mp hrun) with
      | base => exact .refl
      | query world' _ hvisits =>
          refine Relation.ReflTransGen.mono (fun w w' => ?_) _ _ hvisits
          rintro ⟨target, query, hquery, hstep⟩
          exact ⟨target, query, Call.isConsultation_of_isWeightQuery hquery, hstep⟩
  | handler t s =>
      obtain ⟨inner, hrun, rfl⟩ := asInstance_eq_ok.mp h
      generalize hframe : (⟨s, world⟩ : Frame Handler.Storage ω) = start at hrun
      obtain rfl : start.world = world := hframe ▸ rfl
      cases Handler.call_effect (entryPoint_eq_ok.mp hrun) with
      | base => exact .refl
      | accept bytes sigData m =>
          exact .single ⟨_, Handler.verification bytes sigData, rfl, rfl⟩
  | projectRoot s =>
      obtain ⟨inner, hrun, rfl⟩ := asInstance_eq_ok.mp h
      cases ProjectRoot.call_effect (entryPoint_eq_ok.mp hrun) with
      | base => exact .refl
      | query => exact .refl
      | gated _ _ hconsultation hauth _ hvisits =>
          refine Relation.ReflTransGen.mono (fun w w' => ?_) _ _ hvisits
          rintro ⟨target, call, -, hstep⟩
          exact ⟨target, call, ⟨hauth, hconsultation⟩, hstep⟩
  | foreign f =>
      rw [dispatch] at h
      cases hrun : (f.code env f.memory c).run host world with
      | error e =>
          rw [hrun] at h
          cases h
      | ok r =>
          obtain ⟨v', memory, world'⟩ := r
          rw [hrun] at h
          cases h
          exact Behaviour.visits _ hrun

/-! ## Nested invocations -/

/-- An invocation of a contract that is not on the stack runs it. -/
theorem invoke_succ {depth : ℕ} {stack : List Address} {target : Address} {call : Call}
    {w : World} {inst : Instance} (hstack : target ∉ stack)
    (hinst : w.contracts target = some inst) :
    invoke p tx (depth + 1) stack target call w =
      match dispatch p (hostBelow p tx depth (target :: stack)) (tx.env stack target call) call
          inst w with
      | .ok (v, frame) =>
          (.ok v, frame.world.commit target frame.storage ⟨tx.env stack target call, call⟩)
      | .error e => (.error e, w) := by
  rw [invoke, if_neg hstack, hinst]
  rfl

/-- An invocation fails and changes nothing, or it commits what the called contract
and the invocations below it did. -/
theorem invoke_cases (p : Platform) (tx : Transaction) (depth : ℕ) (stack : List Address)
    (target : Address) (call : Call) (w : World) :
    (∃ e, invoke p tx depth stack target call w = (.error e, w)) ∨
      ∃ below inst v frame, depth = below + 1 ∧ target ∉ stack ∧
        w.contracts target = some inst ∧
        dispatch p (hostBelow p tx below (target :: stack)) (tx.env stack target call) call inst w =
          .ok (v, frame) ∧
        invoke p tx depth stack target call w =
          (.ok v, frame.world.commit target frame.storage ⟨tx.env stack target call, call⟩) := by
  cases depth with
  | zero => exact Or.inl ⟨.abort, rfl⟩
  | succ below =>
      by_cases hstack : target ∈ stack
      · exact Or.inl ⟨.abort, by rw [invoke, if_pos hstack]⟩
      cases hinst : w.contracts target with
      | none => exact Or.inl ⟨.abort, by rw [invoke, if_neg hstack, hinst]⟩
      | some inst =>
          cases hrun : dispatch p (hostBelow p tx below (target :: stack))
              (tx.env stack target call) call inst w with
          | error e => exact Or.inl ⟨e, by rw [invoke_succ hstack hinst, hrun]⟩
          | ok r =>
              refine Or.inr ⟨below, inst, r.1, r.2, rfl, hstack, rfl, hrun, ?_⟩
              rw [invoke_succ hstack hinst, hrun]

theorem invoke_eq_ok {depth : ℕ} {stack : List Address} {target : Address} {call : Call}
    {w : World} {v : Val} (h : (invoke p tx depth stack target call w).1 = .ok v) :
    ∃ below inst frame, depth = below + 1 ∧ target ∉ stack ∧ w.contracts target = some inst ∧
      dispatch p (hostBelow p tx below (target :: stack)) (tx.env stack target call) call inst w =
        .ok (v, frame) := by
  rcases invoke_cases p tx depth stack target call w with
    ⟨e, hfailed⟩ | ⟨below, inst, v', frame, hdepth, hstack, hinst, hrun, hcommitted⟩
  · rw [hfailed] at h
    cases h
  · rw [hcommitted] at h
    cases h
    exact ⟨below, inst, frame, hdepth, hstack, hinst, hrun⟩

/-- The induction rule for nested invocations. -/
theorem invoke_induction {motive : List Address → Address → Call → World → World → Prop}
    (failed : ∀ stack target call w, motive stack target call w w)
    (committed : ∀ stack target call w w' inst inst', target ∉ stack →
      w.contracts target = some inst →
      inst.Executes p ⟨tx.env stack target call, call⟩ inst' →
      Relation.ReflTransGen (fun u u' => ∃ a c, Outgoing (tx.env stack target call) call inst c ∧
        motive (target :: stack) a c u u') w w' →
      motive stack target call w (w'.commit target inst' ⟨tx.env stack target call, call⟩))
    (depth : ℕ) (stack : List Address) (target : Address) (call : Call) (w : World) :
    motive stack target call w (invoke p tx depth stack target call w).2 := by
  -- on the depth: what the called contract invokes runs one frame deeper
  induction depth generalizing stack target call w with
  | zero => exact failed stack target call w
  | succ depth ih =>
      rcases invoke_cases p tx (depth + 1) stack target call w with
        ⟨e, hfailed⟩ | ⟨below, inst, v, frame, hdepth, hstack, hinst, hrun, hcommitted⟩
      · rw [hfailed]
        exact failed stack target call w
      · obtain rfl : depth = below := Nat.succ_injective hdepth
        rw [hcommitted]
        refine committed stack target call w frame.world inst frame.storage hstack hinst
          ⟨World, _, w, frame.world, v, hrun⟩ ?_
        refine Relation.ReflTransGen.mono (fun u u' => ?_) _ _ (dispatch_visits hrun)
        rintro ⟨a, c, houtgoing, rfl⟩
        exact ⟨a, c, houtgoing, ih _ _ _ _⟩

/-! ## Extension of the journal -/

/-- The invocations of one contract. -/
def callsOf (a : Address) (J : List Invocation) : List Invocation :=
  J.filter fun inv => inv.env.self = a

theorem callsOf_append (a : Address) (J J' : List Invocation) :
    callsOf a (J ++ J') = callsOf a J ++ callsOf a J' :=
  List.filter_append ..

theorem callsOf_singleton_self {a : Address} {inv : Invocation} (h : inv.env.self = a) :
    callsOf a [inv] = [inv] := by
  simp [callsOf, h]

theorem callsOf_singleton_of_ne {a : Address} {inv : Invocation} (h : inv.env.self ≠ a) :
    callsOf a [inv] = [] := by
  simp [callsOf, h]

/-- From `w` to `w'`, below the contracts on the stack: the journal grew by `J`, all
at the ledger of the transaction, and `J` is what each contract executed. -/
structure Extends (p : Platform) (tx : Transaction) (stack : List Address) (w w' : World)
    (J : List Invocation) : Prop where
  journal : w'.journal = w.journal ++ J
  ledger : ∀ inv ∈ J, inv.env.ledger = tx.ledger
  untouched : ∀ a ∈ stack, w'.contracts a = w.contracts a ∧ callsOf a J = []
  evolves : ∀ a inst, w.contracts a = some inst →
    ∃ inst', w'.contracts a = some inst' ∧
      Transition.Path (Instance.Executes p) inst (callsOf a J) inst'
  absent : ∀ a, w.contracts a = none → w'.contracts a = none ∧ callsOf a J = []

namespace Extends

variable {stack : List Address} {w w' w'' : World} {J J' : List Invocation}

theorem refl (stack : List Address) (w : World) : Extends p tx stack w w [] where
  journal := (List.append_nil _).symm
  ledger := by simp
  untouched a _ := ⟨rfl, rfl⟩
  evolves a inst h := ⟨inst, h, .nil inst⟩
  absent a h := ⟨h, rfl⟩

theorem trans (h : Extends p tx stack w w' J) (h' : Extends p tx stack w' w'' J') :
    Extends p tx stack w w'' (J ++ J') where
  journal := by rw [h'.journal, h.journal, List.append_assoc]
  ledger inv hinv := (List.mem_append.mp hinv).elim (h.ledger inv) (h'.ledger inv)
  untouched a ha := by
    obtain ⟨hsame, hnone⟩ := h.untouched a ha
    obtain ⟨hsame', hnone'⟩ := h'.untouched a ha
    exact ⟨hsame'.trans hsame, by rw [callsOf_append, hnone, hnone', List.append_nil]⟩
  evolves a inst hinst := by
    obtain ⟨inst', hinst', hpath⟩ := h.evolves a inst hinst
    obtain ⟨inst'', hinst'', hpath'⟩ := h'.evolves a inst' hinst'
    exact ⟨inst'', hinst'', callsOf_append a J J' ▸ hpath.append hpath'⟩
  absent a ha := by
    obtain ⟨hnone, hcalls⟩ := h.absent a ha
    obtain ⟨hnone', hcalls'⟩ := h'.absent a hnone
    exact ⟨hnone', by rw [callsOf_append, hcalls, hcalls', List.append_nil]⟩

/-- What happened below a contract, and then the contract itself. -/
theorem commit {target : Address} {call : Call} {inst inst' : Instance}
    (h : Extends p tx (target :: stack) w w' J) (hstack : target ∉ stack)
    (hinst : w.contracts target = some inst)
    (hexecutes : inst.Executes p ⟨tx.env stack target call, call⟩ inst') :
    Extends p tx stack w (w'.commit target inst' ⟨tx.env stack target call, call⟩)
      (J ++ [⟨tx.env stack target call, call⟩]) where
  journal := by rw [World.commit_journal, h.journal, List.append_assoc]
  ledger inv hinv := by
    rcases List.mem_append.mp hinv with hinv | hinv
    · exact h.ledger inv hinv
    · rw [List.mem_singleton.mp hinv]
      rfl
  untouched a ha := by
    have hne : a ≠ target := fun heq => hstack (heq ▸ ha)
    obtain ⟨hsame, hnone⟩ := h.untouched a (List.mem_cons_of_mem _ ha)
    refine ⟨?_, ?_⟩
    · rw [World.commit_contracts_of_ne hne, hsame]
    · rw [callsOf_append, hnone, callsOf_singleton_of_ne hne.symm, List.append_nil]
  evolves a inst₀ hinst₀ := by
    by_cases heq : a = target
    · -- the contract was on the stack of everything below it
      subst heq
      obtain rfl : inst = inst₀ := Option.some.inj (hinst.symm.trans hinst₀)
      obtain ⟨-, hnone⟩ := h.untouched a List.mem_cons_self
      refine ⟨inst', w'.commit_contracts_self .., ?_⟩
      have hself : callsOf a [⟨tx.env stack a call, call⟩] = [⟨tx.env stack a call, call⟩] :=
        callsOf_singleton_self rfl
      rw [callsOf_append, hnone, hself]
      exact (Transition.Path.nil inst).snoc hexecutes
    · obtain ⟨inst₁, hinst₁, hpath⟩ := h.evolves a inst₀ hinst₀
      refine ⟨inst₁, ?_, ?_⟩
      · rw [World.commit_contracts_of_ne heq, hinst₁]
      · rw [callsOf_append, callsOf_singleton_of_ne (Ne.symm heq), List.append_nil]
        exact hpath
  absent a ha := by
    have hne : a ≠ target := by
      rintro rfl
      rw [hinst] at ha
      cases ha
    obtain ⟨hnone, hcalls⟩ := h.absent a ha
    refine ⟨?_, ?_⟩
    · rw [World.commit_contracts_of_ne hne, hnone]
    · rw [callsOf_append, hcalls, callsOf_singleton_of_ne hne.symm, List.append_nil]

end Extends

/-- An invocation extends the journal by what it did. -/
theorem invoke_extends (p : Platform) (tx : Transaction) (depth : ℕ) (stack : List Address)
    (target : Address) (call : Call) (w : World) :
    ∃ J, Extends p tx stack w (invoke p tx depth stack target call w).2 J := by
  refine invoke_induction (motive := fun stack _ _ w w' => ∃ J, Extends p tx stack w w' J)
    (fun stack _ _ w => ⟨[], .refl stack w⟩) ?_ depth stack target call w
  intro stack target call w w' inst inst' hstack hinst hexecutes hbelow
  -- the contract invokes others one after the other
  have hextends : ∃ J, Extends p tx (target :: stack) w w' J := by
    induction hbelow with
    | refl => exact ⟨[], .refl _ _⟩
    | tail _ hstep ih =>
        obtain ⟨J, hJ⟩ := ih
        obtain ⟨a, c, -, J', hJ'⟩ := hstep
        exact ⟨J ++ J', hJ.trans hJ'⟩
  obtain ⟨J, hJ⟩ := hextends
  exact ⟨_, hJ.commit hstack hinst hexecutes⟩

/-! ## Reachable systems -/

/-- Every contract is in a state that its own journal reaches, and the journal is in
the order of the ledgers, up to the current one. -/
structure Consistent (p : Platform) (sys : System) : Prop where
  runs : ∀ a inst, sys.world.contracts a = some inst →
    Transition.Run Instance.Deployed (Instance.Executes p) (callsOf a sys.world.journal) inst
  absent : ∀ a, sys.world.contracts a = none → callsOf a sys.world.journal = []
  inOrder : InOrder sys.world.journal
  upTo : ∀ inv ∈ sys.world.journal, inv.env.ledger ≤ sys.ledger

theorem Consistent.extends {sys : System} {stack : List Address} {w : World}
    {J : List Invocation} (h : Consistent p sys) (hledger : sys.ledger ≤ tx.ledger)
    (hextends : Extends p tx stack sys.world w J) : Consistent p ⟨w, tx.ledger⟩ where
  runs a inst hinst := by
    cases hbefore : sys.world.contracts a with
    | none =>
        obtain ⟨hnone, -⟩ := hextends.absent a hbefore
        rw [hnone] at hinst
        cases hinst
    | some inst₀ =>
        obtain ⟨inst₁, hinst₁, hpath⟩ := hextends.evolves a inst₀ hbefore
        obtain rfl : inst₁ = inst := Option.some.inj (hinst₁.symm.trans hinst)
        rw [hextends.journal, callsOf_append]
        exact (h.runs a inst₀ hbefore).append hpath
  absent a hnone := by
    have hbefore : sys.world.contracts a = none := by
      cases hbefore : sys.world.contracts a with
      | none => rfl
      | some inst₀ =>
          obtain ⟨inst₁, hinst₁, -⟩ := hextends.evolves a inst₀ hbefore
          rw [hinst₁] at hnone
          cases hnone
    rw [hextends.journal, callsOf_append, h.absent a hbefore, (hextends.absent a hbefore).2]
    rfl
  inOrder := by
    rw [hextends.journal]
    refine List.pairwise_append.mpr ⟨h.inOrder, ?_, ?_⟩
    · -- all of a transaction is at one ledger
      apply List.pairwise_of_forall_mem_list
      intro inv hinv inv' hinv'
      rw [hextends.ledger inv hinv, hextends.ledger inv' hinv']
    · intro inv hinv inv' hinv'
      rw [hextends.ledger inv' hinv']
      exact (h.upTo inv hinv).trans hledger
  upTo inv hinv := by
    rw [hextends.journal] at hinv
    rcases List.mem_append.mp hinv with hinv | hinv
    · exact (h.upTo inv hinv).trans hledger
    · exact (hextends.ledger inv hinv).le

theorem Consistent.deploy {sys : System} {a : Address} {inst : Instance} (h : Consistent p sys)
    (hfresh : sys.world.contracts a = none) (hdeployed : inst.Deployed) :
    Consistent p { sys with
      world := { sys.world with
        contracts := Function.update sys.world.contracts a (some inst) } } where
  runs b inst' hinst' := by
    by_cases heq : b = a
    · subst heq
      obtain rfl : inst = inst' := by simpa using hinst'
      rw [show callsOf b sys.world.journal = [] from h.absent b hfresh]
      exact .start hdeployed
    · exact h.runs b inst' (by simpa [Function.update_of_ne heq] using hinst')
  absent b hnone := by
    by_cases heq : b = a
    · subst heq
      exact h.absent b hfresh
    · exact h.absent b (by simpa [Function.update_of_ne heq] using hnone)
  inOrder := h.inOrder
  upTo := h.upTo

/-- Every reachable system is consistent. -/
theorem Reachable.consistent {sys : System} (h : Reachable p sys) : Consistent p sys := by
  obtain ⟨ops, hrun⟩ := h
  refine Transition.Run.induction (motive := fun _ sys => Consistent p sys) ?_ ?_ hrun
  · rintro sys rfl
    exact ⟨nofun, fun _ _ => rfl, .nil, by simp⟩
  · intro _ sys op sys' _ ih hstep
    cases hstep with
    | deploy a inst hfresh hdeployed => exact ih.deploy hfresh hdeployed
    | transact tx target call hledger =>
        obtain ⟨J, hextends⟩ := invoke_extends p tx depthLimit [] target call sys.world
        exact ih.extends hledger hextends

end WarpDrive
