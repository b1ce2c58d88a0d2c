import WarpDrive.Security.Guarantees
import WarpDrive.System.Journal

/-!
# The contracts of a system

A contract of the composed system went through a run of its own, the one that
the journal records for it.  So what holds of every run of a Security contract
or of a handler holds of the contracts in a system, at any point: between two
transactions, and in the middle of one (`Occurs`).
-/

namespace WarpDrive

variable {p : Platform} {tx : Transaction} {stack : List Address} {w : World} {a : Address}

/-! ## Points of a run -/

/-- `w` occurs while the transaction `tx` runs on a reachable system, below the
contracts on the stack. -/
def Occurs (p : Platform) (tx : Transaction) (stack : List Address) (w : World) : Prop :=
  ∃ sys J, Reachable p sys ∧ sys.ledger ≤ tx.ledger ∧ Extends p tx stack sys.world w J

theorem Reachable.occurs {sys : System} (h : Reachable p sys) (hledger : sys.ledger ≤ tx.ledger) :
    Occurs p tx stack sys.world :=
  ⟨sys, [], h, hledger, .refl _ _⟩

theorem Occurs.consistent (h : Occurs p tx stack w) : Consistent p ⟨w, tx.ledger⟩ := by
  obtain ⟨sys, J, hreach, hledger, hextends⟩ := h
  exact hreach.consistent.extends hledger hextends

theorem callsOf_inOrder {J : List Invocation} (h : InOrder J) : InOrder (callsOf a J) :=
  h.filter _

theorem mem_of_mem_callsOf {J : List Invocation} {inv : Invocation} (h : inv ∈ callsOf a J) :
    inv ∈ J :=
  (List.mem_filter.mp h).1

/-! ## What an invocation does to the contract it reaches -/

/-- The effects of the contracts of WarpDrive, over instances. -/
inductive Instance.Effect (p : Platform) (env : Env) (call : Call) : Instance → Instance → Prop
  | security {t : VerificationType} {s s' : Security.Storage t}
      (heffect : Security.Effect env s call s') :
      Effect p env call (.security t s) (.security t s')
  | verification {ω : Type} {host : Host ω} {frame frame' : Frame Verification.Storage ω}
      (t : VerificationType) (heffect : Verification.Effect host env frame call frame') :
      Effect p env call (.verification t frame.storage) (.verification t frame'.storage)
  | handler {ω : Type} {host : Host ω} {frame frame' : Frame Handler.Storage ω}
      {t : VerificationType} (heffect : Handler.Effect p t host env frame call frame') :
      Effect p env call (.handler t frame.storage) (.handler t frame'.storage)
  | projectRoot {ω : Type} {host : Host ω} {frame frame' : Frame ProjectRoot.Storage ω}
      (heffect : ProjectRoot.Effect host env frame call frame') :
      Effect p env call (.projectRoot frame.storage) (.projectRoot frame'.storage)
  | foreign (f f' : Foreign) : Effect p env call (.foreign f) (.foreign f')

/-- An invocation that returns has one of these effects. -/
theorem Instance.Executes.effect {inst inst' : Instance} {inv : Invocation}
    (h : inst.Executes p inv inst') : inst.Effect p inv.env inv.call inst' := by
  obtain ⟨ω, host, world, world', v, hrun⟩ := h
  cases inst with
  | security t s =>
      obtain ⟨s', hcall, hframe⟩ := dispatch_security_eq_ok.mp hrun
      cases hframe
      exact .security (Security.call_effect hcall)
  | verification t s =>
      obtain ⟨inner, hcall, hframe⟩ := asInstance_eq_ok.mp hrun
      cases hframe
      exact .verification t (Verification.call_effect (entryPoint_eq_ok.mp hcall))
  | handler t s =>
      obtain ⟨inner, hcall, hframe⟩ := asInstance_eq_ok.mp hrun
      cases hframe
      exact .handler (Handler.call_effect (entryPoint_eq_ok.mp hcall))
  | projectRoot s =>
      obtain ⟨inner, hcall, hframe⟩ := asInstance_eq_ok.mp hrun
      cases hframe
      exact .projectRoot (ProjectRoot.call_effect (entryPoint_eq_ok.mp hcall))
  | foreign f =>
      rw [dispatch] at hrun
      split at hrun
      · cases hrun
        exact .foreign f _
      · cases hrun

/-! ## Security contracts -/

theorem Instance.Executes.of_security {inst : Instance} {inv : Invocation}
    {t : VerificationType} {s' : Security.Storage t}
    (h : inst.Executes p inv (.security t s')) :
    ∃ s, inst = .security t s ∧ Security.Executes s inv s' := by
  obtain ⟨ω, host, world, world', v, hrun⟩ := h
  cases inst with
  | security t' s =>
      obtain ⟨s'', hcall, hframe⟩ := dispatch_security_eq_ok.mp hrun
      cases hframe
      exact ⟨s, rfl, v, hcall⟩
  | verification _ _ | handler _ _ | projectRoot _ =>
      obtain ⟨inner, -, hframe⟩ := asInstance_eq_ok.mp hrun
      cases hframe
  | foreign f =>
      rw [dispatch] at hrun
      split at hrun <;> cases hrun

theorem security_run {J : List Invocation} {inst : Instance}
    (h : Transition.Run Instance.Deployed (Instance.Executes p) J inst) {t : VerificationType}
    {s : Security.Storage t} (hinst : inst = .security t s) :
    Transition.Run Security.Deployed Security.Executes J s := by
  refine Transition.Run.induction
    (motive := fun J inst => ∀ s : Security.Storage t, inst = .security t s →
      Transition.Run Security.Deployed Security.Executes J s) ?_ ?_ h s hinst
  · rintro inst hdeployed s rfl
    exact .start hdeployed
  · rintro J inst inv inst' _ ih hexecutes s' rfl
    obtain ⟨s, rfl, hstep⟩ := hexecutes.of_security
    exact (ih s rfl).snoc hstep

/-- The journal of a Security contract is a run of it. -/
theorem Consistent.security {sys : System} (h : Consistent p sys) {t : VerificationType}
    {s : Security.Storage t} (hinst : sys.world.contracts a = some (.security t s)) :
    Security.Reaches (callsOf a sys.world.journal) s sys.ledger where
  run := security_run (h.runs a _ hinst) rfl
  inOrder := callsOf_inOrder h.inOrder
  upTo inv hinv := h.upTo inv (mem_of_mem_callsOf hinv)

theorem Occurs.security (h : Occurs p tx stack w) {t : VerificationType}
    {s : Security.Storage t} (hinst : w.contracts a = some (.security t s)) :
    Security.Represents (callsOf a w.journal) tx.ledger s :=
  (h.consistent.security hinst).represents

/-! ## Handlers -/

theorem Instance.Executes.of_handler {inst : Instance} {inv : Invocation}
    {t : VerificationType} {s' : Handler.Storage}
    (h : inst.Executes p inv (.handler t s')) :
    ∃ s v, inst = .handler t s ∧ Handler.Attempts p t s (inv, .ok v) s' := by
  obtain ⟨ω, host, world, world', v, hrun⟩ := h
  cases inst with
  | handler t' s =>
      obtain ⟨⟨s'', world''⟩, hcall, hframe⟩ := asInstance_eq_ok.mp hrun
      cases hframe
      exact ⟨s, v, rfl, .of_ok host world world'' hcall⟩
  | security _ _ | verification _ _ | projectRoot _ =>
      obtain ⟨inner, -, hframe⟩ := asInstance_eq_ok.mp hrun
      cases hframe
  | foreign f =>
      rw [dispatch] at hrun
      split at hrun <;> cases hrun

/-- The journal of a handler lists the attempts that returned. -/
theorem handler_run {J : List Invocation} {inst : Instance}
    (h : Transition.Run Instance.Deployed (Instance.Executes p) J inst) {t : VerificationType}
    {s : Handler.Storage} (hinst : inst = .handler t s) :
    ∃ attempts : List Handler.Attempt, attempts.map Prod.fst = J ∧
      (∀ attempt ∈ attempts, ∃ v, attempt.2 = .ok v) ∧
      Transition.Run Handler.Deployed (Handler.Attempts p t) attempts s := by
  refine Transition.Run.induction
    (motive := fun J inst => ∀ s : Handler.Storage, inst = .handler t s →
      ∃ attempts : List Handler.Attempt, attempts.map Prod.fst = J ∧
        (∀ attempt ∈ attempts, ∃ v, attempt.2 = .ok v) ∧
        Transition.Run Handler.Deployed (Handler.Attempts p t) attempts s) ?_ ?_ h s hinst
  · rintro inst hdeployed s rfl
    exact ⟨[], rfl, by simp, .start hdeployed⟩
  · rintro J inst inv inst' _ ih hexecutes s' rfl
    obtain ⟨s, v, rfl, hattempt⟩ := hexecutes.of_handler
    obtain ⟨attempts, rfl, hreturned, hrun⟩ := ih s rfl
    refine ⟨attempts ++ [(inv, .ok v)], by simp, fun attempt hmem => ?_, hrun.snoc hattempt⟩
    rcases List.mem_append.mp hmem with hmem | hmem
    · exact hreturned attempt hmem
    · exact ⟨v, by rw [List.mem_singleton.mp hmem]⟩

/-- An event is seen exactly if some submission that decoded to it was accepted. -/
theorem Consistent.isEventSeen_iff {sys : System} (h : Consistent p sys) {t : VerificationType}
    {s : Handler.Storage} (hinst : sys.world.contracts a = some (.handler t s))
    (id : BytesN 20) :
    s.isEventSeen id = true ↔ ∃ inv ∈ callsOf a sys.world.journal, ∃ m,
      Handler.submitted p t inv.call = some m ∧ m.eventId = id := by
  obtain ⟨attempts, hjournal, hreturned, hrun⟩ := handler_run (h.runs a _ hinst) rfl
  rw [(Handler.recorded_of_run hrun id).seen, Bool.not_eq_true',
    List.isEmpty_eq_false_iff_exists_mem, ← hjournal]
  constructor
  · rintro ⟨m, hm⟩
    obtain ⟨hid, attempt, hmem, -, bytes, sigData, hcall, hdecode⟩ :=
      Handler.exists_of_mem_acceptedFor hm
    refine ⟨attempt.1, List.mem_map_of_mem hmem, m, ?_, hid⟩
    rw [hcall, Handler.submitted_submission, hdecode]
  · rintro ⟨_, hinv, m, hsubmitted, hid⟩
    obtain ⟨attempt, hmem, rfl⟩ := List.mem_map.mp hinv
    obtain ⟨v, hreply⟩ := hreturned attempt hmem
    refine ⟨m, List.mem_filterMap.mpr ⟨attempt, hmem, ?_⟩⟩
    simp [Handler.accepted, hreply, hsubmitted, hid]

end WarpDrive
