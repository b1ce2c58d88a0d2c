import WarpDrive.Library.Quorums
import WarpDrive.Library.Timeline
import WarpDrive.Library.Transition

/-!
# Attestation by weighted signers

What a store of attested statements is for, apart from any program that implements
one.  Signers carry weights, which change over time; a threshold says how much of the
total weight a statement asks for; a statement is recorded, once, when signers of
enough weight have signed it.  The weights that count are those of an earlier point
in time, the reference, which nothing that happens later can change.

The statements themselves come with an identifier and a content.  `Step` is the
transition system, one constructor for each of its three actions.  `evidence_of_run` is the
main result: behind everything that is recorded there is a `Certificate`, over the weights
at its reference as every later state still has them.  What a certificate excludes is
counted in `Certificate.exists_signed` and `Certificate.overlap`.
-/

namespace Attestation

open Transition

/-- What the store is about: keys `κ` with weights `α`, thresholds `θ`, and statements `μ`
that carry an identifier in `ι` and a content in `π`. -/
structure Scheme (κ α θ μ ι π : Type*) where
  size : α → ℕ
  /-- the weight that a threshold asks for, out of a total -/
  asks : θ → ℕ → ℕ
  signed : κ → μ → Prop
  content : μ → Option (ι × π)
  /-- how far a reference may lie in the past -/
  window : ℕ

inductive Action (κ α θ μ : Type*) where
  | weigh (now : ℕ) (key : κ) (weight : α)
  | demand (now : ℕ) (threshold : θ)
  | attest (now reference : ℕ) (statement : μ) (signers : Finset κ)

variable {κ α θ μ ι π : Type*}

def Action.now : Action κ α θ μ → ℕ
  | weigh now _ _ | demand now _ | attest now _ _ _ => now

/-- The time of the last action. -/
def lastTime (actions : List (Action κ α θ μ)) : ℕ :=
  (actions.getLast?.map Action.now).getD 0

/-- The threshold after the actions: that of the last demand. -/
def demanded (initial : θ) (actions : List (Action κ α θ μ)) : θ :=
  actions.foldl
    (fun threshold action =>
      match action with
      | .demand _ threshold' => threshold'
      | _ => threshold) initial

theorem lastTime_snoc (actions : List (Action κ α θ μ)) (action : Action κ α θ μ) :
    lastTime (actions ++ [action]) = action.now := by
  simp [lastTime]

theorem lastTime_le {actions : List (Action κ α θ μ)} {now : ℕ}
    (h : ∀ action ∈ actions, action.now ≤ now) : lastTime actions ≤ now := by
  unfold lastTime
  cases hlast : actions.getLast? with
  | none => exact Nat.zero_le _
  | some action => exact h action (List.mem_of_getLast? hlast)

theorem demanded_append (initial : θ) (actions actions' : List (Action κ α θ μ)) :
    demanded initial (actions ++ actions') = demanded (demanded initial actions) actions' :=
  List.foldl_append ..

variable [Zero α]

@[ext] structure State (κ α θ ι π : Type*) [Zero α] where
  now : ℕ
  weights : ℕ → κ →₀ α
  threshold : θ
  accepted : ι → Option π

/-- The signers signed the statement, and they carry what the threshold asks of the weights. -/
structure Certificate (scheme : Scheme κ α θ μ ι π) (weights : κ →₀ α) (threshold : θ)
    (statement : μ) (signers : Finset κ) : Prop where
  signed : ∀ key ∈ signers, scheme.signed key statement
  weighs : ∀ key ∈ signers, weights key ≠ 0
  asks_pos : 0 < scheme.asks threshold (Totals.total scheme.size weights)
  reached : scheme.asks threshold (Totals.total scheme.size weights) ≤
    Totals.weight scheme.size weights signers

/-! ## What a certificate excludes -/

namespace Certificate

variable {scheme : Scheme κ α θ μ ι π} {weights : κ →₀ α} {threshold : θ} {statement statement' : μ}
  {signers signers' bad : Finset κ}

/-- A set of keys that does not weigh enough cannot have signed alone. -/
theorem exists_signed (h : Certificate scheme weights threshold statement signers)
    (hbad : Totals.weight scheme.size weights bad <
      scheme.asks threshold (Totals.total scheme.size weights)) :
    ∃ key, key ∉ bad ∧ key ∈ signers ∧ scheme.signed key statement := by
  obtain ⟨key, hkey, hnot⟩ := Totals.exists_mem_notMem (hbad.trans_le h.reached)
  exact ⟨key, hnot, hkey, h.signed key hkey⟩

/-- What two certificates over the same weights ask for beyond the total, signed both
statements. -/
theorem overlap [DecidableEq κ] {threshold' : θ} (hzero : scheme.size 0 = 0)
    (h : Certificate scheme weights threshold statement signers)
    (h' : Certificate scheme weights threshold' statement' signers') :
    scheme.asks threshold (Totals.total scheme.size weights) +
        scheme.asks threshold' (Totals.total scheme.size weights) ≤
      Totals.total scheme.size weights +
        Totals.weight scheme.size weights (signers ∩ signers') :=
  (Nat.add_le_add h.reached h'.reached).trans (Totals.weight_add_weight_le hzero)

end Certificate

/-! ## The transition system -/

/-- No one weighs anything, and nothing is recorded. -/
def Init (initial : θ) (s : State κ α θ ι π) : Prop :=
  s = ⟨0, fun _ => 0, initial, fun _ => none⟩

variable [DecidableEq ι]

inductive Step (scheme : Scheme κ α θ μ ι π) :
    State κ α θ ι π → Action κ α θ μ → State κ α θ ι π → Prop
  | weigh {s : State κ α θ ι π} (now : ℕ) (key : κ) (weight : α) (hnow : s.now ≤ now) :
      Step scheme s (.weigh now key weight) { s with
        now := now
        weights := Timeline.update s.weights now ((s.weights now).update key weight) }
  | demand {s : State κ α θ ι π} (now : ℕ) (threshold : θ) (hnow : s.now ≤ now) :
      Step scheme s (.demand now threshold) { s with now := now, threshold := threshold }
  | attest {s : State κ α θ ι π} {id : ι} {content : π} (now reference : ℕ) (statement : μ)
      (signers : Finset κ) (hnow : s.now ≤ now) (hpast : reference < now)
      (hwindow : now - reference ≤ scheme.window)
      (hcontent : scheme.content statement = some (id, content)) (hnew : s.accepted id = none)
      (hcertificate :
        Certificate scheme (s.weights reference) s.threshold statement signers) :
      Step scheme s (.attest now reference statement signers) { s with
        now := now
        accepted := Function.update s.accepted id (some content) }

variable {scheme : Scheme κ α θ μ ι π} {s s' : State κ α θ ι π} {action : Action κ α θ μ}
  {actions : List (Action κ α θ μ)} {initial : θ} {id : ι} {content : π}

/-! ## Runs -/

theorem Step.now_le (h : Step scheme s action s') : s.now ≤ s'.now := by
  cases h with
  | weigh _ _ _ hnow | demand _ _ hnow | attest _ _ _ _ hnow => exact hnow

/-- The weights at a time that has passed are settled. -/
theorem Step.settled (h : Step scheme s action s') {r : ℕ} (hr : r < s.now) :
    s'.weights r = s.weights r := by
  cases h with
  | weigh now key weight hnow => exact Timeline.update_of_lt (hr.trans_le hnow)
  | demand | attest => rfl

theorem Step.threshold (h : Step scheme s action s') :
    s'.threshold = demanded s.threshold [action] := by
  cases h <;> rfl

/-- Behind a recorded statement: the attestation that recorded it, at a time after its
reference, and a certificate over the weights at the reference, which are as they were then. -/
structure Evidence (scheme : Scheme κ α θ μ ι π) (initial : θ) (actions : List (Action κ α θ μ))
    (s : State κ α θ ι π) (id : ι) (content : π) (before : List (Action κ α θ μ))
    (now reference : ℕ) (statement : μ) (signers : Finset κ) (after : List (Action κ α θ μ)) :
    Prop where
  actions_eq : actions = before ++ .attest now reference statement signers :: after
  content_eq : scheme.content statement = some (id, content)
  past : reference < now
  window : now - reference ≤ scheme.window
  settled : reference < s.now
  certificate :
    Certificate scheme (s.weights reference) (demanded initial before) statement signers

/-- More actions do not take the evidence away. -/
theorem Evidence.snoc {before after : List (Action κ α θ μ)} {now reference : ℕ} {statement : μ}
    {signers : Finset κ}
    (h : Evidence scheme initial actions s id content before now reference statement signers after)
    (hstep : Step scheme s action s') :
    Evidence scheme initial (actions ++ [action]) s' id content before now reference statement
      signers (after ++ [action]) where
  actions_eq := by rw [h.actions_eq, List.append_assoc, List.cons_append]
  content_eq := h.content_eq
  past := h.past
  window := h.window
  settled := h.settled.trans_le hstep.now_le
  certificate := hstep.settled h.settled ▸ h.certificate

/-- The threshold of a run is that of the last demand. -/
theorem threshold_of_run (hrun : Run (Init initial) (Step scheme) actions s) :
    s.threshold = demanded initial actions := by
  refine Run.induction (motive := fun actions s => s.threshold = demanded initial actions)
    ?_ ?_ hrun
  · rintro s rfl
    rfl
  · intro actions s action s' _ ih hstep
    rw [hstep.threshold, ih, demanded_append]

/-- There is evidence for all that a run recorded. -/
theorem evidence_of_run (hrun : Run (Init initial) (Step scheme) actions s)
    (hid : s.accepted id = some content) :
    ∃ before now reference statement signers after, Evidence scheme initial actions s id content
      before now reference statement signers after := by
  refine Run.induction (motive := fun actions s => ∀ id content, s.accepted id = some content →
    ∃ before now reference statement signers after, Evidence scheme initial actions s id content
      before now reference statement signers after) ?_ ?_ hrun id content hid
  · rintro s rfl id content hid
    cases hid
  · intro actions s action s' hrun ih hstep id content hid
    by_cases hold : s.accepted id = some content
    · obtain ⟨before, now, reference, statement, signers, after, h⟩ := ih id content hold
      exact ⟨before, now, reference, statement, signers, _, h.snoc hstep⟩
    -- it was recorded by this action
    cases hstep with
    | weigh | demand => exact absurd hid hold
    | @attest id' content' now reference statement signers hnow hpast hwindow hcontent hnew
        hcertificate =>
        have heq : id = id' := by
          by_contra hne
          exact hold ((Function.update_of_ne hne ..).symm.trans hid)
        subst heq
        obtain rfl : content' = content := by simpa using hid
        refine ⟨actions, now, reference, statement, signers, [], rfl, hcontent, hpast, hwindow,
          hpast, ?_⟩
        rw [← threshold_of_run hrun]
        exact hcertificate

end Attestation
