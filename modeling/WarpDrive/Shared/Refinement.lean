import Mathlib.Data.Finset.Card
import WarpDrive.Shared.Checkpoint

/-!
# A pruned history refines the checkpoints

The same pushes, made at ledgers that never decrease, go to a pruned history
(`history`) and to a checkpoint store (`checkpoints`).  Both stand for the step
function `inForce` of these pushes: the pruned history records it over its window
(`history_records`), the checkpoint store holds a timeline that tracks it from
ledger 0 on (`timeline_tracks`, `checkpoints_holds`).  So the two agree on the
latest value and on every target in the window, and before the window the pruned
history may only fall back to the default value (`history_refines_checkpoints`).
-/

namespace WarpDrive

open VecHistory (Entry Pruned Records Tracks)
open Checkpoints (CheckpointStore Holds)

variable {V : Type}

/-! ## Pushes -/

/-- The ledgers of the pushes never decrease. -/
def NonDecreasing (pushes : List (Entry V)) : Prop :=
  pushes.Pairwise fun p q => p.ledger ≤ q.ledger

instance (pushes : List (Entry V)) : Decidable (NonDecreasing pushes) :=
  inferInstanceAs (Decidable (List.Pairwise _ _))

/-- The ledger of the last push. -/
def lastLedger (pushes : List (Entry V)) : ℕ :=
  (pushes.getLast?.map Entry.ledger).getD 0

/-- What `vec_history::push` makes of the pushes. -/
def history (cutoff : ℕ) (pushes : List (Entry V)) : List (Entry V) :=
  pushes.foldl (fun entries p => VecHistory.push cutoff p.ledger entries p.value) []

/-- What `checkpoint::push` makes of the pushes. -/
def checkpoints (pushes : List (Entry V)) : Option (CheckpointStore V) :=
  pushes.foldlM (fun store p => Checkpoints.push p.ledger store p.value) .empty

/-- The pushes with nothing pruned: the last push of each ledger. -/
def timeline (pushes : List (Entry V)) : List (Entry V) :=
  pushes.foldl (fun entries p => VecHistory.before p.ledger entries ++ [p]) []

/-- The value in force at a ledger, after the pushes. -/
def inForce [Inhabited V] (pushes : List (Entry V)) : ℕ → V :=
  pushes.foldl (fun f p => Timeline.update f p.ledger p.value) fun _ => default

section Snoc

variable (cutoff : ℕ) (pushes : List (Entry V)) (p : Entry V)

theorem history_snoc : history cutoff (pushes ++ [p]) =
    VecHistory.push cutoff p.ledger (history cutoff pushes) p.value := by
  simp [history]

theorem checkpoints_snoc : checkpoints (pushes ++ [p]) =
    (checkpoints pushes).bind fun store => Checkpoints.push p.ledger store p.value := by
  simp [checkpoints]

theorem timeline_snoc : timeline (pushes ++ [p]) =
    VecHistory.before p.ledger (timeline pushes) ++ [p] := by
  simp [timeline]

theorem inForce_snoc [Inhabited V] : inForce (pushes ++ [p]) =
    Timeline.update (inForce pushes) p.ledger p.value := by
  simp [inForce]

theorem lastLedger_snoc : lastLedger (pushes ++ [p]) = p.ledger := by
  simp [lastLedger]

variable {pushes p}

theorem NonDecreasing.init (h : NonDecreasing (pushes ++ [p])) : NonDecreasing pushes :=
  (List.pairwise_append.mp h).1

theorem NonDecreasing.ledger_le (h : NonDecreasing (pushes ++ [p])) :
    ∀ q ∈ pushes, q.ledger ≤ p.ledger :=
  fun q hq => (List.pairwise_append.mp h).2.2 q hq p (List.mem_singleton_self p)

theorem NonDecreasing.lastLedger_le (h : NonDecreasing (pushes ++ [p])) :
    lastLedger pushes ≤ p.ledger := by
  rcases List.eq_nil_or_concat pushes with rfl | ⟨init, last, rfl⟩
  · exact Nat.zero_le _
  · rw [List.concat_eq_append] at h ⊢
    rw [lastLedger_snoc]
    exact h.ledger_le last (by simp)

end Snoc

/-- One entry for each ledger that was pushed at. -/
theorem timeline_ledger_mem {pushes : List (Entry V)} {e : Entry V} (he : e ∈ timeline pushes) :
    e.ledger ∈ pushes.map Entry.ledger := by
  induction pushes using List.reverseRecOn with
  | nil => cases he
  | append_singleton pushes p ih =>
      rw [timeline_snoc] at he
      rw [List.map_append]
      rcases List.mem_append.mp he with hmem | hmem
      · exact List.mem_append_left _ (ih (VecHistory.before_subset hmem))
      · rw [List.mem_singleton.mp hmem]
        exact List.mem_append_right _ (by simp)

theorem dedup_length_le_snoc (pushes : List (Entry V)) (p : Entry V) :
    (pushes.map Entry.ledger).dedup.length ≤
      ((pushes ++ [p]).map Entry.ledger).dedup.length := by
  refine ((List.nodup_dedup _).subperm fun ledger hledger => ?_).length_le
  rw [List.mem_dedup] at hledger ⊢
  rw [List.map_append]
  exact List.mem_append_left _ hledger

/-! ## What the two stores stand for -/

section Stores

variable [Inhabited V] {pushes : List (Entry V)}

/-- The pruned history records the values in force. -/
theorem history_records (cutoff : ℕ) (h : NonDecreasing pushes) :
    Records cutoff (lastLedger pushes) (history cutoff pushes) (inForce pushes) := by
  induction pushes using List.reverseRecOn with
  | nil => exact Records.nil _ fun _ => rfl
  | append_singleton pushes p ih =>
      rw [history_snoc, inForce_snoc, lastLedger_snoc]
      exact ((ih h.init).mono h.lastLedger_le).push p.value

/-- After every push the pruned history is sorted, ends with the value pushed and
holds one old entry at most. -/
theorem history_pruned (cutoff : ℕ) {p : Entry V} (h : NonDecreasing (pushes ++ [p])) :
    Pruned cutoff p.ledger p.value (history cutoff (pushes ++ [p])) := by
  have hrecords := (history_records cutoff h.init).mono h.lastLedger_le
  rw [history_snoc]
  exact VecHistory.push_pruned hrecords.tracks.chronological hrecords.upTo p.value

/-- Nothing is lost in the unpruned timeline. -/
theorem timeline_tracks (h : NonDecreasing pushes) :
    Tracks 0 (timeline pushes) (inForce pushes) ∧
      ∀ e ∈ timeline pushes, e.ledger ≤ lastLedger pushes := by
  induction pushes using List.reverseRecOn with
  | nil => exact ⟨Timeline.Tracks.nil _ fun _ => rfl, by simp [timeline]⟩
  | append_singleton pushes p ih =>
      obtain ⟨htracks, hupTo⟩ := ih h.init
      have hold : ∀ e ∈ timeline pushes, e.ledger ≤ p.ledger := fun e he =>
        (hupTo e he).trans h.lastLedger_le
      rw [timeline_snoc, inForce_snoc, lastLedger_snoc]
      refine ⟨VecHistory.before_tracks htracks hold p.value, ?_⟩
      intro e he
      rcases List.mem_append.mp he with hmem | hmem
      · exact hold e (VecHistory.before_subset hmem)
      · rw [List.mem_singleton.mp hmem]

/-- The timeline has no more entries than there are distinct ledgers. -/
theorem timeline_length_le (h : NonDecreasing pushes) :
    (timeline pushes).length ≤ (pushes.map Entry.ledger).dedup.length := by
  have hnodup : ((timeline pushes).map Entry.ledger).Nodup :=
    List.pairwise_map.mpr ((timeline_tracks h).1.chronological.imp ne_of_lt)
  have hsubset : (timeline pushes).map Entry.ledger ⊆ (pushes.map Entry.ledger).dedup := by
    intro ledger hledger
    obtain ⟨e, he, rfl⟩ := List.mem_map.mp hledger
    exact List.mem_dedup.mpr (timeline_ledger_mem he)
  calc (timeline pushes).length
      = ((timeline pushes).map Entry.ledger).length := (List.length_map _).symm
    _ ≤ (pushes.map Entry.ledger).dedup.length := (hnodup.subperm hsubset).length_le

/-- As long as the count fits, the checkpoint store holds the timeline. -/
theorem checkpoints_holds (h : NonDecreasing pushes)
    (hfew : (pushes.map Entry.ledger).dedup.length < 2 ^ 32) :
    ∃ store, checkpoints pushes = some store ∧ Holds store (timeline pushes) := by
  induction pushes using List.reverseRecOn with
  | nil => exact ⟨.empty, rfl, Holds.empty⟩
  | append_singleton pushes p ih =>
      obtain ⟨store, hstore, hholds⟩ :=
        ih h.init ((dedup_length_le_snoc pushes p).trans_lt hfew)
      have hlength := (timeline_length_le h).trans_lt hfew
      rw [timeline_snoc, List.length_append, List.length_singleton] at hlength
      obtain ⟨store', hpush, hholds'⟩ :
          ∃ store', Checkpoints.push p.ledger store p.value = some store' ∧ _ :=
        hholds.push hlength
      refine ⟨store', ?_, ?_⟩
      · rw [checkpoints_snoc, hstore, Option.bind_some, hpush]
      · rw [timeline_snoc]
        exact hholds'

/-! ## The refinement -/

/-- A pruned history answers as the unpruned checkpoints do, in its window, and
before its window it answers so or with the default value.  Neither panics. -/
theorem history_refines_checkpoints (cutoff : ℕ) (h : NonDecreasing pushes)
    (hfew : (pushes.map Entry.ledger).dedup.length < 2 ^ 32) :
    ∃ store, checkpoints pushes = some store ∧
      Checkpoints.latest store = some (VecHistory.latest (history cutoff pushes)) ∧
      (∀ target, lastLedger pushes - cutoff ≤ target →
        VecHistory.lookupAt (history cutoff pushes) target =
          Checkpoints.lookupAt store target) ∧
      ∀ target, (Checkpoints.lookupAt store target).isSome ∧
        (VecHistory.lookupAt (history cutoff pushes) target =
            Checkpoints.lookupAt store target ∨
          VecHistory.lookupAt (history cutoff pushes) target = some default) := by
  obtain ⟨store, hstore, hholds⟩ := checkpoints_holds h hfew
  obtain ⟨htracks, hupTo⟩ := timeline_tracks h
  have hpruned : Records cutoff (lastLedger pushes) (history cutoff pushes) (inForce pushes) :=
    history_records cutoff h
  have hunpruned : Records cutoff (lastLedger pushes) (timeline pushes) (inForce pushes) :=
    ⟨htracks.mono (Nat.zero_le _), hupTo⟩
  have hexact : ∀ target, Checkpoints.lookupAt store target = some (inForce pushes target) := by
    intro target
    rw [hholds.lookupAt_eq, VecHistory.lookupAt_eq_valueAt htracks.chronological,
      VecHistory.valueAt, htracks.window target (Nat.zero_le _)]
  refine ⟨store, hstore, ?_, ?_, ?_⟩
  · rw [hholds.latest_eq, hunpruned.latest_eq, hpruned.latest_eq]
  · intro target hwindow
    rw [hpruned.lookupAt_eq hwindow, hexact]
  · intro target
    rw [hexact]
    exact ⟨rfl, hpruned.lookupAt_cases target⟩

end Stores

/-- Pushes at ledgers 5, 5, 9 and 300: the pruned history has dropped ledger 5, and
target 6 falls back to the default value. -/
def samplePushes : List (Entry UInt64) :=
  [⟨5, 1⟩, ⟨5, 2⟩, ⟨9, 3⟩, ⟨300, 4⟩]

theorem history_refines_checkpoints_sample :
    VecHistory.lookupAt (history 200 samplePushes) 6 = some 0 ∧
      (checkpoints samplePushes).bind (fun store => Checkpoints.lookupAt store 6) = some 2 ∧
      ∃ store, checkpoints samplePushes = some store ∧
        Checkpoints.latest store = some (VecHistory.latest (history 200 samplePushes)) := by
  obtain ⟨store, hstore, hlatest, -⟩ :=
    history_refines_checkpoints 200 (show NonDecreasing samplePushes by decide) (by decide)
  exact ⟨by decide, by decide, store, hstore, hlatest⟩

end WarpDrive
