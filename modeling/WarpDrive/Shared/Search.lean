import WarpDrive.Shared.Checkpoint

/-!
# The binary search of the history modules

Both history modules look a ledger up with the same loop.  It splits above the
middle, keeps the middle when it moves the lower bound and drops it when it moves
the upper one, so the distance of the bounds is at least halved in every round
(`searchLoop_halves`).  This does not depend on the order of the entries: on any
vector the loop ends, every index it reads is below `hi`, and `mid` is at least 1
when `mid - 1` is computed.

The order matters for the result only.  On strictly increasing ledgers the two
lookups are a linear scan (`lookupAt_scans`).
-/

namespace WarpDrive

open VecHistory (Entry)
open Checkpoints (CheckpointStore Holds)

variable {V : Type}

/-- With bounds less than `2 ^ rounds` apart the loop returns after that many
rounds, without leaving the vector. -/
theorem searchLoop_halves (entries : List (Entry V)) (target : ℕ) :
    ∀ rounds lo hi, lo ≤ hi → hi < entries.length → hi - lo < 2 ^ rounds →
      ∃ i, VecHistory.searchLoop entries target (rounds + 1) lo hi = some i := by
  intro rounds
  induction rounds with
  | zero =>
      intro lo hi hle _ hnear
      have hdone : ¬ lo < hi := by omega
      exact ⟨lo, by rw [VecHistory.searchLoop, if_neg hdone]⟩
  | succ rounds ih =>
      intro lo hi hle hhi hnear
      rw [Nat.pow_succ] at hnear
      by_cases hlt : lo < hi
      · have hmid : lo + (hi - lo + 1) / 2 < entries.length := by omega
        have hpositive : lo + (hi - lo + 1) / 2 ≠ 0 := by omega
        rw [VecHistory.searchLoop]
        simp only [if_pos hlt, List.getElem?_eq_getElem hmid, if_neg hpositive]
        split
        · exact ih _ hi (by omega) hhi (by omega)
        · exact ih lo _ (by omega) (by omega) (by omega)
      · exact ⟨lo, by rw [VecHistory.searchLoop, if_neg hlt]⟩

variable [Inhabited V]

/-- The lookup returns on every vector: one round for each entry is enough. -/
theorem lookupAt_isSome (entries : List (Entry V)) (target : ℕ) :
    (VecHistory.lookupAt entries target).isSome := by
  rcases List.eq_nil_or_concat entries with rfl | ⟨init, last, rfl⟩
  · rfl
  rw [List.concat_eq_append]
  have hlength : (init ++ [last]).length = init.length + 1 := by simp
  have hlast : (init ++ [last]).getLast? = some last := by simp
  have hne : init ++ [last] ≠ [] := by simp
  have hnear : init.length - 0 < 2 ^ init.length := Nat.lt_two_pow_self
  obtain ⟨i, hsearch⟩ := searchLoop_halves (init ++ [last]) target init.length 0 init.length
    (Nat.zero_le _) (by omega) hnear
  have hi : i < (init ++ [last]).length := by
    have hle := VecHistory.searchLoop_le (Nat.zero_le _) hsearch
    omega
  unfold VecHistory.lookupAt
  simp only [hlast, List.head?_eq_some_head hne]
  split
  · rfl
  split
  · rfl
  rw [hlength, Nat.add_sub_cancel, hsearch]
  simp [List.getElem?_eq_getElem hi]

/-- On every vector of entries, and on every store of its checkpoints, a lookup
returns; where the ledgers are strictly increasing it returns the value of the last
entry at or before the target, or the default value. -/
theorem lookupAt_scans :
    (∀ (entries : List (Entry V)) (target : ℕ),
      (VecHistory.lookupAt entries target).isSome ∧
        (Timeline.Chronological Entry.ledger entries →
          VecHistory.lookupAt entries target = some (VecHistory.valueAt entries target))) ∧
    ∀ (store : CheckpointStore V) (entries : List (Entry V)), Holds store entries →
      ∀ target, (Checkpoints.lookupAt store target).isSome ∧
        (Timeline.Chronological Entry.ledger entries →
          Checkpoints.lookupAt store target = some (VecHistory.valueAt entries target)) := by
  have hvector : ∀ (entries : List (Entry V)) (target : ℕ),
      (VecHistory.lookupAt entries target).isSome ∧
        (Timeline.Chronological Entry.ledger entries →
          VecHistory.lookupAt entries target = some (VecHistory.valueAt entries target)) :=
    fun entries target =>
      ⟨lookupAt_isSome entries target, fun h => VecHistory.lookupAt_eq_valueAt h target⟩
  refine ⟨hvector, ?_⟩
  intro store entries hholds target
  rw [hholds.lookupAt_eq]
  exact hvector entries target

/-- Entries at the ledgers 5, 9 and 12. -/
def searchedEntries : List (Entry UInt64) :=
  [⟨5, 1⟩, ⟨9, 2⟩, ⟨12, 3⟩]

/-- Their checkpoints. -/
def searchedStore : CheckpointStore UInt64 where
  count := 3
  slots i := searchedEntries[i]?.map Checkpoints.ofEntry

theorem lookupAt_scans_sample :
    VecHistory.lookupAt searchedEntries 11 = some 2 ∧
      Checkpoints.lookupAt searchedStore 11 = some 2 ∧
      (VecHistory.lookupAt searchedEntries.reverse 11).isSome := by
  have hsorted : Timeline.Chronological Entry.ledger searchedEntries :=
    show searchedEntries.Pairwise fun a b => a.ledger < b.ledger by decide
  have hholds : Holds searchedStore searchedEntries := ⟨rfl, fun _ _ => rfl⟩
  have hscan : VecHistory.valueAt searchedEntries 11 = 2 := by decide
  obtain ⟨hvector, hstore⟩ := lookupAt_scans (V := UInt64)
  refine ⟨?_, ?_, (hvector _ 11).1⟩
  · rw [(hvector _ 11).2 hsorted, hscan]
  · rw [(hstore _ _ hholds 11).2 hsorted, hscan]

end WarpDrive
