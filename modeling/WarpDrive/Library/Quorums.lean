import WarpDrive.Library.Totals

/-!
# Weights of sets of keys

The weight of a finite set of keys under a finitely supported `f : κ →₀ α`, and
the counting arguments behind quorums: what two sets weigh beyond the total, they
weigh in common (`weight_add_weight_le`), and a set that outweighs another has a
member outside it (`exists_mem_notMem`).
-/

namespace Totals

variable {κ α : Type*} [Zero α]

/-- The weight that the keys in `A` carry together. -/
def weight (size : α → ℕ) (f : κ →₀ α) (A : Finset κ) : ℕ :=
  ∑ k ∈ A, size (f k)

variable {size : α → ℕ} {f : κ →₀ α} {A B : Finset κ}

theorem weight_mono (h : A ⊆ B) : weight size f A ≤ weight size f B :=
  Finset.sum_le_sum_of_subset h

theorem weight_le_total (hzero : size 0 = 0) (f : κ →₀ α) (A : Finset κ) :
    weight size f A ≤ total size f := by
  apply Finset.sum_le_sum_of_ne_zero
  intro k _ hne
  rw [Finsupp.mem_support_iff]
  rintro hk
  rw [hk] at hne
  exact hne hzero

theorem weight_toFinset [DecidableEq κ] {keys : List κ} (hnodup : keys.Nodup) :
    weight size f keys.toFinset = (keys.map fun k => size (f k)).sum :=
  List.sum_toFinset _ hnodup

/-- A set that outweighs another has a member outside it. -/
theorem exists_mem_notMem (h : weight size f B < weight size f A) : ∃ k ∈ A, k ∉ B := by
  by_contra hnone
  push Not at hnone
  exact absurd (weight_mono hnone) (not_le_of_gt h)

variable [DecidableEq κ]

theorem weight_union_add_inter : weight size f (A ∪ B) + weight size f (A ∩ B) =
    weight size f A + weight size f B :=
  Finset.sum_union_inter

/-- What two sets weigh beyond the total, their intersection weighs. -/
theorem weight_add_weight_le (hzero : size 0 = 0) :
    weight size f A + weight size f B ≤ total size f + weight size f (A ∩ B) := by
  rw [← weight_union_add_inter]
  exact Nat.add_le_add_right (weight_le_total hzero f _) _

end Totals
