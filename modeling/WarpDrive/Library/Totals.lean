import Mathlib.Algebra.BigOperators.Finsupp.Basic
import Mathlib.Algebra.Order.BigOperators.Group.Finset

/-!
# Totals of finitely supported weights

A finitely supported function `f : κ →₀ α` together with a size `size : α → ℕ`
of its values has a total, the sum of the sizes over all keys.  The values need
not be natural numbers (they may be machine words, whose addition wraps), which
is why the total is taken in `ℕ`.
-/

namespace Totals

variable {κ α : Type*} [Zero α] (size : α → ℕ)

/-- The sum of the sizes of all values. -/
noncomputable def total (f : κ →₀ α) : ℕ :=
  f.sum fun _ a => size a

variable {size}

theorem total_zero : total size (0 : κ →₀ α) = 0 :=
  Finsupp.sum_zero_index

/-- One key taken out of the sum. -/
theorem size_add_total_erase (hzero : size 0 = 0) (f : κ →₀ α) (k : κ) :
    size (f k) + total size (f.erase k) = total size f :=
  Finsupp.add_sum_erase' f k (fun _ a => size a) fun _ => hzero

/-- Updating one key replaces its size in the total. -/
theorem total_update (hzero : size 0 = 0) (f : κ →₀ α) (k : κ) (a : α) :
    total size (f.update k a) + size (f k) = total size f + size a := by
  classical
  have hupdated := size_add_total_erase hzero (f.update k a) k
  have horiginal := size_add_total_erase hzero f k
  rw [Finsupp.erase_update_eq_erase, Finsupp.update_apply, if_pos rfl] at hupdated
  omega

/-- Erasing a key takes its size out of the total. -/
theorem total_erase (hzero : size 0 = 0) (f : κ →₀ α) (k : κ) :
    total size (f.erase k) + size (f k) = total size f := by
  rw [Nat.add_comm]
  exact size_add_total_erase hzero f k

/-- The total, summed over any duplicate-free list of the keys in the support. -/
theorem total_eq_sum_map [DecidableEq κ] {f : κ →₀ α} {keys : List κ} (hnodup : keys.Nodup)
    (hmem : ∀ k, k ∈ keys ↔ f k ≠ 0) :
    total size f = (keys.map fun k => size (f k)).sum := by
  have hsupport : f.support = keys.toFinset := by
    ext k
    rw [Finsupp.mem_support_iff, List.mem_toFinset, hmem]
  unfold total Finsupp.sum
  rw [hsupport, List.sum_toFinset _ hnodup]

/-- Distinct keys weigh no more than the total. -/
theorem sum_map_le_total [DecidableEq κ] (hzero : size 0 = 0) (f : κ →₀ α) {keys : List κ}
    (hnodup : keys.Nodup) : (keys.map fun k => size (f k)).sum ≤ total size f := by
  classical
  rw [← List.sum_toFinset _ hnodup]
  apply Finset.sum_le_sum_of_ne_zero
  intro k _ hne
  rw [Finsupp.mem_support_iff]
  intro hk
  rw [hk] at hne
  exact hne hzero

theorem size_le_total (hzero : size 0 = 0) (f : κ →₀ α) (k : κ) :
    size (f k) ≤ total size f := by
  have h := total_erase hzero f k
  omega

end Totals
