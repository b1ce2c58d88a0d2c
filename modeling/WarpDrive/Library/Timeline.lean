import Mathlib.Data.List.Basic
import Mathlib.Order.Basic
import Mathlib.Order.Lattice

/-!
# Timelines

A timeline is a list of stamped entries.  `valueAt` reads it at a time `t`: the
value of the last entry stamped at or before `t`, or a default.  The abstract
counterpart of a timeline is a step function `f : τ → α`, the value that was in
force at each time; `update f now v` is the function that takes the value `v`
from `now` on.

A timeline need not hold everything: old entries may have been dropped.
`Tracks` relates such a timeline to the step function it stands for: from the
time `since` on it is exact, and at an earlier time it is exact unless that time
precedes every entry that is left, where the default is read.  Recording a value
and dropping a prefix both preserve `Tracks`.
-/

namespace Timeline

variable {ι τ α : Type*} [LinearOrder τ]

section Reading

variable (time : ι → τ) (value : ι → α) (default : α)

/-- The last entry of `l` stamped at or before `t`. -/
def lastUpTo (t : τ) (l : List ι) : Option ι :=
  (l.filter fun e => time e ≤ t).getLast?

/-- The value of the last entry stamped at or before `t`. -/
def valueAt (l : List ι) (t : τ) : α :=
  ((lastUpTo time t l).map value).getD default

/-- Entries in strictly increasing order of their stamps. -/
def Chronological (l : List ι) : Prop :=
  l.Pairwise fun a b => time a < time b

/-- The step function that is `f` before `now` and `v` from `now` on. -/
def update (f : τ → α) (now : τ) (v : α) : τ → α :=
  fun t => if now ≤ t then v else f t

/-- `l` stands for the step function `f`: exactly from `since` on, and before
that up to the entries that were dropped. -/
structure Tracks (since : τ) (l : List ι) (f : τ → α) : Prop where
  chronological : Chronological time l
  window : ∀ t, since ≤ t → valueAt time value default l t = f t
  beyond : ∀ t, valueAt time value default l t = f t ∨ ∀ e ∈ l, t < time e

end Reading

variable {time : ι → τ} {value : ι → α} {default : α} {l l₁ l₂ : List ι} {t : τ}

/-! ## Reading a timeline -/

theorem lastUpTo_append_singleton (e : ι) :
    lastUpTo time t (l ++ [e]) = if time e ≤ t then some e else lastUpTo time t l := by
  unfold lastUpTo
  rw [List.filter_append]
  split
  · next h => simp [h]
  · next h => simp [h]

/-- Entries before a suffix that reaches back to `t` are not read at `t`. -/
theorem lastUpTo_append_of_exists (h : ∃ e ∈ l₂, time e ≤ t) :
    lastUpTo time t (l₁ ++ l₂) = lastUpTo time t l₂ := by
  obtain ⟨e, he, hle⟩ := h
  have hne : l₂.filter (fun e => time e ≤ t) ≠ [] :=
    List.ne_nil_of_mem (List.mem_filter.mpr ⟨he, by simpa using hle⟩)
  unfold lastUpTo
  rw [List.filter_append, List.getLast?_append_of_ne_nil _ hne]

theorem lastUpTo_eq_none (h : ∀ e ∈ l, t < time e) : lastUpTo time t l = none := by
  unfold lastUpTo
  rw [List.getLast?_eq_none_iff, List.filter_eq_nil_iff]
  intro e he
  simpa using h e he

theorem lastUpTo_eq_getLast? (h : ∀ e ∈ l, time e ≤ t) : lastUpTo time t l = l.getLast? := by
  unfold lastUpTo
  rw [List.filter_eq_self.mpr fun e he => by simpa using h e he]

/-- An index that splits the timeline at `t` is the one that is read. -/
theorem lastUpTo_eq_getElem? {i : ℕ} (hi : i < l.length) (hle : time l[i] ≤ t)
    (hgt : ∀ j (hj : j < l.length), i < j → t < time l[j]) :
    lastUpTo time t l = l[i]? := by
  have hlate : ∀ e ∈ l.drop (i + 1), t < time e := by
    intro e he
    obtain ⟨j, hj, rfl⟩ := List.mem_iff_getElem.mp he
    rw [List.getElem_drop]
    exact hgt _ _ (by omega)
  have hnone : (l.drop (i + 1)).filter (fun e => time e ≤ t) = [] := by
    rw [List.filter_eq_nil_iff]
    intro e he
    simpa using hlate e he
  have htake : lastUpTo time t l = lastUpTo time t (l.take (i + 1)) := by
    conv_lhs => rw [← List.take_append_drop (i + 1) l]
    unfold lastUpTo
    rw [List.filter_append, hnone, List.append_nil]
  rw [htake, List.take_succ_eq_append_getElem hi, lastUpTo_append_singleton, if_pos hle,
    List.getElem?_eq_getElem hi]

theorem valueAt_append_singleton (e : ι) :
    valueAt time value default (l ++ [e]) =
      update (valueAt time value default l) (time e) (value e) := by
  funext t
  unfold valueAt update
  rw [lastUpTo_append_singleton]
  split <;> rfl

theorem valueAt_eq_default (h : ∀ e ∈ l, t < time e) :
    valueAt time value default l t = default := by
  unfold valueAt
  rw [lastUpTo_eq_none h]
  rfl

/-- At or after every stamp, the last value is read. -/
theorem valueAt_eq_last (h : ∀ e ∈ l, time e ≤ t) :
    valueAt time value default l t = (l.getLast?.map value).getD default := by
  unfold valueAt
  rw [lastUpTo_eq_getLast? h]

theorem update_of_le {f : τ → α} {now : τ} {v : α} (h : now ≤ t) : update f now v t = v :=
  if_pos h

theorem update_of_lt {f : τ → α} {now : τ} {v : α} (h : t < now) : update f now v t = f t :=
  if_neg (not_le_of_gt h)

/-- An observation of the value that is updated is itself updated. -/
theorem map_update {β : Type*} (g : α → β) (f : τ → α) (now : τ) (v : α) :
    (fun t => g (update f now v t)) = update (fun t => g (f t)) now (g v) := by
  funext t
  unfold update
  split <;> rfl

/-- Updating to the value that is already in force changes nothing. -/
theorem update_eq_self {f : τ → α} {now : τ} {v : α} (h : ∀ t, now ≤ t → f t = v) :
    update f now v = f := by
  funext t
  unfold update
  split
  · next hle => exact (h t hle).symm
  · rfl

/-! ## Timelines that track a step function -/

namespace Tracks

variable {since since' now : τ} {f : τ → α}

theorem nil (f : τ → α) (hf : ∀ t, f t = default) :
    Tracks time value default since [] f where
  chronological := List.Pairwise.nil
  window t _ := (hf t).symm
  beyond _ := Or.inr (by simp)

theorem mono (h : Tracks time value default since l f) (hle : since ≤ since') :
    Tracks time value default since' l f :=
  { h with window := fun t ht => h.window t (hle.trans ht) }

/-- Every reading is exact or the default. -/
theorem eq_or_default (h : Tracks time value default since l f) (t : τ) :
    valueAt time value default l t = f t ∨ valueAt time value default l t = default :=
  (h.beyond t).imp_right valueAt_eq_default

/-- A value recorded after every entry. -/
theorem append (h : Tracks time value default since l f) (e : ι)
    (hlate : ∀ e' ∈ l, time e' < time e) :
    Tracks time value default since (l ++ [e]) (update f (time e) (value e)) where
  chronological := by
    refine List.pairwise_append.mpr ⟨h.chronological, List.pairwise_singleton _ _, ?_⟩
    intro a ha b hb
    rw [List.mem_singleton.mp hb]
    exact hlate a ha
  window t ht := by
    rw [valueAt_append_singleton]
    unfold update
    rw [h.window t ht]
  beyond t := by
    rw [valueAt_append_singleton]
    rcases le_or_gt (time e) t with hle | hlt
    · exact Or.inl (by rw [update_of_le hle, update_of_le hle])
    rw [update_of_lt hlt, update_of_lt hlt]
    apply (h.beyond t).imp_right
    intro hall e' he'
    rcases List.mem_append.mp he' with he' | he'
    · exact hall e' he'
    · rw [List.mem_singleton.mp he']
      exact hlt

/-- A value recorded in place of the last entry, under the same stamp. -/
theorem replaceLast {e : ι} (h : Tracks time value default since (l ++ [e]) f) (e' : ι)
    (htime : time e' = time e) :
    Tracks time value default since (l ++ [e']) (update f (time e') (value e')) where
  chronological := by
    obtain ⟨hfirst, -, hcross⟩ := List.pairwise_append.mp h.chronological
    refine List.pairwise_append.mpr ⟨hfirst, List.pairwise_singleton _ _, ?_⟩
    intro a ha b hb
    rw [List.mem_singleton.mp hb, htime]
    exact hcross a ha e (List.mem_singleton_self e)
  window t ht := by
    rw [valueAt_append_singleton]
    rcases le_or_gt (time e') t with hle | hlt
    · rw [update_of_le hle, update_of_le hle]
    · have hwindow := h.window t ht
      rw [valueAt_append_singleton, update_of_lt (htime ▸ hlt)] at hwindow
      rw [update_of_lt hlt, update_of_lt hlt, hwindow]
  beyond t := by
    rw [valueAt_append_singleton]
    rcases le_or_gt (time e') t with hle | hlt
    · exact Or.inl (by rw [update_of_le hle, update_of_le hle])
    have hbeyond := h.beyond t
    rw [valueAt_append_singleton, update_of_lt (htime ▸ hlt)] at hbeyond
    rw [update_of_lt hlt, update_of_lt hlt]
    apply hbeyond.imp_right
    intro hall a ha
    rcases List.mem_append.mp ha with ha | ha
    · exact hall a (List.mem_append_left _ ha)
    · rw [List.mem_singleton.mp ha]
      exact hlt

/-- Dropping a prefix keeps the window that the suffix still reaches back to. -/
theorem dropPrefix (h : Tracks time value default since (l₁ ++ l₂) f) (hle : since ≤ since')
    (hreach : ∃ e ∈ l₂, time e ≤ since') : Tracks time value default since' l₂ f where
  chronological := (List.pairwise_append.mp h.chronological).2.1
  window t ht := by
    obtain ⟨e, he, htime⟩ := hreach
    have hkept : valueAt time value default (l₁ ++ l₂) t = valueAt time value default l₂ t := by
      unfold valueAt
      rw [lastUpTo_append_of_exists ⟨e, he, htime.trans ht⟩]
    rw [← hkept]
    exact h.window t (hle.trans ht)
  beyond t := by
    by_cases hex : ∃ e ∈ l₂, time e ≤ t
    · have hkept : valueAt time value default (l₁ ++ l₂) t = valueAt time value default l₂ t := by
        unfold valueAt
        rw [lastUpTo_append_of_exists hex]
      obtain ⟨e, he, htime⟩ := hex
      rw [← hkept]
      apply (h.beyond t).imp_right
      intro hall
      exact absurd (hall e (List.mem_append_right _ he)) (not_lt_of_ge htime)
    · push Not at hex
      exact Or.inr hex

end Tracks

end Timeline
