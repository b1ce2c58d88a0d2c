import Mathlib.Data.List.Perm.Subperm
import Mathlib.Data.List.TakeWhile
import Mathlib.Tactic.Common
import WarpDrive.Library.Timeline

/-!
# Pruned histories

The history module of `warpdrive-shared`: a history is one vector of entries,
sorted by ledger.  `push` records a value at the current ledger, in place when
the latest entry is of that ledger, and then prunes: of the entries strictly
older than `ledger - cutoff` only the most recent is kept.  `lookupAt` is a
binary search for the last entry at or before a target ledger.

In the terms of `Timeline`: a history tracks a step function from the ledger
`ledger - cutoff` of its last push on (`push_tracks`), and `lookupAt` reads it
(`lookupAt_eq_valueAt`).  Pruning never changes what the window holds, because
the entry it keeps reaches back to the start of the window.
-/

namespace WarpDrive.VecHistory

variable {V : Type}

/-- A point-in-time snapshot of a value. -/
structure Entry (V : Type) where
  ledger : ℕ
  value : V
deriving DecidableEq, Repr

/-! ## The functions -/

/-- Drop the entries older than `ledger - cutoff`, except the most recent. -/
def prune (entries : List (Entry V)) (ledger cutoff : ℕ) : List (Entry V) :=
  if entries.length ≤ 1 then entries
  else
    let cutoffLedger := ledger - cutoff
    let oldCount := (entries.takeWhile fun e => e.ledger < cutoffLedger).length
    if 2 ≤ oldCount then entries.drop (oldCount - 1) else entries

/-- Record `value` at `ledger`, over the latest entry if that is of the same ledger. -/
def push (cutoff ledger : ℕ) (entries : List (Entry V)) (value : V) : List (Entry V) :=
  match entries.getLast? with
  | some last =>
      if last.ledger = ledger then
        prune (entries.dropLast ++ [{ last with value := value }]) ledger cutoff
      else
        prune (entries ++ [⟨ledger, value⟩]) ledger cutoff
  | none => prune (entries ++ [⟨ledger, value⟩]) ledger cutoff

/-- The `while lo < hi` loop of `lookup_at`.  It returns none where the source
would panic, on an index out of range or on the underflow of `mid - 1`, and when
the fuel runs out. -/
def searchLoop (entries : List (Entry V)) (targetLedger : ℕ) : ℕ → ℕ → ℕ → Option ℕ
  | 0, _, _ => none
  | fuel + 1, lo, hi =>
      if lo < hi then
        -- `lo + (hi - lo).div_ceil(2)`
        let mid := lo + (hi - lo + 1) / 2
        match entries[mid]? with
        | none => none
        | some e =>
            if e.ledger ≤ targetLedger then searchLoop entries targetLedger fuel mid hi
            else if mid = 0 then none
            else searchLoop entries targetLedger fuel lo (mid - 1)
      else some lo

section Reading

variable [Inhabited V]

/-- The value at or before `targetLedger`, or the default value. -/
def lookupAt (entries : List (Entry V)) (targetLedger : ℕ) : Option V :=
  match entries.getLast? with
  | none => some default
  | some last =>
      if last.ledger ≤ targetLedger then some last.value
      else
        match entries.head? with
        | none => none
        | some first =>
            if targetLedger < first.ledger then some default
            else
              match searchLoop entries targetLedger entries.length 0 (entries.length - 1) with
              | none => none
              | some lo => entries[lo]?.map Entry.value

/-- The latest value, or the default value. -/
def latest (entries : List (Entry V)) : V :=
  match entries.getLast? with
  | some e => e.value
  | none => default

/-- What a history says was in force at a ledger, by a linear scan. -/
abbrev valueAt (entries : List (Entry V)) (ledger : ℕ) : V :=
  Timeline.valueAt Entry.ledger Entry.value default entries ledger

/-- Histories that track a step function, from the ledger `since` on. -/
abbrev Tracks (since : ℕ) (entries : List (Entry V)) (f : ℕ → V) : Prop :=
  Timeline.Tracks Entry.ledger Entry.value default since entries f

end Reading

/-! ## The binary search -/

theorem ledger_le_of_le {entries : List (Entry V)}
    (hsorted : Timeline.Chronological Entry.ledger entries) {i j : ℕ} (hij : i ≤ j)
    (hj : j < entries.length) :
    (entries.get ⟨i, hij.trans_lt hj⟩).ledger ≤ entries[j].ledger := by
  rcases hij.eq_or_lt with rfl | hlt
  · exact le_rfl
  · exact (List.pairwise_iff_getElem.mp hsorted i j _ hj hlt).le

/-- The loop ends within its bounds. -/
theorem searchLoop_le {entries : List (Entry V)} {target fuel lo hi i : ℕ} (hle : lo ≤ hi)
    (h : searchLoop entries target fuel lo hi = some i) : i ≤ hi := by
  induction fuel generalizing lo hi with
  | zero => cases h
  | succ fuel ih =>
      rw [searchLoop] at h
      dsimp only at h
      split at h
      · next hlt =>
          split at h
          · cases h
          · split at h
            · exact ih (by omega) h
            · split at h
              · cases h
              · have hmid := ih (by omega) h
                omega
      · rw [← Option.some.inj h]
        exact hle

/-- From bounds that enclose the last entry at or before the target, the loop
ends at that entry. -/
theorem searchLoop_spec {entries : List (Entry V)} {target : ℕ}
    (hsorted : Timeline.Chronological Entry.ledger entries) :
    ∀ (fuel lo hi : ℕ), lo ≤ hi → hi < entries.length → hi - lo < fuel →
      (∀ e ∈ entries[lo]?, e.ledger ≤ target) →
      (∀ j (hj : j < entries.length), hi < j → target < entries[j].ledger) →
      ∃ i, searchLoop entries target fuel lo hi = some i ∧ i < entries.length ∧
        (∀ e ∈ entries[i]?, e.ledger ≤ target) ∧
        ∀ j (hj : j < entries.length), i < j → target < entries[j].ledger := by
  intro fuel
  induction fuel with
  | zero =>
      intro lo hi _ _ hfuel
      exact absurd hfuel (Nat.not_lt_zero _)
  | succ fuel ih =>
      intro lo hi hle hhi hfuel hlow hhigh
      by_cases hlt : lo < hi
      · have hmid : lo + (hi - lo + 1) / 2 < entries.length := by omega
        simp only [searchLoop, if_pos hlt, List.getElem?_eq_getElem hmid]
        by_cases hread : entries[lo + (hi - lo + 1) / 2].ledger ≤ target
        · -- the middle entry is in time and becomes the lower bound
          rw [if_pos hread]
          refine ih _ hi (by omega) hhi (by omega) ?_ hhigh
          intro e he
          rw [List.getElem?_eq_getElem hmid, Option.mem_some_iff] at he
          exact he ▸ hread
        · -- everything from the middle on is late, because the entries are sorted
          rw [if_neg hread, if_neg (by omega)]
          apply ih lo _ (by omega) (by omega) (by omega) hlow
          intro j hj hlate
          have hmono := ledger_le_of_le hsorted
            (show lo + (hi - lo + 1) / 2 ≤ j by omega) hj
          exact (not_le.mp hread).trans_le hmono
      · have hdone : searchLoop entries target (fuel + 1) lo hi = some lo := by
          rw [searchLoop, if_neg hlt]
        obtain rfl : lo = hi := by omega
        exact ⟨lo, hdone, hhi, hlow, hhigh⟩

/-- On a sorted history the lookup returns, and it returns what a linear scan
for the last entry at or before the target does. -/
theorem lookupAt_eq_valueAt [Inhabited V] {entries : List (Entry V)}
    (hsorted : Timeline.Chronological Entry.ledger entries) (target : ℕ) :
    lookupAt entries target = some (valueAt entries target) := by
  rcases List.eq_nil_or_concat entries with rfl | ⟨init, last, rfl⟩
  · rfl
  rw [List.concat_eq_append] at hsorted ⊢
  have hlast : (init ++ [last]).getLast? = some last := by simp
  unfold lookupAt
  simp only [hlast]
  by_cases hnew : last.ledger ≤ target
  · -- fast path: the latest entry is at or before the target
    rw [if_pos hnew, valueAt, Timeline.valueAt_append_singleton, Timeline.update_of_le hnew]
  rw [if_neg hnew]
  have hne : init ++ [last] ≠ [] := by simp
  rw [List.head?_eq_some_head hne]
  by_cases hold : target < ((init ++ [last]).head hne).ledger
  · -- all entries are after the target
    simp only [if_pos hold]
    rw [valueAt, Timeline.valueAt_eq_default]
    intro e he
    obtain ⟨j, hj, rfl⟩ := List.mem_iff_getElem.mp he
    rw [List.head_eq_getElem] at hold
    exact hold.trans_le (ledger_le_of_le hsorted (Nat.zero_le j) hj)
  -- otherwise the first entry is at or before the target, where the search may start
  simp only [if_neg hold]
  have hlength : (init ++ [last]).length = init.length + 1 := by simp
  have hfirst : ∀ e ∈ (init ++ [last])[0]?, e.ledger ≤ target := by
    intro e he
    rw [List.getElem?_eq_getElem (by omega), Option.mem_some_iff] at he
    rw [List.head_eq_getElem] at hold
    exact he ▸ not_lt.mp hold
  have hnoneLate : ∀ j (hj : j < (init ++ [last]).length), (init ++ [last]).length - 1 < j →
      target < (init ++ [last])[j].ledger := by
    intro j hj hlate
    omega
  obtain ⟨i, hsearch, hi, hlow, hhigh⟩ := searchLoop_spec hsorted (init ++ [last]).length 0
    ((init ++ [last]).length - 1) (Nat.zero_le _) (by omega) (by omega) hfirst hnoneLate
  have hread : ((init ++ [last])[i]).ledger ≤ target :=
    hlow _ (List.getElem?_eq_getElem hi)
  rw [hsearch, valueAt, Timeline.valueAt, Timeline.lastUpTo_eq_getElem? hi hread hhigh,
    List.getElem?_eq_getElem hi]
  simp [List.getElem?_eq_getElem hi]

/-! ## Pushing -/

/-- What pruning can do: nothing, or drop a prefix and keep an entry that is
older than the cutoff. -/
theorem prune_cases (entries : List (Entry V)) (ledger cutoff : ℕ) :
    prune entries ledger cutoff = entries ∨
      ∃ dropped, entries = dropped ++ prune entries ledger cutoff ∧
        ∃ e ∈ prune entries ledger cutoff, e.ledger < ledger - cutoff := by
  unfold prune
  split
  · exact Or.inl rfl
  dsimp only
  split
  · next hold =>
      -- the last of the old entries is the first of those that are kept
      refine Or.inr ⟨entries.take ((entries.takeWhile fun e =>
        e.ledger < ledger - cutoff).length - 1), (List.take_append_drop _ _).symm, ?_⟩
      set old := entries.takeWhile fun e => e.ledger < ledger - cutoff with hdef
      have hinitial : old <+: entries := List.takeWhile_prefix _
      have hlt : old.length - 1 < old.length := by omega
      have hkept : old[old.length - 1] ∈ entries.drop (old.length - 1) := by
        rw [hinitial.getElem hlt]
        exact List.mem_drop_iff_getElem.mpr ⟨0, by have := hinitial.length_le; omega, by simp⟩
      refine ⟨old[old.length - 1], hkept, ?_⟩
      simpa using List.mem_takeWhile_imp (List.getElem_mem hlt)
  · exact Or.inl rfl

theorem prune_tracks [Inhabited V] {since cutoff ledger : ℕ} {entries : List (Entry V)}
    {f : ℕ → V} (h : Tracks since entries f) (hsince : since ≤ ledger - cutoff) :
    Tracks (ledger - cutoff) (prune entries ledger cutoff) f := by
  rcases prune_cases entries ledger cutoff with heq | ⟨dropped, heq, e, he, hold⟩
  · rw [heq]
    exact h.mono hsince
  · rw [heq] at h
    exact h.dropPrefix hsince ⟨e, he, hold.le⟩

/-- The entries that a push at `ledger` leaves in place, before pruning: all but a
latest entry of the same ledger. -/
def before (ledger : ℕ) (entries : List (Entry V)) : List (Entry V) :=
  match entries.getLast? with
  | some last => if last.ledger = ledger then entries.dropLast else entries
  | none => []

/-- Of the entries older than `ledger - cutoff` the most recent, and all others. -/
def kept (cutoff ledger : ℕ) (entries : List (Entry V)) : List (Entry V) :=
  entries.drop ((entries.takeWhile fun e => e.ledger < ledger - cutoff).length - 1)

theorem prune_eq_kept (entries : List (Entry V)) (ledger cutoff : ℕ) :
    prune entries ledger cutoff = kept cutoff ledger entries := by
  have hlength : (entries.takeWhile fun e => e.ledger < ledger - cutoff).length ≤
      entries.length := (List.takeWhile_prefix _).length_le
  unfold prune kept
  dsimp only
  split
  · -- one entry or none: nothing is dropped
    rw [show (entries.takeWhile fun e => e.ledger < ledger - cutoff).length - 1 = 0 by omega,
      List.drop_zero]
  · split
    · rfl
    · rw [show (entries.takeWhile fun e => e.ledger < ledger - cutoff).length - 1 = 0 by omega,
        List.drop_zero]

/-- A latest entry that is not old is kept, whatever is pruned before it. -/
theorem kept_append_singleton {cutoff ledger : ℕ} (entries : List (Entry V)) {e : Entry V}
    (he : ledger - cutoff ≤ e.ledger) :
    kept cutoff ledger (entries ++ [e]) = kept cutoff ledger entries ++ [e] := by
  have hlength : (entries.takeWhile fun e => e.ledger < ledger - cutoff).length ≤
      entries.length := (List.takeWhile_prefix _).length_le
  have hstop : (entries ++ [e]).takeWhile (fun e => e.ledger < ledger - cutoff) =
      entries.takeWhile fun e => e.ledger < ledger - cutoff := by
    rw [List.takeWhile_append]
    split
    · next hall =>
        have hself := List.IsPrefix.eq_of_length (List.takeWhile_prefix _) hall
        rw [hself, List.takeWhile_cons_of_neg (by simpa using he), List.append_nil]
    · rfl
  unfold kept
  rw [hstop, List.drop_append_of_le_length (by omega)]

theorem before_append_singleton {ledger : ℕ} (entries : List (Entry V)) {e : Entry V}
    (he : e.ledger = ledger) : before ledger (entries ++ [e]) = entries := by
  simp [before, he]

/-- What a push leaves: the new entry, after those that it keeps. -/
theorem push_eq (cutoff ledger : ℕ) (entries : List (Entry V)) (value : V) :
    push cutoff ledger entries value =
      kept cutoff ledger (before ledger entries) ++ [⟨ledger, value⟩] := by
  have hnew : ledger - cutoff ≤ (⟨ledger, value⟩ : Entry V).ledger := Nat.sub_le _ _
  rw [← kept_append_singleton _ hnew, ← prune_eq_kept]
  unfold push before
  rcases List.eq_nil_or_concat entries with rfl | ⟨init, last, rfl⟩
  · rfl
  rw [List.concat_eq_append]
  have hlast : (init ++ [last]).getLast? = some last := by simp
  simp only [hlast]
  by_cases hsame : last.ledger = ledger
  · rw [if_pos hsame, if_pos hsame, hsame]
  · rw [if_neg hsame, if_neg hsame]

/-- The latest value is the one pushed last. -/
theorem latest_push [Inhabited V] (cutoff ledger : ℕ) (entries : List (Entry V)) (value : V) :
    latest (push cutoff ledger entries value) = value := by
  rw [push_eq, latest]
  simp

/-- A prefix that a predicate accepts, cut at the front. -/
theorem takeWhile_drop {α : Type} (accept : α → Bool) :
    ∀ (l : List α) (n : ℕ), n ≤ (l.takeWhile accept).length →
      (l.drop n).takeWhile accept = (l.takeWhile accept).drop n := by
  intro l
  induction l with
  | nil => simp
  | cons a l ih =>
      intro n hn
      cases n with
      | zero => rfl
      | succ n =>
          by_cases ha : accept a = true
          · rw [List.takeWhile_cons_of_pos ha] at hn ⊢
            rw [List.drop_succ_cons, List.drop_succ_cons]
            exact ih n (Nat.le_of_succ_le_succ hn)
          · rw [List.takeWhile_cons_of_neg ha] at hn
            exact absurd hn (Nat.not_succ_le_zero n)

/-- At most one old entry is kept at the front. -/
theorem kept_old_length_le_one (cutoff ledger : ℕ) (entries : List (Entry V)) :
    ((kept cutoff ledger entries).takeWhile fun e => e.ledger < ledger - cutoff).length ≤ 1 := by
  unfold kept
  rw [takeWhile_drop _ _ _ (Nat.sub_le _ _), List.length_drop]
  omega

theorem kept_kept (cutoff ledger : ℕ) (entries : List (Entry V)) :
    kept cutoff ledger (kept cutoff ledger entries) = kept cutoff ledger entries := by
  have hone := kept_old_length_le_one cutoff ledger entries
  conv_lhs => rw [kept]
  rw [Nat.sub_eq_zero_of_le hone, List.drop_zero]

/-- Of two pushes at one ledger the second wins. -/
theorem push_push (cutoff ledger : ℕ) (entries : List (Entry V)) (value value' : V) :
    push cutoff ledger (push cutoff ledger entries value) value' =
      push cutoff ledger entries value' := by
  have hbefore : before ledger (kept cutoff ledger (before ledger entries) ++ [⟨ledger, value⟩]) =
      kept cutoff ledger (before ledger entries) := before_append_singleton _ rfl
  rw [push_eq cutoff ledger entries value, push_eq, hbefore, kept_kept, ← push_eq]

theorem before_subset {ledger : ℕ} {entries : List (Entry V)} :
    before ledger entries ⊆ entries := by
  unfold before
  cases entries.getLast? with
  | none => exact List.nil_subset _
  | some last =>
      dsimp only
      split
      · exact List.dropLast_subset _
      · exact List.Subset.refl _

/-- In a sorted history the entries left in place are of earlier ledgers. -/
theorem ledger_lt_of_mem_before {ledger : ℕ} {entries : List (Entry V)}
    (hsorted : Timeline.Chronological Entry.ledger entries)
    (hold : ∀ e ∈ entries, e.ledger ≤ ledger) : ∀ e ∈ before ledger entries, e.ledger < ledger := by
  intro e he
  rcases List.eq_nil_or_concat entries with rfl | ⟨init, last, rfl⟩
  · cases he
  rw [List.concat_eq_append] at hsorted hold he
  have hlast : (init ++ [last]).getLast? = some last := by simp
  have hinit : ∀ e' ∈ init, e'.ledger < last.ledger := fun e' he' =>
    (List.pairwise_append.mp hsorted).2.2 e' he' last (by simp)
  simp only [before, hlast] at he
  split at he
  · next hsame =>
      rw [List.dropLast_concat] at he
      exact hsame ▸ hinit e he
  · next hother =>
      have hlt : last.ledger < ledger := lt_of_le_of_ne (hold last (by simp)) hother
      rcases List.mem_append.mp he with hmem | hmem
      · exact (hinit e hmem).trans hlt
      · rwa [List.mem_singleton.mp hmem]

theorem ledger_le_of_mem_push {cutoff ledger : ℕ} {entries : List (Entry V)} {value : V}
    (hold : ∀ e ∈ entries, e.ledger ≤ ledger) :
    ∀ e ∈ push cutoff ledger entries value, e.ledger ≤ ledger := by
  intro e he
  rw [push_eq] at he
  rcases List.mem_append.mp he with hmem | hmem
  · exact hold e (before_subset (List.mem_of_mem_drop hmem))
  · rw [List.mem_singleton.mp hmem]

/-- Before pruning, the new entry extends the step function that is tracked. -/
theorem before_tracks [Inhabited V] {since ledger : ℕ} {entries : List (Entry V)} {f : ℕ → V}
    (h : Tracks since entries f) (hold : ∀ e ∈ entries, e.ledger ≤ ledger) (value : V) :
    Tracks since (before ledger entries ++ [⟨ledger, value⟩])
      (Timeline.update f ledger value) := by
  rcases List.eq_nil_or_concat entries with rfl | ⟨init, last, rfl⟩
  · exact Timeline.Tracks.append h ⟨ledger, value⟩ (by simp)
  rw [List.concat_eq_append] at h hold ⊢
  by_cases hsame : last.ledger = ledger
  · rw [before_append_singleton init hsame]
    exact Timeline.Tracks.replaceLast h ⟨ledger, value⟩ hsame.symm
  · have hall : before ledger (init ++ [last]) = init ++ [last] := by simp [before, hsame]
    have hlate := ledger_lt_of_mem_before h.chronological hold
    rw [hall] at hlate ⊢
    exact Timeline.Tracks.append h ⟨ledger, value⟩ hlate

/-- A push at `ledger` makes the history track the step function that takes the
new value from `ledger` on, from `ledger - cutoff` on. -/
theorem push_tracks [Inhabited V] {since cutoff ledger : ℕ} {entries : List (Entry V)}
    {f : ℕ → V} {value : V} (h : Tracks since entries f) (hold : ∀ e ∈ entries, e.ledger ≤ ledger)
    (hsince : since ≤ ledger - cutoff) :
    Tracks (ledger - cutoff) (push cutoff ledger entries value)
      (Timeline.update f ledger value) := by
  have hnew : ledger - cutoff ≤ (⟨ledger, value⟩ : Entry V).ledger := Nat.sub_le _ _
  rw [push_eq, ← kept_append_singleton _ hnew, ← prune_eq_kept]
  exact prune_tracks (before_tracks h hold value) hsince

/-! ## The size of a history -/

/-- What a push of `value` at `ledger` leaves. -/
structure Pruned (cutoff ledger : ℕ) (value : V) (entries : List (Entry V)) : Prop where
  sorted : Timeline.Chronological Entry.ledger entries
  upTo : ∀ e ∈ entries, e.ledger ≤ ledger
  last : entries.getLast? = some ⟨ledger, value⟩
  oneOld : (entries.filter fun e => e.ledger < ledger - cutoff).length ≤ 1

/-- In a sorted history the old entries come first. -/
theorem filter_old_eq_takeWhile {entries : List (Entry V)} {ledger : ℕ}
    (hsorted : Timeline.Chronological Entry.ledger entries) :
    (entries.filter fun e => e.ledger < ledger) = entries.takeWhile fun e => e.ledger < ledger := by
  induction entries with
  | nil => rfl
  | cons e entries ih =>
      obtain ⟨hfirst, hrest⟩ := List.pairwise_cons.mp hsorted
      by_cases he : e.ledger < ledger
      · rw [List.filter_cons_of_pos (by simpa using he),
          List.takeWhile_cons_of_pos (by simpa using he), ih hrest]
      · rw [List.takeWhile_cons_of_neg (by simpa using he), List.filter_eq_nil_iff]
        intro e' he'
        rcases List.mem_cons.mp he' with rfl | hmem
        · simpa using he
        · have hlt := hfirst e' hmem
          have hlate : ledger ≤ e'.ledger := by omega
          simpa using hlate

theorem push_pruned {cutoff ledger : ℕ} {entries : List (Entry V)}
    (hsorted : Timeline.Chronological Entry.ledger entries)
    (hold : ∀ e ∈ entries, e.ledger ≤ ledger) (value : V) :
    Pruned cutoff ledger value (push cutoff ledger entries value) := by
  have hbefore : Timeline.Chronological Entry.ledger (before ledger entries) := by
    unfold before
    cases entries.getLast? with
    | none => exact List.Pairwise.nil
    | some last =>
        dsimp only
        split
        · exact hsorted.sublist (List.dropLast_sublist _)
        · exact hsorted
  have hkept : Timeline.Chronological Entry.ledger (kept cutoff ledger (before ledger entries)) :=
    hbefore.sublist (List.drop_sublist _ _)
  constructor
  case sorted =>
    rw [push_eq]
    refine List.pairwise_append.mpr ⟨hkept, List.pairwise_singleton _ _, ?_⟩
    intro e he e' he'
    rw [List.mem_singleton.mp he']
    exact ledger_lt_of_mem_before hsorted hold e (List.mem_of_mem_drop he)
  case upTo => exact ledger_le_of_mem_push hold
  case last =>
    rw [push_eq]
    simp
  case oneOld =>
    have hnew :
        [(⟨ledger, value⟩ : Entry V)].filter (fun e => e.ledger < ledger - cutoff) = [] := by
      simp
    rw [push_eq, List.filter_append, hnew, List.append_nil, filter_old_eq_takeWhile hkept]
    exact kept_old_length_le_one _ _ _

/-- One old entry at most, and one for each ledger of the window. -/
theorem Pruned.length_le {cutoff ledger : ℕ} {value : V} {entries : List (Entry V)}
    (h : Pruned cutoff ledger value entries) : entries.length ≤ cutoff + 2 := by
  have hsplit := List.length_eq_length_filter_add (fun e : Entry V => e.ledger < ledger - cutoff)
    (l := entries)
  have hold := h.oneOld
  have hnodup : ((entries.filter fun e => !decide (e.ledger < ledger - cutoff)).map
      Entry.ledger).Nodup :=
    List.pairwise_map.mpr ((h.sorted.filter _).imp ne_of_lt)
  have hwindow : ((entries.filter fun e => !decide (e.ledger < ledger - cutoff)).map
      Entry.ledger) ⊆ List.range' (ledger - cutoff) (cutoff + 1) := by
    intro l hl
    obtain ⟨e, he, rfl⟩ := List.mem_map.mp hl
    obtain ⟨hmem, hnew⟩ := List.mem_filter.mp he
    have hle := h.upTo e hmem
    rw [List.mem_range'_1]
    simp only [Bool.not_eq_true', decide_eq_false_iff_not] at hnew
    omega
  have hnew := (hnodup.subperm hwindow).length_le
  rw [List.length_map, List.length_range'] at hnew
  omega

/-! ## The latest value -/

/-- At or after the latest entry, the latest value is in force. -/
theorem latest_eq_valueAt [Inhabited V] {entries : List (Entry V)} {ledger : ℕ}
    (h : ∀ e ∈ entries, e.ledger ≤ ledger) : latest entries = valueAt entries ledger := by
  rw [valueAt, Timeline.valueAt_eq_last h]
  unfold latest
  cases entries.getLast? <;> rfl

/-! ## What a history records -/

variable [Inhabited V]

/-- At ledger `now`, the entries record the step function `f`: they track it from
`now - cutoff` on, and none of them is of a later ledger. -/
structure Records (cutoff now : ℕ) (entries : List (Entry V)) (f : ℕ → V) : Prop where
  tracks : Tracks (now - cutoff) entries f
  upTo : ∀ e ∈ entries, e.ledger ≤ now

namespace Records

variable {cutoff now later : ℕ} {entries : List (Entry V)} {f : ℕ → V}

theorem nil (f : ℕ → V) (hf : ∀ ledger, f ledger = default) : Records cutoff now [] f where
  tracks := Timeline.Tracks.nil f hf
  upTo := by simp

theorem mono (h : Records cutoff now entries f) (hle : now ≤ later) :
    Records cutoff later entries f where
  tracks := h.tracks.mono (Nat.sub_le_sub_right hle cutoff)
  upTo e he := (h.upTo e he).trans hle

theorem push (h : Records cutoff now entries f) (value : V) :
    Records cutoff now (push cutoff now entries value) (Timeline.update f now value) where
  tracks := push_tracks h.tracks h.upTo le_rfl
  upTo := ledger_le_of_mem_push h.upTo

/-- In the window, the lookup is exact. -/
theorem lookupAt_eq (h : Records cutoff now entries f) {ledger : ℕ}
    (hwindow : now - cutoff ≤ ledger) : lookupAt entries ledger = some (f ledger) := by
  rw [lookupAt_eq_valueAt h.tracks.chronological, valueAt, h.tracks.window ledger hwindow]

/-- Anywhere, it is exact or the default value. -/
theorem lookupAt_cases (h : Records cutoff now entries f) (ledger : ℕ) :
    lookupAt entries ledger = some (f ledger) ∨ lookupAt entries ledger = some default := by
  rw [lookupAt_eq_valueAt h.tracks.chronological]
  exact (h.tracks.eq_or_default ledger).imp (congrArg some) (congrArg some)

theorem latest_eq (h : Records cutoff now entries f) : latest entries = f now := by
  rw [latest_eq_valueAt h.upTo, valueAt, h.tracks.window now (Nat.sub_le _ _)]

/-- From now on, the latest value is in force. -/
theorem eq_latest (h : Records cutoff now entries f) {ledger : ℕ} (hle : now ≤ ledger) :
    f ledger = latest entries :=
  (h.mono hle).latest_eq.symm

end Records

end WarpDrive.VecHistory
