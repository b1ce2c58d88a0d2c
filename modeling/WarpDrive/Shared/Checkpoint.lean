import Mathlib.Algebra.Group.Nat.Defs
import WarpDrive.Shared.VecHistory

/-!
# Checkpoints

The checkpoint module of `warpdrive-shared`: a timeline is a count and numbered
slots, and nothing is ever dropped.  `push` overwrites the last slot when it is of
the current ledger and takes a new one otherwise.

A store `Holds` the list of its slots below the count.  Its functions are those of
an unpruned history on that list: `push` extends it (`Holds.push`), and `lookupAt`
and `latest` read it as `VecHistory` does (`Holds.lookupAt_eq`,
`Holds.latest_eq`).
-/

namespace WarpDrive.Checkpoints

open VecHistory (Entry)

variable {V : Type}

/-- A point-in-time snapshot of a value. -/
structure Checkpoint (V : Type) where
  ledger : ℕ
  value : V
deriving DecidableEq, Repr

/-- `count` and the slots that have been set. -/
structure CheckpointStore (V : Type) where
  count : ℕ
  slots : ℕ → Option (Checkpoint V)

/-! ## The functions

They return none where the source would panic: on a slot that was never set, on
the overflow of the `u32` count and on the underflow of `mid - 1`. -/

def CheckpointStore.empty : CheckpointStore V where
  count := 0
  slots _ := none

def CheckpointStore.get (store : CheckpointStore V) (index : ℕ) : Option (Checkpoint V) :=
  store.slots index

def CheckpointStore.set (store : CheckpointStore V) (index : ℕ) (cp : Checkpoint V) :
    CheckpointStore V :=
  { store with slots := Function.update store.slots index (some cp) }

def CheckpointStore.setCount (store : CheckpointStore V) (count : ℕ) : CheckpointStore V :=
  { store with count := count }

/-- Take a new slot at the end. -/
def CheckpointStore.append (store : CheckpointStore V) (cp : Checkpoint V) :
    Option (CheckpointStore V) :=
  if store.count + 1 < 2 ^ 32 then some ((store.set store.count cp).setCount (store.count + 1))
  else none

/-- Push a new value at `ledger`, over the latest checkpoint if that is of the same
ledger. -/
def push (ledger : ℕ) (store : CheckpointStore V) (value : V) : Option (CheckpointStore V) :=
  if 0 < store.count then
    match store.get (store.count - 1) with
    | none => none
    | some last =>
        if last.ledger = ledger then some (store.set (store.count - 1) ⟨ledger, value⟩)
        else store.append ⟨ledger, value⟩
  else store.append ⟨ledger, value⟩

/-- The `while lo < hi` loop of `lookup_at`. -/
def searchLoop (store : CheckpointStore V) (targetLedger : ℕ) : ℕ → ℕ → ℕ → Option ℕ
  | 0, _, _ => none
  | fuel + 1, lo, hi =>
      if lo < hi then
        -- `lo + (hi - lo).div_ceil(2)`
        let mid := lo + (hi - lo + 1) / 2
        match store.get mid with
        | none => none
        | some cp =>
            if cp.ledger ≤ targetLedger then searchLoop store targetLedger fuel mid hi
            else if mid = 0 then none
            else searchLoop store targetLedger fuel lo (mid - 1)
      else some lo

section Reading

variable [Inhabited V]

/-- The value at or before `targetLedger`, or the default value. -/
def lookupAt (store : CheckpointStore V) (targetLedger : ℕ) : Option V :=
  if store.count = 0 then some default
  else
    match store.get (store.count - 1) with
    | none => none
    | some last =>
        if last.ledger ≤ targetLedger then some last.value
        else
          match store.get 0 with
          | none => none
          | some first =>
              if targetLedger < first.ledger then some default
              else
                match searchLoop store targetLedger store.count 0 (store.count - 1) with
                | none => none
                | some lo => (store.get lo).map Checkpoint.value

/-- The latest value, or the default value. -/
def latest (store : CheckpointStore V) : Option V :=
  if store.count = 0 then some default
  else (store.get (store.count - 1)).map Checkpoint.value

end Reading

/-! ## The list of checkpoints -/

/-- The checkpoint of an entry. -/
def ofEntry (e : Entry V) : Checkpoint V where
  ledger := e.ledger
  value := e.value

/-- The slots below the count hold `entries`. -/
structure Holds (store : CheckpointStore V) (entries : List (Entry V)) : Prop where
  count : store.count = entries.length
  get : ∀ i, i < entries.length → store.get i = entries[i]?.map ofEntry

namespace Holds

variable {store : CheckpointStore V} {entries : List (Entry V)} {last : Entry V}

theorem empty : Holds (.empty : CheckpointStore V) [] where
  count := rfl
  get i hi := absurd hi (Nat.not_lt_zero i)

theorem get_last (h : Holds store (entries ++ [last])) :
    store.get (store.count - 1) = some (ofEntry last) := by
  have hcount : store.count - 1 = entries.length := by
    rw [h.count, List.length_append, List.length_singleton, Nat.add_sub_cancel]
  rw [hcount, h.get _ (by simp), List.getElem?_concat_length, Option.map_some]

/-- The last slot, overwritten. -/
theorem set_last (h : Holds store (entries ++ [last])) (e : Entry V) :
    Holds (store.set (store.count - 1) (ofEntry e)) (entries ++ [e]) where
  count := by
    have hcount := h.count
    rw [List.length_append, List.length_singleton] at hcount ⊢
    exact hcount
  get i hi := by
    have hcount : store.count - 1 = entries.length := by
      rw [h.count, List.length_append, List.length_singleton, Nat.add_sub_cancel]
    rw [hcount]
    unfold CheckpointStore.set CheckpointStore.get
    dsimp only
    rw [List.length_append, List.length_singleton] at hi
    rcases Nat.lt_succ_iff_lt_or_eq.mp hi with hlt | rfl
    · have hget := h.get i (by rw [List.length_append]; omega)
      rw [List.getElem?_append_left hlt] at hget ⊢
      rw [Function.update_of_ne hlt.ne]
      exact hget
    · rw [Function.update_self, List.getElem?_concat_length, Option.map_some]

/-- A new slot, at the end. -/
theorem append (h : Holds store entries) (e : Entry V) (hfits : entries.length + 1 < 2 ^ 32) :
    ∃ store', store.append (ofEntry e) = some store' ∧ Holds store' (entries ++ [e]) := by
  refine ⟨_, if_pos (by rw [h.count]; exact hfits), ?_, ?_⟩
  · rw [List.length_append, List.length_singleton, ← h.count]
    rfl
  · intro i hi
    rw [h.count]
    unfold CheckpointStore.setCount CheckpointStore.set CheckpointStore.get
    dsimp only
    rw [List.length_append, List.length_singleton] at hi
    rcases Nat.lt_succ_iff_lt_or_eq.mp hi with hlt | rfl
    · rw [Function.update_of_ne hlt.ne, List.getElem?_append_left hlt]
      exact h.get i hlt
    · rw [Function.update_self, List.getElem?_concat_length, Option.map_some]

/-- A push extends the list as a push that prunes nothing would. -/
theorem push (h : Holds store entries) {ledger : ℕ} {value : V}
    (hfits : (VecHistory.before ledger entries).length + 1 < 2 ^ 32) :
    ∃ store', push ledger store value = some store' ∧
      Holds store' (VecHistory.before ledger entries ++ [⟨ledger, value⟩]) := by
  rcases List.eq_nil_or_concat entries with rfl | ⟨init, last, rfl⟩
  · have hcount : ¬ 0 < store.count := by
      rw [h.count]
      exact Nat.lt_irrefl 0
    unfold Checkpoints.push
    rw [if_neg hcount]
    exact h.append ⟨ledger, value⟩ hfits
  rw [List.concat_eq_append] at h hfits ⊢
  have hcount : 0 < store.count := by
    rw [h.count, List.length_append]
    exact Nat.succ_pos _
  unfold Checkpoints.push
  simp only [if_pos hcount, h.get_last]
  by_cases hsame : last.ledger = ledger
  · rw [VecHistory.before_append_singleton init hsame]
    exact ⟨_, if_pos hsame, h.set_last ⟨ledger, value⟩⟩
  · have hall : VecHistory.before ledger (init ++ [last]) = init ++ [last] := by
      simp [VecHistory.before, hsame]
    rw [hall] at hfits ⊢
    obtain ⟨store', happend, hholds⟩ := h.append ⟨ledger, value⟩ hfits
    exact ⟨store', (if_neg hsame).trans happend, hholds⟩

/-! ## Reading -/

/-- The two binary searches make the same steps. -/
theorem searchLoop_eq (h : Holds store entries) (target : ℕ) :
    ∀ fuel lo hi, hi < entries.length →
      searchLoop store target fuel lo hi = VecHistory.searchLoop entries target fuel lo hi := by
  intro fuel
  induction fuel with
  | zero =>
      intro lo hi _
      rfl
  | succ fuel ih =>
      intro lo hi hhi
      unfold searchLoop VecHistory.searchLoop
      by_cases hlt : lo < hi
      · have hmid : lo + (hi - lo + 1) / 2 < entries.length := by omega
        simp only [if_pos hlt, h.get _ hmid, List.getElem?_eq_getElem hmid, Option.map_some]
        by_cases hread : entries[lo + (hi - lo + 1) / 2].ledger ≤ target
        · rw [if_pos hread, if_pos (show (ofEntry _).ledger ≤ target from hread)]
          exact ih _ hi hhi
        · rw [if_neg hread, if_neg (show ¬ (ofEntry _).ledger ≤ target from hread),
            ih lo _ (by omega)]
      · rw [if_neg hlt, if_neg hlt]

variable [Inhabited V]

theorem lookupAt_eq (h : Holds store entries) (target : ℕ) :
    lookupAt store target = VecHistory.lookupAt entries target := by
  rcases List.eq_nil_or_concat entries with rfl | ⟨init, last, rfl⟩
  · exact if_pos h.count
  rw [List.concat_eq_append] at h ⊢
  have hlast : (init ++ [last]).getLast? = some last := by simp
  have hpos : 0 < (init ++ [last]).length := by simp
  have hcount : store.count ≠ 0 := by
    rw [h.count]
    exact hpos.ne'
  have hfirst : (init ++ [last]).head? = some (init ++ [last])[0] := by
    rw [List.head?_eq_getElem?, List.getElem?_eq_getElem hpos]
  unfold lookupAt VecHistory.lookupAt
  simp only [if_neg hcount, h.get_last, hlast, hfirst, h.get 0 hpos,
    List.getElem?_eq_getElem hpos, Option.map_some, ofEntry]
  rw [h.count, h.searchLoop_eq target _ _ _ (by omega)]
  split
  · rfl
  split
  · rfl
  -- the search ends at an index of the list, and the slot there holds its entry
  cases hsearch : VecHistory.searchLoop (init ++ [last]) target (init ++ [last]).length 0
    ((init ++ [last]).length - 1) with
  | none => rfl
  | some i =>
      have hi : i < (init ++ [last]).length := by
        have hle := VecHistory.searchLoop_le (Nat.zero_le _) hsearch
        omega
      dsimp only
      rw [h.get i hi, List.getElem?_eq_getElem hi]
      rfl

theorem latest_eq (h : Holds store entries) : latest store = some (VecHistory.latest entries) := by
  unfold latest VecHistory.latest
  rcases List.eq_nil_or_concat entries with rfl | ⟨init, last, rfl⟩
  · exact if_pos h.count
  rw [List.concat_eq_append] at h ⊢
  have hlast : (init ++ [last]).getLast? = some last := by simp
  have hcount : store.count ≠ 0 := by
    rw [h.count, List.length_append]
    exact Nat.succ_ne_zero _
  rw [if_neg hcount, h.get_last, hlast]
  rfl

end Holds

end WarpDrive.Checkpoints
