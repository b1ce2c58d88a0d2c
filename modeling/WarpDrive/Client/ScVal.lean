import Mathlib.Data.List.Sort
import WarpDrive.Host

/-!
# Values of the client

The client talks to the contracts in `ScVal`s, and it builds the map of a contract
struct by hand: the fields are sorted by name, each name becomes a symbol of at most
32 bytes, and the entries become a map.  The bounded byte strings of XDR carry their
bound, so a value with a longer symbol cannot be built.

`structMap` fails exactly on a name or a list that is too long.  Otherwise its
entries are those that were given, in strictly ascending order of the names, and the
order in which they were given does not matter.
-/

namespace WarpDrive.Client

/-! ## Values -/

/-- `u32::MAX` -/
def u32Max : ℕ := 4294967295

/-- `BytesM<MAX>` and `StringM<MAX>`: at most `max` bytes. -/
@[ext] structure BytesM (max : ℕ) where
  bytes : Bytes
  length_le : bytes.length ≤ max
deriving DecidableEq, Repr

/-- The values of XDR.  What no function of the client reads is kept as bytes. -/
inductive ScVal where
  | bool (b : Bool)
  | void
  | error (xdr : Bytes)
  | u32 (x : UInt32)
  | i32 (x : Int32)
  | u64 (x : UInt64)
  | i64 (x : Int64)
  | timepoint (x : UInt64)
  | duration (x : UInt64)
  | u128 (hi lo : UInt64)
  | i128 (hi : Int64) (lo : UInt64)
  | u256 (xdr : Bytes)
  | i256 (xdr : Bytes)
  | bytes (b : BytesM u32Max)
  | string (s : BytesM u32Max)
  | symbol (s : BytesM 32)
  | vec (v : Option (List ScVal))
  | map (m : Option (List (ScVal × ScVal)))
  | address (xdr : Bytes)
  | contractInstance (xdr : Bytes)
  | ledgerKeyContractInstance
  | ledgerKeyNonce (nonce : Int64)

/-- A key and a value. -/
abbrev ScMapEntry := ScVal × ScVal

inductive SorobanHelperError where
  | xdrEncodingFailed (message : String)
  /-- "Unexpected result: " and the value -/
  | transactionSimulationFailed (res : ScVal)

variable {α : Type} {max : ℕ}

/-! ## Conversions -/

/-- `BytesM::try_from` and `StringM::try_from`. -/
def BytesM.tryFrom (max : ℕ) (bytes : Bytes) (message : String) :
    Except SorobanHelperError (BytesM max) :=
  if h : bytes.length ≤ max then .ok ⟨bytes, h⟩ else .error (.xdrEncodingFailed message)

/-- `VecM::try_from`. -/
def vecMTryFrom (items : List α) (message : String) : Except SorobanHelperError (List α) :=
  if items.length ≤ u32Max then .ok items else .error (.xdrEncodingFailed message)

class IntoScValExt (α : Type) where
  intoValExt : α → Except SorobanHelperError ScVal

export IntoScValExt (intoValExt)

/-- `Vec<u8>` -/
instance : IntoScValExt Bytes where
  intoValExt bytes := do
    let bm ← BytesM.tryFrom u32Max bytes "bytes too long"
    return .bytes bm

/-- `[u8; N]` -/
instance {n : ℕ} : IntoScValExt (BytesN n) where
  intoValExt array := intoValExt array.toArray

/-- `Vec<T>` -/
instance [IntoScValExt α] : IntoScValExt (List α) where
  intoValExt items := do
    let vals ← items.mapM intoValExt
    let vm ← vecMTryFrom vals "vec too long"
    return .vec (some vm)

/-- The bytes of a `&str`, by which it is ordered and compared. -/
def utf8 (s : String) : Bytes :=
  s.toByteArray.data.toList

/-- Build an `ScVal::Symbol` from a short string. -/
def symbol (key : String) : Except SorobanHelperError ScVal := do
  let sm ← BytesM.tryFrom 32 (utf8 key) "symbol too long"
  return .symbol sm

/-- Encode a contract struct as `ScVal::Map`. -/
def structMap (entries : List (String × ScVal)) : Except SorobanHelperError ScVal := do
  let entries := entries.insertionSort fun a b => utf8 a.1 ≤ utf8 b.1
  let mapEntries ← entries.mapM fun entry => do
    let key ← symbol entry.1
    return (key, entry.2)
  let vm ← vecMTryFrom mapEntries "map too long"
  return .map (some vm)

/-! ## When conversions succeed -/

theorem BytesM.tryFrom_of_le {bytes : Bytes} {message : String} (h : bytes.length ≤ max) :
    BytesM.tryFrom max bytes message = .ok ⟨bytes, h⟩ :=
  dif_pos h

theorem BytesM.tryFrom_of_lt {bytes : Bytes} {message : String} (h : max < bytes.length) :
    BytesM.tryFrom max bytes message = .error (.xdrEncodingFailed message) :=
  dif_neg (not_le.mpr h)

/-- A list that converts element by element. -/
theorem mapM_eq_ok {β : Type} {l : List α} {f : α → Except SorobanHelperError β} {g : α → β}
    (h : ∀ a ∈ l, f a = .ok (g a)) : l.mapM f = .ok (l.map g) := by
  induction l with
  | nil => rfl
  | cons a l ih =>
      have hrest := ih fun b hb => h b (List.mem_cons_of_mem a hb)
      rw [List.mapM_cons, h a List.mem_cons_self, hrest]
      rfl

/-- A list with an element that does not, where all of these fail alike. -/
theorem mapM_eq_error {β : Type} {l : List α} {f : α → Except SorobanHelperError β}
    {e : SorobanHelperError} (bad : α → Prop) (hbad : ∀ a ∈ l, bad a → f a = .error e)
    (hgood : ∀ a ∈ l, ¬ bad a → ∃ b, f a = .ok b) (hexists : ∃ a ∈ l, bad a) :
    l.mapM f = .error e := by
  induction l with
  | nil =>
      obtain ⟨a, ha, -⟩ := hexists
      cases ha
  | cons a l ih =>
      rw [List.mapM_cons]
      by_cases ha : bad a
      · rw [hbad a List.mem_cons_self ha]
        rfl
      · obtain ⟨b, hb⟩ := hgood a List.mem_cons_self ha
        obtain ⟨a', ha', hbad'⟩ := hexists
        have hrest : ∃ a ∈ l, bad a := by
          rcases List.mem_cons.mp ha' with rfl | hmem
          · exact absurd hbad' ha
          · exact ⟨a', hmem, hbad'⟩
        rw [hb, ih (fun c hc => hbad c (List.mem_cons_of_mem a hc))
          (fun c hc => hgood c (List.mem_cons_of_mem a hc)) hrest]
        rfl

theorem intoValExt_bytes {bytes : Bytes} (h : bytes.length ≤ u32Max) :
    intoValExt bytes = .ok (.bytes ⟨bytes, h⟩) := by
  show (do let bm ← BytesM.tryFrom u32Max bytes "bytes too long"; return ScVal.bytes bm) = _
  rw [BytesM.tryFrom_of_le h]
  rfl

theorem intoValExt_bytes_error {bytes : Bytes} (h : u32Max < bytes.length) :
    intoValExt bytes = .error (.xdrEncodingFailed "bytes too long") := by
  show (do let bm ← BytesM.tryFrom u32Max bytes "bytes too long"; return ScVal.bytes bm) = _
  rw [BytesM.tryFrom_of_lt h]
  rfl

/-! ## Maps of structs -/

/-- The name fits a symbol. -/
def Short (name : String) : Prop :=
  (utf8 name).length ≤ 32

instance (name : String) : Decidable (Short name) :=
  inferInstanceAs (Decidable (_ ≤ _))

/-- The symbol of a name, cut off at 32 bytes. -/
def fieldSymbol (name : String) : BytesM 32 where
  bytes := (utf8 name).take 32
  length_le := List.length_take_le 32 _

/-- The entry of a field. -/
def mapEntry (field : String × ScVal) : ScMapEntry :=
  (.symbol (fieldSymbol field.1), field.2)

theorem fieldSymbol_bytes {name : String} (h : Short name) :
    (fieldSymbol name).bytes = utf8 name :=
  List.take_of_length_le h

theorem symbol_of_short {name : String} (h : Short name) :
    symbol name = .ok (.symbol (fieldSymbol name)) := by
  have hsymbol : (⟨utf8 name, h⟩ : BytesM 32) = fieldSymbol name :=
    BytesM.ext (fieldSymbol_bytes h).symm
  rw [symbol, BytesM.tryFrom_of_le h, hsymbol]
  rfl

theorem symbol_of_not_short {name : String} (h : ¬ Short name) :
    symbol name = .error (.xdrEncodingFailed "symbol too long") := by
  rw [symbol, BytesM.tryFrom_of_lt (not_le.mp h)]
  rfl

/-- The fields in the order of their names. -/
def sortedFields (entries : List (String × ScVal)) : List (String × ScVal) :=
  entries.insertionSort fun a b => utf8 a.1 ≤ utf8 b.1

theorem sortedFields_perm (entries : List (String × ScVal)) :
    (sortedFields entries).Perm entries :=
  List.perm_insertionSort _ entries

/-- `struct_map`, as a function of the fields. -/
theorem structMap_eq (entries : List (String × ScVal)) :
    structMap entries =
      if ∀ field ∈ entries, Short field.1 then
        if entries.length ≤ u32Max then .ok (.map (some ((sortedFields entries).map mapEntry)))
        else .error (.xdrEncodingFailed "map too long")
      else .error (.xdrEncodingFailed "symbol too long") := by
  have hopen : structMap entries = ((sortedFields entries).mapM fun field => do
      let key ← symbol field.1
      return (key, field.2)) >>= fun mapEntries =>
        vecMTryFrom mapEntries "map too long" >>= fun vm => .ok (.map (some vm)) := rfl
  have hmem : ∀ field, field ∈ sortedFields entries ↔ field ∈ entries :=
    fun field => (sortedFields_perm entries).mem_iff
  rw [hopen]
  by_cases hshort : ∀ field ∈ entries, Short field.1
  · have hentries : ((sortedFields entries).mapM fun field => do
        let key ← symbol field.1
        return (key, field.2)) = .ok ((sortedFields entries).map mapEntry) := by
      apply mapM_eq_ok
      intro field hfield
      rw [symbol_of_short (hshort field ((hmem field).mp hfield))]
      rfl
    have hlength : ((sortedFields entries).map mapEntry).length = entries.length := by
      rw [List.length_map, (sortedFields_perm entries).length_eq]
    rw [hentries, if_pos hshort, ok_bind, vecMTryFrom, hlength]
    split <;> rfl
  · have hentries : ((sortedFields entries).mapM fun field => do
        let key ← symbol field.1
        return (key, field.2)) = .error (.xdrEncodingFailed "symbol too long") := by
      push Not at hshort
      obtain ⟨long, hlong, hnot⟩ := hshort
      refine mapM_eq_error (fun field => ¬ Short field.1) ?_ ?_
        ⟨long, (hmem long).mpr hlong, hnot⟩
      · intro field _ hbad
        rw [symbol_of_not_short hbad]
        rfl
      · intro field _ hgood
        exact ⟨mapEntry field, by rw [symbol_of_short (not_not.mp hgood)]; rfl⟩
    rw [hentries, if_neg hshort]
    rfl

/-! ### Distinct names -/

theorem utf8_inj {s s' : String} : utf8 s = utf8 s' ↔ s = s' := by
  unfold utf8
  rw [Array.toList_inj, ← String.toByteArray_inj, ByteArray.ext_iff]

/-- Fields with distinct names, sorted: the names strictly ascend. -/
theorem sortedFields_ascending {entries : List (String × ScVal)}
    (hdistinct : (entries.map Prod.fst).Nodup) :
    ((sortedFields entries).map fun field => utf8 field.1).Pairwise (· < ·) := by
  have hsorted : (sortedFields entries).Pairwise fun a b => utf8 a.1 ≤ utf8 b.1 :=
    List.pairwise_insertionSort _ entries
  have hnodup : ((sortedFields entries).map Prod.fst).Nodup :=
    ((sortedFields_perm entries).map Prod.fst).nodup_iff.mpr hdistinct
  rw [List.pairwise_map]
  refine (hsorted.and (List.pairwise_map.mp hnodup)).imp ?_
  rintro a b ⟨hle, hne⟩
  exact lt_of_le_of_ne hle fun heq => hne (utf8_inj.mp heq)

/-- Fields with distinct names have one sorted order. -/
theorem sortedFields_congr {entries entries' : List (String × ScVal)}
    (hdistinct : (entries.map Prod.fst).Nodup) (hperm : entries.Perm entries') :
    sortedFields entries = sortedFields entries' := by
  have hboth : (sortedFields entries).Perm (sortedFields entries') :=
    (sortedFields_perm entries).trans (hperm.trans (sortedFields_perm entries').symm)
  have hdistinct' : (entries'.map Prod.fst).Nodup := (hperm.map Prod.fst).nodup_iff.mp hdistinct
  have hascending := List.pairwise_map.mp (sortedFields_ascending hdistinct)
  have hascending' := List.pairwise_map.mp (sortedFields_ascending hdistinct')
  refine hboth.eq_of_pairwise ?_ hascending hascending'
  intro a b _ _ hlt hgt
  exact absurd (hlt.trans hgt) (lt_irrefl _)

end WarpDrive.Client
