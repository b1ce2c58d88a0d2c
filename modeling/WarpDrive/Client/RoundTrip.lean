import WarpDrive.Client.Codecs

/-!
# Encoding a contract struct

`struct_map` yields one map for every order of the fields (`struct_encoding`): the
given entries, under strictly ascending names.  So the encoders below have one result
each, or fail because a byte string or a vector is longer than XDR allows, and the
decoders give back what was encoded.
-/

namespace WarpDrive.Client

/-! ## The map of a struct -/

/-- The value is a map of the given fields, under strictly ascending names. -/
def MapsFields (entries : List (String × ScVal)) (val : ScVal) : Prop :=
  ∃ fields : List (BytesM 32 × ScVal),
    val = .map (some (fields.map fun field => (.symbol field.1, field.2))) ∧
    (fields.map fun field => field.1.bytes).Pairwise (· < ·) ∧
    (fields.map fun field => (field.1.bytes, field.2)).Perm
      (entries.map fun field => (utf8 field.1, field.2))

section StructMap

variable {entries : List (String × ScVal)}

theorem structMap_fails_iff : (∃ e, structMap entries = .error e) ↔
    (∃ field ∈ entries, ¬ Short field.1) ∨ u32Max < entries.length := by
  rw [structMap_eq]
  constructor
  · rintro ⟨e, he⟩
    by_contra hnot
    push Not at hnot
    rw [if_pos hnot.1, if_pos hnot.2] at he
    cases he
  · rintro (⟨field, hfield, hlong⟩ | hlength)
    · exact ⟨_, if_neg fun hshort => hlong (hshort field hfield)⟩
    · rw [if_neg (not_le.mpr hlength)]
      split
      · exact ⟨_, rfl⟩
      · exact ⟨_, rfl⟩

theorem structMap_mapsFields {val : ScVal} (hdistinct : (entries.map Prod.fst).Nodup)
    (hval : structMap entries = .ok val) : MapsFields entries val := by
  have hshort : ∀ field ∈ entries, Short field.1 := by
    by_contra hlong
    rw [structMap_eq, if_neg hlong] at hval
    cases hval
  have hlength : entries.length ≤ u32Max := by
    by_contra hlong
    rw [structMap_eq, if_pos hshort, if_neg hlong] at hval
    cases hval
  rw [structMap_eq, if_pos hshort, if_pos hlength] at hval
  injection hval with hval
  -- a short name is the whole of its symbol
  have hname : ∀ field ∈ sortedFields entries,
      (fieldSymbol field.1).bytes = utf8 field.1 := fun field hfield =>
    fieldSymbol_bytes (hshort field ((sortedFields_perm entries).mem_iff.mp hfield))
  refine ⟨(sortedFields entries).map fun field => (fieldSymbol field.1, field.2), ?_, ?_, ?_⟩
  · rw [← hval, List.map_map]
    rfl
  · have hnames : ((sortedFields entries).map fun field => (fieldSymbol field.1).bytes) =
        (sortedFields entries).map fun field => utf8 field.1 := List.map_congr_left hname
    rw [List.map_map]
    show ((sortedFields entries).map fun field => (fieldSymbol field.1).bytes).Pairwise _
    rw [hnames]
    exact sortedFields_ascending hdistinct
  · have hpairs : ((sortedFields entries).map fun field =>
        ((fieldSymbol field.1).bytes, field.2)) =
        (sortedFields entries).map fun field => (utf8 field.1, field.2) :=
      List.map_congr_left fun field hfield => by rw [hname field hfield]
    rw [List.map_map]
    show ((sortedFields entries).map fun field =>
      ((fieldSymbol field.1).bytes, field.2)).Perm _
    rw [hpairs]
    exact (sortedFields_perm entries).map _

theorem structMap_congr {entries' : List (String × ScVal)}
    (hdistinct : (entries.map Prod.fst).Nodup) (hperm : entries.Perm entries') :
    structMap entries' = structMap entries := by
  have hshort : (∀ field ∈ entries', Short field.1) ↔ ∀ field ∈ entries, Short field.1 :=
    forall_congr' fun field => by rw [hperm.mem_iff]
  simp only [structMap_eq, hshort, ← hperm.length_eq, sortedFields_congr hdistinct hperm]

end StructMap

/-! ## Fields in order -/

/-- Fields that are in order already become the entries of the map, one by one. -/
theorem structMap_of_ascending {entries : List (String × ScVal)}
    (hshort : ∀ field ∈ entries, Short field.1)
    (hascending : entries.Pairwise fun a b => utf8 a.1 ≤ utf8 b.1)
    (hlength : entries.length ≤ u32Max) :
    structMap entries = .ok (.map (some (entries.map mapEntry))) := by
  have hsorted : sortedFields entries = entries := hascending.insertionSort_eq
  rw [structMap_eq, if_pos hshort, if_pos hlength, hsorted]

/-- A byte array, as the bytes of a value. -/
def ofBytesN {n : ℕ} (array : BytesN n) (h : n ≤ u32Max) : BytesM u32Max where
  bytes := array.toArray
  length_le := array.length_toArray.trans_le h

theorem intoValExt_bytesN {n : ℕ} (array : BytesN n) (h : n ≤ u32Max) :
    intoValExt array = .ok (.bytes (ofBytesN array h)) :=
  intoValExt_bytes (array.length_toArray.trans_le h)

/-- A vector of byte arrays keeps its order, or is too long. -/
theorem intoValExt_vec {n : ℕ} (arrays : List (BytesN n)) (h : n ≤ u32Max) :
    intoValExt arrays =
      if arrays.length ≤ u32Max then
        .ok (.vec (some (arrays.map fun array => .bytes (ofBytesN array h))))
      else .error (.xdrEncodingFailed "vec too long") := by
  have hopen : intoValExt arrays = (arrays.mapM intoValExt >>= fun vals =>
      vecMTryFrom vals "vec too long" >>= fun vm => .ok (.vec (some vm))) := rfl
  have hvals : arrays.mapM intoValExt =
      .ok (arrays.map fun array => .bytes (ofBytesN array h)) :=
    mapM_eq_ok fun array _ => intoValExt_bytesN array h
  rw [hopen, hvals, ok_bind, vecMTryFrom, List.length_map]
  split <;> rfl

/-! ## Envelopes and messages -/

/-- The map of an envelope. -/
def envelopeMap (eventId ordering payload : BytesM u32Max) : ScVal :=
  .map (some [(.symbol (fieldSymbol "event_id"), .bytes eventId),
    (.symbol (fieldSymbol "ordering"), .bytes ordering),
    (.symbol (fieldSymbol "payload"), .bytes payload)])

theorem XlmEnvelope.toScval_eq (e : XlmEnvelope) :
    e.toScval = (intoValExt e.payload >>= fun payload => structMap
      [("event_id", .bytes (ofBytesN e.eventId (by decide))),
        ("ordering", .bytes (ofBytesN e.ordering (by decide))),
        ("payload", payload)]) := by
  unfold toScval
  rw [intoValExt_bytesN e.eventId (by decide), intoValExt_bytesN e.ordering (by decide)]
  rfl

theorem XlmEnvelope.toScval_of_le {e : XlmEnvelope} (h : e.payload.length ≤ u32Max) :
    e.toScval = .ok (envelopeMap (ofBytesN e.eventId (by decide))
      (ofBytesN e.ordering (by decide)) ⟨e.payload, h⟩) := by
  rw [toScval_eq, intoValExt_bytes h, ok_bind]
  exact structMap_of_ascending (by simp; decide) (by simp; decide) (by simp; decide)

theorem XlmEnvelope.toScval_of_lt {e : XlmEnvelope} (h : u32Max < e.payload.length) :
    e.toScval = .error (.xdrEncodingFailed "bytes too long") := by
  rw [toScval_eq, intoValExt_bytes_error h]
  rfl

/-- The map of a message. -/
def messageMap (message : BytesM u32Max) (triggerId : UInt64) : ScVal :=
  .map (some [(.symbol (fieldSymbol "message"), .bytes message),
    (.symbol (fieldSymbol "trigger_id"), .u64 triggerId)])

theorem MessageWithId.toScval_of_le {m : MessageWithId} (h : m.message.length ≤ u32Max) :
    m.toScval = .ok (messageMap ⟨m.message, h⟩ m.triggerId) := by
  unfold toScval
  rw [intoValExt_bytes h, ok_bind]
  exact structMap_of_ascending (by simp; decide) (by simp; decide) (by simp; decide)

theorem MessageWithId.toScval_of_lt {m : MessageWithId} (h : u32Max < m.message.length) :
    m.toScval = .error (.xdrEncodingFailed "bytes too long") := by
  unfold toScval
  rw [intoValExt_bytes_error h]
  rfl

/-! ### Decoding what was encoded -/

theorem okOr_some {α : Type} {o : Option α} {a : α} (message : String) (h : o = some a) :
    okOr o message = .ok a := by
  rw [h]
  rfl

section ReadEntry

variable {fields : XlmEnvelope.Fields} {b : BytesM u32Max}

theorem XlmEnvelope.readEntry_eventId {eventId : BytesN 20}
    (h : BytesN.ofBytes? 20 b.bytes = some eventId) :
    readEntry fields (.symbol (fieldSymbol "event_id"), .bytes b) =
      .ok { fields with eventId := some eventId } := by
  show (okOr (BytesN.ofBytes? 20 b.bytes) _ >>= fun eventId => _) = _
  rw [okOr_some _ h]
  rfl

theorem XlmEnvelope.readEntry_ordering {ordering : BytesN 12}
    (h : BytesN.ofBytes? 12 b.bytes = some ordering) :
    readEntry fields (.symbol (fieldSymbol "ordering"), .bytes b) =
      .ok { fields with ordering := some ordering } := by
  show (okOr (BytesN.ofBytes? 12 b.bytes) _ >>= fun ordering => _) = _
  rw [okOr_some _ h]
  rfl

theorem XlmEnvelope.readEntry_payload :
    readEntry fields (.symbol (fieldSymbol "payload"), .bytes b) =
      .ok { fields with payload := some b.bytes } := rfl

end ReadEntry

theorem XlmEnvelope.fromScval_envelopeMap {e : XlmEnvelope}
    {eventId ordering payload : BytesM u32Max}
    (heventId : BytesN.ofBytes? 20 eventId.bytes = some e.eventId)
    (hordering : BytesN.ofBytes? 12 ordering.bytes = some e.ordering)
    (hpayload : payload.bytes = e.payload) :
    fromScval (envelopeMap eventId ordering payload) = .ok e := by
  unfold fromScval envelopeMap
  simp only [List.foldlM_cons, List.foldlM_nil, readEntry_eventId heventId,
    readEntry_ordering hordering, readEntry_payload, ok_bind, hpayload]
  rfl

theorem MessageWithId.fromScval_messageMap (m : MessageWithId) (h : m.message.length ≤ u32Max) :
    fromScval (messageMap ⟨m.message, h⟩ m.triggerId) = .ok m := rfl

/-! ## Signature data -/

/-- A vector of byte arrays, in the order of the caller. -/
def arraysVec {n : ℕ} (arrays : List (BytesN n)) (h : n ≤ u32Max) : ScVal :=
  .vec (some (arrays.map fun array => .bytes (ofBytesN array h)))

/-- The map of signature data. -/
def signatureMap {k n : ℕ} (hk : k ≤ u32Max) (hn : n ≤ u32Max) (signers : List (BytesN k))
    (signatures : List (BytesN n)) (referenceBlock : UInt32) : ScVal :=
  .map (some [(.symbol (fieldSymbol "reference_block"), .u32 referenceBlock),
    (.symbol (fieldSymbol "signatures"), arraysVec signatures hn),
    (.symbol (fieldSymbol "signers"), arraysVec signers hk)])

section Signatures

variable {k n : ℕ} (hk : k ≤ u32Max) (hn : n ≤ u32Max) {signers : List (BytesN k)}
  {signatures : List (BytesN n)} (referenceBlock : UInt32)

theorem signatureScval_of_le (hsigners : signers.length ≤ u32Max)
    (hsignatures : signatures.length ≤ u32Max) :
    signatureScval signers signatures referenceBlock =
      .ok (signatureMap hk hn signers signatures referenceBlock) := by
  have hfields : structMap [("reference_block", .u32 referenceBlock),
      ("signatures", arraysVec signatures hn), ("signers", arraysVec signers hk)] =
      .ok (signatureMap hk hn signers signatures referenceBlock) :=
    structMap_of_ascending (by simp; decide) (by simp; decide) (by simp; decide)
  unfold signatureScval
  rw [intoValExt_vec signatures hn, intoValExt_vec signers hk, if_pos hsignatures,
    if_pos hsigners]
  exact hfields

include hk hn in
theorem signatureScval_of_not_le
    (h : ¬ (signers.length ≤ u32Max ∧ signatures.length ≤ u32Max)) :
    signatureScval signers signatures referenceBlock =
      .error (.xdrEncodingFailed "vec too long") := by
  unfold signatureScval
  rw [intoValExt_vec signatures hn, intoValExt_vec signers hk]
  by_cases hsignatures : signatures.length ≤ u32Max
  · have hsigners : ¬ signers.length ≤ u32Max := fun hle => h ⟨hle, hsignatures⟩
    rw [if_pos hsignatures, if_neg hsigners]
    rfl
  · rw [if_neg hsignatures]
    rfl

end Signatures

/-! ## What the encoders promise -/

/-- The map is made or refused whatever the order of the fields. -/
structure EncodesStructs : Prop where
  fails_iff : ∀ entries : List (String × ScVal), (entries.map Prod.fst).Nodup →
    ((∃ e, structMap entries = .error e) ↔
      (∃ field ∈ entries, 32 < (utf8 field.1).length) ∨ u32Max < entries.length)
  mapsFields : ∀ (entries : List (String × ScVal)) (val : ScVal),
    (entries.map Prod.fst).Nodup → structMap entries = .ok val → MapsFields entries val
  congr : ∀ entries entries' : List (String × ScVal),
    (entries.map Prod.fst).Nodup → entries.Perm entries' →
    structMap entries' = structMap entries

/-- A struct with this byte string comes back from its encoding, unless the byte string
is too long for XDR. -/
def RoundTrips {α : Type} (toScval : α → Except SorobanHelperError ScVal)
    (fromScval : ScVal → Except SorobanHelperError α) (bytes : α → Bytes) (a : α) : Prop :=
  if (bytes a).length ≤ u32Max then (toScval a >>= fromScval) = .ok a
  else toScval a = .error (.xdrEncodingFailed "bytes too long")

/-- The signers and the signatures are carried in the order of the caller, unless there
are too many of them for XDR. -/
def CarriesOrder {k n : ℕ} (hk : k ≤ u32Max) (hn : n ≤ u32Max) (signers : List (BytesN k))
    (signatures : List (BytesN n)) (referenceBlock : UInt32)
    (encoded : Except SorobanHelperError ScVal) : Prop :=
  if signers.length ≤ u32Max ∧ signatures.length ≤ u32Max then
    encoded = .ok (signatureMap hk hn signers signatures referenceBlock)
  else encoded = .error (.xdrEncodingFailed "vec too long")

theorem encodesStructs : EncodesStructs where
  fails_iff entries _ := by
    rw [structMap_fails_iff]
    simp only [Short, not_le]
  mapsFields _ _ hdistinct hval := structMap_mapsFields hdistinct hval
  congr _ _ hdistinct hperm := structMap_congr hdistinct hperm

theorem XlmEnvelope.roundTrips (e : XlmEnvelope) :
    RoundTrips toScval fromScval payload e := by
  unfold RoundTrips
  split
  next h =>
    rw [toScval_of_le h, ok_bind]
    exact fromScval_envelopeMap (BytesN.ofBytes?_toArray e.eventId)
      (BytesN.ofBytes?_toArray e.ordering) rfl
  next h => exact toScval_of_lt (not_le.mp h)

theorem MessageWithId.roundTrips (m : MessageWithId) :
    RoundTrips toScval fromScval message m := by
  unfold RoundTrips
  split
  next h =>
    rw [toScval_of_le h, ok_bind]
    exact fromScval_messageMap m h
  next h => exact toScval_of_lt (not_le.mp h)

theorem signatureScval_carriesOrder {k n : ℕ} (hk : k ≤ u32Max) (hn : n ≤ u32Max)
    (signers : List (BytesN k)) (signatures : List (BytesN n)) (referenceBlock : UInt32) :
    CarriesOrder hk hn signers signatures referenceBlock
      (signatureScval signers signatures referenceBlock) := by
  unfold CarriesOrder
  split
  next h => exact signatureScval_of_le hk hn referenceBlock h.1 h.2
  next h => exact signatureScval_of_not_le hk hn referenceBlock h

/-- `struct_map` makes the one sorted map of its fields, and the structs that the client
encodes come back, in the order of the caller. -/
theorem struct_encoding :
    EncodesStructs ∧
    (∀ e : XlmEnvelope, RoundTrips XlmEnvelope.toScval XlmEnvelope.fromScval
      XlmEnvelope.payload e) ∧
    (∀ m : MessageWithId, RoundTrips MessageWithId.toScval MessageWithId.fromScval
      MessageWithId.message m) ∧
    (∀ data : SignatureData, CarriesOrder (by decide) (by decide) data.signers
      data.signatures data.referenceBlock data.intoScval) ∧
    ∀ data : Ed25519SignatureData, CarriesOrder (by decide) (by decide) data.signers
      data.signatures data.referenceBlock data.intoScval :=
  ⟨encodesStructs, XlmEnvelope.roundTrips, MessageWithId.roundTrips,
    fun data => signatureScval_carriesOrder _ _ data.signers data.signatures _,
    fun data => signatureScval_carriesOrder _ _ data.signers data.signatures _⟩

/-- One byte more than XDR takes. -/
def longEnvelope : XlmEnvelope where
  eventId := ⟨List.replicate 20 0, rfl⟩
  ordering := ⟨List.replicate 12 0, rfl⟩
  payload := List.replicate (u32Max + 1) 0

/-- An envelope with a payload that is too long does not come back: it is not encoded. -/
theorem longEnvelope_not_encoded :
    ¬ ∀ e : XlmEnvelope, (e.toScval >>= XlmEnvelope.fromScval) = .ok e := by
  intro hall
  have hlong : u32Max < longEnvelope.payload.length := by
    show u32Max < (List.replicate (u32Max + 1) (0 : UInt8)).length
    rw [List.length_replicate]
    exact Nat.lt_succ_self u32Max
  have hok := hall longEnvelope
  rw [XlmEnvelope.toScval_of_lt hlong] at hok
  cases hok

end WarpDrive.Client
