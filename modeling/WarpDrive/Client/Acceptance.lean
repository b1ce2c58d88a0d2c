import WarpDrive.Client.RoundTrip

/-!
# What the client decodes

The decoders of `XlmEnvelope` and `MessageWithId` are lenient: they take a map in any
order, skip entries that they do not know or that have another type, and keep the last
value of each field.  `XlmEnvelope.fromScval_iff` and `MessageWithId.fromScval_iff` say
exactly what they accept.  An accepted value is the encoding of its struct precisely when
it has the fields alone and in order, which is what the contracts accept.

`decode_signer_info` is strict: it accepts the map of `key` and `weight` in this order and
nothing else.
-/

namespace WarpDrive.Client

/-! ## Entries by name -/

/-- The bytes that an entry has under a name. -/
def namedBytes (name : String) : ScMapEntry → Option Bytes
  | (.symbol key, .bytes b) => if key.bytes = utf8 name then some b.bytes else none
  | _ => none

/-- The number that an entry has under a name. -/
def namedU64 (name : String) : ScMapEntry → Option UInt64
  | (.symbol key, .u64 v) => if key.bytes = utf8 name then some v else none
  | _ => none

/-- What is read last. -/
def lastOf {α : Type} (read : ScMapEntry → Option α) (entries : List ScMapEntry) : Option α :=
  (entries.filterMap read).getLast?

theorem lastOf_append {α : Type} (read : ScMapEntry → Option α) (entries : List ScMapEntry)
    (entry : ScMapEntry) :
    lastOf read (entries ++ [entry]) = (read entry).or (lastOf read entries) := by
  unfold lastOf
  rw [List.filterMap_append]
  cases hread : read entry with
  | none => simp [hread]
  | some a => simp [hread]

theorem namedBytes_ne {name name' : String} {entry : ScMapEntry} {b : Bytes}
    (h : namedBytes name entry = some b) (hne : utf8 name ≠ utf8 name') :
    namedBytes name' entry = none := by
  unfold namedBytes at h ⊢
  split at h
  next key v =>
    split at h
    next hkey => exact if_neg fun hkey' => hne (hkey.symm.trans hkey')
    next => cases h
  next => cases h

theorem namedBytes_of_ne {name : String} {entry : ScMapEntry}
    (hentry : ¬ ∃ key b, entry = (.symbol key, .bytes b)) : namedBytes name entry = none := by
  unfold namedBytes
  split
  next key b => exact absurd ⟨key, b, rfl⟩ hentry
  next => rfl

theorem okOr_eq_ok {α : Type} {o : Option α} {message : String} {a : α} :
    okOr o message = .ok a ↔ o = some a := by
  unfold okOr
  cases o with
  | none => simp
  | some b => simp

theorem map_toArray_eq_some {n : ℕ} {o : Option (BytesN n)} {array : BytesN n}
    (h : o.map BytesN.toArray = some array.toArray) : o = some array := by
  obtain ⟨array', ho, harray⟩ := Option.map_eq_some_iff.mp h
  rw [ho, BytesN.toArray_injective harray]

/-- Sequencing, taken apart. -/
theorem bind_eq_ok {α β : Type} {m : Except SorobanHelperError α}
    {f : α → Except SorobanHelperError β} {b : β} :
    (m >>= f) = .ok b ↔ ∃ a, m = .ok a ∧ f a = .ok b := by
  cases m with
  | error e => simp
  | ok a => simp

/-! ## The wire format -/

section WireFormat

variable {α : Type} {toScval : α → Except SorobanHelperError ScVal}
  {fromScval : ScVal → Except SorobanHelperError α} {bytes : α → Bytes} {v : ScVal} {a : α}

/-- What was encoded is decoded. -/
theorem RoundTrips.decodes (h : RoundTrips toScval fromScval bytes a) (hv : toScval a = .ok v) :
    fromScval v = .ok a := by
  unfold RoundTrips at h
  split at h
  next =>
    rw [hv, ok_bind] at h
    exact h
  next =>
    rw [hv] at h
    cases h

/-- A value that is decoded is the encoding of its result if it is an encoding at all. -/
theorem encodes_iff_of_decodes (hround : ∀ a, RoundTrips toScval fromScval bytes a)
    (h : fromScval v = .ok a) : toScval a = .ok v ↔ ∃ a', toScval a' = .ok v := by
  constructor
  · intro hv
    exact ⟨a, hv⟩
  · rintro ⟨a', hv⟩
    have hsame : Except.ok a' = .ok a := ((hround a').decodes hv).symm.trans h
    cases hsame
    exact hv

end WireFormat

/-! ## Envelopes -/

namespace XlmEnvelope

/-- The cases of one turn of the loop: the entry is one of the three fields, or it is
skipped. -/
inductive Turn (fields : Fields) (entry : ScMapEntry) : Prop
  | eventId (b : Bytes) (hread : namedBytes "event_id" entry = some b)
      (hturn : readEntry fields entry =
        (okOr (BytesN.ofBytes? 20 b) "XlmEnvelope: event_id must be 20 bytes" >>=
          fun eventId => .ok { fields with eventId := some eventId }))
  | ordering (b : Bytes) (hread : namedBytes "ordering" entry = some b)
      (hturn : readEntry fields entry =
        (okOr (BytesN.ofBytes? 12 b) "XlmEnvelope: ordering must be 12 bytes" >>=
          fun ordering => .ok { fields with ordering := some ordering }))
  | payload (b : Bytes) (hread : namedBytes "payload" entry = some b)
      (hturn : readEntry fields entry = .ok { fields with payload := some b })
  | skip (heventId : namedBytes "event_id" entry = none)
      (hordering : namedBytes "ordering" entry = none)
      (hpayload : namedBytes "payload" entry = none)
      (hturn : readEntry fields entry = .ok fields)

theorem turn (fields : Fields) (entry : ScMapEntry) : Turn fields entry := by
  by_cases hentry : ∃ key b, entry = (.symbol key, .bytes b)
  · obtain ⟨key, b, rfl⟩ := hentry
    by_cases heventId : key.bytes = utf8 "event_id"
    · exact .eventId b.bytes (if_pos heventId) (if_pos heventId)
    · by_cases hordering : key.bytes = utf8 "ordering"
      · exact .ordering b.bytes (if_pos hordering) ((if_neg heventId).trans (if_pos hordering))
      · by_cases hpayload : key.bytes = utf8 "payload"
        · exact .payload b.bytes (if_pos hpayload)
            ((if_neg heventId).trans ((if_neg hordering).trans (if_pos hpayload)))
        · exact .skip (if_neg heventId) (if_neg hordering) (if_neg hpayload)
            ((if_neg heventId).trans ((if_neg hordering).trans (if_neg hpayload)))
  · have hturn : readEntry fields entry = .ok fields := by
      unfold readEntry
      split
      next key b => exact absurd ⟨key, b, rfl⟩ hentry
      next => rfl
    exact .skip (namedBytes_of_ne hentry) (namedBytes_of_ne hentry) (namedBytes_of_ne hentry)
      hturn

/-- An entry that is one of the two arrays has its length. -/
def Sized (entry : ScMapEntry) : Prop :=
  (∀ b, namedBytes "event_id" entry = some b → b.length = 20) ∧
    ∀ b, namedBytes "ordering" entry = some b → b.length = 12

/-- What one turn does to the fields. -/
structure Reads (entry : ScMapEntry) (fields fields' : Fields) : Prop where
  sized : Sized entry
  eventId : fields'.eventId.map BytesN.toArray =
    (namedBytes "event_id" entry).or (fields.eventId.map BytesN.toArray)
  ordering : fields'.ordering.map BytesN.toArray =
    (namedBytes "ordering" entry).or (fields.ordering.map BytesN.toArray)
  payload : fields'.payload = (namedBytes "payload" entry).or fields.payload

/-- What the loop has read from the entries. -/
structure HasRead (entries : List ScMapEntry) (fields : Fields) : Prop where
  sized : ∀ entry ∈ entries, Sized entry
  eventId : fields.eventId.map BytesN.toArray = lastOf (namedBytes "event_id") entries
  ordering : fields.ordering.map BytesN.toArray = lastOf (namedBytes "ordering") entries
  payload : fields.payload = lastOf (namedBytes "payload") entries

section Loop

variable {entries : List ScMapEntry} {fields fields' : Fields} {entry : ScMapEntry}

theorem reads_of_readEntry (hread : readEntry fields entry = .ok fields') :
    Reads entry fields fields' := by
  cases turn fields entry with
  | eventId b hname hturn =>
      rw [hturn] at hread
      obtain ⟨eventId, hok, hfields⟩ := bind_eq_ok.mp hread
      cases hfields
      have hordering : namedBytes "ordering" entry = none := namedBytes_ne hname (by decide)
      have hpayload : namedBytes "payload" entry = none := namedBytes_ne hname (by decide)
      have harray : eventId.toArray = b := BytesN.toArray_of_ofBytes? (okOr_eq_ok.mp hok)
      have hlength : b.length = 20 := by rw [← harray, eventId.length_toArray]
      constructor <;> simp [Sized, hname, hordering, hpayload, harray, hlength]
  | ordering b hname hturn =>
      rw [hturn] at hread
      obtain ⟨ordering, hok, hfields⟩ := bind_eq_ok.mp hread
      cases hfields
      have heventId : namedBytes "event_id" entry = none := namedBytes_ne hname (by decide)
      have hpayload : namedBytes "payload" entry = none := namedBytes_ne hname (by decide)
      have harray : ordering.toArray = b := BytesN.toArray_of_ofBytes? (okOr_eq_ok.mp hok)
      have hlength : b.length = 12 := by rw [← harray, ordering.length_toArray]
      constructor <;> simp [Sized, hname, heventId, hpayload, harray, hlength]
  | payload b hname hturn =>
      rw [hturn] at hread
      cases hread
      have heventId : namedBytes "event_id" entry = none := namedBytes_ne hname (by decide)
      have hordering : namedBytes "ordering" entry = none := namedBytes_ne hname (by decide)
      constructor <;> simp [Sized, hname, heventId, hordering]
  | skip heventId hordering hpayload hturn =>
      rw [hturn] at hread
      cases hread
      constructor <;> simp [Sized, heventId, hordering, hpayload]

/-- A turn fails on nothing but the length of an array. -/
theorem readEntry_of_sized (fields : Fields) (hsized : Sized entry) :
    ∃ fields', readEntry fields entry = .ok fields' := by
  cases turn fields entry with
  | eventId b hname hturn =>
      rw [hturn, BytesN.ofBytes?, dif_pos (hsized.1 b hname)]
      exact ⟨_, rfl⟩
  | ordering b hname hturn =>
      rw [hturn, BytesN.ofBytes?, dif_pos (hsized.2 b hname)]
      exact ⟨_, rfl⟩
  | payload b hname hturn => exact ⟨_, hturn⟩
  | skip heventId hordering hpayload hturn => exact ⟨_, hturn⟩

theorem HasRead.append (h : HasRead entries fields) (hread : Reads entry fields fields') :
    HasRead (entries ++ [entry]) fields' where
  sized := List.forall_mem_append.mpr ⟨h.sized, List.forall_mem_singleton.mpr hread.sized⟩
  eventId := by rw [lastOf_append, ← h.eventId, hread.eventId]
  ordering := by rw [lastOf_append, ← h.ordering, hread.ordering]
  payload := by rw [lastOf_append, ← h.payload, hread.payload]

/-- The loop ends with the fields that it has read. -/
theorem hasRead_of_foldlM (hloop : entries.foldlM readEntry ⟨none, none, none⟩ = .ok fields) :
    HasRead entries fields := by
  induction entries using List.reverseRecOn generalizing fields with
  | nil =>
      cases hloop
      exact ⟨List.forall_mem_nil _, rfl, rfl, rfl⟩
  | append_singleton entries entry ih =>
      rw [List.foldlM_append, bind_eq_ok] at hloop
      obtain ⟨before, hbefore, hturn⟩ := hloop
      rw [List.foldlM_cons, bind_eq_ok] at hturn
      obtain ⟨after, hturn, hafter⟩ := hturn
      cases hafter
      exact (ih hbefore).append (reads_of_readEntry hturn)

/-- The loop ends if every array has its length. -/
theorem foldlM_of_sized (hsized : ∀ entry ∈ entries, Sized entry) :
    ∃ fields, entries.foldlM readEntry ⟨none, none, none⟩ = .ok fields := by
  induction entries using List.reverseRecOn with
  | nil => exact ⟨_, rfl⟩
  | append_singleton entries entry ih =>
      rw [List.forall_mem_append, List.forall_mem_singleton] at hsized
      obtain ⟨before, hbefore⟩ := ih hsized.1
      obtain ⟨fields, hturn⟩ := readEntry_of_sized before hsized.2
      exact ⟨fields, by rw [List.foldlM_append, hbefore, ok_bind, List.foldlM_cons, hturn]; rfl⟩

end Loop

theorem fromScval_map (entries : List ScMapEntry) (e : XlmEnvelope) :
    fromScval (.map (some entries)) = .ok e ↔
      entries.foldlM readEntry ⟨none, none, none⟩ =
        .ok ⟨some e.eventId, some e.ordering, some e.payload⟩ := by
  unfold fromScval
  constructor
  · intro h
    obtain ⟨fields, hloop, h⟩ := bind_eq_ok.mp h
    obtain ⟨eventId, heventId, h⟩ := bind_eq_ok.mp h
    obtain ⟨ordering, hordering, h⟩ := bind_eq_ok.mp h
    obtain ⟨payload, hpayload, h⟩ := bind_eq_ok.mp h
    cases h
    rw [hloop, ← okOr_eq_ok.mp heventId, ← okOr_eq_ok.mp hordering, ← okOr_eq_ok.mp hpayload]
  · intro hloop
    show (entries.foldlM readEntry ⟨none, none, none⟩ >>= _) = _
    rw [hloop]
    rfl

/-- The entries that the decoder takes for an envelope: every array has its length, and the
fields are the last ones of their names.  Other entries do not count. -/
structure Accepts (entries : List ScMapEntry) (e : XlmEnvelope) : Prop where
  sized : ∀ entry ∈ entries, Sized entry
  eventId : lastOf (namedBytes "event_id") entries = some e.eventId.toArray
  ordering : lastOf (namedBytes "ordering") entries = some e.ordering.toArray
  payload : lastOf (namedBytes "payload") entries = some e.payload

theorem fromScval_iff (v : ScVal) (e : XlmEnvelope) :
    fromScval v = .ok e ↔ ∃ entries, v = .map (some entries) ∧ Accepts entries e := by
  constructor
  · intro h
    have hmap : ∃ entries, v = .map (some entries) := by
      unfold fromScval at h
      split at h
      next entries => exact ⟨entries, rfl⟩
      next => cases h
    obtain ⟨entries, rfl⟩ := hmap
    have hread := hasRead_of_foldlM ((fromScval_map entries e).mp h)
    exact ⟨entries, rfl, hread.sized, hread.eventId.symm, hread.ordering.symm,
      hread.payload.symm⟩
  · rintro ⟨entries, rfl, h⟩
    obtain ⟨fields, hloop⟩ := foldlM_of_sized h.sized
    have hread := hasRead_of_foldlM hloop
    have heventId : fields.eventId = some e.eventId :=
      map_toArray_eq_some (hread.eventId.trans h.eventId)
    have hordering : fields.ordering = some e.ordering :=
      map_toArray_eq_some (hread.ordering.trans h.ordering)
    have hpayload : fields.payload = some e.payload := hread.payload.trans h.payload
    rw [fromScval_map, hloop, ← heventId, ← hordering, ← hpayload]

/-- The value has the three fields alone, in order: what a contract accepts. -/
def IsWire (v : ScVal) : Prop :=
  ∃ eventId ordering payload : BytesM u32Max, eventId.bytes.length = 20 ∧
    ordering.bytes.length = 12 ∧ v = envelopeMap eventId ordering payload

/-- The values of that shape are the encodings of envelopes. -/
theorem isWire_iff {v : ScVal} : IsWire v ↔ ∃ e : XlmEnvelope, e.toScval = .ok v := by
  constructor
  · rintro ⟨eventId, ordering, payload, heventId, hordering, rfl⟩
    exact ⟨⟨⟨eventId.bytes, heventId⟩, ⟨ordering.bytes, hordering⟩, payload.bytes⟩,
      toScval_of_le payload.length_le⟩
  · rintro ⟨e, h⟩
    by_cases hlength : e.payload.length ≤ u32Max
    · rw [toScval_of_le hlength] at h
      cases h
      exact ⟨_, _, _, e.eventId.length_toArray, e.ordering.length_toArray, rfl⟩
    · rw [toScval_of_lt (not_le.mp hlength)] at h
      cases h

end XlmEnvelope

/-! ## Messages -/

namespace MessageWithId

/-- One turn of the loop reads the number or the bytes of its entry, or neither. -/
theorem readEntry_eq (fields : Fields) (entry : ScMapEntry) :
    readEntry fields entry =
      { triggerId := (namedU64 "trigger_id" entry).or fields.triggerId
        message := (namedBytes "message" entry).or fields.message } := by
  unfold readEntry
  split
  next key v =>
    show (if key.bytes = utf8 "trigger_id" then _ else _) = (⟨Option.or (if _ then _ else _) _,
      fields.message⟩ : Fields)
    split <;> rfl
  next key b =>
    show (if key.bytes = utf8 "message" then _ else _) = (⟨fields.triggerId,
      Option.or (if _ then _ else _) _⟩ : Fields)
    split <;> rfl
  next hu64 hbytes =>
    have htriggerId : namedU64 "trigger_id" entry = none := by
      unfold namedU64
      split
      next key v => exact absurd rfl (hu64 key v)
      next => rfl
    have hmessage : namedBytes "message" entry = none :=
      namedBytes_of_ne fun ⟨key, b, hentry⟩ => hbytes key b hentry
    rw [htriggerId, hmessage]
    rfl

/-- The loop ends with the last number and the last bytes. -/
theorem foldl_readEntry (entries : List ScMapEntry) :
    entries.foldl readEntry ⟨none, none⟩ =
      ⟨lastOf (namedU64 "trigger_id") entries, lastOf (namedBytes "message") entries⟩ := by
  induction entries using List.reverseRecOn with
  | nil => rfl
  | append_singleton entries entry ih =>
      rw [List.foldl_append, ih, List.foldl_cons, List.foldl_nil, readEntry_eq, lastOf_append,
        lastOf_append]

/-- The entries that the decoder takes for a message. -/
structure Accepts (entries : List ScMapEntry) (m : MessageWithId) : Prop where
  triggerId : lastOf (namedU64 "trigger_id") entries = some m.triggerId
  message : lastOf (namedBytes "message") entries = some m.message

theorem fromScval_map (entries : List ScMapEntry) :
    fromScval (.map (some entries)) = (do
      let triggerId ← okOr (lastOf (namedU64 "trigger_id") entries)
        "MessageWithId: missing trigger_id"
      let message ← okOr (lastOf (namedBytes "message") entries) "MessageWithId: missing message"
      return ⟨triggerId, message⟩) := by
  have hloop := foldl_readEntry entries
  show (do
    let triggerId ← okOr (entries.foldl readEntry ⟨none, none⟩).triggerId _
    let message ← okOr (entries.foldl readEntry ⟨none, none⟩).message _
    return (⟨triggerId, message⟩ : MessageWithId)) = _
  rw [hloop]

theorem fromScval_iff (v : ScVal) (m : MessageWithId) :
    fromScval v = .ok m ↔ ∃ entries, v = .map (some entries) ∧ Accepts entries m := by
  constructor
  · intro h
    have hmap : ∃ entries, v = .map (some entries) := by
      unfold fromScval at h
      split at h
      next entries => exact ⟨entries, rfl⟩
      next => cases h
    obtain ⟨entries, rfl⟩ := hmap
    rw [fromScval_map] at h
    obtain ⟨triggerId, htriggerId, h⟩ := bind_eq_ok.mp h
    obtain ⟨message, hmessage, h⟩ := bind_eq_ok.mp h
    cases h
    exact ⟨entries, rfl, okOr_eq_ok.mp htriggerId, okOr_eq_ok.mp hmessage⟩
  · rintro ⟨entries, rfl, h⟩
    rw [fromScval_map, h.triggerId, h.message]
    rfl

/-- The value has the two fields alone, in order: what a contract accepts. -/
def IsWire (v : ScVal) : Prop :=
  ∃ (message : BytesM u32Max) (triggerId : UInt64), v = messageMap message triggerId

/-- The values of that shape are the encodings of messages. -/
theorem isWire_iff {v : ScVal} : IsWire v ↔ ∃ m : MessageWithId, m.toScval = .ok v := by
  constructor
  · rintro ⟨message, triggerId, rfl⟩
    exact ⟨⟨triggerId, message.bytes⟩, toScval_of_le message.length_le⟩
  · rintro ⟨m, h⟩
    by_cases hlength : m.message.length ≤ u32Max
    · rw [toScval_of_le hlength] at h
      cases h
      exact ⟨_, _, rfl⟩
    · rw [toScval_of_lt (not_le.mp hlength)] at h
      cases h

end MessageWithId

/-! ## Signers -/

/-- The map of a signer, as `list_signers` returns it. -/
def signerMap (key : BytesM u32Max) (weight : UInt64) : ScVal :=
  .map (some [(.symbol (fieldSymbol "key"), .bytes key),
    (.symbol (fieldSymbol "weight"), .u64 weight)])

theorem isSymbol_iff {name : String} (hshort : Short name) (v : ScVal) :
    isSymbol name v = true ↔ v = .symbol (fieldSymbol name) := by
  unfold isSymbol
  split
  next sym =>
    rw [decide_eq_true_iff]
    constructor
    · intro hsym
      rw [BytesM.ext (hsym.trans (fieldSymbol_bytes hshort).symm)]
    · intro hsym
      cases hsym
      exact fieldSymbol_bytes hshort
  next hne =>
    constructor
    · intro hfalse
      cases hfalse
    · intro hsym
      exact absurd hsym (hne _)

theorem decodeSignerInfo_iff (n : ℕ) (v : ScVal) (info : SignerInfo n) :
    decodeSignerInfo n v = .ok info ↔
      ∃ key : BytesM u32Max, key.bytes = info.key.toArray ∧ v = signerMap key info.weight := by
  constructor
  · intro h
    unfold decodeSignerInfo at h
    split at h
    next keyField keyVal weightField weightVal =>
      split at h
      next => cases h
      next hfields =>
        split at h
        next bytes =>
          split at h
          next => cases h
          next key hkey =>
            split at h
            next weight =>
              cases h
              simp only [Bool.or_eq_true, Bool.not_eq_true', not_or, Bool.not_eq_false] at hfields
              have hkeyField := (isSymbol_iff (by decide) keyField).mp hfields.1
              have hweightField := (isSymbol_iff (by decide) weightField).mp hfields.2
              rw [hkeyField, hweightField]
              exact ⟨bytes, (BytesN.toArray_of_ofBytes? hkey).symm, rfl⟩
            next => cases h
        next => cases h
    next => cases h
  · rintro ⟨key, hkey, rfl⟩
    have harray : BytesN.ofBytes? n key.bytes = some info.key := by
      rw [hkey, BytesN.ofBytes?_toArray]
    have hkeyField : isSymbol "key" (.symbol (fieldSymbol "key")) = true :=
      (isSymbol_iff (by decide) _).mpr rfl
    have hweightField : isSymbol "weight" (.symbol (fieldSymbol "weight")) = true :=
      (isSymbol_iff (by decide) _).mpr rfl
    simp [decodeSignerInfo, signerMap, harray, hkeyField, hweightField]

/-! ## What the decoders promise -/

/-- The decoder takes a map by the last entry of each name.  What is encoded it takes, and
of what it takes the wire format is what is encoded. -/
structure DecodesLeniently {α : Type} (toScval : α → Except SorobanHelperError ScVal)
    (fromScval : ScVal → Except SorobanHelperError α) (accepts : List ScMapEntry → α → Prop)
    (isWire : ScVal → Prop) : Prop where
  fromScval_iff : ∀ v a, fromScval v = .ok a ↔ ∃ entries, v = .map (some entries) ∧
    accepts entries a
  fromScval_of_toScval : ∀ v a, toScval a = .ok v → fromScval v = .ok a
  toScval_iff_isWire : ∀ v a, fromScval v = .ok a → (toScval a = .ok v ↔ isWire v)

/-- A struct that comes back from its encoding, with its accepted maps and its wire format. -/
theorem decodesLeniently {α : Type} {toScval : α → Except SorobanHelperError ScVal}
    {fromScval : ScVal → Except SorobanHelperError α} {bytes : α → Bytes}
    {accepts : List ScMapEntry → α → Prop} {isWire : ScVal → Prop}
    (hround : ∀ a, RoundTrips toScval fromScval bytes a)
    (haccepts : ∀ v a, fromScval v = .ok a ↔ ∃ entries, v = .map (some entries) ∧
      accepts entries a)
    (hwire : ∀ v, isWire v ↔ ∃ a, toScval a = .ok v) :
    DecodesLeniently toScval fromScval accepts isWire where
  fromScval_iff := haccepts
  fromScval_of_toScval _ a hv := (hround a).decodes hv
  toScval_iff_isWire v _ h := by rw [hwire v, encodes_iff_of_decodes hround h]

/-- The envelope and the message are decoded by the last entry of each name, in any order;
the signers are decoded from their map alone. -/
theorem decoders_accept :
    DecodesLeniently XlmEnvelope.toScval XlmEnvelope.fromScval XlmEnvelope.Accepts
      XlmEnvelope.IsWire ∧
    DecodesLeniently MessageWithId.toScval MessageWithId.fromScval MessageWithId.Accepts
      MessageWithId.IsWire ∧
    ∀ (n : ℕ) (v : ScVal) (info : SignerInfo n), decodeSignerInfo n v = .ok info ↔
      ∃ key : BytesM u32Max, key.bytes = info.key.toArray ∧ v = signerMap key info.weight :=
  ⟨decodesLeniently XlmEnvelope.roundTrips XlmEnvelope.fromScval_iff fun _ =>
      XlmEnvelope.isWire_iff,
    decodesLeniently MessageWithId.roundTrips MessageWithId.fromScval_iff fun _ =>
      MessageWithId.isWire_iff,
    decodeSignerInfo_iff⟩

/-- An envelope out of order, with a payload that is overwritten, an ordering of another
type and a field that does not exist. -/
def looseEnvelope : ScVal :=
  .map (some [(.symbol (fieldSymbol "payload"), .bytes ⟨[1], by decide⟩),
    (.symbol (fieldSymbol "ordering"), .u32 7),
    (.symbol (fieldSymbol "payload"), .bytes ⟨[2], by decide⟩),
    (.symbol (fieldSymbol "version"), .u32 1),
    (.symbol (fieldSymbol "ordering"), .bytes ⟨List.replicate 12 0, by decide⟩),
    (.symbol (fieldSymbol "event_id"), .bytes ⟨List.replicate 20 0, by decide⟩)])

/-- A message out of order, with another number before its own. -/
def looseMessage : ScVal :=
  .map (some [(.symbol (fieldSymbol "trigger_id"), .u64 1),
    (.symbol (fieldSymbol "trigger_id"), .u64 2),
    (.symbol (fieldSymbol "message"), .bytes ⟨[1], by decide⟩)])

/-- Not everything that is decoded is the encoding of its result. -/
theorem loose_decoded :
    ¬ (∀ v e, XlmEnvelope.fromScval v = .ok e → e.toScval = .ok v) ∧
    ¬ ∀ v m, MessageWithId.fromScval v = .ok m → m.toScval = .ok v := by
  constructor
  · intro hstrict
    have hencoded := hstrict looseEnvelope
      ⟨⟨List.replicate 20 0, rfl⟩, ⟨List.replicate 12 0, rfl⟩, [2]⟩ rfl
    rw [XlmEnvelope.toScval_of_le (by decide)] at hencoded
    cases hencoded
  · intro hstrict
    have hencoded := hstrict looseMessage ⟨2, [1]⟩ rfl
    rw [MessageWithId.toScval_of_le (by decide)] at hencoded
    cases hencoded

end WarpDrive.Client
