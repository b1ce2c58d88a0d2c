import WarpDrive.Client.ScVal
import WarpDrive.Library.Hex

/-!
# The contract structs of the client

The client mirrors the structs that it sends to the contracts and reads from them:
the envelope and the message of a Stellar handler, the signature data of the two
handlers, and the signers that `list_signers` returns.

The encoders go through `structMap`.  The decoders of `XlmEnvelope` and
`MessageWithId` run over the entries of a map in any order, skip what they do not
know and keep the last value of each field; `decode_signer_info` takes the two
entries of a map apart by position.  The former compare the symbol as it is displayed;
what is escaped there holds a backslash, so only the very bytes of a name read as it.
-/

namespace WarpDrive.Client

/-! ## Envelopes and messages -/

structure XlmEnvelope where
  eventId : BytesN 20
  ordering : BytesN 12
  payload : Bytes
deriving DecidableEq, Repr

structure MessageWithId where
  triggerId : UInt64
  message : Bytes
deriving DecidableEq, Repr

/-- `Option::ok_or_else`. -/
def okOr {α : Type} (o : Option α) (message : String) : Except SorobanHelperError α :=
  match o with
  | some a => .ok a
  | none => .error (.xdrEncodingFailed message)

namespace XlmEnvelope

def toScval (e : XlmEnvelope) : Except SorobanHelperError ScVal := do
  structMap [
    ("event_id", ← intoValExt e.eventId),
    ("ordering", ← intoValExt e.ordering),
    ("payload", ← intoValExt e.payload)]

/-- The fields read so far. -/
structure Fields where
  eventId : Option (BytesN 20)
  ordering : Option (BytesN 12)
  payload : Option Bytes
deriving DecidableEq, Repr

/-- One turn of the loop of `from_scval`. -/
def readEntry (fields : Fields) : ScMapEntry → Except SorobanHelperError Fields
  | (.symbol key, .bytes b) => do
      if key.bytes = utf8 "event_id" then
        let eventId ← okOr (BytesN.ofBytes? 20 b.bytes) "XlmEnvelope: event_id must be 20 bytes"
        return { fields with eventId := some eventId }
      else if key.bytes = utf8 "ordering" then
        let ordering ← okOr (BytesN.ofBytes? 12 b.bytes) "XlmEnvelope: ordering must be 12 bytes"
        return { fields with ordering := some ordering }
      else if key.bytes = utf8 "payload" then return { fields with payload := some b.bytes }
      else return fields
  | _ => return fields

def fromScval : ScVal → Except SorobanHelperError XlmEnvelope
  | .map (some entries) => do
      let fields ← entries.foldlM readEntry ⟨none, none, none⟩
      return {
        eventId := ← okOr fields.eventId "XlmEnvelope: missing event_id"
        ordering := ← okOr fields.ordering "XlmEnvelope: missing ordering"
        payload := ← okOr fields.payload "XlmEnvelope: missing payload" }
  | _ => .error (.xdrEncodingFailed "XlmEnvelope: expected ScVal::Map")

end XlmEnvelope

namespace MessageWithId

def toScval (m : MessageWithId) : Except SorobanHelperError ScVal := do
  structMap [
    ("message", ← intoValExt m.message),
    ("trigger_id", .u64 m.triggerId)]

/-- The fields read so far. -/
structure Fields where
  triggerId : Option UInt64
  message : Option Bytes
deriving DecidableEq, Repr

/-- One turn of the loop of `from_scval`. -/
def readEntry (fields : Fields) : ScMapEntry → Fields
  | (.symbol key, .u64 v) =>
      if key.bytes = utf8 "trigger_id" then { fields with triggerId := some v } else fields
  | (.symbol key, .bytes b) =>
      if key.bytes = utf8 "message" then { fields with message := some b.bytes } else fields
  | _ => fields

def fromScval : ScVal → Except SorobanHelperError MessageWithId
  | .map (some entries) => do
      let fields := entries.foldl readEntry ⟨none, none⟩
      return {
        triggerId := ← okOr fields.triggerId "MessageWithId: missing trigger_id"
        message := ← okOr fields.message "MessageWithId: missing message" }
  | _ => .error (.xdrEncodingFailed "MessageWithId: expected ScVal::Map")

end MessageWithId

/-! ## Signature data -/

/-- The map of signature data with keys of `k` bytes and signatures of `n`. -/
def signatureScval {k n : ℕ} (signers : List (BytesN k)) (signatures : List (BytesN n))
    (referenceBlock : UInt32) : Except SorobanHelperError ScVal := do
  structMap [
    ("reference_block", .u32 referenceBlock),
    ("signatures", ← intoValExt signatures),
    ("signers", ← intoValExt signers)]

structure SignatureData where
  signers : List (BytesN 33)
  signatures : List (BytesN 65)
  referenceBlock : UInt32
deriving DecidableEq, Repr

def SignatureData.intoScval (data : SignatureData) : Except SorobanHelperError ScVal :=
  signatureScval data.signers data.signatures data.referenceBlock

structure Ed25519SignatureData where
  signers : List (BytesN 32)
  signatures : List (BytesN 64)
  referenceBlock : UInt32
deriving DecidableEq, Repr

def Ed25519SignatureData.intoScval (data : Ed25519SignatureData) :
    Except SorobanHelperError ScVal :=
  signatureScval data.signers data.signatures data.referenceBlock

/-! ## Signers -/

/-- `SignerInfo` and `Ed25519SignerInfo`, with keys of `n` bytes. -/
structure SignerInfo (n : ℕ) where
  key : BytesN n
  weight : UInt64
deriving DecidableEq, Repr

/-- The key, as it is displayed. -/
def displayKey {n : ℕ} (key : BytesN n) : String :=
  "0x" ++ String.ofList (Hex.encode key.toArray)

/-- The `Display` of both. -/
def SignerInfo.display {n : ℕ} (info : SignerInfo n) : String :=
  "pub_key: " ++ displayKey info.key ++ ", weight: " ++ toString info.weight.toNat

def unexpected (res : ScVal) : SorobanHelperError :=
  .transactionSimulationFailed res

def isSymbol (expected : String) : ScVal → Bool
  | .symbol sym => sym.bytes = utf8 expected
  | _ => false

/-- `decode_signer_info` of the two Security clients. -/
def decodeSignerInfo (n : ℕ) (val : ScVal) : Except SorobanHelperError (SignerInfo n) :=
  match val with
  | .map (some [(keyField, keyVal), (weightField, weightVal)]) =>
      if !isSymbol "key" keyField || !isSymbol "weight" weightField then .error (unexpected val)
      else
        match keyVal with
        | .bytes bytes =>
            match BytesN.ofBytes? n bytes.bytes with
            | none => .error (unexpected val)
            | some key =>
                match weightVal with
                | .u64 weight => .ok ⟨key, weight⟩
                | _ => .error (unexpected val)
        | _ => .error (unexpected val)
  | _ => .error (unexpected val)

end WarpDrive.Client
