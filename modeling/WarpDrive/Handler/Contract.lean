import WarpDrive.Platform
import WarpDrive.Shared.Admin

/-!
# The handlers

`EthereumHandler` and `StellarHandler` accept an envelope once its signatures
pass the Verification contract they point at.  They differ in the codec of the
envelope and in the name of the function; `verifyEnvelope` is the body they
share.
-/

namespace WarpDrive.Handler

structure Storage where
  base : Base
  verificationContract : Address
  eventSeen : BytesN 20 → Bool
  payload : BytesN 20 → Option Bytes

abbrev EthereumHandler := Storage
abbrev StellarHandler := Storage

variable {ω α σ : Type}

/-- Code of the shared interface, on the base entries. -/
def onBase (m : Contract Base HandlerError α) : Contract (Frame Storage ω) HandlerError α :=
  onStorage (zoom Storage.base (fun s b => { s with base := b }) m)

/-! ## Storage -/

namespace Storage

def isEventSeen (s : Storage) (eventId : BytesN 20) : Bool :=
  s.eventSeen eventId

def markEventSeen (eventId : BytesN 20) (s : Storage) : Storage :=
  { s with eventSeen := Function.update s.eventSeen eventId true }

def savePayload (eventId : BytesN 20) (payload : Bytes) (s : Storage) : Storage :=
  { s with payload := Function.update s.payload eventId (some payload) }

def getPayload (s : Storage) (eventId : BytesN 20) : Option Bytes :=
  s.payload eventId

end Storage

/-! ## The contract -/

/-- Maximum age (in ledgers) allowed for a reference block. -/
def maxReferenceBlockAge : ℕ := 200

/-- The reference block is strictly in the past and within the allowed age. -/
def validateReferenceBlock (current referenceBlock : ℕ) : Except HandlerError Unit :=
  if current ≤ referenceBlock then .error .invalidReferenceBlock
  else if maxReferenceBlockAge < current - referenceBlock then .error .invalidReferenceBlock
  else .ok ()

/-- Maps a `try_verify` result into a `HandlerError`. -/
def mapVerifyResult : TryResult VerifyError Unit → Except HandlerError Unit
  | .ok () => .ok ()
  | .conversionError => .error .unknownVerificationError
  | .error e => .error (.fromVerifyError e)
  | .invokeError _ => .error .otherInvocationError

/-- What a handler reads from an envelope. -/
structure Message where
  eventId : BytesN 20
  payload : Bytes
  triggerId : UInt64
deriving DecidableEq, Repr

/-- The two decoding steps of `verify_eth`. -/
def decodeEth (p : Platform) (envelopeBytes : Bytes) : Contract σ HandlerError Message := do
  match p.envelopeAbiDecode envelopeBytes with
  | none => fail .invalidEnvelope
  | some envelope =>
      match p.dataWithIdAbiDecode envelope.payload with
      | none => fail .invalidEnvelope
      | some dataWithId => pure ⟨envelope.eventId, envelope.payload, dataWithId.triggerId⟩

/-- The two decoding steps of `verify_xlm`. -/
def decodeXlm (p : Platform) (envelopeBytes : Bytes) : Contract σ HandlerError Message :=
  match p.xlmEnvelopeFromXdr envelopeBytes with
  | .trap => trap
  | .conversionError => fail .invalidEnvelope
  | .ok envelope =>
      match p.messageWithIdFromXdr envelope.payload with
      | .trap => trap
      | .conversionError => fail .invalidEnvelope
      | .ok messageWithId => pure ⟨envelope.eventId, envelope.payload, messageWithId.triggerId⟩

/-- The body of `verify_eth` and `verify_xlm`, from the decoded envelope on. -/
def verifyEnvelope (host : Host ω) (env : Env)
    (decode : Bytes → Contract (Frame Storage ω) HandlerError Message) (envelopeBytes : Bytes)
    (sigData : SignatureData) : Contract (Frame Storage ω) HandlerError Unit := do
  propagate (validateReferenceBlock env.ledger sigData.referenceBlock)
  let message ← decode envelopeBytes
  let s := (← get).storage
  rejectIf (s.isEventSeen message.eventId) .eventAlreadySeen
  let reply ← tryInvoke host s.verificationContract
    (.verify envelopeBytes sigData.signatures sigData.signers sigData.referenceBlock)
  propagate (mapVerifyResult (.ofReply Val.toUnit? reply))
  onStorage (modify (Storage.markEventSeen message.eventId))
  onStorage (modify (Storage.savePayload message.eventId message.payload))
  onBase (publish (.verified message.eventId))
  onBase (publish (.triggered message.triggerId message.eventId))

def verifyEth (p : Platform) (host : Host ω) (env : Env) (envelopeBytes : Bytes)
    (sigData : SignatureData) : Contract (Frame Storage ω) HandlerError Unit :=
  verifyEnvelope host env (decodeEth p) envelopeBytes sigData

def verifyXlm (p : Platform) (host : Host ω) (env : Env) (envelopeBytes : Bytes)
    (sigData : SignatureData) : Contract (Frame Storage ω) HandlerError Unit :=
  verifyEnvelope host env (decodeXlm p) envelopeBytes sigData

/-- The exported functions, as a call reaches them. -/
def call (p : Platform) (host : Host ω) (t : VerificationType) (env : Env) :
    Call → Contract (Frame Storage ω) HandlerError Val
  | .verificationContract => view fun frame => some (.address frame.storage.verificationContract)
  | .payload eventId => do
      let eventId ← expect (BytesN.ofBytes? 20 eventId)
      view fun frame => some (.optBytes (frame.storage.getPayload eventId))
  | .verifyEth envelopeBytes sigData =>
      match t with
      | .ethereum => do
          verifyEth p host env envelopeBytes sigData
          return .void
      | .stellar => trap
  | .verifyXlm envelopeBytes sigData =>
      match t with
      | .stellar => do
          verifyXlm p host env envelopeBytes sigData
          return .void
      | .ethereum => trap
  | call => onBase (warpDriveInterface env call)

/-- `__constructor`, for a contract deployed with the code `wasm`. -/
def construct (wasm : BytesN 32) (admin verificationContract : Address) : Storage where
  base := .deployed wasm admin
  verificationContract := verificationContract
  eventSeen := fun _ => false
  payload := fun _ => none

end WarpDrive.Handler
