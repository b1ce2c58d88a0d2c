import WarpDrive.Handler.Contract
import WarpDrive.Library.Transition

/-!
# What a handler does on a call

`verifyEnvelope_run_eq_ok` says exactly when a submission is accepted and what
it then writes; `call_effect` says what any successful call can do.
-/

namespace WarpDrive.Handler

variable {ω σ : Type} {p : Platform} {t : VerificationType}

/-! ## Decoding -/

/-- What `verify_eth` decodes, if both steps succeed. -/
def decodedEth (p : Platform) (envelopeBytes : Bytes) : Option Message := do
  let envelope ← p.envelopeAbiDecode envelopeBytes
  let dataWithId ← p.dataWithIdAbiDecode envelope.payload
  return ⟨envelope.eventId, envelope.payload, dataWithId.triggerId⟩

def FromXdr.toOption {α : Type} : FromXdr α → Option α
  | .ok a => some a
  | _ => none

/-- What `verify_xlm` decodes, if both steps succeed. -/
def decodedXlm (p : Platform) (envelopeBytes : Bytes) : Option Message := do
  let envelope ← FromXdr.toOption (p.xlmEnvelopeFromXdr envelopeBytes)
  let messageWithId ← FromXdr.toOption (p.messageWithIdFromXdr envelope.payload)
  return ⟨envelope.eventId, envelope.payload, messageWithId.triggerId⟩

/-- The message of an envelope in the encoding of the handler. -/
def decoded (p : Platform) (t : VerificationType) (envelopeBytes : Bytes) : Option Message :=
  match t with
  | .ethereum => decodedEth p envelopeBytes
  | .stellar => decodedXlm p envelopeBytes

/-- The trigger id that the handler decodes from a payload. -/
def triggerOf (p : Platform) (t : VerificationType) (payload : Bytes) : Option UInt64 :=
  match t with
  | .ethereum => (p.dataWithIdAbiDecode payload).map DataWithId.triggerId
  | .stellar => (FromXdr.toOption (p.messageWithIdFromXdr payload)).map MessageWithId.triggerId

/-- The decoding code of the handler. -/
def decode (p : Platform) (t : VerificationType) (envelopeBytes : Bytes) :
    Contract σ HandlerError Message :=
  match t with
  | .ethereum => decodeEth p envelopeBytes
  | .stellar => decodeXlm p envelopeBytes

theorem decode_run_eq_ok {bytes : Bytes} {m : Message} {s s' : σ} :
    (decode p t bytes : Contract σ HandlerError Message).run s = .ok (m, s') ↔
      decoded p t bytes = some m ∧ s' = s := by
  cases t with
  | ethereum =>
      simp only [decode, decodeEth, decoded, decodedEth, Option.bind_eq_bind]
      cases p.envelopeAbiDecode bytes with
      | none => simp
      | some envelope =>
          simp only [Option.bind_some]
          cases p.dataWithIdAbiDecode envelope.payload with
          | none => simp
          | some dataWithId => simp [eq_comm]
  | stellar =>
      simp only [decode, decodeXlm, decoded, decodedXlm, Option.bind_eq_bind]
      cases p.xlmEnvelopeFromXdr bytes with
      | trap | conversionError => simp [FromXdr.toOption]
      | ok envelope =>
          simp only [FromXdr.toOption, Option.bind_some]
          cases p.messageWithIdFromXdr envelope.payload with
          | trap | conversionError => simp
          | ok messageWithId => simp [eq_comm]

/-- The trigger id of a message is the one in its payload. -/
theorem triggerOf_payload {bytes : Bytes} {m : Message} (h : decoded p t bytes = some m) :
    triggerOf p t m.payload = some m.triggerId := by
  cases t with
  | ethereum =>
      simp only [decoded, decodedEth, Option.bind_eq_bind, Option.pure_def,
        Option.bind_eq_some_iff, Option.some.injEq] at h
      obtain ⟨envelope, -, dataWithId, hdata, rfl⟩ := h
      rw [triggerOf, hdata]
      rfl
  | stellar =>
      simp only [decoded, decodedXlm, Option.bind_eq_bind, Option.pure_def,
        Option.bind_eq_some_iff, Option.some.injEq] at h
      obtain ⟨envelope, -, messageWithId, hdata, rfl⟩ := h
      rw [triggerOf, hdata]
      rfl

theorem bind_decode_eq_ok {α : Type} {bytes : Bytes} {f : Message → Contract σ HandlerError α}
    {s : σ} {result : α × σ} : (decode p t bytes >>= f).run s = .ok result ↔
      ∃ m, decoded p t bytes = some m ∧ (f m).run s = .ok result := by
  obtain ⟨a, s'⟩ := result
  simp only [bind_run_eq_ok, decode_run_eq_ok]
  constructor
  · rintro ⟨m, _, ⟨hdecode, rfl⟩, hrun⟩
    exact ⟨m, hdecode, hrun⟩
  · rintro ⟨m, hdecode, hrun⟩
    exact ⟨m, s, ⟨hdecode, rfl⟩, hrun⟩

/-! ## Accepting a submission -/

theorem validateReferenceBlock_eq_ok {current referenceBlock : ℕ} :
    validateReferenceBlock current referenceBlock = .ok () ↔
      referenceBlock < current ∧ current - referenceBlock ≤ 200 := by
  unfold validateReferenceBlock maxReferenceBlockAge
  split
  · simp; omega
  · split
    · simp; omega
    · simp; omega

theorem mapVerifyResult_ofReply_eq_ok {reply : Reply} :
    mapVerifyResult (.ofReply Val.toUnit? reply) = .ok () ↔ reply = .ok .void := by
  cases reply with
  | ok v => cases v <;> simp [TryResult.ofReply, Val.toUnit?, mapVerifyResult]
  | error e =>
      cases e with
      | abort => simp [TryResult.ofReply, mapVerifyResult]
      | contract code =>
          simp only [TryResult.ofReply]
          cases (ContractError.ofCode? code : Option VerifyError) <;> simp [mapVerifyResult]

/-- The call that submits an envelope to a handler. -/
def submission (t : VerificationType) (envelopeBytes : Bytes) (sigData : SignatureData) : Call :=
  match t with
  | .ethereum => .verifyEth envelopeBytes sigData
  | .stellar => .verifyXlm envelopeBytes sigData

/-- The call a handler makes to its Verification contract. -/
def verification (envelopeBytes : Bytes) (sigData : SignatureData) : Call :=
  .verify envelopeBytes sigData.signatures sigData.signers sigData.referenceBlock

/-- The storage after a message is accepted. -/
def Storage.accept (s : Storage) (m : Message) : Storage where
  base := { s.base with
    events := s.base.events ++ [.verified m.eventId] ++ [.triggered m.triggerId m.eventId] }
  verificationContract := s.verificationContract
  eventSeen := Function.update s.eventSeen m.eventId true
  payload := Function.update s.payload m.eventId (some m.payload)

@[simp] theorem Storage.isEventSeen_accept (s : Storage) (m : Message) :
    (s.accept m).isEventSeen m.eventId = true := by
  simp [accept, isEventSeen]

@[simp] theorem Storage.getPayload_accept (s : Storage) (m : Message) :
    (s.accept m).getPayload m.eventId = some m.payload := by
  simp [accept, getPayload]

theorem Storage.isEventSeen_accept_of_ne (s : Storage) {m : Message} {id : BytesN 20}
    (h : id ≠ m.eventId) : (s.accept m).isEventSeen id = s.isEventSeen id := by
  simp [accept, isEventSeen, h]

theorem Storage.getPayload_accept_of_ne (s : Storage) {m : Message} {id : BytesN 20}
    (h : id ≠ m.eventId) : (s.accept m).getPayload id = s.getPayload id := by
  simp [accept, getPayload, h]

/-- A submission is accepted exactly if its reference block is in the window, it
decodes, its event was not seen and the Verification contract returns. -/
theorem verifyEnvelope_run_eq_ok {host : Host ω} {env : Env} {bytes : Bytes}
    {sigData : SignatureData} {frame frame' : Frame Storage ω} :
    (verifyEnvelope host env (decode p t) bytes sigData).run frame = .ok ((), frame') ↔
      validateReferenceBlock env.ledger sigData.referenceBlock = .ok () ∧
      ∃ m, decoded p t bytes = some m ∧ frame.storage.isEventSeen m.eventId = false ∧
        (host.invoke frame.storage.verificationContract (verification bytes sigData)
          frame.world).1 = .ok .void ∧
        frame' = ⟨frame.storage.accept m, (host.invoke frame.storage.verificationContract
          (verification bytes sigData) frame.world).2⟩ := by
  simp only [verifyEnvelope, bind_propagate_eq_ok, bind_decode_eq_ok, bind_get_run,
    bind_rejectIf_eq_ok, bind_tryInvoke_run, Bool.not_eq_true]
  constructor
  · rintro ⟨_, hblock, m, hdecode, hseen, _, hverify, hrun⟩
    cases hrun
    exact ⟨hblock, m, hdecode, hseen, mapVerifyResult_ofReply_eq_ok.mp hverify, rfl⟩
  · rintro ⟨hblock, m, hdecode, hseen, hverify, rfl⟩
    exact ⟨_, hblock, m, hdecode, hseen, _, mapVerifyResult_ofReply_eq_ok.mpr hverify, rfl⟩

theorem call_submission (host : Host ω) (env : Env) (bytes : Bytes) (sigData : SignatureData) :
    call p host t env (submission t bytes sigData) =
      (do verifyEnvelope host env (decode p t) bytes sigData; return .void) := by
  cases t <;> rfl

/-- The call that submits an envelope returns no value, and returns exactly when the
envelope is accepted. -/
theorem submission_eq_ok {host : Host ω} {env : Env} {bytes : Bytes} {sigData : SignatureData}
    {frame frame' : Frame Storage ω} {v : Val} :
    entryPoint (call p host t env (submission t bytes sigData)) frame = .ok (v, frame') ↔
      v = .void ∧
        (verifyEnvelope host env (decode p t) bytes sigData).run frame = .ok ((), frame') := by
  rw [entryPoint_eq_ok, call_submission, bind_run_eq_ok]
  constructor
  · rintro ⟨_, _, hrun, hret⟩
    cases hret
    exact ⟨rfl, hrun⟩
  · rintro ⟨rfl, hrun⟩
    exact ⟨(), frame', hrun, rfl⟩

/-- An envelope whose event was seen is refused. -/
theorem submission_of_seen {host : Host ω} {env : Env} {bytes : Bytes} {sigData : SignatureData}
    {frame : Frame Storage ω} {m : Message}
    (hblock : validateReferenceBlock env.ledger sigData.referenceBlock = .ok ())
    (hdecode : decoded p t bytes = some m) (hseen : frame.storage.isEventSeen m.eventId = true) :
    entryPoint (call p host t env (submission t bytes sigData)) frame =
      .error (.contract (ContractError.code HandlerError.eventAlreadySeen)) := by
  have hrun : (decode p t bytes).run frame = .ok (m, frame) :=
    decode_run_eq_ok.mpr ⟨hdecode, rfl⟩
  rw [call_submission, entryPoint]
  simp [verifyEnvelope, hblock, hrun, hseen, run_rejectIf, Failure.toInvokeError]

/-! ## What a successful call can do -/

/-- What a call that returns can do: accept a message, run a function of the
shared interface, or nothing.  Accepting is the only reason to invoke another
contract. -/
inductive Effect (p : Platform) (t : VerificationType) (host : Host ω) (env : Env)
    (frame : Frame Storage ω) : Call → Frame Storage ω → Prop
  | accept (bytes : Bytes) (sigData : SignatureData) (m : Message)
      (hdecode : decoded p t bytes = some m)
      (hnew : frame.storage.isEventSeen m.eventId = false) :
      Effect p t host env frame (submission t bytes sigData)
        ⟨frame.storage.accept m, (host.invoke frame.storage.verificationContract
          (verification bytes sigData) frame.world).2⟩
  | base (call : Call) (b : Base) (hcall : ∀ bytes sigData, call ≠ submission t bytes sigData)
      (hbase : BaseStep env frame.storage.base call b) :
      Effect p t host env frame call { frame with storage := { frame.storage with base := b } }

theorem onBase_run_eq_ok {α : Type} {m : Contract Base HandlerError α}
    {frame frame' : Frame Storage ω} {a : α} :
    (onBase m).run frame = .ok (a, frame') ↔ ∃ b, m.run frame.storage.base = .ok (a, b) ∧
      { frame with storage := { frame.storage with base := b } } = frame' := by
  simp [onBase, onStorage, zoom_run_eq_ok]

theorem call_effect {host : Host ω} {env : Env} {c : Call} {frame frame' : Frame Storage ω}
    {v : Val} (h : (call p host t env c).run frame = .ok (v, frame')) :
    Effect p t host env frame c frame' := by
  -- the submission of the other scheme is among the calls the handler does not have
  by_cases hsubmission : ∃ bytes sigData, c = submission t bytes sigData
  · obtain ⟨bytes, sigData, rfl⟩ := hsubmission
    rw [call_submission] at h
    obtain ⟨_, _, hrun, hret⟩ := bind_run_eq_ok.mp h
    cases hret
    obtain ⟨-, m, hdecode, hnew, -, rfl⟩ := verifyEnvelope_run_eq_ok.mp hrun
    exact .accept bytes sigData m hdecode hnew
  · push Not at hsubmission
    cases c with
    | verificationContract =>
        obtain rfl := Reads.view _ _ _ _ h
        exact .base _ _ hsubmission (.query _ rfl)
    | payload eventId =>
        obtain rfl := Reads.bind (Reads.expect _) (fun _ => Reads.view _) _ _ _ h
        exact .base _ _ hsubmission (.query _ rfl)
    | verifyEth bytes sigData =>
        cases t with
        | ethereum => exact absurd rfl (hsubmission bytes sigData)
        | stellar => cases h
    | verifyXlm bytes sigData =>
        cases t with
        | stellar => exact absurd rfl (hsubmission bytes sigData)
        | ethereum => cases h
    | _ =>
        obtain ⟨b, hrun, rfl⟩ := onBase_run_eq_ok.mp h
        exact .base _ b hsubmission (warpDriveInterface_step hrun)

end WarpDrive.Handler
