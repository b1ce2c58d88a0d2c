import Mathlib.Logic.Relation
import WarpDrive.Host

/-!
# The interfaces of the contracts

The data that crosses a contract boundary: the error enumerations with their
codes, the events, the calls a contract answers with the arguments they carry,
and the values they return.  Keys and signatures travel as untyped bytes, as the
`Val`s of a cross-contract call do; it is the called contract that converts them
to the width it expects.
-/

namespace WarpDrive

/-! ## Signature schemes -/

/-- Which cryptographic scheme and encoding a project uses: secp256k1 keys,
EIP-191 and ABI envelopes, or ed25519 keys, SEP-0053 and XDR envelopes. -/
inductive VerificationType where
  | ethereum
  | stellar
deriving DecidableEq, Repr

abbrev CompressedSecpPubKey := BytesN 33
abbrev SecpSignature := BytesN 65
abbrev Ed25519PubKey := BytesN 32
abbrev Ed25519Signature := BytesN 64

namespace VerificationType

def keyLength : VerificationType → ℕ
  | ethereum => 33
  | stellar => 32

def signatureLength : VerificationType → ℕ
  | ethereum => 65
  | stellar => 64

abbrev PubKey (t : VerificationType) := BytesN t.keyLength
abbrev Signature (t : VerificationType) := BytesN t.signatureLength

end VerificationType

/-! ## Errors -/

/-- A `#[contracterror]` enumeration: its variants travel as numeric codes. -/
class ContractError (ε : Type) where
  code : ε → ℕ
  ofCode? : ℕ → Option ε
  ofCode?_code : ∀ e, ofCode? (code e) = some e

inductive SecurityError where
  | zeroDenominator
  | numeratorExceedsDenominator
  | zeroNumerator
  | zeroWeight
deriving DecidableEq, Repr

instance : ContractError SecurityError where
  code
    | .zeroDenominator => 201
    | .numeratorExceedsDenominator => 202
    | .zeroNumerator => 203
    | .zeroWeight => 204
  ofCode?
    | 201 => some .zeroDenominator
    | 202 => some .numeratorExceedsDenominator
    | 203 => some .zeroNumerator
    | 204 => some .zeroWeight
    | _ => none
  ofCode?_code e := by cases e <;> rfl

inductive VerifyError where
  | invalidSignature
  | signerNotRegistered
  | insufficientWeight
  | emptySignatures
  | lengthMismatch
  | signersNotOrdered
  | zeroRequiredWeight
deriving DecidableEq, Repr

instance : ContractError VerifyError where
  code
    | .invalidSignature => 301
    | .signerNotRegistered => 302
    | .insufficientWeight => 303
    | .emptySignatures => 304
    | .lengthMismatch => 305
    | .signersNotOrdered => 306
    | .zeroRequiredWeight => 307
  ofCode?
    | 301 => some .invalidSignature
    | 302 => some .signerNotRegistered
    | 303 => some .insufficientWeight
    | 304 => some .emptySignatures
    | 305 => some .lengthMismatch
    | 306 => some .signersNotOrdered
    | 307 => some .zeroRequiredWeight
    | _ => none
  ofCode?_code e := by cases e <;> rfl

/-- The handler's own errors, and the verification errors it passes on under the
codes of their own space. -/
inductive HandlerError where
  | eventAlreadySeen
  | invalidReferenceBlock
  | invalidEnvelope
  | unknownVerificationError
  | otherInvocationError
  | verify (e : VerifyError)
deriving DecidableEq, Repr

instance : ContractError HandlerError where
  code
    | .eventAlreadySeen => 501
    | .invalidReferenceBlock => 502
    | .invalidEnvelope => 503
    | .unknownVerificationError => 504
    | .otherInvocationError => 505
    | .verify e => ContractError.code e
  ofCode?
    | 501 => some .eventAlreadySeen
    | 502 => some .invalidReferenceBlock
    | 503 => some .invalidEnvelope
    | 504 => some .unknownVerificationError
    | 505 => some .otherInvocationError
    | n => (ContractError.ofCode? n).map .verify
  ofCode?_code e := by
    cases e with
    | verify e => cases e <;> rfl
    | _ => rfl

/-- `impl From<VerifyError> for HandlerError`. -/
def HandlerError.fromVerifyError (e : VerifyError) : HandlerError :=
  .verify e

inductive ProjectRootError where
  | notOurContract
  | notAHandler
  | security (e : SecurityError)
deriving DecidableEq, Repr

instance : ContractError ProjectRootError where
  code
    | .notOurContract => 101
    | .notAHandler => 102
    | .security e => ContractError.code e
  ofCode?
    | 101 => some .notOurContract
    | 102 => some .notAHandler
    | n => (ContractError.ofCode? n).map .security
  ofCode?_code e := by
    cases e with
    | security e => cases e <;> rfl
    | _ => rfl

/-- `impl From<SecurityError> for ProjectRootError`. -/
def ProjectRootError.fromSecurityError (e : SecurityError) : ProjectRootError :=
  .security e

/-! ## Events -/

inductive Event where
  | contractUpgraded (version : String)
  | adminProposed (oldAdmin newAdmin : Address)
  | adminAccepted (newAdmin : Address)
  | signerAdded (key : Bytes) (weight : UInt64)
  | signerRemoved (key : Bytes)
  | thresholdSet (numerator denominator : UInt64)
  | verified (eventId : BytesN 20)
  | triggered (triggerId : UInt64) (eventId : BytesN 20)
  | updatedSpecRepo (repo : String)
  | forwarded (target : Address) (function : String)
  | handlerRegistered (handler : Address)
  | handlerRemoved (handler : Address)
deriving DecidableEq, Repr

/-! ## Calls -/

/-- `SignatureData` and `Ed25519SignatureData`. -/
structure SignatureData where
  signers : List Bytes
  signatures : List Bytes
  referenceBlock : ℕ
deriving DecidableEq, Repr

/-- A function of some contract interface with its arguments.  `other` is any
function that none of these contracts exports. -/
inductive Call where
  -- every contract
  | upgrade (newWasmHash : BytesN 32) (newVersion : String)
  | proposeAdmin (newAdmin : Address)
  | acceptAdmin
  | admin
  | pendingAdmin
  | version
  -- security contracts
  | addSigner (key : Bytes) (weight : UInt64)
  | removeSigner (key : Bytes)
  | setThreshold (numerator denominator : UInt64)
  | getTotalWeight
  | getSignerWeight (key : Bytes)
  | getSignerWeightAt (key : Bytes) (referenceBlock : ℕ)
  | getSignerWeights (keys : List Bytes)
  | getSignerWeightsAt (keys : List Bytes) (referenceBlock : ℕ)
  | getTotalWeightAt (referenceBlock : ℕ)
  | requiredWeightAt (referenceBlock : ℕ)
  | listSigners
  | thresholdNumerator
  | thresholdDenominator
  | requiredWeight
  -- verification contracts
  | securityContract
  | signerWeight (signerPubkey : Bytes)
  | checkOne (envelope signature signerPubkey : Bytes) (referenceBlock : Option ℕ)
  | verify (envelope : Bytes) (signatures signerPubkeys : List Bytes) (referenceBlock : ℕ)
  -- handlers
  | verifyEth (envelopeBytes : Bytes) (sigData : SignatureData)
  | verifyXlm (envelopeBytes : Bytes) (sigData : SignatureData)
  | verificationContract
  | payload (eventId : Bytes)
  -- project root
  | updateProjectSpecRepo (repo : String)
  | addSecp256k1Signer (key : Bytes) (weight : UInt64)
  | removeSecp256k1Signer (key : Bytes)
  | addEd25519Signer (key : Bytes) (weight : UInt64)
  | removeEd25519Signer (key : Bytes)
  | upgradeContract (target : Address) (newWasmHash : BytesN 32) (newVersion : String)
  | proposeContractAdmin (target newAdmin : Address)
  | acceptContractAdmin (target : Address)
  | registerHandler (handler : Address)
  | unregisterHandler (handler : Address)
  | projectSpecRepo
  | verificationType
  | listHandlers
  | other (function : String)
deriving DecidableEq, Repr

/-- The calls of the shared interface that write. -/
def Call.isGovernance : Call → Bool
  | .upgrade .. | .proposeAdmin .. | .acceptAdmin => true
  | _ => false

/-- The calls that write a signer registry. -/
def Call.isRegistry : Call → Bool
  | .addSigner .. | .removeSigner .. | .setThreshold .. => true
  | _ => false

/-- The calls a Verification contract makes: weights and required weights. -/
def Call.isWeightQuery : Call → Bool
  | .requiredWeight | .getSignerWeight _ | .getSignerWeightAt .. | .getSignerWeightsAt ..
  | .requiredWeightAt _ => true
  | _ => false

/-- The calls that Security contracts, Verification contracts and handlers make to
others, all of them. -/
def Call.isConsultation : Call → Bool
  | .verify .. => true
  | call => call.isWeightQuery

theorem Call.isConsultation_of_isWeightQuery {call : Call} (h : call.isWeightQuery = true) :
    call.isConsultation = true := by
  cases call <;> first | rfl | exact h

/-- A call that a contract answered, with the environment it ran in. -/
structure Invocation where
  env : Env
  call : Call

/-- Ledger sequence numbers never decrease along a history of invocations. -/
def InOrder (invocations : List Invocation) : Prop :=
  invocations.Pairwise fun first second => first.env.ledger ≤ second.env.ledger

/-! ## Replies -/

/-- The values the interfaces return. -/
inductive Val where
  | void
  | u64 (x : UInt64)
  | u64s (xs : List UInt64)
  | address (a : Address)
  | optAddress (a : Option Address)
  | addresses (xs : List Address)
  | string (s : String)
  | signers (xs : List (Bytes × UInt64))
  | optBytes (b : Option Bytes)
  | verificationType (t : VerificationType)
deriving DecidableEq, Repr

namespace Val

def toUnit? : Val → Option Unit
  | void => some ()
  | _ => none

def toU64? : Val → Option UInt64
  | u64 x => some x
  | _ => none

def toU64s? : Val → Option (List UInt64)
  | u64s xs => some xs
  | _ => none

def toAddress? : Val → Option Address
  | address a => some a
  | _ => none

@[simp] theorem toU64?_eq_some {v : Val} {x : UInt64} : v.toU64? = some x ↔ v = u64 x := by
  cases v <;> simp [toU64?]

@[simp] theorem toU64s?_eq_some {v : Val} {xs : List UInt64} :
    v.toU64s? = some xs ↔ v = u64s xs := by
  cases v <;> simp [toU64s?]

end Val

/-- `soroban_sdk::InvokeError`: how the caller sees a failed invocation. -/
inductive InvokeError where
  | contract (code : ℕ)
  | abort
deriving DecidableEq, Repr

/-- What an invocation returns to its caller. -/
abbrev Reply := Except InvokeError Val

/-- How a failure is reported to the caller. -/
def Failure.toInvokeError {ε : Type} [ContractError ε] : Failure ε → InvokeError
  | .error e => .contract (ContractError.code e)
  | .panicWithError code => .contract code
  | .trap => .abort

/-! ## Invoking other contracts -/

/-- The host's `invoke`, on a world `ω` of other contracts.  A failed invocation
leaves the world as it was; that is for the host's definition to ensure. -/
structure Host (ω : Type) where
  invoke : Address → Call → ω → Reply × ω

/-- What a running contract can reach: its own storage, and the other contracts
through their interfaces. -/
structure Frame (σ ω : Type) where
  storage : σ
  world : ω

/-- The result `Result<Result<T, ConversionError>, Result<E, InvokeError>>` of a
`try_` invocation, one constructor for each of its four forms. -/
inductive TryResult (ε α : Type) where
  | ok (a : α)
  | conversionError
  | error (e : ε)
  | invokeError (e : InvokeError)

/-- How the client reads a reply, given the types `T` and `E` it expects. -/
def TryResult.ofReply {ε α : Type} [ContractError ε] (decode : Val → Option α) :
    Reply → TryResult ε α
  | .ok v =>
      match decode v with
      | some a => .ok a
      | none => .conversionError
  | .error (.contract code) =>
      match ContractError.ofCode? code with
      | some e => .error e
      | none => .invokeError (.contract code)
  | .error .abort => .invokeError .abort

variable {σ τ ω ε α : Type}

/-- `env.try_invoke_contract`: the reply is a value, whatever it is. -/
def tryInvoke (host : Host ω) (target : Address) (call : Call) :
    Contract (Frame σ ω) ε Reply :=
  fun frame =>
    .ok ((host.invoke target call frame.world).1,
      { frame with world := (host.invoke target call frame.world).2 })

/-- A method of a generated client: it panics unless the call returns a value of
the expected type. -/
def invokeClient (host : Host ω) (target : Address) (call : Call) (decode : Val → Option α) :
    Contract (Frame σ ω) ε α := do
  match ← tryInvoke host target call with
  | .ok v => expect (decode v)
  | .error _ => trap

/-- Code over a part of the storage. -/
def zoom (get : σ → τ) (set : σ → τ → σ) (m : Contract τ ε α) : Contract σ ε α :=
  fun s =>
    match m.run (get s) with
    | .ok (a, t) => .ok (a, set s t)
    | .error e => .error e

/-- Code that touches the contract's own storage only. -/
def onStorage (m : Contract σ ε α) : Contract (Frame σ ω) ε α :=
  zoom Frame.storage (fun frame s => { frame with storage := s }) m

/-- A contract function as its caller sees it: a value, or an invocation error. -/
def entryPoint [ContractError ε] (m : Contract σ ε Val) (s : σ) :
    Except InvokeError (Val × σ) :=
  match m.run s with
  | .ok r => .ok r
  | .error e => .error e.toInvokeError

/-- The host's rollback: a failed call leaves the state it found. -/
def settle (result : Except InvokeError (Val × σ)) (s : σ) : Reply × σ :=
  match result with
  | .ok (v, s') => (.ok v, s')
  | .error e => (.error e, s)

@[simp] theorem bind_tryInvoke_run {β : Type} (host : Host ω) (target : Address) (call : Call)
    (f : Reply → Contract (Frame σ ω) ε β) (frame : Frame σ ω) :
    (tryInvoke host target call >>= f).run frame =
      (f (host.invoke target call frame.world).1).run
        { frame with world := (host.invoke target call frame.world).2 } := rfl

theorem bind_invokeClient_run {β : Type} (host : Host ω) (target : Address) (call : Call)
    (decode : Val → Option α) (f : α → Contract (Frame σ ω) ε β) (frame : Frame σ ω) :
    (invokeClient host target call decode >>= f).run frame =
      match (host.invoke target call frame.world).1.toOption.bind decode with
      | some a => (f a).run { frame with world := (host.invoke target call frame.world).2 }
      | none => .error .trap := by
  unfold invokeClient
  rw [bind_assoc, bind_tryInvoke_run]
  cases (host.invoke target call frame.world).1 with
  | error e => rfl
  | ok v =>
      simp only [Except.toOption, Option.bind_some]
      cases decode v <;> rfl

/-- A client method returns what the call returned, in the world the call left. -/
@[simp] theorem bind_invokeClient_eq_ok {β : Type} {host : Host ω} {target : Address}
    {call : Call} {decode : Val → Option α} {f : α → Contract (Frame σ ω) ε β}
    {frame : Frame σ ω} {result : β × Frame σ ω} :
    (invokeClient host target call decode >>= f).run frame = .ok result ↔
      ∃ v a, (host.invoke target call frame.world).1 = .ok v ∧ decode v = some a ∧
        (f a).run { frame with world := (host.invoke target call frame.world).2 } =
          .ok result := by
  rw [bind_invokeClient_run]
  cases (host.invoke target call frame.world).1 with
  | error e => simp [Except.toOption]
  | ok v => cases hdecode : decode v <;> simp [Except.toOption, hdecode]

theorem run_zoom (get : σ → τ) (set : σ → τ → σ) (m : Contract τ ε α) (s : σ) :
    (zoom get set m).run s =
      match m.run (get s) with
      | .ok (a, t) => .ok (a, set s t)
      | .error e => .error e := rfl

theorem zoom_run_eq_ok {get : σ → τ} {set : σ → τ → σ} {m : Contract τ ε α} {s s' : σ} {a : α} :
    (zoom get set m).run s = .ok (a, s') ↔ ∃ t, m.run (get s) = .ok (a, t) ∧ set s t = s' := by
  rw [run_zoom]
  cases h : m.run (get s) with
  | error e => simp
  | ok p =>
      obtain ⟨b, t⟩ := p
      simp only [Except.ok.injEq, Prod.mk.injEq]
      constructor
      · rintro ⟨rfl, hset⟩
        exact ⟨t, ⟨rfl, rfl⟩, hset⟩
      · rintro ⟨t', ⟨rfl, rfl⟩, hset⟩
        exact ⟨rfl, hset⟩

theorem entryPoint_eq_ok [ContractError ε] {m : Contract σ ε Val} {s s' : σ} {v : Val} :
    entryPoint m s = .ok (v, s') ↔ m.run s = .ok (v, s') := by
  unfold entryPoint
  cases m.run s <;> simp

/-- A function that returns no value, as its caller sees it. -/
theorem settle_void [ContractError ε] (m : Contract σ ε Unit) (s : σ) :
    settle (entryPoint (do m; return .void) s) s =
      match m.run s with
      | .ok (_, s') => (.ok .void, s')
      | .error e => (.error e.toInvokeError, s) := by
  unfold entryPoint
  rw [StateT.run_bind]
  cases m.run s <;> rfl

/-! ## The calls a function makes -/

/-- One invocation of another contract, with a call that is `allowed`. -/
def HostStep (host : Host ω) (allowed : Call → Prop) (w w' : ω) : Prop :=
  ∃ target call, allowed call ∧ w' = (host.invoke target call w).2

/-- The worlds that allowed invocations lead to. -/
abbrev Visits (host : Host ω) (allowed : Call → Prop) : ω → ω → Prop :=
  Relation.ReflTransGen (HostStep host allowed)

/-- Code that leaves its own storage alone and affects the world only through
allowed invocations. -/
def Consults (host : Host ω) (allowed : Call → Prop) (m : Contract (Frame σ ω) ε α) : Prop :=
  ∀ frame a frame', m.run frame = .ok (a, frame') →
    frame'.storage = frame.storage ∧ Visits host allowed frame.world frame'.world

namespace Consults

variable {β : Type} {host : Host ω} {allowed : Call → Prop}

theorem of_reads {m : Contract (Frame σ ω) ε α} (h : Reads m) : Consults host allowed m := by
  intro frame a frame' hrun
  obtain rfl := h _ _ _ hrun
  exact ⟨rfl, .refl⟩

theorem bind {m : Contract (Frame σ ω) ε α} {f : α → Contract (Frame σ ω) ε β}
    (hm : Consults host allowed m) (hf : ∀ a, Consults host allowed (f a)) :
    Consults host allowed (m >>= f) := by
  intro frame b frame'' h
  obtain ⟨a, frame', hfirst, hsecond⟩ := bind_run_eq_ok.mp h
  obtain ⟨hstorage, hvisits⟩ := hm _ _ _ hfirst
  obtain ⟨hstorage', hvisits'⟩ := hf a _ _ _ hsecond
  exact ⟨hstorage'.trans hstorage, hvisits.trans hvisits'⟩

theorem tryInvoke (target : Address) {call : Call} (hcall : allowed call) :
    Consults host allowed (tryInvoke host target call : Contract (Frame σ ω) ε Reply) := by
  intro frame a frame' h
  cases h
  exact ⟨rfl, .single ⟨target, call, hcall, rfl⟩⟩

theorem invokeClient (target : Address) {call : Call} (hcall : allowed call)
    (decode : Val → Option α) :
    Consults host allowed (invokeClient host target call decode :
      Contract (Frame σ ω) ε α) := by
  refine .bind (.tryInvoke target hcall) fun reply => of_reads ?_
  cases reply with
  | ok v => exact Reads.expect _
  | error e => exact Reads.trap

end Consults

end WarpDrive
