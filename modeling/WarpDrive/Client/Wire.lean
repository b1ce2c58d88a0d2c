import WarpDrive.Client.Acceptance
import WarpDrive.Interfaces

/-!
# Calls and replies on the wire

A contract exports its functions by name, with the types of their parameters.  A call with
another name, another number of arguments or an argument of another type does not reach a
function.  What a function returns travels back as an `ScVal`.

The tables below list the functions of the interface traits, in their order.  A key, a
signature or an event id travels as bytes of any length; it is the function that refuses
a wrong one.
-/

namespace WarpDrive.Client

/-- How addresses are written, in XDR and as text, and which of them are contracts; and how
text that is not UTF-8 is repaired.  None of this is code of the client. -/
structure Formats where
  toXdr : Address → Bytes
  ofXdr? : Bytes → Option Address
  isContract : Address → Bool
  /-- `ScAddress::from_str` -/
  fromStr : String → Except SorobanHelperError Address
  /-- `String::from_utf8_lossy` -/
  fromUtf8Lossy : Bytes → String
  ofXdr?_eq_some : ∀ xdr a, ofXdr? xdr = some a ↔ toXdr a = xdr
  fromUtf8Lossy_utf8 : ∀ s, fromUtf8Lossy (utf8 s) = s

namespace Formats

variable (f : Formats)

@[simp] theorem ofXdr?_toXdr (a : Address) : f.ofXdr? (f.toXdr a) = some a :=
  (f.ofXdr?_eq_some _ a).mpr rfl

end Formats

/-! ## Arguments -/

/-- `String::from_utf8` -/
def fromUtf8? (bytes : Bytes) : Option String :=
  String.fromUTF8? ⟨bytes.toArray⟩

@[simp] theorem fromUtf8?_utf8 (s : String) : fromUtf8? (utf8 s) = some s := by
  have hbytes : (⟨(utf8 s).toArray⟩ : ByteArray) = s.toByteArray := by
    rw [utf8, Array.toArray_toList]
  unfold fromUtf8? String.fromUTF8?
  rw [hbytes, dif_pos s.isValidUTF8]
  rfl

namespace ScVal

def toBytes? : ScVal → Option Bytes
  | bytes b => some b.bytes
  | _ => none

def toBytesN? (n : ℕ) (v : ScVal) : Option (BytesN n) :=
  v.toBytes?.bind (BytesN.ofBytes? n)

def toBytesVec? : ScVal → Option (List Bytes)
  | vec (some vals) => vals.mapM toBytes?
  | _ => none

def toU64? : ScVal → Option UInt64
  | u64 x => some x
  | _ => none

def toU32? : ScVal → Option ℕ
  | u32 x => some x.toNat
  | _ => none

/-- `Option<u32>` -/
def toOptU32? : ScVal → Option (Option ℕ)
  | void => some none
  | u32 x => some (some x.toNat)
  | _ => none

def toString? : ScVal → Option String
  | string s => fromUtf8? s.bytes
  | _ => none

def toAddress? (f : Formats) : ScVal → Option Address
  | address xdr => f.ofXdr? xdr
  | _ => none

/-- `SignatureData` and `Ed25519SignatureData`: a map with exactly the fields of the struct. -/
def toSignatureData? : ScVal → Option WarpDrive.SignatureData
  | map (some [(referenceBlockField, referenceBlock), (signaturesField, signatures),
      (signersField, signers)]) =>
      if isSymbol "reference_block" referenceBlockField && isSymbol "signatures" signaturesField &&
          isSymbol "signers" signersField then do
        return {
          signers := ← signers.toBytesVec?
          signatures := ← signatures.toBytesVec?
          referenceBlock := ← referenceBlock.toU32? }
      else none
  | _ => none

end ScVal

/-! ## Exported functions -/

/-- An exported function: its name, and the call that its arguments make. -/
structure Export where
  name : String
  read : List ScVal → Option Call

section Arity

variable {α β γ δ : Type}

def args0 (c : Call) : List ScVal → Option Call
  | [] => some c
  | _ => none

def args1 (a : ScVal → Option α) (c : α → Call) : List ScVal → Option Call
  | [x] => do return c (← a x)
  | _ => none

def args2 (a : ScVal → Option α) (b : ScVal → Option β) (c : α → β → Call) :
    List ScVal → Option Call
  | [x, y] => do return c (← a x) (← b y)
  | _ => none

def args3 (a : ScVal → Option α) (b : ScVal → Option β) (d : ScVal → Option γ)
    (c : α → β → γ → Call) : List ScVal → Option Call
  | [x, y, z] => do return c (← a x) (← b y) (← d z)
  | _ => none

def args4 (a : ScVal → Option α) (b : ScVal → Option β) (d : ScVal → Option γ)
    (e : ScVal → Option δ) (c : α → β → γ → δ → Call) : List ScVal → Option Call
  | [x, y, z, u] => do return c (← a x) (← b y) (← d z) (← e u)
  | _ => none

end Arity

namespace Interface

open ScVal

variable (f : Formats)

/-- `WarpDriveInterface` -/
def warpDrive : List Export := [
  ⟨"upgrade", args2 (toBytesN? 32) toString? .upgrade⟩,
  ⟨"propose_admin", args1 (toAddress? f) .proposeAdmin⟩,
  ⟨"accept_admin", args0 .acceptAdmin⟩,
  ⟨"admin", args0 .admin⟩,
  ⟨"pending_admin", args0 .pendingAdmin⟩,
  ⟨"version", args0 .version⟩]

/-- `Secp256k1SecurityInterface` and `Ed25519SecurityInterface` -/
def security : List Export := [
  ⟨"add_signer", args2 toBytes? toU64? .addSigner⟩,
  ⟨"remove_signer", args1 toBytes? .removeSigner⟩,
  ⟨"set_threshold", args2 toU64? toU64? .setThreshold⟩,
  ⟨"get_total_weight", args0 .getTotalWeight⟩,
  ⟨"get_signer_weight", args1 toBytes? .getSignerWeight⟩,
  ⟨"get_signer_weight_at", args2 toBytes? toU32? .getSignerWeightAt⟩,
  ⟨"get_signer_weights", args1 toBytesVec? .getSignerWeights⟩,
  ⟨"get_signer_weights_at", args2 toBytesVec? toU32? .getSignerWeightsAt⟩,
  ⟨"get_total_weight_at", args1 toU32? .getTotalWeightAt⟩,
  ⟨"required_weight_at", args1 toU32? .requiredWeightAt⟩,
  ⟨"list_signers", args0 .listSigners⟩,
  ⟨"threshold_numerator", args0 .thresholdNumerator⟩,
  ⟨"threshold_denominator", args0 .thresholdDenominator⟩,
  ⟨"required_weight", args0 .requiredWeight⟩]

/-- `Secp256k1VerificationInterface` and `Ed25519VerificationInterface` -/
def verification : List Export := [
  ⟨"security_contract", args0 .securityContract⟩,
  ⟨"required_weight", args0 .requiredWeight⟩,
  ⟨"signer_weight", args1 toBytes? .signerWeight⟩,
  ⟨"check_one", args4 toBytes? toBytes? toBytes? toOptU32? .checkOne⟩,
  ⟨"verify", args4 toBytes? toBytesVec? toBytesVec? toU32? .verify⟩]

/-- `EthereumHandlerInterface` and `StellarHandlerInterface` -/
def handler (t : VerificationType) : List Export := [
  match t with
  | .ethereum => ⟨"verify_eth", args2 toBytes? toSignatureData? .verifyEth⟩
  | .stellar => ⟨"verify_xlm", args2 toBytes? toSignatureData? .verifyXlm⟩,
  ⟨"verification_contract", args0 .verificationContract⟩,
  ⟨"payload", args1 toBytes? .payload⟩]

/-- `ProjectRootInterface` -/
def projectRoot : List Export := [
  ⟨"update_project_spec_repo", args1 toString? .updateProjectSpecRepo⟩,
  ⟨"add_secp256k1_signer", args2 toBytes? toU64? .addSecp256k1Signer⟩,
  ⟨"remove_secp256k1_signer", args1 toBytes? .removeSecp256k1Signer⟩,
  ⟨"add_ed25519_signer", args2 toBytes? toU64? .addEd25519Signer⟩,
  ⟨"remove_ed25519_signer", args1 toBytes? .removeEd25519Signer⟩,
  ⟨"set_threshold", args2 toU64? toU64? .setThreshold⟩,
  ⟨"upgrade_contract", args3 (toAddress? f) (toBytesN? 32) toString? .upgradeContract⟩,
  ⟨"propose_contract_admin", args2 (toAddress? f) (toAddress? f) .proposeContractAdmin⟩,
  ⟨"accept_contract_admin", args1 (toAddress? f) .acceptContractAdmin⟩,
  ⟨"register_handler", args1 (toAddress? f) .registerHandler⟩,
  ⟨"unregister_handler", args1 (toAddress? f) .unregisterHandler⟩,
  ⟨"security_contract", args0 .securityContract⟩,
  ⟨"verification_contract", args0 .verificationContract⟩,
  ⟨"project_spec_repo", args0 .projectSpecRepo⟩,
  ⟨"verification_type", args0 .verificationType⟩,
  ⟨"list_handlers", args0 .listHandlers⟩]

/-- The call that arrives at a contract with these exports. -/
def read (exports : List Export) (functionName : String) (args : List ScVal) : Option Call := do
  let function ← exports.find? fun function => function.name = functionName
  function.read args

end Interface

/-! ## Replies -/

def BytesM.of? (max : ℕ) (bytes : Bytes) : Option (BytesM max) :=
  if h : bytes.length ≤ max then some ⟨bytes, h⟩ else none

/-- A signer of `list_signers`. -/
def signerScval? (signer : Bytes × UInt64) : Option ScVal := do
  let key ← BytesM.of? u32Max signer.1
  return signerMap key signer.2

/-- What a function returns, on the wire.  The bytes of the host are never too long. -/
def toScval? (f : Formats) : Val → Option ScVal
  | .void => some .void
  | .u64 x => some (.u64 x)
  | .u64s xs => some (.vec (some (xs.map .u64)))
  | .address a => some (.address (f.toXdr a))
  | .optAddress none => some .void
  | .optAddress (some a) => some (.address (f.toXdr a))
  | .addresses xs => some (.vec (some (xs.map fun a => .address (f.toXdr a))))
  | .string s => do return .string (← BytesM.of? u32Max (utf8 s))
  | .signers xs => do return .vec (some (← xs.mapM signerScval?))
  | .optBytes none => some .void
  | .optBytes (some b) => do return .bytes (← BytesM.of? u32Max b)
  | .verificationType .ethereum => some (.u32 1)
  | .verificationType .stellar => some (.u32 2)

end WarpDrive.Client
