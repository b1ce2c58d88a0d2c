import WarpDrive.Client.Execute
import WarpDrive.Client.Wire

/-!
# The clients

A client of a contract has a method for each function that the contract exports.  A method
that writes converts its arguments and has `execute` send them; a method that reads has
`query` simulate the call, and decodes the value.  `Message` and `Read` are what the methods
differ in.
-/

namespace WarpDrive.Client

/-! ## Methods -/

/-- The function and the converted arguments, which a method hands on. -/
abbrev Message := Except SorobanHelperError (String × List ScVal)

/-- A method that reads, and how it decodes the value. -/
structure Read (α : Type) where
  message : Message
  decode : ScVal → Except SorobanHelperError α

/-- A string that fits into an `ScVal`. -/
structure XdrString where
  text : String
  length_le : (utf8 text).length ≤ u32Max

/-- `into_val` of a string -/
def XdrString.intoVal (s : XdrString) : ScVal :=
  .string ⟨utf8 s.text, s.length_le⟩

/-- `into_val` of a hash -/
def hashIntoVal (hash : BytesN 32) : ScVal :=
  .bytes (ofBytesN hash (by decide))

/-! ## Decoders -/

def decodeU64 : ScVal → Except SorobanHelperError UInt64
  | .u64 w => .ok w
  | res => .error (unexpected res)

/-- `decode_u64_vec` of the two Security clients -/
def decodeU64Vec : ScVal → Except SorobanHelperError (List UInt64)
  | .vec (some entries) => entries.mapM decodeU64
  | res => .error (unexpected res)

/-- The signers of `list_signers` -/
def decodeSigners (n : ℕ) : ScVal → Except SorobanHelperError (List (SignerInfo n))
  | .vec (some entries) => entries.mapM (decodeSignerInfo n)
  | res => .error (unexpected res)

def decodeAddress (f : Formats) : ScVal → Except SorobanHelperError Address
  | .address xdr =>
      match f.ofXdr? xdr with
      | some a => .ok a
      | none => .error (unexpected (.address xdr))
  | res => .error (unexpected res)

/-- The id of a contract. -/
def decodeContract (f : Formats) (res : ScVal) : Except SorobanHelperError Address := do
  match decodeAddress f res with
  | .ok a => if f.isContract a then .ok a else .error (unexpected res)
  | .error e => .error e

def decodeHandlers (f : Formats) : ScVal → Except SorobanHelperError (List Address)
  | .vec (some entries) => entries.mapM (decodeContract f)
  | res => .error (unexpected res)

/-! ## The methods of every client -/

namespace WarpdriveClient

variable (f : Formats)

def upgrade (newWasmHash : BytesN 32) (newVersion : XdrString) : Message :=
  return ("upgrade", [hashIntoVal newWasmHash, newVersion.intoVal])

def proposeAdmin (newAdmin : String) : Message := do
  let newAdmin ← f.fromStr newAdmin
  return ("propose_admin", [.address (f.toXdr newAdmin)])

def acceptAdmin : Message :=
  return ("accept_admin", [])

def admin : Read Address where
  message := return ("admin", [])
  decode := decodeAddress f

def pendingAdmin : Read (Option Address) where
  message := return ("pending_admin", [])
  decode
    | .void => .ok none
    | .address xdr => (decodeAddress f (.address xdr)).map some
    | other => .error (unexpected other)

def version : Read String where
  message := return ("version", [])
  decode
    | .string s => .ok (f.fromUtf8Lossy s.bytes)
    | res => .error (unexpected res)

end WarpdriveClient

/-! ## `Secp256k1SecurityClient` and `Ed25519SecurityClient` -/

namespace SecurityClient

variable {n : ℕ}

def addSigner (key : BytesN n) (weight : UInt64) : Message := do
  return ("add_signer", [← intoValExt key, .u64 weight])

def removeSigner (key : BytesN n) : Message := do
  return ("remove_signer", [← intoValExt key])

def setThreshold (numerator denominator : UInt64) : Message :=
  return ("set_threshold", [.u64 numerator, .u64 denominator])

def getTotalWeight : Read UInt64 where
  message := return ("get_total_weight", [])
  decode := decodeU64

def getTotalWeightAt (referenceBlock : UInt32) : Read UInt64 where
  message := return ("get_total_weight_at", [.u32 referenceBlock])
  decode := decodeU64

def getSignerWeight (key : BytesN n) : Read UInt64 where
  message := do return ("get_signer_weight", [← intoValExt key])
  decode := decodeU64

def getSignerWeightAt (key : BytesN n) (referenceBlock : UInt32) : Read UInt64 where
  message := do return ("get_signer_weight_at", [← intoValExt key, .u32 referenceBlock])
  decode := decodeU64

def getSignerWeights (keys : List (BytesN n)) : Read (List UInt64) where
  message := do return ("get_signer_weights", [← intoValExt keys])
  decode := decodeU64Vec

def getSignerWeightsAt (keys : List (BytesN n)) (referenceBlock : UInt32) :
    Read (List UInt64) where
  message := do return ("get_signer_weights_at", [← intoValExt keys, .u32 referenceBlock])
  decode := decodeU64Vec

def requiredWeight : Read UInt64 where
  message := return ("required_weight", [])
  decode := decodeU64

def requiredWeightAt (referenceBlock : UInt32) : Read UInt64 where
  message := return ("required_weight_at", [.u32 referenceBlock])
  decode := decodeU64

def thresholdNumerator : Read UInt64 where
  message := return ("threshold_numerator", [])
  decode := decodeU64

def thresholdDenominator : Read UInt64 where
  message := return ("threshold_denominator", [])
  decode := decodeU64

def listSigners (n : ℕ) : Read (List (SignerInfo n)) where
  message := return ("list_signers", [])
  decode := decodeSigners n

end SecurityClient

/-! ## `Secp256k1VerificationClient` and `Ed25519VerificationClient` -/

namespace VerificationClient

variable (f : Formats) {k n : ℕ}

def verify (envelope : Bytes) (signatures : List (BytesN n)) (signerPubkeys : List (BytesN k))
    (referenceBlock : UInt32) : Message := do
  return ("verify", [← intoValExt envelope, ← intoValExt signatures,
    ← intoValExt signerPubkeys, .u32 referenceBlock])

def securityContract : Read Address where
  message := return ("security_contract", [])
  decode := decodeContract f

def requiredWeight : Read UInt64 where
  message := return ("required_weight", [])
  decode := decodeU64

def signerWeight (signerPubkey : BytesN k) : Read UInt64 where
  message := do return ("signer_weight", [← intoValExt signerPubkey])
  decode := decodeU64

/-- Without a reference block the current weight is checked. -/
def checkOne (envelope : Bytes) (signature : BytesN n) (signerPubkey : BytesN k)
    (referenceBlock : Option UInt32) : Read UInt64 where
  message := do
    let blockArg : ScVal :=
      match referenceBlock with
      | some b => .u32 b
      | none => .void
    return ("check_one", [← intoValExt envelope, ← intoValExt signature,
      ← intoValExt signerPubkey, blockArg])
  decode := decodeU64

end VerificationClient

/-! ## `EthereumHandlerClient` and `StellarHandlerClient` -/

namespace HandlerClient

variable (f : Formats)

def verifyEth (envelopeBytes : Bytes) (sigData : SignatureData) : Message := do
  return ("verify_eth", [← intoValExt envelopeBytes, ← sigData.intoScval])

def verifyXlm (envelopeBytes : Bytes) (sigData : Ed25519SignatureData) : Message := do
  return ("verify_xlm", [← intoValExt envelopeBytes, ← sigData.intoScval])

def verificationContract : Read Address where
  message := return ("verification_contract", [])
  decode := decodeContract f

def payload (eventId : BytesN 20) : Read (Option Bytes) where
  message := do return ("payload", [← intoValExt eventId])
  decode
    | .void => .ok none
    | .bytes bm => .ok (some bm.bytes)
    | other => .error (unexpected other)

end HandlerClient

/-! ## `ProjectRootClient` -/

namespace ProjectRootClient

variable (f : Formats)

def contractAddress (id : Address) : ScVal :=
  .address (f.toXdr id)

def updateProjectSpecRepo (repo : XdrString) : Message :=
  return ("update_project_spec_repo", [repo.intoVal])

def addSecp256k1Signer (key : BytesN 33) (weight : UInt64) : Message := do
  return ("add_secp256k1_signer", [← intoValExt key, .u64 weight])

def removeSecp256k1Signer (key : BytesN 33) : Message := do
  return ("remove_secp256k1_signer", [← intoValExt key])

def addEd25519Signer (key : BytesN 32) (weight : UInt64) : Message := do
  return ("add_ed25519_signer", [← intoValExt key, .u64 weight])

def removeEd25519Signer (key : BytesN 32) : Message := do
  return ("remove_ed25519_signer", [← intoValExt key])

def setThreshold (numerator denominator : UInt64) : Message :=
  return ("set_threshold", [.u64 numerator, .u64 denominator])

def upgradeContract (target : Address) (newWasmHash : BytesN 32) (newVersion : XdrString) :
    Message :=
  return ("upgrade_contract", [contractAddress f target, hashIntoVal newWasmHash,
    newVersion.intoVal])

def proposeContractAdmin (target : Address) (newAdmin : String) : Message := do
  let newAdmin ← f.fromStr newAdmin
  return ("propose_contract_admin", [contractAddress f target, .address (f.toXdr newAdmin)])

def acceptContractAdmin (target : Address) : Message :=
  return ("accept_contract_admin", [contractAddress f target])

def registerHandler (handler : Address) : Message :=
  return ("register_handler", [contractAddress f handler])

def unregisterHandler (handler : Address) : Message :=
  return ("unregister_handler", [contractAddress f handler])

def securityContract : Read Address where
  message := return ("security_contract", [])
  decode := decodeContract f

def verificationContract : Read Address where
  message := return ("verification_contract", [])
  decode := decodeContract f

def projectSpecRepo : Read String where
  message := return ("project_spec_repo", [])
  decode
    | .string s =>
        match fromUtf8? s.bytes with
        | some repo => .ok repo
        | none => .error (.xdrEncodingFailed "project_spec_repo not utf-8")
    | res => .error (unexpected res)

def verificationType : Read VerificationType where
  message := return ("verification_type", [])
  decode
    | .u32 1 => .ok .ethereum
    | .u32 2 => .ok .stellar
    | other => .error (unexpected other)

def listHandlers : Read (List Address) where
  message := return ("list_handlers", [])
  decode := decodeHandlers f

end ProjectRootClient

end WarpDrive.Client
