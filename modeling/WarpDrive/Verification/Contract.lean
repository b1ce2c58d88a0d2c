import WarpDrive.Platform
import WarpDrive.Shared.Admin

/-!
# The Verification contracts

`Secp256k1Verification` and `Ed25519Verification` check signatures over an
envelope and weigh the signers against the Security contract they point at.
They differ in the signature check: `is_valid_signature` recovers a key and
compares it, and answers false for a bad signature unless the recovery traps;
`verify_ed25519` traps on every bad signature except the all-zero one.

Vectors of keys and signatures are converted element by element, when the loop
of `verify` reads them.
-/

namespace WarpDrive.Verification

structure Storage where
  base : Base
  securityContract : Address
deriving DecidableEq, Repr

variable {ω α σ : Type}

/-- Code of the shared interface, on the base entries. -/
def onBase (m : Contract Base VerifyError α) : Contract (Frame Storage ω) VerifyError α :=
  onStorage (zoom Storage.base (fun s b => { s with base := b }) m)

/-! ## secp256k1 signatures -/

section Secp256k1

/-- `"\x19Ethereum Signed Message:\n32"` -/
def eip191Prefix : Bytes :=
  [0x19, 69, 116, 104, 101, 114, 101, 117, 109, 32, 83, 105, 103, 110, 101, 100, 32, 77, 101, 115,
    115, 97, 103, 101, 58, 10, 51, 50]

def eip191HashMessage (p : Platform) (digest : BytesN 32) : BytesN 32 :=
  p.keccak256 (eip191Prefix ++ digest.toArray)

/-- Compress `04 ‖ x ‖ y` into a prefix for the parity of `y`, and `x`. -/
def compressPubkey (uncompressed : BytesN 65) : CompressedSecpPubKey where
  toArray := (0x02 ||| (uncompressed.toArray.getD 64 0 &&& 1)) ::
    (uncompressed.toArray.drop 1).take 32
  length_toArray := by simp [uncompressed.length_toArray]

/-- The recovery id in `v`, from the Ethereum format or plain. -/
def normalizeRecoveryId (v : UInt8) : Option ℕ :=
  if v = 27 then some 0
  else if v = 28 then some 1
  else if v = 0 ∨ v = 1 then some v.toNat
  else none

/-- `r ‖ s`. -/
def signatureRS (signature : SecpSignature) : BytesN 64 where
  toArray := signature.toArray.take 64
  length_toArray := by simp [signature.length_toArray]

/-- `is_valid_signature`; none where the recovery traps. -/
def isValidSignature (p : Platform) (envelope : Bytes) (signature : SecpSignature)
    (signerPubkey : CompressedSecpPubKey) : Option Bool :=
  if signature.isZero then some false
  else
    match normalizeRecoveryId (signature.toArray.getD 64 0) with
    | none => some false
    | some recoveryId =>
        let digest := eip191HashMessage p (p.keccak256 envelope)
        (p.secp256k1Recover digest (signatureRS signature) recoveryId).map fun recovered =>
          compressPubkey recovered = signerPubkey

end Secp256k1

/-! ## ed25519 signatures -/

section Ed25519

/-- `"Stellar Signed Message:\n"` -/
def sep053Prefix : Bytes :=
  [83, 116, 101, 108, 108, 97, 114, 32, 83, 105, 103, 110, 101, 100, 32, 77, 101, 115, 115, 97, 103,
    101, 58, 10]

def sep053Hash (p : Platform) (envelope : Bytes) : BytesN 32 :=
  p.sha256 (sep053Prefix ++ envelope)

def verifyEd25519Prehashed (p : Platform) (messageHash : BytesN 32)
    (signature : Ed25519Signature) (signerPubkey : Ed25519PubKey) :
    Contract σ VerifyError Unit :=
  if signature.isZero then fail .invalidSignature
  else if p.ed25519Verify signerPubkey messageHash.toArray signature then pure ()
  else trap

def verifyEd25519 (p : Platform) (envelope : Bytes) (signature : Ed25519Signature)
    (signerPubkey : Ed25519PubKey) : Contract σ VerifyError Unit :=
  if signature.isZero then fail .invalidSignature
  else verifyEd25519Prehashed p (sep053Hash p envelope) signature signerPubkey

end Ed25519

/-! ## The contract -/

/-- The signature check of `check_one`. -/
def checkOneSignature (p : Platform) : (t : VerificationType) → Bytes → t.Signature → t.PubKey →
    Contract σ VerifyError Unit
  | .ethereum, envelope, signature, signerPubkey => do
      let valid ← expect (isValidSignature p envelope signature signerPubkey)
      rejectIf (!valid) .invalidSignature
  | .stellar, envelope, signature, signerPubkey => verifyEd25519 p envelope signature signerPubkey

/-- The signature check in the loop of `verify`.  The ed25519 contract hashes the
envelope once, before the loop. -/
def checkSignature (p : Platform) : (t : VerificationType) → Bytes → t.Signature → t.PubKey →
    Contract σ VerifyError Unit
  | .ethereum, envelope, signature, signerPubkey => do
      let valid ← expect (isValidSignature p envelope signature signerPubkey)
      rejectIf (!valid) .invalidSignature
  | .stellar, envelope, signature, signerPubkey =>
      verifyEd25519Prehashed p (sep053Hash p envelope) signature signerPubkey

/-- The loop of `verify`: what is left of the three vectors, the previous key and
the weight so far. -/
def verifyLoop (p : Platform) (t : VerificationType) (envelope : Bytes) :
    List Bytes → List Bytes → List UInt64 → Option t.PubKey → UInt64 →
      Contract σ VerifyError UInt64
  | [], _, _, _, totalWeight => pure totalWeight
  | sig :: sigs, pubkeys, weights, prevPubkey, totalWeight => do
      let sig ← expect (BytesN.ofBytes? t.signatureLength sig)
      let pubkey ← expect (pubkeys.head?.bind (BytesN.ofBytes? t.keyLength))
      rejectIf (prevPubkey.any fun prev => pubkey ≤ prev) .signersNotOrdered
      checkSignature p t envelope sig pubkey
      let weight ← expect weights.head?
      rejectIf (weight = 0) .signerNotRegistered
      let totalWeight ← expect (checkedAdd totalWeight weight)
      verifyLoop p t envelope sigs pubkeys.tail weights.tail (some pubkey) totalWeight

section Contract

variable (p : Platform) (host : Host ω) (t : VerificationType)

def requiredWeight : Contract (Frame Storage ω) VerifyError UInt64 := do
  let securityAddr := (← get).storage.securityContract
  invokeClient host securityAddr .requiredWeight Val.toU64?

def signerWeight (signerPubkey : t.PubKey) : Contract (Frame Storage ω) VerifyError UInt64 := do
  let securityAddr := (← get).storage.securityContract
  invokeClient host securityAddr (.getSignerWeight signerPubkey.toArray) Val.toU64?

def checkOne (envelope : Bytes) (signature : t.Signature) (signerPubkey : t.PubKey)
    (referenceBlock : Option ℕ) : Contract (Frame Storage ω) VerifyError UInt64 := do
  checkOneSignature p t envelope signature signerPubkey
  let securityAddr := (← get).storage.securityContract
  let query := match referenceBlock with
    | some block => Call.getSignerWeightAt signerPubkey.toArray block
    | none => Call.getSignerWeight signerPubkey.toArray
  let weight ← invokeClient host securityAddr query Val.toU64?
  rejectIf (weight = 0) .signerNotRegistered
  return weight

def verify (envelope : Bytes) (signatures signerPubkeys : List Bytes) (referenceBlock : ℕ) :
    Contract (Frame Storage ω) VerifyError Unit := do
  rejectIf signatures.isEmpty .emptySignatures
  rejectIf (signatures.length ≠ signerPubkeys.length) .lengthMismatch
  let securityAddr := (← get).storage.securityContract
  let weights ← invokeClient host securityAddr
    (.getSignerWeightsAt signerPubkeys referenceBlock) Val.toU64s?
  let required ← invokeClient host securityAddr (.requiredWeightAt referenceBlock) Val.toU64?
  rejectIf (required = 0) .zeroRequiredWeight
  let totalWeight ← verifyLoop p t envelope signatures signerPubkeys weights none 0
  rejectIf (totalWeight < required) .insufficientWeight

/-- The exported functions, as a call reaches them. -/
def call (env : Env) : Call → Contract (Frame Storage ω) VerifyError Val
  | .securityContract => view fun frame => some (.address frame.storage.securityContract)
  | .requiredWeight => do return .u64 (← requiredWeight host)
  | .signerWeight signerPubkey => do
      let signerPubkey ← expect (BytesN.ofBytes? t.keyLength signerPubkey)
      return .u64 (← signerWeight host t signerPubkey)
  | .checkOne envelope signature signerPubkey referenceBlock => do
      let signature ← expect (BytesN.ofBytes? t.signatureLength signature)
      let signerPubkey ← expect (BytesN.ofBytes? t.keyLength signerPubkey)
      return .u64 (← checkOne p host t envelope signature signerPubkey referenceBlock)
  | .verify envelope signatures signerPubkeys referenceBlock => do
      verify p host t envelope signatures signerPubkeys referenceBlock
      return .void
  | call => onBase (warpDriveInterface env call)

end Contract

/-- `__constructor`, for a contract deployed with the code `wasm`. -/
def construct (wasm : BytesN 32) (admin securityContract : Address) : Storage where
  base := .deployed wasm admin
  securityContract := securityContract

end WarpDrive.Verification
