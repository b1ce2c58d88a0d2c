import WarpDrive.Interfaces

/-!
# What the contracts take from outside

The host's cryptography and the two envelope codecs are not part of the
contracts.  They are parameters of the model: `secp256k1Recover` and
`ed25519Verify` may trap, the ABI decoder may refuse, and `from_xdr` may do both,
since the host traps on bytes that are not XDR while the SDK reports a value of
another shape.
-/

namespace WarpDrive

/-- The Solidity `Envelope`. -/
structure Envelope where
  eventId : BytesN 20
  ordering : BytesN 12
  payload : Bytes
deriving DecidableEq, Repr

/-- The inner payload of an `Envelope`. -/
structure DataWithId where
  triggerId : UInt64
  data : Bytes
deriving DecidableEq, Repr

structure XlmEnvelope where
  eventId : BytesN 20
  ordering : BytesN 12
  payload : Bytes
deriving DecidableEq, Repr

/-- The inner payload of an `XlmEnvelope`. -/
structure MessageWithId where
  triggerId : UInt64
  message : Bytes
deriving DecidableEq, Repr

/-- The outcome of `from_xdr`. -/
inductive FromXdr (α : Type) where
  | ok (a : α)
  | conversionError
  | trap

structure Platform where
  keccak256 : Bytes → BytesN 32
  sha256 : Bytes → BytesN 32
  /-- from a digest, `r ‖ s` and a recovery id; none is a trap -/
  secp256k1Recover : BytesN 32 → BytesN 64 → ℕ → Option (BytesN 65)
  /-- from a key, a message and a signature; false is a trap -/
  ed25519Verify : BytesN 32 → Bytes → BytesN 64 → Bool
  envelopeAbiDecode : Bytes → Option Envelope
  dataWithIdAbiDecode : Bytes → Option DataWithId
  xlmEnvelopeFromXdr : Bytes → FromXdr XlmEnvelope
  messageWithIdFromXdr : Bytes → FromXdr MessageWithId

/-! ## A platform that knows one envelope

An XDR envelope with event id `11 22 33 … 04`, whose payload is the message "hi"
under trigger id 7, and the ed25519 signatures of two keys over its SEP-0053
hash.  On these inputs the functions answer as the host's do. -/

namespace Sample

def payload : Bytes :=
    [0, 0, 0, 17, 0, 0, 0, 1, 0, 0, 0, 2, 0, 0, 0, 15, 0, 0, 0, 7, 109, 101, 115, 115, 97, 103,
      101, 0, 0, 0, 0, 13, 0, 0, 0, 2, 104, 105, 0, 0, 0, 0, 0, 15, 0, 0, 0, 10, 116, 114, 105,
      103, 103, 101, 114, 95, 105, 100, 0, 0, 0, 0, 0, 5, 0, 0, 0, 0, 0, 0, 0, 7]

def envelope : XlmEnvelope where
  eventId := ⟨
    [17, 34, 51, 68, 85, 102, 119, 136, 153, 170, 187, 204, 221, 238, 255, 0, 1, 2, 3, 4], rfl⟩
  ordering := ⟨[160, 161, 162, 163, 164, 165, 166, 167, 168, 169, 170, 171], rfl⟩
  payload := payload

def envelopeBytes : Bytes :=
    [0, 0, 0, 17, 0, 0, 0, 1, 0, 0, 0, 3, 0, 0, 0, 15, 0, 0, 0, 8, 101, 118, 101, 110, 116, 95,
      105, 100, 0, 0, 0, 13, 0, 0, 0, 20, 17, 34, 51, 68, 85, 102, 119, 136, 153, 170, 187, 204,
      221, 238, 255, 0, 1, 2, 3, 4, 0, 0, 0, 15, 0, 0, 0, 8, 111, 114, 100, 101, 114, 105, 110,
      103, 0, 0, 0, 13, 0, 0, 0, 12, 160, 161, 162, 163, 164, 165, 166, 167, 168, 169, 170, 171,
      0, 0, 0, 15, 0, 0, 0, 7, 112, 97, 121, 108, 111, 97, 100, 0, 0, 0, 0, 13, 0, 0, 0, 72, 0,
      0, 0, 17, 0, 0, 0, 1, 0, 0, 0, 2, 0, 0, 0, 15, 0, 0, 0, 7, 109, 101, 115, 115, 97, 103,
      101, 0, 0, 0, 0, 13, 0, 0, 0, 2, 104, 105, 0, 0, 0, 0, 0, 15, 0, 0, 0, 10, 116, 114, 105,
      103, 103, 101, 114, 95, 105, 100, 0, 0, 0, 0, 0, 5, 0, 0, 0, 0, 0, 0, 0, 7]

/-- `"Stellar Signed Message:\n" ‖ envelopeBytes` -/
def signedBytes : Bytes :=
  [83, 116, 101, 108, 108, 97, 114, 32, 83, 105, 103, 110, 101, 100, 32, 77, 101, 115, 115, 97, 103,
    101, 58, 10] ++ envelopeBytes

def messageHash : BytesN 32 := ⟨
    [125, 201, 38, 58, 159, 221, 190, 26, 214, 104, 153, 215, 229, 58, 87, 13, 245, 67, 46, 83,
      173, 251, 196, 244, 202, 106, 90, 14, 62, 58, 201, 228], rfl⟩

def lowKey : Ed25519PubKey := ⟨
    [129, 57, 119, 14, 168, 125, 23, 95, 86, 163, 84, 102, 195, 76, 126, 204, 203, 141, 138, 145,
      180, 238, 55, 162, 93, 246, 15, 91, 143, 201, 179, 148], rfl⟩

def highKey : Ed25519PubKey := ⟨
    [138, 136, 227, 221, 116, 9, 241, 149, 253, 82, 219, 45, 60, 186, 93, 114, 202, 103, 9, 191,
      29, 148, 18, 27, 243, 116, 136, 1, 180, 15, 111, 92], rfl⟩

def lowSignature : Ed25519Signature := ⟨
    [80, 173, 49, 126, 110, 132, 29, 50, 191, 224, 0, 201, 127, 241, 114, 225, 117, 12, 216, 222,
      20, 239, 160, 89, 83, 58, 85, 222, 169, 102, 185, 148, 13, 239, 4, 229, 179, 217, 145, 43,
      120, 124, 198, 122, 198, 218, 73, 84, 61, 210, 67, 92, 103, 14, 141, 211, 145, 10, 201, 19,
      128, 215, 160, 0], rfl⟩

def highSignature : Ed25519Signature := ⟨
    [149, 207, 93, 178, 163, 149, 225, 208, 137, 76, 85, 138, 101, 223, 61, 154, 41, 213, 48,
      220, 12, 108, 221, 164, 240, 63, 177, 161, 73, 141, 76, 212, 125, 125, 53, 235, 116, 170,
      239, 74, 84, 49, 76, 3, 19, 2, 183, 91, 176, 177, 238, 203, 242, 57, 88, 76, 204, 123, 179,
      69, 170, 61, 231, 7], rfl⟩

def zeroHash : BytesN 32 := ⟨List.replicate 32 0, List.length_replicate⟩

def platform : Platform where
  keccak256 _ := zeroHash
  sha256 bytes := if bytes = signedBytes then messageHash else zeroHash
  secp256k1Recover _ _ _ := none
  ed25519Verify key message signature :=
    message = messageHash.toArray ∧
      (key = lowKey ∧ signature = lowSignature ∨ key = highKey ∧ signature = highSignature)
  envelopeAbiDecode _ := none
  dataWithIdAbiDecode _ := none
  xlmEnvelopeFromXdr bytes := if bytes = envelopeBytes then .ok envelope else .trap
  messageWithIdFromXdr bytes := if bytes = payload then .ok ⟨7, [104, 105]⟩ else .trap

end Sample

end WarpDrive
