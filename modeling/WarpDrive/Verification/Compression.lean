import WarpDrive.Verification.Secp256k1

/-!
# What a compressed key identifies

`compress_pubkey` keeps of a point its first coordinate and the parity of the last
byte of the second.  Over an odd prime that fits 32 bytes this loses nothing: the
coordinates are read back from their bytes, and the two points over one first
coordinate differ in parity.  So the key of a registry entry stands for one point at
most, and that point is what a recovery behind an accepted signature returned.
-/

namespace WarpDrive.Verification

variable {q : ℕ}

/-! ## Compression -/

theorem prefix_or (byte : UInt8) : 2 ||| (byte &&& 1) = 2 ∨ 2 ||| (byte &&& 1) = 3 := by
  have hbit : (byte &&& 1).toNat = byte.toNat % 2 := by
    rw [UInt8.toNat_and, UInt8.toNat_one, Nat.and_one_is_mod]
  rcases Nat.mod_two_eq_zero_or_one byte.toNat with heven | hodd
  · have hzero : byte &&& 1 = 0 := UInt8.toNat_inj.mp (by rw [hbit, heven]; rfl)
    exact Or.inl (by rw [hzero]; rfl)
  · have hone : byte &&& 1 = 1 := UInt8.toNat_inj.mp (by rw [hbit, hodd]; rfl)
    exact Or.inr (by rw [hone]; rfl)

/-- Every compressed key starts with 02 or 03. -/
theorem compressPubkey_prefix (key : BytesN 65) :
    (compressPubkey key).toArray.head? = some 2 ∨ (compressPubkey key).toArray.head? = some 3 := by
  rcases prefix_or (key.toArray.getD 64 0) with heven | hodd
  · exact Or.inl (congrArg some heven)
  · exact Or.inr (congrArg some hodd)

/-- The compressed encoding of a point: a prefix for the parity of `y`, and `x`. -/
theorem compressPubkey_uncompressed (P : CurvePoint q) :
    (compressPubkey (uncompressed P)).toArray =
      (2 ||| (UInt8.ofNat P.y &&& 1)) :: BigEndian.encode 32 P.x := by
  have hy : BigEndian.encode 32 P.y = BigEndian.encode 31 (P.y / 256) ++ [UInt8.ofNat P.y] :=
    BigEndian.encode_succ 31 P.y
  have hinit : (4 :: (BigEndian.encode 32 P.x ++ BigEndian.encode 31 (P.y / 256))).length = 64 := by
    rw [List.length_cons, List.length_append, BigEndian.length_encode, BigEndian.length_encode]
  have hbytes : (uncompressed P).toArray =
      4 :: (BigEndian.encode 32 P.x ++ BigEndian.encode 31 (P.y / 256)) ++ [UInt8.ofNat P.y] := by
    rw [uncompressed_toArray, hy, List.cons_append, List.append_assoc]
  have hlast : (uncompressed P).toArray.getD 64 0 = UInt8.ofNat P.y := by
    rw [hbytes, List.getD_eq_getElem?_getD, List.getElem?_append_right hinit.le, hinit]
    rfl
  have hfirst : ((uncompressed P).toArray.drop 1).take 32 = BigEndian.encode 32 P.x := by
    rw [uncompressed_toArray, List.drop_one, List.tail_cons]
    exact List.take_left' (BigEndian.length_encode 32 P.x)
  unfold compressPubkey
  dsimp only
  rw [hlast, hfirst]

theorem parity_of_prefixed {m n : ℕ}
    (h : (2 : UInt8) ||| (UInt8.ofNat m &&& 1) = 2 ||| (UInt8.ofNat n &&& 1)) :
    m % 2 = n % 2 := by
  have hbits := congrArg UInt8.toNat h
  rw [UInt8.toNat_or, UInt8.toNat_or, BigEndian.ofNat_and_one, BigEndian.ofNat_and_one] at hbits
  rcases Nat.mod_two_eq_zero_or_one m with hm | hm <;>
    rcases Nat.mod_two_eq_zero_or_one n with hn | hn <;>
    rw [hm, hn] at hbits ⊢ <;> exact absurd hbits (by decide)

/-- Two points with one compressed encoding are equal. -/
theorem eq_of_compressPubkey_eq (hq : q.Prime) (hodd : Odd q) (hfits : q < 2 ^ 256)
    {P Q : CurvePoint q}
    (h : compressPubkey (uncompressed P) = compressPubkey (uncompressed Q)) : P = Q := by
  have hbytes := congrArg BytesN.toArray h
  rw [compressPubkey_uncompressed, compressPubkey_uncompressed, List.cons.injEq] at hbytes
  have hwidth : q < 256 ^ 32 := hfits
  have hx : P.x = Q.x :=
    BigEndian.encode_inj (P.x_lt.trans hwidth) (Q.x_lt.trans hwidth) hbytes.2
  exact CurvePoints.Point.eq_of_parity hq hodd hx (parity_of_prefixed hbytes.1)

/-! ## The recovered key -/

/-- The public key that `is_valid_signature` recovers and compares. -/
def recovered (p : Platform) (envelope : Bytes) (signature : SecpSignature) :
    Option (BytesN 65) :=
  (normalizeRecoveryId (signature.toArray.getD 64 0)).bind fun recoveryId =>
    p.secp256k1Recover (eip191HashMessage p (p.keccak256 envelope)) (signatureRS signature)
      recoveryId

theorem isValidSignature_eq_some_true {p : Platform} {envelope : Bytes}
    {signature : SecpSignature} {signerPubkey : CompressedSecpPubKey} :
    isValidSignature p envelope signature signerPubkey = some true ↔
      signature.isZero = false ∧
        ∃ key, recovered p envelope signature = some key ∧ compressPubkey key = signerPubkey := by
  unfold isValidSignature recovered
  cases hzero : signature.isZero with
  | true => simp
  | false =>
      cases hid : normalizeRecoveryId (signature.toArray.getD 64 0) with
      | none => simp
      | some recoveryId => simp

/-- The host recovers points of the curve modulo `q`, and returns them uncompressed. -/
def RecoversPoints (q : ℕ) (p : Platform) : Prop :=
  ∀ digest rs recoveryId key, p.secp256k1Recover digest rs recoveryId = some key →
    ∃ P : CurvePoint q, key = uncompressed P

/-- Compression is injective on points.  So the key recovered from an accepted
signature is the one point that the signer's key is the compressed encoding of, all
signatures accepted for one key recover the same point, and only keys with prefix 02
or 03 are accepted. -/
theorem compressPubkey_identifies (hq : q.Prime) (hodd : Odd q) (hfits : q < 2 ^ 256)
    {p : Platform} (hrecovers : RecoversPoints q p) :
    (∀ P Q : CurvePoint q,
      compressPubkey (uncompressed P) = compressPubkey (uncompressed Q) → P = Q) ∧
    ∀ envelope signature signerPubkey,
      isValidSignature p envelope signature signerPubkey = some true →
        (∃ P : CurvePoint q, recovered p envelope signature = some (uncompressed P) ∧
          compressPubkey (uncompressed P) = signerPubkey ∧
          (∀ Q : CurvePoint q, compressPubkey (uncompressed Q) = signerPubkey → Q = P) ∧
          ∀ envelope' signature',
            isValidSignature p envelope' signature' signerPubkey = some true →
              recovered p envelope' signature' = some (uncompressed P)) ∧
        (signerPubkey.toArray.head? = some 2 ∨ signerPubkey.toArray.head? = some 3) := by
  refine ⟨fun P Q h => eq_of_compressPubkey_eq hq hodd hfits h, ?_⟩
  -- an accepted signature recovers a point, which the key is the encoding of
  have haccepted : ∀ envelope signature signerPubkey,
      isValidSignature p envelope signature signerPubkey = some true →
        ∃ P : CurvePoint q, recovered p envelope signature = some (uncompressed P) ∧
          compressPubkey (uncompressed P) = signerPubkey := by
    intro envelope signature signerPubkey h
    obtain ⟨-, key, hkey, hcompressed⟩ := isValidSignature_eq_some_true.mp h
    obtain ⟨recoveryId, -, hrecover⟩ := Option.bind_eq_some_iff.mp hkey
    obtain ⟨P, rfl⟩ := hrecovers _ _ _ _ hrecover
    exact ⟨P, hkey, hcompressed⟩
  intro envelope signature signerPubkey h
  obtain ⟨P, hkey, hcompressed⟩ := haccepted envelope signature signerPubkey h
  have hunique : ∀ Q : CurvePoint q, compressPubkey (uncompressed Q) = signerPubkey → Q = P := by
    intro Q hQ
    exact eq_of_compressPubkey_eq hq hodd hfits (hQ.trans hcompressed.symm)
  refine ⟨⟨P, hkey, hcompressed, hunique, ?_⟩, ?_⟩
  · intro envelope' signature' h'
    obtain ⟨Q, hkey', hcompressed'⟩ := haccepted envelope' signature' signerPubkey h'
    rw [hkey', hunique Q hcompressed']
  · rw [← hcompressed]
    exact compressPubkey_prefix (uncompressed P)

namespace Sample

/-- "hello world" -/
def greeting : Bytes :=
  [104, 101, 108, 108, 111, 32, 119, 111, 114, 108, 100]

/-- Its keccak256 hash. -/
def greetingHash : BytesN 32 where
  toArray :=
      [71, 23, 50, 133, 168, 215, 52, 30, 94, 151, 47, 198, 119, 40, 99, 132, 248, 2, 248, 239,
       66, 165, 236, 95, 3, 187, 250, 37, 76, 176, 31, 173]
  length_toArray := rfl

/-- The hash of its EIP-191 message. -/
def greetingDigest : BytesN 32 where
  toArray :=
      [147, 16, 12, 201, 71, 123, 166, 82, 42, 45, 125, 94, 131, 208, 224, 117, 177, 103, 34,
       78, 216, 170, 12, 88, 96, 207, 212, 127, 169, 242, 39, 151]
  length_toArray := rfl

/-- A signature over it by the secret key 1, whose public key is the generator. -/
def greetingSignature : SecpSignature where
  toArray :=
      [47, 139, 222, 77, 26, 7, 32, 147, 85, 180, 167, 37, 10, 92, 81, 40, 232, 139, 132, 189,
       220, 97, 154, 183, 203, 168, 213, 105, 178, 64, 239, 228, 90, 31, 47, 4, 121, 230, 244,
       148, 76, 198, 212, 26, 79, 162, 163, 133, 221, 185, 231, 48, 173, 170, 116, 168, 200,
       219, 206, 126, 8, 225, 222, 140, 27]
  length_toArray := rfl

/-- A host that knows these hashes and this signature. -/
def secpPlatform : Platform :=
  { WarpDrive.Sample.platform with
    keccak256 := fun bytes =>
      if bytes = greeting then greetingHash
      else if bytes = eip191Prefix ++ greetingHash.toArray then greetingDigest
      else WarpDrive.Sample.zeroHash
    secp256k1Recover := fun digest rs recoveryId =>
      if digest = greetingDigest ∧ rs = signatureRS greetingSignature ∧ recoveryId = 0 then
        some (uncompressed generator)
      else none }

end Sample

theorem compressPubkey_identifies_sample :
    recovered Sample.secpPlatform Sample.greeting Sample.greetingSignature =
        some (uncompressed generator) ∧
      ∀ Q : CurvePoint fieldPrime,
        compressPubkey (uncompressed Q) = compressPubkey (uncompressed generator) →
          Q = generator := by
  have hrecovers : RecoversPoints fieldPrime Sample.secpPlatform := by
    intro digest rs recoveryId key h
    refine ⟨generator, ?_⟩
    unfold Sample.secpPlatform at h
    dsimp only at h
    split at h
    · exact (Option.some.inj h).symm
    · cases h
  have hkey : recovered Sample.secpPlatform Sample.greeting Sample.greetingSignature =
      some (uncompressed generator) := rfl
  have hvalid : isValidSignature Sample.secpPlatform Sample.greeting Sample.greetingSignature
      (compressPubkey (uncompressed generator)) = some true :=
    isValidSignature_eq_some_true.mpr ⟨by decide, uncompressed generator, hkey, rfl⟩
  obtain ⟨-, haccepted⟩ :=
    compressPubkey_identifies fieldPrime_prime fieldPrime_odd fieldPrime_lt hrecovers
  obtain ⟨⟨P, hrecovered, -, hunique, -⟩, -⟩ := haccepted _ _ _ hvalid
  refine ⟨hkey, fun Q hQ => ?_⟩
  rw [hunique Q hQ, ← hunique generator rfl]

end WarpDrive.Verification
