import Mathlib.AlgebraicGeometry.EllipticCurve.Affine.Point
import WarpDrive.Verification.Compression

/-!
# Where the recovery of a key traps

`is_valid_signature` turns away the all-zero signature and an unknown recovery byte
and hands everything else to `secp256k1_recover`, which traps when it cannot recover
a key.  So it does not answer on every bad signature: where there is no key to
recover, `check_one` and `verify` end in a trap and not in `InvalidSignature`.

`Recoverable` says when there is a key: `r` and `s` are in range, `r` is the first
coordinate of a point `R` whose second has the parity of the recovery id, and the key
`r⁻¹ • (s • R - z • G)` is not the identity.  `failsCleanly_iff` is the exact
condition under which a signature is answered.
-/

namespace WarpDrive.Verification

open WeierstrassCurve.Affine (Point)

/-! ## Recovery -/

instance : Fact fieldPrime.Prime := ⟨fieldPrime_prime⟩

/-- The curve `y² = x³ + 7`. -/
def secp256k1 : WeierstrassCurve.Affine (ZMod fieldPrime) where
  a₁ := 0
  a₂ := 0
  a₃ := 0
  a₄ := 0
  a₆ := 7

/-- The order of the group. -/
def groupOrder : ℕ :=
  115792089237316195423570985008687907852837564279074904382605163141518161494337

theorem secp256k1_Δ : WeierstrassCurve.Δ secp256k1 ≠ 0 := by
  have hΔ : WeierstrassCurve.Δ secp256k1 = -21168 := by
    simp only [WeierstrassCurve.Δ, WeierstrassCurve.b₂, WeierstrassCurve.b₄,
      WeierstrassCurve.b₆, WeierstrassCurve.b₈, secp256k1]
    norm_num
  rw [hΔ]
  decide

theorem equation (P : CurvePoint fieldPrime) :
    secp256k1.Equation (P.x : ZMod fieldPrime) (P.y : ZMod fieldPrime) := by
  have hcast := (ZMod.natCast_eq_natCast_iff _ _ _).mpr P.equation
  push_cast at hcast
  rw [WeierstrassCurve.Affine.equation_iff]
  simpa [secp256k1] using hcast

/-- A point as an element of the group. -/
def toGroup (P : CurvePoint fieldPrime) : secp256k1.Point :=
  .some P.x P.y
    ((WeierstrassCurve.Affine.equation_iff_nonsingular_of_Δ_ne_zero secp256k1_Δ).mp (equation P))

def messageScalar (digest : BytesN 32) : ℕ :=
  BigEndian.decode digest.toArray

def scalarR (rs : BytesN 64) : ℕ :=
  BigEndian.decode (rs.toArray.take 32)

def scalarS (rs : BytesN 64) : ℕ :=
  BigEndian.decode (rs.toArray.drop 32)

/-- There is a key to recover.  The host may hold `s` to a smaller range than `r`. -/
structure Recoverable (sLimit : ℕ) (digest : BytesN 32) (rs : BytesN 64) (recoveryId : ℕ) :
    Prop where
  r_range : 0 < scalarR rs ∧ scalarR rs < groupOrder
  s_range : 0 < scalarS rs ∧ scalarS rs < sLimit
  point : ∃ R : CurvePoint fieldPrime, R.x = scalarR rs ∧ R.y % 2 = recoveryId ∧
    scalarS rs • toGroup R ≠ messageScalar digest • toGroup generator

/-- The host recovers a key, or traps. -/
def RecoversOrTraps (sLimit : ℕ) (p : Platform) : Prop :=
  ∀ digest rs recoveryId, recoveryId < 2 →
    ((p.secp256k1Recover digest rs recoveryId).isSome ↔ Recoverable sLimit digest rs recoveryId)

/-! ## A signature that is not valid -/

section Contract

variable {p : Platform} {ω σ : Type} {envelope : Bytes} {signature : SecpSignature}
  {signerPubkey : CompressedSecpPubKey}

/-- How a check ends when `is_valid_signature` gives `valid` and that is not true. -/
def checkFailure : Option Bool → Option (Failure VerifyError)
  | some true => none
  | some false => some (.error .invalidSignature)
  | none => some .trap

theorem run_expect_valid {valid : Option Bool} {failure : Failure VerifyError}
    (h : checkFailure valid = some failure) (s : σ) :
    (do let b ← expect valid; rejectIf (!b) VerifyError.invalidSignature : Contract σ _ _).run s =
      .error failure := by
  rcases valid with - | - | -
  · cases h
    rfl
  · cases h
    rfl
  · cases h

/-- `check_one` ends where its signature check does, before it reads a weight. -/
theorem checkOne_run_of_error {t : VerificationType} {sig : t.Signature} {key : t.PubKey}
    {host : Host ω} {failure : Failure VerifyError} {frame : Frame Storage ω}
    (hcheck : (checkOneSignature p t envelope sig key).run frame = .error failure)
    (referenceBlock : Option ℕ) :
    (checkOne p host t envelope sig key referenceBlock).run frame = .error failure := by
  unfold checkOne
  rw [StateT.run_bind, hcheck, error_bind]

/-- A turn of the loop of `verify` ends where its signature check does. -/
theorem verifyLoop_run_of_error {t : VerificationType} {sig : t.Signature} {key : t.PubKey}
    {prev : Option t.PubKey} (hordered : ∀ k ∈ prev, k < key) {failure : Failure VerifyError}
    {s : σ} (hcheck : (checkSignature p t envelope sig key).run s = .error failure)
    (sigs pubkeys : List Bytes) (weights : List UInt64) (total : UInt64) :
    (verifyLoop p t envelope (sig.toArray :: sigs) (key.toArray :: pubkeys) weights prev total).run
      s = .error failure := by
  have hprev : ¬ (prev.any fun k => key ≤ k) = true := by
    cases prev with
    | none => simp
    | some k => simpa using hordered k rfl
  have hkey : (key.toArray :: pubkeys).head?.bind (BytesN.ofBytes? t.keyLength) = some key :=
    BytesN.ofBytes?_toArray key
  rw [verifyLoop, BytesN.ofBytes?_toArray, hkey]
  simp only [StateT.run_bind, run_expect_some, ok_bind, run_rejectIf, if_neg hprev, hcheck,
    error_bind]

/-- What is promised of a signature: the check answers, and where the signature is
not a valid one of the key, `check_one` and a turn of the loop of `verify` that
reaches it report `InvalidSignature`. -/
structure FailsCleanly (p : Platform) (envelope : Bytes) (signature : SecpSignature)
    (signerPubkey : CompressedSecpPubKey) : Prop where
  answers : ∃ valid, isValidSignature p envelope signature signerPubkey = some valid
  checkOne : isValidSignature p envelope signature signerPubkey ≠ some true →
    ∀ (ω : Type) (host : Host ω) (referenceBlock : Option ℕ) (frame : Frame Storage ω),
      (checkOne p host .ethereum envelope signature signerPubkey referenceBlock).run frame =
        .error (.error .invalidSignature)
  verify : isValidSignature p envelope signature signerPubkey ≠ some true →
    ∀ (σ : Type) (prev : Option CompressedSecpPubKey), (∀ key ∈ prev, key < signerPubkey) →
      ∀ (sigs pubkeys : List Bytes) (weights : List UInt64) (total : UInt64) (s : σ),
        (verifyLoop p .ethereum envelope (signature.toArray :: sigs)
          (signerPubkey.toArray :: pubkeys) weights prev total).run s =
            .error (.error .invalidSignature)

theorem failsCleanly_of_answers
    (h : ∃ valid, isValidSignature p envelope signature signerPubkey = some valid) :
    FailsCleanly p envelope signature signerPubkey := by
  have hfails : isValidSignature p envelope signature signerPubkey ≠ some true →
      checkFailure (isValidSignature p envelope signature signerPubkey) =
        some (.error .invalidSignature) := by
    intro hne
    obtain ⟨valid, hvalid⟩ := h
    rw [hvalid] at hne ⊢
    cases valid with
    | true => exact absurd rfl hne
    | false => rfl
  refine ⟨h, ?_, ?_⟩
  · intro hne ω host referenceBlock frame
    exact checkOne_run_of_error (t := .ethereum) (run_expect_valid (hfails hne) frame) _
  · intro hne σ prev hordered sigs pubkeys weights total s
    exact verifyLoop_run_of_error (t := .ethereum) hordered (run_expect_valid (hfails hne) s)
      _ _ _ _

end Contract

/-! ## When a signature is answered -/

/-- The recovery id that the byte stands for is 0 or 1. -/
theorem normalizeRecoveryId_lt {v : UInt8} {recoveryId : ℕ}
    (h : normalizeRecoveryId v = some recoveryId) : recoveryId < 2 := by
  unfold normalizeRecoveryId at h
  split at h
  · cases h
    exact Nat.zero_lt_two
  split at h
  · cases h
    exact Nat.one_lt_two
  split at h
  · next hplain =>
      cases h
      rcases hplain with rfl | rfl
      · exact Nat.zero_lt_two
      · exact Nat.one_lt_two
  · cases h

/-- The check answers exactly on the all-zero signature, on an unknown recovery byte,
and where there is a key to recover. -/
theorem isValidSignature_isSome_iff {sLimit : ℕ} {p : Platform} (hhost : RecoversOrTraps sLimit p)
    {envelope : Bytes} {signature : SecpSignature} {signerPubkey : CompressedSecpPubKey} :
    (∃ valid, isValidSignature p envelope signature signerPubkey = some valid) ↔
      signature.isZero = true ∨
        ∀ recoveryId ∈ normalizeRecoveryId (signature.toArray.getD 64 0),
          Recoverable sLimit (eip191HashMessage p (p.keccak256 envelope)) (signatureRS signature)
            recoveryId := by
  unfold isValidSignature
  by_cases hzero : signature.isZero = true
  · simp [hzero]
  simp only [hzero, Bool.false_eq_true, if_false, false_or]
  cases hid : normalizeRecoveryId (signature.toArray.getD 64 0) with
  | none => simp
  | some recoveryId =>
      have hrecovers := hhost (eip191HashMessage p (p.keccak256 envelope)) (signatureRS signature)
        recoveryId (normalizeRecoveryId_lt hid)
      simp only [Option.mem_some_iff, forall_eq', ← hrecovers, ← Option.isSome_iff_exists,
        Option.isSome_map]

/-- A signature fails cleanly exactly when the check answers on it. -/
theorem failsCleanly_iff {sLimit : ℕ} {p : Platform} (hhost : RecoversOrTraps sLimit p)
    (envelope : Bytes) (signature : SecpSignature) (signerPubkey : CompressedSecpPubKey) :
    FailsCleanly p envelope signature signerPubkey ↔
      signature.isZero = true ∨
        ∀ recoveryId ∈ normalizeRecoveryId (signature.toArray.getD 64 0),
          Recoverable sLimit (eip191HashMessage p (p.keccak256 envelope)) (signatureRS signature)
            recoveryId := by
  constructor
  · intro h
    exact (isValidSignature_isSome_iff hhost).mp h.answers
  · intro h
    exact failsCleanly_of_answers ((isValidSignature_isSome_iff hhost).mpr h)

namespace Sample

open Classical in
/-- A host that recovers the generator wherever there is a key to recover. -/
noncomputable def recoveringPlatform : Platform :=
  { secpPlatform with
    secp256k1Recover := fun digest rs recoveryId =>
      if Recoverable (groupOrder / 2 + 1) digest rs recoveryId then some (uncompressed generator)
      else none }

theorem recoveringPlatform_recovers : RecoversOrTraps (groupOrder / 2 + 1) recoveringPlatform := by
  intro digest rs recoveryId _
  unfold recoveringPlatform
  dsimp only
  split
  · next h => simp [h]
  · next h => simp [h]

/-- `r` is zero, `s` is one and the recovery byte is 27. -/
def zeroR : SecpSignature where
  toArray := List.replicate 63 0 ++ [1, 27]
  length_toArray := rfl

/-- Every byte is `0xAA`, the recovery byte as well. -/
def garbage : SecpSignature where
  toArray := List.replicate 65 0xAA
  length_toArray := List.length_replicate

theorem not_recoverable_zeroR (sLimit : ℕ) (digest : BytesN 32) :
    ¬ ∀ recoveryId ∈ normalizeRecoveryId (zeroR.toArray.getD 64 0),
      Recoverable sLimit digest (signatureRS zeroR) recoveryId := by
  intro h
  have hr : scalarR (signatureRS zeroR) = 0 := by decide
  have hrange := (h 0 rfl).r_range.1
  rw [hr] at hrange
  exact Nat.lt_irrefl 0 hrange

end Sample

/-- On a signature with `r` zero the check does not answer: `check_one` traps, and so
does a turn of the loop of `verify`. -/
theorem zeroR_traps :
    RecoversOrTraps (groupOrder / 2 + 1) Sample.recoveringPlatform ∧
      ∀ (envelope : Bytes) (signerPubkey : CompressedSecpPubKey),
        isValidSignature Sample.recoveringPlatform envelope Sample.zeroR signerPubkey = none ∧
        ¬ FailsCleanly Sample.recoveringPlatform envelope Sample.zeroR signerPubkey ∧
        (∀ (host : Host Unit) (referenceBlock : Option ℕ) (frame : Frame Storage Unit),
          (checkOne Sample.recoveringPlatform host .ethereum envelope Sample.zeroR signerPubkey
            referenceBlock).run frame = .error .trap) ∧
        ∀ (sigs pubkeys : List Bytes) (weights : List UInt64) (s : Unit),
          (verifyLoop Sample.recoveringPlatform .ethereum envelope (Sample.zeroR.toArray :: sigs)
            (signerPubkey.toArray :: pubkeys) weights none 0).run s = .error .trap := by
  refine ⟨Sample.recoveringPlatform_recovers, ?_⟩
  intro envelope signerPubkey
  have hsilent : ¬ ∃ valid, isValidSignature Sample.recoveringPlatform envelope Sample.zeroR
      signerPubkey = some valid := by
    rw [isValidSignature_isSome_iff Sample.recoveringPlatform_recovers, not_or]
    exact ⟨by decide, Sample.not_recoverable_zeroR _ _⟩
  have hnone : isValidSignature Sample.recoveringPlatform envelope Sample.zeroR signerPubkey =
      none := by
    cases hvalid : isValidSignature Sample.recoveringPlatform envelope Sample.zeroR
      signerPubkey with
    | none => rfl
    | some valid => exact absurd ⟨valid, hvalid⟩ hsilent
  have htrap : checkFailure (isValidSignature Sample.recoveringPlatform envelope Sample.zeroR
      signerPubkey) = some .trap := by
    rw [hnone]
    rfl
  refine ⟨hnone, fun h => hsilent h.answers, ?_, ?_⟩
  · intro host referenceBlock frame
    exact checkOne_run_of_error (t := .ethereum) (run_expect_valid htrap frame) _
  · intro sigs pubkeys weights s
    exact verifyLoop_run_of_error (t := .ethereum) (fun _ hkey => by cases hkey)
      (run_expect_valid htrap s) _ _ _ _

theorem failsCleanly_iff_sample :
    FailsCleanly Sample.recoveringPlatform Sample.greeting Sample.garbage
        (compressPubkey (uncompressed generator)) ∧
      ¬ FailsCleanly Sample.recoveringPlatform Sample.greeting Sample.zeroR
        (compressPubkey (uncompressed generator)) := by
  have hunknown : normalizeRecoveryId (Sample.garbage.toArray.getD 64 0) = none := by decide
  constructor
  · refine (failsCleanly_iff Sample.recoveringPlatform_recovers _ _ _).mpr (Or.inr ?_)
    intro recoveryId hid
    rw [hunknown] at hid
    cases hid
  · rw [failsCleanly_iff Sample.recoveringPlatform_recovers, not_or]
    exact ⟨by decide, Sample.not_recoverable_zeroR _ _⟩

end WarpDrive.Verification
