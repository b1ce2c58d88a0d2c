import WarpDrive.Guarantees.Window
import WarpDrive.System.Calls

/-!
# The quorum behind a bundle

`Quorum` says what a bundle of signatures is for: distinct keys signed the
envelope, each was registered, and together they weigh what the threshold asks
of the registry.  It speaks about the registry that was in force at the reference
block, not about what a Security contract still has stored.

A bundle that passes `verify` has a quorum, whatever the reference block
(`Accepts.quorum`): where a history has been pruned away, the default it answers
with is refused.  In the window the converse holds (`Quorum.accepts`).
-/

namespace WarpDrive

open Security

variable {p : Platform} {t : VerificationType} {J : List Invocation} {L r : ℕ}
  {s : Security.Storage t} {envelope : Bytes} {sigs : List Bytes} {keys : List t.PubKey}

/-- The weight that keys carry together. -/
def weightOf (registry : t.PubKey →₀ UInt64) (keys : List t.PubKey) : ℕ :=
  (keys.map fun key => (registry key).toNat).sum

theorem weightOf_singleton (registry : t.PubKey →₀ UInt64) (key : t.PubKey) :
    weightOf registry [key] = (registry key).toNat := by
  simp [weightOf]

/-- The keys signed the envelope, and they carry what `threshold` asks of `registry`. -/
structure Quorum (p : Platform) (threshold : Threshold) (registry : t.PubKey →₀ UInt64)
    (envelope : Bytes) (sigs : List Bytes) (keys : List t.PubKey) : Prop where
  nonempty : sigs ≠ []
  length : sigs.length = keys.length
  ascending : keys.Pairwise (· < ·)
  valid : List.Forall₂ (Verification.ValidBytes p t envelope) sigs keys
  registered : ∀ key ∈ keys, registry key ≠ 0
  required_pos : 0 < threshold.quota (totalWeight registry)
  reached : threshold.quota (totalWeight registry) ≤ weightOf registry keys

theorem weightSum_map (registry : t.PubKey →₀ UInt64) (keys : List t.PubKey) :
    Verification.weightSum (keys.map registry) = weightOf registry keys := by
  rw [Verification.weightSum, List.map_map]
  rfl

/-- Distinct keys carry no more than the total. -/
theorem weightOf_le_totalWeight (registry : t.PubKey →₀ UInt64)
    (hascending : keys.Pairwise (· < ·)) : weightOf registry keys ≤ totalWeight registry :=
  Totals.sum_map_le_total rfl registry (hascending.imp ne_of_lt)

/-- Whatever passes has a quorum, in the registry that was in force. -/
theorem Accepts.quorum {weights : List UInt64} {required : UInt64}
    (h : Accepts p s envelope sigs keys r weights required) (hs : Represents J L s) :
    Quorum p s.threshold (registryAt t J r) envelope sigs keys := by
  have hweights := hs.getSignerWeightsAt_exact h.weights_eq h.registered
  obtain ⟨-, hrequired⟩ := hs.requiredWeightAt_exact h.required_eq h.required_ne_zero
  have hne := h.required_ne_zero
  have hreached := h.reached
  rw [hweights, weightSum_map, hrequired] at hreached
  refine ⟨h.nonempty, h.valid.length_eq, List.isChain_iff_pairwise.mp h.ascending, h.valid,
    fun key hkey => ?_, ?_, hreached⟩
  · exact h.registered _ (hweights ▸ List.mem_map_of_mem hkey)
  · rw [← hrequired]
    exact Nat.pos_of_ne_zero fun hzero => hne (UInt64.toNat_inj.mp hzero)

/-- In the window, a quorum passes. -/
theorem Quorum.accepts (h : Quorum p s.threshold (registryAt t J r) envelope sigs keys)
    (hs : Represents J L s) (hwindow : L - historyCutoff ≤ r) :
    Accepts p s envelope sigs keys r (keys.map (registryAt t J r))
      (.ofNat (s.threshold.quota (totalWeight (registryAt t J r)))) := by
  have hrequired := hs.toNat_requiredWeightAt r
  have hne : UInt64.ofNat (s.threshold.quota (totalWeight (registryAt t J r))) ≠ 0 := by
    intro hzero
    rw [hzero] at hrequired
    exact h.required_pos.ne hrequired
  -- the signers are distinct, so their weights are no more than the total
  have hfits : weightOf (registryAt t J r) keys < 2 ^ 64 :=
    (weightOf_le_totalWeight _ h.ascending).trans_lt (hs.bounded r)
  refine ⟨h.nonempty, hs.getSignerWeightsAt_eq keys hwindow, hs.requiredWeightAt_eq hwindow, hne,
    List.isChain_iff_pairwise.mpr h.ascending, h.valid, List.forall_mem_map.mpr h.registered,
    ?_, ?_⟩
  · rwa [weightSum_map]
  · rw [weightSum_map, hrequired]
    exact h.reached

/-! ## What a bundle that passes tells -/

section Verify

variable {tx : Transaction} {depth : ℕ} {stack : List Address} {w : World} {a : Address}
  {v : Verification.Storage} {pubkeys : List Bytes}

/-- Queries fail closed: at any reference block each is exact or answers zero, and
`verify` passes only on answers that are exact, with a quorum behind them. -/
theorem fail_closed (hreach : Reaches J s L) :
    (∀ key r, s.getSignerWeightAt key r = some (registryAt t J r key) ∨
      s.getSignerWeightAt key r = some 0) ∧
    (∀ r, ∃ total, s.getTotalWeightAt r = some total ∧
      (total.toNat = totalWeight (registryAt t J r) ∨ total = 0)) ∧
    ∀ tx depth stack (w : World) a v envelope sigs pubkeys r,
      w.contracts a = some (.verification t v) →
      w.contracts v.securityContract = some (.security t s) →
      (invoke p tx depth stack a (.verify envelope sigs pubkeys r) w).1 = .ok .void →
      ∃ keys : List t.PubKey, keys.map BytesN.toArray = pubkeys ∧
        s.getSignerWeightsAt keys r = some (keys.map (registryAt t J r)) ∧
        s.getTotalWeightAt r = some (.ofNat (totalWeight (registryAt t J r))) ∧
        Quorum p s.threshold (registryAt t J r) envelope sigs keys := by
  have hs := hreach.represents
  refine ⟨fun key r => hs.getSignerWeightAt_cases key r, fun r => ?_, ?_⟩
  · rcases hs.getTotalWeightAt_cases r with hexact | hzero
    · exact ⟨_, hexact, Or.inl (hs.toNat_totalWeightAt r)⟩
    · exact ⟨0, hzero, Or.inr rfl⟩
  · intro tx depth stack w a v envelope sigs pubkeys r hverification hsecurity hok
    obtain ⟨keys, weights, required, hkeys, haccepts⟩ :=
      accepts_of_invoke_verify hverification hsecurity hok
    have hweights := hs.getSignerWeightsAt_exact haccepts.weights_eq haccepts.registered
    obtain ⟨htotal, -⟩ :=
      hs.requiredWeightAt_exact haccepts.required_eq haccepts.required_ne_zero
    exact ⟨keys, hkeys, hweights ▸ haccepts.weights_eq, htotal, haccepts.quorum hs⟩

/-- The signers of a bundle that passes weigh at least the rounded-down fraction of
the total: less than one unit short of the fraction, and the whole fraction where it
is a whole number. -/
theorem quorum_fraction (hreach : Reaches J s L)
    (hverification : w.contracts a = some (.verification t v))
    (hsecurity : w.contracts v.securityContract = some (.security t s))
    (hok : (invoke p tx depth stack a (.verify envelope sigs pubkeys r) w).1 = .ok .void) :
    ∃ keys : List t.PubKey, keys.map BytesN.toArray = pubkeys ∧
      s.threshold.quota (totalWeight (registryAt t J r)) ≤ weightOf (registryAt t J r) keys ∧
      totalWeight (registryAt t J r) * s.threshold.numerator.toNat <
        (weightOf (registryAt t J r) keys + 1) * s.threshold.denominator.toNat ∧
      (s.threshold.denominator.toNat ∣
          totalWeight (registryAt t J r) * s.threshold.numerator.toNat →
        totalWeight (registryAt t J r) * s.threshold.numerator.toNat ≤
          weightOf (registryAt t J r) keys * s.threshold.denominator.toNat) := by
  have hs := hreach.represents
  obtain ⟨keys, weights, required, hkeys, haccepts⟩ :=
    accepts_of_invoke_verify hverification hsecurity hok
  have hreached := (haccepts.quorum hs).reached
  have hpos : 0 < s.threshold.denominator.toNat := hs.threshold.1.trans_le hs.threshold.2
  exact ⟨keys, hkeys, hreached, Threshold.lt_of_quota_le hpos hreached,
    fun hdvd => Threshold.le_of_quota_le hdvd hreached⟩

end Verify

/-! ## Two signers

Two ed25519 signers of weight 1 each, and the threshold 2/3.  A bundle of the
first alone passes: 2/3 of 2, rounded down, is 1. -/

section Sample

def twoSigners : List Invocation :=
  [sampleInvocation 10 (.addSigner Sample.lowKey.toArray 1),
    sampleInvocation 11 (.addSigner Sample.highKey.toArray 1)]

def twoSignersState : Ed25519Security := after twoSigners sampleDeployment

theorem twoSigners_reaches : Reaches twoSigners twoSignersState 11 where
  run := by
    have hstart : Transition.Run Deployed Executes [] sampleDeployment :=
      .start ⟨_, _, 2, 3, rfl⟩
    exact (hstart.snoc ⟨.void, rfl⟩).snoc ⟨.void, rfl⟩
  inOrder := by
    unfold InOrder
    decide
  upTo := by decide

/-- A Security contract at address 1, and a Verification contract at 2 that points at it. -/
def pairOf (s : Ed25519Security) : World where
  contracts a :=
    if a = ⟨1⟩ then some (.security .stellar s)
    else if a = ⟨2⟩ then
      some (.verification .stellar (Verification.construct Sample.zeroHash ⟨0⟩ ⟨1⟩))
    else none
  journal := []

def unsignedAt (ledger : ℕ) : Transaction where
  ledger := ledger
  signed _ _ _ := false

theorem sep053Hash_sample :
    Verification.sep053Hash Sample.platform Sample.envelopeBytes = Sample.messageHash := by
  have hsigned : Verification.sep053Prefix ++ Sample.envelopeBytes = Sample.signedBytes := rfl
  simp only [Verification.sep053Hash, Sample.platform, hsigned, if_true]

theorem validBytes_low : Verification.ValidBytes Sample.platform .stellar Sample.envelopeBytes
    Sample.lowSignature.toArray Sample.lowKey := by
  refine ⟨Sample.lowSignature, BytesN.ofBytes?_toArray _, rfl, ?_⟩
  rw [sep053Hash_sample]
  simp [Sample.platform]

theorem validBytes_high : Verification.ValidBytes Sample.platform .stellar Sample.envelopeBytes
    Sample.highSignature.toArray Sample.highKey := by
  refine ⟨Sample.highSignature, BytesN.ofBytes?_toArray _, rfl, ?_⟩
  rw [sep053Hash_sample]
  simp [Sample.platform]

theorem accepts_low : Accepts Sample.platform twoSignersState Sample.envelopeBytes
    [Sample.lowSignature.toArray] [Sample.lowKey] 100 [1] 1 where
  nonempty := by simp
  weights_eq := by decide
  required_eq := by decide
  required_ne_zero := by decide
  ascending := List.isChain_singleton _
  valid := .cons validBytes_low .nil
  registered := by simp
  fits := by decide
  reached := by decide

theorem invoke_low : (invoke Sample.platform (unsignedAt 110) 100 [] ⟨2⟩
    (.verify Sample.envelopeBytes [Sample.lowSignature.toArray] [Sample.lowKey.toArray] 100)
    (pairOf twoSignersState)).1 = .ok .void :=
  accepts_low.invoke_verify (v := Verification.construct Sample.zeroHash ⟨0⟩ ⟨1⟩)
    (by simp) (by simp) rfl rfl

theorem registryAt_twoSigners :
    registryAt .stellar twoSigners 100 = registry .stellar twoSigners :=
  registryAt_eq_registry (by decide)

theorem totalWeight_twoSigners : totalWeight (registryAt .stellar twoSigners 100) = 2 := by
  rw [registryAt_twoSigners, ← twoSigners_reaches.represents.getTotalWeight_eq]
  decide

theorem weightOf_twoSigners :
    weightOf (registryAt .stellar twoSigners 100) [Sample.lowKey] = 1 := by
  have hweight : registry .stellar twoSigners Sample.lowKey = 1 :=
    (twoSigners_reaches.represents.weight_eq Sample.lowKey).symm.trans (by decide)
  rw [registryAt_twoSigners]
  exact (weightOf_singleton _ _).trans (congrArg UInt64.toNat hweight)

theorem fail_closed_sample : ∃ keys : List Ed25519PubKey,
    keys.map BytesN.toArray = [Sample.lowKey.toArray] ∧
      twoSignersState.getTotalWeightAt 100 =
        some (.ofNat (totalWeight (registryAt .stellar twoSigners 100))) ∧
      Quorum (t := .stellar) Sample.platform ⟨2, 3⟩ (registryAt .stellar twoSigners 100)
        Sample.envelopeBytes [Sample.lowSignature.toArray] keys := by
  obtain ⟨keys, hkeys, -, htotal, hquorum⟩ := (fail_closed twoSigners_reaches).2.2 (unsignedAt 110)
    100 [] (pairOf twoSignersState) ⟨2⟩ _ _ _ _ _ rfl rfl invoke_low
  exact ⟨keys, hkeys, htotal, hquorum⟩

theorem quorum_fraction_sample : ∃ keys : List Ed25519PubKey,
    keys.map BytesN.toArray = [Sample.lowKey.toArray] ∧
      totalWeight (registryAt .stellar twoSigners 100) * 2 <
        (weightOf (registryAt .stellar twoSigners 100) keys + 1) * 3 := by
  obtain ⟨keys, hkeys, -, hlt, -⟩ := quorum_fraction (w := pairOf twoSignersState)
    twoSigners_reaches rfl rfl invoke_low
  exact ⟨keys, hkeys, hlt⟩

/-- The signer of a bundle that passed holds half of the total weight, not 2/3. -/
theorem quorum_fraction_rounds_down :
    (invoke Sample.platform (unsignedAt 110) 100 [] ⟨2⟩
        (.verify Sample.envelopeBytes [Sample.lowSignature.toArray] [Sample.lowKey.toArray] 100)
        (pairOf twoSignersState)).1 = .ok .void ∧
      Reaches twoSigners twoSignersState 11 ∧ twoSignersState.threshold = ⟨2, 3⟩ ∧
      ¬totalWeight (registryAt .stellar twoSigners 100) * 2 ≤
        weightOf (registryAt .stellar twoSigners 100) [Sample.lowKey] * 3 := by
  refine ⟨invoke_low, twoSigners_reaches, rfl, ?_⟩
  rw [totalWeight_twoSigners, weightOf_twoSigners]
  decide

end Sample

end WarpDrive
