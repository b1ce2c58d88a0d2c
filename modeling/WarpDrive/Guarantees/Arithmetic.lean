import WarpDrive.Guarantees.Quorum

/-!
# The arithmetic of a verdict

A verdict divides once, casts once and adds in a loop.  In every reachable state of
the Security contract the denominator is not zero, the product fits in a `u128` and
the quotient is no more than the total (`decision_arithmetic`).

The addition in the loop of `verify` is checked, and the check never fires.  The loop
has refused every key that does not exceed the one before, so what it has added up is
the weight of distinct keys at one reference block; each weight is the one that was in
force there or zero, pruned or not, and the total that was in force fitted in a `u64`.
So the loop computes what `unboundedLoop` does, which adds up natural numbers and has
no check (`verifyLoop_run_eq_unbounded`).
-/

namespace WarpDrive

open Security Verification

variable {p : Platform} {t : VerificationType} {σ : Type} {J : List Invocation} {L r : ℕ}
  {s : Security.Storage t} {keys : List t.PubKey} {weights : List UInt64}

/-! ## The weights of distinct keys -/

/-- What a Security contract answers about a key, at `r`. -/
def answeredWeight (s : Security.Storage t) (r : ℕ) (key : t.PubKey) : UInt64 :=
  (s.getSignerWeightAt key r).getD 0

theorem Security.Represents.getSignerWeightAt_answered (h : Represents J L s) (r : ℕ)
    (key : t.PubKey) :
    s.getSignerWeightAt key r = some (answeredWeight s r key) := by
  unfold answeredWeight
  rcases h.getSignerWeightAt_cases key r with heq | heq
  · rw [heq]
    rfl
  · rw [heq]
    rfl

theorem Security.Represents.getSignerWeightsAt_answered (h : Represents J L s) (r : ℕ)
    (keys : List t.PubKey) :
    s.getSignerWeightsAt keys r = some (keys.map (answeredWeight s r)) := by
  rw [Security.Storage.getSignerWeightsAt_eq_some, List.forall₂_map_right_iff, List.forall₂_same]
  exact fun key _ => h.getSignerWeightAt_answered r key

/-- An answer is no more than the weight that was in force. -/
theorem Security.Represents.answeredWeight_le (h : Represents J L s) (r : ℕ) (key : t.PubKey) :
    (answeredWeight s r key).toNat ≤ (registryAt t J r key).toNat := by
  unfold answeredWeight
  rcases h.getSignerWeightAt_cases key r with heq | heq
  · rw [heq]
    exact le_rfl
  · rw [heq]
    exact Nat.zero_le _

/-- Distinct keys are answered with weights that fit in a `u64` together. -/
theorem Security.Represents.weightSum_answered_lt (h : Represents J L s) (r : ℕ)
    (hascending : keys.Pairwise (· < ·)) :
    weightSum (keys.map (answeredWeight s r)) < 2 ^ 64 :=
  calc weightSum (keys.map (answeredWeight s r))
      = (keys.map fun key => (answeredWeight s r key).toNat).sum := by
        rw [weightSum, List.map_map]
        rfl
    _ ≤ weightOf (registryAt t J r) keys :=
        List.sum_le_sum fun key _ => h.answeredWeight_le r key
    _ ≤ totalWeight (registryAt t J r) := weightOf_le_totalWeight _ hascending
    _ < 2 ^ 64 := h.bounded r

/-! ## The loop -/

/-- The loop of `verify` with a total that cannot overflow. -/
def unboundedLoop (p : Platform) (t : VerificationType) (envelope : Bytes) :
    List Bytes → List Bytes → List UInt64 → Option t.PubKey → ℕ → Contract σ VerifyError ℕ
  | [], _, _, _, totalWeight => pure totalWeight
  | sig :: sigs, pubkeys, weights, prevPubkey, totalWeight => do
      let sig ← expect (BytesN.ofBytes? t.signatureLength sig)
      let pubkey ← expect (pubkeys.head?.bind (BytesN.ofBytes? t.keyLength))
      rejectIf (prevPubkey.any fun prev => pubkey ≤ prev) .signersNotOrdered
      checkSignature p t envelope sig pubkey
      let weight ← expect weights.head?
      rejectIf (weight = 0) .signerNotRegistered
      unboundedLoop p t envelope sigs pubkeys.tail weights.tail (some pubkey)
        (totalWeight + weight.toNat)

/-- The outcome of the checked loop, next to that of the unbounded one: the same
failure, or the same total, which fits. -/
def Fits (checked : Except (Failure VerifyError) (UInt64 × σ)) :
    Except (Failure VerifyError) (ℕ × σ) → Prop
  | .ok (total, st) => total < 2 ^ 64 ∧ checked = .ok (.ofNat total, st)
  | .error e => checked = .error e

/-- The two loops make the same step, and go on alike. -/
theorem Fits.bind {α : Type} {m : Contract σ VerifyError α} {f : α → Contract σ VerifyError UInt64}
    {g : α → Contract σ VerifyError ℕ} {st : σ}
    (h : ∀ a st', m.run st = .ok (a, st') → Fits ((f a).run st') ((g a).run st')) :
    Fits ((m >>= f).run st) ((m >>= g).run st) := by
  rw [StateT.run_bind, StateT.run_bind]
  cases hrun : m.run st with
  | error e => rfl
  | ok result =>
      obtain ⟨a, st'⟩ := result
      exact h a st' hrun

theorem weightSum_append_singleton (weights : List UInt64) (weight : UInt64) :
    weightSum (weights ++ [weight]) = weightSum weights + weight.toNat := by
  simp [weightSum]

/-- A key that the order check lets through extends the keys so far. -/
theorem pairwise_append_of_not_any {seen : List t.PubKey} {key : t.PubKey}
    (hseen : seen.Pairwise (· < ·))
    (horder : ¬(seen.getLast?.any fun prev => decide (key ≤ prev)) = true) :
    (seen ++ [key]).Pairwise (· < ·) := by
  refine List.pairwise_append.mpr ⟨hseen, List.pairwise_singleton _ _, ?_⟩
  intro k hk k' hk'
  rw [List.mem_singleton.mp hk']
  rcases List.eq_nil_or_concat seen with rfl | ⟨init, last, rfl⟩
  · cases hk
  rw [List.concat_eq_append] at hseen horder hk
  have hlast : last < key := by simpa using horder
  rcases List.mem_append.mp hk with hin | hin
  · exact ((List.pairwise_append.mp hseen).2.2 k hin last (by simp)).trans hlast
  · rwa [List.mem_singleton.mp hin]

/-- Where the weights of distinct keys fit in a `u64` together, the check of the
addition never fires: after the keys `seen`, the loop goes on as the unbounded one. -/
theorem verifyLoop_run_eq_unbounded {answered : t.PubKey → UInt64}
    (hbound : ∀ keys : List t.PubKey, keys.Pairwise (· < ·) →
      weightSum (keys.map answered) < 2 ^ 64) (envelope : Bytes) :
    ∀ (sigs : List Bytes) (keys seen : List t.PubKey) (total : UInt64) (st : σ),
      seen.Pairwise (· < ·) → total.toNat = weightSum (seen.map answered) →
      Fits
        ((verifyLoop p t envelope sigs (keys.map BytesN.toArray) (keys.map answered)
          seen.getLast? total).run st)
        ((unboundedLoop p t envelope sigs (keys.map BytesN.toArray) (keys.map answered)
          seen.getLast? (weightSum (seen.map answered))).run st) := by
  -- on the signatures; the keys so far and their weight are general
  intro sigs
  induction sigs with
  | nil =>
      intro keys seen total st hseen htotal
      refine ⟨hbound seen hseen, ?_⟩
      rw [← htotal, UInt64.ofNat_toNat]
      rfl
  | cons sig sigs ih =>
      intro keys seen total st hseen htotal
      rw [verifyLoop, unboundedLoop]
      refine Fits.bind fun sig st _ => Fits.bind fun key st hkey => ?_
      refine Fits.bind fun _ st horder => Fits.bind fun _ st _ => ?_
      obtain ⟨horder, -⟩ := rejectIf_run_eq_ok.mp horder
      obtain ⟨hdecode, -⟩ := expect_run_eq_ok.mp hkey
      refine Fits.bind fun weight st hweight => Fits.bind fun _ st _ => ?_
      obtain ⟨hanswered, -⟩ := expect_run_eq_ok.mp hweight
      cases keys with
      | nil => cases hanswered
      | cons key' keys =>
          rw [List.map_cons, List.head?_cons, Option.bind_some, BytesN.ofBytes?_toArray,
            Option.some.injEq] at hdecode
          rw [List.map_cons, List.head?_cons, Option.some.injEq] at hanswered
          subst hdecode hanswered
          -- the keys so far and this one are distinct, so their weights fit together
          have hascending := pairwise_append_of_not_any hseen horder
          have hfits := hbound _ hascending
          have hsum : weightSum ((seen ++ [key']).map answered) =
              weightSum (seen.map answered) + (answered key').toNat := by
            rw [List.map_append, List.map_singleton, weightSum_append_singleton]
          have hadd : checkedAdd total (answered key') = some (total + answered key') := by
            rw [checkedAdd, if_pos (by omega)]
          have htotal' : (total + answered key').toNat =
              weightSum ((seen ++ [key']).map answered) := by
            rw [toNat_add_of_lt (by omega), htotal, hsum]
          have hrest := ih keys (seen ++ [key']) (total + answered key') st hascending htotal'
          rw [List.getLast?_concat, hsum] at hrest
          rw [hadd, StateT.run_bind, run_expect_some, ok_bind]
          exact hrest

/-! ## Every reachable state -/

/-- The arithmetic of a verdict on a Security contract never fails, and never rounds
but in its one division. -/
structure DecisionArithmetic (s : Security.Storage t) : Prop where
  threshold : 0 < s.threshold.numerator.toNat ∧
    s.threshold.numerator.toNat ≤ s.threshold.denominator.toNat
  product : ∀ total : UInt64, total.toNat * s.threshold.numerator.toNat < 2 ^ 128
  quotient : ∀ total : UInt64,
    total.toNat * s.threshold.numerator.toNat / s.threshold.denominator.toNat ≤ total.toNat
  required : ∀ total : UInt64, ∃ required, s.threshold.required total = some required ∧
    required.toNat = total.toNat * s.threshold.numerator.toNat / s.threshold.denominator.toNat
  requiredWeight : ∃ required, Security.requiredWeight s = some required ∧
    required.toNat ≤ s.getTotalWeight.toNat
  requiredWeightAt : ∀ r, ∃ total required, s.getTotalWeightAt r = some total ∧
    Security.requiredWeightAt s r = some required ∧ required.toNat ≤ total.toNat
  weights : ∀ (r : ℕ) (keys : List t.PubKey) (weights : List UInt64), keys.Pairwise (· < ·) →
    s.getSignerWeightsAt keys r = some weights → weightSum weights < 2 ^ 64
  loop : ∀ (p : Platform) (σ : Type) (st : σ) (envelope : Bytes) (sigs : List Bytes)
    (keys : List t.PubKey) (r : ℕ) (weights : List UInt64),
    s.getSignerWeightsAt keys r = some weights →
    Fits ((verifyLoop p t envelope sigs (keys.map BytesN.toArray) weights none 0).run st)
      ((unboundedLoop p t envelope sigs (keys.map BytesN.toArray) weights none 0).run st)

/-- In every reachable state, for every reference block and every list of keys. -/
theorem decision_arithmetic (hreach : Reaches J s L) : DecisionArithmetic s := by
  have h : Represents J L s := hreach.represents
  have hquotient : ∀ total : UInt64,
      total.toNat * s.threshold.numerator.toNat / s.threshold.denominator.toNat ≤
        total.toNat := by
    intro total
    refine Nat.div_le_of_le_mul ?_
    calc total.toNat * s.threshold.numerator.toNat
        ≤ total.toNat * s.threshold.denominator.toNat := Nat.mul_le_mul_left _ h.threshold.2
      _ = s.threshold.denominator.toNat * total.toNat := Nat.mul_comm _ _
  have hrequired : ∀ total : UInt64, ∃ required, s.threshold.required total = some required ∧
      required.toNat =
        total.toNat * s.threshold.numerator.toNat / s.threshold.denominator.toNat :=
    fun total => ⟨_, h.required_eq total, h.toNat_required total⟩
  constructor
  case threshold => exact h.threshold
  case product =>
    intro total
    calc total.toNat * s.threshold.numerator.toNat
        < 2 ^ 64 * 2 ^ 64 := Nat.mul_lt_mul'' total.toNat_lt s.threshold.numerator.toNat_lt
      _ = 2 ^ 128 := rfl
  case quotient => exact hquotient
  case required => exact hrequired
  case requiredWeight =>
    obtain ⟨required, heq, hvalue⟩ := hrequired s.getTotalWeight
    exact ⟨required, heq, hvalue ▸ hquotient s.getTotalWeight⟩
  case requiredWeightAt =>
    intro r
    obtain ⟨total, htotal⟩ := Option.isSome_iff_exists.mp (h.queries_return.2.1 r).1
    obtain ⟨required, heq, hvalue⟩ := hrequired total
    refine ⟨total, required, htotal, ?_, hvalue ▸ hquotient total⟩
    rw [Security.requiredWeightAt, htotal, Option.bind_some, heq]
  case weights =>
    intro r keys weights hascending hweights
    rw [h.getSignerWeightsAt_answered, Option.some.injEq] at hweights
    rw [← hweights]
    exact h.weightSum_answered_lt r hascending
  case loop =>
    intro p σ st envelope sigs keys r weights hweights
    rw [h.getSignerWeightsAt_answered, Option.some.injEq] at hweights
    rw [← hweights]
    exact verifyLoop_run_eq_unbounded (fun keys => h.weightSum_answered_lt r) envelope sigs keys []
      0 st List.Pairwise.nil rfl

theorem decision_arithmetic_sample :
    weightSum [1, 1] < 2 ^ 64 ∧ DecisionArithmetic twoSignersState :=
  ⟨(decision_arithmetic twoSigners_reaches).weights 100 [Sample.lowKey, Sample.highKey] [1, 1]
    (by decide) (by decide), decision_arithmetic twoSigners_reaches⟩

end WarpDrive
