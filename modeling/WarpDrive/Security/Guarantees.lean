import WarpDrive.Platform
import WarpDrive.Security.Invariant

/-!
# What the Security contracts guarantee

The consequences of the invariant for a caller: point-in-time queries answer
with the registry that was in force (`Represents.getSignerWeightAt_eq`,
`Represents.getTotalWeightAt_eq`) or fail to the default value, no query panics,
and of all the arithmetic only the checked addition of `add_signer` can fail.
-/

namespace WarpDrive.Security

open VecHistory

variable {t : VerificationType} {J : List Invocation} {L r : ℕ} {s : Storage t}

/-- The fraction of a total that a threshold asks for, rounded down. -/
def Threshold.quota (threshold : Threshold) (total : ℕ) : ℕ :=
  total * threshold.numerator.toNat / threshold.denominator.toNat

/-- The quota is the fraction of the total, rounded down: what reaches it is less
than one unit of weight short of the fraction. -/
theorem Threshold.lt_of_quota_le {threshold : Threshold} {total weight : ℕ}
    (hpos : 0 < threshold.denominator.toNat) (h : threshold.quota total ≤ weight) :
    total * threshold.numerator.toNat < (weight + 1) * threshold.denominator.toNat :=
  (Nat.div_lt_iff_lt_mul hpos).mp (Nat.lt_succ_of_le h)

theorem Threshold.le_of_quota_le {threshold : Threshold} {total weight : ℕ}
    (hdvd : threshold.denominator.toNat ∣ total * threshold.numerator.toNat)
    (h : threshold.quota total ≤ weight) :
    total * threshold.numerator.toNat ≤ weight * threshold.denominator.toNat :=
  calc total * threshold.numerator.toNat
      = threshold.quota total * threshold.denominator.toNat := (Nat.div_mul_cancel hdvd).symm
    _ ≤ weight * threshold.denominator.toNat := Nat.mul_le_mul_right _ h

/-- The two thresholds are the same fraction. -/
def Threshold.Same (threshold threshold' : Threshold) : Prop :=
  threshold.numerator.toNat * threshold'.denominator.toNat =
    threshold'.numerator.toNat * threshold.denominator.toNat

instance (threshold threshold' : Threshold) : Decidable (threshold.Same threshold') :=
  inferInstanceAs (Decidable (_ = _))

/-- Equal fractions ask for the same of every total. -/
theorem Threshold.Same.quota_eq {threshold threshold' : Threshold}
    (h : threshold.Same threshold') (hpos : 0 < threshold.denominator.toNat)
    (hpos' : 0 < threshold'.denominator.toNat) (total : ℕ) :
    threshold.quota total = threshold'.quota total := by
  have hcross : total * threshold.numerator.toNat * threshold'.denominator.toNat =
      total * threshold'.numerator.toNat * threshold.denominator.toNat := by
    rw [Nat.mul_assoc, h, Nat.mul_assoc]
  calc threshold.quota total
      = total * threshold.numerator.toNat * threshold'.denominator.toNat /
          (threshold.denominator.toNat * threshold'.denominator.toNat) :=
        (Nat.mul_div_mul_right _ _ hpos').symm
    _ = total * threshold'.numerator.toNat * threshold.denominator.toNat /
          (threshold'.denominator.toNat * threshold.denominator.toNat) := by
        rw [hcross, Nat.mul_comm threshold.denominator.toNat]
    _ = threshold'.quota total := Nat.mul_div_mul_right _ _ hpos

/-! ## Point-in-time queries -/

/-- The weights of a list of keys are looked up one by one. -/
theorem Storage.getSignerWeightsAt_eq_some {keys : List t.PubKey} {weights : List UInt64} :
    s.getSignerWeightsAt keys r = some weights ↔
      List.Forall₂ (fun key weight => s.getSignerWeightAt key r = some weight) keys weights := by
  induction keys generalizing weights with
  | nil =>
      rw [List.forall₂_nil_left_iff]
      exact ⟨fun h => (Option.some.inj h).symm, fun h => h ▸ rfl⟩
  | cons key keys ih =>
      have hcons : s.getSignerWeightsAt (key :: keys) r =
          (s.getSignerWeightAt key r).bind fun weight =>
            (s.getSignerWeightsAt keys r).bind fun rest => some (weight :: rest) :=
        List.mapM_cons
      simp only [hcons, Option.bind_eq_some_iff, Option.some.injEq, List.forall₂_cons_left_iff]
      constructor
      · rintro ⟨weight, hweight, rest, hrest, rfl⟩
        exact ⟨weight, rest, hweight, ih.mp hrest, rfl⟩
      · rintro ⟨weight, rest, hweight, hrest, rfl⟩
        exact ⟨weight, hweight, rest, ih.mpr hrest, rfl⟩

namespace Represents

theorem getSignerWeightAt_eq (h : Represents J L s) (key : t.PubKey)
    (hwindow : L - historyCutoff ≤ r) :
    s.getSignerWeightAt key r = some (registryAt t J r key) :=
  (h.signers key).lookupAt_eq hwindow

theorem getTotalWeightAt_eq (h : Represents J L s) (hwindow : L - historyCutoff ≤ r) :
    s.getTotalWeightAt r = some (.ofNat (totalWeight (registryAt t J r))) :=
  h.total.lookupAt_eq hwindow

/-- Outside the window, a query is exact or answers zero. -/
theorem getSignerWeightAt_cases (h : Represents J L s) (key : t.PubKey) (r : ℕ) :
    s.getSignerWeightAt key r = some (registryAt t J r key) ∨ s.getSignerWeightAt key r = some 0 :=
  (h.signers key).lookupAt_cases r

theorem getTotalWeightAt_cases (h : Represents J L s) (r : ℕ) :
    s.getTotalWeightAt r = some (.ofNat (totalWeight (registryAt t J r))) ∨
      s.getTotalWeightAt r = some 0 :=
  h.total.lookupAt_cases r

theorem toNat_totalWeightAt (h : Represents J L s) (r : ℕ) :
    (UInt64.ofNat (totalWeight (registryAt t J r))).toNat = totalWeight (registryAt t J r) := by
  rw [UInt64.toNat_ofNat', Nat.mod_eq_of_lt (h.bounded r)]

/-- From the current ledger on, the current weights are in force. -/
theorem getSignerWeightAt_latest (h : Represents J L s) (key : t.PubKey) (hle : L ≤ r) :
    s.getSignerWeightAt key r = some ((s.getSignerWeight key).getD 0) := by
  rw [h.getSignerWeightAt_eq key ((Nat.sub_le _ _).trans hle), (h.signers key).eq_latest hle,
    Storage.getD_getSignerWeight, Storage.weight]

theorem getTotalWeightAt_latest (h : Represents J L s) (hle : L ≤ r) :
    s.getTotalWeightAt r = some s.getTotalWeight := by
  rw [h.getTotalWeightAt_eq ((Nat.sub_le _ _).trans hle), Storage.getTotalWeight,
    h.total.eq_latest hle]

/-- In the window, a list of keys is answered with the registry. -/
theorem getSignerWeightsAt_eq (h : Represents J L s) (keys : List t.PubKey)
    (hwindow : L - historyCutoff ≤ r) :
    s.getSignerWeightsAt keys r = some (keys.map (registryAt t J r)) := by
  rw [Storage.getSignerWeightsAt_eq_some, List.forall₂_map_right_iff, List.forall₂_same]
  exact fun key _ => h.getSignerWeightAt_eq key hwindow

/-- Weights that are all non-zero are exact, however old the reference block is. -/
theorem getSignerWeightsAt_exact (h : Represents J L s) {keys : List t.PubKey}
    {weights : List UInt64} (hweights : s.getSignerWeightsAt keys r = some weights)
    (hne : ∀ weight ∈ weights, weight ≠ 0) : weights = keys.map (registryAt t J r) := by
  rw [Storage.getSignerWeightsAt_eq_some] at hweights
  induction hweights with
  | nil => rfl
  | @cons key weight keys weights hweight _ ih =>
      obtain ⟨hhead, htail⟩ := List.forall_mem_cons.mp hne
      have hexact : weight = registryAt t J r key := by
        -- a query outside the window answers zero, which is excluded
        rcases h.getSignerWeightAt_cases key r with heq | hzero
        · exact Option.some.inj (hweight.symm.trans heq)
        · exact absurd (Option.some.inj (hweight.symm.trans hzero)) hhead
      rw [List.map_cons, ← hexact, ← ih htail]

/-! ## The required weight -/

/-- The denominator is not zero. -/
theorem required_eq (h : Represents J L s) (total : UInt64) :
    s.threshold.required total = some (.ofNat
      (total.toNat * s.threshold.numerator.toNat / s.threshold.denominator.toNat)) := by
  have hne : s.threshold.denominator ≠ 0 := by
    intro hzero
    have hthreshold := h.threshold
    rw [hzero] at hthreshold
    exact absurd (hthreshold.1.trans_le hthreshold.2) (by decide)
  rw [Threshold.required, if_neg hne]

/-- A fraction of the total is no more than the total, so the cast loses nothing. -/
theorem toNat_required (h : Represents J L s) (total : UInt64) :
    (UInt64.ofNat
      (total.toNat * s.threshold.numerator.toNat / s.threshold.denominator.toNat)).toNat =
      total.toNat * s.threshold.numerator.toNat / s.threshold.denominator.toNat := by
  obtain ⟨hpos, hle⟩ := h.threshold
  have hproduct : total.toNat * s.threshold.numerator.toNat ≤
      s.threshold.denominator.toNat * total.toNat := by
    rw [Nat.mul_comm total.toNat]
    exact Nat.mul_le_mul_right _ hle
  have hquotient : total.toNat * s.threshold.numerator.toNat / s.threshold.denominator.toNat ≤
      total.toNat := Nat.div_le_of_le_mul hproduct
  rw [UInt64.toNat_ofNat', Nat.mod_eq_of_lt (hquotient.trans_lt total.toNat_lt)]

/-- The required weight, at a reference block in the window. -/
theorem requiredWeightAt_eq (h : Represents J L s) (hwindow : L - historyCutoff ≤ r) :
    requiredWeightAt s r = some (.ofNat (s.threshold.quota (totalWeight (registryAt t J r)))) := by
  rw [requiredWeightAt, h.getTotalWeightAt_eq hwindow, Option.bind_some, h.required_eq,
    h.toNat_totalWeightAt]
  rfl

theorem toNat_requiredWeightAt (h : Represents J L s) (r : ℕ) :
    (UInt64.ofNat (s.threshold.quota (totalWeight (registryAt t J r)))).toNat =
      s.threshold.quota (totalWeight (registryAt t J r)) := by
  have hcast := h.toNat_required (.ofNat (totalWeight (registryAt t J r)))
  rwa [h.toNat_totalWeightAt] at hcast

/-- A required weight that is not zero is exact, however old the reference block is. -/
theorem requiredWeightAt_exact (h : Represents J L s) {required : UInt64}
    (hrequired : requiredWeightAt s r = some required) (hne : required ≠ 0) :
    s.getTotalWeightAt r = some (.ofNat (totalWeight (registryAt t J r))) ∧
      required.toNat = s.threshold.quota (totalWeight (registryAt t J r)) := by
  rw [requiredWeightAt] at hrequired
  rcases h.getTotalWeightAt_cases r with hexact | hzero
  · rw [hexact, Option.bind_some, h.required_eq, h.toNat_totalWeightAt] at hrequired
    exact ⟨hexact, by rw [← Option.some.inj hrequired]; exact h.toNat_requiredWeightAt r⟩
  · -- a fraction of the default is the default
    rw [hzero, Option.bind_some, h.required_eq] at hrequired
    exact absurd (Option.some.inj hrequired).symm (by simpa using hne)

/-! ## The operations -/

/-- The total is the sum of the latest weights over the list of signers. -/
theorem getTotalWeight_eq_sum (h : Represents J L s) :
    s.getTotalWeight.toNat = (s.allSigners.map fun key => (s.weight key).toNat).sum := by
  rw [h.getTotalWeight_eq, totalWeight,
    Totals.total_eq_sum_map (h.sorted.imp ne_of_lt) h.mem]
  simp only [h.weight_eq]

/-- The arithmetic of `add_signer`: the subtraction is safe, the addition is checked. -/
theorem totalAfterAdd_eq_ite (h : Represents J L s) (key : t.PubKey) (weight : UInt64) :
    s.totalAfterAdd key weight =
      if 2 ^ 64 ≤ s.getTotalWeight.toNat - (s.weight key).toNat + weight.toNat then none
      else some (s.getTotalWeight - s.weight key + weight) := by
  have hle := h.weight_le_total key
  have hsub := toNat_sub_of_le hle
  unfold Storage.totalAfterAdd checkedSub checkedAdd
  rw [if_pos hle, Option.bind_some, hsub]
  by_cases hoverflow : 2 ^ 64 ≤ s.getTotalWeight.toNat - (s.weight key).toNat + weight.toNat
  · rw [if_pos hoverflow, if_neg (not_lt_of_ge hoverflow)]
  · rw [if_neg hoverflow, if_pos (lt_of_not_ge hoverflow)]

end Represents

theorem call_addSigner_toArray (env : Env) (key : t.PubKey) (weight : UInt64) :
    call env (.addSigner key.toArray weight) = (do addSigner env key weight; return .void) := by
  rw [call_addSigner, BytesN.ofBytes?_toArray]
  rfl

theorem call_removeSigner_toArray (env : Env) (key : t.PubKey) :
    call env (.removeSigner key.toArray) = (do removeSigner env key; return .void) := by
  rw [call_removeSigner, BytesN.ofBytes?_toArray]
  rfl

namespace Represents

/-- An authorized `add_signer` traps exactly when the total would overflow. -/
theorem settle_addSigner (h : Represents J L s) {env : Env} (key : t.PubKey) {weight : UInt64}
    (hauth : env.authorized s.base.admin = true) (hweight : weight ≠ 0) :
    settle (entryPoint (call env (.addSigner key.toArray weight)) s) s =
      if 2 ^ 64 ≤ s.getTotalWeight.toNat - (s.weight key).toNat + weight.toNat then
        (.error .abort, s)
      else (.ok .void, (s.afterAdd env.ledger key weight
        (s.getTotalWeight - s.weight key + weight)).emit (.signerAdded key.toArray weight)) := by
  rw [call_addSigner_toArray, settle_void, addSigner_run, if_pos hauth, if_neg hweight,
    h.totalAfterAdd_eq_ite]
  by_cases hoverflow : 2 ^ 64 ≤ s.getTotalWeight.toNat - (s.weight key).toNat + weight.toNat
  · rw [if_pos hoverflow, if_pos hoverflow]
    rfl
  · rw [if_neg hoverflow, if_neg hoverflow]

/-- An authorized `remove_signer` always returns. -/
theorem settle_removeSigner (h : Represents J L s) {env : Env} (key : t.PubKey)
    (hauth : env.authorized s.base.admin = true) :
    ∃ s', settle (entryPoint (call env (.removeSigner key.toArray)) s) s = (.ok .void, s') := by
  rw [call_removeSigner_toArray, settle_void, removeSigner_run, if_pos hauth, h.totalAfterRemove_eq]
  by_cases hunknown : s.weight key = 0
  · rw [if_pos hunknown]
    exact ⟨_, rfl⟩
  · rw [if_neg hunknown]
    exact ⟨_, rfl⟩

end Represents

/-- An authorized `set_threshold` returns, or reports what is wrong with the threshold. -/
theorem settle_setThreshold {env : Env} (numerator denominator : UInt64)
    (hauth : env.authorized s.base.admin = true) :
    settle (entryPoint (call env (.setThreshold numerator denominator)) s) s =
      match checkThreshold numerator denominator with
      | .error e => (.error (.contract (ContractError.code e)), s)
      | .ok () => (.ok .void, { s with threshold := ⟨numerator, denominator⟩ }.emit
          (.thresholdSet numerator denominator)) := by
  rw [call_setThreshold, settle_void, setThreshold_run, if_pos hauth]
  cases checkThreshold numerator denominator <;> rfl

/-! ## The registry invariant -/

/-- The list of signers is the sorted support of the latest weights, and the
recorded total is their sum.  So the subtractions never underflow, the sorted
insertion and the removal with its early exit find the right slot, no query
panics, and the only arithmetic that fails is the checked addition of
`add_signer`, which leaves the state as it was. -/
structure RegistryInvariant (s : Storage t) : Prop where
  sorted : s.allSigners.Pairwise (· < ·)
  mem_iff : ∀ key, key ∈ s.allSigners ↔ s.weight key ≠ 0
  total_eq_sum : s.getTotalWeight.toNat = (s.allSigners.map fun key => (s.weight key).toNat).sum
  no_underflow : ∀ key, (s.weight key).toNat ≤ s.getTotalWeight.toNat
  insertion : ∀ key, (insertAllSigners key s.allSigners).Pairwise (· < ·) ∧
    ∀ k, k ∈ insertAllSigners key s.allSigners ↔ k = key ∨ k ∈ s.allSigners
  removal : ∀ key, (removeAllSigners key s.allSigners).Pairwise (· < ·) ∧
    ∀ k, k ∈ removeAllSigners key s.allSigners ↔ k ∈ s.allSigners ∧ k ≠ key
  add_signer : ∀ (env : Env) (key : t.PubKey) (weight : UInt64),
    env.authorized s.base.admin = true → weight ≠ 0 →
    settle (entryPoint (call env (.addSigner key.toArray weight)) s) s =
      if 2 ^ 64 ≤ s.getTotalWeight.toNat - (s.weight key).toNat + weight.toNat then
        (.error .abort, s)
      else (.ok .void, (s.afterAdd env.ledger key weight
        (s.getTotalWeight - s.weight key + weight)).emit (.signerAdded key.toArray weight))
  remove_signer : ∀ (env : Env) (key : t.PubKey), env.authorized s.base.admin = true →
    ∃ s', settle (entryPoint (call env (.removeSigner key.toArray)) s) s = (.ok .void, s')
  set_threshold : ∀ (env : Env) (n d : UInt64), env.authorized s.base.admin = true →
    (∃ s', settle (entryPoint (call env (.setThreshold n d)) s) s = (.ok .void, s')) ∨
      ∃ e : SecurityError, settle (entryPoint (call env (.setThreshold n d)) s) s =
        (.error (.contract (ContractError.code e)), s)
  queries : (∀ key r, (s.getSignerWeightAt key r).isSome) ∧
    (∀ r, (s.getTotalWeightAt r).isSome ∧ (requiredWeightAt s r).isSome) ∧
    (requiredWeight s).isSome

theorem Represents.queries_return (h : Represents J L s) :
    (∀ key r, (s.getSignerWeightAt key r).isSome) ∧
      (∀ r, (s.getTotalWeightAt r).isSome ∧ (requiredWeightAt s r).isSome) ∧
      (requiredWeight s).isSome := by
  refine ⟨?_, ?_, ?_⟩
  · intro key r
    rcases h.getSignerWeightAt_cases key r with hexact | hzero
    · rw [hexact]
      rfl
    · rw [hzero]
      rfl
  · intro r
    unfold requiredWeightAt
    rcases h.getTotalWeightAt_cases r with hexact | hzero
    · rw [hexact, Option.bind_some, h.required_eq]
      exact ⟨rfl, rfl⟩
    · rw [hzero, Option.bind_some, h.required_eq]
      exact ⟨rfl, rfl⟩
  · rw [requiredWeight, h.required_eq]
    rfl

/-- Every reachable state satisfies the registry invariant. -/
theorem registry_invariant (hreach : Reaches J s L) : RegistryInvariant s := by
  have h : Represents J L s := hreach.represents
  constructor
  case sorted => exact h.sorted
  case mem_iff =>
    intro key
    rw [h.mem, h.weight_eq]
  case total_eq_sum => exact h.getTotalWeight_eq_sum
  case no_underflow => exact h.weight_le_total
  case insertion =>
    intro key
    exact ⟨sorted_insertAllSigners key h.sorted, fun k => mem_insertAllSigners⟩
  case removal =>
    intro key
    exact ⟨sorted_removeAllSigners key h.sorted, fun k => mem_removeAllSigners h.sorted⟩
  case add_signer =>
    intro env key weight hauth hweight
    exact h.settle_addSigner key hauth hweight
  case remove_signer =>
    intro env key hauth
    exact h.settle_removeSigner key hauth
  case set_threshold =>
    intro env n d hauth
    rw [settle_setThreshold n d hauth]
    cases checkThreshold n d with
    | error e => exact Or.inr ⟨e, rfl⟩
    | ok u => exact Or.inl ⟨_, rfl⟩
  case queries => exact h.queries_return

/-! ## A run

Two signers are added, the weight of the first is raised 210 ledgers later, and
the second is removed.  The last two pushes prune the history of the total. -/

section Sample

def sampleKey (b : UInt8) : VerificationType.stellar.PubKey :=
  ⟨List.replicate 32 b, List.length_replicate⟩

def sampleInvocation (ledger : ℕ) (call : Call) : Invocation where
  env := { self := ⟨1⟩, invoker := none, ledger := ledger, signed := (· == ⟨0⟩) }
  call := call

def sampleHistory : List Invocation :=
  [sampleInvocation 10 (.addSigner (sampleKey 5).toArray 3),
    sampleInvocation 20 (.addSigner (sampleKey 4).toArray 4),
    sampleInvocation 220 (.addSigner (sampleKey 5).toArray 5),
    sampleInvocation 221 (.removeSigner (sampleKey 4).toArray)]

/-- The state after the calls `J`, in which a failed call changes nothing. -/
def after (J : List Invocation) (s : Storage t) : Storage t :=
  J.foldl (fun s inv => (settle (entryPoint (call inv.env inv.call) s) s).2) s

def sampleDeployment : Ed25519Security where
  base := .deployed Sample.zeroHash ⟨0⟩
  threshold := ⟨2, 3⟩
  allSigners := []
  signerWeightHist := fun _ => []
  totalWeightHist := []

theorem sample_reaches : Reaches sampleHistory (after sampleHistory sampleDeployment) 221 where
  run := by
    have hstart : Transition.Run Deployed Executes [] sampleDeployment :=
      .start ⟨_, _, 2, 3, rfl⟩
    exact (((hstart.snoc ⟨.void, rfl⟩).snoc ⟨.void, rfl⟩).snoc ⟨.void, rfl⟩).snoc ⟨.void, rfl⟩
  inOrder := by
    unfold InOrder
    decide
  upTo := by decide

theorem registry_invariant_sample :
    (after sampleHistory sampleDeployment).allSigners = [sampleKey 5] ∧
      (after sampleHistory sampleDeployment).getTotalWeight = 5 ∧
      RegistryInvariant (after sampleHistory sampleDeployment) :=
  ⟨by decide, by decide, registry_invariant sample_reaches⟩

end Sample

end WarpDrive.Security
