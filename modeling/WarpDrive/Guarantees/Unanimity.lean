import WarpDrive.Guarantees.Agreement

/-!
# When all signers sign

All keys that weigh something at a reference block carry its whole total
(`weightOf_eq_totalWeight`), and the quota is no more than the total.  So a bundle
signed by all of them passes, unless the quota is zero: `verify` refuses a required
weight of zero, whoever signed.  The quota is a quotient rounded down, so it is zero
where the total times the numerator is below the denominator: without any signer, and
also where the signers weigh too little for the fraction
(`unanimity_rounds_to_zero`).
-/

namespace WarpDrive

open Security Verification

variable {p : Platform} {t : VerificationType} {σ : Type} {J : List Invocation} {L r : ℕ}
  {s : Security.Storage t} {envelope : Bytes} {sigs : List Bytes} {keys : List t.PubKey}

/-! ## The whole registry -/

/-- The keys that weigh something carry the total. -/
theorem weightOf_eq_totalWeight (registry : t.PubKey →₀ UInt64)
    (hascending : keys.Pairwise (· < ·)) (hall : ∀ key, key ∈ keys ↔ registry key ≠ 0) :
    weightOf registry keys = totalWeight registry :=
  (Totals.total_eq_sum_map (hascending.imp ne_of_lt) hall).symm

/-- A quota is no more than the total it is a fraction of. -/
theorem Security.Represents.quota_le (h : Represents J L s) (total : ℕ) :
    s.threshold.quota total ≤ total := by
  apply Nat.div_le_of_le_mul
  calc total * s.threshold.numerator.toNat
      ≤ total * s.threshold.denominator.toNat := Nat.mul_le_mul_left _ h.threshold.2
    _ = s.threshold.denominator.toNat * total := Nat.mul_comm _ _

/-- The quota rounds down to zero below one unit of weight. -/
theorem Security.Represents.quota_pos_iff (h : Represents J L s) (total : ℕ) :
    0 < s.threshold.quota total ↔
      s.threshold.denominator.toNat ≤ total * s.threshold.numerator.toNat :=
  Nat.div_pos_iff.trans (and_iff_right (h.threshold.1.trans_le h.threshold.2))

/-- Signed by everyone registered, a bundle has a quorum, if the quota is not zero. -/
theorem Security.Represents.quorum_of_all (h : Represents J L s)
    (hascending : keys.Pairwise (· < ·)) (hall : ∀ key, key ∈ keys ↔ registryAt t J r key ≠ 0)
    (hne : keys ≠ []) (hvalid : List.Forall₂ (ValidBytes p t envelope) sigs keys)
    (hquota : 0 < s.threshold.quota (totalWeight (registryAt t J r))) :
    Quorum p s.threshold (registryAt t J r) envelope sigs keys := by
  have hlength : sigs.length = keys.length := hvalid.length_eq
  constructor
  case nonempty =>
    rintro rfl
    exact hne (List.length_eq_zero_iff.mp hlength.symm)
  case length => exact hlength
  case ascending => exact hascending
  case valid => exact hvalid
  case registered => exact fun key hkey => (hall key).mp hkey
  case required_pos => exact hquota
  case reached =>
    rw [weightOf_eq_totalWeight _ hascending hall]
    exact h.quota_le _

/-! ## Where the required weight of zero is reported -/

/-- Code that never ends in this error, as its caller sees it. -/
def Avoids {α : Type} (error : InvokeError) (m : Contract σ VerifyError α) : Prop :=
  ∀ s e, m.run s = .error e → e.toInvokeError ≠ error

namespace Avoids

variable {α β : Type} {error : InvokeError}

theorem pure (a : α) : Avoids error (pure a : Contract σ VerifyError α) := by
  intro s e h
  cases h

theorem expect (o : Option α) (hne : InvokeError.abort ≠ error) :
    Avoids error (expect o : Contract σ VerifyError α) := by
  intro s e h
  cases o with
  | some a => cases h
  | none =>
      cases h
      exact hne

theorem rejectIf (condition : Prop) [Decidable condition] {e : VerifyError}
    (hne : InvokeError.contract (ContractError.code e) ≠ error) :
    Avoids error (rejectIf condition e : Contract σ VerifyError Unit) := by
  intro s e' h
  rw [run_rejectIf] at h
  split at h
  · cases h
    exact hne
  · cases h

theorem bind {m : Contract σ VerifyError α} {f : α → Contract σ VerifyError β}
    (hm : Avoids error m) (hf : ∀ a, Avoids error (f a)) : Avoids error (m >>= f) := by
  intro s e h
  rw [StateT.run_bind] at h
  cases hrun : m.run s with
  | error e' =>
      rw [hrun] at h
      cases h
      exact hm s e hrun
  | ok result =>
      rw [hrun] at h
      exact hf result.1 result.2 e h

end Avoids

theorem avoids_checkSignature (sig : t.Signature) (key : t.PubKey) :
    Avoids (.contract 307) (checkSignature p t envelope sig key :
      Contract σ VerifyError Unit) := by
  cases t with
  | ethereum => exact .bind (.expect _ (by decide)) fun _ => .rejectIf _ (by decide)
  | stellar =>
      intro st e h
      simp only [checkSignature, verifyEd25519Prehashed] at h
      split at h
      · cases h
        decide
      · split at h
        · cases h
        · cases h
          decide

theorem avoids_verifyLoop (pubkeys : List Bytes) (weights : List UInt64)
    (prev : Option t.PubKey) (total : UInt64) :
    Avoids (.contract 307) (verifyLoop p t envelope sigs pubkeys weights prev total :
      Contract σ VerifyError UInt64) := by
  induction sigs generalizing pubkeys weights prev total with
  | nil => exact .pure _
  | cons sig sigs ih =>
      refine .bind (.expect _ (by decide)) fun sig => .bind (.expect _ (by decide)) fun key => ?_
      refine .bind (.rejectIf _ (by decide)) fun _ => .bind (avoids_checkSignature _ _) fun _ => ?_
      refine .bind (.expect _ (by decide)) fun weight => .bind (.rejectIf _ (by decide)) fun _ => ?_
      exact .bind (.expect _ (by decide)) fun subtotal => ih _ _ _ _

theorem ok_of_decoded {α : Type} {reply : Reply} {decode : Val → Option α} {a : α}
    (h : reply.toOption.bind decode = some a) : ∃ v, reply = .ok v ∧ decode v = some a := by
  cases reply with
  | error e => cases h
  | ok v => exact ⟨v, rfl, h⟩

/-- A Verification contract reports a required weight of zero only where the Security
contract answered zero. -/
theorem verify_run_zeroRequiredWeight {ω : Type} {host : Host ω} {pubkeys : List Bytes}
    {frame : Frame Verification.Storage ω} {e : Failure VerifyError}
    (h : (verify p host t envelope sigs pubkeys r).run frame = .error e)
    (he : e.toInvokeError = .contract 307) :
    ∃ weights, (host.invoke frame.storage.securityContract (.getSignerWeightsAt pubkeys r)
        frame.world).1 = .ok (.u64s weights) ∧
      (host.invoke frame.storage.securityContract (.requiredWeightAt r)
        (host.invoke frame.storage.securityContract (.getSignerWeightsAt pubkeys r)
          frame.world).2).1 = .ok (.u64 0) := by
  have hrest : ∀ weights required, Avoids (.contract 307) (do
      let totalWeight ← verifyLoop p t envelope sigs pubkeys weights none 0
      rejectIf (totalWeight < required) VerifyError.insufficientWeight :
      Contract (Frame Verification.Storage ω) VerifyError Unit) := fun weights required =>
    .bind (avoids_verifyLoop _ _ _ _) fun _ => .rejectIf _ (by decide)
  unfold verify at h
  simp only [StateT.run_bind (rejectIf _ _), run_rejectIf] at h
  by_cases hempty : sigs.isEmpty
  · simp only [if_pos hempty] at h
    cases h
    cases he
  by_cases hlength : sigs.length ≠ pubkeys.length
  · simp only [if_neg hempty, if_pos hlength] at h
    cases h
    cases he
  simp only [if_neg hempty, if_neg hlength, ok_bind, bind_get_run, bind_invokeClient_run] at h
  -- a query that fails is a trap, not a required weight of zero
  cases hweights : (host.invoke frame.storage.securityContract (.getSignerWeightsAt pubkeys r)
      frame.world).1.toOption.bind Val.toU64s? with
  | none =>
      simp only [hweights] at h
      cases h
      cases he
  | some weights =>
      cases hrequired : (host.invoke frame.storage.securityContract (.requiredWeightAt r)
          (host.invoke frame.storage.securityContract (.getSignerWeightsAt pubkeys r)
            frame.world).2).1.toOption.bind Val.toU64? with
      | none =>
          simp only [hweights, hrequired] at h
          cases h
          cases he
      | some required =>
          obtain ⟨v, hreply, hdecode⟩ := ok_of_decoded hweights
          obtain ⟨v', hreply', hdecode'⟩ := ok_of_decoded hrequired
          by_cases hzero : required = 0
          · rw [Val.toU64s?_eq_some] at hdecode
            rw [Val.toU64?_eq_some, hzero] at hdecode'
            exact ⟨weights, hdecode ▸ hreply, hdecode' ▸ hreply'⟩
          · simp only [hweights, hrequired] at h
            rw [StateT.run_bind, run_rejectIf, if_neg hzero, ok_bind] at h
            exact absurd he (hrest weights required _ _ h)

section Verify

variable {tx : Transaction} {depth : ℕ} {stack : List Address} {w : World} {a : Address}
  {v : Verification.Storage}

theorem requiredWeightAt_of_zeroRequiredWeight {pubkeys : List Bytes}
    (hverification : w.contracts a = some (.verification t v))
    (hsecurity : w.contracts v.securityContract = some (.security t s))
    (h : (invoke p tx depth stack a (.verify envelope sigs pubkeys r) w).1 =
      .error (.contract 307)) :
    requiredWeightAt s r = some 0 := by
  cases depth with
  | zero => cases h
  | succ below =>
      by_cases hstack : a ∈ stack
      · rw [invoke, if_pos hstack] at h
        cases h
      rw [invoke_fst _ hstack hverification, dispatch, asInstance_map_fst] at h
      have hcall : Verification.call p (hostBelow p tx below (a :: stack)) t
          (tx.env stack a (.verify envelope sigs pubkeys r)) (.verify envelope sigs pubkeys r) =
            (do
              verify p (hostBelow p tx below (a :: stack)) t envelope sigs pubkeys r
              return .void) := rfl
      rw [hcall, entryPoint, StateT.run_bind] at h
      cases hrun : (verify p (hostBelow p tx below (a :: stack)) t envelope sigs pubkeys r).run
          ⟨v, w⟩ with
      | ok result =>
          rw [hrun] at h
          cases h
      | error e =>
          rw [hrun] at h
          obtain ⟨weights, hweights, hrequired⟩ :=
            verify_run_zeroRequiredWeight hrun (Except.error.inj h)
          -- the first query left the contracts as they were
          obtain ⟨-, hcontracts⟩ :=
            eq_some_of_invoke_view hsecurity (call_getSignerWeightsAt _ pubkeys r) hweights
          obtain ⟨hvalue, -⟩ := eq_some_of_invoke_view (hcontracts ▸ hsecurity)
            (call_requiredWeightAt _ r) hrequired
          obtain ⟨required, hrequired, heq⟩ := Option.map_eq_some_iff.mp hvalue
          cases heq
          exact hrequired

/-- In every reachable state and for every reference block in the window, a bundle
signed by all who weighed something passes, if one unit of weight is no more than the
threshold's fraction of the total.  Otherwise the required weight rounds down to
zero; that is the only way to the error for it. -/
theorem unanimity (hreach : Reaches J s L) (hage : L ≤ r + 200)
    (hverification : w.contracts a = some (.verification t v))
    (hsecurity : w.contracts v.securityContract = some (.security t s)) :
    (s.listSigners.map Prod.fst).Pairwise (· < ·) ∧
      (∀ (tx : Transaction) (depth : ℕ) (stack : List Address) (envelope : Bytes)
        (sigs : List Bytes) (keys : List t.PubKey),
        a ∉ stack → v.securityContract ∉ stack →
        keys.Pairwise (· < ·) → (∀ key, key ∈ keys ↔ registryAt t J r key ≠ 0) → keys ≠ [] →
        List.Forall₂ (ValidBytes p t envelope) sigs keys →
        verifyReply p tx depth stack a w envelope r sigs keys =
          if s.threshold.denominator.toNat ≤
              totalWeight (registryAt t J r) * s.threshold.numerator.toNat then
            .ok .void
          else .error (.contract 307)) ∧
      ∀ (tx : Transaction) (depth : ℕ) (stack : List Address) (envelope : Bytes)
        (sigs pubkeys : List Bytes),
        (invoke p tx depth stack a (.verify envelope sigs pubkeys r) w).1 =
          .error (.contract 307) →
        totalWeight (registryAt t J r) * s.threshold.numerator.toNat <
          s.threshold.denominator.toNat := by
  have h : Represents J L s := hreach.represents
  have hwindow : L - historyCutoff ≤ r := by
    unfold historyCutoff
    omega
  have hrequired := h.requiredWeightAt_eq hwindow
  refine ⟨?_, ?_, ?_⟩
  · rw [List.pairwise_map]
    apply h.sorted.filterMap _
    intro key key' hlt b hb b' hb'
    obtain ⟨weight, -, rfl⟩ := Option.map_eq_some_iff.mp hb
    obtain ⟨weight', -, rfl⟩ := Option.map_eq_some_iff.mp hb'
    exact hlt
  · intro tx depth stack envelope sigs keys hstack hbelow hascending hall hne hvalid
    by_cases hquota : 0 < s.threshold.quota (totalWeight (registryAt t J r))
    · rw [if_pos ((h.quota_pos_iff _).mp hquota)]
      exact ((h.quorum_of_all hascending hall hne hvalid hquota).accepts h
        hwindow).invoke_verify hstack hbelow hverification hsecurity
    · rw [if_neg (mt (h.quota_pos_iff _).mpr hquota)]
      have hzero : s.threshold.quota (totalWeight (registryAt t J r)) = 0 := by omega
      have hsigs : sigs ≠ [] := by
        rintro rfl
        exact hne (List.length_eq_zero_iff.mp hvalid.length_eq.symm)
      rw [hzero] at hrequired
      obtain ⟨frame, hverdict⟩ := invoke_verify_eq (p := p) hstack hbelow hverification hsecurity
        hsigs hvalid.length_eq (h.getSignerWeightsAt_answered r keys) hrequired
      rw [hverdict]
      rfl
  · intro tx depth stack envelope sigs pubkeys herror
    rw [requiredWeightAt_of_zeroRequiredWeight hverification hsecurity herror,
      Option.some.injEq] at hrequired
    have hcast := h.toNat_requiredWeightAt r
    rw [← hrequired, UInt64.toNat_zero] at hcast
    have hpos := h.quota_pos_iff (totalWeight (registryAt t J r))
    omega

end Verify

/-! ## One signer and two

Two signers of weight 1 at a threshold of 2/3 need a weight of 1.  A single signer of
weight 1 would need 2/3, which is rounded down to zero. -/

section Sample

theorem unanimity_sample :
    verifyReply (t := .stellar) Sample.platform (unsignedAt 110) 98 [] ⟨2⟩
        (pairOf twoSignersState) Sample.envelopeBytes 100
        [Sample.lowSignature.toArray, Sample.highSignature.toArray]
        [Sample.lowKey, Sample.highKey] = .ok .void := by
  have hall : ∀ key : Ed25519PubKey, key ∈ [Sample.lowKey, Sample.highKey] ↔
      registryAt .stellar twoSigners 100 key ≠ 0 := by
    rw [registryAt_twoSigners]
    exact twoSigners_reaches.represents.mem
  have hverdict := (unanimity (p := Sample.platform) (w := pairOf twoSignersState) (r := 100)
    (a := ⟨2⟩) (v := Verification.construct Sample.zeroHash ⟨0⟩ ⟨1⟩) twoSigners_reaches
    (by decide) rfl rfl).2.1 (unsignedAt 110) 98 [] Sample.envelopeBytes
    [Sample.lowSignature.toArray, Sample.highSignature.toArray] [Sample.lowKey, Sample.highKey]
    List.not_mem_nil List.not_mem_nil (by decide) hall (by simp)
    (.cons validBytes_low (.cons validBytes_high .nil))
  rw [hverdict, totalWeight_twoSigners]
  rfl

def oneSigner : List Invocation :=
  [sampleInvocation 10 (.addSigner Sample.lowKey.toArray 1)]

def oneSignerState : Ed25519Security := after oneSigner sampleDeployment

theorem oneSigner_reaches : Reaches oneSigner oneSignerState 110 where
  run := by
    have hstart : Transition.Run Deployed Executes [] sampleDeployment :=
      .start ⟨_, _, 2, 3, rfl⟩
    exact hstart.snoc ⟨.void, rfl⟩
  inOrder := List.pairwise_singleton _ _
  upTo := by decide

/-- The only signer there is signed, and the bundle is refused for a required weight of
zero. -/
theorem unanimity_rounds_to_zero :
    Reaches oneSigner oneSignerState 110 ∧
      (∀ key : Ed25519PubKey, key ∈ [Sample.lowKey] ↔
        registryAt .stellar oneSigner 100 key ≠ 0) ∧
      List.Forall₂ (ValidBytes Sample.platform .stellar Sample.envelopeBytes)
        [Sample.lowSignature.toArray] [Sample.lowKey] ∧
      verifyReply (t := .stellar) Sample.platform (unsignedAt 110) 98 [] ⟨2⟩
        (pairOf oneSignerState) Sample.envelopeBytes 100 [Sample.lowSignature.toArray]
        [Sample.lowKey] = .error (.contract 307) := by
  refine ⟨oneSigner_reaches, ?_, .cons validBytes_low .nil, ?_⟩
  · rw [registryAt_eq_registry (by decide)]
    exact oneSigner_reaches.represents.mem
  · have hweights : oneSignerState.getSignerWeightsAt [Sample.lowKey] 100 = some [1] := by decide
    have hrequired : requiredWeightAt oneSignerState 100 = some 0 := by decide
    obtain ⟨frame, hverdict⟩ : ∃ frame : Frame Verification.Storage World,
        verifyReply (t := .stellar) Sample.platform (unsignedAt 110) 98 [] ⟨2⟩
          (pairOf oneSignerState) Sample.envelopeBytes 100 [Sample.lowSignature.toArray]
          [Sample.lowKey] = _ :=
      invoke_verify_eq (v := Verification.construct Sample.zeroHash ⟨0⟩ ⟨1⟩)
        List.not_mem_nil List.not_mem_nil rfl rfl (by simp) rfl hweights hrequired
    exact hverdict

end Sample

end WarpDrive
