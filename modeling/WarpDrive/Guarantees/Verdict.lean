import WarpDrive.Guarantees.Quorum

/-!
# The verdict on a past reference block

The weights and the total are checkpointed, the threshold is not: what
`required_weight_at` reports for a reference block `r` is the fraction in force
now of the total in force at `r`.  So the verdict on `r` is fixed by the
registry at `r` as long as no later `set_threshold` changes the fraction
(`verdict_stable`), and one that does can turn it over
(`verdict_changes_with_threshold`).
-/

namespace WarpDrive

open Security

variable {p : Platform} {t : VerificationType} {J₀ J₁ J₂ : List Invocation} {r L L₁ L₂ : ℕ}
  {s₀ s s₁ s₂ : Security.Storage t}

/-- The invocation keeps the fraction: a threshold it sets is the same fraction as
the one in `s₀`. -/
def KeepsFraction (s₀ : Security.Storage t) (inv : Invocation) : Prop :=
  ∀ n d, inv.call = .setThreshold n d → Threshold.Same ⟨n, d⟩ s₀.threshold

theorem same_threshold_of_path (hpath : Transition.Path Executes s₀ J₁ s)
    (hkeeps : ∀ inv ∈ J₁, KeepsFraction s₀ inv) : s.threshold.Same s₀.threshold := by
  refine hpath.preserves (motive := fun s => s.threshold.Same s₀.threshold) ?_ hkeeps rfl
  -- only `set_threshold` writes the threshold, and it keeps the fraction
  rintro s inv s' hkeep hsame ⟨v, hrun⟩
  rcases (call_effect hrun).threshold with heq | ⟨n, d, hcall, heq, -⟩
  · rwa [heq]
  · rw [heq]
    exact hkeep n d hcall

/-- In a later state, queries about `r` still answer with the registry at `r`, and the
required weight is still the one that was in force. -/
theorem answers_at (hreach : Reaches J₀ s₀ r) (hreach' : Reaches (J₀ ++ J₁) s L)
    (hpath : Transition.Path Executes s₀ J₁ s) (hlate : ∀ inv ∈ J₁, r < inv.env.ledger)
    (hkeeps : ∀ inv ∈ J₁, KeepsFraction s₀ inv) (hage : L ≤ r + 200) :
    (∀ keys, s.getSignerWeightsAt keys r = some (keys.map (registryAt t J₀ r))) ∧
      requiredWeightAt s r = requiredWeight s₀ := by
  have h₀ := hreach.represents
  have h := hreach'.represents
  have hwindow : L - historyCutoff ≤ r := by
    unfold historyCutoff
    omega
  have hregistry : registryAt t (J₀ ++ J₁) r = registryAt t J₀ r := registryAt_append_of_lt hlate
  have hpos : 0 < s.threshold.denominator.toNat := h.threshold.1.trans_le h.threshold.2
  have hpos₀ : 0 < s₀.threshold.denominator.toNat := h₀.threshold.1.trans_le h₀.threshold.2
  have hquota : ∀ total, s.threshold.quota total = s₀.threshold.quota total :=
    (same_threshold_of_path hpath hkeeps).quota_eq hpos hpos₀
  constructor
  · intro keys
    rw [h.getSignerWeightsAt_eq keys hwindow, hregistry]
  · rw [h.requiredWeightAt_eq hwindow, hregistry, hquota, requiredWeight, h₀.required_eq,
      h₀.getTotalWeight_eq, ← h₀.registryAt_now]
    rfl

/-- The verdict on a reference block does not depend on when a bundle is submitted, as
long as no `set_threshold` after it changes the fraction: at both moments the
required weight is the one in force at `r`, and `verify` replies the same. -/
theorem verdict_stable (hreach : Reaches J₀ s₀ r)
    (hpath₁ : Transition.Path Executes s₀ J₁ s₁) (hpath₂ : Transition.Path Executes s₁ J₂ s₂)
    (hinOrder : InOrder (J₁ ++ J₂)) (hlate : ∀ inv ∈ J₁ ++ J₂, r < inv.env.ledger)
    (hupTo₁ : ∀ inv ∈ J₁, inv.env.ledger ≤ L₁) (hupTo₂ : ∀ inv ∈ J₂, inv.env.ledger ≤ L₂)
    (hr : r < L₁) (hle : L₁ ≤ L₂) (hage : L₂ ≤ r + 200)
    (hkeeps : ∀ inv ∈ J₁ ++ J₂, KeepsFraction s₀ inv) :
    requiredWeightAt s₁ r = requiredWeight s₀ ∧ requiredWeightAt s₂ r = requiredWeight s₀ ∧
      ∀ (tx₁ tx₂ : Transaction) depth₁ depth₂ stack₁ stack₂ (w₁ w₂ : World) a v₁ v₂ envelope
        sigs pubkeys,
        v₂.securityContract = v₁.securityContract →
        a ∉ stack₁ → a ∉ stack₂ →
        v₁.securityContract ∉ stack₁ → v₁.securityContract ∉ stack₂ →
        w₁.contracts a = some (.verification t v₁) →
        w₂.contracts a = some (.verification t v₂) →
        w₁.contracts v₁.securityContract = some (.security t s₁) →
        w₂.contracts v₁.securityContract = some (.security t s₂) →
        (invoke p tx₁ (depth₁ + 2) stack₁ a (.verify envelope sigs pubkeys r) w₁).1 =
          (invoke p tx₂ (depth₂ + 2) stack₂ a (.verify envelope sigs pubkeys r) w₂).1 := by
  -- the first moment is at the end of the prefix `J₁` of the run to the second
  have hpath : Transition.Path Executes s₀ (J₁ ++ J₂) s₂ := hpath₁.append hpath₂
  have hinOrder₁ : InOrder J₁ := (List.pairwise_append.mp hinOrder).1
  have hlate₁ : ∀ inv ∈ J₁, r < inv.env.ledger := by
    intro inv hinv
    exact hlate inv (List.mem_append_left _ hinv)
  have hkeeps₁ : ∀ inv ∈ J₁, KeepsFraction s₀ inv := by
    intro inv hinv
    exact hkeeps inv (List.mem_append_left _ hinv)
  have hupTo : ∀ inv ∈ J₁ ++ J₂, inv.env.ledger ≤ L₂ := by
    intro inv hinv
    rcases List.mem_append.mp hinv with hinv | hinv
    · exact (hupTo₁ inv hinv).trans hle
    · exact hupTo₂ inv hinv
  have hreach₁ : Reaches (J₀ ++ J₁) s₁ L₁ :=
    hreach.append hpath₁ hinOrder₁ (fun inv hinv => (hlate₁ inv hinv).le) hupTo₁ hr.le
  have hreach₂ : Reaches (J₀ ++ (J₁ ++ J₂)) s₂ L₂ :=
    hreach.append hpath hinOrder (fun inv hinv => (hlate inv hinv).le) hupTo (hr.le.trans hle)
  obtain ⟨hweights₁, hrequired₁⟩ :=
    answers_at hreach hreach₁ hpath₁ hlate₁ hkeeps₁ (hle.trans hage)
  obtain ⟨hweights₂, hrequired₂⟩ := answers_at hreach hreach₂ hpath hlate hkeeps hage
  refine ⟨hrequired₁, hrequired₂, ?_⟩
  intro tx₁ tx₂ depth₁ depth₂ stack₁ stack₂ w₁ w₂ a v₁ v₂ envelope sigs pubkeys hlink hstack₁
    hstack₂ hbelow₁ hbelow₂ hverification₁ hverification₂ hsecurity₁ hsecurity₂
  rw [← hlink] at hbelow₂ hsecurity₂
  have hweights : ∀ keys, s₁.getSignerWeightsAt keys r = s₂.getSignerWeightsAt keys r := by
    intro keys
    rw [hweights₁, hweights₂]
  have hrequired : requiredWeightAt s₁ r = requiredWeightAt s₂ r := by
    rw [hrequired₁, hrequired₂]
  exact invoke_verify_congr hstack₁ hbelow₁ hverification₁ hsecurity₁ hstack₂ hbelow₂
    hverification₂ hsecurity₂ hweights hrequired

/-! ## Two ways to go on

After ledger 100 the first signer is given weight 9 and the threshold is written as
4/6, which changes nothing about ledger 100.  Raising the threshold to 1 instead
raises the weight required at ledger 100, and the bundle that passed is refused. -/

section Sample

def rewritten : List Invocation :=
  [sampleInvocation 115 (.addSigner Sample.lowKey.toArray 9),
    sampleInvocation 120 (.setThreshold 4 6)]

def raised : List Invocation :=
  [sampleInvocation 120 (.setThreshold 1 1)]

theorem twoSigners_reaches_100 : Reaches twoSigners twoSignersState 100 :=
  { twoSigners_reaches with upTo := by decide }

theorem rewritten_path : Transition.Path Executes twoSignersState rewritten
    (after rewritten twoSignersState) :=
  ((Transition.Path.nil _).snoc ⟨.void, rfl⟩).snoc ⟨.void, rfl⟩

theorem rewritten_keeps : ∀ inv ∈ rewritten, KeepsFraction twoSignersState inv := by
  intro inv hinv n d hcall
  rcases List.mem_cons.mp hinv with rfl | hinv
  · cases hcall
  · obtain rfl := List.mem_singleton.mp hinv
    cases hcall
    exact (by decide : Threshold.Same ⟨4, 6⟩ ⟨2, 3⟩)

theorem verdict_stable_sample :
    requiredWeightAt (after rewritten twoSignersState) 100 = some 1 ∧
      (invoke Sample.platform (unsignedAt 110) 100 [] ⟨2⟩
          (.verify Sample.envelopeBytes [Sample.lowSignature.toArray] [Sample.lowKey.toArray] 100)
          (pairOf twoSignersState)).1 =
        (invoke Sample.platform (unsignedAt 130) 100 [] ⟨2⟩
          (.verify Sample.envelopeBytes [Sample.lowSignature.toArray] [Sample.lowKey.toArray] 100)
          (pairOf (after rewritten twoSignersState))).1 := by
  have hlate : ∀ inv ∈ rewritten, 100 < inv.env.ledger := by decide
  have hupTo : ∀ inv ∈ rewritten, inv.env.ledger ≤ 130 := by decide
  have hinOrder : InOrder rewritten := by
    unfold InOrder
    decide
  obtain ⟨-, hrequired, hverdict⟩ := verdict_stable (p := Sample.platform)
    twoSigners_reaches_100 (.nil twoSignersState) rewritten_path hinOrder hlate
    (fun _ h => absurd h List.not_mem_nil) hupTo (by decide : 100 < 110)
    (by decide : 110 ≤ 130) (by decide) rewritten_keeps
  exact ⟨hrequired.trans (by decide), hverdict (unsignedAt 110) (unsignedAt 130) 98 98 [] []
    (pairOf twoSignersState) (pairOf (after rewritten twoSignersState)) ⟨2⟩ _ _ _ _ _ rfl
    (by simp) (by simp) (by simp) (by simp) rfl rfl rfl rfl⟩

theorem raised_path : Transition.Path Executes twoSignersState raised
    (after raised twoSignersState) :=
  (Transition.Path.nil _).snoc ⟨.void, rfl⟩

/-- The bundle that passed at ledger 110 does not pass at 130. -/
theorem verdict_changes_with_threshold :
    Reaches twoSigners twoSignersState 100 ∧
      Transition.Path Executes twoSignersState raised (after raised twoSignersState) ∧
      (∀ inv ∈ raised, 110 < inv.env.ledger ∧ inv.env.ledger ≤ 130) ∧
      requiredWeightAt twoSignersState 100 = some 1 ∧
      requiredWeightAt (after raised twoSignersState) 100 = some 2 ∧
      (invoke Sample.platform (unsignedAt 110) 100 [] ⟨2⟩
        (.verify Sample.envelopeBytes [Sample.lowSignature.toArray] [Sample.lowKey.toArray] 100)
        (pairOf twoSignersState)).1 = .ok .void ∧
      (invoke Sample.platform (unsignedAt 130) 100 [] ⟨2⟩
        (.verify Sample.envelopeBytes [Sample.lowSignature.toArray] [Sample.lowKey.toArray] 100)
        (pairOf (after raised twoSignersState))).1 ≠ .ok .void := by
  have hraised : requiredWeightAt (after raised twoSignersState) 100 = some 2 := by decide
  refine ⟨twoSigners_reaches_100, raised_path, by decide, by decide, hraised, invoke_low, ?_⟩
  intro hok
  obtain ⟨keys, weights, required, hkeys, haccepts⟩ := accepts_of_invoke_verify
    (w := pairOf (after raised twoSignersState)) rfl rfl hok
  -- the one signer still weighs 1
  obtain rfl : keys = [Sample.lowKey] :=
    List.map_injective_iff.mpr BytesN.toArray_injective hkeys
  obtain rfl : weights = [1] := Option.some.inj (haccepts.weights_eq.symm.trans (by decide))
  obtain rfl : required = 2 := Option.some.inj (haccepts.required_eq.symm.trans hraised)
  exact absurd haccepts.reached (by decide)

end Sample

end WarpDrive
