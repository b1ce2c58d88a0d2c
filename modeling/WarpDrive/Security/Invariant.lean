import WarpDrive.Security.Registry

/-!
# The registry invariant

Every operation preserves `Represents` (`Represents.step`), so every state that
a run reaches represents the registry its calls built (`Reaches.represents`).
An operation either leaves the registry and the three structures alone, or it
records the new weight of one key and the new total in all of them; the two
cases are `Represents.unchanged` and `Represents.recorded`.
-/

namespace WarpDrive.Security

open VecHistory

variable {t : VerificationType} {J : List Invocation} {L : ℕ} {s s' : Storage t}
  {inv : Invocation}

namespace Represents

/-- What is observed of the registry, before and after one more invocation. -/
theorem observe_snoc {α : Type} (h : Represents J inv.env.ledger s)
    (g : (t.PubKey →₀ UInt64) → α) :
    (fun r => g (registryAt t (J ++ [inv]) r)) =
      Timeline.update (fun r => g (registryAt t J r)) inv.env.ledger
        (g (replay (registry t J) inv.call)) := by
  rw [registryAt_snoc h.upTo, Timeline.map_update]

theorem observe_unchanged {α : Type} (h : Represents J inv.env.ledger s)
    (g : (t.PubKey →₀ UInt64) → α)
    (hsame : g (replay (registry t J) inv.call) = g (registry t J)) :
    (fun r => g (registryAt t (J ++ [inv]) r)) = fun r => g (registryAt t J r) := by
  rw [h.observe_snoc, Timeline.update_eq_self]
  intro r hr
  rw [registryAt_eq_registry fun inv' hinv => (h.upTo inv' hinv).trans hr, hsame]

theorem upTo_snoc (h : Represents J inv.env.ledger s) :
    ∀ inv' ∈ J ++ [inv], inv'.env.ledger ≤ inv.env.ledger := by
  intro inv' hmem
  rcases List.mem_append.mp hmem with hmem | hmem
  · exact h.upTo inv' hmem
  · rw [List.mem_singleton.mp hmem]

/-- Calls that leave the registry alone, and the structures with it. -/
theorem unchanged (h : Represents J inv.env.ledger s)
    (hsame : replay (registry t J) inv.call = registry t J)
    (hsigners : s'.allSigners = s.allSigners)
    (hweights : s'.signerWeightHist = s.signerWeightHist)
    (htotal : s'.totalWeightHist = s.totalWeightHist)
    (hthreshold : 0 < s'.threshold.numerator.toNat ∧
      s'.threshold.numerator.toNat ≤ s'.threshold.denominator.toNat) :
    Represents (J ++ [inv]) inv.env.ledger s' where
  sorted := hsigners ▸ h.sorted
  mem key := by rw [hsigners, registry_snoc, hsame, h.mem]
  signers key := by
    rw [hweights, h.observe_unchanged (fun R => R key) (by rw [hsame])]
    exact h.signers key
  total := by
    rw [htotal, h.observe_unchanged (fun R => UInt64.ofNat (totalWeight R)) (by rw [hsame])]
    exact h.total
  bounded r :=
    (congrFun (h.observe_unchanged totalWeight (congrArg _ hsame)) r).trans_lt (h.bounded r)
  upTo := h.upTo_snoc
  threshold := hthreshold

/-- Calls that record a new weight of `key`, and the new total. -/
theorem recorded (h : Represents J inv.env.ledger s) {R : t.PubKey →₀ UInt64}
    (hreplay : replay (registry t J) inv.call = R) (key : t.PubKey)
    (hother : ∀ k, k ≠ key → R k = registry t J k) (hfits : totalWeight R < 2 ^ 64)
    (hsorted : s'.allSigners.Pairwise (· < ·)) (hmem : ∀ k, k ∈ s'.allSigners ↔ R k ≠ 0)
    (hweights : s'.signerWeightHist = Function.update s.signerWeightHist key
      (push historyCutoff inv.env.ledger (s.signerWeightHist key) (R key)))
    (htotal : s'.totalWeightHist =
      push historyCutoff inv.env.ledger s.totalWeightHist (.ofNat (totalWeight R)))
    (hthreshold : s'.threshold = s.threshold) :
    Represents (J ++ [inv]) inv.env.ledger s' where
  sorted := hsorted
  mem k := by rw [registry_snoc, hreplay, hmem]
  signers k := by
    rw [hweights]
    by_cases hk : k = key
    · subst hk
      rw [Function.update_self, h.observe_snoc fun R => R k, hreplay]
      exact (h.signers k).push (R k)
    · rw [Function.update_of_ne hk,
        h.observe_unchanged (fun R => R k) (by rw [hreplay, hother k hk])]
      exact h.signers k
  total := by
    rw [htotal, h.observe_snoc fun R => UInt64.ofNat (totalWeight R), hreplay]
    exact h.total.push _
  bounded r := by
    apply (congrFun (h.observe_snoc totalWeight) r).trans_lt
    rw [hreplay]
    unfold Timeline.update
    split
    · exact hfits
    · exact h.bounded r
  upTo := h.upTo_snoc
  threshold := hthreshold ▸ h.threshold

theorem step_add {key : t.PubKey} {weight total : UInt64} (h : Represents J inv.env.ledger s)
    (hcall : inv.call = .addSigner key.toArray weight) (hweight : weight ≠ 0)
    (htotal : s.totalAfterAdd key weight = some total) :
    Represents (J ++ [inv]) inv.env.ledger ((s.afterAdd inv.env.ledger key weight total).emit
      (.signerAdded key.toArray weight)) := by
  have hupdate : ∀ k, (registry t J).update key weight k =
      if k = key then weight else registry t J k :=
    fun k => Finsupp.update_apply ..
  rw [h.totalAfterAdd_eq] at htotal
  split at htotal
  case isFalse => cases htotal
  next hfits =>
    rw [Option.some.injEq] at htotal
    subst htotal
    -- a key that has no weight is inserted, another one is in the list already
    have hsigners : ((s.afterAdd inv.env.ledger key weight
        (.ofNat (totalWeight ((registry t J).update key weight)))).emit
          (.signerAdded key.toArray weight)).allSigners =
        if registry t J key = 0 then insertAllSigners key s.allSigners else s.allSigners := by
      rw [← h.weight_eq]
      rfl
    refine h.recorded (by rw [hcall, replay_add]) key ?_ hfits ?_ ?_ ?_ rfl rfl
    · intro k hk
      rw [hupdate, if_neg hk]
    · rw [hsigners]
      split
      · exact sorted_insertAllSigners key h.sorted
      · exact h.sorted
    · intro k
      rw [hsigners, hupdate]
      split
      · rw [mem_insertAllSigners, h.mem]
        split
        · next hk => simp [hk, hweight]
        · next hk => simp [hk]
      · next hregistered =>
          rw [h.mem]
          split
          · next hk => simp [hk, hweight, hregistered]
          · rfl
    · rw [hupdate, if_pos rfl]
      rfl

theorem step_remove {key : t.PubKey} {total : UInt64} (h : Represents J inv.env.ledger s)
    (hcall : inv.call = .removeSigner key.toArray)
    (htotal : checkedSub s.getTotalWeight (s.weight key) = some total) :
    Represents (J ++ [inv]) inv.env.ledger
      ((s.afterRemove inv.env.ledger key total).emit (.signerRemoved key.toArray)) := by
  have herase : ∀ k, (registry t J).erase key k = if k = key then 0 else registry t J k :=
    fun k => Finsupp.erase_apply ..
  rw [h.totalAfterRemove_eq, Option.some.injEq] at htotal
  subst htotal
  refine h.recorded (by rw [hcall, replay_remove]) key ?_ ?_
    (sorted_removeAllSigners key h.sorted) ?_ ?_ rfl rfl
  · intro k hk
    rw [herase, if_neg hk]
  · have hle := totalWeight_erase (registry t J) key
    have hbounded := h.registry_bounded
    omega
  · intro k
    rw [herase]
    apply (mem_removeAllSigners h.sorted).trans
    rw [h.mem]
    split
    · next hk => simp [hk]
    · next hk => simp [hk]
  · rw [herase, if_pos rfl]
    rfl

/-- One more successful call. -/
theorem step (h : Represents J inv.env.ledger s) (heffect : Effect inv.env s inv.call s') :
    Represents (J ++ [inv]) inv.env.ledger s' := by
  generalize hcall : inv.call = call at heffect
  cases heffect with
  | add key weight total _ hweight htotal => exact h.step_add hcall hweight htotal
  | remove key total _ _ htotal => exact h.step_remove hcall htotal
  | removeUnknown key _ hunknown =>
      -- `remove_signer` returns early, and there is nothing to erase
      have habsent : registry t J key = 0 := by rw [← h.weight_eq, hunknown]
      refine h.unchanged ?_ rfl rfl rfl h.threshold
      rw [hcall, replay_remove]
      exact Finsupp.erase_of_notMem_support (by simpa using habsent)
  | setThreshold numerator denominator _ hvalid =>
      exact h.unchanged (by rw [hcall]; rfl) rfl rfl rfl (checkThreshold_eq_ok.mp hvalid)
  | base call b hregistry _ =>
      exact h.unchanged (by rw [hcall, replay_of_not_isRegistry _ hregistry]) rfl rfl rfl
        h.threshold

end Represents

/-! ## Runs -/

theorem construct_eq_ok {wasm : BytesN 32} {admin : Address} {numerator denominator : UInt64} :
    construct t wasm admin numerator denominator = .ok s ↔
      (0 < numerator.toNat ∧ numerator.toNat ≤ denominator.toNat) ∧
        s = ⟨.deployed wasm admin, ⟨numerator, denominator⟩, [], fun _ => [], []⟩ := by
  rw [← checkThreshold_eq_ok]
  unfold construct
  cases checkThreshold numerator denominator with
  | error e => simp
  | ok u => simp [eq_comm]

/-- A deployment represents the empty registry. -/
theorem Deployed.represents (h : Deployed s) (L : ℕ) : Represents [] L s := by
  obtain ⟨wasm, admin, numerator, denominator, hconstruct⟩ := h
  obtain ⟨hvalid, rfl⟩ := construct_eq_ok.mp hconstruct
  have hempty : totalWeight (0 : t.PubKey →₀ UInt64) = 0 := Totals.total_zero
  refine ⟨.nil, ?_, fun key => .nil _ fun _ => rfl, .nil _ ?_, ?_, by simp, hvalid⟩
  · intro key
    simp [registry]
  · intro r
    exact congrArg UInt64.ofNat hempty
  · intro r
    exact hempty.trans_lt (Nat.two_pow_pos 64)

/-- Every reachable state represents the registry that its calls built. -/
theorem Reaches.represents (h : Reaches J s L) : Represents J L s := by
  obtain ⟨hrun, hinOrder, hupTo⟩ := h
  -- along the run, with the ledger general: the calls before one are of its ledger at most
  refine Transition.Run.induction
    (motive := fun J s => InOrder J → ∀ L, (∀ inv ∈ J, inv.env.ledger ≤ L) → Represents J L s)
    ?_ ?_ hrun hinOrder L hupTo
  · intro s hdeployed _ L _
    exact hdeployed.represents L
  · intro J s inv s' _ ih hexecutes hinOrder L hupTo
    obtain ⟨hinitial, -, hlast⟩ := List.pairwise_append.mp hinOrder
    obtain ⟨v, hcall⟩ := hexecutes
    have hnow : Represents J inv.env.ledger s :=
      ih hinitial _ fun inv' hinv' => hlast inv' hinv' inv (by simp)
    exact (hnow.step (call_effect hcall)).mono (hupTo inv (by simp))

end WarpDrive.Security
