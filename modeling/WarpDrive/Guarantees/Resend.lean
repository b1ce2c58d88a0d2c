import WarpDrive.ProjectRoot.Handlers
import WarpDrive.System.Calls

/-!
# Writes that are executed twice

A client that loses a response sends its transaction again, so a governance write
may be executed twice, at two ledgers.  The second execution of an operation on the
registry rebuilds the registry it finds (`replay_replay`), and what a Security
contract answers, now and over the window, is a function of the registry
(`Represents.sameAnswers`).  The second execution of a handler operation finds the
list as it wants it.  So nobody can tell that the write was executed twice
(`resend_safe`).
-/

namespace WarpDrive

namespace Security

variable {t : VerificationType} {J J' : List Invocation} {L r : ℕ} {s s' s₁ s₂ : Storage t}
  {env : Env} {inv : Invocation}

/-! ## What a Security contract answers -/

/-- The queries about the present, and those about a reference block from `r` on. -/
def isQueryFrom (r : ℕ) : Call → Bool
  | .getTotalWeight | .getSignerWeight _ | .getSignerWeights _ | .listSigners
  | .thresholdNumerator | .thresholdDenominator | .requiredWeight | .admin | .pendingAdmin
  | .version => true
  | .getSignerWeightAt _ referenceBlock | .getSignerWeightsAt _ referenceBlock
  | .getTotalWeightAt referenceBlock | .requiredWeightAt referenceBlock => r ≤ referenceBlock
  | _ => false

/-- The value or failure of a call. -/
def answer (env : Env) (query : Call) (s : Storage t) : Except (Failure SecurityError) Val :=
  ((call env query).run s).map Prod.fst

/-- Two states that every query from `r` on reads alike. -/
structure SameAnswers (r : ℕ) (s s' : Storage t) : Prop where
  threshold : s'.threshold = s.threshold
  base : ∃ events, s'.base = { s.base with events := events }
  allSigners : s'.allSigners = s.allSigners
  signerWeight : ∀ key, s'.getSignerWeight key = s.getSignerWeight key
  totalWeight : s'.getTotalWeight = s.getTotalWeight
  signerWeightAt : ∀ key r', r ≤ r' → s'.getSignerWeightAt key r' = s.getSignerWeightAt key r'
  totalWeightAt : ∀ r', r ≤ r' → s'.getTotalWeightAt r' = s.getTotalWeightAt r'

theorem answer_view {query : Call} {f : Storage t → Option Val}
    (hquery : call env query = view f) (h : f s' = f s) :
    answer env query s' = answer env query s := by
  have hrun : ∀ s : Storage t, (view f : Contract (Storage t) SecurityError Val).run s =
      (expect (f s) : Contract (Storage t) SecurityError Val).run s := fun _ => rfl
  unfold answer
  rw [hquery, hrun, hrun, h]
  cases f s <;> rfl

theorem SameAnswers.answer_eq (h : SameAnswers r s s') {query : Call}
    (hquery : isQueryFrom r query = true) : answer env query s' = answer env query s := by
  cases query with
  | getTotalWeight => exact answer_view rfl (by rw [h.totalWeight])
  | getSignerWeight key =>
      exact answer_view (bind_expect_view _ _) (by simp only [h.signerWeight])
  | getSignerWeights keys =>
      exact answer_view (bind_expect_view _ _)
        (by simp only [Storage.getSignerWeights, h.signerWeight])
  | listSigners =>
      exact answer_view rfl (by simp only [Storage.listSigners, h.allSigners, h.signerWeight])
  | thresholdNumerator | thresholdDenominator => exact answer_view rfl (by rw [h.threshold])
  | requiredWeight =>
      exact answer_view rfl (by rw [requiredWeight, requiredWeight, h.threshold, h.totalWeight])
  | getSignerWeightAt key r' =>
      have hr : r ≤ r' := by simpa [isQueryFrom] using hquery
      exact answer_view (bind_expect_view _ _) (by simp only [h.signerWeightAt _ _ hr])
  | getSignerWeightsAt keys r' =>
      have hr : r ≤ r' := by simpa [isQueryFrom] using hquery
      exact answer_view (bind_expect_view _ _)
        (by simp only [Storage.getSignerWeightsAt, h.signerWeightAt _ _ hr])
  | getTotalWeightAt r' =>
      have hr : r ≤ r' := by simpa [isQueryFrom] using hquery
      exact answer_view rfl (by rw [h.totalWeightAt _ hr])
  | requiredWeightAt r' =>
      have hr : r ≤ r' := by simpa [isQueryFrom] using hquery
      exact answer_view rfl
        (by rw [requiredWeightAt, requiredWeightAt, h.threshold, h.totalWeightAt _ hr])
  | admin | pendingAdmin | version =>
      obtain ⟨events, hbase⟩ := h.base
      unfold answer
      have hrun : ∀ s : Storage t, ∀ f : Base → Val,
          ((onBase (view fun b => some (f b)) : Contract (Storage t) SecurityError Val).run s).map
            Prod.fst = .ok (f s.base) := fun _ _ => rfl
      refine (hrun s' _).trans (Eq.trans ?_ (hrun s _).symm)
      rw [hbase]
  | _ => cases hquery

/-- Two states that represent registries which agree over the window. -/
theorem Represents.sameAnswers (h : Represents J L s) (h' : Represents J' L s')
    (hthreshold : s'.threshold = s.threshold)
    (hbase : ∃ events, s'.base = { s.base with events := events })
    (hregistry : ∀ r, L - historyCutoff ≤ r → registryAt t J' r = registryAt t J r) :
    SameAnswers (L - historyCutoff) s s' := by
  have hnow : registry t J' = registry t J := by
    rw [← h.registryAt_now, ← h'.registryAt_now, hregistry L (Nat.sub_le _ _)]
  constructor
  case threshold => exact hthreshold
  case base => exact hbase
  case allSigners =>
    refine List.Pairwise.eq_of_mem_iff h'.sorted h.sorted fun key => ?_
    rw [h'.mem, h.mem, hnow]
  case signerWeight =>
    intro key
    rw [Storage.getSignerWeight_eq, Storage.getSignerWeight_eq, h'.weight_eq, h.weight_eq, hnow]
  case totalWeight =>
    rw [← UInt64.toNat_inj, h'.getTotalWeight_eq, h.getTotalWeight_eq, hnow]
  case signerWeightAt =>
    intro key r hwindow
    rw [h'.getSignerWeightAt_eq key hwindow, h.getSignerWeightAt_eq key hwindow,
      hregistry r hwindow]
  case totalWeightAt =>
    intro r hwindow
    rw [h'.getTotalWeightAt_eq hwindow, h.getTotalWeightAt_eq hwindow, hregistry r hwindow]

/-! ## The second execution -/

/-- An operation, replayed on the registry it built. -/
theorem replay_replay (R : t.PubKey →₀ UInt64) (c : Call) :
    replay (replay R c) c = replay R c := by
  cases c with
  | addSigner rawKey weight =>
      cases hdecode : BytesN.ofBytes? t.keyLength rawKey with
      | none => simp only [replay, hdecode]
      | some key =>
          rw [← BytesN.toArray_of_ofBytes? hdecode, replay_add, replay_add]
          ext k
          simp only [Finsupp.update_apply]
          split <;> rfl
  | removeSigner rawKey =>
      cases hdecode : BytesN.ofBytes? t.keyLength rawKey with
      | none => simp only [replay, hdecode]
      | some key =>
          rw [← BytesN.toArray_of_ofBytes? hdecode, replay_remove, replay_remove]
          ext k
          simp only [Finsupp.erase_apply]
          split <;> rfl
  | _ => rfl

theorem registryAt_resent (hupTo : ∀ inv' ∈ J, inv'.env.ledger ≤ inv.env.ledger)
    (hledger : inv.env.ledger ≤ env.ledger) :
    registryAt t (J ++ [inv] ++ [⟨env, inv.call⟩]) = registryAt t (J ++ [inv]) := by
  have hupTo' : ∀ inv' ∈ J ++ [inv], inv'.env.ledger ≤ env.ledger := by
    intro inv' hmem
    rcases List.mem_append.mp hmem with hmem | hmem
    · exact (hupTo inv' hmem).trans hledger
    · rw [List.mem_singleton.mp hmem]
      exact hledger
  rw [registryAt_snoc hupTo', registry_snoc, replay_replay, Timeline.update_eq_self]
  intro r hr
  rw [registryAt_eq_registry fun inv' hinv' => (hupTo' inv' hinv').trans hr, registry_snoc]

/-- The total of a registry that fits once fits again. -/
theorem addSigner_again (h : Represents J L s) {key : t.PubKey} {weight : UInt64}
    (hauth : env.authorized s.base.admin = true) (hweight : weight ≠ 0)
    (hregistry : (registry t J).update key weight = registry t J) :
    ∃ s', (addSigner env key weight).run s = .ok ((), s') := by
  have htotal := h.totalAfterAdd_eq key weight
  rw [hregistry, if_pos h.registry_bounded] at htotal
  rw [addSigner_run, if_pos hauth, if_neg hweight, htotal]
  exact ⟨_, rfl⟩

/-- What has no weight any more is removed again. -/
theorem removeSigner_again {key : t.PubKey} (hauth : env.authorized s.base.admin = true)
    (hunknown : s.weight key = 0) : ∃ s', (removeSigner env key).run s = .ok ((), s') := by
  rw [removeSigner_run, if_pos hauth, if_pos hunknown]
  exact ⟨_, rfl⟩

/-- Operations on the registry keep the governance entries. -/
theorem Effect.base_of_isRegistry {c : Call} (h : Effect env s c s')
    (hc : c.isRegistry = true) : ∃ events, s'.base = { s.base with events := events } := by
  cases h with
  | add | remove | removeUnknown | setThreshold => exact ⟨_, rfl⟩
  | base _ _ hregistry _ => exact absurd hc (by rw [hregistry]; exact Bool.false_ne_true)

/-- A function that returned, as an exported one. -/
theorem run_void {m : Contract (Storage t) SecurityError Unit}
    (h : ∃ s', m.run s = .ok ((), s')) :
    ∃ s', (do m; return .void : Contract (Storage t) SecurityError Val).run s =
      .ok (.void, s') := by
  obtain ⟨s', hrun⟩ := h
  exact ⟨s', bind_run_eq_ok.mpr ⟨(), s', hrun, rfl⟩⟩

/-- The second execution returns. -/
theorem executes_again (h : Represents J inv.env.ledger s)
    (heffect : Effect inv.env s inv.call s₁) (hregistry : inv.call.isRegistry = true)
    (hauth : ∀ a, inv.env.authorized a = true → env.authorized a = true) :
    ∃ s₂, (call env inv.call).run s₁ = .ok (.void, s₂) := by
  have h₁ := h.step heffect
  obtain ⟨events, hbase⟩ := heffect.base_of_isRegistry hregistry
  have hadmin : s₁.base.admin = s.base.admin := by rw [hbase]
  generalize hcall : inv.call = c at heffect
  cases heffect with
  | add key weight total hfirst hweight _ =>
      rw [call_addSigner_toArray]
      refine run_void (addSigner_again h₁ (hadmin ▸ hauth _ hfirst) hweight ?_)
      rw [registry_snoc, hcall, ← replay_add, replay_replay]
  | remove key total hfirst _ _ =>
      rw [call_removeSigner_toArray]
      refine run_void (removeSigner_again (hadmin ▸ hauth _ hfirst) ?_)
      rw [h₁.weight_eq, registry_snoc, hcall, replay_remove, Finsupp.erase_same]
  | removeUnknown key hfirst hunknown =>
      rw [call_removeSigner_toArray]
      exact run_void (removeSigner_again (hadmin ▸ hauth _ hfirst) hunknown)
  | setThreshold numerator denominator hfirst hvalid =>
      rw [call_setThreshold]
      apply run_void
      rw [setThreshold_run, if_pos (hadmin ▸ hauth _ hfirst), hvalid]
      exact ⟨_, rfl⟩
  | base _ _ hnot _ =>
      rw [hcall, hnot] at hregistry
      cases hregistry

/-- After the second execution the threshold is what it was. -/
theorem Effect.threshold_again {c : Call} {env' : Env} (h : Effect env s c s₁)
    (h' : Effect env' s₁ c s₂) : s₂.threshold = s₁.threshold := by
  rcases h'.threshold with heq | ⟨n, d, rfl, heq, -⟩
  · exact heq
  · rcases h with _ | _ | _ | _ | ⟨_, _, hregistry, _⟩
    · exact heq
    · cases hregistry

/-- A registry operation, executed again at a later ledger. -/
theorem sameAnswers_again (hreach : Reaches J s L) (hlate : L ≤ inv.env.ledger)
    (hregistry : inv.call.isRegistry = true) (hfirst : Executes s inv s₁)
    (hledger : inv.env.ledger ≤ env.ledger)
    (hauth : ∀ a, inv.env.authorized a = true → env.authorized a = true) :
    ∃ s₂, (call env inv.call).run s₁ = .ok (.void, s₂) ∧
      SameAnswers (env.ledger - historyCutoff) s₁ s₂ := by
  have h : Represents J inv.env.ledger s := hreach.represents.mono hlate
  obtain ⟨v, hcall⟩ := hfirst
  have heffect := call_effect hcall
  obtain ⟨s₂, hsecond⟩ := executes_again h heffect hregistry hauth
  have heffect' := call_effect hsecond
  have h₁ : Represents (J ++ [inv]) env.ledger s₁ := (h.step heffect).mono hledger
  have h₂ : Represents (J ++ [inv] ++ [⟨env, inv.call⟩]) env.ledger s₂ := h₁.step heffect'
  refine ⟨s₂, hsecond, h₁.sameAnswers h₂ (heffect.threshold_again heffect')
    (heffect'.base_of_isRegistry hregistry) fun r _ => ?_⟩
  rw [registryAt_resent h.upTo hledger]

end Security

namespace ProjectRoot

variable {ω ω' : Type} {host : Host ω} {host' : Host ω'} {env env' : Env} {handler : Address}

theorem Storage.track_track (s : Storage) (handler : Address) :
    (s.track handler).track handler = s.track handler := by
  have hmem : handler ∈ (s.track handler).handlers := by
    unfold track
    split
    · next h => exact h
    · simp
  conv_lhs => rw [track]
  rw [if_pos hmem]

/-- In a list without duplicates, what was removed is absent. -/
theorem Storage.untrack_untrack {s : Storage} (hnodup : s.handlers.Nodup) (handler : Address) :
    (s.untrack handler).untrack handler = s.untrack handler := by
  have hmem : handler ∉ (s.untrack handler).handlers := by
    unfold untrack
    split
    · exact hnodup.not_mem_erase
    · next h => exact h
  conv_lhs => rw [untrack]
  rw [if_neg hmem]

theorem void_eq_ok {m : Contract (Frame Storage ω) ProjectRootError Unit}
    {frame frame' : Frame Storage ω} {v : Val} :
    (void m).run frame = .ok (v, frame') ↔ m.run frame = .ok ((), frame') ∧ v = .void := by
  constructor
  · intro h
    obtain ⟨_, _, hrun, hret⟩ := bind_run_eq_ok.mp h
    cases hret
    exact ⟨hrun, rfl⟩
  · intro h
    obtain ⟨hrun, rfl⟩ := h
    exact bind_run_eq_ok.mpr ⟨(), frame', hrun, rfl⟩

theorem call_registerHandler_again {s : Storage} {world : ω} {world' : ω'} {v : Val}
    {frame₁ : Frame Storage ω}
    (h : (call host env (.registerHandler handler)).run ⟨s, world⟩ = .ok (v, frame₁))
    (hauth : ∀ a, env.authorized a = true → env'.authorized a = true)
    (hprobe : probeOf host' world' handler = probeOf host world handler) :
    ∃ world'', (call host' env' (.registerHandler handler)).run ⟨frame₁.storage, world'⟩ =
      .ok (v, ⟨frame₁.storage, world''⟩) := by
  obtain ⟨hrun, rfl⟩ := void_eq_ok.mp h
  obtain ⟨hfirst, hhandler, rfl⟩ := registerHandler_eq_ok.mp hrun
  have hlinks : (s.track handler).base.admin = s.base.admin ∧
      (s.track handler).verificationContract = s.verificationContract ∧
      (s.track handler).securityContract = s.securityContract := by
    unfold Storage.track
    split <;> exact ⟨rfl, rfl, rfl⟩
  obtain ⟨hadmin, hverification, hsecurity⟩ := hlinks
  have hhandler' : IsHandler host' handler ⟨s.track handler, world'⟩ :=
    ⟨hverification ▸ hhandler.ne_verification, hsecurity ▸ hhandler.ne_security,
      by rw [hverification]; exact hprobe.trans hhandler.probe⟩
  refine ⟨(host'.invoke handler .verificationContract world').2, void_eq_ok.mpr ⟨?_, rfl⟩⟩
  refine registerHandler_eq_ok.mpr ⟨hauth _ (hadmin ▸ hfirst), hhandler', ?_⟩
  rw [s.track_track]

theorem call_unregisterHandler_again {s : Storage} {world : ω} {world' : ω'} {v : Val}
    {frame₁ : Frame Storage ω} (hnodup : s.handlers.Nodup)
    (h : (call host env (.unregisterHandler handler)).run ⟨s, world⟩ = .ok (v, frame₁))
    (hauth : ∀ a, env.authorized a = true → env'.authorized a = true) :
    (call host' env' (.unregisterHandler handler)).run ⟨frame₁.storage, world'⟩ =
      .ok (v, ⟨frame₁.storage, world'⟩) := by
  obtain ⟨hrun, rfl⟩ := void_eq_ok.mp h
  rw [unregisterHandler_run] at hrun
  split at hrun
  case isFalse => cases hrun
  next hfirst =>
    cases hrun
    have hadmin : (s.untrack handler).base.admin = s.base.admin := by
      unfold Storage.untrack
      split <;> rfl
    refine void_eq_ok.mpr ⟨?_, rfl⟩
    rw [unregisterHandler_run, if_pos (hauth _ (hadmin ▸ hfirst)),
      Storage.untrack_untrack hnodup]

end ProjectRoot

/-! ## Both contracts -/

/-- A governance write that succeeded succeeds again, at any later ledger, and
afterwards every query is answered as after the first time: of a Security contract
those about the present and those over the window, of ProjectRoot all of them. -/
theorem resend_safe :
    (∀ (t : VerificationType) (J : List Invocation) (s s₁ : Security.Storage t) (L : ℕ)
        (inv : Invocation) (env : Env), Security.Reaches J s L → L ≤ inv.env.ledger →
        inv.call.isRegistry = true → Security.Executes s inv s₁ →
        inv.env.ledger ≤ env.ledger →
        (∀ a, inv.env.authorized a = true → env.authorized a = true) →
        ∃ s₂, Security.Executes s₁ ⟨env, inv.call⟩ s₂ ∧
          ∀ query env', Security.isQueryFrom (env.ledger - 200) query = true →
            Security.answer env' query s₂ = Security.answer env' query s₁) ∧
      ∀ (root : Address) (J : List ProjectRoot.Attempt) (s : ProjectRoot.Storage),
        Transition.Run ProjectRoot.Deployed ProjectRoot.Attempts J s →
        (∀ attempt ∈ J, attempt.inv.env.self = root) →
        ∀ (ω ω' : Type) (host : Host ω) (host' : Host ω') (env env' : Env) (handler : Address)
          (c : Call) (world : ω) (world' : ω') (v : Val) (frame₁ : Frame ProjectRoot.Storage ω),
          c = .registerHandler handler ∨ c = .unregisterHandler handler →
          (ProjectRoot.call host env c).run ⟨s, world⟩ = .ok (v, frame₁) →
          (∀ a, env.authorized a = true → env'.authorized a = true) →
          (c = .registerHandler handler →
            ProjectRoot.probeOf host' world' handler = ProjectRoot.probeOf host world handler) →
          ∃ world'', (ProjectRoot.call host' env' c).run ⟨frame₁.storage, world'⟩ =
            .ok (v, ⟨frame₁.storage, world''⟩) := by
  constructor
  · intro t J s s₁ L inv env hreach hlate hregistry hfirst hledger hauth
    obtain ⟨s₂, hsecond, hsame⟩ :=
      Security.sameAnswers_again hreach hlate hregistry hfirst hledger hauth
    exact ⟨s₂, ⟨.void, hsecond⟩, fun query env' hquery => hsame.answer_eq hquery⟩
  · intro root J s hrun hself ω ω' host host' env env' handler c world world' v frame₁ hc hfirst
      hauth hprobe
    obtain rfl | rfl := hc
    · exact ProjectRoot.call_registerHandler_again hfirst hauth (hprobe rfl)
    · have hset := (ProjectRoot.handlerSet_of_run hrun hself).1
      exact ⟨world', ProjectRoot.call_unregisterHandler_again hset.nodup hfirst hauth⟩

/-- The registration of a handler. -/
def sampleJoin : ProjectRoot.Attempt :=
  ProjectRoot.sampleAttempt 10 (.registerHandler ⟨7⟩)

/-- A signer added at ledgers 230 and 450, and a handler registered twice. -/
theorem resend_safe_sample :
    (∃ s₂, Security.Executes
        (Security.after
          [Security.sampleInvocation 230 (.addSigner (Security.sampleKey 5).toArray 7)]
          (Security.after Security.sampleHistory Security.sampleDeployment))
        (Security.sampleInvocation 450 (.addSigner (Security.sampleKey 5).toArray 7)) s₂ ∧
      Security.answer (Security.sampleInvocation 450 .getTotalWeight).env .getTotalWeight s₂ =
        .ok (.u64 7)) ∧
      ∃ world, (ProjectRoot.call ProjectRoot.sampleHost sampleJoin.inv.env
        (.registerHandler ⟨7⟩)).run ⟨ProjectRoot.sampleDeployment.track ⟨7⟩, ()⟩ =
          .ok (.void, ⟨ProjectRoot.sampleDeployment.track ⟨7⟩, world⟩) := by
  constructor
  · obtain ⟨s₂, hsecond, hsame⟩ := resend_safe.1 _ _ _ _ _
      (Security.sampleInvocation 230 (.addSigner (Security.sampleKey 5).toArray 7))
      (Security.sampleInvocation 450 (.addSigner (Security.sampleKey 5).toArray 7)).env
      Security.sample_reaches (by decide) rfl ⟨.void, rfl⟩ (by decide) fun _ h => h
    refine ⟨s₂, hsecond, ?_⟩
    rw [hsame .getTotalWeight _ rfl]
    rfl
  · have hrun : Transition.Run ProjectRoot.Deployed ProjectRoot.Attempts []
        ProjectRoot.sampleDeployment := .start ⟨_, _, _, _, _, _, rfl⟩
    exact resend_safe.2 ⟨3⟩ [] _ hrun (by simp) Unit Unit ProjectRoot.sampleHost
      ProjectRoot.sampleHost sampleJoin.inv.env sampleJoin.inv.env
      ⟨7⟩ (.registerHandler ⟨7⟩) () () .void _ (.inl rfl) rfl (fun _ h => h) fun _ => rfl

end WarpDrive
