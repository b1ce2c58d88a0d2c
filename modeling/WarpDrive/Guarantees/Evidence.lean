import WarpDrive.Guarantees.Availability

/-!
# What stands behind an accepted event

`Submitted` says how a handler came to store a payload: at some point of the journal a
submission carried the envelope, and keys that signed it had the weight that the
threshold of that moment asked for, in the registry that was in force at the reference
block.  That registry is read off the whole journal, so nothing the administrators do
afterwards rewrites it.  The threshold starts as the Security contract was deployed.

`exists_submitted` finds the submission in every run, out of the evidence of the
abstract store.  Its two uses count signers: no coalition that weighs less than the
quota gets an event accepted (`event_needs_quorum`), and what the quorums of two events at
one reference block have in common signed both (`events_share_signers`).
-/

namespace WarpDrive

open Security Handler Transition

variable {p : Platform} {t : VerificationType} {a c : Address} {J : List Invocation}
  {initial : Threshold} {eventId : BytesN 20} {payload : Bytes}

/-- The threshold after the calls `J`: the last one that was set. -/
def thresholdAfter (initial : Threshold) (J : List Invocation) : Threshold :=
  J.foldl
    (fun threshold inv =>
      match inv.call with
      | .setThreshold numerator denominator => ⟨numerator, denominator⟩
      | _ => threshold) initial

/-- A submission that the handler at `a` accepted for an event, in the journal `J`: the
invocation `inv`, after `before`, with the envelope `bytes` signed by `keys`. -/
structure Submitted (p : Platform) (t : VerificationType) (a c : Address) (initial : Threshold)
    (J : List Invocation) (eventId : BytesN 20) (payload : Bytes) (before : List Invocation)
    (inv : Invocation) (bytes : Bytes) (sigData : SignatureData) (keys : List t.PubKey) :
    Prop where
  journal : before ++ [inv] <+: J
  self : inv.env.self = a
  call : inv.call = submission t bytes sigData
  decoded : ∃ m, decoded p t bytes = some m ∧ m.eventId = eventId ∧ m.payload = payload
  signers : keys.map BytesN.toArray = sigData.signers
  past : sigData.referenceBlock < inv.env.ledger
  window : inv.env.ledger - sigData.referenceBlock ≤ 200
  certificate : Attestation.Certificate (attestationScheme p t)
    (registryAt t (callsOf c J) sigData.referenceBlock)
    (thresholdAfter initial (callsOf c before)) bytes keys.toFinset

/-! ## From actions back to invocations -/

theorem thresholdAfter_snoc (inv : Invocation) :
    thresholdAfter initial (J ++ [inv]) =
      match inv.call with
      | .setThreshold numerator denominator => ⟨numerator, denominator⟩
      | _ => thresholdAfter initial J := by
  rw [thresholdAfter, List.foldl_append]
  rfl

theorem thresholdAfter_of_forall
    (h : ∀ inv ∈ J, ∀ numerator denominator, inv.call ≠ .setThreshold numerator denominator) :
    thresholdAfter initial J = initial := by
  induction J using List.reverseRecOn with
  | nil => rfl
  | append_singleton J inv ih =>
      have hlast := h inv (by simp)
      rw [thresholdAfter_snoc, ih fun inv' hinv' => h inv' (List.mem_append_left _ hinv')]
      split
      · next n d hcall => exact absurd hcall (hlast n d)
      · rfl

/-- What a handler does is an attestation. -/
theorem submissionAction?_eq_some {ledger : ℕ} {call : Call} {action : AttestationAction t}
    (h : submissionAction? t ledger call = some action) :
    ∃ (bytes : Bytes) (sigData : SignatureData) (keys : List t.PubKey),
      call = submission t bytes sigData ∧ keys.map BytesN.toArray = sigData.signers ∧
        action = .attest ledger sigData.referenceBlock bytes keys.toFinset := by
  by_cases hsubmission : ∃ bytes sigData, call = submission t bytes sigData
  · obtain ⟨bytes, sigData, rfl⟩ := hsubmission
    rw [submissionAction?_submission] at h
    obtain ⟨keys, hkeys, rfl⟩ := Option.map_eq_some_iff.mp h
    exact ⟨bytes, sigData, keys, rfl, map_toArray_of_bytesVec? hkeys, rfl⟩
  · push Not at hsubmission
    rw [submissionAction?_eq_none hsubmission] at h
    cases h

/-- What a Security contract does changes a weight or the threshold. -/
theorem registryAction?_ne_attest {ledger now r : ℕ} {call : Call} {bytes : Bytes}
    {signers : Finset t.PubKey} :
    registryAction? t ledger call ≠ some (.attest now r bytes signers) := by
  intro h
  cases call with
  | addSigner | removeSigner =>
      obtain ⟨_, -, heq⟩ := Option.map_eq_some_iff.mp h
      cases heq
  | _ => cases h

/-- The demands of a journal are its calls to set the threshold. -/
theorem demanded_actions :
    Attestation.demanded initial (actions t a c J) = thresholdAfter initial (callsOf c J) := by
  induction J using List.reverseRecOn with
  | nil => rfl
  | append_singleton J inv ih =>
      rw [actions_snoc, Attestation.demanded_append, ih, callsOf_append, action?]
      by_cases hself : inv.env.self = c
      · rw [callsOf_singleton_self hself, thresholdAfter_snoc, if_pos hself]
        cases inv.call with
        | addSigner key | removeSigner key =>
            simp only [registryAction?]
            cases BytesN.ofBytes? t.keyLength key <;> rfl
        | _ => rfl
      · rw [callsOf_singleton_of_ne hself, List.append_nil, if_neg hself]
        split
        · cases hsome : submissionAction? t inv.env.ledger inv.call with
          | none => rfl
          | some action =>
              obtain ⟨_, _, _, -, -, rfl⟩ := submissionAction?_eq_some hsome
              rfl
        · rfl

theorem exists_of_actions_eq {before after : List (AttestationAction t)}
    {action : AttestationAction t} (h : actions t a c J = before ++ action :: after) :
    ∃ J₁ inv, J₁ ++ [inv] <+: J ∧ actions t a c J₁ = before ∧
      action? t a c inv = some action := by
  obtain ⟨J₀, J', rfl, hbefore, hrest⟩ := List.filterMap_eq_append_iff.mp h
  obtain ⟨quiet, inv, J₂, rfl, hquiet, haction, -⟩ := List.filterMap_eq_cons_iff.mp hrest
  refine ⟨J₀ ++ quiet, inv, ⟨J₂, by simp⟩, ?_, haction⟩
  rw [actions, List.filterMap_append, hbefore, List.filterMap_eq_nil_iff.mpr hquiet,
    List.append_nil]

/-! ## The submission of an event -/

section Project

variable {ops : List Operation} {sys : System} {s : Security.Storage t}

/-- In every run, each payload was submitted with a quorum. -/
theorem exists_submitted (hrun : Run Genesis (Step p) ops sys)
    (hsecurity : sys.world.contracts c = some (.security t s)) :
    ∃ s₀ : Security.Storage t, Operation.deploy c (.security t s₀) ∈ ops ∧
      ∀ a h, Project sys.world t a h c →
        s.threshold = thresholdAfter s₀.threshold (callsOf c sys.world.journal) ∧
          ∀ eventId payload, h.getPayload eventId = some payload →
            ∃ before inv bytes sigData keys, Submitted p t a c s₀.threshold sys.world.journal
              eventId payload before inv bytes sigData keys := by
  obtain ⟨s₀, hdeploy, hrefines⟩ := refines_of_run hrun hsecurity
  refine ⟨s₀, hdeploy, fun a h hproject => ?_⟩
  have hruns : Refines p t a c s₀.threshold sys.world s.threshold := hrefines a h hproject
  have hstored : sys.world.payloadAt a = h.getPayload := payloadAt_of_handler hproject.handler
  have hthreshold := Attestation.threshold_of_run hruns
  refine ⟨hthreshold.trans demanded_actions, fun eventId payload hpayload => ?_⟩
  obtain ⟨before, now, r, bytes, signers, after, hevidence⟩ :=
    Attestation.evidence_of_run hruns (hstored ▸ hpayload)
  obtain ⟨J₁, inv, hprefix, rfl, haction⟩ := exists_of_actions_eq hevidence.actions_eq
  have hcertificate := hevidence.certificate
  rw [demanded_actions] at hcertificate
  have hcontent : ∃ m, decoded p t bytes = some m ∧ m.eventId = eventId ∧ m.payload = payload := by
    obtain ⟨m, hdecoded, heq⟩ := Option.map_eq_some_iff.mp hevidence.content_eq
    cases heq
    exact ⟨m, hdecoded, rfl, rfl⟩
  unfold action? at haction
  split at haction
  · exact absurd haction registryAction?_ne_attest
  · obtain ⟨hself, hsubmission⟩ := Option.ite_none_right_eq_some.mp haction
    obtain ⟨bytes', sigData, keys, hcall, hkeys, heq⟩ := submissionAction?_eq_some hsubmission
    cases heq
    exact ⟨J₁, inv, bytes, sigData, keys, hprefix, hself, hcall, hcontent, hkeys, hevidence.past,
      hevidence.window, hcertificate⟩

/-- What the threshold of the moment asked for, of the registry at the reference block. -/
noncomputable def asked (t : VerificationType) (c : Address) (initial : Threshold)
    (J before : List Invocation) (r : ℕ) : ℕ :=
  (thresholdAfter initial (callsOf c before)).quota (totalWeight (registryAt t (callsOf c J) r))

/-- The weight of a coalition in the registry at the reference block. -/
noncomputable def coalitionWeight (c : Address) (J : List Invocation) (r : ℕ)
    (coalition : Finset t.PubKey) : ℕ :=
  Totals.weight UInt64.toNat (registryAt t (callsOf c J) r) coalition

/-- In every run, whatever the order and the nesting of its calls, each stored payload was
submitted with a quorum, and no coalition below the quota can have been alone: one of the
signers of the envelope is outside it. -/
theorem event_needs_quorum (hrun : Run Genesis (Step p) ops sys)
    (hsecurity : sys.world.contracts c = some (.security t s)) :
    ∃ s₀ : Security.Storage t, Operation.deploy c (.security t s₀) ∈ ops ∧
      ∀ a h, Project sys.world t a h c →
        s.threshold = thresholdAfter s₀.threshold (callsOf c sys.world.journal) ∧
          ∀ eventId payload, h.getPayload eventId = some payload →
            ∃ before inv bytes sigData keys, Submitted p t a c s₀.threshold sys.world.journal
                eventId payload before inv bytes sigData keys ∧
              ∀ coalition : Finset t.PubKey,
                coalitionWeight c sys.world.journal sigData.referenceBlock coalition <
                  asked t c s₀.threshold sys.world.journal before sigData.referenceBlock →
                ∃ key ∈ keys, key ∉ coalition ∧
                  ∃ sig, Verification.ValidBytes p t bytes sig key := by
  obtain ⟨s₀, hdeploy, hsubmitted⟩ := exists_submitted hrun hsecurity
  refine ⟨s₀, hdeploy, fun a h hproject => ?_⟩
  obtain ⟨hthreshold, hevents⟩ := hsubmitted a h hproject
  refine ⟨hthreshold, fun eventId payload hpayload => ?_⟩
  obtain ⟨before, inv, bytes, sigData, keys, hevent⟩ := hevents eventId payload hpayload
  refine ⟨before, inv, bytes, sigData, keys, hevent, fun coalition hweight => ?_⟩
  obtain ⟨key, houtside, hkey, hsigned⟩ := hevent.certificate.exists_signed hweight
  exact ⟨key, List.mem_toFinset.mp hkey, houtside, hsigned⟩

/-- Two events that handlers on one Security contract accepted at one reference block have
signers in common, of the weight that the two quotas have beyond the total: unless a coalition
weighs that much, someone outside it signed both envelopes.  The quotas are those of the
thresholds that were in force when the events were submitted. -/
theorem events_share_signers (hrun : Run Genesis (Step p) ops sys)
    (hsecurity : sys.world.contracts c = some (.security t s)) :
    ∃ s₀ : Security.Storage t, Operation.deploy c (.security t s₀) ∈ ops ∧
      ∀ a h a' h' eventId payload eventId' payload',
        Project sys.world t a h c → Project sys.world t a' h' c →
        h.getPayload eventId = some payload → h'.getPayload eventId' = some payload' →
        s.threshold = thresholdAfter s₀.threshold (callsOf c sys.world.journal) ∧
        ∃ before inv bytes sigData keys before' inv' bytes' sigData' keys',
          Submitted p t a c s₀.threshold sys.world.journal eventId payload before inv bytes
            sigData keys ∧
          Submitted p t a' c s₀.threshold sys.world.journal eventId' payload' before' inv' bytes'
            sigData' keys' ∧
          (sigData.referenceBlock = sigData'.referenceBlock →
            ∀ coalition : Finset t.PubKey,
              totalWeight (registryAt t (callsOf c sys.world.journal) sigData.referenceBlock) +
                  coalitionWeight c sys.world.journal sigData.referenceBlock coalition <
                asked t c s₀.threshold sys.world.journal before sigData.referenceBlock +
                  asked t c s₀.threshold sys.world.journal before' sigData.referenceBlock →
              ∃ key, key ∉ coalition ∧ key ∈ keys ∧ key ∈ keys' ∧
                (∃ sig, Verification.ValidBytes p t bytes sig key) ∧
                ∃ sig, Verification.ValidBytes p t bytes' sig key) := by
  obtain ⟨s₀, hdeploy, hsubmitted⟩ := exists_submitted hrun hsecurity
  refine ⟨s₀, hdeploy, ?_⟩
  intro a h a' h' eventId payload eventId' payload' hproject hproject' hpayload hpayload'
  obtain ⟨hthreshold, hevents⟩ := hsubmitted a h hproject
  obtain ⟨before, inv, bytes, sigData, keys, hevent⟩ := hevents eventId payload hpayload
  obtain ⟨before', inv', bytes', sigData', keys', hevent'⟩ :=
    (hsubmitted a' h' hproject').2 eventId' payload' hpayload'
  refine ⟨hthreshold, before, inv, bytes, sigData, keys, before', inv', bytes', sigData', keys',
    hevent, hevent', fun hreference coalition hweight => ?_⟩
  have hcertificate' := hevent'.certificate
  rw [← hreference] at hcertificate'
  -- the two sets of signers overlap in more than the coalition
  have hoverlap := hevent.certificate.overlap rfl hcertificate'
  have houtweighs : coalitionWeight c sys.world.journal sigData.referenceBlock coalition <
      coalitionWeight c sys.world.journal sigData.referenceBlock
        (keys.toFinset ∩ keys'.toFinset) :=
    Nat.lt_of_add_lt_add_left (hweight.trans_le hoverlap)
  obtain ⟨key, hkey, houtside⟩ := Totals.exists_mem_notMem houtweighs
  obtain ⟨hmem, hmem'⟩ := Finset.mem_inter.mp hkey
  exact ⟨key, houtside, List.mem_toFinset.mp hmem, List.mem_toFinset.mp hmem',
    hevent.certificate.signed key hmem, hcertificate'.signed key hmem'⟩

end Project

section Sample

theorem sampleState_payload :
    sampleState.getPayload Sample.envelope.eventId = some Sample.payload :=
  Handler.Storage.getPayload_accept _ sampleMessage

theorem event_needs_quorum_sample : ∃ (w : World)
    (before : List Invocation) (inv : Invocation) (bytes : Bytes) (sigData : SignatureData)
    (keys : List Ed25519PubKey),
    Submitted Sample.platform .stellar ⟨3⟩ ⟨1⟩ sampleDeployment.threshold w.journal
        Sample.envelope.eventId Sample.payload before inv bytes sigData keys ∧
      ∀ coalition : Finset Ed25519PubKey,
        coalitionWeight (t := .stellar) ⟨1⟩ w.journal sigData.referenceBlock coalition <
          asked .stellar ⟨1⟩ sampleDeployment.threshold w.journal before sigData.referenceBlock →
        ∃ key ∈ keys, key ∉ coalition ∧
          ∃ sig, Verification.ValidBytes Sample.platform .stellar bytes sig key := by
  obtain ⟨w, hrun, hsecurity, hproject⟩ := exists_accepted
  obtain ⟨s₀, hdeploy, hevents⟩ := event_needs_quorum hrun hsecurity
  obtain rfl := deploys_of_accepted hdeploy
  obtain ⟨before, inv, bytes, sigData, keys, hevent⟩ :=
    (hevents ⟨3⟩ sampleState hproject).2 _ _ sampleState_payload
  exact ⟨w, before, inv, bytes, sigData, keys, hevent⟩

/-! ### Two events

With three signers of weight 1 and a threshold of 2/3, an event takes two of them.  The
first event is signed by the first and the second, the other one by the second and the
third. -/

def thirdKey : Ed25519PubKey := ⟨
    [237, 73, 40, 198, 40, 209, 194, 198, 234, 233, 3, 56, 144, 89, 149, 97, 41, 89, 39, 58, 92,
      99, 249, 54, 54, 193, 70, 20, 172, 135, 55, 209], rfl⟩

/-- The sample envelope for the event after. -/
def secondEnvelope : XlmEnvelope :=
  { Sample.envelope with
    eventId := ⟨
      [17, 34, 51, 68, 85, 102, 119, 136, 153, 170, 187, 204, 221, 238, 255, 0, 1, 2, 3, 5], rfl⟩ }

def secondBytes : Bytes :=
  Sample.envelopeBytes.set 55 5

def secondHash : BytesN 32 := ⟨
    [87, 64, 172, 152, 66, 84, 190, 33, 121, 185, 102, 139, 76, 52, 5, 215, 58, 47, 6, 105, 136,
      114, 30, 233, 141, 160, 3, 48, 120, 228, 158, 71], rfl⟩

def secondHighSignature : Ed25519Signature := ⟨
    [27, 233, 11, 149, 32, 215, 94, 38, 51, 201, 207, 18, 60, 78, 162, 185, 124, 129, 172, 182,
      222, 94, 153, 51, 161, 58, 227, 89, 15, 141, 246, 133, 206, 50, 250, 108, 236, 235, 183, 190,
      234, 239, 91, 66, 159, 39, 238, 7, 143, 24, 163, 21, 75, 44, 226, 12, 72, 20, 211, 177, 19,
      203, 219, 10], rfl⟩

def secondThirdSignature : Ed25519Signature := ⟨
    [187, 41, 155, 236, 249, 154, 10, 12, 170, 74, 181, 19, 192, 94, 128, 22, 148, 35, 240, 20,
      227, 193, 223, 23, 147, 136, 13, 204, 200, 196, 52, 143, 27, 45, 24, 34, 130, 220, 44, 40,
      91, 69, 137, 93, 243, 26, 23, 34, 9, 69, 101, 6, 55, 82, 109, 81, 91, 150, 138, 100, 212,
      231, 14, 1], rfl⟩

/-- The sample platform, which knows both envelopes. -/
def twoEnvelopes : Platform :=
  { Sample.platform with
    sha256 := fun bytes =>
      if bytes = Verification.sep053Prefix ++ secondBytes then secondHash
      else Sample.platform.sha256 bytes
    ed25519Verify := fun key message signature =>
      Sample.platform.ed25519Verify key message signature ||
        decide (message = secondHash.toArray ∧
          (key = Sample.highKey ∧ signature = secondHighSignature ∨
            key = thirdKey ∧ signature = secondThirdSignature))
    xlmEnvelopeFromXdr := fun bytes =>
      if bytes = secondBytes then .ok secondEnvelope
      else Sample.platform.xlmEnvelopeFromXdr bytes }

def secondBundle : SignatureData where
  signers := [Sample.highKey.toArray, thirdKey.toArray]
  signatures := [secondHighSignature.toArray, secondThirdSignature.toArray]
  referenceBlock := 100

def secondMessage : Message :=
  { sampleMessage with eventId := secondEnvelope.eventId }

def threeSigners : Ed25519Security :=
  after [sampleInvocation 10 (.addSigner Sample.lowKey.toArray 1),
    sampleInvocation 11 (.addSigner Sample.highKey.toArray 1),
    sampleInvocation 12 (.addSigner thirdKey.toArray 1)] sampleDeployment

/-- The signers join. -/
def registered : System :=
  ((System.after twoEnvelopes ⟨deployedWorld, 0⟩ (signedByAdmin 10) ⟨1⟩
    (.addSigner Sample.lowKey.toArray 1)).after twoEnvelopes (signedByAdmin 11) ⟨1⟩
    (.addSigner Sample.highKey.toArray 1)).after twoEnvelopes (signedByAdmin 12) ⟨1⟩
    (.addSigner thirdKey.toArray 1)

/-- Both events are submitted. -/
def bothEvents : System :=
  (registered.after twoEnvelopes (unsignedAt 110) ⟨3⟩
    (submission .stellar Sample.envelopeBytes bundle)).after twoEnvelopes (unsignedAt 111) ⟨3⟩
    (submission .stellar secondBytes secondBundle)

def bothEventsOps : List Operation := deployOps ++ [
  .transact (signedByAdmin 10) ⟨1⟩ (.addSigner Sample.lowKey.toArray 1),
  .transact (signedByAdmin 11) ⟨1⟩ (.addSigner Sample.highKey.toArray 1),
  .transact (signedByAdmin 12) ⟨1⟩ (.addSigner thirdKey.toArray 1),
  .transact (unsignedAt 110) ⟨3⟩ (submission .stellar Sample.envelopeBytes bundle),
  .transact (unsignedAt 111) ⟨3⟩ (submission .stellar secondBytes secondBundle)]

theorem bothEvents_run : Run Genesis (Step twoEnvelopes) bothEventsOps bothEvents := by
  have hlow := (deployedWorld_run twoEnvelopes).snoc
    (.transact _ (signedByAdmin 10) ⟨1⟩ (.addSigner Sample.lowKey.toArray 1) (by decide))
  have hhigh := hlow.snoc (.transact _ (signedByAdmin 11) ⟨1⟩
    (.addSigner Sample.highKey.toArray 1) (by decide : 10 ≤ 11))
  have hthird := hhigh.snoc (.transact _ (signedByAdmin 12) ⟨1⟩ (.addSigner thirdKey.toArray 1)
    (by decide : 11 ≤ 12))
  have hfirst := hthird.snoc (.transact _ (unsignedAt 110) ⟨3⟩
    (submission .stellar Sample.envelopeBytes bundle) (by decide : 12 ≤ 110))
  exact hfirst.snoc (.transact _ (unsignedAt 111) ⟨3⟩ (submission .stellar secondBytes secondBundle)
    (by decide : 110 ≤ 111))

set_option maxRecDepth 20000 in
/-- What the contracts did in that run, by their addresses. -/
theorem bothEvents_calls : bothEvents.world.journal.map (fun inv => (inv.env.self, inv.call)) = [
    (⟨1⟩, .addSigner Sample.lowKey.toArray 1),
    (⟨1⟩, .addSigner Sample.highKey.toArray 1),
    (⟨1⟩, .addSigner thirdKey.toArray 1),
    (⟨1⟩, .getSignerWeightsAt bundle.signers 100),
    (⟨1⟩, .requiredWeightAt 100),
    (⟨2⟩, .verify Sample.envelopeBytes bundle.signatures bundle.signers 100),
    (⟨3⟩, submission .stellar Sample.envelopeBytes bundle),
    (⟨1⟩, .getSignerWeightsAt secondBundle.signers 100),
    (⟨1⟩, .requiredWeightAt 100),
    (⟨2⟩, .verify secondBytes secondBundle.signatures secondBundle.signers 100),
    (⟨3⟩, submission .stellar secondBytes secondBundle)] := by
  with_unfolding_all rfl

set_option maxRecDepth 20000 in
theorem bothEvents_security :
    bothEvents.world.contracts ⟨1⟩ = some (.security .stellar threeSigners) := by
  with_unfolding_all rfl

set_option maxRecDepth 20000 in
theorem bothEvents_project : Project bothEvents.world .stellar ⟨3⟩
    (sampleState.accept secondMessage) ⟨1⟩ := by
  refine ⟨?_, Verification.construct Sample.zeroHash ⟨0⟩ ⟨1⟩, ?_, rfl⟩
  · with_unfolding_all rfl
  · with_unfolding_all rfl

theorem bothEvents_threshold {before : List Invocation} (h : before ⊆ bothEvents.world.journal) :
    thresholdAfter sampleDeployment.threshold (callsOf ⟨1⟩ before) = ⟨2, 3⟩ := by
  refine thresholdAfter_of_forall fun inv hinv numerator denominator hcall => ?_
  have hmem : (inv.env.self, inv.call) ∈
      bothEvents.world.journal.map (fun inv => (inv.env.self, inv.call)) :=
    List.mem_map.mpr ⟨inv, h (mem_of_mem_callsOf hinv), rfl⟩
  rw [bothEvents_calls, hcall] at hmem
  simp [submission] at hmem

/-- Both submissions name the reference block 100. -/
theorem bothEvents_reference {inv : Invocation} {bytes : Bytes} {sigData : SignatureData}
    (hmem : inv ∈ bothEvents.world.journal) (hcall : inv.call = submission .stellar bytes sigData) :
    sigData.referenceBlock = 100 := by
  have hpair : (inv.env.self, inv.call) ∈
      bothEvents.world.journal.map (fun inv => (inv.env.self, inv.call)) :=
    List.mem_map.mpr ⟨inv, hmem, rfl⟩
  rw [bothEvents_calls, hcall] at hpair
  simp only [submission, List.mem_cons, Prod.mk.injEq, reduceCtorEq, and_false, false_or,
    Call.verifyXlm.injEq, List.not_mem_nil, or_false] at hpair
  rcases hpair with ⟨-, -, rfl⟩ | ⟨-, -, rfl⟩
  · rfl
  · rfl

theorem bothEvents_total :
    totalWeight (registryAt .stellar (callsOf ⟨1⟩ bothEvents.world.journal) 100) = 3 := by
  have hreach : Reachable twoEnvelopes bothEvents := ⟨_, bothEvents_run⟩
  have hrepresents := (hreach.consistent.security bothEvents_security).represents
  have htotal := hrepresents.getTotalWeightAt_eq (by decide : 111 - historyCutoff ≤ 100)
  have hstored : threeSigners.getTotalWeightAt 100 = some 3 := by decide
  rw [hstored, Option.some_inj] at htotal
  rw [← hrepresents.toNat_totalWeightAt, ← htotal]
  rfl

/-- The two quotas of 2 exceed the total of 3, so someone signed both events. -/
theorem events_share_signers_sample : ∃ (before before' : List Invocation) (inv inv' : Invocation)
    (bytes bytes' : Bytes) (sigData sigData' : SignatureData) (keys keys' : List Ed25519PubKey),
    Submitted twoEnvelopes .stellar ⟨3⟩ ⟨1⟩ sampleDeployment.threshold bothEvents.world.journal
        Sample.envelope.eventId Sample.payload before inv bytes sigData keys ∧
      Submitted twoEnvelopes .stellar ⟨3⟩ ⟨1⟩ sampleDeployment.threshold bothEvents.world.journal
        secondEnvelope.eventId Sample.payload before' inv' bytes' sigData' keys' ∧
      ∃ key ∈ keys, key ∈ keys' ∧
        (∃ sig, Verification.ValidBytes twoEnvelopes .stellar bytes sig key) ∧
          ∃ sig, Verification.ValidBytes twoEnvelopes .stellar bytes' sig key := by
  obtain ⟨s₀, hdeploy, hevents⟩ := events_share_signers bothEvents_run bothEvents_security
  obtain rfl : s₀ = sampleDeployment := by simpa [bothEventsOps, deployOps] using hdeploy
  have hfirst : (sampleState.accept secondMessage).getPayload Sample.envelope.eventId =
      some Sample.payload := by decide
  have hsecond : (sampleState.accept secondMessage).getPayload secondEnvelope.eventId =
      some Sample.payload := Handler.Storage.getPayload_accept _ secondMessage
  obtain ⟨-, before, inv, bytes, sigData, keys, before', inv', bytes', sigData', keys', hevent,
    hevent', hshare⟩ := hevents ⟨3⟩ _ ⟨3⟩ _ _ _ _ _ bothEvents_project bothEvents_project hfirst
      hsecond
  have hmem := hevent.journal.subset (List.mem_append_right before (List.mem_singleton_self inv))
  have hmem' :=
    hevent'.journal.subset (List.mem_append_right before' (List.mem_singleton_self inv'))
  have hreference := bothEvents_reference hmem hevent.call
  have hreference' := bothEvents_reference hmem' hevent'.call
  have hasked : ∀ before, before ⊆ bothEvents.world.journal → asked .stellar ⟨1⟩
      sampleDeployment.threshold bothEvents.world.journal before 100 = 2 := by
    intro before hsubset
    rw [asked, bothEvents_threshold hsubset, bothEvents_total]
    rfl
  obtain ⟨key, -, hkey, hkey', hsigned, hsigned'⟩ :=
    hshare (hreference.trans hreference'.symm) ∅ (by
      rw [hreference, bothEvents_total,
        hasked _ fun i hi => hevent.journal.subset (List.mem_append_left _ hi),
        hasked _ fun i hi => hevent'.journal.subset (List.mem_append_left _ hi)]
      simp [coalitionWeight, Totals.weight])
  exact ⟨before, before', inv, inv', bytes, bytes', sigData, sigData', keys, keys', hevent, hevent',
    key, hkey, hkey', hsigned, hsigned'⟩

end Sample

end WarpDrive
