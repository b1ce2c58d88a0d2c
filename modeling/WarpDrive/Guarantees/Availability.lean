import WarpDrive.Guarantees.Attestation

/-!
# How long a quorum is good

A bundle is signed for a reference block, and may be submitted for the next 200 ledgers,
while the administrators go on changing the registry.  `Advances` says what any run
leaves alone: what is in the journal, and what each contract is.  So the registry at a
reference block that has passed stays what it is, and `submission_iff_of_quorum` follows:
all that later operations can take from a quorum is the threshold, which is read when the
bundle is submitted, and all that can use it up is the event itself.

The signatures name no handler.  A bundle that one handler accepted is therefore good for
every other handler on the same Security contract (`bundle_is_portable`).
-/

namespace WarpDrive

open Security Handler Transition

variable {p : Platform} {t : VerificationType} {a a' c : Address} {sys sys' sys'' : System}
  {ops : List Operation} {r : ℕ} {bytes : Bytes} {sigs : List Bytes} {keys : List t.PubKey}

/-! ## What a run leaves alone -/

structure Advances (sys sys' : System) : Prop where
  ledger : sys.ledger ≤ sys'.ledger
  journal : ∃ J, sys'.world.journal = sys.world.journal ++ J ∧
    ∀ inv ∈ J, sys.ledger ≤ inv.env.ledger
  shape : ∀ d shape, sys.world.shape d = some shape → sys'.world.shape d = some shape

theorem Advances.refl (sys : System) : Advances sys sys :=
  ⟨le_rfl, ⟨[], (List.append_nil _).symm, by simp⟩, fun _ _ h => h⟩

theorem Advances.trans (h : Advances sys sys') (h' : Advances sys' sys'') :
    Advances sys sys'' := by
  obtain ⟨J, hJ, hlate⟩ := h.journal
  obtain ⟨J', hJ', hlate'⟩ := h'.journal
  refine ⟨h.ledger.trans h'.ledger, ⟨J ++ J', by rw [hJ', hJ, List.append_assoc], ?_⟩,
    fun d shape hd => h'.shape d shape (h.shape d shape hd)⟩
  intro inv hinv
  rcases List.mem_append.mp hinv with hinv | hinv
  · exact hlate inv hinv
  · exact h.ledger.trans (hlate' inv hinv)

theorem Step.advances {op : Operation} (h : Step p sys op sys') : Advances sys sys' := by
  cases h with
  | deploy d inst hfresh hdeployed =>
      refine ⟨le_rfl, ⟨[], (List.append_nil _).symm, by simp⟩, fun e shape he => ?_⟩
      have hne : e ≠ d := by
        rintro rfl
        rw [World.shape, hfresh] at he
        cases he
      exact (congrArg (Option.map Instance.shape) (Function.update_of_ne hne ..)).trans he
  | transact tx target call hledger =>
      obtain ⟨J, hextends⟩ := invoke_extends p tx depthLimit [] target call sys.world
      refine ⟨hledger, ⟨J, hextends.journal, fun inv hinv => ?_⟩, fun d shape hd => ?_⟩
      · rw [hextends.ledger inv hinv]
        exact hledger
      · rw [invoke_shape]
        exact hd

theorem advances_of_path (h : Path (Step p) sys ops sys') : Advances sys sys' := by
  induction h with
  | nil => exact .refl _
  | snoc _ hstep ih => exact ih.trans hstep.advances

theorem Reachable.path (h : Reachable p sys) (hpath : Path (Step p) sys ops sys') :
    Reachable p sys' := by
  obtain ⟨ops₀, hrun⟩ := h
  exact ⟨_, hrun.append hpath⟩

/-- The registry at a ledger that has passed is settled. -/
theorem Advances.registryAt (h : Advances sys sys') (hr : r < sys.ledger) :
    registryAt t (callsOf c sys'.world.journal) r
      = registryAt t (callsOf c sys.world.journal) r := by
  obtain ⟨J, hJ, hlate⟩ := h.journal
  rw [hJ, callsOf_append]
  apply registryAt_append_of_lt
  intro inv hinv
  exact hr.trans_le (hlate inv (mem_of_mem_callsOf hinv))

theorem World.exists_of_shape {w : World} {d : Address} {shape : Shape}
    (h : w.shape d = some shape) : ∃ inst, w.contracts d = some inst ∧ inst.shape = shape :=
  Option.map_eq_some_iff.mp h

/-- A Security contract stays one. -/
theorem Advances.security (h : Advances sys sys') {s : Security.Storage t}
    (hsecurity : sys.world.contracts c = some (.security t s)) :
    ∃ s', sys'.world.contracts c = some (.security t s') := by
  obtain ⟨inst, hinst, hshape⟩ :=
    World.exists_of_shape (h.shape c _ (World.shape_of_contracts hsecurity))
  obtain ⟨s', rfl⟩ := Instance.eq_security hshape
  exact ⟨s', hinst⟩

/-- A project stays one. -/
theorem Advances.project (h : Advances sys sys') {handler : Handler.Storage}
    (hproject : Project sys.world t a handler c) :
    ∃ handler', Project sys'.world t a handler' c := by
  obtain ⟨hhandler, v, hverification, rfl⟩ := hproject
  obtain ⟨inst, hinst, hshape⟩ :=
    World.exists_of_shape (h.shape a _ (World.shape_of_contracts hhandler))
  obtain ⟨handler', rfl, hlink⟩ := Instance.eq_handler hshape
  obtain ⟨inst', hinst', hshape'⟩ :=
    World.exists_of_shape (h.shape _ _ (World.shape_of_contracts hverification))
  obtain ⟨v', rfl, hlink'⟩ := Instance.eq_verification hshape'
  exact ⟨handler', hinst, v', hlink ▸ hinst', hlink'⟩

/-! ## Submitting a bundle -/

theorem Quorum.iff_of_quorum {threshold threshold' : Threshold} {registry : t.PubKey →₀ UInt64}
    (h : Quorum p threshold registry bytes sigs keys) :
    Quorum p threshold' registry bytes sigs keys ↔
      0 < threshold'.quota (totalWeight registry) ∧
        threshold'.quota (totalWeight registry) ≤ weightOf registry keys := by
  constructor
  · intro h'
    exact ⟨h'.required_pos, h'.reached⟩
  · rintro ⟨hpos, hreached⟩
    exact ⟨h.nonempty, h.length, h.ascending, h.valid, h.registered, hpos, hreached⟩

/-- The signature data of a bundle. -/
def bundleOf (keys : List t.PubKey) (sigs : List Bytes) (r : ℕ) : SignatureData where
  signers := keys.map BytesN.toArray
  signatures := sigs
  referenceBlock := r

section Submission

variable {tx : Transaction} {handler : Handler.Storage} {s : Security.Storage t}
  {threshold : Threshold} {m : Message}

/-- In the window, a bundle with a quorum for some threshold is accepted exactly if the event
is new and the current threshold asks no more than the signers weigh. -/
theorem submission_iff_of_quorum (hreach : Reachable p sys) (hledger : sys.ledger ≤ tx.ledger)
    (hproject : Project sys.world t a handler c)
    (hsecurity : sys.world.contracts c = some (.security t s))
    (hquorum : Quorum p threshold (registryAt t (callsOf c sys.world.journal) r) bytes sigs keys)
    (hdecoded : decoded p t bytes = some m) (hpast : r < tx.ledger)
    (hwindow : tx.ledger - r ≤ 200) :
    (invoke p tx depthLimit [] a (submission t bytes (bundleOf keys sigs r)) sys.world).1 =
        .ok .void ↔
      handler.isEventSeen m.eventId = false ∧
        0 < s.threshold.quota (totalWeight (registryAt t (callsOf c sys.world.journal) r)) ∧
        s.threshold.quota (totalWeight (registryAt t (callsOf c sys.world.journal) r)) ≤
          weightOf (registryAt t (callsOf c sys.world.journal) r) keys := by
  obtain ⟨hhandler, v, hverification, rfl⟩ := hproject
  have hvalid : validateReferenceBlock tx.ledger r = .ok () :=
    validateReferenceBlock_eq_ok.mpr ⟨hpast, hwindow⟩
  have hoccurs : Occurs p tx [] sys.world := hreach.occurs hledger
  have hne : handler.verificationContract ∉ [a] := by
    simpa using World.ne_of_contracts hverification hhandler nofun
  have hne' : v.securityContract ∉ [a] := by
    simpa using World.ne_of_contracts hsecurity hhandler nofun
  have hverify : (invoke p tx 99 [a] handler.verificationContract
      (.verify bytes sigs (keys.map BytesN.toArray) r) sys.world).1 = .ok .void ↔ _ :=
    invoke_verify_iff_quorum (hoccurs.security hsecurity)
      (sub_historyCutoff_le_of_validateReferenceBlock hvalid) hne hne' hverification hsecurity
  rw [depthLimit, invoke_submission_eq_ok List.not_mem_nil hhandler]
  constructor
  · rintro ⟨-, m', hdecoded', hnew, hok⟩
    rw [hdecoded] at hdecoded'
    cases hdecoded'
    obtain ⟨keys', hkeys', hquorum'⟩ := hverify.mp hok
    obtain rfl : keys' = keys := List.map_injective_iff.mpr BytesN.toArray_injective hkeys'
    exact ⟨hnew, hquorum.iff_of_quorum.mp hquorum'⟩
  · rintro ⟨hnew, hreached⟩
    exact ⟨hvalid, m, hdecoded, hnew,
      hverify.mpr ⟨keys, rfl, hquorum.iff_of_quorum.mpr hreached⟩⟩

/-- A quorum for a reference block that has passed is good for the whole window, whatever
happens in between: any transaction may submit it, and it is accepted exactly if the handler
has not seen the event and the threshold still asks no more than the signers weighed. -/
theorem quorum_lasts (hreach : Reachable p sys) (hproject : Project sys.world t a handler c)
    (hsecurity : sys.world.contracts c = some (.security t s))
    (hquorum : Quorum p s.threshold (registryAt t (callsOf c sys.world.journal) r) bytes sigs keys)
    (hdecoded : decoded p t bytes = some m) (hr : r < sys.ledger)
    (hpath : Path (Step p) sys ops sys') (hledger : sys'.ledger ≤ tx.ledger)
    (hwindow : tx.ledger - r ≤ 200) :
    ∃ handler' s', Project sys'.world t a handler' c ∧
      sys'.world.contracts c = some (.security t s') ∧
      ((invoke p tx depthLimit [] a (submission t bytes (bundleOf keys sigs r)) sys'.world).1 =
          .ok .void ↔
        handler'.isEventSeen m.eventId = false ∧
          0 < s'.threshold.quota (totalWeight (registryAt t (callsOf c sys.world.journal) r)) ∧
          s'.threshold.quota (totalWeight (registryAt t (callsOf c sys.world.journal) r)) ≤
            weightOf (registryAt t (callsOf c sys.world.journal) r) keys) := by
  have hadvances := advances_of_path hpath
  obtain ⟨handler', hproject'⟩ := hadvances.project hproject
  obtain ⟨s', hsecurity'⟩ := hadvances.security hsecurity
  have hsettled := hadvances.registryAt (t := t) (c := c) hr
  rw [← hsettled] at hquorum ⊢
  exact ⟨handler', s', hproject', hsecurity',
    submission_iff_of_quorum (hreach.path hpath) hledger hproject' hsecurity' hquorum hdecoded
      (hr.trans_le (hadvances.ledger.trans hledger)) hwindow⟩

/-- What a handler accepted had a quorum. -/
theorem exists_quorum_of_accepted {sigData : SignatureData}
    (hreach : Reachable p sys) (hledger : sys.ledger ≤ tx.ledger)
    (hproject : Project sys.world t a handler c)
    (hsecurity : sys.world.contracts c = some (.security t s))
    (hok : (invoke p tx depthLimit [] a (submission t bytes sigData) sys.world).1 = .ok .void) :
    sigData.referenceBlock < tx.ledger ∧ ∃ m, decoded p t bytes = some m ∧
      ∃ keys : List t.PubKey, sigData = bundleOf keys sigData.signatures sigData.referenceBlock ∧
        Quorum p s.threshold
          (registryAt t (callsOf c sys.world.journal) sigData.referenceBlock) bytes
          sigData.signatures keys := by
  obtain ⟨hhandler, v, hverification, rfl⟩ := hproject
  obtain ⟨hvalid, m, hdecoded, -, hverify⟩ :=
    (invoke_submission_eq_ok List.not_mem_nil hhandler).mp hok
  have hne : handler.verificationContract ∉ [a] := by
    simpa using World.ne_of_contracts hverification hhandler nofun
  have hne' : v.securityContract ∉ [a] := by
    simpa using World.ne_of_contracts hsecurity hhandler nofun
  have hoccurs : Occurs p tx [] sys.world := hreach.occurs hledger
  obtain ⟨keys, hkeys, hquorum⟩ := (invoke_verify_iff_quorum (hoccurs.security hsecurity)
    (sub_historyCutoff_le_of_validateReferenceBlock hvalid) hne hne' hverification
    hsecurity).mp hverify
  refine ⟨(validateReferenceBlock_eq_ok.mp hvalid).1, m, hdecoded, keys, ?_, hquorum⟩
  rw [bundleOf, hkeys]

/-- The system after a transaction. -/
def System.after (p : Platform) (sys : System) (tx : Transaction) (target : Address)
    (call : Call) : System :=
  ⟨(invoke p tx depthLimit [] target call sys.world).2, tx.ledger⟩

/-- After an accepted submission, only the handler is different. -/
theorem after_submission {sigData : SignatureData} (hproject : Project sys.world t a handler c)
    (hsecurity : sys.world.contracts c = some (.security t s))
    (hok : (invoke p tx depthLimit [] a (submission t bytes sigData) sys.world).1 = .ok .void) :
    ∃ m, decoded p t bytes = some m ∧
      (sys.after p tx a (submission t bytes sigData)).world.contracts =
        Function.update sys.world.contracts a (some (.handler t (handler.accept m))) := by
  refine invoke_submission_leaves hproject (fun shape hshape => ?_) hok
  exact (Option.some.inj ((World.shape_of_contracts hsecurity).symm.trans hshape)).symm

/-- A bundle that one handler accepted is good for every handler on the same Security contract,
at any later point in the window: each accepts it once, as long as the threshold asks no more
than the signers weighed. -/
theorem bundle_is_portable {tx' : Transaction} {handler' : Handler.Storage}
    {s' : Security.Storage t} {sigData : SignatureData} (hreach : Reachable p sys)
    (hledger : sys.ledger ≤ tx.ledger) (hproject : Project sys.world t a handler c)
    (hsecurity : sys.world.contracts c = some (.security t s))
    (hok : (invoke p tx depthLimit [] a (submission t bytes sigData) sys.world).1 = .ok .void)
    (hpath : Path (Step p) (sys.after p tx a (submission t bytes sigData)) ops sys')
    (hledger' : sys'.ledger ≤ tx'.ledger)
    (hwindow : tx'.ledger - sigData.referenceBlock ≤ 200)
    (hproject' : Project sys'.world t a' handler' c)
    (hsecurity' : sys'.world.contracts c = some (.security t s')) :
    ∃ m, decoded p t bytes = some m ∧ ∃ keys : List t.PubKey,
      keys.map BytesN.toArray = sigData.signers ∧
      ((invoke p tx' depthLimit [] a' (submission t bytes sigData) sys'.world).1 = .ok .void ↔
        handler'.isEventSeen m.eventId = false ∧
          0 < s'.threshold.quota (totalWeight
            (registryAt t (callsOf c sys.world.journal) sigData.referenceBlock)) ∧
          s'.threshold.quota (totalWeight
              (registryAt t (callsOf c sys.world.journal) sigData.referenceBlock)) ≤
            weightOf (registryAt t (callsOf c sys.world.journal) sigData.referenceBlock) keys) := by
  obtain ⟨hpast, m, hdecoded, keys, hbundle, hquorum⟩ :=
    exists_quorum_of_accepted hreach hledger hproject hsecurity hok
  have hstep : Step p sys (.transact tx a (submission t bytes sigData))
      (sys.after p tx a (submission t bytes sigData)) := .transact sys tx a _ hledger
  have hreach' : Reachable p sys' := (hreach.path ((Path.nil sys).snoc hstep)).path hpath
  have hadvances := advances_of_path hpath
  -- the transaction itself is later than the reference block, and so is all that follows
  have hfirst : registryAt t
      (callsOf c (sys.after p tx a (submission t bytes sigData)).world.journal)
      sigData.referenceBlock
      = registryAt t (callsOf c sys.world.journal) sigData.referenceBlock := by
    obtain ⟨J, hextends⟩ :=
      invoke_extends p tx depthLimit [] a (submission t bytes sigData) sys.world
    rw [System.after, hextends.journal, callsOf_append]
    apply registryAt_append_of_lt
    intro inv hinv
    rw [hextends.ledger inv (mem_of_mem_callsOf hinv)]
    exact hpast
  have hsettled := (hadvances.registryAt (t := t) (c := c) hpast).trans hfirst
  refine ⟨m, hdecoded, keys, ?_, ?_⟩
  · rw [hbundle]
    rfl
  · rw [← hsettled] at hquorum ⊢
    have hiff := submission_iff_of_quorum hreach' hledger' hproject' hsecurity' hquorum hdecoded
      (hpast.trans_le (hadvances.ledger.trans hledger')) hwindow
    rw [← hbundle] at hiff
    exact hiff

end Submission

/-! ## A signer leaves

The sample project at ledger 105: the administrator removes a signer, and the bundle that both
signed at ledger 100 is submitted afterwards.  Once it was accepted, a second handler is
deployed, and it is submitted there. -/

section Sample

def leaving : Call := .removeSigner Sample.lowKey.toArray

theorem sampleQuorum : Quorum (t := .stellar) Sample.platform ⟨2, 3⟩
    (registryAt .stellar (callsOf ⟨1⟩ projectWorld.journal) 100) Sample.envelopeBytes
    [Sample.lowSignature.toArray, Sample.highSignature.toArray]
    [Sample.lowKey, Sample.highKey] := by
  have hcalls : callsOf ⟨1⟩ projectWorld.journal = twoSigners := rfl
  exact hcalls ▸ accepts_both.quorum twoSigners_reaches.represents

theorem sampleProject_verifies : Project projectWorld .stellar ⟨3⟩
    (Handler.construct Sample.zeroHash ⟨0⟩ ⟨2⟩) ⟨1⟩ :=
  ⟨rfl, Verification.construct Sample.zeroHash ⟨0⟩ ⟨1⟩, rfl, rfl⟩

/-- Time passes: a transaction that reaches no contract. -/
theorem projectWorld_later : Reachable Sample.platform ⟨projectWorld, 105⟩ := by
  have hnone : invoke Sample.platform (unsignedAt 105) depthLimit [] ⟨8⟩ .admin projectWorld =
      (.error .abort, projectWorld) := by
    rw [depthLimit, invoke, if_neg List.not_mem_nil]
    rfl
  have hstep : Step Sample.platform ⟨projectWorld, 11⟩ (.transact (unsignedAt 105) ⟨8⟩ .admin)
      ⟨(invoke Sample.platform (unsignedAt 105) depthLimit [] ⟨8⟩ .admin projectWorld).2, 105⟩ :=
    .transact _ _ _ _ (by decide)
  rw [hnone] at hstep
  exact projectWorld_reachable.path ((Path.nil _).snoc hstep)

theorem quorum_lasts_sample :
    ∃ (sys' : System) (handler' : Handler.Storage) (s' : Ed25519Security),
      sys' = System.after Sample.platform ⟨projectWorld, 105⟩ (signedByAdmin 106) ⟨1⟩ leaving ∧
      Project sys'.world .stellar ⟨3⟩ handler' ⟨1⟩ ∧
      sys'.world.contracts ⟨1⟩ = some (.security .stellar s') ∧
      ((invoke Sample.platform (unsignedAt 110) depthLimit [] ⟨3⟩ (submission .stellar
          Sample.envelopeBytes (bundleOf (t := .stellar) [Sample.lowKey, Sample.highKey]
            [Sample.lowSignature.toArray, Sample.highSignature.toArray] 100)) sys'.world).1 =
          .ok .void ↔
        handler'.isEventSeen Sample.envelope.eventId = false ∧
          0 < s'.threshold.quota (totalWeight (registryAt .stellar twoSigners 100)) ∧
          s'.threshold.quota (totalWeight (registryAt .stellar twoSigners 100)) ≤
            weightOf (registryAt .stellar twoSigners 100) [Sample.lowKey, Sample.highKey]) := by
  have hstep : Step Sample.platform ⟨projectWorld, 105⟩ (.transact (signedByAdmin 106) ⟨1⟩ leaving)
      (System.after Sample.platform ⟨projectWorld, 105⟩ (signedByAdmin 106) ⟨1⟩ leaving) :=
    .transact _ _ _ _ (by decide)
  obtain ⟨handler', s', hlasts⟩ := quorum_lasts (t := .stellar) projectWorld_later
    sampleProject_verifies (rfl : projectWorld.contracts ⟨1⟩ = some (.security .stellar
      twoSignersState)) sampleQuorum sample_decoded (by decide : 100 < 105)
      ((Path.nil _).snoc hstep) (by decide : 106 ≤ (unsignedAt 110).ledger) (by decide)
  exact ⟨_, handler', s', rfl, hlasts⟩

/-- The sample project, with a second handler at address 4. -/
def twoHandlers : World where
  contracts := Function.update projectWorld.contracts ⟨4⟩
    (some (.handler .stellar (Handler.construct Sample.zeroHash ⟨0⟩ ⟨2⟩)))
  journal := projectWorld.journal

theorem twoHandlers_reachable : Reachable Sample.platform ⟨twoHandlers, 11⟩ :=
  projectWorld_reachable.path ((Path.nil _).snoc (.deploy _ ⟨4⟩
    (.handler .stellar (Handler.construct Sample.zeroHash ⟨0⟩ ⟨2⟩)) rfl ⟨_, _, _, rfl⟩))

theorem twoHandlers_project : Project twoHandlers .stellar ⟨3⟩
    (Handler.construct Sample.zeroHash ⟨0⟩ ⟨2⟩) ⟨1⟩ :=
  ⟨rfl, Verification.construct Sample.zeroHash ⟨0⟩ ⟨1⟩, rfl, rfl⟩

theorem bundle_is_portable_sample : ∃ (sys' : System) (keys : List Ed25519PubKey),
    Project sys'.world .stellar ⟨3⟩ sampleState ⟨1⟩ ∧ keys.map BytesN.toArray = bundle.signers ∧
      ((invoke Sample.platform (unsignedAt 120) depthLimit [] ⟨4⟩
          (submission .stellar Sample.envelopeBytes bundle) sys'.world).1 = .ok .void ↔
        0 < (⟨2, 3⟩ : Threshold).quota (totalWeight (registryAt .stellar twoSigners 100)) ∧
          (⟨2, 3⟩ : Threshold).quota (totalWeight (registryAt .stellar twoSigners 100)) ≤
            weightOf (registryAt .stellar twoSigners 100) keys) := by
  have hsecurity : (⟨twoHandlers, 11⟩ : System).world.contracts ⟨1⟩ =
      some (.security .stellar twoSignersState) := rfl
  obtain ⟨m, hdecoded, hcontracts⟩ :=
    after_submission twoHandlers_project hsecurity (submission_accepted rfl rfl rfl)
  rw [sample_decoded] at hdecoded
  cases hdecoded
  have hproject : ∀ d handler, Function.update twoHandlers.contracts ⟨3⟩
      (some (.handler .stellar sampleState)) d = some (.handler .stellar handler) →
      handler.verificationContract = ⟨2⟩ →
      Project (System.after Sample.platform ⟨twoHandlers, 11⟩ (unsignedAt 110) ⟨3⟩
        (submission .stellar Sample.envelopeBytes bundle)).world .stellar d handler ⟨1⟩ := by
    intro d handler hhandler hlink
    refine ⟨?_, Verification.construct Sample.zeroHash ⟨0⟩ ⟨1⟩, ?_, rfl⟩
    · rw [hcontracts]
      exact hhandler
    · rw [hcontracts, hlink]
      rfl
  have hsecurity' : (System.after Sample.platform ⟨twoHandlers, 11⟩ (unsignedAt 110) ⟨3⟩
      (submission .stellar Sample.envelopeBytes bundle)).world.contracts ⟨1⟩ =
        some (.security .stellar twoSignersState) := by
    rw [hcontracts]
    rfl
  obtain ⟨m, -, keys, hkeys, hiff⟩ := bundle_is_portable twoHandlers_reachable
    (by decide : 11 ≤ (unsignedAt 110).ledger) twoHandlers_project hsecurity
    (submission_accepted rfl rfl rfl) (Path.nil _) (by decide : 110 ≤ (unsignedAt 120).ledger)
    (by decide)
    (hproject ⟨4⟩ (Handler.construct Sample.zeroHash ⟨0⟩ ⟨2⟩) rfl rfl) hsecurity'
  exact ⟨_, keys, hproject ⟨3⟩ sampleState rfl rfl, hkeys,
    hiff.trans ⟨And.right, fun h => ⟨rfl, h⟩⟩⟩

end Sample

end WarpDrive
