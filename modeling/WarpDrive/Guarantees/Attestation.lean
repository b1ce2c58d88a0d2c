import WarpDrive.Guarantees.Acceptance
import WarpDrive.Library.Attestation
import WarpDrive.System.Administration
import WarpDrive.System.Commits

/-!
# What a project is for

A handler, the Verification contract it points at and the Security contract that one
points at together implement attestation by weighted signers: the registry is the
weights, the threshold is the threshold, the payloads are what is recorded.  `actions`
reads the history of the abstract store off the journal; every other invocation, by
whomever and in whatever nesting, is invisible to it.

`attestation_refinement` is the connection: in every reachable system the journal of a
project is a run of the abstract transition system, and it ends in what the three
contracts have stored.
-/

namespace WarpDrive

open Security Handler Transition

/-- What the contracts of a scheme attest. -/
def attestationScheme (p : Platform) (t : VerificationType) :
    Attestation.Scheme t.PubKey UInt64 Threshold Bytes (BytesN 20) Bytes where
  size := UInt64.toNat
  asks threshold total := threshold.quota total
  signed key envelope := ∃ sig, Verification.ValidBytes p t envelope sig key
  content envelope := (decoded p t envelope).map fun m => (m.eventId, m.payload)
  window := maxReferenceBlockAge

section Actions

variable (t : VerificationType) (a c : Address)

abbrev AttestationAction : Type := Attestation.Action t.PubKey UInt64 Threshold Bytes

/-- A call of a Security contract, as an action on the weights or the threshold. -/
def registryAction? (ledger : ℕ) : Call → Option (AttestationAction t)
  | .addSigner key weight =>
      (BytesN.ofBytes? t.keyLength key).map fun key => .weigh ledger key weight
  | .removeSigner key => (BytesN.ofBytes? t.keyLength key).map fun key => .weigh ledger key 0
  | .setThreshold numerator denominator => some (.demand ledger ⟨numerator, denominator⟩)
  | _ => none

def attest? (ledger : ℕ) (bytes : Bytes) (sigData : SignatureData) :
    Option (AttestationAction t) :=
  (bytesVec? t.keyLength sigData.signers).map fun keys =>
    .attest ledger sigData.referenceBlock bytes keys.toFinset

/-- A call of a handler, as an attestation. -/
def submissionAction? (ledger : ℕ) : Call → Option (AttestationAction t)
  | .verifyEth bytes sigData => if t = .ethereum then attest? t ledger bytes sigData else none
  | .verifyXlm bytes sigData => if t = .stellar then attest? t ledger bytes sigData else none
  | _ => none

/-- What an invocation means to the project of the handler `a` and the Security contract `c`. -/
def action? (inv : Invocation) : Option (AttestationAction t) :=
  if inv.env.self = c then registryAction? t inv.env.ledger inv.call
  else if inv.env.self = a then submissionAction? t inv.env.ledger inv.call
  else none

/-- The actions of a journal. -/
def actions (J : List Invocation) : List (AttestationAction t) :=
  J.filterMap (action? t a c)

/-- The payload that a contract has stored for an event. -/
def Instance.payload? (eventId : BytesN 20) : Instance → Option Bytes
  | handler _ s => s.getPayload eventId
  | _ => none

/-- The payloads that the contract at `a` has stored. -/
def World.payloadAt (w : World) (a : Address) (eventId : BytesN 20) : Option Bytes :=
  (w.contracts a).bind (Instance.payload? eventId)

/-- What the project has stored, as the abstract store. -/
noncomputable def World.attestation (w : World) (threshold : Threshold) :
    Attestation.State t.PubKey UInt64 Threshold (BytesN 20) Bytes where
  now := Attestation.lastTime (actions t a c w.journal)
  weights := registryAt t (callsOf c w.journal)
  threshold := threshold
  accepted := w.payloadAt a

/-- As far as they are deployed, `a` is a handler on `b`, which verifies against `c`. -/
structure Wired (b : Address) (w : World) : Prop where
  handler : ∀ shape, w.shape a = some shape → shape = .handler t b
  verification : ∀ shape, w.shape b = some shape → shape = .verification t c
  security : ∀ shape, w.shape c = some shape → shape = .security t

end Actions

variable {p : Platform} {t : VerificationType} {a b c : Address} {w w' : World}
  {J : List Invocation} {inv : Invocation}

/-! ## The actions of a journal -/

theorem actions_snoc : actions t a c (J ++ [inv]) =
    actions t a c J ++ (action? t a c inv).toList := by
  rw [actions, List.filterMap_append, List.filterMap_cons, List.filterMap_nil]
  cases action? t a c inv <;> rfl

theorem now_of_registryAction? {ledger : ℕ} {call : Call} {action : AttestationAction t}
    (h : registryAction? t ledger call = some action) : action.now = ledger := by
  cases call with
  | addSigner key weight | removeSigner key =>
      obtain ⟨_, -, rfl⟩ := Option.map_eq_some_iff.mp h
      rfl
  | setThreshold =>
      cases h
      rfl
  | _ => cases h

theorem now_of_submissionAction? {ledger : ℕ} {call : Call} {action : AttestationAction t}
    (h : submissionAction? t ledger call = some action) : action.now = ledger := by
  cases call with
  | verifyEth bytes sigData | verifyXlm bytes sigData =>
      rw [submissionAction?, Option.ite_none_right_eq_some] at h
      obtain ⟨_, -, rfl⟩ := Option.map_eq_some_iff.mp h.2
      rfl
  | _ => cases h

theorem now_of_action? {action : AttestationAction t} (h : action? t a c inv = some action) :
    action.now = inv.env.ledger := by
  unfold action? at h
  split at h
  · exact now_of_registryAction? h
  · split at h
    · exact now_of_submissionAction? h
    · cases h

/-- The actions so far are not later than the journal. -/
theorem lastTime_actions_le {L : ℕ} (h : ∀ inv ∈ J, inv.env.ledger ≤ L) :
    Attestation.lastTime (actions t a c J) ≤ L := by
  apply Attestation.lastTime_le
  intro action haction
  obtain ⟨inv, hinv, hsome⟩ := List.mem_filterMap.mp haction
  rw [now_of_action? hsome]
  exact h inv hinv

theorem submissionAction?_submission (ledger : ℕ) (bytes : Bytes) (sigData : SignatureData) :
    submissionAction? t ledger (submission t bytes sigData) = attest? t ledger bytes sigData := by
  cases t <;> rfl

theorem submissionAction?_eq_none {ledger : ℕ} {call : Call}
    (h : ∀ bytes sigData, call ≠ submission t bytes sigData) :
    submissionAction? t ledger call = none := by
  cases call with
  | verifyEth bytes sigData =>
      cases t with
      | ethereum => exact absurd rfl (h bytes sigData)
      | stellar => rfl
  | verifyXlm bytes sigData =>
      cases t with
      | ethereum => rfl
      | stellar => exact absurd rfl (h bytes sigData)
  | _ => rfl

theorem registryAction?_of_not_isRegistry {ledger : ℕ} {call : Call}
    (h : call.isRegistry = false) : registryAction? t ledger call = none := by
  cases call <;> first | rfl | cases h

/-! ## The contracts of a project -/

theorem Instance.eq_security {inst : Instance} (h : inst.shape = .security t) :
    ∃ s, inst = .security t s := by
  cases inst with
  | security t' s =>
      cases h
      exact ⟨s, rfl⟩
  | _ => cases h

theorem Instance.eq_verification {inst : Instance} (h : inst.shape = .verification t c) :
    ∃ v, inst = .verification t v ∧ v.securityContract = c := by
  cases inst with
  | verification t' v =>
      cases h
      exact ⟨v, rfl, rfl⟩
  | _ => cases h

theorem Instance.eq_handler {inst : Instance} (h : inst.shape = .handler t b) :
    ∃ s, inst = .handler t s ∧ s.verificationContract = b := by
  cases inst with
  | handler t' s =>
      cases h
      exact ⟨s, rfl, rfl⟩
  | _ => cases h

theorem World.shape_of_contracts {inst : Instance} (h : w.contracts a = some inst) :
    w.shape a = some inst.shape := by
  rw [World.shape, h, Option.map_some]

/-- What is deployed keeps its shape, so a project is wired as it was before. -/
theorem Wired.mono (h : Wired t a c b w')
    (hkept : ∀ a shape, w.shape a = some shape → w'.shape a = some shape) : Wired t a c b w where
  handler shape hshape := h.handler shape (hkept a shape hshape)
  verification shape hshape := h.verification shape (hkept b shape hshape)
  security shape hshape := h.security shape (hkept c shape hshape)

theorem Extends.shape {tx : Transaction} {stack : List Address} (h : Extends p tx stack w w' J) :
    w'.shape = w.shape := by
  funext a
  unfold World.shape
  cases ha : w.contracts a with
  | none => rw [(h.absent a ha).1]
  | some inst =>
      obtain ⟨inst', hinst', hpath⟩ := h.evolves a inst ha
      rw [hinst', Option.map_some, Option.map_some, Instance.shape_of_path hpath]

section Commit

variable {tx : Transaction} {stack : List Address} {target : Address} {call : Call}
  {inst : Instance} {frame : Frame Instance World}

theorem Commits.shape_below (h : Commits p tx stack target call w inst frame) :
    frame.world.shape = w.shape := by
  obtain ⟨J, hextends⟩ := h.extends_below
  exact hextends.shape

theorem Commits.shape_commit (h : Commits p tx stack target call w inst frame) (inv : Invocation) :
    (frame.world.commit target frame.storage inv).shape = frame.world.shape := by
  funext d
  by_cases hd : d = target
  · subst hd
    rw [World.shape, World.commit_contracts_self, Option.map_some, h.executes.shape,
      World.shape_of_contracts h.inst_eq_below]
  · rw [World.shape, World.commit_contracts_of_ne hd, World.shape]

end Commit

/-- A bundle that passes was checked against a Security contract that exists, and left
the contracts as they were. -/
theorem invoke_verify_leaves {tx : Transaction} {depth : ℕ} {stack : List Address}
    {v : Verification.Storage} {envelope : Bytes} {sigs pubkeys : List Bytes} {r : ℕ}
    (hverification : w.contracts b = some (.verification t v))
    (hsecurity : ∀ shape, w.shape v.securityContract = some shape → shape = .security t)
    (h : (invoke p tx depth stack b (.verify envelope sigs pubkeys r) w).1 = .ok .void) :
    (∃ s, w.contracts v.securityContract = some (.security t s)) ∧
      (invoke p tx depth stack b (.verify envelope sigs pubkeys r) w).2.contracts =
        w.contracts := by
  obtain ⟨below, inst, frame, rfl, hstack, hinst, hrun⟩ := invoke_eq_ok h
  obtain rfl : .verification t v = inst := Option.some.inj (hverification.symm.trans hinst)
  have hcommitted := @invoke_succ p tx below stack b (.verify envelope sigs pubkeys r) w _ hstack
    hverification
  rw [hrun] at hcommitted
  obtain ⟨inner, hcall, rfl⟩ := asInstance_eq_ok.mp hrun
  obtain ⟨_, _, hverify, hret⟩ := bind_run_eq_ok.mp (entryPoint_eq_ok.mp hcall)
  cases hret
  obtain ⟨-, hlen, weights, required, total, hweights, hrequired, -, hloop, -⟩ :=
    Verification.verify_run_eq_ok.mp hverify
  -- the first query was answered, so there is a contract to answer it
  obtain ⟨_, instSecurity, _, -, -, hinstSecurity, -⟩ := invoke_eq_ok hweights
  obtain ⟨s, rfl⟩ := Instance.eq_security
    (hsecurity _ (World.shape_of_contracts hinstSecurity))
  obtain ⟨hvalue, hcontracts⟩ :=
    eq_some_of_invoke_view hinstSecurity (call_getSignerWeightsAt _ pubkeys r) hweights
  obtain ⟨keys, rfl, hkeys⟩ := weightsReply_eq_ok hvalue
  obtain ⟨-, hcontracts'⟩ := eq_some_of_invoke_view (hcontracts ▸ hinstSecurity)
    (call_requiredWeightAt _ r) hrequired
  obtain ⟨-, -, -, -, -, hframe⟩ :=
    (Verification.verifyLoop_run_eq_ok (by simpa using hlen)
      (length_getSignerWeightsAt hkeys)).mp hloop
  refine ⟨⟨s, hinstSecurity⟩, ?_⟩
  rw [hcommitted, hframe]
  have hsame := hcontracts'.trans hcontracts
  exact (World.commit_contracts_eq ((congrFun hsame b).trans hverification)).trans hsame

/-! ## Quorums as certificates -/

theorem weightOf_eq (registry : t.PubKey →₀ UInt64) {keys : List t.PubKey}
    (hascending : keys.Pairwise (· < ·)) :
    Totals.weight UInt64.toNat registry keys.toFinset = weightOf registry keys :=
  Totals.weight_toFinset (hascending.imp ne_of_lt)

theorem exists_signature {envelope : Bytes} {sigs : List Bytes} {keys : List t.PubKey}
    (h : List.Forall₂ (Verification.ValidBytes p t envelope) sigs keys) {key : t.PubKey}
    (hkey : key ∈ keys) : ∃ sig, Verification.ValidBytes p t envelope sig key := by
  induction h with
  | nil => cases hkey
  | @cons sig key' sigs keys hvalid _ ih =>
      rcases List.mem_cons.mp hkey with rfl | hkey
      · exact ⟨sig, hvalid⟩
      · exact ih hkey

/-- A quorum certifies the envelope. -/
theorem Quorum.certificate {threshold : Threshold} {registry : t.PubKey →₀ UInt64}
    {envelope : Bytes} {sigs : List Bytes} {keys : List t.PubKey}
    (h : Quorum p threshold registry envelope sigs keys) :
    Attestation.Certificate (attestationScheme p t) registry threshold envelope keys.toFinset where
  signed _ hkey := exists_signature h.valid (List.mem_toFinset.mp hkey)
  weighs key hkey := h.registered key (List.mem_toFinset.mp hkey)
  asks_pos := h.required_pos
  reached := h.reached.trans_eq (weightOf_eq registry h.ascending).symm

/-! ## One commit -/

/-- The journal is a run of the abstract store, which ends in what the project has stored. -/
def Refines (p : Platform) (t : VerificationType) (a c : Address) (initial : Threshold)
    (w : World) (threshold : Threshold) : Prop :=
  Run (Attestation.Init initial) (Attestation.Step (attestationScheme p t))
    (actions t a c w.journal) (w.attestation t a c threshold)

theorem callsOf_snoc_self (h : inv.env.self = c) :
    callsOf c (J ++ [inv]) = callsOf c J ++ [inv] := by
  rw [callsOf_append, callsOf_singleton_self h]

/-- A call that leaves the registry alone leaves all of its past alone. -/
theorem registryAt_callsOf_snoc (hupTo : ∀ inv' ∈ J, inv'.env.ledger ≤ inv.env.ledger)
    (hsame : inv.env.self = c → ∀ R : t.PubKey →₀ UInt64, replay R inv.call = R) :
    registryAt t (callsOf c (J ++ [inv])) = registryAt t (callsOf c J) := by
  by_cases hself : inv.env.self = c
  · have hcalls : ∀ inv' ∈ callsOf c J, inv'.env.ledger ≤ inv.env.ledger := fun inv' hinv' =>
      hupTo inv' (mem_of_mem_callsOf hinv')
    rw [callsOf_snoc_self hself, registryAt_snoc hcalls, hsame hself, Timeline.update_eq_self]
    intro r hr
    rw [registryAt_eq_registry fun inv' hinv' => (hcalls inv' hinv').trans hr]
  · rw [callsOf_append, callsOf_singleton_of_ne hself, List.append_nil]

theorem payloadAt_of_handler {s : Handler.Storage} (h : w.contracts a = some (.handler t s)) :
    w.payloadAt a = s.getPayload := by
  funext eventId
  rw [World.payloadAt, h, Option.bind_some, Instance.payload?]

theorem payloadAt_accept {s : Handler.Storage} {m : Message}
    (h : w.contracts a = some (.handler t s)) :
    (w.commit a (.handler t (s.accept m)) inv).payloadAt a =
      Function.update (w.payloadAt a) m.eventId (some m.payload) := by
  rw [payloadAt_of_handler (w.commit_contracts_self ..), payloadAt_of_handler h]
  rfl

theorem payloadAt_commit_of_ne {target : Address} {inst : Instance} (h : a ≠ target) :
    (w.commit target inst inv).payloadAt a = w.payloadAt a := by
  funext eventId
  rw [World.payloadAt, World.commit_contracts_of_ne h, World.payloadAt]

namespace Refines

variable {initial threshold : Threshold} {target : Address} {inst : Instance}

/-- An invocation that is no action. -/
theorem invisible (h : Refines p t a c initial w threshold) (haction : action? t a c inv = none)
    (hupTo : ∀ inv' ∈ w.journal, inv'.env.ledger ≤ inv.env.ledger)
    (hsame : inv.env.self = c → ∀ R : t.PubKey →₀ UInt64, replay R inv.call = R)
    (hpayload : (w.commit target inst inv).payloadAt a = w.payloadAt a) :
    Refines p t a c initial (w.commit target inst inv) threshold := by
  have hactions : actions t a c (w.commit target inst inv).journal = actions t a c w.journal := by
    rw [World.commit_journal, actions_snoc, haction, Option.toList_none, List.append_nil]
  have hstate : (w.commit target inst inv).attestation t a c threshold =
      w.attestation t a c threshold := by
    apply Attestation.State.ext
    · exact congrArg Attestation.lastTime hactions
    · exact registryAt_callsOf_snoc hupTo hsame
    · rfl
    · exact hpayload
  rw [Refines, hactions, hstate]
  exact h

/-- An invocation that is an action. -/
theorem snoc {threshold' : Threshold} {action : AttestationAction t}
    (h : Refines p t a c initial w threshold) (haction : action? t a c inv = some action)
    (hstep : Attestation.Step (attestationScheme p t) (w.attestation t a c threshold) action
      ((w.commit target inst inv).attestation t a c threshold')) :
    Refines p t a c initial (w.commit target inst inv) threshold' := by
  rw [Refines, World.commit_journal, actions_snoc, haction]
  exact Run.snoc h hstep

/-- A new weight of one key. -/
theorem weigh (key : t.PubKey) (weight : UInt64) (h : Refines p t a c initial w threshold)
    (hself : inv.env.self = c)
    (haction : registryAction? t inv.env.ledger inv.call =
      some (.weigh inv.env.ledger key weight))
    (hreplay : ∀ R : t.PubKey →₀ UInt64, replay R inv.call = R.update key weight)
    (hupTo : ∀ inv' ∈ w.journal, inv'.env.ledger ≤ inv.env.ledger)
    (hpayload : (w.commit target inst inv).payloadAt a = w.payloadAt a) :
    Refines p t a c initial (w.commit target inst inv) threshold := by
  have hsome : action? t a c inv = some (.weigh inv.env.ledger key weight) := by
    rw [action?, if_pos hself, haction]
  have hcalls : ∀ inv' ∈ callsOf c w.journal, inv'.env.ledger ≤ inv.env.ledger :=
    fun inv' hinv' => hupTo inv' (mem_of_mem_callsOf hinv')
  have hstate : (w.commit target inst inv).attestation t a c threshold =
      { w.attestation t a c threshold with
        now := inv.env.ledger
        weights := Timeline.update (registryAt t (callsOf c w.journal)) inv.env.ledger
          ((registryAt t (callsOf c w.journal) inv.env.ledger).update key weight) } := by
    apply Attestation.State.ext
    · simp only [World.attestation, World.commit_journal, actions_snoc, hsome, Option.toList_some,
        Attestation.lastTime_snoc, Attestation.Action.now]
    · simp only [World.attestation, World.commit_journal]
      rw [callsOf_snoc_self hself, registryAt_snoc hcalls, hreplay, registryAt_eq_registry hcalls]
    · rfl
    · exact hpayload
  refine h.snoc hsome ?_
  rw [hstate]
  exact .weigh inv.env.ledger key weight (lastTime_actions_le hupTo)

/-- A new threshold. -/
theorem demand {threshold' : Threshold} (h : Refines p t a c initial w threshold)
    (hself : inv.env.self = c)
    (hcall : inv.call = .setThreshold threshold'.numerator threshold'.denominator)
    (hupTo : ∀ inv' ∈ w.journal, inv'.env.ledger ≤ inv.env.ledger)
    (hpayload : (w.commit target inst inv).payloadAt a = w.payloadAt a) :
    Refines p t a c initial (w.commit target inst inv) threshold' := by
  have hsome : action? t a c inv = some (.demand inv.env.ledger threshold') := by
    rw [action?, if_pos hself, hcall]
    rfl
  have hsame : inv.env.self = c → ∀ R : t.PubKey →₀ UInt64, replay R inv.call = R := by
    intro _ R
    rw [hcall]
    rfl
  have hstate : (w.commit target inst inv).attestation t a c threshold' =
      { w.attestation t a c threshold with
        now := inv.env.ledger
        threshold := threshold' } := by
    apply Attestation.State.ext
    · simp only [World.attestation, World.commit_journal, actions_snoc, hsome, Option.toList_some,
        Attestation.lastTime_snoc, Attestation.Action.now]
    · exact registryAt_callsOf_snoc hupTo hsame
    · rfl
    · exact hpayload
  refine h.snoc hsome ?_
  rw [hstate]
  exact .demand inv.env.ledger threshold' (lastTime_actions_le hupTo)

/-- A submission that was accepted. -/
theorem attest {bytes : Bytes} {sigData : SignatureData} {keys : List t.PubKey} {m : Message}
    {s : Handler.Storage} (h : Refines p t a c initial w threshold) (hself : inv.env.self = a)
    (hne : a ≠ c) (hcall : inv.call = submission t bytes sigData)
    (hhandler : w.contracts a = some (.handler t s))
    (hvalid : validateReferenceBlock inv.env.ledger sigData.referenceBlock = .ok ())
    (hdecoded : decoded p t bytes = some m) (hnew : s.getPayload m.eventId = none)
    (hkeys : keys.map BytesN.toArray = sigData.signers)
    (hquorum : Quorum p threshold (registryAt t (callsOf c w.journal) sigData.referenceBlock) bytes
      sigData.signatures keys)
    (hupTo : ∀ inv' ∈ w.journal, inv'.env.ledger ≤ inv.env.ledger) :
    Refines p t a c initial (w.commit a (.handler t (s.accept m)) inv) threshold := by
  have hsome : action? t a c inv =
      some (.attest inv.env.ledger sigData.referenceBlock bytes keys.toFinset) := by
    rw [action?, if_neg (hself ▸ hne), if_pos hself, hcall, submissionAction?_submission, attest?,
      ← hkeys, bytesVec?_map_toArray, Option.map_some]
  have hstate : (w.commit a (.handler t (s.accept m)) inv).attestation t a c threshold =
      { w.attestation t a c threshold with
        now := inv.env.ledger
        accepted := Function.update (w.payloadAt a) m.eventId (some m.payload) } := by
    apply Attestation.State.ext
    · simp only [World.attestation, World.commit_journal, actions_snoc, hsome, Option.toList_some,
        Attestation.lastTime_snoc, Attestation.Action.now]
    · exact registryAt_callsOf_snoc hupTo fun hc => absurd (hself.symm.trans hc) hne
    · rfl
    · exact payloadAt_accept hhandler
  obtain ⟨hpast, hwindow⟩ := validateReferenceBlock_eq_ok.mp hvalid
  refine h.snoc hsome ?_
  rw [hstate]
  refine .attest inv.env.ledger _ bytes keys.toFinset (lastTime_actions_le hupTo) hpast hwindow
    ?_ ?_ hquorum.certificate
  · exact congrArg (Option.map fun m => (m.eventId, m.payload)) hdecoded
  · exact (congrFun (payloadAt_of_handler hhandler) m.eventId).trans hnew

/-- A call that a Security contract answered. -/
theorem security {env : Env} {call : Call} {s s' : Security.Storage t}
    (h : Refines p t a c initial w s.threshold) (heffect : Security.Effect env s call s')
    (hself : env.self = c) (hne : a ≠ c)
    (hupTo : ∀ inv' ∈ w.journal, inv'.env.ledger ≤ env.ledger) :
    Refines p t a c initial (w.commit c (.security t s') ⟨env, call⟩) s'.threshold := by
  have hpayload : ∀ call, (w.commit c (.security t s') ⟨env, call⟩).payloadAt a = w.payloadAt a :=
    fun _ => payloadAt_commit_of_ne hne
  cases heffect with
  | add key weight total =>
      refine h.weigh key weight hself ?_ (fun R => replay_add R key weight)
        hupTo (hpayload _)
      simp [registryAction?]
  | remove key total | removeUnknown key =>
      refine h.weigh key 0 hself ?_ (fun R => ?_) hupTo (hpayload _)
      · simp [registryAction?]
      · rw [replay_remove, Finsupp.erase_eq_update_zero]
  | setThreshold numerator denominator => exact h.demand hself rfl hupTo (hpayload _)
  | base call base hcall =>
      refine h.invisible ?_ hupTo (fun _ R => replay_of_not_isRegistry R hcall) (hpayload _)
      rw [action?, if_pos hself, registryAction?_of_not_isRegistry hcall]

end Refines

/-- The invariant, for a Security contract: whatever is wired to it, deployed yet or not,
refines the abstract store, from the threshold that the Security contract is deployed with. -/
def Follows (p : Platform) (t : VerificationType) (c : Address) (initial : Threshold)
    (w : World) : Prop :=
  (∀ shape, w.shape c = some shape → shape = .security t) → ∀ threshold,
    (∀ s, w.contracts c = some (.security t s) → s.threshold = threshold) →
    (w.contracts c = none → threshold = initial) →
      ∀ a b, a ≠ c → Wired t a c b w → Refines p t a c initial w threshold

theorem Occurs.getPayload_eq_none {tx : Transaction} {stack : List Address} {s : Handler.Storage}
    (hw : Occurs p tx stack w) (hhandler : w.contracts a = some (.handler t s))
    {eventId : BytesN 20} (hnew : s.isEventSeen eventId = false) :
    s.getPayload eventId = none := by
  obtain ⟨attempts, -, -, hrun⟩ := handler_run (hw.consistent.runs a _ hhandler) rfl
  have hrecorded := recorded_of_run hrun eventId
  have hnone : acceptedFor p t eventId attempts = [] := by
    simpa using hrecorded.seen.symm.trans hnew
  rw [hrecorded.payload, hnone]
  rfl

section Commit

variable {tx : Transaction} {stack : List Address} {call : Call}
  {frame : Frame Instance World} {initial threshold : Threshold} {s : Handler.Storage}

/-- A call that a handler answered. -/
theorem Commits.handler (h : Commits p tx stack a call w (.handler t s) frame) (hne : a ≠ c)
    (hwired : Wired t a c s.verificationContract frame.world)
    (hthreshold : ∀ s, frame.world.contracts c = some (.security t s) → s.threshold = threshold)
    (hrefines : Refines p t a c initial frame.world threshold) :
    Refines p t a c initial (frame.world.commit a frame.storage ⟨tx.env stack a call, call⟩)
      threshold := by
  have hupTo : ∀ inv' ∈ frame.world.journal, inv'.env.ledger ≤ tx.ledger :=
    h.occurs_below.consistent.upTo
  have hshape := h.shape_below
  obtain ⟨depth, v, hrun⟩ := h.runs
  obtain ⟨inner, hcall, rfl⟩ := asInstance_eq_ok.mp hrun
  by_cases hsubmission : ∃ bytes sigData, call = submission t bytes sigData
  · obtain ⟨bytes, sigData, rfl⟩ := hsubmission
    obtain ⟨hvalid, m, hdecoded, hnew, hverify, rfl⟩ :=
      verifyEnvelope_run_eq_ok.mp (submission_eq_ok.mp hcall).2
    -- the Verification contract was there, and so was the Security contract
    obtain ⟨_, instVerification, _, -, -, hverification, -⟩ := invoke_eq_ok hverify
    obtain ⟨verification, rfl, rfl⟩ := Instance.eq_verification
      (hwired.verification _ (hshape ▸ World.shape_of_contracts hverification))
    obtain ⟨⟨security, hsecurity⟩, hcontracts⟩ := invoke_verify_leaves hverification
      (fun shape hc => hwired.security shape (hshape ▸ hc)) hverify
    obtain ⟨keys, weights, required, hkeys, haccepts⟩ :=
      accepts_of_invoke_verify hverification hsecurity hverify
    have hbelow := congrFun hcontracts verification.securityContract
    have hquorum := haccepts.quorum (h.occurs_below.security (hbelow.trans hsecurity))
    rw [hthreshold security (hbelow.trans hsecurity)] at hquorum
    exact hrefines.attest rfl hne rfl h.inst_eq_below hvalid hdecoded
      (h.occurs.getPayload_eq_none h.inst_eq hnew) hkeys hquorum hupTo
  · push Not at hsubmission
    refine hrefines.invisible ?_ hupTo (fun hc => absurd hc hne) ?_
    · exact (if_neg hne).trans ((if_pos rfl).trans (submissionAction?_eq_none hsubmission))
    · have hbefore := payloadAt_of_handler h.inst_eq_below
      cases Handler.call_effect (entryPoint_eq_ok.mp hcall) with
      | accept bytes sigData => exact absurd rfl (hsubmission bytes sigData)
      | base =>
          rw [payloadAt_of_handler (World.commit_contracts_self ..), hbefore]
          rfl

/-- A call that some contract answered. -/
theorem Commits.follows {target : Address} {inst : Instance}
    (h : Commits p tx stack target call w inst frame)
    (hfollows : Follows p t c initial frame.world) :
    Follows p t c initial
      (frame.world.commit target frame.storage ⟨tx.env stack target call, call⟩) := by
  intro hshape threshold hthreshold hinitial a b hne hwired
  have hupTo : ∀ inv' ∈ frame.world.journal, inv'.env.ledger ≤ tx.ledger :=
    h.occurs_below.consistent.upTo
  have hkept : ∀ d shape, frame.world.shape d = some shape →
      (frame.world.commit target frame.storage ⟨tx.env stack target call, call⟩).shape d =
        some shape := fun d shape hd => (congrFun (h.shape_commit _) d).trans hd
  have hbelow : ∀ shape, frame.world.shape c = some shape → shape = .security t :=
    fun shape hc => hshape shape (hkept c shape hc)
  have htarget := World.shape_of_contracts h.inst_eq_below
  have hwired' := hwired.mono hkept
  by_cases hc : target = c
  · subst hc
    obtain ⟨s, rfl⟩ := Instance.eq_security (hbelow _ htarget)
    have heffect := h.executes.effect
    have hbefore : Refines p t a target initial frame.world s.threshold := by
      refine hfollows hbelow s.threshold (fun s' hs' => ?_) (fun hnone => ?_) a b hne hwired'
      · cases h.inst_eq_below.symm.trans hs'
        rfl
      · cases hnone.symm.trans h.inst_eq_below
    generalize hstorage : frame.storage = inst' at heffect hthreshold
    cases heffect with
    | security heffect =>
        rw [← hthreshold _ (World.commit_contracts_self ..)]
        exact hbefore.security heffect rfl hne hupTo
  have hsame : (frame.world.commit target frame.storage
      ⟨tx.env stack target call, call⟩).contracts c = frame.world.contracts c :=
    World.commit_contracts_of_ne (Ne.symm hc)
  have hsecurity : ∀ s, frame.world.contracts c = some (.security t s) →
      s.threshold = threshold := fun s hs => hthreshold s (hsame.trans hs)
  have hrefines := hfollows hbelow threshold hsecurity
    fun hnone => hinitial (hsame.trans hnone)
  by_cases ha : target = a
  · subst ha
    obtain ⟨s, rfl, rfl⟩ := Instance.eq_handler (hwired'.handler _ htarget)
    exact h.handler hne hwired' hsecurity (hrefines target _ hne hwired')
  · -- a contract outside the project
    refine (hrefines a b hne hwired').invisible ?_ hupTo (fun hself => absurd hself hc)
      (payloadAt_commit_of_ne (Ne.symm ha))
    exact (if_neg hc).trans (if_neg ha)

end Commit

/-! ## Every run -/

section Runs

variable {initial : Threshold} {ops : List Operation} {sys : System}

theorem follows_genesis : Follows p t c initial ⟨fun _ => none, []⟩ := by
  intro _ threshold _ hinitial a b _ _
  obtain rfl : threshold = initial := hinitial rfl
  refine Run.start ?_
  apply Attestation.State.ext
  · rfl
  · rfl
  · rfl
  · rfl

/-- A contract that is deployed has attested nothing. -/
theorem Follows.deploy {d : Address} {inst : Instance} (h : Follows p t c initial w)
    (hinitial : ∀ s, Operation.deploy d inst = .deploy c (.security t s) → s.threshold = initial)
    (hfresh : w.contracts d = none) (hdeployed : inst.Deployed) :
    Follows p t c initial { w with contracts := Function.update w.contracts d (some inst) } := by
  intro hshape threshold hthreshold hnone a b hne hwired
  -- what was deployed before is elsewhere
  have hkept : ∀ e inst', w.contracts e = some inst' →
      Function.update w.contracts d (some inst) e = some inst' := by
    intro e inst' he
    have hne : e ≠ d := by
      rintro rfl
      rw [hfresh] at he
      cases he
    rw [Function.update_of_ne hne, he]
  have hkeptShape : ∀ e shape, w.shape e = some shape → World.shape { w with
      contracts := Function.update w.contracts d (some inst) } e = some shape := by
    intro e shape he
    obtain ⟨inst', hinst, rfl⟩ := Option.map_eq_some_iff.mp he
    exact congrArg (Option.map Instance.shape) (hkept e inst' hinst)
  have hbefore : w.contracts c = none → threshold = initial := by
    intro hc
    by_cases hd : d = c
    · -- the Security contract is deployed now
      subst hd
      have hnow : World.shape { w with contracts := Function.update w.contracts d (some inst) } d =
          some inst.shape := by
        simp [World.shape]
      obtain ⟨s, rfl⟩ := Instance.eq_security (hshape _ hnow)
      rw [← hthreshold s (Function.update_self ..)]
      exact hinitial s rfl
    · exact hnone ((Function.update_of_ne (Ne.symm hd) ..).trans hc)
  have hrefines := h (fun shape hc => hshape shape (hkeptShape c shape hc)) threshold
    (fun s hs => hthreshold s (hkept c _ hs)) hbefore a b hne (hwired.mono hkeptShape)
  have hpayload : World.payloadAt { w with
      contracts := Function.update w.contracts d (some inst) } a = w.payloadAt a := by
    funext eventId
    simp only [World.payloadAt]
    by_cases ha : a = d
    · subst ha
      rw [Function.update_self, hfresh, Option.bind_some, Option.bind_none]
      cases inst with
      | handler t' s =>
          obtain ⟨wasm, admin, verificationContract, rfl⟩ := hdeployed
          rfl
      | _ => rfl
    · rw [Function.update_of_ne ha]
  have hstate : World.attestation t a c { w with
      contracts := Function.update w.contracts d (some inst) } threshold =
        w.attestation t a c threshold := by
    apply Attestation.State.ext
    · rfl
    · rfl
    · rfl
    · exact hpayload
  rw [Refines, hstate]
  exact hrefines

theorem follows_of_run (hrun : Run Genesis (Step p) ops sys)
    (hinitial : ∀ s, Operation.deploy c (.security t s) ∈ ops → s.threshold = initial) :
    Follows p t c initial sys.world := by
  -- only a deployment with that threshold is allowed
  have hallowed : ∀ op ∈ ops, ∀ s, op = .deploy c (.security t s) → s.threshold = initial := by
    rintro op hop s rfl
    exact hinitial s hop
  refine run_induction (I := Follows p t c initial) follows_genesis ?_ ?_ hrun hallowed
  · intro w d inst hinst hfresh hdeployed _ hfollows
    exact hfollows.deploy hinst hfresh hdeployed
  · intro tx stack target call w inst frame hcommits _ hfollows
    exact hcommits.follows hfollows

/-- At an address there is nothing, or what was deployed there, once. -/
theorem deployed_of_run (hrun : Run Genesis (Step p) ops sys) (d : Address) :
    (sys.world.contracts d = none ∧ ∀ inst, Operation.deploy d inst ∉ ops) ∨
      ∃ inst inst', sys.world.contracts d = some inst' ∧ inst'.shape = inst.shape ∧
        Operation.deploy d inst ∈ ops ∧
          ∀ other, Operation.deploy d other ∈ ops → other = inst := by
  refine Run.induction (motive := fun ops sys =>
    (sys.world.contracts d = none ∧ ∀ inst, Operation.deploy d inst ∉ ops) ∨
      ∃ inst inst', sys.world.contracts d = some inst' ∧ inst'.shape = inst.shape ∧
        Operation.deploy d inst ∈ ops ∧
          ∀ other, Operation.deploy d other ∈ ops → other = inst) ?_ ?_ hrun
  · rintro sys rfl
    exact .inl ⟨rfl, by simp⟩
  · intro ops sys op sys' _ ih hstep
    cases hstep with
    | deploy e inst hfresh hdeployed =>
        by_cases he : d = e
        · subst he
          obtain ⟨-, hnever⟩ | ⟨_, _, hthere, -⟩ := ih
          · refine .inr ⟨inst, inst, Function.update_self .., rfl, by simp, fun other hother => ?_⟩
            rcases List.mem_append.mp hother with hother | hother
            · exact absurd hother (hnever other)
            · simpa using hother
          · rw [hfresh] at hthere
            cases hthere
        · simpa [he] using ih
    | transact tx target call =>
        obtain ⟨J, hextends⟩ := invoke_extends p tx depthLimit [] target call sys.world
        rcases ih with ⟨hnone, hnever⟩ | ⟨inst, inst', hthere, hshape, hdeploy, honly⟩
        · exact .inl ⟨(hextends.absent d hnone).1, by simpa using hnever⟩
        · obtain ⟨inst'', hthere', hpath⟩ := hextends.evolves d inst' hthere
          exact .inr ⟨inst, inst'', hthere', (Instance.shape_of_path hpath).trans hshape,
            by simpa using hdeploy, by simpa using honly⟩

/-- A Security contract was deployed as one, once. -/
theorem exists_deployed {s : Security.Storage t} (hrun : Run Genesis (Step p) ops sys)
    (hsecurity : sys.world.contracts c = some (.security t s)) :
    ∃ s₀ : Security.Storage t, Operation.deploy c (.security t s₀) ∈ ops ∧
      ∀ s', Operation.deploy c (.security t s') ∈ ops → s' = s₀ := by
  obtain ⟨hnone, -⟩ | ⟨inst, inst', hthere, hshape, hdeploy, honly⟩ := deployed_of_run hrun c
  · rw [hsecurity] at hnone
    cases hnone
  · rw [hsecurity] at hthere
    cases hthere
    obtain ⟨s₀, rfl⟩ := Instance.eq_security hshape.symm
    refine ⟨s₀, hdeploy, fun s' hs' => ?_⟩
    cases honly _ hs'
    rfl

/-- A handler whose Verification contract points at the Security contract `c`. -/
structure Project (w : World) (t : VerificationType) (a : Address) (h : Handler.Storage)
    (c : Address) : Prop where
  handler : w.contracts a = some (.handler t h)
  verification : ∃ v, w.contracts h.verificationContract = some (.verification t v) ∧
    v.securityContract = c

/-- From the threshold that a Security contract was deployed with, the journal of every project
on it is a run of the abstract store. -/
theorem refines_of_run {s : Security.Storage t} (hrun : Run Genesis (Step p) ops sys)
    (hsecurity : sys.world.contracts c = some (.security t s)) :
    ∃ s₀ : Security.Storage t, Operation.deploy c (.security t s₀) ∈ ops ∧
      ∀ a h, Project sys.world t a h c →
        Refines p t a c s₀.threshold sys.world s.threshold := by
  have hshape : ∀ d inst, sys.world.contracts d = some inst → ∀ shape,
      sys.world.shape d = some shape → shape = inst.shape := fun d inst hinst shape hd =>
    (Option.some.inj ((World.shape_of_contracts hinst).symm.trans hd)).symm
  obtain ⟨s₀, hdeploy, honly⟩ := exists_deployed hrun hsecurity
  have hfollows : Follows p t c s₀.threshold sys.world :=
    follows_of_run hrun fun s' hs' => by rw [honly s' hs']
  refine ⟨s₀, hdeploy, fun a h hproject => ?_⟩
  obtain ⟨hhandler, v, hverification, rfl⟩ := hproject
  refine hfollows (hshape _ _ hsecurity) s.threshold (fun s' hs' => ?_) (fun hnone => ?_) a
    h.verificationContract (World.ne_of_contracts hhandler hsecurity nofun)
    ⟨hshape a _ hhandler, hshape _ _ hverification, hshape _ _ hsecurity⟩
  · cases hsecurity.symm.trans hs'
    rfl
  · cases hnone.symm.trans hsecurity

/-- In every run, what a Security contract and the handlers that verify against it went through
is attestation by weighted signers: for each handler, the journal is a run from the
threshold of the deployment to what the contracts have stored.  Over the window that the
Security contract keeps, the weights of the abstract store are those it answers with. -/
theorem attestation_refinement {s : Security.Storage t} (hrun : Run Genesis (Step p) ops sys)
    (hsecurity : sys.world.contracts c = some (.security t s)) :
    (∃ s₀ : Security.Storage t, Operation.deploy c (.security t s₀) ∈ ops ∧
      ∀ a h, Project sys.world t a h c →
        Run (Attestation.Init s₀.threshold) (Attestation.Step (attestationScheme p t))
          (actions t a c sys.world.journal)
          { now := Attestation.lastTime (actions t a c sys.world.journal)
            weights := registryAt t (callsOf c sys.world.journal)
            threshold := s.threshold
            accepted := h.getPayload }) ∧
      ∀ r, sys.ledger - historyCutoff ≤ r →
        (∀ key, s.getSignerWeightAt key r =
          some (registryAt t (callsOf c sys.world.journal) r key)) ∧
        ∃ total, s.getTotalWeightAt r = some total ∧
          total.toNat = totalWeight (registryAt t (callsOf c sys.world.journal) r) := by
  obtain ⟨s₀, hdeploy, hrefines⟩ := refines_of_run hrun hsecurity
  refine ⟨⟨s₀, hdeploy, fun a h hproject => ?_⟩, fun r hwindow => ?_⟩
  · have hruns : Refines p t a c s₀.threshold sys.world s.threshold := hrefines a h hproject
    rw [Refines, World.attestation, payloadAt_of_handler hproject.handler] at hruns
    exact hruns
  · have hreach : Reachable p sys := ⟨ops, hrun⟩
    have hrepresents := (hreach.consistent.security hsecurity).represents
    exact ⟨fun key => hrepresents.getSignerWeightAt_eq key hwindow,
      _, hrepresents.getTotalWeightAt_eq hwindow, hrepresents.toNat_totalWeightAt r⟩

end Runs

/-! ## An accepted submission -/

/-- An accepted submission changes the handler, and no other contract. -/
theorem invoke_submission_leaves {tx : Transaction} {depth : ℕ} {stack : List Address}
    {h : Handler.Storage} {bytes : Bytes} {sigData : SignatureData}
    (hproject : Project w t a h c)
    (hsecurity : ∀ shape, w.shape c = some shape → shape = .security t)
    (hok : (invoke p tx depth stack a (submission t bytes sigData) w).1 = .ok .void) :
    ∃ m, decoded p t bytes = some m ∧
      (invoke p tx depth stack a (submission t bytes sigData) w).2.contracts =
        Function.update w.contracts a (some (.handler t (h.accept m))) := by
  obtain ⟨hhandler, v, hverification, rfl⟩ := hproject
  obtain ⟨below, inst, frame, rfl, hstack, hinst, hrun⟩ := invoke_eq_ok hok
  obtain rfl : .handler t h = inst := Option.some.inj (hhandler.symm.trans hinst)
  have hcommitted := @invoke_succ p tx below stack a (submission t bytes sigData) w _ hstack
    hhandler
  rw [hrun] at hcommitted
  obtain ⟨inner, hcall, rfl⟩ := asInstance_eq_ok.mp hrun
  obtain ⟨-, m, hdecoded, -, hverify, rfl⟩ :=
    verifyEnvelope_run_eq_ok.mp (submission_eq_ok.mp hcall).2
  obtain ⟨-, hcontracts⟩ := invoke_verify_leaves hverification hsecurity hverify
  refine ⟨m, hdecoded, ?_⟩
  rw [hcommitted]
  exact congrArg (Function.update · a _) hcontracts

section Sample

/-- A project of the sample contracts accepts the bundle. -/
theorem submission_accepted {w : World}
    (hsecurity : w.contracts ⟨1⟩ = some (.security .stellar twoSignersState))
    (hverification : w.contracts ⟨2⟩ =
      some (.verification .stellar (Verification.construct Sample.zeroHash ⟨0⟩ ⟨1⟩)))
    (hhandler : w.contracts ⟨3⟩ =
      some (.handler .stellar (Handler.construct Sample.zeroHash ⟨0⟩ ⟨2⟩))) :
    (invoke Sample.platform (unsignedAt 110) depthLimit [] ⟨3⟩
      (submission .stellar Sample.envelopeBytes bundle) w).1 = .ok .void :=
  (invoke_submission_eq_ok List.not_mem_nil hhandler).mpr ⟨rfl, sampleMessage, sample_decoded,
    rfl, accepts_both.invoke_verify (by decide) (by decide) hverification hsecurity⟩

/-- The deployments of the sample project. -/
def deployOps : List Operation := [
  .deploy ⟨1⟩ (.security .stellar sampleDeployment),
  .deploy ⟨2⟩ (.verification .stellar (Verification.construct Sample.zeroHash ⟨0⟩ ⟨1⟩)),
  .deploy ⟨3⟩ (.handler .stellar (Handler.construct Sample.zeroHash ⟨0⟩ ⟨2⟩))]

theorem deployedWorld_run (p : Platform) : Run Genesis (Step p) deployOps ⟨deployedWorld, 0⟩ := by
  have hstart : Run Genesis (Step p) [] ⟨⟨fun _ => none, []⟩, 0⟩ := .start rfl
  have hsecurity := hstart.snoc (.deploy _ ⟨1⟩ (.security .stellar sampleDeployment) rfl
    ⟨_, _, 2, 3, rfl⟩)
  have hverification := hsecurity.snoc (.deploy _ ⟨2⟩
    (.verification .stellar (Verification.construct Sample.zeroHash ⟨0⟩ ⟨1⟩)) rfl ⟨_, _, _, rfl⟩)
  exact hverification.snoc (.deploy _ ⟨3⟩
    (.handler .stellar (Handler.construct Sample.zeroHash ⟨0⟩ ⟨2⟩)) rfl ⟨_, _, _, rfl⟩)

/-- The operations that lead to the sample project. -/
def projectOps : List Operation := deployOps ++ [
  .transact (signedByAdmin 10) ⟨1⟩ (.addSigner Sample.lowKey.toArray 1),
  .transact (signedByAdmin 11) ⟨1⟩ (.addSigner Sample.highKey.toArray 1)]

theorem projectWorld_run :
    Run Genesis (Step Sample.platform) projectOps ⟨projectWorld, 11⟩ := by
  have hlow : Step Sample.platform ⟨deployedWorld, 0⟩
      (.transact (signedByAdmin 10) ⟨1⟩ (.addSigner Sample.lowKey.toArray 1))
      ⟨deployedWorld.commit ⟨1⟩ (.security .stellar firstSigner)
        (sampleInvocation 10 (.addSigner Sample.lowKey.toArray 1)), 10⟩ :=
    .security (v := .void) (by decide) rfl rfl
  have hhigh : Step Sample.platform ⟨deployedWorld.commit ⟨1⟩ (.security .stellar firstSigner)
        (sampleInvocation 10 (.addSigner Sample.lowKey.toArray 1)), 10⟩
      (.transact (signedByAdmin 11) ⟨1⟩ (.addSigner Sample.highKey.toArray 1))
      ⟨projectWorld, 11⟩ :=
    .security (v := .void) (by decide : 10 ≤ (signedByAdmin 11).ledger) rfl rfl
  exact ((deployedWorld_run _).snoc hlow).snoc hhigh

theorem projectOps_deploys {s₀ : Ed25519Security}
    (h : Operation.deploy ⟨1⟩ (.security .stellar s₀) ∈ projectOps) : s₀ = sampleDeployment := by
  simpa [projectOps, deployOps] using h

def sampleSubmission : Operation :=
  .transact (unsignedAt 110) ⟨3⟩ (submission .stellar Sample.envelopeBytes bundle)

/-- The sample envelope is submitted to the project, which accepts it. -/
theorem exists_accepted : ∃ w : World,
    Run Genesis (Step Sample.platform) (projectOps ++ [sampleSubmission]) ⟨w, 110⟩ ∧
    w.contracts ⟨1⟩ = some (.security .stellar twoSignersState) ∧
    Project w .stellar ⟨3⟩ sampleState ⟨1⟩ := by
  have hproject : Project projectWorld .stellar ⟨3⟩
      (Handler.construct Sample.zeroHash ⟨0⟩ ⟨2⟩) ⟨1⟩ :=
    ⟨rfl, Verification.construct Sample.zeroHash ⟨0⟩ ⟨1⟩, rfl, rfl⟩
  have hsecurity : ∀ shape, projectWorld.shape ⟨1⟩ = some shape → shape = .security .stellar := by
    intro shape hshape
    exact (Option.some.inj hshape).symm
  obtain ⟨m, hdecoded, hcontracts⟩ :=
    invoke_submission_leaves hproject hsecurity (submission_accepted rfl rfl rfl)
  rw [sample_decoded] at hdecoded
  cases hdecoded
  have hstep : Step Sample.platform ⟨projectWorld, 11⟩ sampleSubmission
      ⟨(invoke Sample.platform (unsignedAt 110) depthLimit [] ⟨3⟩
        (submission .stellar Sample.envelopeBytes bundle) projectWorld).2, 110⟩ :=
    .transact _ _ _ _ (by decide)
  generalize (invoke Sample.platform (unsignedAt 110) depthLimit [] ⟨3⟩
    (submission .stellar Sample.envelopeBytes bundle) projectWorld).2 = w at hcontracts hstep
  refine ⟨w, projectWorld_run.snoc hstep, ?_, ?_,
    Verification.construct Sample.zeroHash ⟨0⟩ ⟨1⟩, ?_, rfl⟩
  · rw [hcontracts]
    rfl
  · rw [hcontracts, Function.update_self]
    rfl
  · rw [hcontracts]
    rfl

/-- The submission deploys nothing. -/
theorem deploys_of_accepted {s₀ : Ed25519Security}
    (h : Operation.deploy ⟨1⟩ (.security .stellar s₀) ∈ projectOps ++ [sampleSubmission]) :
    s₀ = sampleDeployment := by
  rcases List.mem_append.mp h with h | h
  · exact projectOps_deploys h
  · cases List.mem_singleton.mp h

theorem attestation_refinement_sample : ∃ w : World,
    w.payloadAt ⟨3⟩ Sample.envelope.eventId = some Sample.payload ∧
    Run (Attestation.Init sampleDeployment.threshold)
      (Attestation.Step (attestationScheme Sample.platform .stellar))
      (actions .stellar ⟨3⟩ ⟨1⟩ w.journal)
      { now := Attestation.lastTime (actions .stellar ⟨3⟩ ⟨1⟩ w.journal)
        weights := registryAt .stellar (callsOf ⟨1⟩ w.journal)
        threshold := twoSignersState.threshold
        accepted := sampleState.getPayload } ∧
    twoSignersState.getSignerWeightAt Sample.lowKey 100 =
      some (registryAt .stellar (callsOf ⟨1⟩ w.journal) 100 Sample.lowKey) := by
  obtain ⟨w, hrun, hsecurity, hproject⟩ := exists_accepted
  obtain ⟨⟨s₀, hdeploy, hruns⟩, hwindow⟩ := attestation_refinement hrun hsecurity
  obtain rfl := deploys_of_accepted hdeploy
  refine ⟨w, ?_, hruns ⟨3⟩ sampleState hproject,
    (hwindow 100 (by decide : 110 - historyCutoff ≤ 100)).1 Sample.lowKey⟩
  rw [payloadAt_of_handler hproject.handler]
  exact Handler.Storage.getPayload_accept _ sampleMessage

end Sample

end WarpDrive
