import WarpDrive.Handler.Acceptance

/-!
# Replay protection

A run of a handler is a sequence of attempts: calls with any arguments and
callers, each with the reply its caller saw, made while the other contracts do
whatever they like.  A call that does not return leaves the state as it was.

For one event id, `acceptedFor` lists the messages of the attempts that returned
and decode to it.  Each of the three records a handler keeps (the seen mark, the
payload, the events) is a function of that list, and the list never has two
elements (`Recorded`); replay protection follows.
-/

namespace WarpDrive.Handler

variable {p : Platform} {t : VerificationType}

/-! ## Attempts -/

abbrev Attempt := Invocation × Reply

/-- The states a constructor leaves. -/
def Deployed (s : Storage) : Prop :=
  ∃ wasm admin verificationContract, s = construct wasm admin verificationContract

/-- One call of the handler and its reply, in any world of other contracts. -/
def Attempts (p : Platform) (t : VerificationType) (s : Storage) (attempt : Attempt)
    (s' : Storage) : Prop :=
  ∃ (ω : Type) (host : Host ω) (world : ω),
    let settled := settle
      (entryPoint (call p host t attempt.1.env attempt.1.call) ⟨s, world⟩) ⟨s, world⟩
    settled.1 = attempt.2 ∧ settled.2.storage = s'

theorem Attempts.of_ok {ω : Type} {s s' : Storage} {inv : Invocation} {v : Val}
    (host : Host ω) (world world' : ω)
    (h : entryPoint (call p host t inv.env inv.call) ⟨s, world⟩ = .ok (v, ⟨s', world'⟩)) :
    Attempts p t s (inv, .ok v) s' :=
  ⟨ω, host, world, by rw [h]; exact ⟨rfl, rfl⟩⟩

theorem Attempts.of_error {ω : Type} {s : Storage} {inv : Invocation} {e : InvokeError}
    (host : Host ω) (world : ω)
    (h : entryPoint (call p host t inv.env inv.call) ⟨s, world⟩ = .error e) :
    Attempts p t s (inv, .error e) s :=
  ⟨ω, host, world, by rw [h]; exact ⟨rfl, rfl⟩⟩

/-- The message of a call that submits an envelope, if it decodes. -/
def submitted (p : Platform) (t : VerificationType) : Call → Option Message
  | .verifyEth bytes _ => if t = .ethereum then decoded p t bytes else none
  | .verifyXlm bytes _ => if t = .stellar then decoded p t bytes else none
  | _ => none

/-- The message of an attempt that returned. -/
def accepted (p : Platform) (t : VerificationType) (attempt : Attempt) : Option Message :=
  match attempt.2 with
  | .ok _ => submitted p t attempt.1.call
  | .error _ => none

/-- The messages of the attempts that returned and decode to `id`, one for each. -/
def acceptedFor (p : Platform) (t : VerificationType) (id : BytesN 20) (J : List Attempt) :
    List Message :=
  J.filterMap fun attempt => (accepted p t attempt).filter fun m => m.eventId = id

/-- The events that announce a verdict on `id`. -/
def concerns (id : BytesN 20) : Event → Bool
  | .verified eventId => eventId = id
  | .triggered _ eventId => eventId = id
  | _ => false

/-- The events of one accepted message. -/
def announcement (m : Message) : List Event :=
  [.verified m.eventId, .triggered m.triggerId m.eventId]

/-! ## The invariant -/

/-- What a handler keeps about `id`, after `messages` were accepted for it. -/
structure Recorded (s : Storage) (id : BytesN 20) (messages : List Message) : Prop where
  once : messages.length ≤ 1
  seen : s.isEventSeen id = !messages.isEmpty
  payload : s.getPayload id = messages.head?.map Message.payload
  events : s.base.events.filter (concerns id) = messages.flatMap announcement

theorem submitted_submission (bytes : Bytes) (sigData : SignatureData) :
    submitted p t (submission t bytes sigData) = decoded p t bytes := by
  cases t <;> rfl

theorem submitted_eq_none {c : Call} (h : ∀ bytes sigData, c ≠ submission t bytes sigData) :
    submitted p t c = none := by
  cases c with
  | verifyEth bytes sigData =>
      cases t with
      | ethereum => exact absurd rfl (h bytes sigData)
      | stellar => rfl
  | verifyXlm bytes sigData =>
      cases t with
      | ethereum => rfl
      | stellar => exact absurd rfl (h bytes sigData)
  | _ => rfl

/-- The functions of the shared interface announce no verdict. -/
theorem filter_concerns_of_baseStep {env : Env} {b b' : Base} {c : Call}
    (h : BaseStep env b c b') (id : BytesN 20) :
    b'.events.filter (concerns id) = b.events.filter (concerns id) := by
  cases h with
  | query => rfl
  | _ => simp [concerns]

namespace Recorded

variable {s : Storage} {id : BytesN 20} {messages : List Message}

/-- The first message with this id. -/
theorem accept_same {m : Message} (h : Recorded s m.eventId messages)
    (hnew : s.isEventSeen m.eventId = false) :
    Recorded (s.accept m) m.eventId (messages ++ [m]) := by
  -- the id was not seen, so nothing was accepted for it
  have hnone : messages = [] := by simpa using h.seen.symm.trans hnew
  subst hnone
  have hevents := h.events
  exact {
    once := le_rfl
    seen := s.isEventSeen_accept m
    payload := s.getPayload_accept m
    events := by
      simp only [Storage.accept, List.filter_append, hevents]
      simp [concerns, announcement] }

/-- A message with another id. -/
theorem accept_other {m : Message} (h : Recorded s id messages) (hid : m.eventId ≠ id) :
    Recorded (s.accept m) id messages where
  once := h.once
  seen := (s.isEventSeen_accept_of_ne hid.symm).trans h.seen
  payload := (s.getPayload_accept_of_ne hid.symm).trans h.payload
  events := by
    simp only [Storage.accept, List.filter_append, h.events]
    simp [concerns, hid]

/-- A change of the base entries that announces no verdict. -/
theorem base {b : Base} (h : Recorded s id messages)
    (hevents : b.events.filter (concerns id) = s.base.events.filter (concerns id)) :
    Recorded { s with base := b } id messages :=
  { h with events := hevents.trans h.events }

end Recorded

/-- One more attempt. -/
theorem Attempts.recorded {J : List Attempt} {s s' : Storage} {attempt : Attempt}
    (hattempt : Attempts p t s attempt s') {id : BytesN 20}
    (h : Recorded s id (acceptedFor p t id J)) :
    Recorded s' id (acceptedFor p t id (J ++ [attempt])) := by
  obtain ⟨ω, host, world, hreply, rfl⟩ := hattempt
  have hsnoc : acceptedFor p t id (J ++ [attempt]) = acceptedFor p t id J ++
      ((accepted p t attempt).filter fun m => m.eventId = id).toList := by
    rw [acceptedFor, List.filterMap_append, List.filterMap_cons, List.filterMap_nil]
    cases (accepted p t attempt).filter fun m => m.eventId = id <;> rfl
  rw [hsnoc]
  cases hrun : entryPoint (call p host t attempt.1.env attempt.1.call) ⟨s, world⟩ with
  | error e =>
      -- the call failed: nothing is accepted and nothing changes
      rw [hrun, settle] at hreply
      rw [accepted, ← hreply]
      simpa [settle] using h
  | ok result =>
      obtain ⟨v, frame'⟩ := result
      rw [hrun, settle] at hreply
      rw [accepted, ← hreply]
      have heffect := call_effect (entryPoint_eq_ok.mp hrun)
      generalize attempt.1.call = c at heffect ⊢
      simp only [settle]
      cases heffect with
      | accept bytes sigData m hdecode hnew =>
          -- the accepted message counts for its own id only
          rw [submitted_submission, hdecode, Option.filter_some]
          by_cases hid : m.eventId = id
          · subst hid
            simpa using h.accept_same hnew
          · simpa [hid] using h.accept_other hid
      | base _ b hcall hbase =>
          rw [submitted_eq_none hcall]
          simpa using h.base (filter_concerns_of_baseStep hbase id)

/-- The records of a handler, after any run. -/
theorem recorded_of_run {J : List Attempt} {s : Storage}
    (hrun : Transition.Run Deployed (Attempts p t) J s) (id : BytesN 20) :
    Recorded s id (acceptedFor p t id J) := by
  refine Transition.Run.induction (motive := fun J s => Recorded s id (acceptedFor p t id J))
    ?_ ?_ hrun
  · rintro s ⟨wasm, admin, verificationContract, rfl⟩
    exact ⟨Nat.zero_le 1, rfl, rfl, rfl⟩
  · intro J s attempt s' _ ih hattempt
    exact hattempt.recorded ih

/-- The message of an accepted id decodes from the call that carried it. -/
theorem exists_of_mem_acceptedFor {J : List Attempt} {id : BytesN 20} {m : Message}
    (h : m ∈ acceptedFor p t id J) :
    m.eventId = id ∧ ∃ attempt ∈ J, (∃ v, attempt.2 = .ok v) ∧
      ∃ bytes sigData, attempt.1.call = submission t bytes sigData ∧
        decoded p t bytes = some m := by
  obtain ⟨attempt, hmem, hfilter⟩ := List.mem_filterMap.mp h
  obtain ⟨haccepted, hid⟩ := Option.filter_eq_some_iff.mp hfilter
  refine ⟨by simpa using hid, attempt, hmem, ?_⟩
  unfold accepted at haccepted
  cases hreply : attempt.2 with
  | error e =>
      rw [hreply] at haccepted
      cases haccepted
  | ok v =>
      rw [hreply] at haccepted
      refine ⟨⟨v, rfl⟩, ?_⟩
      by_cases hcall : ∃ bytes sigData, attempt.1.call = submission t bytes sigData
      · obtain ⟨bytes, sigData, hcall⟩ := hcall
        rw [hcall] at haccepted
        exact ⟨bytes, sigData, hcall, (submitted_submission bytes sigData).symm.trans haccepted⟩
      · push Not at hcall
        simp only [submitted_eq_none hcall] at haccepted
        cases haccepted

/-! ## Replay protection -/

/-- After the attempts `J`, for the event `id`: at most one attempt that decodes to
it returned; it is seen exactly when it has a payload; the payload is that of
the accepted envelope, it stays, and the one pair of events carries the trigger
id decoded from it; and no failed call, whatever its reason, changes anything. -/
structure ReplayProtected (p : Platform) (t : VerificationType) (J : List Attempt) (s : Storage)
    (id : BytesN 20) : Prop where
  at_most_once : (acceptedFor p t id J).length ≤ 1
  seen_iff_payload : s.isEventSeen id = true ↔ (s.getPayload id).isSome = true
  payload_accepted : ∀ payload, s.getPayload id = some payload →
    ∃ m, acceptedFor p t id J = [m] ∧ m.payload = payload ∧
      triggerOf p t payload = some m.triggerId ∧
      s.base.events.filter (concerns id) = [.verified id, .triggered m.triggerId id]
  not_accepted : s.getPayload id = none →
    acceptedFor p t id J = [] ∧ s.base.events.filter (concerns id) = []
  payload_stays : ∀ payload J' s', s.getPayload id = some payload →
    Transition.Path (Attempts p t) s J' s' → s'.getPayload id = some payload
  failure_changes_nothing : ∀ attempt s' e, Attempts p t s attempt s' → attempt.2 = .error e →
    s' = s

theorem Attempts.eq_of_error {s s' : Storage} {attempt : Attempt} {e : InvokeError}
    (h : Attempts p t s attempt s') (hfailed : attempt.2 = .error e) : s' = s := by
  obtain ⟨ω, host, world, hreply, rfl⟩ := h
  cases hrun : entryPoint (call p host t attempt.1.env attempt.1.call) ⟨s, world⟩ with
  | error e' => rfl
  | ok result =>
      rw [hrun, hfailed] at hreply
      cases hreply

/-- Replay protection and payload integrity, in every run of a handler. -/
theorem replay_protection {J : List Attempt} {s : Storage}
    (hrun : Transition.Run Deployed (Attempts p t) J s) (id : BytesN 20) :
    ReplayProtected p t J s id := by
  have h := recorded_of_run hrun id
  have hcases : acceptedFor p t id J = [] ∨ ∃ m, acceptedFor p t id J = [m] := by
    cases hlist : acceptedFor p t id J with
    | nil => exact Or.inl rfl
    | cons m rest =>
        have honce := h.once
        rw [hlist, List.length_cons] at honce
        have hrest : rest = [] := List.length_eq_zero_iff.mp (by omega)
        exact Or.inr ⟨m, by rw [hrest]⟩
  constructor
  case at_most_once => exact h.once
  case seen_iff_payload =>
    rw [h.seen, h.payload]
    rcases hcases with hnil | ⟨m, hm⟩
    · simp [hnil]
    · simp [hm]
  case payload_accepted =>
    intro payload hpayload
    rcases hcases with hnil | ⟨m, hm⟩
    · rw [h.payload, hnil] at hpayload
      cases hpayload
    · obtain ⟨rfl, attempt, -, -, bytes, sigData, -, hdecode⟩ :=
        exists_of_mem_acceptedFor (hm ▸ List.mem_singleton_self m)
      rw [h.payload, hm] at hpayload
      cases hpayload
      refine ⟨m, hm, rfl, triggerOf_payload hdecode, ?_⟩
      rw [h.events, hm]
      rfl
  case not_accepted =>
    intro hpayload
    rcases hcases with hnil | ⟨m, hm⟩
    · refine ⟨hnil, ?_⟩
      rw [h.events, hnil]
      rfl
    · rw [h.payload, hm] at hpayload
      cases hpayload
  case payload_stays =>
    intro payload J' s' hpayload hpath
    -- the accepted messages only grow, and there is never a second one
    have h' : Recorded s' id (acceptedFor p t id (J ++ J')) :=
      recorded_of_run (hrun.append hpath) id
    rcases hcases with hnil | ⟨m, hm⟩
    · rw [h.payload, hnil] at hpayload
      cases hpayload
    · have hsplit : acceptedFor p t id (J ++ J') = m :: acceptedFor p t id J' := by
        rw [acceptedFor, List.filterMap_append]
        exact congrArg (· ++ acceptedFor p t id J') hm
      rw [← hpayload, h.payload, h'.payload, hsplit, hm]
      rfl
  case failure_changes_nothing =>
    intro attempt s' e
    exact Attempts.eq_of_error

/-! ## A run

The sample envelope is submitted twice to a Stellar handler, with a Verification
contract that accepts it.  The second submission is refused. -/

section Sample

def sampleSigData : SignatureData where
  signers := [Sample.highKey.toArray]
  signatures := [Sample.highSignature.toArray]
  referenceBlock := 100

def sampleSubmission (ledger : ℕ) : Invocation where
  env := { self := ⟨3⟩, invoker := none, ledger := ledger, signed := fun _ => false }
  call := .verifyXlm Sample.envelopeBytes sampleSigData

def sampleAttempts : List Attempt :=
  [(sampleSubmission 110, .ok .void),
    (sampleSubmission 111, .error (.contract 501))]

/-- Other contracts that always answer with no value. -/
def acceptingHost : Host Unit :=
  ⟨fun _ _ world => (.ok .void, world)⟩

def sampleMessage : Message where
  eventId := Sample.envelope.eventId
  payload := Sample.payload
  triggerId := 7

def sampleState : Storage :=
  (construct Sample.zeroHash ⟨0⟩ ⟨2⟩).accept sampleMessage

theorem sample_decoded :
    decoded Sample.platform .stellar Sample.envelopeBytes = some sampleMessage := by
  simp [decoded, decodedXlm, FromXdr.toOption, Sample.platform, Sample.envelope, sampleMessage]

theorem sample_run : Transition.Run Deployed (Attempts Sample.platform .stellar) sampleAttempts
    sampleState := by
  have hstart : Transition.Run Deployed (Attempts Sample.platform .stellar) []
      (construct Sample.zeroHash ⟨0⟩ ⟨2⟩) := .start ⟨_, _, _, rfl⟩
  have hfirst : Attempts Sample.platform .stellar (construct Sample.zeroHash ⟨0⟩ ⟨2⟩)
      (sampleSubmission 110, .ok .void) sampleState :=
    .of_ok acceptingHost () () (submission_eq_ok.mpr ⟨rfl, verifyEnvelope_run_eq_ok.mpr
      ⟨rfl, sampleMessage, sample_decoded, rfl, rfl, rfl⟩⟩)
  have hsecond : Attempts Sample.platform .stellar sampleState
      (sampleSubmission 111, .error (.contract 501)) sampleState :=
    .of_error acceptingHost () (submission_of_seen rfl sample_decoded
      (Storage.isEventSeen_accept _ sampleMessage))
  exact (hstart.snoc hfirst).snoc hsecond

theorem replay_protection_sample :
    sampleState.getPayload Sample.envelope.eventId = some Sample.payload ∧
      ReplayProtected Sample.platform .stellar sampleAttempts sampleState
        Sample.envelope.eventId :=
  ⟨Storage.getPayload_accept _ sampleMessage, replay_protection sample_run Sample.envelope.eventId⟩

end Sample

end WarpDrive.Handler
