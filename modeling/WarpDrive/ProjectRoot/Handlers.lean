import WarpDrive.Library.Transition
import WarpDrive.Platform
import WarpDrive.ProjectRoot.Gate

/-!
# The handlers of a project

A handler joins in a call of `register_handler` or `accept_contract_admin`, after
it answered the probe with the Verification contract of the project, and leaves in
a call of `unregister_handler`; no other call touches the set, and none that fails
(`call_books`).  The events keep the same books: `replayEvents` rebuilds the list
from them, and never meets a handler that joins twice or leaves while absent
(`handler_set`).

A run of ProjectRoot is a sequence of attempts, each made while the other
contracts do whatever they like; in particular they may answer the probe
differently each time.  What the host must do is to refuse an invocation of
ProjectRoot by itself, since its own `verification_contract()` is the answer that
the probe asks for.
-/

namespace WarpDrive.ProjectRoot

variable {ω α β ε ε' : Type} {host : Host ω} {env : Env}

/-! ## The books -/

/-- The events that announce a change of the handlers. -/
def concernsHandlers : Event → Bool
  | .handlerRegistered _ => true
  | .handlerRemoved _ => true
  | _ => false

/-- One event, on a list of handlers: none if it registers a handler that is there
or removes one that is not. -/
def replayEvent (handlers : List Address) : Event → Option (List Address)
  | .handlerRegistered handler =>
      if handler ∈ handlers then none else some (handlers ++ [handler])
  | .handlerRemoved handler =>
      if handler ∈ handlers then some (handlers.erase handler) else none
  | _ => some handlers

def replayEvents (handlers : List Address) (events : List Event) : Option (List Address) :=
  events.foldlM replayEvent handlers

theorem replayEvents_append (handlers : List Address) (events events' : List Event) :
    replayEvents handlers (events ++ events') =
      (replayEvents handlers events).bind fun handlers => replayEvents handlers events' :=
  List.foldlM_append

theorem replayEvents_of_unconcerned (handlers : List Address) {events : List Event}
    (h : ∀ e ∈ events, concernsHandlers e = false) :
    replayEvents handlers events = some handlers := by
  induction events with
  | nil => rfl
  | cons e events ih =>
      obtain ⟨he, hrest⟩ := List.forall_mem_cons.mp h
      have hfirst : replayEvent handlers e = some handlers := by
        cases e <;> first | rfl | cases he
      rw [replayEvents, List.foldlM_cons, hfirst]
      exact ih hrest

/-- The handlers are as they were, and no event says otherwise. -/
structure Quiet (s s' : Storage) : Prop where
  handlers : s'.handlers = s.handlers
  events : ∃ new, s'.base.events = s.base.events ++ new ∧ ∀ e ∈ new, concernsHandlers e = false

theorem Quiet.refl (s : Storage) : Quiet s s :=
  ⟨rfl, [], (List.append_nil _).symm, by simp⟩

theorem Quiet.trans {s s' s'' : Storage} (h : Quiet s s') (h' : Quiet s' s'') : Quiet s s'' := by
  obtain ⟨hhandlers, new, hevents, hnew⟩ := h
  obtain ⟨hhandlers', new', hevents', hnew'⟩ := h'
  refine ⟨hhandlers'.trans hhandlers, new ++ new', ?_, ?_⟩
  · rw [hevents', hevents, List.append_assoc]
  · intro e he
    rcases List.mem_append.mp he with he | he
    · exact hnew e he
    · exact hnew' e he

/-- Code that leaves the handlers alone. -/
def KeepsQuiet (m : Contract (Frame Storage ω) ε α) : Prop :=
  ∀ frame a frame', m.run frame = .ok (a, frame') → Quiet frame.storage frame'.storage

namespace KeepsQuiet

theorem of_reads {m : Contract (Frame Storage ω) ε α} (h : Reads m) : KeepsQuiet m := by
  intro frame a frame' hrun
  obtain rfl := h _ _ _ hrun
  exact .refl _

theorem bind {m : Contract (Frame Storage ω) ε α} {f : α → Contract (Frame Storage ω) ε β}
    (hm : KeepsQuiet m) (hf : ∀ a, KeepsQuiet (f a)) : KeepsQuiet (m >>= f) := by
  intro frame b frame'' h
  obtain ⟨a, frame', hfirst, hsecond⟩ := bind_run_eq_ok.mp h
  exact (hm _ _ _ hfirst).trans (hf a _ _ _ hsecond)

theorem mapError {f : ε' → Failure ε} {m : Contract (Frame Storage ω) ε' α}
    (h : KeepsQuiet m) : KeepsQuiet (mapError f m) :=
  fun _ _ _ hrun => h _ _ _ (mapError_run_eq_ok.mp hrun)

theorem publish {e : Event} (he : concernsHandlers e = false) :
    KeepsQuiet (onBase (publish e) : Contract (Frame Storage ω) ε Unit) := by
  intro frame a frame' h
  cases h
  refine ⟨rfl, [e], rfl, ?_⟩
  intro e' he'
  rwa [List.mem_singleton.mp he']

theorem tryInvoke (target : Address) (call : Call) :
    KeepsQuiet (tryInvoke host target call : Contract (Frame Storage ω) ε Reply) := by
  intro frame a frame' h
  cases h
  exact .refl _

theorem requireAuth (a : Address) :
    KeepsQuiet (requireAuth env a : Contract (Frame Storage ω) ε Unit) :=
  of_reads fun _ _ _ h => (requireAuth_run_eq_ok.mp h).2

theorem proxy (target : Address) (function : String) (call : Call) :
    KeepsQuiet (proxy host env target function call) :=
  .bind (.of_reads .get) fun _ => .bind (.requireAuth _) fun _ => .bind (.publish rfl) fun _ =>
    .bind (.tryInvoke _ _) fun _ => .of_reads (reads_mapSecurityResult _)

theorem toSecurity (function : String) (call : Call) :
    KeepsQuiet (toSecurity host env function call) :=
  .bind (.of_reads .get) fun _ => .bind (.proxy _ _ _) fun _ => .of_reads (.pure _)

theorem ensureOurContract (target : Address) : KeepsQuiet (ensureOurContract host target) := by
  intro frame ctype frame' h
  simp only [ProjectRoot.ensureOurContract, bind_get_run] at h
  split at h
  · cases h
    exact .refl _
  · split at h
    · cases h
      exact .refl _
    · rw [bind_tryInvoke_run] at h
      split at h
      · cases h
        exact .refl _
      · cases h

theorem toOurContract (target : Address) (function : String) (call : Call) :
    KeepsQuiet (toOurContract host env target function call) :=
  .bind (.ensureOurContract _) fun _ => .bind (.mapError (.proxy _ _ _)) fun _ =>
    .of_reads (.pure _)

theorem updateProjectSpecRepo (repo : String) :
    KeepsQuiet (updateProjectSpecRepo env repo : Contract (Frame Storage ω) _ _) := by
  refine .bind (.of_reads .get) fun _ => .bind (.requireAuth _) fun _ =>
    .bind ?_ fun _ => .publish rfl
  intro frame a frame' h
  cases h
  exact ⟨rfl, [], (List.append_nil _).symm, by simp⟩

end KeepsQuiet

/-- The shared interface announces no handler. -/
theorem quiet_of_baseStep {s : Storage} {b : Base} {c : Call} (h : BaseStep env s.base c b) :
    Quiet s { s with base := b } := by
  refine ⟨rfl, ?_⟩
  cases h with
  | upgrade => exact ⟨[_], rfl, by simp [concernsHandlers]⟩
  | propose => exact ⟨[_], rfl, by simp [concernsHandlers]⟩
  | accept => exact ⟨[_], rfl, by simp [concernsHandlers]⟩
  | query => exact ⟨[], (List.append_nil _).symm, by simp⟩

/-! ## The functions that keep the books -/

/-- A target that `ensureOurContract` takes for a handler. -/
structure IsHandler (host : Host ω) (target : Address) (frame : Frame Storage ω) : Prop where
  ne_verification : target ≠ frame.storage.verificationContract
  ne_security : target ≠ frame.storage.securityContract
  probe : (host.invoke target .verificationContract frame.world).1 =
    .ok (.address frame.storage.verificationContract)

theorem ensureOurContract_eq_handler {target : Address} {frame frame' : Frame Storage ω} :
    (ensureOurContract host target).run frame = .ok (.handler, frame') ↔
      IsHandler host target frame ∧
        frame' = { frame with
          world := (host.invoke target .verificationContract frame.world).2 } := by
  have hanswer : ∀ reply : Reply, reply.toOption.bind Val.toAddress? =
      some frame.storage.verificationContract ↔
        reply = .ok (.address frame.storage.verificationContract) := by
    intro reply
    cases reply with
    | error e => simp [Except.toOption]
    | ok v => cases v <;> simp [Except.toOption, Val.toAddress?]
  simp only [ensureOurContract, bind_get_run]
  by_cases hverification : target = frame.storage.verificationContract
  · rw [if_pos hverification]
    constructor
    · intro h
      cases h
    · intro h
      exact absurd hverification h.1.ne_verification
  rw [if_neg hverification]
  by_cases hsecurity : target = frame.storage.securityContract
  · rw [if_pos hsecurity]
    constructor
    · intro h
      cases h
    · intro h
      exact absurd hsecurity h.1.ne_security
  rw [if_neg hsecurity, bind_tryInvoke_run]
  split
  · next hprobe =>
      constructor
      · intro h
        cases h
        exact ⟨⟨hverification, hsecurity, (hanswer _).mp hprobe⟩, rfl⟩
      · intro h
        rw [h.2]
        rfl
  · next hprobe =>
      constructor
      · intro h
        cases h
      · intro h
        exact absurd ((hanswer _).mpr h.1.probe) hprobe

/-- The storage that `trackHandler` leaves. -/
def Storage.track (s : Storage) (handler : Address) : Storage :=
  if handler ∈ s.handlers then s
  else { s with
    handlers := s.handlers ++ [handler]
    base := { s.base with events := s.base.events ++ [.handlerRegistered handler] } }

/-- The storage that `unregister_handler` leaves. -/
def Storage.untrack (s : Storage) (handler : Address) : Storage :=
  if handler ∈ s.handlers then { s with
    handlers := s.handlers.erase handler
    base := { s.base with events := s.base.events ++ [.handlerRemoved handler] } }
  else s

theorem trackHandler_run (handler : Address) (frame : Frame Storage ω) :
    (trackHandler handler).run frame =
      .ok ((), { frame with storage := frame.storage.track handler }) := by
  unfold trackHandler addHandler Storage.track
  by_cases h : handler ∈ frame.storage.handlers
  · rw [bind_assoc, bind_get_run, if_pos h, if_pos h]
    rfl
  · rw [bind_assoc, bind_get_run, if_neg h, if_neg h]
    rfl

theorem registerHandler_eq_ok {handler : Address} {frame frame' : Frame Storage ω} {u : Unit} :
    (registerHandler host env handler).run frame = .ok (u, frame') ↔
      env.authorized frame.storage.base.admin = true ∧ IsHandler host handler frame ∧
        frame' = ⟨frame.storage.track handler,
          (host.invoke handler .verificationContract frame.world).2⟩ := by
  simp only [registerHandler, bind_get_run, bind_requireAuth_eq_ok]
  apply and_congr_right
  intro _
  constructor
  · intro h
    obtain ⟨ctype, _, hours, hrest⟩ := bind_run_eq_ok.mp h
    obtain ⟨hctype, htrack⟩ := bind_rejectIf_eq_ok.mp hrest
    obtain rfl := not_not.mp hctype
    obtain ⟨hhandler, rfl⟩ := ensureOurContract_eq_handler.mp hours
    rw [trackHandler_run] at htrack
    cases htrack
    exact ⟨hhandler, rfl⟩
  · intro h
    obtain ⟨hhandler, rfl⟩ := h
    refine bind_run_eq_ok.mpr ⟨.handler, _, ensureOurContract_eq_handler.mpr ⟨hhandler, rfl⟩, ?_⟩
    rw [bind_rejectIf_eq_ok, trackHandler_run]
    exact ⟨not_not.mpr rfl, rfl⟩

theorem unregisterHandler_run (handler : Address) (frame : Frame Storage ω) :
    (unregisterHandler env handler).run frame =
      if env.authorized frame.storage.base.admin then
        .ok ((), { frame with storage := frame.storage.untrack handler })
      else .error .trap := by
  unfold unregisterHandler removeHandler Storage.untrack
  rw [bind_get_run, StateT.run_bind, run_requireAuth]
  split
  · by_cases h : handler ∈ frame.storage.handlers
    · rw [ok_bind, bind_assoc, bind_get_run, if_pos h, if_pos h]
      rfl
    · rw [ok_bind, bind_assoc, bind_get_run, if_neg h, if_neg h]
      rfl
  · rfl

/-! ## What a successful call does to the books -/

/-- What a call that returns does to the handlers, when `probe` is what each contract
answers to the probe: nothing, or one handler joins, or one leaves. -/
inductive Books (probe : Address → Reply) (s : Storage) (call : Call) : Storage → Prop
  | quiet (s' : Storage) (hquiet : Quiet s s') : Books probe s call s'
  | joined (handler : Address) (s₁ : Storage)
      (hcall : call = .registerHandler handler ∨ call = .acceptContractAdmin handler)
      (hquiet : Quiet s s₁) (habsent : handler ∉ s.handlers)
      (hverification : handler ≠ s.verificationContract)
      (hsecurity : handler ≠ s.securityContract)
      (hprobe : probe handler = .ok (.address s.verificationContract)) :
      Books probe s call { s₁ with
        handlers := s₁.handlers ++ [handler]
        base := { s₁.base with events := s₁.base.events ++ [.handlerRegistered handler] } }
  | left (handler : Address) (hcall : call = .unregisterHandler handler)
      (hpresent : handler ∈ s.handlers) :
      Books probe s call { s with
        handlers := s.handlers.erase handler
        base := { s.base with events := s.base.events ++ [.handlerRemoved handler] } }

/-- How the contracts of a world answer the probe. -/
def probeOf (host : Host ω) (world : ω) (target : Address) : Reply :=
  (host.invoke target .verificationContract world).1

/-- A handler that `ensureOurContract` let in is tracked, in this call or before. -/
theorem books_track {handler : Address} {frame : Frame Storage ω} {s₁ : Storage} {c : Call}
    (hcall : c = .registerHandler handler ∨ c = .acceptContractAdmin handler)
    (hhandler : IsHandler host handler frame) (hquiet : Quiet frame.storage s₁) :
    Books (probeOf host frame.world) frame.storage c (s₁.track handler) := by
  unfold Storage.track
  by_cases hpresent : handler ∈ s₁.handlers
  · rw [if_pos hpresent]
    exact .quiet _ hquiet
  · rw [if_neg hpresent]
    exact .joined handler s₁ hcall hquiet (hquiet.handlers ▸ hpresent) hhandler.ne_verification
      hhandler.ne_security hhandler.probe

theorem books_of_void {m : Contract (Frame Storage ω) ProjectRootError Unit} (hm : KeepsQuiet m)
    {probe : Address → Reply} {c : Call} {frame frame' : Frame Storage ω} {v : Val}
    (h : (void m).run frame = .ok (v, frame')) :
    Books probe frame.storage c frame'.storage := by
  obtain ⟨_, _, hrun, hret⟩ := bind_run_eq_ok.mp h
  cases hret
  exact .quiet _ (hm _ _ _ hrun)

theorem acceptContractAdmin_books {target : Address} {frame frame' : Frame Storage ω} {u : Unit}
    (h : (acceptContractAdmin host env target).run frame = .ok (u, frame')) :
    Books (probeOf host frame.world) frame.storage (.acceptContractAdmin target)
      frame'.storage := by
  obtain ⟨ctype, frame₁, hours, hrest⟩ := bind_run_eq_ok.mp h
  have hquiet : Quiet frame.storage frame₁.storage :=
    KeepsQuiet.toOurContract _ _ _ _ _ _ hours
  obtain ⟨ctype', frame₂, hensure, hproxy⟩ := bind_run_eq_ok.mp hours
  obtain ⟨_, _, _, hret⟩ := bind_run_eq_ok.mp hproxy
  cases hret
  split at hrest
  · next heq =>
      -- the target was asked for its Verification contract, before the proxied call
      rw [heq] at hensure
      rw [trackHandler_run] at hrest
      cases hrest
      exact books_track (.inr rfl) (ensureOurContract_eq_handler.mp hensure).1 hquiet
  · cases hrest
    exact .quiet _ hquiet

/-- A call that returns keeps the books in one of these ways. -/
theorem call_books {c : Call} {frame frame' : Frame Storage ω} {v : Val}
    (h : (call host env c).run frame = .ok (v, frame')) :
    Books (probeOf host frame.world) frame.storage c frame'.storage := by
  cases c with
  | securityContract | verificationContract | projectSpecRepo | verificationType
  | listHandlers =>
      obtain rfl := Reads.view _ _ _ _ h
      exact .quiet _ (.refl _)
  | updateProjectSpecRepo repo => exact books_of_void (.updateProjectSpecRepo repo) h
  | addSecp256k1Signer key weight | addEd25519Signer key weight =>
      obtain ⟨key, -, h⟩ := bind_expect_eq_ok.mp h
      exact books_of_void (.mapError (.toSecurity _ _)) h
  | removeSecp256k1Signer key | removeEd25519Signer key =>
      obtain ⟨key, -, h⟩ := bind_expect_eq_ok.mp h
      exact books_of_void (.mapError (.toSecurity _ _)) h
  | setThreshold numerator denominator => exact books_of_void (.mapError (.toSecurity _ _)) h
  | upgradeContract target newWasmHash newVersion =>
      exact books_of_void (.bind (.toOurContract _ _ _) fun _ => .of_reads (.pure _)) h
  | proposeContractAdmin target newAdmin =>
      exact books_of_void (.bind (.toOurContract _ _ _) fun _ => .of_reads (.pure _)) h
  | acceptContractAdmin target =>
      obtain ⟨_, _, hrun, hret⟩ := bind_run_eq_ok.mp h
      cases hret
      exact acceptContractAdmin_books hrun
  | registerHandler handler =>
      obtain ⟨_, _, hrun, hret⟩ := bind_run_eq_ok.mp h
      cases hret
      obtain ⟨-, hhandler, rfl⟩ := registerHandler_eq_ok.mp hrun
      exact books_track (.inl rfl) hhandler (.refl _)
  | unregisterHandler handler =>
      obtain ⟨_, _, hrun, hret⟩ := bind_run_eq_ok.mp h
      cases hret
      rw [unregisterHandler_run] at hrun
      split at hrun
      · cases hrun
        unfold Storage.untrack
        by_cases hpresent : handler ∈ frame.storage.handlers
        · rw [if_pos hpresent]
          exact .left handler rfl hpresent
        · rw [if_neg hpresent]
          exact .quiet _ (.refl _)
      · cases hrun
  | _ =>
      -- the shared interface, and the calls ProjectRoot does not have
      obtain ⟨b, hrun, rfl⟩ := onBase_run_eq_ok.mp h
      exact .quiet _ (quiet_of_baseStep (warpDriveInterface_step hrun))

/-- No call that returns changes the registered contracts. -/
theorem call_links {c : Call} {frame frame' : Frame Storage ω} {v : Val}
    (h : (call host env c).run frame = .ok (v, frame')) :
    frame'.storage.securityContract = frame.storage.securityContract ∧
      frame'.storage.verificationContract = frame.storage.verificationContract := by
  cases call_effect h with
  | base => exact ⟨rfl, rfl⟩
  | query => exact ⟨rfl, rfl⟩
  | gated _ _ _ _ hkept _ => exact ⟨hkept.securityContract, hkept.verificationContract⟩

/-! ## Runs -/

/-- A call, how the contracts answered the probe when it was made, and the reply its
caller saw. -/
structure Attempt where
  inv : Invocation
  probe : Address → Reply
  reply : Reply

/-- The states a constructor leaves. -/
def Deployed (s : Storage) : Prop :=
  ∃ wasm admin securityContract verificationContract repo verificationType,
    s = construct wasm admin securityContract verificationContract repo verificationType

/-- The host refuses every invocation of `self`. -/
def RefusesReentry (host : Host ω) (self : Address) : Prop :=
  ∀ call world, ∃ e, (host.invoke self call world).1 = .error e

/-- One call of ProjectRoot, in any world of other contracts.  If it does not return,
the host rolls it back. -/
def Attempts (s : Storage) (attempt : Attempt) (s' : Storage) : Prop :=
  ∃ (ω : Type) (host : Host ω) (world : ω),
    attempt.probe = probeOf host world ∧ RefusesReentry host attempt.inv.env.self ∧
      let settled := settle
        (entryPoint (call host attempt.inv.env attempt.inv.call) ⟨s, world⟩) ⟨s, world⟩
      settled.1 = attempt.reply ∧ settled.2.storage = s'

/-- What an attempt does: it fails and changes nothing, or it keeps the books. -/
theorem Attempts.books {s s' : Storage} {attempt : Attempt} (h : Attempts s attempt s') :
    s' = s ∨ (∃ v, attempt.reply = .ok v) ∧
      Books attempt.probe s attempt.inv.call s' ∧
      s'.securityContract = s.securityContract ∧
      s'.verificationContract = s.verificationContract ∧
      ∃ e, attempt.probe attempt.inv.env.self = .error e := by
  obtain ⟨ω, host, world, hprobe, hrefuses, hreply, hstorage⟩ := h
  cases hrun : entryPoint (call host attempt.inv.env attempt.inv.call) ⟨s, world⟩ with
  | error e =>
      rw [hrun] at hstorage
      exact Or.inl hstorage.symm
  | ok r =>
      obtain ⟨v, frame'⟩ := r
      rw [hrun] at hreply hstorage
      obtain rfl : frame'.storage = s' := hstorage
      have hcall := entryPoint_eq_ok.mp hrun
      obtain ⟨hsecurity, hverification⟩ := call_links hcall
      refine Or.inr ⟨⟨v, hreply.symm⟩, ?_, hsecurity, hverification, ?_⟩
      · rw [hprobe]
        exact call_books hcall
      · rw [hprobe]
        exact hrefuses _ _

/-- The handlers are a set of other contracts, and the events say how it came about. -/
structure HandlerSet (root : Address) (s : Storage) : Prop where
  nodup : s.handlers.Nodup
  no_security : s.securityContract ∉ s.handlers
  no_verification : s.verificationContract ∉ s.handlers
  no_root : root ∉ s.handlers
  replay : replayEvents [] s.base.events = some s.handlers

theorem Deployed.handlerSet {s : Storage} (h : Deployed s) (root : Address) :
    HandlerSet root s := by
  obtain ⟨wasm, admin, security, verification, repo, type, rfl⟩ := h
  exact ⟨List.nodup_nil, List.not_mem_nil, List.not_mem_nil, List.not_mem_nil, rfl⟩

theorem Quiet.replay {s s' : Storage} (h : Quiet s s')
    (hs : replayEvents [] s.base.events = some s.handlers) :
    replayEvents [] s'.base.events = some s'.handlers := by
  obtain ⟨hhandlers, new, hevents, hnew⟩ := h
  rw [hevents, replayEvents_append, hs, Option.bind_some,
    replayEvents_of_unconcerned _ hnew, hhandlers]

theorem HandlerSet.quiet {root : Address} {s s' : Storage} (h : HandlerSet root s)
    (hquiet : Quiet s s') (hsecurity : s'.securityContract = s.securityContract)
    (hverification : s'.verificationContract = s.verificationContract) : HandlerSet root s' where
  nodup := hquiet.handlers ▸ h.nodup
  no_security := by rw [hquiet.handlers, hsecurity]; exact h.no_security
  no_verification := by rw [hquiet.handlers, hverification]; exact h.no_verification
  no_root := hquiet.handlers ▸ h.no_root
  replay := hquiet.replay h.replay

/-- A contract joins that is none of the others, and not tracked yet. -/
theorem HandlerSet.joined {root : Address} {s : Storage} {handler : Address}
    (h : HandlerSet root s) (habsent : handler ∉ s.handlers)
    (hneVerification : handler ≠ s.verificationContract)
    (hneSecurity : handler ≠ s.securityContract) (hneRoot : handler ≠ root) :
    HandlerSet root { s with
      handlers := s.handlers ++ [handler]
      base := { s.base with events := s.base.events ++ [.handlerRegistered handler] } } := by
  have hmem : ∀ a, a ∈ s.handlers ++ [handler] ↔ a ∈ s.handlers ∨ a = handler := by
    intro a
    rw [List.mem_append, List.mem_singleton]
  constructor
  case nodup =>
    exact List.nodup_append.mpr ⟨h.nodup, List.nodup_singleton _, fun a ha b hb heq =>
      habsent (by rw [← List.mem_singleton.mp hb, ← heq]; exact ha)⟩
  case no_security =>
    intro hin
    rw [hmem] at hin
    exact hin.elim h.no_security fun heq => hneSecurity heq.symm
  case no_verification =>
    intro hin
    rw [hmem] at hin
    exact hin.elim h.no_verification fun heq => hneVerification heq.symm
  case no_root =>
    intro hin
    rw [hmem] at hin
    exact hin.elim h.no_root fun heq => hneRoot heq.symm
  case replay =>
    have hone : replayEvents s.handlers [.handlerRegistered handler] =
        some (s.handlers ++ [handler]) := by
      simp [replayEvents, replayEvent, habsent]
    rw [replayEvents_append, h.replay, Option.bind_some, hone]

theorem HandlerSet.left {root : Address} {s : Storage} {handler : Address}
    (h : HandlerSet root s) (hpresent : handler ∈ s.handlers) :
    HandlerSet root { s with
      handlers := s.handlers.erase handler
      base := { s.base with events := s.base.events ++ [.handlerRemoved handler] } } where
  nodup := h.nodup.erase _
  no_security hin := h.no_security (List.mem_of_mem_erase hin)
  no_verification hin := h.no_verification (List.mem_of_mem_erase hin)
  no_root hin := h.no_root (List.mem_of_mem_erase hin)
  replay := by
    have hone : replayEvents s.handlers [.handlerRemoved handler] =
        some (s.handlers.erase handler) := by
      simp [replayEvents, replayEvent, hpresent]
    rw [replayEvents_append, h.replay, Option.bind_some, hone]

theorem HandlerSet.step {root : Address} {s s' : Storage} {attempt : Attempt}
    (h : HandlerSet root s) (hself : attempt.inv.env.self = root)
    (hstep : Attempts s attempt s') : HandlerSet root s' := by
  obtain rfl | ⟨-, hbooks, hsecurity, hverification, e, hroot⟩ := hstep.books
  · exact h
  rw [hself] at hroot
  generalize attempt.probe = probe at hbooks hroot
  generalize attempt.inv.call = c at hbooks
  cases hbooks with
  | quiet _ hquiet => exact h.quiet hquiet hsecurity hverification
  | joined handler s₁ _ hquiet habsent hneVerification hneSecurity hprobe =>
      -- the host refused the probe of ProjectRoot itself
      have hneRoot : handler ≠ root := by
        intro heq
        rw [heq, hroot] at hprobe
        cases hprobe
      apply (h.quiet hquiet hsecurity hverification).joined
      · rwa [hquiet.handlers]
      · exact fun heq => hneVerification (heq.trans hverification)
      · exact fun heq => hneSecurity (heq.trans hsecurity)
      · exact hneRoot
  | left handler _ hpresent => exact h.left hpresent

/-- The call in which `handler` joined: it was absent before, the call returned, its
probe was answered with the Verification contract, and `handler` stayed since. -/
def JoinedIn (J : List Attempt) (s : Storage) (handler : Address) : Prop :=
  ∃ J₁ s₁ attempt s₂ J₂, J = J₁ ++ attempt :: J₂ ∧
    Transition.Run Deployed Attempts J₁ s₁ ∧ Attempts s₁ attempt s₂ ∧
    Transition.Path (fun s l s' => Attempts s l s' ∧ handler ∈ s'.handlers) s₂ J₂ s ∧
    handler ∉ s₁.handlers ∧ handler ∈ s₂.handlers ∧ (∃ v, attempt.reply = .ok v) ∧
    (attempt.inv.call = .registerHandler handler ∨
      attempt.inv.call = .acceptContractAdmin handler) ∧
    attempt.probe handler = .ok (.address s.verificationContract)

theorem JoinedIn.snoc {J : List Attempt} {s s' : Storage} {attempt : Attempt}
    {handler : Address} (h : JoinedIn J s handler) (hstep : Attempts s attempt s')
    (hmem : handler ∈ s'.handlers)
    (hverification : s'.verificationContract = s.verificationContract) :
    JoinedIn (J ++ [attempt]) s' handler := by
  obtain ⟨J₁, s₁, joining, s₂, J₂, rfl, hrun, hjoin, hpath, habsent, hpresent, hreturned, hcall,
    hprobe⟩ := h
  refine ⟨J₁, s₁, joining, s₂, J₂ ++ [attempt], by simp, hrun, hjoin, hpath.snoc ⟨hstep, hmem⟩,
    habsent, hpresent, hreturned, hcall, ?_⟩
  rw [hverification]
  exact hprobe

/-- A change of the handlers is the joining of one or the leaving of one. -/
def Changes (attempt : Attempt) (s s' : Storage) : Prop :=
  ∃ handler,
    (attempt.inv.call = .registerHandler handler ∨
      attempt.inv.call = .acceptContractAdmin handler) ∧
        s'.handlers = s.handlers ++ [handler] ∨
    attempt.inv.call = .unregisterHandler handler ∧ s'.handlers = s.handlers.erase handler

theorem Attempts.changes {s s' : Storage} {attempt : Attempt} (h : Attempts s attempt s')
    (hne : s'.handlers ≠ s.handlers) :
    (∃ v, attempt.reply = .ok v) ∧ Changes attempt s s' := by
  obtain rfl | ⟨hreturned, hbooks, -⟩ := h.books
  · exact absurd rfl hne
  refine ⟨hreturned, ?_⟩
  unfold Changes
  generalize attempt.inv.call = c at hbooks
  cases hbooks with
  | quiet _ hquiet => exact absurd hquiet.handlers hne
  | joined handler s₁ hcall hquiet => exact ⟨handler, .inl ⟨hcall, by rw [← hquiet.handlers]⟩⟩
  | left handler hcall => exact ⟨handler, .inr ⟨hcall, rfl⟩⟩

theorem Attempts.joined {s s' : Storage} {attempt : Attempt} {handler : Address}
    (h : Attempts s attempt s') (habsent : handler ∉ s.handlers)
    (hpresent : handler ∈ s'.handlers) :
    (attempt.inv.call = .registerHandler handler ∨
      attempt.inv.call = .acceptContractAdmin handler) ∧
      attempt.probe handler = .ok (.address s'.verificationContract) := by
  obtain rfl | ⟨-, hbooks, -, hverification, -⟩ := h.books
  · exact absurd hpresent habsent
  rw [hverification]
  generalize attempt.probe = probe at hbooks ⊢
  generalize attempt.inv.call = c at hbooks ⊢
  cases hbooks with
  | quiet _ hquiet => exact absurd (hquiet.handlers ▸ hpresent) habsent
  | joined handler' s₁ hcall hquiet _ _ _ hprobe =>
      rcases List.mem_append.mp hpresent with hin | hin
      · exact absurd (hquiet.handlers ▸ hin) habsent
      · obtain rfl := List.mem_singleton.mp hin
        exact ⟨hcall, hprobe⟩
  | left handler' _ _ => exact absurd (List.mem_of_mem_erase hpresent) habsent

/-- The invariant of a run. -/
theorem handlerSet_of_run {root : Address} {J : List Attempt} {s : Storage}
    (hrun : Transition.Run Deployed Attempts J s)
    (hself : ∀ attempt ∈ J, attempt.inv.env.self = root) :
    HandlerSet root s ∧ ∀ handler ∈ s.handlers, JoinedIn J s handler := by
  refine Transition.Run.induction
    (motive := fun J s => (∀ attempt ∈ J, attempt.inv.env.self = root) →
      HandlerSet root s ∧ ∀ handler ∈ s.handlers, JoinedIn J s handler) ?_ ?_ hrun hself
  · intro s hdeployed _
    refine ⟨hdeployed.handlerSet root, ?_⟩
    obtain ⟨wasm, admin, security, verification, repo, type, rfl⟩ := hdeployed
    intro handler hin
    cases hin
  · intro J s attempt s' hrun ih hstep hself
    obtain ⟨hset, hjoined⟩ := ih fun a ha => hself a (List.mem_append_left _ ha)
    refine ⟨hset.step (hself attempt (by simp)) hstep, ?_⟩
    intro handler hin
    have hverification : s'.verificationContract = s.verificationContract := by
      obtain rfl | ⟨-, -, -, hverification, -⟩ := hstep.books
      · rfl
      · exact hverification
    by_cases hbefore : handler ∈ s.handlers
    · exact (hjoined handler hbefore).snoc hstep hin hverification
    · obtain ⟨hcall, hprobe⟩ := hstep.joined hbefore hin
      have hne : s'.handlers ≠ s.handlers := fun heq => hbefore (heq ▸ hin)
      exact ⟨J, s, attempt, s', [], rfl, hrun, hstep, .nil s', hbefore, hin,
        (hstep.changes hne).1, hcall, hprobe⟩

/-- After every run of a ProjectRoot at `root`: the handlers are distinct contracts
other than the project's own, each joined in a call that saw it answer the probe, the
events rebuild the list, and nothing but a returned call of the three functions that
announce it changes the list. -/
theorem handler_set {root : Address} {J : List Attempt} {s : Storage}
    (hrun : Transition.Run Deployed Attempts J s)
    (hself : ∀ attempt ∈ J, attempt.inv.env.self = root) :
    HandlerSet root s ∧ (∀ handler ∈ s.handlers, JoinedIn J s handler) ∧
      ∀ s₁ attempt s₂, Attempts s₁ attempt s₂ → s₂.handlers ≠ s₁.handlers →
        (∃ v, attempt.reply = .ok v) ∧ Changes attempt s₁ s₂ := by
  obtain ⟨hset, hjoined⟩ := handlerSet_of_run hrun hself
  exact ⟨hset, hjoined, fun s₁ attempt s₂ hstep hne => hstep.changes hne⟩

/-! ## A run

The contracts at the addresses 7 and 8 answer the probe, and join.  The first is registered
again, which changes nothing, and leaves. -/

section Sample

def sampleHost : Host Unit where
  invoke target _ world :=
    if target = ⟨7⟩ ∨ target = ⟨8⟩ then (.ok (.address ⟨2⟩), world) else (.error .abort, world)

def sampleDeployment : Storage :=
  construct Sample.zeroHash ⟨0⟩ ⟨1⟩ ⟨2⟩ "ipfs://spec" .stellar

def sampleAttempt (ledger : ℕ) (call : Call) : Attempt where
  inv := ⟨⟨⟨3⟩, none, ledger, (· == ⟨0⟩)⟩, call⟩
  probe := probeOf sampleHost ()
  reply := .ok .void

def joinAttempts : List Attempt :=
  [sampleAttempt 10 (.registerHandler ⟨7⟩), sampleAttempt 11 (.registerHandler ⟨8⟩),
    sampleAttempt 12 (.registerHandler ⟨7⟩), sampleAttempt 13 (.unregisterHandler ⟨7⟩)]

/-- What is left after the run. -/
def sampleLeft : Storage :=
  ((sampleDeployment.track ⟨7⟩).track ⟨8⟩).untrack ⟨7⟩

theorem sample_attempts {s s' : Storage} {ledger : ℕ} {c : Call}
    (h : settle (entryPoint (call sampleHost (sampleAttempt ledger c).inv.env c) ⟨s, ()⟩) ⟨s, ()⟩ =
      (.ok .void, ⟨s', ()⟩)) : Attempts s (sampleAttempt ledger c) s' := by
  refine ⟨Unit, sampleHost, (), rfl, fun _ _ => ⟨.abort, rfl⟩, ?_, ?_⟩
  · exact congrArg Prod.fst h
  · exact congrArg (fun settled => settled.2.storage) h

theorem joinAttempts_run : Transition.Run Deployed Attempts joinAttempts sampleLeft := by
  have hfirst : Attempts sampleDeployment (sampleAttempt 10 (.registerHandler ⟨7⟩))
      (sampleDeployment.track ⟨7⟩) := sample_attempts rfl
  have hsecond : Attempts (sampleDeployment.track ⟨7⟩) (sampleAttempt 11 (.registerHandler ⟨8⟩))
      ((sampleDeployment.track ⟨7⟩).track ⟨8⟩) := sample_attempts rfl
  have hagain : Attempts ((sampleDeployment.track ⟨7⟩).track ⟨8⟩)
      (sampleAttempt 12 (.registerHandler ⟨7⟩)) ((sampleDeployment.track ⟨7⟩).track ⟨8⟩) :=
    sample_attempts rfl
  have hleaves : Attempts ((sampleDeployment.track ⟨7⟩).track ⟨8⟩)
      (sampleAttempt 13 (.unregisterHandler ⟨7⟩)) sampleLeft := sample_attempts rfl
  have hdeployed : Transition.Run Deployed Attempts [] sampleDeployment :=
    .start ⟨_, _, _, _, _, _, rfl⟩
  exact (((hdeployed.snoc hfirst).snoc hsecond).snoc hagain).snoc hleaves

theorem handler_set_sample :
    sampleLeft.handlers = [⟨8⟩] ∧ HandlerSet ⟨3⟩ sampleLeft ∧
      JoinedIn joinAttempts sampleLeft ⟨8⟩ := by
  have hself : ∀ attempt ∈ joinAttempts, attempt.inv.env.self = ⟨3⟩ := by
    simp [joinAttempts, sampleAttempt]
  obtain ⟨hset, hjoined, -⟩ := handler_set joinAttempts_run hself
  exact ⟨rfl, hset, hjoined ⟨8⟩ (List.mem_singleton_self _)⟩

end Sample

end WarpDrive.ProjectRoot
