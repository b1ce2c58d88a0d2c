import WarpDrive.Security.Invariant

/-!
# The registry in the event log

A Security contract publishes `SignerAdded` and `SignerRemoved` outside the storage
functions, and unconditionally: the removal of a key that is not registered is
announced as well.  Folding these events, as an indexer does, still gives the
registry: an added key gets its weight, a removed key is deleted, and to delete an
absent key changes nothing.

One call publishes at most one such event, and it moves the fold and the latest
weights alike (`Effect.foldEvents`); so the two agree along every run
(`foldEvents_run`).
-/

namespace WarpDrive.Security

open VecHistory

variable {t : VerificationType} {J : List Invocation} {s s' : Storage t} {env : Env}

/-! ## The fold -/

/-- `SignerAdded` sets a weight, `SignerRemoved` deletes a key. -/
def applyEvent (weights : Bytes → Option UInt64) : Event → Bytes → Option UInt64
  | .signerAdded key weight => Function.update weights key (some weight)
  | .signerRemoved key => Function.update weights key none
  | _ => weights

/-- The map that a log of events describes. -/
def foldEvents (events : List Event) : Bytes → Option UInt64 :=
  events.foldl applyEvent fun _ => none

/-- An event about the registry. -/
def isSignerEvent : Event → Bool
  | .signerAdded .. | .signerRemoved _ => true
  | _ => false

/-- The event that a successful call publishes about the registry. -/
def signerEvent : Call → Option Event
  | .addSigner key weight => some (.signerAdded key weight)
  | .removeSigner key => some (.signerRemoved key)
  | _ => none

theorem foldEvents_snoc (events : List Event) (e : Event) :
    foldEvents (events ++ [e]) = applyEvent (foldEvents events) e := by
  rw [foldEvents, List.foldl_append, List.foldl_cons, List.foldl_nil, foldEvents]

/-- The current weight of a key, given as raw bytes. -/
def Storage.rawWeight (s : Storage t) (raw : Bytes) : Option UInt64 :=
  (BytesN.ofBytes? t.keyLength raw).bind s.getSignerWeight

theorem Storage.rawWeight_congr (h : s'.signerWeightHist = s.signerWeightHist) :
    s'.rawWeight = s.rawWeight := by
  funext raw
  unfold rawWeight getSignerWeight
  rw [h]

/-- A weight pushed for one key. -/
theorem Storage.rawWeight_push (s : Storage t) {key : t.PubKey} {ledger : ℕ} {weight : UInt64}
    (h : s'.signerWeightHist = Function.update s.signerWeightHist key
      (push historyCutoff ledger (s.signerWeightHist key) weight)) :
    s'.rawWeight = Function.update s.rawWeight key.toArray
      (if weight = 0 then none else some weight) := by
  funext raw
  by_cases hraw : raw = key.toArray
  · rw [hraw, Function.update_self, rawWeight, BytesN.ofBytes?_toArray, Option.bind_some,
      getSignerWeight, h, Function.update_self, latest_push]
  · rw [Function.update_of_ne hraw]
    unfold rawWeight
    cases hkey : BytesN.ofBytes? t.keyLength raw with
    | none => rfl
    | some other =>
        have hne : other ≠ key := by
          intro heq
          rw [← BytesN.toArray_of_ofBytes? hkey, heq] at hraw
          exact hraw rfl
        rw [Option.bind_some, Option.bind_some, getSignerWeight, getSignerWeight, h,
          Function.update_of_ne hne]

/-! ## One call -/

theorem events_of_baseStep {b b' : Base} {call : Call} (h : BaseStep env b call b') :
    b'.events = b.events ∨
      ∃ e, b'.events = b.events ++ [e] ∧ isSignerEvent e = false := by
  cases h with
  | upgrade => exact Or.inr ⟨_, rfl, rfl⟩
  | propose => exact Or.inr ⟨_, rfl, rfl⟩
  | accept => exact Or.inr ⟨_, rfl, rfl⟩
  | query => exact Or.inl rfl

theorem applyEvent_of_not_signerEvent {weights : Bytes → Option UInt64} {e : Event}
    (h : isSignerEvent e = false) : applyEvent weights e = weights := by
  cases e <;> first | rfl | cases h

theorem signerEvent_of_not_isRegistry {call : Call} (h : call.isRegistry = false) :
    signerEvent call = none := by
  cases call <;> first | rfl | cases h

/-- A successful call takes the fold where it takes the weights. -/
theorem Effect.foldEvents {call : Call} (h : Effect env s call s')
    (hfold : foldEvents s.base.events = s.rawWeight) :
    Security.foldEvents s'.base.events = s'.rawWeight := by
  cases h with
  | add key weight total _ hweight _ =>
      have hpushed : ((s.afterAdd env.ledger key weight total).emit
          (.signerAdded key.toArray weight)).rawWeight = _ := Storage.rawWeight_push s rfl
      rw [hpushed, if_neg hweight, ← hfold]
      exact foldEvents_snoc _ _
  | remove key total _ _ _ =>
      have hpushed : ((s.afterRemove env.ledger key total).emit
          (.signerRemoved key.toArray)).rawWeight = _ := Storage.rawWeight_push s rfl
      rw [hpushed, if_pos rfl, ← hfold]
      exact foldEvents_snoc _ _
  | removeUnknown key _ hunknown =>
      -- the event deletes a key that the fold does not have
      have habsent : s.rawWeight key.toArray = none := by
        rw [Storage.rawWeight, BytesN.ofBytes?_toArray, Option.bind_some,
          Storage.getSignerWeight_eq, if_pos hunknown]
      have hsame : Function.update s.rawWeight key.toArray none = s.rawWeight := by
        rw [← habsent, Function.update_eq_self]
      calc Security.foldEvents (s.base.events ++ [.signerRemoved key.toArray])
          = Function.update s.rawWeight key.toArray none := by rw [foldEvents_snoc, hfold]; rfl
        _ = s.rawWeight := hsame
  | setThreshold numerator denominator _ _ =>
      calc Security.foldEvents (s.base.events ++ [.thresholdSet numerator denominator])
          = Security.foldEvents s.base.events := foldEvents_snoc _ _
        _ = s.rawWeight := hfold
  | base call b _ hbase =>
      have hweights : ({ s with base := b } : Storage t).rawWeight = s.rawWeight :=
        Storage.rawWeight_congr rfl
      rw [hweights, ← hfold]
      rcases events_of_baseStep hbase with hsame | ⟨e, hevents, hother⟩
      · exact congrArg Security.foldEvents hsame
      · show Security.foldEvents b.events = Security.foldEvents s.base.events
        rw [hevents, foldEvents_snoc, applyEvent_of_not_signerEvent hother]

/-- It publishes the event of the call, and no other about the registry. -/
theorem Effect.signerEvents {call : Call} (h : Effect env s call s') :
    s'.base.events.filter isSignerEvent =
      s.base.events.filter isSignerEvent ++ (signerEvent call).toList := by
  cases h with
  | add | remove | removeUnknown | setThreshold => exact List.filter_append ..
  | base call b hcall hbase =>
      rw [signerEvent_of_not_isRegistry hcall, Option.toList_none, List.append_nil]
      show b.events.filter isSignerEvent = _
      rcases events_of_baseStep hbase with hsame | ⟨e, hevents, hother⟩
      · rw [hsame]
      · rw [hevents, List.filter_append, List.filter_singleton, hother, cond_false,
          List.append_nil]

/-! ## Runs -/

/-- After any run the fold of the events is the map of the current weights. -/
theorem foldEvents_run (h : Transition.Run Deployed Executes J s) :
    foldEvents s.base.events = s.rawWeight := by
  refine Transition.Run.induction
    (motive := fun _ s => foldEvents s.base.events = s.rawWeight) ?_ ?_ h
  · intro s hdeployed
    obtain ⟨wasm, admin, numerator, denominator, hconstruct⟩ := hdeployed
    obtain ⟨-, rfl⟩ := construct_eq_ok.mp hconstruct
    funext raw
    show none = (BytesN.ofBytes? t.keyLength raw).bind fun _ => none
    cases BytesN.ofBytes? t.keyLength raw <;> rfl
  · intro J s inv s' _ ih hexecutes
    obtain ⟨v, hcall⟩ := hexecutes
    exact (call_effect hcall).foldEvents ih

/-- The events about the registry are those of the calls that succeeded, in order. -/
theorem signerEvents_run (h : Transition.Run Deployed Executes J s) :
    s.base.events.filter isSignerEvent = J.filterMap fun inv => signerEvent inv.call := by
  refine Transition.Run.induction
    (motive := fun J s => s.base.events.filter isSignerEvent =
      J.filterMap fun inv => signerEvent inv.call) ?_ ?_ h
  · intro s hdeployed
    obtain ⟨wasm, admin, numerator, denominator, hconstruct⟩ := hdeployed
    obtain ⟨-, rfl⟩ := construct_eq_ok.mp hconstruct
    rfl
  · intro J s inv s' _ ih hexecutes
    obtain ⟨v, hcall⟩ := hexecutes
    have hlast : [inv].filterMap (fun inv => signerEvent inv.call) =
        (signerEvent inv.call).toList := by
      rw [List.filterMap_cons, List.filterMap_nil]
      cases signerEvent inv.call <;> rfl
    rw [(call_effect hcall).signerEvents, ih, List.filterMap_append, hlast]

/-! ## The list of signers -/

/-- What `list_signers` returns. -/
def Storage.listing (s : Storage t) : List (Bytes × UInt64) :=
  s.listSigners.map fun info => (info.1.toArray, info.2)

theorem Represents.mem_listSigners {L : ℕ} (h : Represents J L s) {key : t.PubKey}
    {weight : UInt64} :
    (key, weight) ∈ s.listSigners ↔ s.getSignerWeight key = some weight := by
  have hlisted : ∀ k, s.getSignerWeight k ≠ none → k ∈ s.allSigners := by
    intro k hk
    rw [Storage.getSignerWeight_eq] at hk
    rw [h.mem, ← h.weight_eq]
    intro hzero
    exact hk (if_pos hzero)
  unfold Storage.listSigners
  simp only [List.mem_filterMap, Option.map_eq_some_iff, Prod.mk.injEq]
  constructor
  · rintro ⟨k, -, w, hw, rfl, rfl⟩
    exact hw
  · intro hw
    exact ⟨key, hlisted key (by rw [hw]; simp), weight, hw, rfl, rfl⟩

/-- The keys of the list ascend, so each occurs once. -/
theorem Represents.listSigners_sorted {L : ℕ} (h : Represents J L s) :
    (s.listSigners.map Prod.fst).Pairwise (· < ·) := by
  have hsublist : (s.listSigners.map Prod.fst).Sublist s.allSigners := by
    have hkeys : s.listSigners.map Prod.fst =
        s.allSigners.filter fun key => (s.getSignerWeight key).isSome := by
      unfold Storage.listSigners
      generalize s.allSigners = signers
      induction signers with
      | nil => rfl
      | cons key signers ih =>
          rw [List.filterMap_cons, List.filter_cons]
          cases s.getSignerWeight key with
          | none => simpa using ih
          | some weight => simpa using ih
    rw [hkeys]
    exact List.filter_sublist
  exact h.sorted.sublist hsublist

/-- The fold of the events and the list of signers are one map. -/
theorem Represents.mem_listing {L : ℕ} (h : Represents J L s) {raw : Bytes} {weight : UInt64} :
    (raw, weight) ∈ s.listing ↔ s.rawWeight raw = some weight := by
  unfold Storage.listing Storage.rawWeight
  simp only [List.mem_map, Prod.exists, Prod.mk.injEq, Option.bind_eq_some_iff]
  constructor
  · rintro ⟨key, w, hmem, rfl, rfl⟩
    exact ⟨key, BytesN.ofBytes?_toArray key, h.mem_listSigners.mp hmem⟩
  · rintro ⟨key, hkey, hweight⟩
    exact ⟨key, weight, h.mem_listSigners.mpr hweight, BytesN.toArray_of_ofBytes? hkey, rfl⟩

end WarpDrive.Security
