import WarpDrive.Security.Contract

/-!
# What the Security operations do

One specification for each operation, failures included (`addSigner_run`,
`removeSigner_run`, `setThreshold_run`), and `Effect`, which says once what any
successful call can do to the storage.  The invariants are all derived from
`call_effect`; no later proof unfolds an operation.
-/

namespace WarpDrive.Security

open VecHistory

/-! ## The sorted list of signers -/

section Signers

variable {κ : Type} [LinearOrder κ]

theorem insertAllSigners_cons (key existing : κ) (rest : List κ) :
    insertAllSigners key (existing :: rest) =
      match cmp key existing with
      | .lt => key :: existing :: rest
      | .eq => existing :: rest
      | .gt => existing :: insertAllSigners key rest := rfl

theorem mem_insertAllSigners {key k : κ} {signers : List κ} :
    k ∈ insertAllSigners key signers ↔ k = key ∨ k ∈ signers := by
  induction signers with
  | nil => exact List.mem_singleton.trans (by simp)
  | cons existing rest ih =>
      rw [insertAllSigners_cons]
      cases hcmp : cmp key existing with
      | lt => simp
      | eq =>
          obtain rfl := (cmp_eq_eq_iff _ _).mp hcmp
          simp
      | gt =>
          simp only [List.mem_cons, ih]
          exact or_left_comm

theorem sorted_insertAllSigners (key : κ) {signers : List κ}
    (hsorted : signers.Pairwise (· < ·)) :
    (insertAllSigners key signers).Pairwise (· < ·) := by
  induction signers with
  | nil => exact List.pairwise_singleton _ _
  | cons existing rest ih =>
      obtain ⟨hleast, hrest⟩ := List.pairwise_cons.mp hsorted
      rw [insertAllSigners_cons]
      cases hcmp : cmp key existing with
      | lt =>
          have hlt : key < existing := (cmp_eq_lt_iff _ _).mp hcmp
          refine List.pairwise_cons.mpr ⟨fun k hk => ?_, hsorted⟩
          rcases List.mem_cons.mp hk with rfl | hk
          · exact hlt
          · exact hlt.trans (hleast k hk)
      | eq => exact hsorted
      | gt =>
          refine List.pairwise_cons.mpr ⟨fun k hk => ?_, ih hrest⟩
          rcases mem_insertAllSigners.mp hk with rfl | hk
          · exact (cmp_eq_gt_iff _ _).mp hcmp
          · exact hleast k hk

/-- The early exit is right because the list is sorted. -/
theorem mem_removeAllSigners {key k : κ} {signers : List κ}
    (hsorted : signers.Pairwise (· < ·)) :
    k ∈ removeAllSigners key signers ↔ k ∈ signers ∧ k ≠ key := by
  induction signers with
  | nil => simp [removeAllSigners]
  | cons existing rest ih =>
      obtain ⟨hleast, hrest⟩ := List.pairwise_cons.mp hsorted
      unfold removeAllSigners
      split
      · next heq =>
          subst heq
          rw [List.mem_cons]
          constructor
          · intro hk
            exact ⟨Or.inr hk, (hleast k hk).ne'⟩
          · rintro ⟨hk | hk, hne⟩
            · exact absurd hk hne
            · exact hk
      · next hne =>
          split
          · next hlt =>
              -- the early exit: the rest of a sorted list is greater still
              have habsent : ∀ k' ∈ existing :: rest, k' ≠ key := by
                intro k' hk'
                rcases List.mem_cons.mp hk' with rfl | hk'
                · exact hlt.ne'
                · exact (hlt.trans (hleast k' hk')).ne'
              exact ⟨fun hk => ⟨hk, habsent k hk⟩, And.left⟩
          · rw [List.mem_cons, List.mem_cons, ih hrest]
            constructor
            · rintro (rfl | ⟨hk, hkey⟩)
              · exact ⟨Or.inl rfl, hne⟩
              · exact ⟨Or.inr hk, hkey⟩
            · rintro ⟨rfl | hk, hkey⟩
              · exact Or.inl rfl
              · exact Or.inr ⟨hk, hkey⟩

theorem removeAllSigners_sublist (key : κ) (signers : List κ) :
    (removeAllSigners key signers).Sublist signers := by
  induction signers with
  | nil => exact List.Sublist.refl _
  | cons existing rest ih =>
      unfold removeAllSigners
      split
      · exact List.sublist_cons_self _ _
      · split
        · exact List.Sublist.refl _
        · exact ih.cons_cons existing

theorem sorted_removeAllSigners (key : κ) {signers : List κ}
    (hsorted : signers.Pairwise (· < ·)) :
    (removeAllSigners key signers).Pairwise (· < ·) :=
  hsorted.sublist (removeAllSigners_sublist key signers)

end Signers

/-! ## The operations, with their failures -/

variable {t : VerificationType} {ε : Type}

/-- The latest weight of a key, zero if it is not registered. -/
def Storage.weight (s : Storage t) (key : t.PubKey) : UInt64 :=
  latest (s.signerWeightHist key)

theorem Storage.getSignerWeight_eq (s : Storage t) (key : t.PubKey) :
    s.getSignerWeight key = if s.weight key = 0 then none else some (s.weight key) := rfl

@[simp] theorem Storage.getD_getSignerWeight (s : Storage t) (key : t.PubKey) :
    (s.getSignerWeight key).getD 0 = s.weight key := by
  rw [getSignerWeight_eq]
  split
  · next h => exact h.symm
  · rfl

theorem checkedSub_zero (a : UInt64) : checkedSub a 0 = some a := by
  simp [checkedSub]

theorem checkThreshold_eq_ok {numerator denominator : UInt64} :
    checkThreshold numerator denominator = .ok () ↔
      0 < numerator.toNat ∧ numerator.toNat ≤ denominator.toNat := by
  have hzero : ∀ x : UInt64, x = 0 ↔ x.toNat = 0 := fun x => UInt64.toNat_inj.symm
  unfold checkThreshold
  simp only [hzero, UInt64.lt_iff_toNat_lt]
  split
  · simp; omega
  · split
    · simp; omega
    · split
      · simp; omega
      · simp; omega

/-- The total that `add_signer` records, none if the arithmetic fails. -/
def Storage.totalAfterAdd (s : Storage t) (key : t.PubKey) (weight : UInt64) : Option UInt64 :=
  (checkedSub s.getTotalWeight (s.weight key)).bind fun rest => checkedAdd rest weight

/-- The storage that `add_signer` leaves. -/
def Storage.afterAdd (s : Storage t) (ledger : ℕ) (key : t.PubKey) (weight total : UInt64) :
    Storage t :=
  let signers := if s.weight key = 0 then insertAllSigners key s.allSigners else s.allSigners
  ({ s with allSigners := signers }.pushSignerWeight ledger key weight).pushTotalWeight ledger
    total

/-- The storage that `remove_signer` leaves, for a registered key. -/
def Storage.afterRemove (s : Storage t) (ledger : ℕ) (key : t.PubKey) (total : UInt64) :
    Storage t :=
  let signers := removeAllSigners key s.allSigners
  ({ s with allSigners := signers }.pushSignerWeight ledger key 0).pushTotalWeight ledger total

theorem Storage.addSigner_run (env : Env) (key : t.PubKey) (weight : UInt64) (s : Storage t) :
    (Storage.addSigner env key weight : Contract (Storage t) ε Unit).run s =
      match s.totalAfterAdd key weight with
      | none => .error .trap
      | some total => .ok ((), s.afterAdd env.ledger key weight total) := by
  unfold Storage.addSigner totalAfterAdd afterAdd
  simp only [StateT.run_bind, StateT.run_get, pure_bind, getSignerWeight_eq]
  by_cases hnew : s.weight key = 0
  · -- a new key: the source adds to the total without subtracting first
    simp only [hnew, if_true, checkedSub_zero, Option.bind_some]
    cases checkedAdd s.getTotalWeight weight <;> rfl
  · simp only [if_neg hnew]
    cases checkedSub s.getTotalWeight (s.weight key) with
    | none => rfl
    | some rest =>
        simp only [StateT.run_bind, run_expect_some, ok_bind, Option.bind_some]
        cases checkedAdd rest weight <;> rfl

theorem Storage.removeSigner_run (env : Env) (key : t.PubKey) (s : Storage t) :
    (Storage.removeSigner env key : Contract (Storage t) ε Unit).run s =
      if s.weight key = 0 then .ok ((), s)
      else
        match checkedSub s.getTotalWeight (s.weight key) with
        | none => .error .trap
        | some total => .ok ((), s.afterRemove env.ledger key total) := by
  unfold Storage.removeSigner afterRemove
  simp only [StateT.run_bind, StateT.run_get, pure_bind, getSignerWeight_eq]
  by_cases hunknown : s.weight key = 0
  · simp only [hunknown, if_true]
    rfl
  · simp only [if_neg hunknown]
    cases checkedSub s.getTotalWeight (s.weight key) <;> rfl

/-- Events published, everything else as it was. -/
def Storage.emit (s : Storage t) (e : Event) : Storage t :=
  { s with base := { s.base with events := s.base.events ++ [e] } }

theorem addSigner_run (env : Env) (key : t.PubKey) (weight : UInt64) (s : Storage t) :
    (addSigner env key weight).run s =
      if env.authorized s.base.admin then
        if weight = 0 then .error (.error .zeroWeight)
        else
          match s.totalAfterAdd key weight with
          | none => .error .trap
          | some total => .ok ((), (s.afterAdd env.ledger key weight total).emit
              (.signerAdded key.toArray weight))
      else .error .trap := by
  unfold addSigner
  simp only [StateT.run_bind, StateT.run_get, pure_bind, run_requireAuth, run_rejectIf]
  split
  · split
    · rfl
    · simp only [ok_bind, Storage.addSigner_run]
      cases s.totalAfterAdd key weight <;> rfl
  · rfl

theorem removeSigner_run (env : Env) (key : t.PubKey) (s : Storage t) :
    (removeSigner env key).run s =
      if env.authorized s.base.admin then
        if s.weight key = 0 then .ok ((), s.emit (.signerRemoved key.toArray))
        else
          match checkedSub s.getTotalWeight (s.weight key) with
          | none => .error .trap
          | some total => .ok ((), (s.afterRemove env.ledger key total).emit
              (.signerRemoved key.toArray))
      else .error .trap := by
  unfold removeSigner
  simp only [StateT.run_bind, StateT.run_get, pure_bind, run_requireAuth]
  split
  · simp only [ok_bind, Storage.removeSigner_run]
    split
    · rfl
    · cases checkedSub s.getTotalWeight (s.weight key) <;> rfl
  · rfl

theorem setThreshold_run (env : Env) (numerator denominator : UInt64) (s : Storage t) :
    (setThreshold env numerator denominator).run s =
      if env.authorized s.base.admin then
        match checkThreshold numerator denominator with
        | .error e => .error (.error e)
        | .ok () => .ok ((), { s with threshold := ⟨numerator, denominator⟩ }.emit
            (.thresholdSet numerator denominator))
      else .error .trap := by
  unfold setThreshold
  simp only [StateT.run_bind, StateT.run_get, pure_bind, run_requireAuth]
  split
  · cases checkThreshold numerator denominator <;> rfl
  · rfl

/-! The calls that write the registry, before their keys are converted. -/

theorem call_addSigner (env : Env) (raw : Bytes) (weight : UInt64) :
    call (t := t) env (.addSigner raw weight) = (do
      let key ← expect (BytesN.ofBytes? t.keyLength raw)
      addSigner env key weight
      return .void) := rfl

theorem call_removeSigner (env : Env) (raw : Bytes) :
    call (t := t) env (.removeSigner raw) = (do
      let key ← expect (BytesN.ofBytes? t.keyLength raw)
      removeSigner env key
      return .void) := rfl

theorem call_setThreshold (env : Env) (numerator denominator : UInt64) :
    call (t := t) env (.setThreshold numerator denominator) = (do
      setThreshold env numerator denominator
      return .void) := rfl

/-! ## What a successful call can do -/

/-- What a call that returns can do to the storage. -/
inductive Effect (env : Env) (s : Storage t) : Call → Storage t → Prop
  | add (key : t.PubKey) (weight total : UInt64) (hauth : env.authorized s.base.admin = true)
      (hweight : weight ≠ 0) (htotal : s.totalAfterAdd key weight = some total) :
      Effect env s (.addSigner key.toArray weight)
        ((s.afterAdd env.ledger key weight total).emit (.signerAdded key.toArray weight))
  | remove (key : t.PubKey) (total : UInt64) (hauth : env.authorized s.base.admin = true)
      (hregistered : s.weight key ≠ 0)
      (htotal : checkedSub s.getTotalWeight (s.weight key) = some total) :
      Effect env s (.removeSigner key.toArray)
        ((s.afterRemove env.ledger key total).emit (.signerRemoved key.toArray))
  | removeUnknown (key : t.PubKey) (hauth : env.authorized s.base.admin = true)
      (hunknown : s.weight key = 0) :
      Effect env s (.removeSigner key.toArray) (s.emit (.signerRemoved key.toArray))
  | setThreshold (numerator denominator : UInt64) (hauth : env.authorized s.base.admin = true)
      (hvalid : checkThreshold numerator denominator = .ok ()) :
      Effect env s (.setThreshold numerator denominator)
        ({ s with threshold := ⟨numerator, denominator⟩ }.emit
          (.thresholdSet numerator denominator))
  | base (call : Call) (b : Base) (hcall : call.isRegistry = false)
      (hbase : BaseStep env s.base call b) : Effect env s call { s with base := b }

theorem Effect.query {env : Env} {s : Storage t} {call : Call} (hregistry : call.isRegistry = false)
    (hgovernance : call.isGovernance = false) : Effect env s call s :=
  .base call s.base hregistry (.query call hgovernance)

/-- Only `set_threshold` changes the threshold. -/
theorem Effect.threshold {env : Env} {s s' : Storage t} {c : Call} (h : Effect env s c s') :
    s'.threshold = s.threshold ∨
      ∃ n d, c = .setThreshold n d ∧ s'.threshold = ⟨n, d⟩ ∧ checkThreshold n d = .ok () := by
  cases h with
  | setThreshold n d _ hvalid => exact Or.inr ⟨n, d, rfl, rfl, hvalid⟩
  | _ => exact Or.inl rfl

theorem onBase_run_eq_ok {α : Type} {m : Contract Base ε α} {s s' : Storage t} {a : α} :
    (onBase m).run s = .ok (a, s') ↔ ∃ b, m.run s.base = .ok (a, b) ∧ { s with base := b } = s' :=
  zoom_run_eq_ok

theorem addSigner_effect {env : Env} {key : t.PubKey} {weight : UInt64} {s s' : Storage t}
    (hrun : (addSigner env key weight).run s = .ok ((), s')) :
    Effect env s (.addSigner key.toArray weight) s' := by
  rw [addSigner_run] at hrun
  split at hrun
  · next hauth =>
      split at hrun
      · cases hrun
      · next hweight =>
          split at hrun
          · cases hrun
          · next total htotal =>
              cases hrun
              exact .add key weight total hauth hweight htotal
  · cases hrun

theorem removeSigner_effect {env : Env} {key : t.PubKey} {s s' : Storage t}
    (hrun : (removeSigner env key).run s = .ok ((), s')) :
    Effect env s (.removeSigner key.toArray) s' := by
  rw [removeSigner_run] at hrun
  split at hrun
  · next hauth =>
      split at hrun
      · next hunknown =>
          cases hrun
          exact .removeUnknown key hauth hunknown
      · next hregistered =>
          split at hrun
          · cases hrun
          · next total htotal =>
              cases hrun
              exact .remove key total hauth hregistered htotal
  · cases hrun

theorem setThreshold_effect {env : Env} {numerator denominator : UInt64} {s s' : Storage t}
    (hrun : (setThreshold env numerator denominator).run s = .ok ((), s')) :
    Effect env s (.setThreshold numerator denominator) s' := by
  rw [setThreshold_run] at hrun
  split at hrun
  · next hauth =>
      split at hrun
      · cases hrun
      · next hvalid =>
          cases hrun
          exact .setThreshold numerator denominator hauth hvalid
  · cases hrun

/-- A call that returns has one of these effects. -/
theorem call_effect {env : Env} {c : Call} {s s' : Storage t} {v : Val}
    (h : (call env c).run s = .ok (v, s')) : Effect env s c s' := by
  cases c with
  | addSigner rawKey weight =>
      obtain ⟨key, _, hdecode, hbody⟩ := bind_run_eq_ok.mp h
      obtain ⟨hkey, rfl⟩ := expect_run_eq_ok.mp hdecode
      obtain ⟨_, _, hrun, hret⟩ := bind_run_eq_ok.mp hbody
      obtain rfl := BytesN.toArray_of_ofBytes? hkey
      cases hret
      exact addSigner_effect hrun
  | removeSigner rawKey =>
      obtain ⟨key, _, hdecode, hbody⟩ := bind_run_eq_ok.mp h
      obtain ⟨hkey, rfl⟩ := expect_run_eq_ok.mp hdecode
      obtain ⟨_, _, hrun, hret⟩ := bind_run_eq_ok.mp hbody
      obtain rfl := BytesN.toArray_of_ofBytes? hkey
      cases hret
      exact removeSigner_effect hrun
  | setThreshold numerator denominator =>
      obtain ⟨_, _, hrun, hret⟩ := bind_run_eq_ok.mp h
      cases hret
      exact setThreshold_effect hrun
  | getTotalWeight | listSigners | thresholdNumerator | thresholdDenominator
  | getTotalWeightAt _ | requiredWeightAt _ | requiredWeight =>
      obtain rfl := Reads.view _ _ _ _ h
      exact .query rfl rfl
  | getSignerWeight _ | getSignerWeights _ | getSignerWeightAt _ _ | getSignerWeightsAt _ _ =>
      obtain rfl := Reads.bind (Reads.expect _) (fun _ => Reads.view _) _ _ _ h
      exact .query rfl rfl
  | _ =>
      obtain ⟨b, hrun, rfl⟩ := onBase_run_eq_ok.mp h
      exact .base _ b rfl (warpDriveInterface_step hrun)

end WarpDrive.Security
