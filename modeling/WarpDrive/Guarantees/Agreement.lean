import WarpDrive.Guarantees.Arithmetic

/-!
# `verify` agrees with `check_one`

`check_one` checks one signature, looks up one weight and hashes the envelope itself;
`verify` looks up all weights at once, hashes once and checks in a loop.  `checkAt` is
what either makes of one position, given the weight of the key.  `check_one` replies
with it (`invoke_checkOne`), and the loop of `verify`, on keys that ascend, stops at the
first position where it fails and adds up the weights otherwise
(`verifyLoop_run_first`).  So off-chain checks with `check_one` foretell what `verify`
will say (`verify_agrees_with_checkOne`).
-/

namespace WarpDrive

open Security Verification

variable {p : Platform} {t : VerificationType} {σ : Type} {J : List Invocation} {L r : ℕ}
  {s : Security.Storage t} {envelope : Bytes}

/-! ## One position -/

/-- The verdict on an ed25519 signature alone. -/
def ed25519Verdict (p : Platform) (envelope : Bytes) (signature : Ed25519Signature)
    (signerPubkey : Ed25519PubKey) : Except (Failure VerifyError) Unit :=
  if signature.isZero then .error (.error .invalidSignature)
  else if p.ed25519Verify signerPubkey (sep053Hash p envelope).toArray signature then .ok ()
  else .error .trap

/-- The verdict on a signature alone. -/
def signatureVerdict (p : Platform) : (t : VerificationType) → Bytes → t.Signature → t.PubKey →
    Except (Failure VerifyError) Unit
  | .ethereum, envelope, signature, signerPubkey =>
      match isValidSignature p envelope signature signerPubkey with
      | none => .error .trap
      | some true => .ok ()
      | some false => .error (.error .invalidSignature)
  | .stellar, envelope, signature, signerPubkey =>
      ed25519Verdict p envelope signature signerPubkey

/-- The outcome at one position of a bundle, for a key of this weight. -/
def checkAt (p : Platform) (t : VerificationType) (envelope : Bytes) (sig : Bytes)
    (key : t.PubKey) (weight : UInt64) : Except (Failure VerifyError) UInt64 :=
  match BytesN.ofBytes? t.signatureLength sig with
  | none => .error .trap
  | some signature =>
      match signatureVerdict p t envelope signature key with
      | .error e => .error e
      | .ok () => if weight = 0 then .error (.error .signerNotRegistered) else .ok weight

theorem checkAt_eq_ok {sig : Bytes} {key : t.PubKey} {weight weight' : UInt64}
    (h : checkAt p t envelope sig key weight = .ok weight') : weight' = weight := by
  unfold checkAt at h
  split at h
  · cases h
  · split at h
    · cases h
    · split at h
      · cases h
      · exact (Except.ok.inj h).symm

theorem run_verifyEd25519Prehashed (sig : Ed25519Signature) (key : Ed25519PubKey) (st : σ) :
    (verifyEd25519Prehashed p (sep053Hash p envelope) sig key :
        Contract σ VerifyError Unit).run st =
      match ed25519Verdict p envelope sig key with
      | .error e => .error e
      | .ok () => .ok ((), st) := by
  unfold verifyEd25519Prehashed ed25519Verdict
  cases sig.isZero with
  | true => rfl
  | false => cases p.ed25519Verify key (sep053Hash p envelope).toArray sig <;> rfl

theorem run_checkSignature (sig : t.Signature) (key : t.PubKey) (st : σ) :
    (checkSignature p t envelope sig key : Contract σ VerifyError Unit).run st =
      match signatureVerdict p t envelope sig key with
      | .error e => .error e
      | .ok () => .ok ((), st) := by
  cases t with
  | ethereum =>
      simp only [checkSignature, signatureVerdict, StateT.run_bind]
      cases isValidSignature p envelope sig key with
      | none => rfl
      | some valid => cases valid <;> rfl
  | stellar => exact run_verifyEd25519Prehashed sig key st

/-- The per-signature path hashes the envelope itself and checks for the zero
signature twice, to the same effect. -/
theorem checkOneSignature_eq (sig : t.Signature) (key : t.PubKey) :
    (checkOneSignature p t envelope sig key : Contract σ VerifyError Unit) =
      checkSignature p t envelope sig key := by
  cases t with
  | ethereum => rfl
  | stellar =>
      simp only [checkOneSignature, verifyEd25519, checkSignature, verifyEd25519Prehashed]
      split <;> rfl

/-! ## The loop -/

/-- One turn of the loop, for a key in order and a weight that fits. -/
theorem verifyLoop_cons_run {sig : Bytes} {sigs : List Bytes} {key : t.PubKey}
    {keys : List t.PubKey} {weight : UInt64} {weights : List UInt64} {prev : Option t.PubKey}
    {total : UInt64} (horder : ¬(prev.any fun prev => decide (key ≤ prev)) = true)
    (hfits : total.toNat + weight.toNat < 2 ^ 64) (st : σ) :
    (verifyLoop p t envelope (sig :: sigs) ((key :: keys).map BytesN.toArray)
        (weight :: weights) prev total).run st =
      match checkAt p t envelope sig key weight with
      | .error e => .error e
      | .ok _ => (verifyLoop p t envelope sigs (keys.map BytesN.toArray) weights (some key)
          (total + weight)).run st := by
  have hadd : checkedAdd total weight = some (total + weight) := by
    rw [checkedAdd, if_pos hfits]
  rw [verifyLoop, checkAt]
  cases BytesN.ofBytes? t.signatureLength sig with
  | none => rfl
  | some signature =>
      rw [List.map_cons, List.head?_cons, Option.bind_some, BytesN.ofBytes?_toArray,
        List.head?_cons, List.tail_cons, List.tail_cons]
      simp only [StateT.run_bind, run_expect_some, ok_bind, run_rejectIf, if_neg horder,
        run_checkSignature]
      cases signatureVerdict p t envelope signature key with
      | error e => rfl
      | ok u =>
          by_cases hzero : weight = 0
          · simp only [ok_bind, if_pos hzero]
            rfl
          · simp only [ok_bind, if_neg hzero, hadd, run_expect_some]

/-- On keys that ascend, with weights that fit, the loop fails as the first position
that fails does, or it returns the sum of the weights. -/
theorem verifyLoop_run_first (answered : t.PubKey → UInt64) :
    ∀ (sigs : List Bytes) (keys : List t.PubKey) (prev : Option t.PubKey) (total : UInt64)
      (st : σ), sigs.length = keys.length → (prev.toList ++ keys).IsChain (· < ·) →
      total.toNat + weightSum (keys.map answered) < 2 ^ 64 →
      (∃ before sig key after e, sigs.zip keys = before ++ (sig, key) :: after ∧
          (∀ b ∈ before, checkAt p t envelope b.1 b.2 (answered b.2) = .ok (answered b.2)) ∧
          checkAt p t envelope sig key (answered key) = .error e ∧
          (verifyLoop p t envelope sigs (keys.map BytesN.toArray) (keys.map answered) prev
            total).run st = .error e) ∨
        (∀ b ∈ sigs.zip keys, checkAt p t envelope b.1 b.2 (answered b.2) =
            .ok (answered b.2)) ∧
          ∃ total', (verifyLoop p t envelope sigs (keys.map BytesN.toArray) (keys.map answered)
              prev total).run st = .ok (total', st) ∧
            total'.toNat = total.toNat + weightSum (keys.map answered) := by
  intro sigs
  induction sigs with
  | nil =>
      intro keys prev total st hlength _ _
      obtain rfl : keys = [] := List.length_eq_zero_iff.mp hlength.symm
      exact Or.inr ⟨by simp, total, rfl, rfl⟩
  | cons sig sigs ih =>
      intro keys prev total st hlength hchain hfits
      cases keys with
      | nil => cases hlength
      | cons key keys =>
          obtain ⟨horder, hrest⟩ := isChain_toList_append_cons.mp hchain
          have hsum : weightSum ((key :: keys).map answered) =
              (answered key).toNat + weightSum (keys.map answered) := by
            simp [weightSum]
          have hadd := toNat_add_of_lt (show total.toNat + (answered key).toNat < 2 ^ 64 by omega)
          have hweights : (key :: keys).map answered = answered key :: keys.map answered := rfl
          rw [hweights, verifyLoop_cons_run horder (by omega) st, List.zip_cons_cons]
          cases hcheck : checkAt p t envelope sig key (answered key) with
          | error e => exact Or.inl ⟨[], sig, key, sigs.zip keys, e, rfl, by simp, hcheck, rfl⟩
          | ok weight =>
              obtain rfl := checkAt_eq_ok hcheck
              rcases ih keys (some key) (total + answered key) st (by simpa using hlength) hrest
                (by omega) with ⟨before, sig', key', after, e, hzip, hbefore, hfail, hrun⟩ |
                ⟨hall, total', hrun, htotal⟩
              · refine Or.inl ⟨(sig, key) :: before, sig', key', after, e, ?_, ?_, hfail, hrun⟩
                · rw [hzip, List.cons_append]
                · exact List.forall_mem_cons.mpr ⟨hcheck, hbefore⟩
              · refine Or.inr ⟨List.forall_mem_cons.mpr ⟨hcheck, hall⟩, total', hrun, ?_⟩
                rw [← hweights]
                omega

/-! ## The two functions, as their callers see them -/

section Calls

variable {tx : Transaction} {depth : ℕ} {stack : List Address} {w : World} {a : Address}
  {v : Verification.Storage} {sigs : List Bytes} {keys : List t.PubKey}

/-- What `check_one` replies at a reference block. -/
def checkOneReply (p : Platform) (tx : Transaction) (depth : ℕ) (stack : List Address)
    (a : Address) (w : World) (envelope : Bytes) (r : ℕ) (sig : Bytes) (key : t.PubKey) : Reply :=
  (invoke p tx (depth + 2) stack a (.checkOne envelope sig key.toArray (some r)) w).1

/-- What `verify` replies. -/
def verifyReply (p : Platform) (tx : Transaction) (depth : ℕ) (stack : List Address)
    (a : Address) (w : World) (envelope : Bytes) (r : ℕ) (sigs : List Bytes)
    (keys : List t.PubKey) : Reply :=
  (invoke p tx (depth + 2) stack a (.verify envelope sigs (keys.map BytesN.toArray) r) w).1

/-- The outcome at a position, as a reply. -/
def replyOf : Except (Failure VerifyError) UInt64 → Reply
  | .ok weight => .ok (.u64 weight)
  | .error e => .error e.toInvokeError

/-- What `verify` replies once its loop is done. -/
def verdictOf (required : UInt64) : Except (Failure VerifyError) (UInt64 × σ) → Reply
  | .ok (total, _) => if total < required then .error (.contract 303) else .ok .void
  | .error e => .error e.toInvokeError

theorem invoke_getSignerWeightAt {key : t.PubKey} {weight : UInt64} (hstack : a ∉ stack)
    (hinst : w.contracts a = some (.security t s))
    (hweight : s.getSignerWeightAt key r = some weight) :
    (invoke p tx (depth + 1) stack a (.getSignerWeightAt key.toArray r) w).1 =
      .ok (.u64 weight) := by
  have hquery : Security.call (t := t) (tx.env stack a (.getSignerWeightAt key.toArray r))
      (.getSignerWeightAt key.toArray r) = _ := bind_expect_view _ _
  rw [(invoke_view (p := p) hstack hinst hquery).1, BytesN.ofBytes?_toArray, Option.bind_some,
    hweight]
  rfl

theorem call_checkOne {ω : Type} (host : Host ω) (env : Env) (sig key : Bytes)
    (referenceBlock : Option ℕ) :
    Verification.call p host t env (.checkOne envelope sig key referenceBlock) = (do
      let signature ← expect (BytesN.ofBytes? t.signatureLength sig)
      let signerPubkey ← expect (BytesN.ofBytes? t.keyLength key)
      return .u64 (← checkOne p host t envelope signature signerPubkey referenceBlock)) := rfl

/-- `check_one` replies with the outcome at its position. -/
theorem invoke_checkOne {sig : Bytes} {key : t.PubKey} {weight : UInt64} (hstack : a ∉ stack)
    (hbelow : v.securityContract ∉ stack)
    (hverification : w.contracts a = some (.verification t v))
    (hsecurity : w.contracts v.securityContract = some (.security t s))
    (hweight : s.getSignerWeightAt key r = some weight) :
    checkOneReply p tx depth stack a w envelope r sig key =
      replyOf (checkAt p t envelope sig key weight) := by
  have hself : v.securityContract ∉ a :: stack :=
    List.not_mem_cons_of_ne_of_not_mem (World.ne_of_contracts hsecurity hverification nofun) hbelow
  have hreply : (invoke p tx (depth + 1) (a :: stack) v.securityContract
      (.getSignerWeightAt key.toArray r) w).1 = .ok (.u64 weight) :=
    invoke_getSignerWeightAt hself hsecurity hweight
  rw [checkOneReply, invoke_fst _ hstack hverification, dispatch, asInstance_map_fst, checkAt]
  rw [call_checkOne]
  cases BytesN.ofBytes? t.signatureLength sig with
  | none => rfl
  | some signature =>
      unfold entryPoint checkOne
      simp only [StateT.run_bind (expect _), run_expect_some, ok_bind, BytesN.ofBytes?_toArray,
        bind_assoc, checkOneSignature_eq]
      rw [StateT.run_bind, run_checkSignature]
      cases signatureVerdict p t envelope signature key with
      | error e => rfl
      | ok u =>
          simp only [ok_bind, bind_get_run, bind_invokeClient_run, hostBelow, hreply,
            Except.toOption, Option.bind_some, Val.toU64?]
          simp only [StateT.run_bind, run_rejectIf]
          by_cases hzero : weight = 0
          · simp only [if_pos hzero]
            rfl
          · simp only [if_neg hzero]
            rfl

/-- What `verify` replies to keys and weights that were looked up. -/
theorem invoke_verify_eq {weights : List UInt64} {required : UInt64} (hstack : a ∉ stack)
    (hbelow : v.securityContract ∉ stack)
    (hverification : w.contracts a = some (.verification t v))
    (hsecurity : w.contracts v.securityContract = some (.security t s)) (hne : sigs ≠ [])
    (hlength : sigs.length = keys.length) (hweights : s.getSignerWeightsAt keys r = some weights)
    (hrequired : requiredWeightAt s r = some required) :
    ∃ frame : Frame Verification.Storage World,
      verifyReply p tx depth stack a w envelope r sigs keys =
        if required = 0 then .error (.contract 307)
        else
          verdictOf required ((verifyLoop p t envelope sigs (keys.map BytesN.toArray) weights none
            0).run frame) := by
  have hself : v.securityContract ∉ a :: stack :=
    List.not_mem_cons_of_ne_of_not_mem (World.ne_of_contracts hsecurity hverification nofun) hbelow
  have hweightsReply : (invoke p tx (depth + 1) (a :: stack) v.securityContract
      (.getSignerWeightsAt (keys.map BytesN.toArray) r) w).1 = .ok (.u64s weights) :=
    (invoke_getSignerWeightsAt hself hsecurity hweights).1
  have hcontracts : (invoke p tx (depth + 1) (a :: stack) v.securityContract
      (.getSignerWeightsAt (keys.map BytesN.toArray) r) w).2.contracts = w.contracts :=
    (invoke_getSignerWeightsAt hself hsecurity hweights).2
  have hrequiredReply : (invoke p tx (depth + 1) (a :: stack) v.securityContract
      (.requiredWeightAt r) (invoke p tx (depth + 1) (a :: stack) v.securityContract
        (.getSignerWeightsAt (keys.map BytesN.toArray) r) w).2).1 = .ok (.u64 required) :=
    (invoke_requiredWeightAt hself (hcontracts ▸ hsecurity) hrequired).1
  have hnonempty : ¬sigs.isEmpty = true := by simpa using hne
  have hequal : ¬sigs.length ≠ (keys.map BytesN.toArray).length := by simpa using hlength
  have hcall : ∀ env : Env, Verification.call p (hostBelow p tx (depth + 1) (a :: stack)) t env
      (.verify envelope sigs (keys.map BytesN.toArray) r) = (do
        verify p (hostBelow p tx (depth + 1) (a :: stack)) t envelope sigs
          (keys.map BytesN.toArray) r
        return .void) := fun _ => rfl
  rw [verifyReply, invoke_fst _ hstack hverification, dispatch, asInstance_map_fst, hcall]
  unfold entryPoint verify
  simp only [bind_assoc]
  simp only [StateT.run_bind (rejectIf _ _), run_rejectIf, if_neg hnonempty, if_neg hequal,
    ok_bind, bind_get_run, bind_invokeClient_run, hostBelow, hweightsReply, hrequiredReply,
    Except.toOption, Option.bind_some, Val.toU64s?, Val.toU64?]
  -- the world in which the two queries left the loop
  generalize (invoke p tx (depth + 1) (a :: stack) v.securityContract (.requiredWeightAt r)
    (invoke p tx (depth + 1) (a :: stack) v.securityContract
      (.getSignerWeightsAt (keys.map BytesN.toArray) r) w).2).2 = world
  refine ⟨⟨v, world⟩, ?_⟩
  by_cases hzero : required = 0
  · simp only [if_pos hzero]
    rfl
  · simp only [if_neg hzero, ok_bind, StateT.run_bind]
    cases (verifyLoop p t envelope sigs (keys.map BytesN.toArray) weights none 0).run _ with
    | error e => rfl
    | ok result =>
        obtain ⟨total, frame⟩ := result
        simp only [ok_bind, run_rejectIf, verdictOf]
        by_cases hreached : total < required
        · simp only [if_pos hreached]
          rfl
        · simp only [if_neg hreached]
          rfl

end Calls

/-! ## The agreement -/

/-- What the replies of `check_one`, one for each position, say that `verify` will reply. -/
inductive Foretold (required : UInt64) : List Reply → Reply → Prop
  | fails (before after : List Reply) (e : InvokeError)
      (hbefore : ∀ check ∈ before, ∃ weight, check = .ok (.u64 weight)) :
      Foretold required (before ++ .error e :: after) (.error e)
  | weighed (weights : List UInt64) :
      Foretold required (weights.map fun weight => .ok (.u64 weight))
        (if required.toNat ≤ weightSum weights then .ok .void else .error (.contract 303))

theorem Foretold.of_run {answered : t.PubKey → UInt64} {sigs : List Bytes} {keys : List t.PubKey}
    {required : UInt64} {st : σ} (hlength : sigs.length = keys.length)
    (hascending : keys.IsChain (· < ·)) (hfits : weightSum (keys.map answered) < 2 ^ 64) :
    Foretold required
      ((sigs.zip keys).map fun b => replyOf (checkAt p t envelope b.1 b.2 (answered b.2)))
      (verdictOf required ((verifyLoop p t envelope sigs (keys.map BytesN.toArray)
        (keys.map answered) none 0).run st)) := by
  have hchain : ((none : Option t.PubKey).toList ++ keys).IsChain (· < ·) := hascending
  have hsum : (0 : UInt64).toNat + weightSum (keys.map answered) < 2 ^ 64 := by simpa using hfits
  rcases verifyLoop_run_first answered sigs keys none 0 st hlength hchain hsum with
    ⟨before, sig, key, after, e, hzip, hbefore, hfail, hloop⟩ |
    ⟨hall, total, hloop, htotal⟩
  · rw [hzip, List.map_append, List.map_cons, hfail, hloop]
    refine .fails _ _ _ ?_
    intro check hcheck
    obtain ⟨b, hb, rfl⟩ := List.mem_map.mp hcheck
    exact ⟨answered b.2, by rw [hbefore b hb]; rfl⟩
  · have hchecks : (sigs.zip keys).map (fun b =>
        replyOf (checkAt p t envelope b.1 b.2 (answered b.2))) =
          (keys.map answered).map fun weight => .ok (.u64 weight) := by
      have hkeys : keys = (sigs.zip keys).map Prod.snd := by
        rw [List.map_snd_zip hlength.ge]
      rw [List.map_map]
      nth_rewrite 2 [hkeys]
      rw [List.map_map]
      apply List.map_congr_left
      intro b hb
      rw [hall b hb]
      rfl
    have hreached : (total < required) ↔ ¬required.toNat ≤ weightSum (keys.map answered) := by
      rw [UInt64.lt_iff_toNat_lt, htotal, UInt64.toNat_zero, Nat.zero_add, not_le]
    have hverdict : Foretold required _ _ := .weighed (keys.map answered)
    rw [hchecks, hloop]
    simp only [verdictOf, hreached, ite_not]
    exact hverdict

/-- In every reachable state of the Security contract, what `check_one` replies at each
position says what `verify` will reply, on keys that ascend; on others `verify` never
returns. -/
theorem verify_agrees_with_checkOne (hreach : Reaches J s L) :
    ∀ (tx tx' : Transaction) (depth depth' : ℕ) (stack stack' : List Address) (w : World)
      (a : Address) (v : Verification.Storage) (envelope : Bytes) (sigs : List Bytes)
      (keys : List t.PubKey) (r : ℕ),
      a ∉ stack → a ∉ stack' → v.securityContract ∉ stack → v.securityContract ∉ stack' →
      w.contracts a = some (.verification t v) →
      w.contracts v.securityContract = some (.security t s) →
      (sigs ≠ [] → sigs.length = keys.length → keys.Pairwise (· < ·) →
        requiredWeightAt s r ≠ some 0 →
        ∃ required, requiredWeightAt s r = some required ∧
          Foretold required
            ((sigs.zip keys).map fun b =>
              checkOneReply p tx' depth' stack' a w envelope r b.1 b.2)
            (verifyReply p tx depth stack a w envelope r sigs keys)) ∧
      (¬keys.Pairwise (· < ·) →
        verifyReply p tx depth stack a w envelope r sigs keys ≠ .ok .void) := by
  have h : Represents J L s := hreach.represents
  intro tx tx' depth depth' stack stack' w a v envelope sigs keys r hstack hstack' hbelow hbelow'
    hverification hsecurity
  constructor
  · intro hne hlength hascending hzero
    obtain ⟨required, hrequired⟩ := Option.isSome_iff_exists.mp (h.queries_return.2.1 r).2
    have hrequired_ne : required ≠ 0 := by
      rintro rfl
      exact hzero hrequired
    -- one position after the other, with the weights that the contract answers
    have hchecks : ∀ b : Bytes × t.PubKey,
        checkOneReply p tx' depth' stack' a w envelope r b.1 b.2 =
          replyOf (checkAt p t envelope b.1 b.2 (answeredWeight s r b.2)) := fun b =>
      invoke_checkOne hstack' hbelow' hverification hsecurity (h.getSignerWeightAt_answered r b.2)
    obtain ⟨frame, hverdict⟩ : ∃ frame : Frame Verification.Storage World,
        verifyReply p tx depth stack a w envelope r sigs keys = _ :=
      invoke_verify_eq hstack hbelow hverification hsecurity hne hlength
        (h.getSignerWeightsAt_answered r keys) hrequired
    refine ⟨required, hrequired, ?_⟩
    simp only [hchecks]
    rw [hverdict, if_neg hrequired_ne]
    exact .of_run hlength (List.isChain_iff_pairwise.mpr hascending)
      (h.weightSum_answered_lt r hascending)
  · intro hascending hok
    obtain ⟨keys', weights, required, hkeys, haccepts⟩ :=
      accepts_of_invoke_verify hverification hsecurity hok
    obtain rfl : keys' = keys := List.map_injective_iff.mpr BytesN.toArray_injective hkeys
    exact hascending (List.isChain_iff_pairwise.mp haccepts.ascending)

theorem verify_agrees_with_checkOne_sample :
    (∃ required, requiredWeightAt twoSignersState 100 = some required ∧
      Foretold required
        (([Sample.lowSignature.toArray, Sample.highSignature.toArray].zip
            [Sample.lowKey, Sample.highKey]).map fun b =>
          checkOneReply (t := .stellar) Sample.platform (unsignedAt 105) 98 [] ⟨2⟩
            (pairOf twoSignersState) Sample.envelopeBytes 100 b.1 b.2)
        (verifyReply (t := .stellar) Sample.platform (unsignedAt 110) 98 [] ⟨2⟩
          (pairOf twoSignersState) Sample.envelopeBytes 100
          [Sample.lowSignature.toArray, Sample.highSignature.toArray]
          [Sample.lowKey, Sample.highKey])) ∧
      verifyReply (t := .stellar) Sample.platform (unsignedAt 110) 98 [] ⟨2⟩
        (pairOf twoSignersState) Sample.envelopeBytes 100 []
        [Sample.highKey, Sample.lowKey] ≠ .ok .void := by
  have hagrees := verify_agrees_with_checkOne (p := Sample.platform) twoSigners_reaches
    (unsignedAt 110) (unsignedAt 105) 98 98 [] [] (pairOf twoSignersState) ⟨2⟩
    (Verification.construct Sample.zeroHash ⟨0⟩ ⟨1⟩) Sample.envelopeBytes
  constructor
  · exact (hagrees [Sample.lowSignature.toArray, Sample.highSignature.toArray]
      [Sample.lowKey, Sample.highKey] 100 List.not_mem_nil List.not_mem_nil List.not_mem_nil
      List.not_mem_nil rfl rfl).1 (by simp) rfl (by decide) (by decide)
  · exact (hagrees [] [Sample.highKey, Sample.lowKey] 100 List.not_mem_nil List.not_mem_nil
      List.not_mem_nil List.not_mem_nil rfl rfl).2 (by decide)

end WarpDrive
