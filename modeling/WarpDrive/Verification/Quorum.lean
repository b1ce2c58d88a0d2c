import Mathlib.Data.List.Forall2
import WarpDrive.Verification.Contract

/-!
# What the Verification contracts check

`verifyLoop_run_eq_ok` and `verify_run_eq_ok` say exactly when `verify` returns:
the signers ascend, every signature is valid for its signer, every weight is
non-zero and their sum reaches the required weight.  `call_effect` says what any
successful call can do: a Verification contract writes nothing but its base
entries and makes no call but queries to its Security contract.
-/

namespace WarpDrive.Verification

variable {p : Platform} {t : VerificationType} {ω σ : Type}

/-! ## Valid signatures -/

/-- The signature is not zero, and recovers to the key over the EIP-191 digest of the
envelope.  Its last byte is the recovery id, or 27 more. -/
def ValidSecp256k1 (p : Platform) (envelope : Bytes) (signature : SecpSignature)
    (signerPubkey : CompressedSecpPubKey) : Prop :=
  signature.isZero = false ∧ ∃ (recoveryId : ℕ) (recovered : BytesN 65), recoveryId ≤ 1 ∧
    ((signature.toArray.getD 64 0).toNat = recoveryId ∨
      (signature.toArray.getD 64 0).toNat = 27 + recoveryId) ∧
    p.secp256k1Recover (p.keccak256 (eip191Prefix ++ (p.keccak256 envelope).toArray))
      (signatureRS signature) recoveryId = some recovered ∧
    compressPubkey recovered = signerPubkey

/-- The signature is not zero and verifies over the SEP-0053 hash of the envelope. -/
def ValidEd25519 (p : Platform) (envelope : Bytes) (signature : Ed25519Signature)
    (signerPubkey : Ed25519PubKey) : Prop :=
  signature.isZero = false ∧
    p.ed25519Verify signerPubkey (sep053Hash p envelope).toArray signature = true

/-- The signature is valid for the key, over the envelope. -/
def ValidSignature (p : Platform) (t : VerificationType) (envelope : Bytes)
    (signature : t.Signature) (signerPubkey : t.PubKey) : Prop :=
  match t with
  | .ethereum => ValidSecp256k1 p envelope signature signerPubkey
  | .stellar => ValidEd25519 p envelope signature signerPubkey

theorem normalizeRecoveryId_eq_some {v : UInt8} {recoveryId : ℕ} :
    normalizeRecoveryId v = some recoveryId ↔
      recoveryId ≤ 1 ∧ (v.toNat = recoveryId ∨ v.toNat = 27 + recoveryId) := by
  unfold normalizeRecoveryId
  simp only [← UInt8.toNat_inj, UInt8.reduceToNat]
  split
  · simp only [Option.some.injEq]
    omega
  split
  · simp only [Option.some.injEq]
    omega
  split
  · simp only [Option.some.injEq]
    omega
  · simp only [reduceCtorEq, false_iff]
    omega

/-- The code recognizes the valid signatures. -/
theorem isValidSignature_iff {envelope : Bytes} {signature : SecpSignature}
    {signerPubkey : CompressedSecpPubKey} :
    isValidSignature p envelope signature signerPubkey = some true ↔
      ValidSecp256k1 p envelope signature signerPubkey := by
  unfold isValidSignature ValidSecp256k1
  cases hzero : signature.isZero with
  | true => simp
  | false =>
      cases hid : normalizeRecoveryId (signature.toArray.getD 64 0) with
      | none =>
          have hnone : ∀ recoveryId, ¬(recoveryId ≤ 1 ∧
              ((signature.toArray.getD 64 0).toNat = recoveryId ∨
                (signature.toArray.getD 64 0).toNat = 27 + recoveryId)) := fun recoveryId h => by
            rw [normalizeRecoveryId_eq_some.mpr h] at hid
            cases hid
          constructor
          · intro h
            simp at h
          · rintro ⟨-, recoveryId, _, hle, hv, -⟩
            exact absurd ⟨hle, hv⟩ (hnone recoveryId)
      | some recoveryId =>
          obtain ⟨hle, hv⟩ := normalizeRecoveryId_eq_some.mp hid
          simp only [Bool.false_eq_true, if_false, Option.map_eq_some_iff, decide_eq_true_eq,
            true_and]
          constructor
          · rintro ⟨recovered, hrecover, hkey⟩
            exact ⟨recoveryId, recovered, hle, hv, hrecover, hkey⟩
          · rintro ⟨recoveryId', recovered, hle', hv', hrecover, hkey⟩
            obtain rfl : recoveryId' = recoveryId := by omega
            exact ⟨recovered, hrecover, hkey⟩

theorem bind_verifyEd25519Prehashed_eq_ok {α : Type} {envelope : Bytes} {sig : Ed25519Signature}
    {key : Ed25519PubKey} {f : Unit → Contract σ VerifyError α} {s : σ} {result : α × σ} :
    (verifyEd25519Prehashed p (sep053Hash p envelope) sig key >>= f).run s = .ok result ↔
      ValidEd25519 p envelope sig key ∧ (f ()).run s = .ok result := by
  unfold verifyEd25519Prehashed ValidEd25519
  cases sig.isZero with
  | true => simp
  | false => cases p.ed25519Verify key (sep053Hash p envelope).toArray sig <;> simp

theorem bind_checkSignature_eq_ok {α : Type} {envelope : Bytes} {sig : t.Signature}
    {key : t.PubKey} {f : Unit → Contract σ VerifyError α} {s : σ} {result : α × σ} :
    (checkSignature p t envelope sig key >>= f).run s = .ok result ↔
      ValidSignature p t envelope sig key ∧ (f ()).run s = .ok result := by
  cases t with
  | ethereum =>
      have hvalid : ValidSignature p .ethereum envelope sig key ↔
          isValidSignature p envelope sig key = some true := isValidSignature_iff.symm
      rw [hvalid]
      simp only [checkSignature, bind_assoc, bind_expect_eq_ok, bind_rejectIf_eq_ok]
      cases isValidSignature p envelope sig key with
      | none => simp
      | some valid => cases valid <;> simp
  | stellar => exact bind_verifyEd25519Prehashed_eq_ok

/-- The raw bytes of a signature, of the right width and valid. -/
def ValidBytes (p : Platform) (t : VerificationType) (envelope : Bytes) (sig : Bytes)
    (key : t.PubKey) : Prop :=
  ∃ signature, BytesN.ofBytes? t.signatureLength sig = some signature ∧
    ValidSignature p t envelope signature key

/-! ## The loop -/

/-- The sum of weights, as a natural number. -/
def weightSum (weights : List UInt64) : ℕ :=
  (weights.map UInt64.toNat).sum

theorem isChain_toList_append_cons {κ : Type} [LinearOrder κ] {prev : Option κ} {key : κ}
    {keys : List κ} : (prev.toList ++ key :: keys).IsChain (· < ·) ↔
      ¬(prev.any fun prev => decide (key ≤ prev)) = true ∧ (key :: keys).IsChain (· < ·) := by
  cases prev <;> simp

/-- The loop returns exactly if the keys ascend from the previous one on, the
signatures are valid, no weight is zero and the sum does not overflow. -/
theorem verifyLoop_run_eq_ok {envelope : Bytes} :
    ∀ {sigs : List Bytes} {keys : List t.PubKey} {weights : List UInt64}
      {prev : Option t.PubKey} {total total' : UInt64} {s s' : σ},
      sigs.length = keys.length → weights.length = keys.length →
      ((verifyLoop p t envelope sigs (keys.map BytesN.toArray) weights prev total).run s =
          .ok (total', s') ↔
        (prev.toList ++ keys).IsChain (· < ·) ∧
          List.Forall₂ (ValidBytes p t envelope) sigs keys ∧ (∀ w ∈ weights, w ≠ 0) ∧
          total.toNat + weightSum weights < 2 ^ 64 ∧
          total'.toNat = total.toNat + weightSum weights ∧ s' = s) := by
  -- on the signatures, with the previous signer and the subtotal general: the first
  -- turn of the loop leaves `some key` and `subtotal` to the rest
  intro sigs
  induction sigs with
  | nil =>
      intro keys weights prev total total' s s' hkeys hweights
      obtain rfl : keys = [] := List.length_eq_zero_iff.mp hkeys.symm
      obtain rfl : weights = [] := List.length_eq_zero_iff.mp hweights
      have hchain : (prev.toList ++ ([] : List t.PubKey)).IsChain (· < ·) := by
        cases prev <;> simp
      rw [verifyLoop, StateT.run_pure, pure_eq_ok, Except.ok.injEq, Prod.mk.injEq]
      constructor
      · rintro ⟨rfl, rfl⟩
        exact ⟨hchain, .nil, by simp, total.toNat_lt, rfl, rfl⟩
      · rintro ⟨-, -, -, -, htotal, rfl⟩
        exact ⟨UInt64.toNat_inj.mp htotal.symm, rfl⟩
  | cons sig sigs ih =>
      intro keys weights prev total total' s s' hkeys hweights
      cases keys with
      | nil => cases hkeys
      | cons key keys =>
          cases weights with
          | nil => cases hweights
          | cons weight weights =>
              have hloop := @ih keys weights (some key)
              rw [List.map_cons, verifyLoop]
              simp only [bind_expect_eq_ok, bind_rejectIf_eq_ok, bind_checkSignature_eq_ok,
                List.head?_cons, Option.bind_some, BytesN.ofBytes?_toArray, List.tail_cons,
                Option.some.injEq, exists_eq_left']
              rw [isChain_toList_append_cons, List.forall₂_cons, List.forall_mem_cons]
              have hsum : weightSum (weight :: weights) = weight.toNat + weightSum weights := by
                simp [weightSum]
              constructor
              · rintro ⟨signature, hsig, hprev, hvalid, hweight, subtotal, hadd, hrest⟩
                obtain ⟨hfits, hsubtotal⟩ := checkedAdd_eq_some.mp hadd
                obtain ⟨hchain, hall, hne, hlt, htotal, hstate⟩ :=
                  (hloop (by simpa using hkeys) (by simpa using hweights)).mp hrest
                exact ⟨⟨hprev, hchain⟩, ⟨⟨signature, hsig, hvalid⟩, hall⟩, ⟨hweight, hne⟩,
                  by omega, by omega, hstate⟩
              · rintro ⟨⟨hprev, hchain⟩, ⟨⟨signature, hsig, hvalid⟩, hall⟩, ⟨hweight, hne⟩, hlt,
                  htotal, hstate⟩
                have hfits : total.toNat + weight.toNat < 2 ^ 64 := by omega
                have hsubtotal := toNat_add_of_lt hfits
                refine ⟨signature, hsig, hprev, hvalid, hweight, total + weight,
                  checkedAdd_eq_some.mpr ⟨hfits, hsubtotal⟩, ?_⟩
                exact (hloop (by simpa using hkeys) (by simpa using hweights)).mpr
                  ⟨hchain, hall, hne, by omega, by omega, hstate⟩

/-! ## `verify` -/

/-- `verify` returns exactly if there are signatures, as many as signers, the Security
contract answers both queries, the required weight is not zero, and the loop
reaches it. -/
theorem verify_run_eq_ok {host : Host ω} {envelope : Bytes} {sigs pubkeys : List Bytes} {r : ℕ}
    {frame frame' : Frame Storage ω} :
    (verify p host t envelope sigs pubkeys r).run frame = .ok ((), frame') ↔
      sigs ≠ [] ∧ sigs.length = pubkeys.length ∧
      ∃ weights required total,
        (host.invoke frame.storage.securityContract (.getSignerWeightsAt pubkeys r)
          frame.world).1 = .ok (.u64s weights) ∧
        (host.invoke frame.storage.securityContract (.requiredWeightAt r)
          (host.invoke frame.storage.securityContract (.getSignerWeightsAt pubkeys r)
            frame.world).2).1 = .ok (.u64 required) ∧
        required ≠ 0 ∧
        (verifyLoop p t envelope sigs pubkeys weights none 0).run
          { frame with
            world := (host.invoke frame.storage.securityContract (.requiredWeightAt r)
              (host.invoke frame.storage.securityContract (.getSignerWeightsAt pubkeys r)
                frame.world).2).2 } = .ok (total, frame') ∧
        ¬total < required := by
  simp only [verify, bind_rejectIf_eq_ok, bind_get_run, bind_invokeClient_eq_ok,
    Val.toU64?_eq_some, Val.toU64s?_eq_some, List.isEmpty_iff, ne_eq, not_not]
  constructor
  · rintro ⟨hne, hlen, v, weights, hweights, rfl, v', required, hrequired, rfl, hzero, hrest⟩
    obtain ⟨total, _, hloop, hreject⟩ := bind_run_eq_ok.mp hrest
    obtain ⟨hreached, rfl⟩ := rejectIf_run_eq_ok.mp hreject
    exact ⟨hne, hlen, weights, required, total, hweights, hrequired, hzero, hloop, hreached⟩
  · rintro ⟨hne, hlen, weights, required, total, hweights, hrequired, hzero, hloop, hreached⟩
    exact ⟨hne, hlen, _, weights, hweights, rfl, _, required, hrequired, rfl, hzero,
      bind_run_eq_ok.mpr ⟨total, frame', hloop, rejectIf_run_eq_ok.mpr ⟨hreached, rfl⟩⟩⟩

/-! ## The verdict depends on two replies -/

theorem stateless_checkSignature (envelope : Bytes) (sig : t.Signature) (key : t.PubKey) :
    Stateless (checkSignature p t envelope sig key : Contract σ VerifyError Unit) := by
  cases t with
  | ethereum => exact .bind (.expect _) fun _ => .rejectIf _ _
  | stellar =>
      simp only [checkSignature, verifyEd25519Prehashed]
      split
      · exact .fail _
      · split
        · exact .pure _
        · exact .trap

theorem stateless_verifyLoop (envelope : Bytes) (sigs pubkeys : List Bytes)
    (weights : List UInt64) (prev : Option t.PubKey) (total : UInt64) :
    Stateless (verifyLoop p t envelope sigs pubkeys weights prev total :
      Contract σ VerifyError UInt64) := by
  induction sigs generalizing pubkeys weights prev total with
  | nil => exact .pure _
  | cons sig sigs ih =>
      refine .bind (.expect _) fun sig => .bind (.expect _) fun key => ?_
      refine .bind (.rejectIf _ _) fun _ => .bind (stateless_checkSignature _ _ _) fun _ => ?_
      refine .bind (.expect _) fun weight => .bind (.rejectIf _ _) fun _ => ?_
      exact .bind (.expect _) fun subtotal => ih _ _ _ _

/-- With the same two replies of the Security contract, `verify` ends in the same way. -/
theorem verify_congr {host host' : Host ω} {envelope : Bytes} {sigs pubkeys : List Bytes} {r : ℕ}
    {frame frame' : Frame Storage ω}
    (hweights : (host.invoke frame.storage.securityContract (.getSignerWeightsAt pubkeys r)
        frame.world).1 =
      (host'.invoke frame'.storage.securityContract (.getSignerWeightsAt pubkeys r)
        frame'.world).1)
    (hrequired : (host.invoke frame.storage.securityContract (.requiredWeightAt r)
        (host.invoke frame.storage.securityContract (.getSignerWeightsAt pubkeys r)
          frame.world).2).1 =
      (host'.invoke frame'.storage.securityContract (.requiredWeightAt r)
        (host'.invoke frame'.storage.securityContract (.getSignerWeightsAt pubkeys r)
          frame'.world).2).1) :
    ((verify p host t envelope sigs pubkeys r).run frame).map Prod.fst =
      ((verify p host' t envelope sigs pubkeys r).run frame').map Prod.fst := by
  unfold verify
  simp only [StateT.run_bind (rejectIf _ _), run_rejectIf]
  by_cases hempty : sigs.isEmpty
  · simp only [if_pos hempty]
    rfl
  by_cases hlength : sigs.length ≠ pubkeys.length
  · simp only [if_neg hempty, if_pos hlength]
    rfl
  simp only [if_neg hempty, if_neg hlength, ok_bind, bind_get_run, bind_invokeClient_run,
    hweights, hrequired]
  -- after the two replies, nothing reads the storage or the world
  have hrest : ∀ (weights : List UInt64) (required : UInt64),
      Stateless (do
        rejectIf (required = 0) VerifyError.zeroRequiredWeight
        let totalWeight ← verifyLoop p t envelope sigs pubkeys weights none 0
        rejectIf (totalWeight < required) VerifyError.insufficientWeight :
        Contract (Frame Storage ω) VerifyError Unit) := fun weights required =>
    .bind (.rejectIf _ _) fun _ => .bind (stateless_verifyLoop _ _ _ _ _ _) fun _ =>
      .rejectIf _ _
  cases (host'.invoke frame'.storage.securityContract (.getSignerWeightsAt pubkeys r)
    frame'.world).1.toOption.bind Val.toU64s? with
  | none => rfl
  | some weights =>
      cases (host'.invoke frame'.storage.securityContract (.requiredWeightAt r)
        (host'.invoke frame'.storage.securityContract (.getSignerWeightsAt pubkeys r)
          frame'.world).2).1.toOption.bind Val.toU64? with
      | none => rfl
      | some required => exact hrest weights required _ _

/-! ## What a successful call can do -/

theorem reads_verifyEd25519Prehashed (hash : BytesN 32) (sig : Ed25519Signature)
    (key : Ed25519PubKey) :
    Reads (verifyEd25519Prehashed p hash sig key : Contract σ VerifyError Unit) := by
  unfold verifyEd25519Prehashed
  split
  · exact Reads.fail _
  · split
    · exact Reads.pure _
    · exact Reads.trap

theorem reads_checkSignature (envelope : Bytes) (sig : t.Signature) (key : t.PubKey) :
    Reads (checkSignature p t envelope sig key : Contract σ VerifyError Unit) := by
  cases t with
  | ethereum => exact Reads.bind (Reads.expect _) fun _ => Reads.rejectIf _ _
  | stellar => exact reads_verifyEd25519Prehashed _ _ _

theorem reads_verifyEd25519 (envelope : Bytes) (sig : Ed25519Signature) (key : Ed25519PubKey) :
    Reads (verifyEd25519 p envelope sig key : Contract σ VerifyError Unit) := by
  unfold verifyEd25519
  split
  · exact Reads.fail _
  · exact reads_verifyEd25519Prehashed _ _ _

theorem reads_checkOneSignature (envelope : Bytes) (sig : t.Signature) (key : t.PubKey) :
    Reads (checkOneSignature p t envelope sig key : Contract σ VerifyError Unit) := by
  cases t with
  | ethereum => exact Reads.bind (Reads.expect _) fun _ => Reads.rejectIf _ _
  | stellar => exact reads_verifyEd25519 _ _ _

theorem reads_verifyLoop (envelope : Bytes) (sigs pubkeys : List Bytes) (weights : List UInt64)
    (prev : Option t.PubKey) (total : UInt64) :
    Reads (verifyLoop p t envelope sigs pubkeys weights prev total :
      Contract σ VerifyError UInt64) := by
  induction sigs generalizing pubkeys weights prev total with
  | nil => exact Reads.pure _
  | cons sig sigs ih =>
      refine Reads.bind (Reads.expect _) fun sig => Reads.bind (Reads.expect _) fun key => ?_
      apply Reads.bind (Reads.rejectIf _ _)
      intro _
      apply Reads.bind (reads_checkSignature _ _ _)
      intro _
      refine Reads.bind (Reads.expect _) fun weight => Reads.bind (Reads.rejectIf _ _) fun _ => ?_
      exact Reads.bind (Reads.expect _) fun subtotal => ih _ _ _ _

/-- The calls that leave a Verification contract are weight queries. -/
abbrev Queries (host : Host ω) {α : Type} (m : Contract (Frame Storage ω) VerifyError α) : Prop :=
  Consults host (fun call => call.isWeightQuery = true) m

theorem queries_invokeClient {α : Type} (host : Host ω) (target : Address) {query : Call}
    (hquery : query.isWeightQuery = true) (decode : Val → Option α) :
    Queries host (invokeClient host target query decode) :=
  .invokeClient target hquery decode

theorem queries_requiredWeight (host : Host ω) : Queries host (requiredWeight host) :=
  .bind (.of_reads .get) fun _ => queries_invokeClient host _ rfl _

theorem queries_signerWeight (host : Host ω) (key : t.PubKey) :
    Queries host (signerWeight host t key) :=
  .bind (.of_reads .get) fun _ => queries_invokeClient host _ rfl _

theorem queries_checkOne (host : Host ω) (envelope : Bytes) (sig : t.Signature) (key : t.PubKey)
    (r : Option ℕ) : Queries host (checkOne p host t envelope sig key r) := by
  refine .bind (.of_reads (reads_checkOneSignature _ _ _)) fun _ => ?_
  refine .bind (.of_reads .get) fun _ => ?_
  refine .bind (queries_invokeClient host _ ?_ _) fun _ => ?_
  · cases r <;> rfl
  · exact .bind (.of_reads (.rejectIf _ _)) fun _ => .of_reads (.pure _)

theorem queries_verify (host : Host ω) (envelope : Bytes) (sigs pubkeys : List Bytes) (r : ℕ) :
    Queries host (verify p host t envelope sigs pubkeys r) := by
  refine .bind (.of_reads (.rejectIf _ _)) fun _ => .bind (.of_reads (.rejectIf _ _)) fun _ => ?_
  refine .bind (.of_reads .get) fun _ => .bind (queries_invokeClient host _ rfl _) fun _ => ?_
  refine .bind (queries_invokeClient host _ rfl _) fun _ =>
    .bind (.of_reads (.rejectIf _ _)) fun _ => ?_
  exact .bind (.of_reads (reads_verifyLoop _ _ _ _ _ _)) fun _ => .of_reads (.rejectIf _ _)

/-- What a call that returns can do: run a function of the shared interface, or
query the Security contract. -/
inductive Effect (host : Host ω) (env : Env) (frame : Frame Storage ω) :
    Call → Frame Storage ω → Prop
  | base (call : Call) (b : Base) (hbase : BaseStep env frame.storage.base call b) :
      Effect host env frame call { frame with storage := { frame.storage with base := b } }
  | query (call : Call) (world : ω) (hcall : call.isGovernance = false)
      (hvisits : Visits host (fun call => call.isWeightQuery = true) frame.world world) :
      Effect host env frame call { frame with world := world }

theorem onBase_run_eq_ok {α : Type} {m : Contract Base VerifyError α}
    {frame frame' : Frame Storage ω} {a : α} :
    (onBase m).run frame = .ok (a, frame') ↔ ∃ b, m.run frame.storage.base = .ok (a, b) ∧
      { frame with storage := { frame.storage with base := b } } = frame' := by
  simp [onBase, onStorage, zoom_run_eq_ok]

theorem Queries.effect {host : Host ω} {α : Type} {m : Contract (Frame Storage ω) VerifyError α}
    (h : Queries host m) {env : Env} {frame frame' : Frame Storage ω} {a : α} {c : Call}
    (hrun : m.run frame = .ok (a, frame')) (hcall : c.isGovernance = false) :
    Effect host env frame c frame' := by
  obtain ⟨hstorage, hvisits⟩ := h _ _ _ hrun
  have hframe : frame' = { frame with world := frame'.world } := by rw [← hstorage]
  rw [hframe]
  exact .query c _ hcall hvisits

theorem call_effect {host : Host ω} {env : Env} {c : Call} {frame frame' : Frame Storage ω}
    {v : Val} (h : (call p host t env c).run frame = .ok (v, frame')) :
    Effect host env frame c frame' := by
  cases c with
  | securityContract => exact Queries.effect (.of_reads (.view _)) h rfl
  | requiredWeight =>
      exact Queries.effect (.bind (queries_requiredWeight host) fun _ => .of_reads (.pure _)) h rfl
  | signerWeight key =>
      exact Queries.effect (.bind (.of_reads (.expect _)) fun _ =>
        .bind (queries_signerWeight host _) fun _ => .of_reads (.pure _)) h rfl
  | checkOne envelope sig key r =>
      exact Queries.effect (.bind (.of_reads (.expect _)) fun _ => .bind (.of_reads (.expect _))
        fun _ => .bind (queries_checkOne host _ _ _ _) fun _ => .of_reads (.pure _)) h rfl
  | verify envelope sigs pubkeys r =>
      exact Queries.effect (.bind (queries_verify host _ _ _ _) fun _ => .of_reads (.pure _)) h rfl
  | _ =>
      obtain ⟨b, hrun, rfl⟩ := onBase_run_eq_ok.mp h
      exact .base _ b (warpDriveInterface_step hrun)

end WarpDrive.Verification
