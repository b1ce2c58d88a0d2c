import WarpDrive.Guarantees.Quorum

/-!
# When an envelope is accepted

A handler, the Verification contract it points at and the Security contract that
one points at, in any reachable system and at any point of a transaction.  The
three together accept a submission exactly if the reference block is in the
window, the envelope decodes to an event that was never accepted, and its
signers have a quorum in the registry that was in force (`accepted_iff`).  What
the administrators did in between is in the journal, and nowhere else in the
statement.
-/

namespace WarpDrive

open Security Handler

variable {p : Platform} {t : VerificationType} {tx : Transaction} {depth : ℕ}
  {stack : List Address} {w : World} {a : Address} {h : Handler.Storage}
  {v : Verification.Storage} {s : Security.Storage t} {bytes : Bytes} {sigData : SignatureData}

/-- The event of `m` is new to the handler at `a`: no submission that it accepted
decoded to the same id. -/
def NeverAccepted (p : Platform) (t : VerificationType) (a : Address) (J : List Invocation)
    (m : Message) : Prop :=
  ∀ inv ∈ callsOf a J, ∀ m', submitted p t inv.call = some m' → m'.eventId ≠ m.eventId

theorem neverAccepted_iff (hw : Occurs p tx stack w)
    (hhandler : w.contracts a = some (.handler t h)) (m : Message) :
    NeverAccepted p t a w.journal m ↔ h.isEventSeen m.eventId = false := by
  have hseen := hw.consistent.isEventSeen_iff hhandler m.eventId
  rw [← Bool.not_eq_true, hseen]
  constructor
  · rintro hnever ⟨inv, hinv, m', hsubmitted, hid⟩
    exact hnever inv hinv m' hsubmitted hid
  · intro hnone inv hinv m' hsubmitted hid
    exact hnone ⟨inv, hinv, m', hsubmitted, hid⟩

/-- A handler returns on a submission exactly if its own checks pass and the
Verification contract returns. -/
theorem invoke_submission_eq_ok (hstack : a ∉ stack)
    (hhandler : w.contracts a = some (.handler t h)) :
    (invoke p tx (depth + 1) stack a (submission t bytes sigData) w).1 = .ok .void ↔
      validateReferenceBlock tx.ledger sigData.referenceBlock = .ok () ∧
      ∃ m, decoded p t bytes = some m ∧ h.isEventSeen m.eventId = false ∧
        (invoke p tx depth (a :: stack) h.verificationContract (verification bytes sigData)
          w).1 = .ok .void := by
  constructor
  · intro hok
    obtain ⟨below, inst, frame, hdepth, -, hinst, hrun⟩ := invoke_eq_ok hok
    obtain rfl : depth = below := Nat.succ_injective hdepth
    obtain rfl : .handler t h = inst := Option.some.inj (hhandler.symm.trans hinst)
    obtain ⟨inner, hcall, -⟩ := asInstance_eq_ok.mp hrun
    obtain ⟨hvalid, m, hdecode, hnew, hverify, -⟩ :=
      verifyEnvelope_run_eq_ok.mp (submission_eq_ok.mp hcall).2
    exact ⟨hvalid, m, hdecode, hnew, hverify⟩
  · rintro ⟨hvalid, m, hdecode, hnew, hverify⟩
    have hrun : (verifyEnvelope (hostBelow p tx depth (a :: stack))
        (tx.env stack a (submission t bytes sigData)) (decode p t) bytes sigData).run ⟨h, w⟩ =
          .ok ((), ⟨h.accept m, (invoke p tx depth (a :: stack) h.verificationContract
            (verification bytes sigData) w).2⟩) :=
      verifyEnvelope_run_eq_ok.mpr ⟨hvalid, m, hdecode, hnew, hverify, rfl⟩
    rw [invoke_fst _ hstack hhandler, dispatch, asInstance_map_fst,
      submission_eq_ok.mpr ⟨rfl, hrun⟩]
    rfl

/-- A bundle passes a Verification contract, at a reference block in the window,
exactly if it has a quorum. -/
theorem invoke_verify_iff_quorum {J : List Invocation} {envelope : Bytes}
    {sigs pubkeys : List Bytes} {r : ℕ} (hs : Represents J tx.ledger s)
    (hwindow : tx.ledger - historyCutoff ≤ r) (hstack : a ∉ stack)
    (hbelow : v.securityContract ∉ stack)
    (hverification : w.contracts a = some (.verification t v))
    (hsecurity : w.contracts v.securityContract = some (.security t s)) :
    (invoke p tx (depth + 2) stack a (.verify envelope sigs pubkeys r) w).1 = .ok .void ↔
      ∃ keys : List t.PubKey, keys.map BytesN.toArray = pubkeys ∧
        Quorum p s.threshold (registryAt t J r) envelope sigs keys := by
  constructor
  · intro hok
    obtain ⟨keys, weights, required, hkeys, haccepts⟩ :=
      accepts_of_invoke_verify hverification hsecurity hok
    exact ⟨keys, hkeys, haccepts.quorum hs⟩
  · rintro ⟨keys, rfl, hquorum⟩
    exact (hquorum.accepts hs hwindow).invoke_verify hstack hbelow hverification hsecurity

/-- End-to-end acceptance of a submission, exactly. -/
theorem accepted_iff (hw : Occurs p tx stack w)
    (hhandler : w.contracts a = some (.handler t h))
    (hverification : w.contracts h.verificationContract = some (.verification t v))
    (hsecurity : w.contracts v.securityContract = some (.security t s))
    (hstack : a ∉ stack) (hbelow : h.verificationContract ∉ stack)
    (hbelow' : v.securityContract ∉ stack) :
    (invoke p tx (depth + 3) stack a (submission t bytes sigData) w).1 = .ok .void ↔
      (sigData.referenceBlock < tx.ledger ∧ tx.ledger - sigData.referenceBlock ≤ 200) ∧
      ∃ m, decoded p t bytes = some m ∧ NeverAccepted p t a w.journal m ∧
        ∃ keys : List t.PubKey, keys.map BytesN.toArray = sigData.signers ∧
          Quorum p s.threshold
            (registryAt t (callsOf v.securityContract w.journal) sigData.referenceBlock) bytes
            sigData.signatures keys := by
  have hs := hw.security hsecurity
  have hne : h.verificationContract ≠ a := World.ne_of_contracts hverification hhandler nofun
  have hne' : v.securityContract ≠ a := World.ne_of_contracts hsecurity hhandler nofun
  rw [invoke_submission_eq_ok hstack hhandler, ← validateReferenceBlock_eq_ok]
  refine and_congr_right fun hvalid => exists_congr fun m => and_congr_right fun _ => ?_
  rw [neverAccepted_iff hw hhandler]
  apply and_congr_right
  intro _
  exact invoke_verify_iff_quorum hs (sub_historyCutoff_le_of_validateReferenceBlock hvalid)
    (by simp [hne, hbelow]) (by simp [hne', hbelow']) hverification hsecurity

/-! ## A project

A Stellar project is deployed, two signers are registered, and the sample envelope
is submitted with both signatures. -/

section Sample

/-- Address 0 signs for whatever is called. -/
def signedByAdmin (ledger : ℕ) : Transaction where
  ledger := ledger
  signed x _ _ := x == ⟨0⟩

def firstSigner : Ed25519Security :=
  after [sampleInvocation 10 (.addSigner Sample.lowKey.toArray 1)] sampleDeployment

def deployedWorld : World where
  contracts := Function.update (Function.update (Function.update (fun _ => none)
    ⟨1⟩ (some (.security .stellar sampleDeployment)))
    ⟨2⟩ (some (.verification .stellar (Verification.construct Sample.zeroHash ⟨0⟩ ⟨1⟩))))
    ⟨3⟩ (some (.handler .stellar (Handler.construct Sample.zeroHash ⟨0⟩ ⟨2⟩)))
  journal := []

def projectWorld : World :=
  (deployedWorld.commit ⟨1⟩ (.security .stellar firstSigner)
    (sampleInvocation 10 (.addSigner Sample.lowKey.toArray 1))).commit ⟨1⟩
    (.security .stellar twoSignersState)
    (sampleInvocation 11 (.addSigner Sample.highKey.toArray 1))

theorem deployedWorld_reachable : Reachable Sample.platform ⟨deployedWorld, 0⟩ := by
  have hstart : Transition.Run Genesis (Step Sample.platform) [] ⟨⟨fun _ => none, []⟩, 0⟩ :=
    .start rfl
  have hsecurity := hstart.snoc (.deploy _ ⟨1⟩ (.security .stellar sampleDeployment) rfl
    ⟨_, _, 2, 3, rfl⟩)
  have hverification := hsecurity.snoc (.deploy _ ⟨2⟩
    (.verification .stellar (Verification.construct Sample.zeroHash ⟨0⟩ ⟨1⟩)) rfl ⟨_, _, _, rfl⟩)
  exact ⟨_, hverification.snoc (.deploy _ ⟨3⟩
    (.handler .stellar (Handler.construct Sample.zeroHash ⟨0⟩ ⟨2⟩)) rfl ⟨_, _, _, rfl⟩)⟩

theorem projectWorld_reachable : Reachable Sample.platform ⟨projectWorld, 11⟩ := by
  have hfirst : Reachable Sample.platform ⟨deployedWorld.commit ⟨1⟩ (.security .stellar firstSigner)
      (sampleInvocation 10 (.addSigner Sample.lowKey.toArray 1)), 10⟩ :=
    deployedWorld_reachable.security (v := .void) (by decide : 0 ≤ (signedByAdmin 10).ledger) rfl
      rfl
  exact hfirst.security (v := .void) (by decide : 10 ≤ (signedByAdmin 11).ledger) rfl rfl

def bundle : SignatureData where
  signers := [Sample.lowKey.toArray, Sample.highKey.toArray]
  signatures := [Sample.lowSignature.toArray, Sample.highSignature.toArray]
  referenceBlock := 100

theorem accepts_both : Accepts Sample.platform twoSignersState Sample.envelopeBytes
    bundle.signatures [Sample.lowKey, Sample.highKey] 100 [1, 1] 1 where
  nonempty := by decide
  weights_eq := by decide
  required_eq := by decide
  required_ne_zero := by decide
  ascending := by decide
  valid := .cons validBytes_low (.cons validBytes_high .nil)
  registered := by simp
  fits := by decide
  reached := by decide

theorem accepted_sample : (invoke Sample.platform (unsignedAt 110) 100 [] ⟨3⟩
    (.verifyXlm Sample.envelopeBytes bundle) projectWorld).1 = .ok .void := by
  have hoccurs : Occurs Sample.platform (unsignedAt 110) [] projectWorld :=
    projectWorld_reachable.occurs (by decide)
  refine (accepted_iff (t := .stellar) hoccurs rfl rfl rfl (by simp) (by simp)
    (by simp)).mpr ⟨by decide, sampleMessage, sample_decoded, ?_,
      [Sample.lowKey, Sample.highKey], rfl, ?_⟩
  · rintro inv hinv
    have hnone : callsOf ⟨3⟩ projectWorld.journal = [] := rfl
    rw [hnone] at hinv
    cases hinv
  · have hcalls : callsOf ⟨1⟩ projectWorld.journal = twoSigners := rfl
    exact hcalls ▸ accepts_both.quorum twoSigners_reaches.represents

end Sample

end WarpDrive
