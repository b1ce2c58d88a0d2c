import WarpDrive.Handler.Acceptance
import WarpDrive.Security.Guarantees

/-!
# The window of reference blocks

A handler accepts a reference block of an age up to 200 ledgers; a Security
contract prunes what is older than 200 ledgers, each history when it is pushed
to.  The two bounds meet: at every reference block that a handler accepts, both
queries answer with what was in force there.
-/

namespace WarpDrive

open Security

variable {t : VerificationType} {J : List Invocation} {s : Security.Storage t} {L : ℕ}

/-- The age that a handler accepts is no more than what a history keeps. -/
theorem sub_historyCutoff_le_of_validateReferenceBlock {current r : ℕ}
    (h : Handler.validateReferenceBlock current r = .ok ()) : current - historyCutoff ≤ r := by
  obtain ⟨-, hage⟩ := Handler.validateReferenceBlock_eq_ok.mp h
  unfold historyCutoff
  omega

/-- Point-in-time queries are exact over the window of the handlers, and from the
current ledger on they answer with the current weights. -/
theorem window_exactness (hreach : Reaches J s L) :
    (∀ r, Handler.validateReferenceBlock L r = .ok () →
      (∀ key, s.getSignerWeightAt key r = some (registryAt t J r key)) ∧
        ∃ total, s.getTotalWeightAt r = some total ∧
          total.toNat = totalWeight (registryAt t J r)) ∧
      ∀ r, L ≤ r →
        (∀ key, s.getSignerWeightAt key r = some ((s.getSignerWeight key).getD 0)) ∧
          s.getTotalWeightAt r = some s.getTotalWeight := by
  have h := hreach.represents
  constructor
  · intro r hvalid
    have hwindow := sub_historyCutoff_le_of_validateReferenceBlock hvalid
    exact ⟨fun key => h.getSignerWeightAt_eq key hwindow, _, h.getTotalWeightAt_eq hwindow,
      h.toNat_totalWeightAt r⟩
  · intro r hle
    exact ⟨fun key => h.getSignerWeightAt_latest key hle, h.getTotalWeightAt_latest hle⟩

/-- At ledger 221 both histories have been pruned; ledger 21 is the oldest one in
the window, and the second signer, removed since, still has its weight there. -/
theorem window_exactness_sample :
    Handler.validateReferenceBlock 221 21 = .ok () ∧
      (after sampleHistory sampleDeployment).getSignerWeightAt (sampleKey 4) 21 = some 4 ∧
      (∀ key, (after sampleHistory sampleDeployment).getSignerWeightAt key 21 =
        some (registryAt .stellar sampleHistory 21 key)) ∧
      (after sampleHistory sampleDeployment).getTotalWeightAt 221 =
        some (after sampleHistory sampleDeployment).getTotalWeight :=
  ⟨rfl, by decide, (((window_exactness sample_reaches).1 21 rfl).1),
    ((window_exactness sample_reaches).2 221 le_rfl).2⟩

end WarpDrive
