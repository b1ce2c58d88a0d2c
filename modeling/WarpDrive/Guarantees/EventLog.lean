import WarpDrive.Guarantees.Forwarding
import WarpDrive.Security.EventLog

/-!
# The event log determines the registry

At any point of any run of the system, in the middle of a transaction as well, the
signer events that a Security contract has published describe its registry: folded
in order they give the map that `list_signers` returns.  They are one event for each
call that took effect, whether it came directly or through the forwarders of a
ProjectRoot; a call that fails is rolled back, events included.
-/

namespace WarpDrive

open Security (foldEvents isSignerEvent signerEvent)

variable {p : Platform} {tx : Transaction} {stack : List Address} {w : World} {a : Address}

/-- A failed invocation leaves the world as it was. -/
theorem invoke_error {depth : ℕ} {target : Address} {call : Call} {e : InvokeError}
    (h : (invoke p tx depth stack target call w).1 = .error e) :
    (invoke p tx depth stack target call w).2 = w := by
  rcases invoke_cases p tx depth stack target call w with
    ⟨e', hfailed⟩ | ⟨below, inst, v, frame, -, -, -, -, hcommitted⟩
  · rw [hfailed]
  · rw [hcommitted] at h
    cases h

/-- The fold of the events is what `list_signers` returns: each key once, in
ascending order, with its current weight, which is not zero. -/
theorem event_log_determines_registry {t : VerificationType} {s : Security.Storage t}
    (hw : Occurs p tx stack w) (hinst : w.contracts a = some (.security t s)) :
    (∀ raw weight, foldEvents s.base.events raw = some weight ↔ (raw, weight) ∈ s.listing) ∧
      (∀ depth, a ∉ stack →
        (invoke p tx (depth + 1) stack a .listSigners w).1 = .ok (.signers s.listing)) ∧
      (s.listSigners.map Prod.fst).Pairwise (· < ·) ∧
      (∀ key weight, (key, weight) ∈ s.listSigners ↔ s.weight key = weight ∧ weight ≠ 0) ∧
      s.base.events.filter isSignerEvent =
        (callsOf a w.journal).filterMap (fun inv => signerEvent inv.call) ∧
      ∀ depth target call e, (invoke p tx depth stack target call w).1 = .error e →
        (invoke p tx depth stack target call w).2 = w := by
  have hreaches := hw.consistent.security hinst
  have hrepresents := hw.security hinst
  refine ⟨?_, ?_, hrepresents.listSigners_sorted, ?_, Security.signerEvents_run hreaches.run,
    fun _ _ _ _ h => invoke_error h⟩
  · intro raw weight
    rw [Security.foldEvents_run hreaches.run, hrepresents.mem_listing]
  · intro depth hstack
    rw [invoke_security _ hstack hinst]
    rfl
  · intro key weight
    rw [hrepresents.mem_listSigners, Security.Storage.getSignerWeight_eq]
    split
    · next hzero =>
        rw [hzero]
        exact ⟨nofun, fun h => absurd h.1.symm h.2⟩
    · next hne =>
        rw [Option.some.injEq]
        exact ⟨fun h => ⟨h, h ▸ hne⟩, And.left⟩

/-! ## A registry behind a ProjectRoot

The admin of the project adds a signer and removes one that was never registered, both
through the forwarders; then somebody else tries to add a signer. -/

section Sample

def rootedSecurity : Security.Ed25519Security where
  base := .deployed Sample.zeroHash ⟨9⟩
  threshold := ⟨2, 3⟩
  allSigners := []
  signerWeightHist _ := []
  totalWeightHist := []

def rootedDeployment : World where
  contracts := Function.update (Function.update (fun _ => none)
    ⟨1⟩ (some (.security .stellar rootedSecurity))) ⟨9⟩ (some (.projectRoot sampleRoot))
  journal := []

def forwardedWorld : World :=
  (invoke Sample.platform (signedByAdmin 11) depthLimit [] ⟨9⟩
    (.removeEd25519Signer Sample.highKey.toArray)
    (invoke Sample.platform (signedByAdmin 10) depthLimit [] ⟨9⟩
      (.addEd25519Signer Sample.lowKey.toArray 3) rootedDeployment).2).2

def loggedWorld : World :=
  (invoke Sample.platform (unsignedAt 12) depthLimit [] ⟨9⟩
    (.addEd25519Signer Sample.highKey.toArray 1) forwardedWorld).2

theorem loggedWorld_reachable : Reachable Sample.platform ⟨loggedWorld, 12⟩ := by
  have hstart : Transition.Run Genesis (Step Sample.platform) [] ⟨⟨fun _ => none, []⟩, 0⟩ :=
    .start rfl
  have hsecurity := hstart.snoc (.deploy _ ⟨1⟩ (.security .stellar rootedSecurity) rfl
    ⟨_, _, 2, 3, rfl⟩)
  have hroot := hsecurity.snoc (.deploy _ ⟨9⟩ (.projectRoot sampleRoot) rfl
    ⟨_, _, _, _, _, _, rfl⟩)
  have hadded := hroot.snoc (.transact _ (signedByAdmin 10) ⟨9⟩
    (.addEd25519Signer Sample.lowKey.toArray 3) (Nat.zero_le 10))
  have hremoved := hadded.snoc (.transact _ (signedByAdmin 11) ⟨9⟩
    (.removeEd25519Signer Sample.highKey.toArray) (Nat.le_succ 10))
  exact ⟨_, hremoved.snoc (.transact _ (unsignedAt 12) ⟨9⟩
    (.addEd25519Signer Sample.highKey.toArray 1) (Nat.le_succ 11))⟩

theorem event_log_determines_registry_sample :
    ∃ s : Security.Ed25519Security, loggedWorld.contracts ⟨1⟩ = some (.security .stellar s) ∧
      s.base.events =
        [.signerAdded Sample.lowKey.toArray 3, .signerRemoved Sample.highKey.toArray] ∧
      s.listing = [(Sample.lowKey.toArray, 3)] ∧
      (∀ raw weight, foldEvents s.base.events raw = some weight ↔ (raw, weight) ∈ s.listing) ∧
      loggedWorld = forwardedWorld := by
  have hoccurs : Occurs Sample.platform (unsignedAt 12) [] loggedWorld :=
    loggedWorld_reachable.occurs (Nat.le_refl 12)
  obtain ⟨s, hinst, hevents, hlisting⟩ : ∃ s : Security.Ed25519Security,
      loggedWorld.contracts ⟨1⟩ = some (.security .stellar s) ∧ s.base.events =
        [.signerAdded Sample.lowKey.toArray 3, .signerRemoved Sample.highKey.toArray] ∧
      s.listing = [(Sample.lowKey.toArray, 3)] := ⟨_, rfl, rfl, rfl⟩
  have hfold := event_log_determines_registry hoccurs hinst
  refine ⟨s, hinst, hevents, hlisting, hfold.1, ?_⟩
  exact invoke_error (e := .abort) rfl

end Sample

end WarpDrive
