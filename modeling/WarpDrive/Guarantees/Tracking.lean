import WarpDrive.Guarantees.Availability
import WarpDrive.Guarantees.Evidence
import WarpDrive.ProjectRoot.Handlers

/-!
# What a project tracks

ProjectRoot asks a contract once for its Verification contract, in the call that lets it
in, and never again.  For contracts of WarpDrive once is enough: what a contract points
at is fixed when it is deployed, and an upgrade does not touch it.  So `Tracks` holds of
every reachable system: whatever is tracked still reports the Verification contract of
the project, or is a contract from outside.  It need not be a handler: another ProjectRoot
on the same Verification contract gives the same answer, and is let in.

The use of it is that the list can be trusted (`tracked_handlers_attested`).  Every event
in a tracked handler of the project's own scheme, registered by whomever and whenever,
has a quorum of the project's registry behind it.
-/

namespace WarpDrive

open Handler Security

variable {p : Platform} {tx : Transaction} {depth : ℕ} {stack : List Address} {w : World}
  {a c d v : Address}

/-! ## The answer to the probe -/

/-- A contract of this shape reports `verificationContract` as its Verification contract.
A contract from outside may report anything. -/
def Shape.Reports (verificationContract : Address) : Shape → Prop
  | .handler _ v | .projectRoot _ v => v = verificationContract
  | .foreign => True
  | .security _ | .verification .. => False

/-- Who answers the probe is what it says it is. -/
theorem shape_of_probe
    (h : (invoke p tx depth stack d .verificationContract w).1 = .ok (.address v)) :
    ∃ shape, w.shape d = some shape ∧ shape.Reports v := by
  generalize hprobe : Call.verificationContract = call at h
  obtain ⟨below, inst, frame, -, -, hinst, hrun⟩ := invoke_eq_ok h
  refine ⟨inst.shape, World.shape_of_contracts hinst, ?_⟩
  cases inst with
  | security t s =>
      obtain ⟨s', hcall, -⟩ := dispatch_security_eq_ok.mp hrun
      subst hprobe
      cases hcall
  | verification t s =>
      obtain ⟨inner, hcall, -⟩ := asInstance_eq_ok.mp hrun
      subst hprobe
      cases entryPoint_eq_ok.mp hcall
  | handler t s =>
      obtain ⟨inner, hcall, -⟩ := asInstance_eq_ok.mp hrun
      subst hprobe
      cases entryPoint_eq_ok.mp hcall
      rfl
  | projectRoot s =>
      obtain ⟨inner, hcall, -⟩ := asInstance_eq_ok.mp hrun
      subst hprobe
      cases entryPoint_eq_ok.mp hcall
      rfl
  | foreign f => trivial

/-! ## The invariant -/

/-- Whatever a ProjectRoot tracks is deployed, and reports the Verification contract of the
project. -/
def Tracks (w : World) : Prop :=
  ∀ a r, w.contracts a = some (.projectRoot r) → ∀ d ∈ r.handlers,
    ∃ shape, w.shape d = some shape ∧ shape.Reports r.verificationContract

theorem tracks_genesis : Tracks ⟨fun _ => none, []⟩ := by
  intro a r hroot
  cases hroot

theorem Tracks.deploy {inst : Instance} (h : Tracks w) (hfresh : w.contracts a = none)
    (hdeployed : inst.Deployed) :
    Tracks { w with contracts := Function.update w.contracts a (some inst) } := by
  intro b r hroot d hd
  by_cases hb : b = a
  · -- a new project tracks nothing
    subst hb
    obtain rfl : inst = .projectRoot r := by simpa using hroot
    obtain ⟨wasm, admin, sec, ver, repo, type, rfl⟩ := hdeployed
    cases hd
  · obtain ⟨shape, hshape, hreports⟩ := h b r (by simpa [hb] using hroot) d hd
    have hne : d ≠ a := by
      rintro rfl
      simp [World.shape, hfresh] at hshape
    exact ⟨shape, by simpa [World.shape, hne] using hshape, hreports⟩

/-- A contract that joins was probed in this call, and one that stays was probed before. -/
theorem ProjectRoot.Books.mem_handlers {probe : Address → Reply} {s s' : ProjectRoot.Storage}
    {call : Call} (h : Books probe s call s') (hd : d ∈ s'.handlers) :
    d ∈ s.handlers ∨ probe d = .ok (.address s.verificationContract) := by
  cases h with
  | quiet _ hquiet => exact .inl (hquiet.handlers ▸ hd)
  | joined handler s₁ _ hquiet _ _ _ hprobe =>
      rcases List.mem_append.mp hd with hd | hd
      · exact .inl (hquiet.handlers ▸ hd)
      · rw [List.mem_singleton.mp hd]
        exact .inr hprobe
  | left handler _ _ => exact .inl (List.mem_of_mem_erase hd)

theorem Commits.tracks {target : Address} {call : Call} {inst : Instance}
    {frame : Frame Instance World} (h : Commits p tx stack target call w inst frame)
    (hw : Tracks w) (hbelow : Tracks frame.world) :
    Tracks (frame.world.commit target frame.storage ⟨tx.env stack target call, call⟩) := by
  intro b r' hroot d hd
  rw [h.shape_commit]
  by_cases hb : b = target
  · subst hb
    rw [World.commit_contracts_self, Option.some_inj] at hroot
    obtain ⟨depth, value, hrun⟩ := h.runs
    obtain ⟨r, rfl⟩ : ∃ r, inst = .projectRoot r := by
      have hshape := h.executes.shape
      rw [hroot] at hshape
      cases inst with
      | projectRoot r => exact ⟨r, rfl⟩
      | _ => cases hshape
    obtain ⟨inner, hcall, rfl⟩ := asInstance_eq_ok.mp hrun
    cases hroot
    have hreturns := entryPoint_eq_ok.mp hcall
    rw [(ProjectRoot.call_links hreturns).2, h.shape_below]
    rcases (ProjectRoot.call_books hreturns).mem_handlers hd with hmem | hprobe
    · exact hw b r h.inst_eq d hmem
    · exact shape_of_probe hprobe
  · rw [World.commit_contracts_of_ne hb] at hroot
    exact hbelow b r' hroot d hd

/-- Every reachable system tracks what it should. -/
theorem Reachable.tracks {sys : System} (h : Reachable p sys) : Tracks sys.world :=
  h.induction (I := Tracks) tracks_genesis
    (fun _ _ _ hfresh hdeployed _ htracks => htracks.deploy hfresh hdeployed)
    fun _ _ _ _ _ _ _ hcommits hw hbelow => hcommits.tracks hw hbelow

/-- In every run: what a ProjectRoot tracks is deployed and, if it is a contract of WarpDrive,
reports the Verification contract of the project.  So each payload in a tracked handler of
the project's scheme was submitted with a quorum of the project's registry. -/
theorem tracked_handlers_attested {ops : List Operation} {sys : System} {t : VerificationType}
    {r : ProjectRoot.Storage} {v : Verification.Storage} {s : Security.Storage t}
    (hrun : Transition.Run Genesis (Step p) ops sys)
    (hroot : sys.world.contracts a = some (.projectRoot r))
    (hverification : sys.world.contracts r.verificationContract = some (.verification t v))
    (hsecurity : sys.world.contracts v.securityContract = some (.security t s)) :
    ∃ s₀ : Security.Storage t, Operation.deploy v.securityContract (.security t s₀) ∈ ops ∧
      ∀ d ∈ r.handlers, ∃ inst, sys.world.contracts d = some inst ∧
        inst.shape.Reports r.verificationContract ∧
          ∀ h, inst = .handler t h →
            s.threshold =
                thresholdAfter s₀.threshold (callsOf v.securityContract sys.world.journal) ∧
              ∀ eventId payload, h.getPayload eventId = some payload →
                ∃ before inv bytes sigData keys, Submitted p t d v.securityContract s₀.threshold
                  sys.world.journal eventId payload before inv bytes sigData keys := by
  have hreach : Reachable p sys := ⟨ops, hrun⟩
  obtain ⟨s₀, hdeploy, hsubmitted⟩ := exists_submitted hrun hsecurity
  refine ⟨s₀, hdeploy, fun d hd => ?_⟩
  obtain ⟨shape, hshape, hreports⟩ := hreach.tracks a r hroot d hd
  obtain ⟨inst, hinst, rfl⟩ := Option.map_eq_some_iff.mp hshape
  refine ⟨inst, hinst, hreports, ?_⟩
  rintro h rfl
  have hlink : h.verificationContract = r.verificationContract := hreports
  have hproject : Project sys.world t d h v.securityContract :=
    ⟨hinst, v, by rw [hlink, hverification], rfl⟩
  exact hsubmitted d h hproject

/-! ## A run

Two ProjectRoots are deployed over the sample project.  The administrator of the first has
it track the handler and the other ProjectRoot, and the bundle is submitted. -/

section Sample

def trackingRoot : ProjectRoot.Storage :=
  ProjectRoot.construct Sample.zeroHash ⟨0⟩ ⟨1⟩ ⟨2⟩ "spec" .stellar

def rootWorld : World where
  contracts := Function.update (Function.update projectWorld.contracts
    ⟨5⟩ (some (.projectRoot trackingRoot))) ⟨6⟩ (some (.projectRoot trackingRoot))
  journal := projectWorld.journal

def tracking : System :=
  ((System.after Sample.platform ⟨rootWorld, 11⟩ (signedByAdmin 12) ⟨5⟩
    (.registerHandler ⟨3⟩)).after Sample.platform (signedByAdmin 13) ⟨5⟩
    (.registerHandler ⟨6⟩)).after Sample.platform (unsignedAt 110) ⟨3⟩
    (submission .stellar Sample.envelopeBytes bundle)

def trackingOps : List Operation := projectOps ++ [
  .deploy ⟨5⟩ (.projectRoot trackingRoot),
  .deploy ⟨6⟩ (.projectRoot trackingRoot),
  .transact (signedByAdmin 12) ⟨5⟩ (.registerHandler ⟨3⟩),
  .transact (signedByAdmin 13) ⟨5⟩ (.registerHandler ⟨6⟩),
  sampleSubmission]

theorem tracking_run : Transition.Run Genesis (Step Sample.platform) trackingOps tracking := by
  have hroot := projectWorld_run.snoc (.deploy _ ⟨5⟩ (.projectRoot trackingRoot) rfl
    ⟨_, _, _, _, _, _, rfl⟩)
  have hother := hroot.snoc (.deploy _ ⟨6⟩ (.projectRoot trackingRoot) rfl
    ⟨_, _, _, _, _, _, rfl⟩)
  have hhandler := hother.snoc (.transact _ (signedByAdmin 12) ⟨5⟩ (.registerHandler ⟨3⟩)
    (by decide : 11 ≤ 12))
  have hboth := hhandler.snoc (.transact _ (signedByAdmin 13) ⟨5⟩ (.registerHandler ⟨6⟩)
    (by decide : 12 ≤ 13))
  exact hboth.snoc (.transact _ (unsignedAt 110) ⟨3⟩
    (submission .stellar Sample.envelopeBytes bundle) (by decide : 13 ≤ 110))

set_option maxRecDepth 20000 in
theorem tracking_contracts :
    tracking.world.contracts ⟨1⟩ = some (.security .stellar twoSignersState) ∧
      tracking.world.contracts ⟨2⟩ =
        some (.verification .stellar (Verification.construct Sample.zeroHash ⟨0⟩ ⟨1⟩)) ∧
      tracking.world.contracts ⟨3⟩ = some (.handler .stellar sampleState) ∧
      tracking.world.contracts ⟨5⟩ =
        some (.projectRoot ((trackingRoot.track ⟨3⟩).track ⟨6⟩)) := by
  refine ⟨?_, ?_, ?_, ?_⟩
  all_goals with_unfolding_all rfl

/-- Both are tracked; the handler is attested, and both report the Verification contract. -/
theorem tracked_handlers_attested_sample :
    (∃ inst, tracking.world.contracts ⟨6⟩ = some inst ∧ inst.shape.Reports ⟨2⟩) ∧
    ∃ (before : List Invocation) (inv : Invocation) (bytes : Bytes) (sigData : SignatureData)
      (keys : List Ed25519PubKey),
      Submitted Sample.platform .stellar ⟨3⟩ ⟨1⟩ sampleDeployment.threshold
        tracking.world.journal Sample.envelope.eventId Sample.payload before inv bytes sigData
        keys := by
  obtain ⟨hsecurity, hverification, hhandler, hroot⟩ := tracking_contracts
  have hrun := tracking_run
  generalize tracking = sys at hrun hsecurity hverification hhandler hroot ⊢
  obtain ⟨s₀, hdeploy, htracked⟩ := tracked_handlers_attested (t := .stellar) hrun hroot
    hverification hsecurity
  obtain rfl : s₀ = sampleDeployment := by
    simpa [trackingOps, projectOps, deployOps, sampleSubmission, Verification.construct]
      using hdeploy
  have hboth : ((trackingRoot.track ⟨3⟩).track ⟨6⟩).handlers = [⟨3⟩, ⟨6⟩] := rfl
  rw [hboth] at htracked
  obtain ⟨other, hother, hreports, -⟩ := htracked ⟨6⟩ (by simp)
  obtain ⟨inst, hinst, -, hevents⟩ := htracked ⟨3⟩ (by simp)
  obtain rfl : .handler .stellar sampleState = inst := by
    rw [hhandler] at hinst
    exact Option.some.inj hinst
  exact ⟨⟨other, hother, hreports⟩, (hevents sampleState rfl).2 _ _ sampleState_payload⟩

end Sample

end WarpDrive
