import WarpDrive.Deployer.Rehearsal

/-!
# Interrupted deployments

A history of `deploy` runs, each stopped or failed at any point, each with mishaps of any
kind, while nobody else touches the contracts.  The manifest on disk is good at every
point (`OnDisk`), so the next run goes on from there; and after a run that returned the
site is settled, so the next run does nothing.
-/

namespace WarpDrive.Deployer

open Interaction

/-- The filled slots are a prefix of security, verification and project_root; each names a
contract of the deployer that was constructed on the ones before. -/
def Recorded (m : StellarDeployManifest) (s : Site) : Prop :=
  Linked m s (fun _ => True) fun _ => True

/-- Anything of the deployer's own may go wrong. -/
def interrupted : Circumstances :=
  ⟨True, False⟩

/-- Nothing goes wrong. -/
def undisturbed : Circumstances :=
  ⟨False, False⟩

/-- A run of `deploy`, as far as it went. -/
structure DeployRun where
  net : NetworkConfig
  params : DeployParams
  cfg : RetryConfig
  trace : List Action
  outcome : Outcome DeployerError StellarDeployManifest

section

variable (p : Platform) (texts : Texts) (account : Address) (kind : Variant → Prop)
  (manifestPath : String)

/-- The runs of the variants `kind`. -/
def Deploys (c : Circumstances) (s : Site) (run : DeployRun) (s' : Site) : Prop :=
  kind run.params.variant ∧ (setting p account c).Runs
    (deployPipeline texts run.net account run.params manifestPath run.cfg) s run.trace
    run.outcome s'

/-- Nothing has been deployed yet. -/
def NoManifest (s : Site) : Prop :=
  s.manifest = none ∧ s.created = []

end

section

variable {p : Platform} {texts : Texts} {account : Address} {kind : Variant → Prop}
  {manifestPath : String} {c : Circumstances} {s s' : Site} {run : DeployRun}
  {m : StellarDeployManifest} {bytes : Bytes}

theorem Custody.recorded (h : Custody account m s) : Recorded m s where
  tidy := h.tidy
  security a ha := (h.security a ha).mono fun _ _ => trivial
  verification a ha := by
    obtain ⟨sec, hsec, hhas⟩ := h.verification a ha
    exact ⟨sec, hsec, hhas.mono fun _ _ => trivial⟩
  projectRoot a ha := by
    obtain ⟨sec, ver, hsec, hver, hhas⟩ := h.projectRoot a ha
    exact ⟨sec, ver, hsec, hver, hhas.mono fun _ _ => trivial⟩

/-- What a run does, from wherever earlier runs stopped. -/
theorem Deploys.sound (h : Deploys p texts account kind manifestPath c s run s')
    (honly : c.mishaps ∨ ∀ v, kind v → v = run.params.variant)
    (hs : OnDisk texts account kind s) : OnDisk texts account kind s' ∧
      (∀ m, run.outcome = .returned m → Adopted m s' ∧ ∃ bytes m',
        Settled texts account bytes m' s' ∧ m'.variant = m.variant ∧
          m'.contracts = m.contracts) ∧
      ∀ e, run.outcome = .failed e → c.mishaps ∨ ¬Feasible texts run.params s := by
  obtain ⟨hdisk, -, hreturned, hfailed⟩ := h.2.sound stable_onDisk
    (deployPipeline_triple (fun _ => trivial) h.1 rfl honly s ⟨hs, id⟩) hs
  refine ⟨hdisk, fun m hm => ?_, fun e he => ?_⟩
  · obtain ⟨w, ⟨⟨sec, ver, root, hcomplete⟩, hdraft, hadopted⟩, hothers⟩ := hreturned m hm
    have hkept : (setting p account c).Stable fun s =>
        (Draft texts account kind run.params.variant m s ∧ Adopted m s) := by
      rintro s s' hothers ⟨hdraft, hadopted⟩
      exact ⟨stable_draft s s' hothers hdraft,
        hadopted.step hdraft.custody (others_progress hdraft.custody hothers)⟩
    obtain ⟨hdraft', hadopted'⟩ := hkept.star hothers ⟨hdraft, hadopted⟩
    exact ⟨hadopted', hdraft'.settled hcomplete hadopted'⟩
  · obtain ⟨_, herror, -⟩ := hfailed e he
    exact herror

/-- A run on a settled site. -/
theorem Deploys.settled (h : Deploys p texts account kind manifestPath c s run s')
    (hvariant : c.mishaps ∨ m.variant = run.params.variant)
    (hs : Settled texts account bytes m s) :
    Settled texts account bytes m s' ∧ ∀ i ∈ run.trace, i.observes = true := by
  obtain ⟨hsettled, htrace, -⟩ := h.2.sound stable_settled
    (settled_deployPipeline_triple hvariant s hs) hs
  exact ⟨hsettled, htrace⟩

end

/-- What any history of interrupted runs leaves. -/
theorem history_sound {p : Platform} {texts : Texts} {account : Address} {kind : Variant → Prop}
    {manifestPath : String} {runs : List DeployRun} {s : Site}
    (hrun : Transition.Run NoManifest (Deploys p texts account kind manifestPath interrupted)
      runs s) :
    OnDisk texts account kind s ∧ ((∃ run ∈ runs, ∃ m, run.outcome = .returned m) →
      ∃ bytes m, Settled texts account bytes m s) := by
  refine Transition.Run.induction (motive := fun runs s => OnDisk texts account kind s ∧
    ((∃ run ∈ runs, ∃ m, run.outcome = .returned m) →
      ∃ bytes m, Settled texts account bytes m s)) ?_ ?_ hrun
  · rintro s ⟨hfile, -⟩
    refine ⟨fun bytes hbytes => ?_, fun ⟨run, hmem, _⟩ => nomatch hmem⟩
    rw [hfile] at hbytes
    cases hbytes
  · rintro runs s run s' - ⟨hdisk, hsettled⟩ hstep
    obtain ⟨hdisk', hreturned, -⟩ := hstep.sound (.inl trivial) hdisk
    refine ⟨hdisk', ?_⟩
    rintro ⟨earlier, hmem, m, hm⟩
    rcases List.mem_append.mp hmem with hmem | hmem
    · obtain ⟨bytes, m', hm'⟩ := hsettled ⟨earlier, hmem, m, hm⟩
      exact ⟨bytes, m', (hstep.settled (.inl trivial) hm').1⟩
    · rw [List.mem_singleton.mp hmem] at hm
      obtain ⟨-, bytes, m', hm', -⟩ := hreturned m hm
      exact ⟨bytes, m', hm'⟩

/-- A deployment that was interrupted, any number of times and anywhere, can be resumed.
The manifest on disk is good; a run that returns has adopted the downstream contracts; a
run in which nothing goes wrong returns; and after a run that returned, a run creates
nothing, sends nothing and writes nothing. -/
theorem deployment_resumes (p : Platform) (texts : Texts) (account : Address)
    (variant : Variant) (manifestPath : String) {runs : List DeployRun} {s : Site}
    (hrun : Transition.Run NoManifest
      (Deploys p texts account (· = variant) manifestPath interrupted) runs s) :
    (∀ bytes, s.manifest = some bytes →
      ∃ m, texts.fromSlice bytes = some m ∧ m.variant = variant ∧ Recorded m s) ∧
    (∀ run s' m, Deploys p texts account (· = variant) manifestPath interrupted s run s' →
      run.outcome = .returned m → Adopted m s' ∧ ∃ bytes m', s'.manifest = some bytes ∧
        texts.fromSlice bytes = some m' ∧ m'.variant = m.variant ∧ m'.contracts = m.contracts) ∧
    (∀ net params cfg, params.variant = variant → Feasible texts params s →
      (∀ trace outcome s', Deploys p texts account (· = variant) manifestPath undisturbed s
        ⟨net, params, cfg, trace, outcome⟩ s' → outcome ≠ .stopped →
          ∃ m, outcome = .returned m ∧ Adopted m s') ∧
      (HasRoom s → ∃ trace outcome s', Deploys p texts account (· = variant) manifestPath
        undisturbed s ⟨net, params, cfg, trace, outcome⟩ s' ∧ outcome ≠ .stopped)) ∧
    ((∃ run ∈ runs, ∃ m, run.outcome = .returned m) →
      ∀ run s', Deploys p texts account (· = variant) manifestPath interrupted s run s' →
        (∀ i ∈ run.trace, i.observes = true) ∧ s'.manifest = s.manifest) := by
  obtain ⟨hdisk, hsettled⟩ := history_sound hrun
  refine ⟨fun bytes hbytes => ?_, fun run s' m hstep hm => ?_,
    fun net params cfg hvariant hfeasible => ⟨fun trace outcome s' hstep hended => ?_,
      fun hroom => ?_⟩, fun hreturned run s' hstep => ?_⟩
  · obtain ⟨m, hparse, -, hvariant, hcustody⟩ := hdisk bytes hbytes
    exact ⟨m, hparse, hvariant, hcustody.recorded⟩
  · obtain ⟨hadopted, bytes, m', hm', hvariant, hcontracts⟩ :=
      (hstep.sound (.inl trivial) hdisk).2.1 m hm
    exact ⟨hadopted, bytes, m', hm'.file, hm'.parse, hvariant, hcontracts⟩
  · have honly : ∀ v, v = variant → v = params.variant := fun v hv => hv.trans hvariant.symm
    obtain ⟨-, hreturned, hfailed⟩ := hstep.sound (.inr honly) hdisk
    cases outcome with
    | returned m => exact ⟨m, rfl, (hreturned m rfl).1⟩
    | failed e =>
        obtain hmishaps | hrefused := hfailed e rfl
        · exact hmishaps.elim
        · exact absurd hfeasible hrefused
    | stopped => exact absurd rfl hended
  · have hanswered : ∀ s i, HasRoom s →
        ∃ r s', (setting p account undisturbed).acts s i r s' ∧ HasRoom s' := by
      intro s i hs
      obtain ⟨r, s', hperforms, hs'⟩ := exists_performs p account hs i
      exact ⟨r, s', .inl hperforms, hs'⟩
    obtain ⟨trace, outcome, s', hruns, hended⟩ := Setting.exists_run hanswered
      (deployPipeline texts net account params manifestPath cfg) hroom
    exact ⟨trace, outcome, s', ⟨hvariant, hruns⟩, hended⟩
  · obtain ⟨bytes, m, hm⟩ := hsettled hreturned
    obtain ⟨hm', htrace⟩ := hstep.settled (.inl trivial) hm
    exact ⟨htrace, hm'.file.trans hm.file.symm⟩

namespace Fixture

/-- A run that stopped when the verification contract was created, but not recorded. -/
theorem interrupted_runs (p : Platform) : ∃ trace, (setting p account interrupted).Runs
    (deployPipeline texts net account params "deploy.json" cfg) start trace .stopped
    (afterSecurity.deploy verification verificationInstance) := by
  have hconstruct : (Deployment.security .stellar account 2 3).construct wasm =
      some securityInstance := rfl
  obtain ⟨trace, hsecurity⟩ : ∃ trace, (setting p account interrupted).Runs
      (deploySecurity texts account params cfg (blank texts net account params)) start trace
      (.returned (manifest none none, security)) afterSecurity :=
    deploySecurity_runs (blank_empty texts net account params).1 hconstruct rfl
  have hverification : (setting p account interrupted).Runs
      (deployVerification texts account params cfg (manifest none none) security) afterSecurity
      _ .stopped (afterSecurity.deploy verification verificationInstance) :=
    (deployOne_runs rfl rfl).bind (.stop _ _)
  exact ⟨_, .bind_stopped ((resume_runs rfl).bind (hsecurity.bind hverification.bind_stopped))⟩

theorem start_noManifest : NoManifest start :=
  ⟨rfl, rfl⟩

theorem start_hasRoom : HasRoom start :=
  fun n => ⟨⟨n⟩, le_rfl, rfl⟩

end Fixture

open Fixture in
theorem deployment_resumes_sample : ∃ trace s, Transition.Run NoManifest
    (Deploys Sample.platform texts account (· = .stellar) "deploy.json" interrupted)
    [⟨net, params, cfg, trace, .stopped⟩] s ∧
      s.created = [security, verification] ∧
      s.manifest = some (texts.toStringPretty (manifest none none) ++ [10]) ∧
      ∃ trace m s', Deploys Sample.platform texts account (· = .stellar) "deploy.json"
        undisturbed s ⟨net, params, cfg, trace, .returned m⟩ s' ∧ Adopted m s' := by
  obtain ⟨trace, hruns⟩ := interrupted_runs Sample.platform
  have hrun : Transition.Run NoManifest
      (Deploys Sample.platform texts account (· = .stellar) "deploy.json" interrupted)
      [⟨net, params, cfg, trace, .stopped⟩]
      (afterSecurity.deploy verification verificationInstance) :=
    (Transition.Run.start start_noManifest).snoc ⟨rfl, hruns⟩
  have hroom : HasRoom (afterSecurity.deploy verification verificationInstance) :=
    HasRoom.deploy (s := afterSecurity) (start_hasRoom.deploy security securityInstance) _ _
  obtain ⟨-, -, hresume, -⟩ := deployment_resumes _ _ _ _ _ hrun
  obtain ⟨hcomplete, hexists⟩ := hresume net params cfg rfl (.inl ⟨by decide, by decide⟩)
  obtain ⟨trace', outcome, s', hstep, hended⟩ := hexists hroom
  obtain ⟨m, rfl, hadopted⟩ := hcomplete trace' outcome s' hstep hended
  exact ⟨trace, _, hrun, rfl, rfl, trace', m, s', hstep, hadopted⟩

end WarpDrive.Deployer
