import WarpDrive.Deployer.Belonging
import WarpDrive.Deployer.Resume

/-!
# One manifest, several networks

A deployment runs on the network that its configuration names, and the manifest records
the name.  `resume` compares the variant and the admin of the manifest on disk with its
own, but not the network: it takes the contracts over and overwrites the name.

So the contracts of a manifest are contracts of the network that it records, and no
contract is constructed on one of another network, as long as each run that finds a
manifest is on the network that is recorded there (`manifest_on_network`).  One run on
another network is enough to break both (`foreign_recorded`).
-/

namespace WarpDrive.Deployer

open Interaction Relation

/-! ## Histories over networks -/

/-- A network, with the contracts that the deployer created there. -/
structure Chain where
  system : System
  created : List Address

/-- All networks, by their passphrases, and the files of the deployer. -/
structure Networks where
  chains : String → Chain
  manifest : Option Bytes
  scratch : Option Bytes

namespace Networks

/-- What a run on one network sees. -/
def site (w : Networks) (passphrase : String) : Site where
  system := (w.chains passphrase).system
  manifest := w.manifest
  scratch := w.scratch
  created := (w.chains passphrase).created

def put (w : Networks) (passphrase : String) (s : Site) : Networks where
  chains := Function.update w.chains passphrase ⟨s.system, s.created⟩
  manifest := s.manifest
  scratch := s.scratch

theorem site_put (w : Networks) (passphrase : String) (s : Site) :
    (w.put passphrase s).site passphrase = s := by
  simp only [site, put, Function.update_self]

theorem chains_put_of_ne (w : Networks) {passphrase passphrase' : String} (s : Site)
    (h : passphrase' ≠ passphrase) :
    (w.put passphrase s).chains passphrase' = w.chains passphrase' :=
  Function.update_of_ne h ..

end Networks

section Histories

variable (p : Platform) (texts : Texts) (account : Address) (kind : Variant → Prop)
  (manifestPath : String) (c : Circumstances)

/-- A run of `deploy` on its network, while the others go on without it. -/
structure DeploysOn (w : Networks) (run : DeployRun) (w' : Networks) : Prop where
  deploys : Deploys p texts account kind manifestPath c (w.site run.net.networkPassphrase) run
    (w'.site run.net.networkPassphrase)
  elsewhere : ∀ passphrase, passphrase ≠ run.net.networkPassphrase →
    ∃ s, ReflTransGen (setting p account c).others (w.site passphrase) s ∧
      w'.chains passphrase = ⟨s.system, s.created⟩

/-- The run finds no manifest, or one that records its network. -/
def OnRecorded (w : Networks) (run : DeployRun) : Prop :=
  ∀ bytes m, w.manifest = some bytes → texts.fromSlice bytes = some m →
    m.networkPassphrase = some run.net.networkPassphrase

def DeploysOnRecorded (w : Networks) (run : DeployRun) (w' : Networks) : Prop :=
  DeploysOn p texts account kind manifestPath c w run w' ∧ OnRecorded texts w run

/-- Nothing has been deployed yet, on any network. -/
def NothingDeployed (w : Networks) : Prop :=
  w.manifest = none ∧ ∀ passphrase, (w.chains passphrase).created = []

/-- The contracts in the manifest were created on the network that it records, and no
contract was constructed on one of another network. -/
structure Belongs (w : Networks) : Prop where
  recorded : ∀ bytes, w.manifest = some bytes → ∃ m passphrase,
    texts.fromSlice bytes = some m ∧ m.networkPassphrase = some passphrase ∧
      Created m (w.site passphrase)
  wired : ∀ passphrase, (w.site passphrase).Wired

/-- The manifest on disk is of another variant or another admin. -/
def Mismatched (w : Networks) (run : DeployRun) : Prop :=
  ∃ bytes m, w.manifest = some bytes ∧ texts.fromSlice bytes = some m ∧
    (m.variant ≠ run.params.variant ∨ m.admin ≠ texts.ofAddress account)

end Histories

/-- The run looked at the manifest, and did nothing else. -/
structure Refused (w : Networks) (run : DeployRun) (w' : Networks) : Prop where
  reads : ∀ i ∈ run.trace, i = .read
  fails : ∀ m, run.outcome ≠ .returned m
  manifest : w'.manifest = w.manifest

section

variable {p : Platform} {texts : Texts} {account : Address} {kind : Variant → Prop}
  {manifestPath : String} {c : Circumstances} {w w' : Networks} {run : DeployRun}

/-- A run on the network that the manifest records, or without a manifest. -/
theorem DeploysOnRecorded.belongs
    (h : DeploysOnRecorded p texts account kind manifestPath c w run w') (hw : Belongs texts w) :
    Belongs texts w' := by
  obtain ⟨⟨hdeploys, helsewhere⟩, hnetwork⟩ := h
  have hhome : AtHome texts run.net.networkPassphrase (w.site run.net.networkPassphrase) := by
    refine ⟨fun bytes hbytes => ?_, hw.wired _⟩
    obtain ⟨m, passphrase, hparse, hrecorded, hcreated⟩ := hw.recorded bytes hbytes
    have hsame : m.networkPassphrase = some run.net.networkPassphrase :=
      hnetwork bytes m hbytes hparse
    obtain rfl : passphrase = run.net.networkPassphrase :=
      Option.some.inj (hrecorded.symm.trans hsame)
    exact ⟨m, hparse, hsame, hcreated⟩
  obtain ⟨hhome', -⟩ := hdeploys.2.sound stable_atHome
    (deployPipeline_bound_triple rfl _ hhome) hhome
  refine ⟨fun bytes hbytes => ?_, fun passphrase => ?_⟩
  · obtain ⟨m, hparse, hrecorded, hcreated⟩ := hhome'.recorded bytes hbytes
    exact ⟨m, _, hparse, hrecorded, hcreated⟩
  · by_cases hpassphrase : passphrase = run.net.networkPassphrase
    · rw [hpassphrase]
      exact hhome'.wired
    · obtain ⟨s, hothers, hchain⟩ := helsewhere passphrase hpassphrase
      have hwired : s.Wired := (others_star_same hothers).wired (hw.wired passphrase)
      intro a ha shape hshape b hb
      simp only [Networks.site, hchain] at ha hshape ⊢
      exact hwired a ha shape hshape b hb

theorem DeploysOn.refused (h : DeploysOn p texts account kind manifestPath c w run w')
    (hother : Mismatched texts account w run) : Refused w run w' := by
  obtain ⟨bytes, m, hfile, hparse, hother⟩ := hother
  obtain ⟨hfile', htrace, hreturned, -⟩ := h.deploys.2.sound stable_manifest
    (refused_triple hparse hother _ hfile) hfile
  refine ⟨htrace, fun m hm => ?_, hfile'.trans hfile.symm⟩
  obtain ⟨_, hfalse, -⟩ := hreturned m hm
  exact hfalse

/-- A run while nothing happens on the other networks. -/
theorem DeploysOn.of_put {s : Site} (h : Deploys p texts account kind manifestPath c
    (w.site run.net.networkPassphrase) run s) :
    DeploysOn p texts account kind manifestPath c w run (w.put run.net.networkPassphrase s) where
  deploys := by rwa [Networks.site_put]
  elsewhere passphrase hne := ⟨w.site passphrase, .refl, w.chains_put_of_ne s hne⟩

end

/-- Where each run that finds a manifest is on the network that it records, the manifest
names contracts of its network only, and no contract is constructed on one of another.
A run of another variant or admin is refused. -/
theorem manifest_on_network (p : Platform) (texts : Texts) (account : Address)
    (variant : Variant) (manifestPath : String) (c : Circumstances) {runs : List DeployRun}
    {w : Networks} (hrun : Transition.Run NothingDeployed
      (DeploysOnRecorded p texts account (· = variant) manifestPath c) runs w) :
    Belongs texts w ∧ ∀ account' run w',
      DeploysOn p texts account' (fun _ => True) manifestPath c w run w' →
        Mismatched texts account' w run → Refused w run w' := by
  refine ⟨?_, fun account' run w' hdeploys hother => hdeploys.refused hother⟩
  refine Transition.Run.induction (fun w hw => ⟨fun bytes hbytes => ?_, fun passphrase a ha => ?_⟩)
    (fun runs w run w' _ hw hstep => hstep.belongs hw) hrun
  · rw [hw.1] at hbytes
    cases hbytes
  · have hnone : (w.site passphrase).created = [] := hw.2 passphrase
    rw [hnone] at ha
    cases ha

/-! ## A resume on another network -/

section

variable {p : Platform} {texts : Texts} {account : Address} {c : Circumstances}
  {m : StellarDeployManifest} {params : DeployParams} {manifestPath : String} {bytes : Bytes}
  {s : Site}

/-- A manifest of this variant and admin is resumed, whatever network it records. -/
theorem resume_runs_again (hfile : s.manifest = some bytes)
    (hparse : texts.fromSlice bytes = some m) (hvariant : m.variant = params.variant)
    (hadmin : m.admin = texts.ofAddress account) :
    (setting p account c).Runs (resume texts account params manifestPath) s [.read]
      (.returned m) s := by
  have hload : (setting p account c).Runs (load texts) s [.read] (.returned m) s := by
    refine (performs_runs (i := .read) (r := bytes) ⟨rfl, by rw [hfile]⟩).bind ?_
    rw [hparse]
    exact .ret m s
  have hfound : (setting p account c).Runs (loadIfExists texts) s [.read] (.returned (some m))
      s := (hload.bind (.ret (some m) s)).tryCatch
  refine hfound.bind ?_
  simp only [hvariant, hadmin, ne_eq, not_true, if_false]
  exact .ret m s

end

namespace Fixture

/-- Nothing is deployed on any network. -/
def nowhere : Networks :=
  ⟨fun _ => ⟨start.system, []⟩, none, none⟩

theorem nowhere_nothingDeployed : NothingDeployed nowhere :=
  ⟨rfl, fun _ => rfl⟩

def otherNet : NetworkConfig :=
  ⟨"https://soroban-testnet.stellar.org", "Test SDF Network ; September 2015"⟩

/-- The manifest after a resume on a network. -/
def resumed (net' : NetworkConfig) : StellarDeployManifest :=
  ((manifest none none).onNetwork net').setVerification verification

/-- A run that stopped when the security contract was recorded. -/
theorem first_runs (p : Platform) (c : Circumstances) : ∃ trace, (setting p account c).Runs
    (deployPipeline texts net account params "deploy.json" cfg) start trace .stopped
    afterSecurity := by
  have hconstruct : (Deployment.security .stellar account 2 3).construct wasm =
      some securityInstance := rfl
  obtain ⟨trace, hsecurity⟩ : ∃ trace, (setting p account c).Runs
      (deploySecurity texts account params cfg (blank texts net account params)) start trace
      (.returned (manifest none none, security)) afterSecurity :=
    deploySecurity_runs (blank_empty texts net account params).1 hconstruct rfl
  exact ⟨_, .bind_stopped ((resume_runs rfl).bind (hsecurity.bind (.stop _ _)))⟩

/-- A run on any network that resumed the manifest of the first, and stopped when the
verification contract was recorded. -/
theorem second_runs (p : Platform) (c : Circumstances) (net' : NetworkConfig) {s : Site}
    (hfile : s.manifest = afterSecurity.manifest)
    (hfree : s.system.world.contracts verification = none) :
    ∃ trace, (setting p account c).Runs
      (deployPipeline texts net' account params "deploy.json" cfg) s trace .stopped
      ((s.deploy verification verificationInstance).record texts (resumed net')) := by
  have hconstruct : (Deployment.verification .stellar account security).construct wasm =
      some verificationInstance := rfl
  have hresume : (setting p account c).Runs (resume texts account params "deploy.json") s [.read]
      (.returned (manifest none none)) s :=
    resume_runs_again hfile (texts.fromSlice_toStringPretty _) rfl rfl
  have hsecurity : (setting p account c).Runs
      (deploySecurity texts account params cfg ((manifest none none).onNetwork net')) s []
      (.returned ((manifest none none).onNetwork net', security)) s := .ret _ s
  obtain ⟨trace, hverification⟩ : ∃ trace, (setting p account c).Runs
      (deployVerification texts account params cfg ((manifest none none).onNetwork net') security)
      s trace (.returned (resumed net', verification))
      ((s.deploy verification verificationInstance).record texts (resumed net')) :=
    deployVerification_runs rfl hconstruct hfree
  exact ⟨_, .bind_stopped (hresume.bind (hsecurity.bind (hverification.bind (.stop _ _))))⟩

/-- The networks after the first run. -/
noncomputable def afterFirst : Networks :=
  nowhere.put networkPassphrase afterSecurity

/-- The networks after a second run. -/
noncomputable def afterSecond (net' : NetworkConfig) : Networks :=
  afterFirst.put net'.networkPassphrase
    (((afterFirst.site net'.networkPassphrase).deploy verification verificationInstance).record
      texts (resumed net'))

theorem first_deploysOn (p : Platform) : ∃ trace, DeploysOn p texts account (· = .stellar)
    "deploy.json" undisturbed nowhere ⟨net, params, cfg, trace, .stopped⟩ afterFirst := by
  obtain ⟨trace, hruns⟩ := first_runs p undisturbed
  exact ⟨trace, .of_put ⟨rfl, hruns⟩⟩

theorem second_deploysOn (p : Platform) (net' : NetworkConfig) : ∃ trace,
    DeploysOn p texts account (· = .stellar) "deploy.json" undisturbed afterFirst
      ⟨net', params, cfg, trace, .stopped⟩ (afterSecond net') := by
  have hfree : (afterFirst.site net'.networkPassphrase).system.world.contracts verification =
      none := by
    by_cases hnet : net'.networkPassphrase = networkPassphrase
    · rw [hnet, afterFirst, Networks.site_put]
      rfl
    · have hchain := nowhere.chains_put_of_ne afterSecurity hnet
      show ((nowhere.put networkPassphrase afterSecurity).chains
        net'.networkPassphrase).system.world.contracts verification = none
      rw [hchain]
      rfl
  obtain ⟨trace, hruns⟩ := second_runs p undisturbed net'
    (s := afterFirst.site net'.networkPassphrase) rfl hfree
  exact ⟨trace, .of_put ⟨rfl, hruns⟩⟩

end Fixture

open Fixture in
theorem manifest_on_network_sample : ∃ trace trace' w, Transition.Run NothingDeployed
    (DeploysOnRecorded Sample.platform texts account (· = .stellar) "deploy.json" undisturbed)
    [⟨net, params, cfg, trace, .stopped⟩, ⟨net, params, cfg, trace', .stopped⟩] w ∧
      w.manifest = some (texts.toStringPretty (resumed net) ++ [10]) ∧ Belongs texts w := by
  obtain ⟨trace, hfirst⟩ := first_deploysOn Sample.platform
  obtain ⟨trace', hsecond⟩ := second_deploysOn Sample.platform net
  have hnone : OnRecorded texts nowhere ⟨net, params, cfg, trace, .stopped⟩ := by
    intro bytes m hbytes
    cases hbytes
  have hrecorded : OnRecorded texts afterFirst ⟨net, params, cfg, trace', .stopped⟩ := by
    intro bytes m hbytes hparse
    obtain rfl : texts.toStringPretty (manifest none none) ++ [10] = bytes :=
      Option.some.inj hbytes
    rw [texts.fromSlice_toStringPretty] at hparse
    cases hparse
    rfl
  have hrun : Transition.Run NothingDeployed
      (DeploysOnRecorded Sample.platform texts account (· = .stellar) "deploy.json" undisturbed)
      [⟨net, params, cfg, trace, .stopped⟩, ⟨net, params, cfg, trace', .stopped⟩]
      (afterSecond net) :=
    ((Transition.Run.start nowhere_nothingDeployed).snoc ⟨hfirst, hnone⟩).snoc
      ⟨hsecond, hrecorded⟩
  exact ⟨trace, trace', _, hrun, rfl, (manifest_on_network _ _ _ _ _ _ hrun).1⟩

open Fixture in
/-- A run that stopped when the security contract was recorded, and a resume on another
network: it is not refused, the manifest records that network with the security contract of
the first, and the verification contract is constructed on it. -/
theorem foreign_recorded : ∃ trace trace' w, Transition.Run NothingDeployed
    (DeploysOn Sample.platform texts account (· = .stellar) "deploy.json" undisturbed)
    [⟨net, params, cfg, trace, .stopped⟩, ⟨otherNet, params, cfg, trace', .stopped⟩] w ∧
      w.manifest = some (texts.toStringPretty (resumed otherNet) ++ [10]) ∧
      (resumed otherNet).networkPassphrase = some otherNet.networkPassphrase ∧
      (resumed otherNet).security = some security ∧
      (w.chains otherNet.networkPassphrase).created = [verification] ∧
      (w.chains otherNet.networkPassphrase).system.world.shape verification =
        some (.verification .stellar security) ∧
      ¬Belongs texts w ∧ ¬Refused afterFirst ⟨otherNet, params, cfg, trace', .stopped⟩ w := by
  obtain ⟨trace, hfirst⟩ := first_deploysOn Sample.platform
  obtain ⟨trace', hsecond⟩ := second_deploysOn Sample.platform otherNet
  have hne : otherNet.networkPassphrase ≠ networkPassphrase := by decide
  have hrun := ((Transition.Run.start nowhere_nothingDeployed).snoc hfirst).snoc hsecond
  have hbefore : afterFirst.chains otherNet.networkPassphrase = ⟨start.system, []⟩ :=
    nowhere.chains_put_of_ne afterSecurity hne
  have hsite : (afterSecond otherNet).site otherNet.networkPassphrase =
      ((afterFirst.site otherNet.networkPassphrase).deploy verification
        verificationInstance).record texts (resumed otherNet) := Networks.site_put ..
  have hcreated : ((afterSecond otherNet).chains otherNet.networkPassphrase).created =
      [verification] := by
    have hnew := congrArg Site.created hsite
    simp only [Site.record, Site.deploy, Networks.site, hbefore] at hnew
    exact hnew
  have hshape : ((afterSecond otherNet).chains otherNet.networkPassphrase).system.world.shape
      verification = some (.verification .stellar security) := by
    have hnew := congrArg (fun s => s.system.world.shape verification) hsite
    simp only [Site.record, Site.deploy, Networks.site, World.shape, Function.update_self] at hnew
    exact hnew
  refine ⟨trace, trace', _, hrun, rfl, rfl, rfl, hcreated, hshape, fun hbelongs => ?_,
    fun hrefused => ?_⟩
  · have hlink : security ∈ ((afterSecond otherNet).chains otherNet.networkPassphrase).created :=
      hbelongs.wired otherNet.networkPassphrase verification
        (by rw [Networks.site, hcreated]; simp) _ hshape security List.mem_cons_self
    rw [hcreated] at hlink
    exact absurd hlink (by decide)
  · -- the manifest on disk is another one now
    have hfile : texts.toStringPretty (resumed otherNet) ++ [10] =
        texts.toStringPretty (manifest none none) ++ [10] := Option.some.inj hrefused.manifest
    have hparse := texts.fromSlice_toStringPretty (resumed otherNet)
    rw [hfile, texts.fromSlice_toStringPretty] at hparse
    have hverification := congrArg (fun m => m.map StellarDeployManifest.verification) hparse
    exact absurd hverification (by decide)

end WarpDrive.Deployer
