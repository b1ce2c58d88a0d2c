import WarpDrive.Deployer.Pipeline

/-!
# Commands to which nothing happens

The runs of the deployer's commands in which no action fails and nobody else acts, each
with the site that it leaves: the three steps of `deploy_pipeline` that fill the slots of
the manifest, the adoption of the downstream contracts, and the handover with the
acceptance by the owner.  One deployment runs through the three steps from an empty
directory.
-/

namespace WarpDrive.Deployer

open Interaction StellarDeployManifest

/-- The site after the manifest was written. -/
def Site.record (s : Site) (texts : Texts) (m : StellarDeployManifest) : Site :=
  { s with
    manifest := some (texts.toStringPretty m ++ [10])
    scratch := none }

/-- The actions of `persist`. -/
def persistActions (texts : Texts) (m : StellarDeployManifest) : List Action :=
  [.createDirAll, .createTmp, .writeAll (texts.toStringPretty m), .writeAll [10], .syncAll,
    .rename]

section

variable {p : Platform} {texts : Texts} {account : Address} {c : Circumstances}
  {m : StellarDeployManifest} {cfg : RetryConfig} {params : DeployParams} {net : NetworkConfig}
  {manifestPath : String} {s s' : Site} {a : Address}

theorem performs_runs {i : Action} {r : i.Response} (h : Performs p account s i (.ok r) s') :
    (setting p account c).Runs (Script.perform i) s [i] (.returned r) s' :=
  .perform (.inl h)

theorem persist_runs : (setting p account c).Runs (persist texts m) s (persistActions texts m)
    (.returned ()) (s.record texts m) := by
  refine (performs_runs (i := .createDirAll) ⟨rfl, rfl⟩).bind ?_
  refine (performs_runs (i := .createTmp) ⟨rfl, rfl⟩).bind ?_
  apply (performs_runs (performs_writeAll rfl)).bind
  apply (performs_runs (performs_writeAll rfl)).bind
  refine (performs_runs (i := .syncAll) ⟨rfl, rfl⟩).bind ?_
  exact performs_runs (performs_rename rfl)

theorem deployOne_runs {d : Deployment} {wasm : BytesN 32} {inst : Instance}
    (hinst : d.construct wasm = some inst) (hfree : s.system.world.contracts a = none) :
    (setting p account c).Runs (deployOne cfg d) s [.create d] (.returned a) (s.deploy a inst) :=
  (performs_runs (performs_create hinst hfree)).retry.bind (.ret a _)

/-- A step with an empty slot. -/
theorem fill_runs {β : Type} {d : Deployment} {wasm : BytesN 32} {inst : Instance}
    {next : Address → StellarDeployManifest} {result : Address → β}
    (hinst : d.construct wasm = some inst) (hfree : s.system.world.contracts a = none) :
    (setting p account c).Runs
      (do
        let a ← deployOne cfg d
        persist texts (next a)
        pure (result a))
      s (.create d :: persistActions texts (next a)) (.returned (result a))
      ((s.deploy a inst).record texts (next a)) :=
  (deployOne_runs hinst hfree).bind (persist_runs.bind (.ret _ _))

/-- The manifest of a deployment that has just begun. -/
def blank (texts : Texts) (net : NetworkConfig) (account : Address) (params : DeployParams) :
    StellarDeployManifest :=
  (StellarDeployManifest.new (texts.ofAddress account) params.variant).onNetwork net

theorem resume_runs (hfile : s.manifest = none) :
    (setting p account c).Runs (resume texts account params manifestPath) s [.read]
      (.returned (.new (texts.ofAddress account) params.variant)) s := by
  have hread : Performs p account s .read (.error (.io .notFound)) s :=
    ⟨rfl, by rw [hfile]⟩
  exact .act (.inl hread) (.ret _ s)

theorem deploySecurity_runs {wasm : BytesN 32} {inst : Instance} (hnone : m.security = none)
    (hinst : (Deployment.security params.variant account params.threshold.1
      params.threshold.2).construct wasm = some inst)
    (hfree : s.system.world.contracts a = none) :
    ∃ trace, (setting p account c).Runs (deploySecurity texts account params cfg m) s trace
      (.returned (m.setSecurity a, a)) ((s.deploy a inst).record texts (m.setSecurity a)) := by
  unfold deploySecurity
  rw [hnone]
  exact ⟨_, fill_runs hinst hfree⟩

theorem deployVerification_runs {wasm : BytesN 32} {inst : Instance} {sec : Address}
    (hnone : m.verification = none)
    (hinst : (Deployment.verification params.variant account sec).construct wasm = some inst)
    (hfree : s.system.world.contracts a = none) :
    ∃ trace, (setting p account c).Runs (deployVerification texts account params cfg m sec) s
      trace (.returned (m.setVerification a, a))
      ((s.deploy a inst).record texts (m.setVerification a)) := by
  unfold deployVerification
  rw [hnone]
  exact ⟨_, fill_runs hinst hfree⟩

theorem deployProjectRoot_runs {wasm : BytesN 32} {inst : Instance} {sec ver : Address}
    (hnone : m.projectRoot = none)
    (hinst : (Deployment.projectRoot account sec ver params.projectSpecRepo
      params.verificationType).construct wasm = some inst)
    (hfree : s.system.world.contracts a = none) :
    ∃ trace, (setting p account c).Runs (deployProjectRoot texts account params cfg m sec ver) s
      trace (.returned (m.setProjectRoot a))
      ((s.deploy a inst).record texts (m.setProjectRoot a)) := by
  unfold deployProjectRoot
  rw [hnone]
  exact ⟨_, fill_runs hinst hfree⟩

theorem blank_empty (texts : Texts) (net : NetworkConfig) (account : Address)
    (params : DeployParams) : (blank texts net account params).security = none ∧
      (blank texts net account params).verification = none ∧
      (blank texts net account params).projectRoot = none := by
  unfold blank onNetwork StellarDeployManifest.security StellarDeployManifest.verification
  cases params.variant <;> exact ⟨rfl, rfl, rfl⟩

end

/-! ## The adoption and the handover -/

section

variable {p : Platform} {texts : Texts} {account : Address} {c : Circumstances}
  {m : StellarDeployManifest} {cfg : RetryConfig} {s : Site} {sec ver root d : Address}
  {t : Target} {shape : Shape} {o : Transfer.Office Address}

theorem admin_runs (hlisting : s.listing d = some ⟨shape, o⟩) :
    (setting p account c).Runs (admin d) s [.query d .admin] (.returned o.holder) s := by
  obtain ⟨tx, -, htx⟩ := exists_signs account s.system.ledger d .admin
  have hreply : (invoke p tx (99 + 1) [] d .admin s.system.world).1 = _ :=
    invoke_admin List.not_mem_nil hlisting
  exact (performs_runs (performs_query htx hreply)).bind (.ret _ s)

theorem pendingAdmin_runs (hlisting : s.listing d = some ⟨shape, o⟩) :
    (setting p account c).Runs (pendingAdmin d) s [.query d .pendingAdmin]
      (.returned o.candidate) s := by
  obtain ⟨tx, -, htx⟩ := exists_signs account s.system.ledger d .pendingAdmin
  have hreply : (invoke p tx (99 + 1) [] d .pendingAdmin s.system.world).1 = _ :=
    invoke_pendingAdmin List.not_mem_nil hlisting
  exact (performs_runs (performs_query htx hreply)).bind (.ret _ s)

/-- The deployer proposes a new admin of a contract that it holds. -/
theorem proposeAdmin_runs (cfg : RetryConfig) {text : String} {newAdmin : Address}
    (htext : texts.toAddress? text = some newAdmin) (hbuild : build m t = pure d)
    (hlisting : s.listing d = some ⟨shape, o⟩) (hholder : o.holder = account) :
    ∃ s', (setting p account c).Runs (proposeAdmin texts m cfg t text) s
        [.execute d (.proposeAdmin newAdmin)] (.returned ()) s' ∧ s'.manifest = s.manifest ∧
      s'.listing = Function.update s.listing d (some ⟨shape, account, some newAdmin⟩) := by
  obtain ⟨tx, hledger, htx⟩ :=
    exists_signs account s.system.ledger d (.proposeAdmin newAdmin)
  obtain ⟨hreply, hupdate⟩ :
      (invoke p tx (99 + 1) [] d (.proposeAdmin newAdmin) s.system.world).1 = _ ∧ _ :=
    invoke_proposeAdmin List.not_mem_nil hlisting (htx.authorized_iff.mpr hholder)
  refine ⟨s.transact p tx d (.proposeAdmin newAdmin), ?_, rfl, by rw [← hholder]; exact hupdate⟩
  rw [proposeAdmin, htext]
  apply Setting.Runs.retry
  rw [hbuild, Script.pure_bind]
  exact (performs_runs (performs_execute htx hledger.ge hreply "")).bind (.ret _ _)

section

variable (hm : Complete m sec ver root) (haim : Aim m sec ver t d shape)

include hm haim in
/-- project_root accepts what was proposed to it. -/
theorem acceptContractAdmin_runs (cfg : RetryConfig) {candidate : Option Address}
    (hroot : s.listing root = some ⟨.projectRoot sec ver, account, candidate⟩)
    (hlisting : s.listing d = some ⟨shape, account, some root⟩) :
    ∃ s', (setting p account c).Runs (acceptContractAdmin m cfg t) s
        [.execute root (.acceptContractAdmin d)] (.returned "") s' ∧ s'.manifest = s.manifest ∧
      s'.listing = Function.update s.listing d (some ⟨shape, root, none⟩) := by
  obtain ⟨tx, hledger, htx⟩ :=
    exists_signs account s.system.ledger root (.acceptContractAdmin d)
  have hshape : shape ≠ .projectRoot sec ver := Shape.ne_projectRoot haim.isRoot
  obtain ⟨hreply, hupdate⟩ :
      (invoke p tx (98 + 2) [] root (.acceptContractAdmin d) s.system.world).1 = _ ∧ _ :=
    invoke_acceptContractAdmin List.not_mem_nil List.not_mem_nil hroot haim.registered hlisting
      hshape (htx.authorized_iff.mpr rfl) rfl
  refine ⟨s.transact p tx root (.acceptContractAdmin d), ?_, rfl, hupdate⟩
  rw [acceptContractAdmin, if_neg haim.ne_projectRoot, haim.build hm, Script.pure_bind,
    hm.propagate_requireProjectRoot, Script.pure_bind]
  exact (performs_runs (performs_execute htx hledger.ge hreply "")).retry.bind (.ret _ _)

include hm haim in
/-- The deployer holds the contract and project_root. -/
theorem adopt_runs (texts : Texts) (cfg : RetryConfig) (hne : account ≠ root)
    (hroot : s.listing root = some ⟨.projectRoot sec ver, account, none⟩)
    (hlisting : s.listing d = some ⟨shape, account, none⟩) :
    ∃ trace s', (setting p account c).Runs (adopt texts m cfg root t) s trace (.returned ()) s' ∧
      s'.manifest = s.manifest ∧
      s'.listing = Function.update s.listing d (some ⟨shape, root, none⟩) := by
  have hd : d ≠ root := World.ne_of_shape hlisting hroot (Shape.ne_projectRoot haim.isRoot)
  obtain ⟨s₁, hproposes, hfile₁, hlisting₁⟩ := proposeAdmin_runs (p := p) (c := c) cfg
    (texts.toAddress?_ofAddress root) (haim.build hm) hlisting rfl
  have hroot₁ : s₁.listing root = some ⟨.projectRoot sec ver, account, none⟩ := by
    rw [hlisting₁, Function.update_of_ne hd.symm, hroot]
  have hd₁ : s₁.listing d = some ⟨shape, account, some root⟩ := by
    rw [hlisting₁, Function.update_self]
  obtain ⟨s₂, haccepts, hfile₂, hlisting₂⟩ :=
    acceptContractAdmin_runs (p := p) (c := c) hm haim cfg hroot₁ hd₁
  have hruns : (setting p account c).Runs (adopt texts m cfg root t) s
      ([.query d .admin] ++ ([.query d .pendingAdmin] ++ ([.execute d (.proposeAdmin root)] ++
        ([.execute root (.acceptContractAdmin d)] ++ [])))) (.returned ()) s₂ := by
    unfold adopt
    rw [haim.build hm, Script.pure_bind, Script.pure_bind]
    apply (admin_runs hlisting).bind
    rw [if_neg hne]
    apply (pendingAdmin_runs hlisting).bind
    rw [if_neg nofun]
    exact hproposes.bind (haccepts.bind (.ret _ _))
  refine ⟨_, s₂, hruns, hfile₂.trans hfile₁, ?_⟩
  rw [hlisting₂, hlisting₁, Function.update_idem]

end

/-- The adoption after the deployment of the three contracts. -/
theorem adoptDownstreams_runs (texts : Texts) (cfg : RetryConfig) (hm : Complete m sec ver root)
    (hne : account ≠ root)
    (hroot : s.listing root = some ⟨.projectRoot sec ver, account, none⟩)
    (hver : s.listing ver = some ⟨.verification m.variant.scheme sec, account, none⟩)
    (hsec : s.listing sec = some ⟨.security m.variant.scheme, account, none⟩) :
    ∃ trace s', (setting p account c).Runs (adoptDownstreams texts m cfg) s trace (.returned ())
        s' ∧ s'.manifest = s.manifest ∧
      s'.listing = Function.update (Function.update s.listing
        sec (some ⟨.security m.variant.scheme, root, none⟩))
        ver (some ⟨.verification m.variant.scheme sec, root, none⟩) := by
  have hsecVer : sec ≠ ver := World.ne_of_shape hsec hver nofun
  have hsecRoot : sec ≠ root := World.ne_of_shape hsec hroot nofun
  obtain ⟨trace₁, s₁, hadopts₁, hfile₁, hlisting₁⟩ := adopt_runs (p := p) (c := c) hm
    .security texts cfg hne hroot hsec
  have hroot₁ : s₁.listing root = some ⟨.projectRoot sec ver, account, none⟩ := by
    rw [hlisting₁, Function.update_of_ne hsecRoot.symm, hroot]
  have hver₁ : s₁.listing ver = some ⟨.verification m.variant.scheme sec, account, none⟩ := by
    rw [hlisting₁, Function.update_of_ne hsecVer.symm, hver]
  obtain ⟨trace₂, s₂, hadopts₂, hfile₂, hlisting₂⟩ := adopt_runs (p := p) (c := c) hm
    .verification texts cfg hne hroot₁ hver₁
  have hruns : (setting p account c).Runs (adoptDownstreams texts m cfg) s
      (trace₁ ++ (trace₂ ++ [])) (.returned ()) s₂ := by
    rw [adoptDownstreams, hm.propagate_requireProjectRoot, Script.pure_bind]
    exact hadopts₁.bind (hadopts₂.bind (.ret _ _))
  exact ⟨_, s₂, hruns, hfile₂.trans hfile₁, by rw [hlisting₂, hlisting₁]⟩

/-- The handover of a project_root that the deployer holds. -/
theorem runHandover_runs (cfg : RetryConfig) {bytes : Bytes} {text : String} {ownerAddr : Address}
    (hfile : s.manifest = some bytes) (hparse : texts.fromSlice bytes = some m)
    (hm : Complete m sec ver root) (htext : texts.toAddress? text = some ownerAddr)
    (hne : account ≠ ownerAddr) (hlisting : s.listing root = some ⟨shape, account, none⟩) :
    ∃ trace s', (setting p account c).Runs (runHandover texts cfg text) s trace (.returned m)
        s' ∧ s'.manifest = s.manifest ∧
      s'.listing = Function.update s.listing root (some ⟨shape, account, some ownerAddr⟩) := by
  obtain ⟨s', hproposes, hfile', hlisting'⟩ :=
    proposeAdmin_runs (p := p) (c := c) cfg htext hm.build hlisting rfl
  have hread : (setting p account c).Runs (load texts) s [.read] (.returned m) s := by
    refine (performs_runs (i := .read) (r := bytes) ⟨rfl, by rw [hfile]⟩).bind ?_
    rw [hparse]
    exact .ret m s
  have hhandover : (setting p account c).Runs (handover texts m cfg text) s
      ([.query root .admin] ++ ([.query root .pendingAdmin] ++
        [.execute root (.proposeAdmin ownerAddr)])) (.returned ()) s' := by
    unfold handover
    rw [htext]
    simp only
    rw [hm.build, Script.pure_bind, Script.pure_bind]
    apply (admin_runs hlisting).bind
    rw [if_neg hne]
    apply (pendingAdmin_runs hlisting).bind
    rw [if_neg nofun]
    exact hproposes
  exact ⟨_, s', hread.bind (hhandover.bind (.ret m s')), hfile', hlisting'⟩

/-- An owner accepts project_root. -/
theorem exists_accepts {holder ownerAddr : Address}
    (hroot : s.listing root = some ⟨.projectRoot sec ver, holder, some ownerAddr⟩) :
    ∃ s', Accepts p s s' ∧ s'.manifest = s.manifest ∧ s'.listing =
      Function.update s.listing root (some ⟨.projectRoot sec ver, ownerAddr, none⟩) := by
  obtain ⟨tx, hledger, htx⟩ := exists_signs ownerAddr s.system.ledger root .acceptAdmin
  refine ⟨s.transact p tx root .acceptAdmin, .mk ownerAddr root sec ver _ tx hroot htx hledger.ge,
    rfl, ?_⟩
  rw [transact_acceptAdmin hroot htx, if_pos rfl]

end

/-! ## One deployment -/

namespace Fixture

def net : NetworkConfig := ⟨rpcUrl, networkPassphrase⟩

def params : DeployParams := ⟨.stellar, "https://example.org/warpdrive.git", (2, 3), .stellar⟩

def cfg : RetryConfig := ⟨3⟩

def wasm : BytesN 32 := Sample.zeroHash

def securityInstance : Instance :=
  .security .stellar ⟨.deployed wasm account, ⟨2, 3⟩, [], fun _ => [], []⟩

def verificationInstance : Instance :=
  .verification .stellar (Verification.construct wasm account security)

def projectRootInstance : Instance :=
  .projectRoot (ProjectRoot.construct wasm account security verification
    "https://example.org/warpdrive.git" .stellar)

/-- Nothing is deployed, and the directory is empty. -/
def start : Site := ⟨⟨⟨fun _ => none, []⟩, 0⟩, none, none, []⟩

noncomputable def afterSecurity : Site :=
  (start.deploy security securityInstance).record texts (manifest none none)

noncomputable def afterVerification : Site :=
  (afterSecurity.deploy verification verificationInstance).record texts
    (manifest (some verification) none)

noncomputable def afterProjectRoot : Site :=
  (afterVerification.deploy projectRoot projectRootInstance).record texts
    (manifest (some verification) (some projectRoot))

theorem complete : Complete (manifest (some verification) (some projectRoot)) security verification
    projectRoot :=
  ⟨rfl, rfl, rfl⟩

theorem deployContracts_runs (p : Platform) (c : Circumstances) :
    ∃ trace, (setting p account c).Runs
      (deployContracts texts net account params "deploy.json" cfg) start trace
      (.returned (manifest (some verification) (some projectRoot))) afterProjectRoot := by
  have hsecurityInstance : (Deployment.security .stellar account 2 3).construct wasm =
      some securityInstance := rfl
  obtain ⟨trace, hsecurity⟩ : ∃ trace, (setting p account c).Runs
      (deploySecurity texts account params cfg (blank texts net account params)) start trace
      (.returned (manifest none none, security)) afterSecurity :=
    deploySecurity_runs (blank_empty texts net account params).1 hsecurityInstance rfl
  have hverificationInstance : (Deployment.verification .stellar account security).construct wasm =
      some verificationInstance := rfl
  obtain ⟨trace', hverification⟩ : ∃ trace, (setting p account c).Runs
      (deployVerification texts account params cfg (manifest none none) security) afterSecurity
      trace (.returned (manifest (some verification) none, verification)) afterVerification :=
    deployVerification_runs rfl hverificationInstance rfl
  have hprojectRootInstance : (Deployment.projectRoot account security verification
      "https://example.org/warpdrive.git" .stellar).construct wasm = some projectRootInstance := rfl
  obtain ⟨trace'', hprojectRoot⟩ : ∃ trace, (setting p account c).Runs
      (deployProjectRoot texts account params cfg (manifest (some verification) none) security
        verification) afterVerification trace
      (.returned (manifest (some verification) (some projectRoot))) afterProjectRoot :=
    deployProjectRoot_runs rfl hprojectRootInstance rfl
  exact ⟨_, (resume_runs rfl).bind (hsecurity.bind (hverification.bind hprojectRoot))⟩

end Fixture

end WarpDrive.Deployer
