import WarpDrive.Deployer.Resume

/-!
# The handover

`handover` proposes an owner as the admin of project_root.  It takes the downstream
contracts for adopted and does not look: where the deployment before it was interrupted,
they stay the deployer's when the owner has accepted.  Where each handover starts with the
downstream contracts adopted, they stay adopted, whatever is interrupted and whenever
owners accept.
-/

namespace WarpDrive.Deployer

open Interaction Transfer

/-- Anything of the deployer's own may go wrong, and owners may accept at any time. -/
def contested : Circumstances :=
  ⟨True, True⟩

/-- A command of the deployer, as far as it went, or a transaction of an owner. -/
inductive Event where
  | deploy (run : DeployRun)
  | handover (owner : String) (cfg : RetryConfig) (trace : List Action)
      (outcome : Outcome DeployerError StellarDeployManifest)
  | accept

section

variable (p : Platform) (texts : Texts) (account : Address) (manifestPath : String)

inductive Happens (s : Site) : Event → Site → Prop
  | deploy (run : DeployRun) (s' : Site)
      (hdeploys : Deploys p texts account (fun _ => True) manifestPath contested s run s') :
      Happens s (.deploy run) s'
  | handover (owner : String) (cfg : RetryConfig) (trace : List Action)
      (outcome : Outcome DeployerError StellarDeployManifest) (s' : Site)
      (hruns : (setting p account contested).Runs (runHandover texts cfg owner) s trace
        outcome s') : Happens s (.handover owner cfg trace outcome) s'
  | accept (s' : Site) (haccepts : Accepts p s s') : Happens s .accept s'

/-- There is an owner, and a project_root to hand over. -/
def Transferable (owner : String) (m : StellarDeployManifest) : Prop :=
  texts.toAddress? owner ≠ none ∧ m.projectRoot ≠ none

/-- Where there is something to hand over, the downstream contracts are adopted. -/
def InOrder (owner : String) (s : Site) : Prop :=
  ∀ bytes m, s.manifest = some bytes → texts.fromSlice bytes = some m →
    Transferable texts owner m → Adopted m s

/-- An event, if it is not a handover that comes too early. -/
def HappensInOrder (s : Site) (event : Event) (s' : Site) : Prop :=
  Happens p texts account manifestPath s event s' ∧
    ∀ owner cfg trace outcome, event = .handover owner cfg trace outcome → InOrder texts owner s

/-- A handover of the contracts of `m` to `owner` returned. -/
def HandedOver (events : List Event) (m : StellarDeployManifest) (owner : Address) : Prop :=
  ∃ text cfg trace, .handover text cfg trace (.returned m) ∈ events ∧
    texts.toAddress? text = some owner

end

section

variable {p : Platform} {texts : Texts} {account : Address} {m : StellarDeployManifest}
  {cfg : RetryConfig} {bytes : Bytes} {s s' : Site} {sec ver root : Address}

/-- The proposal of a new admin of project_root, after the adoption. -/
theorem transact_proposeOwner {tx : Transaction} {owner : Address} {shape : Shape}
    {office : Office Address → Prop} (hadopted : Adopted m s) (hshape : shape.isRoot = true)
    (hhas : s.Has root shape office) (htx : Signs account tx root (.proposeAdmin owner)) :
    Progress m s (s.transact p tx root (.proposeAdmin owner)) := by
  obtain ⟨-, o, hlisting, -⟩ := hhas
  by_cases hholder : o.holder = account
  · have hproposed : (invoke p tx (99 + 1) [] root (.proposeAdmin owner) s.system.world).1 = _ ∧
        _ := invoke_proposeAdmin List.not_mem_nil hlisting (htx.authorized_iff.mpr hholder)
    exact .of_update hlisting (fun _ => .handed _ hshape hadopted) rfl hproposed.2
  · have hrefused : invoke p tx (99 + 1) [] root (.proposeAdmin owner) s.system.world =
        (.error .abort, s.system.world) :=
      invoke_proposeAdmin_refused List.not_mem_nil hlisting fun hauth =>
        hholder (htx.authorized_iff.mp hauth)
    exact .of_same (fun _ => id) fun a _ _ => congrArg (fun r => r.2.listing a) hrefused

theorem settled_handover_triple {owner : String} (hm : Complete m sec ver root) :
    (setting p account contested).Triple (Settled texts account bytes m) (fun _ => True)
      (Settled texts account bytes m) (handover texts m cfg owner)
      (fun _ => Settled texts account bytes m) fun _ _ => True := by
  have hroot : ∀ s, Settled texts account bytes m s →
      ∃ office, s.Has root (.projectRoot sec ver) office :=
    fun s hs => ⟨_, hm.root_has hs.custody⟩
  rw [handover]
  cases howner : texts.toAddress? owner with
  | none => exact .fail fun _ _ => trivial
  | some ownerAddr =>
      simp only
      rw [hm.build, Script.pure_bind, Script.pure_bind]
      refine ((admin_triple trivial stable_settled (fun _ hs => hs) hroot).consequence
        (fun _ => id) (fun _ _ => id) fun _ _ _ => trivial).bind fun prAdmin => ?_
      split
      next => exact .ret fun s hs => hs.1
      next =>
        refine ((pendingAdmin_triple trivial stable_settled (fun _ hs => hs) hroot).consequence
          (fun _ hs => hs.1) (fun _ _ => id) fun _ _ _ => trivial).bind fun prPending => ?_
        split
        next => exact .ret fun s hs => hs.1
        next =>
          rw [proposeAdmin, howner]
          refine Setting.Triple.strengthen (.retry ?_) fun s hs => hs.1
          rw [hm.build, Script.pure_bind]
          refine ((execute_triple (Settled texts account bytes m) (fun _ => True) trivial
            stable_settled (fun _ => id) (fun _ hs => hs) fun s tx hs htx => ?_).consequence
              (fun _ => id) (fun _ _ => id) fun _ _ hs => ⟨hs.1, trivial⟩).bind fun _ =>
                .ret fun s hs => hs.1.1
          have hprogress := transact_proposeOwner (p := p) hs.adopted rfl
            (hm.root_has hs.custody) htx
          refine ⟨hs.step rfl hprogress, ?_⟩
          split <;> trivial

/-- A handover on a settled site leaves it settled. -/
theorem settled_runHandover_triple {owner : String} :
    (setting p account contested).Triple (Settled texts account bytes m) (fun _ => True)
      (Settled texts account bytes m) (runHandover texts cfg owner)
      (fun m' s => m' = m ∧ Settled texts account bytes m s) fun _ _ => True := by
  have hload : (setting p account contested).Triple (Settled texts account bytes m)
      (fun _ => True) (Settled texts account bytes m) (load texts)
      (fun m' s => m' = m ∧ Settled texts account bytes m s) fun _ _ => True := by
    refine ((read_triple trivial stable_settled fun _ hs => hs).consequence (fun _ => id)
      (fun _ _ => id) fun _ _ _ => trivial).bind fun bytes' => ?_
    rintro s ⟨hs, hfile⟩
    obtain rfl : bytes = bytes' := Option.some.inj (hs.file.symm.trans hfile)
    rw [hs.parse]
    exact ⟨rfl, hs⟩
  refine hload.bind fun m' => .given ?_
  rintro rfl s hs
  obtain ⟨sec, ver, root, hsec, hver, hroot, -⟩ := hs.adopted
  exact (settled_handover_triple ⟨hsec, hver, hroot⟩).bind (fun _ => .ret fun s hs => ⟨rfl, hs⟩)
    s hs

theorem HandedOver.of_snoc {events : List Event} {event : Event} {owner : Address}
    (h : HandedOver texts (events ++ [event]) m owner) : HandedOver texts events m owner ∨
      ∃ text cfg trace, event = .handover text cfg trace (.returned m) := by
  obtain ⟨text, cfg, trace, hmem, htext⟩ := h
  rcases List.mem_append.mp hmem with hmem | hmem
  · exact .inl ⟨text, cfg, trace, hmem, htext⟩
  · exact .inr ⟨text, cfg, trace, (List.mem_singleton.mp hmem).symm⟩

theorem handover_refused (cfg : RetryConfig) {owner : String} (h : ¬Transferable texts owner m) :
    ∃ e, handover texts m cfg owner = .fail e := by
  unfold handover
  cases howner : texts.toAddress? owner with
  | none => exact ⟨_, rfl⟩
  | some ownerAddr =>
      have hroot : m.projectRoot = none := not_not.mp fun hroot => h ⟨by rw [howner]; nofun, hroot⟩
      rw [build, targetId, requireProjectRoot, hroot]
      exact ⟨_, rfl⟩

/-- A handover without a manifest, or without a project_root, sends nothing. -/
theorem refused_runHandover_triple {owner : String} {file : Option Bytes}
    (hrefused : ∀ bytes m, file = some bytes → texts.fromSlice bytes = some m →
      ¬Transferable texts owner m) :
    (setting p account contested).Triple
      (fun s => s.manifest = file ∧ OnDisk texts account (fun _ => True) s) (fun _ => True)
      (fun s => s.manifest = file ∧ OnDisk texts account (fun _ => True) s)
      (runHandover texts cfg owner) (fun _ _ => False) fun _ _ => True := by
  have hstable : (setting p account contested).Stable fun s =>
      s.manifest = file ∧ OnDisk texts account (fun _ => True) s :=
    stable_manifest.and stable_onDisk
  have hload : (setting p account contested).Triple
      (fun s => s.manifest = file ∧ OnDisk texts account (fun _ => True) s) (fun _ => True)
      (fun s => s.manifest = file ∧ OnDisk texts account (fun _ => True) s) (load texts)
      (fun m _ => ¬Transferable texts owner m) fun _ _ => True := by
    refine ((read_triple trivial hstable fun _ hs => hs).consequence (fun _ => id)
      (fun _ _ => id) fun _ _ _ => trivial).bind fun bytes => ?_
    rintro s ⟨⟨hfile, -⟩, hbytes⟩
    cases hparse : texts.fromSlice bytes with
    | none => trivial
    | some m => exact hrefused bytes m (hfile.symm.trans hbytes) hparse
  apply hload.bind
  intro m s hm
  obtain ⟨e, he⟩ := handover_refused cfg hm
  rw [he]
  trivial

theorem Settled.onDisk (h : Settled texts account bytes m s) :
    OnDisk texts account (fun _ => True) s := by
  intro bytes' hbytes'
  obtain rfl : bytes = bytes' := Option.some.inj (h.file.symm.trans hbytes')
  exact ⟨m, h.parse, h.ours, trivial, h.custody⟩

theorem Happens.keeps_settled {manifestPath : String} {event : Event}
    (h : Happens p texts account manifestPath s event s') (hs : Settled texts account bytes m s) :
    Settled texts account bytes m s' := by
  cases h with
  | deploy run _ hdeploys => exact (hdeploys.settled (.inl trivial) hs).1
  | handover owner cfg trace outcome _ hruns =>
      exact (hruns.sound stable_settled (settled_runHandover_triple s hs) hs).1
  | accept _ haccepts => exact hs.step (by cases haccepts; rfl) (haccepts.progress hs.custody)

/-- A handover that does not come too early, as far as it went. -/
theorem handover_sound {owner : String} {trace : List Action}
    {outcome : Outcome DeployerError StellarDeployManifest}
    (hruns : (setting p account contested).Runs (runHandover texts cfg owner) s trace outcome s')
    (hdisk : OnDisk texts account (fun _ => True) s) (hinOrder : InOrder texts owner s) :
    OnDisk texts account (fun _ => True) s' ∧
      ∀ m, outcome = .returned m → ∃ bytes, Settled texts account bytes m s' := by
  by_cases htransferable : ∃ bytes m, s.manifest = some bytes ∧
      texts.fromSlice bytes = some m ∧ Transferable texts owner m
  · obtain ⟨bytes, m, hfile, hparse, hm⟩ := htransferable
    obtain ⟨m', hparse', hours, -, hcustody⟩ := hdisk bytes hfile
    obtain rfl : m = m' := Option.some.inj (hparse.symm.trans hparse')
    have hadopted : Adopted m s := hinOrder bytes m hfile hparse hm
    have hs : Settled texts account bytes m s := ⟨hfile, hparse, hours, hcustody, hadopted⟩
    obtain ⟨hs', -, hreturned, -⟩ := hruns.sound stable_settled
      (settled_runHandover_triple s hs) hs
    refine ⟨hs'.onDisk, fun m' hm' => ?_⟩
    obtain ⟨_, ⟨rfl, -⟩, -⟩ := hreturned m' hm'
    exact ⟨bytes, hs'⟩
  · have hrefused : ∀ bytes m, s.manifest = some bytes → texts.fromSlice bytes = some m →
        ¬Transferable texts owner m :=
      fun bytes m hfile hparse hm => htransferable ⟨bytes, m, hfile, hparse, hm⟩
    obtain ⟨⟨-, hdisk'⟩, -, hreturned, -⟩ := hruns.sound (stable_manifest.and stable_onDisk)
      (refused_runHandover_triple hrefused s ⟨rfl, hdisk⟩) ⟨rfl, hdisk⟩
    refine ⟨hdisk', fun m hm => ?_⟩
    obtain ⟨_, himpossible, -⟩ := hreturned m hm
    exact himpossible.elim

end

/-- In any history in which no handover comes too early, a manifest that was handed over is
still settled. -/
theorem handedOver_settled {p : Platform} {texts : Texts} {account : Address}
    {manifestPath : String} {events : List Event} {s : Site} (hrun : Transition.Run NoManifest
      (HappensInOrder p texts account manifestPath) events s) :
    OnDisk texts account (fun _ => True) s ∧ ∀ m owner, HandedOver texts events m owner →
      ∃ bytes, Settled texts account bytes m s := by
  refine Transition.Run.induction (motive := fun events s =>
    OnDisk texts account (fun _ => True) s ∧ ∀ m owner, HandedOver texts events m owner →
      ∃ bytes, Settled texts account bytes m s) ?_ ?_ hrun
  · rintro s ⟨hfile, -⟩
    refine ⟨fun bytes hbytes => ?_, fun m owner ⟨_, _, _, hmem, _⟩ => nomatch hmem⟩
    rw [hfile] at hbytes
    cases hbytes
  · rintro events s event s' - ⟨hdisk, hsettled⟩ ⟨hhappens, hinOrder⟩
    have hearlier : ∀ m owner, HandedOver texts events m owner →
        ∃ bytes, Settled texts account bytes m s' := by
      intro m owner hhanded
      obtain ⟨bytes, hs⟩ := hsettled m owner hhanded
      exact ⟨bytes, hhappens.keeps_settled hs⟩
    cases hhappens with
    | deploy run _ hdeploys =>
        refine ⟨(hdeploys.sound (.inl trivial) hdisk).1, fun m owner hhanded => ?_⟩
        obtain hbefore | ⟨_, _, _, hevent⟩ := hhanded.of_snoc
        · exact hearlier m owner hbefore
        · cases hevent
    | handover text cfg trace outcome _ hruns =>
        obtain ⟨hdisk', hreturned⟩ := handover_sound hruns hdisk (hinOrder _ _ _ _ rfl)
        refine ⟨hdisk', fun m owner hhanded => ?_⟩
        obtain hbefore | ⟨_, _, _, hevent⟩ := hhanded.of_snoc
        · exact hearlier m owner hbefore
        · cases hevent
          exact hreturned m rfl
    | accept _ haccepts =>
        have hfile : s'.manifest = s.manifest := by
          cases haccepts
          rfl
        refine ⟨hdisk.step hfile fun _ hcustody => haccepts.progress hcustody,
          fun m owner hhanded => ?_⟩
        obtain hbefore | ⟨_, _, _, hevent⟩ := hhanded.of_snoc
        · exact hearlier m owner hbefore
        · cases hevent

/-- Where each handover starts with the downstream contracts adopted, they are adopted
whenever the owner is the admin of project_root. -/
theorem handover_never_strands {p : Platform} {texts : Texts} {account : Address}
    {manifestPath : String} {events : List Event} {s : Site} (hrun : Transition.Run NoManifest
      (HappensInOrder p texts account manifestPath) events s) :
    ∀ m owner root, HandedOver texts events m owner → m.projectRoot = some root →
      s.admin? root = some owner → Adopted m s := by
  intro m owner _ hhanded _ _
  obtain ⟨bytes, hs⟩ := (handedOver_settled hrun).2 m owner hhanded
  exact hs.adopted

namespace Fixture

/-- A deployment that stopped when the manifest was complete, before the adoption. -/
theorem stopped_deploys (p : Platform) : ∃ trace, Deploys p texts account (fun _ => True)
    "deploy.json" contested start ⟨net, params, cfg, trace, .stopped⟩ afterProjectRoot := by
  obtain ⟨trace, hcontracts⟩ := deployContracts_runs p contested
  exact ⟨_, trivial, hcontracts.bind (.stop _ _)⟩

/-- A deployment that returned. -/
theorem returned_deploys (p : Platform) : ∃ trace s, Deploys p texts account (fun _ => True)
    "deploy.json" contested start
      ⟨net, params, cfg, trace, .returned (manifest (some verification) (some projectRoot))⟩ s ∧
    s.manifest = afterProjectRoot.manifest ∧
    s.listing = Function.update (Function.update afterProjectRoot.listing
      security (some ⟨.security .stellar, projectRoot, none⟩))
      verification (some ⟨.verification .stellar security, projectRoot, none⟩) := by
  obtain ⟨trace, hcontracts⟩ := deployContracts_runs p contested
  obtain ⟨trace', s, hadopts, hfile, hlisting⟩ := adoptDownstreams_runs (p := p)
    (c := contested) (s := afterProjectRoot) texts cfg complete (by decide) rfl rfl rfl
  exact ⟨_, s, ⟨trivial, hcontracts.bind (hadopts.bind (.ret _ _))⟩, hfile, hlisting⟩

/-- The handover of the complete manifest, and the acceptance by the owner. -/
theorem handover_accepted (p : Platform) {s : Site}
    (hfile : s.manifest = afterProjectRoot.manifest)
    (hroot : s.listing projectRoot =
      some ⟨.projectRoot security verification, account, none⟩) :
    ∃ trace s₁ s₂, (setting p account contested).Runs
        (runHandover texts cfg (texts.ofAddress owner)) s trace
        (.returned (manifest (some verification) (some projectRoot))) s₁ ∧
      Accepts p s₁ s₂ ∧ s₂.listing = Function.update s.listing projectRoot
        (some ⟨.projectRoot security verification, owner, none⟩) := by
  obtain ⟨trace, s₁, hruns, -, hlisting₁⟩ := runHandover_runs (p := p) (c := contested)
    cfg hfile (texts.fromSlice_toStringPretty _) complete
    (texts.toAddress?_ofAddress owner) (by decide) hroot
  have hproposed : s₁.listing projectRoot =
      some ⟨.projectRoot security verification, account, some owner⟩ := by
    rw [hlisting₁, Function.update_self]
  obtain ⟨s₂, haccepts, -, hlisting₂⟩ := exists_accepts (p := p) hproposed
  refine ⟨trace, s₁, s₂, hruns, haccepts, ?_⟩
  rw [hlisting₂, hlisting₁, Function.update_idem]

end Fixture

open Fixture in
theorem handover_never_strands_sample : ∃ trace trace' m s, Transition.Run NoManifest
    (HappensInOrder Sample.platform texts account "deploy.json")
    [.deploy ⟨net, params, cfg, trace, .returned m⟩,
      .handover (texts.ofAddress owner) cfg trace' (.returned m), .accept] s ∧
      s.admin? projectRoot = some owner ∧ Adopted m s := by
  obtain ⟨trace, s, hdeploys, hfile, hlisting⟩ := returned_deploys Sample.platform
  have hroot : s.listing projectRoot =
      some ⟨.projectRoot security verification, account, none⟩ := by
    rw [hlisting]
    rfl
  obtain ⟨trace', s₁, s₂, hruns, haccepts, hlisting₂⟩ :=
    handover_accepted Sample.platform hfile hroot
  have hinOrder : InOrder texts (texts.ofAddress owner) s := by
    intro bytes m hbytes hparse _
    obtain rfl : m = manifest (some verification) (some projectRoot) := by
      rw [hfile] at hbytes
      cases hbytes
      rw [texts.fromSlice_toStringPretty] at hparse
      exact (Option.some.inj hparse).symm
    refine ⟨security, verification, projectRoot, rfl, rfl, rfl, ?_, ?_⟩
    · rw [Site.admin?, hlisting]
      rfl
    · rw [Site.admin?, hlisting]
      rfl
  have hdeployed : Transition.Run NoManifest
      (HappensInOrder Sample.platform texts account "deploy.json")
      [.deploy ⟨net, params, cfg, trace, .returned _⟩] s :=
    (Transition.Run.start start_noManifest).snoc
      ⟨.deploy _ _ hdeploys, fun _ _ _ _ h => by cases h⟩
  have hproposed : Transition.Run NoManifest
      (HappensInOrder Sample.platform texts account "deploy.json")
      [.deploy ⟨net, params, cfg, trace, .returned _⟩,
        .handover (texts.ofAddress owner) cfg trace' (.returned _)] s₁ :=
    hdeployed.snoc
      ⟨.handover _ _ _ _ _ hruns, fun _ _ _ _ h => by cases h; exact hinOrder⟩
  have hrun : Transition.Run NoManifest
      (HappensInOrder Sample.platform texts account "deploy.json")
      [.deploy ⟨net, params, cfg, trace, .returned _⟩,
        .handover (texts.ofAddress owner) cfg trace' (.returned _), .accept] s₂ :=
    hproposed.snoc ⟨.accept _ haccepts, fun _ _ _ _ h => by cases h⟩
  have howner : s₂.admin? projectRoot = some owner := by
    rw [Site.admin?, hlisting₂, Function.update_self]
    rfl
  exact ⟨trace, trace', _, s₂, hrun, howner, handover_never_strands hrun _ owner projectRoot
    ⟨_, cfg, trace', by simp, texts.toAddress?_ofAddress owner⟩ rfl howner⟩

open Fixture in
/-- A deployment that stopped before the adoption, a handover that returned, and the
acceptance by the owner: the deployer keeps both downstream contracts. -/
theorem handover_strands : ∃ trace trace' m s, Transition.Run NoManifest
    (Happens Sample.platform texts account "deploy.json")
    [.deploy ⟨net, params, cfg, trace, .stopped⟩,
      .handover (texts.ofAddress owner) cfg trace' (.returned m), .accept] s ∧
      texts.toAddress? (texts.ofAddress owner) = some owner ∧
      m.projectRoot = some projectRoot ∧ s.admin? projectRoot = some owner ∧
      m.security = some security ∧ s.admin? security = some account ∧
      m.verification = some verification ∧ s.admin? verification = some account ∧
      ¬Adopted m s := by
  obtain ⟨trace, hdeploys⟩ := stopped_deploys Sample.platform
  obtain ⟨trace', s₁, s₂, hruns, haccepts, hlisting₂⟩ :=
    handover_accepted (s := afterProjectRoot) Sample.platform rfl rfl
  have hsecurity : s₂.admin? security = some account := by
    rw [Site.admin?, hlisting₂]
    rfl
  refine ⟨trace, trace', manifest (some verification) (some projectRoot), s₂,
    (((Transition.Run.start start_noManifest).snoc (.deploy _ _ hdeploys)).snoc
      (.handover _ _ _ _ _ hruns)).snoc (.accept _ haccepts),
    texts.toAddress?_ofAddress owner, rfl, ?_, rfl, hsecurity, rfl, ?_, ?_⟩
  · rw [Site.admin?, hlisting₂, Function.update_self]
    rfl
  · rw [Site.admin?, hlisting₂]
    rfl
  · rintro ⟨sec, ver, root, hsec, -, hroot, hadmin, -⟩
    cases hsec
    cases hroot
    rw [hsecurity] at hadmin
    cases hadmin

end WarpDrive.Deployer
