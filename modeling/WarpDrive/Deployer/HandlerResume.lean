import WarpDrive.Deployer.HandlerCommands
import WarpDrive.Deployer.Resume

/-!
# Interrupted deployments of a handler

A history of `deploy-handler` runs over a pipeline that is deployed, each stopped or
failed at any point.  The manifest on disk stays as it was until it names a handler that
was created for this pipeline, with project_root as its admin (`Ready`); from then on it
stays so, and no run creates another one.  A run that returned has the handler tracked, if
the deployer is the admin of project_root.
-/

namespace WarpDrive.Deployer

open Interaction Transfer StellarDeployManifest

/-! ## The pipeline -/

/-- The contracts of a pipeline with the admin of its project_root, and handlers that are
tracked there. -/
structure Project where
  security : Address
  verification : Address
  root : Address
  admin : Address
  handlers : List Address

/-- project_root tracks the handler. -/
def Tracked (root handler : Address) (s : Site) : Prop :=
  ∃ q, s.system.world.contracts root = some (.projectRoot q) ∧ handler ∈ q.handlers

/-- The contracts are those of the deployer, with their links. -/
structure Project.At (d : Project) (variant : Variant) (s : Site) : Prop where
  security : s.Has d.security (.security variant.scheme) fun _ => True
  verification : s.Has d.verification (.verification variant.scheme d.security) fun _ => True
  root : s.Has d.root (.projectRoot d.security d.verification) fun o => o.holder = d.admin
  tracked : ∀ h ∈ d.handlers, Tracked d.root h s

/-- The handler of the manifest, if it has one, is the pipeline's, and project_root is its
admin. -/
def Born (d : Project) (m : StellarDeployManifest) (s : Site) : Prop :=
  ∀ h, m.handler = some h →
    s.Has h (.handler m.variant.scheme d.verification) fun o => o = ⟨d.root, none⟩

/-- The manifest is on disk. -/
def OnFile (texts : Texts) (m : StellarDeployManifest) (s : Site) : Prop :=
  ∃ bytes, s.manifest = some bytes ∧ texts.fromSlice bytes = some m

/-- The manifest with a handler, which it keeps if it has one. -/
def WithHandler (m₀ m : StellarDeployManifest) : Prop :=
  m = m₀ ∨ m₀.handler = none ∧ ∃ h, m = m₀.setHandler h

/-- The run has the manifest `m` in memory, and it is on disk. -/
structure Loaded (texts : Texts) (d : Project) (m₀ m : StellarDeployManifest) (s : Site) :
    Prop where
  project : d.At m₀.variant s
  withHandler : WithHandler m₀ m
  file : OnFile texts m s
  born : Born d m s

/-- What every run of `deploy-handler` keeps. -/
def Ready (texts : Texts) (d : Project) (m₀ : StellarDeployManifest) (s : Site) : Prop :=
  ∃ m, Loaded texts d m₀ m s

section Keep

variable {s s' : Site} {a b : Address} {shape : Shape} {office : Office Address → Prop}
  {inst : Instance} {d : Project} {m₀ m : StellarDeployManifest} {texts : Texts}
  {variant : Variant}

theorem Site.Has.of_listing (h : s.Has a shape office) (hcreated : ∀ a ∈ s.created, a ∈ s'.created)
    (hlisting : s'.listing a = s.listing a) : s'.Has a shape office := by
  obtain ⟨hmem, o, ho, hoffice⟩ := h
  exact ⟨hcreated a hmem, o, hlisting.trans ho, hoffice⟩

/-- What a step keeps: the contracts that were created, as they are listed, and the
handlers that are tracked. -/
structure Keeps (s s' : Site) : Prop where
  created : ∀ a ∈ s.created, a ∈ s'.created
  listing : ∀ a ∈ s.created, s.listing a ≠ none → s'.listing a = s.listing a
  tracked : ∀ root ∈ s.created, ∀ h, Tracked root h s → Tracked root h s'

theorem Keeps.has (hkeeps : Keeps s s') (h : s.Has a shape office) : s'.Has a shape office := by
  refine h.of_listing hkeeps.created (hkeeps.listing a h.1 ?_)
  obtain ⟨-, o, ho, -⟩ := h
  rw [ho]
  exact nofun

theorem Keeps.at (hkeeps : Keeps s s') (h : d.At variant s) : d.At variant s' where
  security := hkeeps.has h.security
  verification := hkeeps.has h.verification
  root := hkeeps.has h.root
  tracked handler hmem := hkeeps.tracked d.root h.root.1 handler (h.tracked handler hmem)

theorem Keeps.born (hkeeps : Keeps s s') (h : Born d m s) : Born d m s' :=
  fun handler hhandler => hkeeps.has (h handler hhandler)

theorem Loaded.step (h : Loaded texts d m₀ m s) (hkeeps : Keeps s s')
    (hfile : s'.manifest = s.manifest) : Loaded texts d m₀ m s' where
  project := hkeeps.at h.project
  withHandler := h.withHandler
  file := by
    obtain ⟨bytes, hbytes, hparse⟩ := h.file
    exact ⟨bytes, hfile.trans hbytes, hparse⟩
  born := hkeeps.born h.born

theorem Keeps.elsewhere (h : Elsewhere s s') : Keeps s s' where
  created a ha := by rwa [h.created]
  listing a ha _ := by
    rw [Site.listing, World.listing, h.contracts a ha]
    rfl
  tracked root hroot handler htracked := by
    obtain ⟨q, hq, hmem⟩ := htracked
    exact ⟨q, (h.contracts root hroot).trans hq, hmem⟩

theorem Keeps.files (hsystem : s'.system = s.system) (hcreated : s'.created = s.created) :
    Keeps s s' where
  created a ha := by rwa [hcreated]
  listing a _ _ := by
    rw [Site.listing, hsystem]
    rfl
  tracked root _ handler htracked := by
    unfold Tracked
    rwa [hsystem]

theorem Keeps.deploy (hfree : s.system.world.contracts b = none) : Keeps s (s.deploy b inst) where
  created a ha := List.mem_append_left _ ha
  listing a _ ha := by
    have hne : a ≠ b := by
      rintro rfl
      rw [Site.listing, World.listing, hfree] at ha
      exact ha rfl
    simp only [Site.listing, World.listing, Site.deploy, Function.update_of_ne hne]
  tracked root _ handler htracked := by
    obtain ⟨q, hq, hmem⟩ := htracked
    have hne : root ≠ b := by
      rintro rfl
      rw [hfree] at hq
      cases hq
    exact ⟨q, by simp only [Site.deploy, Function.update_of_ne hne, hq], hmem⟩

end Keep

/-! ## The transaction -/

section Transaction

variable {p : Platform} {account : Address} {s : Site} {d : Project} {m : StellarDeployManifest}
  {variant : Variant} {tx : Transaction} {handler : Address}

theorem mem_track (q : ProjectRoot.Storage) (handler : Address) :
    handler ∈ (q.track handler).handlers ∧ ∀ h ∈ q.handlers, h ∈ (q.track handler).handlers := by
  unfold ProjectRoot.Storage.track
  split
  · next h => exact ⟨h, fun _ => id⟩
  · exact ⟨List.mem_append_right _ (List.mem_singleton_self _),
      fun h hmem => List.mem_append_left _ hmem⟩

theorem listing_track (q : ProjectRoot.Storage) (handler : Address) :
    (Instance.projectRoot (q.track handler)).listing? = (Instance.projectRoot q).listing? := by
  unfold ProjectRoot.Storage.track
  split <;> rfl

/-- Tracking a handler keeps what is listed, and what is tracked. -/
theorem Keeps.track {s' : Site} {root : Address} {q : ProjectRoot.Storage}
    (hroot : s.system.world.contracts root = some (.projectRoot q))
    (hcreated : s'.created = s.created)
    (hcontracts : s'.system.world.contracts = Function.update s.system.world.contracts root
      (some (.projectRoot (q.track handler)))) : Keeps s s' where
  created a ha := by rwa [hcreated]
  listing a _ _ := by
    unfold Site.listing World.listing
    rw [hcontracts]
    by_cases ha : a = root
    · subst ha
      rw [Function.update_self, hroot, Option.bind_some, Option.bind_some, listing_track]
    · rw [Function.update_of_ne ha]
  tracked a _ h htracked := by
    obtain ⟨q', hq', hmem⟩ := htracked
    unfold Tracked
    rw [hcontracts]
    by_cases ha : a = root
    · subst ha
      obtain rfl : q' = q := by
        rw [hroot] at hq'
        cases hq'
        rfl
      exact ⟨_, Function.update_self .., (mem_track q' handler).2 h hmem⟩
    · exact ⟨q', (Function.update_of_ne ha ..).trans hq', hmem⟩

/-- The admin of project_root has the handler of the pipeline tracked. -/
theorem transact_registerHandler (hproject : d.At m.variant s) (hborn : Born d m s)
    (hhandler : m.handler = some handler) (hadmin : d.admin = account)
    (hsigns : Signs account tx d.root (.registerHandler handler)) :
    s.reply p tx d.root (.registerHandler handler) = .ok .void ∧
      Keeps s (s.transact p tx d.root (.registerHandler handler)) ∧
        Tracked d.root handler (s.transact p tx d.root (.registerHandler handler)) := by
  obtain ⟨-, o, hrootListing, hholder⟩ := hproject.root
  obtain ⟨-, _, hverListing, -⟩ := hproject.verification
  obtain ⟨-, _, hsecListing, -⟩ := hproject.security
  obtain ⟨-, _, hhandlerListing, -⟩ := hborn handler hhandler
  obtain ⟨inst, b, hroot, hbase, heq⟩ := World.listing_eq_some.mp hrootListing
  obtain ⟨inst', b', hinst, hbase', heq'⟩ := World.listing_eq_some.mp hhandlerListing
  have hne : handler ≠ d.verification ∧ handler ≠ d.security :=
    ⟨World.ne_of_shape hhandlerListing hverListing nofun,
      World.ne_of_shape hhandlerListing hsecListing nofun⟩
  obtain ⟨q, rfl⟩ : ∃ q, inst = .projectRoot q := by
    cases inst with
    | projectRoot q => exact ⟨q, rfl⟩
    | _ => cases heq
  obtain ⟨t, st, rfl⟩ : ∃ t st, inst' = .handler t st := by
    cases inst' with
    | handler t st => exact ⟨t, st, rfl⟩
    | _ => cases heq'
  cases hbase
  simp only [Instance.shape, Listing.mk.injEq, Shape.projectRoot.injEq, Shape.handler.injEq]
    at heq heq'
  obtain ⟨⟨hsec, hver⟩, rfl⟩ := heq
  obtain ⟨⟨-, hpoints⟩, -⟩ := heq'
  have hauth : (tx.env [] d.root (.registerHandler handler)).authorized q.base.admin = true :=
    hsigns.authorized_iff.mpr (hholder.trans hadmin)
  obtain ⟨-, w', hinvoke, hcontracts⟩ | ⟨hrefused, -⟩ := invoke_registerHandler (p := p) hroot hinst
    (hpoints.symm.trans hver) (hver ▸ hne.1) (hsec ▸ hne.2)
  · unfold Site.reply Site.transact
    rw [hinvoke]
    exact ⟨rfl, .track hroot rfl hcontracts, q.track handler,
      (congrFun hcontracts d.root).trans (Function.update_self ..), (mem_track q handler).1⟩
  · exact absurd hauth hrefused

end Transaction

/-! ## The command -/

/-- Reading, asking and transactions; all else writes a file or creates a contract. -/
def Action.spares : Action → Bool
  | read | query .. | execute .. => true
  | _ => false

section Command

variable {p : Platform} {texts : Texts} {account : Address} {c : Circumstances} {d : Project}
  {m₀ m : StellarDeployManifest} {cfg : RetryConfig} {allowed : Action → Prop}
  {allowed' : HandlerAction → Prop} {s s' : Site} {handler : Address}

theorem others_keeps (howners : ¬c.owners) (hothers : (setting p account c).others s s') :
    Keeps s s' ∧ s'.manifest = s.manifest := by
  obtain helse | ⟨hc, -⟩ := hothers
  · exact ⟨.elsewhere helse, helse.manifest⟩
  · exact absurd hc howners

theorem stable_loaded (howners : ¬c.owners) :
    (setting p account c).Stable (Loaded texts d m₀ m) := by
  intro s s' hothers h
  obtain ⟨hkeeps, hfile⟩ := others_keeps howners hothers
  exact h.step hkeeps hfile

theorem stable_ready (howners : ¬c.owners) :
    (setting p account c).Stable (Ready texts d m₀) := by
  rintro s s' hothers ⟨m, h⟩
  exact ⟨m, stable_loaded howners s s' hothers h⟩

/-- The manifest on disk is read. -/
theorem load_ready (howners : ¬c.owners) (hread : allowed .read) :
    (setting p account c).Triple (Ready texts d m₀) allowed (Ready texts d m₀) (load texts)
      (fun m => Loaded texts d m₀ m) fun _ _ => c.mishaps := by
  refine ((read_triple hread (stable_ready howners) fun _ => id).consequence (fun _ => id)
    (fun _ _ => id) ?_).bind fun bytes => ?_
  · rintro e s ⟨⟨m, hm⟩, herror⟩
    split at herror
    · obtain ⟨bytes, hbytes, -⟩ := hm.file
      rw [herror] at hbytes
      cases hbytes
    · exact herror
  · rintro s ⟨⟨m, hm⟩, hfile⟩
    obtain ⟨bytes', hbytes, hparse⟩ := hm.file
    obtain rfl : bytes = bytes' := Option.some.inj (hfile.symm.trans hbytes)
    rw [hparse]
    exact hm

/-- A handler that was created for the pipeline, not recorded yet. -/
def Fresh (texts : Texts) (d : Project) (m₀ : StellarDeployManifest) (handler : Address)
    (s : Site) : Prop :=
  Ready texts d m₀ s ∧
    s.Has handler (.handler m₀.variant.scheme d.verification) fun o => o = ⟨d.root, none⟩

theorem stable_fresh (howners : ¬c.owners) :
    (setting p account c).Stable (Fresh texts d m₀ handler) := by
  rintro s s' hothers ⟨hready, hhas⟩
  exact ⟨stable_ready howners s s' hothers hready, (others_keeps howners hothers).1.has hhas⟩

theorem Fresh.files (h : Fresh texts d m₀ handler s) (hsystem : s'.system = s.system)
    (hcreated : s'.created = s.created) (hfile : s'.manifest = s.manifest) :
    Fresh texts d m₀ handler s' := by
  obtain ⟨⟨m, hm⟩, hhas⟩ := h
  have hkeeps : Keeps s s' := .files hsystem hcreated
  exact ⟨⟨m, hm.step hkeeps hfile⟩, hkeeps.has hhas⟩

/-- What is recorded is the fresh handler. -/
theorem Fresh.loaded (h : Fresh texts d m₀ handler s) (hnone : m₀.handler = none)
    (hfile : OnFile texts (m₀.setHandler handler) s) :
    Loaded texts d m₀ (m₀.setHandler handler) s := by
  obtain ⟨⟨m, hm⟩, hhas⟩ := h
  refine ⟨hm.project, .inr ⟨hnone, handler, rfl⟩, hfile, fun h hh => ?_⟩
  rw [handler_setHandler] at hh
  cases hh
  rwa [slots_setHandler.1]

theorem persist_fresh (howners : ¬c.owners) (hallowed : ∀ i, allowed i)
    (hnone : m₀.handler = none) :
    (setting p account c).Triple (Ready texts d m₀) allowed (Fresh texts d m₀ handler)
      (persist texts (m₀.setHandler handler))
      (fun _ => Loaded texts d m₀ (m₀.setHandler handler)) fun _ _ => c.mishaps := by
  have hparse := texts.fromSlice_toStringPretty (m₀.setHandler handler)
  refine (persist_triple hallowed (stable_fresh howners) (fun _ hs => hs.1)
    (fun s file hs => hs.files rfl rfl rfl) fun s hs => ?_).consequence (fun _ => id) ?_
    fun _ _ hs => hs.2
  · obtain ⟨⟨m, hm⟩, hhas⟩ := hs
    have hkeeps : Keeps s { s with
        manifest := some (texts.toStringPretty (m₀.setHandler handler) ++ [10])
        scratch := none } := .files rfl rfl
    refine ⟨⟨_, hkeeps.at hm.project, .inr ⟨hnone, handler, rfl⟩, ⟨_, rfl, hparse⟩,
      fun h hh => ?_⟩, hkeeps.has hhas⟩
    rw [handler_setHandler] at hh
    cases hh
    rw [slots_setHandler.1]
    exact hkeeps.has hhas
  · rintro _ s ⟨hfresh, hfile⟩
    exact hfresh.loaded hnone ⟨_, hfile, hparse⟩

/-- Create a handler; an orphan is left where its address was lost. -/
theorem deployHandlerContract_fresh (howners : ¬c.owners)
    (hallowed : allowed' (.inr ⟨m₀.variant, d.root, d.verification⟩)) :
    (handlerSetting p account c).Triple (Ready texts d m₀) allowed' (Ready texts d m₀)
      (deployHandlerContract cfg ⟨m₀.variant, d.root, d.verification⟩)
      (fun handler => Fresh texts d m₀ handler) fun _ _ => c.mishaps := by
  have hstable : (handlerSetting p account c).Stable (Ready texts d m₀) :=
    @stable_ready p texts account c d m₀ howners
  have hcreate : (handlerSetting p account c).Triple (Ready texts d m₀) allowed' (Ready texts d m₀)
      (createHandler ⟨m₀.variant, d.root, d.verification⟩)
      (fun id s => (∀ handler, id = some handler → Fresh texts d m₀ handler s) ∧
        (id = none → c.mishaps))
      fun _ s => Ready texts d m₀ s ∧ c.mishaps := by
    refine .perform hstable hallowed fun s r s' hs hacts => ?_
    have hcreates : ∀ a s', CreatesHandler s ⟨m₀.variant, d.root, d.verification⟩ a s' →
        Fresh texts d m₀ a s' := by
      rintro a s' ⟨wasm, hfree, rfl⟩
      obtain ⟨m, hm⟩ := hs
      refine ⟨⟨m, hm.step (.deploy hfree) rfl⟩, List.mem_append_right _ (List.mem_singleton_self _),
        ⟨d.root, none⟩, ?_, rfl⟩
      simp only [Site.listing, World.listing, Site.deploy, Function.update_self]
      rfl
    cases hacts with
    | performed a _ h =>
        have hfresh := hcreates a s' h
        refine ⟨hfresh.1, ?_, by simp⟩
        rintro _ ⟨rfl⟩
        refine ⟨?_, by simp⟩
        rintro _ ⟨rfl⟩
        exact hfresh
    | failed e hmishaps => exact ⟨hs, by simp, fun _ _ => ⟨hs, hmishaps⟩⟩
    | lost e a _ hmishaps h =>
        exact ⟨(hcreates a s' h).1, by simp, fun _ _ => ⟨(hcreates a s' h).1, hmishaps⟩⟩
    | noId a _ hmishaps h =>
        refine ⟨(hcreates a s' h).1, ?_, by simp⟩
        rintro _ ⟨rfl⟩
        exact ⟨by simp, fun _ => hmishaps⟩
  apply Setting.Triple.bind (.retry hcreate)
  intro id
  cases id with
  | some handler => exact .ret fun s hs => hs.1 handler rfl
  | none => exact .fail fun s hs => hs.2 rfl

/-- The slot of the handler is filled, and what fills it is on disk. -/
def Filled (texts : Texts) (d : Project) (m₀ m : StellarDeployManifest) (s : Site) : Prop :=
  Loaded texts d m₀ m s ∧ m.handler ≠ none

variable (hm₀ : Complete m₀ d.security d.verification d.root) (howners : ¬c.owners)
  (hspares : ∀ i : Action, i.spares = true → allowed' (.inl i))
  (hfills : m₀.handler = none → ∀ i, allowed' i)

include hm₀ howners hfills in
theorem fillHandler_filled :
    (handlerSetting p account c).Triple (Ready texts d m₀) allowed' (Loaded texts d m₀ m)
      (fillHandler texts cfg m d.root) (fun m => Filled texts d m₀ m) fun _ _ => c.mishaps := by
  unfold fillHandler
  split
  next h hhandler => exact .ret fun s hs => ⟨hs, by rw [hhandler]; exact nofun⟩
  next hnone =>
    have hsame : ∀ s, Loaded texts d m₀ m s → m = m₀ ∧ Ready texts d m₀ s := by
      intro s hs
      obtain rfl | ⟨-, h, rfl⟩ := hs.withHandler
      · exact ⟨rfl, m, hs⟩
      · rw [handler_setHandler] at hnone
        cases hnone
    refine Setting.Triple.strengthen (.given ?_) hsame
    rintro rfl
    have hver : requireVerification m = .ok d.verification := by
      rw [requireVerification, hm₀.verification]
    rw [hver]
    apply (deployHandlerContract_fresh howners (hfills hnone _)).bind
    intro handler
    apply Setting.Triple.bind (.among (persist_fresh howners (fun i => hfills hnone (.inl i)) hnone)
      fun _ => id)
    intro _
    exact .ret fun s hs => ⟨hs, by rw [handler_setHandler]; exact nofun⟩

theorem WithHandler.complete (h : WithHandler m₀ m) {sec ver root : Address}
    (hm₀ : Complete m₀ sec ver root) : Complete m sec ver root ∧ m.variant = m₀.variant := by
  obtain rfl | ⟨-, id, rfl⟩ := h
  · exact ⟨hm₀, rfl⟩
  · obtain ⟨hvariant, hsec, hver, hroot⟩ := @slots_setHandler m₀ id
    exact ⟨⟨hsec.trans hm₀.security, hver.trans hm₀.verification, hroot.trans hm₀.projectRoot⟩,
      hvariant⟩

include hm₀ howners hspares in
/-- The admin of project_root has the handler tracked. -/
theorem registerHandler_tracked (hadmin : d.admin = account) (hhandler : m.handler = some handler) :
    (setting p account c).Triple (Ready texts d m₀) (fun i => allowed' (.inl i))
      (Loaded texts d m₀ m) (registerHandler m cfg)
      (fun _ s => Loaded texts d m₀ m s ∧ Tracked d.root handler s) fun _ _ => c.mishaps := by
  have hsame : ∀ s, Loaded texts d m₀ m s → WithHandler m₀ m ∧ Loaded texts d m₀ m s :=
    fun s hs => ⟨hs.withHandler, hs⟩
  refine Setting.Triple.strengthen (.given fun hwith => ?_) hsame
  obtain ⟨hcomplete, hvariant⟩ := hwith.complete hm₀
  have hroot' : requireProjectRoot m = .ok d.root := by
    rw [requireProjectRoot, hcomplete.projectRoot]
  have hhandler' : requireHandler m = .ok handler := by
    rw [requireHandler, hhandler]
  have hsends : (setting p account c).Triple (Ready texts d m₀) (fun i => allowed' (.inl i))
      (Loaded texts d m₀ m) (execute d.root (.registerHandler handler))
      (fun hash s => (Loaded texts d m₀ m s ∧ Tracked d.root handler s) ∧ (hash = none → c.mishaps))
      fun _ s => Loaded texts d m₀ m s ∧ c.mishaps := by
    refine execute_triple _ _ (hspares _ rfl) (stable_loaded howners) (fun _ => id)
      (fun _ hs => ⟨m, hs⟩) fun s tx hs hsigns => ?_
    obtain ⟨hreply, hkeeps, htracked⟩ := transact_registerHandler (p := p)
      (hvariant ▸ hs.project) hs.born hhandler hadmin hsigns
    rw [hreply]
    exact ⟨hs.step hkeeps rfl, htracked⟩
  unfold registerHandler
  rw [hroot', hhandler']
  apply Setting.Triple.bind (s := retry cfg (execute d.root (.registerHandler handler)))
    (.retry hsends)
  intro hash
  cases hash with
  | some hash => exact .ret fun s hs => hs.1
  | none => exact .fail fun s hs => hs.2 rfl

include hm₀ howners hspares in
theorem trackHandler_tracked (hhandler : m.handler = some handler) :
    (setting p account c).Triple (Ready texts d m₀) (fun i => allowed' (.inl i))
      (Loaded texts d m₀ m) (trackHandler account cfg m d.root)
      (fun _ s => Loaded texts d m₀ m s ∧ (d.admin = account → Tracked d.root handler s))
      fun _ _ => c.mishaps := by
  have hasks : (setting p account c).Triple (Ready texts d m₀) (fun i => allowed' (.inl i))
      (Loaded texts d m₀ m) (admin d.root)
      (fun current s => d.admin = current ∧ Loaded texts d m₀ m s)
      fun _ _ => c.mishaps := by
    refine (admin_triple (hspares _ rfl) (stable_loaded howners) (fun _ hs => ⟨m, hs⟩)
      fun s hs => ⟨_, hs.project.root⟩).consequence (fun _ => id) ?_ fun _ _ hs => hs.2
    rintro current s ⟨hs, -, o, ho, rfl⟩
    obtain ⟨-, o', ho', hholder⟩ := hs.project.root
    rw [ho] at ho'
    cases ho'
    exact ⟨hholder.symm, hs⟩
  unfold trackHandler
  apply hasks.bind
  intro current
  apply Setting.Triple.given
  intro hcurrent
  split
  next hours =>
    exact (registerHandler_tracked hm₀ howners hspares (hcurrent.trans hours) hhandler).bind
      fun _ => .ret fun s hs => ⟨hs.1, fun _ => hs.2⟩
  next hothers =>
    exact .ret fun s hs => ⟨hs, fun h => absurd (hcurrent.symm.trans h) hothers⟩

include hm₀ howners hspares hfills in
/-- `deploy-handler`, from any point at which an earlier run may have stopped. -/
theorem deployHandler_triple :
    (handlerSetting p account c).Triple (Ready texts d m₀) allowed' (Ready texts d m₀)
      (deployHandler texts account cfg)
      (fun m s => ∃ handler, m.handler = some handler ∧ Loaded texts d m₀ m s ∧
        (d.admin = account → Tracked d.root handler s))
      fun _ _ => c.mishaps := by
  apply Setting.Triple.bind (.among (load_ready howners (hspares _ rfl)) fun _ => id)
  intro m
  have hsame : ∀ s, Loaded texts d m₀ m s → WithHandler m₀ m ∧ Loaded texts d m₀ m s :=
    fun s hs => ⟨hs.withHandler, hs⟩
  refine Setting.Triple.strengthen (.given fun hwith => ?_) hsame
  have hroot : requireProjectRoot m = .ok d.root := by
    rw [requireProjectRoot, (hwith.complete hm₀).1.projectRoot]
  rw [hroot]
  apply (fillHandler_filled hm₀ howners hfills).bind
  intro m'
  have hfilled : ∀ s, Filled texts d m₀ m' s → m'.handler ≠ none ∧ Loaded texts d m₀ m' s :=
    fun s hs => ⟨hs.2, hs.1⟩
  refine Setting.Triple.strengthen (.given fun hne => ?_) hfilled
  obtain ⟨handler, hhandler⟩ := Option.ne_none_iff_exists'.mp hne
  apply Setting.Triple.bind (.among (trackHandler_tracked hm₀ howners hspares hhandler) fun _ => id)
  intro _
  exact .ret fun s hs => ⟨handler, hhandler, hs⟩

end Command

/-! ## Histories -/

/-- A run of `deploy-handler`, as far as it went. -/
structure HandlerRun where
  cfg : RetryConfig
  trace : List HandlerAction
  outcome : Outcome DeployerError StellarDeployManifest

def DeploysHandler (p : Platform) (texts : Texts) (account : Address) (c : Circumstances) (s : Site)
    (run : HandlerRun) (s' : Site) : Prop :=
  (handlerSetting p account c).Runs (deployHandler texts account run.cfg) s run.trace run.outcome s'

/-- The run created nothing and wrote nothing. -/
def HandlerRun.Spares (run : HandlerRun) : Prop :=
  ∀ i ∈ run.trace, ∃ j : Action, i = .inl j ∧ j.spares = true

section Histories

variable {p : Platform} {texts : Texts} {account : Address} {c : Circumstances} {d : Project}
  {m₀ m : StellarDeployManifest} {s s' : Site} {run : HandlerRun} {runs : List HandlerRun}
  {handler : Address}

/-- What one run does. -/
theorem DeploysHandler.sound (h : DeploysHandler p texts account c s run s')
    (howners : ¬c.owners) (hm₀ : Complete m₀ d.security d.verification d.root)
    (hs : Ready texts d m₀ s) : Ready texts d m₀ s' ∧ (m₀.handler ≠ none → run.Spares) ∧
      (∀ m, run.outcome = .returned m → ∃ handler, m.handler = some handler ∧
        Loaded texts d m₀ m s' ∧ (d.admin = account → Tracked d.root handler s')) ∧
      ∀ e, run.outcome = .failed e → c.mishaps := by
  have htriple : (handlerSetting p account c).Triple (Ready texts d m₀)
      (fun i => m₀.handler ≠ none → ∃ j : Action, i = .inl j ∧ j.spares = true)
      (Ready texts d m₀) (deployHandler texts account run.cfg) _ _ :=
    deployHandler_triple hm₀ howners (fun j hj _ => ⟨j, rfl, hj⟩)
      fun hnone _ hsome => absurd hnone hsome
  have hstable : (handlerSetting p account c).Stable (Ready texts d m₀) :=
    @stable_ready p texts account c d m₀ howners
  obtain ⟨hready, htrace, hreturned, hfailed⟩ := Setting.Runs.sound h hstable (htriple s hs) hs
  refine ⟨hready, fun hsome i hi => htrace i hi hsome, fun m hm => ?_, fun e he => ?_⟩
  · obtain ⟨w, ⟨handler, hhandler, hloaded, htracked⟩, hothers⟩ := hreturned m hm
    have hstable : (setting p account c).Stable fun s => Loaded texts d m₀ m s ∧
        (d.admin = account → Tracked d.root handler s) := by
      rintro s s' hothers ⟨hs, hadmin⟩
      obtain ⟨hkeeps, hfile⟩ := others_keeps howners hothers
      exact ⟨hs.step hkeeps hfile,
        fun h => hkeeps.tracked d.root hs.project.root.1 handler (hadmin h)⟩
    exact ⟨handler, hhandler, hstable.star hothers ⟨hloaded, htracked⟩⟩
  · obtain ⟨_, hmishaps, -⟩ := hfailed e he
    exact hmishaps

/-- The pipeline, with the handler of a run that returned. -/
def Project.tracking (d : Project) (account handler : Address) : Project :=
  { d with handlers := if d.admin = account then [handler] else [] }

/-- What a run that returned leaves is itself a point from which to go on. -/
theorem Loaded.tracking (h : Loaded texts d m₀ m s) (hvariant : m.variant = m₀.variant)
    (htracked : d.admin = account → Tracked d.root handler s) :
    Loaded texts (d.tracking account handler) m m s where
  project := by
    refine ⟨hvariant ▸ h.project.security, hvariant ▸ h.project.verification, h.project.root,
      fun h hmem => ?_⟩
    simp only [Project.tracking] at hmem
    split at hmem
    · next hadmin =>
        rw [List.mem_singleton.mp hmem]
        exact htracked hadmin
    · cases hmem
  withHandler := .inl rfl
  file := h.file
  born := h.born

/-- A manifest with a handler stays. -/
theorem DeploysHandler.keeps (h : DeploysHandler p texts account c s run s')
    (howners : ¬c.owners) (hm : Complete m d.security d.verification d.root)
    (hhandler : m.handler ≠ none) (hs : Loaded texts d m m s) :
    Loaded texts d m m s' ∧ run.Spares := by
  obtain ⟨⟨m', hm'⟩, hspares, -⟩ := h.sound howners hm ⟨m, hs⟩
  refine ⟨?_, hspares hhandler⟩
  obtain rfl | ⟨hnone, -⟩ := hm'.withHandler
  · exact hm'
  · exact absurd hnone hhandler

/-- What any history of runs leaves. -/
theorem handler_history (hm₀ : Complete m₀ d.security d.verification d.root)
    (hrun : Transition.Run (Loaded texts d m₀ m₀) (DeploysHandler p texts account interrupted)
      runs s) : Ready texts d m₀ s ∧ ∀ run ∈ runs, ∀ m, run.outcome = .returned m →
        ∃ handler, m.handler = some handler ∧
          Complete m d.security d.verification d.root ∧
          Loaded texts (d.tracking account handler) m m s := by
  refine Transition.Run.induction (motive := fun runs s => Ready texts d m₀ s ∧
    ∀ run ∈ runs, ∀ m, run.outcome = .returned m → ∃ handler, m.handler = some handler ∧
      Complete m d.security d.verification d.root ∧
      Loaded texts (d.tracking account handler) m m s) ?_ ?_ hrun
  · intro s hs
    exact ⟨⟨m₀, hs⟩, by simp⟩
  · rintro runs s run s' - ⟨hready, hbefore⟩ hstep
    obtain ⟨hready', -, hreturned, -⟩ := hstep.sound id hm₀ hready
    refine ⟨hready', fun earlier hmem m hm => ?_⟩
    rcases List.mem_append.mp hmem with hmem | hmem
    · obtain ⟨handler, hhandler, hcomplete, hloaded⟩ := hbefore earlier hmem m hm
      exact ⟨handler, hhandler, hcomplete,
        (hstep.keeps (d := d.tracking account handler) id hcomplete
          (by rw [hhandler]; exact nofun) hloaded).1⟩
    · rw [List.mem_singleton.mp hmem] at hm
      obtain ⟨handler, hhandler, hloaded, htracked⟩ := hreturned m hm
      obtain ⟨hcomplete, hvariant⟩ := hloaded.withHandler.complete hm₀
      exact ⟨handler, hhandler, hcomplete, hloaded.tracking hvariant htracked⟩

theorem exists_handlerActs (h : HasRoom s) (i : HandlerAction) :
    ∃ r s', (handlerSetting p account undisturbed).acts s i r s' ∧ HasRoom s' := by
  cases i with
  | inl i =>
      obtain ⟨r, s', hperforms, hs'⟩ := exists_performs p account h i
      exact ⟨r, s', .inl hperforms, hs'⟩
  | inr d =>
      obtain ⟨a, -, hfree⟩ := h 0
      have wasm : BytesN 32 := ⟨List.replicate 32 0, List.length_replicate⟩
      exact ⟨.ok (some a), _, .performed a _ ⟨wasm, hfree, rfl⟩, h.deploy a (d.construct wasm)⟩

end Histories

theorem HasRoom.record (h : HasRoom s) : HasRoom (s.record texts m) :=
  h

/-- A pipeline that was deployed and adopted is a point to start from. -/
theorem Settled.loaded {bytes : Bytes} (h : Settled texts account bytes m s)
    (hhandler : m.handler = none) : ∃ d : Project, d.handlers = [] ∧
      Complete m d.security d.verification d.root ∧ Loaded texts d m m s := by
  obtain ⟨sec, ver, root, hsec, hver, hroot, -, -⟩ := h.adopted
  obtain ⟨sec', hsec', hverHas⟩ := h.custody.verification ver hver
  obtain ⟨sec'', ver'', hsec'', hver'', hcreated, o, ho, -⟩ := h.custody.projectRoot root hroot
  obtain rfl : sec = sec' := Option.some.inj (hsec.symm.trans hsec')
  obtain rfl : sec = sec'' := Option.some.inj (hsec.symm.trans hsec'')
  obtain rfl : ver = ver'' := Option.some.inj (hver.symm.trans hver'')
  refine ⟨⟨sec, ver, root, o.holder, []⟩, rfl, ⟨hsec, hver, hroot⟩, ?_, .inl rfl,
    ⟨bytes, h.file, h.parse⟩, ?_⟩
  · exact ⟨(h.custody.security sec hsec).mono fun _ _ => trivial,
      hverHas.mono fun _ _ => trivial, ⟨hcreated, o, ho, rfl⟩, by simp⟩
  · intro handler hmem
    rw [hhandler] at hmem
    cases hmem

/-- The deployment of a handler that was interrupted, any number of times and anywhere, can
be resumed.  The manifest on disk is as it was, but for a handler of this pipeline with
project_root as its admin; what a run returned is still on disk, and its handler is
tracked if the deployer is the admin of project_root; while the manifest names a handler,
no run creates one or writes a file; and a run in which nothing goes wrong returns. -/
theorem deploy_handler_resumes {p : Platform} {texts : Texts} {account : Address} {d : Project}
    {m₀ : StellarDeployManifest} {runs : List HandlerRun} {s : Site}
    (hm₀ : Complete m₀ d.security d.verification d.root)
    (hrun : Transition.Run (Loaded texts d m₀ m₀) (DeploysHandler p texts account interrupted)
      runs s) :
    (∃ m, OnFile texts m s ∧ (m = m₀ ∨ m₀.handler = none ∧ ∃ h, m = m₀.setHandler h) ∧
      ∀ h, m.handler = some h → h ∈ s.created ∧
        s.listing h = some ⟨.handler m.variant.scheme d.verification, d.root, none⟩) ∧
    (∀ run ∈ runs, ∀ m, run.outcome = .returned m → OnFile texts m s ∧
      ∃ h, m.handler = some h ∧ (d.admin = account → Tracked d.root h s)) ∧
    (∀ m, OnFile texts m s → m.handler ≠ none → ∀ run s',
      DeploysHandler p texts account interrupted s run s' → OnFile texts m s' ∧ run.Spares) ∧
    ∀ cfg, (∀ trace outcome s',
        DeploysHandler p texts account undisturbed s ⟨cfg, trace, outcome⟩ s' →
          outcome ≠ .stopped → ∃ m, outcome = .returned m ∧ OnFile texts m s' ∧
            ∃ h, m.handler = some h ∧ (d.admin = account → Tracked d.root h s')) ∧
      (HasRoom s → ∃ trace outcome s',
        DeploysHandler p texts account undisturbed s ⟨cfg, trace, outcome⟩ s' ∧
          outcome ≠ .stopped) := by
  obtain ⟨hready, hreturned⟩ := handler_history hm₀ hrun
  refine ⟨?_, fun run hmem m hm => ?_, fun m hfile hhandler run s' hstep => ?_,
    fun cfg => ⟨fun trace outcome s' hstep hended => ?_, fun hroom => ?_⟩⟩
  · obtain ⟨m, hm⟩ := hready
    refine ⟨m, hm.file, hm.withHandler, fun h hh => ?_⟩
    obtain ⟨hcreated, o, ho, rfl⟩ := hm.born h hh
    exact ⟨hcreated, ho⟩
  · obtain ⟨h, hh, -, hloaded⟩ := hreturned run hmem m hm
    refine ⟨hloaded.file, h, hh, fun hadmin => hloaded.project.tracked h ?_⟩
    simp only [Project.tracking, if_pos hadmin, List.mem_singleton]
  · obtain ⟨m', hm'⟩ := hready
    obtain rfl : m' = m := by
      obtain ⟨bytes, hbytes, hparse⟩ := hfile
      obtain ⟨bytes', hbytes', hparse'⟩ := hm'.file
      obtain rfl : bytes = bytes' := Option.some.inj (hbytes.symm.trans hbytes')
      exact Option.some.inj (hparse'.symm.trans hparse)
    obtain ⟨hcomplete, hvariant⟩ := hm'.withHandler.complete hm₀
    have hstart : Loaded texts d m' m' s :=
      ⟨hvariant ▸ hm'.project, .inl rfl, hm'.file, hm'.born⟩
    obtain ⟨hloaded, hspares⟩ := hstep.keeps id hcomplete hhandler hstart
    exact ⟨hloaded.file, hspares⟩
  · obtain ⟨-, -, hreturns, hfails⟩ := hstep.sound id hm₀ hready
    cases outcome with
    | returned m =>
        obtain ⟨h, hh, hloaded, htracked⟩ := hreturns m rfl
        exact ⟨m, rfl, hloaded.file, h, hh, htracked⟩
    | failed e => exact (hfails e rfl).elim
    | stopped => exact absurd rfl hended
  · have hanswered : ∀ s i, HasRoom s →
        ∃ r s', (handlerSetting p account undisturbed).acts s i r s' ∧ HasRoom s' :=
      fun s i hs => exists_handlerActs hs i
    obtain ⟨trace, outcome, s', hruns, hended⟩ :=
      Setting.exists_run hanswered (deployHandler texts account cfg) hroom
    exact ⟨trace, outcome, s', hruns, hended⟩

namespace Fixture

def handler : Address := ⟨14⟩

def pipeline : Project where
  security := Fixture.security
  verification := Fixture.verification
  root := Fixture.projectRoot
  admin := account
  handlers := []

def deployed : StellarDeployManifest :=
  manifest (some pipeline.verification) (some pipeline.root)

def handlerDeployment : HandlerDeployment := ⟨.stellar, pipeline.root, pipeline.verification⟩

/-- The pipeline after its three contracts were created. -/
theorem pipeline_loaded : Loaded texts pipeline deployed deployed afterProjectRoot where
  project :=
    { security := ⟨by decide, _, rfl, trivial⟩
      verification := ⟨by decide, _, rfl, trivial⟩
      root := ⟨by decide, _, rfl, rfl⟩
      tracked := by simp [pipeline] }
  withHandler := .inl rfl
  file := ⟨_, rfl, texts.fromSlice_toStringPretty _⟩
  born := nofun

theorem afterProjectRoot_hasRoom : HasRoom afterProjectRoot :=
  ((start_hasRoom.deploy _ securityInstance).record.deploy _ verificationInstance).record.deploy _
    projectRootInstance |>.record

/-- A run that stopped when the handler was created, but not recorded. -/
theorem orphan_runs (p : Platform) : (handlerSetting p account interrupted).Runs
    (deployHandler texts account cfg) afterProjectRoot [.inl .read, .inr handlerDeployment]
    .stopped (afterProjectRoot.deploy handler (handlerDeployment.construct wasm)) := by
  have hload : (setting p account interrupted).Runs (load texts) afterProjectRoot [.read]
      (.returned deployed) afterProjectRoot := by
    refine (performs_runs (i := .read) ⟨rfl, rfl⟩).bind ?_
    rw [texts.fromSlice_toStringPretty]
    exact .ret _ _
  have hcreates : HandlerActs interrupted afterProjectRoot handlerDeployment (.ok (some handler))
      (afterProjectRoot.deploy handler (handlerDeployment.construct wasm)) :=
    .performed handler _ ⟨wasm, rfl, rfl⟩
  exact hload.among.bind (.act hcreates (.stop _ _))

end Fixture

open Fixture in
theorem deploy_handler_resumes_sample : ∃ s, Transition.Run
    (Loaded texts pipeline deployed deployed)
    (DeploysHandler Sample.platform texts account interrupted)
    [⟨cfg, [.inl .read, .inr handlerDeployment], .stopped⟩] s ∧
      s.created = [pipeline.security, pipeline.verification, pipeline.root, handler] ∧
      OnFile texts deployed s ∧
      ∃ trace m s', DeploysHandler Sample.platform texts account undisturbed s
        ⟨cfg, trace, .returned m⟩ s' ∧ OnFile texts m s' ∧
          ∃ h, m.handler = some h ∧ Tracked pipeline.root h s' := by
  have hrun : Transition.Run _ (DeploysHandler Sample.platform texts account interrupted)
      [⟨cfg, [.inl .read, .inr handlerDeployment], .stopped⟩] _ :=
    (Transition.Run.start pipeline_loaded).snoc (orphan_runs Sample.platform)
  obtain ⟨-, -, -, hresume⟩ := deploy_handler_resumes (d := pipeline) complete hrun
  obtain ⟨hreturns, hexists⟩ := hresume cfg
  obtain ⟨trace, outcome, s', hstep, hended⟩ := hexists (afterProjectRoot_hasRoom.deploy _ _)
  obtain ⟨m, rfl, hfile, h, hhandler, htracked⟩ := hreturns trace outcome s' hstep hended
  exact ⟨_, hrun, rfl, pipeline_loaded.file, trace, m, s', hstep, hfile, h, hhandler,
    htracked rfl⟩

end WarpDrive.Deployer
