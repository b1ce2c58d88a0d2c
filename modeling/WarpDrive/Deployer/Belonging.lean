import WarpDrive.Deployer.Pipeline

/-!
# A run on the recorded network

The manifest records the network that its contracts are on.  As long as a run of
`deploy_pipeline` is on that network, the manifest on disk names only contracts created
there, and every new contract is constructed on contracts created there (`AtHome`).

A step of the run deploys, writes a manifest or calls a contract.  The calls, and whatever
others do meanwhile, change neither the files nor what the contracts are (`Same`); the
other steps keep the manifest in memory within the network as well (`Bound`).

A run that finds a manifest of another variant or admin reads it and stops.
-/

namespace WarpDrive.Deployer

open Interaction Relation

/-! ## Slots -/

/-- All slots, empty or not. -/
def ManifestContracts.slots (c : ManifestContracts) : List (Option Address) :=
  [c.projectRoot, c.secp256k1Security, c.secp256k1Verification, c.ed25519Security,
    c.ed25519Verification, c.ethereumHandler, c.stellarHandler]

section Slots

open StellarDeployManifest

variable {m : StellarDeployManifest} {a : Address}

theorem mem_slots_of_security (h : m.security = some a) : some a ∈ m.contracts.slots := by
  unfold StellarDeployManifest.security at h
  split at h
  · simp [ManifestContracts.slots, h]
  · simp [ManifestContracts.slots, h]

theorem mem_slots_of_verification (h : m.verification = some a) :
    some a ∈ m.contracts.slots := by
  unfold StellarDeployManifest.verification at h
  split at h
  · simp [ManifestContracts.slots, h]
  · simp [ManifestContracts.slots, h]

/-- A write fills one slot. -/
theorem mem_slots_set {b : Address} :
    (some b ∈ (m.setSecurity a).contracts.slots → b = a ∨ some b ∈ m.contracts.slots) ∧
      (some b ∈ (m.setVerification a).contracts.slots → b = a ∨ some b ∈ m.contracts.slots) ∧
      (some b ∈ (m.setProjectRoot a).contracts.slots → b = a ∨ some b ∈ m.contracts.slots) := by
  obtain ⟨_, _, _, variant, _⟩ := m
  cases variant with
  | ethereum =>
      simp only [setSecurity, setVerification, setProjectRoot, ManifestContracts.slots,
        List.mem_cons, Option.some.injEq]
      grind
  | stellar =>
      simp only [setSecurity, setVerification, setProjectRoot, ManifestContracts.slots,
        List.mem_cons, Option.some.injEq]
      grind

/-- No write of a slot changes the recorded network. -/
theorem networkPassphrase_set :
    (m.setSecurity a).networkPassphrase = m.networkPassphrase ∧
      (m.setVerification a).networkPassphrase = m.networkPassphrase ∧
      (m.setProjectRoot a).networkPassphrase = m.networkPassphrase := by
  obtain ⟨_, _, _, variant, _⟩ := m
  cases variant <;> exact ⟨rfl, rfl, rfl⟩

end Slots

/-! ## What belongs to a network -/

/-- Every contract in a slot was created on this network. -/
def Created (m : StellarDeployManifest) (s : Site) : Prop :=
  ∀ a, some a ∈ m.contracts.slots → a ∈ s.created

/-- What the deployer created was constructed on contracts that it created there. -/
def Site.Wired (s : Site) : Prop :=
  ∀ a ∈ s.created, ∀ shape, s.system.world.shape a = some shape → ∀ b ∈ shape.links, b ∈ s.created

/-- The manifest on disk records this network, and only contracts of it. -/
structure AtHome (texts : Texts) (passphrase : String) (s : Site) : Prop where
  recorded : ∀ bytes, s.manifest = some bytes → ∃ m, texts.fromSlice bytes = some m ∧
    m.networkPassphrase = some passphrase ∧ Created m s
  wired : s.Wired

/-- The manifest is as it was, and so are the contracts of the deployer, as far as it
matters what they are. -/
structure Same (s s' : Site) : Prop where
  manifest : s'.manifest = s.manifest
  created : s'.created = s.created
  shape : ∀ a ∈ s.created, s'.system.world.shape a = s.system.world.shape a

section Same

variable {p : Platform} {texts : Texts} {account : Address} {c : Circumstances}
  {m : StellarDeployManifest} {passphrase : String} {s s' s'' : Site} {i : Action}
  {r : Except DeployerError i.Response}

theorem Same.refl (s : Site) : Same s s :=
  ⟨rfl, rfl, fun _ _ => rfl⟩

theorem Same.trans (h : Same s s') (h' : Same s' s'') : Same s s'' where
  manifest := h'.manifest.trans h.manifest
  created := h'.created.trans h.created
  shape a ha := (h'.shape a (by rwa [h.created])).trans (h.shape a ha)

theorem Same.createdBy (h : Same s s') (hs : Created m s) : Created m s' := by
  intro a ha
  rw [h.created]
  exact hs a ha

theorem Same.wired (h : Same s s') (hs : s.Wired) : s'.Wired := by
  intro a ha shape hshape b hb
  rw [h.created] at ha ⊢
  rw [h.shape a ha] at hshape
  exact hs a ha shape hshape b hb

theorem Same.atHome (h : Same s s') (hs : AtHome texts passphrase s) :
    AtHome texts passphrase s' where
  recorded bytes hbytes := by
    obtain ⟨m, hparse, hnetwork, hcreated⟩ := hs.recorded bytes (h.manifest.symm.trans hbytes)
    exact ⟨m, hparse, hnetwork, h.createdBy hcreated⟩
  wired := h.wired hs.wired

theorem same_transact (s : Site) (tx : Transaction) (target : Address) (call : Call) :
    Same s (s.transact p tx target call) :=
  ⟨rfl, rfl, fun a _ => congrFun (invoke_shape target call) a⟩

theorem others_same (h : (setting p account c).others s s') : Same s s' := by
  obtain helsewhere | ⟨-, haccepts⟩ := h
  · refine ⟨helsewhere.manifest, helsewhere.created, fun a ha => ?_⟩
    rw [World.shape, World.shape, helsewhere.contracts a ha]
  · obtain ⟨_, _, _, _, _, _, _, _, _⟩ := haccepts
    exact same_transact _ _ _ _

theorem others_star_same (h : ReflTransGen (setting p account c).others s s') : Same s s' := by
  induction h with
  | refl => exact .refl s
  | tail _ hstep ih => exact ih.trans (others_same hstep)

/-- The queries and the transactions. -/
def Action.calls : Action → Prop
  | query .. | execute .. => True
  | _ => False

theorem Performs.same (h : Performs p account s i r s') (hcalls : i.calls) : Same s s' := by
  cases i with
  | query target call =>
      obtain ⟨rfl, -⟩ := h
      exact .refl _
  | execute target call =>
      obtain ⟨tx, -, -, rfl, -⟩ := h
      exact same_transact s tx target call
  | _ => cases hcalls

theorem acts_same (h : (setting p account c).acts s i r s') (hcalls : i.calls) : Same s s' := by
  obtain hperforms | ⟨-, hmishap⟩ := h
  · exact hperforms.same hcalls
  · cases hmishap with
    | failed => exact .refl s
    | lost _ _ _ _ _ hperforms => exact hperforms.same hcalls
    | torn => cases hcalls
    | noId => cases hcalls
    | noHash _ _ _ _ hperforms => exact hperforms.same hcalls

end Same

/-! ## A run on the recorded network -/

section Run

open StellarDeployManifest

variable {p : Platform} {texts : Texts} {account : Address} {c : Circumstances}
  {m : StellarDeployManifest} {cfg : RetryConfig} {params : DeployParams}
  {passphrase : String} {s : Site}

/-- The manifest in memory has contracts of this network only, as the one on disk. -/
def Bound (texts : Texts) (passphrase : String) (m : StellarDeployManifest) (s : Site) : Prop :=
  AtHome texts passphrase s ∧ Created m s

theorem Same.bound {s s' : Site} (h : Same s s') (hs : Bound texts passphrase m s) :
    Bound texts passphrase m s' :=
  ⟨h.atHome hs.1, h.createdBy hs.2⟩

theorem stable_bound : (setting p account c).Stable (Bound texts passphrase m) :=
  fun _ _ hothers hs => (others_same hothers).bound hs

theorem stable_atHome : (setting p account c).Stable (AtHome texts passphrase) :=
  fun _ _ hothers hs => (others_same hothers).atHome hs

/-- A contract that is constructed on contracts of this network. -/
theorem Bound.deploy {a : Address} {inst : Instance} {d : Deployment}
    (hs : Bound texts passphrase m s) (hfresh : s.system.world.contracts a = none)
    (hlisting : inst.listing? = some d.listing)
    (hlinks : ∀ b ∈ d.listing.shape.links, b ∈ s.created) :
    Bound texts passphrase m (s.deploy a inst) := by
  have hcreated : ∀ b ∈ s.created, b ∈ (s.deploy a inst).created :=
    fun b hb => List.mem_append_left _ hb
  have hshape : inst.shape = d.listing.shape := by
    obtain ⟨b, -, hb⟩ := Option.map_eq_some_iff.mp hlisting
    rw [← hb]
  refine ⟨⟨fun bytes hbytes => ?_, fun b hb shape hb' l hl => ?_⟩, fun b hb => ?_⟩
  · obtain ⟨m', hparse, hnetwork, hm'⟩ := hs.1.recorded bytes hbytes
    exact ⟨m', hparse, hnetwork, fun b hb => hcreated b (hm' b hb)⟩
  · by_cases hab : b = a
    · subst hab
      have hnew : (s.deploy b inst).system.world.shape b = some inst.shape := by
        simp [World.shape, Site.deploy]
      obtain rfl : inst.shape = shape := Option.some.inj (hnew.symm.trans hb')
      exact hcreated l (hlinks l (hshape ▸ hl))
    · have hold : (s.deploy a inst).system.world.shape b = s.system.world.shape b := by
        simp [World.shape, Site.deploy, Function.update_of_ne hab]
      have hb₀ : b ∈ s.created := by
        simpa [Site.deploy, hab] using hb
      exact hcreated l (hs.1.wired b hb₀ shape (hold.symm.trans hb') l hl)
  · exact hcreated b (hs.2 b hb)

theorem deployOne_bound_triple {d : Deployment}
    (hlinks : ∀ s, Created m s → ∀ b ∈ d.listing.shape.links, b ∈ s.created) :
    (setting p account c).Triple (AtHome texts passphrase) (fun _ => True)
      (Bound texts passphrase m) (deployOne cfg d)
      (fun a s => Bound texts passphrase m s ∧ a ∈ s.created) fun _ _ => True := by
  have hcreate : (setting p account c).Triple (AtHome texts passphrase) (fun _ => True)
      (Bound texts passphrase m) (create d) _ _ :=
    create_triple trivial stable_bound (fun _ hs => hs.1)
      fun s a inst hs hfresh hlisting => hs.deploy hfresh hlisting (hlinks s hs.2)
  apply Setting.Triple.bind ((Setting.Triple.retry hcreate).consequence (fun _ => id)
    (fun _ _ => id) fun _ _ _ => trivial)
  intro id
  cases id with
  | none => exact .fail fun _ _ => trivial
  | some a => exact .ret fun s hs => ⟨hs.1, hs.2.1⟩

/-- Record what was created. -/
theorem persist_bound_triple (hnetwork : m.networkPassphrase = some passphrase) :
    (setting p account c).Triple (AtHome texts passphrase) (fun _ => True)
      (Bound texts passphrase m) (persist texts m) (fun _ => Bound texts passphrase m)
      fun _ _ => True := by
  refine (persist_triple (fun _ => trivial) stable_bound (fun _ hs => hs.1) ?_ ?_).consequence
    (fun _ => id) (fun _ _ hs => hs.1) fun _ _ _ => trivial
  · intro s file hs
    have hsame : Same s { s with scratch := file } := ⟨rfl, rfl, fun _ _ => rfl⟩
    exact hsame.bound hs
  · intro s hs
    refine ⟨⟨fun bytes hbytes => ?_, hs.1.wired⟩, hs.2⟩
    cases hbytes
    exact ⟨m, texts.fromSlice_toStringPretty m, hnetwork, hs.2⟩

/-- A step with an empty slot. -/
theorem fill_bound_triple {β : Type} {d : Deployment} {next : Address → StellarDeployManifest}
    {result : Address → β} {post : β → Site → Prop}
    (hlinks : ∀ s, Created m s → ∀ b ∈ d.listing.shape.links, b ∈ s.created)
    (hnetwork : ∀ a, (next a).networkPassphrase = some passphrase)
    (hslots : ∀ a b, some b ∈ (next a).contracts.slots → b = a ∨ some b ∈ m.contracts.slots)
    (hpost : ∀ a s, Bound texts passphrase (next a) s → post (result a) s) :
    (setting p account c).Triple (AtHome texts passphrase) (fun _ => True)
      (Bound texts passphrase m)
      (do
        let a ← deployOne cfg d
        persist texts (next a)
        pure (result a))
      post fun _ _ => True := by
  apply (deployOne_bound_triple hlinks).bind
  intro a
  refine ((persist_bound_triple (hnetwork a)).strengthen ?_).bind fun _ => .ret (hpost a)
  rintro s ⟨⟨hhome, hcreated⟩, ha⟩
  refine ⟨hhome, fun b hb => ?_⟩
  obtain rfl | hold := hslots a b hb
  · exact ha
  · exact hcreated b hold

/-! ### The steps -/

theorem deploySecurity_bound_triple (hnetwork : m.networkPassphrase = some passphrase) :
    (setting p account c).Triple (AtHome texts passphrase) (fun _ => True)
      (Bound texts passphrase m) (deploySecurity texts account params cfg m)
      (fun r s => (r.1.networkPassphrase = some passphrase ∧ r.1.security = some r.2) ∧
        Bound texts passphrase r.1 s) fun _ _ => True := by
  unfold deploySecurity
  split
  next a ha => exact .ret fun s hs => ⟨⟨hnetwork, ha⟩, hs⟩
  next =>
    have hkept : ∀ a, (m.setSecurity a).networkPassphrase = some passphrase :=
      fun a => networkPassphrase_set.1.trans hnetwork
    refine fill_bound_triple ?_ hkept (fun a b => mem_slots_set.1)
      fun a s hs => ⟨⟨hkept a, security_setSecurity⟩, hs⟩
    intro s _ b hb
    cases hb

theorem deployVerification_bound_triple {sec : Address}
    (hnetwork : m.networkPassphrase = some passphrase) (hsec : m.security = some sec) :
    (setting p account c).Triple (AtHome texts passphrase) (fun _ => True)
      (Bound texts passphrase m) (deployVerification texts account params cfg m sec)
      (fun r s => (r.1.networkPassphrase = some passphrase ∧ r.1.security = some sec ∧
        r.1.verification = some r.2) ∧ Bound texts passphrase r.1 s) fun _ _ => True := by
  unfold deployVerification
  split
  next a ha => exact .ret fun s hs => ⟨⟨hnetwork, hsec, ha⟩, hs⟩
  next =>
    have hkept : ∀ a, (m.setVerification a).networkPassphrase = some passphrase :=
      fun a => networkPassphrase_set.2.1.trans hnetwork
    refine fill_bound_triple ?_ hkept (fun a b => mem_slots_set.2.1) fun a s hs =>
      ⟨⟨hkept a, security_setVerification.trans hsec, verification_setVerification⟩, hs⟩
    intro s hcreated b hb
    obtain rfl : b = sec := List.mem_singleton.mp hb
    exact hcreated b (mem_slots_of_security hsec)

theorem deployProjectRoot_bound_triple {sec ver : Address}
    (hnetwork : m.networkPassphrase = some passphrase) (hsec : m.security = some sec)
    (hver : m.verification = some ver) :
    (setting p account c).Triple (AtHome texts passphrase) (fun _ => True)
      (Bound texts passphrase m) (deployProjectRoot texts account params cfg m sec ver)
      (fun m => Bound texts passphrase m) fun _ _ => True := by
  unfold deployProjectRoot
  split
  next => exact .ret fun s hs => hs
  next =>
    refine fill_bound_triple ?_ (fun a => networkPassphrase_set.2.2.trans hnetwork)
      (fun a b => mem_slots_set.2.2) fun a s hs => hs
    intro s hcreated b hb
    have hslots : some b ∈ m.contracts.slots := by
      obtain rfl | hb := List.mem_cons.mp hb
      · exact mem_slots_of_security hsec
      · obtain rfl : b = ver := List.mem_singleton.mp hb
        exact mem_slots_of_verification hver
    exact hcreated b hslots

/-- What is resumed are contracts of this network. -/
theorem resume_bound_triple {manifestPath : String} :
    (setting p account c).Triple (AtHome texts passphrase) (fun _ => True)
      (AtHome texts passphrase) (resume texts account params manifestPath)
      (fun m => Bound texts passphrase m) fun _ _ => True := by
  have hload : (setting p account c).Triple (AtHome texts passphrase) (fun _ => True)
      (AtHome texts passphrase) (load texts) (fun m => Bound texts passphrase m)
      fun _ => AtHome texts passphrase := by
    refine ((read_triple trivial stable_atHome fun _ hs => hs).consequence (fun _ => id)
      (fun _ _ => id) fun _ _ hs => hs.1).bind fun bytes => ?_
    rintro s ⟨hs, hfile⟩
    obtain ⟨m, hparse, -, hcreated⟩ := hs.recorded bytes hfile
    rw [hparse]
    exact ⟨hs, hcreated⟩
  have hfound : (setting p account c).Triple (AtHome texts passphrase) (fun _ => True)
      (AtHome texts passphrase) (loadIfExists texts)
      (fun found s => AtHome texts passphrase s ∧ ∀ m, found = some m → Created m s)
      fun _ _ => True := by
    refine .tryCatch (hload.bind fun m => .ret fun s hs => ⟨hs.1, ?_⟩) fun e => ?_
    · rintro _ ⟨rfl⟩
      exact hs.2
    · split
      · exact .ret fun s hs => ⟨hs, fun m hm => by cases hm⟩
      · exact .fail fun _ _ => trivial
  apply hfound.bind
  intro existing
  cases existing with
  | none =>
      refine .ret fun s hs => ⟨hs.1, fun a ha => ?_⟩
      simp [StellarDeployManifest.new, ManifestContracts.default, ManifestContracts.slots] at ha
  | some m =>
      simp only
      split
      next => exact .fail fun _ _ => trivial
      next =>
        split
        next => exact .fail fun _ _ => trivial
        next => exact .ret fun s hs => ⟨hs.1, hs.2 m rfl⟩

/-! ### The adoption -/

theorem admin_only (id : Address) : (admin id).Only Action.calls := by
  refine (Script.Only.perform trivial).bind fun v => ?_
  cases v with
  | _ => trivial

theorem pendingAdmin_only (id : Address) : (pendingAdmin id).Only Action.calls := by
  refine (Script.Only.perform trivial).bind fun v => ?_
  cases v with
  | _ => trivial

theorem propagate_only {α : Type} (r : Except DeployerError α) :
    (propagate r).Only Action.calls := by
  cases r with
  | ok a => trivial
  | error e => trivial

theorem proposeAdmin_only (t : Target) (newAdmin : String) :
    (proposeAdmin texts m cfg t newAdmin).Only Action.calls := by
  unfold proposeAdmin
  split
  · trivial
  · apply Script.Only.retry
    refine (propagate_only _).bind fun id => ?_
    refine (Script.Only.perform trivial).bind fun _ => ?_
    trivial

theorem acceptContractAdmin_only (t : Target) :
    (acceptContractAdmin m cfg t).Only Action.calls := by
  unfold acceptContractAdmin
  refine Script.Only.bind ?_ fun downstream => ?_
  · split
    · trivial
    · exact propagate_only _
  · refine (propagate_only _).bind fun root => ?_
    refine ((Script.Only.perform trivial).retry _).bind fun hash => ?_
    cases hash with
    | none => trivial
    | some hash => trivial

/-- The adoption queries and sends transactions. -/
theorem adoptDownstreams_only : (adoptDownstreams texts m cfg).Only Action.calls := by
  refine (propagate_only _).bind fun root => .forEach fun t _ => ?_
  unfold adopt
  refine (propagate_only _).bind fun d => (admin_only d).bind fun current => ?_
  split
  · trivial
  · refine (propagate_only _).bind fun d => (pendingAdmin_only d).bind fun pending => ?_
    refine Script.Only.bind ?_ fun _ => (acceptContractAdmin_only t).bind fun _ => ?_
    · split
      · trivial
      · exact proposeAdmin_only t _
    · trivial

theorem deployPipeline_bound_triple {net : NetworkConfig} {manifestPath : String}
    (hnetwork : passphrase = net.networkPassphrase) :
    (setting p account c).Triple (AtHome texts passphrase) (fun _ => True)
      (AtHome texts passphrase) (deployPipeline texts net account params manifestPath cfg)
      (fun _ => AtHome texts passphrase) fun _ _ => True := by
  have hcontracts : (setting p account c).Triple (AtHome texts passphrase) (fun _ => True)
      (AtHome texts passphrase) (deployContracts texts net account params manifestPath cfg)
      (fun m => Bound texts passphrase m) fun _ _ => True := by
    apply resume_bound_triple.bind
    intro m
    have hrecorded : (m.onNetwork net).networkPassphrase = some passphrase := by
      rw [hnetwork]
      rfl
    refine (deploySecurity_bound_triple hrecorded).bind fun r => .given fun hsec => ?_
    refine (deployVerification_bound_triple hsec.1 hsec.2).bind fun r' => .given fun hver => ?_
    exact deployProjectRoot_bound_triple hver.1 hver.2.1 hver.2.2
  refine hcontracts.bind fun m => ?_
  have hadopt : (setting p account c).Triple (AtHome texts passphrase) (fun _ => True)
      (AtHome texts passphrase) (adoptDownstreams texts m cfg)
      (fun _ => AtHome texts passphrase) fun _ => AtHome texts passphrase :=
    .only adoptDownstreams_only (fun _ _ => trivial) stable_atHome
      fun i s r s' hcalls hs hacts => ⟨(acts_same hacts hcalls).atHome hs,
        (acts_same hacts hcalls).atHome hs⟩
  refine (hadopt.consequence (fun _ hs => hs.1) (fun _ _ => id) fun _ _ _ => trivial).bind
    fun _ => .ret fun _ hs => hs

/-- A manifest of another variant or another admin is not touched. -/
theorem refused_triple {net : NetworkConfig} {manifestPath : String} {bytes : Bytes}
    (hparse : texts.fromSlice bytes = some m)
    (hother : m.variant ≠ params.variant ∨ m.admin ≠ texts.ofAddress account) :
    (setting p account c).Triple (fun s => s.manifest = some bytes) (fun i => i = .read)
      (fun s => s.manifest = some bytes)
      (deployPipeline texts net account params manifestPath cfg) (fun _ _ => False)
      fun _ _ => True := by
  have hload : (setting p account c).Triple (fun s => s.manifest = some bytes)
      (fun i => i = .read) (fun s => s.manifest = some bytes) (loadIfExists texts)
      (fun found _ => found = some m) fun _ _ => True := by
    refine .tryCatch (.bind (.bind (read_triple rfl stable_manifest fun _ hs => hs)
      fun bytes' => ?_) fun m' => .ret fun s (hs : m' = m) => by rw [hs]) fun e => ?_
    · rintro s ⟨hfile, hfile'⟩
      obtain rfl : bytes = bytes' := Option.some.inj (hfile.symm.trans hfile')
      rw [hparse]
      rfl
    · split
      next =>
        rintro s ⟨hfile, hmissing⟩
        rw [hfile] at hmissing
        cases hmissing
      next => exact .fail fun _ _ => trivial
  have hresume : (setting p account c).Triple (fun s => s.manifest = some bytes)
      (fun i => i = .read) (fun s => s.manifest = some bytes)
      (resume texts account params manifestPath) (fun _ _ => False) fun _ _ => True := by
    apply hload.bind
    rintro found s rfl
    simp only
    split
    next => trivial
    next hvariant =>
      rw [if_pos (hother.resolve_left hvariant)]
      trivial
  have hcontracts : (setting p account c).Triple (fun s => s.manifest = some bytes)
      (fun i => i = .read) (fun s => s.manifest = some bytes)
      (deployContracts texts net account params manifestPath cfg) (fun _ _ => False)
      fun _ _ => True := hresume.bind fun _ _ hs => hs.elim
  exact hcontracts.bind fun _ _ hs => hs.elim

end Run

end WarpDrive.Deployer
