import WarpDrive.Deployer.Adoption

/-!
# The deploy pipeline

The steps of `deploy_pipeline`, each from any point at which an earlier run may have
stopped.  `Draft` relates the manifest that a run has in memory to the site.
-/

namespace WarpDrive.Deployer

open Interaction Transfer StellarDeployManifest

/-! ## Filling a slot -/

section Slots

variable {account : Address} {m : StellarDeployManifest} {s : Site} {a sec ver : Address}

/-- With an empty slot before it, a slot is empty. -/
theorem Custody.empty (h : Custody account m s) :
    (m.security = none → m.verification = none) ∧
      (m.verification = none → m.projectRoot = none) := by
  constructor
  · intro hsec
    cases hver : m.verification with
    | none => rfl
    | some ver =>
        obtain ⟨sec, hsec', -⟩ := h.verification ver hver
        rw [hsec] at hsec'
        cases hsec'
  · intro hver
    cases hroot : m.projectRoot with
    | none => rfl
    | some root =>
        obtain ⟨_, ver, -, hver', -⟩ := h.projectRoot root hroot
        rw [hver] at hver'
        cases hver'

theorem held_vacant : Held account m ⟨account, none⟩ where
  holder := .inl rfl
  candidate _ h := nomatch h

/-- What the deployer holds alone, it still does when project_root is known. -/
theorem Held.of_none {m' : StellarDeployManifest} {o : Office Address} (h : Held account m o)
    (hnone : m.projectRoot = none) : Held account m' o where
  holder := .inl (h.holder.resolve_right (by rw [hnone]; exact nofun))
  candidate b hb := by
    have hb' := h.candidate b hb
    rw [hnone] at hb'
    cases hb'

theorem Custody.setSecurity (h : Custody account m s) (hnone : m.security = none)
    (ha : s.Has a (.security m.variant.scheme) fun o => o = ⟨account, none⟩) :
    Custody account (m.setSecurity a) s where
  tidy := (h.tidy.set a).1
  security b hb := by
    rw [security_setSecurity] at hb
    cases hb
    rw [admin_variant_set.1.2]
    exact ha.mono fun o ho => ho ▸ held_vacant
  verification b hb := by
    rw [verification_setSecurity, h.empty.1 hnone] at hb
    cases hb
  projectRoot b hb := by
    rw [projectRoot_setSecurity, h.empty.2 (h.empty.1 hnone)] at hb
    cases hb

theorem Custody.setVerification (h : Custody account m s) (hsec : m.security = some sec)
    (hnone : m.verification = none)
    (ha : s.Has a (.verification m.variant.scheme sec) fun o => o = ⟨account, none⟩) :
    Custody account (m.setVerification a) s where
  tidy := (h.tidy.set a).2.1
  security b hb := by
    rw [security_setVerification] at hb
    rw [admin_variant_set.2.1.2]
    exact (h.security b hb).mono fun o ho => ho.of_none (h.empty.2 hnone)
  verification b hb := by
    rw [verification_setVerification] at hb
    cases hb
    rw [admin_variant_set.2.1.2]
    exact ⟨sec, by rw [security_setVerification, hsec], ha.mono fun o ho => ho ▸ held_vacant⟩
  projectRoot b hb := by
    rw [projectRoot_setVerification, h.empty.2 hnone] at hb
    cases hb

theorem Custody.setProjectRoot (h : Custody account m s) (hsec : m.security = some sec)
    (hver : m.verification = some ver) (hnone : m.projectRoot = none)
    (ha : s.Has a (.projectRoot sec ver) fun o => o = ⟨account, none⟩) :
    Custody account (m.setProjectRoot a) s where
  tidy := (h.tidy.set a).2.2
  security b hb := (h.security b hb).mono fun o ho => ho.of_none hnone
  verification b hb := by
    obtain ⟨sec', hsec', hhas⟩ := h.verification b hb
    exact ⟨sec', hsec', hhas.mono fun o ho => ho.of_none hnone⟩
  projectRoot b hb := by
    rw [projectRoot_setProjectRoot] at hb
    cases hb
    exact ⟨sec, ver, hsec, hver, ha.mono fun o ho => .inl ho⟩

/-- An empty manifest has no contracts to hold. -/
theorem custody_new {admin : String} {variant : Variant} :
    Custody account (.new admin variant) s where
  tidy := by cases variant <;> rfl
  security b hb := by cases variant <;> cases hb
  verification b hb := by cases variant <;> cases hb
  projectRoot b hb := nomatch hb

end Slots

/-! ## Drafts -/

/-- The manifest in memory is of this account and variant, and its contracts are in
custody; what it has is on disk, unless it has nothing. -/
structure Draft (texts : Texts) (account : Address) (kind : Variant → Prop) (variant : Variant)
    (m : StellarDeployManifest) (s : Site) : Prop where
  ours : m.admin = texts.ofAddress account
  ofVariant : m.variant = variant
  custody : Custody account m s
  onDisk : OnDisk texts account kind s
  stored : m.security = none ∨ Stored texts account m s

/-- What the constructor of the security contract requires. -/
def DeployParams.Accepted (params : DeployParams) : Prop :=
  0 < params.threshold.1.toNat ∧ params.threshold.1.toNat ≤ params.threshold.2.toNat

/-- A manifest on disk names a security contract. -/
def HasSecurity (texts : Texts) (s : Site) : Prop :=
  ∃ bytes m, s.manifest = some bytes ∧ texts.fromSlice bytes = some m ∧ m.security ≠ none

/-- The security contract is there, or its constructor accepts the threshold. -/
def Feasible (texts : Texts) (params : DeployParams) (s : Site) : Prop :=
  params.Accepted ∨ HasSecurity texts s

section Steps

variable {p : Platform} {texts : Texts} {account : Address} {kind : Variant → Prop}
  {variant : Variant} {c : Circumstances} {m : StellarDeployManifest} {cfg : RetryConfig}
  {params : DeployParams} {allowed : Action → Prop} {s s' : Site} {a sec ver : Address}

theorem Draft.step (h : Draft texts account kind variant m s) (hfile : s'.manifest = s.manifest)
    (hprogress : ∀ m, Custody account m s → Progress m s s') :
    Draft texts account kind variant m s' where
  ours := h.ours
  ofVariant := h.ofVariant
  custody := h.custody.step (hprogress m h.custody)
  onDisk := h.onDisk.step hfile hprogress
  stored := h.stored.imp_right fun hstored => hstored.of_manifest hfile

theorem stable_draft : (setting p account c).Stable (Draft texts account kind variant m) :=
  fun _ _ hothers h =>
    h.step (others_files hothers).1 fun _ hcustody => others_progress hcustody hothers

variable (hallowed : ∀ i, allowed i) (hkind : kind variant)

include hallowed in
/-- Create a contract, while the draft stays as it was. -/
theorem deployOne_triple {d : Deployment} (hlisting : d.listing.office = ⟨account, none⟩) :
    (setting p account c).Triple (OnDisk texts account kind) allowed
      (Draft texts account kind variant m) (deployOne cfg d)
      (fun a s => Draft texts account kind variant m s ∧
        s.Has a d.listing.shape fun o => o = ⟨account, none⟩)
      fun _ _ => c.mishaps ∨ ∃ wasm, d.construct wasm = none := by
  have hcreate : (setting p account c).Triple (OnDisk texts account kind) allowed
      (Draft texts account kind variant m) (create d) _ _ :=
    create_triple (hallowed _) stable_draft (fun _ hs => hs.onDisk)
      fun s a inst hs hfresh _ => hs.step rfl fun _ _ => Site.deploy_progress hfresh
  apply Setting.Triple.bind (.retry hcreate)
  intro id
  cases id with
  | none => exact .fail fun s hs => .inl hs.2
  | some a =>
      refine .ret fun s hs => ⟨hs.1, hs.2.1, d.listing.office, ?_, hlisting⟩
      rw [hs.2.2]

include hallowed hkind in
/-- Record what was created. -/
theorem record_triple (hadmin : m.admin = texts.ofAddress account)
    (hvariant : m.variant = variant) :
    (setting p account c).Triple (OnDisk texts account kind) allowed
      (fun s => Custody account m s ∧ OnDisk texts account kind s) (persist texts m)
      (fun _ => Draft texts account kind variant m) fun _ _ => c.mishaps := by
  have hparse := texts.fromSlice_toStringPretty m
  refine (persist_triple hallowed (stable_custody.and stable_onDisk) (fun _ hs => hs.2) ?_ ?_
    ).consequence (fun _ => id) ?_ fun _ _ hs => hs.2
  · intro s file hs
    have hprogress : ∀ m, Progress m s { s with scratch := file } := fun _ => .of_files rfl rfl
    exact ⟨hs.1.step (hprogress m), hs.2.step rfl fun m _ => hprogress m⟩
  · intro s hs
    have hcustody : Custody account m { s with
        manifest := some (texts.toStringPretty m ++ [10])
        scratch := none } := hs.1.step (.of_files rfl rfl)
    refine ⟨hcustody, fun bytes hbytes => ?_⟩
    cases hbytes
    exact ⟨m, hparse, hadmin, by rwa [hvariant], hcustody⟩
  · rintro _ s ⟨⟨hcustody, hdisk⟩, hfile⟩
    exact ⟨hadmin, hvariant, hcustody, hdisk, .inr ⟨_, m, hfile, hparse, hadmin, rfl, rfl⟩⟩

/-! ### Resuming -/

section Resume

variable {feasible : Prop}

/-- What the run goes on with: a manifest that is on disk, or nothing. -/
def Found (texts : Texts) (account : Address) (kind : Variant → Prop) (params : DeployParams)
    (feasible : Prop) : Option StellarDeployManifest → Site → Prop
  | none, s => (feasible → params.Accepted) ∧ OnDisk texts account kind s
  | some m, s => kind m.variant ∧ (feasible → params.Accepted ∨ m.security ≠ none) ∧
      Draft texts account kind m.variant m s

theorem stable_feasible :
    (setting p account c).Stable fun s => feasible → Feasible texts params s := by
  intro s s' hothers h hfeasible
  obtain haccepted | ⟨bytes, m, hfile, hm⟩ := h hfeasible
  · exact .inl haccepted
  · exact .inr ⟨bytes, m, (others_files hothers).1.trans hfile, hm⟩

include hallowed in
theorem load_triple :
    (setting p account c).Triple (OnDisk texts account kind) allowed
      (fun s => OnDisk texts account kind s ∧ (feasible → Feasible texts params s)) (load texts)
      (fun m s => kind m.variant ∧ (feasible → params.Accepted ∨ m.security ≠ none) ∧
        Draft texts account kind m.variant m s)
      fun e s => (OnDisk texts account kind s ∧ (feasible → Feasible texts params s)) ∧
        if e = .io .notFound then s.manifest = none else c.mishaps := by
  refine (read_triple (hallowed _) (stable_onDisk.and stable_feasible) fun _ hs => hs.1).bind
    fun bytes => ?_
  rintro s ⟨⟨hdisk, hfeasible⟩, hfile⟩
  obtain ⟨m, hparse, hadmin, hvariant, hcustody⟩ := hdisk bytes hfile
  rw [hparse]
  refine ⟨hvariant, fun h => (hfeasible h).imp_right ?_, hadmin, rfl, hcustody, hdisk,
    .inr ⟨bytes, m, hfile, hparse, hadmin, rfl, rfl⟩⟩
  rintro ⟨bytes', m', hfile', hparse', hsecurity⟩
  obtain rfl : bytes = bytes' := Option.some.inj (hfile.symm.trans hfile')
  obtain rfl : m = m' := Option.some.inj (hparse.symm.trans hparse')
  exact hsecurity

include hallowed in
/-- A manifest of another variant is refused. -/
theorem resume_triple {manifestPath : String} (hvariant : params.variant = variant)
    (honly : c.mishaps ∨ ∀ v, kind v → v = variant) :
    (setting p account c).Triple (OnDisk texts account kind) allowed
      (fun s => OnDisk texts account kind s ∧ (feasible → Feasible texts params s))
      (resume texts account params manifestPath)
      (fun m s => (feasible → params.Accepted ∨ m.security ≠ none) ∧
        Draft texts account kind variant m s) fun _ _ => c.mishaps := by
  have hload : (setting p account c).Triple (OnDisk texts account kind) allowed
      (fun s => OnDisk texts account kind s ∧ (feasible → Feasible texts params s))
      (loadIfExists texts) (Found texts account kind params feasible) fun _ _ => c.mishaps := by
    refine .tryCatch ((load_triple hallowed).bind fun m => .ret fun s hs => hs) fun e => ?_
    split
    next hmissing =>
      refine .ret fun s hs => ⟨fun h => (hs.1.2 h).resolve_right ?_, hs.1.1⟩
      rintro ⟨bytes, m, hfile, -⟩
      rw [hs.2] at hfile
      cases hfile
    next hpresent => exact .fail fun s hs => hs.2
  apply hload.bind
  intro existing
  cases existing with
  | none =>
      refine .ret fun s hs => ⟨fun h => .inl (hs.1 h), rfl, hvariant, custody_new, hs.2, .inl ?_⟩
      cases hkind : params.variant <;> rfl
  | some m =>
      simp only
      split
      next hother =>
        refine .fail fun s hs => honly.resolve_right fun h => ?_
        exact hother ((h m.variant hs.1).trans hvariant.symm)
      next hsame =>
        split
        next hother => exact .fail fun s hs => absurd hs.2.2.ours hother
        next =>
          have hmine : m.variant = variant := (not_not.mp hsame).trans hvariant
          exact .ret fun s hs => ⟨hs.2.1, hmine ▸ hs.2.2⟩

end Resume

/-! ### The steps -/

theorem construct_ne_none {admin : Address} (haccepted : params.Accepted) (wasm : BytesN 32) :
    (Deployment.security params.variant admin params.threshold.1 params.threshold.2).construct
      wasm ≠ none := by
  rw [Deployment.construct, Security.construct_eq_ok.mpr ⟨haccepted, rfl⟩]
  simp only
  exact Option.some_ne_none _

include hallowed hkind in
/-- A step with an empty slot: create a contract, and record it. -/
theorem fill_triple {β : Type} {d : Deployment} {next : Address → StellarDeployManifest}
    {result : Address → β} {post : β → Site → Prop} (hoffice : d.listing.office = ⟨account, none⟩)
    (hours : ∀ a, (next a).admin = m.admin ∧ (next a).variant = m.variant)
    (hfill : ∀ a s, m.variant = variant → Custody account m s →
      (s.Has a d.listing.shape fun o => o = ⟨account, none⟩) → Custody account (next a) s)
    (hpost : ∀ a s, Draft texts account kind variant (next a) s → post (result a) s) :
    (setting p account c).Triple (OnDisk texts account kind) allowed
      (Draft texts account kind variant m)
      (do
        let a ← deployOne cfg d
        persist texts (next a)
        pure (result a))
      post fun _ _ => c.mishaps ∨ ∃ wasm, d.construct wasm = none := by
  have hdraft : ∀ s, Draft texts account kind variant m s →
      (m.admin = texts.ofAddress account ∧ m.variant = variant) ∧
        Draft texts account kind variant m s :=
    fun s hs => ⟨⟨hs.ours, hs.ofVariant⟩, hs⟩
  refine Setting.Triple.strengthen (.given fun hm => ?_) hdraft
  apply (deployOne_triple hallowed hoffice).bind
  intro a
  have hrecord := record_triple (p := p) (c := c) hallowed hkind ((hours a).1.trans hm.1)
    ((hours a).2.trans hm.2)
  refine (hrecord.consequence ?_ (fun _ _ hs => hs) fun _ _ => .inl).bind fun _ => .ret (hpost a)
  rintro s ⟨hs, hhas⟩
  exact ⟨hfill a s hm.2 hs.custody hhas, hs.onDisk⟩

include hallowed hkind in
theorem deploySecurity_triple {feasible : Prop} (hvariant : params.variant = variant)
    (hfeasible : feasible → params.Accepted ∨ m.security ≠ none) :
    (setting p account c).Triple (OnDisk texts account kind) allowed
      (Draft texts account kind variant m) (deploySecurity texts account params cfg m)
      (fun r s => r.1.security = some r.2 ∧ Draft texts account kind variant r.1 s)
      fun _ _ => c.mishaps ∨ ¬feasible := by
  unfold deploySecurity
  split
  next a ha => exact .ret fun s hs => ⟨ha, hs⟩
  next hnone =>
    refine (fill_triple hallowed hkind rfl (fun _ => admin_variant_set.1) ?_ fun a s hs =>
      ⟨security_setSecurity, hs⟩).consequence (fun _ => id) (fun _ _ => id) ?_
    · intro a s hkind hcustody hhas
      rw [Deployment.listing, hvariant, ← hkind] at hhas
      exact hcustody.setSecurity hnone hhas
    · rintro _ _ (hmishaps | ⟨wasm, hrefused⟩)
      · exact .inl hmishaps
      · refine .inr fun h => ?_
        have haccepted := (hfeasible h).resolve_right (not_not.mpr hnone)
        exact construct_ne_none haccepted wasm hrefused

include hallowed hkind in
theorem deployVerification_triple (hvariant : params.variant = variant)
    (hsec : m.security = some sec) :
    (setting p account c).Triple (OnDisk texts account kind) allowed
      (Draft texts account kind variant m) (deployVerification texts account params cfg m sec)
      (fun r s => (r.1.security = some sec ∧ r.1.verification = some r.2) ∧
        Draft texts account kind variant r.1 s) fun _ _ => c.mishaps := by
  unfold deployVerification
  split
  next a ha => exact .ret fun s hs => ⟨⟨hsec, ha⟩, hs⟩
  next hnone =>
    refine (fill_triple hallowed hkind rfl (fun _ => admin_variant_set.2.1) ?_ fun a s hs =>
      ⟨⟨security_setVerification.trans hsec, verification_setVerification⟩, hs⟩).consequence
      (fun _ => id) (fun _ _ => id) ?_
    · intro a s hkind hcustody hhas
      rw [Deployment.listing, hvariant, ← hkind] at hhas
      exact hcustody.setVerification hsec hnone hhas
    · rintro _ _ (hmishaps | ⟨wasm, hrefused⟩)
      · exact hmishaps
      · cases hrefused

include hallowed hkind in
theorem deployProjectRoot_triple (hsec : m.security = some sec) (hver : m.verification = some ver) :
    (setting p account c).Triple (OnDisk texts account kind) allowed
      (Draft texts account kind variant m) (deployProjectRoot texts account params cfg m sec ver)
      (fun m s => (∃ root, Complete m sec ver root) ∧ Draft texts account kind variant m s)
      fun _ _ => c.mishaps := by
  unfold deployProjectRoot
  split
  next root hroot => exact .ret fun s hs => ⟨⟨root, hsec, hver, hroot⟩, hs⟩
  next hnone =>
    refine (fill_triple hallowed hkind rfl (fun _ => admin_variant_set.2.2) ?_ fun a s hs =>
      ⟨⟨a, hsec, hver, projectRoot_setProjectRoot⟩, hs⟩).consequence
      (fun _ => id) (fun _ _ => id) ?_
    · intro a s _ hcustody hhas
      exact hcustody.setProjectRoot hsec hver hnone hhas
    · rintro _ _ (hmishaps | ⟨wasm, hrefused⟩)
      · exact hmishaps
      · cases hrefused

/-! ### The whole -/

variable {net : NetworkConfig} {manifestPath : String}

/-- The network coordinates say nothing about the contracts. -/
theorem Draft.congr {m' : StellarDeployManifest} (h : Draft texts account kind variant m s)
    (hadmin : m'.admin = m.admin) (hvariant : m'.variant = m.variant)
    (hcontracts : m'.contracts = m.contracts) : Draft texts account kind variant m' s where
  ours := hadmin.trans h.ours
  ofVariant := hvariant.trans h.ofVariant
  custody := h.custody.congr hvariant hcontracts
  onDisk := h.onDisk
  stored := by
    obtain hnone | ⟨bytes, stored, hfile, hparse, hours, hkind, hslots⟩ := h.stored
    · left
      rw [StellarDeployManifest.security, hvariant, hcontracts]
      exact hnone
    · exact .inr ⟨bytes, stored, hfile, hparse, hours, hkind.trans hvariant.symm,
        hslots.trans hcontracts.symm⟩

include hallowed hkind in
theorem deployContracts_triple {feasible : Prop} (hvariant : params.variant = variant)
    (honly : c.mishaps ∨ ∀ v, kind v → v = variant) :
    (setting p account c).Triple (OnDisk texts account kind) allowed
      (fun s => OnDisk texts account kind s ∧ (feasible → Feasible texts params s))
      (deployContracts texts net account params manifestPath cfg)
      (fun m s => (∃ sec ver root, Complete m sec ver root) ∧ Draft texts account kind variant m s)
      fun _ _ => c.mishaps ∨ ¬feasible := by
  refine ((resume_triple hallowed hvariant honly).consequence (fun _ => id) (fun _ _ => id)
    fun _ _ => .inl).bind fun m => .given fun hfeasible => ?_
  have hnetwork : feasible → params.Accepted ∨ (m.onNetwork net).security ≠ none := hfeasible
  refine ((deploySecurity_triple hallowed hkind hvariant hnetwork).strengthen fun s hs =>
    hs.congr rfl rfl rfl).bind fun r => .given fun hsec => ?_
  refine ((deployVerification_triple hallowed hkind hvariant hsec).consequence (fun _ => id)
    (fun _ _ => id) fun _ _ => .inl).bind fun r' => .given fun hslots => ?_
  exact (deployProjectRoot_triple hallowed hkind hslots.1 hslots.2).consequence (fun _ => id)
    (fun m s hs => ⟨⟨_, _, hs.1⟩, hs.2⟩) fun _ _ => .inl

include hallowed hkind in
/-- A run of the pipeline, from whatever earlier runs left: where it returns, the
downstream contracts are project_root's, and it fails by a mishap or a bad threshold. -/
theorem deployPipeline_triple {feasible : Prop} (hvariant : params.variant = variant)
    (honly : c.mishaps ∨ ∀ v, kind v → v = variant) :
    (setting p account c).Triple (OnDisk texts account kind) allowed
      (fun s => OnDisk texts account kind s ∧ (feasible → Feasible texts params s))
      (deployPipeline texts net account params manifestPath cfg)
      (fun m s => (∃ sec ver root, Complete m sec ver root) ∧ Draft texts account kind variant m s ∧
        Adopted m s) fun _ _ => c.mishaps ∨ ¬feasible := by
  refine (deployContracts_triple hallowed hkind hvariant honly).bind fun m => .given ?_
  rintro ⟨sec, ver, root, hm⟩
  have hpure : ∀ s, Draft texts account kind variant m s →
      (m.admin = texts.ofAddress account ∧ m.variant = variant) ∧
        Stage texts account m sec ver root [] s := by
    intro s hs
    have hstored : Stored texts account m s :=
      hs.stored.resolve_left (by rw [hm.security]; exact nofun)
    exact ⟨⟨hs.ours, hs.ofVariant⟩, hs.custody, hstored, nofun⟩
  refine Setting.Triple.strengthen (.given ?_) hpure
  rintro ⟨hours, rfl⟩
  refine ((adoptDownstreams_triple hallowed hkind hm).consequence (fun _ => id) (fun _ _ => id)
    fun _ _ => .inl).bind fun _ => .ret ?_
  rintro s ⟨hcustody, hstored, hadopted⟩
  exact ⟨⟨sec, ver, root, hm⟩, ⟨hours, rfl, hcustody, hstored.onDisk hcustody hkind, .inr hstored⟩,
    hadopted⟩

end Steps

/-! ## After the deployment -/

/-- The reads and the queries. -/
def Action.observes : Action → Bool
  | read | query .. => true
  | _ => false

/-- Everything is deployed and adopted, and `bytes` on disk say so. -/
structure Settled (texts : Texts) (account : Address) (bytes : Bytes)
    (m : StellarDeployManifest) (s : Site) : Prop where
  file : s.manifest = some bytes
  parse : texts.fromSlice bytes = some m
  ours : m.admin = texts.ofAddress account
  custody : Custody account m s
  adopted : Adopted m s

section Rerun

variable {p : Platform} {texts : Texts} {account : Address} {kind : Variant → Prop}
  {variant : Variant} {c : Circumstances} {m m' : StellarDeployManifest} {cfg : RetryConfig}
  {params : DeployParams} {net : NetworkConfig} {manifestPath : String} {bytes : Bytes}
  {s s' : Site} {sec ver root d : Address} {t : Target} {shape : Shape}

theorem Settled.step (h : Settled texts account bytes m s)
    (hfile : s'.manifest = s.manifest) (hprogress : Progress m s s') :
    Settled texts account bytes m s' where
  file := hfile.trans h.file
  parse := h.parse
  ours := h.ours
  custody := h.custody.step hprogress
  adopted := h.adopted.step h.custody hprogress

theorem stable_settled : (setting p account c).Stable (Settled texts account bytes m) :=
  fun _ _ hothers h => h.step (others_files hothers).1 (others_progress h.custody hothers)

/-- What a run returns is what it leaves on disk, network coordinates apart. -/
theorem Draft.settled (h : Draft texts account kind variant m s) (hm : Complete m sec ver root)
    (hadopted : Adopted m s) : ∃ bytes m', Settled texts account bytes m' s ∧
      m'.variant = m.variant ∧ m'.contracts = m.contracts := by
  obtain ⟨bytes, m', hfile, hparse, hours, hkind, hcontracts⟩ :=
    h.stored.resolve_left (by rw [hm.security]; exact nofun)
  have hcustody := h.custody.congr hkind hcontracts
  refine ⟨bytes, m', ⟨hfile, hparse, hours, hcustody, ?_⟩, hkind, hcontracts⟩
  obtain ⟨_, _, _, _, _⟩ := m
  obtain ⟨_, _, _, _, _⟩ := m'
  cases hkind
  cases hcontracts
  exact hadopted

theorem settled_adopt_triple (hm : Complete m sec ver root)
    (hvariant : m'.variant = m.variant) (hcontracts : m'.contracts = m.contracts)
    (haim : Aim m sec ver t d shape) :
    (setting p account c).Triple (Settled texts account bytes m)
      (fun i => i.observes = true) (Settled texts account bytes m)
      (adopt texts m' cfg root t) (fun _ => Settled texts account bytes m)
      fun _ _ => c.mishaps := by
  have hbuild : build m' t = pure d := by
    obtain ⟨_, _, _, _, _⟩ := m
    obtain ⟨_, _, _, _, _⟩ := m'
    cases hvariant
    cases hcontracts
    exact haim.build hm
  unfold adopt
  rw [hbuild, Script.pure_bind, Script.pure_bind]
  have hobserves : (fun i : Action => i.observes = true) (.query d .admin) := rfl
  refine ((admin_triple hobserves stable_settled (fun _ hs => hs) fun s hs =>
    ⟨_, haim.has hm hs.custody⟩).consequence (fun _ => id) (fun _ _ => id)
      fun _ _ hs => hs.2).bind fun current => ?_
  split
  next => exact .ret fun s hs => hs.1
  next hcurrent =>
    rintro s ⟨hs, hhas⟩
    exact absurd (Option.some.inj (hhas.admin?.symm.trans (hs.adopted.holder hm haim))) hcurrent

theorem settled_resume_triple (hvariant : c.mishaps ∨ m.variant = params.variant) :
    (setting p account c).Triple (Settled texts account bytes m)
      (fun i => i.observes = true) (Settled texts account bytes m)
      (resume texts account params manifestPath)
      (fun m' s => m' = m ∧ Settled texts account bytes m s) fun _ _ => c.mishaps := by
  have hobserves : (fun i : Action => i.observes = true) .read := rfl
  have hload : (setting p account c).Triple (Settled texts account bytes m)
      (fun i => i.observes = true) (Settled texts account bytes m) (loadIfExists texts)
      (fun r s => r = some m ∧ Settled texts account bytes m s) fun _ _ => c.mishaps := by
    refine .tryCatch (.bind (.bind (read_triple hobserves stable_settled fun _ hs => hs)
      fun bytes' => ?_) fun m' => .ret fun s (hs : m' = m ∧ _) => ⟨by rw [hs.1], hs.2⟩) fun e => ?_
    · rintro s ⟨hs, hfile⟩
      obtain rfl : bytes = bytes' := Option.some.inj (hs.file.symm.trans hfile)
      rw [hs.parse]
      exact ⟨rfl, hs⟩
    · split
      next hmissing =>
        rintro s ⟨hs, hfile⟩
        rw [hs.file] at hfile
        cases hfile
      next => exact .fail fun s hs => hs.2
  refine hload.bind fun existing => .given ?_
  rintro rfl
  simp only
  split
  next hother => exact .fail fun s _ => hvariant.resolve_right hother
  next =>
    split
    next hother => exact .fail fun s hs => absurd hs.ours hother
    next => exact .ret fun s hs => ⟨rfl, hs⟩

/-- With all slots filled there is nothing to deploy. -/
theorem deploy_of_complete (texts : Texts) (account : Address) (params : DeployParams)
    (cfg : RetryConfig) (hm : Complete m sec ver root) :
    deploySecurity texts account params cfg m = pure (m, sec) ∧
      deployVerification texts account params cfg m sec = pure (m, ver) ∧
      deployProjectRoot texts account params cfg m sec ver = pure m := by
  unfold deploySecurity deployVerification deployProjectRoot
  rw [hm.security, hm.verification, hm.projectRoot]
  exact ⟨rfl, rfl, rfl⟩

/-- A run on a settled site looks at it, and does nothing. -/
theorem settled_deployPipeline_triple (hvariant : c.mishaps ∨ m.variant = params.variant) :
    (setting p account c).Triple (Settled texts account bytes m)
      (fun i => i.observes = true) (Settled texts account bytes m)
      (deployPipeline texts net account params manifestPath cfg)
      (fun _ => Settled texts account bytes m) fun _ _ => c.mishaps := by
  have hcontracts : (setting p account c).Triple (Settled texts account bytes m)
      (fun i => i.observes = true) (Settled texts account bytes m)
      (deployContracts texts net account params manifestPath cfg)
      (fun m' s => (m'.variant = m.variant ∧ m'.contracts = m.contracts) ∧
        Settled texts account bytes m s) fun _ _ => c.mishaps := by
    refine (settled_resume_triple hvariant).bind fun m' => .given ?_
    rintro rfl s hs
    obtain ⟨sec, ver, root, hsec, hver, hroot, -⟩ := hs.adopted
    have hcomplete : Complete (m'.onNetwork net) sec ver root := ⟨hsec, hver, hroot⟩
    obtain ⟨hsecurity, hverification, hprojectRoot⟩ :=
      deploy_of_complete texts account params cfg hcomplete
    simp only [hsecurity, hverification, hprojectRoot, Script.pure_bind]
    exact ⟨⟨rfl, rfl⟩, hs⟩
  refine hcontracts.bind fun m' => .given fun hm' => ?_
  rintro s hs
  obtain ⟨sec, ver, root, hsec, hver, hroot, -⟩ := hs.adopted
  have hrequire : propagate (requireProjectRoot m') = pure root := by
    rw [requireProjectRoot, StellarDeployManifest.projectRoot, hm'.2,
      ← StellarDeployManifest.projectRoot, hroot]
    rfl
  have hadopt : (setting p account c).Triple (Settled texts account bytes m)
      (fun i => i.observes = true) (Settled texts account bytes m)
      (adoptDownstreams texts m' cfg) (fun _ => Settled texts account bytes m)
      fun _ _ => c.mishaps := by
    rw [adoptDownstreams, hrequire, Script.pure_bind]
    refine .forEach (fun _ => Settled texts account bytes m) [] fun _ t ht => ?_
    have hm : Complete m sec ver root := ⟨hsec, hver, hroot⟩
    simp only [List.mem_cons, List.not_mem_nil, or_false] at ht
    obtain rfl | rfl := ht
    · exact settled_adopt_triple hm hm'.1 hm'.2 .security
    · exact settled_adopt_triple hm hm'.1 hm'.2 .verification
  exact (hadopt s hs).bind fun _ s hs => hs

end Rerun

end WarpDrive.Deployer
