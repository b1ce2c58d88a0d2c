import WarpDrive.Deployer.Custody

/-!
# The adoption of the downstream contracts

`adopt_downstreams` from any point at which an earlier run may have stopped: it ends with
project_root as the admin of both contracts, or with an error that only a mishap brings.
-/

namespace WarpDrive.Deployer

open Interaction Transfer

/-! ## The manifest on disk -/

section Disk

variable (texts : Texts) (account : Address)

/-- A manifest that is on disk parses, and is of this account and of such a variant. -/
def OnDisk (kind : Variant → Prop) (s : Site) : Prop :=
  ∀ bytes, s.manifest = some bytes → ∃ m, texts.fromSlice bytes = some m ∧
    m.admin = texts.ofAddress account ∧ kind m.variant ∧ Custody account m s

/-- The manifest on disk has the contracts of `m`. -/
def Stored (m : StellarDeployManifest) (s : Site) : Prop :=
  ∃ bytes stored, s.manifest = some bytes ∧ texts.fromSlice bytes = some stored ∧
    stored.admin = texts.ofAddress account ∧ stored.variant = m.variant ∧
    stored.contracts = m.contracts

end Disk

section

variable {p : Platform} {texts : Texts} {account : Address}
  {kind : Variant → Prop}  {c : Circumstances} {m : StellarDeployManifest} {s s' : Site}

/-- The custody is about the contracts of a manifest only. -/
theorem Custody.congr {m' : StellarDeployManifest} (h : Custody account m s)
    (hvariant : m'.variant = m.variant) (hcontracts : m'.contracts = m.contracts) :
    Custody account m' s := by
  obtain ⟨_, _, _, variant, contracts⟩ := m
  obtain ⟨_, _, _, _, _⟩ := m'
  cases hvariant
  cases hcontracts
  exact ⟨h.tidy, fun a ha => (h.security a ha).mono fun _ ho => ⟨ho.holder, ho.candidate⟩,
    fun a ha => by
      obtain ⟨sec, hsec, hhas⟩ := h.verification a ha
      exact ⟨sec, hsec, hhas.mono fun _ ho => ⟨ho.holder, ho.candidate⟩⟩, h.projectRoot⟩

theorem Stored.onDisk (h : Stored texts account m s) (hcustody : Custody account m s)
    (hkind : kind m.variant) : OnDisk texts account kind s := by
  obtain ⟨bytes, stored, hfile, hparse, hadmin, hvariant, hcontracts⟩ := h
  intro bytes' hfile'
  obtain rfl : bytes = bytes' := Option.some.inj (hfile.symm.trans hfile')
  exact ⟨stored, hparse, hadmin, by rwa [hvariant], hcustody.congr hvariant hcontracts⟩

theorem Stored.of_manifest (h : Stored texts account m s) (hfile : s'.manifest = s.manifest) :
    Stored texts account m s' := by
  obtain ⟨bytes, stored, hbytes, hrest⟩ := h
  exact ⟨bytes, stored, hfile.trans hbytes, hrest⟩

theorem OnDisk.step (h : OnDisk texts account kind s) (hfile : s'.manifest = s.manifest)
    (hprogress : ∀ m, Custody account m s → Progress m s s') :
    OnDisk texts account kind s' := by
  intro bytes hbytes
  obtain ⟨m, hparse, hadmin, hvariant, hcustody⟩ := h bytes (hfile.symm.trans hbytes)
  exact ⟨m, hparse, hadmin, hvariant, hcustody.step (hprogress m hcustody)⟩

theorem stable_onDisk : (setting p account c).Stable (OnDisk texts account kind) :=
  fun _ _ hothers h =>
    h.step (others_files hothers).1 fun _ hcustody => others_progress hcustody hothers

end

/-! ## Complete manifests -/

/-- All slots are filled. -/
structure Complete (m : StellarDeployManifest) (sec ver root : Address) : Prop where
  security : m.security = some sec
  verification : m.verification = some ver
  projectRoot : m.projectRoot = some root

/-- The targets of the adoption, with their contracts. -/
inductive Aim (m : StellarDeployManifest) (sec ver : Address) : Target → Address → Shape → Prop
  | security : Aim m sec ver .security sec (.security m.variant.scheme)
  | verification : Aim m sec ver .verification ver (.verification m.variant.scheme sec)

section

variable {account : Address} {m : StellarDeployManifest} {s : Site} {sec ver root d : Address}
  {t : Target} {shape : Shape}

theorem Aim.isRoot (h : Aim m sec ver t d shape) : shape.isRoot = false := by
  cases h with
  | security | verification => rfl

theorem Aim.registered (h : Aim m sec ver t d shape) : d = ver ∨ d = sec := by
  cases h with
  | security => exact .inr rfl
  | verification => exact .inl rfl

theorem Aim.names (h : Aim m sec ver t d shape) (hm : Complete m sec ver root) : m.Names d := by
  cases h with
  | security => exact .inl hm.security
  | verification => exact .inr (.inl hm.verification)

theorem Aim.build (h : Aim m sec ver t d shape) (hm : Complete m sec ver root) :
    build m t = pure d := by
  cases h with
  | security => rw [Deployer.build, targetId, requireSecurity, hm.security]; rfl
  | verification => rw [Deployer.build, targetId, requireVerification, hm.verification]; rfl

theorem Aim.ne_projectRoot (h : Aim m sec ver t d shape) : t ≠ .projectRoot := by
  cases h with
  | security | verification => decide

theorem Aim.has (h : Aim m sec ver t d shape) (hm : Complete m sec ver root)
    (hcustody : Custody account m s) : s.Has d shape (Held account m) := by
  cases h with
  | security => exact hcustody.security sec hm.security
  | verification =>
      obtain ⟨sec', hsec, hhas⟩ := hcustody.verification ver hm.verification
      obtain rfl : sec = sec' := Option.some.inj (hm.security.symm.trans hsec)
      exact hhas

theorem Complete.propagate_requireProjectRoot (hm : Complete m sec ver root) :
    propagate (requireProjectRoot m) = pure root := by
  rw [requireProjectRoot, hm.projectRoot]
  rfl

theorem Complete.build (hm : Complete m sec ver root) : build m .projectRoot = pure root :=
  hm.propagate_requireProjectRoot

theorem Complete.root_has (hm : Complete m sec ver root) (hcustody : Custody account m s) :
    s.Has root (.projectRoot sec ver) (Kept account m s) := by
  obtain ⟨sec', ver', hsec, hver, hhas⟩ := hcustody.projectRoot root hm.projectRoot
  obtain rfl : sec = sec' := Option.some.inj (hm.security.symm.trans hsec)
  obtain rfl : ver = ver' := Option.some.inj (hm.verification.symm.trans hver)
  exact hhas

/-- Where the downstream contracts are adopted, project_root holds each. -/
theorem Adopted.holder (h : Adopted m s) (hm : Complete m sec ver root)
    (haim : Aim m sec ver t d shape) : s.admin? d = some root := by
  obtain ⟨sec', ver', root', hsec, hver, hroot, hsecurity, hverification⟩ := h
  obtain rfl : root = root' := Option.some.inj (hm.projectRoot.symm.trans hroot)
  cases haim with
  | security =>
      obtain rfl : sec = sec' := Option.some.inj (hm.security.symm.trans hsec)
      exact hsecurity
  | verification =>
      obtain rfl : ver = ver' := Option.some.inj (hm.verification.symm.trans hver)
      exact hverification

end

/-! ## The loop -/

/-- The adoption as far as it went: the contracts of the targets `ts` are project_root's. -/
structure Stage (texts : Texts) (account : Address) (m : StellarDeployManifest)
    (sec ver root : Address) (ts : List Target) (s : Site) : Prop where
  custody : Custody account m s
  stored : Stored texts account m s
  taken : ∀ t ∈ ts, ∃ d shape, Aim m sec ver t d shape ∧ s.Has d shape fun o => o.holder = root

section Loop

variable {p : Platform} {texts : Texts} {account : Address} {c : Circumstances}
  {m : StellarDeployManifest} {sec ver root : Address} {ts : List Target} {cfg : RetryConfig}
  {allowed : Action → Prop} {s s' : Site} {t : Target} {d : Address} {shape : Shape}
  {kind : Variant → Prop}

theorem Stage.step (h : Stage texts account m sec ver root ts s) (hm : Complete m sec ver root)
    (hfile : s'.manifest = s.manifest) (hprogress : Progress m s s') :
    Stage texts account m sec ver root ts s' where
  custody := h.custody.step hprogress
  stored := h.stored.of_manifest hfile
  taken t ht := by
    obtain ⟨d, shape, haim, hhas⟩ := h.taken t ht
    exact ⟨d, shape, haim,
      hprogress.holder (haim.names hm) haim.isRoot hm.projectRoot hhas⟩

theorem stable_stage (hm : Complete m sec ver root) :
    (setting p account c).Stable (Stage texts account m sec ver root ts) :=
  fun _ _ hothers h =>
    h.step hm (others_files hothers).1 (others_progress h.custody hothers)

theorem Stage.onDisk (h : Stage texts account m sec ver root ts s) (hkind : kind m.variant) :
    OnDisk texts account kind s :=
  h.stored.onDisk h.custody hkind

/-- One more contract is project_root's. -/
theorem Stage.snoc (h : Stage texts account m sec ver root ts s) (haim : Aim m sec ver t d shape)
    (hhas : s.Has d shape fun o => o.holder = root) :
    Stage texts account m sec ver root (ts ++ [t]) s where
  custody := h.custody
  stored := h.stored
  taken t' ht' := by
    rcases List.mem_append.mp ht' with ht' | ht'
    · exact h.taken t' ht'
    · rw [List.mem_singleton.mp ht']
      exact ⟨d, shape, haim, hhas⟩

/-! ### The queries -/

section Queries

variable {inv P : Site → Prop}

/-- A query that is answered from the office of the contract. -/
theorem office_triple {call : Call} (encode : Office Address → Val)
    (hcall : ∀ tx (w : World) l, w.listing d = some l →
      (invoke p tx (99 + 1) [] d call w).1 = .ok (encode l.office))
    (hallowed : allowed (.query d call)) (hstable : (setting p account c).Stable P)
    (hinv : ∀ s, P s → inv s) (hhas : ∀ s, P s → ∃ office, s.Has d shape office) :
    (setting p account c).Triple inv allowed P (query d call)
      (fun v s => P s ∧ s.Has d shape fun o => v = encode o) fun _ s => P s ∧ c.mishaps := by
  have hreply : ∀ s tx, P s → s.reply p tx d call =
      .ok ((s.listing d).elim .void fun l => encode l.office) := by
    intro s tx hP
    obtain ⟨office, -, o, hlisting, -⟩ := hhas s hP
    rw [hlisting]
    exact hcall tx s.system.world _ hlisting
  refine (query_triple hallowed hstable hinv hreply).consequence (fun _ => id) ?_ fun _ _ => id
  rintro v s ⟨hP, rfl⟩
  obtain ⟨office, hcreated, o, hlisting, -⟩ := hhas s hP
  exact ⟨hP, hcreated, o, hlisting, by rw [hlisting]; rfl⟩

theorem admin_triple (hallowed : allowed (.query d .admin))
    (hstable : (setting p account c).Stable P) (hinv : ∀ s, P s → inv s)
    (hhas : ∀ s, P s → ∃ office, s.Has d shape office) :
    (setting p account c).Triple inv allowed P (admin d)
      (fun a s => P s ∧ s.Has d shape fun o => o.holder = a) fun _ s => P s ∧ c.mishaps := by
  refine (office_triple (fun o => .address o.holder)
    (fun tx w l hl => invoke_admin List.not_mem_nil hl) hallowed hstable hinv hhas).bind fun v => ?_
  rintro s ⟨hP, hcreated, o, hlisting, rfl⟩
  exact ⟨hP, hcreated, o, hlisting, rfl⟩

theorem pendingAdmin_triple (hallowed : allowed (.query d .pendingAdmin))
    (hstable : (setting p account c).Stable P) (hinv : ∀ s, P s → inv s)
    (hhas : ∀ s, P s → ∃ office, s.Has d shape office) :
    (setting p account c).Triple inv allowed P (pendingAdmin d)
      (fun a s => P s ∧ s.Has d shape fun o => o.candidate = a) fun _ s => P s ∧ c.mishaps := by
  refine (office_triple (fun o => .optAddress o.candidate)
    (fun tx w l hl => invoke_pendingAdmin List.not_mem_nil hl) hallowed hstable hinv hhas).bind
    fun v => ?_
  rintro s ⟨hP, hcreated, o, hlisting, rfl⟩
  exact ⟨hP, hcreated, o, hlisting, rfl⟩

end Queries

/-! ### The transactions -/

section Transactions

variable (hallowed : ∀ i, allowed i) (hkind : kind m.variant) (hm : Complete m sec ver root)
  (haim : Aim m sec ver t d shape) (hne : account ≠ root)

include hallowed hkind hm haim in
theorem proposeAdmin_triple :
    (setting p account c).Triple (OnDisk texts account kind) allowed
      (fun s => Stage texts account m sec ver root ts s ∧ s.Has d shape fun o => o.holder = account)
      (proposeAdmin texts m cfg t (texts.ofAddress root))
      (fun _ s => Stage texts account m sec ver root ts s ∧
        s.Has d shape fun o => o = ⟨account, some root⟩)
      fun _ _ => c.mishaps := by
  rw [proposeAdmin, texts.toAddress?_ofAddress]
  refine .retry ?_
  rw [haim.build hm, Script.pure_bind]
  -- what a lost proposal leaves may be proposed again
  refine (execute_triple _ (fun s => s.Has d shape fun o => o = ⟨account, some root⟩)
    (hallowed _) ((stable_stage hm).and (stable_has haim.isRoot)) (fun _ => id)
    (fun _ hs => hs.1.onDisk hkind) ?_).bind fun _ => .ret fun _ hs => ⟨hs.1.1.1, hs.1.2⟩
  rintro s tx ⟨hstage, hhas⟩ htx
  obtain ⟨hreply, hprogress, hpending⟩ :=
    transact_proposeAdmin (p := p) hm.projectRoot haim.isRoot hhas htx
  rw [hreply]
  refine ⟨⟨hstage.step hm rfl hprogress, hpending.mono ?_⟩, hpending⟩
  rintro _ rfl
  rfl

include hallowed hkind hm haim hne in
/-- A lost acceptance makes the next one fail, but only a mishap loses it. -/
theorem acceptContractAdmin_triple :
    (setting p account c).Triple (OnDisk texts account kind) allowed
      (fun s => Stage texts account m sec ver root ts s ∧
        (c.mishaps ∨ s.Has d shape fun o => o = ⟨account, some root⟩))
      (acceptContractAdmin m cfg t)
      (fun _ => Stage texts account m sec ver root (ts ++ [t])) fun _ _ => c.mishaps := by
  rw [acceptContractAdmin, if_neg haim.ne_projectRoot, haim.build hm, Script.pure_bind,
    hm.propagate_requireProjectRoot, Script.pure_bind]
  have hstable : (setting p account c).Stable fun s => Stage texts account m sec ver root ts s ∧
      (c.mishaps ∨ s.Has d shape fun o => o = ⟨account, some root⟩) := by
    refine (stable_stage hm).and fun s s' hothers h => h.imp_right fun hhas => ?_
    exact stable_has haim.isRoot s s' hothers hhas
  have haccept : (setting p account c).Triple (OnDisk texts account kind) allowed
      (fun s => Stage texts account m sec ver root ts s ∧
        (c.mishaps ∨ s.Has d shape fun o => o = ⟨account, some root⟩))
      (execute root (.acceptContractAdmin d))
      (fun hash s => (Stage texts account m sec ver root ts s ∧
        s.Has d shape fun o => o.holder = root) ∧ (hash = none → c.mishaps))
      fun _ s => Stage texts account m sec ver root ts s ∧ c.mishaps := by
    refine execute_triple _ _ (hallowed _) hstable (fun _ hs => hs.1)
      (fun _ hs => hs.onDisk hkind) ?_
    rintro s tx ⟨hstage, hpending⟩ htx
    have hhas := haim.has hm hstage.custody
    obtain ⟨hprogress, haccepted | hrefused⟩ := transact_acceptContractAdmin (p := p)
      hm.projectRoot (hm.root_has hstage.custody) haim.registered haim.isRoot hhas htx
    · obtain ⟨⟨v, hreply⟩, hadmin⟩ := haccepted
      have hstage' : Stage texts account m sec ver root ts
          (s.transact p tx root (.acceptContractAdmin d)) := hstage.step hm rfl hprogress
      rw [hreply]
      exact ⟨hstage', (haim.has hm hstage'.custody).of_admin? hadmin⟩
    · obtain ⟨⟨e, hreply⟩, hwhy⟩ := hrefused
      rw [hreply]
      refine ⟨hstage.step hm rfl hprogress, hpending.resolve_right fun hproposed => ?_⟩
      -- a proposed contract is not adopted yet, so the chain does not refuse
      obtain hadopted | hnot := hwhy
      · have hholder : s.Has d shape fun o => o.holder = account :=
          hproposed.mono fun o ho => by rw [ho]
        exact hne (Option.some.inj (hholder.admin?.symm.trans (hadopted.holder hm haim)))
      · exact hnot hproposed
  refine Setting.Triple.bind (.retry (haccept.consequence (fun _ => id) (fun _ _ => id) ?_))
    fun hash => ?_
  · rintro e s ⟨hstage, hmishaps⟩
    exact ⟨⟨hstage, .inl hmishaps⟩, hmishaps⟩
  · cases hash with
    | none => exact .fail fun s hs => hs.2 rfl
    | some hash => exact .ret fun s hs => hs.1.1.snoc haim hs.1.2

end Transactions

/-! ### The turns -/

section Turns

variable (hallowed : ∀ i, allowed i) (hkind : kind m.variant) (hm : Complete m sec ver root)

/-- A contract that is not project_root's yet is the deployer's. -/
theorem Stage.deployers {current : Address} (h : Stage texts account m sec ver root ts s)
    (hm : Complete m sec ver root) (haim : Aim m sec ver t d shape)
    (hhas : s.Has d shape fun o => o.holder = current) (hcurrent : current ≠ root) :
    account ≠ root ∧ s.Has d shape fun o => o.holder = account := by
  have hdeployer : s.Has d shape fun o => account ≠ root ∧ o.holder = account := by
    apply ((haim.has hm h.custody).and hhas).mono
    rintro o ⟨hheld, rfl⟩
    obtain hholder | hholder := hheld.holder
    · exact ⟨hholder ▸ hcurrent, hholder⟩
    · exact absurd (Option.some.inj (hholder.symm.trans hm.projectRoot)) hcurrent
  have hne : account ≠ root := by
    obtain ⟨-, _, -, hne, -⟩ := hdeployer
    exact hne
  exact ⟨hne, hdeployer.mono fun _ ho => ho.2⟩

include hallowed hkind hm in
/-- What an earlier run proposed is not proposed again. -/
theorem proposed_triple (haim : Aim m sec ver t d shape) (pending : Option Address) :
    (setting p account c).Triple (OnDisk texts account kind) allowed
      (fun s => (Stage texts account m sec ver root ts s ∧
        s.Has d shape fun o => o.holder = account) ∧ s.Has d shape fun o => o.candidate = pending)
      (if pending = some root then pure ()
        else proposeAdmin texts m cfg t (texts.ofAddress root))
      (fun _ s => Stage texts account m sec ver root ts s ∧
        (c.mishaps ∨ s.Has d shape fun o => o = ⟨account, some root⟩)) fun _ _ => c.mishaps := by
  split
  next hpending =>
    refine .ret fun s hs => ⟨hs.1.1, .inr ((hs.1.2.and hs.2).mono fun o ho => ?_)⟩
    rw [← ho.1, ← hpending, ← ho.2]
  next hpending =>
    exact (proposeAdmin_triple hallowed hkind hm haim).consequence (fun _ hs => hs.1)
      (fun _ _ hs => ⟨hs.1, .inr hs.2⟩) fun _ _ => id

include hallowed hkind hm in
/-- One turn, from wherever an earlier run left the contract. -/
theorem adopt_triple (haim : Aim m sec ver t d shape) :
    (setting p account c).Triple (OnDisk texts account kind) allowed
      (Stage texts account m sec ver root ts) (adopt texts m cfg root t)
      (fun _ => Stage texts account m sec ver root (ts ++ [t])) fun _ _ => c.mishaps := by
  have hheld : ∀ s, Stage texts account m sec ver root ts s → ∃ office, s.Has d shape office :=
    fun s hs => ⟨_, haim.has hm hs.custody⟩
  unfold adopt
  rw [haim.build hm, Script.pure_bind, Script.pure_bind]
  refine ((admin_triple (hallowed _) (stable_stage hm) (fun _ hs => hs.onDisk hkind)
    hheld).consequence (fun _ => id) (fun _ _ => id) fun _ _ hs => hs.2).bind fun current => ?_
  split
  next hcurrent =>
    -- it has been adopted
    subst hcurrent
    exact .ret fun s hs => hs.1.snoc haim hs.2
  next hcurrent =>
    have hdeployers : ∀ s, Stage texts account m sec ver root ts s ∧
        s.Has d shape (fun o => o.holder = current) →
        account ≠ root ∧ Stage texts account m sec ver root ts s ∧
          s.Has d shape fun o => o.holder = account := by
      intro s hs
      obtain ⟨hne, hdeployer⟩ := hs.1.deployers hm haim hs.2 hcurrent
      exact ⟨hne, hs.1, hdeployer⟩
    refine Setting.Triple.strengthen (.given fun hne => ?_) hdeployers
    refine ((pendingAdmin_triple (hallowed _) ((stable_stage hm).and (stable_has haim.isRoot))
      (fun _ hs => hs.1.onDisk hkind) fun s hs => ⟨_, hs.2⟩).consequence
      (fun _ => id) (fun _ _ => id) fun _ _ hs => hs.2).bind fun pending => ?_
    apply (proposed_triple hallowed hkind hm haim pending).bind
    intro _
    exact (acceptContractAdmin_triple hallowed hkind hm haim hne).bind fun _ => .ret fun _ hs => hs

include hallowed hkind hm in
theorem adoptDownstreams_triple :
    (setting p account c).Triple (OnDisk texts account kind) allowed
      (Stage texts account m sec ver root []) (adoptDownstreams texts m cfg)
      (fun _ s => Custody account m s ∧ Stored texts account m s ∧ Adopted m s)
      fun _ _ => c.mishaps := by
  rw [adoptDownstreams, hm.propagate_requireProjectRoot, Script.pure_bind]
  refine (Setting.Triple.forEach (Stage texts account m sec ver root) [] ?_).consequence
    (fun _ => id) ?_ (fun _ _ => id)
  · intro ts t ht
    have haim : ∃ d shape, Aim m sec ver t d shape := by
      simp only [List.mem_cons, List.not_mem_nil, or_false] at ht
      obtain rfl | rfl := ht
      · exact ⟨_, _, .security⟩
      · exact ⟨_, _, .verification⟩
    obtain ⟨d, shape, haim⟩ := haim
    exact adopt_triple hallowed hkind hm haim
  · rintro _ s ⟨hcustody, hstored, htaken⟩
    obtain ⟨_, _, ⟨⟩, hsecurity⟩ := htaken .security (by decide)
    obtain ⟨_, _, ⟨⟩, hverification⟩ := htaken .verification (by decide)
    exact ⟨hcustody, hstored, sec, ver, root, hm.security, hm.verification, hm.projectRoot,
      hsecurity.admin?, hverification.admin?⟩

end Turns

end Loop

end WarpDrive.Deployer
