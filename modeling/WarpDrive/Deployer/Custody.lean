import WarpDrive.Deployer.Site

/-!
# The contracts of a manifest

`Linked` says that the slots of a manifest are filled in their order, each with a
contract of the deployer that was constructed on the ones before.  `Custody` adds who
holds them: a downstream contract is the deployer's or project_root's, with no candidate
but project_root; project_root is the deployer's, with no candidate, until the
downstream contracts are adopted.

`Progress` is what a step may do to these offices, and `Custody.step` the one place where
it is shown to keep them.
-/

namespace WarpDrive.Deployer

open Interaction Transfer

namespace Site

/-- The admin of a contract. -/
def admin? (s : Site) (a : Address) : Option Address :=
  (s.listing a).map fun l => l.office.holder

/-- `a` is a contract that the deployer created, of this shape and with such an office. -/
def Has (s : Site) (a : Address) (shape : Shape) (office : Office Address → Prop) : Prop :=
  a ∈ s.created ∧ ∃ o, s.listing a = some ⟨shape, o⟩ ∧ office o

theorem Has.mono {s : Site} {a : Address} {shape : Shape} {office office' : Office Address → Prop}
    (h : s.Has a shape office) (himp : ∀ o, office o → office' o) : s.Has a shape office' := by
  obtain ⟨hcreated, o, hlisting, ho⟩ := h
  exact ⟨hcreated, o, hlisting, himp o ho⟩

theorem Has.and {s : Site} {a : Address} {shape : Shape} {office office' : Office Address → Prop}
    (h : s.Has a shape office) (h' : s.Has a shape office') :
    s.Has a shape fun o => office o ∧ office' o := by
  obtain ⟨hcreated, o, hlisting, ho⟩ := h
  obtain ⟨-, o', hlisting', ho'⟩ := h'
  rw [hlisting] at hlisting'
  cases hlisting'
  exact ⟨hcreated, o, hlisting, ho, ho'⟩

theorem Has.admin? {s : Site} {a b : Address} {shape : Shape}
    (h : s.Has a shape fun o => o.holder = b) : s.admin? a = some b := by
  obtain ⟨-, o, hlisting, rfl⟩ := h
  rw [Site.admin?, hlisting]
  rfl

theorem Has.of_admin? {s : Site} {a b : Address} {shape : Shape} {office : Office Address → Prop}
    (h : s.Has a shape office) (hadmin : s.admin? a = some b) :
    s.Has a shape fun o => o.holder = b := by
  obtain ⟨hcreated, o, hlisting, -⟩ := h
  refine ⟨hcreated, o, hlisting, ?_⟩
  rw [Site.admin?, hlisting] at hadmin
  exact Option.some.inj hadmin

end Site

section Custody

variable (account : Address) (m : StellarDeployManifest) (s : Site)

/-- The filled slots, with what is said of the offices. -/
structure Linked (downstream root : Office Address → Prop) : Prop where
  tidy : m.Tidy
  security : ∀ a, m.security = some a → s.Has a (.security m.variant.scheme) downstream
  verification : ∀ a, m.verification = some a → ∃ sec, m.security = some sec ∧
    s.Has a (.verification m.variant.scheme sec) downstream
  projectRoot : ∀ a, m.projectRoot = some a → ∃ sec ver, m.security = some sec ∧
    m.verification = some ver ∧ s.Has a (.projectRoot sec ver) root

/-- The downstream contracts are project_root's. -/
def Adopted : Prop :=
  ∃ sec ver root, m.security = some sec ∧ m.verification = some ver ∧
    m.projectRoot = some root ∧ s.admin? sec = some root ∧ s.admin? ver = some root

/-- The office of a downstream contract. -/
structure Held (o : Office Address) : Prop where
  holder : o.holder = account ∨ m.projectRoot = some o.holder
  candidate : ∀ b, o.candidate = some b → m.projectRoot = some b

/-- The office of project_root: it is not handed over before the adoption. -/
def Kept (o : Office Address) : Prop :=
  o = ⟨account, none⟩ ∨ Adopted m s

def Custody : Prop :=
  Linked m s (Held account m) (Kept account m s)

/-! ## Steps -/

/-- What a step may do to an office. -/
inductive Turn (shape : Shape) (o : Office Address) : Office Address → Prop
  | same : Turn shape o o
  | proposed (root : Address) (hshape : shape.isRoot = false) (hroot : m.projectRoot = some root) :
      Turn shape o ⟨o.holder, some root⟩
  | accepted (root : Address) (hshape : shape.isRoot = false) (hroot : m.projectRoot = some root) :
      Turn shape o ⟨root, none⟩
  | handed (o' : Office Address) (hshape : shape.isRoot = true) (hadopted : Adopted m s) :
      Turn shape o o'

structure Progress (s' : Site) : Prop where
  created : ∀ a ∈ s.created, a ∈ s'.created
  office : ∀ a shape o, m.Names a → a ∈ s.created → s.listing a = some ⟨shape, o⟩ →
    ∃ o', s'.listing a = some ⟨shape, o'⟩ ∧ Turn m s shape o o'

end Custody

variable {p : Platform} {account : Address} {m : StellarDeployManifest} {s s' : Site}

theorem Progress.has (h : Progress m s s') {a : Address} {shape : Shape}
    {office office' : Office Address → Prop} (hnames : m.Names a) (hhas : s.Has a shape office)
    (hturn : ∀ o o', office o → Turn m s shape o o' → office' o') : s'.Has a shape office' := by
  obtain ⟨hcreated, o, hlisting, ho⟩ := hhas
  obtain ⟨o', hlisting', hmove⟩ := h.office a shape o hnames hcreated hlisting
  exact ⟨h.created a hcreated, o', hlisting', hturn o o' ho hmove⟩

theorem Held.turn {shape : Shape} {o o' : Office Address} (h : Held account m o)
    (hshape : shape.isRoot = false) (hturn : Turn m s shape o o') : Held account m o' := by
  cases hturn with
  | same => exact h
  | proposed root _ hroot => exact ⟨h.holder, fun b hb => by rw [hroot, ← hb]⟩
  | accepted root _ hroot => exact ⟨.inr hroot, nofun⟩
  | handed _ hroot _ =>
      rw [hshape] at hroot
      cases hroot

/-- What is project_root's stays project_root's. -/
theorem Progress.holder (h : Progress m s s') {a root : Address} {shape : Shape}
    (hnames : m.Names a) (hshape : shape.isRoot = false) (hroot : m.projectRoot = some root)
    (hhas : s.Has a shape fun o => o.holder = root) : s'.Has a shape fun o => o.holder = root := by
  apply h.has hnames hhas
  intro o o' hholder hturn
  cases hturn with
  | same => exact hholder
  | proposed => exact hholder
  | accepted root' _ hroot' => exact Option.some.inj (hroot'.symm.trans hroot)
  | handed _ hroot' _ =>
      rw [hshape] at hroot'
      cases hroot'

theorem Adopted.step (hadopted : Adopted m s) (h : Custody account m s)
    (hprogress : Progress m s s') : Adopted m s' := by
  obtain ⟨sec, ver, root, hsec, hver, hroot, hsecurity, hverification⟩ := hadopted
  obtain ⟨_, -, hhas⟩ := h.verification ver hver
  refine ⟨sec, ver, root, hsec, hver, hroot, ?_, ?_⟩
  · exact (hprogress.holder (.inl hsec) rfl hroot
      ((h.security sec hsec).of_admin? hsecurity)).admin?
  · exact (hprogress.holder (.inr (.inl hver)) rfl hroot (hhas.of_admin? hverification)).admin?

/-- A step of progress keeps the custody. -/
theorem Custody.step (h : Custody account m s) (hprogress : Progress m s s') :
    Custody account m s' where
  tidy := h.tidy
  security a ha :=
    hprogress.has (.inl ha) (h.security a ha) fun _ _ hheld hturn => hheld.turn rfl hturn
  verification a ha := by
    obtain ⟨sec, hsec, hhas⟩ := h.verification a ha
    exact ⟨sec, hsec, hprogress.has (.inr (.inl ha)) hhas
      fun _ _ hheld hturn => hheld.turn rfl hturn⟩
  projectRoot a ha := by
    obtain ⟨sec, ver, hsec, hver, hhas⟩ := h.projectRoot a ha
    refine ⟨sec, ver, hsec, hver, hprogress.has (.inr (.inr ha)) hhas fun o o' hkept hturn => ?_⟩
    cases hturn with
    | same => exact hkept.imp_right fun hadopted => hadopted.step h hprogress
    | proposed _ hshape _ => cases hshape
    | accepted _ hshape _ => cases hshape
    | handed _ _ hadopted => exact .inr (hadopted.step h hprogress)

/-! ## What others do -/

theorem Progress.of_same (hcreated : ∀ a ∈ s.created, a ∈ s'.created)
    (hsame : ∀ a ∈ s.created, s.listing a ≠ none → s'.listing a = s.listing a) :
    Progress m s s' where
  created := hcreated
  office a shape o _ ha hlisting := by
    refine ⟨o, ?_, .same⟩
    rw [hsame a ha (by rw [hlisting]; exact nofun), hlisting]

/-- A step that changes one office. -/
theorem Progress.of_update {target : Address} {shape : Shape} {o o' : Office Address}
    (hlisting : s.listing target = some ⟨shape, o⟩)
    (hturn : m.Names target → Turn m s shape o o') (hcreated : s'.created = s.created)
    (hupdate : s'.listing = Function.update s.listing target (some ⟨shape, o'⟩)) :
    Progress m s s' where
  created a ha := by rwa [hcreated]
  office a shape₀ o₀ hnames _ ha := by
    by_cases htarget : a = target
    · subst htarget
      obtain ⟨rfl, rfl⟩ : shape₀ = shape ∧ o₀ = o := by
        rw [hlisting] at ha
        cases ha
        exact ⟨rfl, rfl⟩
      exact ⟨o', by rw [hupdate, Function.update_self], hturn hnames⟩
    · exact ⟨o₀, by rw [hupdate, Function.update_of_ne htarget, ha], .same⟩

/-- A signed transaction is authorized by its signer, and by nobody else. -/
theorem Signs.authorized_iff {tx : Transaction} {target a : Address} {call : Call}
    (h : Signs account tx target call) :
    (tx.env [] target call).authorized a = true ↔ a = account := by
  have henv : (tx.env [] target call).authorized a = tx.signed a target call := by
    simp [Transaction.env, Env.authorized]
  rw [henv]
  constructor
  · exact h.only a target call
  · rintro rfl
    exact h.call

theorem Elsewhere.progress (h : Elsewhere s s') : Progress m s s' := by
  refine .of_same (fun a ha => by rwa [h.created]) fun a ha _ => ?_
  rw [Site.listing, World.listing, h.contracts a ha]
  rfl

theorem Progress.of_files (hsystem : s'.system = s.system) (hcreated : s'.created = s.created) :
    Progress m s s' := by
  refine .of_same (fun a ha => by rwa [hcreated]) fun a _ _ => ?_
  rw [Site.listing, hsystem]
  rfl

theorem Site.deploy_progress {a : Address} {inst : Instance}
    (hfresh : s.system.world.contracts a = none) : Progress m s (s.deploy a inst) := by
  refine .of_same (fun b hb => List.mem_append_left _ hb) fun b _ hb => ?_
  have hne : b ≠ a := by
    rintro rfl
    rw [Site.listing, World.listing, hfresh] at hb
    exact hb rfl
  simp only [Site.listing, World.listing, Site.deploy, Function.update_of_ne hne]

/-- The one office that `accept_admin` may change. -/
theorem transact_acceptAdmin {tx : Transaction} {owner root : Address} {shape : Shape}
    {o : Office Address} (hroot : s.listing root = some ⟨shape, o⟩)
    (htx : Signs owner tx root .acceptAdmin) :
    (s.transact p tx root .acceptAdmin).listing =
      if o.candidate = some owner then
        Function.update s.listing root (some ⟨shape, owner, none⟩)
      else s.listing := by
  by_cases hcandidate : o.candidate = some owner
  · rw [if_pos hcandidate]
    have haccepts : (invoke p tx (99 + 1) [] root .acceptAdmin s.system.world).1 = _ ∧ _ :=
      invoke_acceptAdmin List.not_mem_nil hroot hcandidate (htx.authorized_iff.mpr rfl)
    exact haccepts.2
  · rw [if_neg hcandidate]
    have hrefused : invoke p tx (99 + 1) [] root .acceptAdmin s.system.world =
        (.error .abort, s.system.world) := by
      apply invoke_acceptAdmin_refused List.not_mem_nil hroot
      intro b hb hauth
      obtain rfl : b = owner := htx.authorized_iff.mp hauth
      exact hcandidate hb
    exact congrArg (fun r : Reply × World => r.2.listing) hrefused

/-- Nobody accepts project_root before it was handed over. -/
theorem Accepts.progress (h : Custody account m s) (haccepts : Accepts p s s') :
    Progress m s s' := by
  obtain ⟨owner, root, sec, ver, o, tx, hroot, htx, -⟩ := haccepts
  have hlisting := transact_acceptAdmin (p := p) hroot htx
  by_cases hcandidate : o.candidate = some owner
  · rw [if_pos hcandidate] at hlisting
    refine .of_update hroot (fun hnames => .handed _ rfl ?_) rfl hlisting
    obtain hsec | hver | hpr := hnames
    · obtain ⟨-, _, hother, -⟩ := h.security root hsec
      rw [hroot] at hother
      cases hother
    · obtain ⟨_, -, -, _, hother, -⟩ := h.verification root hver
      rw [hroot] at hother
      cases hother
    · obtain ⟨_, _, -, -, -, o', hsame, hkept⟩ := h.projectRoot root hpr
      rw [hroot] at hsame
      cases hsame
      obtain rfl | hadopted := hkept
      · cases hcandidate
      · exact hadopted
  · rw [if_neg hcandidate] at hlisting
    exact .of_same (fun _ => id) fun a _ _ => congrFun hlisting a

theorem others_progress {c : Circumstances} (h : Custody account m s)
    (hothers : (setting p account c).others s s') : Progress m s s' := by
  obtain helsewhere | ⟨-, haccepts⟩ := hothers
  · exact helsewhere.progress
  · exact haccepts.progress h

theorem stable_custody {c : Circumstances} :
    (setting p account c).Stable (Custody account m) :=
  fun _ _ hothers h => h.step (others_progress h hothers)

/-- Nobody else touches the downstream contracts. -/
theorem stable_has {c : Circumstances} {a : Address} {shape : Shape}
    {office : Office Address → Prop} (hshape : shape.isRoot = false) :
    (setting p account c).Stable fun s => s.Has a shape office := by
  rintro s s' hothers ⟨hcreated, o, hlisting, ho⟩
  obtain helsewhere | ⟨-, haccepts⟩ := hothers
  · refine ⟨by rwa [helsewhere.created], o, ?_, ho⟩
    rw [← hlisting, Site.listing, World.listing, helsewhere.contracts a hcreated]
    rfl
  · obtain ⟨owner, root, sec, ver, o', tx, hroot, htx, -⟩ := haccepts
    have hne : a ≠ root := World.ne_of_shape hlisting hroot (Shape.ne_projectRoot hshape)
    refine ⟨hcreated, o, ?_, ho⟩
    rw [transact_acceptAdmin hroot htx]
    split
    · rwa [Function.update_of_ne hne]
    · exact hlisting

/-! ## The transactions of the adoption -/

section Transactions

variable {tx : Transaction} {sec ver root target : Address} {shape : Shape}

/-- The deployer proposes project_root as the admin of a contract of its own. -/
theorem transact_proposeAdmin (hroot : m.projectRoot = some root) (hshape : shape.isRoot = false)
    (hhas : s.Has target shape fun o => o.holder = account)
    (htx : Signs account tx target (.proposeAdmin root)) :
    s.reply p tx target (.proposeAdmin root) = .ok .void ∧
      Progress m s (s.transact p tx target (.proposeAdmin root)) ∧
      (s.transact p tx target (.proposeAdmin root)).Has target shape
        fun o => o = ⟨account, some root⟩ := by
  obtain ⟨hcreated, o, hlisting, rfl⟩ := hhas
  obtain ⟨hreply, hupdate⟩ :
      (invoke p tx (99 + 1) [] target (.proposeAdmin root) s.system.world).1 = _ ∧ _ :=
    invoke_proposeAdmin List.not_mem_nil hlisting (htx.authorized_iff.mpr rfl)
  refine ⟨hreply, .of_update hlisting (fun _ => .proposed root hshape hroot) rfl hupdate,
    hcreated, ⟨o.holder, some root⟩, ?_, rfl⟩
  exact (congrFun hupdate target).trans (Function.update_self ..)

/-- project_root accepts, or nothing changes. -/
theorem transact_acceptContractAdmin (hroot : m.projectRoot = some root)
    (hrootHas : s.Has root (.projectRoot sec ver) (Kept account m s))
    (hregistered : target = ver ∨ target = sec) (hshape : shape.isRoot = false)
    (hhas : s.Has target shape (Held account m))
    (htx : Signs account tx root (.acceptContractAdmin target)) :
    Progress m s (s.transact p tx root (.acceptContractAdmin target)) ∧
      ((∃ v, s.reply p tx root (.acceptContractAdmin target) = .ok v) ∧
          (s.transact p tx root (.acceptContractAdmin target)).admin? target = some root ∨
        (∃ e, s.reply p tx root (.acceptContractAdmin target) = .error e) ∧
          (Adopted m s ∨ ¬s.Has target shape fun o => o = ⟨account, some root⟩)) := by
  obtain ⟨hcreated, o, hlisting, hheld⟩ := hhas
  obtain ⟨-, o', hrootListing, hkept⟩ := hrootHas
  have hne : shape ≠ .projectRoot sec ver := Shape.ne_projectRoot hshape
  by_cases haccepted : o'.holder = account ∧ o.candidate ≠ none
  · obtain ⟨hholder, hcandidate⟩ := haccepted
    have hnamed : o.candidate = some root := by
      cases hc : o.candidate with
      | none => exact absurd hc hcandidate
      | some b => rw [← hheld.candidate b hc, hroot]
    obtain ⟨hreply, hupdate⟩ :
        (invoke p tx (98 + 2) [] root (.acceptContractAdmin target) s.system.world).1 = _ ∧ _ :=
      invoke_acceptContractAdmin List.not_mem_nil List.not_mem_nil hrootListing hregistered hlisting
        hne (htx.authorized_iff.mpr hholder) hnamed
    refine ⟨.of_update hlisting (fun _ => .accepted root hshape hroot) rfl hupdate,
      .inl ⟨⟨_, hreply⟩, ?_⟩⟩
    have htaken : (s.transact p tx root (.acceptContractAdmin target)).listing target =
        some ⟨shape, root, none⟩ := (congrFun hupdate target).trans (Function.update_self ..)
    rw [Site.admin?, htaken]
    rfl
  · have hrefused : invoke p tx (98 + 2) [] root (.acceptContractAdmin target) s.system.world =
        (.error .abort, s.system.world) := by
      refine invoke_acceptContractAdmin_refused List.not_mem_nil List.not_mem_nil hrootListing
        hregistered hlisting hne ?_
      by_cases hholder : o'.holder = account
      · exact .inr (not_not.mp fun hcandidate => haccepted ⟨hholder, hcandidate⟩)
      · exact .inl fun hauth => hholder (htx.authorized_iff.mp hauth)
    refine ⟨.of_same (fun _ => id) fun a _ _ => congrArg (fun r => r.2.listing a) hrefused,
      .inr ⟨⟨.abort, congrArg Prod.fst hrefused⟩, ?_⟩⟩
    obtain rfl | hadopted := hkept
    · right
      rintro ⟨-, o'', hlisting', rfl⟩
      rw [hlisting] at hlisting'
      cases hlisting'
      exact haccepted ⟨rfl, nofun⟩
    · exact .inl hadopted

end Transactions

end WarpDrive.Deployer
