import WarpDrive.Deployer.Commands
import WarpDrive.System.Administration

/-!
# Where the deployer works

A `Site` is the composed system together with the two files of the deployer, the
manifest and its temporary sibling.  `Performs` is what an action does when nothing goes
wrong between the deployer and the site, and `Mishap` what can go wrong: an action fails
before it takes effect, its answer is lost after it did, and a write may be torn.
`Elsewhere` is what others do who do not touch the contracts of the deployer, and
`Accepts` is the one transaction that an owner sends to them.

There is a rule for each action of the deployer, from which the commands are verified.
-/

namespace WarpDrive.Deployer

open Interaction Transfer

/-! ## Deployments -/

/-- The signature scheme of a variant. -/
def Variant.scheme : Variant → VerificationType
  | ethereum => .ethereum
  | stellar => .stellar

namespace Deployment

/-- The contract that a deployment creates from the uploaded wasm, unless the
constructor refuses its arguments. -/
def construct (wasm : BytesN 32) : Deployment → Option Instance
  | security variant admin numerator denominator =>
      match Security.construct variant.scheme wasm admin numerator denominator with
      | .ok s => some (.security variant.scheme s)
      | .error _ => none
  | verification variant admin securityContract =>
      some (.verification variant.scheme (Verification.construct wasm admin securityContract))
  | projectRoot admin securityContract verificationContract repo verificationType =>
      some (.projectRoot (ProjectRoot.construct wasm admin securityContract verificationContract
        repo verificationType))

/-- What it is listed as. -/
def listing : Deployment → Listing
  | security variant admin _ _ => ⟨.security variant.scheme, admin, none⟩
  | verification variant admin securityContract =>
      ⟨.verification variant.scheme securityContract, admin, none⟩
  | projectRoot admin securityContract verificationContract _ _ =>
      ⟨.projectRoot securityContract verificationContract, admin, none⟩

theorem deployed_of_construct {d : Deployment} {wasm : BytesN 32} {inst : Instance}
    (h : d.construct wasm = some inst) : inst.Deployed ∧ inst.listing? = some d.listing := by
  cases d with
  | security variant admin numerator denominator =>
      simp only [construct] at h
      cases hs : Security.construct variant.scheme wasm admin numerator denominator with
      | error e =>
          rw [hs] at h
          cases h
      | ok s =>
          rw [hs] at h
          cases h
          obtain ⟨-, rfl⟩ := Security.construct_eq_ok.mp hs
          exact ⟨⟨wasm, admin, numerator, denominator, hs⟩, rfl⟩
  | verification variant admin securityContract =>
      cases h
      exact ⟨⟨wasm, admin, securityContract, rfl⟩, rfl⟩
  | projectRoot admin securityContract verificationContract repo verificationType =>
      cases h
      exact ⟨⟨wasm, admin, securityContract, verificationContract, repo, verificationType, rfl⟩,
        rfl⟩

end Deployment

/-! ## Sites -/

/-- The system, and the files of the deployer.  `created` lists the contracts that the
deployer created, recorded or not. -/
structure Site where
  system : System
  manifest : Option Bytes
  scratch : Option Bytes
  created : List Address

namespace Site

def listing (s : Site) (a : Address) : Option Listing :=
  s.system.world.listing a

def deploy (s : Site) (a : Address) (inst : Instance) : Site :=
  { s with
    system := { s.system with
      world := { s.system.world with
        contracts := Function.update s.system.world.contracts a (some inst) } }
    created := s.created ++ [a] }

/-- The site after a transaction, whether the call succeeded or not. -/
def transact (p : Platform) (s : Site) (tx : Transaction) (target : Address) (call : Call) :
    Site :=
  { s with system := ⟨(invoke p tx depthLimit [] target call s.system.world).2, tx.ledger⟩ }

/-- What a transaction returns. -/
def reply (p : Platform) (s : Site) (tx : Transaction) (target : Address) (call : Call) :
    Reply :=
  (invoke p tx depthLimit [] target call s.system.world).1

end Site

/-- A transaction in which `account` signs for `call`, and nobody else signs for anything. -/
structure Signs (account : Address) (tx : Transaction) (target : Address) (call : Call) : Prop where
  call : tx.signed account target call = true
  only : ∀ a target' call', tx.signed a target' call' = true → a = account

/-! ## Actions -/

section Actions

variable (p : Platform) (account : Address)

/-- One action of the deployer, its answer and the site after it. -/
def Performs (s : Site) : (i : Action) → Except DeployerError i.Response → Site → Prop
  | .read, r, s' => s' = s ∧
      match s.manifest with
      | some bytes => r = .ok bytes
      | none => r = .error (.io .notFound)
  | .createDirAll, r, s' => s' = s ∧ r = .ok ()
  | .createTmp, r, s' => s' = { s with scratch := some [] } ∧ r = .ok ()
  | .writeAll bytes, r, s' =>
      match s.scratch with
      | some written => s' = { s with scratch := some (written ++ bytes) } ∧ r = .ok ()
      | none => s' = s ∧ r = .error (.io .other)
  | .syncAll, r, s' => s' = s ∧ r = .ok ()
  | .rename, r, s' =>
      match s.scratch with
      | some written => s' = { s with manifest := some written, scratch := none } ∧ r = .ok ()
      | none => s' = s ∧ r = .error (.io .notFound)
  | .create deployment, r, s' => ∃ wasm,
      match deployment.construct wasm with
      | some inst =>
          ∃ a, s.system.world.contracts a = none ∧ s' = s.deploy a inst ∧ r = .ok (some a)
      | none => s' = s ∧ ∃ e, r = .error (.soroban e)
  | .query target call, r, s' => s' = s ∧ ∃ tx : Transaction, Signs account tx target call ∧
      match s.reply p tx target call with
      | .ok v => r = .ok v
      | .error _ => ∃ e, r = .error (.soroban e)
  | .execute target call, r, s' => ∃ tx : Transaction, Signs account tx target call ∧
      s.system.ledger ≤ tx.ledger ∧ s' = s.transact p tx target call ∧
      match s.reply p tx target call with
      | .ok _ => ∃ hash, r = .ok (some hash)
      | .error _ => ∃ e, r = .error (.soroban e)

/-- The chain does not run out of addresses. -/
def HasRoom (s : Site) : Prop :=
  ∀ n, ∃ a : Address, n ≤ a.id ∧ s.system.world.contracts a = none

/-- What can go wrong.  Only a file that is missing is reported as missing. -/
inductive Mishap (s : Site) : (i : Action) → Except DeployerError i.Response → Site → Prop
  | failed (i : Action) (e : DeployerError) (he : i = .read → e ≠ .io .notFound) :
      Mishap s i (.error e) s
  | lost (i : Action) (e : DeployerError) (he : i = .read → e ≠ .io .notFound)
      (r : Except DeployerError i.Response) (s' : Site) (hperforms : Performs p account s i r s') :
      Mishap s i (.error e) s'
  | torn (bytes written : Bytes) (n : ℕ) (e : DeployerError) (hscratch : s.scratch = some written) :
      Mishap s (.writeAll bytes) (.error e) { s with scratch := some (written ++ bytes.take n) }
  | noId (deployment : Deployment) (a : Address) (s' : Site)
      (hperforms : Performs p account s (.create deployment) (.ok (some a)) s') :
      Mishap s (.create deployment) (.ok none) s'
  | noHash (target : Address) (call : Call) (hash : String) (s' : Site)
      (hperforms : Performs p account s (.execute target call) (.ok (some hash)) s') :
      Mishap s (.execute target call) (.ok none) s'

/-- Others deploy and call other contracts, and time passes. -/
structure Elsewhere (s s' : Site) : Prop where
  manifest : s'.manifest = s.manifest
  scratch : s'.scratch = s.scratch
  created : s'.created = s.created
  contracts : ∀ a ∈ s.created, s'.system.world.contracts a = s.system.world.contracts a
  ledger : s.system.ledger ≤ s'.system.ledger

/-- An owner sends `accept_admin` to a project_root. -/
inductive Accepts (s : Site) : Site → Prop
  | mk (owner root : Address) (sec ver : Address) (o : Office Address) (tx : Transaction)
      (hroot : s.listing root = some ⟨.projectRoot sec ver, o⟩)
      (htx : Signs owner tx root .acceptAdmin) (hledger : s.system.ledger ≤ tx.ledger) :
      Accepts s (s.transact p tx root .acceptAdmin)

/-- Whether actions of the deployer go wrong, and whether owners accept meanwhile. -/
structure Circumstances where
  mishaps : Prop
  owners : Prop

variable (c : Circumstances)

def setting : Setting Action Action.Response DeployerError Site where
  acts s i r s' := Performs p account s i r s' ∨ c.mishaps ∧ Mishap p account s i r s'
  others s s' := Elsewhere s s' ∨ c.owners ∧ Accepts p s s'

end Actions

section

variable {p : Platform} {account : Address} {s s' : Site} {i : Action}
  {r : Except DeployerError i.Response}

/-- What the deployer does to the chain is a deployment or a transaction of the system. -/
theorem Performs.step (h : Performs p account s i r s') :
    s'.system = s.system ∨ ∃ op, Step p s.system op s'.system := by
  cases i with
  | read | createDirAll | syncAll | query => exact .inl (by rw [h.1])
  | createTmp => exact .inl (by rw [h.1])
  | writeAll bytes =>
      rw [Performs] at h
      split at h <;> exact .inl (by rw [h.1])
  | rename =>
      rw [Performs] at h
      split at h <;> exact .inl (by rw [h.1])
  | create deployment =>
      obtain ⟨wasm, h⟩ := h
      split at h
      next inst hinst =>
        obtain ⟨a, hfresh, rfl, -⟩ := h
        exact .inr ⟨_, .deploy _ a inst hfresh (Deployment.deployed_of_construct hinst).1⟩
      next => exact .inl (by rw [h.1])
  | execute target call =>
      obtain ⟨tx, -, hledger, rfl, -⟩ := h
      exact .inr ⟨_, .transact _ tx target call hledger⟩

theorem HasRoom.deploy (h : HasRoom s) (a : Address) (inst : Instance) :
    HasRoom (s.deploy a inst) := by
  intro n
  obtain ⟨b, hb, hfree⟩ := h (n + a.id + 1)
  have hne : b ≠ a := by
    rintro rfl
    omega
  refine ⟨b, by omega, ?_⟩
  simp only [Site.deploy, Function.update_of_ne hne, hfree]

theorem HasRoom.transact (h : HasRoom s) (tx : Transaction) (target : Address) (call : Call) :
    HasRoom (s.transact p tx target call) := by
  intro n
  obtain ⟨b, hb, hfree⟩ := h n
  obtain ⟨J, hextends⟩ := invoke_extends p tx depthLimit [] target call s.system.world
  exact ⟨b, hb, (hextends.absent b hfree).1⟩

theorem performs_writeAll {bytes written : Bytes} (h : s.scratch = some written) :
    Performs p account s (.writeAll bytes) (.ok ())
      { s with scratch := some (written ++ bytes) } := by
  rw [Performs, h]
  exact ⟨rfl, rfl⟩

theorem performs_rename {written : Bytes} (h : s.scratch = some written) :
    Performs p account s .rename (.ok ())
      { s with manifest := some written, scratch := none } := by
  rw [Performs, h]
  exact ⟨rfl, rfl⟩

theorem performs_create {d : Deployment} {wasm : BytesN 32} {inst : Instance} {a : Address}
    (hinst : d.construct wasm = some inst) (hfree : s.system.world.contracts a = none) :
    Performs p account s (.create d) (.ok (some a)) (s.deploy a inst) := by
  refine ⟨wasm, ?_⟩
  rw [hinst]
  exact ⟨a, hfree, rfl, rfl⟩

theorem performs_execute {target : Address} {call : Call} {tx : Transaction} {v : Val}
    (htx : Signs account tx target call) (hledger : s.system.ledger ≤ tx.ledger)
    (hreply : s.reply p tx target call = .ok v) (hash : String) :
    Performs p account s (.execute target call) (.ok (some hash))
      (s.transact p tx target call) := by
  refine ⟨tx, htx, hledger, rfl, ?_⟩
  rw [hreply]
  exact ⟨hash, rfl⟩

theorem performs_query {target : Address} {call : Call} {tx : Transaction} {v : Val}
    (htx : Signs account tx target call) (hreply : s.reply p tx target call = .ok v) :
    Performs p account s (.query target call) (.ok v) s :=
  ⟨rfl, tx, htx, by rw [hreply]⟩

theorem exists_signs (account : Address) (ledger : ℕ) (target : Address) (call : Call) :
    ∃ tx : Transaction, tx.ledger = ledger ∧ Signs account tx target call :=
  ⟨⟨ledger, fun a _ _ => a = account⟩, rfl, decide_eq_true rfl, fun _ _ _ => of_decide_eq_true⟩

/-- Every action comes back, where nothing goes wrong. -/
theorem exists_performs (p : Platform) (account : Address) (h : HasRoom s) (i : Action) :
    ∃ r s', Performs p account s i r s' ∧ HasRoom s' := by
  cases i with
  | read =>
      cases hfile : s.manifest with
      | none => exact ⟨.error (.io .notFound), s, ⟨rfl, by rw [hfile]⟩, h⟩
      | some bytes => exact ⟨.ok bytes, s, ⟨rfl, by rw [hfile]⟩, h⟩
  | createDirAll => exact ⟨.ok (), s, ⟨rfl, rfl⟩, h⟩
  | createTmp => exact ⟨.ok (), _, ⟨rfl, rfl⟩, h⟩
  | writeAll bytes =>
      cases hfile : s.scratch with
      | none => exact ⟨.error (.io .other), s, by rw [Performs, hfile]; exact ⟨rfl, rfl⟩, h⟩
      | some written => exact ⟨.ok (), _, performs_writeAll hfile, h⟩
  | syncAll => exact ⟨.ok (), s, ⟨rfl, rfl⟩, h⟩
  | rename =>
      cases hfile : s.scratch with
      | none => exact ⟨.error (.io .notFound), s, by rw [Performs, hfile]; exact ⟨rfl, rfl⟩, h⟩
      | some written => exact ⟨.ok (), _, performs_rename hfile, h⟩
  | create deployment =>
      obtain ⟨a, -, hfree⟩ := h 0
      have wasm : BytesN 32 := ⟨List.replicate 32 0, List.length_replicate⟩
      cases hinst : deployment.construct wasm with
      | none =>
          refine ⟨.error (.soroban (.transactionFailed "")), s, ⟨wasm, ?_⟩, h⟩
          rw [hinst]
          exact ⟨rfl, _, rfl⟩
      | some inst => exact ⟨.ok (some a), _, performs_create hinst hfree, h.deploy a inst⟩
  | query target call =>
      obtain ⟨tx, -, htx⟩ := exists_signs account s.system.ledger target call
      cases hreply : s.reply p tx target call with
      | ok v => exact ⟨.ok v, s, performs_query htx hreply, h⟩
      | error e =>
          refine ⟨.error (.soroban (.transactionFailed "")), s, ⟨rfl, tx, htx, ?_⟩, h⟩
          rw [hreply]
          exact ⟨_, rfl⟩
  | execute target call =>
      obtain ⟨tx, hledger, htx⟩ := exists_signs account s.system.ledger target call
      cases hreply : s.reply p tx target call with
      | ok v =>
          exact ⟨.ok (some ""), _, performs_execute htx hledger.ge hreply "",
            h.transact tx target call⟩
      | error e =>
          refine ⟨.error (.soroban (.transactionFailed "")), s.transact p tx target call,
            ⟨tx, htx, hledger.ge, rfl, ?_⟩, h.transact tx target call⟩
          rw [hreply]
          exact ⟨_, rfl⟩

end

/-! ## Rules -/

section Rules

variable {p : Platform} {account : Address} {c : Circumstances} {inv : Site → Prop}
  {allowed : Action → Prop} {P : Site → Prop}

/-- What others do changes neither file. -/
theorem others_files {s s' : Site} (h : (setting p account c).others s s') :
    s'.manifest = s.manifest ∧ s'.scratch = s.scratch := by
  obtain helsewhere | ⟨-, haccepts⟩ := h
  · exact ⟨helsewhere.manifest, helsewhere.scratch⟩
  · obtain ⟨_, _, _, _, _, _, _, _, _⟩ := haccepts
    exact ⟨rfl, rfl⟩

theorem stable_manifest {file : Option Bytes} :
    (setting p account c).Stable fun s => s.manifest = file := by
  intro s s' hothers hfile
  exact (others_files hothers).1.trans hfile

theorem stable_scratch {file : Option Bytes} :
    (setting p account c).Stable fun s => s.scratch = file := by
  intro s s' hothers hfile
  exact (others_files hothers).2.trans hfile

/-- The actions whose mishaps are an error, with the whole effect or none. -/
def Action.isPlain : Action → Bool
  | writeAll _ | create _ | execute .. => false
  | _ => true

/-- The rule of these actions: `Q` holds however they come back. -/
theorem plain_triple {i : Action} {Q : Site → Prop} {post : i.Response → Site → Prop}
    {err : DeployerError → Site → Prop} (hplain : i.isPlain = true) (hallowed : allowed i)
    (hstable : (setting p account c).Stable P) (hPQ : ∀ s, P s → Q s) (hinv : ∀ s, Q s → inv s)
    (hperforms : ∀ s r s', P s → Performs p account s i r s' → Q s' ∧
      (∀ a, r = .ok a → post a s') ∧ ∀ e, r = .error e → err e s')
    (hmishap : c.mishaps → ∀ e s, (i = .read → e ≠ .io .notFound) → Q s → err e s) :
    (setting p account c).Triple inv allowed P (Script.perform i) post err := by
  refine .perform hstable hallowed fun s r s' hP hacts => ?_
  obtain hdone | ⟨hmishaps, hwrong⟩ := hacts
  · obtain ⟨hQ, hanswer⟩ := hperforms s r s' hP hdone
    exact ⟨hinv s' hQ, hanswer⟩
  · cases hwrong with
    | failed _ e he =>
        refine ⟨hinv s (hPQ s hP), nofun, ?_⟩
        rintro _ ⟨rfl⟩
        exact hmishap hmishaps e s he (hPQ s hP)
    | lost _ e he r₀ _ hdone =>
        have hQ : Q s' := (hperforms s r₀ s' hP hdone).1
        refine ⟨hinv s' hQ, nofun, ?_⟩
        rintro _ ⟨rfl⟩
        exact hmishap hmishaps e s' he hQ
    | torn | noId | noHash => cases hplain

/-- Reading: a file is missing only where there is none. -/
theorem read_triple (hallowed : allowed .read) (hstable : (setting p account c).Stable P)
    (hinv : ∀ s, P s → inv s) :
    (setting p account c).Triple inv allowed P read
      (fun bytes s => P s ∧ s.manifest = some bytes)
      fun e s => P s ∧ if e = .io .notFound then s.manifest = none else c.mishaps := by
  refine plain_triple rfl hallowed hstable (fun _ => id) hinv ?_ ?_
  · rintro s r s' hP ⟨rfl, hr⟩
    cases hfile : s'.manifest with
    | none =>
        rw [hfile] at hr
        subst hr
        refine ⟨hP, nofun, ?_⟩
        rintro _ ⟨rfl⟩
        exact ⟨hP, by rw [if_pos rfl]⟩
    | some bytes =>
        rw [hfile] at hr
        subst hr
        refine ⟨hP, ?_, nofun⟩
        rintro _ ⟨rfl⟩
        exact ⟨hP, rfl⟩
  · intro hmishaps e s he hP
    exact ⟨hP, by rwa [if_neg (he rfl)]⟩

section Files

variable (hallowed : ∀ i, allowed i) (hstable : (setting p account c).Stable P)
  (hinv : ∀ s, P s → inv s) (hscratch : ∀ s file, P s → P { s with scratch := file })

include hallowed hstable hinv in
/-- The rule of the actions that leave the site as it is. -/
theorem idle_triple {i : Action} {a : i.Response} (hplain : i.isPlain = true)
    (hidle : ∀ s r s', Performs p account s i r s' → s' = s ∧ r = .ok a) :
    (setting p account c).Triple inv allowed P (Script.perform i) (fun _ => P)
      fun _ s => P s ∧ c.mishaps := by
  apply plain_triple hplain (hallowed _) hstable (fun _ => id) hinv
  · intro s r s' hP hdone
    obtain ⟨rfl, rfl⟩ := hidle s r s' hdone
    exact ⟨hP, fun _ _ => hP, fun _ herr => by cases herr⟩
  · exact fun hmishaps e s _ hP => ⟨hP, hmishaps⟩

include hallowed hstable hinv in
theorem createDirAll_triple :
    (setting p account c).Triple inv allowed P createDirAll (fun _ => P)
      fun _ s => P s ∧ c.mishaps :=
  idle_triple hallowed hstable hinv rfl fun _ _ _ => id

include hallowed hstable hinv in
theorem syncAll_triple :
    (setting p account c).Triple inv allowed P syncAll (fun _ => P)
      fun _ s => P s ∧ c.mishaps :=
  idle_triple hallowed hstable hinv rfl fun _ _ _ => id

include hallowed hstable hinv hscratch in
theorem createTmp_triple :
    (setting p account c).Triple inv allowed P createTmp (fun _ s => P s ∧ s.scratch = some [])
      fun _ s => P s ∧ c.mishaps := by
  refine plain_triple rfl (hallowed _) hstable (fun _ => id) hinv ?_ ?_
  · rintro s r s' hP ⟨rfl, rfl⟩
    exact ⟨hscratch s _ hP, fun _ _ => ⟨hscratch s _ hP, rfl⟩, nofun⟩
  · exact fun hmishaps e s _ hP => ⟨hP, hmishaps⟩

include hallowed hstable hinv hscratch in
/-- A write that is torn leaves a part of the bytes in the temporary file. -/
theorem writeAll_triple {bytes written : Bytes} :
    (setting p account c).Triple inv allowed (fun s => P s ∧ s.scratch = some written)
      (writeAll bytes) (fun _ s => P s ∧ s.scratch = some (written ++ bytes))
      fun _ s => P s ∧ c.mishaps := by
  refine .perform (hstable.and stable_scratch) (hallowed _) ?_
  rintro s r s' ⟨hP, hwritten⟩ hacts
  have hwrites : ∀ r s', Performs p account s (.writeAll bytes) r s' →
      s' = { s with scratch := some (written ++ bytes) } ∧ r = .ok () := by
    intro r s' hdone
    rw [Performs, hwritten] at hdone
    exact hdone
  obtain hdone | ⟨hmishaps, hwrong⟩ := hacts
  · obtain ⟨rfl, rfl⟩ := hwrites r s' hdone
    have hP' := hscratch s (some (written ++ bytes)) hP
    exact ⟨hinv _ hP', fun _ _ => ⟨hP', rfl⟩, nofun⟩
  · obtain ⟨e, rfl, hP'⟩ : ∃ e, r = .error e ∧ P s' := by
      cases hwrong with
      | failed _ e _ => exact ⟨e, rfl, hP⟩
      | lost _ e _ r₀ _ hdone =>
          obtain ⟨rfl, -⟩ := hwrites r₀ s' hdone
          exact ⟨e, rfl, hscratch s _ hP⟩
      | torn _ _ _ e _ => exact ⟨e, rfl, hscratch s _ hP⟩
    refine ⟨hinv s' hP', nofun, ?_⟩
    rintro _ ⟨rfl⟩
    exact ⟨hP', hmishaps⟩

include hallowed hstable hinv in
theorem rename_triple {written : Bytes}
    (hrename : ∀ s, P s → P { s with manifest := some written, scratch := none }) :
    (setting p account c).Triple inv allowed (fun s => P s ∧ s.scratch = some written)
      rename (fun _ s => P s ∧ s.manifest = some written) fun _ s => P s ∧ c.mishaps := by
  refine plain_triple rfl (hallowed _) (hstable.and stable_scratch) (fun _ hs => hs.1) hinv ?_ ?_
  · rintro s r s' ⟨hP, hwritten⟩ hdone
    rw [Performs, hwritten] at hdone
    obtain ⟨rfl, rfl⟩ := hdone
    exact ⟨hrename s hP, fun _ _ => ⟨hrename s hP, rfl⟩, nofun⟩
  · exact fun hmishaps e s _ hP => ⟨hP, hmishaps⟩

include hallowed hstable hinv hscratch in
/-- The manifest file is replaced at once, or it stays as it was. -/
theorem persist_triple {texts : Texts} {m : StellarDeployManifest}
    (hrename : ∀ s, P s → P { s with
      manifest := some (texts.toStringPretty m ++ [10])
      scratch := none }) :
    (setting p account c).Triple inv allowed P (persist texts m)
      (fun _ s => P s ∧ s.manifest = some (texts.toStringPretty m ++ [10]))
      fun _ s => P s ∧ c.mishaps := by
  have hkept : ∀ file, (setting p account c).Stable fun s => P s ∧ s.scratch = file :=
    fun file => hstable.and stable_scratch
  apply (createDirAll_triple hallowed hstable hinv).bind
  intro _
  apply (createTmp_triple hallowed hstable hinv hscratch).bind
  intro _
  apply (writeAll_triple hallowed hstable hinv hscratch).bind
  intro _
  apply (writeAll_triple hallowed hstable hinv hscratch).bind
  intro _
  have hsync := syncAll_triple hallowed (hkept (some (texts.toStringPretty m ++ [10])))
    fun s hs => hinv s hs.1
  refine (hsync.consequence (fun _ => id) (fun _ _ => id) fun _ _ h => ⟨h.1.1, h.2⟩).bind
    fun _ => ?_
  exact rename_triple hallowed hstable hinv hrename

end Files

/-- A new contract is at a new address, with the shape and the admin of its deployment. -/
theorem create_triple {d : Deployment} (hallowed : allowed (.create d))
    (hstable : (setting p account c).Stable P) (hinv : ∀ s, P s → inv s)
    (hdeploy : ∀ s a inst, P s → s.system.world.contracts a = none →
      inst.listing? = some d.listing → P (s.deploy a inst)) :
    (setting p account c).Triple inv allowed P (create d)
      (fun id s => P s ∧
        match id with
        | some a => a ∈ s.created ∧ s.listing a = some d.listing
        | none => c.mishaps)
      fun _ s => P s ∧ (c.mishaps ∨ ∃ wasm, d.construct wasm = none) := by
  have hcreates : ∀ s r s', P s → Performs p account s (.create d) r s' → P s' ∧
      (∀ id, r = .ok id → ∃ a, id = some a ∧ a ∈ s'.created ∧ s'.listing a = some d.listing) ∧
      ∀ e, r = .error e → ∃ wasm, d.construct wasm = none := by
    intro s r s' hP hdone
    obtain ⟨wasm, hdone⟩ := hdone
    cases hconstruct : d.construct wasm with
    | none =>
        rw [hconstruct] at hdone
        obtain ⟨rfl, e, rfl⟩ := hdone
        exact ⟨hP, (fun _ hok => by cases hok), fun _ _ => ⟨wasm, hconstruct⟩⟩
    | some inst =>
        rw [hconstruct] at hdone
        obtain ⟨a, hfresh, rfl, rfl⟩ := hdone
        have hlisting := (Deployment.deployed_of_construct hconstruct).2
        refine ⟨hdeploy s a inst hP hfresh hlisting, ?_, fun _ herr => by cases herr⟩
        rintro _ ⟨rfl⟩
        refine ⟨a, rfl, by simp [Site.deploy], ?_⟩
        simp [Site.listing, World.listing, Site.deploy, hlisting]
  refine .perform hstable hallowed fun s r s' hP hacts => ?_
  obtain hdone | ⟨hmishaps, hwrong⟩ := hacts
  · obtain ⟨hP', hid, herr⟩ := hcreates s r s' hP hdone
    refine ⟨hinv s' hP', fun id hr => ?_, fun e hr => ⟨hP', .inr (herr e hr)⟩⟩
    obtain ⟨a, rfl, hcreated⟩ := hid id hr
    exact ⟨hP', hcreated⟩
  · cases hwrong with
    | failed _ e _ =>
        exact ⟨hinv s hP, (fun _ hok => by cases hok), fun _ _ => ⟨hP, .inl hmishaps⟩⟩
    | lost _ e _ r₀ _ hdone =>
        have hP' := (hcreates s r₀ s' hP hdone).1
        exact ⟨hinv s' hP', (fun _ hok => by cases hok), fun _ _ => ⟨hP', .inl hmishaps⟩⟩
    | noId _ a _ hdone =>
        have hP' := (hcreates s _ s' hP hdone).1
        refine ⟨hinv s' hP', ?_, fun _ herr => by cases herr⟩
        rintro _ ⟨rfl⟩
        exact ⟨hP', hmishaps⟩

/-- A query comes back with the value that the chain answers. -/
theorem query_triple {target : Address} {call : Call} {answer : Site → Val}
    (hallowed : allowed (.query target call)) (hstable : (setting p account c).Stable P)
    (hinv : ∀ s, P s → inv s)
    (hreply : ∀ s tx, P s → s.reply p tx target call = .ok (answer s)) :
    (setting p account c).Triple inv allowed P (query target call)
      (fun v s => P s ∧ v = answer s) fun _ s => P s ∧ c.mishaps := by
  refine plain_triple rfl hallowed hstable (fun _ => id) hinv ?_ ?_
  · rintro s r s' hP ⟨rfl, tx, -, hr⟩
    rw [hreply s' tx hP] at hr
    subst hr
    refine ⟨hP, ?_, nofun⟩
    rintro _ ⟨rfl⟩
    exact ⟨hP, rfl⟩
  · exact fun hmishaps e s _ hP => ⟨hP, hmishaps⟩

/-- A transaction: `Q` holds whether it was sent or not, and `done` where it succeeded.
Where nothing goes wrong, the chain does not refuse it. -/
theorem execute_triple {target : Address} {call : Call} (Q done : Site → Prop)
    (hallowed : allowed (.execute target call)) (hstable : (setting p account c).Stable P)
    (hPQ : ∀ s, P s → Q s) (hinv : ∀ s, Q s → inv s)
    (htransact : ∀ s tx, P s → Signs account tx target call →
      Q (s.transact p tx target call) ∧
        match s.reply p tx target call with
        | .ok _ => done (s.transact p tx target call)
        | .error _ => c.mishaps) :
    (setting p account c).Triple inv allowed P (execute target call)
      (fun hash s => (Q s ∧ done s) ∧ (hash = none → c.mishaps)) fun _ s => Q s ∧ c.mishaps := by
  have hsends : ∀ s r s', P s → Performs p account s (.execute target call) r s' → Q s' ∧
      (∀ hash, r = .ok hash → done s' ∧ hash ≠ none) ∧ ∀ e, r = .error e → c.mishaps := by
    rintro s r s' hP ⟨tx, hsigns, -, rfl, hr⟩
    obtain ⟨hQ, hdone⟩ := htransact s tx hP hsigns
    cases hreply : s.reply p tx target call with
    | ok v =>
        rw [hreply] at hr hdone
        obtain ⟨hash, rfl⟩ := hr
        refine ⟨hQ, ?_, nofun⟩
        rintro _ ⟨rfl⟩
        exact ⟨hdone, nofun⟩
    | error e =>
        rw [hreply] at hr hdone
        obtain ⟨e', rfl⟩ := hr
        exact ⟨hQ, nofun, fun _ _ => hdone⟩
  refine .perform hstable hallowed fun s r s' hP hacts => ?_
  obtain hperforms | ⟨hmishaps, hwrong⟩ := hacts
  · obtain ⟨hQ, hdone, herr⟩ := hsends s r s' hP hperforms
    refine ⟨hinv s' hQ, fun hash hr => ?_, fun e hr => ⟨hQ, herr e hr⟩⟩
    obtain ⟨hdone, hhash⟩ := hdone hash hr
    exact ⟨⟨hQ, hdone⟩, fun hnone => absurd hnone hhash⟩
  · cases hwrong with
    | failed _ e _ => exact ⟨hinv s (hPQ s hP), nofun, fun _ _ => ⟨hPQ s hP, hmishaps⟩⟩
    | lost _ e _ r₀ _ hperforms =>
        have hQ := (hsends s r₀ s' hP hperforms).1
        exact ⟨hinv s' hQ, nofun, fun _ _ => ⟨hQ, hmishaps⟩⟩
    | noHash _ _ hash _ hperforms =>
        obtain ⟨hQ, hdone, -⟩ := hsends s _ s' hP hperforms
        exact ⟨hinv s' hQ, fun _ _ => ⟨⟨hQ, (hdone _ rfl).1⟩, fun _ => hmishaps⟩, nofun⟩

end Rules

end WarpDrive.Deployer
