import WarpDrive.Deployer.Signers
import WarpDrive.Deployer.Site
import WarpDrive.Guarantees.Repeats

/-!
# A signer command takes effect once

A signer command is one transaction, sent again while its error may pass.  Each time it
may have taken effect although its answer was an error.  Yet it is as if it had been
executed once: `Working` lists the executions so far, which are all of the call that was
asked for, and `Security.Repeats.once` says that only the first of them shows.

The direct path and the path through ProjectRoot differ in what one transaction does
(`invoke_route`), and in nothing else.  Around the Security contract everything that the
deployer created stays as it is; a ProjectRoot logs what it forwards, and its owner may
accept it meanwhile (`KeepsProject`).
-/

namespace WarpDrive.Deployer

open Interaction
open ProjectRoot (forwarder)

/-! ## One command -/

/-- A signer command with its arguments. -/
inductive SignerCommand where
  | addSigner (keyHex : String) (weight : UInt64)
  | removeSigner (keyHex : String)
  | setThreshold (numerator denominator : UInt64)

namespace SignerCommand

def run (m : StellarDeployManifest) (scheme : Scheme) (viaProjectRoot : Bool) (cfg : RetryConfig) :
    SignerCommand → Command String
  | addSigner keyHex weight => Deployer.addSigner m scheme keyHex weight viaProjectRoot cfg
  | removeSigner keyHex => Deployer.removeSigner m scheme keyHex viaProjectRoot cfg
  | setThreshold numerator denominator =>
      Deployer.setThreshold m scheme numerator denominator viaProjectRoot cfg

/-- The operation on the registry that the command asks for. -/
def call (scheme : Scheme) : SignerCommand → Except DeployerError Call
  | addSigner keyHex weight => (parseKey scheme keyHex).map (.addSigner ·.toArray weight)
  | removeSigner keyHex => (parseKey scheme keyHex).map (.removeSigner ·.toArray)
  | setThreshold numerator denominator => .ok (.setThreshold numerator denominator)

end SignerCommand

/-- The call that carries the operation to its target. -/
def route (scheme : Scheme) (viaProjectRoot : Bool) (c : Call) : Call :=
  if viaProjectRoot then forwarder scheme.variant.scheme c else c

/-- Send a call until it is confirmed. -/
def submit (cfg : RetryConfig) (target : Address) (c : Call) : Command String := do
  let resp ← retry cfg (execute target c)
  txHash resp

section Command

variable {m : StellarDeployManifest} {scheme : Scheme} {viaProjectRoot : Bool} {cfg : RetryConfig}
  {target : Address} {command : SignerCommand} {c : Call}

theorem SecurityClient.addSigner_new (key : BytesN scheme.keyLen) (weight : UInt64) :
    (SecurityClient.new target scheme viaProjectRoot).addSigner key weight =
      execute target (route scheme viaProjectRoot (.addSigner key.toArray weight)) := by
  cases viaProjectRoot <;> cases scheme <;> rfl

theorem SecurityClient.removeSigner_new (key : BytesN scheme.keyLen) :
    (SecurityClient.new target scheme viaProjectRoot).removeSigner key =
      execute target (route scheme viaProjectRoot (.removeSigner key.toArray)) := by
  cases viaProjectRoot <;> cases scheme <;> rfl

theorem SecurityClient.setThreshold_new (numerator denominator : UInt64) :
    (SecurityClient.new target scheme viaProjectRoot).setThreshold numerator denominator =
      execute target (route scheme viaProjectRoot (.setThreshold numerator denominator)) := by
  cases viaProjectRoot <;> cases scheme <;> rfl

/-- The three commands resolve the target, read the key and submit the operation. -/
theorem SignerCommand.run_eq : command.run m scheme viaProjectRoot cfg = (do
    let target ← propagate (signerTarget m scheme viaProjectRoot)
    let c ← propagate (command.call scheme)
    submit cfg target (route scheme viaProjectRoot c)) := by
  cases command with
  | addSigner keyHex weight =>
      simp only [run, Deployer.addSigner, SecurityClient.addSigner_new, call, submit]
      cases parseKey scheme keyHex <;> rfl
  | removeSigner keyHex =>
      simp only [run, Deployer.removeSigner, SecurityClient.removeSigner_new, call, submit]
      cases parseKey scheme keyHex <;> rfl
  | setThreshold numerator denominator =>
      simp only [run, Deployer.setThreshold, SecurityClient.setThreshold_new, call, submit]
      rfl

theorem SignerCommand.isRegistry_of_call (h : command.call scheme = .ok c) :
    c.isRegistry = true := by
  cases command with
  | addSigner keyHex weight =>
      simp only [call] at h
      cases hkey : parseKey scheme keyHex <;> rw [hkey] at h <;> cases h
      rfl
  | removeSigner keyHex =>
      simp only [call] at h
      cases hkey : parseKey scheme keyHex <;> rw [hkey] at h <;> cases h
      rfl
  | setThreshold numerator denominator =>
      cases h
      rfl

end Command

/-! ## What a project keeps -/

/-- A project keeps its code, its links and its handlers.  Its log grows, and its office
changes hands only where owners accept, to the candidate. -/
structure KeepsProject (owners : Prop) (q q' : ProjectRoot.Storage) : Prop where
  security : q'.securityContract = q.securityContract
  verification : q'.verificationContract = q.verificationContract
  specRepo : q'.projectSpecRepo = q.projectSpecRepo
  type : q'.verificationType = q.verificationType
  handlers : q'.handlers = q.handlers
  wasm : q'.base.wasm = q.base.wasm
  version : q'.base.version = q.base.version
  events : q.base.events <+: q'.base.events
  office : (q'.base.admin = q.base.admin ∧ q'.base.pndAdmin = q.base.pndAdmin) ∨
    owners ∧ q.base.pndAdmin = some q'.base.admin ∧ q'.base.pndAdmin = none

namespace KeepsProject

variable {owners owners' : Prop} {q q' q'' : ProjectRoot.Storage}

theorem refl (owners : Prop) (q : ProjectRoot.Storage) : KeepsProject owners q q :=
  ⟨rfl, rfl, rfl, rfl, rfl, rfl, rfl, List.prefix_rfl, .inl ⟨rfl, rfl⟩⟩

theorem mono (h : KeepsProject owners q q') (himp : owners → owners') :
    KeepsProject owners' q q' :=
  { h with office := h.office.imp_right fun ⟨howners, hoffice⟩ => ⟨himp howners, hoffice⟩ }

/-- A candidate accepts once; then nobody is left to accept. -/
theorem trans (h : KeepsProject owners q q') (h' : KeepsProject owners q' q'') :
    KeepsProject owners q q'' where
  security := h'.security.trans h.security
  verification := h'.verification.trans h.verification
  specRepo := h'.specRepo.trans h.specRepo
  type := h'.type.trans h.type
  handlers := h'.handlers.trans h.handlers
  wasm := h'.wasm.trans h.wasm
  version := h'.version.trans h.version
  events := h.events.trans h'.events
  office := by
    rcases h'.office with ⟨hadmin, hcandidate⟩ | ⟨howners, hcandidate, hnone⟩
    · rw [hadmin, hcandidate]
      exact h.office
    · rcases h.office with ⟨-, hbefore⟩ | ⟨-, -, hbefore⟩
      · exact .inr ⟨howners, hbefore ▸ hcandidate, hnone⟩
      · rw [hbefore] at hcandidate
        cases hcandidate

/-- What a forwarder leaves in the project is a line of its log. -/
theorem forwarded (q : ProjectRoot.Storage) (target : Address) (function : String) :
    KeepsProject False q (q.forwarded target function) :=
  { refl False q with events := List.prefix_append _ _ }

/-- The acceptance of the office. -/
theorem accepted {env : Env} {r : Val × Base}
    (h : Base.answer env .acceptAdmin q.base = some r) :
    KeepsProject True q { q with base := r.2 } := by
  simp only [Base.answer] at h
  cases hcandidate : q.base.pndAdmin with
  | none =>
      rw [hcandidate] at h
      cases h
  | some candidate =>
      rw [hcandidate] at h
      dsimp only at h
      split at h
      · cases h
        exact { refl True q with
          events := List.prefix_append _ _
          office := .inr ⟨trivial, hcandidate, rfl⟩ }
      · cases h

end KeepsProject

/-! ## One transaction -/

/-- The operations reach the Security contract directly, or through the ProjectRoot that
registers it. -/
inductive Routes (w : World) : Bool → Address → Address → Prop
  | direct (security : Address) : Routes w false security security
  | forwarded (root : Address) (q : ProjectRoot.Storage)
      (hroot : w.contracts root = some (.projectRoot q)) : Routes w true root q.securityContract

section Transaction

variable {p : Platform} {tx : Transaction} {w : World} {scheme : Scheme} {viaProjectRoot : Bool}
  {target security root : Address} {t : VerificationType} {st : Security.Storage t} {c : Call}
  {q : ProjectRoot.Storage}

/-- What is neither the Security contract nor a ProjectRoot stays as it is. -/
def Aside (security : Address) (w w' : World) : Prop :=
  ∀ a, a ≠ security → (∀ q, w.contracts a ≠ some (.projectRoot q)) →
    w'.contracts a = w.contracts a

/-- Every project of `w` is kept. -/
def KeepsProjects (owners : Prop) (w w' : World) : Prop :=
  ∀ a q, w.contracts a = some (.projectRoot q) →
    ∃ q', w'.contracts a = some (.projectRoot q') ∧ KeepsProject owners q q'

/-- A transaction that succeeded executed `c` on the Security contract. -/
structure Executed (p : Platform) (tx : Transaction) (security : Address) (c : Call)
    (st st' : Security.Storage t) (w w' : World) : Prop where
  executes : ∃ env, env.ledger = tx.ledger ∧ Security.Executes st ⟨env, c⟩ st'
  stored : w'.contracts security = some (.security t st')
  aside : Aside security w w'
  projects : KeepsProjects False w w'

theorem keepsProjects_refl (owners : Prop) (w : World) : KeepsProjects owners w w :=
  fun _ q hq => ⟨q, hq, .refl owners q⟩

/-- A commit at what is no ProjectRoot. -/
theorem keepsProjects_commit {inst : Instance} {inv : Invocation}
    (hsec : w.contracts security = some (.security t st)) :
    KeepsProjects False w (w.commit security inst inv) := by
  intro a q hq
  have hne : a ≠ security := World.ne_of_contracts hq hsec nofun
  exact ⟨q, (World.commit_contracts_of_ne hne).trans hq, .refl False q⟩

theorem executed_commit {env : Env} {st' : Security.Storage t} (hledger : env.ledger = tx.ledger)
    (hsec : w.contracts security = some (.security t st))
    (hexecutes : Security.Executes st ⟨env, c⟩ st') :
    Executed p tx security c st st' w (w.commit security (.security t st') ⟨env, c⟩) where
  executes := ⟨env, hledger, hexecutes⟩
  stored := World.commit_contracts_self ..
  aside _ hne _ := World.commit_contracts_of_ne hne
  projects := keepsProjects_commit hsec

/-- The answer that ProjectRoot gets from the Security contract. -/
theorem invoke_below {depth : ℕ} {stack : List Address} (hstack : security ∉ stack)
    (hsec : w.contracts security = some (.security t st)) :
    (∃ e, invoke p tx (depth + 1) stack security c w = (.error e, w)) ∨
      ∃ v st', invoke p tx (depth + 1) stack security c w =
          (.ok v, w.commit security (.security t st') ⟨tx.env stack security c, c⟩) ∧
        Security.Executes st ⟨tx.env stack security c, c⟩ st' := by
  rw [invoke_security c hstack hsec]
  cases hrun : entryPoint (Security.call (tx.env stack security c) c) st with
  | error e => exact .inl ⟨e, rfl⟩
  | ok r => exact .inr ⟨r.1, r.2, rfl, r.1, entryPoint_eq_ok.mp hrun⟩

/-- A removal has no typed error that ProjectRoot could unwrap. -/
theorem untyped_below {depth : ℕ} {stack : List Address} {key : Bytes}
    (hstack : security ∉ stack) (hsec : w.contracts security = some (.security t st)) (code : ℕ) :
    (invoke p tx (depth + 1) stack security (.removeSigner key) w).1 ≠
      .error (.contract code) := by
  intro htyped
  rw [invoke_security _ hstack hsec] at htyped
  cases hrun : entryPoint (Security.call (tx.env stack security (.removeSigner key))
      (.removeSigner key)) st with
  | ok r =>
      rw [hrun] at htyped
      cases htyped
  | error e =>
      rw [hrun] at htyped
      cases htyped
      exact (Security.typed_of_entryPoint rfl hrun).2 key rfl

/-- The forwarder reports what the Security contract answered, so it succeeds only if
that executed the operation. -/
theorem entryPoint_forwarder_cases {ω : Type} {host : Host ω} {env : Env} {t' : VerificationType}
    {world : ω} {v : Val} {frame : Frame ProjectRoot.Storage ω} (hregistry : c.isRegistry = true)
    (huntyped : ∀ key, c = .removeSigner key → ∀ code,
      (host.invoke q.securityContract c world).1 ≠ .error (.contract code))
    (h : entryPoint (ProjectRoot.call host env (forwarder t' c)) ⟨q, world⟩ = .ok (v, frame)) :
    (∃ v', (host.invoke q.securityContract c world).1 = .ok v') ∧
      frame = ⟨q.forwarded q.securityContract (ProjectRoot.functionName c),
        (host.invoke q.securityContract c world).2⟩ := by
  have hauth : env.authorized q.base.admin = true :=
    ProjectRoot.Gated.forwarder t' hregistry _ _ _ (entryPoint_eq_ok.mp h)
  by_cases hfits : ProjectRoot.KeyFits t' c
  · rw [ProjectRoot.entryPoint_forwarder hregistry hfits hauth huntyped] at h
    cases hreply : (host.invoke q.securityContract c world).1 with
    | error e =>
        rw [hreply] at h
        cases h
    | ok v' =>
        rw [hreply] at h
        cases h
        exact ⟨⟨v', rfl⟩, rfl⟩
  · rw [ProjectRoot.entryPoint_forwarder_of_not_keyFits hregistry hfits] at h
    cases h

theorem invoke_forwarded (hregistry : c.isRegistry = true)
    (hroot : w.contracts root = some (.projectRoot q))
    (hsec : w.contracts q.securityContract = some (.security t st)) (t' : VerificationType) :
    (∃ e, invoke p tx depthLimit [] root (forwarder t' c) w = (.error e, w)) ∨
      ∃ v st' w', invoke p tx depthLimit [] root (forwarder t' c) w = (.ok v, w') ∧
        Executed p tx q.securityContract c st st' w w' ∧
        ∃ q', w'.contracts root = some (.projectRoot q') ∧
          q'.securityContract = q.securityContract := by
  have hne : q.securityContract ≠ root := World.ne_of_contracts hsec hroot nofun
  have hstack : q.securityContract ∉ [root] := by simpa using hne
  have hinvoke : invoke p tx depthLimit [] root (forwarder t' c) w = _ :=
    invoke_succ List.not_mem_nil hroot
  rw [dispatch] at hinvoke
  rcases hrun : entryPoint (ProjectRoot.call (hostBelow p tx 99 [root])
      (tx.env [] root (forwarder t' c)) (forwarder t' c)) ⟨q, w⟩ with e | ⟨v, frame⟩
  · left
    rw [hrun] at hinvoke
    exact ⟨e, hinvoke⟩
  · right
    rw [hrun] at hinvoke
    obtain ⟨⟨v', hreply⟩, rfl⟩ := entryPoint_forwarder_cases hregistry
      (fun key hkey code => by rw [hkey]; exact untyped_below hstack hsec code) hrun
    obtain ⟨e, hbelow⟩ | ⟨_, st', hbelow, hexecutes⟩ := invoke_below (c := c) hstack hsec
    · have hreply' : (invoke p tx 99 [root] q.securityContract c w).1 = .ok v' := hreply
      rw [hbelow] at hreply'
      cases hreply'
    · have hworld : ((hostBelow p tx 99 [root]).invoke q.securityContract c w).2 = _ :=
        congrArg Prod.snd hbelow
      rw [hworld] at hinvoke
      refine ⟨v, st', _, hinvoke, ⟨⟨_, rfl, hexecutes⟩, ?_, ?_, ?_⟩, _,
        World.commit_contracts_self .., rfl⟩
      · rw [World.commit_contracts_of_ne hne]
        exact World.commit_contracts_self ..
      · intro a ha hnot
        have haroot : a ≠ root := by
          rintro rfl
          exact hnot q hroot
        rw [World.commit_contracts_of_ne haroot]
        exact World.commit_contracts_of_ne ha
      · intro a q₁ hq₁
        by_cases ha : a = root
        · -- the ProjectRoot that forwards
          subst ha
          obtain rfl : q₁ = q := by
            rw [hq₁] at hroot
            cases hroot
            rfl
          exact ⟨_, World.commit_contracts_self .., .forwarded _ _ _⟩
        · rw [World.commit_contracts_of_ne ha]
          exact keepsProjects_commit hsec a q₁ hq₁

/-- What a transaction of a signer command does: nothing, or one execution of the
operation. -/
theorem invoke_route (hregistry : c.isRegistry = true)
    (hroute : Routes w viaProjectRoot target security)
    (hsec : w.contracts security = some (.security t st)) :
    (∃ e, invoke p tx depthLimit [] target (route scheme viaProjectRoot c) w = (.error e, w)) ∨
      ∃ v st' w', invoke p tx depthLimit [] target (route scheme viaProjectRoot c) w = (.ok v, w') ∧
        Executed p tx security c st st' w w' ∧ Routes w' viaProjectRoot target security := by
  cases hroute with
  | direct =>
      obtain hfailed | ⟨v, st', hinvoke, hexecutes⟩ :=
        @invoke_below p tx w target t st c 99 [] List.not_mem_nil hsec
      · exact .inl hfailed
      · exact .inr ⟨v, st', _, hinvoke, executed_commit rfl hsec hexecutes, .direct _⟩
  | forwarded _ q hroot =>
      obtain hfailed | ⟨v, st', w', hinvoke, hexecuted, q', hroot', hsame⟩ :=
        @invoke_forwarded p tx w target t st c q hregistry hroot hsec scheme.variant.scheme
      · exact .inl hfailed
      · exact .inr ⟨v, st', w', hinvoke, hexecuted, hsame ▸ .forwarded target q' hroot'⟩

end Transaction

/-! ## What can happen meanwhile -/

section Steps

variable {p : Platform} {account : Address} {circumstances : Circumstances} {s s' : Site}
  {target : Address} {c : Call}

/-- A transaction was not sent, or it was, whatever came back. -/
theorem acts_execute {r : Except DeployerError (Option String)}
    (h : (setting p account circumstances).acts s (.execute target c) r s') :
    (s' = s ∧ ∃ e, r = .error e) ∨ ∃ tx : Transaction, s.system.ledger ≤ tx.ledger ∧
      s' = s.transact p tx target c ∧
        ((∃ hash, r = .ok hash) → ∃ v, s.reply p tx target c = .ok v) := by
  have hsent : ∀ r s', Performs p account s (.execute target c) r s' →
      ∃ tx : Transaction, s.system.ledger ≤ tx.ledger ∧ s' = s.transact p tx target c ∧
        ((∃ hash, r = .ok hash) → ∃ v, s.reply p tx target c = .ok v) := by
    rintro r s' ⟨tx, -, hledger, rfl, hr⟩
    refine ⟨tx, hledger, rfl, ?_⟩
    rintro ⟨hash, rfl⟩
    cases hreply : s.reply p tx target c with
    | ok v => exact ⟨v, rfl⟩
    | error e =>
        rw [hreply] at hr
        obtain ⟨e', he'⟩ := hr
        cases he'
  obtain hperforms | ⟨-, hwrong⟩ := h
  · exact .inr (hsent r s' hperforms)
  · cases hwrong with
    | failed _ e _ => exact .inl ⟨rfl, e, rfl⟩
    | lost _ e _ r₀ _ hperforms =>
        obtain ⟨tx, hledger, hs', -⟩ := hsent r₀ s' hperforms
        exact .inr ⟨tx, hledger, hs', fun ⟨hash, hok⟩ => by cases hok⟩
    | noHash _ _ hash _ hperforms =>
        obtain ⟨tx, hledger, hs', hreply⟩ := hsent _ s' hperforms
        exact .inr ⟨tx, hledger, hs', fun _ => hreply ⟨_, rfl⟩⟩

/-- An acceptance touches one ProjectRoot, and not what that registers. -/
theorem Accepts.contracts (h : Accepts p s s') :
    s.system.ledger ≤ s'.system.ledger ∧ s'.manifest = s.manifest ∧ s'.scratch = s.scratch ∧
      s'.created = s.created ∧ ∃ root q q',
        s.system.world.contracts root = some (.projectRoot q) ∧
          s'.system.world.contracts root = some (.projectRoot q') ∧
            KeepsProject True q q' ∧
              ∀ a, a ≠ root → s'.system.world.contracts a = s.system.world.contracts a := by
  obtain ⟨owner, root, sec, ver, o, tx, hroot, -, hledger⟩ := h
  obtain ⟨inst, b, hinst, hbase, hshape⟩ := World.listing_eq_some.mp hroot
  obtain ⟨q, rfl⟩ : ∃ q, inst = .projectRoot q := by
    cases inst with
    | projectRoot q => exact ⟨q, rfl⟩
    | _ => cases hshape
  refine ⟨hledger, rfl, rfl, rfl, root, q, ?_⟩
  have hinvoke : invoke p tx depthLimit [] root .acceptAdmin s.system.world = _ :=
    invoke_shared List.not_mem_nil hinst hbase rfl
  rw [Site.transact, hinvoke]
  obtain rfl : q.base = b := Option.some.inj hbase
  cases hanswer : Base.answer (tx.env [] root .acceptAdmin) .acceptAdmin q.base with
  | none => exact ⟨q, hinst, hinst, .refl True q, fun _ _ => rfl⟩
  | some r =>
      exact ⟨{ q with base := r.2 }, hinst, World.commit_contracts_self .., .accepted hanswer,
        fun a ha => World.commit_contracts_of_ne ha⟩

end Steps

/-! ## The run -/

/-- The site since `s₀`, when the executions `J` have taken place. -/
structure Working (owners : Prop) (s₀ : Site) (viaProjectRoot : Bool) (target security : Address)
    {t : VerificationType} (st₀ : Security.Storage t) (c : Call) (J : List Invocation)
    (s : Site) : Prop where
  manifest : s.manifest = s₀.manifest
  scratch : s.scratch = s₀.scratch
  created : s.created = s₀.created
  ledger : s₀.system.ledger ≤ s.system.ledger
  routes : Routes s.system.world viaProjectRoot target security
  registry : ∃ st, s.system.world.contracts security = some (.security t st) ∧
    Security.Repeats c s₀.system.ledger s.system.ledger st₀ J st
  aside : ∀ a ∈ s₀.created, a ≠ security →
    (∀ q, s₀.system.world.contracts a ≠ some (.projectRoot q)) →
      s.system.world.contracts a = s₀.system.world.contracts a
  projects : ∀ a ∈ s₀.created, ∀ q, s₀.system.world.contracts a = some (.projectRoot q) →
    ∃ q', s.system.world.contracts a = some (.projectRoot q') ∧ KeepsProject owners q q'

section Run

variable {p : Platform} {account : Address} {circumstances : Circumstances} {s₀ s s' : Site}
  {scheme : Scheme} {viaProjectRoot : Bool} {target security : Address} {t : VerificationType}
  {st₀ : Security.Storage t} {c : Call} {J : List Invocation} {owners : Prop}

theorem Working.start (hroute : Routes s₀.system.world viaProjectRoot target security)
    (hsec : s₀.system.world.contracts security = some (.security t st₀)) :
    Working owners s₀ viaProjectRoot target security st₀ c [] s₀ :=
  ⟨rfl, rfl, rfl, le_rfl, hroute, ⟨st₀, hsec, .nil c _ _ st₀⟩, fun _ _ _ _ => rfl,
    fun a _ => keepsProjects_refl owners _ a⟩

/-- What others do who do not touch the contracts of the deployer. -/
theorem Working.elsewhere (h : Working owners s₀ viaProjectRoot target security st₀ c J s)
    (htarget : target ∈ s₀.created) (hsecurity : security ∈ s₀.created)
    (helse : Elsewhere s s') : Working owners s₀ viaProjectRoot target security st₀ c J s' := by
  have hkept : ∀ a ∈ s₀.created, s'.system.world.contracts a = s.system.world.contracts a :=
    fun a ha => helse.contracts a (h.created ▸ ha)
  obtain ⟨st, hst, hrepeats⟩ := h.registry
  refine ⟨helse.manifest.trans h.manifest, helse.scratch.trans h.scratch,
    helse.created.trans h.created, h.ledger.trans helse.ledger, ?_,
    ⟨st, (hkept _ hsecurity).trans hst, hrepeats.mono helse.ledger⟩,
    fun a ha hne hnot => (hkept a ha).trans (h.aside a ha hne hnot), fun a ha q hq => ?_⟩
  · cases h.routes with
    | direct => exact .direct _
    | forwarded _ q hroot => exact .forwarded target q ((hkept _ htarget).trans hroot)
  · obtain ⟨q', hq', hkeeps⟩ := h.projects a ha q hq
    exact ⟨q', (hkept a ha).trans hq', hkeeps⟩

theorem Working.accepts (h : Working owners s₀ viaProjectRoot target security st₀ c J s)
    (howners : owners) (haccepts : Accepts p s s') :
    Working owners s₀ viaProjectRoot target security st₀ c J s' := by
  obtain ⟨hledger, hmanifest, hscratch, hcreated, root, q, q', hroot, hroot', hsame, hkept⟩ :=
    haccepts.contracts
  obtain ⟨st, hst, hrepeats⟩ := h.registry
  have hsecurity : security ≠ root := World.ne_of_contracts hst hroot nofun
  refine ⟨hmanifest.trans h.manifest, hscratch.trans h.scratch, hcreated.trans h.created,
    h.ledger.trans hledger, ?_, ⟨st, (hkept _ hsecurity).trans hst, hrepeats.mono hledger⟩,
    fun a ha hne hnot => ?_, fun a ha q₀ hq₀ => ?_⟩
  · cases h.routes with
    | direct => exact .direct _
    | forwarded _ q₁ hq₁ =>
        by_cases htarget : target = root
        · -- the owner became the admin of the ProjectRoot that forwards
          subst htarget
          obtain rfl : q₁ = q := by
            rw [hq₁] at hroot
            cases hroot
            rfl
          exact hsame.security ▸ .forwarded target q' hroot'
        · exact .forwarded target q₁ ((hkept _ htarget).trans hq₁)
  · have hsite := h.aside a ha hne hnot
    have haroot : a ≠ root := by
      rintro rfl
      exact hnot q (hsite ▸ hroot)
    exact (hkept a haroot).trans hsite
  · obtain ⟨q₁, hq₁, hkeeps⟩ := h.projects a ha q₀ hq₀
    by_cases haroot : a = root
    · subst haroot
      obtain rfl : q₁ = q := by
        rw [hq₁] at hroot
        cases hroot
        rfl
      exact ⟨q', hroot', hkeeps.trans (hsame.mono fun _ => howners)⟩
    · exact ⟨q₁, (hkept a haroot).trans hq₁, hkeeps⟩

/-- A transaction of the command: nothing happened, or there was one more execution. -/
theorem Working.transact (h : Working owners s₀ viaProjectRoot target security st₀ c J s)
    (hregistry : c.isRegistry = true) {tx : Transaction} (hledger : s.system.ledger ≤ tx.ledger) :
    (Working owners s₀ viaProjectRoot target security st₀ c J
        (s.transact p tx target (route scheme viaProjectRoot c)) ∧
      ∃ e, s.reply p tx target (route scheme viaProjectRoot c) = .error e) ∨
    ∃ inv, Working owners s₀ viaProjectRoot target security st₀ c (J ++ [inv])
      (s.transact p tx target (route scheme viaProjectRoot c)) := by
  obtain ⟨st, hst, hrepeats⟩ := h.registry
  obtain ⟨e, hfailed⟩ | ⟨v, st', w', hinvoke, hexecuted, hroutes⟩ :=
    @invoke_route p tx _ scheme viaProjectRoot target security t st c hregistry h.routes hst
  · left
    unfold Site.transact Site.reply
    rw [hfailed]
    exact ⟨⟨h.manifest, h.scratch, h.created, h.ledger.trans hledger, h.routes,
      ⟨st, hst, hrepeats.mono hledger⟩, h.aside, h.projects⟩, e, rfl⟩
  · right
    obtain ⟨env, henv, hexecutes⟩ := hexecuted.executes
    refine ⟨⟨env, c⟩, ?_⟩
    unfold Site.transact
    rw [hinvoke]
    refine ⟨h.manifest, h.scratch, h.created, h.ledger.trans hledger, hroutes,
      ⟨st', hexecuted.stored, ?_⟩, fun a ha hne hnot => ?_, fun a ha q hq => ?_⟩
    · rw [← henv]
      exact hrepeats.snoc rfl (h.ledger.trans (hledger.trans henv.ge)) (hledger.trans henv.ge)
        hexecutes
    · have hsite := h.aside a ha hne hnot
      exact (hexecuted.aside a hne (fun q => hsite ▸ hnot q)).trans hsite
    · obtain ⟨q₁, hq₁, hkeeps⟩ := h.projects a ha q hq
      obtain ⟨q₂, hq₂, hforwarded⟩ := hexecuted.projects a q₁ hq₁
      exact ⟨q₂, hq₂, hkeeps.trans (hforwarded.mono False.elim)⟩

/-- Some executions have taken place. -/
def Worked (owners : Prop) (s₀ : Site) (viaProjectRoot : Bool) (target security : Address)
    (st₀ : Security.Storage t) (c : Call) (s : Site) : Prop :=
  ∃ J, Working owners s₀ viaProjectRoot target security st₀ c J s

/-- There has been one execution at least. -/
def Confirmed (owners : Prop) (s₀ : Site) (viaProjectRoot : Bool) (target security : Address)
    (st₀ : Security.Storage t) (c : Call) (s : Site) : Prop :=
  ∃ J, J ≠ [] ∧ Working owners s₀ viaProjectRoot target security st₀ c J s

theorem Working.others
    (h : Working circumstances.owners s₀ viaProjectRoot target security st₀ c J s)
    (htarget : target ∈ s₀.created) (hsecurity : security ∈ s₀.created)
    (hothers : (setting p account circumstances).others s s') :
    Working circumstances.owners s₀ viaProjectRoot target security st₀ c J s' := by
  obtain helse | ⟨howners, haccepts⟩ := hothers
  · exact h.elsewhere htarget hsecurity helse
  · exact h.accepts howners haccepts

theorem stable_worked (htarget : target ∈ s₀.created) (hsecurity : security ∈ s₀.created) :
    (setting p account circumstances).Stable
      (Worked circumstances.owners s₀ viaProjectRoot target security st₀ c) := by
  rintro s s' hothers ⟨J, hworking⟩
  exact ⟨J, hworking.others htarget hsecurity hothers⟩

theorem stable_confirmed (htarget : target ∈ s₀.created) (hsecurity : security ∈ s₀.created) :
    (setting p account circumstances).Stable
      (Confirmed circumstances.owners s₀ viaProjectRoot target security st₀ c) := by
  rintro s s' hothers ⟨J, hne, hworking⟩
  exact ⟨J, hne, hworking.others htarget hsecurity hothers⟩

/-- One attempt. -/
theorem execute_working (hregistry : c.isRegistry = true) (htarget : target ∈ s₀.created)
    (hsecurity : security ∈ s₀.created) :
    (setting p account circumstances).Triple
      (Worked circumstances.owners s₀ viaProjectRoot target security st₀ c)
      (· = .execute target (route scheme viaProjectRoot c))
      (Worked circumstances.owners s₀ viaProjectRoot target security st₀ c)
      (execute target (route scheme viaProjectRoot c))
      (fun _ => Confirmed circumstances.owners s₀ viaProjectRoot target security st₀ c)
      fun _ s => Worked circumstances.owners s₀ viaProjectRoot target security st₀ c s ∧ True := by
  refine .perform (stable_worked htarget hsecurity) rfl fun s r s' hs hacts => ?_
  obtain ⟨J, hworking⟩ := hs
  obtain ⟨rfl, e, rfl⟩ | ⟨tx, hledger, rfl, hreply⟩ := acts_execute hacts
  · exact ⟨⟨J, hworking⟩, nofun, fun _ _ => ⟨⟨J, hworking⟩, trivial⟩⟩
  · obtain ⟨hworking', e, he⟩ | ⟨inv, hworking'⟩ := hworking.transact hregistry hledger
    · refine ⟨⟨J, hworking'⟩, fun hash hok => ?_, fun _ _ => ⟨⟨J, hworking'⟩, trivial⟩⟩
      obtain ⟨v, hv⟩ := hreply ⟨hash, hok⟩
      rw [he] at hv
      cases hv
    · exact ⟨⟨_, hworking'⟩, fun _ _ => ⟨_, by simp, hworking'⟩,
        fun _ _ => ⟨⟨_, hworking'⟩, trivial⟩⟩

theorem submit_working {cfg : RetryConfig} (hregistry : c.isRegistry = true)
    (htarget : target ∈ s₀.created) (hsecurity : security ∈ s₀.created) :
    (setting p account circumstances).Triple
      (Worked circumstances.owners s₀ viaProjectRoot target security st₀ c)
      (· = .execute target (route scheme viaProjectRoot c))
      (Worked circumstances.owners s₀ viaProjectRoot target security st₀ c)
      (submit cfg target (route scheme viaProjectRoot c))
      (fun _ => Confirmed circumstances.owners s₀ viaProjectRoot target security st₀ c)
      fun _ _ => True := by
  apply (Setting.Triple.retry (execute_working hregistry htarget hsecurity)).bind
  intro hash
  cases hash with
  | some hash => exact .ret fun _ => id
  | none => exact .fail fun _ _ => trivial

theorem submit_atMost (cfg : RetryConfig) (target : Address) (c : Call) :
    (submit cfg target c).AtMost (cfg.maxRetries - 1 + 1) := by
  have hretry : (retry cfg (execute target c)).AtMost (1 * (cfg.maxRetries - 1 + 1)) :=
    Script.AtMost.retry (.perform _) _
  rw [Nat.one_mul] at hretry
  refine (hretry.bind fun hash => ?_ : (submit cfg target c).AtMost (_ + 0))
  cases hash with
  | some hash => trivial
  | none => trivial

end Run

/-- A signer command sends its call, and nothing else, as often as its retries allow.
Wherever it was stopped and whatever went wrong, either the registry is as it was, or the
call was executed and every query about the present or the last 200 ledgers is answered as
if that had been once; and it was executed where the command returned.  The other contracts
of the deployer are as they were, and a ProjectRoot keeps all but its log and, where owners
accept, its office. -/
theorem signer_command_once {p : Platform} {account : Address} {circumstances : Circumstances}
    {m : StellarDeployManifest} {scheme : Scheme} {viaProjectRoot : Bool} {cfg : RetryConfig}
    {command : SignerCommand} {c : Call} {target security : Address} {t : VerificationType}
    {st : Security.Storage t} {J : List Invocation} {s s' : Site} {trace : List Action}
    {o : Outcome DeployerError String}
    (hrun : (setting p account circumstances).Runs (command.run m scheme viaProjectRoot cfg) s
      trace o s')
    (hresolved : signerTarget m scheme viaProjectRoot = .ok target)
    (hcall : command.call scheme = .ok c)
    (hroute : Routes s.system.world viaProjectRoot target security)
    (hsec : s.system.world.contracts security = some (.security t st))
    (hreach : Security.Reaches J st s.system.ledger)
    (htarget : target ∈ s.created) (hsecurity : security ∈ s.created) :
    (∀ i ∈ trace, i = .execute target (route scheme viaProjectRoot c)) ∧
      trace.length ≤ max 1 cfg.maxRetries ∧
      s'.manifest = s.manifest ∧ s'.scratch = s.scratch ∧
      (∀ a ∈ s.created, a ≠ security → (∀ q, s.system.world.contracts a ≠ some (.projectRoot q)) →
        s'.system.world.contracts a = s.system.world.contracts a) ∧
      (∀ a ∈ s.created, ∀ q, s.system.world.contracts a = some (.projectRoot q) →
        ∃ q', s'.system.world.contracts a = some (.projectRoot q') ∧
          KeepsProject circumstances.owners q q') ∧
      ∃ st', s'.system.world.contracts security = some (.security t st') ∧
        (st' = st ∧ (∀ hash, o ≠ .returned hash) ∨
          ∃ inv st₁, inv.call = c ∧ s.system.ledger ≤ inv.env.ledger ∧
            inv.env.ledger ≤ s'.system.ledger ∧ Security.Executes st inv st₁ ∧
            ∀ query env, Security.isQueryFrom (s'.system.ledger - 200) query = true →
              Security.answer env query st' = Security.answer env query st₁) := by
  have hregistry : c.isRegistry = true := SignerCommand.isRegistry_of_call hcall
  rw [SignerCommand.run_eq, hresolved, hcall] at hrun
  have hsubmit : (setting p account circumstances).Runs
      (submit cfg target (route scheme viaProjectRoot c)) s trace o s' := hrun
  have hlength := hsubmit.length_le (submit_atMost cfg target _)
  have hstart : Worked circumstances.owners s viaProjectRoot target security st c s :=
    ⟨[], .start hroute hsec⟩
  obtain ⟨⟨K, hworking⟩, htrace, hreturned, -⟩ := hsubmit.sound (stable_worked htarget hsecurity)
    (submit_working hregistry htarget hsecurity s hstart) hstart
  -- what returned was confirmed, and others have left it so
  obtain ⟨K, hworking, hK⟩ : ∃ K,
      Working circumstances.owners s viaProjectRoot target security st c K s' ∧
        (K = [] → ∀ hash, o ≠ .returned hash) := by
    by_cases hend : ∃ hash, o = .returned hash
    · obtain ⟨hash, hhash⟩ := hend
      obtain ⟨s₁, hconfirmed, hothers⟩ := hreturned hash hhash
      obtain ⟨K', hne, hworking'⟩ := (stable_confirmed htarget hsecurity).star hothers hconfirmed
      exact ⟨K', hworking', fun hnil => absurd hnil hne⟩
    · exact ⟨K, hworking, fun _ hash hhash => hend ⟨hash, hhash⟩⟩
  obtain ⟨st', hst', hrepeats⟩ := hworking.registry
  refine ⟨htrace, by omega, hworking.manifest, hworking.scratch, hworking.aside,
    hworking.projects, st', hst', ?_⟩
  by_cases hnil : K = []
  · subst hnil
    exact .inl ⟨hrepeats.path.eq_of_nil, hK rfl⟩
  · obtain ⟨inv, st₁, hmem, hexecutes, hsame⟩ := hrepeats.once hreach hregistry hnil
    exact .inr ⟨inv, st₁, hrepeats.calls inv hmem, hrepeats.floor_le inv hmem,
      hrepeats.upTo inv hmem, hexecutes, fun query env hquery => hsame.answer_eq hquery⟩

/-! ## A run

The weight of a signer is raised, next to a ProjectRoot.  The answer to the first transaction
is lost, and it is sent again ten ledgers later. -/

section Sample

/-- The key is given as it is displayed. -/
def sampleCommand : SignerCommand :=
  .addSigner (Client.displayKey (Security.sampleKey 5)) 7

def sampleCall : Call :=
  .addSigner (Security.sampleKey 5).toArray 7

def sampleManifest : StellarDeployManifest :=
  (StellarDeployManifest.new "" .stellar).setSecurity ⟨1⟩

def sampleTransaction (ledger : ℕ) : Transaction :=
  ⟨ledger, fun a _ _ => a == ⟨0⟩⟩

def membershipRoot : ProjectRoot.Storage :=
  ProjectRoot.construct Sample.zeroHash ⟨0⟩ ⟨1⟩ ⟨2⟩ "spec" .stellar

def sampleSite : Site where
  system := ⟨⟨fun a =>
    if a = ⟨1⟩ then
      some (.security .stellar (Security.after Security.sampleHistory Security.sampleDeployment))
    else if a = ⟨5⟩ then some (.projectRoot membershipRoot)
    else none, []⟩, 221⟩
  manifest := none
  scratch := none
  created := [⟨1⟩, ⟨5⟩]

theorem sampleTransaction_signs (ledger : ℕ) (target : Address) (c : Call) :
    Signs ⟨0⟩ (sampleTransaction ledger) target c :=
  ⟨rfl, fun _ _ _ h => beq_iff_eq.mp h⟩

theorem transact_direct {p : Platform} {s : Site} {tx : Transaction} {security : Address}
    {t : VerificationType} {st st' : Security.Storage t} {c : Call} {v : Val}
    (hsec : s.system.world.contracts security = some (.security t st))
    (hrun : (Security.call (tx.env [] security c) c).run st = .ok (v, st')) :
    s.reply p tx security c = .ok v ∧
      (s.transact p tx security c).system.world.contracts security = some (.security t st') := by
  have hinvoke : invoke p tx depthLimit [] security c s.system.world = _ :=
    invoke_security c List.not_mem_nil hsec
  rw [entryPoint_eq_ok.mpr hrun] at hinvoke
  unfold Site.reply Site.transact
  rw [hinvoke]
  exact ⟨rfl, World.commit_contracts_self ..⟩

theorem signer_command_once_sample : ∃ s',
    (setting Sample.platform ⟨0⟩ ⟨True, False⟩).Runs
      (sampleCommand.run sampleManifest .ed25519 false ⟨3⟩) sampleSite
      [.execute ⟨1⟩ sampleCall, .execute ⟨1⟩ sampleCall] (.returned "hash") s' ∧
    ∃ (st' : Security.Storage .stellar) (inv : Invocation) (st₁ : Security.Storage .stellar),
      s'.system.world.contracts ⟨1⟩ = some (.security .stellar st') ∧ inv.call = sampleCall ∧
        Security.answer inv.env .getTotalWeight st' =
          Security.answer inv.env .getTotalWeight st₁ ∧
      ∃ q', s'.system.world.contracts ⟨5⟩ = some (.projectRoot q') ∧
        q'.base.admin = ⟨0⟩ ∧ q'.securityContract = ⟨1⟩ ∧ q'.handlers = [] := by
  have hcall : sampleCommand.call .ed25519 = .ok sampleCall := by
    have hkey : parseKey .ed25519 (Client.displayKey (Security.sampleKey 5)) =
        .ok (Security.sampleKey 5) := @parseKey_displayKey .ed25519 (Security.sampleKey 5)
    simp only [SignerCommand.call, sampleCommand, hkey]
    rfl
  generalize hsite : sampleSite = s
  have hledger : s.system.ledger = 221 := by
    rw [← hsite]
    rfl
  have hcreated : s.created = [⟨1⟩, ⟨5⟩] := by
    rw [← hsite]
    rfl
  have hsecurity : ⟨1⟩ ∈ s.created := by simp [hcreated]
  have hsec : s.system.world.contracts ⟨1⟩ = some (.security .stellar
      (Security.after Security.sampleHistory Security.sampleDeployment)) := by
    rw [← hsite]
    rfl
  have hroot : s.system.world.contracts ⟨5⟩ = some (.projectRoot membershipRoot) := by
    rw [← hsite]
    rfl
  obtain ⟨hreply, hstored⟩ := @transact_direct Sample.platform s (sampleTransaction 230) ⟨1⟩
    .stellar _ (Security.after [Security.sampleInvocation 230 sampleCall]
      (Security.after Security.sampleHistory Security.sampleDeployment)) sampleCall .void hsec rfl
  have hfirst := performs_execute (sampleTransaction_signs 230 ⟨1⟩ sampleCall)
    (by rw [hledger]; decide) hreply ""
  obtain ⟨hreply', -⟩ := @transact_direct Sample.platform _ (sampleTransaction 240) ⟨1⟩
    .stellar _ (Security.after [Security.sampleInvocation 230 sampleCall,
      Security.sampleInvocation 240 sampleCall]
      (Security.after Security.sampleHistory Security.sampleDeployment)) sampleCall .void
    hstored rfl
  have hsecond := performs_execute (sampleTransaction_signs 240 ⟨1⟩ sampleCall)
    (by decide : 230 ≤ 240) hreply' "hash"
  have hresolved : signerTarget sampleManifest .ed25519 false = .ok ⟨1⟩ := rfl
  generalize hlast : (s.transact Sample.platform (sampleTransaction 230) ⟨1⟩ sampleCall).transact
    Sample.platform (sampleTransaction 240) ⟨1⟩ sampleCall = s' at hsecond
  have hrun : (setting Sample.platform ⟨0⟩ ⟨True, False⟩).Runs
      (sampleCommand.run sampleManifest .ed25519 false ⟨3⟩) s
      [.execute ⟨1⟩ sampleCall, .execute ⟨1⟩ sampleCall] (.returned "hash") s' := by
    rw [SignerCommand.run_eq, hresolved, hcall]
    have hlost : Mishap Sample.platform ⟨0⟩ s (.execute ⟨1⟩ sampleCall)
        (.error (.soroban (.other "timeout"))) _ :=
      .lost (.execute ⟨1⟩ sampleCall) _ nofun _ _ hfirst
    exact .act (.inr ⟨trivial, hlost⟩) (.act (.inl hsecond) (.ret _ _))
  have hreach : Security.Reaches Security.sampleHistory (Security.after Security.sampleHistory
      Security.sampleDeployment) s.system.ledger := by
    rw [hledger]
    exact Security.sample_reaches
  obtain ⟨-, -, -, -, -, hprojects, st', hst', hagain⟩ := signer_command_once hrun hresolved
    hcall (.direct _) hsec hreach hsecurity hsecurity
  obtain ⟨q', hq', hkeeps⟩ := hprojects ⟨5⟩ (by simp [hcreated]) membershipRoot hroot
  obtain ⟨-, hnever⟩ | ⟨inv, st₁, hcalls, -, -, -, hanswers⟩ := hagain
  · exact absurd rfl (hnever "hash")
  · obtain ⟨hadmin, -⟩ | ⟨hfalse, -⟩ := hkeeps.office
    · exact ⟨s', hrun, st', inv, st₁, hst', hcalls, hanswers .getTotalWeight inv.env rfl,
        q', hq', hadmin, hkeeps.security, hkeeps.handlers⟩
    · exact hfalse.elim

end Sample

end WarpDrive.Deployer
