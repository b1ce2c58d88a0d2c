import WarpDrive.Guarantees.Acceptance
import WarpDrive.ProjectRoot.Forwarders

/-!
# The forwarders are transparent

A Security contract asks who its admin is, and nothing else depends on the answer:
under another admin it does the same (`run_withAdmin`).  So it makes no difference
whether its admin calls it, or calls the forwarder of a ProjectRoot that is its admin.
-/

namespace WarpDrive

/-! ## The registry under another admin -/

namespace Security

variable {t : VerificationType} {env env' : Env} {s : Storage t} {c : Call} {admin : Address}

/-- The storage under another admin. -/
def Storage.withAdmin (s : Storage t) (admin : Address) : Storage t :=
  { s with base := { s.base with admin := admin } }

/-- The result of a call, with the storage it leaves under another admin. -/
def underAdmin {ε α : Type} (admin : Address) (result : Except ε (α × Storage t)) :
    Except ε (α × Storage t) :=
  result.map (Prod.map id (·.withAdmin admin))

theorem addSigner_withAdmin (hauth : env.authorized s.base.admin = true)
    (hauth' : env'.authorized admin = true) (hledger : env'.ledger = env.ledger)
    (key : t.PubKey) (weight : UInt64) :
    (addSigner env' key weight).run (s.withAdmin admin) =
      underAdmin admin ((addSigner env key weight).run s) := by
  have hgate : env'.authorized (s.withAdmin admin).base.admin = true := hauth'
  rw [addSigner_run, addSigner_run, if_pos hauth, if_pos hgate, hledger]
  split
  · rfl
  · have htotal : (s.withAdmin admin).totalAfterAdd key weight = s.totalAfterAdd key weight := rfl
    rw [htotal]
    cases s.totalAfterAdd key weight <;> rfl

theorem removeSigner_withAdmin (hauth : env.authorized s.base.admin = true)
    (hauth' : env'.authorized admin = true) (hledger : env'.ledger = env.ledger)
    (key : t.PubKey) :
    (removeSigner env' key).run (s.withAdmin admin) =
      underAdmin admin ((removeSigner env key).run s) := by
  have hgate : env'.authorized (s.withAdmin admin).base.admin = true := hauth'
  have hweight : (s.withAdmin admin).weight key = s.weight key := rfl
  have htotal : (s.withAdmin admin).getTotalWeight = s.getTotalWeight := rfl
  rw [removeSigner_run, removeSigner_run, if_pos hauth, if_pos hgate, hledger, hweight, htotal]
  split
  · rfl
  · cases checkedSub s.getTotalWeight (s.weight key) <;> rfl

theorem setThreshold_withAdmin (hauth : env.authorized s.base.admin = true)
    (hauth' : env'.authorized admin = true) (numerator denominator : UInt64) :
    (setThreshold env' numerator denominator).run (s.withAdmin admin) =
      underAdmin admin ((setThreshold env numerator denominator).run s) := by
  have hgate : env'.authorized (s.withAdmin admin).base.admin = true := hauth'
  rw [setThreshold_run, setThreshold_run, if_pos hauth, if_pos hgate]
  cases checkThreshold numerator denominator <;> rfl

/-- The exported form of a function that returns no value. -/
theorem return_void_withAdmin {s' : Storage t} {m m' : Contract (Storage t) SecurityError Unit}
    (h : m'.run s' = underAdmin admin (m.run s)) :
    (do m'; return .void : Contract (Storage t) SecurityError Val).run s' =
      underAdmin admin ((do m; return .void : Contract (Storage t) SecurityError Val).run s) := by
  rw [StateT.run_bind, StateT.run_bind, h]
  cases m.run s <;> rfl

/-- The exported form of a function that takes a key. -/
theorem expect_withAdmin {α : Type} {s' : Storage t} {key : Option α}
    {m m' : α → Contract (Storage t) SecurityError Val}
    (h : ∀ key, (m' key).run s' = underAdmin admin ((m key).run s)) :
    (expect key >>= m').run s' = underAdmin admin ((expect key >>= m).run s) := by
  cases key with
  | none => rfl
  | some key => exact h key

/-- A call of the registry does the same under another admin. -/
theorem call_withAdmin (hcall : c.isRegistry = true) (hauth : env.authorized s.base.admin = true)
    (hauth' : env'.authorized admin = true) (hledger : env'.ledger = env.ledger) :
    (call env' c).run (s.withAdmin admin) = underAdmin admin ((call env c).run s) := by
  cases c with
  | addSigner raw weight =>
      exact expect_withAdmin fun key =>
        return_void_withAdmin (addSigner_withAdmin hauth hauth' hledger key weight)
  | removeSigner raw =>
      exact expect_withAdmin fun key =>
        return_void_withAdmin (removeSigner_withAdmin hauth hauth' hledger key)
  | setThreshold numerator denominator =>
      exact return_void_withAdmin (setThreshold_withAdmin hauth hauth' numerator denominator)
  | _ => cases hcall

theorem view_withAdmin {f : Storage t → Option Val} (h : f (s.withAdmin admin) = f s) :
    (view f : Contract (Storage t) SecurityError Val).run (s.withAdmin admin) =
      underAdmin admin ((view f : Contract (Storage t) SecurityError Val).run s) := by
  have hrun : ∀ s, (view f : Contract (Storage t) SecurityError Val).run s =
      (expect (f s) : Contract (Storage t) SecurityError Val).run s := fun _ => rfl
  rw [hrun, hrun, h]
  cases f s <;> rfl

/-- A query, other than of the admin, is answered alike under another admin. -/
theorem query_withAdmin (hregistry : c.isRegistry = false) (hgovernance : c.isGovernance = false)
    (hadmin : c ≠ .admin) :
    (call env' c).run (s.withAdmin admin) = underAdmin admin ((call env c).run s) := by
  cases c with
  | addSigner _ _ | removeSigner _ | setThreshold _ _ => cases hregistry
  | upgrade _ _ | proposeAdmin _ | acceptAdmin => cases hgovernance
  | admin => exact absurd rfl hadmin
  | getSignerWeight _ | getSignerWeights _ | getSignerWeightAt _ _ | getSignerWeightsAt _ _ =>
      exact expect_withAdmin fun _ => view_withAdmin rfl
  | getTotalWeightAt _ | requiredWeightAt _ | requiredWeight => exact view_withAdmin rfl
  | _ => rfl

/-- A call of the registry returns no value, traps, or, unless it removes a signer,
returns an error of the contract. -/
def Settled (c : Call) : Except (Failure SecurityError) (Val × Storage t) → Prop
  | .ok (v, _) => v = .void
  | .error (.error _) => ∀ key, c ≠ .removeSigner key
  | .error (.panicWithError _) => False
  | .error .trap => True

theorem call_settled (hcall : c.isRegistry = true) : Settled c ((call env c).run s) := by
  cases c with
  | addSigner raw weight =>
      rw [call_addSigner]
      cases BytesN.ofBytes? t.keyLength raw with
      | none => trivial
      | some key =>
          rw [StateT.run_bind, run_expect_some, ok_bind, StateT.run_bind, addSigner_run]
          split
          · split
            · exact nofun
            · cases s.totalAfterAdd key weight with
              | none => trivial
              | some total => rfl
          · trivial
  | removeSigner raw =>
      rw [call_removeSigner]
      cases BytesN.ofBytes? t.keyLength raw with
      | none => trivial
      | some key =>
          rw [StateT.run_bind, run_expect_some, ok_bind, StateT.run_bind, removeSigner_run]
          split
          · split
            · rfl
            · cases checkedSub s.getTotalWeight (s.weight key) with
              | none => trivial
              | some total => rfl
          · trivial
  | setThreshold numerator denominator =>
      rw [call_setThreshold, StateT.run_bind, setThreshold_run]
      split
      · cases checkThreshold numerator denominator with
        | error e => exact nofun
        | ok u => rfl
      · trivial
  | _ => cases hcall

/-- A key of another width is refused before anything else happens. -/
theorem call_of_not_keyFits (hcall : c.isRegistry = true) (hfits : ¬ProjectRoot.KeyFits t c) :
    (call env c).run s = .error .trap := by
  cases c with
  | addSigner raw weight =>
      have hkey : BytesN.ofBytes? t.keyLength raw = none := dif_neg hfits
      rw [call_addSigner, hkey]
      rfl
  | removeSigner raw =>
      have hkey : BytesN.ofBytes? t.keyLength raw = none := dif_neg hfits
      rw [call_removeSigner, hkey]
      rfl
  | setThreshold numerator denominator => exact absurd trivial hfits
  | _ => cases hcall

/-! ### As a caller sees it -/

theorem entryPoint_underAdmin {s' : Storage t} {m m' : Contract (Storage t) SecurityError Val}
    (h : m'.run s' = underAdmin admin (m.run s)) :
    entryPoint m' s' = underAdmin admin (entryPoint m s) := by
  unfold entryPoint
  rw [h]
  cases m.run s <;> rfl

theorem void_of_entryPoint {s' : Storage t} {v : Val} (hcall : c.isRegistry = true)
    (h : entryPoint (call env c) s = .ok (v, s')) : v = .void := by
  have hsettled : Settled c ((call env c).run s) := call_settled hcall
  rw [entryPoint_eq_ok.mp h] at hsettled
  exact hsettled

theorem admin_of_registry {s' : Storage t} {v : Val} (hcall : c.isRegistry = true)
    (h : (call env c).run s = .ok (v, s')) : s'.base.admin = s.base.admin := by
  cases call_effect h with
  | base _ _ hregistry _ =>
      rw [hcall] at hregistry
      cases hregistry
  | _ => rfl

/-- The only errors a caller can tell apart are those of the contract. -/
theorem typed_of_entryPoint {code : ℕ} (hcall : c.isRegistry = true)
    (h : entryPoint (call env c) s = .error (.contract code)) :
    (∃ e : SecurityError, ContractError.code e = code) ∧ ∀ key, c ≠ .removeSigner key := by
  have hsettled : Settled c ((call env c).run s) := call_settled hcall
  unfold entryPoint at h
  cases hrun : (call env c).run s with
  | ok r => simp [hrun] at h
  | error e =>
      rw [hrun] at h hsettled
      cases e with
      | error e =>
          cases h
          exact ⟨⟨e, rfl⟩, hsettled⟩
      | panicWithError code => exact absurd hsettled id
      | trap => cases h

end Security

/-! ## Direct and forwarded -/

section Forwarded

open ProjectRoot (forwarder functionName KeyFits)

variable {p : Platform} {tx tx' : Transaction} {depth depth' : ℕ} {stack stack' : List Address}
  {w w' : World} {t : VerificationType} {s : Security.Storage t} {q : ProjectRoot.Storage}
  {security security' root : Address} {c : Call}

/-- The host's answer to ProjectRoot is that of the direct call, with the storage it
leaves under the admin `root`. -/
theorem invoke_withAdmin (hcall : c.isRegistry = true)
    (hinst : w'.contracts security' = some (.security t (s.withAdmin root)))
    (hbelow : security' ∉ root :: stack') (hledger : tx'.ledger = tx.ledger)
    (hauth : (tx.env stack security c).authorized s.base.admin = true) :
    invoke p tx' (depth' + 1) (root :: stack') security' c w' =
      match entryPoint (Security.call (tx.env stack security c) c) s with
      | .ok (v, s') => (.ok v, w'.commit security' (.security t (s'.withAdmin root))
          ⟨tx'.env (root :: stack') security' c, c⟩)
      | .error e => (.error e, w') := by
  -- ProjectRoot is the invoker, so it authorizes the call as the admin
  have hauth' : (tx'.env (root :: stack') security' c).authorized root = true := by
    simp [Env.authorized, Transaction.env]
  have hrun : entryPoint (Security.call (tx'.env (root :: stack') security' c) c)
      (s.withAdmin root) = Security.underAdmin root
        (entryPoint (Security.call (tx.env stack security c) c) s) :=
    Security.entryPoint_underAdmin (Security.call_withAdmin hcall hauth hauth' hledger)
  rw [invoke_security c hbelow hinst, hrun]
  cases entryPoint (Security.call (tx.env stack security c) c) s <;> rfl

/-- The forwarder, as its caller sees it. -/
theorem invoke_forwarder (hcall : c.isRegistry = true)
    (hinst : w'.contracts security' = some (.security t (s.withAdmin root)))
    (hroot : w'.contracts root = some (.projectRoot q))
    (hregistered : q.securityContract = security')
    (hstack' : root ∉ stack') (hbelow : security' ∉ stack') (hledger : tx'.ledger = tx.ledger)
    (hauth : (tx.env stack security c).authorized s.base.admin = true)
    (hauth' : (tx'.env stack' root (forwarder t c)).authorized q.base.admin = true) :
    invoke p tx' (depth' + 2) stack' root (forwarder t c) w' =
      match entryPoint (Security.call (tx.env stack security c) c) s with
      | .ok (_, s') => (.ok .void,
          (w'.commit security' (.security t (s'.withAdmin root))
            ⟨tx'.env (root :: stack') security' c, c⟩).commit root
              (.projectRoot (q.forwarded security' (functionName c)))
              ⟨tx'.env stack' root (forwarder t c), forwarder t c⟩)
      | .error e => (.error e, w') := by
  subst hregistered
  have hne : q.securityContract ∉ root :: stack' :=
    List.not_mem_cons_of_ne_of_not_mem (World.ne_of_contracts hinst hroot nofun) hbelow
  have hinner : invoke p tx' (depth' + 1) (root :: stack') q.securityContract c w' = _ :=
    invoke_withAdmin hcall hinst hne hledger hauth
  rw [invoke_succ hstack' hroot, dispatch]
  by_cases hfits : KeyFits t c
  · have hhost : (hostBelow p tx' (depth' + 1) (root :: stack')).invoke q.securityContract c w' =
        _ := hinner
    rw [ProjectRoot.entryPoint_forwarder hcall hfits hauth', hhost]
    · cases entryPoint (Security.call (tx.env stack security c) c) s <;> rfl
    · -- a removal never ends in a typed error, so the `unwrap` hides none
      rintro key rfl code htyped
      rw [hhost] at htyped
      cases hresult : entryPoint (Security.call (tx.env stack security (.removeSigner key))
          (.removeSigner key)) s with
      | ok r =>
          rw [hresult] at htyped
          cases htyped
      | error e =>
          rw [hresult] at htyped
          cases htyped
          exact (Security.typed_of_entryPoint rfl hresult).2 key rfl
  · -- neither side decodes a key of the wrong length
    have htrap : (Security.call (tx.env stack security c) c).run s = .error .trap :=
      Security.call_of_not_keyFits hcall hfits
    have habort : entryPoint (Security.call (tx.env stack security c) c) s = .error .abort := by
      unfold entryPoint
      rw [htrap]
      rfl
    rw [ProjectRoot.entryPoint_forwarder_of_not_keyFits hcall hfits, habort]
    rfl

/-! ### The other scheme -/

/-- A call that names a signer. -/
def Keyed (c : Call) : Prop :=
  ∃ key, c = .removeSigner key ∨ ∃ weight, c = .addSigner key weight

theorem Keyed.isRegistry (h : Keyed c) : c.isRegistry = true := by
  obtain ⟨key, rfl | ⟨weight, rfl⟩⟩ := h <;> rfl

theorem Keyed.eq_of_keyFits {t' : VerificationType} (h : Keyed c) (hfits : KeyFits t c)
    (hfits' : KeyFits t' c) : t' = t := by
  have hlength : t'.keyLength = t.keyLength := by
    obtain ⟨key, rfl | ⟨weight, rfl⟩⟩ := h
    · exact hfits'.symm.trans hfits
    · exact hfits'.symm.trans hfits
  cases t <;> cases t' <;> first | rfl | exact absurd hlength (by decide)

theorem invoke_of_not_keyFits (hcall : c.isRegistry = true) (hfits : ¬KeyFits t c)
    (hinst : w.contracts security = some (.security t s)) :
    (invoke p tx depth stack security c w).1 = .error .abort := by
  cases depth with
  | zero => rfl
  | succ depth =>
      by_cases hstack : security ∈ stack
      · rw [invoke, if_pos hstack]
      · have hrun : entryPoint (Security.call (tx.env stack security c) c) s = .error .abort := by
          unfold entryPoint
          rw [Security.call_of_not_keyFits hcall hfits]
          rfl
        rw [invoke_security c hstack hinst, hrun]

/-- The forwarder of the other scheme fails, whoever calls it. -/
theorem invoke_other_forwarder {t' : VerificationType} (htype : t' ≠ t) (hkeyed : Keyed c)
    (hinst : w.contracts security = some (.security t s))
    (hroot : w.contracts root = some (.projectRoot q))
    (hregistered : q.securityContract = security) :
    (invoke p tx depth stack root (forwarder t' c) w).2 = w := by
  rcases invoke_cases p tx depth stack root (forwarder t' c) w with
    ⟨e, hfailed⟩ | ⟨below, inst, v, frame, -, -, hinst', hrun, -⟩
  · rw [hfailed]
  · exfalso
    obtain rfl : .projectRoot q = inst := Option.some.inj (hroot.symm.trans hinst')
    obtain ⟨inner, hrun, -⟩ := asInstance_eq_ok.mp hrun
    have hcall : c.isRegistry = true := hkeyed.isRegistry
    -- the other forwarder decodes the keys of its own scheme, and those are not of this one
    by_cases hfits : KeyFits t' c
    · have hreply : (invoke p tx below (root :: stack) q.securityContract c w).1 =
          .error .abort :=
        invoke_of_not_keyFits hcall (fun h => htype (hkeyed.eq_of_keyFits h hfits))
          (hregistered ▸ hinst)
      have hhost : ((hostBelow p tx below (root :: stack)).invoke q.securityContract c w).1 =
          .error .abort := hreply
      have hauth := ProjectRoot.Gated.forwarder t' hcall _ _ _ (entryPoint_eq_ok.mp hrun)
      rw [ProjectRoot.entryPoint_forwarder hcall hfits hauth, hhost] at hrun
      · cases hrun
      · rintro key rfl code htyped
        rw [hhost] at htyped
        cases htyped
    · rw [ProjectRoot.entryPoint_forwarder_of_not_keyFits hcall hfits] at hrun
      cases hrun

/-! ### Transparency -/

/-- A direct call and a forwarded one, from the worlds `w` and `w'`, did the same. -/
structure Transparent (p : Platform) (s : Security.Storage t) (q : ProjectRoot.Storage)
    (security security' root : Address) (c : Call) (w w' : World)
    (direct forwarded : Reply × World) : Prop where
  reply : forwarded.1 = direct.1
  returned : ∀ v, direct.1 = .ok v → ∃ s', s'.base.admin = s.base.admin ∧
    direct.2.contracts = Function.update w.contracts security (some (.security t s')) ∧
    forwarded.2.contracts = Function.update (Function.update w'.contracts
      security' (some (.security t (s'.withAdmin root))))
      root (some (.projectRoot (q.forwarded security' (functionName c))))
  queries : ∀ v, direct.1 = .ok v → ∀ query : Call, query.isRegistry = false →
    query.isGovernance = false → query ≠ .admin →
    ∀ tx tx' depth depth' stack stack', security ∉ stack → security' ∉ stack' →
      (invoke p tx' (depth' + 1) stack' security' query forwarded.2).1 =
        (invoke p tx (depth + 1) stack security query direct.2).1
  failed : ∀ e, direct.1 = .error e → direct.2 = w ∧ forwarded.2 = w'
  typed : ∀ code, direct.1 = .error (.contract code) →
    ∃ e : SecurityError, ContractError.code e = code

/-- Two Security contracts that differ in the admin only answer alike. -/
theorem invoke_query_withAdmin {query : Call} (hregistry : query.isRegistry = false)
    (hgovernance : query.isGovernance = false) (hadmin : query ≠ .admin)
    (hstack : security ∉ stack) (hstack' : security' ∉ stack')
    (hinst : w.contracts security = some (.security t s))
    (hinst' : w'.contracts security' = some (.security t (s.withAdmin root))) :
    (invoke p tx' (depth' + 1) stack' security' query w').1 =
      (invoke p tx (depth + 1) stack security query w).1 := by
  have hrun : entryPoint (Security.call (tx'.env stack' security' query) query)
      (s.withAdmin root) = Security.underAdmin root
        (entryPoint (Security.call (tx.env stack security query) query) s) :=
    Security.entryPoint_underAdmin (Security.query_withAdmin hregistry hgovernance hadmin)
  rw [invoke_security query hstack hinst, invoke_security query hstack' hinst', hrun]
  cases entryPoint (Security.call (tx.env stack security query) query) s <;> rfl

/-- A forwarder does what the admin of the Security contract would have done by
calling it, and the forwarder of the other scheme does nothing. -/
theorem forwarders_transparent (hcall : c.isRegistry = true)
    (hdirect : w.contracts security = some (.security t s))
    (hinst : w'.contracts security' = some (.security t (s.withAdmin root)))
    (hroot : w'.contracts root = some (.projectRoot q))
    (hregistered : q.securityContract = security')
    (hadmin : q.base.admin = s.base.admin) (hledger : tx'.ledger = tx.ledger)
    (hauth : (tx.env stack security c).authorized s.base.admin = true)
    (hauth' : (tx'.env stack' root (forwarder t c)).authorized s.base.admin = true)
    (hstack : security ∉ stack) (hstack' : root ∉ stack') (hbelow : security' ∉ stack') :
    Transparent p s q security security' root c w w'
        (invoke p tx (depth + 1) stack security c w)
        (invoke p tx' (depth' + 2) stack' root (forwarder t c) w') ∧
      ∀ t', t' ≠ t → Keyed c → ∀ tx depth stack,
        (invoke p tx depth stack root (forwarder t' c) w').2 = w' := by
  constructor
  · have hdirectRun : invoke p tx (depth + 1) stack security c w = _ :=
      invoke_security c hstack hdirect
    have hforwardedRun : invoke p tx' (depth' + 2) stack' root (forwarder t c) w' = _ :=
      invoke_forwarder hcall hinst hroot hregistered hstack' hbelow hledger hauth (hadmin ▸ hauth')
    rw [hdirectRun, hforwardedRun]
    cases hresult : entryPoint (Security.call (tx.env stack security c) c) s with
    | ok r =>
        obtain ⟨v, s'⟩ := r
        obtain rfl : v = .void := Security.void_of_entryPoint hcall hresult
        have hafter : ∀ inst inv inv', ((w'.commit security'
            (.security t (s'.withAdmin root)) inv).commit root inst inv').contracts security' =
              some (.security t (s'.withAdmin root)) := by
          intro inst inv inv'
          rw [World.commit_contracts_of_ne (World.ne_of_contracts hinst hroot nofun),
            World.commit_contracts_self]
        constructor
        case reply => rfl
        case returned =>
          intro v _
          have hadmin' : s'.base.admin = s.base.admin :=
            Security.admin_of_registry hcall (entryPoint_eq_ok.mp hresult)
          exact ⟨s', hadmin', rfl, rfl⟩
        case queries =>
          intro v _ query hregistry hgovernance hquery tx tx' depth depth' stack stack' hstack
            hstack'
          exact invoke_query_withAdmin hregistry hgovernance hquery hstack hstack'
            (World.commit_contracts_self ..) (hafter _ _ _)
        case failed => exact nofun
        case typed => exact nofun
    | error e =>
        constructor
        case reply => rfl
        case returned => exact nofun
        case queries => exact nofun
        case failed =>
          intro e _
          exact ⟨rfl, rfl⟩
        case typed =>
          intro code hcode
          cases hcode
          exact (Security.typed_of_entryPoint hcall hresult).1
  · intro t' htype hkeyed tx depth stack
    exact invoke_other_forwarder htype hkeyed hinst hroot hregistered

end Forwarded

/-! ## A third signer

The admin of the sample registry adds a signer at ledger 20; so does the admin of the
ProjectRoot at address 9 that the registry of another world has as admin. -/

section Sample

open Security

def sampleRoot : ProjectRoot.Storage :=
  ProjectRoot.construct Sample.zeroHash ⟨0⟩ ⟨1⟩ ⟨2⟩ "spec" .stellar

def rootedWorld : World where
  contracts a :=
    if a = ⟨1⟩ then some (.security .stellar (twoSignersState.withAdmin ⟨9⟩))
    else if a = ⟨9⟩ then some (.projectRoot sampleRoot)
    else none
  journal := []

def thirdSigner : Call :=
  .addSigner (sampleKey 5).toArray 3

theorem forwarders_transparent_sample :
    (invoke Sample.platform (signedByAdmin 20) 100 [] ⟨1⟩ thirdSigner
        (pairOf twoSignersState)).1 = .ok .void ∧
      Transparent Sample.platform twoSignersState sampleRoot ⟨1⟩ ⟨1⟩ ⟨9⟩ thirdSigner
        (pairOf twoSignersState) rootedWorld
        (invoke Sample.platform (signedByAdmin 20) 100 [] ⟨1⟩ thirdSigner
          (pairOf twoSignersState))
        (invoke Sample.platform (signedByAdmin 20) 100 [] ⟨9⟩
          (.addEd25519Signer (sampleKey 5).toArray 3) rootedWorld) ∧
      (invoke Sample.platform (signedByAdmin 20) 100 [] ⟨9⟩
        (.addSecp256k1Signer (sampleKey 5).toArray 3) rootedWorld).2 = rootedWorld := by
  have hstack : ∀ a : Address, a ∉ ([] : List Address) := fun _ => List.not_mem_nil
  have h : Transparent Sample.platform twoSignersState sampleRoot ⟨1⟩ ⟨1⟩ ⟨9⟩ thirdSigner
      (pairOf twoSignersState) rootedWorld
      (invoke Sample.platform (signedByAdmin 20) (99 + 1) [] ⟨1⟩ thirdSigner
        (pairOf twoSignersState))
      (invoke Sample.platform (signedByAdmin 20) (98 + 2) [] ⟨9⟩
        (ProjectRoot.forwarder .stellar thirdSigner) rootedWorld) ∧ _ :=
    forwarders_transparent rfl rfl rfl rfl rfl rfl rfl rfl rfl (hstack _) (hstack _) (hstack _)
  exact ⟨rfl, h.1, h.2 .ethereum (by decide) ⟨_, Or.inr ⟨_, rfl⟩⟩ (signedByAdmin 20) 100 []⟩

end Sample

end WarpDrive
