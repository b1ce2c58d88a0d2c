import WarpDrive.System.Members

/-!
# Calls between the contracts

What an invocation does, for each kind of contract it may reach.  A query leaves
every contract as it was; `invoke_verify_eq_ok` says when a bundle of signatures
passes a Verification contract, in terms of what the Security contract it points
at has stored.
-/

namespace WarpDrive

variable {p : Platform} {tx : Transaction} {depth : ℕ} {stack : List Address} {w : World}
  {a : Address} {t : VerificationType}

/-! ## Invocations of Security contracts -/

theorem World.commit_contracts_eq {inst : Instance} {inv : Invocation}
    (h : w.contracts a = some inst) : (w.commit a inst inv).contracts = w.contracts := by
  rw [World.commit, ← h, Function.update_eq_self]

theorem entryPoint_onStorage {σ ω ε : Type} [ContractError ε] (m : Contract σ ε Val) (s : σ)
    (world : ω) :
    entryPoint (onStorage m) ⟨s, world⟩ =
      match entryPoint m s with
      | .ok (v, s') => .ok (v, ⟨s', world⟩)
      | .error e => .error e := by
  unfold entryPoint onStorage
  rw [run_zoom]
  cases m.run s <;> rfl

/-- An invocation of a Security contract runs it, and nothing else. -/
theorem invoke_security {s : Security.Storage t} (call : Call) (hstack : a ∉ stack)
    (hinst : w.contracts a = some (.security t s)) :
    invoke p tx (depth + 1) stack a call w =
      match entryPoint (Security.call (tx.env stack a call) call) s with
      | .ok (v, s') => (.ok v, w.commit a (.security t s') ⟨tx.env stack a call, call⟩)
      | .error e => (.error e, w) := by
  rw [invoke_succ hstack hinst, dispatch, entryPoint_onStorage]
  cases entryPoint (Security.call (tx.env stack a call) call) s <;> rfl

/-- A transaction that calls a Security contract, and the call returns. -/
theorem Step.security {sys : System} {s s' : Security.Storage t} {call : Call} {v : Val}
    (hledger : sys.ledger ≤ tx.ledger) (hinst : sys.world.contracts a = some (.security t s))
    (hrun : (Security.call (tx.env [] a call) call).run s = .ok (v, s')) :
    Step p sys (.transact tx a call)
      ⟨sys.world.commit a (.security t s') ⟨tx.env [] a call, call⟩, tx.ledger⟩ := by
  have hinvoke : invoke p tx depthLimit [] a call sys.world =
      (.ok v, sys.world.commit a (.security t s') ⟨tx.env [] a call, call⟩) := by
    rw [depthLimit, invoke_security call List.not_mem_nil hinst, entryPoint_eq_ok.mpr hrun]
  have hstep : Step p sys (.transact tx a call) _ := .transact sys tx a call hledger
  rw [hinvoke] at hstep
  exact hstep

theorem Reachable.security {sys : System} {s s' : Security.Storage t} {call : Call} {v : Val}
    (h : Reachable p sys) (hledger : sys.ledger ≤ tx.ledger)
    (hinst : sys.world.contracts a = some (.security t s))
    (hrun : (Security.call (tx.env [] a call) call).run s = .ok (v, s')) :
    Reachable p ⟨sys.world.commit a (.security t s') ⟨tx.env [] a call, call⟩, tx.ledger⟩ := by
  obtain ⟨ops, hops⟩ := h
  exact ⟨_, hops.snoc (.security hledger hinst hrun)⟩

theorem entryPoint_view {σ ε : Type} [ContractError ε] (f : σ → Option Val) (s : σ) :
    entryPoint (view f : Contract σ ε Val) s =
      match f s with
      | some v => .ok (v, s)
      | none => .error .abort := by
  have hrun : (view f : Contract σ ε Val).run s = (expect (f s) : Contract σ ε Val).run s := rfl
  unfold entryPoint
  rw [hrun]
  cases f s <;> rfl

/-- A function of the Security contract that reads a value, as its caller sees it. -/
theorem invoke_view {s : Security.Storage t} {query : Call}
    {f : Security.Storage t → Option Val} (hstack : a ∉ stack)
    (hinst : w.contracts a = some (.security t s))
    (hquery : Security.call (tx.env stack a query) query = view f) :
    (invoke p tx (depth + 1) stack a query w).1 =
        (match f s with
        | some v => .ok v
        | none => .error .abort) ∧
      (invoke p tx (depth + 1) stack a query w).2.contracts = w.contracts := by
  rw [invoke_security query hstack hinst, hquery, entryPoint_view]
  cases f s with
  | none => exact ⟨rfl, rfl⟩
  | some v => exact ⟨rfl, World.commit_contracts_eq hinst⟩

/-- Two contracts that a query reads alike reply alike. -/
theorem invoke_view_congr {tx' : Transaction} {depth' : ℕ} {stack' : List Address} {w' : World}
    {a' : Address} {s s' : Security.Storage t} {query : Call}
    {f : Security.Storage t → Option Val} (hstack : a ∉ stack) (hstack' : a' ∉ stack')
    (hinst : w.contracts a = some (.security t s))
    (hinst' : w'.contracts a' = some (.security t s'))
    (hquery : ∀ env, Security.call (t := t) env query = view f) (hvalue : f s = f s') :
    (invoke p tx (depth + 1) stack a query w).1 =
      (invoke p tx' (depth' + 1) stack' a' query w').1 := by
  have hreply : (invoke p tx (depth + 1) stack a query w).1 = _ :=
    (invoke_view hstack hinst (hquery _)).1
  have hreply' : (invoke p tx' (depth' + 1) stack' a' query w').1 = _ :=
    (invoke_view hstack' hinst' (hquery _)).1
  rw [hreply, hreply', hvalue]

/-- A value read through an invocation is the one the function computes. -/
theorem eq_some_of_invoke_view {s : Security.Storage t} {query : Call}
    {f : Security.Storage t → Option Val} {v : Val}
    (hinst : w.contracts a = some (.security t s))
    (hquery : Security.call (tx.env stack a query) query = view f)
    (h : (invoke p tx depth stack a query w).1 = .ok v) :
    f s = some v ∧ (invoke p tx depth stack a query w).2.contracts = w.contracts := by
  obtain ⟨below, inst, frame, rfl, hstack, -, -⟩ := invoke_eq_ok h
  obtain ⟨hreply, hcontracts⟩ := invoke_view (p := p) (f := f) hstack hinst hquery
  refine ⟨?_, hcontracts⟩
  rw [h] at hreply
  cases hvalue : f s with
  | none => simp [hvalue] at hreply
  | some v' =>
      simp only [hvalue, Except.ok.injEq] at hreply
      rw [hreply]

theorem bind_expect_view {σ ε α : Type} (o : Option α) (f : α → σ → Option Val) :
    (expect o >>= fun a => view (f a) : Contract σ ε Val) = view fun s => o.bind (f · s) := by
  cases o <;> rfl

theorem call_getSignerWeightsAt (env : Env) (pubkeys : List Bytes) (r : ℕ) :
    Security.call (t := t) env (.getSignerWeightsAt pubkeys r) =
      view fun s => (bytesVec? t.keyLength pubkeys).bind fun keys =>
        (s.getSignerWeightsAt keys r).map .u64s :=
  bind_expect_view _ _

theorem call_requiredWeightAt (env : Env) (r : ℕ) :
    Security.call (t := t) env (.requiredWeightAt r) =
      view fun s => (Security.requiredWeightAt s r).map .u64 := rfl

theorem invoke_getSignerWeightsAt {s : Security.Storage t} {keys : List t.PubKey} {r : ℕ}
    {weights : List UInt64} (hstack : a ∉ stack) (hinst : w.contracts a = some (.security t s))
    (hweights : s.getSignerWeightsAt keys r = some weights) :
    (invoke p tx (depth + 1) stack a (.getSignerWeightsAt (keys.map BytesN.toArray) r) w).1 =
        .ok (.u64s weights) ∧
      (invoke p tx (depth + 1) stack a
        (.getSignerWeightsAt (keys.map BytesN.toArray) r) w).2.contracts = w.contracts := by
  obtain ⟨hreply, hcontracts⟩ := invoke_view (p := p) hstack hinst
    (call_getSignerWeightsAt (tx.env stack a _) (keys.map BytesN.toArray) r)
  refine ⟨?_, hcontracts⟩
  rw [hreply, bytesVec?_map_toArray, Option.bind_some, hweights]
  rfl

theorem invoke_requiredWeightAt {s : Security.Storage t} {r : ℕ} {required : UInt64}
    (hstack : a ∉ stack) (hinst : w.contracts a = some (.security t s))
    (hrequired : Security.requiredWeightAt s r = some required) :
    (invoke p tx (depth + 1) stack a (.requiredWeightAt r) w).1 = .ok (.u64 required) ∧
      (invoke p tx (depth + 1) stack a (.requiredWeightAt r) w).2.contracts = w.contracts := by
  obtain ⟨hreply, hcontracts⟩ := invoke_view (p := p) hstack hinst
    (call_requiredWeightAt (tx.env stack a _) r)
  refine ⟨?_, hcontracts⟩
  rw [hreply, hrequired]
  rfl

/-! ## `verify` -/

/-- A bundle of signatures that `verify` accepts, given what the Security contract
has stored. -/
structure Accepts (p : Platform) (s : Security.Storage t) (envelope : Bytes)
    (sigs : List Bytes) (keys : List t.PubKey) (r : ℕ) (weights : List UInt64)
    (required : UInt64) : Prop where
  nonempty : sigs ≠ []
  weights_eq : s.getSignerWeightsAt keys r = some weights
  required_eq : Security.requiredWeightAt s r = some required
  required_ne_zero : required ≠ 0
  ascending : keys.IsChain (· < ·)
  valid : List.Forall₂ (Verification.ValidBytes p t envelope) sigs keys
  registered : ∀ weight ∈ weights, weight ≠ 0
  fits : Verification.weightSum weights < 2 ^ 64
  reached : required.toNat ≤ Verification.weightSum weights

section Bundle

variable {v : Verification.Storage} {s : Security.Storage t} {envelope : Bytes}
  {sigs pubkeys : List Bytes} {keys : List t.PubKey} {r : ℕ} {weights : List UInt64}
  {required : UInt64}

theorem length_getSignerWeightsAt (h : s.getSignerWeightsAt keys r = some weights) :
    weights.length = keys.length :=
  (Security.Storage.getSignerWeightsAt_eq_some.mp h).length_eq.symm

theorem weightsReply_eq_ok
    (h : ((bytesVec? t.keyLength pubkeys).bind fun keys =>
      (s.getSignerWeightsAt keys r).map Val.u64s) = some (.u64s weights)) :
    ∃ keys, keys.map BytesN.toArray = pubkeys ∧ s.getSignerWeightsAt keys r = some weights := by
  obtain ⟨keys, hkeys, hmap⟩ := Option.bind_eq_some_iff.mp h
  obtain ⟨weights', hweights, heq⟩ := Option.map_eq_some_iff.mp hmap
  cases heq
  exact ⟨keys, map_toArray_of_bytesVec? hkeys, hweights⟩

/-- A bundle that passes is one that `Accepts` describes. -/
theorem accepts_of_invoke_verify (hverification : w.contracts a = some (.verification t v))
    (hsecurity : w.contracts v.securityContract = some (.security t s))
    (h : (invoke p tx depth stack a (.verify envelope sigs pubkeys r) w).1 = .ok .void) :
    ∃ keys weights required, keys.map BytesN.toArray = pubkeys ∧
      Accepts p s envelope sigs keys r weights required := by
  obtain ⟨below, inst, frame, rfl, -, hinst, hrun⟩ := invoke_eq_ok h
  obtain rfl : .verification t v = inst := Option.some.inj (hverification.symm.trans hinst)
  obtain ⟨inner, hcall, rfl⟩ := asInstance_eq_ok.mp hrun
  obtain ⟨_, _, hverify, -⟩ := bind_run_eq_ok.mp (entryPoint_eq_ok.mp hcall)
  obtain ⟨hne, hlen, weights, required, total, hweights, hrequired, hzero, hloop, hreached⟩ :=
    Verification.verify_run_eq_ok.mp hverify
  -- the two replies that `verify` got are what the Security contract has stored
  obtain ⟨hvalue, hcontracts⟩ :=
    eq_some_of_invoke_view hsecurity (call_getSignerWeightsAt _ pubkeys r) hweights
  obtain ⟨keys, rfl, hkeys⟩ := weightsReply_eq_ok hvalue
  obtain ⟨hvalue', -⟩ := eq_some_of_invoke_view (hcontracts ▸ hsecurity)
    (call_requiredWeightAt _ r) hrequired
  obtain ⟨required', hrequired', heq⟩ := Option.map_eq_some_iff.mp hvalue'
  cases heq
  obtain ⟨hchain, hvalid, hregistered, hfits, htotal, -⟩ :=
    (Verification.verifyLoop_run_eq_ok (by simpa using hlen)
      (length_getSignerWeightsAt hkeys)).mp hloop
  rw [UInt64.lt_iff_toNat_lt] at hreached
  refine ⟨keys, weights, required, rfl, hne, hkeys, hrequired', hzero, by simpa using hchain,
    hvalid, hregistered, ?_, ?_⟩
  · simpa using hfits
  · rw [UInt64.toNat_zero, Nat.zero_add] at htotal
    omega

theorem invoke_fst {inst : Instance} (call : Call) (hstack : a ∉ stack)
    (hinst : w.contracts a = some inst) :
    (invoke p tx (depth + 1) stack a call w).1 =
      (dispatch p (hostBelow p tx depth (a :: stack)) (tx.env stack a call) call inst w).map
        Prod.fst := by
  rw [invoke_succ hstack hinst]
  cases dispatch p (hostBelow p tx depth (a :: stack)) (tx.env stack a call) call inst w <;> rfl

theorem asInstance_map_fst {σ ω : Type} (wrap : σ → Instance)
    (result : Except InvokeError (Val × Frame σ ω)) :
    (asInstance wrap result).map Prod.fst = result.map Prod.fst := by
  cases result <;> rfl

/-- The weights of such a bundle fit into the running total. -/
theorem Accepts.toNat_total (h : Accepts p s envelope sigs keys r weights required) :
    (UInt64.ofNat (Verification.weightSum weights)).toNat = Verification.weightSum weights := by
  rw [UInt64.toNat_ofNat', Nat.mod_eq_of_lt h.fits]

/-- The loop adds them up. -/
theorem Accepts.verifyLoop_run {σ : Type}
    (h : Accepts p s envelope sigs keys r weights required) (frame : σ) :
    (Verification.verifyLoop p t envelope sigs (keys.map BytesN.toArray) weights none 0).run frame =
      .ok (.ofNat (Verification.weightSum weights), frame) := by
  have hchain : ((none : Option t.PubKey).toList ++ keys).IsChain (· < ·) := h.ascending
  have hlength : weights.length = keys.length := length_getSignerWeightsAt h.weights_eq
  refine (Verification.verifyLoop_run_eq_ok h.valid.length_eq hlength).mpr
    ⟨hchain, h.valid, h.registered, ?_, ?_, rfl⟩
  · simpa using h.fits
  · simpa using h.toNat_total

/-- A bundle that `Accepts` describes passes, unless the host refuses the calls. -/
theorem Accepts.invoke_verify (h : Accepts p s envelope sigs keys r weights required)
    (hstack : a ∉ stack) (hstack' : v.securityContract ∉ stack)
    (hverification : w.contracts a = some (.verification t v))
    (hsecurity : w.contracts v.securityContract = some (.security t s)) :
    (invoke p tx (depth + 2) stack a (.verify envelope sigs (keys.map BytesN.toArray) r) w).1 =
      .ok .void := by
  have hbelow : v.securityContract ∉ a :: stack := by
    rw [List.mem_cons, not_or]
    exact ⟨World.ne_of_contracts hsecurity hverification nofun, hstack'⟩
  obtain ⟨hweights, hcontracts⟩ := invoke_getSignerWeightsAt (p := p) hbelow hsecurity h.weights_eq
  obtain ⟨hrequired, -⟩ := invoke_requiredWeightAt hbelow (hcontracts ▸ hsecurity) h.required_eq
  have hlength : sigs.length = (keys.map BytesN.toArray).length := by
    rw [List.length_map, h.valid.length_eq]
  have hreached : ¬UInt64.ofNat (Verification.weightSum weights) < required := by
    rw [UInt64.lt_iff_toNat_lt, h.toNat_total]
    exact not_lt_of_ge h.reached
  have hverify : (Verification.verify p (hostBelow p tx (depth + 1) (a :: stack)) t envelope sigs
      (keys.map BytesN.toArray) r).run ⟨v, w⟩ = .ok ((), _) :=
    Verification.verify_run_eq_ok.mpr ⟨h.nonempty, hlength, weights, required, _, hweights,
      hrequired, h.required_ne_zero, h.verifyLoop_run _, hreached⟩
  have hcall : entryPoint (Verification.call p (hostBelow p tx (depth + 1) (a :: stack)) t
      (tx.env stack a (.verify envelope sigs (keys.map BytesN.toArray) r))
      (.verify envelope sigs (keys.map BytesN.toArray) r)) ⟨v, w⟩ = .ok (.void, _) :=
    entryPoint_eq_ok.mpr (bind_run_eq_ok.mpr ⟨(), _, hverify, rfl⟩)
  rw [invoke_fst _ hstack hverification, dispatch, asInstance_map_fst, hcall]
  rfl

end Bundle

/-! ## The verdict depends on what the Security contract answers -/

theorem entryPoint_map_fst {σ ε : Type} [ContractError ε] {m m' : Contract σ ε Val} {s s' : σ}
    (h : (m.run s).map Prod.fst = (m'.run s').map Prod.fst) :
    (entryPoint m s).map Prod.fst = (entryPoint m' s').map Prod.fst := by
  unfold entryPoint
  cases hrun : m.run s with
  | error e =>
      cases hrun' : m'.run s' with
      | error e' =>
          obtain rfl : e = e' := by simpa [hrun, hrun', Except.map] using h
          rfl
      | ok r' => simp [hrun, hrun', Except.map] at h
  | ok r =>
      cases hrun' : m'.run s' with
      | error e' => simp [hrun, hrun', Except.map] at h
      | ok r' => simpa [hrun, hrun', Except.map] using h

/-- Two Security contracts that answer alike at `r` lead to the same verdict. -/
theorem invoke_verify_congr {tx' : Transaction} {depth' : ℕ} {stack' : List Address}
    {w' : World} {a' : Address} {v v' : Verification.Storage} {s s' : Security.Storage t}
    {envelope : Bytes} {sigs pubkeys : List Bytes} {r : ℕ}
    (hstack : a ∉ stack) (hbelow : v.securityContract ∉ stack)
    (hverification : w.contracts a = some (.verification t v))
    (hsecurity : w.contracts v.securityContract = some (.security t s))
    (hstack' : a' ∉ stack') (hbelow' : v'.securityContract ∉ stack')
    (hverification' : w'.contracts a' = some (.verification t v'))
    (hsecurity' : w'.contracts v'.securityContract = some (.security t s'))
    (hweights : ∀ keys, s.getSignerWeightsAt keys r = s'.getSignerWeightsAt keys r)
    (hrequired : Security.requiredWeightAt s r = Security.requiredWeightAt s' r) :
    (invoke p tx (depth + 2) stack a (.verify envelope sigs pubkeys r) w).1 =
      (invoke p tx' (depth' + 2) stack' a' (.verify envelope sigs pubkeys r) w').1 := by
  have hself : v.securityContract ∉ a :: stack := by
    rw [List.mem_cons, not_or]
    exact ⟨World.ne_of_contracts hsecurity hverification nofun, hbelow⟩
  have hself' : v'.securityContract ∉ a' :: stack' := by
    rw [List.mem_cons, not_or]
    exact ⟨World.ne_of_contracts hsecurity' hverification' nofun, hbelow'⟩
  -- the first query leaves the contracts as they were, for the second
  have hcontracts : (invoke p tx (depth + 1) (a :: stack) v.securityContract
      (.getSignerWeightsAt pubkeys r) w).2.contracts = w.contracts :=
    (invoke_view hself hsecurity (call_getSignerWeightsAt _ pubkeys r)).2
  have hcontracts' : (invoke p tx' (depth' + 1) (a' :: stack') v'.securityContract
      (.getSignerWeightsAt pubkeys r) w').2.contracts = w'.contracts :=
    (invoke_view hself' hsecurity' (call_getSignerWeightsAt _ pubkeys r)).2
  rw [invoke_fst _ hstack hverification, invoke_fst _ hstack' hverification', dispatch, dispatch,
    asInstance_map_fst, asInstance_map_fst]
  have hsameWeights : (invoke p tx (depth + 1) (a :: stack) v.securityContract
      (.getSignerWeightsAt pubkeys r) w).1 = (invoke p tx' (depth' + 1) (a' :: stack')
        v'.securityContract (.getSignerWeightsAt pubkeys r) w').1 := by
    refine invoke_view_congr hself hself' hsecurity hsecurity'
      (fun _ => call_getSignerWeightsAt _ pubkeys r) ?_
    simp only [hweights]
  refine entryPoint_map_fst (bind_map_fst_eq (Verification.verify_congr hsameWeights ?_)
    fun _ => .pure _)
  refine invoke_view_congr hself hself' (hcontracts ▸ hsecurity) (hcontracts' ▸ hsecurity')
    (fun _ => call_requiredWeightAt _ r) ?_
  rw [hrequired]

end WarpDrive
