import WarpDrive.Handler.Replay
import WarpDrive.ProjectRoot.Gate
import WarpDrive.Security.Operations
import WarpDrive.Verification.Quorum

/-!
# The composed system

The contracts of a network and the host that runs them.  A transaction invokes
one function; the function may invoke others, and so on.  The host refuses an
invocation of a contract that is already on the call stack, and it rolls back
everything an invocation did if it fails.

Contracts outside WarpDrive are arbitrary code: on each call such a contract
behaves as a tree of invocations, each chosen from the replies so far.

The journal lists the invocations that succeeded and were not rolled back, each
with the environment it ran in, in the order in which they returned.
-/

namespace WarpDrive

variable {ω : Type}

/-! ## Instances -/

/-- What a contract outside WarpDrive does on a call. -/
inductive Behaviour where
  | reply (reply : Reply) (memory : Bytes)
  | invoke (target : Address) (call : Call) (next : Reply → Behaviour)

/-- Run a behaviour to its reply, and the memory it leaves. -/
def Behaviour.run (host : Host ω) : Behaviour → ω → Except InvokeError (Val × Bytes × ω)
  | .reply (.ok v) memory, world => .ok (v, memory, world)
  | .reply (.error e) _, _ => .error e
  | .invoke target call next, world =>
      (next (host.invoke target call world).1).run host (host.invoke target call world).2

/-- A contract outside WarpDrive. -/
structure Foreign where
  code : Env → Bytes → Call → Behaviour
  memory : Bytes

/-- A deployed contract, with what it stores.  The type of a Security contract, a
Verification contract or a handler says which of its two variants it is. -/
inductive Instance where
  | security (t : VerificationType) (s : Security.Storage t)
  | verification (t : VerificationType) (s : Verification.Storage)
  | handler (t : VerificationType) (s : Handler.Storage)
  | projectRoot (s : ProjectRoot.Storage)
  | foreign (f : Foreign)

/-- The result of a contract function, over instances. -/
def asInstance {σ : Type} (wrap : σ → Instance) (result : Except InvokeError (Val × Frame σ ω)) :
    Except InvokeError (Val × Frame Instance ω) :=
  match result with
  | .ok (v, frame) => .ok (v, ⟨wrap frame.storage, frame.world⟩)
  | .error e => .error e

/-- Run the function of `inst` that `call` names. -/
def dispatch (p : Platform) (host : Host ω) (env : Env) (call : Call) :
    Instance → ω → Except InvokeError (Val × Frame Instance ω)
  | .security t s, world =>
      asInstance (.security t) (entryPoint (onStorage (Security.call env call)) ⟨s, world⟩)
  | .verification t s, world =>
      asInstance (.verification t) (entryPoint (Verification.call p host t env call) ⟨s, world⟩)
  | .handler t s, world =>
      asInstance (.handler t) (entryPoint (Handler.call p host t env call) ⟨s, world⟩)
  | .projectRoot s, world =>
      asInstance .projectRoot (entryPoint (ProjectRoot.call host env call) ⟨s, world⟩)
  | .foreign f, world =>
      match (f.code env f.memory call).run host world with
      | .ok (v, memory, world') => .ok (v, ⟨.foreign { f with memory := memory }, world'⟩)
      | .error e => .error e

namespace Instance

/-- The instances that a deployment creates. -/
def Deployed : Instance → Prop
  | security _ s => Security.Deployed s
  | verification _ s => ∃ wasm admin securityContract,
      s = Verification.construct wasm admin securityContract
  | handler _ s => Handler.Deployed s
  | projectRoot s => ∃ wasm admin securityContract verificationContract repo type,
      s = ProjectRoot.construct wasm admin securityContract verificationContract repo type
  | foreign _ => True

/-- One invocation that the instance answers with a value, whatever the other
contracts do meanwhile. -/
def Executes (p : Platform) (inst : Instance) (inv : Invocation) (inst' : Instance) : Prop :=
  ∃ (ω : Type) (host : Host ω) (world world' : ω) (v : Val),
    dispatch p host inv.env inv.call inst world = .ok (v, ⟨inst', world'⟩)

/-- The base entries, for a contract of WarpDrive. -/
def base? : Instance → Option Base
  | security _ s => some s.base
  | verification _ s => some s.base
  | handler _ s => some s.base
  | projectRoot s => some s.base
  | foreign _ => none

end Instance

/-! ## Invocations -/

/-- The contracts, and the invocations that took effect so far. -/
structure World where
  contracts : Address → Option Instance
  journal : List Invocation

def World.commit (w : World) (a : Address) (inst : Instance) (inv : Invocation) : World where
  contracts := Function.update w.contracts a (some inst)
  journal := w.journal ++ [inv]

@[simp] theorem World.commit_journal (w : World) (a : Address) (inst : Instance)
    (inv : Invocation) : (w.commit a inst inv).journal = w.journal ++ [inv] :=
  rfl

@[simp] theorem World.commit_contracts_self (w : World) (a : Address) (inst : Instance)
    (inv : Invocation) : (w.commit a inst inv).contracts a = some inst :=
  Function.update_self ..

theorem World.commit_contracts_of_ne {w : World} {a b : Address} {inst : Instance}
    {inv : Invocation} (h : b ≠ a) : (w.commit a inst inv).contracts b = w.contracts b :=
  Function.update_of_ne h ..

/-- Different contracts are at different addresses. -/
theorem World.ne_of_contracts {w : World} {a b : Address} {inst inst' : Instance}
    (ha : w.contracts a = some inst) (hb : w.contracts b = some inst') (h : inst ≠ inst') :
    a ≠ b := by
  rintro rfl
  exact h (Option.some.inj (ha.symm.trans hb))

/-- What a transaction brings: the ledger it is in, and who signed for which call. -/
structure Transaction where
  ledger : ℕ
  signed : Address → Address → Call → Bool

/-- The environment of a call, below the contracts on the stack. -/
def Transaction.env (tx : Transaction) (stack : List Address) (target : Address) (call : Call) :
    Env where
  self := target
  invoker := stack.head?
  ledger := tx.ledger
  signed := fun a => tx.signed a target call

/-- The host invokes `call` on `target`.  `depth` bounds the frames below; the call
stack lists the contracts above, innermost first. -/
def invoke (p : Platform) (tx : Transaction) : ℕ → List Address → Address → Call → World →
    Reply × World
  | 0, _, _, _, w => (.error .abort, w)
  | depth + 1, stack, target, call, w =>
      if target ∈ stack then (.error .abort, w)
      else
        match w.contracts target with
        | none => (.error .abort, w)
        | some inst =>
            let env := tx.env stack target call
            let host : Host World := ⟨fun a c w => invoke p tx depth (target :: stack) a c w⟩
            match dispatch p host env call inst w with
            | .ok (v, frame) => (.ok v, frame.world.commit target frame.storage ⟨env, call⟩)
            | .error e => (.error e, w)

/-- The host that a contract sees which runs above `stack`. -/
def hostBelow (p : Platform) (tx : Transaction) (depth : ℕ) (stack : List Address) :
    Host World :=
  ⟨fun a c w => invoke p tx depth stack a c w⟩

/-! ## Runs -/

/-- The host's limit on nested calls. -/
def depthLimit : ℕ := 100

inductive Operation where
  | deploy (a : Address) (inst : Instance)
  | transact (tx : Transaction) (target : Address) (call : Call)

/-- The composed system at a ledger. -/
structure System where
  world : World
  ledger : ℕ

/-- One operation: a deployment to a fresh address, or a transaction. -/
inductive Step (p : Platform) : System → Operation → System → Prop
  | deploy (sys : System) (a : Address) (inst : Instance) (hfresh : sys.world.contracts a = none)
      (hdeployed : inst.Deployed) :
      Step p sys (.deploy a inst) { sys with
        world := { sys.world with
          contracts := Function.update sys.world.contracts a (some inst) } }
  | transact (sys : System) (tx : Transaction) (target : Address) (call : Call)
      (hledger : sys.ledger ≤ tx.ledger) :
      Step p sys (.transact tx target call)
        ⟨(invoke p tx depthLimit [] target call sys.world).2, tx.ledger⟩

/-- Nothing is deployed yet. -/
def Genesis (sys : System) : Prop :=
  sys = ⟨⟨fun _ => none, []⟩, 0⟩

/-- The systems that operations lead to. -/
def Reachable (p : Platform) (sys : System) : Prop :=
  ∃ ops, Transition.Run Genesis (Step p) ops sys

end WarpDrive
