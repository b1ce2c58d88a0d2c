import WarpDrive.Client.ScVal
import WarpDrive.Library.Script
import WarpDrive.Library.Sequenced

/-!
# Sending a transaction

`query` and `execute` of the client, as scripts over the calls of an RPC endpoint.
`execute` simulates the transaction that it built, takes over the authorizations and the
footprint of the simulation, sets the fee, signs once, and then sends what it signed up
to three times.

`Endpoint` is what the client talks to: a network that numbers the transactions of an
account, and that others use too.
-/

namespace WarpDrive.Client.Utils

open Interaction Sequenced

/-! ## Transactions -/

/-- The errors of the functions here. -/
inductive SorobanHelperError where
  | notSupported (message : String)
  | transactionFailed (message : String)
  | transactionSimulationFailed (message : String)
  | invalidArgument (message : String)
  | xdrEncodingFailed (message : String)
  /-- What the endpoint or the signer report. -/
  | other (message : String)
deriving DecidableEq, Repr

/-- An authorization of the simulation, as its XDR. -/
structure SorobanAuthorizationEntry where
  xdr : Bytes
deriving DecidableEq, Repr

/-- The footprint of the simulation, as its XDR. -/
structure SorobanTransactionData where
  xdr : Bytes
deriving DecidableEq, Repr

inductive HostFunction where
  | invokeContract (contractId : Address) (functionName : String) (args : List ScVal)
  | other (xdr : Bytes)

inductive Operation where
  | invokeHostFunction (hostFunction : HostFunction) (auth : List SorobanAuthorizationEntry)
  | other (xdr : Bytes)

inductive TransactionExt where
  | v0
  | v1 (data : SorobanTransactionData)
deriving DecidableEq, Repr

structure Transaction where
  sourceAccount : Address
  fee : UInt32
  seqNum : ℕ
  operations : List Operation
  ext : TransactionExt

structure TransactionEnvelope where
  tx : Transaction
  signatures : List Bytes

/-- The network numbers the transactions of an account. -/
instance : Numbered TransactionEnvelope Address where
  sender envelope := envelope.tx.sourceAccount
  number envelope := envelope.tx.seqNum

/-- What a simulation says about one operation. -/
structure SimulateHostFunctionResult where
  auth : List SorobanAuthorizationEntry
  xdr : ScVal

structure SimulateTransactionResponse where
  error : Option String
  results : Option (List SimulateHostFunctionResult)
  transactionData : Except String SorobanTransactionData
  minResourceFee : UInt64

/-- A response, with the hash of the transaction if it carries one. -/
structure SorobanTransactionResponse where
  txHash : Option String
deriving DecidableEq, Repr

/-! ## Calls of the endpoint -/

inductive Rpc where
  /-- Build a transaction of one operation, with the account's next number. -/
  | build (contractId : Address) (functionName : String) (args : List ScVal)
  | simulate (envelope : TransactionEnvelope)
  | sign (tx : Transaction)
  | send (envelope : TransactionEnvelope)
  /-- The process ends. -/
  | panic

def Rpc.Response : Rpc → Type
  | build .. => Transaction
  | simulate _ => SimulateTransactionResponse
  | sign _ => TransactionEnvelope
  | send _ => SorobanTransactionResponse
  | panic => Empty

abbrev Session (α : Type) := Script Rpc Rpc.Response SorobanHelperError α

/-- The `?` operator. -/
def propagate {α : Type} : Except SorobanHelperError α → Session α
  | .ok a => pure a
  | .error e => .fail e

/-! ## The functions -/

/-- Default transaction fee in stroops. -/
def defaultTransactionFee : ℕ := 100

/-- `VecM::try_from`, for at most `max` items. -/
def vecMTryFrom {α : Type} (max : ℕ) (items : List α) (message : String) :
    Except SorobanHelperError (List α) :=
  if items.length ≤ max then .ok items else .error (.xdrEncodingFailed message)

/-- The loop of `attach_auth_from_simulation`, from result `resultIdx` on. -/
def attachAuth (simResults : List SimulateHostFunctionResult) :
    ℕ → List Operation → Except SorobanHelperError (List Operation)
  | _, [] => .ok []
  | resultIdx, .invokeHostFunction hostFunction _ :: ops =>
      match simResults[resultIdx]? with
      | none => .error (.transactionSimulationFailed
          "simulation result count does not match operations")
      | some result => do
          let auth ← vecMTryFrom u32Max result.auth "too many auth entries"
          let ops ← attachAuth simResults (resultIdx + 1) ops
          return .invokeHostFunction hostFunction auth :: ops
  | resultIdx, op :: ops => do
      let ops ← attachAuth simResults resultIdx ops
      return op :: ops

def attachAuthFromSimulation (tx : Transaction) (simResults : List SimulateHostFunctionResult) :
    Except SorobanHelperError Transaction := do
  let ops ← attachAuth simResults 0 tx.operations
  let operations ← vecMTryFrom 100 ops "too many operations"
  return { tx with operations := operations }

/-- The fee for a number of operations.  The sum is one of `u64`: where it overflows, a build
with overflow checks panics (none), and one without, such as a release build of the client,
wraps. -/
def updatedFee (overflowChecks : Bool) (operations : ℕ) (minResourceFee : UInt64) :
    Option (Except SorobanHelperError UInt32) :=
  let sum := operations * defaultTransactionFee + minResourceFee.toNat
  let fee := sum % 2 ^ 64
  if overflowChecks ∧ 2 ^ 64 ≤ sum then none
  else if 2 ^ 32 ≤ fee then some (.error (.invalidArgument "Transaction fee overflows u32"))
  else some (.ok (UInt32.ofNat (max defaultTransactionFee fee)))

section Functions

variable (contractId : Address) (functionName : String) (args : List ScVal)

def buildTx : Session Transaction :=
  Script.perform (Rpc.build contractId functionName args)

/-- A read-only simulation, for the value that the function returns. -/
def query : Session ScVal := do
  let tx ← buildTx contractId functionName args
  let simulation ← Script.perform (Rpc.simulate ⟨tx, []⟩)
  match simulation.error with
  | some err => .fail (.transactionSimulationFailed err)
  | none =>
      match (simulation.results.getD []).head? with
      | none => .fail (.transactionSimulationFailed "simulation returned no results")
      | some first => pure first.xdr

/-- The loop at the end of `execute`, with the turns that are left and the last result. -/
def sendLoop (signed : TransactionEnvelope) : ℕ →
    Except SorobanHelperError SorobanTransactionResponse → Session SorobanTransactionResponse
  | 0, res => propagate res
  | turns + 1, _ =>
      Script.tryCatch (Script.perform (Rpc.send signed)) fun e => sendLoop signed turns (.error e)

/-- Simulate to compute the fee, then sign and submit. -/
def execute (overflowChecks : Bool) : Session SorobanTransactionResponse := do
  let tx ← buildTx contractId functionName args
  let simulation ← Script.perform (Rpc.simulate ⟨tx, []⟩)
  match simulation.error with
  | some err => .fail (.transactionSimulationFailed err)
  | none => do
      let tx ← propagate (attachAuthFromSimulation tx (simulation.results.getD []))
      let txData ← propagate (simulation.transactionData.mapError fun e =>
        .transactionFailed ("Failed to get transaction data: " ++ e))
      match updatedFee overflowChecks tx.operations.length simulation.minResourceFee with
      | none => do
          let never ← Script.perform Rpc.panic
          nomatch never
      | some fee => do
          let fee ← propagate fee
          let signed ← Script.perform (Rpc.sign { tx with ext := .v1 txData, fee := fee })
          sendLoop signed 3 (.error (.notSupported "Placeholder"))

end Functions

/-! ## The endpoint -/

/-- The network, and what this client has handed to it. -/
structure Endpoint where
  network : Network TransactionEnvelope Address
  sent : List TransactionEnvelope

/-- A call of the endpoint, its answer and what it leaves.  Any call may come back with an
error.  A transaction that was sent is perhaps in flight afterwards, perhaps not; the
answer that it succeeded is given when it was delivered. -/
def Answers (account : Address) (n : Endpoint) :
    (i : Rpc) → Except SorobanHelperError i.Response → Endpoint → Prop
  | .build contractId functionName args, r, n' => n' = n ∧ ∀ tx, r = .ok tx →
      tx.sourceAccount = account ∧ tx.seqNum = n.network.last account + 1 ∧
        tx.operations = [.invokeHostFunction (.invokeContract contractId functionName args) []]
  | .simulate _, _, n' => n' = n
  | .sign tx, r, n' => n' = n ∧ ∀ signed, r = .ok signed → signed.tx = tx
  | .send envelope, r, n' => n'.sent = n.sent ++ [envelope] ∧
      (∃ network, (network = n.network ∨ network = n.network.submit envelope) ∧
        Relation.ReflTransGen Step network n'.network) ∧
        ∀ response, r = .ok response → envelope ∈ n'.network.delivered
  | .panic, _, _ => False

/-- The client of `account` at the endpoint.  Others submit what they like, and the network
delivers what is in flight. -/
def endpoint (account : Address) : Setting Rpc Rpc.Response SorobanHelperError Endpoint where
  acts := Answers account
  others n n' := n'.sent = n.sent ∧ Step n.network n'.network

end WarpDrive.Client.Utils
