import WarpDrive.Shared.Admin
import WarpDrive.Library.Transition
import WarpDrive.Shared.VecHistory

/-!
# The Security contracts

`Secp256k1Security` and `Ed25519Security` are one contract over two key widths,
so the model is one contract over a `VerificationType`.  Its registry is stored
three times: the list of all signers, a weight history for each signer and a
history of the total weight.  Every operation updates them by hand.

The first part is the storage module of the contracts, the second their
functions.  A query returns none where the source would panic.
-/

namespace WarpDrive.Security

open VecHistory

def historyCutoff : ℕ := 200

structure Threshold where
  numerator : UInt64
  denominator : UInt64
deriving DecidableEq, Repr

structure Storage (t : VerificationType) where
  base : Base
  threshold : Threshold
  allSigners : List t.PubKey
  signerWeightHist : t.PubKey → List (Entry UInt64)
  totalWeightHist : List (Entry UInt64)

abbrev Secp256k1Security := Storage .ethereum
abbrev Ed25519Security := Storage .stellar

variable {t : VerificationType} {ε α : Type}

/-- Code of the shared interface, on the base entries. -/
def onBase (m : Contract Base ε α) : Contract (Storage t) ε α :=
  zoom Storage.base (fun s b => { s with base := b }) m

/-! ## Storage -/

section Signers

variable {κ : Type} [LinearOrder κ]

/-- Insert `key` before the first greater entry, unless it is present. -/
def insertAllSigners (key : κ) : List κ → List κ
  | [] => [key]
  | existing :: rest =>
      match cmp key existing with
      | .lt => key :: existing :: rest
      | .eq => existing :: rest
      | .gt => existing :: insertAllSigners key rest

/-- Remove `key`, giving up at the first greater entry. -/
def removeAllSigners (key : κ) : List κ → List κ
  | [] => []
  | existing :: rest =>
      if existing = key then rest
      else if key < existing then existing :: rest
      else existing :: removeAllSigners key rest

end Signers

namespace Storage

def getTotalWeight (s : Storage t) : UInt64 :=
  latest s.totalWeightHist

def getSignerWeight (s : Storage t) (key : t.PubKey) : Option UInt64 :=
  let weight := latest (s.signerWeightHist key)
  if weight = 0 then none else some weight

def getSignerWeightAt (s : Storage t) (key : t.PubKey) (referenceBlock : ℕ) : Option UInt64 :=
  lookupAt (s.signerWeightHist key) referenceBlock

def getSignerWeights (s : Storage t) (keys : List t.PubKey) : List UInt64 :=
  keys.map fun key => (s.getSignerWeight key).getD 0

def getSignerWeightsAt (s : Storage t) (keys : List t.PubKey) (referenceBlock : ℕ) :
    Option (List UInt64) :=
  keys.mapM fun key => s.getSignerWeightAt key referenceBlock

def getTotalWeightAt (s : Storage t) (referenceBlock : ℕ) : Option UInt64 :=
  lookupAt s.totalWeightHist referenceBlock

/-- The signers that have a weight, with it. -/
def listSigners (s : Storage t) : List (t.PubKey × UInt64) :=
  s.allSigners.filterMap fun key => (s.getSignerWeight key).map fun weight => (key, weight)

/-- `vec_history::push` on the history of one signer. -/
def pushSignerWeight (ledger : ℕ) (key : t.PubKey) (weight : UInt64) (s : Storage t) :
    Storage t :=
  { s with
    signerWeightHist := Function.update s.signerWeightHist key
      (push historyCutoff ledger (s.signerWeightHist key) weight) }

/-- `vec_history::push` on the history of the total. -/
def pushTotalWeight (ledger : ℕ) (total : UInt64) (s : Storage t) : Storage t :=
  { s with totalWeightHist := push historyCutoff ledger s.totalWeightHist total }

def addSigner (env : Env) (key : t.PubKey) (weight : UInt64) : Contract (Storage t) ε Unit := do
  let s ← get
  -- if updating an existing signer, subtract the old weight first
  let total ← match s.getSignerWeight key with
    | some oldWeight => expect (checkedSub s.getTotalWeight oldWeight)
    | none => do
        modify fun s => { s with allSigners := insertAllSigners key s.allSigners }
        pure s.getTotalWeight
  let total ← expect (checkedAdd total weight)
  modify (pushSignerWeight env.ledger key weight)
  modify (pushTotalWeight env.ledger total)

def removeSigner (env : Env) (key : t.PubKey) : Contract (Storage t) ε Unit := do
  let s ← get
  match s.getSignerWeight key with
  | some oldWeight => do
      let newTotal ← expect (checkedSub s.getTotalWeight oldWeight)
      modify fun s => { s with allSigners := removeAllSigners key s.allSigners }
      modify (pushSignerWeight env.ledger key 0)
      modify (pushTotalWeight env.ledger newTotal)
  | none => pure ()

end Storage

/-! ## The contract -/

/-- The checks on a threshold, in the constructor and in `set_threshold`. -/
def checkThreshold (numerator denominator : UInt64) : Except SecurityError Unit :=
  if denominator = 0 then .error .zeroDenominator
  else if numerator = 0 then .error .zeroNumerator
  else if denominator < numerator then .error .numeratorExceedsDenominator
  else .ok ()

/-- `__constructor`, for a contract deployed with the code `wasm`. -/
def construct (t : VerificationType) (wasm : BytesN 32) (admin : Address)
    (thresholdNumerator thresholdDenominator : UInt64) : Except SecurityError (Storage t) := do
  checkThreshold thresholdNumerator thresholdDenominator
  return {
    base := .deployed wasm admin
    threshold := ⟨thresholdNumerator, thresholdDenominator⟩
    allSigners := []
    signerWeightHist := fun _ => []
    totalWeightHist := [] }

def addSigner (env : Env) (key : t.PubKey) (weight : UInt64) :
    Contract (Storage t) SecurityError Unit := do
  let s ← get
  requireAuth env s.base.admin
  rejectIf (weight = 0) .zeroWeight
  Storage.addSigner env key weight
  onBase (publish (.signerAdded key.toArray weight))

def removeSigner (env : Env) (key : t.PubKey) : Contract (Storage t) SecurityError Unit := do
  let s ← get
  requireAuth env s.base.admin
  Storage.removeSigner env key
  onBase (publish (.signerRemoved key.toArray))

def setThreshold (env : Env) (numerator denominator : UInt64) :
    Contract (Storage t) SecurityError Unit := do
  let s ← get
  requireAuth env s.base.admin
  propagate (checkThreshold numerator denominator)
  modify fun s => { s with threshold := ⟨numerator, denominator⟩ }
  onBase (publish (.thresholdSet numerator denominator))

/-- `(total as u128 * numerator as u128 / denominator as u128) as u64`.  The product
of two `u64` always fits; the division panics on zero. -/
def Threshold.required (threshold : Threshold) (total : UInt64) : Option UInt64 :=
  if threshold.denominator = 0 then none
  else some (.ofNat (total.toNat * threshold.numerator.toNat / threshold.denominator.toNat))

def requiredWeightAt (s : Storage t) (referenceBlock : ℕ) : Option UInt64 :=
  (s.getTotalWeightAt referenceBlock).bind s.threshold.required

def requiredWeight (s : Storage t) : Option UInt64 :=
  s.threshold.required s.getTotalWeight

/-- The exported functions, as a call reaches them. -/
def call (env : Env) : Call → Contract (Storage t) SecurityError Val
  | .addSigner key weight => do
      let key ← expect (BytesN.ofBytes? t.keyLength key)
      addSigner env key weight
      return .void
  | .removeSigner key => do
      let key ← expect (BytesN.ofBytes? t.keyLength key)
      removeSigner env key
      return .void
  | .setThreshold numerator denominator => do
      setThreshold env numerator denominator
      return .void
  | .getTotalWeight => view fun s => some (.u64 s.getTotalWeight)
  | .getSignerWeight key => do
      let key ← expect (BytesN.ofBytes? t.keyLength key)
      view fun s => some (.u64 ((s.getSignerWeight key).getD 0))
  | .getSignerWeightAt key referenceBlock => do
      let key ← expect (BytesN.ofBytes? t.keyLength key)
      view fun s => (s.getSignerWeightAt key referenceBlock).map .u64
  | .getSignerWeights keys => do
      let keys ← expect (bytesVec? t.keyLength keys)
      view fun s => some (.u64s (s.getSignerWeights keys))
  | .getSignerWeightsAt keys referenceBlock => do
      let keys ← expect (bytesVec? t.keyLength keys)
      view fun s => (s.getSignerWeightsAt keys referenceBlock).map .u64s
  | .getTotalWeightAt referenceBlock => view fun s => (s.getTotalWeightAt referenceBlock).map .u64
  | .requiredWeightAt referenceBlock => view fun s => (requiredWeightAt s referenceBlock).map .u64
  | .listSigners =>
      view fun s => some (.signers (s.listSigners.map fun info => (info.1.toArray, info.2)))
  | .thresholdNumerator => view fun s => some (.u64 s.threshold.numerator)
  | .thresholdDenominator => view fun s => some (.u64 s.threshold.denominator)
  | .requiredWeight => view fun s => (requiredWeight s).map .u64
  | call => onBase (warpDriveInterface env call)

/-! ## Runs -/

/-- The states a constructor leaves. -/
def Deployed (s : Storage t) : Prop :=
  ∃ wasm admin numerator denominator, construct t wasm admin numerator denominator = .ok s

/-- One invocation that the contract answers with a value.  A failed invocation
changes nothing, so it is not a step. -/
def Executes (s : Storage t) (inv : Invocation) (s' : Storage t) : Prop :=
  ∃ v, (call inv.env inv.call).run s = .ok (v, s')

/-- `s` is reached from a deployment by the invocations `J`, made at ledgers that
never decrease and end at or before `L`. -/
structure Reaches (J : List Invocation) (s : Storage t) (L : ℕ) : Prop where
  run : Transition.Run Deployed Executes J s
  inOrder : InOrder J
  upTo : ∀ inv ∈ J, inv.env.ledger ≤ L

/-- A run continued at later ledgers. -/
theorem Reaches.append {J J' : List Invocation} {s s' : Storage t} {L L' : ℕ}
    (h : Reaches J s L) (hpath : Transition.Path Executes s J' s') (hinOrder : InOrder J')
    (hlate : ∀ inv ∈ J', L ≤ inv.env.ledger) (hupTo : ∀ inv ∈ J', inv.env.ledger ≤ L')
    (hle : L ≤ L') : Reaches (J ++ J') s' L' where
  run := h.run.append hpath
  inOrder := List.pairwise_append.mpr ⟨h.inOrder, hinOrder, fun inv hinv inv' hinv' =>
    (h.upTo inv hinv).trans (hlate inv' hinv')⟩
  upTo inv hinv := (List.mem_append.mp hinv).elim
    (fun hinv => (h.upTo inv hinv).trans hle) (hupTo inv)

end WarpDrive.Security
