import WarpDrive.Library.Script
import WarpDrive.Deployer.Manifest

/-!
# The commands of the deployer

`deploy_pipeline` with the adoption of the downstream contracts at its end, and
`handover`, as scripts.  Their actions are the calls of the operating system and of the
RPC endpoint: reading and writing the manifest file, creating a contract, a query and a
transaction.
-/

namespace WarpDrive.Deployer

open Interaction

/-! ## Errors -/

inductive IoErrorKind where
  | notFound
  | invalidData
  | other
deriving DecidableEq, Repr

inductive SorobanHelperError where
  | notSupported (reason : String)
  | contractDeployedConfigsNotSet
  | transactionFailed (reason : String)
  | other (reason : String)
deriving DecidableEq, Repr

inductive DeployerError where
  | soroban (e : SorobanHelperError)
  | io (kind : IoErrorKind)
  | json
  | hex
  | config (reason : String)
  | identity (reason : String)
  | manifest (reason : String)
  | invalidArgument (reason : String)
  | http (reason : String)
deriving DecidableEq, Repr

/-- A signer that cannot satisfy an authorization will not do so the next time. -/
def SorobanHelperError.isRetryable : SorobanHelperError → Bool
  | notSupported _ => false
  | _ => true

def DeployerError.isRetryable : DeployerError → Bool
  | soroban e => e.isRetryable
  | http _ => true
  | _ => false

/-! ## Actions -/

/-- A contract to create: the wasm of a variant, with its constructor arguments. -/
inductive Deployment where
  | security (variant : Variant) (admin : Address) (numerator denominator : UInt64)
  | verification (variant : Variant) (admin security : Address)
  | projectRoot (admin security verification : Address) (repo : String)
      (verificationType : VerificationType)
deriving DecidableEq, Repr

inductive Action where
  /-- `std::fs::read` -/
  | read
  /-- `create_dir_all` of the parent directory -/
  | createDirAll
  /-- `File::create` of the temporary file -/
  | createTmp
  | writeAll (bytes : Bytes)
  | syncAll
  /-- The rename of the temporary file to the manifest. -/
  | rename
  /-- Upload the wasm and create the contract. -/
  | create (deployment : Deployment)
  /-- A simulation, for the value that the call returns. -/
  | query (target : Address) (call : Call)
  /-- A transaction signed by the deployer's account. -/
  | execute (target : Address) (call : Call)

/-- What an action comes back with: of a transaction that is its hash, if the response
carries one. -/
def Action.Response : Action → Type
  | read => Bytes
  | create _ => Option Address
  | query _ _ => Val
  | execute _ _ => Option String
  | _ => Unit

abbrev Command (α : Type) := Script Action Action.Response DeployerError α

def read : Command Bytes := Script.perform Action.read

def createDirAll : Command Unit := Script.perform Action.createDirAll

def createTmp : Command Unit := Script.perform Action.createTmp

def writeAll (bytes : Bytes) : Command Unit := Script.perform (Action.writeAll bytes)

def syncAll : Command Unit := Script.perform Action.syncAll

def rename : Command Unit := Script.perform Action.rename

def create (deployment : Deployment) : Command (Option Address) :=
  Script.perform (Action.create deployment)

def query (target : Address) (call : Call) : Command Val :=
  Script.perform (Action.query target call)

def execute (target : Address) (call : Call) : Command (Option String) :=
  Script.perform (Action.execute target call)

/-! ## Retries -/

structure RetryConfig where
  maxRetries : ℕ

/-- Run `op` until it succeeds, its error is permanent, or there have been
`max_retries` attempts; there is always one. -/
def retry {α : Type} (cfg : RetryConfig) (op : Command α) : Command α :=
  op.retry DeployerError.isRetryable (cfg.maxRetries - 1)

/-! ## The manifest file -/

section Files

variable (texts : Texts)

def load : Command StellarDeployManifest := do
  let bytes ← read
  match texts.fromSlice bytes with
  | some m => pure m
  | none => .fail (.io .invalidData)

/-- A file that is missing is no manifest; one that does not parse is an error. -/
def loadIfExists : Command (Option StellarDeployManifest) :=
  Script.tryCatch (do let m ← load texts; pure (some m)) fun e =>
    if e = .io .notFound then pure none else .fail e

/-- Write a sibling temporary file, then rename it. -/
def persist (m : StellarDeployManifest) : Command Unit := do
  createDirAll
  createTmp
  writeAll (texts.toStringPretty m)
  writeAll [10]
  syncAll
  rename

end Files

/-! ## The manifest's contracts -/

def requireProjectRoot (m : StellarDeployManifest) : Except DeployerError Address :=
  match m.projectRoot with
  | some id => .ok id
  | none => .error (.manifest "project_root contract not present in manifest")

def requireSecurity (m : StellarDeployManifest) : Except DeployerError Address :=
  match m.security with
  | some id => .ok id
  | none => .error (.manifest
      (m.variant.display ++ " security contract not present in manifest"))

def requireVerification (m : StellarDeployManifest) : Except DeployerError Address :=
  match m.verification with
  | some id => .ok id
  | none => .error (.manifest
      (m.variant.display ++ " verification contract not present in manifest"))

def requireHandler (m : StellarDeployManifest) : Except DeployerError Address :=
  match m.handler with
  | some id => .ok id
  | none => .error (.manifest (m.variant.display ++
      " handler contract not present in manifest; run `deploy-handler` first"))

/-- A governed contract addressable by the handover subcommands. -/
inductive Target where
  | security
  | verification
  | handler
  | projectRoot
deriving DecidableEq, Repr

/-- Resolve the contract ID for `target` from the manifest. -/
def targetId (m : StellarDeployManifest) : Target → Except DeployerError Address
  | .security => requireSecurity m
  | .verification => requireVerification m
  | .handler => requireHandler m
  | .projectRoot => requireProjectRoot m

/-- The `?` operator. -/
def propagate {α : Type} : Except DeployerError α → Command α
  | .ok a => pure a
  | .error e => .fail e

/-- A client for the target: here, its contract ID. -/
def build (m : StellarDeployManifest) (target : Target) : Command Address :=
  propagate (targetId m target)

def admin (id : Address) : Command Address := do
  match ← query id .admin with
  | .address a => pure a
  | _ => .fail (.soroban (.other "unexpected"))

def pendingAdmin (id : Address) : Command (Option Address) := do
  match ← query id .pendingAdmin with
  | .optAddress a => pure a
  | _ => .fail (.soroban (.other "unexpected"))

/-! ## Governance -/

section Governance

variable (texts : Texts) (m : StellarDeployManifest) (cfg : RetryConfig)

/-- `propose-admin`; the address is checked before any network call. -/
def proposeAdmin (target : Target) (newAdmin : String) : Command Unit :=
  match texts.toAddress? newAdmin with
  | none => .fail (.invalidArgument "invalid --new-admin address")
  | some address => retry cfg do
      let id ← build m target
      let _ ← execute id (.proposeAdmin address)

/-- A confirmed submission always carries a hash. -/
def txHash : Option String → Command String
  | some hash => pure hash
  | none => .fail (.soroban
      (.transactionFailed "submitted transaction response carried no tx hash"))

/-- `accept-contract-admin`: project_root accepts the admin of a downstream contract on
its own behalf. -/
def acceptContractAdmin (target : Target) : Command String := do
  let downstream ←
    (if target = .projectRoot then
      .fail (.invalidArgument
        "accept-contract-admin target must be security, verification or handler")
    else build m target)
  let projectRoot ← propagate (requireProjectRoot m)
  let resp ← retry cfg (execute projectRoot (.acceptContractAdmin downstream))
  txHash resp

/-- One turn of the loop of `adopt_downstreams`. -/
def adopt (projectRoot : Address) (target : Target) : Command Unit := do
  let current ← admin (← build m target)
  if current = projectRoot then pure ()
  else do
    let pending ← pendingAdmin (← build m target)
    (if pending = some projectRoot then pure ()
      else proposeAdmin texts m cfg target (texts.ofAddress projectRoot))
    let _ ← acceptContractAdmin m cfg target

/-- Rotate the admin of the security and verification contracts to project_root. -/
def adoptDownstreams : Command Unit := do
  let projectRoot ← propagate (requireProjectRoot m)
  Script.forEach (adopt texts m cfg projectRoot) [.security, .verification]

/-- Propose the owner as the admin of project_root, unless that has been done. -/
def handover (owner : String) : Command Unit :=
  match texts.toAddress? owner with
  | none => .fail (.invalidArgument "invalid --owner address")
  | some ownerAddr => do
      let prAdmin ← admin (← build m .projectRoot)
      if prAdmin = ownerAddr then pure ()
      else do
        let prPending ← pendingAdmin (← build m .projectRoot)
        if prPending = some ownerAddr then pure ()
        else proposeAdmin texts m cfg .projectRoot owner

end Governance

/-- The subcommand `handover`: it works on the manifest that is on disk, returned here. -/
def runHandover (texts : Texts) (cfg : RetryConfig) (owner : String) :
    Command StellarDeployManifest := do
  let manifest ← load texts
  handover texts manifest cfg owner
  pure manifest

/-! ## The deploy pipeline -/

/-- The network coordinates that the manifest records. -/
structure NetworkConfig where
  rpcUrl : String
  networkPassphrase : String

/-- The manifest with the coordinates of the network. -/
def StellarDeployManifest.onNetwork (m : StellarDeployManifest) (net : NetworkConfig) :
    StellarDeployManifest :=
  { m with
    rpcUrl := some net.rpcUrl
    networkPassphrase := some net.networkPassphrase }

structure DeployParams where
  variant : Variant
  projectSpecRepo : String
  threshold : UInt64 × UInt64
  verificationType : VerificationType

section Pipeline

variable (texts : Texts) (net : NetworkConfig) (account : Address) (params : DeployParams)
  (manifestPath : String) (cfg : RetryConfig)

/-- Deploy one contract, and retry the whole upload and creation. -/
def deployOne (deployment : Deployment) : Command Address := do
  match ← retry cfg (create deployment) with
  | some id => pure id
  | none => .fail (.soroban .contractDeployedConfigsNotSet)

/-- The manifest to go on with: the one on disk, if it is of this variant and this
admin, or a new one. -/
def resume : Command StellarDeployManifest := do
  match ← loadIfExists texts with
  | none => pure (.new (texts.ofAddress account) params.variant)
  | some existing =>
      if existing.variant ≠ params.variant then
        .fail (.manifest ("existing manifest at " ++ manifestPath ++ " is a `" ++
          existing.variant.display ++ "` deploy; refusing to deploy `" ++
          params.variant.display ++ "` into it"))
      else if existing.admin ≠ texts.ofAddress account then
        .fail (.manifest ("existing partial deploy with admin " ++ existing.admin ++
          "; refusing to resume with different admin " ++ texts.ofAddress account))
      else pure existing

/-- Step 1. -/
def deploySecurity (manifest : StellarDeployManifest) :
    Command (StellarDeployManifest × Address) :=
  match manifest.security with
  | some id => pure (manifest, id)
  | none => do
      let id ← deployOne cfg
        (.security params.variant account params.threshold.1 params.threshold.2)
      persist texts (manifest.setSecurity id)
      pure (manifest.setSecurity id, id)

/-- Step 2. -/
def deployVerification (manifest : StellarDeployManifest) (securityId : Address) :
    Command (StellarDeployManifest × Address) :=
  match manifest.verification with
  | some id => pure (manifest, id)
  | none => do
      let id ← deployOne cfg (.verification params.variant account securityId)
      persist texts (manifest.setVerification id)
      pure (manifest.setVerification id, id)

/-- Step 3. -/
def deployProjectRoot (manifest : StellarDeployManifest) (securityId verificationId : Address) :
    Command StellarDeployManifest :=
  match manifest.projectRoot with
  | some _ => pure manifest
  | none => do
      let id ← deployOne cfg (.projectRoot account securityId verificationId
        params.projectSpecRepo params.verificationType)
      persist texts (manifest.setProjectRoot id)
      pure (manifest.setProjectRoot id)

/-- Steps 1 to 3: every slot of the pipeline is filled. -/
def deployContracts : Command StellarDeployManifest := do
  let manifest ← resume texts account params manifestPath
  let (manifest, securityId) ←
    deploySecurity texts account params cfg (manifest.onNetwork net)
  let (manifest, verificationId) ← deployVerification texts account params cfg manifest securityId
  deployProjectRoot texts account params cfg manifest securityId verificationId

/-- The idempotent deploy, with step 4 at its end. -/
def deployPipeline : Command StellarDeployManifest := do
  let manifest ← deployContracts texts net account params manifestPath cfg
  adoptDownstreams texts manifest cfg
  pure manifest

end Pipeline

end WarpDrive.Deployer
