import WarpDrive.Shared.Admin

/-!
# ProjectRoot

The admin of a project's contracts.  Its forwarders pass admin-only calls on to
the registered Security contract, or to a target that `ensureOurContract`
accepts; `proxy` is the part they share.  Since the target sees ProjectRoot as
its direct invoker, what keeps a forwarder closed is the admin gate in `proxy`.
-/

namespace WarpDrive.ProjectRoot

structure Storage where
  base : Base
  securityContract : Address
  verificationContract : Address
  projectSpecRepo : String
  verificationType : VerificationType
  handlers : List Address
deriving DecidableEq, Repr

/-- What a forwarding target is to the project. -/
inductive ContractType where
  | security
  | verification
  | handler
deriving DecidableEq, Repr

variable {ω α ε σ : Type}

/-- Code of the shared interface, on the base entries. -/
def onBase (m : Contract Base ε α) : Contract (Frame Storage ω) ε α :=
  onStorage (zoom Storage.base (fun s b => { s with base := b }) m)

/-! ## Storage -/

/-- Registers `handler` unless it is present; true if it was added. -/
def addHandler (handler : Address) : Contract (Frame Storage ω) ε Bool := do
  let handlers := (← get).storage.handlers
  if handler ∈ handlers then return false
  onStorage (modify fun s => { s with handlers := handlers ++ [handler] })
  return true

/-- Removes `handler` if it is present; true if it was. -/
def removeHandler (handler : Address) : Contract (Frame Storage ω) ε Bool := do
  let handlers := (← get).storage.handlers
  if handler ∈ handlers then
    onStorage (modify fun s => { s with handlers := handlers.erase handler })
    return true
  return false

/-! ## Forwarding -/

/-- Maps a `try_invoke_contract` result into a `SecurityError`, re-raising what is
not one. -/
def mapSecurityResult : TryResult SecurityError Val → Contract σ SecurityError Val
  | .ok v => pure v
  | .conversionError => trap
  | .error e => fail e
  | .invokeError (.contract code) => panicWithError code
  | .invokeError .abort => trap

section Forwarders

variable (host : Host ω) (env : Env)

/-- The admin gate, the audit event and the cross-contract call. -/
def proxy (target : Address) (function : String) (call : Call) :
    Contract (Frame Storage ω) SecurityError Val := do
  requireAuth env (← get).storage.base.admin
  onBase (publish (.forwarded target function))
  let res ← tryInvoke host target call
  mapSecurityResult (.ofReply some res)

/-- The registered contracts always pass; any other target must report the
project's verification contract. -/
def ensureOurContract (target : Address) :
    Contract (Frame Storage ω) ProjectRootError ContractType := do
  let s := (← get).storage
  if target = s.verificationContract then return .verification
  if target = s.securityContract then return .security
  let returned ← tryInvoke host target .verificationContract
  if returned.toOption.bind Val.toAddress? = some s.verificationContract then return .handler
  fail .notOurContract

/-- The conversion of a `SecurityError` behind `?`. -/
def securityErrors (m : Contract (Frame Storage ω) SecurityError α) :
    Contract (Frame Storage ω) ProjectRootError α :=
  mapError (fun e => .error (.fromSecurityError e)) m

/-- `Result::unwrap`. -/
def unwrap (m : Contract (Frame Storage ω) SecurityError α) :
    Contract (Frame Storage ω) ProjectRootError α :=
  mapError (fun _ => .trap) m

/-- A call forwarded to the registered Security contract. -/
def toSecurity (function : String) (call : Call) :
    Contract (Frame Storage ω) SecurityError Unit := do
  let target := (← get).storage.securityContract
  let _ ← proxy host env target function call

def addSecp256k1Signer (key : CompressedSecpPubKey) (weight : UInt64) :
    Contract (Frame Storage ω) SecurityError Unit :=
  toSecurity host env "add_signer" (.addSigner key.toArray weight)

def removeSecp256k1Signer (key : CompressedSecpPubKey) :
    Contract (Frame Storage ω) ProjectRootError Unit :=
  unwrap (toSecurity host env "remove_signer" (.removeSigner key.toArray))

def addEd25519Signer (key : Ed25519PubKey) (weight : UInt64) :
    Contract (Frame Storage ω) SecurityError Unit :=
  toSecurity host env "add_signer" (.addSigner key.toArray weight)

def removeEd25519Signer (key : Ed25519PubKey) :
    Contract (Frame Storage ω) ProjectRootError Unit :=
  unwrap (toSecurity host env "remove_signer" (.removeSigner key.toArray))

def setThreshold (numerator denominator : UInt64) :
    Contract (Frame Storage ω) SecurityError Unit :=
  toSecurity host env "set_threshold" (.setThreshold numerator denominator)

/-- A call forwarded to a target of the project, with the kind of the target. -/
def toOurContract (target : Address) (function : String) (call : Call) :
    Contract (Frame Storage ω) ProjectRootError ContractType := do
  let ctype ← ensureOurContract host target
  let _ ← securityErrors (proxy host env target function call)
  return ctype

def upgradeContract (target : Address) (newWasmHash : BytesN 32) (newVersion : String) :
    Contract (Frame Storage ω) ProjectRootError Unit := do
  let _ ← toOurContract host env target "upgrade" (.upgrade newWasmHash newVersion)

def proposeContractAdmin (target newAdmin : Address) :
    Contract (Frame Storage ω) ProjectRootError Unit := do
  let _ ← toOurContract host env target "propose_admin" (.proposeAdmin newAdmin)

/-- Registers `handler` and announces it, unless it is tracked already. -/
def trackHandler (handler : Address) : Contract (Frame Storage ω) ProjectRootError Unit := do
  let added ← addHandler handler
  if added then onBase (publish (.handlerRegistered handler))

def acceptContractAdmin (target : Address) :
    Contract (Frame Storage ω) ProjectRootError Unit := do
  let ctype ← toOurContract host env target "accept_admin" .acceptAdmin
  if ctype = .handler then trackHandler target

def registerHandler (handler : Address) : Contract (Frame Storage ω) ProjectRootError Unit := do
  requireAuth env (← get).storage.base.admin
  let ctype ← ensureOurContract host handler
  rejectIf (ctype ≠ .handler) .notAHandler
  trackHandler handler

def unregisterHandler (handler : Address) : Contract (Frame Storage ω) ProjectRootError Unit := do
  requireAuth env (← get).storage.base.admin
  let removed ← removeHandler handler
  if removed then onBase (publish (.handlerRemoved handler))

def updateProjectSpecRepo (repo : String) : Contract (Frame Storage ω) ProjectRootError Unit := do
  requireAuth env (← get).storage.base.admin
  onStorage (modify fun s => { s with projectSpecRepo := repo })
  onBase (publish (.updatedSpecRepo repo))

/-- A function that returns no value. -/
def void (m : Contract (Frame Storage ω) ProjectRootError Unit) :
    Contract (Frame Storage ω) ProjectRootError Val := do
  m
  return .void

/-- The exported functions, as a call reaches them. -/
def call : Call → Contract (Frame Storage ω) ProjectRootError Val
  | .updateProjectSpecRepo repo => void (updateProjectSpecRepo env repo)
  | .securityContract => view fun frame => some (.address frame.storage.securityContract)
  | .verificationContract => view fun frame => some (.address frame.storage.verificationContract)
  | .projectSpecRepo => view fun frame => some (.string frame.storage.projectSpecRepo)
  | .verificationType => view fun frame => some (.verificationType frame.storage.verificationType)
  | .listHandlers => view fun frame => some (.addresses frame.storage.handlers)
  | .addSecp256k1Signer key weight => do
      let key ← expect (BytesN.ofBytes? 33 key)
      void (securityErrors (addSecp256k1Signer host env key weight))
  | .removeSecp256k1Signer key => do
      let key ← expect (BytesN.ofBytes? 33 key)
      void (removeSecp256k1Signer host env key)
  | .addEd25519Signer key weight => do
      let key ← expect (BytesN.ofBytes? 32 key)
      void (securityErrors (addEd25519Signer host env key weight))
  | .removeEd25519Signer key => do
      let key ← expect (BytesN.ofBytes? 32 key)
      void (removeEd25519Signer host env key)
  | .setThreshold numerator denominator =>
      void (securityErrors (setThreshold host env numerator denominator))
  | .upgradeContract target newWasmHash newVersion =>
      void (upgradeContract host env target newWasmHash newVersion)
  | .proposeContractAdmin target newAdmin => void (proposeContractAdmin host env target newAdmin)
  | .acceptContractAdmin target => void (acceptContractAdmin host env target)
  | .registerHandler handler => void (registerHandler host env handler)
  | .unregisterHandler handler => void (unregisterHandler env handler)
  | call => onBase (warpDriveInterface env call)

end Forwarders

/-- `__constructor`, for a contract deployed with the code `wasm`. -/
def construct (wasm : BytesN 32) (admin securityContract verificationContract : Address)
    (projectSpecRepo : String) (verificationType : VerificationType) : Storage where
  base := .deployed wasm admin
  securityContract := securityContract
  verificationContract := verificationContract
  projectSpecRepo := projectSpecRepo
  verificationType := verificationType
  handlers := []

end WarpDrive.ProjectRoot
