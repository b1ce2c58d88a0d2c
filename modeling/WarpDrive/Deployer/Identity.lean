import Mathlib.Data.Nat.Bitwise
import WarpDrive.Deployer.Signers

/-!
# The identity of the deployer

`keygen` ensures that the keyfile holds a funded identity, and the other commands read it
there.  A keyfile that is valid is used as it is; otherwise a fresh secret is written to
it, in place, and then friendbot is asked for funds.

The commands are scripts of what they ask of the operating system and of the network.
Sleeping is left out.
-/

namespace WarpDrive.Deployer.Identity

open Interaction

/-! ## Texts -/

/-- The bytes of a text. -/
def toUtf8 (text : String) : Bytes :=
  text.toByteArray.data.toList

/-- The text of bytes, if they are valid UTF-8. -/
def fromUtf8? (bytes : Bytes) : Option String :=
  String.fromUTF8? ⟨bytes.toArray⟩

theorem fromUtf8?_toUtf8 (text : String) : fromUtf8? (toUtf8 text) = some text := by
  have hbytes : (⟨(toUtf8 text).toArray⟩ : ByteArray) = text.toByteArray := rfl
  rw [fromUtf8?, hbytes, String.fromUTF8?, dif_pos text.isValidUTF8]
  rfl

theorem toUtf8_append (text text' : String) :
    toUtf8 (text ++ text') = toUtf8 text ++ toUtf8 text' := by
  simp [toUtf8, String.toByteArray_append]

/-- `str::trim`, of a text. -/
def trimText (text : String) : String :=
  String.ofList (trim text.toList)

/-- Secrets as texts, `S…`, and the accounts that they open. -/
structure Strkeys where
  display : BytesN 32 → String
  /-- `PrivateKey::from_string`, with the error as it is shown -/
  fromString : String → Except String (BytesN 32)
  /-- the address of the account with this key, `G…` -/
  address : BytesN 32 → String
  fromString_display : ∀ key, fromString (display key) = .ok key
  display_ne : ∀ key, display key ≠ ""
  display_plain : ∀ key, ∀ c ∈ (display key).toList, isWhitespace c = false

theorem trimText_line {text : String} (htext : ∀ c ∈ text.toList, isWhitespace c = false) :
    trimText (text ++ "\n") = text ∧ trimText text = text := by
  have htrim : ∀ after : List Char, (∀ c ∈ after, isWhitespace c = true) →
      trim (text.toList ++ after) = text.toList := by
    intro after hafter
    exact @trim_append [] text.toList after nofun hafter htext
  constructor
  · have hnewline : ∀ c ∈ "\n".toList, isWhitespace c = true := List.all_eq_true.mp rfl
    rw [trimText, String.toList_append, htrim _ hnewline, String.ofList_toList]
  · have hwhole := htrim [] nofun
    rw [List.append_nil] at hwhole
    rw [trimText, hwhole, String.ofList_toList]

/-! ## Actions -/

inductive KeyAction where
  /-- `std::fs::read_to_string` -/
  | readToString (path : String)
  /-- `create_dir_all` of the parent directory -/
  | createDirAll (path : String)
  /-- open with `write`, `create` and `truncate`, and mode 600 for a new file -/
  | openFile (path : String)
  | writeAll (path : String) (bytes : Bytes)
  /-- 32 bytes of the random generator -/
  | fillBytes
  | var (name : String)
  | pathExists (path : String)
  /-- `get_account`, for an account that exists -/
  | getAccount (address : String)
  /-- the friendbot of the network -/
  | friendbotUrl
  /-- the GET of `friendbot_url?addr=address` -/
  | fund (url address : String)

/-- The status of a HTTP response, with the text that is shown for it. -/
structure HttpStatus where
  code : ℕ
  text : String
deriving DecidableEq, Repr

def HttpStatus.isSuccess (status : HttpStatus) : Bool :=
  200 ≤ status.code && status.code < 300

def KeyAction.Response : KeyAction → Type
  | readToString _ => String
  | fillBytes => BytesN 32
  | var _ => Option String
  | pathExists _ => Bool
  | friendbotUrl => String
  | fund _ _ => HttpStatus
  | _ => Unit

abbrev KeyCommand (α : Type) := Script KeyAction KeyAction.Response DeployerError α

def readToString (path : String) : KeyCommand String :=
  Script.perform (KeyAction.readToString path)

def makeParent (path : String) : KeyCommand Unit :=
  Script.perform (KeyAction.createDirAll path)

def openFile (path : String) : KeyCommand Unit :=
  Script.perform (KeyAction.openFile path)

def writeFile (path : String) (bytes : Bytes) : KeyCommand Unit :=
  Script.perform (KeyAction.writeAll path bytes)

def fillBytes : KeyCommand (BytesN 32) := Script.perform KeyAction.fillBytes

def var (name : String) : KeyCommand (Option String) := Script.perform (KeyAction.var name)

def pathExists (path : String) : KeyCommand Bool := Script.perform (KeyAction.pathExists path)

def getAccount (address : String) : KeyCommand Unit :=
  Script.perform (KeyAction.getAccount address)

def friendbotUrl : KeyCommand String := Script.perform KeyAction.friendbotUrl

def fund (url address : String) : KeyCommand HttpStatus :=
  Script.perform (KeyAction.fund url address)

/-! ## Secrets -/

def deployerSecretEnv : String := "DEPLOYER_SECRET"

def defaultKeyFile : String := "/out/.keys/deployer.secret"

/-- Read a trimmed secret from a keyfile. -/
def readKeyFile (path : String) : KeyCommand String := do
  let raw ← readToString path
  if trimText raw = "" then .fail (.identity ("keyfile " ++ path ++ " is empty"))
  else pure (trimText raw)

/-- Write a secret to a keyfile, which is truncated first. -/
def writeKeyFile (path secret : String) : KeyCommand Unit := do
  makeParent path
  openFile path
  writeFile path (toUtf8 secret)
  writeFile path [10]

/-- `resolve_secret`: `--secret`, `--secret-file`, `DEPLOYER_SECRET`, the default keyfile. -/
def resolveSecret (secretFlag secretFileFlag : Option String) : KeyCommand String :=
  match secretFlag, secretFileFlag with
  | some s, _ => pure (trimText s)
  | none, some path => readKeyFile path
  | none, none => do
      let s := trimText ((← var deployerSecretEnv).getD "")
      if s ≠ "" then pure s
      else if ← pathExists defaultKeyFile then readKeyFile defaultKeyFile
      else .fail (.identity ("no deployer secret found: pass --secret/--secret-file, set " ++
        deployerSecretEnv ++ ", or run `keygen` to create " ++ defaultKeyFile))

section Keygen

variable (keys : Strkeys)

/-- The key of an account that is opened by a secret. -/
def accountFromSecret (secret : String) : Except DeployerError (BytesN 32) :=
  match keys.fromString (trimText secret) with
  | .ok key => .ok key
  | .error e => .error (.identity ("not a valid Stellar secret (S...): " ++ e))

/-- The `?` operator. -/
def orFail {α : Type} : Except DeployerError α → KeyCommand α
  | .ok a => pure a
  | .error e => .fail e

def resolveAccount (secretFlag secretFileFlag : Option String) : KeyCommand (BytesN 32) := do
  let secret ← resolveSecret secretFlag secretFileFlag
  orFail (accountFromSecret keys secret)

/-! ## keygen -/

def generateSecret : KeyCommand String := do
  let bytes ← fillBytes
  pure (keys.display bytes)

/-- The secret, if it opens an account. -/
def validSecret? (existing : String) : Option String :=
  match accountFromSecret keys existing with
  | .ok _ => some existing
  | .error _ => none

/-- The secret of a keyfile that is valid. -/
def existingSecret (keyFile : String) : KeyCommand (Option String) :=
  Script.tryCatch (do
    let existing ← readKeyFile keyFile
    pure (validSecret? keys existing)) fun _ => pure none

/-- Reuse an existing valid keyfile; otherwise mint a new secret. -/
def reuseOrMint (keyFile : String) : KeyCommand String := do
  match ← existingSecret keys keyFile with
  | some existing => pure existing
  | none => do
      let fresh ← generateSecret keys
      writeKeyFile keyFile fresh
      pure fresh

/-- Whether the account is visible to the RPC. -/
def accountVisible (address : String) : KeyCommand Bool :=
  Script.tryCatch (do getAccount address; pure true) fun _ => pure false

def friendbotMessage (code : ℕ) : String :=
  match code with
  | 400 => "Invalid account address or account already funded"
  | 404 => "Account does not exist"
  | 500 => "Server-side error: try again later"
  | _ => "Unknown"

def fundViaFriendbot (url address : String) (cfg : RetryConfig) : KeyCommand Unit :=
  Script.retry DeployerError.isRetryable (do
    let status ← fund url address
    if status.isSuccess then pure ()
    else .fail (.http ("friendbot returned status " ++ status.text ++ ": " ++
      friendbotMessage status.code))) (cfg.maxRetries - 1)

/-- Look for the account, up to `attempts` times. -/
def waitForAccount (address : String) : (attempts : ℕ) → KeyCommand Unit
  | 0 => .fail (.http ("account " ++ address ++ " did not become visible within 60s"))
  | attempts + 1 => do
      if ← accountVisible address then pure ()
      else waitForAccount address attempts

/-- `keygen_and_fund` -/
def keygenAndFund (friendbot : Option String) (keyFile : String) (cfg : RetryConfig) :
    KeyCommand String := do
  let secret ← reuseOrMint keys keyFile
  let account ← orFail (accountFromSecret keys secret)
  let address := keys.address account
  if ← accountVisible address then pure address
  else do
    let url ←
      match friendbot with
      | some url => pure url
      | none => friendbotUrl
    fundViaFriendbot url address cfg
    waitForAccount address 30
    pure address

end Keygen

/-! ## Machines -/

structure KeyFile where
  content : Bytes
  mode : ℕ
deriving DecidableEq, Repr

/-- The machine of the deployer, and the network.  `requests` are the addresses that
friendbot was asked to fund. -/
structure Machine where
  files : String → Option KeyFile
  umask : ℕ
  vars : String → Option String
  accounts : List String
  requests : List String

namespace Machine

def setFile (s : Machine) (path : String) (f : KeyFile) : Machine :=
  { s with files := Function.update s.files path (some f) }

/-- The file after it was opened: a new file gets mode 600, less what the umask takes. -/
def opened (s : Machine) (path : String) : KeyFile where
  content := []
  mode := ((s.files path).map KeyFile.mode).getD (Nat.ldiff 0o600 s.umask)

end Machine

/-- What may go wrong: actions fail or their answers are lost; a keyfile that exists cannot
be read; others have accounts funded meanwhile. -/
structure KeyCircumstances where
  mishaps : Prop
  unreadable : Prop
  crowded : Prop

namespace KeyAction

/-- One action, its answer and the machine after it. -/
def Performs (s : Machine) : (i : KeyAction) → Except DeployerError i.Response → Machine → Prop
  | readToString path, r, s' => s' = s ∧
      match s.files path with
      | some f =>
          match fromUtf8? f.content with
          | some text => r = .ok text
          | none => r = .error (.io .invalidData)
      | none => r = .error (.io .notFound)
  | createDirAll _, r, s' => s' = s ∧ r = .ok ()
  | openFile path, r, s' => s' = s.setFile path (s.opened path) ∧ r = .ok ()
  | writeAll path bytes, r, s' =>
      match s.files path with
      | some f => s' = s.setFile path { f with content := f.content ++ bytes } ∧ r = .ok ()
      | none => s' = s ∧ r = .error (.io .other)
  | fillBytes, r, s' => s' = s ∧ ∃ bytes, r = .ok bytes
  | var name, r, s' => s' = s ∧ r = .ok (s.vars name)
  | pathExists path, r, s' => s' = s ∧ r = .ok (s.files path).isSome
  | getAccount address, r, s' => s' = s ∧
      if address ∈ s.accounts then r = .ok () else ∃ e, r = .error e
  | friendbotUrl, r, s' => s' = s ∧ ∃ url, r = .ok url
  | fund _ address, r, s' =>
      if address ∈ s.accounts then
        s' = { s with requests := s.requests ++ [address] } ∧ r = .ok ⟨400, "400 Bad Request"⟩
      else
        s' = { s with
          requests := s.requests ++ [address]
          accounts := s.accounts ++ [address] } ∧ r = .ok ⟨200, "200 OK"⟩

/-- What goes wrong now and then.  A write may be torn, and friendbot may answer anything. -/
inductive Mishap (s : Machine) : (i : KeyAction) → Except DeployerError i.Response → Machine → Prop
  | failed (i : KeyAction) (e : DeployerError) (hi : ∀ path, i ≠ readToString path) :
      Mishap s i (.error e) s
  | lost (i : KeyAction) (e : DeployerError) (hi : ∀ path, i ≠ readToString path)
      (r : Except DeployerError i.Response) (s' : Machine) (hperforms : Performs s i r s') :
      Mishap s i (.error e) s'
  | torn (path : String) (bytes : Bytes) (n : ℕ) (f : KeyFile) (e : DeployerError)
      (hfile : s.files path = some f) : Mishap s (writeAll path bytes) (.error e)
        (s.setFile path { f with content := f.content ++ bytes.take n })
  | answered (url address : String) (status : HttpStatus) : Mishap s (fund url address)
      (.ok status) { s with requests := s.requests ++ [address] }

/-- A read fails though the file is there. -/
inductive Unreadable (s : Machine) :
    (i : KeyAction) → Except DeployerError i.Response → Machine → Prop
  | mk (path : String) (e : DeployerError) : Unreadable s (readToString path) (.error e) s

end KeyAction

/-- Others leave the files alone.  They may create accounts. -/
structure LeavesFiles (crowded : Prop) (s s' : Machine) : Prop where
  files : s'.files = s.files
  vars : s'.vars = s.vars
  requests : s'.requests = s.requests
  accounts : s'.accounts = s.accounts ∨ crowded ∧ ∀ a ∈ s.accounts, a ∈ s'.accounts

def keySetting (c : KeyCircumstances) :
    Setting KeyAction KeyAction.Response DeployerError Machine where
  acts s i r s' := KeyAction.Performs s i r s' ∨ c.mishaps ∧ KeyAction.Mishap s i r s' ∨
    c.unreadable ∧ KeyAction.Unreadable s i r s'
  others := LeavesFiles c.crowded

end WarpDrive.Deployer.Identity
