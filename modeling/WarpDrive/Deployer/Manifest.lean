import Mathlib.Data.Countable.Basic
import Mathlib.Logic.Equiv.List
import WarpDrive.Interfaces

/-!
# The deployment manifest

`deploy.json`, the file in which the deployer records the contracts of one pipeline.
Empty slots are left out of the file, so a partial manifest is a manifest.

The text of an address and of a manifest comes from the libraries of the deployer;
`Texts` lists what it uses of them.
-/

namespace WarpDrive.Deployer

/-- Which signature pipeline a manifest file describes. -/
inductive Variant where
  | ethereum
  | stellar
deriving DecidableEq, Repr

def Variant.display : Variant → String
  | ethereum => "ethereum"
  | stellar => "stellar"

structure ManifestContracts where
  projectRoot : Option Address
  secp256k1Security : Option Address
  secp256k1Verification : Option Address
  ed25519Security : Option Address
  ed25519Verification : Option Address
  ethereumHandler : Option Address
  stellarHandler : Option Address
deriving DecidableEq, Repr

def ManifestContracts.default : ManifestContracts :=
  ⟨none, none, none, none, none, none, none⟩

/-- The slots of a pipeline, and no others. -/
def Variant.contracts (variant : Variant) (security verification projectRoot : Option Address) :
    ManifestContracts :=
  match variant with
  | ethereum => ⟨projectRoot, security, verification, none, none, none, none⟩
  | stellar => ⟨projectRoot, none, none, security, verification, none, none⟩

/-- A single deployed pipeline with its project_root. -/
structure StellarDeployManifest where
  admin : String
  rpcUrl : Option String
  networkPassphrase : Option String
  variant : Variant
  contracts : ManifestContracts
deriving DecidableEq, Repr

namespace StellarDeployManifest

/-- No contracts deployed yet. -/
def new (admin : String) (variant : Variant) : StellarDeployManifest where
  admin := admin
  rpcUrl := none
  networkPassphrase := none
  variant := variant
  contracts := .default

variable (m : StellarDeployManifest)

def projectRoot : Option Address :=
  m.contracts.projectRoot

/-- The security contract of this manifest's variant. -/
def security : Option Address :=
  match m.variant with
  | .ethereum => m.contracts.secp256k1Security
  | .stellar => m.contracts.ed25519Security

/-- The verification contract of this manifest's variant. -/
def verification : Option Address :=
  match m.variant with
  | .ethereum => m.contracts.secp256k1Verification
  | .stellar => m.contracts.ed25519Verification

/-- The handler contract of this manifest's variant. -/
def handler : Option Address :=
  match m.variant with
  | .ethereum => m.contracts.ethereumHandler
  | .stellar => m.contracts.stellarHandler

def setSecurity (id : Address) : StellarDeployManifest :=
  match m.variant with
  | .ethereum => { m with contracts := { m.contracts with secp256k1Security := some id } }
  | .stellar => { m with contracts := { m.contracts with ed25519Security := some id } }

def setVerification (id : Address) : StellarDeployManifest :=
  match m.variant with
  | .ethereum => { m with contracts := { m.contracts with secp256k1Verification := some id } }
  | .stellar => { m with contracts := { m.contracts with ed25519Verification := some id } }

/-- `manifest.contracts.project_root = Some(id)` -/
def setProjectRoot (id : Address) : StellarDeployManifest :=
  { m with contracts := { m.contracts with projectRoot := some id } }

/-! ## What a slot is after a write -/

section Slots

variable {m} {id : Address}

@[simp] theorem security_setSecurity : (m.setSecurity id).security = some id := by
  obtain ⟨_, _, _, variant, _⟩ := m
  cases variant <;> rfl

@[simp] theorem verification_setSecurity : (m.setSecurity id).verification = m.verification := by
  obtain ⟨_, _, _, variant, _⟩ := m
  cases variant <;> rfl

@[simp] theorem projectRoot_setSecurity : (m.setSecurity id).projectRoot = m.projectRoot := by
  obtain ⟨_, _, _, variant, _⟩ := m
  cases variant <;> rfl

@[simp] theorem security_setVerification : (m.setVerification id).security = m.security := by
  obtain ⟨_, _, _, variant, _⟩ := m
  cases variant <;> rfl

@[simp] theorem verification_setVerification :
    (m.setVerification id).verification = some id := by
  obtain ⟨_, _, _, variant, _⟩ := m
  cases variant <;> rfl

@[simp] theorem projectRoot_setVerification :
    (m.setVerification id).projectRoot = m.projectRoot := by
  obtain ⟨_, _, _, variant, _⟩ := m
  cases variant <;> rfl

@[simp] theorem projectRoot_setProjectRoot : (m.setProjectRoot id).projectRoot = some id :=
  rfl

/-- No write of a slot changes whose deploy the manifest is. -/
theorem admin_variant_set :
    ((m.setSecurity id).admin = m.admin ∧ (m.setSecurity id).variant = m.variant) ∧
      ((m.setVerification id).admin = m.admin ∧ (m.setVerification id).variant = m.variant) ∧
      (m.setProjectRoot id).admin = m.admin ∧ (m.setProjectRoot id).variant = m.variant := by
  obtain ⟨_, _, _, variant, _⟩ := m
  cases variant <;> exact ⟨⟨rfl, rfl⟩, ⟨rfl, rfl⟩, rfl, rfl⟩

end Slots

/-! ## The slots of a pipeline -/

/-- `a` is in one of the slots. -/
def Names (m : StellarDeployManifest) (a : Address) : Prop :=
  m.security = some a ∨ m.verification = some a ∨ m.projectRoot = some a

/-- No other slots are filled. -/
def Tidy (m : StellarDeployManifest) : Prop :=
  m.contracts = m.variant.contracts m.security m.verification m.projectRoot

theorem Tidy.set {m : StellarDeployManifest} (h : m.Tidy) (id : Address) :
    (m.setSecurity id).Tidy ∧ (m.setVerification id).Tidy ∧ (m.setProjectRoot id).Tidy := by
  obtain ⟨_, _, _, variant, contracts⟩ := m
  unfold Tidy at h
  cases variant with
  | ethereum =>
      simp only [Variant.contracts, security, verification, projectRoot] at h
      rw [h]
      exact ⟨rfl, rfl, rfl⟩
  | stellar =>
      simp only [Variant.contracts, security, verification, projectRoot] at h
      rw [h]
      exact ⟨rfl, rfl, rfl⟩

end StellarDeployManifest

/-- The texts of the deployer's libraries: that of an address, written by `to_string`
and read by `ScAddress::from_str`, and that of a manifest, written and read by
`serde_json`.  What is written is read back; the reader of a manifest ignores the
newline that the deployer puts at the end of the file. -/
structure Texts where
  ofAddress : Address → String
  toAddress? : String → Option Address
  toAddress?_ofAddress : ∀ a, toAddress? (ofAddress a) = some a
  toStringPretty : StellarDeployManifest → Bytes
  fromSlice : Bytes → Option StellarDeployManifest
  fromSlice_toStringPretty : ∀ m, fromSlice (toStringPretty m ++ [10]) = some m

/-! ## Texts of one deployment

The texts of an account, an owner and three contracts, and of the manifests in which these
are recorded one after the other.  They are those that the libraries write; all other
texts are of one letter, `!`. -/

namespace Fixture

def account : Address := ⟨1⟩

def owner : Address := ⟨2⟩

def security : Address := ⟨11⟩

def verification : Address := ⟨12⟩

def projectRoot : Address := ⟨13⟩

section Tables

variable {α : Type} [DecidableEq α]

/-- The texts of a table, and `other` ones for what is not in it. -/
def tabled (table : List (α × String)) (other : α → String) : α → String :=
  table.foldr (fun entry f => Function.update f entry.1 entry.2) other

theorem mem_tabled (table : List (α × String)) (other : α → String) (a : α) :
    tabled table other a = other a ∨ ∃ entry ∈ table, tabled table other a = entry.2 := by
  induction table with
  | nil => exact .inl rfl
  | cons entry table ih =>
      rw [tabled, List.foldr_cons]
      by_cases ha : a = entry.1
      · exact .inr ⟨entry, List.mem_cons_self, by rw [ha, Function.update_self]⟩
      · rw [Function.update_of_ne ha]
        obtain hother | ⟨entry', hmem, htext⟩ := ih
        · exact .inl hother
        · exact .inr ⟨entry', List.mem_cons_of_mem _ hmem, htext⟩

theorem tabled_injective {table : List (α × String)} {other : α → String}
    (hother : Function.Injective other) (hfresh : ∀ entry ∈ table, ∀ a, other a ≠ entry.2)
    (hdistinct : table.Pairwise fun entry entry' => entry.2 ≠ entry'.2) :
    Function.Injective (tabled table other) := by
  induction table with
  | nil => exact hother
  | cons entry table ih =>
      rw [List.pairwise_cons] at hdistinct
      have hinjective := ih (fun entry' hmem => hfresh entry' (List.mem_cons_of_mem _ hmem))
        hdistinct.2
      have hnew : ∀ a, tabled table other a ≠ entry.2 := by
        intro a ha
        obtain hold | ⟨entry', hmem, hold⟩ := mem_tabled table other a
        · exact hfresh entry List.mem_cons_self a (hold.symm.trans ha)
        · exact hdistinct.1 entry' hmem (ha.symm.trans hold)
      intro a b hab
      rw [tabled, List.foldr_cons, ← tabled] at hab
      by_cases ha : a = entry.1
      · by_cases hb : b = entry.1
        · rw [ha, hb]
        · rw [ha, Function.update_self, Function.update_of_ne hb] at hab
          exact absurd hab.symm (hnew b)
      · by_cases hb : b = entry.1
        · rw [hb, Function.update_self, Function.update_of_ne ha] at hab
          exact absurd hab (hnew a)
        · rw [Function.update_of_ne ha, Function.update_of_ne hb] at hab
          exact hinjective hab

/-- A text of the letter `!`. -/
def mark (n : ℕ) : String :=
  String.ofList (List.replicate (n + 1) '!')

theorem mark_injective : Function.Injective mark := by
  intro n n' h
  have hlength := congrArg List.length (String.ofList_injective h)
  simpa using hlength

theorem mark_ne {n : ℕ} {text : String} (h : text.toList.head? ≠ some '!') : mark n ≠ text := by
  rintro rfl
  rw [mark, String.toList_ofList] at h
  exact h rfl

end Tables

def addressTable : List (Address × String) :=
  [(account, "GAAAAAAAAAAAAAAAAAAAAAAAAAAAAAAAAAAAAAAAAAAAAAAAAAAAC6PV"),
    (owner, "GAAAAAAAAAAAAAAAAAAAAAAAAAAAAAAAAAAAAAAAAAAAAAAAAAAAEGWF"),
    (security, "CAAAAAAAAAAAAAAAAAAAAAAAAAAAAAAAAAAAAAAAAAAAAAAAAAAAXI7N"),
    (verification, "CAAAAAAAAAAAAAAAAAAAAAAAAAAAAAAAAAAAAAAAAAAAAAAAAAAAYRE5"),
    (projectRoot, "CAAAAAAAAAAAAAAAAAAAAAAAAAAAAAAAAAAAAAAAAAAAAAAAAAAA2ZMN")]

def addressText : Address → String :=
  tabled addressTable fun a => mark a.id

theorem addressText_injective : Function.Injective addressText := by
  refine tabled_injective (fun a b hab => ?_) ?_ (by decide)
  · cases a
    cases b
    exact congrArg Address.mk (mark_injective hab)
  · intro entry hmem a
    exact mark_ne ((by decide : ∀ entry ∈ addressTable, entry.2.toList.head? ≠ some '!') entry hmem)

def rpcUrl : String := "http://localhost:8000/rpc"

def networkPassphrase : String := "Standalone Network ; February 2017"

/-- The manifest of a pipeline, as far as it is deployed. -/
def manifest (verification projectRoot : Option Address) : StellarDeployManifest where
  admin := addressText account
  rpcUrl := some rpcUrl
  networkPassphrase := some networkPassphrase
  variant := .stellar
  contracts := Variant.contracts .stellar (some security) verification projectRoot

def jsonHead : String :=
  "\n  \"admin\": \"GAAAAAAAAAAAAAAAAAAAAAAAAAAAAAAAAAAAAAAAAAAAAAAAAAAAC6PV\"," ++
    "\n  \"rpc_url\": \"http://localhost:8000/rpc\"," ++
    "\n  \"network_passphrase\": \"Standalone Network ; February 2017\"," ++
    "\n  \"variant\": \"stellar\"," ++
    "\n  \"contracts\": \x7b"

/-- A manifest of this deployment in JSON, with these lines for its contracts. -/
def json (contracts : String) : String :=
  "\x7b" ++ (jsonHead ++ (contracts ++ "\n  \x7d\n\x7d"))

theorem json_injective : Function.Injective json := by
  intro contracts contracts' h
  simp only [json, String.append_right_inj, String.append_left_inj] at h
  exact h

theorem mark_ne_json (n : ℕ) (contracts : String) : mark n ≠ json contracts := by
  apply mark_ne
  rw [json, String.toList_append]
  exact (by decide : (some '\x7b' : Option Char) ≠ some '!')

def securityLine : String :=
  "\n    \"ed25519_security\": \"CAAAAAAAAAAAAAAAAAAAAAAAAAAAAAAAAAAAAAAAAAAAAAAAAAAAXI7N\""

def verificationLine : String :=
  "\n    \"ed25519_verification\": \"CAAAAAAAAAAAAAAAAAAAAAAAAAAAAAAAAAAAAAAAAAAAAAAAAAAAYRE5\""

def projectRootLine : String :=
  "\n    \"project_root\": \"CAAAAAAAAAAAAAAAAAAAAAAAAAAAAAAAAAAAAAAAAAAAAAAAAAAA2ZMN\""

def contractsTable : List (StellarDeployManifest × String) :=
  [(manifest none none, securityLine),
    (manifest (some verification) none, securityLine ++ "," ++ verificationLine),
    (manifest (some verification) (some projectRoot),
      projectRootLine ++ "," ++ securityLine ++ "," ++ verificationLine)]

def manifestTable : List (StellarDeployManifest × String) :=
  contractsTable.map fun entry => (entry.1, json entry.2)

theorem exists_number : ∃ number : StellarDeployManifest → ℕ, Function.Injective number := by
  have : Countable Char :=
    Function.Injective.countable (f := Char.toNat) fun _ _ => Char.toNat_inj.mp
  have : Countable String :=
    Function.Injective.countable (f := String.toList) fun _ _ => String.toList_inj.mp
  have : Countable Address :=
    Function.Injective.countable (f := Address.id) fun ⟨_⟩ ⟨_⟩ h => congrArg Address.mk h
  have : Countable Variant :=
    Function.Injective.countable (f := Variant.display) fun v v' h => by
      cases v <;> cases v' <;> first | rfl | exact absurd h (by decide)
  have : Countable ManifestContracts :=
    Function.Injective.countable
      (f := fun c => (c.projectRoot, c.secp256k1Security, c.secp256k1Verification,
        c.ed25519Security, c.ed25519Verification, c.ethereumHandler, c.stellarHandler))
      fun ⟨_, _, _, _, _, _, _⟩ ⟨_, _, _, _, _, _, _⟩ h => by cases h; rfl
  have : Countable StellarDeployManifest :=
    Function.Injective.countable
      (f := fun m => (m.admin, m.rpcUrl, m.networkPassphrase, m.variant, m.contracts))
      fun ⟨_, _, _, _, _⟩ ⟨_, _, _, _, _⟩ h => by cases h; rfl
  exact exists_injective_nat _

noncomputable def manifestText : StellarDeployManifest → String :=
  tabled manifestTable fun m => mark (exists_number.choose m)

theorem manifestText_injective : Function.Injective manifestText := by
  refine tabled_injective (mark_injective.comp exists_number.choose_spec) ?_ ?_
  · intro entry hmem m
    obtain ⟨_, -, rfl⟩ := List.mem_map.mp hmem
    exact mark_ne_json _ _
  · have hcontracts : contractsTable.Pairwise fun entry entry' => entry.2 ≠ entry'.2 := by
      decide +kernel
    exact List.pairwise_map.mpr (hcontracts.imp fun hne heq => hne (json_injective heq))

/-- The bytes of a text in UTF-8. -/
def utf8 (text : String) : Bytes :=
  text.toByteArray.data.toList

theorem utf8_injective : Function.Injective utf8 := by
  intro text text' h
  exact String.toByteArray_inj.mp (ByteArray.ext (Array.toList_inj.mp h))

theorem manifestFile_injective : Function.Injective fun m => utf8 (manifestText m) ++ [10] :=
  fun _ _ h => manifestText_injective (utf8_injective (List.append_cancel_right h))

noncomputable def texts : Texts where
  ofAddress := addressText
  toAddress? := Function.partialInv addressText
  toAddress?_ofAddress := Function.partialInv_left addressText_injective
  toStringPretty m := utf8 (manifestText m)
  fromSlice := Function.partialInv fun m => utf8 (manifestText m) ++ [10]
  fromSlice_toStringPretty := Function.partialInv_left manifestFile_injective

end Fixture

end WarpDrive.Deployer
