import Mathlib.Data.List.DropRight
import WarpDrive.Client.Codecs
import WarpDrive.Deployer.Commands

/-!
# The signer commands

`add-signer`, `remove-signer` and `set-threshold`, sent to the Security contract of the
manifest or, once that is governed by ProjectRoot, to the forwarders of ProjectRoot.

A key is given as a hexadecimal text.  `parseKey` reads it, and `parseKey_eq_ok` says
which texts it takes for which key; what the client displays for a signer is among them.
-/

namespace WarpDrive.Deployer

/-! ## Schemes -/

/-- Signature scheme of a security contract. -/
inductive Scheme where
  | secp256k1
  | ed25519
deriving DecidableEq, Repr

namespace Scheme

/-- Expected public-key length in bytes. -/
def keyLen : Scheme → ℕ
  | secp256k1 => 33
  | ed25519 => 32

/-- The manifest variant this scheme belongs to. -/
def variant : Scheme → Variant
  | secp256k1 => .ethereum
  | ed25519 => .stellar

def display : Scheme → String
  | secp256k1 => "secp256k1"
  | ed25519 => "ed25519"

end Scheme

/-! ## Keys -/

/-- `char::is_whitespace`: the Unicode property `White_Space`. -/
def isWhitespace (c : Char) : Bool :=
  c.toNat ∈ [0x9, 0xa, 0xb, 0xc, 0xd, 0x20, 0x85, 0xa0, 0x1680, 0x2000, 0x2001, 0x2002, 0x2003,
    0x2004, 0x2005, 0x2006, 0x2007, 0x2008, 0x2009, 0x200a, 0x2028, 0x2029, 0x202f, 0x205f,
    0x3000]

/-- `str::trim` -/
def trim (text : List Char) : List Char :=
  (text.dropWhile isWhitespace).rdropWhile isWhitespace

/-- `strip_prefix("0x")`, or the text itself. -/
def stripHexPrefix : List Char → List Char
  | '0' :: 'x' :: rest => rest
  | text => text

/-- Parse a hex public key and validate its length for `scheme`.  The result carries its
length, so the conversions to arrays that the clients ask for do not fail. -/
def parseKey (scheme : Scheme) (keyHex : String) : Except DeployerError (BytesN scheme.keyLen) :=
  match Hex.decode (stripHexPrefix (trim keyHex.toList)) with
  | none => .error .hex
  | some bytes =>
      if h : bytes.length = scheme.keyLen then .ok ⟨bytes, h⟩
      else .error (.invalidArgument (scheme.display ++ " key must be " ++
        toString scheme.keyLen ++ " bytes (" ++ toString (scheme.keyLen * 2) ++
        " hex chars), got " ++ toString bytes.length))

section Keys

variable {scheme : Scheme} {key : BytesN scheme.keyLen} {keyHex : String}

theorem parseKey_eq_ok_decode : parseKey scheme keyHex = .ok key ↔
    Hex.decode (stripHexPrefix (trim keyHex.toList)) = some key.toArray := by
  unfold parseKey
  cases hdecode : Hex.decode (stripHexPrefix (trim keyHex.toList)) with
  | none => simp
  | some bytes =>
      obtain ⟨bytes', hlength⟩ := key
      simp only [Option.some.injEq]
      constructor
      · intro h
        split at h
        · cases h
          rfl
        · cases h
      · rintro rfl
        rw [dif_pos hlength]

/-- The text is what is left of it between two runs of white space. -/
theorem exists_eq_trim (text : List Char) : ∃ before after,
    (∀ c ∈ before ++ after, isWhitespace c = true) ∧ text = before ++ trim text ++ after := by
  have hright : ∀ text : List Char, text = text.rdropWhile isWhitespace ++
      (text.reverse.takeWhile isWhitespace).reverse := by
    intro text
    have hsplit := congrArg List.reverse
      (text.reverse.takeWhile_append_dropWhile (p := isWhitespace))
    rw [List.reverse_append, List.reverse_reverse] at hsplit
    exact hsplit.symm
  refine ⟨text.takeWhile isWhitespace,
    ((text.dropWhile isWhitespace).reverse.takeWhile isWhitespace).reverse, ?_, ?_⟩
  · intro c hc
    rcases List.mem_append.mp hc with hc | hc
    · exact List.mem_takeWhile_imp hc
    · exact List.mem_takeWhile_imp (List.mem_reverse.mp hc)
  · rw [trim, List.append_assoc, ← hright, List.takeWhile_append_dropWhile]

/-- What has no white space in it is what is left when the white space around it is
trimmed. -/
theorem trim_append {before body after : List Char} (hbefore : ∀ c ∈ before, isWhitespace c = true)
    (hafter : ∀ c ∈ after, isWhitespace c = true) (hbody : ∀ c ∈ body, isWhitespace c = false) :
    trim (before ++ body ++ after) = body := by
  have hkeep : ∀ text : List Char, (∀ c ∈ text, isWhitespace c = false) →
      text.dropWhile isWhitespace = text := by
    intro text htext
    cases text with
    | nil => rfl
    | cons c text => simp [htext c List.mem_cons_self]
  have hright : (body ++ after).rdropWhile isWhitespace = body := by
    rw [List.rdropWhile, List.reverse_append,
      List.dropWhile_append_of_pos fun c hc => hafter c (List.mem_reverse.mp hc),
      hkeep _ fun c hc => hbody c (List.mem_reverse.mp hc), List.reverse_reverse]
  have hleft : (before ++ body ++ after).dropWhile isWhitespace =
      (body ++ after).dropWhile isWhitespace := by
    rw [List.append_assoc, List.dropWhile_append_of_pos hbefore]
  unfold trim
  rw [hleft]
  cases body with
  | nil => 
      have hempty : (([] : List Char) ++ after).dropWhile isWhitespace = [] := by
        simpa using hafter
      rw [hempty, List.rdropWhile_nil]
  | cons c body =>
      have hc : ((c :: body) ++ after).dropWhile isWhitespace = (c :: body) ++ after := by
        simp [hbody c List.mem_cons_self]
      rw [hc, hright]

theorem isWhitespace_of_value {c : Char} (h : (Hex.value c).isSome) : isWhitespace c = false := by
  have hrange : 48 ≤ c.toNat ∧ c.toNat ≤ 102 := by grind [Hex.value]
  simp only [isWhitespace, List.mem_cons, List.not_mem_nil, or_false, decide_eq_false_iff_not]
  omega

/-- No digit is an `x`, so a text of digits has no prefix. -/
theorem stripHexPrefix_of_decode {digits : List Char} {bytes : List UInt8}
    (h : Hex.decode digits = some bytes) : stripHexPrefix digits = digits := by
  unfold stripHexPrefix
  split
  · have hx := Hex.isSome_value_of_decode h 'x' (by simp)
    exact absurd hx (by decide)
  · rfl

theorem stripHexPrefix_cases (text : List Char) :
    text = stripHexPrefix text ∨ text = '0' :: 'x' :: stripHexPrefix text := by
  unfold stripHexPrefix
  split
  · exact .inr rfl
  · exact .inl rfl

/-- The texts that `parseKey` takes for a key: its digits, in either case, with or without
the prefix, and white space around them. -/
theorem parseKey_eq_ok : parseKey scheme keyHex = .ok key ↔ ∃ before digits after,
    (∀ c ∈ before ++ after, isWhitespace c = true) ∧
      digits.map Hex.lower = Hex.encode key.toArray ∧
      (keyHex.toList = before ++ digits ++ after ∨
        keyHex.toList = before ++ '0' :: 'x' :: digits ++ after) := by
  rw [parseKey_eq_ok_decode]
  constructor
  · intro h
    obtain ⟨before, after, hspace, htext⟩ := exists_eq_trim keyHex.toList
    refine ⟨before, stripHexPrefix (trim keyHex.toList), after, hspace, Hex.decode_eq_some.mp h, ?_⟩
    obtain hplain | hprefix := stripHexPrefix_cases (trim keyHex.toList)
    · exact .inl (htext.trans (congrArg (before ++ · ++ after) hplain))
    · exact .inr (htext.trans (congrArg (before ++ · ++ after) hprefix))
  · rintro ⟨before, digits, after, hspace, hdigits, htext⟩
    have hdecode : Hex.decode digits = some key.toArray := Hex.decode_eq_some.mpr hdigits
    have hbody : ∀ c ∈ digits, isWhitespace c = false :=
      fun c hc => isWhitespace_of_value (Hex.isSome_value_of_decode hdecode c hc)
    have hbefore := fun c hc => hspace c (List.mem_append_left after hc)
    have hafter := fun c hc => hspace c (List.mem_append_right before hc)
    obtain htext | htext := htext
    · rw [htext, trim_append hbefore hafter hbody, stripHexPrefix_of_decode hdecode, hdecode]
    · have hprefixed : ∀ c ∈ '0' :: 'x' :: digits, isWhitespace c = false := by
        simpa [show isWhitespace '0' = false by decide, show isWhitespace 'x' = false by decide]
          using hbody
      rw [htext, trim_append hbefore hafter hprefixed]
      exact hdecode

theorem parseKey_displayKey (key : BytesN scheme.keyLen) :
    parseKey scheme (Client.displayKey key) = .ok key := by
  refine parseKey_eq_ok.mpr ⟨[], Hex.encode key.toArray, [], by simp, Hex.map_lower_encode _, ?_⟩
  right
  simp [Client.displayKey]

/-- The length of the text says which scheme a key is for. -/
theorem parseKey_of_other {other : Scheme} (hother : other ≠ scheme)
    {foreign : BytesN other.keyLen} (h : parseKey other keyHex = .ok foreign) :
    parseKey scheme keyHex = .error (.invalidArgument (scheme.display ++ " key must be " ++
      toString scheme.keyLen ++ " bytes (" ++ toString (scheme.keyLen * 2) ++
      " hex chars), got " ++ toString other.keyLen)) := by
  have hdecode := parseKey_eq_ok_decode.mp h
  have hlength : foreign.toArray.length = other.keyLen := foreign.length_toArray
  have hne : other.keyLen ≠ scheme.keyLen := by
    cases other <;> cases scheme <;> first | exact absurd rfl hother | decide
  unfold parseKey
  rw [hdecode]
  simp only [hlength]
  rw [dif_neg hne]

end Keys

/-- Which texts are read as which key.  The key that the client displays is one of them,
and a key of the other scheme is refused. -/
theorem key_texts (scheme : Scheme) :
    (∀ keyHex key, parseKey scheme keyHex = .ok key ↔ ∃ before digits after,
      (∀ c ∈ before ++ after, isWhitespace c = true) ∧
        digits.map Hex.lower = Hex.encode key.toArray ∧
        (keyHex.toList = before ++ digits ++ after ∨
          keyHex.toList = before ++ '0' :: 'x' :: digits ++ after)) ∧
      (∀ key : BytesN scheme.keyLen, parseKey scheme (Client.displayKey key) = .ok key) ∧
      ∀ keyHex other key, other ≠ scheme → parseKey other keyHex = .ok key →
        parseKey scheme keyHex = .error (.invalidArgument (scheme.display ++ " key must be " ++
          toString scheme.keyLen ++ " bytes (" ++ toString (scheme.keyLen * 2) ++
          " hex chars), got " ++ toString other.keyLen)) :=
  ⟨fun _ _ => parseKey_eq_ok, parseKey_displayKey,
    fun _ _ _ hother h => parseKey_of_other hother h⟩

/-! ## The target -/

/-- Ensure `scheme` agrees with the manifest's variant. -/
def requireSchemeMatches (m : StellarDeployManifest) (scheme : Scheme) :
    Except DeployerError Unit :=
  if scheme.variant ≠ m.variant then
    .error (.manifest ("manifest is a `" ++ m.variant.display ++ "` deploy; --scheme " ++
      scheme.display ++ " requires a `" ++ scheme.variant.display ++ "` manifest"))
  else .ok ()

/-- Resolve which contract the call targets: the security contract directly, or
project_root (the forwarder) when `via_project_root`. -/
def signerTarget (m : StellarDeployManifest) (scheme : Scheme) (viaProjectRoot : Bool) :
    Except DeployerError Address := do
  requireSchemeMatches m scheme
  if viaProjectRoot then requireProjectRoot m else requireSecurity m

/-! ## The clients -/

/-- The two security clients, and the client of project_root, which forwards. -/
inductive SecurityClient : Scheme → Type where
  | secp (contractId : Address) : SecurityClient .secp256k1
  | ed (contractId : Address) : SecurityClient .ed25519
  | proxy (client : Address) (scheme : Scheme) : SecurityClient scheme

namespace SecurityClient

def new (contractId : Address) (scheme : Scheme) (viaProjectRoot : Bool) : SecurityClient scheme :=
  if viaProjectRoot then .proxy contractId scheme
  else
    match scheme with
    | .secp256k1 => .secp contractId
    | .ed25519 => .ed contractId

def addSigner {scheme : Scheme} (client : SecurityClient scheme) (key : BytesN scheme.keyLen)
    (weight : UInt64) : Command (Option String) :=
  match client with
  | secp c => execute c (.addSigner key.toArray weight)
  | ed c => execute c (.addSigner key.toArray weight)
  | proxy client .secp256k1 => execute client (.addSecp256k1Signer key.toArray weight)
  | proxy client .ed25519 => execute client (.addEd25519Signer key.toArray weight)

def removeSigner {scheme : Scheme} (client : SecurityClient scheme)
    (key : BytesN scheme.keyLen) : Command (Option String) :=
  match client with
  | secp c => execute c (.removeSigner key.toArray)
  | ed c => execute c (.removeSigner key.toArray)
  | proxy client .secp256k1 => execute client (.removeSecp256k1Signer key.toArray)
  | proxy client .ed25519 => execute client (.removeEd25519Signer key.toArray)

def setThreshold {scheme : Scheme} (client : SecurityClient scheme)
    (numerator denominator : UInt64) : Command (Option String) :=
  match client with
  | secp c => execute c (.setThreshold numerator denominator)
  | ed c => execute c (.setThreshold numerator denominator)
  | proxy client _ => execute client (.setThreshold numerator denominator)

end SecurityClient

/-! ## Subcommands -/

section Subcommands

variable (m : StellarDeployManifest) (scheme : Scheme)

/-- `add-signer`: register or update a signer's weight. -/
def addSigner (keyHex : String) (weight : UInt64) (viaProjectRoot : Bool) (cfg : RetryConfig) :
    Command String := do
  let target ← propagate (signerTarget m scheme viaProjectRoot)
  let key ← propagate (parseKey scheme keyHex)
  let resp ← retry cfg ((SecurityClient.new target scheme viaProjectRoot).addSigner key weight)
  txHash resp

/-- `remove-signer`: drop a signer. -/
def removeSigner (keyHex : String) (viaProjectRoot : Bool) (cfg : RetryConfig) :
    Command String := do
  let target ← propagate (signerTarget m scheme viaProjectRoot)
  let key ← propagate (parseKey scheme keyHex)
  let resp ← retry cfg ((SecurityClient.new target scheme viaProjectRoot).removeSigner key)
  txHash resp

/-- `set-threshold`: update `numerator/denominator`. -/
def setThreshold (numerator denominator : UInt64) (viaProjectRoot : Bool) (cfg : RetryConfig) :
    Command String := do
  let target ← propagate (signerTarget m scheme viaProjectRoot)
  let resp ← retry cfg
    ((SecurityClient.new target scheme viaProjectRoot).setThreshold numerator denominator)
  txHash resp

end Subcommands

end WarpDrive.Deployer
