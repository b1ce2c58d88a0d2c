import Mathlib.Data.List.Defs

/-!
# Hexadecimal text

`encode` writes two lower-case digits for each byte, the higher half first.  `decode`
reads such digits back, in either case.  A text is therefore read as some bytes if and
only if its lower-case form is what is written for them (`decode_eq_some`).
-/

namespace Hex

/-! ## Digits -/

/-- The lower-case digit of a number below 16. -/
def digit (n : ℕ) : Char :=
  .ofNat (if n < 10 then 48 + n else 87 + n)

/-- The value of a digit, in either case. -/
def value (c : Char) : Option ℕ :=
  if 48 ≤ c.toNat ∧ c.toNat ≤ 57 then some (c.toNat - 48)
  else if 97 ≤ c.toNat ∧ c.toNat ≤ 102 then some (c.toNat - 87)
  else if 65 ≤ c.toNat ∧ c.toNat ≤ 70 then some (c.toNat - 55)
  else none

/-- The letters from `A` to `F` in lower case. -/
def lower (c : Char) : Char :=
  if 65 ≤ c.toNat ∧ c.toNat ≤ 70 then .ofNat (c.toNat + 32) else c

theorem toNat_ofNat {n : ℕ} (h : n < 0xd800) : (Char.ofNat n).toNat = n := by
  have hvalid : n.isValidChar := .inl h
  rw [Char.ofNat, dif_pos hvalid]
  rfl

theorem toNat_digit {n : ℕ} (h : n < 16) : (digit n).toNat = if n < 10 then 48 + n else 87 + n := by
  rw [digit, toNat_ofNat]
  split <;> omega

theorem toNat_lower (c : Char) :
    (lower c).toNat = if 65 ≤ c.toNat ∧ c.toNat ≤ 70 then c.toNat + 32 else c.toNat := by
  unfold lower
  split
  · exact toNat_ofNat (by omega)
  · rfl

theorem value_eq_some {c : Char} {n : ℕ} : value c = some n ↔ n < 16 ∧ lower c = digit n := by
  have hdigit : n < 16 → (lower c = digit n ↔
      (if 65 ≤ c.toNat ∧ c.toNat ≤ 70 then c.toNat + 32 else c.toNat) =
        if n < 10 then 48 + n else 87 + n) := by
    intro h
    rw [← toNat_lower, ← toNat_digit h, Char.toNat_inj]
  constructor
  · intro h
    have hn : n < 16 := by grind [value]
    refine ⟨hn, (hdigit hn).mpr ?_⟩
    grind [value]
  · rintro ⟨hn, h⟩
    have heq := (hdigit hn).mp h
    grind [value]

/-! ## Texts -/

def encode : List UInt8 → List Char
  | [] => []
  | b :: bytes => digit (b.toNat / 16) :: digit (b.toNat % 16) :: encode bytes

/-- Digits in pairs; what is left over is an error. -/
def decode : List Char → Option (List UInt8)
  | [] => some []
  | [_] => none
  | high :: low :: text => do
      let h ← value high
      let l ← value low
      let bytes ← decode text
      return .ofNat (16 * h + l) :: bytes

theorem decode_cons_eq_some {high low : Char} {text : List Char} {bytes : List UInt8} :
    decode (high :: low :: text) = some bytes ↔ ∃ h l rest, value high = some h ∧
      value low = some l ∧ decode text = some rest ∧ bytes = .ofNat (16 * h + l) :: rest := by
  simp only [decode, bind, Option.bind_eq_some_iff, pure, Option.some.injEq]
  constructor
  · rintro ⟨h, hhigh, l, hlow, rest, hrest, rfl⟩
    exact ⟨h, l, rest, hhigh, hlow, hrest, rfl⟩
  · rintro ⟨h, l, rest, hhigh, hlow, hrest, rfl⟩
    exact ⟨h, hhigh, l, hlow, rest, hrest, rfl⟩

/-- A text is read as the bytes whose encoding it is, up to the case of the digits. -/
theorem decode_eq_some {text : List Char} {bytes : List UInt8} :
    decode text = some bytes ↔ text.map lower = encode bytes := by
  induction text using decode.induct generalizing bytes with
  | case1 =>
      cases bytes with
      | nil => simp [decode, encode]
      | cons b bytes => simp [decode, encode]
  | case2 c =>
      cases bytes with
      | nil => simp [decode, encode]
      | cons b bytes => simp [decode, encode]
  | case3 high low text ih =>
      rw [decode_cons_eq_some]
      constructor
      · rintro ⟨h, l, rest, hhigh, hlow, hrest, rfl⟩
        obtain ⟨hh, hhigh⟩ := value_eq_some.mp hhigh
        obtain ⟨hl, hlow⟩ := value_eq_some.mp hlow
        have hbyte : (UInt8.ofNat (16 * h + l)).toNat = 16 * h + l := by
          rw [UInt8.toNat_ofNat', Nat.mod_eq_of_lt (by omega)]
        rw [List.map_cons, List.map_cons, hhigh, hlow, ih.mp hrest, encode, hbyte,
          show (16 * h + l) / 16 = h by omega, show (16 * h + l) % 16 = l by omega]
      · intro h
        cases bytes with
        | nil => simp [encode] at h
        | cons b bytes =>
            have hb : b.toNat < 256 := b.toNat_lt
            rw [List.map_cons, List.map_cons, encode, List.cons.injEq, List.cons.injEq] at h
            obtain ⟨hhigh, hlow, hrest⟩ := h
            refine ⟨b.toNat / 16, b.toNat % 16, bytes, value_eq_some.mpr ⟨by omega, hhigh⟩,
              value_eq_some.mpr ⟨by omega, hlow⟩, ih.mpr hrest, ?_⟩
            rw [Nat.div_add_mod, UInt8.ofNat_toNat]

/-- Whatever is read consists of digits. -/
theorem isSome_value_of_decode {text : List Char} {bytes : List UInt8}
    (h : decode text = some bytes) : ∀ c ∈ text, (value c).isSome := by
  induction text using decode.induct generalizing bytes with
  | case1 => simp
  | case2 c => cases h
  | case3 high low text ih =>
      obtain ⟨_, _, rest, hhigh, hlow, hrest, -⟩ := decode_cons_eq_some.mp h
      intro c hc
      rcases List.mem_cons.mp hc with rfl | hc
      · rw [hhigh, Option.isSome_some]
      · rcases List.mem_cons.mp hc with rfl | hc
        · rw [hlow, Option.isSome_some]
        · exact ih hrest c hc

theorem lower_digit {n : ℕ} (h : n < 16) : lower (digit n) = digit n := by
  rw [← Char.toNat_inj, toNat_lower, toNat_digit h, if_neg]
  split <;> omega

theorem map_lower_encode (bytes : List UInt8) : (encode bytes).map lower = encode bytes := by
  induction bytes with
  | nil => rfl
  | cons b bytes ih =>
      have hb : b.toNat < 256 := b.toNat_lt
      rw [encode, List.map_cons, List.map_cons, ih, lower_digit (by omega), lower_digit (by omega)]

end Hex
