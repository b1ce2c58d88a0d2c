import Mathlib.Algebra.Group.Nat.Defs

/-!
# Big-endian bytes

`encode width n` writes `n` into `width` bytes, the most significant first, and
`decode` reads a byte string back.  A number that fits is determined by its bytes,
and its parity is that of the last byte.
-/

namespace BigEndian

/-- `n` modulo `256 ^ width`, in `width` bytes. -/
def encode : ℕ → ℕ → List UInt8
  | 0, _ => []
  | width + 1, n => encode width (n / 256) ++ [UInt8.ofNat n]

def decode (bytes : List UInt8) : ℕ :=
  bytes.foldl (fun n byte => 256 * n + byte.toNat) 0

@[simp] theorem length_encode (width n : ℕ) : (encode width n).length = width := by
  induction width generalizing n with
  | zero => rfl
  | succ width ih => rw [encode, List.length_append, ih, List.length_singleton]

theorem encode_succ (width n : ℕ) :
    encode (width + 1) n = encode width (n / 256) ++ [UInt8.ofNat n] := rfl

theorem decode_append_singleton (bytes : List UInt8) (byte : UInt8) :
    decode (bytes ++ [byte]) = 256 * decode bytes + byte.toNat := by
  unfold decode
  rw [List.foldl_append, List.foldl_cons, List.foldl_nil]

theorem decode_encode {width n : ℕ} (h : n < 256 ^ width) : decode (encode width n) = n := by
  induction width generalizing n with
  | zero =>
      rw [Nat.pow_zero, Nat.lt_one_iff] at h
      rw [h]
      rfl
  | succ width ih =>
      have hhigh : n / 256 < 256 ^ width := by
        rw [Nat.pow_succ] at h
        exact Nat.div_lt_of_lt_mul (by omega)
      rw [encode, decode_append_singleton, ih hhigh, UInt8.toNat_ofNat']
      exact Nat.div_add_mod n 256

/-- A number that fits is determined by its bytes. -/
theorem encode_inj {width m n : ℕ} (hm : m < 256 ^ width) (hn : n < 256 ^ width)
    (h : encode width m = encode width n) : m = n := by
  rw [← decode_encode hm, h, decode_encode hn]

/-- The lowest bit of the last byte. -/
theorem ofNat_and_one (n : ℕ) : (UInt8.ofNat n &&& 1).toNat = n % 2 := by
  rw [UInt8.toNat_and, UInt8.toNat_ofNat', UInt8.toNat_one, Nat.and_one_is_mod]
  omega

end BigEndian
