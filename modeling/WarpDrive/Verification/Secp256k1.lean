import Mathlib.Tactic.NormNum.Prime
import Mathlib.Tactic.ReduceModChar
import WarpDrive.Library.BigEndian
import WarpDrive.Library.CurvePoints
import WarpDrive.Verification.Contract

/-!
# The curve of secp256k1

The points of `y² = x³ + 7` and their uncompressed encoding `04 ‖ x ‖ y`, for any
modulus `q`; the field of secp256k1, whose modulus is shown to be a prime along a
chain of factors; and the generator.
-/

namespace WarpDrive.Verification

/-- A point of `y² = x³ + 7` modulo `q`. -/
abbrev CurvePoint (q : ℕ) := CurvePoints.Point q fun x => x ^ 3 + 7

/-- The encoding in which the host returns a recovered key. -/
def uncompressed {q : ℕ} (P : CurvePoint q) : BytesN 65 where
  toArray := 4 :: (BigEndian.encode 32 P.x ++ BigEndian.encode 32 P.y)
  length_toArray := by simp

theorem uncompressed_toArray {q : ℕ} (P : CurvePoint q) :
    (uncompressed P).toArray =
      4 :: (BigEndian.encode 32 P.x ++ BigEndian.encode 32 P.y) := rfl

/-! ## The field -/

/-- The field of secp256k1, `2 ^ 256 - 2 ^ 32 - 977`. -/
def fieldPrime : ℕ :=
  115792089237316195423570985008687907853269984665640564039457584007908834671663

theorem prime_step₁ : Nat.Prime 173378833005251801 := by
  apply CurvePoints.prime_of_factors 6 [2, 2, 2, 5, 5, 2621, 24809, 13331831]
  · simp only [List.mem_cons, List.not_mem_nil, or_false, forall_eq_or_imp, forall_eq]
    norm_num
  · norm_num
  · reduce_mod_char
  · simp only [List.mem_cons, List.not_mem_nil, or_false, forall_eq_or_imp, forall_eq]
    norm_num only
    reduce_mod_char
    decide

theorem prime_step₂ : Nat.Prime 22149492674086928081353 := by
  apply CurvePoints.prime_of_factors 5 [2, 2, 2, 3, 5323, 173378833005251801]
  · simp only [List.mem_cons, List.not_mem_nil, or_false, forall_eq_or_imp, forall_eq]
    simp only [prime_step₁]
    norm_num
  · norm_num
  · reduce_mod_char
  · simp only [List.mem_cons, List.not_mem_nil, or_false, forall_eq_or_imp, forall_eq]
    norm_num only
    reduce_mod_char
    decide

theorem prime_step₃ : Nat.Prime 132896956044521568488119 := by
  apply CurvePoints.prime_of_factors 6 [2, 3, 22149492674086928081353]
  · simp only [List.mem_cons, List.not_mem_nil, or_false, forall_eq_or_imp, forall_eq]
    simp only [prime_step₂]
    norm_num
  · norm_num
  · reduce_mod_char
  · simp only [List.mem_cons, List.not_mem_nil, or_false, forall_eq_or_imp, forall_eq]
    norm_num only
    reduce_mod_char
    decide

theorem prime_step₄ : Nat.Prime 255515944373312847190720520512484175977 := by
  apply CurvePoints.prime_of_factors 3
    [2, 2, 2, 7, 7, 11, 1627, 2657, 4423, 41201, 96557, 7240687, 107590001]
  · simp only [List.mem_cons, List.not_mem_nil, or_false, forall_eq_or_imp, forall_eq]
    norm_num
  · norm_num
  · reduce_mod_char
  · simp only [List.mem_cons, List.not_mem_nil, or_false, forall_eq_or_imp, forall_eq]
    norm_num only
    reduce_mod_char
    decide

theorem prime_step₅ :
    Nat.Prime 205115282021455665897114700593932402728804164701536103180137503955397371 := by
  apply CurvePoints.prime_of_factors 10
    [2, 3, 5, 29, 29, 31, 7723, 132896956044521568488119, 255515944373312847190720520512484175977]
  · simp only [List.mem_cons, List.not_mem_nil, or_false, forall_eq_or_imp, forall_eq]
    simp only [prime_step₃, prime_step₄]
    norm_num
  · norm_num
  · reduce_mod_char
  · simp only [List.mem_cons, List.not_mem_nil, or_false, forall_eq_or_imp, forall_eq]
    norm_num only
    reduce_mod_char
    decide

theorem fieldPrime_prime : fieldPrime.Prime := by
  unfold fieldPrime
  apply CurvePoints.prime_of_factors 3
    [2, 3, 7, 13441, 205115282021455665897114700593932402728804164701536103180137503955397371]
  · simp only [List.mem_cons, List.not_mem_nil, or_false, forall_eq_or_imp, forall_eq]
    simp only [prime_step₅]
    norm_num
  · norm_num
  · reduce_mod_char
  · simp only [List.mem_cons, List.not_mem_nil, or_false, forall_eq_or_imp, forall_eq]
    norm_num only
    reduce_mod_char
    decide

theorem fieldPrime_odd : Odd fieldPrime := by decide

theorem fieldPrime_lt : fieldPrime < 2 ^ 256 := by decide

/-- The generator of the group. -/
def generator : CurvePoint fieldPrime where
  x := 55066263022277343669578718895168534326250603453777594175500187360389116729240
  y := 32670510020758816978083085130507043184471273380659243275938904335757337482424
  x_lt := by decide
  y_lt := by decide
  equation := by decide

end WarpDrive.Verification
