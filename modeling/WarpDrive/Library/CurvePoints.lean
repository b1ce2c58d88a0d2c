import Mathlib.Algebra.Ring.Parity
import Mathlib.Data.Nat.ModEq
import Mathlib.Data.Nat.Prime.Basic
import Mathlib.NumberTheory.LucasPrimality

/-!
# Points of a curve and the parity of their second coordinate

Affine points of a curve `y² = rhs x` over the integers modulo `q`, with both
coordinates reduced.  For an odd prime `q` the two points over one `x` are `y` and
`q - y`, one of them even and the other odd, so a point is determined by `x` and the
parity of `y` (`Point.eq_of_parity`).  This is what makes compressed encodings
unambiguous.

That a concrete modulus is a prime is shown with a certificate: the prime factors of
`q - 1`, and a number of that multiplicative order (`prime_of_factors`).
-/

namespace CurvePoints

/-- A number is a prime if some `a` has the order `q - 1` modulo `q`: its power is not
one at any quotient of `q - 1` by one of its prime factors. -/
theorem prime_of_factors {q : ℕ} (a : ZMod q) (factors : List ℕ)
    (hprimes : ∀ f ∈ factors, f.Prime) (hproduct : factors.prod = q - 1)
    (hone : a ^ (q - 1) = 1) (hother : ∀ f ∈ factors, a ^ ((q - 1) / f) ≠ 1) : q.Prime := by
  apply lucas_primality q a hone
  intro f hf hdvd
  rw [← hproduct] at hdvd
  obtain ⟨g, hg, hfg⟩ := (Nat.Prime.prime hf).dvd_prod_iff.mp hdvd
  obtain rfl := (Nat.prime_dvd_prime_iff_eq hf (hprimes g hg)).mp hfg
  exact hother f hg

/-- A point with reduced coordinates. -/
structure Point (q : ℕ) (rhs : ℕ → ℕ) where
  x : ℕ
  y : ℕ
  x_lt : x < q
  y_lt : y < q
  equation : y ^ 2 ≡ rhs x [MOD q]

variable {q : ℕ} {rhs : ℕ → ℕ}

@[ext] theorem Point.ext {P Q : Point q rhs} (hx : P.x = Q.x) (hy : P.y = Q.y) : P = Q := by
  cases P
  cases Q
  cases hx
  cases hy
  rfl

/-- Of two reduced square roots of one number the larger is equal to the other, or
the two add up to the modulus. -/
theorem eq_or_add_eq {y y' : ℕ} (hq : q.Prime) (hle : y' ≤ y) (hy : y < q)
    (h : y ^ 2 ≡ y' ^ 2 [MOD q]) : y = y' ∨ y + y' = q := by
  have hdvd : q ∣ (y + y') * (y - y') := by
    rw [← Nat.sq_sub_sq]
    exact (Nat.modEq_iff_dvd' (Nat.pow_le_pow_left hle 2)).mp h.symm
  rcases hq.dvd_mul.mp hdvd with hsum | hdifference
  · -- the sum is a multiple of `q` and less than `2 * q`
    obtain ⟨k, hk⟩ := hsum
    have hsmall : q * k < q * 2 := by omega
    have hone : k < 2 := Nat.lt_of_mul_lt_mul_left hsmall
    rcases Nat.lt_succ_iff_lt_or_eq.mp hone with hnone | rfl
    · rw [Nat.lt_one_iff.mp hnone, Nat.mul_zero] at hk
      exact Or.inl (by omega)
    · rw [Nat.mul_one] at hk
      exact Or.inr hk
  · have hzero : y - y' = 0 := Nat.eq_zero_of_dvd_of_lt hdifference (by omega)
    exact Or.inl (by omega)

/-- Square roots of one number with the same parity are equal. -/
theorem eq_of_sq_modEq {y y' : ℕ} (hq : q.Prime) (hodd : Odd q) (hy : y < q) (hy' : y' < q)
    (h : y ^ 2 ≡ y' ^ 2 [MOD q]) (hparity : y % 2 = y' % 2) : y = y' := by
  obtain ⟨k, hk⟩ := hodd
  rcases le_total y' y with hle | hle
  · rcases eq_or_add_eq hq hle hy h with heq | hsum
    · exact heq
    · omega
  · rcases eq_or_add_eq hq hle hy' h.symm with heq | hsum
    · exact heq.symm
    · omega

/-- A point is determined by `x` and the parity of `y`. -/
theorem Point.eq_of_parity (hq : q.Prime) (hodd : Odd q) {P Q : Point q rhs}
    (hx : P.x = Q.x) (hparity : P.y % 2 = Q.y % 2) : P = Q := by
  have hsquares : P.y ^ 2 ≡ Q.y ^ 2 [MOD q] := by
    calc P.y ^ 2 ≡ rhs P.x [MOD q] := P.equation
      _ = rhs Q.x := by rw [hx]
      _ ≡ Q.y ^ 2 [MOD q] := Q.equation.symm
  exact Point.ext hx (eq_of_sq_modEq hq hodd P.y_lt Q.y_lt hsquares hparity)

end CurvePoints
