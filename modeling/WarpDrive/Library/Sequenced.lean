import Mathlib.Data.Finset.Card
import Mathlib.Data.List.Pairwise
import Mathlib.Data.List.Nodup
import Mathlib.Logic.Function.Basic
import Mathlib.Logic.Relation
import Mathlib.Order.Basic

/-!
# Messages with sequence numbers

A network takes messages, and delivers those of one sender in the order of their numbers:
next comes the message with the number after the last.  What was submitted may be
delivered at any later time or never, and anyone may submit it again.

`Ordered` is the invariant: what was delivered ascends, sender by sender.  So a message
is delivered once at most, however often it is submitted, and of two messages that
compete for a number only one is.  A sender who numbers a message after the last that
was delivered knows that it is new (`Ordered.notMem_of_lt`).
-/

namespace Sequenced

open Relation (ReflTransGen)

/-- Messages that carry their sender and a number. -/
class Numbered (μ : Type*) (κ : outParam Type*) where
  sender : μ → κ
  number : μ → ℕ

export Numbered (sender number)

structure Network (μ : Type*) (κ : Type*) where
  last : κ → ℕ
  inFlight : List μ
  delivered : List μ

variable {μ κ : Type*} [Numbered μ κ] {n n' : Network μ κ} {m m' : μ}

/-- What was delivered ascends, up to the last number of each sender. -/
structure Ordered (n : Network μ κ) : Prop where
  upTo : ∀ m ∈ n.delivered, number m ≤ n.last (sender m)
  ascending : n.delivered.Pairwise fun m m' => sender m = sender m' → number m < number m'

section Steps

variable [DecidableEq κ]

namespace Network

def submit (n : Network μ κ) (m : μ) : Network μ κ :=
  { n with inFlight := m :: n.inFlight }

def deliver (n : Network μ κ) (m : μ) : Network μ κ :=
  { n with
    last := Function.update n.last (sender m) (number m)
    delivered := n.delivered ++ [m] }

end Network

inductive Step : Network μ κ → Network μ κ → Prop
  | submit (n : Network μ κ) (m : μ) : Step n (n.submit m)
  | deliver (n : Network μ κ) (m : μ) (hinFlight : m ∈ n.inFlight)
      (hdue : number m = n.last (sender m) + 1) : Step n (n.deliver m)

/-! ## What a step keeps -/

theorem Step.last_le (h : Step n n') (k : κ) : n.last k ≤ n'.last k := by
  cases h with
  | submit m => exact le_rfl
  | deliver m _ hdue =>
      by_cases hk : k = sender m
      · subst hk
        simp only [Network.deliver, Function.update_self]
        omega
      · simp [Network.deliver, hk]

theorem Step.prefix (h : Step n n') : n.delivered <+: n'.delivered := by
  cases h with
  | submit m => exact List.prefix_rfl
  | deliver m => exact List.prefix_append _ _

theorem Step.ordered (hstep : Step n n') (h : Ordered n) : Ordered n' := by
  cases hstep with
  | submit m => exact ⟨h.upTo, h.ascending⟩
  | deliver m _ hdue =>
      constructor
      case upTo =>
        intro m' hm'
        rcases List.mem_append.mp hm' with hm' | hm'
        · exact (h.upTo m' hm').trans ((Step.deliver n m ‹_› hdue).last_le _)
        · rw [List.mem_singleton.mp hm']
          simp [Network.deliver]
      case ascending =>
        refine List.pairwise_append.mpr ⟨h.ascending, List.pairwise_singleton _ _, ?_⟩
        intro m' hm' m'' hm'' hsame
        rw [List.mem_singleton.mp hm''] at hsame ⊢
        have hle : number m' ≤ n.last (sender m) := hsame ▸ h.upTo m' hm'
        omega

section Path

variable (hpath : ReflTransGen Step n n')
include hpath

theorem last_le_of_path (k : κ) : n.last k ≤ n'.last k := by
  induction hpath with
  | refl => exact le_rfl
  | tail _ hstep ih => exact ih.trans (hstep.last_le k)

theorem ordered_of_path (h : Ordered n) : Ordered n' := by
  induction hpath with
  | refl => exact h
  | tail _ hstep ih => exact hstep.ordered ih

end Path

end Steps

/-! ## Once at most -/

namespace Ordered

theorem nodup (h : Ordered n) : n.delivered.Nodup := by
  refine h.ascending.imp fun hlt heq => ?_
  subst heq
  exact lt_irrefl _ (hlt rfl)

/-- A message with a number after the last is new. -/
theorem notMem_of_lt (h : Ordered n) (hlt : n.last (sender m) < number m) : m ∉ n.delivered :=
  fun hm => absurd (h.upTo m hm) (not_le.mpr hlt)

/-- What is delivered out of a list of messages, each once, is no more than the list has
different ones. -/
theorem countP_le_card [DecidableEq μ] (h : Ordered n) (ms : List μ) :
    n.delivered.countP (· ∈ ms) ≤ ms.toFinset.card := by
  rw [List.countP_eq_length_filter]
  have hnodup : (n.delivered.filter (· ∈ ms)).Nodup := h.nodup.filter _
  rw [← List.toFinset_card_of_nodup hnodup]
  apply Finset.card_le_card
  intro m hm
  simpa using (List.mem_filter.mp (List.mem_toFinset.mp hm)).2

end Ordered

end Sequenced
