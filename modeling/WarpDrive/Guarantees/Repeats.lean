import WarpDrive.Guarantees.Forwarding
import WarpDrive.Guarantees.Resend

/-!
# Writes that are executed many times

A client may send an operation on the registry again and again, directly or through a
forwarder, and each transaction that succeeds executes it once more.  A query cannot tell
this from the first execution (`Repeats.once`): each further one leaves the answers as
they were (`sameAnswers_of_executes`), over a window that only gets shorter.
-/

namespace WarpDrive

namespace Security

variable {t : VerificationType} {J J₀ : List Invocation} {L L' floor r r' : ℕ}
  {s s' s₁ s₂ : Storage t} {inv inv' : Invocation} {c : Call}

namespace SameAnswers

theorem refl (r : ℕ) (s : Storage t) : SameAnswers r s s where
  threshold := rfl
  base := ⟨s.base.events, rfl⟩
  allSigners := rfl
  signerWeight _ := rfl
  totalWeight := rfl
  signerWeightAt _ _ _ := rfl
  totalWeightAt _ _ := rfl

theorem mono (h : SameAnswers r s s') (hle : r ≤ r') : SameAnswers r' s s' where
  threshold := h.threshold
  base := h.base
  allSigners := h.allSigners
  signerWeight := h.signerWeight
  totalWeight := h.totalWeight
  signerWeightAt key r'' hr := h.signerWeightAt key r'' (hle.trans hr)
  totalWeightAt r'' hr := h.totalWeightAt r'' (hle.trans hr)

theorem trans (h : SameAnswers r s s₁) (h' : SameAnswers r s₁ s₂) : SameAnswers r s s₂ where
  threshold := h'.threshold.trans h.threshold
  base := by
    obtain ⟨events, hbase⟩ := h.base
    obtain ⟨events', hbase'⟩ := h'.base
    exact ⟨events', by rw [hbase', hbase]⟩
  allSigners := h'.allSigners.trans h.allSigners
  signerWeight key := (h'.signerWeight key).trans (h.signerWeight key)
  totalWeight := h'.totalWeight.trans h.totalWeight
  signerWeightAt key r' hr := (h'.signerWeightAt key r' hr).trans (h.signerWeightAt key r' hr)
  totalWeightAt r' hr := (h'.totalWeightAt r' hr).trans (h.totalWeightAt r' hr)

end SameAnswers

/-- An execution that follows another of the same operation, whoever authorized it. -/
theorem sameAnswers_of_executes (hreach : Reaches J s L) (hlate : L ≤ inv.env.ledger)
    (hregistry : inv.call.isRegistry = true) (hfirst : Executes s inv s₁)
    (hcall : inv'.call = inv.call) (hledger : inv.env.ledger ≤ inv'.env.ledger)
    (hsecond : Executes s₁ inv' s₂) :
    SameAnswers (inv'.env.ledger - historyCutoff) s₁ s₂ := by
  obtain ⟨env, c⟩ := inv'
  dsimp only at hcall hledger ⊢
  subst hcall
  have h : Represents J inv.env.ledger s := hreach.represents.mono hlate
  obtain ⟨v, hrun⟩ := hfirst
  obtain ⟨v', hrun'⟩ := hsecond
  have heffect : Effect inv.env s inv.call s₁ := call_effect hrun
  have heffect' : Effect env s₁ inv.call s₂ := call_effect hrun'
  have h₁ : Represents (J ++ [inv]) env.ledger s₁ := (h.step heffect).mono hledger
  have h₂ : Represents (J ++ [inv] ++ [⟨env, inv.call⟩]) env.ledger s₂ := h₁.step heffect'
  refine h₁.sameAnswers h₂ (heffect.threshold_again heffect')
    (heffect'.base_of_isRegistry hregistry) fun r _ => ?_
  rw [registryAt_resent h.upTo hledger]

/-- `J` is a history of executions of `c` alone, between the ledgers `floor` and `L`. -/
structure Repeats (c : Call) (floor L : ℕ) (s : Storage t) (J : List Invocation)
    (s' : Storage t) : Prop where
  path : Transition.Path Executes s J s'
  calls : ∀ inv ∈ J, inv.call = c
  inOrder : InOrder J
  floor_le : ∀ inv ∈ J, floor ≤ inv.env.ledger
  upTo : ∀ inv ∈ J, inv.env.ledger ≤ L

namespace Repeats

theorem nil (c : Call) (floor L : ℕ) (s : Storage t) : Repeats c floor L s [] s :=
  ⟨.nil s, by simp, List.Pairwise.nil, by simp, by simp⟩

theorem mono (h : Repeats c floor L s J s') (hle : L ≤ L') : Repeats c floor L' s J s' :=
  { h with upTo := fun inv hinv => (h.upTo inv hinv).trans hle }

/-- One more execution. -/
theorem snoc (h : Repeats c floor L s J s₁) (hcall : inv.call = c) (hfloor : floor ≤ inv.env.ledger)
    (hlate : L ≤ inv.env.ledger) (hexecutes : Executes s₁ inv s₂) :
    Repeats c floor inv.env.ledger s (J ++ [inv]) s₂ where
  path := h.path.snoc hexecutes
  calls := List.forall_mem_append.mpr ⟨h.calls, by simpa using hcall⟩
  inOrder := List.pairwise_append.mpr ⟨h.inOrder, List.pairwise_singleton _ _,
    fun inv' hinv' _ hmem => List.mem_singleton.mp hmem ▸ (h.upTo inv' hinv').trans hlate⟩
  floor_le := List.forall_mem_append.mpr ⟨h.floor_le, by simpa using hfloor⟩
  upTo := List.forall_mem_append.mpr
    ⟨fun inv' hinv' => (h.upTo inv' hinv').trans hlate, by simp⟩

/-- What was executed before the last time. -/
theorem of_append (h : Repeats c floor L s (J ++ [inv]) s₂) :
    ∃ s₁, Repeats c floor inv.env.ledger s J s₁ ∧ Executes s₁ inv s₂ ∧ inv.call = c ∧
      floor ≤ inv.env.ledger ∧ inv.env.ledger ≤ L := by
  have hmem : inv ∈ J ++ [inv] := by simp
  obtain ⟨s₁, hpath, hexecutes⟩ := h.path.of_snoc
  have hbefore := List.pairwise_append.mp h.inOrder
  refine ⟨s₁, ⟨hpath, fun inv' hinv' => h.calls inv' (List.mem_append_left _ hinv'), hbefore.1,
    fun inv' hinv' => h.floor_le inv' (List.mem_append_left _ hinv'),
    fun inv' hinv' => hbefore.2.2 inv' hinv' inv (List.mem_singleton_self inv)⟩, hexecutes,
    h.calls inv hmem, h.floor_le inv hmem, h.upTo inv hmem⟩

theorem reaches (h : Repeats c floor L s J s') (hreach : Reaches J₀ s floor) (hle : floor ≤ L) :
    Reaches (J₀ ++ J) s' L :=
  hreach.append h.path h.inOrder h.floor_le h.upTo hle

/-- However often the operation was executed, every query is answered as after the first
time. -/
theorem once (h : Repeats c floor L s J s') (hreach : Reaches J₀ s floor)
    (hregistry : c.isRegistry = true) (hne : J ≠ []) :
    ∃ inv s₁, inv ∈ J ∧ Executes s inv s₁ ∧ SameAnswers (L - historyCutoff) s₁ s' := by
  induction J using List.reverseRecOn generalizing s' L with
  | nil => exact absurd rfl hne
  | append_singleton J inv ih =>
      obtain ⟨s₁, hbefore, hlast, hcall, hfloor, hle⟩ := h.of_append
      rcases List.eq_nil_or_concat J with rfl | ⟨J', inv₀, rfl⟩
      · -- this was the first time
        obtain rfl := hbefore.path.eq_of_nil
        exact ⟨inv, s', by simp, hlast, .refl _ _⟩
      · rw [List.concat_eq_append] at hbefore ih ⊢
        obtain ⟨s₀, hearlier, hexecutes, hcall₀, hfloor₀, hle₀⟩ := hbefore.of_append
        have hreach₀ : Reaches (J₀ ++ J') s₀ inv₀.env.ledger := hearlier.reaches hreach hfloor₀
        have hsame : SameAnswers (inv.env.ledger - historyCutoff) s₁ s' :=
          sameAnswers_of_executes hreach₀ le_rfl (hcall₀ ▸ hregistry) hexecutes
            (hcall.trans hcall₀.symm) hle₀ hlast
        obtain ⟨first, s₂, hmem, hfirst, hanswers⟩ := ih hbefore (by simp)
        exact ⟨first, s₂, List.mem_append_left _ hmem, hfirst,
          (hanswers.trans hsame).mono (Nat.sub_le_sub_right hle _)⟩

end Repeats

end Security

end WarpDrive
