import WarpDrive.Library.Transition

/-!
# Two-step transfers

An office has a holder, and it may have a candidate.  Only the holder names a
candidate, and only the candidate makes itself the holder, which ends the
candidacy.  A transition system keeps such an office if each of its steps is a
move of it, with the consent of whoever the move asks.

`candidate_named` is the history invariant: a candidate was named by the present
holder, in the present term, and nobody was named since.  So a change of holder
goes back to a proposal of the old holder that nothing superseded
(`change_of_holder`), and no proposal outlives the term it was made in.
-/

namespace Transfer

variable {σ ℓ α : Type*}

/-- The holder of an office, and the candidate to succeed it. -/
structure Office (α : Type*) where
  holder : α
  candidate : Option α

/-- What a step does to the office. -/
inductive Move (α : Type*) where
  | propose (candidate : α)
  | accept
  | other

/-- One move, given who consents to it. -/
inductive Moves (consents : α → Prop) : Office α → Move α → Office α → Prop
  | propose (o : Office α) (b : α) (hconsent : consents o.holder) :
      Moves consents o (.propose b) ⟨o.holder, some b⟩
  | accept (o : Office α) (b : α) (hcandidate : o.candidate = some b) (hconsent : consents b) :
      Moves consents o .accept ⟨b, none⟩
  | other (o : Office α) : Moves consents o .other o

section System

variable (init : σ → Prop) (step : σ → ℓ → σ → Prop) (office : σ → Option (Office α))
  (move : ℓ → Move α) (consents : ℓ → α → Prop)

/-- The system keeps an office: it starts with no candidate, and each step into a
state with an office is a move of it. -/
structure Keeps : Prop where
  vacant : ∀ s o, init s → office s = some o → o.candidate = none
  moves : ∀ s l s' o', step s l s' → office s' = some o' →
    ∃ o, office s = some o ∧ Moves (consents l) o (move l) o'

/-- In the run `ls` to `s`, the holder `a` named `b`, with its consent and while it
held the office, and no proposal and no acceptance came after. -/
def Named (ls : List ℓ) (s : σ) (a b : α) : Prop :=
  ∃ ls₁ l ls₂ s₁ s₂ o₁, ls = ls₁ ++ l :: ls₂ ∧ Transition.Run init step ls₁ s₁ ∧
    step s₁ l s₂ ∧ Transition.Path step s₂ ls₂ s ∧ office s₁ = some o₁ ∧ o₁.holder = a ∧
    move l = .propose b ∧ consents l a ∧ ∀ later ∈ ls₂, move later = .other

end System

variable {init : σ → Prop} {step : σ → ℓ → σ → Prop} {office : σ → Option (Office α)}
  {move : ℓ → Move α} {consents : ℓ → α → Prop} {ls : List ℓ} {s s' : σ} {l : ℓ} {a b : α}

/-- A step that is not about the office does not supersede a proposal. -/
theorem Named.snoc (h : Named init step office move consents ls s a b) (hstep : step s l s')
    (hother : move l = .other) : Named init step office move consents (ls ++ [l]) s' a b := by
  obtain ⟨ls₁, l₀, ls₂, s₁, s₂, o₁, rfl, hrun, hproposal, hpath, hoffice, hholder, hmove,
    hconsent, hlater⟩ := h
  refine ⟨ls₁, l₀, ls₂ ++ [l], s₁, s₂, o₁, by simp, hrun, hproposal, hpath.snoc hstep, hoffice,
    hholder, hmove, hconsent, ?_⟩
  intro later hmem
  rcases List.mem_append.mp hmem with hmem | hmem
  · exact hlater later hmem
  · rw [List.mem_singleton.mp hmem]
    exact hother

/-- A candidate was named by the present holder, and nothing superseded it. -/
theorem candidate_named (hkeeps : Keeps init step office move consents)
    (hrun : Transition.Run init step ls s) {o : Office α} (hoffice : office s = some o)
    (hcandidate : o.candidate = some b) :
    Named init step office move consents ls s o.holder b := by
  refine Transition.Run.induction (motive := fun ls s => ∀ o, office s = some o →
    o.candidate = some b → Named init step office move consents ls s o.holder b) ?_ ?_ hrun o
    hoffice hcandidate
  · intro s hinit o hoffice hcandidate
    rw [hkeeps.vacant s o hinit hoffice] at hcandidate
    cases hcandidate
  · intro ls s l s' hrun ih hstep o' hoffice' hcandidate
    obtain ⟨o, hoffice, hmoves⟩ := hkeeps.moves s l s' o' hstep hoffice'
    generalize hl : move l = m at hmoves
    cases hmoves with
    | propose _ hconsent =>
        cases hcandidate
        exact ⟨ls, l, [], s, s', o, rfl, hrun, hstep, .nil s', hoffice, rfl, hl, hconsent,
          by simp⟩
    | accept _ _ _ => cases hcandidate
    | other => exact (ih _ hoffice hcandidate).snoc hstep hl

/-- A new holder accepted, with its consent, a proposal of the old one that nothing
superseded; after that there is no candidate. -/
theorem change_of_holder (hkeeps : Keeps init step office move consents)
    (hrun : Transition.Run init step ls s) (hstep : step s l s') {o o' : Office α}
    (hoffice : office s = some o) (hoffice' : office s' = some o')
    (hchange : o'.holder ≠ o.holder) :
    move l = .accept ∧ consents l o'.holder ∧ o'.candidate = none ∧
      Named init step office move consents ls s o.holder o'.holder := by
  obtain ⟨o₀, hoffice₀, hmoves⟩ := hkeeps.moves s l s' o' hstep hoffice'
  obtain rfl : o = o₀ := Option.some.inj (hoffice.symm.trans hoffice₀)
  generalize hl : move l = m at hmoves
  cases hmoves with
  | propose _ _ => exact absurd rfl hchange
  | accept _ hcandidate hconsent =>
      exact ⟨rfl, hconsent, rfl, candidate_named hkeeps hrun hoffice hcandidate⟩
  | other => exact absurd rfl hchange

end Transfer
