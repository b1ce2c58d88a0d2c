import Mathlib.Data.List.Basic

/-!
# Labelled runs of a transition system

A transition system is a relation `step : σ → ℓ → σ → Prop`; the label of a
step says what was done.  `Path step s ls s'` is a finite path from `s` to `s'`
whose labels, in order, are `ls`, and `Run init step ls s` is a path that starts
in an initial state.  The labels are the history of a run, so that an invariant
may speak about the state and about everything that was done to reach it.

Every invariant of a run is proved through `Run.induction`: it holds initially,
and one step preserves it.
-/

namespace Transition

variable {σ ℓ : Type*}

/-- `Path step s ls s'`: the labels `ls`, taken in order, lead from `s` to `s'`. -/
inductive Path (step : σ → ℓ → σ → Prop) : σ → List ℓ → σ → Prop
  | nil (s : σ) : Path step s [] s
  | snoc {s s' s'' : σ} {ls : List ℓ} {l : ℓ} :
      Path step s ls s' → step s' l s'' → Path step s (ls ++ [l]) s''

/-- The labels `ls` lead from some initial state to `s`. -/
def Run (init : σ → Prop) (step : σ → ℓ → σ → Prop) (ls : List ℓ) (s : σ) : Prop :=
  ∃ s₀, init s₀ ∧ Path step s₀ ls s

variable {init : σ → Prop} {step : σ → ℓ → σ → Prop}

theorem Path.append {s s' s'' : σ} {ls ls' : List ℓ} (first : Path step s ls s')
    (second : Path step s' ls' s'') : Path step s (ls ++ ls') s'' := by
  induction second with
  | nil => simpa using first
  | snoc _ hstep ih =>
      rw [← List.append_assoc]
      exact ih.snoc hstep

theorem Path.eq_of_nil {s s' : σ} (h : Path step s [] s') : s' = s := by
  generalize hls : ([] : List ℓ) = ls at h
  cases h with
  | nil => rfl
  | snoc _ _ => simp at hls

/-- The last step of a path. -/
theorem Path.of_snoc {s s'' : σ} {ls : List ℓ} {l : ℓ} (h : Path step s (ls ++ [l]) s'') :
    ∃ s', Path step s ls s' ∧ step s' l s'' := by
  generalize hls : ls ++ [l] = ls' at h
  cases h with
  | nil => simp at hls
  | snoc hinitial hstep =>
      obtain ⟨rfl, hlast⟩ := List.append_inj' hls rfl
      cases hlast
      exact ⟨_, hinitial, hstep⟩

/-- What one allowed step preserves, a path of allowed steps preserves. -/
theorem Path.preserves {motive : σ → Prop} {allowed : ℓ → Prop} {s s' : σ} {ls : List ℓ}
    (hstep : ∀ s l s', allowed l → motive s → step s l s' → motive s')
    (hpath : Path step s ls s') (hls : ∀ l ∈ ls, allowed l) (hs : motive s) : motive s' := by
  induction hpath with
  | nil => exact hs
  | @snoc s' s'' ls l _ hlast ih =>
      have hinitial := ih fun l hl => hls l (List.mem_append_left _ hl)
      exact hstep _ _ _ (hls l (List.mem_append_right _ (List.mem_singleton_self l))) hinitial hlast

theorem Run.start {s : σ} (hs : init s) : Run init step [] s :=
  ⟨s, hs, .nil s⟩

theorem Run.snoc {s s' : σ} {ls : List ℓ} {l : ℓ} (hrun : Run init step ls s)
    (hstep : step s l s') : Run init step (ls ++ [l]) s' := by
  obtain ⟨s₀, hinit, hpath⟩ := hrun
  exact ⟨s₀, hinit, hpath.snoc hstep⟩

theorem Run.append {s s' : σ} {ls ls' : List ℓ} (hrun : Run init step ls s)
    (hpath : Path step s ls' s') : Run init step (ls ++ ls') s' := by
  obtain ⟨s₀, hinit, hfirst⟩ := hrun
  exact ⟨s₀, hinit, hfirst.append hpath⟩

/-- The induction rule of runs: an invariant of the history and the state holds
of every run if it holds initially and one more step preserves it. -/
theorem Run.induction {motive : List ℓ → σ → Prop}
    (start : ∀ s, init s → motive [] s)
    (next : ∀ ls s l s', Run init step ls s → motive ls s → step s l s' → motive (ls ++ [l]) s')
    {ls : List ℓ} {s : σ} (hrun : Run init step ls s) : motive ls s := by
  obtain ⟨s₀, hinit, hpath⟩ := hrun
  induction hpath with
  | nil => exact start _ hinit
  | snoc hinitial hstep ih => exact next _ _ _ _ ⟨s₀, hinit, hinitial⟩ ih hstep

end Transition
