import Mathlib.Data.Nat.Notation
import Mathlib.Logic.Relation

/-!
# Scripts that may be interrupted

A `Script` performs actions on a world that it does not own, one after the other, and
decides by the answers what to do next.  An action may come back with an error, whether
it took effect or not; others may act between two actions; and whoever runs the script
may stop at any point.  `Setting.Runs` lists all that can happen.

`Setting.Triple` is the logic of such runs.  A triple has a postcondition for each of
the two ways in which a script ends, and it also keeps an invariant after every action
and says which actions the script may perform, so that it speaks about the runs that
are stopped as well (`Setting.Runs.sound`).  A precondition has to be stable under what
others do where an action follows, and only there.
-/

namespace Interaction

/-- A program that performs actions `i : ι`, with answers in `ρ i`, and that returns a
value or fails with an error. -/
inductive Script (ι : Type) (ρ : ι → Type) (ε α : Type) : Type where
  | ret (a : α)
  | fail (e : ε)
  | act (i : ι) (next : Except ε (ρ i) → Script ι ρ ε α)

/-- How a run ends. -/
inductive Outcome (ε α : Type) where
  | returned (a : α)
  | failed (e : ε)
  | stopped
deriving DecidableEq, Repr

variable {ι : Type} {ρ : ι → Type} {ε α β τ W : Type}

namespace Script

def bind : Script ι ρ ε α → (α → Script ι ρ ε β) → Script ι ρ ε β
  | ret a, f => f a
  | fail e, _ => fail e
  | act i next, f => act i fun r => (next r).bind f

instance : Monad (Script ι ρ ε) where
  pure := ret
  bind := bind

@[simp] theorem pure_bind (a : α) (f : α → Script ι ρ ε β) :
    (pure a >>= f : Script ι ρ ε β) = f a :=
  rfl

/-- Perform one action. -/
def perform (i : ι) : Script ι ρ ε (ρ i) :=
  act i fun
    | .ok a => ret a
    | .error e => fail e

/-- Go on with `handler` where the script fails. -/
def tryCatch : Script ι ρ ε α → (ε → Script ι ρ ε α) → Script ι ρ ε α
  | ret a, _ => ret a
  | fail e, handler => handler e
  | act i next, handler => act i fun r => (next r).tryCatch handler

/-- Run a script again, up to `retries` times, while its error is `retryable`. -/
def retry (retryable : ε → Bool) (op : Script ι ρ ε α) : ℕ → Script ι ρ ε α
  | 0 => op
  | retries + 1 => op.tryCatch fun e =>
      if retryable e then retry retryable op retries else fail e

/-- Run the script for each element of a list. -/
def forEach (body : τ → Script ι ρ ε Unit) : List τ → Script ι ρ ε Unit
  | [] => ret ()
  | t :: ts => (body t).bind fun _ => forEach body ts

/-! ### Scripts of some actions only -/

/-- The script performs actions of one kind. -/
def Only (kind : ι → Prop) : Script ι ρ ε α → Prop
  | ret _ => True
  | fail _ => True
  | act i next => kind i ∧ ∀ r, (next r).Only kind

section Only

variable {kind : ι → Prop} {s : Script ι ρ ε α}

theorem Only.perform {i : ι} (hi : kind i) : (perform i : Script ι ρ ε (ρ i)).Only kind := by
  refine ⟨hi, fun r => ?_⟩
  cases r with
  | ok a => trivial
  | error e => trivial

theorem Only.bind {f : α → Script ι ρ ε β} (hs : s.Only kind) (hf : ∀ a, (f a).Only kind) :
    (s >>= f).Only kind := by
  induction s with
  | ret a => exact hf a
  | fail e => trivial
  | act i next ih => exact ⟨hs.1, fun r => ih r (hs.2 r)⟩

theorem Only.tryCatch {handler : ε → Script ι ρ ε α} (hs : s.Only kind)
    (hhandler : ∀ e, (handler e).Only kind) : (s.tryCatch handler).Only kind := by
  induction s with
  | ret a => trivial
  | fail e => exact hhandler e
  | act i next ih => exact ⟨hs.1, fun r => ih r (hs.2 r)⟩

theorem Only.retry {retryable : ε → Bool} (hs : s.Only kind) (retries : ℕ) :
    (s.retry retryable retries).Only kind := by
  induction retries with
  | zero => exact hs
  | succ retries ih =>
      apply hs.tryCatch
      intro e
      split
      · exact ih
      · trivial

theorem Only.forEach {body : τ → Script ι ρ ε Unit} {ts : List τ}
    (hbody : ∀ t ∈ ts, (body t).Only kind) : (forEach body ts).Only kind := by
  induction ts with
  | nil => trivial
  | cons t ts ih =>
      exact (hbody t List.mem_cons_self).bind fun _ =>
        ih fun t' ht' => hbody t' (List.mem_cons_of_mem t ht')

end Only

/-! ### Scripts of bounded length -/

/-- The script performs at most `n` actions. -/
def AtMost : Script ι ρ ε α → ℕ → Prop
  | ret _, _ => True
  | fail _, _ => True
  | act _ _, 0 => False
  | act _ next, n + 1 => ∀ r, (next r).AtMost n

section AtMost

variable {n n' : ℕ} {s : Script ι ρ ε α}

theorem AtMost.perform (i : ι) : (perform i : Script ι ρ ε (ρ i)).AtMost 1 := by
  intro r
  cases r with
  | ok a => trivial
  | error e => trivial

theorem AtMost.mono (hs : s.AtMost n) (hle : n ≤ n') : s.AtMost n' := by
  induction s generalizing n n' with
  | ret a => trivial
  | fail e => trivial
  | act i next ih =>
      cases n with
      | zero => exact hs.elim
      | succ n =>
          cases n' with
          | zero => omega
          | succ n' => exact fun r => ih r (hs r) (Nat.le_of_succ_le_succ hle)

theorem AtMost.bind {f : α → Script ι ρ ε β} (hs : s.AtMost n) (hf : ∀ a, (f a).AtMost n') :
    (s >>= f).AtMost (n + n') := by
  induction s generalizing n with
  | ret a => exact (hf a).mono (Nat.le_add_left _ _)
  | fail e => trivial
  | act i next ih =>
      cases n with
      | zero => exact hs.elim
      | succ n =>
          rw [Nat.add_right_comm]
          exact fun r => ih r (hs r)

theorem AtMost.tryCatch {handler : ε → Script ι ρ ε α} (hs : s.AtMost n)
    (hhandler : ∀ e, (handler e).AtMost n') : (s.tryCatch handler).AtMost (n + n') := by
  induction s generalizing n with
  | ret a => trivial
  | fail e => exact (hhandler e).mono (Nat.le_add_left _ _)
  | act i next ih =>
      cases n with
      | zero => exact hs.elim
      | succ n =>
          rw [Nat.add_right_comm]
          exact fun r => ih r (hs r)

theorem AtMost.retry {retryable : ε → Bool} (hs : s.AtMost n) (retries : ℕ) :
    (s.retry retryable retries).AtMost (n * (retries + 1)) := by
  induction retries with
  | zero => exact hs.mono (by simp)
  | succ retries ih =>
      have hsplit : n * (retries + 1 + 1) = n + n * (retries + 1) := by
        rw [Nat.mul_succ, Nat.add_comm]
      rw [hsplit]
      apply hs.tryCatch
      intro e
      split
      · exact ih
      · trivial

end AtMost

/-! ### More actions -/

/-- The script, where there are other actions besides its own. -/
def among {κ : Type} (σ : κ → Type) : Script ι ρ ε α → Script (ι ⊕ κ) (Sum.elim ρ σ) ε α
  | ret a => ret a
  | fail e => fail e
  | act i next => act (.inl i) fun r => (next r).among σ

end Script

/-- What an action can come back with and leave behind, and what others can do. -/
structure Setting (ι : Type) (ρ : ι → Type) (ε W : Type) where
  acts : W → (i : ι) → Except ε (ρ i) → W → Prop
  others : W → W → Prop

namespace Setting

open Relation (ReflTransGen)

variable (S : Setting ι ρ ε W)

/-- The runs of a script, with the actions performed, in order. -/
inductive Runs : Script ι ρ ε α → W → List ι → Outcome ε α → W → Prop
  | stop (s : Script ι ρ ε α) (w : W) : Runs s w [] .stopped w
  | ret (a : α) (w : W) : Runs (.ret a) w [] (.returned a) w
  | fail (e : ε) (w : W) : Runs (.fail e) w [] (.failed e) w
  | act {i : ι} {next : Except ε (ρ i) → Script ι ρ ε α} {w w' w'' : W}
      {r : Except ε (ρ i)} {trace : List ι} {o : Outcome ε α} (hact : S.acts w i r w')
      (hrest : Runs (next r) w' trace o w'') : Runs (.act i next) w (i :: trace) o w''
  | wait {s : Script ι ρ ε α} {w w' w'' : W} {trace : List ι} {o : Outcome ε α}
      (hothers : S.others w w') (hrest : Runs s w' trace o w'') : Runs s w trace o w''

/-- Others cannot make it false. -/
def Stable (P : W → Prop) : Prop :=
  ∀ w w', S.others w w' → P w → P w'

variable {S}

theorem Stable.star {P : W → Prop} (h : S.Stable P) {w w' : W}
    (hothers : ReflTransGen S.others w w') (hw : P w) : P w' := by
  induction hothers with
  | refl => exact hw
  | tail _ hstep ih => exact h _ _ hstep ih

theorem Stable.and {P Q : W → Prop} (hP : S.Stable P) (hQ : S.Stable Q) :
    S.Stable fun w => P w ∧ Q w :=
  fun w w' hothers h => ⟨hP w w' hothers h.1, hQ w w' hothers h.2⟩

/-! ## Runs of composed scripts -/

theorem Runs.bind {s : Script ι ρ ε α} {f : α → Script ι ρ ε β} {w w' w'' : W}
    {trace trace' : List ι} {a : α} {o : Outcome ε β} (hs : S.Runs s w trace (.returned a) w')
    (hf : S.Runs (f a) w' trace' o w'') : S.Runs (s.bind f) w (trace ++ trace') o w'' := by
  generalize ho : Outcome.returned a = outcome at hs
  induction hs with
  | stop s w => cases ho
  | ret a' w =>
      cases ho
      exact hf
  | fail e w => cases ho
  | act hact _ ih => exact .act hact (ih hf ho)
  | wait hothers _ ih => exact .wait hothers (ih hf ho)

theorem Runs.bind_stopped {s : Script ι ρ ε α} {f : α → Script ι ρ ε β} {w w' : W}
    {trace : List ι} (hs : S.Runs s w trace .stopped w') :
    S.Runs (s.bind f) w trace .stopped w' := by
  generalize ho : (Outcome.stopped : Outcome ε α) = outcome at hs
  induction hs with
  | stop s w => exact .stop _ w
  | ret a w => cases ho
  | fail e w => cases ho
  | act hact _ ih => exact .act hact (ih ho)
  | wait hothers _ ih => exact .wait hothers (ih ho)

theorem Runs.perform {i : ι} {a : ρ i} {w w' : W} (h : S.acts w i (.ok a) w') :
    S.Runs (.perform i) w [i] (.returned a) w' :=
  .act h (.ret a w')

/-- What does not fail is not caught. -/
theorem Runs.tryCatch {s : Script ι ρ ε α} {handler : ε → Script ι ρ ε α} {w w' : W}
    {trace : List ι} {a : α} (h : S.Runs s w trace (.returned a) w') :
    S.Runs (s.tryCatch handler) w trace (.returned a) w' := by
  generalize ho : Outcome.returned a = outcome at h
  induction h with
  | stop s w => cases ho
  | ret a' w => exact .ret a' w
  | fail e w => cases ho
  | act hact _ ih => exact .act hact (ih ho)
  | wait hothers _ ih => exact .wait hothers (ih ho)

/-- What fails is caught. -/
theorem Runs.tryCatch_failed {s : Script ι ρ ε α} {handler : ε → Script ι ρ ε α} {w w' w'' : W}
    {trace trace' : List ι} {e : ε} {o : Outcome ε α} (h : S.Runs s w trace (.failed e) w')
    (hhandler : S.Runs (handler e) w' trace' o w'') :
    S.Runs (s.tryCatch handler) w (trace ++ trace') o w'' := by
  generalize ho : Outcome.failed e = outcome at h
  induction h with
  | stop s w => cases ho
  | ret a w => cases ho
  | fail e' w =>
      cases ho
      exact hhandler
  | act hact _ ih => exact .act hact (ih hhandler ho)
  | wait hothers _ ih => exact .wait hothers (ih hhandler ho)

/-- The first attempt may be the last. -/
theorem Runs.retry {op : Script ι ρ ε α} {retryable : ε → Bool} {retries : ℕ} {w w' : W}
    {trace : List ι} {a : α} (h : S.Runs op w trace (.returned a) w') :
    S.Runs (op.retry retryable retries) w trace (.returned a) w' := by
  cases retries with
  | zero => exact h
  | succ retries => exact h.tryCatch

/-- After an attempt that failed there are more. -/
theorem Runs.retry_failed {op : Script ι ρ ε α} {retryable : ε → Bool} {retries : ℕ}
    {w w' w'' : W} {trace trace' : List ι} {e : ε} {o : Outcome ε α}
    (h : S.Runs op w trace (.failed e) w') (hretryable : retryable e = true)
    (hagain : S.Runs (op.retry retryable retries) w' trace' o w'') :
    S.Runs (op.retry retryable (retries + 1)) w (trace ++ trace') o w'' := by
  apply h.tryCatch_failed
  rw [if_pos hretryable]
  exact hagain

theorem Runs.length_le {s : Script ι ρ ε α} {w w' : W} {trace : List ι} {o : Outcome ε α} {n : ℕ}
    (h : S.Runs s w trace o w') (hs : s.AtMost n) : trace.length ≤ n := by
  induction h generalizing n with
  | stop s w => exact Nat.zero_le n
  | ret a w => exact Nat.zero_le n
  | fail e w => exact Nat.zero_le n
  | act _ _ ih =>
      cases n with
      | zero => exact hs.elim
      | succ n => exact Nat.succ_le_succ (ih (hs _))
  | wait _ _ ih => exact ih hs

/-- Where every action is answered, a script can be run to its end. -/
theorem exists_run {ready : W → Prop}
    (hanswered : ∀ w i, ready w → ∃ r w', S.acts w i r w' ∧ ready w') (s : Script ι ρ ε α) {w : W}
    (hw : ready w) : ∃ trace o w', S.Runs s w trace o w' ∧ o ≠ .stopped := by
  induction s generalizing w with
  | ret a => exact ⟨[], .returned a, w, .ret a w, nofun⟩
  | fail e => exact ⟨[], .failed e, w, .fail e w, nofun⟩
  | act i next ih =>
      obtain ⟨r, w', hact, hw'⟩ := hanswered w i hw
      obtain ⟨trace, o, w'', hrun, hended⟩ := ih r hw'
      exact ⟨i :: trace, o, w'', .act hact hrun, hended⟩

/-! ## Triples -/

section Logic

variable (S) (inv : W → Prop) (allowed : ι → Prop)

/-- The verification condition of a script: from `w` on it performs allowed actions
only, the invariant holds after each, and it ends as `post` and `err` say. -/
def VC (post : α → W → Prop) (err : ε → W → Prop) : Script ι ρ ε α → W → Prop
  | .ret a, w => post a w
  | .fail e, w => err e w
  | .act i next, w => ∀ w₁, ReflTransGen S.others w w₁ → allowed i ∧
      ∀ r w', S.acts w₁ i r w' → inv w' ∧ VC post err (next r) w'

/-- From `pre` on, the script keeps the invariant, performs allowed actions only and ends
in `post`, or with an error in `err`. -/
def Triple (pre : W → Prop) (s : Script ι ρ ε α) (post : α → W → Prop)
    (err : ε → W → Prop) : Prop :=
  ∀ w, pre w → S.VC inv allowed post err s w

end Logic

variable {inv : W → Prop} {allowed : ι → Prop}

section Rules

variable {pre pre' mid : W → Prop} {s : Script ι ρ ε α} {post post' : α → W → Prop}
  {err err' : ε → W → Prop}

theorem VC.mono {w : W} (hpost : ∀ a w, post a w → post' a w) (herr : ∀ e w, err e w → err' e w)
    (h : S.VC inv allowed post err s w) : S.VC inv allowed post' err' s w := by
  induction s generalizing w with
  | ret a => exact hpost a w h
  | fail e => exact herr e w h
  | act i next ih =>
      intro w₁ hothers
      obtain ⟨hallowed, hnext⟩ := h w₁ hothers
      refine ⟨hallowed, fun r w' hact => ?_⟩
      obtain ⟨hinv, hrest⟩ := hnext r w' hact
      exact ⟨hinv, ih r hrest⟩

theorem VC.bind {f : α → Script ι ρ ε β} {postb : β → W → Prop} {w : W}
    (hs : S.VC inv allowed post err s w)
    (hf : ∀ a w, post a w → S.VC inv allowed postb err (f a) w) :
    S.VC inv allowed postb err (s.bind f) w := by
  induction s generalizing w with
  | ret a => exact hf a w hs
  | fail e => exact hs
  | act i next ih =>
      intro w₁ hothers
      obtain ⟨hallowed, hnext⟩ := hs w₁ hothers
      refine ⟨hallowed, fun r w' hact => ?_⟩
      obtain ⟨hinv, hrest⟩ := hnext r w' hact
      exact ⟨hinv, ih r hrest⟩

theorem VC.tryCatch {handler : ε → Script ι ρ ε α} {w : W}
    (hs : S.VC inv allowed post err s w)
    (hhandler : ∀ e w, err e w → S.VC inv allowed post err' (handler e) w) :
    S.VC inv allowed post err' (s.tryCatch handler) w := by
  induction s generalizing w with
  | ret a => exact hs
  | fail e => exact hhandler e w hs
  | act i next ih =>
      intro w₁ hothers
      obtain ⟨hallowed, hnext⟩ := hs w₁ hothers
      refine ⟨hallowed, fun r w' hact => ?_⟩
      obtain ⟨hinv, hrest⟩ := hnext r w' hact
      exact ⟨hinv, ih r hrest⟩

theorem Triple.consequence (h : S.Triple inv allowed pre s post err)
    (hpre : ∀ w, pre' w → pre w) (hpost : ∀ a w, post a w → post' a w)
    (herr : ∀ e w, err e w → err' e w) : S.Triple inv allowed pre' s post' err' :=
  fun w hw => (h w (hpre w hw)).mono hpost herr

theorem Triple.strengthen (h : S.Triple inv allowed pre s post err)
    (hpre : ∀ w, pre' w → pre w) : S.Triple inv allowed pre' s post err :=
  fun w hw => h w (hpre w hw)

theorem Triple.ret {a : α} (h : ∀ w, pre w → post a w) :
    S.Triple inv allowed pre (pure a) post err :=
  h

theorem Triple.fail {e : ε} (h : ∀ w, pre w → err e w) :
    S.Triple inv allowed pre (.fail e : Script ι ρ ε α) post err :=
  h

theorem Triple.bind {f : α → Script ι ρ ε β} {postb : β → W → Prop}
    (hs : S.Triple inv allowed pre s post err)
    (hf : ∀ a, S.Triple inv allowed (post a) (f a) postb err) :
    S.Triple inv allowed pre (s >>= f) postb err :=
  fun w hw => (hs w hw).bind fun a w ha => hf a w ha

theorem Triple.tryCatch {handler : ε → Script ι ρ ε α}
    (hs : S.Triple inv allowed pre s post err)
    (hhandler : ∀ e, S.Triple inv allowed (err e) (handler e) post err') :
    S.Triple inv allowed pre (s.tryCatch handler) post err' :=
  fun w hw => (hs w hw).tryCatch fun e w he => hhandler e w he

theorem Triple.perform {i : ι} {post : ρ i → W → Prop} (hstable : S.Stable pre)
    (hallowed : allowed i)
    (hact : ∀ w r w', pre w → S.acts w i r w' → inv w' ∧
      (∀ a, r = .ok a → post a w') ∧ ∀ e, r = .error e → err e w') :
    S.Triple inv allowed pre (.perform i) post err := by
  intro w hw w₁ hothers
  refine ⟨hallowed, fun r w' hstep => ?_⟩
  obtain ⟨hinv, hpost, herr⟩ := hact w₁ r w' (hstable.star hothers hw) hstep
  refine ⟨hinv, ?_⟩
  cases r with
  | ok a => exact hpost a rfl
  | error e => exact herr e rfl

/-- A script may be run again after an error that left its precondition. -/
theorem Triple.retry {retryable : ε → Bool} {retries : ℕ}
    (h : S.Triple inv allowed pre s post fun e w => pre w ∧ err e w) :
    S.Triple inv allowed pre (s.retry retryable retries) post err := by
  induction retries with
  | zero => exact h.consequence (fun _ => id) (fun _ _ => id) fun _ _ he => he.2
  | succ retries ih =>
      apply h.tryCatch
      intro e
      split
      · exact ih.strengthen fun _ he => he.1
      · exact .fail fun _ he => he.2

/-- What a precondition says without the world may be taken out of it. -/
theorem Triple.given {p : Prop} (h : p → S.Triple inv allowed pre s post err) :
    S.Triple inv allowed (fun w => p ∧ pre w) s post err := by
  rintro w ⟨hp, hw⟩
  exact h hp w hw

/-- A loop, with an assertion about the elements done so far. -/
theorem Triple.forEach {body : τ → Script ι ρ ε Unit} {ts : List τ} (done : List τ → W → Prop)
    (before : List τ) (hbody : ∀ before, ∀ t ∈ ts,
      S.Triple inv allowed (done before) (body t) (fun _ => done (before ++ [t])) err) :
    S.Triple inv allowed (done before) (Script.forEach body ts)
      (fun _ => done (before ++ ts)) err := by
  induction ts generalizing before with
  | nil =>
      rw [List.append_nil]
      exact fun _ hw => hw
  | cons t ts ih =>
      rw [List.append_cons]
      refine (hbody before t List.mem_cons_self).bind fun _ =>
        ih (before ++ [t]) fun before t ht => ?_
      exact hbody before t (List.mem_cons_of_mem _ ht)

/-- What every action of the kind keeps, a script of such actions keeps. -/
theorem Triple.only {kind : ι → Prop} (hs : s.Only kind) (hallowed : ∀ i, kind i → allowed i)
    (hstable : S.Stable pre)
    (hacts : ∀ i w r w', kind i → pre w → S.acts w i r w' → inv w' ∧ pre w') :
    S.Triple inv allowed pre s (fun _ => pre) fun _ => pre := by
  induction s with
  | ret a => exact fun w hw => hw
  | fail e => exact fun w hw => hw
  | act i next ih =>
      intro w hw w₁ hothers
      refine ⟨hallowed i hs.1, fun r w' hact => ?_⟩
      obtain ⟨hinv, hpre⟩ := hacts i w₁ r w' hs.1 (hstable.star hothers hw) hact
      exact ⟨hinv, ih r (hs.2 r) w' hpre⟩

end Rules

/-- What a triple says about a run, wherever it was stopped. -/
theorem Runs.sound {s : Script ι ρ ε α} {post : α → W → Prop} {err : ε → W → Prop} {w w' : W}
    {trace : List ι} {o : Outcome ε α} (hrun : S.Runs s w trace o w') (hinv : S.Stable inv)
    (hvc : S.VC inv allowed post err s w) (hw : inv w) :
    inv w' ∧ (∀ i ∈ trace, allowed i) ∧
      (∀ a, o = .returned a → ∃ w₁, post a w₁ ∧ ReflTransGen S.others w₁ w') ∧
      ∀ e, o = .failed e → ∃ w₁, err e w₁ ∧ ReflTransGen S.others w₁ w' := by
  -- the condition was established at some `w₀`, and others have acted since
  suffices h : ∀ w₀, S.VC inv allowed post err s w₀ → ReflTransGen S.others w₀ w → inv w' ∧
      (∀ i ∈ trace, allowed i) ∧
      (∀ a, o = .returned a → ∃ w₁, post a w₁ ∧ ReflTransGen S.others w₁ w') ∧
      ∀ e, o = .failed e → ∃ w₁, err e w₁ ∧ ReflTransGen S.others w₁ w' from
    h w hvc .refl
  clear hvc
  induction hrun with
  | stop s w => exact fun w₀ _ _ => ⟨hw, by simp, nofun, nofun⟩
  | ret a w =>
      intro w₀ hvc hothers
      refine ⟨hw, by simp, ?_, nofun⟩
      rintro _ ⟨rfl⟩
      exact ⟨w₀, hvc, hothers⟩
  | fail e w =>
      intro w₀ hvc hothers
      refine ⟨hw, by simp, nofun, ?_⟩
      rintro _ ⟨rfl⟩
      exact ⟨w₀, hvc, hothers⟩
  | act hact _ ih =>
      intro w₀ hvc hothers
      obtain ⟨hallowed, hnext⟩ := hvc _ hothers
      obtain ⟨hinv', hrest⟩ := hnext _ _ hact
      obtain ⟨hend, htrace, hended⟩ := ih hinv' _ hrest .refl
      exact ⟨hend, List.forall_mem_cons.mpr ⟨hallowed, htrace⟩, hended⟩
  | wait hstep _ ih =>
      intro w₀ hvc hothers
      exact ih (hinv _ _ hstep hw) w₀ hvc (hothers.tail hstep)

/-! ## More actions -/

section Extend

variable {κ : Type} {σ : κ → Type} (S)

/-- The setting with other actions besides its own. -/
def extend (acts : W → (k : κ) → Except ε (σ k) → W → Prop) :
    Setting (ι ⊕ κ) (Sum.elim ρ σ) ε W where
  acts w
    | .inl i, r, w' => S.acts w i r w'
    | .inr k, r, w' => acts w k r w'
  others := S.others

variable {S} {acts : W → (k : κ) → Except ε (σ k) → W → Prop}

/-- The runs of a script are runs of it where there are more actions. -/
theorem Runs.among {s : Script ι ρ ε α} {w w' : W} {trace : List ι} {o : Outcome ε α}
    (h : S.Runs s w trace o w') :
    (S.extend acts).Runs (s.among σ) w (trace.map Sum.inl) o w' := by
  induction h with
  | stop s w => exact .stop _ w
  | ret a w => exact .ret a w
  | fail e w => exact .fail e w
  | act hact _ ih => exact .act hact ih
  | wait hothers _ ih => exact .wait hothers ih

/-- What holds of a script holds of it where there are more actions. -/
theorem Triple.among {inv : W → Prop} {allowed : ι → Prop} {allowed' : ι ⊕ κ → Prop}
    {pre : W → Prop} {s : Script ι ρ ε α} {post : α → W → Prop} {err : ε → W → Prop}
    (h : S.Triple inv allowed pre s post err) (hallowed : ∀ i, allowed i → allowed' (.inl i)) :
    (S.extend acts).Triple inv allowed' pre (s.among σ) post err := by
  suffices hvc : ∀ w, S.VC inv allowed post err s w →
      (S.extend acts).VC inv allowed' post err (s.among σ) w from
    fun w hw => hvc w (h w hw)
  clear h
  induction s with
  | ret a => exact fun w hw => hw
  | fail e => exact fun w hw => hw
  | act i next ih =>
      intro w hvc w₁ hothers
      obtain ⟨hi, hnext⟩ := hvc w₁ hothers
      refine ⟨hallowed i hi, fun r w' hact => ?_⟩
      obtain ⟨hinv, hrest⟩ := hnext r w' hact
      exact ⟨hinv, ih r w' hrest⟩

end Extend

end Setting

end Interaction
