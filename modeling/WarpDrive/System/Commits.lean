import WarpDrive.System.Members

/-!
# Invariants of the system

A world changes in two ways: a contract is deployed, or an invocation is committed.
`Commits` says what is known when an invocation is about to be committed: the contract
ran, from a world that occurs, and what it invoked led to another that occurs.
`run_induction` and `Reachable.induction` are the induction rules of the system: a property
of worlds that deployments and commits preserve holds of every reachable system, whatever
the nesting and the order of the invocations.
-/

namespace WarpDrive

variable {p : Platform} {tx : Transaction} {stack : List Address} {w w' : World}
  {J : List Invocation}

theorem Extends.mono {stack' : List Address} (h : Extends p tx stack w w' J)
    (hsub : stack' ⊆ stack) : Extends p tx stack' w w' J :=
  { h with untouched := fun a ha => h.untouched a (hsub ha) }

theorem Occurs.extends (h : Occurs p tx stack w) (hextends : Extends p tx stack w w' J) :
    Occurs p tx stack w' := by
  obtain ⟨sys, J', hreach, hledger, hbefore⟩ := h
  exact ⟨sys, _, hreach, hledger, hbefore.trans hextends⟩

/-- From `w`, the contract `inst` at `target` runs `call` and returns; `frame` is what it
leaves, below the commit. -/
structure Commits (p : Platform) (tx : Transaction) (stack : List Address) (target : Address)
    (call : Call) (w : World) (inst : Instance) (frame : Frame Instance World) : Prop where
  occurs : Occurs p tx [] w
  occurs_below : Occurs p tx [] frame.world
  notMem : target ∉ stack
  inst_eq : w.contracts target = some inst
  runs : ∃ depth v, dispatch p (hostBelow p tx depth (target :: stack)) (tx.env stack target call)
    call inst w = .ok (v, frame)
  extends_below : ∃ J, Extends p tx (target :: stack) w frame.world J

namespace Commits

variable {target : Address} {call : Call} {inst : Instance} {frame : Frame Instance World}

theorem executes (h : Commits p tx stack target call w inst frame) :
    inst.Executes p ⟨tx.env stack target call, call⟩ frame.storage := by
  obtain ⟨depth, v, hrun⟩ := h.runs
  exact ⟨World, _, w, frame.world, v, hrun⟩

/-- What the contract invoked did not reach it. -/
theorem inst_eq_below (h : Commits p tx stack target call w inst frame) :
    frame.world.contracts target = some inst := by
  obtain ⟨J, hextends⟩ := h.extends_below
  rw [(hextends.untouched target List.mem_cons_self).1, h.inst_eq]

end Commits

/-- What every commit preserves, every invocation preserves. -/
theorem Occurs.invoke_preserves {I : World → Prop}
    (hcommit : ∀ stack target call w inst frame, Commits p tx stack target call w inst frame →
      I w → I frame.world →
      I (frame.world.commit target frame.storage ⟨tx.env stack target call, call⟩))
    (depth : ℕ) (stack : List Address) (target : Address) (call : Call) {w : World}
    (hw : Occurs p tx [] w) (h : I w) : I (invoke p tx depth stack target call w).2 := by
  -- on the depth: what the called contract invokes runs one frame deeper
  induction depth generalizing stack target call w with
  | zero => exact h
  | succ depth ih =>
      rcases invoke_cases p tx (depth + 1) stack target call w with
        ⟨e, hfailed⟩ | ⟨below, inst, v, frame, hdepth, hstack, hinst, hrun, hcommitted⟩
      · rw [hfailed]
        exact h
      obtain rfl : depth = below := Nat.succ_injective hdepth
      rw [hcommitted]
      -- the contract invokes others one after the other
      have hbelow : ∀ u, Visits (hostBelow p tx depth (target :: stack))
          (Outgoing (tx.env stack target call) call inst) w u →
          Occurs p tx [] u ∧ (∃ J, Extends p tx (target :: stack) w u J) ∧ I u := by
        intro u hvisits
        induction hvisits with
        | refl => exact ⟨hw, ⟨[], .refl _ _⟩, h⟩
        | tail _ hstep ih' =>
            obtain ⟨hoccurs, ⟨J, hJ⟩, hu⟩ := ih'
            obtain ⟨a, c, -, rfl⟩ := hstep
            obtain ⟨J', hJ'⟩ := invoke_extends p tx depth (target :: stack) a c _
            exact ⟨hoccurs.extends (hJ'.mono (List.nil_subset _)), ⟨J ++ J', hJ.trans hJ'⟩,
              ih _ _ _ hoccurs hu⟩
      obtain ⟨hoccurs, hextends, hframe⟩ := hbelow frame.world (dispatch_visits hrun)
      exact hcommit stack target call w inst frame
        ⟨hw, hoccurs, hstack, hinst, ⟨depth, v, hrun⟩, hextends⟩ h hframe

/-- The induction rule of the system, for runs of operations that are allowed. -/
theorem run_induction {I : World → Prop} {allowed : Operation → Prop}
    (genesis : I ⟨fun _ => none, []⟩)
    (deploy : ∀ (w : World) (a : Address) (inst : Instance), allowed (.deploy a inst) →
      w.contracts a = none → inst.Deployed → (∃ L, Consistent p ⟨w, L⟩) → I w →
      I { w with contracts := Function.update w.contracts a (some inst) })
    (commit : ∀ tx stack target call w inst frame, Commits p tx stack target call w inst frame →
      I w → I frame.world →
      I (frame.world.commit target frame.storage ⟨tx.env stack target call, call⟩))
    {ops : List Operation} {sys : System} (hrun : Transition.Run Genesis (Step p) ops sys)
    (hallowed : ∀ op ∈ ops, allowed op) : I sys.world := by
  refine Transition.Run.induction
    (motive := fun ops sys => (∀ op ∈ ops, allowed op) → I sys.world) ?_ ?_ hrun hallowed
  · rintro sys rfl -
    exact genesis
  · intro ops sys op sys' hops ih hstep hallowed
    have hreach : Reachable p sys := ⟨ops, hops⟩
    have hbefore := ih fun op hop => hallowed op (List.mem_append_left _ hop)
    cases hstep with
    | deploy a inst hfresh hdeployed =>
        exact deploy sys.world a inst (hallowed _ (by simp)) hfresh hdeployed
          ⟨sys.ledger, hreach.consistent⟩ hbefore
    | transact tx target call hledger =>
        exact Occurs.invoke_preserves (commit tx) depthLimit [] target call
          (hreach.occurs hledger) hbefore

/-- The induction rule of the system. -/
theorem Reachable.induction {I : World → Prop}
    (genesis : I ⟨fun _ => none, []⟩)
    (deploy : ∀ (w : World) (a : Address) (inst : Instance), w.contracts a = none →
      inst.Deployed → (∃ L, Consistent p ⟨w, L⟩) → I w →
      I { w with contracts := Function.update w.contracts a (some inst) })
    (commit : ∀ tx stack target call w inst frame, Commits p tx stack target call w inst frame →
      I w → I frame.world →
      I (frame.world.commit target frame.storage ⟨tx.env stack target call, call⟩))
    {sys : System} (h : Reachable p sys) : I sys.world := by
  obtain ⟨ops, hrun⟩ := h
  exact @run_induction p I (fun _ => True) genesis (fun w a inst _ => deploy w a inst) commit
    ops sys hrun fun _ _ => trivial

end WarpDrive
