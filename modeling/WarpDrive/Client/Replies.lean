import WarpDrive.Client.Methods
import WarpDrive.Guarantees.Attestation

/-!
# What the contracts answer

A method that reads decodes values of one type.  `ReadMethod.answers` says that the contract
answers its call with such a value and no other, so the decoder is never given anything that
it reads as something else.  `Yields` bounds what a contract function returns; it follows the
shape of the function.
-/

namespace WarpDrive.Client

/-- What a contract is to the clients. -/
def Kind.of : Shape → Option Kind
  | .security t => some (.security t)
  | .verification t _ => some (.verification t)
  | .handler t _ => some (.handler t)
  | .projectRoot .. => some .projectRoot
  | .foreign => none

/-! ## The values that a function returns -/

section Yields

variable {σ τ ε α : Type} {R : Val → Prop}

/-- Where it returns, the value is one of `R`. -/
def Yields (R : Val → Prop) (m : Contract σ ε Val) : Prop :=
  ∀ s v s', m.run s = .ok (v, s') → R v

namespace Yields

theorem view {f : σ → Option Val} (h : ∀ s v, f s = some v → R v) :
    Yields R (WarpDrive.view f : Contract σ ε Val) := by
  intro s v s' hrun
  exact h s v (view_run_eq_ok.mp hrun).1

/-- A query that always has an answer. -/
theorem view_some {f : σ → Val} (h : ∀ s, R (f s)) :
    Yields R (WarpDrive.view (fun s => some (f s)) : Contract σ ε Val) :=
  .view fun s _ hv => Option.some.inj hv ▸ h s

theorem view_map {f : σ → Option α} {g : α → Val} (h : ∀ a, R (g a)) :
    Yields R (WarpDrive.view (fun s => (f s).map g) : Contract σ ε Val) := by
  refine .view fun s v hv => ?_
  obtain ⟨a, -, rfl⟩ := Option.map_eq_some_iff.mp hv
  exact h a

theorem bind {m : Contract σ ε α} {k : α → Contract σ ε Val} (h : ∀ a, Yields R (k a)) :
    Yields R (m >>= k) := by
  intro s v s' hrun
  obtain ⟨a, s₁, -, hk⟩ := bind_run_eq_ok.mp hrun
  exact h a s₁ v s' hk

theorem pure {v : Val} (h : R v) : Yields R (Pure.pure v : Contract σ ε Val) := by
  intro s v' s' hrun
  cases hrun
  exact h

theorem zoom {get : σ → τ} {set : σ → τ → σ} {m : Contract τ ε Val} (h : Yields R m) :
    Yields R (WarpDrive.zoom get set m) := by
  intro s v s' hrun
  obtain ⟨t, hm, -⟩ := zoom_run_eq_ok.mp hrun
  exact h _ v t hm

theorem onStorage {ω : Type} {m : Contract σ ε Val} (h : Yields R m) :
    Yields R (WarpDrive.onStorage m : Contract (Frame σ ω) ε Val) :=
  h.zoom

end Yields

/-- The queries of the shared interface. -/
theorem yields_base {env : Env} {c : Call} (h : ∀ b r, Base.answer env c b = some r → R r.1) :
    Yields R (warpDriveInterface env c : Contract Base ε Val) := by
  intro b v b' hrun
  rw [warpDriveInterface_run] at hrun
  cases hanswer : Base.answer env c b with
  | none =>
      rw [hanswer] at hrun
      cases hrun
  | some r =>
      rw [hanswer] at hrun
      cases hrun
      exact h b _ hanswer

end Yields

/-! ## The methods -/

section Answers

variable {p : Platform} {f : Formats} {kind : Kind} {α : Type} {read : Read α} {fits : Prop}
  {c : Call} {embed : α → Val} {valid : α → Prop} {ω : Type} {R : Val → Prop}

/-- Every contract of this kind answers the call with such values. -/
def AnswersIn (p : Platform) (kind : Kind) (c : Call) (R : Val → Prop) : Prop :=
  match kind with
  | .security t => ∀ env,
      Yields R (Security.call env c : Contract (Security.Storage t) SecurityError Val)
  | .verification t => ∀ (ω : Type) (host : Host ω) env, Yields R (Verification.call p host t env c)
  | .handler t => ∀ (ω : Type) (host : Host ω) env, Yields R (Handler.call p host t env c)
  | .projectRoot => ∀ (ω : Type) (host : Host ω) env, Yields R (ProjectRoot.call host env c)

theorem AnswersIn.dispatch {inst : Instance} {host : Host ω} {env : Env} {world : ω} {v : Val}
    {frame : Frame Instance ω} (h : AnswersIn p kind c R)
    (hkind : Kind.of inst.shape = some kind)
    (hrun : dispatch p host env c inst world = .ok (v, frame)) : R v := by
  cases inst with
  | security t s =>
      cases hkind
      obtain ⟨s', hcall, -⟩ := dispatch_security_eq_ok.mp hrun
      exact h env s v s' hcall
  | verification t s =>
      cases hkind
      obtain ⟨inner, hcall, -⟩ := asInstance_eq_ok.mp hrun
      exact h ω host env _ v inner (entryPoint_eq_ok.mp hcall)
  | handler t s =>
      cases hkind
      obtain ⟨inner, hcall, -⟩ := asInstance_eq_ok.mp hrun
      exact h ω host env _ v inner (entryPoint_eq_ok.mp hcall)
  | projectRoot s =>
      cases hkind
      obtain ⟨inner, hcall, -⟩ := asInstance_eq_ok.mp hrun
      exact h ω host env _ v inner (entryPoint_eq_ok.mp hcall)
  | foreign code => cases hkind

/-- A query of the shared interface is answered alike by every contract. -/
theorem answersIn_base {c : Call} (hc : c = .admin ∨ c = .pendingAdmin ∨ c = .version)
    (h : ∀ env b r, Base.answer env c b = some r → R r.1) (kind : Kind) :
    AnswersIn p kind c R := by
  cases kind with
  | security t =>
      intro env
      have hcall : (Security.call env c : Contract (Security.Storage t) SecurityError Val) =
          Security.onBase (warpDriveInterface env c) := by
        rcases hc with rfl | rfl | rfl <;> rfl
      rw [hcall]
      exact (yields_base (h env)).zoom
  | verification t =>
      intro ω host env
      have hcall : Verification.call p host t env c =
          Verification.onBase (warpDriveInterface env c) := by
        rcases hc with rfl | rfl | rfl <;> rfl
      rw [hcall]
      exact (yields_base (h env)).zoom.onStorage
  | handler t =>
      intro ω host env
      have hcall : Handler.call p host t env c = Handler.onBase (warpDriveInterface env c) := by
        rcases hc with rfl | rfl | rfl <;> rfl
      rw [hcall]
      exact (yields_base (h env)).zoom.onStorage
  | projectRoot =>
      intro ω host env
      have hcall : ProjectRoot.call host env c =
          ProjectRoot.onBase (warpDriveInterface env c) := by
        rcases hc with rfl | rfl | rfl <;> rfl
      rw [hcall]
      exact (yields_base (h env)).zoom.onStorage

/-- A contract answers a method with a value of the type of the method. -/
theorem ReadMethod.answersIn (h : ReadMethod f kind read fits c embed valid) :
    AnswersIn p kind c fun v => ∃ x, v = embed x := by
  cases h with
  | admin kind =>
      refine answersIn_base (.inl rfl) (fun env b r hr => ?_) kind
      cases hr
      exact ⟨_, rfl⟩
  | pendingAdmin kind =>
      refine answersIn_base (.inr (.inl rfl)) (fun env b r hr => ?_) kind
      cases hr
      exact ⟨_, rfl⟩
  | version kind =>
      refine answersIn_base (.inr (.inr rfl)) (fun env b r hr => ?_) kind
      cases hr
      exact ⟨_, rfl⟩
  | getTotalWeight t | thresholdNumerator t | thresholdDenominator t =>
      exact fun env => .view_some fun s => ⟨_, rfl⟩
  | getTotalWeightAt t referenceBlock | requiredWeight t | requiredWeightAt t referenceBlock =>
      exact fun env => .view_map fun weight => ⟨weight, rfl⟩
  | getSignerWeight t key => exact fun env => .bind fun key' => .view_some fun s => ⟨_, rfl⟩
  | getSignerWeightAt t key referenceBlock =>
      exact fun env => .bind fun key' => .view_map fun weight => ⟨weight, rfl⟩
  | getSignerWeights t keys => exact fun env => .bind fun keys' => .view_some fun s => ⟨_, rfl⟩
  | getSignerWeightsAt t keys referenceBlock =>
      exact fun env => .bind fun keys' => .view_map fun weights => ⟨weights, rfl⟩
  | listSigners t =>
      refine fun env => .view_some fun s => ⟨s.listSigners.map fun info => ⟨info.1, info.2⟩, ?_⟩
      dsimp only
      rw [List.map_map]
      rfl
  | securityContract t => exact fun ω host env => .view_some fun frame => ⟨_, rfl⟩
  | verifierRequiredWeight t =>
      exact fun ω host env => .bind fun weight => .pure ⟨weight, rfl⟩
  | signerWeight t signerPubkey =>
      exact fun ω host env => .bind fun key => .bind fun weight => .pure ⟨weight, rfl⟩
  | checkOne t envelope signature signerPubkey referenceBlock =>
      exact fun ω host env => .bind fun sig => .bind fun key => .bind fun weight =>
        .pure ⟨weight, rfl⟩
  | verificationContract t => exact fun ω host env => .view_some fun frame => ⟨_, rfl⟩
  | payload t eventId =>
      exact fun ω host env => .bind fun id => .view_some fun frame => ⟨_, rfl⟩
  | rootSecurityContract | rootVerificationContract | projectSpecRepo | verificationType
  | listHandlers => exact fun ω host env => .view_some fun frame => ⟨_, rfl⟩

theorem ReadMethod.answers {tx : Transaction} {depth : ℕ} {stack : List Address} {a : Address}
    {w : World} {v : Val} (h : ReadMethod f kind read fits c embed valid)
    (hkind : (w.shape a).bind Kind.of = some kind)
    (hreply : (invoke p tx depth stack a c w).1 = .ok v) : ∃ x, v = embed x := by
  obtain ⟨below, inst, frame, -, -, hinst, hrun⟩ := invoke_eq_ok hreply
  rw [World.shape_of_contracts hinst] at hkind
  exact (ReadMethod.answersIn h).dispatch hkind hrun

end Answers

end WarpDrive.Client
