import WarpDrive.ProjectRoot.Contract

/-!
# The gate of ProjectRoot

Every function of ProjectRoot that writes or calls another contract passes the
admin gate, sooner or later.  A forwarder probes its target before the gate, but
a call that is then refused is rolled back, the probe included.  So a call that
returns was authorized by the admin, or read the storage and nothing else, or is
a function of the shared interface (`call_effect`).
-/

namespace WarpDrive.ProjectRoot

variable {ω α β ε ε' : Type} {host : Host ω} {env : Env}

/-- What the forwarders and the bookkeeping leave alone. -/
structure Kept (s s' : Storage) : Prop where
  admin : s'.base.admin = s.base.admin
  pndAdmin : s'.base.pndAdmin = s.base.pndAdmin
  version : s'.base.version = s.base.version
  wasm : s'.base.wasm = s.base.wasm
  securityContract : s'.securityContract = s.securityContract
  verificationContract : s'.verificationContract = s.verificationContract
  verificationType : s'.verificationType = s.verificationType

theorem Kept.refl (s : Storage) : Kept s s :=
  ⟨rfl, rfl, rfl, rfl, rfl, rfl, rfl⟩

theorem Kept.trans {s s' s'' : Storage} (h : Kept s s') (h' : Kept s' s'') : Kept s s'' :=
  ⟨h'.admin.trans h.admin, h'.pndAdmin.trans h.pndAdmin, h'.version.trans h.version,
    h'.wasm.trans h.wasm, h'.securityContract.trans h.securityContract,
    h'.verificationContract.trans h.verificationContract,
    h'.verificationType.trans h.verificationType⟩

theorem reads_mapSecurityResult (res : TryResult SecurityError Val) :
    Reads (mapSecurityResult res : Contract (Frame Storage ω) SecurityError Val) := by
  cases res with
  | ok v => exact Reads.pure v
  | conversionError => exact Reads.trap
  | error e => exact Reads.fail e
  | invokeError e =>
      cases e with
      | contract code => exact fun _ _ _ h => by cases h
      | abort => exact Reads.trap

/-- Code that keeps the governance entries and the links. -/
def Keeps (host : Host ω) (m : Contract (Frame Storage ω) ε α) : Prop :=
  ∀ frame a frame', m.run frame = .ok (a, frame') →
    Kept frame.storage frame'.storage ∧ Visits host (fun _ => True) frame.world frame'.world

/-- Code that returns only if the admin authorized the call. -/
def Gated (env : Env) (m : Contract (Frame Storage ω) ε α) : Prop :=
  ∀ frame a frame', m.run frame = .ok (a, frame') →
    env.authorized frame.storage.base.admin = true

namespace Keeps

theorem of_reads {m : Contract (Frame Storage ω) ε α} (h : Reads m) : Keeps host m := by
  intro frame a frame' hrun
  obtain rfl := h _ _ _ hrun
  exact ⟨.refl _, .refl⟩

theorem bind {m : Contract (Frame Storage ω) ε α} {f : α → Contract (Frame Storage ω) ε β}
    (hm : Keeps host m) (hf : ∀ a, Keeps host (f a)) : Keeps host (m >>= f) := by
  intro frame b frame'' h
  obtain ⟨a, frame', hfirst, hsecond⟩ := bind_run_eq_ok.mp h
  obtain ⟨hkept, hvisits⟩ := hm _ _ _ hfirst
  obtain ⟨hkept', hvisits'⟩ := hf a _ _ _ hsecond
  exact ⟨hkept.trans hkept', hvisits.trans hvisits'⟩

theorem mapError {f : ε' → Failure ε} {m : Contract (Frame Storage ω) ε' α}
    (h : Keeps host m) : Keeps host (mapError f m) :=
  fun _ _ _ hrun => h _ _ _ (mapError_run_eq_ok.mp hrun)

theorem publish (e : Event) :
    Keeps host (onBase (publish e) : Contract (Frame Storage ω) ε Unit) := by
  intro frame a frame' h
  cases h
  exact ⟨⟨rfl, rfl, rfl, rfl, rfl, rfl, rfl⟩, .refl⟩

theorem tryInvoke (target : Address) (call : Call) :
    Keeps host (tryInvoke host target call : Contract (Frame Storage ω) ε Reply) := by
  intro frame a frame' h
  cases h
  exact ⟨.refl _, .single ⟨target, call, trivial, rfl⟩⟩

theorem requireAuth (a : Address) :
    Keeps host (requireAuth env a : Contract (Frame Storage ω) ε Unit) :=
  of_reads fun _ _ _ h => (requireAuth_run_eq_ok.mp h).2

theorem addHandler (handler : Address) :
    Keeps host (addHandler handler : Contract (Frame Storage ω) ε Bool) := by
  intro frame added frame' h
  simp only [ProjectRoot.addHandler, bind_get_run] at h
  split at h
  · cases h
    exact ⟨.refl _, .refl⟩
  · cases h
    exact ⟨⟨rfl, rfl, rfl, rfl, rfl, rfl, rfl⟩, .refl⟩

theorem removeHandler (handler : Address) :
    Keeps host (removeHandler handler : Contract (Frame Storage ω) ε Bool) := by
  intro frame removed frame' h
  simp only [ProjectRoot.removeHandler, bind_get_run] at h
  split at h
  · cases h
    exact ⟨⟨rfl, rfl, rfl, rfl, rfl, rfl, rfl⟩, .refl⟩
  · cases h
    exact ⟨.refl _, .refl⟩

theorem proxy (target : Address) (function : String) (call : Call) :
    Keeps host (proxy host env target function call) :=
  .bind (.of_reads .get) fun _ => .bind (.requireAuth _) fun _ => .bind (.publish _) fun _ =>
    .bind (.tryInvoke _ _) fun _ => .of_reads (reads_mapSecurityResult _)

theorem ensureOurContract (target : Address) : Keeps host (ensureOurContract host target) := by
  intro frame ctype frame' h
  simp only [ProjectRoot.ensureOurContract, bind_get_run] at h
  split at h
  · cases h
    exact ⟨.refl _, .refl⟩
  · split at h
    · cases h
      exact ⟨.refl _, .refl⟩
    · -- any other target is asked for its Verification contract
      rw [bind_tryInvoke_run] at h
      split at h
      · cases h
        exact ⟨.refl _, .single ⟨target, .verificationContract, trivial, rfl⟩⟩
      · cases h

theorem toOurContract (target : Address) (function : String) (call : Call) :
    Keeps host (toOurContract host env target function call) :=
  .bind (.ensureOurContract _) fun _ => .bind (.mapError (.proxy _ _ _)) fun _ =>
    .of_reads (.pure _)

theorem toSecurity (function : String) (call : Call) :
    Keeps host (toSecurity host env function call) :=
  .bind (.of_reads .get) fun _ => .bind (.proxy _ _ _) fun _ => .of_reads (.pure _)

theorem trackHandler (handler : Address) :
    Keeps host (trackHandler handler : Contract (Frame Storage ω) ProjectRootError Unit) := by
  refine .bind (.addHandler _) fun added => ?_
  split
  · exact .publish _
  · exact .of_reads (.pure _)

end Keeps

namespace Gated

theorem bind {m : Contract (Frame Storage ω) ε α} {f : α → Contract (Frame Storage ω) ε β}
    (hm : Gated env m) : Gated env (m >>= f) := by
  intro frame b frame'' h
  obtain ⟨a, frame', hfirst, -⟩ := bind_run_eq_ok.mp h
  exact hm _ _ _ hfirst

/-- What comes before the gate keeps the admin, so the gate still asks the same one. -/
theorem bind_keeps {m : Contract (Frame Storage ω) ε α}
    {f : α → Contract (Frame Storage ω) ε β} (hm : Keeps host m) (hf : ∀ a, Gated env (f a)) :
    Gated env (m >>= f) := by
  intro frame b frame'' h
  obtain ⟨a, frame', hfirst, hsecond⟩ := bind_run_eq_ok.mp h
  have hauth := hf a _ _ _ hsecond
  rwa [(hm _ _ _ hfirst).1.admin] at hauth

theorem mapError {f : ε' → Failure ε} {m : Contract (Frame Storage ω) ε' α}
    (h : Gated env m) : Gated env (mapError f m) :=
  fun _ _ _ hrun => h _ _ _ (mapError_run_eq_ok.mp hrun)

theorem proxy (target : Address) (function : String) (call : Call) :
    Gated env (proxy host env target function call) := by
  intro frame a frame' h
  simp only [ProjectRoot.proxy, bind_get_run, bind_requireAuth_eq_ok] at h
  exact h.1

theorem toOurContract (target : Address) (function : String) (call : Call) :
    Gated env (toOurContract host env target function call) :=
  bind_keeps (.ensureOurContract target) fun _ => bind (mapError (proxy _ _ _))

theorem toSecurity (function : String) (call : Call) :
    Gated env (toSecurity host env function call) := by
  intro frame a frame' h
  simp only [ProjectRoot.toSecurity, bind_get_run] at h
  obtain ⟨v, _, hproxy, -⟩ := bind_run_eq_ok.mp h
  exact proxy _ _ _ _ _ _ hproxy

end Gated

/-! ## What a successful call can do -/

/-- What a call that returns can do: run a function of the shared interface, read
the storage, or, authorized by the admin, keep the books and call others. -/
inductive Effect (host : Host ω) (env : Env) (frame : Frame Storage ω) :
    Call → Frame Storage ω → Prop
  | base (call : Call) (b : Base) (hbase : BaseStep env frame.storage.base call b) :
      Effect host env frame call { frame with storage := { frame.storage with base := b } }
  | query (call : Call) (hcall : call.isGovernance = false) : Effect host env frame call frame
  | gated (call : Call) (frame' : Frame Storage ω) (hcall : call.isGovernance = false)
      (hconsultation : call.isConsultation = false)
      (hauth : env.authorized frame.storage.base.admin = true)
      (hkept : Kept frame.storage frame'.storage)
      (hvisits : Visits host (fun _ => True) frame.world frame'.world) :
      Effect host env frame call frame'

theorem onBase_run_eq_ok {m : Contract Base ε α} {frame frame' : Frame Storage ω} {a : α} :
    (onBase m).run frame = .ok (a, frame') ↔ ∃ b, m.run frame.storage.base = .ok (a, b) ∧
      { frame with storage := { frame.storage with base := b } } = frame' := by
  simp [onBase, onStorage, zoom_run_eq_ok]

/-- A gated function, as an exported one. -/
theorem effect_of_void {m : Contract (Frame Storage ω) ProjectRootError Unit} {c : Call}
    (hkeeps : Keeps host m) (hgated : Gated env m) (hcall : c.isGovernance = false)
    (hconsultation : c.isConsultation = false)
    {frame frame' : Frame Storage ω} {v : Val} (h : (void m).run frame = .ok (v, frame')) :
    Effect host env frame c frame' := by
  obtain ⟨_, _, hrun, hret⟩ := bind_run_eq_ok.mp h
  cases hret
  have hauth : env.authorized frame.storage.base.admin = true := hgated _ _ _ hrun
  obtain ⟨hkept, hvisits⟩ := hkeeps _ _ _ hrun
  exact .gated c frame' hcall hconsultation hauth hkept hvisits

theorem keeps_updateProjectSpecRepo (repo : String) :
    Keeps host (updateProjectSpecRepo env repo) := by
  refine .bind (.of_reads .get) fun _ => .bind (.requireAuth _) fun _ =>
    .bind ?_ fun _ => .publish _
  intro frame a frame' h
  cases h
  exact ⟨⟨rfl, rfl, rfl, rfl, rfl, rfl, rfl⟩, .refl⟩

theorem keeps_acceptContractAdmin (target : Address) :
    Keeps host (acceptContractAdmin host env target) := by
  refine .bind (.toOurContract _ _ _) fun ctype => ?_
  split
  · exact .trackHandler target
  · exact .of_reads (.pure _)

theorem keeps_registerHandler (handler : Address) :
    Keeps host (registerHandler host env handler) :=
  .bind (.of_reads .get) fun _ => .bind (.requireAuth _) fun _ => .bind (.ensureOurContract _)
    fun _ => .bind (.of_reads (.rejectIf _ _)) fun _ => .trackHandler _

theorem keeps_unregisterHandler (handler : Address) :
    Keeps host (unregisterHandler env handler) := by
  refine .bind (.of_reads .get) fun _ => .bind (.requireAuth _) fun _ =>
    .bind (.removeHandler _) fun removed => ?_
  split
  · exact .publish _
  · exact .of_reads (.pure _)

theorem call_effect {c : Call} {frame frame' : Frame Storage ω} {v : Val}
    (h : (call host env c).run frame = .ok (v, frame')) : Effect host env frame c frame' := by
  cases c with
  | securityContract | verificationContract | projectSpecRepo | verificationType
  | listHandlers =>
      obtain rfl := Reads.view _ _ _ _ h
      exact .query _ rfl
  | updateProjectSpecRepo repo =>
      refine effect_of_void (keeps_updateProjectSpecRepo repo) ?_ rfl rfl h
      intro frame a frame' hrun
      simp only [updateProjectSpecRepo, bind_get_run, bind_requireAuth_eq_ok] at hrun
      exact hrun.1
  | addSecp256k1Signer key weight | addEd25519Signer key weight =>
      obtain ⟨key, -, h⟩ := bind_expect_eq_ok.mp h
      exact effect_of_void (.mapError (.toSecurity _ _)) (.mapError (.toSecurity _ _)) rfl rfl h
  | removeSecp256k1Signer key | removeEd25519Signer key =>
      obtain ⟨key, -, h⟩ := bind_expect_eq_ok.mp h
      exact effect_of_void (.mapError (.toSecurity _ _)) (.mapError (.toSecurity _ _)) rfl rfl h
  | setThreshold numerator denominator =>
      exact effect_of_void (.mapError (.toSecurity _ _)) (.mapError (.toSecurity _ _)) rfl rfl h
  | upgradeContract target newWasmHash newVersion =>
      exact effect_of_void (.bind (.toOurContract _ _ _) fun _ => .of_reads (.pure _))
        (.bind (.toOurContract _ _ _)) rfl rfl h
  | proposeContractAdmin target newAdmin =>
      exact effect_of_void (.bind (.toOurContract _ _ _) fun _ => .of_reads (.pure _))
        (.bind (.toOurContract _ _ _)) rfl rfl h
  | acceptContractAdmin target =>
      exact effect_of_void (keeps_acceptContractAdmin target) (.bind (.toOurContract _ _ _)) rfl rfl
        h
  | registerHandler handler =>
      refine effect_of_void (keeps_registerHandler handler) ?_ rfl rfl h
      intro frame a frame' hrun
      simp only [registerHandler, bind_get_run, bind_requireAuth_eq_ok] at hrun
      exact hrun.1
  | unregisterHandler handler =>
      refine effect_of_void (keeps_unregisterHandler handler) ?_ rfl rfl h
      intro frame a frame' hrun
      simp only [unregisterHandler, bind_get_run, bind_requireAuth_eq_ok] at hrun
      exact hrun.1
  | _ =>
      -- the shared interface, and the calls ProjectRoot does not have
      obtain ⟨b, hrun, rfl⟩ := onBase_run_eq_ok.mp h
      exact .base _ b (warpDriveInterface_step hrun)

end WarpDrive.ProjectRoot
