import WarpDrive.ProjectRoot.Gate

/-!
# What a forwarder passes on

The forwarders to the Security contract report, to their caller, the reply of the
forwarded call (`entryPoint_forwarded`): a typed error comes back under the code
it had, a code that is no `SecurityError` is raised again, and everything else is
a trap.  The two remove forwarders unwrap, so a typed error becomes a trap there.
-/

namespace WarpDrive.ProjectRoot

variable {ω : Type} {host : Host ω} {env : Env}

/-- The forwarder for a call of the registry, for the scheme `t`. -/
def forwarder (t : VerificationType) : Call → Call
  | .addSigner key weight =>
      match t with
      | .ethereum => .addSecp256k1Signer key weight
      | .stellar => .addEd25519Signer key weight
  | .removeSigner key =>
      match t with
      | .ethereum => .removeSecp256k1Signer key
      | .stellar => .removeEd25519Signer key
  | call => call

/-- The storage after the audit event. -/
def Storage.forwarded (s : Storage) (target : Address) (function : String) : Storage :=
  { s with base := { s.base with events := s.base.events ++ [.forwarded target function] } }

/-- The codes of `SecurityError` come back as they were. -/
theorem code_of_ofCode? {code : ℕ} {e : SecurityError}
    (h : ContractError.ofCode? code = some e) : ContractError.code e = code := by
  simp only [ContractError.ofCode?] at h
  split at h <;> cases h <;> rfl

/-- What `proxy` makes of the reply of its target. -/
theorem proxy_run {target : Address} {function : String} {call : Call} {s : Storage} {world : ω}
    (hauth : env.authorized s.base.admin = true) :
    (proxy host env target function call).run ⟨s, world⟩ =
      match (host.invoke target call world).1 with
      | .ok v => .ok (v, ⟨s.forwarded target function, (host.invoke target call world).2⟩)
      | .error (.contract code) =>
          match (ContractError.ofCode? code : Option SecurityError) with
          | some e => .error (.error e)
          | none => .error (.panicWithError code)
      | .error .abort => .error .trap := by
  have hproxy : (proxy host env target function call).run ⟨s, world⟩ =
      (mapSecurityResult (.ofReply some (host.invoke target call world).1) :
        Contract (Frame Storage ω) SecurityError Val).run
        ⟨s.forwarded target function, (host.invoke target call world).2⟩ := by
    unfold proxy
    rw [bind_get_run, StateT.run_bind, run_requireAuth, if_pos hauth]
    rfl
  rw [hproxy]
  cases (host.invoke target call world).1 with
  | ok v => rfl
  | error e =>
      cases e with
      | abort => rfl
      | contract code =>
          simp only [TryResult.ofReply]
          cases (ContractError.ofCode? code : Option SecurityError) <;> rfl

theorem toSecurity_run {function : String} {call : Call} {s : Storage} {world : ω}
    (hauth : env.authorized s.base.admin = true) :
    (toSecurity host env function call).run ⟨s, world⟩ =
      match (host.invoke s.securityContract call world).1 with
      | .ok _ => .ok ((), ⟨s.forwarded s.securityContract function,
          (host.invoke s.securityContract call world).2⟩)
      | .error (.contract code) =>
          match (ContractError.ofCode? code : Option SecurityError) with
          | some e => .error (.error e)
          | none => .error (.panicWithError code)
      | .error .abort => .error .trap := by
  unfold toSecurity
  rw [bind_get_run, StateT.run_bind, proxy_run hauth]
  cases (host.invoke s.securityContract call world).1 with
  | ok v => rfl
  | error e =>
      cases e with
      | abort => rfl
      | contract code =>
          simp only
          cases (ContractError.ofCode? code : Option SecurityError) <;> rfl

/-- The forwarders that use `?` report the reply of the forwarded call. -/
theorem entryPoint_securityErrors {function : String} {call : Call} {s : Storage} {world : ω}
    (hauth : env.authorized s.base.admin = true) :
    entryPoint (void (securityErrors (toSecurity host env function call))) ⟨s, world⟩ =
      match (host.invoke s.securityContract call world).1 with
      | .ok _ => .ok (.void, ⟨s.forwarded s.securityContract function,
          (host.invoke s.securityContract call world).2⟩)
      | .error e => .error e := by
  have hrun : (toSecurity host env function call).run ⟨s, world⟩ = _ := toSecurity_run hauth
  unfold entryPoint void securityErrors
  rw [StateT.run_bind, run_mapError, hrun]
  cases (host.invoke s.securityContract call world).1 with
  | ok v => rfl
  | error e =>
      cases e with
      | abort => rfl
      | contract code =>
          simp only
          cases hcode : (ContractError.ofCode? code : Option SecurityError) with
          | none => rfl
          | some e =>
              rw [← code_of_ofCode? hcode]
              rfl

/-- The forwarders that unwrap report it too, unless it is a typed error. -/
theorem entryPoint_unwrap {function : String} {call : Call} {s : Storage} {world : ω}
    (hauth : env.authorized s.base.admin = true)
    (huntyped : ∀ code, (host.invoke s.securityContract call world).1 ≠ .error (.contract code)) :
    entryPoint (void (unwrap (toSecurity host env function call))) ⟨s, world⟩ =
      match (host.invoke s.securityContract call world).1 with
      | .ok _ => .ok (.void, ⟨s.forwarded s.securityContract function,
          (host.invoke s.securityContract call world).2⟩)
      | .error e => .error e := by
  have hrun : (toSecurity host env function call).run ⟨s, world⟩ = _ := toSecurity_run hauth
  unfold entryPoint void unwrap
  rw [StateT.run_bind, run_mapError, hrun]
  cases hreply : (host.invoke s.securityContract call world).1 with
  | ok v => rfl
  | error e =>
      cases e with
      | abort => rfl
      | contract code => exact absurd hreply (huntyped code)

/-- The name that the audit event gives a forwarded call. -/
def functionName : Call → String
  | .addSigner .. => "add_signer"
  | .removeSigner .. => "remove_signer"
  | .setThreshold .. => "set_threshold"
  | _ => ""

/-- The key of a call, if it has one, is of the width of the scheme. -/
def KeyFits (t : VerificationType) : Call → Prop
  | .addSigner key _ | .removeSigner key => key.length = t.keyLength
  | _ => True

theorem call_forwarder_addSigner (t : VerificationType) (key : Bytes) (weight : UInt64) :
    call host env (forwarder t (.addSigner key weight)) = (do
      let key ← expect (BytesN.ofBytes? t.keyLength key)
      void (securityErrors
        (toSecurity host env "add_signer" (.addSigner key.toArray weight)))) := by
  cases t <;> rfl

theorem call_forwarder_removeSigner (t : VerificationType) (key : Bytes) :
    call host env (forwarder t (.removeSigner key)) = (do
      let key ← expect (BytesN.ofBytes? t.keyLength key)
      void (unwrap (toSecurity host env "remove_signer" (.removeSigner key.toArray)))) := by
  cases t <;> rfl

theorem bind_expect_toArray {t : VerificationType} {α σ ε : Type} (key : t.PubKey)
    (f : t.PubKey → Contract σ ε α) :
    (expect (BytesN.ofBytes? t.keyLength key.toArray) >>= f) = f key := by
  rw [BytesN.ofBytes?_toArray]
  rfl

/-- A forwarder passes the admin gate before it returns. -/
theorem Gated.forwarder (t : VerificationType) {c : Call} (hcall : c.isRegistry = true) :
    Gated env (call host env (forwarder t c)) := by
  have hexpect : ∀ key, Keeps host (expect (BytesN.ofBytes? t.keyLength key) :
      Contract (Frame Storage ω) ProjectRootError t.PubKey) :=
    fun key => .of_reads (.expect _)
  cases c with
  | addSigner key weight =>
      rw [call_forwarder_addSigner]
      exact .bind_keeps (hexpect key) fun _ => .bind (.mapError (.toSecurity _ _))
  | removeSigner key =>
      rw [call_forwarder_removeSigner]
      exact .bind_keeps (hexpect key) fun _ => .bind (.mapError (.toSecurity _ _))
  | setThreshold numerator denominator => exact .bind (.mapError (.toSecurity _ _))
  | _ => cases hcall

/-- A forwarder for the scheme of the key reports the reply of the forwarded call. -/
theorem entryPoint_forwarder {t : VerificationType} {c : Call} {s : Storage} {world : ω}
    (hcall : c.isRegistry = true) (hfits : KeyFits t c)
    (hauth : env.authorized s.base.admin = true)
    (huntyped : ∀ key, c = .removeSigner key → ∀ code,
      (host.invoke s.securityContract c world).1 ≠ .error (.contract code)) :
    entryPoint (call host env (forwarder t c)) ⟨s, world⟩ =
      match (host.invoke s.securityContract c world).1 with
      | .ok _ => .ok (.void, ⟨s.forwarded s.securityContract (functionName c),
          (host.invoke s.securityContract c world).2⟩)
      | .error e => .error e := by
  cases c with
  | addSigner key weight =>
      obtain ⟨key, rfl⟩ : ∃ k : t.PubKey, k.toArray = key := ⟨⟨key, hfits⟩, rfl⟩
      rw [call_forwarder_addSigner, bind_expect_toArray]
      exact entryPoint_securityErrors hauth
  | removeSigner key =>
      obtain ⟨key, rfl⟩ : ∃ k : t.PubKey, k.toArray = key := ⟨⟨key, hfits⟩, rfl⟩
      rw [call_forwarder_removeSigner, bind_expect_toArray]
      exact entryPoint_unwrap hauth (huntyped _ rfl)
  | setThreshold numerator denominator => exact entryPoint_securityErrors hauth
  | _ => cases hcall

/-- A key of another width never gets past the forwarder. -/
theorem entryPoint_forwarder_of_not_keyFits {t : VerificationType} {c : Call}
    {frame : Frame Storage ω} (hcall : c.isRegistry = true) (hfits : ¬KeyFits t c) :
    entryPoint (call host env (forwarder t c)) frame = .error .abort := by
  cases c with
  | addSigner key weight =>
      have hkey : BytesN.ofBytes? t.keyLength key = none := dif_neg hfits
      rw [call_forwarder_addSigner, hkey]
      rfl
  | removeSigner key =>
      have hkey : BytesN.ofBytes? t.keyLength key = none := dif_neg hfits
      rw [call_forwarder_removeSigner, hkey]
      rfl
  | setThreshold numerator denominator => exact absurd trivial hfits
  | _ => cases hcall

end WarpDrive.ProjectRoot
