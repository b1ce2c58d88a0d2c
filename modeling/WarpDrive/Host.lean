import Mathlib.Data.List.Lex
import Mathlib.Order.Lattice
import Mathlib.Data.UInt

/-!
# The Soroban host, as the contracts see it

Bytes, addresses, checked machine arithmetic, and the monad contract code is
written in.

A contract function runs in `Contract σ ε`: it reads and writes the ledger
entries `σ` it can reach, and it either returns a value or ends in a `Failure`.
A failure carries no state.  That is the host's rollback: whatever a failed
call wrote, events included, is discarded.  Ledger sequence numbers are natural
numbers, since the contracts only compare them and subtract with saturation or
behind a guard; weights and thresholds are `UInt64`, because there overflow
matters.
-/

namespace WarpDrive

/-! ## Bytes -/

abbrev Bytes := List UInt8

instance linearOrderUInt8 : LinearOrder UInt8 :=
  LinearOrder.lift' UInt8.toNat fun _ _ => UInt8.toNat_inj.mp

/-- `BytesN<N>`: a byte string of exactly `n` bytes. -/
structure BytesN (n : ℕ) where
  toArray : Bytes
  length_toArray : toArray.length = n
deriving DecidableEq, Repr

namespace BytesN

variable {n : ℕ}

theorem toArray_injective : Function.Injective (toArray : BytesN n → Bytes) := by
  rintro ⟨a, ha⟩ ⟨b, hb⟩ rfl
  rfl

/-- Keys are ordered bytewise, as arrays. -/
instance : LinearOrder (BytesN n) :=
  LinearOrder.lift' toArray toArray_injective

/-- The conversion of an argument to `BytesN<N>`, which refuses any other length. -/
def ofBytes? (n : ℕ) (bytes : Bytes) : Option (BytesN n) :=
  if h : bytes.length = n then some ⟨bytes, h⟩ else none

@[simp] theorem ofBytes?_toArray (key : BytesN n) : ofBytes? n key.toArray = some key := by
  simp [ofBytes?, key.length_toArray]

theorem toArray_of_ofBytes? {bytes : Bytes} {key : BytesN n} (h : ofBytes? n bytes = some key) :
    key.toArray = bytes := by
  unfold ofBytes? at h
  split at h
  · cases h
    rfl
  · cases h

/-- Every byte is zero. -/
def isZero (b : BytesN n) : Bool :=
  b.toArray.all (· == 0)

end BytesN

/-- The vector form of `BytesN.ofBytes?`. -/
def bytesVec? (n : ℕ) : List Bytes → Option (List (BytesN n))
  | [] => some []
  | bytes :: rest => do
      let key ← BytesN.ofBytes? n bytes
      let keys ← bytesVec? n rest
      return key :: keys

@[simp] theorem bytesVec?_map_toArray {n : ℕ} (keys : List (BytesN n)) :
    bytesVec? n (keys.map BytesN.toArray) = some keys := by
  induction keys with
  | nil => rfl
  | cons key keys ih => simp [bytesVec?, ih]

theorem map_toArray_of_bytesVec? {n : ℕ} {raw : List Bytes} {keys : List (BytesN n)}
    (h : bytesVec? n raw = some keys) : keys.map BytesN.toArray = raw := by
  induction raw generalizing keys with
  | nil =>
      cases h
      rfl
  | cons bytes rest ih =>
      simp only [bytesVec?, Option.bind_eq_bind, Option.pure_def, Option.bind_eq_some_iff,
        Option.some.injEq] at h
      obtain ⟨key, hkey, tail, htail, rfl⟩ := h
      rw [List.map_cons, BytesN.toArray_of_ofBytes? hkey, ih htail]

/-! ## Addresses and the environment of a call -/

/-- An account or a contract. -/
structure Address where
  id : ℕ
deriving DecidableEq, Repr

/-- What the host tells the running contract function. -/
structure Env where
  /-- the contract that runs -/
  self : Address
  /-- the contract that invoked it, or none when a transaction did -/
  invoker : Option Address
  /-- `env.ledger().sequence()` -/
  ledger : ℕ
  /-- the addresses whose signed authorization covers this very call -/
  signed : Address → Bool

/-- The rule behind `require_auth`: an address authorizes a call by signing for
it or by being the contract that directly invokes it. -/
def Env.authorized (env : Env) (a : Address) : Bool :=
  env.signed a || env.invoker == some a

/-! ## Contract code -/

/-- How a contract function ends when it does not return a value. -/
inductive Failure (ε : Type) where
  /-- it returned `Err(e)` -/
  | error (e : ε)
  /-- it called `panic_with_error!` with a contract error code -/
  | panicWithError (code : ℕ)
  /-- any other panic, or a host function that traps -/
  | trap
deriving DecidableEq, Repr

/-- Contract code over the ledger entries `σ`, with typed errors `ε`. -/
abbrev Contract (σ ε α : Type) := StateT σ (Except (Failure ε)) α

variable {σ ε α β : Type}

/-- `return Err(e)`. -/
def fail (e : ε) : Contract σ ε α :=
  fun _ => .error (.error e)

/-- The `?` operator. -/
def propagate : Except ε α → Contract σ ε α
  | .ok a => pure a
  | .error e => fail e

/-- `if condition { return Err(e) }`. -/
def rejectIf (condition : Prop) [Decidable condition] (e : ε) : Contract σ ε Unit :=
  if condition then fail e else pure ()

/-- A panic. -/
def trap : Contract σ ε α :=
  fun _ => .error .trap

/-- `Option::expect` and `Option::unwrap`. -/
def expect : Option α → Contract σ ε α
  | some a => pure a
  | none => trap

/-- `panic_with_error!`. -/
def panicWithError (code : ℕ) : Contract σ ε α :=
  fun _ => .error (.panicWithError code)

/-- The errors of `m` turned into failures of another kind: the conversion behind
`?`, or the panic of `Result::unwrap`. -/
def mapError {ε' : Type} (f : ε' → Failure ε) (m : Contract σ ε' α) : Contract σ ε α :=
  fun s =>
    match m.run s with
    | .ok r => .ok r
    | .error (.error e) => .error (f e)
    | .error (.panicWithError code) => .error (.panicWithError code)
    | .error .trap => .error .trap

/-- `address.require_auth()`. -/
def requireAuth (env : Env) (a : Address) : Contract σ ε Unit :=
  if env.authorized a then pure () else trap

@[simp] theorem run_fail (e : ε) (s : σ) :
    (fail e : Contract σ ε α).run s = .error (.error e) := rfl

@[simp] theorem run_propagate_ok (a : α) (s : σ) :
    (propagate (.ok a) : Contract σ ε α).run s = .ok (a, s) := rfl

@[simp] theorem run_propagate_error (e : ε) (s : σ) :
    (propagate (.error e) : Contract σ ε α).run s = .error (.error e) := rfl

@[simp] theorem run_trap (s : σ) : (trap : Contract σ ε α).run s = .error .trap := rfl

@[simp] theorem run_expect_some (a : α) (s : σ) :
    (expect (some a) : Contract σ ε α).run s = .ok (a, s) := rfl

@[simp] theorem run_expect_none (s : σ) :
    (expect none : Contract σ ε α).run s = .error .trap := rfl

@[simp] theorem ok_bind (a : α) (f : α → Except ε β) : (Except.ok a >>= f) = f a := rfl

@[simp] theorem error_bind (e : ε) (f : α → Except ε β) :
    (Except.error e >>= f) = .error e := rfl

@[simp] theorem pure_eq_ok (a : α) : (pure a : Except ε α) = .ok a := rfl

theorem run_requireAuth (env : Env) (a : Address) (s : σ) :
    (requireAuth env a : Contract σ ε Unit).run s =
      if env.authorized a then .ok ((), s) else .error .trap := by
  unfold requireAuth
  split <;> rfl

/-- Sequencing, taken apart: both halves returned. -/
theorem bind_run_eq_ok {m : Contract σ ε α} {f : α → Contract σ ε β} {s s'' : σ} {b : β} :
    (m >>= f).run s = .ok (b, s'') ↔
      ∃ a s', m.run s = .ok (a, s') ∧ (f a).run s' = .ok (b, s'') := by
  rw [StateT.run_bind]
  cases h : m.run s with
  | error e => simp
  | ok p =>
      obtain ⟨a, s'⟩ := p
      simp

theorem run_mapError {ε' : Type} (f : ε' → Failure ε) (m : Contract σ ε' α) (s : σ) :
    (mapError f m).run s =
      match m.run s with
      | .ok r => .ok r
      | .error (.error e) => .error (f e)
      | .error (.panicWithError code) => .error (.panicWithError code)
      | .error .trap => .error .trap := rfl

theorem mapError_run_eq_ok {ε' : Type} {f : ε' → Failure ε} {m : Contract σ ε' α} {s s' : σ}
    {a : α} : (mapError f m).run s = .ok (a, s') ↔ m.run s = .ok (a, s') := by
  rw [run_mapError]
  cases m.run s with
  | ok r => simp
  | error e => cases e <;> simp

theorem run_rejectIf (condition : Prop) [Decidable condition] (e : ε) (s : σ) :
    (rejectIf condition e : Contract σ ε Unit).run s =
      if condition then .error (.error e) else .ok ((), s) := by
  unfold rejectIf
  split <;> rfl

theorem rejectIf_run_eq_ok {condition : Prop} [Decidable condition] {e : ε} {s s' : σ}
    {u : Unit} : (rejectIf condition e : Contract σ ε Unit).run s = .ok (u, s') ↔
      ¬condition ∧ s' = s := by
  rw [run_rejectIf]
  split
  · next h => simp [h]
  · next h => simp [h, eq_comm]

theorem expect_run_eq_ok {o : Option α} {a : α} {s s' : σ} :
    (expect o : Contract σ ε α).run s = .ok (a, s') ↔ o = some a ∧ s' = s := by
  cases o <;> simp [eq_comm]

theorem requireAuth_run_eq_ok {env : Env} {a : Address} {s s' : σ} {u : Unit} :
    (requireAuth env a : Contract σ ε Unit).run s = .ok (u, s') ↔
      env.authorized a = true ∧ s' = s := by
  rw [run_requireAuth]
  split
  · next h => simp [h, eq_comm]
  · next h => simp [h]

/-! ### The first step of a function that returned -/

@[simp] theorem bind_get_run (f : σ → Contract σ ε β) (s : σ) :
    ((get : Contract σ ε σ) >>= f).run s = (f s).run s := rfl

@[simp] theorem bind_propagate_eq_ok {r : Except ε α} {f : α → Contract σ ε β} {s : σ}
    {result : β × σ} : (propagate r >>= f).run s = .ok result ↔
      ∃ a, r = .ok a ∧ (f a).run s = .ok result := by
  cases r <;> simp

@[simp] theorem bind_expect_eq_ok {o : Option α} {f : α → Contract σ ε β} {s : σ}
    {result : β × σ} : (expect o >>= f).run s = .ok result ↔
      ∃ a, o = some a ∧ (f a).run s = .ok result := by
  cases o <;> simp

@[simp] theorem bind_rejectIf_eq_ok {condition : Prop} [Decidable condition] {e : ε}
    {f : Unit → Contract σ ε β} {s : σ} {result : β × σ} :
    (rejectIf condition e >>= f).run s = .ok result ↔
      ¬condition ∧ (f ()).run s = .ok result := by
  rw [StateT.run_bind, run_rejectIf]
  split
  · next h => simp [h]
  · next h => simp [h]

@[simp] theorem bind_requireAuth_eq_ok {env : Env} {a : Address} {f : Unit → Contract σ ε β}
    {s : σ} {result : β × σ} : (requireAuth env a >>= f).run s = .ok result ↔
      env.authorized a = true ∧ (f ()).run s = .ok result := by
  rw [StateT.run_bind, run_requireAuth]
  split
  · next h => simp [h]
  · next h => simp [h]

/-! ### Code that only reads -/

/-- A function of the storage that may panic. -/
def view (f : σ → Option α) : Contract σ ε α := do
  expect (f (← get))

theorem view_run_eq_ok {f : σ → Option α} {s s' : σ} {a : α} :
    (view f : Contract σ ε α).run s = .ok (a, s') ↔ f s = some a ∧ s' = s :=
  expect_run_eq_ok

/-- Code that never writes. -/
def Reads (m : Contract σ ε α) : Prop :=
  ∀ s a s', m.run s = .ok (a, s') → s' = s

theorem Reads.pure (a : α) : Reads (pure a : Contract σ ε α) := by
  intro s a s' h
  cases h
  rfl

theorem Reads.bind {m : Contract σ ε α} {f : α → Contract σ ε β} (hm : Reads m)
    (hf : ∀ a, Reads (f a)) : Reads (m >>= f) := by
  intro s b s'' h
  obtain ⟨a, s', hfirst, hsecond⟩ := bind_run_eq_ok.mp h
  obtain rfl := hm _ _ _ hfirst
  exact hf a _ _ _ hsecond

theorem Reads.get : Reads (get : Contract σ ε σ) := by
  intro s a s' h
  cases h
  rfl

theorem Reads.fail (e : ε) : Reads (fail e : Contract σ ε α) := by
  intro s a s' h
  cases h

theorem Reads.trap : Reads (trap : Contract σ ε α) := by
  intro s a s' h
  cases h

theorem Reads.rejectIf (condition : Prop) [Decidable condition] (e : ε) :
    Reads (rejectIf condition e : Contract σ ε Unit) :=
  fun _ _ _ h => (rejectIf_run_eq_ok.mp h).2

theorem Reads.expect (o : Option α) : Reads (expect o : Contract σ ε α) :=
  fun _ _ _ h => (expect_run_eq_ok.mp h).2

theorem Reads.view (f : σ → Option α) : Reads (view f : Contract σ ε α) :=
  fun _ _ _ h => (view_run_eq_ok.mp h).2

/-! ### Code whose result does not depend on the state -/

/-- Code that ends in the same way, with the same value, in every state. -/
def Stateless (m : Contract σ ε α) : Prop :=
  ∀ s s', (m.run s).map Prod.fst = (m.run s').map Prod.fst

theorem Stateless.pure (a : α) : Stateless (pure a : Contract σ ε α) := fun _ _ => rfl

theorem Stateless.trap : Stateless (trap : Contract σ ε α) := fun _ _ => rfl

theorem Stateless.fail (e : ε) : Stateless (fail e : Contract σ ε α) := fun _ _ => rfl

theorem Stateless.rejectIf (condition : Prop) [Decidable condition] (e : ε) :
    Stateless (rejectIf condition e : Contract σ ε Unit) := by
  intro s s'
  rw [run_rejectIf, run_rejectIf]
  split <;> rfl

theorem Stateless.expect (o : Option α) : Stateless (expect o : Contract σ ε α) := by
  cases o with
  | none => exact Stateless.trap
  | some a => exact Stateless.pure a

/-- What follows may see another state, but it gets the same value. -/
theorem bind_map_fst_eq {m m' : Contract σ ε α} {f : α → Contract σ ε β} {s s' : σ}
    (hm : (m.run s).map Prod.fst = (m'.run s').map Prod.fst) (hf : ∀ a, Stateless (f a)) :
    ((m >>= f).run s).map Prod.fst = ((m' >>= f).run s').map Prod.fst := by
  rw [StateT.run_bind, StateT.run_bind]
  cases h : m.run s with
  | error e =>
      cases h' : m'.run s' with
      | error e' => simpa [h, h', Except.map] using hm
      | ok p' => simp [h, h', Except.map] at hm
  | ok p =>
      cases h' : m'.run s' with
      | error e' => simp [h, h', Except.map] at hm
      | ok p' =>
          obtain ⟨a, t⟩ := p
          obtain ⟨a', t'⟩ := p'
          obtain rfl : a = a' := by simpa [h, h', Except.map] using hm
          exact hf a t t'

theorem Stateless.bind {m : Contract σ ε α} {f : α → Contract σ ε β} (hm : Stateless m)
    (hf : ∀ a, Stateless (f a)) : Stateless (m >>= f) :=
  fun s s' => bind_map_fst_eq (hm s s') hf

/-! ## Machine arithmetic -/

/-- `u64::checked_add`. -/
def checkedAdd (a b : UInt64) : Option UInt64 :=
  if a.toNat + b.toNat < 2 ^ 64 then some (a + b) else none

/-- The subtraction `a - b`, which panics on underflow: the release profile sets
`overflow-checks`. -/
def checkedSub (a b : UInt64) : Option UInt64 :=
  if b.toNat ≤ a.toNat then some (a - b) else none

theorem toNat_add_of_lt {a b : UInt64} (h : a.toNat + b.toNat < 2 ^ 64) :
    (a + b).toNat = a.toNat + b.toNat := by
  rw [UInt64.toNat_add, Nat.mod_eq_of_lt h]

theorem toNat_sub_of_le {a b : UInt64} (h : b.toNat ≤ a.toNat) :
    (a - b).toNat = a.toNat - b.toNat :=
  UInt64.toNat_sub_of_le _ _ (UInt64.le_iff_toNat_le.mpr h)

theorem checkedAdd_eq_some {a b c : UInt64} :
    checkedAdd a b = some c ↔
      a.toNat + b.toNat < 2 ^ 64 ∧ c.toNat = a.toNat + b.toNat := by
  unfold checkedAdd
  split
  · next h =>
      rw [Option.some.injEq, ← UInt64.toNat_inj, toNat_add_of_lt h]
      exact ⟨fun heq => ⟨h, heq.symm⟩, fun heq => heq.2.symm⟩
  · next h => exact ⟨nofun, fun hfits => absurd hfits.1 h⟩

end WarpDrive
