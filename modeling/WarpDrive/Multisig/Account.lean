import WarpDrive.Platform

/-!
# The multisig account

A contract account that authorizes what a quorum of ed25519 keys signed.  The
constructor records a set of keys and a threshold; `__check_auth` takes pairs of a
key and a signature and refuses unknown keys, repeated keys and too few of them.  A
bad signature traps in `ed25519_verify`.

Both loops carry the keys seen so far.  What a loop accepts is a statement about the
whole list that is left and the seen keys before it (`constructorLoop_run_eq_ok`,
`checkAuthLoop_run_eq_ok`), and `MultisigAccount.quorum` reads the two together:
what the constructor refuses is what would let one key count twice, or make the
quorum unreachable.
-/

namespace WarpDrive.MultisigAccount

/-- One signer's contribution: the key, and its signature over the payload. -/
structure Ed25519Signature where
  publicKey : BytesN 32
  signature : BytesN 64
deriving DecidableEq, Repr

inductive Error where
  | notInitialized
  | unknownSigner
  | duplicateSigner
  | insufficientSignatures
  | thresholdZero
  | thresholdExceedsSigners
  | duplicateSignerInSet
deriving DecidableEq, Repr

instance : ContractError Error where
  code
    | .notInitialized => 1
    | .unknownSigner => 2
    | .duplicateSigner => 3
    | .insufficientSignatures => 4
    | .thresholdZero => 5
    | .thresholdExceedsSigners => 6
    | .duplicateSignerInSet => 7
  ofCode?
    | 1 => some .notInitialized
    | 2 => some .unknownSigner
    | 3 => some .duplicateSigner
    | 4 => some .insufficientSignatures
    | 5 => some .thresholdZero
    | 6 => some .thresholdExceedsSigners
    | 7 => some .duplicateSignerInSet
    | _ => none
  ofCode?_code e := by cases e <;> rfl

/-- The instance entries, absent until the constructor has run. -/
structure Storage where
  signers : Option (List (BytesN 32))
  threshold : Option ℕ
deriving DecidableEq, Repr

/-! ## The functions -/

/-- The loop of `__constructor` over the keys, with those already seen. -/
def constructorLoop : List (BytesN 32) → List (BytesN 32) → Contract Storage Error Unit
  | [], _ => pure ()
  | key :: keys, seen => do
      rejectIf (key ∈ seen) .duplicateSignerInSet
      constructorLoop keys (seen ++ [key])

/-- `__constructor` -/
def constructor (signers : List (BytesN 32)) (threshold : ℕ) : Contract Storage Error Unit := do
  rejectIf (threshold = 0) .thresholdZero
  rejectIf (signers.length < threshold) .thresholdExceedsSigners
  constructorLoop signers []
  set (⟨some signers, some threshold⟩ : Storage)

def signers : Contract Storage Error (List (BytesN 32)) := do
  return (← get).signers.getD []

def threshold : Contract Storage Error ℕ := do
  return (← get).threshold.getD 0

/-- `Option::ok_or` and `?`. -/
def okOr {α : Type} (o : Option α) (e : Error) : Contract Storage Error α :=
  match o with
  | some a => pure a
  | none => fail e

/-- `ed25519_verify`, which traps on an invalid signature. -/
def ed25519Verify (p : Platform) (publicKey : BytesN 32) (message : Bytes)
    (signature : BytesN 64) : Contract Storage Error Unit :=
  if p.ed25519Verify publicKey message signature then pure () else trap

/-- The loop of `__check_auth` over the signatures, with the keys already seen.  It
returns all keys seen. -/
def checkAuthLoop (p : Platform) (signers : List (BytesN 32)) (message : Bytes) :
    List Ed25519Signature → List (BytesN 32) → Contract Storage Error (List (BytesN 32))
  | [], seen => pure seen
  | sig :: sigs, seen => do
      rejectIf (sig.publicKey ∉ signers) .unknownSigner
      rejectIf (sig.publicKey ∈ seen) .duplicateSigner
      ed25519Verify p sig.publicKey message sig.signature
      checkAuthLoop p signers message sigs (seen ++ [sig.publicKey])

/-- `__check_auth`.  The contexts of the authorization are not read. -/
def checkAuth (p : Platform) (signaturePayload : BytesN 32)
    (signatures : List Ed25519Signature) : Contract Storage Error Unit := do
  let signers ← okOr (← get).signers .notInitialized
  let threshold ← okOr (← get).threshold .notInitialized
  let seen ← checkAuthLoop p signers signaturePayload.toArray signatures []
  rejectIf (seen.length < threshold) .insufficientSignatures

/-! ## What the constructor accepts -/

/-- The loop accepts keys that are pairwise distinct and were not seen before. -/
theorem constructorLoop_run_eq_ok {keys seen : List (BytesN 32)} {s s' : Storage} {u : Unit} :
    (constructorLoop keys seen).run s = .ok (u, s') ↔
      (keys.Nodup ∧ ∀ key ∈ keys, key ∉ seen) ∧ s' = s := by
  induction keys generalizing seen with
  | nil => simp [constructorLoop, eq_comm]
  | cons key keys ih =>
      rw [constructorLoop, bind_rejectIf_eq_ok, ih]
      simp only [List.nodup_cons, List.mem_append, List.mem_cons, forall_eq_or_imp]
      grind

theorem constructor_run_eq_ok {keys : List (BytesN 32)} {n : ℕ} {s s' : Storage} {u : Unit} :
    (constructor keys n).run s = .ok (u, s') ↔
      (0 < n ∧ n ≤ keys.length ∧ keys.Nodup) ∧ s' = ⟨some keys, some n⟩ := by
  unfold constructor
  rw [bind_rejectIf_eq_ok, bind_rejectIf_eq_ok, bind_run_eq_ok]
  constructor
  · rintro ⟨hpositive, hreachable, v, t, hloop, hset⟩
    obtain ⟨⟨hnodup, -⟩, -⟩ := constructorLoop_run_eq_ok.mp hloop
    refine ⟨⟨Nat.pos_of_ne_zero hpositive, not_lt.mp hreachable, hnodup⟩, ?_⟩
    cases hset
    rfl
  · rintro ⟨⟨hpositive, hreachable, hnodup⟩, rfl⟩
    refine ⟨hpositive.ne', not_lt.mpr hreachable, (), s, ?_, rfl⟩
    exact constructorLoop_run_eq_ok.mpr
      ⟨⟨hnodup, fun _ _ => List.not_mem_nil⟩, rfl⟩

/-! ## What `__check_auth` accepts -/

variable {p : Platform}

theorem bind_ed25519Verify_eq_ok {α : Type} {publicKey : BytesN 32} {message : Bytes}
    {signature : BytesN 64} {f : Unit → Contract Storage Error α} {s : Storage}
    {result : α × Storage} :
    (ed25519Verify p publicKey message signature >>= f).run s = .ok result ↔
      p.ed25519Verify publicKey message signature = true ∧ (f ()).run s = .ok result := by
  unfold ed25519Verify
  split
  · next h => simp [h]
  · next h => simp [h]

/-- The loop accepts signatures of registered keys, pairwise distinct and not seen
before, that all verify; it has then seen all their keys. -/
theorem checkAuthLoop_run_eq_ok {keys : List (BytesN 32)} {message : Bytes}
    {sigs : List Ed25519Signature} {seen seen' : List (BytesN 32)} {s s' : Storage} :
    (checkAuthLoop p keys message sigs seen).run s = .ok (seen', s') ↔
      ((∀ sig ∈ sigs, sig.publicKey ∈ keys) ∧
        ((sigs.map Ed25519Signature.publicKey).Nodup ∧ ∀ sig ∈ sigs, sig.publicKey ∉ seen) ∧
        ∀ sig ∈ sigs, p.ed25519Verify sig.publicKey message sig.signature = true) ∧
      seen' = seen ++ sigs.map Ed25519Signature.publicKey ∧ s' = s := by
  induction sigs generalizing seen with
  | nil =>
      have hdone : (checkAuthLoop p keys message [] seen).run s = .ok (seen, s) := rfl
      rw [hdone]
      constructor
      · intro h
        cases h
        simp
      · rintro ⟨-, rfl, rfl⟩
        simp
  | cons sig sigs ih =>
      rw [checkAuthLoop, bind_rejectIf_eq_ok, bind_rejectIf_eq_ok, bind_ed25519Verify_eq_ok, ih]
      simp only [List.map_cons, List.nodup_cons, List.mem_cons, List.mem_append,
        List.mem_map, forall_eq_or_imp, List.append_assoc, List.cons_append, List.nil_append,
        not_not]
      grind

/-- `__check_auth` returns `Ok`. -/
def Accepts (p : Platform) (s : Storage) (payload : BytesN 32)
    (sigs : List Ed25519Signature) : Prop :=
  ∃ s', (checkAuth p payload sigs).run s = .ok ((), s')

/-- What an accepted list of signatures has to be, for the keys and the threshold of
an account. -/
structure Quorum (p : Platform) (keys : List (BytesN 32)) (n : ℕ) (payload : BytesN 32)
    (sigs : List Ed25519Signature) : Prop where
  registered : ∀ sig ∈ sigs, sig.publicKey ∈ keys
  distinct : (sigs.map Ed25519Signature.publicKey).Nodup
  verifies : ∀ sig ∈ sigs, p.ed25519Verify sig.publicKey payload.toArray sig.signature = true
  enough : n ≤ sigs.length

theorem checkAuth_run_eq_ok {keys : List (BytesN 32)} {n : ℕ} {payload : BytesN 32}
    {sigs : List Ed25519Signature} {s' : Storage} {u : Unit} :
    (checkAuth p payload sigs).run ⟨some keys, some n⟩ = .ok (u, s') ↔
      Quorum p keys n payload sigs ∧ s' = ⟨some keys, some n⟩ := by
  have hopen : (checkAuth p payload sigs).run ⟨some keys, some n⟩ =
      (checkAuthLoop p keys payload.toArray sigs [] >>= fun seen =>
        rejectIf (seen.length < n) .insufficientSignatures).run ⟨some keys, some n⟩ := rfl
  rw [hopen, bind_run_eq_ok]
  constructor
  · rintro ⟨seen, t, hloop, hreject⟩
    obtain ⟨⟨hregistered, ⟨hdistinct, -⟩, hverifies⟩, rfl, rfl⟩ :=
      checkAuthLoop_run_eq_ok.mp hloop
    obtain ⟨henough, rfl⟩ := rejectIf_run_eq_ok.mp hreject
    rw [List.nil_append, List.length_map, not_lt] at henough
    exact ⟨⟨hregistered, hdistinct, hverifies, henough⟩, rfl⟩
  · rintro ⟨h, rfl⟩
    refine ⟨sigs.map Ed25519Signature.publicKey, ⟨some keys, some n⟩, ?_, ?_⟩
    · exact checkAuthLoop_run_eq_ok.mpr ⟨⟨h.registered,
        ⟨h.distinct, fun _ _ => List.not_mem_nil⟩, h.verifies⟩, rfl, rfl⟩
    · refine rejectIf_run_eq_ok.mpr ⟨?_, rfl⟩
      rw [List.length_map]
      exact not_lt.mpr h.enough

namespace Quorum

variable {keys : List (BytesN 32)} {n : ℕ} {payload : BytesN 32}
  {sigs sigs' : List Ed25519Signature}

theorem perm (h : Quorum p keys n payload sigs) (hperm : sigs.Perm sigs') :
    Quorum p keys n payload sigs' where
  registered sig hsig := h.registered sig (hperm.mem_iff.mpr hsig)
  distinct := (hperm.map Ed25519Signature.publicKey).nodup h.distinct
  verifies sig hsig := h.verifies sig (hperm.mem_iff.mpr hsig)
  enough := hperm.length_eq ▸ h.enough

/-- The keys of the list are as many distinct keys as it has entries. -/
theorem signed (h : Quorum p keys n payload sigs) :
    ∃ signed : Finset (BytesN 32), n ≤ signed.card ∧
      ∀ key ∈ signed, key ∈ keys ∧ ∃ signature, ⟨key, signature⟩ ∈ sigs ∧
        p.ed25519Verify key payload.toArray signature = true := by
  refine ⟨(sigs.map Ed25519Signature.publicKey).toFinset, ?_, ?_⟩
  · rw [List.toFinset_card_of_nodup h.distinct, List.length_map]
    exact h.enough
  · intro key hkey
    obtain ⟨sig, hsig, rfl⟩ := List.mem_map.mp (List.mem_toFinset.mp hkey)
    exact ⟨h.registered sig hsig, sig.signature, hsig, h.verifies sig hsig⟩

end Quorum

/-! ## The quorum of a constructed account -/

theorem accepts_iff {keys : List (BytesN 32)} {n : ℕ} {payload : BytesN 32}
    {sigs : List Ed25519Signature} :
    Accepts p ⟨some keys, some n⟩ payload sigs ↔ Quorum p keys n payload sigs := by
  constructor
  · rintro ⟨s', h⟩
    exact (checkAuth_run_eq_ok.mp h).1
  · intro h
    exact ⟨_, checkAuth_run_eq_ok.mpr ⟨h, rfl⟩⟩

/-- An account accepts exactly the lists of valid signatures by distinct registered
keys that reach its threshold.  So at least one and at least `n` registered keys
signed, the order does not matter, and all registered keys together are accepted. -/
theorem checkAuth_quorum {keys : List (BytesN 32)} {n : ℕ} {s₀ s : Storage}
    (hconstructed : (constructor keys n).run s₀ = .ok ((), s)) (p : Platform)
    (payload : BytesN 32) :
    (∀ sigs, Accepts p s payload sigs ↔ Quorum p keys n payload sigs) ∧
      (∀ sigs, Accepts p s payload sigs →
        ∃ signed : Finset (BytesN 32), 1 ≤ n ∧ n ≤ signed.card ∧
          ∀ key ∈ signed, key ∈ keys ∧ ∃ signature, ⟨key, signature⟩ ∈ sigs ∧
            p.ed25519Verify key payload.toArray signature = true) ∧
      (∀ sigs sigs', sigs.Perm sigs' → (Accepts p s payload sigs ↔ Accepts p s payload sigs')) ∧
      ∀ sigs, (sigs.map Ed25519Signature.publicKey).Perm keys →
        (∀ sig ∈ sigs, p.ed25519Verify sig.publicKey payload.toArray sig.signature = true) →
        Accepts p s payload sigs := by
  obtain ⟨⟨hpositive, hreachable, hnodup⟩, rfl⟩ := constructor_run_eq_ok.mp hconstructed
  refine ⟨fun sigs => accepts_iff, ?_, ?_, ?_⟩
  · intro sigs h
    obtain ⟨signed, hcard, hsigned⟩ := (accepts_iff.mp h).signed
    exact ⟨signed, hpositive, hcard, hsigned⟩
  · intro sigs sigs' hperm
    rw [accepts_iff, accepts_iff]
    exact ⟨fun h => h.perm hperm, fun h => h.perm hperm.symm⟩
  · -- the registered keys are distinct, and the threshold does not exceed their number
    intro sigs hall hverifies
    refine accepts_iff.mpr ⟨?_, hall.symm.nodup hnodup, hverifies, ?_⟩
    · intro sig hsig
      exact hall.mem_iff.mp (List.mem_map_of_mem hsig)
    · have hlength := hall.length_eq
      rw [List.length_map] at hlength
      omega

/-- Two keys with threshold 2, and their signatures over one payload. -/
theorem checkAuth_quorum_sample :
    Accepts Sample.platform ⟨some [Sample.lowKey, Sample.highKey], some 2⟩ Sample.messageHash
        [⟨Sample.highKey, Sample.highSignature⟩, ⟨Sample.lowKey, Sample.lowSignature⟩] ∧
      ¬ Accepts Sample.platform ⟨some [Sample.lowKey, Sample.highKey], some 2⟩ Sample.messageHash
        [⟨Sample.lowKey, Sample.lowSignature⟩, ⟨Sample.lowKey, Sample.lowSignature⟩] := by
  have hconstructed : (constructor [Sample.lowKey, Sample.highKey] 2).run ⟨none, none⟩ =
      .ok ((), ⟨some [Sample.lowKey, Sample.highKey], some 2⟩) :=
    constructor_run_eq_ok.mpr ⟨⟨by decide, by decide, by decide⟩, rfl⟩
  obtain ⟨hexact, -, hperm, hall⟩ :=
    checkAuth_quorum hconstructed Sample.platform Sample.messageHash
  constructor
  · refine (hperm _ _ (List.Perm.swap _ _ _)).mp (hall _ (List.Perm.refl _) ?_)
    intro sig hsig
    simp only [List.mem_cons, List.not_mem_nil, or_false] at hsig
    obtain rfl | rfl := hsig
    · decide
    · decide
  · rw [hexact]
    intro h
    exact absurd h.distinct (by decide)

end WarpDrive.MultisigAccount
