import WarpDrive.Library.Totals
import WarpDrive.Security.Operations

/-!
# The registry behind the storage

What the three structures of a Security contract stand for is one map from keys
to weights: the registry that results from the calls made so far.  `registry J`
replays the calls `J`, and `registryAt J r` replays those made at ledgers up to
`r`; it is the registry that was in force at ledger `r`.

`Represents J L s` is the invariant of all runs: at ledger `L`, after the calls
`J`, the list of signers is the sorted support of the registry, the histories
record the weights and the total that were in force, and every total fits in a
`u64`.  The contract never checks any of it.
-/

namespace WarpDrive.Security

open VecHistory

variable {t : VerificationType}

/-! ## Replaying the calls -/

/-- What a successful call does to the registry. -/
noncomputable def replay (registry : t.PubKey →₀ UInt64) : Call → t.PubKey →₀ UInt64
  | .addSigner key weight =>
      match BytesN.ofBytes? t.keyLength key with
      | some key => registry.update key weight
      | none => registry
  | .removeSigner key =>
      match BytesN.ofBytes? t.keyLength key with
      | some key => registry.erase key
      | none => registry
  | _ => registry

/-- The registry after the invocations `J`: the weight of each key, zero if it
was never added or removed since. -/
noncomputable def registry (t : VerificationType) (J : List Invocation) : t.PubKey →₀ UInt64 :=
  J.foldl (fun registry inv => replay registry inv.call) 0

/-- The registry after the last invocation at a ledger up to `r`. -/
noncomputable def registryAt (t : VerificationType) (J : List Invocation) (r : ℕ) :
    t.PubKey →₀ UInt64 :=
  registry t (J.filter fun inv => inv.env.ledger ≤ r)

/-- The total weight of a registry, as a natural number. -/
noncomputable def totalWeight (registry : t.PubKey →₀ UInt64) : ℕ :=
  Totals.total UInt64.toNat registry

theorem replay_add (registry : t.PubKey →₀ UInt64) (key : t.PubKey) (weight : UInt64) :
    replay registry (.addSigner key.toArray weight) = registry.update key weight := by
  simp [replay]

theorem replay_remove (registry : t.PubKey →₀ UInt64) (key : t.PubKey) :
    replay registry (.removeSigner key.toArray) = registry.erase key := by
  simp [replay]

theorem replay_of_not_isRegistry (registry : t.PubKey →₀ UInt64) {call : Call}
    (hcall : call.isRegistry = false) : replay registry call = registry := by
  cases call <;> first | rfl | cases hcall

theorem registry_snoc (J : List Invocation) (inv : Invocation) :
    registry t (J ++ [inv]) = replay (registry t J) inv.call := by
  simp [registry]

/-- At the ledger of the last invocation or later, all of them count. -/
theorem registryAt_eq_registry {J : List Invocation} {r : ℕ}
    (h : ∀ inv ∈ J, inv.env.ledger ≤ r) : registryAt t J r = registry t J := by
  unfold registryAt
  rw [List.filter_eq_self.mpr fun inv hinv => by simpa using h inv hinv]

/-- Invocations at later ledgers do not matter. -/
theorem registryAt_append_of_lt {J J' : List Invocation} {r : ℕ}
    (h : ∀ inv ∈ J', r < inv.env.ledger) : registryAt t (J ++ J') r = registryAt t J r := by
  have hnone : J'.filter (fun inv => inv.env.ledger ≤ r) = [] :=
    List.filter_eq_nil_iff.mpr fun inv hinv => by simpa using h inv hinv
  rw [registryAt, List.filter_append, hnone, List.append_nil, registryAt]

/-- One more invocation changes the registry from its ledger on. -/
theorem registryAt_snoc {J : List Invocation} {inv : Invocation}
    (h : ∀ inv' ∈ J, inv'.env.ledger ≤ inv.env.ledger) :
    registryAt t (J ++ [inv]) =
      Timeline.update (registryAt t J) inv.env.ledger (replay (registry t J) inv.call) := by
  funext r
  rcases le_or_gt inv.env.ledger r with hle | hlt
  · have hall : ∀ inv' ∈ J ++ [inv], inv'.env.ledger ≤ r := by
      intro inv' hmem
      rcases List.mem_append.mp hmem with hmem | hmem
      · exact (h inv' hmem).trans hle
      · rwa [List.mem_singleton.mp hmem]
    rw [Timeline.update_of_le hle, registryAt_eq_registry hall, registry_snoc]
  · have hlate : decide (inv.env.ledger ≤ r) = false := by simpa using hlt
    rw [Timeline.update_of_lt hlt, registryAt, registryAt, List.filter_append,
      List.filter_singleton, hlate, cond_false, List.append_nil]

theorem totalWeight_update (registry : t.PubKey →₀ UInt64) (key : t.PubKey) (weight : UInt64) :
    totalWeight (registry.update key weight) + (registry key).toNat =
      totalWeight registry + weight.toNat :=
  Totals.total_update rfl registry key weight

theorem totalWeight_erase (registry : t.PubKey →₀ UInt64) (key : t.PubKey) :
    totalWeight (registry.erase key) + (registry key).toNat = totalWeight registry :=
  Totals.total_erase rfl registry key

theorem toNat_le_totalWeight (registry : t.PubKey →₀ UInt64) (key : t.PubKey) :
    (registry key).toNat ≤ totalWeight registry :=
  Totals.size_le_total rfl registry key

/-! ## The invariant -/

/-- At ledger `L`, the storage represents the registry that the invocations `J`
built. -/
structure Represents (J : List Invocation) (L : ℕ) (s : Storage t) : Prop where
  sorted : s.allSigners.Pairwise (· < ·)
  mem : ∀ key, key ∈ s.allSigners ↔ registry t J key ≠ 0
  signers : ∀ key,
    Records historyCutoff L (s.signerWeightHist key) fun r => registryAt t J r key
  total : Records historyCutoff L s.totalWeightHist fun r =>
    .ofNat (totalWeight (registryAt t J r))
  bounded : ∀ r, totalWeight (registryAt t J r) < 2 ^ 64
  upTo : ∀ inv ∈ J, inv.env.ledger ≤ L
  threshold : 0 < s.threshold.numerator.toNat ∧
    s.threshold.numerator.toNat ≤ s.threshold.denominator.toNat

namespace Represents

variable {J : List Invocation} {L L' : ℕ} {s : Storage t}

theorem mono (h : Represents J L s) (hle : L ≤ L') : Represents J L' s :=
  { h with
    signers := fun key => (h.signers key).mono hle
    total := h.total.mono hle
    upTo := fun inv hinv => (h.upTo inv hinv).trans hle }

theorem registryAt_now (h : Represents J L s) : registryAt t J L = registry t J :=
  registryAt_eq_registry h.upTo

theorem registry_bounded (h : Represents J L s) : totalWeight (registry t J) < 2 ^ 64 :=
  h.registryAt_now ▸ h.bounded L

theorem weight_eq (h : Represents J L s) (key : t.PubKey) : s.weight key = registry t J key := by
  rw [Storage.weight, (h.signers key).latest_eq, h.registryAt_now]

theorem getTotalWeight_eq (h : Represents J L s) :
    s.getTotalWeight.toNat = totalWeight (registry t J) := by
  rw [Storage.getTotalWeight, h.total.latest_eq, h.registryAt_now, UInt64.toNat_ofNat']
  exact Nat.mod_eq_of_lt h.registry_bounded

/-- The subtraction of an old weight never underflows. -/
theorem weight_le_total (h : Represents J L s) (key : t.PubKey) :
    (s.weight key).toNat ≤ s.getTotalWeight.toNat := by
  rw [h.weight_eq, h.getTotalWeight_eq]
  exact toNat_le_totalWeight _ key

/-- The total that `add_signer` records is the total of the updated registry; its
overflow check is the only way it fails. -/
theorem totalAfterAdd_eq (h : Represents J L s) (key : t.PubKey) (weight : UInt64) :
    s.totalAfterAdd key weight =
      if totalWeight ((registry t J).update key weight) < 2 ^ 64
      then some (.ofNat (totalWeight ((registry t J).update key weight))) else none := by
  have hle := h.weight_le_total key
  have hsub := toNat_sub_of_le hle
  have hupdate := totalWeight_update (registry t J) key weight
  -- the old weight is counted in the total, so subtracting it first loses nothing
  rw [← h.getTotalWeight_eq, ← h.weight_eq] at hupdate
  have hsum : (s.getTotalWeight - s.weight key).toNat + weight.toNat =
      totalWeight ((registry t J).update key weight) := by omega
  unfold Storage.totalAfterAdd checkedSub checkedAdd
  rw [if_pos hle, Option.bind_some, hsum]
  split
  · next hfits =>
      rw [Option.some.injEq, ← UInt64.toNat_inj, toNat_add_of_lt (hsum ▸ hfits), hsum,
        UInt64.toNat_ofNat', Nat.mod_eq_of_lt hfits]
  · rfl

theorem totalAfterRemove_eq (h : Represents J L s) (key : t.PubKey) :
    checkedSub s.getTotalWeight (s.weight key) =
      some (.ofNat (totalWeight ((registry t J).erase key))) := by
  have hle := h.weight_le_total key
  have hsub := toNat_sub_of_le hle
  have herase := totalWeight_erase (registry t J) key
  have hbounded := h.registry_bounded
  rw [← h.getTotalWeight_eq, ← h.weight_eq] at herase
  rw [← h.getTotalWeight_eq] at hbounded
  rw [checkedSub, if_pos hle, Option.some.injEq, ← UInt64.toNat_inj, hsub, UInt64.toNat_ofNat',
    Nat.mod_eq_of_lt (by omega)]
  omega

end Represents

end WarpDrive.Security
