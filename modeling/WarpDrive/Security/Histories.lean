import WarpDrive.Security.Guarantees
import WarpDrive.Shared.Refinement

/-!
# What the operations write

An operation writes at most one weight, to the history of one key, and with it the
new total (`Storage.write?`, `Effect.writes`).  Two facts about the stored histories
follow.

* Every one of them results from pushes at ledgers that never decrease
  (`Reaches.pushed`), so it never holds more than 202 entries
  (`histories_bounded`).
* Operations on distinct keys in one ledger write to distinct histories, and their
  pushes to the history of the total coalesce; the storage does not depend on the
  order in which they ran (`order_independent`).
-/

namespace WarpDrive.Security

open VecHistory

variable {t : VerificationType} {J ops ops' : List Invocation} {L : ℕ} {s s' s₁ s₂ : Storage t}
  {env : Env} {c : Call}

/-- The weight that a call writes, and the key. -/
def Storage.write? (s : Storage t) : Call → Option (t.PubKey × UInt64)
  | .addSigner key weight => (BytesN.ofBytes? t.keyLength key).map fun key => (key, weight)
  | .removeSigner key =>
      match BytesN.ofBytes? t.keyLength key with
      | some key => if s.weight key = 0 then none else some (key, 0)
      | none => none
  | _ => none

theorem Storage.write?_of_not_isRegistry (hcall : c.isRegistry = false) : s.write? c = none := by
  cases c <;> first | rfl | cases hcall

/-- An operation writes a weight and a total, or nothing. -/
theorem Effect.writes (h : Effect env s c s') :
    (∃ key weight total, s.write? c = some (key, weight) ∧
        s'.signerWeightHist = Function.update s.signerWeightHist key
          (push historyCutoff env.ledger (s.signerWeightHist key) weight) ∧
        s'.totalWeightHist = push historyCutoff env.ledger s.totalWeightHist total) ∨
      s.write? c = none ∧ s'.signerWeightHist = s.signerWeightHist ∧
        s'.totalWeightHist = s.totalWeightHist := by
  cases h with
  | add key weight total _ _ _ =>
      have hwrite : s.write? (.addSigner key.toArray weight) = some (key, weight) := by
        simp [Storage.write?]
      exact Or.inl ⟨key, weight, total, hwrite, rfl, rfl⟩
  | remove key total _ hregistered _ =>
      have hwrite : s.write? (.removeSigner key.toArray) = some (key, 0) := by
        simp [Storage.write?, hregistered]
      exact Or.inl ⟨key, 0, total, hwrite, rfl, rfl⟩
  | removeUnknown key _ hunknown =>
      have hwrite : s.write? (.removeSigner key.toArray) = none := by
        simp [Storage.write?, hunknown]
      exact Or.inr ⟨hwrite, rfl, rfl⟩
  | setThreshold numerator denominator _ _ => exact Or.inr ⟨rfl, rfl, rfl⟩
  | base _ b hregistry _ => exact Or.inr ⟨Storage.write?_of_not_isRegistry hregistry, rfl, rfl⟩

/-! ## The size of the histories -/

/-- A history that pushes at ledgers up to `L` have made. -/
def Pushed (L : ℕ) (entries : List (Entry UInt64)) : Prop :=
  ∃ pushes, NonDecreasing pushes ∧ (∀ p ∈ pushes, p.ledger ≤ L) ∧
    entries = history historyCutoff pushes

namespace Pushed

variable {L' : ℕ} {entries : List (Entry UInt64)}

theorem nil (L : ℕ) : Pushed L [] :=
  ⟨[], List.Pairwise.nil, by simp, rfl⟩

theorem mono (h : Pushed L entries) (hle : L ≤ L') : Pushed L' entries := by
  obtain ⟨pushes, hordered, hupTo, heq⟩ := h
  exact ⟨pushes, hordered, fun p hp => (hupTo p hp).trans hle, heq⟩

theorem push (h : Pushed L entries) (value : UInt64) :
    Pushed L (push historyCutoff L entries value) := by
  obtain ⟨pushes, hordered, hupTo, rfl⟩ := h
  refine ⟨pushes ++ [⟨L, value⟩], ?_, ?_, ?_⟩
  · refine List.pairwise_append.mpr ⟨hordered, List.pairwise_singleton _ _, ?_⟩
    intro p hp q hq
    rw [List.mem_singleton.mp hq]
    exact hupTo p hp
  · intro p hp
    rcases List.mem_append.mp hp with hmem | hmem
    · exact hupTo p hmem
    · rw [List.mem_singleton.mp hmem]
  · rw [history_snoc]

theorem length_le (h : Pushed L entries) : entries.length ≤ 202 := by
  obtain ⟨pushes, hordered, -, rfl⟩ := h
  rcases List.eq_nil_or_concat pushes with rfl | ⟨init, p, rfl⟩
  · exact Nat.zero_le _
  · rw [List.concat_eq_append] at hordered ⊢
    exact (history_pruned historyCutoff hordered).length_le

end Pushed

/-- Every history of the storage was made by pushes. -/
structure AllPushed (L : ℕ) (s : Storage t) : Prop where
  signers : ∀ key, Pushed L (s.signerWeightHist key)
  total : Pushed L s.totalWeightHist

theorem AllPushed.mono {L' : ℕ} (h : AllPushed L s) (hle : L ≤ L') : AllPushed L' s where
  signers key := (h.signers key).mono hle
  total := h.total.mono hle

theorem AllPushed.step (h : AllPushed env.ledger s) (heffect : Effect env s c s') :
    AllPushed env.ledger s' := by
  rcases heffect.writes with ⟨key, weight, total, -, hweights, htotal⟩ | ⟨-, hweights, htotal⟩
  · constructor
    · intro k
      rw [hweights]
      by_cases hk : k = key
      · rw [hk, Function.update_self]
        exact (h.signers key).push weight
      · rw [Function.update_of_ne hk]
        exact h.signers k
    · rw [htotal]
      exact h.total.push total
  · constructor
    · intro k
      rw [hweights]
      exact h.signers k
    · rw [htotal]
      exact h.total

theorem Reaches.pushed (h : Reaches J s L) : AllPushed L s := by
  obtain ⟨hrun, hinOrder, hupTo⟩ := h
  -- along the run, with the ledger general, as for `Represents`
  refine Transition.Run.induction
    (motive := fun J s => InOrder J → ∀ L, (∀ inv ∈ J, inv.env.ledger ≤ L) → AllPushed L s)
    ?_ ?_ hrun hinOrder L hupTo
  · intro s hdeployed _ L _
    obtain ⟨wasm, admin, numerator, denominator, hconstruct⟩ := hdeployed
    obtain ⟨-, rfl⟩ := construct_eq_ok.mp hconstruct
    exact ⟨fun _ => .nil L, .nil L⟩
  · intro J s inv s' _ ih hexecutes hinOrder L hupTo
    obtain ⟨hinitial, -, hlast⟩ := List.pairwise_append.mp hinOrder
    obtain ⟨v, hcall⟩ := hexecutes
    have hnow : AllPushed inv.env.ledger s :=
      ih hinitial _ fun inv' hinv' => hlast inv' hinv' inv (by simp)
    exact (hnow.step (call_effect hcall)).mono (hupTo inv (by simp))

/-- A pruned history stays sorted and small, whatever is pushed, and so do the
histories of every reachable Security contract. -/
theorem histories_bounded :
    (∀ (V : Type) [Inhabited V] (cutoff : ℕ) (pushes : List (Entry V)) (p : Entry V),
      NonDecreasing (pushes ++ [p]) →
        Pruned cutoff p.ledger p.value (history cutoff (pushes ++ [p])) ∧
          (history cutoff (pushes ++ [p])).length ≤ cutoff + 2) ∧
      ∀ (t : VerificationType) (J : List Invocation) (s : Storage t) (L : ℕ), Reaches J s L →
        (∀ key, (s.signerWeightHist key).length ≤ 202) ∧ s.totalWeightHist.length ≤ 202 := by
  constructor
  · intro V _ cutoff pushes p hordered
    have hpruned := history_pruned cutoff hordered
    exact ⟨hpruned, hpruned.length_le⟩
  · intro t J s L hreach
    exact ⟨fun key => (hreach.pushed.signers key).length_le, hreach.pushed.total.length_le⟩

theorem histories_bounded_sample :
    (history 200 ([⟨5, 2⟩, ⟨9, 3⟩] ++ [(⟨300, 4⟩ : Entry UInt64)])).length ≤ 202 ∧
      (after sampleHistory sampleDeployment).totalWeightHist.length ≤ 202 :=
  ⟨(histories_bounded.1 UInt64 200 [⟨5, 2⟩, ⟨9, 3⟩] ⟨300, 4⟩ (by decide)).2,
    (histories_bounded.2 _ _ _ _ sample_reaches).2⟩

/-! ## The order of operations within a ledger -/

/-- The key that `add_signer` and `remove_signer` are about. -/
def signerKey : Call → Option Bytes
  | .addSigner key _ => some key
  | .removeSigner key => some key
  | _ => none

theorem signerKey_of_not_isRegistry (hcall : c.isRegistry = false) : signerKey c = none := by
  cases c <;> first | rfl | cases hcall

theorem Storage.signerKey_of_write? {key : t.PubKey} {weight : UInt64}
    (h : s.write? c = some (key, weight)) : signerKey c = some key.toArray := by
  cases c with
  | addSigner rawKey w =>
      simp only [Storage.write?, Option.map_eq_some_iff, Prod.mk.injEq] at h
      obtain ⟨k, hdecode, rfl, -⟩ := h
      rw [signerKey, BytesN.toArray_of_ofBytes? hdecode]
  | removeSigner rawKey =>
      simp only [Storage.write?] at h
      split at h
      · next k hdecode =>
          split at h
          · cases h
          · obtain ⟨rfl, -⟩ := Prod.mk.inj (Option.some.inj h)
            rw [signerKey, BytesN.toArray_of_ofBytes? hdecode]
      · cases h
  | _ => cases h

/-- What a call writes depends on the weight of its own key only. -/
theorem Storage.write?_congr
    (h : ∀ key : t.PubKey, signerKey c = some key.toArray → s'.weight key = s.weight key) :
    s'.write? c = s.write? c := by
  cases c with
  | removeSigner rawKey =>
      simp only [Storage.write?]
      split
      · next key hdecode =>
          rw [h key (by rw [signerKey, BytesN.toArray_of_ofBytes? hdecode])]
      · rfl
  | _ => rfl

/-- After operations on distinct keys, all at ledger `L`: each write that the state
`s` calls for was made once, and nothing else. -/
structure LedgerEnd (L : ℕ) (s : Storage t) (ops : List Invocation) (s' : Storage t) : Prop where
  written : ∀ inv ∈ ops, ∀ key weight, s.write? inv.call = some (key, weight) →
    s'.signerWeightHist key = push historyCutoff L (s.signerWeightHist key) weight
  untouched : ∀ key, (∀ inv ∈ ops, ∀ weight, s.write? inv.call ≠ some (key, weight)) →
    s'.signerWeightHist key = s.signerWeightHist key
  total : (∃ inv ∈ ops, s.write? inv.call ≠ none) →
    ∃ total, s'.totalWeightHist = push historyCutoff L s.totalWeightHist total
  noTotal : (∀ inv ∈ ops, s.write? inv.call = none) → s'.totalWeightHist = s.totalWeightHist

theorem LedgerEnd.start (L : ℕ) (s : Storage t) : LedgerEnd L s [] s where
  written inv hinv := absurd hinv (List.not_mem_nil)
  untouched _ _ := rfl
  total h := by
    obtain ⟨inv, hinv, -⟩ := h
    exact absurd hinv (List.not_mem_nil)
  noTotal _ := rfl

/-- The history of a key that no operation was about is as it was. -/
theorem LedgerEnd.untouched_of_signerKey (h : LedgerEnd L s ops s') {key : t.PubKey}
    (hkey : ∀ inv ∈ ops, signerKey inv.call ≠ some key.toArray) :
    s'.signerWeightHist key = s.signerWeightHist key := by
  apply h.untouched key
  intro inv hinv weight hwrite
  exact hkey inv hinv (Storage.signerKey_of_write? hwrite)

/-- One more write, to a key that none of the operations before was about. -/
theorem LedgerEnd.snoc_write {inv : Invocation} {key : t.PubKey} {weight total : UInt64}
    (h : LedgerEnd L s ops s₁) (hkey : ∀ inv' ∈ ops, signerKey inv'.call ≠ some key.toArray)
    (hwrite : s.write? inv.call = some (key, weight))
    (hweights : s₂.signerWeightHist = Function.update s₁.signerWeightHist key
      (push historyCutoff L (s₁.signerWeightHist key) weight))
    (htotal : s₂.totalWeightHist = push historyCutoff L s₁.totalWeightHist total) :
    LedgerEnd L s (ops ++ [inv]) s₂ := by
  constructor
  case written =>
    intro inv' hmem k w hwrite'
    rcases List.mem_append.mp hmem with hmem | hmem
    · have hother : k ≠ key := by
        intro heq
        exact hkey inv' hmem (by rw [Storage.signerKey_of_write? hwrite', heq])
      rw [hweights, Function.update_of_ne hother]
      exact h.written inv' hmem k w hwrite'
    · rw [List.mem_singleton.mp hmem, hwrite] at hwrite'
      obtain ⟨rfl, rfl⟩ := Prod.mk.inj (Option.some.inj hwrite')
      rw [hweights, Function.update_self, h.untouched_of_signerKey hkey]
  case untouched =>
    intro k hnone
    have hother : k ≠ key := by
      intro heq
      exact hnone inv (by simp) weight (by rw [hwrite, heq])
    rw [hweights, Function.update_of_ne hother]
    exact h.untouched k fun inv' hmem => hnone inv' (List.mem_append_left _ hmem)
  case total =>
    intro _
    -- whether or not the total was pushed before, this push wins
    by_cases hbefore : ∃ inv' ∈ ops, s.write? inv'.call ≠ none
    · obtain ⟨total', htotal'⟩ := h.total hbefore
      exact ⟨total, by rw [htotal, htotal', push_push]⟩
    · push Not at hbefore
      exact ⟨total, by rw [htotal, h.noTotal hbefore]⟩
  case noTotal =>
    intro hnone
    have hinv' := hnone inv (by simp)
    rw [hwrite] at hinv'
    cases hinv'

/-- One more operation that writes nothing. -/
theorem LedgerEnd.snoc_idle {inv : Invocation} (h : LedgerEnd L s ops s₁)
    (hwrite : s.write? inv.call = none) (hweights : s₂.signerWeightHist = s₁.signerWeightHist)
    (htotal : s₂.totalWeightHist = s₁.totalWeightHist) : LedgerEnd L s (ops ++ [inv]) s₂ := by
  constructor
  case written =>
    intro inv' hmem k w hwrite'
    rw [hweights]
    rcases List.mem_append.mp hmem with hmem | hmem
    · exact h.written inv' hmem k w hwrite'
    · rw [List.mem_singleton.mp hmem, hwrite] at hwrite'
      cases hwrite'
  case untouched =>
    intro k hnone
    rw [hweights]
    exact h.untouched k fun inv' hmem => hnone inv' (List.mem_append_left _ hmem)
  case total =>
    intro hex
    obtain ⟨inv', hmem, hne⟩ := hex
    rw [htotal]
    rcases List.mem_append.mp hmem with hmem | hmem
    · exact h.total ⟨inv', hmem, hne⟩
    · rw [List.mem_singleton.mp hmem] at hne
      exact absurd hwrite hne
  case noTotal =>
    intro hnone
    rw [htotal]
    exact h.noTotal fun inv' hmem => hnone inv' (List.mem_append_left _ hmem)

/-- One more operation, on a key that none of the operations before was about. -/
theorem LedgerEnd.snoc {inv : Invocation} (h : LedgerEnd L s ops s₁)
    (hkey : ∀ inv' ∈ ops, signerKey inv'.call ≠ signerKey inv.call)
    (hledger : inv.env.ledger = L) (heffect : Effect inv.env s₁ inv.call s₂) :
    LedgerEnd L s (ops ++ [inv]) s₂ := by
  -- the state before this operation calls for the same write as the state at the start
  have hsame : s₁.write? inv.call = s.write? inv.call := by
    apply Storage.write?_congr
    intro key hinv
    have hown : s₁.signerWeightHist key = s.signerWeightHist key :=
      h.untouched_of_signerKey fun inv' hinv' => hinv ▸ hkey inv' hinv'
    rw [Storage.weight, hown, Storage.weight]
  have hwrites := heffect.writes
  rw [hsame, hledger] at hwrites
  rcases hwrites with ⟨key, weight, total, hwrite, hweights, htotal⟩ | ⟨hwrite, hweights, htotal⟩
  · have hinv : signerKey inv.call = some key.toArray := Storage.signerKey_of_write? hwrite
    exact h.snoc_write (fun inv' hinv' => hinv ▸ hkey inv' hinv') hwrite hweights htotal
  · exact h.snoc_idle hwrite hweights htotal

/-- Operations on signers, on pairwise distinct keys, all at ledger `L`. -/
structure SameLedger (L : ℕ) (ops : List Invocation) : Prop where
  signers : ∀ inv ∈ ops, signerKey inv.call ≠ none
  distinct : ops.Pairwise fun inv inv' => signerKey inv.call ≠ signerKey inv'.call
  ledger : ∀ inv ∈ ops, inv.env.ledger = L

/-- Operations on signers leave the threshold, and of the base entries all but the events. -/
theorem Effect.same_config (h : Effect env s c s') (hc : signerKey c ≠ none) :
    s'.threshold = s.threshold ∧ ∃ events, s'.base = { s.base with events := events } := by
  cases h with
  | add | remove | removeUnknown => exact ⟨rfl, _, rfl⟩
  | setThreshold => exact absurd rfl hc
  | base _ b hregistry _ => exact absurd (signerKey_of_not_isRegistry hregistry) hc

theorem LedgerEnd.of_path (hpath : Transition.Path Executes s ops s') (hops : SameLedger L ops) :
    LedgerEnd L s ops s' ∧ s'.threshold = s.threshold ∧
      ∃ events, s'.base = { s.base with events := events } := by
  induction hpath with
  | nil => exact ⟨.start L s, rfl, s.base.events, rfl⟩
  | @snoc s₁ s₂ ops inv _ hstep ih =>
      obtain ⟨hdistinct, -, hlast⟩ := List.pairwise_append.mp hops.distinct
      obtain ⟨hend, hthreshold, events, hbase⟩ := ih
        ⟨fun inv' hmem => hops.signers inv' (List.mem_append_left _ hmem), hdistinct,
          fun inv' hmem => hops.ledger inv' (List.mem_append_left _ hmem)⟩
      obtain ⟨v, hcall⟩ := hstep
      have heffect := call_effect hcall
      obtain ⟨hthreshold', events', hbase'⟩ := heffect.same_config (hops.signers inv (by simp))
      refine ⟨hend.snoc (fun inv' hmem => hlast inv' hmem inv (by simp))
        (hops.ledger inv (by simp)) heffect, hthreshold'.trans hthreshold, events', ?_⟩
      rw [hbase', hbase]

/-- The writes do not depend on the order, so neither do the histories of the weights. -/
theorem LedgerEnd.signerWeightHist_eq (h₁ : LedgerEnd L s ops s₁) (h₂ : LedgerEnd L s ops' s₂)
    (hperm : ops.Perm ops') : s₁.signerWeightHist = s₂.signerWeightHist := by
  funext key
  by_cases hwritten : ∃ inv ∈ ops, ∃ weight, s.write? inv.call = some (key, weight)
  · obtain ⟨inv, hmem, weight, hwrite⟩ := hwritten
    rw [h₁.written inv hmem key weight hwrite,
      h₂.written inv (hperm.mem_iff.mp hmem) key weight hwrite]
  · push Not at hwritten
    rw [h₁.untouched key hwritten,
      h₂.untouched key fun inv hmem => hwritten inv (hperm.mem_iff.mpr hmem)]

theorem LedgerEnd.totalWeightHist_eq (h₁ : LedgerEnd L s ops s₁) (h₂ : LedgerEnd L s ops' s₂)
    (hperm : ops.Perm ops') (htotal : s₁.getTotalWeight = s₂.getTotalWeight) :
    s₁.totalWeightHist = s₂.totalWeightHist := by
  by_cases hwritten : ∃ inv ∈ ops, s.write? inv.call ≠ none
  · obtain ⟨total₁, heq₁⟩ := h₁.total hwritten
    obtain ⟨inv, hmem, hne⟩ := hwritten
    obtain ⟨total₂, heq₂⟩ := h₂.total ⟨inv, hperm.mem_iff.mp hmem, hne⟩
    -- the last push is the latest total, whatever the totals in between
    rw [Storage.getTotalWeight, heq₁, latest_push, Storage.getTotalWeight, heq₂, latest_push]
      at htotal
    rw [heq₁, heq₂, htotal]
  · push Not at hwritten
    rw [h₁.noTotal hwritten, h₂.noTotal fun inv hmem => hwritten inv (hperm.mem_iff.mpr hmem)]

/-- Operations that run in one ledger, on pairwise distinct keys, leave the same
storage in every order in which all of them succeed. -/
theorem order_independent (hreach : Reaches J s L) {L' : ℕ} (hlate : L ≤ L')
    (hops : SameLedger L' ops) (hperm : ops.Perm ops') (h₁ : Transition.Path Executes s ops s₁)
    (h₂ : Transition.Path Executes s ops' s₂) :
    s₁.allSigners = s₂.allSigners ∧ s₁.signerWeightHist = s₂.signerWeightHist ∧
      s₁.totalWeightHist = s₂.totalWeightHist ∧ s₁.threshold = s₂.threshold ∧
      ∃ events, s₁.base = { s₂.base with events := events } := by
  have hops' : SameLedger L' ops' :=
    ⟨fun inv hmem => hops.signers inv (hperm.mem_iff.mpr hmem),
      hperm.pairwise hops.distinct fun hne => hne.symm,
      fun inv hmem => hops.ledger inv (hperm.mem_iff.mpr hmem)⟩
  have hreach' : ∀ {ops s'}, SameLedger L' ops → Transition.Path Executes s ops s' →
      Represents (J ++ ops) L' s' := by
    intro ops s' hops hpath
    refine (hreach.append hpath ?_ ?_ ?_ hlate).represents
    · exact List.pairwise_of_forall_mem_list fun inv hinv inv' hinv' => by
        rw [hops.ledger inv hinv, hops.ledger inv' hinv']
    · intro inv hinv
      rw [hops.ledger inv hinv]
      exact hlate
    · intro inv hinv
      rw [hops.ledger inv hinv]
  obtain ⟨hend₁, hthreshold₁, events₁, hbase₁⟩ := LedgerEnd.of_path h₁ hops
  obtain ⟨hend₂, hthreshold₂, events₂, hbase₂⟩ := LedgerEnd.of_path h₂ hops'
  have hrepresents₁ := hreach' hops h₁
  have hrepresents₂ := hreach' hops' h₂
  have hweights := hend₁.signerWeightHist_eq hend₂ hperm
  -- equal weights are one registry, and the list and the total are functions of it
  have hregistry : registry t (J ++ ops) = registry t (J ++ ops') := by
    ext key
    rw [← hrepresents₁.weight_eq, ← hrepresents₂.weight_eq, Storage.weight, Storage.weight,
      hweights]
  have hsigners : s₁.allSigners = s₂.allSigners := by
    apply List.Pairwise.eq_of_mem_iff hrepresents₁.sorted hrepresents₂.sorted
    intro key
    rw [hrepresents₁.mem, hrepresents₂.mem, hregistry]
  have htotal : s₁.getTotalWeight = s₂.getTotalWeight := by
    rw [← UInt64.toNat_inj, hrepresents₁.getTotalWeight_eq, hrepresents₂.getTotalWeight_eq,
      hregistry]
  refine ⟨hsigners, hweights, hend₁.totalWeightHist_eq hend₂ hperm htotal,
    hthreshold₁.trans hthreshold₂.symm, events₁, ?_⟩
  rw [hbase₁, hbase₂]

/-- Two signers, added in one ledger. -/
def sampleOps : List Invocation :=
  [sampleInvocation 10 (.addSigner (sampleKey 5).toArray 3),
    sampleInvocation 10 (.addSigner (sampleKey 4).toArray 4)]

theorem order_independent_sample :
    (after sampleOps sampleDeployment).totalWeightHist =
      (after sampleOps.reverse sampleDeployment).totalWeightHist := by
  have hstart : Reaches [] sampleDeployment 0 :=
    ⟨.start ⟨_, _, 2, 3, rfl⟩, List.Pairwise.nil, by simp⟩
  have hops : SameLedger 10 sampleOps := ⟨by decide, by decide, by decide⟩
  have hpath : Transition.Path Executes sampleDeployment sampleOps
      (after sampleOps sampleDeployment) :=
    ((Transition.Path.nil _).snoc ⟨.void, rfl⟩).snoc ⟨.void, rfl⟩
  have hreversed : Transition.Path Executes sampleDeployment sampleOps.reverse
      (after sampleOps.reverse sampleDeployment) :=
    ((Transition.Path.nil _).snoc ⟨.void, rfl⟩).snoc ⟨.void, rfl⟩
  exact (order_independent hstart (Nat.zero_le 10) hops (List.reverse_perm _).symm hpath
    hreversed).2.2.1

end WarpDrive.Security
