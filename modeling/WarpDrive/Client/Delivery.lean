import WarpDrive.Client.Execute

/-!
# A transaction takes effect once

What `execute` sent may be delivered late, so an error says nothing about whether the
transaction took effect.  What holds is that one `execute` signs one transaction, which
asks for what the caller asked, and that the network delivers it once at most, for
however often it is sent and whatever else happens (`execute_applies_once`).  A caller who
tries again multiplies it no further than the attempts that were made
(`retries_bound`).

`Progress` counts what a caller has sent by attempts; `execute_triple` adds one.
-/

namespace WarpDrive.Client.Utils

open Interaction Sequenced
open Relation (ReflTransGen)
open scoped Classical

/-- A call, and the account that asks for it. -/
structure Request where
  account : Address
  contractId : Address
  functionName : String
  args : List ScVal

def Request.hostFunction (q : Request) : HostFunction :=
  .invokeContract q.contractId q.functionName q.args

variable {q : Request} {overflowChecks : Bool} {floor attempts total : ℕ} {n n' : Endpoint}

/-! ## What is sent -/

/-- The envelope asks for the call, with the authorizations, the footprint and the fee that
a simulation gave, and its number is beyond `floor`. -/
structure Requests (q : Request) (floor : ℕ) (envelope : TransactionEnvelope) : Prop where
  sourceAccount : envelope.tx.sourceAccount = q.account
  seqNum : floor < envelope.tx.seqNum
  assembled : ∃ (simulation : SimulateTransactionResponse) (result : SimulateHostFunctionResult)
      (data : SorobanTransactionData), simulation.error = none ∧
    (simulation.results.getD [])[0]? = some result ∧ simulation.transactionData = .ok data ∧
    envelope.tx.operations = [.invokeHostFunction q.hostFunction result.auth] ∧
    envelope.tx.ext = .v1 data ∧
    envelope.tx.fee.toNat = max defaultTransactionFee
      ((defaultTransactionFee + simulation.minResourceFee.toNat) % 2 ^ 64)

theorem vecMTryFrom_eq_ok {α : Type} {max : ℕ} {items items' : List α} {message : String} :
    vecMTryFrom max items message = .ok items' ↔ items.length ≤ max ∧ items' = items := by
  unfold vecMTryFrom
  split <;> simp_all [eq_comm]

theorem attachAuthFromSimulation_eq_ok {tx tx' : Transaction} {hostFunction : HostFunction}
    {auth : List SorobanAuthorizationEntry} {simResults : List SimulateHostFunctionResult}
    (hoperations : tx.operations = [.invokeHostFunction hostFunction auth])
    (h : attachAuthFromSimulation tx simResults = .ok tx') :
    ∃ result, simResults[0]? = some result ∧
      tx' = { tx with operations := [.invokeHostFunction hostFunction result.auth] } := by
  rw [attachAuthFromSimulation, hoperations, attachAuth] at h
  cases hresult : simResults[0]? with
  | none =>
      rw [hresult] at h
      cases h
  | some result =>
      rw [hresult] at h
      refine ⟨result, rfl, ?_⟩
      cases hauth : vecMTryFrom u32Max result.auth "too many auth entries" with
      | error e =>
          simp only [hauth] at h
          cases h
      | ok attached =>
          simp only [hauth] at h
          obtain ⟨-, rfl⟩ := vecMTryFrom_eq_ok.mp hauth
          cases h
          rfl

/-- Whether the build checks for overflow shows in the fees that it refuses, and in no fee. -/
theorem updatedFee_eq_ok {operations : ℕ} {minResourceFee : UInt64} {fee : UInt32}
    (h : updatedFee overflowChecks operations minResourceFee = some (.ok fee)) :
    fee.toNat = max defaultTransactionFee
      ((operations * defaultTransactionFee + minResourceFee.toNat) % 2 ^ 64) := by
  simp only [updatedFee] at h
  split at h
  · cases h
  · split at h
    · cases h
    · next hfits =>
        cases h
        have hdefault : defaultTransactionFee < 2 ^ 32 := by decide
        rw [UInt32.toNat_ofNat']
        exact Nat.mod_eq_of_lt (max_lt hdefault (not_le.mp hfits))

/-! ## What a caller has sent -/

/-- After so many attempts: every envelope that was sent asks for the call, and there are no
more different ones than attempts. -/
structure Progress (q : Request) (floor attempts : ℕ) (n : Endpoint) : Prop where
  ordered : Ordered n.network
  floor_le : floor ≤ n.network.last q.account
  requests : ∀ e ∈ n.sent, Requests q floor e
  length_le : n.sent.length ≤ 3 * attempts
  card_le : n.sent.toFinset.card ≤ attempts

/-- In the loop: after so many attempts, and `turns` turns with the envelope `signed`. -/
structure Sending (q : Request) (floor attempts : ℕ) (signed : TransactionEnvelope) (turns : ℕ)
    (n : Endpoint) : Prop where
  ordered : Ordered n.network
  floor_le : floor ≤ n.network.last q.account
  asks : Requests q floor signed
  sent : ∃ before, n.sent = before ++ List.replicate turns signed ∧
    (∀ e ∈ before, Requests q floor e) ∧
    before.length ≤ 3 * attempts ∧ before.toFinset.card ≤ attempts

/-- Something that was sent was delivered. -/
def Delivered (n : Endpoint) : Prop :=
  ∃ e ∈ n.sent, e ∈ n.network.delivered

theorem Progress.mono (h : Progress q floor attempts n)
    (hle : attempts ≤ total) : Progress q floor total n :=
  { h with
    length_le := h.length_le.trans (Nat.mul_le_mul_left 3 hle)
    card_le := h.card_le.trans hle }

/-- The turns with one envelope are one attempt. -/
theorem Sending.progress {signed : TransactionEnvelope} {turns : ℕ}
    (h : Sending q floor attempts signed turns n)
    (hturns : turns ≤ 3) :
    Progress q floor (attempts + 1) n := by
  obtain ⟨before, hsent, hbefore, hlength, hcard⟩ := h.sent
  refine ⟨h.ordered, h.floor_le, ?_, ?_, ?_⟩
  · intro e he
    rw [hsent, List.mem_append] at he
    rcases he with he | he
    · exact hbefore e he
    · exact List.eq_of_mem_replicate he ▸ h.asks
  · rw [hsent, List.length_append, List.length_replicate]
    omega
  · have hsubset : n.sent.toFinset ⊆ insert signed before.toFinset := by
      intro e he
      rw [hsent, List.mem_toFinset, List.mem_append] at he
      rcases he with he | he
      · exact Finset.mem_insert_of_mem (List.mem_toFinset.mpr he)
      · rw [List.eq_of_mem_replicate he]
        exact Finset.mem_insert_self _ _
    calc n.sent.toFinset.card
        ≤ (insert signed before.toFinset).card := Finset.card_le_card hsubset
      _ ≤ before.toFinset.card + 1 := Finset.card_insert_le _ _
      _ ≤ attempts + 1 := Nat.add_le_add_right hcard 1

theorem stable_progress :
    (endpoint q.account).Stable (Progress q floor attempts) := by
  rintro n n' ⟨hsent, hstep⟩ h
  exact ⟨hstep.ordered h.ordered, h.floor_le.trans (hstep.last_le _), hsent ▸ h.requests,
    hsent ▸ h.length_le, hsent ▸ h.card_le⟩

theorem stable_sending {signed : TransactionEnvelope} {turns : ℕ} : (endpoint q.account).Stable
    (Sending q floor attempts signed turns) := by
  rintro n n' ⟨hsent, hstep⟩ h
  exact ⟨hstep.ordered h.ordered, h.floor_le.trans (hstep.last_le _), h.asks, hsent ▸ h.sent⟩

theorem stable_delivered : (endpoint q.account).Stable Delivered := by
  rintro n n' ⟨hsent, hstep⟩ ⟨e, he, hdelivered⟩
  exact ⟨e, hsent ▸ he, hstep.prefix.subset hdelivered⟩

/-! ## One attempt -/

section Rules

/-- A call that only reads leaves everything as it was. -/
theorem reading_triple {i : Rpc} {Q : i.Response → Prop} (htotal : attempts ≤ total)
    (hreads : ∀ n r n', floor ≤ n.network.last q.account → Answers q.account n i r n' →
      n' = n ∧ ∀ a, r = .ok a → Q a) :
    (endpoint q.account).Triple (Progress q floor total) (fun _ => True)
      (Progress q floor attempts) (Script.perform i) (fun a n => Q a ∧ Progress q floor attempts n)
      fun _ => Progress q floor attempts := by
  refine .perform stable_progress trivial fun n r n' h hacts => ?_
  obtain ⟨rfl, hanswer⟩ := hreads n r n' h.floor_le hacts
  exact ⟨h.mono htotal, fun a ha => ⟨hanswer a ha, h⟩, fun _ _ => h⟩

/-- A process that has ended does not go on. -/
theorem panic_triple {err : SorobanHelperError → Endpoint → Prop} :
    (endpoint q.account).Triple (Progress q floor total) (fun _ => True)
      (Progress q floor attempts) (Script.perform Rpc.panic) (fun _ _ => False) err :=
  .perform stable_progress trivial fun _ _ _ _ => False.elim

/-- One turn of the loop. -/
theorem send_triple {signed : TransactionEnvelope} {turns : ℕ} (hturns : turns + 1 ≤ 3)
    (htotal : attempts + 1 ≤ total) :
    (endpoint q.account).Triple (Progress q floor total) (fun _ => True)
      (Sending q floor attempts signed turns) (Script.perform (Rpc.send signed))
      (fun _ n => Progress q floor total n ∧ Delivered n)
      fun _ => Sending q floor attempts signed (turns + 1) := by
  refine .perform stable_sending trivial ?_
  rintro n r n' h ⟨hsent, ⟨network, hnetwork, hpath⟩, hanswer⟩
  have hstart : Ordered network ∧ n.network.last q.account ≤ network.last q.account := by
    rcases hnetwork with rfl | rfl
    · exact ⟨h.ordered, le_rfl⟩
    · have hstep := Step.submit n.network signed
      exact ⟨hstep.ordered h.ordered, hstep.last_le _⟩
  have hnext : Sending q floor attempts signed (turns + 1) n' := by
    obtain ⟨before, hbefore, hrest⟩ := h.sent
    refine ⟨ordered_of_path hpath hstart.1, ?_, h.asks, before, ?_, hrest⟩
    · exact h.floor_le.trans (hstart.2.trans (last_le_of_path hpath _))
    · rw [hsent, hbefore, List.append_assoc, List.replicate_succ']
  have hprogress : Progress q floor total n' := (hnext.progress hturns).mono htotal
  refine ⟨hprogress, fun response hresponse => ⟨hprogress, signed, ?_, hanswer _ hresponse⟩,
    fun _ _ => hnext⟩
  rw [hsent]
  exact List.mem_append_right _ (List.mem_singleton_self _)

/-- The loop, from any turn on. -/
theorem sendLoop_triple {signed : TransactionEnvelope} {used left : ℕ} (hturns : used + left ≤ 3)
    (htotal : attempts + 1 ≤ total) (hstarted : 0 < left) (res) :
    (endpoint q.account).Triple (Progress q floor total) (fun _ => True)
      (Sending q floor attempts signed used) (sendLoop signed left res)
      (fun _ n => Progress q floor total n ∧ Delivered n)
      fun _ => Progress q floor (attempts + 1) := by
  -- on the turns that are left
  induction left generalizing used res with
  | zero => exact absurd hstarted (lt_irrefl 0)
  | succ left ih =>
      apply (send_triple (by omega) htotal).tryCatch
      intro e
      cases left with
      | zero => exact .fail fun n h => h.progress (by omega)
      | succ left => exact ih (by omega) (by omega) _

/-- A transaction as it is built. -/
structure Built (q : Request) (floor : ℕ) (tx : Transaction) : Prop where
  sourceAccount : tx.sourceAccount = q.account
  seqNum : floor < tx.seqNum
  operations : tx.operations = [.invokeHostFunction q.hostFunction []]

theorem buildTx_triple (htotal : attempts ≤ total) :
    (endpoint q.account).Triple (Progress q floor total) (fun _ => True)
      (Progress q floor attempts) (buildTx q.contractId q.functionName q.args)
      (fun tx n => Built q floor tx ∧ Progress q floor attempts n)
      fun _ => Progress q floor attempts := by
  refine reading_triple htotal ?_
  rintro n r n' hfloor ⟨rfl, hbuilt⟩
  refine ⟨rfl, fun tx htx => ?_⟩
  obtain ⟨hsource, hnumber, hoperations⟩ := hbuilt tx htx
  exact ⟨hsource, by omega, hoperations⟩

/-- What `execute` signs is assembled from what it built and a simulation. -/
theorem Built.requests {tx attached : Transaction} {simulation : SimulateTransactionResponse}
    {data : SorobanTransactionData} {fee : UInt32} {signed : TransactionEnvelope}
    (h : Built q floor tx) (herror : simulation.error = none)
    (hattach : attachAuthFromSimulation tx (simulation.results.getD []) = .ok attached)
    (hdata : simulation.transactionData = .ok data)
    (hfee : updatedFee overflowChecks attached.operations.length simulation.minResourceFee =
      some (.ok fee))
    (hsigned : signed.tx = { attached with ext := .v1 data, fee := fee }) :
    Requests q floor signed := by
  obtain ⟨result, hresult, rfl⟩ := attachAuthFromSimulation_eq_ok h.operations hattach
  have hfee' := updatedFee_eq_ok hfee
  rw [List.length_singleton, one_mul] at hfee'
  constructor
  case sourceAccount => rw [hsigned]; exact h.sourceAccount
  case seqNum => rw [hsigned]; exact h.seqNum
  case assembled =>
    exact ⟨simulation, result, data, herror, hresult, hdata, by rw [hsigned], by rw [hsigned],
      by rw [hsigned]; exact hfee'⟩

/-- One attempt: what it sends is one envelope more. -/
theorem execute_triple (htotal : attempts + 1 ≤ total) :
    (endpoint q.account).Triple (Progress q floor total) (fun _ => True)
      (Progress q floor attempts) (execute q.contractId q.functionName q.args overflowChecks)
      (fun _ n => Progress q floor total n ∧ Delivered n)
      fun _ => Progress q floor (attempts + 1) := by
  have hnext : ∀ n, Progress q floor attempts n → Progress q floor (attempts + 1) n :=
    fun n h => h.mono (Nat.le_succ attempts)
  have hle : attempts ≤ total := (Nat.le_succ attempts).trans htotal
  refine ((buildTx_triple hle).consequence (fun _ => id) (fun _ _ => id) fun _ => hnext).bind
    fun tx => .given fun hbuilt => ?_
  -- a simulation says what it likes
  refine ((reading_triple (i := .simulate ⟨tx, []⟩) (Q := fun _ => True) hle
    fun _ _ _ _ hread => ⟨hread, fun _ _ => trivial⟩).consequence (fun _ => id) (fun _ _ => id)
      fun _ => hnext).bind fun simulation => .given fun _ => ?_
  cases herror : simulation.error with
  | some message => exact .fail hnext
  | none => ?_
  cases hattach : attachAuthFromSimulation tx (simulation.results.getD []) with
  | error e => exact .fail hnext
  | ok attached => ?_
  cases hdata : simulation.transactionData with
  | error e => exact .fail hnext
  | ok data => ?_
  simp only [propagate, Except.mapError, Script.pure_bind]
  cases hfee : updatedFee overflowChecks attached.operations.length simulation.minResourceFee with
  | none => exact panic_triple.bind nofun
  | some fee => ?_
  cases fee with
  | error e => exact .fail hnext
  | ok fee => ?_
  refine ((reading_triple (i := .sign { attached with ext := .v1 data, fee := fee })
    (Q := fun signed => signed.tx = { attached with ext := .v1 data, fee := fee }) hle
    fun _ _ _ _ hread => hread).consequence (fun _ => id) (fun _ _ => id) fun _ => hnext).bind
      fun signed => .given fun hsigned => ?_
  have hasks := hbuilt.requests herror hattach hdata hfee hsigned
  refine (sendLoop_triple (by omega : 0 + 3 ≤ 3) htotal (by omega) _).strengthen fun n h => ?_
  exact ⟨h.ordered, h.floor_le, hasks, n.sent, (List.append_nil _).symm, h.requests, h.length_le,
    h.card_le⟩

/-- Each try is one attempt more, however errors are classified. -/
theorem retry_triple {retryable : SorobanHelperError → Bool} {retries : ℕ}
    (htotal : attempts + retries + 1 ≤ total) :
    (endpoint q.account).Triple (Progress q floor total) (fun _ => True)
      (Progress q floor attempts)
      ((execute q.contractId q.functionName q.args overflowChecks).retry retryable retries)
      (fun _ n => Progress q floor total n ∧ Delivered n) fun _ => Progress q floor total := by
  induction retries generalizing attempts with
  | zero =>
      exact (execute_triple htotal).consequence (fun _ => id) (fun _ _ => id)
        fun _ _ h => h.mono htotal
  | succ retries ih =>
      apply (execute_triple (by omega)).tryCatch
      intro e
      split
      · exact ih (by omega)
      · exact .fail fun n h => h.mono (by omega)

end Rules

/-! ## Runs -/

theorem Progress.start (hordered : Ordered n.network) (hsent : n.sent = []) :
    Progress q (n.network.last q.account) 0 n :=
  ⟨hordered, le_rfl, by simp [hsent], by simp [hsent], by simp [hsent]⟩

/-- Every envelope that was sent is new, and whatever happens later, it is delivered once at
most. -/
theorem Progress.once (h : Progress q (n.network.last q.account) attempts n')
    (hordered : Ordered n.network) {e : TransactionEnvelope} (he : e ∈ n'.sent)
    {later : Network TransactionEnvelope Address} (hlater : ReflTransGen Step n'.network later) :
    e ∉ n.network.delivered ∧ later.delivered.count e ≤ 1 := by
  constructor
  · apply hordered.notMem_of_lt
    have hasks := h.requests e he
    have hnumber : n.network.last e.tx.sourceAccount < e.tx.seqNum := by
      rw [hasks.sourceAccount]
      exact hasks.seqNum
    exact hnumber
  · exact List.nodup_iff_count_le_one.mp (ordered_of_path hlater h.ordered).nodup e

/-- A run of `execute` is one attempt, and it returns what was delivered. -/
theorem execute_sound {trace : List Rpc} {o : Outcome SorobanHelperError SorobanTransactionResponse}
    (hordered : Ordered n.network) (hsent : n.sent = [])
    (hrun : (endpoint q.account).Runs
      (execute q.contractId q.functionName q.args overflowChecks) n trace o n') :
    Progress q (n.network.last q.account) 1 n' ∧
      ∀ response, o = .returned response → Delivered n' := by
  have hstart := Progress.start (q := q) hordered hsent
  obtain ⟨hprogress, -, hreturned, -⟩ := hrun.sound stable_progress
    (execute_triple (by omega : 0 + 1 ≤ 1) n hstart) (hstart.mono zero_le_one)
  refine ⟨hprogress, fun response hresponse => ?_⟩
  obtain ⟨n₁, ⟨-, hdelivered⟩, hothers⟩ := hreturned response hresponse
  exact stable_delivered.star hothers hdelivered

/-- `execute` signs one transaction, which asks for the call and is new, and sends it three
times at most; whatever else happens then or later, the network delivers it once at most,
and it has delivered it where `execute` returned a response. -/
theorem execute_applies_once {trace : List Rpc}
    {o : Outcome SorobanHelperError SorobanTransactionResponse}
    (hordered : Ordered n.network) (hsent : n.sent = [])
    (hrun : (endpoint q.account).Runs
      (execute q.contractId q.functionName q.args overflowChecks) n trace o n') :
    n'.sent.length ≤ 3 ∧ (∀ e ∈ n'.sent, ∀ e' ∈ n'.sent, e = e') ∧
      (∀ e ∈ n'.sent, Requests q (n.network.last q.account) e ∧ e ∉ n.network.delivered ∧
        ∀ later, ReflTransGen Step n'.network later → later.delivered.count e ≤ 1) ∧
      ∀ response, o = .returned response → ∃ e ∈ n'.sent, n'.network.delivered.count e = 1 := by
  obtain ⟨hprogress, hreturned⟩ := execute_sound hordered hsent hrun
  refine ⟨hprogress.length_le, ?_, ?_, ?_⟩
  · intro e he e' he'
    exact Finset.card_le_one.mp hprogress.card_le e (List.mem_toFinset.mpr he) e'
      (List.mem_toFinset.mpr he')
  · intro e he
    exact ⟨hprogress.requests e he, (hprogress.once hordered he .refl).1,
      fun later hlater => (hprogress.once hordered he hlater).2⟩
  · intro response hresponse
    obtain ⟨e, he, hmem⟩ := hreturned response hresponse
    refine ⟨e, he, le_antisymm (hprogress.once hordered he .refl).2 ?_⟩
    exact List.one_le_count_iff.mpr hmem

/-- A caller who tries again, whatever errors it takes for worth that, has the network deliver
no more transactions than there were attempts, now and at any later time. -/
theorem retries_bound {retryable : SorobanHelperError → Bool} {retries : ℕ} {trace : List Rpc}
    {o : Outcome SorobanHelperError SorobanTransactionResponse}
    (hordered : Ordered n.network) (hsent : n.sent = [])
    (hrun : (endpoint q.account).Runs
      ((execute q.contractId q.functionName q.args overflowChecks).retry retryable retries) n
      trace o n') :
    n'.sent.length ≤ 3 * (retries + 1) ∧
      (∀ e ∈ n'.sent, Requests q (n.network.last q.account) e ∧ e ∉ n.network.delivered) ∧
      (∀ later, ReflTransGen Step n'.network later →
        later.delivered.countP (· ∈ n'.sent) ≤ retries + 1) ∧
      ∀ response, o = .returned response → ∃ e ∈ n'.sent, e ∈ n'.network.delivered := by
  have hstart := Progress.start (q := q) hordered hsent
  obtain ⟨hprogress, -, hreturned, -⟩ := hrun.sound stable_progress
    (retry_triple (by omega : 0 + retries + 1 ≤ retries + 1) n hstart) (hstart.mono (Nat.zero_le _))
  refine ⟨hprogress.length_le, ?_, ?_, ?_⟩
  · intro e he
    exact ⟨hprogress.requests e he, (hprogress.once hordered he .refl).1⟩
  · intro later hlater
    calc later.delivered.countP (· ∈ n'.sent)
        ≤ n'.sent.toFinset.card :=
          (ordered_of_path hlater hprogress.ordered).countP_le_card n'.sent
      _ ≤ retries + 1 := hprogress.card_le
  · intro response hresponse
    obtain ⟨n₁, ⟨-, hdelivered⟩, hothers⟩ := hreturned response hresponse
    exact stable_delivered.star hothers hdelivered

/-! ## Two runs

The first answer is lost after the network delivered the transaction.  In the one run it is
sent again, and the client hears that it succeeded.  In the other it gives up after three
turns, and the caller tries again with a new transaction. -/

section Sample

def sampleRequest : Request := ⟨⟨0⟩, ⟨1⟩, "set_threshold", [.u64 2, .u64 3]⟩

def sampleBuilt (number : ℕ) : Transaction :=
  ⟨⟨0⟩, 100, number, [.invokeHostFunction sampleRequest.hostFunction []], .v0⟩

def sampleSimulation : SimulateTransactionResponse :=
  ⟨none, some [⟨[⟨[7]⟩], .void⟩], .ok ⟨[8]⟩, 50⟩

def sampleSigned (number : ℕ) : TransactionEnvelope :=
  ⟨⟨⟨0⟩, 150, number, [.invokeHostFunction sampleRequest.hostFunction [⟨[7]⟩]], .v1 ⟨[8]⟩⟩, [[9]]⟩

def quiet : Endpoint := ⟨⟨fun _ => 0, [], []⟩, []⟩

def onceSent : Endpoint :=
  ⟨(quiet.network.submit (sampleSigned 1)).deliver (sampleSigned 1), [sampleSigned 1]⟩

/-- What an attempt does before it sends. -/
theorem attempt_runs {n n' : Endpoint} {number : ℕ} {trace : List Rpc}
    {o : Outcome SorobanHelperError SorobanTransactionResponse}
    (hnext : number = n.network.last ⟨0⟩ + 1)
    (hsends : (endpoint ⟨0⟩).Runs
      (sendLoop (sampleSigned number) 3 (.error (.notSupported "Placeholder"))) n trace o n') :
    (endpoint sampleRequest.account).Runs
      (execute sampleRequest.contractId sampleRequest.functionName sampleRequest.args false) n
      (.build ⟨1⟩ "set_threshold" [.u64 2, .u64 3] :: .simulate ⟨sampleBuilt number, []⟩ ::
        .sign (sampleSigned number).tx :: trace) o n' := by
  have hbuild : Answers ⟨0⟩ n (.build ⟨1⟩ "set_threshold" [.u64 2, .u64 3])
      (.ok (sampleBuilt number)) n := by
    refine ⟨rfl, ?_⟩
    rintro _ ⟨rfl⟩
    exact ⟨rfl, hnext, rfl⟩
  have hsimulate : Answers ⟨0⟩ n (.simulate ⟨sampleBuilt number, []⟩) (.ok sampleSimulation) n :=
    rfl
  have hsign : Answers ⟨0⟩ n (.sign (sampleSigned number).tx) (.ok (sampleSigned number)) n := by
    refine ⟨rfl, ?_⟩
    rintro _ ⟨rfl⟩
    rfl
  have hbuilds : (endpoint ⟨0⟩).Runs (buildTx ⟨1⟩ "set_threshold" [.u64 2, .u64 3]) n _
      (.returned (sampleBuilt number)) n := .perform hbuild
  have hsimulates : (endpoint ⟨0⟩).Runs (Script.perform (Rpc.simulate ⟨sampleBuilt number, []⟩)) n
      _ (.returned sampleSimulation) n := .perform hsimulate
  have hsigns : (endpoint ⟨0⟩).Runs (Script.perform (Rpc.sign (sampleSigned number).tx)) n _
      (.returned (sampleSigned number)) n := .perform hsign
  exact hbuilds.bind (hsimulates.bind (hsigns.bind hsends))

/-- The network takes the transaction and delivers it, and the answer is lost. -/
theorem lost_answers :
    Answers ⟨0⟩ quiet (.send (sampleSigned 1)) (.error (.other "timeout")) onceSent :=
  ⟨rfl, ⟨_, .inr rfl, .single (.deliver _ _ List.mem_cons_self rfl)⟩, nofun⟩

theorem sampleRun : (endpoint sampleRequest.account).Runs
    (execute sampleRequest.contractId sampleRequest.functionName sampleRequest.args false) quiet
    [.build ⟨1⟩ "set_threshold" [.u64 2, .u64 3], .simulate ⟨sampleBuilt 1, []⟩,
      .sign (sampleSigned 1).tx, .send (sampleSigned 1), .send (sampleSigned 1)]
    (.returned ⟨some "hash"⟩) ⟨onceSent.network, [sampleSigned 1, sampleSigned 1]⟩ := by
  have hagain : Answers ⟨0⟩ onceSent (.send (sampleSigned 1)) (.ok ⟨some "hash"⟩)
      ⟨onceSent.network, [sampleSigned 1, sampleSigned 1]⟩ :=
    ⟨rfl, ⟨_, .inl rfl, .refl⟩, fun _ _ => List.mem_singleton_self _⟩
  exact attempt_runs rfl (.act lost_answers (.act hagain (.ret _ _)))

theorem quiet_ordered : Ordered quiet.network :=
  ⟨nofun, .nil⟩

theorem execute_applies_once_sample :
    Requests sampleRequest 0 (sampleSigned 1) ∧
      onceSent.network.delivered.count (sampleSigned 1) = 1 := by
  obtain ⟨-, -, hrequests, hreturned⟩ := execute_applies_once quiet_ordered rfl sampleRun
  obtain ⟨e, he, hcount⟩ := hreturned _ rfl
  obtain rfl : e = sampleSigned 1 := by simpa using he
  exact ⟨(hrequests (sampleSigned 1) (by simp)).1, hcount⟩

/-- The client gave up on a transaction that was delivered. -/
def gaveUp : Endpoint :=
  ⟨onceSent.network, [sampleSigned 1, sampleSigned 1, sampleSigned 1]⟩

def retried : Endpoint :=
  ⟨(gaveUp.network.submit (sampleSigned 2)).deliver (sampleSigned 2),
    [sampleSigned 1, sampleSigned 1, sampleSigned 1, sampleSigned 2]⟩

theorem gaveUp_runs : (endpoint sampleRequest.account).Runs
    (execute sampleRequest.contractId sampleRequest.functionName sampleRequest.args false) quiet
    [.build ⟨1⟩ "set_threshold" [.u64 2, .u64 3], .simulate ⟨sampleBuilt 1, []⟩,
      .sign (sampleSigned 1).tx, .send (sampleSigned 1), .send (sampleSigned 1),
      .send (sampleSigned 1)] (.failed (.other "timeout")) gaveUp := by
  have hrefused : ∀ sent, Answers ⟨0⟩ ⟨onceSent.network, sent⟩ (.send (sampleSigned 1))
      (.error (.other "timeout")) ⟨onceSent.network, sent ++ [sampleSigned 1]⟩ :=
    fun _ => ⟨rfl, ⟨_, .inl rfl, .refl⟩, nofun⟩
  exact attempt_runs rfl (.act lost_answers (.act (hrefused _) (.act (hrefused _) (.fail _ _))))

theorem retried_runs : (endpoint sampleRequest.account).Runs
    (execute sampleRequest.contractId sampleRequest.functionName sampleRequest.args false) gaveUp
    [.build ⟨1⟩ "set_threshold" [.u64 2, .u64 3], .simulate ⟨sampleBuilt 2, []⟩,
      .sign (sampleSigned 2).tx, .send (sampleSigned 2)] (.returned ⟨some "hash"⟩) retried := by
  have hsend : Answers ⟨0⟩ gaveUp (.send (sampleSigned 2)) (.ok ⟨some "hash"⟩) retried :=
    ⟨rfl, ⟨_, .inr rfl, .single (.deliver _ _ List.mem_cons_self rfl)⟩,
      fun _ _ => List.mem_cons_of_mem _ (List.mem_singleton_self _)⟩
  exact attempt_runs rfl (.act hsend (.ret _ _))

/-- Two attempts, and both transactions took effect. -/
theorem retries_bound_sample :
    retried.network.delivered = [sampleSigned 1, sampleSigned 2] ∧
      retried.network.delivered.countP (· ∈ retried.sent) ≤ 1 + 1 := by
  have hrun : (endpoint sampleRequest.account).Runs (Script.retry (fun _ => true)
      (execute sampleRequest.contractId sampleRequest.functionName sampleRequest.args false) 1)
      quiet _ (.returned ⟨some "hash"⟩) retried := gaveUp_runs.retry_failed rfl retried_runs
  exact ⟨rfl, (retries_bound quiet_ordered rfl hrun).2.2.1 _ .refl⟩

end Sample

end WarpDrive.Client.Utils
