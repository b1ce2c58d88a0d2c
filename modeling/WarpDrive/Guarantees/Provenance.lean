import WarpDrive.Library.Transfer
import WarpDrive.System.Members

/-!
# Where an admin comes from

Each contract of WarpDrive keeps its admin as a two-step office, whatever else it
does: `Instance.Executes.moves` reads this off the effects of the four contracts.
The history of the office, the library's invariant, says where every admin and
every pending admin comes from.
-/

namespace WarpDrive

open Transfer

variable {p : Platform} {J : List Invocation} {inst inst' : Instance} {inv : Invocation}

/-- The admin and the pending admin. -/
def Base.office (b : Base) : Office Address where
  holder := b.admin
  candidate := b.pndAdmin

/-- What a call does to the office of the contract it reaches. -/
def Call.move : Call → Move Address
  | .proposeAdmin newAdmin => .propose newAdmin
  | .acceptAdmin => .accept
  | _ => .other

theorem Call.move_of_not_isGovernance {c : Call} (h : c.isGovernance = false) :
    c.move = .other := by
  cases c <;> first | rfl | cases h

/-- Who authorized the invocation. -/
def Invocation.consents (inv : Invocation) (a : Address) : Prop :=
  inv.env.authorized a = true

theorem BaseStep.moves {env : Env} {b b' : Base} {c : Call} (h : BaseStep env b c b') :
    Moves (fun a => env.authorized a = true) b.office c.move b'.office := by
  cases h with
  | upgrade _ _ _ => exact .other b.office
  | propose newAdmin hauth => exact .propose b.office newAdmin hauth
  | accept pending hpending hauth => exact .accept b.office pending hpending hauth
  | query _ hcall =>
      rw [Call.move_of_not_isGovernance hcall]
      exact .other b.office

/-! ## The office of each contract -/

section Effects

variable {t : VerificationType} {ω : Type} {host : Host ω} {env : Env} {c : Call}

theorem Security.Effect.moves {s s' : Security.Storage t} (h : Security.Effect env s c s') :
    Moves (fun a => env.authorized a = true) s.base.office c.move s'.base.office := by
  cases h with
  | base _ _ _ hbase => exact hbase.moves
  | _ => exact .other s.base.office

theorem Verification.Effect.moves {frame frame' : Frame Verification.Storage ω}
    (h : Verification.Effect host env frame c frame') :
    Moves (fun a => env.authorized a = true) frame.storage.base.office c.move
      frame'.storage.base.office := by
  cases h with
  | base _ hbase => exact hbase.moves
  | query _ hcall _ =>
      rw [Call.move_of_not_isGovernance hcall]
      exact .other frame.storage.base.office

theorem Handler.Effect.moves {frame frame' : Frame Handler.Storage ω}
    (h : Handler.Effect p t host env frame c frame') :
    Moves (fun a => env.authorized a = true) frame.storage.base.office c.move
      frame'.storage.base.office := by
  cases h with
  | accept bytes sigData m _ _ =>
      have hmove : (Handler.submission t bytes sigData).move = .other := by
        cases t <;> rfl
      rw [hmove]
      exact .other frame.storage.base.office
  | base _ _ _ hbase => exact hbase.moves

theorem ProjectRoot.Effect.moves {frame frame' : Frame ProjectRoot.Storage ω}
    (h : ProjectRoot.Effect host env frame c frame') :
    Moves (fun a => env.authorized a = true) frame.storage.base.office c.move
      frame'.storage.base.office := by
  cases h with
  | base _ hbase => exact hbase.moves
  | query hcall =>
      rw [Call.move_of_not_isGovernance hcall]
      exact .other frame.storage.base.office
  | gated _ hcall _ _ hkept _ =>
      -- a forwarder changes the admins of other contracts, not that of ProjectRoot
      have hsame : frame'.storage.base.office = frame.storage.base.office := by
        rw [Base.office, Base.office, hkept.admin, hkept.pndAdmin]
      rw [Call.move_of_not_isGovernance hcall, hsame]
      exact .other frame.storage.base.office

end Effects

/-- Every invocation that a contract of WarpDrive answers is a move of its office. -/
theorem Instance.Executes.moves {b' : Base} (h : inst.Executes p inv inst')
    (hbase' : inst'.base? = some b') :
    ∃ b, inst.base? = some b ∧ Moves inv.consents b.office inv.call.move b'.office := by
  cases h.effect with
  | security heffect =>
      cases hbase'
      exact ⟨_, rfl, heffect.moves⟩
  | verification _ heffect =>
      cases hbase'
      exact ⟨_, rfl, heffect.moves⟩
  | handler heffect =>
      cases hbase'
      exact ⟨_, rfl, heffect.moves⟩
  | projectRoot heffect =>
      cases hbase'
      exact ⟨_, rfl, heffect.moves⟩
  | foreign _ _ => cases hbase'

theorem Instance.Deployed.pndAdmin_eq_none {b : Base} (h : inst.Deployed)
    (hbase : inst.base? = some b) : b.pndAdmin = none := by
  cases inst with
  | security t s =>
      obtain ⟨wasm, admin, n, d, hconstruct⟩ := h
      obtain ⟨-, rfl⟩ := Security.construct_eq_ok.mp hconstruct
      cases hbase
      rfl
  | verification t s =>
      obtain ⟨wasm, admin, securityContract, rfl⟩ := h
      cases hbase
      rfl
  | handler t s =>
      obtain ⟨wasm, admin, verificationContract, rfl⟩ := h
      cases hbase
      rfl
  | projectRoot s =>
      obtain ⟨wasm, admin, securityContract, verificationContract, repo, type, rfl⟩ := h
      cases hbase
      rfl
  | foreign f => cases hbase

/-- The office of an instance, unless it is foreign. -/
def Instance.office (inst : Instance) : Option (Office Address) :=
  inst.base?.map Base.office

theorem keeps_office (p : Platform) :
    Keeps Instance.Deployed (Instance.Executes p) Instance.office (fun inv => inv.call.move)
      Invocation.consents where
  vacant inst o hdeployed hoffice := by
    obtain ⟨b, hbase, rfl⟩ := Option.map_eq_some_iff.mp hoffice
    exact hdeployed.pndAdmin_eq_none hbase
  moves inst inv inst' o' hexecutes hoffice' := by
    obtain ⟨b', hbase', rfl⟩ := Option.map_eq_some_iff.mp hoffice'
    obtain ⟨b, hbase, hmoves⟩ := hexecutes.moves hbase'
    have hoffice : inst.office = some b.office := by
      rw [Instance.office, hbase]
      rfl
    exact ⟨b.office, hoffice, hmoves⟩

/-! ## Provenance -/

/-- In the run `J` to `inst`, the admin `a` proposed `b` and authorized it, while it was
the admin; no proposal and no acceptance came after. -/
def Proposed (p : Platform) (J : List Invocation) (inst : Instance) (a b : Address) : Prop :=
  ∃ J₁ proposal J₂ inst₁ inst₂ b₁, J = J₁ ++ proposal :: J₂ ∧
    Transition.Run Instance.Deployed (Instance.Executes p) J₁ inst₁ ∧
    inst₁.Executes p proposal inst₂ ∧ Transition.Path (Instance.Executes p) inst₂ J₂ inst ∧
    inst₁.base? = some b₁ ∧ b₁.admin = a ∧ proposal.call = .proposeAdmin b ∧
    proposal.env.authorized a = true ∧
    ∀ later ∈ J₂, later.call ≠ .acceptAdmin ∧ ∀ c, later.call ≠ .proposeAdmin c

theorem Call.eq_proposeAdmin_of_move {c : Call} {a : Address} (h : c.move = .propose a) :
    c = .proposeAdmin a := by
  cases c with
  | proposeAdmin newAdmin =>
      cases h
      rfl
  | _ => cases h

theorem Call.eq_acceptAdmin_of_move {c : Call} (h : c.move = .accept) : c = .acceptAdmin := by
  cases c with
  | acceptAdmin => rfl
  | _ => cases h

theorem proposed_of_named {a b : Address} (h : Named Instance.Deployed (Instance.Executes p)
    Instance.office (fun inv => inv.call.move) Invocation.consents J inst a b) :
    Proposed p J inst a b := by
  obtain ⟨J₁, proposal, J₂, inst₁, inst₂, o₁, hJ, hrun, hstep, hpath, hoffice, hholder, hmove,
    hconsent, hlater⟩ := h
  obtain ⟨b₁, hbase, rfl⟩ := Option.map_eq_some_iff.mp hoffice
  refine ⟨J₁, proposal, J₂, inst₁, inst₂, b₁, hJ, hrun, hstep, hpath, hbase, hholder,
    Call.eq_proposeAdmin_of_move hmove, hconsent, ?_⟩
  intro later hmem
  have hother : later.call.move = .other := hlater later hmem
  constructor
  · intro haccept
    rw [haccept] at hother
    cases hother
  · intro c hpropose
    rw [hpropose] at hother
    cases hother

/-- Where the admin and the pending admin of a contract come from, after the run `J`. -/
structure AdminProvenance (p : Platform) (J : List Invocation) (inst : Instance) (b : Base) :
    Prop where
  transfer : ∀ inv inst' b', inst.Executes p inv inst' → inst'.base? = some b' →
    b'.admin ≠ b.admin →
      inv.call = .acceptAdmin ∧ inv.env.authorized b'.admin = true ∧ b'.pndAdmin = none ∧
        Proposed p J inst b.admin b'.admin
  pending : ∀ a, b.pndAdmin = some a → Proposed p J inst b.admin a

/-- Every admin accepted the last proposal of its predecessor, in every run of every
contract. -/
theorem admin_provenance {b : Base}
    (hrun : Transition.Run Instance.Deployed (Instance.Executes p) J inst)
    (hbase : inst.base? = some b) : AdminProvenance p J inst b := by
  have hkeeps := keeps_office p
  have hoffice : inst.office = some b.office := by
    rw [Instance.office, hbase]
    rfl
  constructor
  case transfer =>
    intro inv inst' b' hexecutes hbase' hchange
    have hoffice' : inst'.office = some b'.office := by
      rw [Instance.office, hbase']
      rfl
    obtain ⟨hmove, hconsent, hvacant, hnamed⟩ :=
      change_of_holder hkeeps hrun hexecutes hoffice hoffice' hchange
    exact ⟨Call.eq_acceptAdmin_of_move hmove, hconsent, hvacant, proposed_of_named hnamed⟩
  case pending =>
    intro a hpending
    exact proposed_of_named (candidate_named hkeeps hrun hoffice hpending)

/-! ## A transfer

The admin of a Verification contract proposes one address and then another; the
second one accepts. -/

section Sample

def signedBy (a : Address) (call : Call) : Invocation where
  env := { self := ⟨2⟩, invoker := none, ledger := 10, signed := (· == a) }
  call := call

def proposals : List Invocation :=
  [signedBy ⟨0⟩ (.proposeAdmin ⟨5⟩), signedBy ⟨0⟩ (.proposeAdmin ⟨6⟩)]

def contested : Verification.Storage where
  base := { Base.deployed Sample.zeroHash ⟨0⟩ with
    pndAdmin := some ⟨6⟩
    events := [.adminProposed ⟨0⟩ ⟨5⟩, .adminProposed ⟨0⟩ ⟨6⟩] }
  securityContract := ⟨1⟩

def handedOver : Verification.Storage where
  base := { contested.base with
    admin := ⟨6⟩
    pndAdmin := none
    events := contested.base.events ++ [.adminAccepted ⟨6⟩] }
  securityContract := ⟨1⟩

theorem proposals_run : Transition.Run Instance.Deployed (Instance.Executes Sample.platform)
    proposals (.verification .stellar contested) := by
  have hstart : Transition.Run Instance.Deployed (Instance.Executes Sample.platform) []
      (.verification .stellar (Verification.construct Sample.zeroHash ⟨0⟩ ⟨1⟩)) :=
    .start ⟨_, _, _, rfl⟩
  exact (hstart.snoc ⟨Unit, Handler.acceptingHost, (), (), .void, rfl⟩).snoc
    ⟨Unit, Handler.acceptingHost, (), (), .void, rfl⟩

theorem admin_provenance_sample :
    Proposed Sample.platform proposals (.verification .stellar contested) ⟨0⟩ ⟨6⟩ ∧
      handedOver.base.pndAdmin = none := by
  have h := admin_provenance proposals_run rfl
  obtain ⟨-, -, hvacant, hproposed⟩ := h.transfer (signedBy ⟨6⟩ .acceptAdmin)
    (.verification .stellar handedOver) handedOver.base
    ⟨Unit, Handler.acceptingHost, (), (), .void, rfl⟩ rfl (by decide)
  exact ⟨hproposed, hvacant⟩

end Sample

end WarpDrive
