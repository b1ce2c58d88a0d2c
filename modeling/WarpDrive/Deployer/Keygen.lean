import WarpDrive.Deployer.Keyfile
import WarpDrive.Library.Transition
import WarpDrive.Platform

/-!
# keygen over any history

Runs of `keygen` on one keyfile, each stopped or failed at any point.  As long as a
keyfile that is there can be read, the identity is kept.  Where reading it may fail,
`keygen` may replace the key of a funded account, since it takes any failure for a keyfile
that is not valid.
-/

namespace WarpDrive.Deployer.Identity

open Interaction

/-! ## Histories -/

/-- A run of `keygen`, as far as it went. -/
structure KeygenRun where
  friendbot : Option String
  cfg : RetryConfig
  trace : List KeyAction
  outcome : Outcome DeployerError String

def Keygens (keys : Strkeys) (path : String) (c : KeyCircumstances) (s : Machine) (run : KeygenRun)
    (s' : Machine) : Prop :=
  (keySetting c).Runs (keygenAndFund keys run.friendbot path run.cfg) s run.trace run.outcome s'

section Histories

variable {keys : Strkeys} {path : String} {s₀ s s' : Machine} {c : KeyCircumstances}
  {run : KeygenRun} {runs : List KeygenRun} {key : BytesN 32}

/-- What one run does. -/
theorem Keygens.sound (h : Keygens keys path c s run s') (hreadable : ¬c.unreadable)
    (hs : Asked keys path s) : Kept keys path s s' ∧
      (∀ address, run.outcome = .returned address →
        ∃ key, address = keys.address key ∧ Funded keys path s True key s') ∧
      ∀ e, run.outcome = .failed e → ¬c.Calm := by
  have htriple : (keySetting c).Triple (Kept keys path s) (fun _ => True) (Kept keys path s)
      (keygenAndFund keys run.friendbot path run.cfg) _ _ :=
    keygenAndFund_triple hreadable run.friendbot run.cfg
  obtain ⟨hkept, -, hreturned, hfailed⟩ :=
    Setting.Runs.sound h stable_kept (htriple s (.refl hs)) (.refl hs)
  refine ⟨hkept, fun address haddress => ?_, fun e he => ?_⟩
  · obtain ⟨w, ⟨key, rfl, hfunded⟩, hothers⟩ := hreturned address haddress
    have hstable : (keySetting c).Stable (Funded keys path s True key) := stable_funded
    exact ⟨key, rfl, hstable.star hothers hfunded⟩
  · obtain ⟨_, hfailed, -⟩ := hfailed e he
    exact hfailed.2

/-- What a history of runs leaves. -/
theorem keygen_history (hreadable : ¬c.unreadable) (hs₀ : Asked keys path s₀)
    (hpath : Transition.Path (Keygens keys path c) s₀ runs s) : Kept keys path s₀ s ∧
      ∀ run ∈ runs, ∀ address, run.outcome = .returned address →
        ∃ key, s.key keys path = some key ∧ keys.address key = address ∧ address ∈ s.accounts := by
  induction hpath with
  | nil => exact ⟨.refl hs₀, by simp⟩
  | snoc _ hstep ih =>
      obtain ⟨hkept, hbefore⟩ := ih
      obtain ⟨hkept', hreturned, -⟩ := hstep.sound hreadable hkept.asked
      refine ⟨hkept.trans hkept', fun run hmem address haddress => ?_⟩
      rcases List.mem_append.mp hmem with hmem | hmem
      · -- an earlier run left a valid keyfile, which is kept
        obtain ⟨key, hkey, rfl, hexists⟩ := hbefore run hmem address haddress
        have hfile := hkept'.file (by rw [hkey]; exact nofun)
        exact ⟨key, (Machine.key_congr hfile).trans hkey, rfl, hkept'.accounts _ hexists⟩
      · rw [List.mem_singleton.mp hmem] at haddress
        obtain ⟨key, rfl, hheld, hexists⟩ := hreturned address haddress
        exact ⟨key, hheld.2, rfl, hexists trivial⟩

/-- Where a read may fail, any key may replace that of the keyfile. -/
theorem unreadable_overwrites (hc : c.unreadable) (path : String) (s : Machine) (key : BytesN 32)
    (friendbot : Option String) (cfg : RetryConfig) : ∃ trace s',
      Keygens keys path c s ⟨friendbot, cfg, trace, .stopped⟩ s' ∧
        s'.key keys path = some key := by
  have hperforms : ∀ {s s' : Machine} {i : KeyAction} {a : i.Response},
      KeyAction.Performs s i (.ok a) s' →
      (keySetting c).Runs (.perform i) s [i] (.returned a) s' := fun h => .perform (.inl h)
  have hwrites : ∀ (content bytes : Bytes), (keySetting c).Runs (writeFile path bytes)
      (s.setFile path ⟨content, (s.opened path).mode⟩) [.writeAll path bytes] (.returned ())
      (s.setFile path ⟨content ++ bytes, (s.opened path).mode⟩) := by
    intro content bytes
    apply hperforms
    simp only [KeyAction.Performs, Machine.setFile_files, Machine.setFile_setFile, and_self]
  have hnone : (keySetting c).Runs (existingSecret keys path) s [.readToString path]
      (.returned none) s :=
    .act (.inr (.inr ⟨hc, .mk path (.io .other)⟩)) (.ret none s)
  have hfresh : (keySetting c).Runs (generateSecret keys) s [.fillBytes]
      (.returned (keys.display key)) s :=
    (hperforms (i := .fillBytes) ⟨rfl, key, rfl⟩).bind (.ret _ s)
  have hparent : (keySetting c).Runs (makeParent path) s [.createDirAll path] (.returned ()) s :=
    hperforms (i := .createDirAll path) ⟨rfl, rfl⟩
  have hopen : (keySetting c).Runs (openFile path) s [.openFile path] (.returned ())
      (s.setFile path ⟨[], (s.opened path).mode⟩) :=
    hperforms (i := .openFile path) ⟨rfl, rfl⟩
  have hwritten : (keySetting c).Runs (writeKeyFile path (keys.display key)) s _ (.returned ())
      (s.setFile path ⟨toUtf8 (keys.display key) ++ [10], (s.opened path).mode⟩) :=
    hparent.bind (hopen.bind ((hwrites [] _).bind (hwrites _ [10])))
  have hmint : (keySetting c).Runs (reuseOrMint keys path) s _ (.returned (keys.display key)) _ :=
    hnone.bind (hfresh.bind (hwritten.bind (.ret _ _)))
  refine ⟨_, _, hmint.bind (.stop _ _), ?_⟩
  rw [Machine.key, Machine.setFile_files]
  exact keyIn_line _

/-- A machine with a valid keyfile, whose account was funded. -/
def fundedMachine (keys : Strkeys) (path : String) (key : BytesN 32) : Machine :=
  Machine.setFile ⟨fun _ => none, 0o022, fun _ => none, [keys.address key], [keys.address key]⟩
    path ⟨toUtf8 (keys.display key) ++ [10], 0o600⟩

theorem fundedMachine_key : (fundedMachine keys path key).key keys path = some key := by
  rw [Machine.key, fundedMachine, Machine.setFile_files]
  exact keyIn_line _

theorem fundedMachine_asked : Asked keys path (fundedMachine keys path key) :=
  fun _ ha => ⟨key, fundedMachine_key, (List.mem_singleton.mp ha).symm⟩

/-- `keygen` keeps the identity: after any history of runs, each stopped or failed
anywhere, friendbot was asked for the account of the keyfile only, a keyfile that was valid
is as it was, no other file has changed, no file has become usable by others, and what any
run returned is the account of the keyfile, which exists.  All this holds exactly where the
keyfile, if there is one, can be read. -/
theorem keygen_keeps_identity : (∀ s₀ runs s, Asked keys path s₀ →
    Transition.Path (Keygens keys path c) s₀ runs s → Kept keys path s₀ s ∧
      ∀ run ∈ runs, ∀ address, run.outcome = .returned address →
        ∃ key, s.key keys path = some key ∧ keys.address key = address ∧
          address ∈ s.accounts) ↔ ¬c.unreadable := by
  constructor
  · intro hkeeps hunreadable
    let old : BytesN 32 := ⟨List.replicate 32 0, List.length_replicate⟩
    let new : BytesN 32 := ⟨List.replicate 32 1, List.length_replicate⟩
    obtain ⟨trace, s, hrun, hnew⟩ := @unreadable_overwrites keys c hunreadable path
      (fundedMachine keys path old) new none ⟨3⟩
    -- the account of the old key was funded, and the keyfile has the new one
    have hkept := (hkeeps _ _ s fundedMachine_asked ((Transition.Path.nil _).snoc hrun)).1
    have hsame := hkept.file (by rw [fundedMachine_key]; exact nofun)
    rw [Machine.key_congr hsame, fundedMachine_key] at hnew
    exact absurd (Option.some.inj hnew) (by decide)
  · intro hreadable s₀ runs s hs₀ hpath
    exact keygen_history hreadable hs₀ hpath

/-! ## After keygen -/

/-- The other commands are given the keyfile: by its flag, or because it is the default and
nothing else is given. -/
def Resolves (path : String) (secretFileFlag : Option String) (s : Machine) : Prop :=
  secretFileFlag = some path ∨ secretFileFlag = none ∧ path = defaultKeyFile ∧
    trimText ((s.vars deployerSecretEnv).getD "") = ""

theorem stable_resolves {flag : Option String} : (keySetting c).Stable (Resolves path flag) := by
  intro s s' hothers h
  unfold Resolves
  rwa [hothers.vars]

/-- The account of the keyfile is resolved. -/
theorem resolveAccount_triple (hreadable : ¬c.unreadable) (flag : Option String) :
    (keySetting c).Triple (fun _ => True) (fun _ => True)
      (fun s => Resolves path flag s ∧ s.key keys path = some key)
      (resolveAccount keys none flag) (fun account _ => account = key) fun _ _ => c.mishaps := by
  have hstable : (keySetting c).Stable
      fun s => Resolves path flag s ∧ s.key keys path = some key :=
    stable_resolves.and fun s s' hothers hkey =>
      (Machine.key_congr (congrFun hothers.files path)).trans hkey
  have hreads : (keySetting c).Triple (fun _ => True) (fun _ => True)
      (fun s => Resolves path flag s ∧ s.key keys path = some key) (readKeyFile path)
      (fun secret _ => accountFromSecret keys secret = .ok key) fun _ _ => c.mishaps := by
    refine (@readKeyFile_triple keys path c _ _ hreadable hstable fun _ _ => trivial).consequence
      (fun _ => id) ?_ ?_
    · rintro secret s ⟨⟨-, hkey⟩, haccount⟩
      rw [hkey] at haccount
      cases h : accountFromSecret keys secret with
      | ok account =>
          rw [h] at haccount
          exact congrArg Except.ok (Option.some.inj haccount.symm)
      | error e =>
          rw [h] at haccount
          cases haccount
    · rintro e s ⟨⟨-, hkey⟩, hnone⟩
      rw [hkey] at hnone
      cases hnone
  have hsecret : (keySetting c).Triple (fun _ => True) (fun _ => True)
      (fun s => Resolves path flag s ∧ s.key keys path = some key) (resolveSecret none flag)
      (fun secret _ => accountFromSecret keys secret = .ok key) fun _ _ => c.mishaps := by
    cases flag with
    | some path' =>
        have hgiven : ∀ s, Resolves path (some path') s ∧ s.key keys path = some key →
            path' = path ∧ Resolves path (some path') s ∧ s.key keys path = some key := by
          rintro s ⟨hresolves, hkey⟩
          obtain hpath | ⟨hnone, -⟩ := hresolves
          · exact ⟨Option.some.inj hpath, .inl hpath, hkey⟩
          · cases hnone
        refine Setting.Triple.strengthen (.given ?_) hgiven
        rintro rfl
        exact hreads
    | none =>
        have hvar : (keySetting c).Triple (fun _ => True) (fun _ => True)
            (fun s => Resolves path none s ∧ s.key keys path = some key) (var deployerSecretEnv)
            (fun value s => (path = defaultKeyFile ∧ trimText (value.getD "") = "") ∧
              Resolves path none s ∧ s.key keys path = some key) fun _ _ => c.mishaps := by
          refine observe_triple rfl hstable (fun _ _ => trivial) ?_ ?_
          · intro s value hs hact
            obtain ⟨-, hvalue⟩ | ⟨-, hmishap⟩ := acts_mishaps hact nofun
            · obtain hflag | ⟨-, hdefault, hblank⟩ := hs.1
              · cases hflag
              · rw [← Except.ok.inj hvalue] at hblank
                exact ⟨⟨hdefault, hblank⟩, hs⟩
            · cases hmishap
          · intro s e hs hact
            obtain ⟨-, hvalue⟩ | ⟨hmishaps, -⟩ := acts_mishaps hact nofun
            · cases hvalue
            · exact hmishaps
        have hexists : (keySetting c).Triple (fun _ => True) (fun _ => True)
            (fun s => Resolves path none s ∧ s.key keys path = some key) (pathExists path)
            (fun there s => there = true ∧ Resolves path none s ∧ s.key keys path = some key)
            fun _ _ => c.mishaps := by
          refine observe_triple rfl hstable (fun _ _ => trivial) ?_ ?_
          · intro s there hs hact
            obtain ⟨-, hthere⟩ | ⟨-, hmishap⟩ := acts_mishaps hact nofun
            · have hfile := Option.isSome_of_isSome_bind (Option.isSome_of_eq_some hs.2)
              exact ⟨(Except.ok.inj hthere).trans hfile, hs⟩
            · cases hmishap
          · intro s e hs hact
            obtain ⟨-, hthere⟩ | ⟨hmishaps, -⟩ := acts_mishaps hact nofun
            · cases hthere
            · exact hmishaps
        apply hvar.bind
        intro value
        apply Setting.Triple.given
        rintro ⟨rfl, hblank⟩
        simp only [hblank]
        apply hexists.bind
        intro there
        apply Setting.Triple.given
        rintro rfl
        exact hreads
  apply hsecret.bind
  intro secret
  have hgiven : ∀ s : Machine, accountFromSecret keys secret = .ok key →
      accountFromSecret keys secret = .ok key ∧ True := fun _ h => ⟨h, trivial⟩
  refine Setting.Triple.strengthen (.given fun h => ?_) hgiven
  rw [h]
  exact .ret fun _ _ => rfl

/-- Nothing goes wrong. -/
def calm : KeyCircumstances := ⟨False, False, False⟩

theorem exists_key_performs (s : Machine) (i : KeyAction) :
    ∃ r s', KeyAction.Performs s i r s' := by
  cases i with
  | readToString path =>
      cases hfile : s.files path with
      | none =>
          refine ⟨.error (.io .notFound), s, rfl, ?_⟩
          rw [hfile]
      | some f =>
          cases hdecode : fromUtf8? f.content with
          | none =>
              refine ⟨.error (.io .invalidData), s, rfl, ?_⟩
              simp only [hfile, hdecode]
          | some text =>
              refine ⟨.ok text, s, rfl, ?_⟩
              simp only [hfile, hdecode]
  | createDirAll path => exact ⟨.ok (), s, rfl, rfl⟩
  | openFile path => exact ⟨.ok (), _, rfl, rfl⟩
  | writeAll path bytes =>
      cases hfile : s.files path with
      | none => exact ⟨.error (.io .other), s, by simp only [KeyAction.Performs, hfile, and_self]⟩
      | some f => exact ⟨.ok (), _, by simp only [KeyAction.Performs, hfile, and_true]; rfl⟩
  | fillBytes => exact ⟨.ok ⟨List.replicate 32 0, List.length_replicate⟩, s, rfl, _, rfl⟩
  | var name => exact ⟨.ok (s.vars name), s, rfl, rfl⟩
  | pathExists path => exact ⟨.ok _, s, rfl, rfl⟩
  | getAccount address =>
      by_cases hmem : address ∈ s.accounts
      · exact ⟨.ok (), s, rfl, by rw [if_pos hmem]⟩
      · exact ⟨.error (.http ""), s, rfl, by rw [if_neg hmem]; exact ⟨_, rfl⟩⟩
  | friendbotUrl => exact ⟨.ok "", s, rfl, _, rfl⟩
  | fund url address =>
      by_cases hmem : address ∈ s.accounts
      · exact ⟨_, _, (if_pos hmem).mpr ⟨rfl, rfl⟩⟩
      · exact ⟨_, _, (if_neg hmem).mpr ⟨rfl, rfl⟩⟩

/-- After any history of runs, a run in which nothing goes wrong returns the account of the
keyfile.  It is what every earlier run returned and what friendbot was asked for, it
exists, and it is the account that the other commands resolve. -/
theorem keygen_resumes {keys : Strkeys} {path : String} {s₀ s : Machine} {c : KeyCircumstances}
    {runs : List KeygenRun} (hreadable : ¬c.unreadable) (hs₀ : Asked keys path s₀)
    (hpath : Transition.Path (Keygens keys path c) s₀ runs s) (friendbot : Option String)
    (cfg : RetryConfig) :
    (∀ trace outcome s', Keygens keys path calm s ⟨friendbot, cfg, trace, outcome⟩ s' →
      outcome ≠ .stopped → ∃ key, outcome = .returned (keys.address key) ∧
        (∀ run ∈ runs, ∀ address, run.outcome = .returned address → address = keys.address key) ∧
        (∀ address ∈ s'.requests, address = keys.address key) ∧
        keys.address key ∈ s'.accounts ∧
        ∀ flag, Resolves path flag s' → ∀ trace outcome s'',
          (keySetting calm).Runs (resolveAccount keys none flag) s' trace outcome s'' →
            outcome ≠ .stopped → outcome = .returned key) ∧
      ∃ trace outcome s', Keygens keys path calm s ⟨friendbot, cfg, trace, outcome⟩ s' ∧
        outcome ≠ .stopped := by
  obtain ⟨hkept, hbefore⟩ := keygen_history hreadable hs₀ hpath
  refine ⟨fun trace outcome s' hstep hended => ?_, ?_⟩
  · obtain ⟨hkept', hreturned, hfailed⟩ := hstep.sound id hkept.asked
    cases outcome with
    | stopped => exact absurd rfl hended
    | failed e => exact absurd ⟨id, id⟩ (hfailed e rfl)
    | returned address =>
        obtain ⟨key, rfl, ⟨-, hkey⟩, hexists⟩ := hreturned address rfl
        refine ⟨key, rfl, fun run hmem address haddress => ?_, fun address ha => ?_,
          hexists trivial, fun flag hflag trace outcome s'' hruns hended => ?_⟩
        · obtain ⟨key', hkey', rfl, -⟩ := hbefore run hmem address haddress
          have hfile := hkept'.file (by rw [hkey']; exact nofun)
          rw [Machine.key_congr hfile, hkey'] at hkey
          rw [Option.some.inj hkey]
        · obtain ⟨key', hkey', rfl⟩ := hkept'.asked address ha
          rw [Option.some.inj (hkey'.symm.trans hkey)]
        · have htriple : (keySetting calm).Triple (fun _ => True) (fun _ => True)
              (fun s => Resolves path flag s ∧ s.key keys path = some key) _ _ _ :=
            resolveAccount_triple id flag
          obtain ⟨-, -, hreturns, hfails⟩ := Setting.Runs.sound hruns (fun _ _ _ _ => trivial)
            (htriple s' ⟨hflag, hkey⟩) trivial
          cases outcome with
          | stopped => exact absurd rfl hended
          | failed e =>
              obtain ⟨_, hmishaps, -⟩ := hfails e rfl
              exact hmishaps.elim
          | returned account =>
              obtain ⟨_, rfl, -⟩ := hreturns account rfl
              rfl
  · have hanswered : ∀ (s : Machine) i, True → ∃ r s', (keySetting calm).acts s i r s' ∧ True := by
      intro s i _
      obtain ⟨r, s', hperforms⟩ := exists_key_performs s i
      exact ⟨r, s', .inl hperforms, trivial⟩
    obtain ⟨trace, outcome, s', hruns, hended⟩ :=
      Setting.exists_run hanswered (keygenAndFund keys friendbot path cfg) trivial
    exact ⟨trace, outcome, s', hruns, hended⟩

end Histories

/-! ## One identity

The texts of one secret and of its account; all other texts are of one letter, `!`. -/

namespace OneIdentity

open Deployer.Fixture (tabled mark tabled_injective mark_injective mem_tabled mark_ne)

theorem exists_seedNumber : ∃ number : BytesN 32 → ℕ, Function.Injective number := by
  have : Countable UInt8 :=
    Function.Injective.countable (f := UInt8.toNat) fun _ _ => UInt8.toNat_inj.mp
  have : Countable (BytesN 32) :=
    Function.Injective.countable (f := BytesN.toArray) fun ⟨_, _⟩ ⟨_, _⟩ h => by cases h; rfl
  exact exists_injective_nat _

noncomputable def seedText (text : String) : BytesN 32 → String :=
  tabled [(Sample.zeroHash, text)] fun key => mark (exists_seedNumber.choose key)

def seedSecret : String :=
  "SAAAAAAAAAAAAAAAAAAAAAAAAAAAAAAAAAAAAAAAAAAAAAAAAAAABSU2"

noncomputable def secretText : BytesN 32 → String :=
  seedText seedSecret

theorem secretText_injective : Function.Injective secretText := by
  refine tabled_injective (mark_injective.comp exists_seedNumber.choose_spec) ?_ (by simp)
  intro entry hmem key
  rw [List.mem_singleton.mp hmem]
  exact mark_ne (by decide)

theorem secretText_plain (key : BytesN 32) :
    secretText key ≠ "" ∧ ∀ c ∈ (secretText key).toList, isWhitespace c = false := by
  obtain hother | ⟨entry, hmem, htext⟩ :=
    mem_tabled [(Sample.zeroHash, seedSecret)] (fun key => mark (exists_seedNumber.choose key)) key
  · rw [secretText, seedText, hother]
    refine ⟨mark_ne (by decide), fun c hc => ?_⟩
    rw [mark, String.toList_ofList] at hc
    rw [(List.mem_replicate.mp hc).2]
    decide
  · rw [secretText, seedText, htext, List.mem_singleton.mp hmem]
    have hplain : seedSecret.toList.all (fun c => !isWhitespace c) = true := by decide +kernel
    exact ⟨by decide, fun c hc => by simpa using List.all_eq_true.mp hplain c hc⟩

noncomputable def keys : Strkeys where
  display := secretText
  fromString text :=
    match Function.partialInv secretText text with
    | some key => .ok key
    | none => .error "Invalid"
  address := seedText "GA5WUJ54Z23KILLCUOUNAKTPBVZWKMQVO4O6EQ5GHLAERIMLLHNCSKYH"
  fromString_display key := by rw [Function.partialInv_left secretText_injective]
  display_ne key := (secretText_plain key).1
  display_plain key := (secretText_plain key).2

/-- A machine without a keyfile. -/
def machine : Machine := ⟨fun _ => none, 0o022, fun _ => none, [], []⟩

/-- Things may go wrong, but a keyfile can be read. -/
def rough : KeyCircumstances := ⟨True, False, True⟩

/-- A run that stopped when the keyfile was opened. -/
theorem opened_keygens : Keygens keys defaultKeyFile rough machine
    ⟨none, ⟨3⟩, [.readToString defaultKeyFile, .fillBytes, .createDirAll defaultKeyFile,
      .openFile defaultKeyFile], .stopped⟩
    (machine.setFile defaultKeyFile (machine.opened defaultKeyFile)) :=
  .act (.inl ⟨rfl, rfl⟩) (.act (.inl ⟨rfl, Sample.zeroHash, rfl⟩) (.act (.inl ⟨rfl, rfl⟩)
    (.act (.inl ⟨rfl, rfl⟩) (.stop _ _))))

end OneIdentity

open OneIdentity in
theorem keygen_resumes_sample : ∃ trace s, Transition.Path (Keygens keys defaultKeyFile rough)
    machine [⟨none, ⟨3⟩, trace, .stopped⟩] s ∧ s.files defaultKeyFile ≠ none ∧
      s.key keys defaultKeyFile = none ∧
      ∃ trace s' key, Keygens keys defaultKeyFile calm s
        ⟨none, ⟨3⟩, trace, .returned (keys.address key)⟩ s' ∧
          keys.address key ∈ s'.accounts := by
  have hpath := (Transition.Path.nil machine).snoc opened_keygens
  obtain ⟨hreturns, trace, outcome, s', hruns, hended⟩ :=
    keygen_resumes id (fun _ ha => absurd ha List.not_mem_nil) hpath none ⟨3⟩
  obtain ⟨key, rfl, -, -, hexists, -⟩ := hreturns trace outcome s' hruns hended
  refine ⟨_, _, hpath, ?_, ?_, trace, s', key, hruns, hexists⟩
  · rw [Machine.setFile_files]
    exact nofun
  · rw [Machine.key, Machine.setFile_files]
    rfl

end WarpDrive.Deployer.Identity
