import WarpDrive.Deployer.Identity

/-!
# The keyfile

What `keygen` keeps, at every point at which it may be stopped (`Kept`): friendbot was
asked for the account of the keyfile only, and a keyfile that is valid stays as it is.  It
is written only while it is not valid, and then nobody was asked (`Blank`).
-/

namespace WarpDrive.Deployer.Identity

open Interaction

/-! ## Keyfiles -/

section Keyfiles

variable (keys : Strkeys)

/-- The key in a keyfile, if it is valid. -/
def Strkeys.keyIn (f : KeyFile) : Option (BytesN 32) :=
  match fromUtf8? f.content with
  | some raw =>
      if trimText raw = "" then none else (accountFromSecret keys (trimText raw)).toOption
  | none => none

def Machine.key (path : String) (s : Machine) : Option (BytesN 32) :=
  (s.files path).bind keys.keyIn

/-- Friendbot was asked to fund the account of the keyfile only. -/
def Asked (path : String) (s : Machine) : Prop :=
  ∀ a ∈ s.requests, ∃ key, s.key keys path = some key ∧ keys.address key = a

/-- Nobody but its owner may use the file. -/
def KeyFile.Private (f : KeyFile) : Prop :=
  f.mode &&& 0o077 = 0

/-- What any history of `keygen` keeps. -/
structure Kept (path : String) (s₀ s : Machine) : Prop where
  asked : Asked keys path s
  file : s₀.key keys path ≠ none → s.files path = s₀.files path
  elsewhere : ∀ path', path' ≠ path → s.files path' = s₀.files path'
  mode : ∀ f, s.files path = some f →
    f.Private ∨ ∃ f₀, s₀.files path = some f₀ ∧ f.mode = f₀.mode
  accounts : ∀ a ∈ s₀.accounts, a ∈ s.accounts

end Keyfiles

section Steps

variable {keys : Strkeys} {path : String} {s₀ s s' : Machine} {c : KeyCircumstances}
  {f : KeyFile} {key : BytesN 32}

theorem Machine.setFile_files : (s.setFile path f).files path = some f :=
  Function.update_self ..

theorem Machine.setFile_setFile (f' : KeyFile) :
    (s.setFile path f).setFile path f' = s.setFile path f' := by
  rw [Machine.setFile, Machine.setFile, Function.update_idem]
  rfl

theorem Machine.key_congr (h : s'.files path = s.files path) :
    s'.key keys path = s.key keys path := by
  rw [Machine.key, h]
  rfl

theorem Kept.refl (h : Asked keys path s) : Kept keys path s s where
  asked := h
  file _ := rfl
  elsewhere _ _ := rfl
  mode f hf := .inr ⟨f, hf, rfl⟩
  accounts _ := id

theorem Kept.trans {s₁ : Machine} (h : Kept keys path s₀ s₁) (h' : Kept keys path s₁ s) :
    Kept keys path s₀ s where
  asked := h'.asked
  file hkey := by
    have hfile : s₁.files path = s₀.files path := h.file hkey
    exact (h'.file (by rwa [Machine.key_congr hfile])).trans hfile
  elsewhere path' hne := (h'.elsewhere path' hne).trans (h.elsewhere path' hne)
  mode f hf := by
    obtain hprivate | ⟨f₁, hf₁, hmode⟩ := h'.mode f hf
    · exact .inl hprivate
    · obtain hprivate | ⟨f₀, hf₀, hmode₀⟩ := h.mode f₁ hf₁
      · left
        rwa [KeyFile.Private, hmode]
      · exact .inr ⟨f₀, hf₀, hmode.trans hmode₀⟩
  accounts a ha := h'.accounts a (h.accounts a ha)

/-- A step that leaves the files alone, and asks friendbot for nobody else. -/
theorem Kept.step (h : Kept keys path s₀ s) (hfiles : s'.files = s.files)
    (hasked : Asked keys path s') (haccounts : ∀ a ∈ s.accounts, a ∈ s'.accounts) :
    Kept keys path s₀ s' where
  asked := hasked
  file hkey := by rw [hfiles, h.file hkey]
  elsewhere path' hne := by rw [hfiles, h.elsewhere path' hne]
  mode f hf := h.mode f (by rwa [← hfiles])
  accounts a ha := haccounts a (h.accounts a ha)

theorem LeavesFiles.accounts_subset {crowded : Prop} (h : LeavesFiles crowded s s') :
    ∀ a ∈ s.accounts, a ∈ s'.accounts := by
  obtain hsame | ⟨-, hmore⟩ := h.accounts
  · rw [hsame]
    exact fun _ => id
  · exact hmore

theorem Kept.aside {crowded : Prop} (h : Kept keys path s₀ s) (hothers : LeavesFiles crowded s s') :
    Kept keys path s₀ s' := by
  refine h.step hothers.files ?_ hothers.accounts_subset
  intro a ha
  rw [hothers.requests] at ha
  rw [Machine.key_congr (congrFun hothers.files path)]
  exact h.asked a ha

/-- The keyfile holds the key. -/
def Held (keys : Strkeys) (path : String) (s₀ : Machine) (key : BytesN 32) (s : Machine) : Prop :=
  Kept keys path s₀ s ∧ s.key keys path = some key

/-- The keyfile may be overwritten: it was not valid, and friendbot was not asked. -/
structure Blank (keys : Strkeys) (path : String) (s₀ s : Machine) : Prop where
  kept : Kept keys path s₀ s
  requests : s.requests = []
  invalid : s₀.key keys path = none

theorem Blank.of_key_eq_none (h : Kept keys path s₀ s) (hkey : s.key keys path = none) :
    Blank keys path s₀ s where
  kept := h
  requests := by
    refine List.eq_nil_iff_forall_not_mem.mpr fun a ha => ?_
    obtain ⟨key, hsome, -⟩ := h.asked a ha
    rw [hkey] at hsome
    cases hsome
  invalid := by
    by_contra hvalid
    rw [Machine.key_congr (h.file hvalid)] at hkey
    exact hvalid hkey

theorem Blank.setFile (h : Blank keys path s₀ s)
    (hmode : f.Private ∨ ∃ f₀, s₀.files path = some f₀ ∧ f.mode = f₀.mode) :
    Blank keys path s₀ (s.setFile path f) where
  kept :=
    { asked := by
        intro a ha
        rw [Machine.setFile, h.requests] at ha
        cases ha
      file := fun hvalid => absurd h.invalid hvalid
      elsewhere := fun path' hne =>
        (Function.update_of_ne hne ..).trans (h.kept.elsewhere path' hne)
      mode := by
        intro f' hf'
        rw [Machine.setFile_files] at hf'
        cases hf'
        exact hmode
      accounts := h.kept.accounts }
  requests := h.requests
  invalid := h.invalid

theorem ldiff_private (umask : ℕ) : Nat.ldiff 0o600 umask &&& 0o077 = 0 := by
  apply Nat.eq_of_testBit_eq
  intro i
  have hdisjoint : Nat.testBit (0o600 &&& 0o077) i = false := by simp
  rw [Nat.testBit_and] at hdisjoint
  rw [Nat.testBit_and, Nat.testBit_ldiff, Nat.zero_testBit]
  cases hbit : Nat.testBit 0o600 i with
  | false => rfl
  | true =>
      rw [hbit, Bool.true_and] at hdisjoint
      rw [hdisjoint, Bool.and_false]

theorem Blank.opened (h : Blank keys path s₀ s) :
    Blank keys path s₀ (s.setFile path (s.opened path)) := by
  apply h.setFile
  cases hfile : s.files path with
  | none =>
      left
      rw [KeyFile.Private, Machine.opened, hfile]
      exact ldiff_private s.umask
  | some f =>
      have hmode : (s.opened path).mode = f.mode := by
        rw [Machine.opened, hfile]
        rfl
      rw [KeyFile.Private, hmode]
      exact h.kept.mode f hfile

theorem Blank.append (h : Blank keys path s₀ s) (hfile : s.files path = some f) (bytes : Bytes) :
    Blank keys path s₀ (s.setFile path { f with content := f.content ++ bytes }) :=
  h.setFile (h.kept.mode f hfile)

/-- A secret and a newline are a valid keyfile. -/
theorem keyIn_line (mode : ℕ) :
    keys.keyIn ⟨toUtf8 (keys.display key) ++ [10], mode⟩ = some key := by
  have hbytes : toUtf8 (keys.display key) ++ [10] = toUtf8 (keys.display key ++ "\n") := by
    rw [toUtf8_append]
    rfl
  obtain ⟨hline, htrim⟩ := trimText_line (keys.display_plain key)
  unfold Strkeys.keyIn
  rw [hbytes, fromUtf8?_toUtf8]
  simp only [hline]
  rw [if_neg (keys.display_ne key), accountFromSecret, htrim, keys.fromString_display]
  rfl

end Steps

/-! ## Actions -/

/-- The actions that change nothing. -/
def KeyAction.observes : KeyAction → Bool
  | openFile _ | writeAll _ _ | fund _ _ => false
  | _ => true

section Actions

variable {keys : Strkeys} {path : String} {s₀ s s' : Machine} {c : KeyCircumstances}
  {inv pre : Machine → Prop}

theorem KeyAction.Performs.eq_of_observes {i : KeyAction} {r : Except DeployerError i.Response}
    (h : KeyAction.Performs s i r s') (hi : i.observes = true) : s' = s := by
  cases i with
  | openFile | writeAll | fund => cases hi
  | _ => exact h.1

theorem acts_observes {i : KeyAction} {r : Except DeployerError i.Response}
    (h : (keySetting c).acts s i r s') (hi : i.observes = true) : s' = s := by
  obtain hperforms | ⟨-, hmishap⟩ | ⟨-, hunreadable⟩ := h
  · exact hperforms.eq_of_observes hi
  · cases hmishap with
    | failed => rfl
    | lost _ _ _ _ _ hperforms => exact hperforms.eq_of_observes hi
    | torn | answered => cases hi
  · cases hunreadable
    rfl

/-- The rule for actions that change nothing. -/
theorem observe_triple {i : KeyAction} {post : i.Response → Machine → Prop}
    {err : DeployerError → Machine → Prop} (hi : i.observes = true)
    (hstable : (keySetting c).Stable pre) (hinv : ∀ s, pre s → inv s)
    (hpost : ∀ s a, pre s → (keySetting c).acts s i (.ok a) s → post a s)
    (herr : ∀ s e, pre s → (keySetting c).acts s i (.error e) s → err e s) :
    (keySetting c).Triple inv (fun _ => True) pre (.perform i) post err := by
  refine Setting.Triple.perform hstable trivial fun s r s' hs hact => ?_
  obtain rfl := acts_observes hact hi
  refine ⟨hinv _ hs, ?_, ?_⟩
  · rintro a rfl
    exact hpost _ a hs hact
  · rintro e rfl
    exact herr _ e hs hact

theorem acts_mishaps {i : KeyAction} {r : Except DeployerError i.Response}
    (h : (keySetting c).acts s i r s') (hi : ∀ path, i ≠ .readToString path) :
    KeyAction.Performs s i r s' ∨ c.mishaps ∧ KeyAction.Mishap s i r s' := by
  obtain hperforms | hmishap | ⟨-, hunreadable⟩ := h
  · exact .inl hperforms
  · exact .inr hmishap
  · obtain ⟨path, e⟩ := hunreadable
    exact absurd rfl (hi path)

/-- An action that changes nothing and does not fail by itself. -/
theorem sure_triple {i : KeyAction} (hi : i.observes = true)
    (hread : ∀ path, i ≠ .readToString path)
    (hsure : ∀ s s' e, ¬KeyAction.Performs s i (.error e) s') (hstable : (keySetting c).Stable pre)
    (hinv : ∀ s, pre s → inv s) : (keySetting c).Triple inv (fun _ => True) pre (.perform i)
      (fun _ => pre) fun _ s => inv s ∧ c.mishaps := by
  refine observe_triple hi hstable hinv (fun _ _ hs _ => hs) fun s e hs hact => ?_
  obtain hperforms | ⟨hmishaps, -⟩ := acts_mishaps hact hread
  · exact absurd hperforms (hsure _ _ e)
  · exact ⟨hinv s hs, hmishaps⟩

/-- A read gives the content of the file. -/
theorem acts_read {text : String} (h : (keySetting c).acts s (.readToString path) (.ok text) s') :
    ∃ f, s.files path = some f ∧ fromUtf8? f.content = some text := by
  obtain ⟨-, hread⟩ | ⟨-, hmishap⟩ | ⟨-, hunreadable⟩ := h
  · split at hread
    next f hfile =>
      split at hread
      next text' hdecode =>
        cases hread
        exact ⟨f, hfile, hdecode⟩
      next => cases hread
    next => cases hread
  · cases hmishap
  · cases hunreadable

/-- If reads do not fail by themselves, one that fails has found no valid keyfile. -/
theorem acts_read_error {e : DeployerError} (hreadable : ¬c.unreadable)
    (h : (keySetting c).acts s (.readToString path) (.error e) s') : s.key keys path = none := by
  obtain ⟨-, hread⟩ | ⟨-, hmishap⟩ | ⟨hunreadable, -⟩ := h
  · unfold Machine.key
    split at hread
    next f hfile =>
      split at hread
      next => cases hread
      next hdecode =>
        rw [hfile, Option.bind_some, Strkeys.keyIn, hdecode]
    next hfile => rw [hfile, Option.bind_none]
  · cases hmishap with
    | failed _ _ hi => exact absurd rfl (hi path)
    | lost _ _ hi => exact absurd rfl (hi path)
  · exact absurd hunreadable hreadable

end Actions

/-! ## The keyfile -/

section Commands

variable {keys : Strkeys} {path : String} {s₀ s s' : Machine} {c : KeyCircumstances}
  {pre : Machine → Prop} {key : BytesN 32} {inv : Machine → Prop}

theorem stable_kept : (keySetting c).Stable (Kept keys path s₀) :=
  fun _ _ hothers h => h.aside hothers

theorem stable_blank : (keySetting c).Stable (Blank keys path s₀) :=
  fun _ _ hothers h => ⟨h.kept.aside hothers, hothers.requests.trans h.requests, h.invalid⟩

theorem stable_held : (keySetting c).Stable (Held keys path s₀ key) := by
  rintro s s' hothers ⟨hkept, hkey⟩
  exact ⟨hkept.aside hothers, (Machine.key_congr (congrFun hothers.files path)).trans hkey⟩

/-- The secret of a keyfile is read, or the keyfile is not valid. -/
theorem readKeyFile_triple (hreadable : ¬c.unreadable) (hstable : (keySetting c).Stable pre)
    (hinv : ∀ s, pre s → inv s) : (keySetting c).Triple inv (fun _ => True) pre (readKeyFile path)
      (fun secret s => pre s ∧ s.key keys path = (accountFromSecret keys secret).toOption)
      fun _ s => pre s ∧ s.key keys path = none := by
  have hread : (keySetting c).Triple inv (fun _ => True) pre (readToString path)
      (fun raw s => pre s ∧ ∃ f, s.files path = some f ∧ fromUtf8? f.content = some raw)
      fun _ s => pre s ∧ s.key keys path = none :=
    observe_triple rfl hstable hinv (fun s raw hs hact => ⟨hs, acts_read hact⟩)
      fun s e hs hact => ⟨hs, acts_read_error hreadable hact⟩
  apply hread.bind
  intro raw
  have hkeyIn : ∀ s : Machine, (∃ f, s.files path = some f ∧ fromUtf8? f.content = some raw) →
      s.key keys path =
        if trimText raw = "" then none else (accountFromSecret keys (trimText raw)).toOption := by
    rintro s ⟨f, hfile, hdecode⟩
    rw [Machine.key, hfile, Option.bind_some, Strkeys.keyIn, hdecode]
  split
  next hempty => exact .fail fun s ⟨hs, hfile⟩ => ⟨hs, by rw [hkeyIn s hfile, if_pos hempty]⟩
  next hsome => exact .ret fun s ⟨hs, hfile⟩ => ⟨hs, by rw [hkeyIn s hfile, if_neg hsome]⟩

/-- What was found in the keyfile: a secret with its account, or it may be overwritten. -/
def Found (keys : Strkeys) (path : String) (s₀ : Machine) (found : Option String) (s : Machine) :
    Prop :=
  (∀ secret, found = some secret →
    ∃ key, accountFromSecret keys secret = .ok key ∧ Held keys path s₀ key s) ∧
  (found = none → Blank keys path s₀ s)

theorem existingSecret_triple (hreadable : ¬c.unreadable) :
    (keySetting c).Triple (Kept keys path s₀) (fun _ => True) (Kept keys path s₀)
      (existingSecret keys path) (Found keys path s₀) fun _ _ => False := by
  have hblank : ∀ (e : DeployerError) s, Kept keys path s₀ s ∧ s.key keys path = none →
      Blank keys path s₀ s := fun _ s hs => .of_key_eq_none hs.1 hs.2
  have hread := (@readKeyFile_triple keys path c _ _ hreadable (@stable_kept keys path s₀ c)
    fun _ => id).consequence (fun _ => id) (fun _ _ => id) hblank
  have hbody : (keySetting c).Triple (Kept keys path s₀) (fun _ => True) (Kept keys path s₀)
      (do let existing ← readKeyFile path; pure (validSecret? keys existing))
      (Found keys path s₀) fun _ => Blank keys path s₀ := by
    apply hread.bind
    intro secret
    unfold validSecret?
    cases haccount : accountFromSecret keys secret with
    | ok key =>
        refine .ret fun s hs => ⟨?_, by simp⟩
        rintro _ ⟨rfl⟩
        exact ⟨key, haccount, hs⟩
    | error e => exact .ret fun s hs => ⟨by simp, fun _ => .of_key_eq_none hs.1 hs.2⟩
  exact hbody.tryCatch fun e => .ret fun s hs => ⟨by simp, fun _ => hs⟩

/-- A keyfile that is being written. -/
def Writing (keys : Strkeys) (path : String) (s₀ : Machine) (content : Bytes) (s : Machine) :
    Prop :=
  Blank keys path s₀ s ∧ ∃ f, s.files path = some f ∧ f.content = content

theorem stable_writing (content : Bytes) :
    (keySetting c).Stable (Writing keys path s₀ content) := by
  rintro s s' hothers ⟨hblank, f, hfile, hcontent⟩
  exact ⟨stable_blank s s' hothers hblank, f, (congrFun hothers.files path).trans hfile, hcontent⟩

theorem openFile_triple : (keySetting c).Triple (Kept keys path s₀) (fun _ => True)
    (Blank keys path s₀) (openFile path) (fun _ => Writing keys path s₀ [])
    fun _ s => Blank keys path s₀ s ∧ c.mishaps := by
  refine Setting.Triple.perform stable_blank trivial fun s r s' hs hact => ?_
  obtain ⟨rfl, rfl⟩ | ⟨hmishaps, hmishap⟩ := acts_mishaps hact nofun
  · exact ⟨hs.opened.kept, fun _ _ => ⟨hs.opened, _, Machine.setFile_files, rfl⟩, nofun⟩
  · cases hmishap with
    | failed => exact ⟨hs.kept, nofun, fun _ _ => ⟨hs, hmishaps⟩⟩
    | lost _ _ _ _ _ hperforms =>
        obtain ⟨rfl, -⟩ := hperforms
        exact ⟨hs.opened.kept, nofun, fun _ _ => ⟨hs.opened, hmishaps⟩⟩

theorem writeFile_triple (content bytes : Bytes) : (keySetting c).Triple (Kept keys path s₀)
    (fun _ => True) (Writing keys path s₀ content) (writeFile path bytes)
    (fun _ => Writing keys path s₀ (content ++ bytes))
    fun _ s => Blank keys path s₀ s ∧ c.mishaps := by
  refine Setting.Triple.perform (stable_writing content) trivial fun s r s' hs hact => ?_
  obtain ⟨hblank, f, hfile, rfl⟩ := hs
  have hwritten : ∀ r s', KeyAction.Performs s (.writeAll path bytes) r s' →
      s' = s.setFile path { f with content := f.content ++ bytes } ∧ r = .ok () := by
    intro r s' hperforms
    simp only [KeyAction.Performs, hfile] at hperforms
    exact hperforms
  obtain hperforms | ⟨hmishaps, hmishap⟩ := acts_mishaps hact nofun
  · obtain ⟨rfl, rfl⟩ := hwritten r s' hperforms
    have happended := hblank.append hfile bytes
    exact ⟨happended.kept, fun _ _ => ⟨happended, _, Machine.setFile_files, rfl⟩, nofun⟩
  · suffices hblank' : Blank keys path s₀ s' ∧ ∃ e, r = .error e by
      obtain ⟨hblank', e, rfl⟩ := hblank'
      exact ⟨hblank'.kept, nofun, fun _ _ => ⟨hblank', hmishaps⟩⟩
    cases hmishap with
    | failed _ e => exact ⟨hblank, e, rfl⟩
    | lost _ e _ _ _ hperforms =>
        obtain ⟨rfl, -⟩ := hwritten _ _ hperforms
        exact ⟨hblank.append hfile bytes, e, rfl⟩
    | torn _ _ n f' e hfile' =>
        obtain rfl : f = f' := Option.some.inj (hfile.symm.trans hfile')
        exact ⟨hblank.append hfile (bytes.take n), e, rfl⟩

/-- What was written is a valid keyfile. -/
theorem writeKeyFile_triple : (keySetting c).Triple (Kept keys path s₀) (fun _ => True)
    (Blank keys path s₀) (writeKeyFile path (keys.display key)) (fun _ => Held keys path s₀ key)
    fun _ s => Kept keys path s₀ s ∧ c.mishaps := by
  have hkept : ∀ (e : DeployerError) s, Blank keys path s₀ s ∧ c.mishaps →
      Kept keys path s₀ s ∧ c.mishaps := fun _ s hs => ⟨hs.1.kept, hs.2⟩
  have hparent : (keySetting c).Triple (Kept keys path s₀) (fun _ => True) (Blank keys path s₀)
      (makeParent path) (fun _ => Blank keys path s₀) fun _ s => Kept keys path s₀ s ∧ c.mishaps :=
    sure_triple rfl nofun (fun _ _ _ h => nomatch h.2) stable_blank fun _ hs => hs.kept
  apply hparent.bind
  intro _
  apply (openFile_triple.consequence (fun _ => id) (fun _ _ => id) hkept).bind
  intro _
  apply ((writeFile_triple [] _).consequence (fun _ => id) (fun _ _ => id) hkept).bind
  intro _
  refine (writeFile_triple _ [10]).consequence (fun _ => id) ?_ hkept
  rintro _ s ⟨hblank, ⟨_, mode⟩, hfile, rfl⟩
  refine ⟨hblank.kept, ?_⟩
  rw [Machine.key, hfile, Option.bind_some]
  exact keyIn_line mode

/-- The keyfile is valid from then on. -/
theorem reuseOrMint_triple (hreadable : ¬c.unreadable) :
    (keySetting c).Triple (Kept keys path s₀) (fun _ => True) (Kept keys path s₀)
      (reuseOrMint keys path)
      (fun secret s => ∃ key, accountFromSecret keys secret = .ok key ∧ Held keys path s₀ key s)
      fun _ s => Kept keys path s₀ s ∧ c.mishaps := by
  apply ((existingSecret_triple hreadable).consequence (fun _ => id) (fun _ _ => id)
    fun _ _ => False.elim).bind
  intro found
  cases found with
  | some secret => exact .ret fun s hs => hs.1 secret rfl
  | none =>
      refine Setting.Triple.strengthen ?_ fun s hs => hs.2 rfl
      have hfill : (keySetting c).Triple (Kept keys path s₀) (fun _ => True) (Blank keys path s₀)
          fillBytes (fun _ => Blank keys path s₀) fun _ s => Kept keys path s₀ s ∧ c.mishaps :=
        sure_triple rfl nofun (fun _ _ _ ⟨_, _, h⟩ => nomatch h) stable_blank fun _ hs => hs.kept
      have hgenerate : (keySetting c).Triple (Kept keys path s₀) (fun _ => True)
          (Blank keys path s₀) (generateSecret keys)
          (fun secret s => (∃ key, secret = keys.display key) ∧ Blank keys path s₀ s)
          fun _ s => Kept keys path s₀ s ∧ c.mishaps :=
        hfill.bind fun bytes => .ret fun s hs => ⟨⟨bytes, rfl⟩, hs⟩
      apply hgenerate.bind
      intro secret
      apply Setting.Triple.given
      rintro ⟨key, rfl⟩
      apply writeKeyFile_triple.bind
      intro _
      have haccount : accountFromSecret keys (keys.display key) = .ok key := by
        rw [accountFromSecret, (trimText_line (keys.display_plain key)).2, keys.fromString_display]
      exact .ret fun s hs => ⟨key, haccount, hs⟩

/-! ## The account -/

/-- Nothing goes wrong, and nobody else has accounts funded. -/
def KeyCircumstances.Calm (c : KeyCircumstances) : Prop :=
  ¬c.mishaps ∧ ¬c.crowded

/-- The keyfile holds the key, and in calm circumstances its account does not exist. -/
def Unfunded (keys : Strkeys) (path : String) (s₀ : Machine) (c : KeyCircumstances)
    (key : BytesN 32) (s : Machine) : Prop :=
  Held keys path s₀ key s ∧ (c.Calm → keys.address key ∉ s.accounts)

/-- The keyfile holds the key, and its account exists, at least in calm circumstances. -/
def Funded (keys : Strkeys) (path : String) (s₀ : Machine) (sure : Prop) (key : BytesN 32)
    (s : Machine) : Prop :=
  Held keys path s₀ key s ∧ (sure → keys.address key ∈ s.accounts)

theorem stable_unfunded : (keySetting c).Stable (Unfunded keys path s₀ c key) := by
  rintro s s' hothers ⟨hheld, habsent⟩
  refine ⟨stable_held s s' hothers hheld, fun hcalm => ?_⟩
  obtain hsame | ⟨hcrowded, -⟩ := hothers.accounts
  · rw [hsame]
    exact habsent hcalm
  · exact absurd hcrowded hcalm.2

theorem stable_funded {sure : Prop} : (keySetting c).Stable (Funded keys path s₀ sure key) := by
  rintro s s' hothers ⟨hheld, hpresent⟩
  exact ⟨stable_held s s' hothers hheld, fun hsure => hothers.accounts_subset _ (hpresent hsure)⟩

/-- Whether the account is visible; it is not, in calm circumstances, if it does not exist. -/
theorem accountVisible_triple {sure : Prop} :
    (keySetting c).Triple (Kept keys path s₀) (fun _ => True) (Funded keys path s₀ sure key)
      (accountVisible (keys.address key))
      (fun visible s => if visible then Funded keys path s₀ True key s
        else Unfunded keys path s₀ c key s ∧ ¬(c.Calm ∧ sure))
      fun _ _ => False := by
  have hget : (keySetting c).Triple (Kept keys path s₀) (fun _ => True)
      (Funded keys path s₀ sure key) (getAccount (keys.address key))
      (fun _ => Funded keys path s₀ True key)
      fun _ s => Unfunded keys path s₀ c key s ∧ ¬(c.Calm ∧ sure) := by
    refine observe_triple rfl stable_funded (fun s hs => hs.1.1) ?_ ?_
    · intro s _ hs hact
      obtain ⟨-, hget⟩ | ⟨-, hmishap⟩ := acts_mishaps hact nofun
      · split at hget
        next hmem => exact ⟨hs.1, fun _ => hmem⟩
        next =>
          obtain ⟨e, he⟩ := hget
          cases he
      · cases hmishap
    · intro s e hs hact
      obtain ⟨-, hget⟩ | ⟨hmishaps, -⟩ := acts_mishaps hact nofun
      · split at hget
        next => cases hget
        next hmem => exact ⟨⟨hs.1, fun _ => hmem⟩, fun h => hmem (hs.2 h.2)⟩
      · exact ⟨⟨hs.1, fun hcalm => absurd hmishaps hcalm.1⟩, fun h => h.1.1 hmishaps⟩
  have hbody : (keySetting c).Triple (Kept keys path s₀) (fun _ => True)
      (Funded keys path s₀ sure key) (do getAccount (keys.address key); pure true)
      (fun visible s => if visible then Funded keys path s₀ True key s
        else Unfunded keys path s₀ c key s ∧ ¬(c.Calm ∧ sure))
      fun _ s => Unfunded keys path s₀ c key s ∧ ¬(c.Calm ∧ sure) :=
    hget.bind fun _ => .ret fun s hs => hs
  exact hbody.tryCatch fun e => .ret fun s hs => hs

theorem friendbotUrl_triple : (keySetting c).Triple (Kept keys path s₀) (fun _ => True)
    (Unfunded keys path s₀ c key) friendbotUrl (fun _ => Unfunded keys path s₀ c key)
    fun _ s => Kept keys path s₀ s ∧ c.mishaps :=
  sure_triple rfl nofun (fun _ _ _ ⟨_, _, h⟩ => nomatch h) stable_unfunded fun _ hs => hs.1.1

/-- Friendbot is asked for the account of the keyfile. -/
theorem Held.request (h : Held keys path s₀ key s) (hfiles : s'.files = s.files)
    (hrequests : s'.requests = s.requests ++ [keys.address key])
    (haccounts : ∀ a ∈ s.accounts, a ∈ s'.accounts) : Held keys path s₀ key s' := by
  have hkey : s'.key keys path = some key :=
    (Machine.key_congr (congrFun hfiles path)).trans h.2
  refine ⟨h.1.step hfiles ?_ haccounts, hkey⟩
  intro a ha
  rw [hrequests] at ha
  rcases List.mem_append.mp ha with ha | ha
  · rw [Machine.key_congr (congrFun hfiles path)]
    exact h.1.asked a ha
  · exact ⟨key, hkey, (List.mem_singleton.mp ha).symm⟩

/-- Friendbot funds the account in calm circumstances. -/
theorem acts_fund {url : String} {r : Except DeployerError HttpStatus}
    (h : Unfunded keys path s₀ c key s)
    (hact : (keySetting c).acts s (.fund url (keys.address key)) r s') :
    Held keys path s₀ key s' ∧
      (c.Calm → r = .ok ⟨200, "200 OK"⟩ ∧ keys.address key ∈ s'.accounts) := by
  have hperformed : ∀ r s', KeyAction.Performs s (.fund url (keys.address key)) r s' →
      Held keys path s₀ key s' ∧
        (c.Calm → r = .ok ⟨200, "200 OK"⟩ ∧ keys.address key ∈ s'.accounts) := by
    intro r s' hperforms
    by_cases hmem : keys.address key ∈ s.accounts
    · obtain ⟨rfl, rfl⟩ := (if_pos hmem).mp hperforms
      exact ⟨h.1.request rfl rfl fun _ => id, fun hcalm => absurd hmem (h.2 hcalm)⟩
    · obtain ⟨rfl, rfl⟩ := (if_neg hmem).mp hperforms
      exact ⟨h.1.request rfl rfl fun _ => List.mem_append_left _,
        fun _ => ⟨rfl, List.mem_append_right _ (List.mem_singleton_self _)⟩⟩
  obtain hperforms | ⟨hmishaps, hmishap⟩ := acts_mishaps hact nofun
  · exact hperformed r s' hperforms
  · refine ⟨?_, fun hcalm => absurd hmishaps hcalm.1⟩
    cases hmishap with
    | failed => exact h.1
    | lost _ _ _ r' _ hperforms => exact (hperformed r' s' hperforms).1
    | answered => exact h.1.request rfl rfl fun _ => id

theorem fundViaFriendbot_triple (url : String) (cfg : RetryConfig) :
    (keySetting c).Triple (Kept keys path s₀) (fun _ => True) (Unfunded keys path s₀ c key)
      (fundViaFriendbot url (keys.address key) cfg)
      (fun _ => Funded keys path s₀ c.Calm key)
      fun _ s => Kept keys path s₀ s ∧ ¬c.Calm := by
  have hfund : (keySetting c).Triple (Kept keys path s₀) (fun _ => True)
      (Unfunded keys path s₀ c key) (fund url (keys.address key))
      (fun status s => (c.Calm → status.isSuccess = true) ∧ Funded keys path s₀ c.Calm key s)
      fun _ s => Held keys path s₀ key s ∧ ¬c.Calm := by
    refine Setting.Triple.perform stable_unfunded trivial fun s r s' hs hact => ?_
    obtain ⟨hheld, hcalm⟩ := acts_fund hs hact
    refine ⟨hheld.1, ?_, ?_⟩
    · rintro status rfl
      refine ⟨fun h => ?_, hheld, fun h => (hcalm h).2⟩
      rw [Except.ok.inj (hcalm h).1]
      rfl
    · rintro e rfl
      exact ⟨hheld, fun h => nomatch (hcalm h).1⟩
  have hattempt : (keySetting c).Triple (Kept keys path s₀) (fun _ => True)
      (Unfunded keys path s₀ c key) (do
        let status ← fund url (keys.address key)
        if status.isSuccess then pure ()
        else .fail (.http ("friendbot returned status " ++ status.text ++ ": " ++
          friendbotMessage status.code)))
      (fun _ => Funded keys path s₀ c.Calm key)
      fun _ s => Held keys path s₀ key s ∧ ¬c.Calm := by
    apply hfund.bind
    intro status
    split
    next => exact .ret fun s hs => hs.2
    next hrefused => exact .fail fun s hs => ⟨hs.2.1, fun h => hrefused (hs.1 h)⟩
  -- an attempt that failed was not in calm circumstances, so it may be repeated
  refine Setting.Triple.retry (hattempt.consequence (fun _ => id) (fun _ _ => id) ?_)
  rintro e s ⟨hheld, hcalm⟩
  exact ⟨⟨hheld, fun h => absurd h hcalm⟩, hheld.1, hcalm⟩

theorem waitForAccount_triple (attempts : ℕ) :
    (keySetting c).Triple (Kept keys path s₀) (fun _ => True) (Funded keys path s₀ c.Calm key)
      (waitForAccount (keys.address key) (attempts + 1))
      (fun _ => Funded keys path s₀ True key) fun _ s => Kept keys path s₀ s ∧ ¬c.Calm := by
  have hlook : (keySetting c).Triple (Kept keys path s₀) (fun _ => True)
      (Funded keys path s₀ c.Calm key) (accountVisible (keys.address key))
      (fun visible s => if visible then Funded keys path s₀ True key s
        else Funded keys path s₀ c.Calm key s ∧ ¬c.Calm)
      fun _ s => Kept keys path s₀ s ∧ ¬c.Calm := by
    refine accountVisible_triple.consequence (fun _ => id) ?_ fun _ _ => False.elim
    rintro (_ | _) s hs
    · have hcalm : ¬c.Calm := fun h => hs.2 ⟨h, h⟩
      exact ⟨⟨hs.1.1, fun h => absurd h hcalm⟩, hcalm⟩
    · exact hs
  induction attempts with
  | zero =>
      apply hlook.bind
      rintro (_ | _)
      · exact .fail fun s hs => ⟨hs.1.1.1, hs.2⟩
      · exact .ret fun s hs => hs
  | succ attempts ih =>
      apply hlook.bind
      rintro (_ | _)
      · exact ih.strengthen fun s hs => hs.1
      · exact .ret fun s hs => hs

/-- `keygen`, from any point at which an earlier run may have stopped. -/
theorem keygenAndFund_triple (hreadable : ¬c.unreadable) (friendbot : Option String)
    (cfg : RetryConfig) :
    (keySetting c).Triple (Kept keys path s₀) (fun _ => True) (Kept keys path s₀)
      (keygenAndFund keys friendbot path cfg)
      (fun address s => ∃ key, address = keys.address key ∧ Funded keys path s₀ True key s)
      fun _ s => Kept keys path s₀ s ∧ ¬c.Calm := by
  have hrough : ∀ (e : DeployerError) s, Kept keys path s₀ s ∧ c.mishaps →
      Kept keys path s₀ s ∧ ¬c.Calm := fun e s hs => ⟨hs.1, fun hcalm => hcalm.1 hs.2⟩
  apply ((reuseOrMint_triple hreadable).consequence (fun _ => id) (fun _ _ => id) hrough).bind
  intro secret
  have hsecret : ∀ s, (∃ key, accountFromSecret keys secret = .ok key ∧ Held keys path s₀ key s) →
      (∃ key, accountFromSecret keys secret = .ok key) ∧
        ∃ key, accountFromSecret keys secret = .ok key ∧ Held keys path s₀ key s :=
    fun s ⟨key, hkey, hs⟩ => ⟨⟨key, hkey⟩, key, hkey, hs⟩
  refine Setting.Triple.strengthen (.given ?_) hsecret
  rintro ⟨key, hkey⟩
  have hheld : ∀ s, (∃ key, accountFromSecret keys secret = .ok key ∧ Held keys path s₀ key s) →
      Funded keys path s₀ False key s := by
    rintro s ⟨key', hkey', hs⟩
    obtain rfl : key = key' := Except.ok.inj (hkey.symm.trans hkey')
    exact ⟨hs, False.elim⟩
  refine Setting.Triple.strengthen ?_ hheld
  rw [hkey]
  apply (accountVisible_triple.consequence (fun _ => id) (fun _ _ => id)
    fun _ _ => False.elim).bind
  rintro (_ | _)
  · have hrest : ∀ url, (keySetting c).Triple (Kept keys path s₀) (fun _ => True)
        (Unfunded keys path s₀ c key) (do
          fundViaFriendbot url (keys.address key) cfg
          waitForAccount (keys.address key) 30
          pure (keys.address key))
        (fun address s => ∃ key, address = keys.address key ∧ Funded keys path s₀ True key s)
        fun _ s => Kept keys path s₀ s ∧ ¬c.Calm :=
      fun url => (fundViaFriendbot_triple url cfg).bind fun _ =>
        (waitForAccount_triple 29).bind fun _ => .ret fun s hs => ⟨key, rfl, hs⟩
    refine Setting.Triple.strengthen ?_ fun s hs => hs.1
    cases friendbot with
    | some url => exact hrest url
    | none =>
        exact (friendbotUrl_triple.consequence (fun _ => id) (fun _ _ => id) hrough).bind hrest
  · exact .ret fun s hs => ⟨key, rfl, hs⟩

end Commands

end WarpDrive.Deployer.Identity
