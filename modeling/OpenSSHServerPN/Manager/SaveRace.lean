/-
Saves from several windows on one `sshd_config` (`ConfigurationTransaction.cs`: `Save` without `overwrite`; `SshdConfig.cs`:
`Load`, `Copy`).

Model: `Load` takes the hash of the file and reads its bytes afterwards, without the lock, as two operations of a window.
`Save` runs under the lock and compares the hash the window has. `changes` is history, newest first: what a change of
`sshd_config` started from, and the content it left; a save that returns starts from the content that its window read.

Results:
- `saves_lose_nothing`: if every step is `Undisturbed`, every save that returns replaced the content its window read, its
  backup has that content, no recovery was pending, and the changes are one chain;
- `stale_window_saves`: the file changes between the two parts and comes back; the save then replaces what its window never read.
-/
import OpenSSHServerPN.Manager.SaveChain

namespace OpenSSHServerPN.Recovery

open Match Faulty

variable (P : Platform)

/-- what a window knows of the file; no content if there was no file and the default configuration is shown -/
inductive Window where
  | empty
  | hashed (hash : Text)
  | loaded (hash : Text) (content : Option Text)
deriving DecidableEq, Repr

inductive RaceOp where
  /-- `Load`, first part -/
  | hash (w : ℕ)
  /-- `Load`, second part -/
  | read (w : ℕ)
  /-- `Copy` -/
  | copy (w w' : ℕ)
  | save (w : ℕ) (c : SaveCall)
  | call (c : Call)

structure Race where
  files : State
  windows : ℕ → Window
  changes : List (Option Text × Option Text)

def Race.start (s : State) : Race := ⟨s, fun _ => .empty, []⟩

/-- a save of a window that has this hash -/
def SaveCall.withHash (c : SaveCall) (hash : Text) : SaveCall :=
  { c with overwrite := false, candidate := { c.candidate with loadedHash := some hash } }

def raceStep (x : Race) : RaceOp → Race
  | .hash w => { x with windows := Function.update x.windows w (.hashed (P.fileHash x.files.live)) }
  | .read w =>
    match x.windows w with
    | .hashed hash => { x with windows := Function.update x.windows w (.loaded hash x.files.live) }
    | _ => x
  | .copy w w' => { x with windows := Function.update x.windows w' (x.windows w) }
  | .save w c =>
    match x.windows w with
    | .loaded hash content =>
      match save P (c.withHash hash) x.files c.outcomes with
      | (.ok _, s, _) =>
        { files := s
          windows := Function.update x.windows w (.loaded (P.fileHash s.live) (some c.candidate.bytes))
          changes := (content, s.live) :: x.changes }
      | (_, s, _) => { x with files := s, changes := (x.files.live, s.live) :: x.changes }
    | _ => x
  | .call c => { x with files := step P x.files c, changes := (x.files.live, (step P x.files c).live) :: x.changes }

/-! ## One save -/

variable {P} {s s' : State} {c : SaveCall}

theorem fileHash_injective {a b : Option Text} (h : P.fileHash a = P.fileHash b) : a = b := by
  cases b with
  | none => exact fileHash_eq_nil.1 h
  | some b =>
    cases a with
    | none => exact absurd h.symm (P.hash_ne_nil b)
    | some a => exact congrArg some (P.hash_injective h)

/-- a part of a save: once it returns, all its effects took place -/
def Part {α : Type} (m : M α) (s : State) (Q : α → State → Prop) : Prop :=
  ∀ os, Ends (m s os) (fun a s' os' => (∃ k, os = List.replicate k .done ++ os') ∧ Q a s') (fun _ _ => True) (fun _ => True)

section Part

variable {α β : Type} {Q : α → State → Prop} {U : Unit → State → Prop} {R : β → State → Prop} {m : M α} {f : α → M β}

theorem part_pure {a : α} (h : Q a s) : Part (pure a) s Q := fun _ => ends_pure ⟨⟨0, rfl⟩, h⟩

theorem part_throw {e : Text} : Part (throw e : M α) s Q := fun _ => ends_throw trivial

theorem part_bind (h : Part m s fun a s' => Part (f a) s' R) : Part (m >>= f) s R := by
  intro os
  apply ends_bind
  refine ends_mono (h os) ?_ (fun _ _ h => h) (fun _ h => h)
  rintro a s₁ os₁ ⟨⟨k, rfl⟩, hf⟩
  refine ends_mono (hf os₁) ?_ (fun _ _ h => h) (fun _ h => h)
  rintro b s₂ os₂ ⟨⟨k', rfl⟩, hq⟩
  exact ⟨⟨k + k', by rw [List.replicate_add, List.append_assoc]⟩, hq⟩

theorem part_get {k : State → M β} (h : Part (k s) s R) : Part (get >>= k) s R := fun os => ends_get (h os)

theorem part_modify {g : State → State} (h : U () (g s)) : Part (modify g : M Unit) s U := fun _ => ends_modify ⟨⟨0, rfl⟩, h⟩

theorem part_effect {e : Text} {g : State → State} (h : U () (g s)) : Part (effect e g : M Unit) s U :=
  fun _ => ends_effect (fun _ hos => ⟨⟨1, hos⟩, h⟩) (fun _ _ => trivial) (fun _ => trivial)

theorem part_require {e : Text} {b : Bool} (h : b = true → U () s) : Part (require b e : M Unit) s U :=
  fun _ => ends_require (fun hb => ⟨⟨0, rfl⟩, h hb⟩) trivial

theorem part_stored {deps : Option Deps} {Q : Deps → State → Prop} (h : ∀ d, Q d s) : Part (stored deps) s Q := by
  cases deps with
  | none => exact part_throw
  | some d => exact part_pure (h d)

end Part

theorem part_prepare {backup : Option Text} {bytes : Text} {deps : Option Deps} :
    Part (prepare P backup bytes deps) s fun _ s' => s'.backups = s.backups := by
  apply part_get
  apply part_bind
  apply part_require
  intro _
  split
  · apply part_bind
    apply part_stored
    intro d
    exact part_bind (part_effect (part_bind (part_modify (part_pure rfl))))
  · have hrest (r : Record) {s₁ : State} (h : s₁.backups = s.backups) : Part (do
        let d ← stored deps
        write { r with server := some (if backup.isNone then [] else s.serverIdentity true), deps := d }
        issue ⟨s.journal, r.id, false⟩ : M PreparedSave) s₁ fun _ s' => s'.backups = s.backups := by
      apply part_bind
      apply part_stored
      intro d
      exact part_bind (part_effect (part_bind (part_modify (part_pure h))))
    apply part_bind
    apply part_get
    cases backup with
    | none => exact part_pure (hrest _ rfl)
    | some path =>
      cases hb : s.backups path with
      | none =>
        simp only [hb]
        exact part_throw
      | some bytes =>
        simp only [hb]
        exact part_bind (part_effect (part_get (part_pure (hrest _ rfl))))

/-- the backups with the one a save makes -/
def SaveCall.made (c : SaveCall) (s : State) (p : Text) : Option Text :=
  if s.live.isSome ∧ p = c.backup then s.live else s.backups p

theorem part_backupLive {path : Text} (h : path = c.backup) :
    Part (backupLive path) s fun b s' => b = s.live.map (fun _ => c.backup) ∧ s'.backups = c.made s := by
  subst h
  apply part_get
  cases hl : s.live with
  | none =>
    refine part_pure ⟨rfl, ?_⟩
    funext p
    simp [SaveCall.made, hl]
  | some content =>
    apply part_bind
    apply part_require
    intro _
    refine part_bind (part_effect (part_pure ⟨rfl, ?_⟩))
    funext p
    simp [SaveCall.made, hl]

/-- what a save that returned has done; `path` is its backup, `os'` the outcomes it left -/
structure Committed (P : Platform) (s : State) (c : SaveCall) (os : List Outcome) (path : Option Text) (s' : State)
    (os' : List Outcome) : Prop where
  notPending : s.pending = false
  expected : c.overwrite = true ∨ ∀ hash, c.candidate.loadedHash = some hash → hash = P.fileHash s.live
  live : s'.live = some c.candidate.bytes
  path : path = s.live.map fun _ => c.backup
  /-- every effect took place but for the last one, which prunes old backups and may fail -/
  backups : (∃ k, os = List.replicate k .done ++ os') ∧ s'.backups = (fun p => if c.pruned p then none else c.made s p) ∨
    (∃ k, os = List.replicate k .done ++ .failed :: os') ∧ s'.backups = c.made s

/-- a save that fails does not return, however the restoring of its record ends -/
theorem ends_backThenThrow {Q : Unit → State → List Outcome → Prop} (t : PreparedSave) (e : Text) (s : State)
    (os : List Outcome) : Ends (backThenThrow t e s os) Q (fun _ _ => True) (fun _ => True) := by
  apply ends_bind
  rcases attempt (unprepare t) (fun _ => pure ()) s os with ⟨r, _⟩
  cases r with
  | ok | error | cut => trivial

/-- **A save that returns.** -/
theorem ends_save (os : List Outcome) :
    Ends (save P c s os) (Committed P s c os) (fun _ _ => True) (fun _ => True) := by
  unfold save
  apply ends_bind
  apply ends_require _ trivial
  intro _
  apply ends_bind
  cases c.candidate.deps with
  | none => exact ends_throw trivial
  | some d =>
    apply ends_pure
    apply ends_get
    apply ends_bind
    apply ends_require _ trivial
    intro hpending
    apply ends_bind
    apply ends_require _ trivial
    intro _
    apply ends_bind
    apply ends_require _ trivial
    intro hexpected
    apply ends_bind
    cases P.captureFile s.includes s.live with
    | none => exact ends_throw trivial
    | some now =>
      apply ends_pure
      apply ends_bind
      refine ends_mono (part_backupLive rfl os) ?_ (fun _ _ h => h) (fun _ h => h)
      rintro path s₁ os₁ ⟨⟨k₁, rfl⟩, hpath, hmade⟩
      apply ends_bind
      refine ends_mono (part_prepare os₁) ?_ (fun _ _ h => h) (fun _ h => h)
      rintro t s₂ os₂ ⟨⟨k₂, rfl⟩, h₂⟩
      apply ends_bind
      apply ends_attempt
      apply ends_get
      apply ends_bind
      apply ends_require _ (ends_backThenThrow t · _ _)
      intro _
      apply ends_bind
      apply ends_require _ (ends_backThenThrow t · _ _)
      intro _
      apply ends_effect _ (fun os₃ _ e => ends_backThenThrow t e _ os₃) (fun _ => trivial)
      rintro os₃ rfl
      apply ends_bind
      have hdone (backups : Text → Option Text) (os₄ : List Outcome)
          (hb : _) : Committed P s c (List.replicate k₁ .done ++ (List.replicate k₂ .done ++ .done :: os₃)) path
            { s₂ with live := some c.candidate.bytes, changed := true, backups := backups } os₄ :=
        ⟨by simpa using hpending, by simpa [Option.all_eq_true] using hexpected, rfl, hpath, hb⟩
      -- the outcomes so far
      have hos (os : List Outcome) : List.replicate k₁ .done ++ (List.replicate k₂ .done ++ .done :: os) =
          List.replicate (k₁ + k₂ + 1) .done ++ os := by
        rw [List.replicate_add, List.replicate_add, List.append_assoc, List.append_assoc]
        rfl
      apply ends_attempt
      apply ends_effect _ _ (fun _ => trivial)
      · rintro os₄ rfl
        refine ends_pure (hdone _ _ (.inl ⟨⟨k₁ + k₂ + 1 + 1, ?_⟩, ?_⟩))
        · rw [hos, List.replicate_succ' (n := k₁ + k₂ + 1), List.append_assoc]
          rfl
        · funext p
          simp only [h₂, hmade]
      · rintro os₄ rfl _
        exact ends_pure (ends_pure (hdone _ _ (.inr ⟨⟨k₁ + k₂ + 1, hos _⟩, by rw [h₂, hmade]⟩)))

theorem Committed.backup {os os' : List Outcome} {path : Option Text} (h : Committed P s c os path s' os')
    (hp : c.pruned c.backup = false) : path.bind s'.backups = s.live := by
  rw [h.path]
  cases hl : s.live with
  | none => rfl
  | some content =>
    obtain ⟨-, hb⟩ | ⟨-, hb⟩ := h.backups <;> simp [hb, hp, SaveCall.made, hl]

/-! ## Runs -/

/-- a chain of changes, newest first, from one content to another -/
def Linked (first : Option Text) : List (Option Text × Option Text) → Option Text → Prop
  | [], last => first = last
  | (old, new) :: changes, last => new = last ∧ Linked first changes old

/-- the file is the same at both parts of a `Load`, and a save does not prune its own backup -/
def Undisturbed (P : Platform) (x : Race) : RaceOp → Prop
  | .read w => ∀ hash, x.windows w = .hashed hash → hash = P.fileHash x.files.live
  | .save _ c => c.pruned c.backup = false
  | _ => True

/-- a save that returns replaces what its window read, and its backup has that -/
def Lossless (P : Platform) (x : Race) : RaceOp → Prop
  | .save w c => ∀ hash content path s os, x.windows w = .loaded hash content →
      save P (c.withHash hash) x.files c.outcomes = (.ok path, s, os) →
      x.files.pending = false ∧ x.files.live = content ∧ s.live = some c.candidate.bytes ∧ path.bind s.backups = content
  | _ => True

/-- every window has the hash of what it read -/
structure RaceInv (P : Platform) (first : Option Text) (x : Race) : Prop where
  windows : ∀ w hash content, x.windows w = .loaded hash content → hash = P.fileHash content
  linked : Linked first x.changes x.files.live

variable {x : Race} {first : Option Text}

theorem lossless_step (o : RaceOp) (h : RaceInv P first x) (hu : Undisturbed P x o) : Lossless P x o := by
  cases o with
  | save w c =>
    intro hash content path s os hw hsave
    have hk := ends_save (P := P) (c := c.withHash hash) (s := x.files) c.outcomes
    rw [hsave] at hk
    replace hk : Committed P x.files (c.withHash hash) c.outcomes path s os := hk
    have hlive : x.files.live = content := by
      apply fileHash_injective
      obtain hover | hexpected := hk.expected
      · cases hover
      · rw [← hexpected hash rfl, h.windows w hash content hw]
    exact ⟨hk.notPending, hlive, hk.live, (hk.backup hu).trans hlive⟩
  | _ => trivial

theorem RaceInv.set (h : RaceInv P first x) (w : ℕ) (v : Window)
    (hv : ∀ hash content, v = .loaded hash content → hash = P.fileHash content) :
    ∀ w' hash content, Function.update x.windows w v w' = .loaded hash content → hash = P.fileHash content := by
  intro w' hash content hw
  by_cases hne : w' = w
  · subst hne
    exact hv hash content (by simpa using hw)
  · exact h.windows w' hash content (by simpa [hne] using hw)

theorem raceInv_step (o : RaceOp) (h : RaceInv P first x) (hu : Undisturbed P x o) : RaceInv P first (raceStep P x o) := by
  have hloss := lossless_step o h hu
  cases o with
  | hash w => exact ⟨h.set w _ (fun _ _ hv => by cases hv), h.linked⟩
  | read w =>
    cases hw : x.windows w with
    | empty | loaded => simpa only [raceStep, hw] using h
    | hashed hash =>
      simp only [raceStep, hw]
      refine ⟨h.set w _ ?_, h.linked⟩
      intro hash' content hv
      cases hv
      exact hu hash hw
  | copy w w' => exact ⟨h.set w' _ (h.windows w), h.linked⟩
  | call c => exact ⟨h.windows, rfl, h.linked⟩
  | save w c =>
    cases hw : x.windows w with
    | empty | hashed => simpa only [raceStep, hw] using h
    | loaded hash content =>
      rcases hsave : save P (c.withHash hash) x.files c.outcomes with ⟨r, s, os⟩
      cases r with
      | ok path =>
        obtain ⟨-, hlive, hbytes, -⟩ := hloss hash content path s os hw hsave
        simp only [raceStep, hw, hsave]
        refine ⟨h.set w _ ?_, rfl, hlive ▸ h.linked⟩
        intro hash' content' hv
        cases hv
        rw [hbytes]
      | error | cut =>
        simp only [raceStep, hw, hsave]
        exact ⟨h.windows, rfl, h.linked⟩

/-- **No committed save is lost**, in any run whose steps are all `Undisturbed`. -/
theorem saves_lose_nothing (P : Platform) (s : State) (ops : List RaceOp)
    (hu : Runs.Always (raceStep P) (Undisturbed P) (Race.start s) ops) :
    Runs.Always (raceStep P) (Lossless P) (Race.start s) ops ∧
      Linked s.live (Runs.run (raceStep P) (Race.start s) ops).changes (Runs.run (raceStep P) (Race.start s) ops).files.live := by
  have hstart : RaceInv P s.live (Race.start s) := ⟨(fun _ _ _ hw => by cases hw), rfl⟩
  refine ⟨Runs.always_of_inv (fun _ => raceInv_step) (fun _ => lossless_step) ops hstart hu, ?_⟩
  exact (Runs.run_inv (fun _ => raceInv_step) ops hstart hu).linked

/-- a second window loads what the first one saved, and saves in turn -/
theorem two_windows_lose_nothing :
    Linked (some oldText) [(some newText, some newestText), (some oldText, some newText)] (some newestText) :=
  (saves_lose_nothing plainPlatform runningState [.hash 0, .read 0, .save 0 newSave, .hash 1, .read 1, .save 1 nextSave]
    ⟨trivial, fun _ hw => (Window.hashed.inj hw).symm, rfl, trivial, fun _ hw => (Window.hashed.inj hw).symm, rfl, trivial⟩).2

/-- the second window takes the hash of the old file and reads the new one; the first one saves the old text again -/
def staleLoad : List RaceOp :=
  [.hash 0, .read 0, .hash 1, .save 0 newSave, .read 1, .save 0 (saveOf oldText secondBackup [.done, .done, .done, .done])]

/-- **A save of a window that never read what it replaces.** -/
theorem stale_window_saves : ¬ Runs.Always (raceStep plainPlatform) (Lossless plainPlatform) (Race.start runningState)
      (staleLoad ++ [.save 1 (saveOf newestText thirdBackup [.done, .done, .done, .done])]) := by
  intro h
  obtain ⟨-, hlive, -⟩ := ((Runs.always_append _ _ _).1 h).2.1 _ _ _ _ _ rfl rfl
  exact absurd hlive (by decide)

end OpenSSHServerPN.Recovery
