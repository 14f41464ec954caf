/-
The rollback copy belongs to the record: an unsettled record with a previous file finds that file in `previous.config`.

`NewRecord` replaces the copy before the record that names it is written. A call that ends in between, by a crash, by a failed
write or by an exception of the snapshot, leaves the earlier record with a copy that is not its own. `Recorded` calls write the
record for their copy; a `Harmless` copy is the one the earlier record names already.

Results:
- `copy_of_record`: if every call that replaces the copy writes its record, or the copy is harmless, the copy belongs to the
  record in every state reached;
- `copy_without_record`: a second save that is cut after its copy leaves the first record without one.
-/
import OpenSSHServerPN.Manager.RecoverySafety

namespace OpenSSHServerPN.Recovery

open Match Faulty

variable {P : Platform} {g : Guard} {s s' : State}

/-! ## The invariant -/

/-- `previous.config` is the file the unsettled record of the journal names -/
def OwnCopy (P : Platform) (s : State) : Prop :=
  ∀ r, s.journal = some r → r.status.terminal = false → r.previous = true →
    ∃ c, s.saved = some c ∧ r.before = some (P.hash c)

/-- the unsettled record, if any, names this content -/
def Harmless (P : Platform) (s : State) (c : Text) : Prop :=
  ∀ r, s.journal = some r → r.status.terminal = false → r.previous = true → r.before = some (P.hash c)

structure CopyInv (P : Platform) (s : State) : Prop where
  inv : Inv P s
  own : OwnCopy P s
  /-- a record and the one it continues have the same copy -/
  continued : ∀ id old, Event.continued id old ∈ s.log → ∀ r, Known s r → r.id = id →
    r.previous = old.previous ∧ (r.previous = true → r.before = old.before)

theorem copyInv_initial (h : Initial s) : CopyInv P s where
  inv := inv_initial h
  own := by simp [OwnCopy, h.journal]
  continued := by simp [h.log]

variable {r : Record} {d : Deps} {backup : Option Text} {path c : Text}

theorem Chain.own {old : Record} (h : Inv P s) (hc : Chain P s old r) (hp : r.previous = true) :
    ∃ c, s.saved = some c ∧ r.before = some (P.hash c) := by
  obtain ⟨b, hb, hne⟩ := h.before old (.inl hc.journal) (hc.previous ▸ hp)
  have hcopy : r.before = some (P.fileHash s.saved) := hc.copy hp
  cases hs : s.saved with
  | none =>
    rw [hc.before hp, hb, hs] at hcopy
    simp only [Option.some.injEq] at hcopy
    exact absurd hcopy hne
  | some c => exact ⟨c, rfl, by rw [hcopy, hs]; rfl⟩

/-- a later version of the record of the journal, or the record it continues -/
theorem CopyInv.put_same (h : CopyInv P s) {r' : Record} (hj : s.journal = some r) (hw : Writable P s none r')
    (hopen : r.status.terminal = false) (hprevious : r'.previous = r.previous)
    (hbefore : r'.previous = true → r'.before = r.before)
    (hknown : ∀ id old, Event.continued id old ∈ s.log → r'.id = id →
      r'.previous = old.previous ∧ (r'.previous = true → r'.before = old.before)) : CopyInv P (s.write r') where
  inv := h.inv.put hw
  own := by
    intro x hx _ hp
    simp only [State.write, Option.some.injEq] at hx
    subst hx
    obtain ⟨c, hc, hb⟩ := h.own r hj hopen (hprevious ▸ hp)
    exact ⟨c, hc, by rw [hbefore hp, hb]⟩
  continued := by
    intro id old hc x hx hid
    have hc' : Event.continued id old ∈ s.log := by
      rcases continued_put none hc with hc | ⟨_, hcont⟩
      · exact hc
      · cases hcont
    rcases known_put hw hx with hx | rfl
    · exact h.continued id old hc' x hx hid
    · exact hknown id old hc' hid

/-- a new record has an identifier no record was continued with -/
theorem continued_new (h : Inv P s) (hcontinued : ∀ id old, Event.continued id old ∈ s.log → ∀ r, Known s r → r.id = id →
      r.previous = old.previous ∧ (r.previous = true → r.before = old.before)) (hr : Root P s r) :
    ∀ id old, Event.continued id old ∈ (s.write r).log → ∀ x, Known (s.write r) x → x.id = id →
      x.previous = old.previous ∧ (x.previous = true → x.before = old.before) := by
  intro id old hedge x hx hid
  rcases continued_put none hedge with hedge | ⟨_, hcont⟩
  · rcases known_put hr.writable hx with hx | hx
    · exact hcontinued id old hedge x hx hid
    · have hlt : id < s.next := h.continued_lt id old hedge
      rw [← hid, hx, hr.id] at hlt
      exact absurd hlt (lt_irrefl _)
  · cases hcont

theorem CopyInv.note (h : CopyInv P s) {e : Event} (he : e.isNote = true) (hinv : Inv P s') (hj : s'.journal = s.journal)
    (hs : s'.saved = s.saved) (hl : s'.log = s.log ++ [e]) : CopyInv P s' where
  inv := hinv
  own := by
    intro r hr
    rw [hs]
    exact h.own r (hj ▸ hr)
  continued := by
    intro id old hc r hr
    have hnotes : ∀ x ∈ [e], x.isNote = true := by simpa using he
    exact h.continued id old (mem_notes hnotes rfl (hl ▸ hc)) r (known_notes hnotes hj hl hr)

theorem CopyInv.put_later (h : CopyInv P s) {r' : Record} (hj : s.journal = some r) (hw : Writable P s none r')
    (hopen : r.status.terminal = false) (hs : Same r r') : CopyInv P (s.write r') := by
  refine h.put_same hj hw hopen hs.previous (fun _ => hs.before) fun id old hc hid => ?_
  rw [hs.previous, hs.before]
  exact h.continued id old hc r (.inl hj) (hs.id ▸ hid)

/-- **The copy stays with the record.** Every move but a copy before its record. -/
theorem copyInv_move (hg : ∀ s c, g.copy s c → Harmless P s c) (h : CopyInv P s) (hm : Move P g s s') : CopyInv P s' := by
  have hinv : Inv P s' := inv_move h.inv hm
  cases hm with
  | outside | issue => exact ⟨hinv, h.own, h.continued⟩
  | copy c hp hc =>
    refine ⟨hinv, ?_, h.continued⟩
    intro r hj ho hprev
    exact ⟨c, rfl, hg s c hc r hj ho hprev⟩
  | root r hp hr =>
    refine ⟨hinv, ?_, continued_new h.inv h.continued hr⟩
    intro x hx _ hprev
    simp only [State.write, Option.some.injEq] at hx
    exact hx ▸ hr.before (hx ▸ hprev)
  | place c r hp hr =>
    have hcopy : Inv P { s with saved := some c } := h.inv.congr rfl rfl rfl rfl
    refine ⟨hinv, ?_, continued_new hcopy h.continued hr⟩
    intro x hx _ hprev
    simp only [State.write, Option.some.injEq] at hx
    exact hx ▸ hr.before (hx ▸ hprev)
  | chain old r hc =>
    have hw : Writable P s (some old) r := hc.writable h.inv
    refine ⟨hinv, ?_, ?_⟩
    · intro x hx _ hprev
      simp only [State.write, Option.some.injEq] at hx
      subst hx
      have hown : ∃ c, s.saved = some c ∧ r.before = some (P.hash c) := Chain.own h.inv hc hprev
      exact hown
    · intro id old' hedge x hx hid
      rcases continued_put (some old) hedge with hedge | ⟨rfl, hcont⟩
      · rcases known_put hw hx with hx | hx
        · exact h.continued id old' hedge x hx hid
        · have hlt : id < s.next := h.inv.continued_lt id old' hedge
          rw [← hid, hx, hc.id] at hlt
          exact absurd hlt (lt_irrefl _)
      · simp only [Option.some.injEq] at hcont
        subst hcont
        rcases known_put hw hx with hx | hx
        · have hlt : x.id < s.next := h.inv.known_lt x hx
          rw [hid, hc.id] at hlt
          exact absurd hlt (lt_irrefl _)
        · subst hx
          exact ⟨hc.previous, hc.before⟩
  | back r old hj hr ht =>
    have hw : Writable P s none old := writable_back h.inv hj hr ht
    obtain ⟨t, hmem, hcontinued, hid, hprev⟩ := ht
    obtain ⟨old', hold', hc⟩ := h.inv.tokens t hmem hcontinued
    rw [hprev, Option.some.injEq] at hold'
    subst hold'
    obtain ⟨hprevious, hbefore⟩ := h.continued t.id old hc r (.inl hj) hid.symm
    apply h.put_same hj hw (by rw [hr]; rfl) hprevious.symm
    · intro hp
      exact (hbefore (hprevious ▸ hp)).symm
    · intro id old' hc' hid'
      exact h.continued id old' hc' old (.inr ⟨t.id, hc⟩) hid'
  | update r r' hu => exact h.put_later hu.journal (hu.writable h.inv) hu.unsettled hu.same
  | settle r r' hs => exact h.put_later hs.journal (hs.writable h.inv) (not_terminal_of_pending hs.pending) hs.same
  | replace r live _ _ _ => exact h.note (e := .replaced r s.live) rfl hinv rfl rfl rfl
  | firewall id rule => exact h.note (e := .firewall id rule) rfl hinv rfl rfl rfl
  | restart r _ _ _ => exact h.note (e := .restart r) rfl hinv rfl rfl rfl

/-! ## Calls that write the record for their copy -/

/-- no exception and no failed or missing write between the copy and its record -/
def Recorded (P : Platform) (s : State) (c : Call) : Prop :=
  [.done, .done] <+: c.outcomes ∧
    match c.op with
    | .prepare _ _ deps => deps.isSome = true
    | .arm backup _ _ _ => (captureBoth P s backup).isSome = true
    | _ => True

/-- a call that replaces the copy writes its record, or the copy is the one the record has -/
def KeepsCopy (P : Platform) (s : State) (c : Call) : Prop :=
  ∀ bytes, copied P s c.op = some bytes → c.outcomes.head? = some .done → Recorded P s c ∨ Harmless P s bytes

variable {fold : Text → Text}

theorem mem_override {β : Type} {a b : List (Text × β)} {p : Text × β} (h : p ∈ override fold a b) :
    p ∈ a ∨ p ∈ b := by
  rcases List.mem_append.1 h with h | h
  · exact .inl (List.mem_filter.1 h).1
  · exact .inr h

theorem Deps.union_unchanged {inc : Includes} {a b : Deps} (ha : a.unchanged fold inc = true)
    (hb : b.unchanged fold inc = true) : (a.union fold b).unchanged fold inc = true := by
  simp only [Deps.unchanged, Bool.and_eq_true, List.all_eq_true] at ha hb ⊢
  constructor
  · intro p hp
    exact (mem_override hp).elim (ha.1 p) (hb.1 p)
  · intro p hp
    exact (mem_override hp).elim (ha.2 p) (hb.2 p)

theorem captureFile_unchanged {inc : Includes} {file : Option Text} (h : P.captureFile inc file = some d) :
    d.unchanged P.fold inc = true := by
  cases file with
  | none =>
    simp only [Platform.captureFile, Option.some.injEq] at h
    subst h
    rfl
  | some c => exact P.capture_unchanged inc c d h

theorem captureBoth_unchanged (h : captureBoth P s backup = some d) :
    d.unchanged P.fold s.includes = true := by
  unfold captureBoth at h
  cases backup with
  | none => exact captureFile_unchanged h
  | some path =>
    simp only at h
    split at h
    · rename_i a b ha hb
      simp only [Option.some.injEq] at h
      subst h
      exact Deps.union_unchanged (captureFile_unchanged ha) (captureFile_unchanged hb)
    · cases h

theorem newRecord_run {applied : Text} (hb : s.backups path = some c) (os : List Outcome) :
    newRecord P (some path) applied s (.done :: os) =
      (.ok { recordValues s.next (some path) applied true with before := some (P.hash c) }, { s with saved := some c }, os) := by
  simp only [newRecord, Bind.bind, Faulty.bind, Faulty.get, hb, effect, Pure.pure, ret, Platform.fileHash]

variable {os : List Outcome}

theorem newRecord_stop (applied : Text) (hb : s.backups path = some c) (ho : os.head? ≠ some .done) :
    ∃ r os', newRecord P (some path) applied s os = (r, s, os') ∧ ∀ a, r ≠ .ok a := by
  cases os with
  | nil => exact ⟨.cut, [], by simp only [newRecord, Bind.bind, Faulty.bind, Faulty.get, hb, effect], by simp⟩
  | cons o os =>
    cases o with
    | done => exact absurd rfl ho
    | failed =>
      refine ⟨.error "The rollback copy could not be written.", os, ?_, by simp⟩
      simp only [newRecord, Bind.bind, Faulty.bind, Faulty.get, hb, effect]
    | cut => exact ⟨.cut, os, by simp only [newRecord, Bind.bind, Faulty.bind, Faulty.get, hb, effect], by simp⟩

theorem freshRecord_run (hb : s.backups path = some c) (hd : captureBoth P s (some path) = some d)
    (os : List Outcome) :
    freshRecord P (some path) s (.done :: os) =
      (.ok { recordValues s.next (some path) (P.fileHash s.live) true with before := some (P.hash c), deps := d },
        { s with saved := some c }, os) := by
  simp only [freshRecord, Bind.bind, Faulty.bind, Faulty.get, newRecord_run hb, hd, stored, Pure.pure, ret]

theorem freshRecord_stop (hb : s.backups path = some c) (ho : os.head? ≠ some .done) :
    ∃ r os', freshRecord P (some path) s os = (r, s, os') ∧ ∀ a, r ≠ .ok a := by
  obtain ⟨r, os', hrun, hr⟩ := newRecord_stop (P := P) (P.fileHash s.live) hb ho
  cases r with
  | ok a => exact absurd rfl (hr a)
  | error e => exact ⟨.error e, os', by simp only [freshRecord, Bind.bind, Faulty.bind, Faulty.get, hrun], by simp⟩
  | cut => exact ⟨.cut, os', by simp only [freshRecord, Bind.bind, Faulty.bind, Faulty.get, hrun], by simp⟩

theorem requireUnchanged_run (h : r.deps.unchanged P.fold s.includes = true) (os : List Outcome) :
    requireUnchanged P r s os = (.ok (), s, os) := by
  simp [requireUnchanged, Bind.bind, Faulty.bind, Faulty.get, require, h, ret]

theorem requireNotPending_run (hp : s.pending = false) (os : List Outcome) : requireNotPending s s os = (.ok (), s, os) := by
  simp [requireNotPending, require, hp, ret]

variable {bytes : Text} {deps : Option Deps}

theorem copied_prepare
    (h : copied P s (.prepare backup bytes deps) = some c) :
    s.pending = false ∧ continuedRecord P s backup (P.hash bytes) = none ∧ ∃ path, backup = some path ∧ s.backups path
      = some c := by
  simp only [copied] at h
  split_ifs at h with hno
  push Not at hno
  refine ⟨by simpa using hno.1, by simpa using hno.2, ?_⟩
  exact Option.bind_eq_some_iff.1 h

variable {firewall : Option Text} {usePrepared : Bool}

theorem copied_arm {due : ℕ}
    (h : copied P s (.arm backup firewall due usePrepared) = some c) :
    s.pending = false ∧ ¬(usePrepared = true ∧ s.journal.any (·.status == .prepared) = true) ∧
      ∃ path, backup = some path ∧ s.backups path = some c := by
  simp only [copied] at h
  split_ifs at h with hno
  refine ⟨?_, fun hu => hno (.inr hu), Option.bind_eq_some_iff.1 h⟩
  have hp : ¬s.pending = true := fun hp => hno (.inl hp)
  simpa using hp

section
variable (hp : s.pending = false)
include hp

theorem prepare_new
    (hnew : continuedRecord P s backup (P.hash bytes) = none) (os : List Outcome) :
    prepare P backup bytes deps s os = (do
      let r ← newRecord P backup (P.hash bytes)
      let d ← stored deps
      write { r with server := some (if backup.isNone then [] else s.serverIdentity true), deps := d }
      issue ⟨s.journal, r.id, false⟩ : M PreparedSave) s os := by
  change Faulty.bind (requireNotPending s) _ s os = _
  unfold Faulty.bind
  rw [requireNotPending_run hp, hnew]
  cases s.journal with
  | none | some => rfl

theorem prepare_continued {old : Record} {kept : Deps}
    (hj : s.journal = some old) (hc : continuedRecord P s backup (P.hash bytes) = some (r, kept)) (os : List Outcome) :
    prepare P backup bytes (some d) s os = (do
      writeContinued { r with deps := kept.union P.fold d } old
      issue ⟨s.journal, r.id, true⟩ : M PreparedSave) s os := by
  change Faulty.bind (requireNotPending s) _ s os = _
  unfold Faulty.bind
  rw [requireNotPending_run hp, hc, hj]
  rfl

theorem exec_arm_new {due : ℕ}
    (hnew : ¬(usePrepared = true ∧ s.journal.any (·.status == .prepared) = true)) (os : List Outcome) :
    exec (arm P backup firewall due usePrepared) s os = exec (do
      let r ← freshRecord P backup
      requireUnchanged P r
      write { r with deadline := some due, firewall := firewall }
      schedule { r with deadline := some due, firewall := firewall }) s os := by
  have harmed : armedRecord P backup usePrepared s = freshRecord P backup s := by
    funext os
    unfold armedRecord
    dsimp only [Bind.bind, Faulty.bind, Faulty.get]
    cases hj : s.journal with
    | none => rfl
    | some r =>
      simp only
      rw [if_neg]
      intro h
      exact hnew (by simpa [hj] using h)
  unfold arm
  rw [exec_get, exec_bind (requireNotPending_run hp os)]
  unfold exec
  change (Faulty.bind _ _ s os).2.1 = (Faulty.bind _ _ s os).2.1
  unfold Faulty.bind
  rw [harmed]

end

/-- **A call keeps the copy with its record.** -/
theorem step_keepsCopy {c : Call} (h : KeepsCopy P s c) : Moves P ⟨Harmless P, fun s' w => s' = s ∧ edits s c.op w⟩ s
    (step P s c) := by
  set g : Guard := ⟨Harmless P, fun s' w => s' = s ∧ edits s c.op w⟩ with hg
  -- without a copy, or with a harmless one, the moves of the call are enough
  have hmoves : (∀ bytes, copied P s c.op = some bytes → Harmless P s bytes) → Moves P g s (step P s c) := by
    intro hharmless
    exact exec_of_wp (wp_program (g := g) (fun _ _ => .tail) c.op hharmless (fun _ he => ⟨rfl, he⟩) .refl) c.outcomes
  by_cases hcopied : ∃ bytes, copied P s c.op = some bytes ∧ ¬Harmless P s bytes
  swap
  · push Not at hcopied
    exact hmoves hcopied
  obtain ⟨bytes, hbytes, hharm⟩ := hcopied
  obtain ⟨op, os⟩ := c
  simp only at hbytes
  cases op with
  | prepare backup content deps =>
    obtain ⟨hp, hnew, path, rfl, hb⟩ := copied_prepare hbytes
    have hstep : step P s ⟨.prepare (some path) content deps, os⟩ = exec (prepare P (some path) content deps) s os := exec_discard
    rw [hstep, exec, prepare_new hp hnew, ← exec]
    by_cases ho : os.head? = some .done
    · obtain ⟨⟨rest, rfl⟩, hdeps⟩ := (h bytes hbytes ho).resolve_right hharm
      obtain ⟨d, rfl⟩ := Option.isSome_iff_exists.1 hdeps
      rw [List.cons_append, exec_bind (newRecord_run hb _)]
      have hplace : Move P g s (({ s with saved := some bytes } : State).write
          { recordValues s.next (some path) (P.hash content) true with
            before := some (P.hash bytes), server := some (s.serverIdentity true), deps := d }) :=
        .place s bytes _ hp ⟨rfl, rfl, rfl, fun _ => ⟨bytes, rfl, rfl⟩⟩
      exact .tail (.single hplace) (.issue _ ⟨s.journal, s.next, false⟩ (by simp))
    · obtain ⟨r, os', hrun, hr⟩ := newRecord_stop _ hb ho
      rw [exec_bind_stop hrun hr]
  | arm backup firewall due usePrepared =>
    obtain ⟨hp, hnew, path, rfl, hb⟩ := copied_arm hbytes
    have hstep : step P s ⟨.arm (some path) firewall due usePrepared, os⟩ = exec
      (arm P (some path) firewall due usePrepared) s os :=
      exec_discard
    rw [hstep, exec_arm_new hp hnew]
    by_cases ho : os.head? = some .done
    · obtain ⟨⟨rest, rfl⟩, hdeps⟩ := (h bytes hbytes ho).resolve_right hharm
      obtain ⟨d, hd⟩ := Option.isSome_iff_exists.1 hdeps
      have hunchanged : d.unchanged P.fold s.includes = true := captureBoth_unchanged hd
      rw [List.cons_append, exec_bind (freshRecord_run hb hd _), exec_bind (requireUnchanged_run hunchanged _)]
      have hplace : Move P g s (({ s with saved := some bytes } : State).write
          { recordValues s.next (some path) (P.fileHash s.live) true with
            before := some (P.hash bytes), deps := d, deadline := some due, firewall := firewall }) :=
        .place s bytes _ hp ⟨rfl, rfl, rfl, fun _ => ⟨bytes, rfl, rfl⟩⟩
      exact exec_of_wp (wp_schedule (fun _ _ => .tail) rfl rfl rfl (.single hplace)) rest
    · obtain ⟨r, os', hrun, hr⟩ := freshRecord_stop (P := P) hb ho
      rw [exec_bind_stop hrun hr]
  | unprepare | confirm | confirmAsync | setDeadline | recover | abandon | reportFailure | outside => cases hbytes

theorem copyInv_run (h : Initial s) (calls : List Call) (hk : Runs.Always (step P) (KeepsCopy P) s calls) :
    CopyInv P (Runs.run (step P) s calls) := by
  apply Runs.run_inv _ calls (copyInv_initial h) hk
  intro s c hs hc
  exact step_of_moves (fun _ _ => copyInv_move (fun _ _ hg => hg)) (step_keepsCopy hc) hs

/-- **The copy belongs to the record.** If every call that replaces the copy goes on to write its record, or the copy is the one
the unsettled record names anyway, then in every state reached an unsettled record with a previous file finds it in
`previous.config`. -/
theorem copy_of_record (P : Platform) (s : State) (h : Initial s) (calls : List Call)
    (hk : Runs.Always (step P) (KeepsCopy P) s calls) : OwnCopy P (Runs.run (step P) s calls) :=
  (copyInv_run h calls hk).own

/-! ## A copy without its record -/

/-- a hash that is told from a missing file, and files without Include lines -/
def plainPlatform : Platform where
  hash := List.cons 'h'
  hash_injective := List.cons_injective
  hash_ne_nil := List.cons_ne_nil 'h'
  fold := id
  capture := fun _ _ => some ⟨[], []⟩
  capture_unchanged := by
    intro inc c d h
    simp only [Option.some.injEq] at h
    subst h
    rfl

def oldText : Text := "Port 22"
def newText : Text := "Port 2222"
def newestText : Text := "Port 2200"
def firstBackup : Text := "sshd_config.bak.1"
def secondBackup : Text := "sshd_config.bak.2"

/-- two backups, the first change in place, no sshd running -/
def twoBackups : State where
  journal := none
  saved := none
  live := some newText
  backups := fun p => if p = firstBackup then some oldText else if p = secondBackup then some newText else none
  includes := ⟨fun _ => none, fun _ => []⟩
  server := []
  changed := false
  next := 0
  tokens := []
  log := []

theorem twoBackups_initial : Initial twoBackups := ⟨rfl, rfl, rfl⟩

def firstSave : Call := ⟨.prepare (some firstBackup) newText (some ⟨[], []⟩), [.done, .done]⟩

/-- the process ends after the copy -/
def cutSave : Call := ⟨.prepare (some secondBackup) newestText (some ⟨[], []⟩), [.done, .cut]⟩

/-- **A copy without its record.** The first save is recorded; the second one replaces the copy and is cut. -/
theorem copy_without_record : ¬OwnCopy plainPlatform (Runs.run (step plainPlatform) twoBackups [firstSave, cutSave]) := by
  intro h
  obtain ⟨c, hc, hb⟩ := h { recordValues 0 (some firstBackup) (plainPlatform.hash newText) true with
    before := some (plainPlatform.hash oldText), server := some [] } (by decide) rfl rfl
  have hsaved : (Runs.run (step plainPlatform) twoBackups [firstSave, cutSave]).saved = some newText := by decide
  rw [hsaved, Option.some.injEq] at hc
  subst hc
  exact absurd hb (by decide)

def armFirst : Call := ⟨.arm (some firstBackup) none 5 true, [.done, .done, .done]⟩

theorem armFirst_keepsCopy : Runs.Always (step plainPlatform) (KeepsCopy plainPlatform) twoBackups [firstSave, armFirst] := by
  refine ⟨?_, ?_, trivial⟩
  · intro bytes _ _
    exact .inl ⟨⟨[], rfl⟩, rfl⟩
  · intro bytes hbytes
    cases hbytes

/-- a save that is armed keeps its copy -/
theorem copy_of_armed_record :
    (Runs.run (step plainPlatform) twoBackups [firstSave, armFirst]).pending = true ∧
      OwnCopy plainPlatform (Runs.run (step plainPlatform) twoBackups [firstSave, armFirst]) :=
  ⟨by decide, copy_of_record plainPlatform twoBackups twoBackups_initial _ armFirst_keepsCopy⟩

end OpenSSHServerPN.Recovery
