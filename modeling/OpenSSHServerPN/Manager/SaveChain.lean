/-
Saves without a restart, and what a rollback then returns to (`ConfigurationTransaction.cs`: `Save`).

Model: a save backs up the live file, has `Prepare` record the change, replaces the live file and prunes old backups; a failed
replacement is undone by `Unprepare`. The candidate's checks before the lock (encoding, `sshd -t`, the snapshot of its Include
files) are part of the call. `saveStep` keeps the backup path of the latest save that returned.

While one sshd runs, the record of a save continues the one before, so that the rollback copy stays the file that sshd loaded.
A continued save that is cut between its record and the replacement of `sshd_config` leaves a record of bytes that were never
written; the next save then starts a new chain, from a file sshd never ran.

Results:
- `rollback_to_loaded`: if no save is cut there, arming from the latest successful save and recovering restores the bytes sshd
  loaded;
- `rollback_to_unloaded`: a save that is cut there, between two saves that succeed.
-/
import OpenSSHServerPN.Manager.CommitConfirmed

namespace OpenSSHServerPN.Recovery

open Match Faulty List

variable (P : Platform)

/-! ## Save -/

structure Candidate where
  bytes : Text
  /-- no exception before the lock: the text can be written and `sshd -t` accepts it -/
  accepted : Bool
  /-- the snapshot of the loaded file and the candidate; `none` if it raised an exception -/
  deps : Option Deps
  loadedHash : Option Text

structure SaveCall where
  candidate : Candidate
  overwrite : Bool
  /-- `NewBackupPath` -/
  backup : Text
  /-- what `PruneBackups` deletes -/
  pruned : Text → Bool
  outcomes : List Outcome

/-- the live file is copied to a path that is not taken -/
def backupLive (path : Text) : M (Option Text) := do
  let s ← get
  match s.live with
  | none => pure none
  | some c =>
    require (s.backups path).isNone "The backup exists."
    effect "The backup could not be written."
      (fun s => { s with backups := fun p => if p = path then some c else s.backups p })
    pure (some path)

/-- the last checks and the atomic replacement -/
def replaceLive (bytes : Text) (d : Deps) (original : Text) : M Unit := do
  let s ← get
  require (d.unchanged P.fold s.includes) "An included configuration changed."
  require (P.fileHash s.live == original)
    "The configuration changed before its atomic replacement. No changes were saved."
  effect "Atomic write failed; the existing file was not overwritten in place."
    (fun s => { s with live := some bytes, changed := true })

/-- a save that fails puts its record back, and a failure of that is only logged -/
def orUnprepare (t : PreparedSave) (m : M Unit) : M Unit :=
  attempt m fun e => do
    attempt (unprepare t) (fun _ => pure ())
    throw e

def pruneBackups (pruned : Text → Bool) : M Unit :=
  attempt (effect "A backup could not be deleted."
    (fun s => { s with backups := fun p => if pruned p then none else s.backups p })) (fun _ => pure ())

/-- `Save` -/
def save (c : SaveCall) : M (Option Text) := do
  require c.candidate.accepted "The configuration was NOT saved because sshd rejected it."
  let d ← stored c.candidate.deps
  let s ← get
  requireNotPending s
  require (d.unchanged P.fold s.includes) "An included configuration changed."
  require (c.overwrite || c.candidate.loadedHash.all (· == P.fileHash s.live))
    "sshd_config was changed by another program after this window read it."
  let now ← stored (P.captureFile s.includes s.live)
  let path ← backupLive c.backup
  let t ← prepare P path c.candidate.bytes (some (d.union P.fold now))
  orUnprepare t (replaceLive P c.candidate.bytes (d.union P.fold now) (P.fileHash s.live))
  pruneBackups c.pruned
  pure path

/-- the state and the backup of the latest save that returned -/
def saveStep (x : State × Option Text) (c : SaveCall) : State × Option Text :=
  match save P c x.1 c.outcomes with
  | (.ok path, s, _) => (s, path)
  | (_, s, _) => (s, x.2)

/-! ## The chain -/

/-- the next save continues the record -/
def continues (s : State) : Bool := (continuedRecord P s none []).isSome

/-- the outcomes after the record: the file is replaced and the call returns, or the record of a continued save goes back -/
def Finishes (continued : Bool) : List Outcome → Prop
  | [.done] => False
  | .done :: o :: _ => o ≠ .cut
  | .failed :: .done :: _ => True
  | _ => continued = false

/-- the save is not cut, and does not leave its record behind, once that is written -/
def Whole (s : State) (c : SaveCall) : Prop :=
  ∀ rest, c.outcomes = (if continues P s then [.done, .done] else [.done, .done, .done]) ++ rest →
    Finishes (continues P s) rest

/-- `loaded` is what the sshd with identity `p` loaded; every record it made goes back to that -/
structure ChainInv (p loaded : Text) (s : State) (last : Option Text) : Prop where
  server : s.server = p
  notPending : s.pending = false
  live : s.live.isSome = true
  fresh : s.changed = false → s.live = some loaded
  target : ∀ r, s.journal = some r → r.status = .prepared → r.server = some p →
    r.previous = true ∧ s.saved = some loaded ∧ r.before = some (P.hash loaded)
  tip : s.changed = true → ∃ r, s.journal = some r ∧ r.status = .prepared ∧ r.server = some p ∧
    r.applied = P.fileHash s.live ∧ r.deps.unchanged P.fold s.includes = true
  last : ∀ b, last = some b → s.changed = true ∧ ∃ r, s.journal = some r ∧ r.backupPath = some b

variable {P} {p loaded : Text} {s s' : State} {last : Option Text}

/-- two states that differ in the journal, the backups and the history at most -/
structure SameFiles (s s' : State) : Prop where
  saved : s'.saved = s.saved
  live : s'.live = s.live
  includes : s'.includes = s.includes
  server : s'.server = s.server
  changed : s'.changed = s.changed

theorem ChainInv.congr (h : ChainInv P p loaded s last) (hf : SameFiles s s') (hj : s'.journal = s.journal) :
    ChainInv P p loaded s' last where
  server := hf.server.trans h.server
  notPending := by
    have hp := h.notPending
    unfold State.pending
    rwa [hj]
  live := hf.live ▸ h.live
  fresh := by rw [hf.changed, hf.live]; exact h.fresh
  target := by rw [hj, hf.saved]; exact h.target
  tip := by rw [hf.changed, hj, hf.live, hf.includes]; exact h.tip
  last := by rw [hf.changed, hj]; exact h.last

variable {applied : Text}

/-- whether a record is continued depends on neither the backup nor the bytes -/
theorem continues_iff {backup : Option Text} (hf : SameFiles s s') (hj : s'.journal = s.journal) :
    (continuedRecord P s' backup applied).isSome = continues P s := by
  unfold continues continuedRecord State.serverIdentity
  rw [hj, hf.saved, hf.live, hf.includes, hf.server]
  cases s.journal with
  | none => rfl
  | some r =>
    simp only
    cases r.server with
    | none => rfl
    | some server =>
      simp only [Bool.false_and]
      split_ifs <;> rfl

/-- a record of this sshd for the file in place is continued -/
theorem ChainInv.continues_of_changed (h : ChainInv P p loaded s last) (hp : p ≠ []) (hc : s.changed = true) :
    continues P s = true := by
  obtain ⟨r, hj, hstatus, hserver, happlied, hdeps⟩ := h.tip hc
  obtain ⟨hprev, hsaved, hbefore⟩ := h.target r hj hstatus hserver
  have hcopy : r.before = some (P.fileHash s.saved) := by rw [hsaved, hbefore]; rfl
  unfold continues continuedRecord
  simp [hj, hserver, hstatus, hp, State.serverIdentity, h.server, happlied, hcopy, hdeps]

variable {r : Record} {d : Deps} {path : Text} {c : SaveCall} {rest : List Outcome}

theorem continuedRecord_some {backup : Option Text} {kept : Deps}
    (h : continuedRecord P s backup applied = some (r, kept)) :
    ∃ old server, s.journal = some old ∧ old.status = .prepared ∧ old.server = some server ∧ server = s.server ∧
      r = { recordValues s.next backup applied old.previous with
        before := if old.previous then old.before else none, server := some server } ∧
      old.deps.unchanged P.fold s.includes = true ∧ kept = old.deps ∧ old.applied = P.fileHash s.live := by
  unfold continuedRecord at h
  cases hj : s.journal with
  | none => simp [hj] at h
  | some old =>
    cases hserver : old.server with
    | none => simp [hj, hserver] at h
    | some server =>
      simp only [hj, hserver] at h
      split_ifs at h with hstatus happlied hcopy hdeps <;> push Not at hstatus happlied <;>
      · simp only [Option.some.injEq, Prod.mk.injEq] at h
        refine ⟨old, server, rfl, hstatus.1, hserver, hstatus.2.2, ?_, ?_, h.2.symm, happlied⟩
        · rw [← h.1]
          simp [*]
        · simpa using hdeps

/-! ## One save -/

variable {bytes : Text} {t : PreparedSave} {Q : Unit → State → List Outcome → Prop}

/-- `Unprepare`, then the exception -/
abbrev backThenThrow (t : PreparedSave) (e : Text) : M Unit := do
  attempt (unprepare t) (fun _ => pure ())
  throw e

/-- the rest of a save that found the file of `s`, once its record is written -/
abbrev putInPlace (P : Platform) (bytes : Text) (d : Deps) (pruned : Text → Bool) (path : Text) (s : State)
    (t : PreparedSave) : M (Option Text) := do
  orUnprepare t (replaceLive P bytes d (P.fileHash s.live))
  pruneBackups pruned
  pure (some path)

/-- a result of the run is the latest save; without one it is still `last` -/
abbrev KeepsChain (P : Platform) (p loaded : Text) (last : Option Text)
    (x : Faulty.Result Text (Option Text) × State × List Outcome) : Prop :=
  Ends x (fun path s' _ => ChainInv P p loaded s' path) (fun s' _ => ChainInv P p loaded s' last)
    fun s' => ChainInv P p loaded s' last

section Parts

variable {os : List Outcome} {α : Type} {E : State → List Outcome → Prop} {C : State → Prop}

theorem ends_stored {d : Option Deps} {Q : Deps → State → List Outcome → Prop} (hq : ∀ x, d = some x → Q x s os) (he : E s os) :
    Ends (stored d s os) Q E C := by
  cases d with
  | none => exact ends_throw he
  | some x => exact ends_pure (hq x rfl)

theorem ends_backupLive {Q : Option Text → State → List Outcome → Prop} (hlive : s.live.isSome = true)
    (hq : ∀ backups os', os = .done :: os' → backups path = s.live → Q (some path) { s with backups := backups } os')
    (he : ∀ os', E s os') (hc : C s) :
    Ends (backupLive path s os) Q E C := by
  apply ends_get
  obtain ⟨c, hl⟩ := Option.isSome_iff_exists.1 hlive
  rw [hl]
  apply ends_bind
  apply ends_require
  · intro _
    apply ends_bind
    apply ends_effect
    · intro os' hos
      exact ends_pure (hq _ os' hos (by simp [hl]))
    · intro os' _
      exact he os'
    · intro _
      exact hc
  · exact he os

theorem ends_newRecord {c : Text} {Q : Record → State → List Outcome → Prop} (hb : s.backups path = some c)
    (hq : ∀ os', os = .done :: os' →
      Q { recordValues s.next (some path) applied true with before := some (P.hash c) } { s with saved := some c } os')
    (he : ∀ os', E s os') (hc : C s) : Ends (newRecord P (some path) applied s os) Q E C := by
  apply ends_get
  simp only [hb]
  apply ends_bind
  apply ends_effect
  · intro os' hos
    exact ends_get (ends_pure (hq os' hos))
  · intro os' _
    exact he os'
  · intro _
    exact hc

theorem ends_replaceLive {original : Text}
    (hd : d.unchanged P.fold s.includes = true) (ho : P.fileHash s.live = original)
    (hdone : ∀ os', os = .done :: os' → Q () { s with live := some bytes, changed := true } os')
    (hfail : ∀ os' (e : Text), os = .failed :: os' → Ends (backThenThrow t e s os') Q E C)
    (hcut : os.head? = some .cut ∨ os = [] → C s) : Ends (orUnprepare t (replaceLive P bytes d original) s os) Q E C := by
  apply ends_attempt
  apply ends_get
  apply ends_bind
  apply ends_require_true hd
  apply ends_bind
  apply ends_require_true (by simp [ho])
  apply ends_effect
  · exact hdone
  · intro os' hos e
    exact hfail os' e hos
  · exact hcut

theorem ends_pruneBackups {pruned : Text → Bool}
    (hq : ∀ backups os', Q () { s with backups := backups } os') (hcut : os.head? = some .cut ∨ os = [] → C s) :
    Ends (pruneBackups pruned s os) Q E C := by
  apply ends_attempt
  apply ends_effect
  · intro os' _
    exact hq _ os'
  · intro os' _ _
    exact ends_pure (hq s.backups os')
  · exact hcut

end Parts

/-- a record of this sshd that goes back to what it loaded -/
structure Link (P : Platform) (p loaded : Text) (s : State) (r : Record) : Prop where
  journal : s.journal = some r
  status : r.status = .prepared
  server : r.server = some p
  previous : r.previous = true
  before : r.before = some (P.hash loaded)
  saved : s.saved = some loaded

variable {b : Text}

theorem chainInv_saved (hserver : s.server = p) (hr : Link P p loaded s r)
    (happlied : r.applied = P.hash bytes) (hdeps : r.deps.unchanged P.fold s.includes = true) (hpath : r.backupPath = some b)
    (backups : Text → Option Text) :
    ChainInv P p loaded { s with live := some bytes, changed := true, backups := backups } (some b) where
  server := hserver
  notPending := by simp [State.pending, hr.journal, hr.status]
  live := rfl
  fresh := fun h => by cases h
  target := by
    intro x hx _ _
    have hx' : s.journal = some x := hx
    rw [hr.journal, Option.some.injEq] at hx'
    subst hx'
    exact ⟨hr.previous, hr.saved, hr.before⟩
  tip := fun _ => ⟨r, hr.journal, hr.status, hr.server, happlied, hdeps⟩
  last := by
    intro x hx
    simp only [Option.some.injEq] at hx
    subst hx
    exact ⟨rfl, r, hr.journal, hpath⟩

theorem Finishes.not_cut_prune {b : Bool} (h : Finishes b (.done :: rest)) :
    ¬(rest.head? = some .cut ∨ rest = []) := by
  intro hc
  cases rest with
  | nil => exact h
  | cons o rest =>
    simp only [head?_cons, Option.some.injEq, reduceCtorEq, or_false] at hc
    exact h hc

theorem Finishes.failed_done (h : Finishes true (.failed :: rest)) : ∃ rest', rest = .done :: rest' := by
  cases rest with
  | nil => cases h
  | cons o rest =>
    cases o with
    | done => exact ⟨rest, rfl⟩
    | failed | cut => cases h

theorem Finishes.not_cut (h : Finishes true rest) : ¬(rest.head? = some .cut ∨ rest = []) := by
  intro hc
  rcases hc with hc | rfl
  · cases rest with
    | nil => cases hc
    | cons o rest =>
      simp only [head?_cons, Option.some.injEq] at hc
      subst hc
      cases h
  · cases h

theorem chain_finish {pruned : Text → Bool}
    {continued : Bool} (hserver : s.server = p) (hr : Link P p loaded s r) (happlied : r.applied = P.hash bytes)
    (hdeps : r.deps.unchanged P.fold s.includes = true) (hpath : r.backupPath = some b)
    (hd : d.unchanged P.fold s.includes = true) (hw : Finishes continued rest)
    (hfail : ∀ os' (e : Text), rest = .failed :: os' → Ends (backThenThrow t e s os') (fun _ _ _ => False)
      (fun s' _ => ChainInv P p loaded s' last) (fun s' => ChainInv P p loaded s' last))
    (hcut : rest.head? = some .cut ∨ rest = [] → ChainInv P p loaded s last) :
    KeepsChain P p loaded last (putInPlace P bytes d pruned b s t s rest) := by
  apply ends_bind
  apply ends_replaceLive hd rfl
  · -- the file is replaced; pruning does not matter unless it is cut
    intro rest' hrest
    subst hrest
    apply ends_bind
    apply ends_pruneBackups
    · intro backups os'
      exact ends_pure (chainInv_saved hserver hr happlied hdeps hpath backups)
    · intro hc
      exact absurd hc hw.not_cut_prune
  · intro os' e hos
    exact ends_mono (hfail os' e hos) (fun _ _ _ h => h.elim) (fun _ _ h => h) (fun _ h => h)
  · exact hcut

variable {os : List Outcome}

theorem ends_unprepare {old : Record} {s₁ : State} (h : ChainInv P p loaded s₁ last) (hf : SameFiles s₁ s)
    (hold : s₁.journal = some old) (hj : s.journal = some r) (hr : r.status = .prepared) (e : Text) :
    Ends (backThenThrow ⟨some old, r.id, true⟩ e s (.done :: os)) (fun _ _ _ => False)
      (fun s' _ => ChainInv P p loaded s' last) (fun s' => ChainInv P p loaded s' last) := by
  apply ends_bind
  apply ends_attempt
  apply ends_get
  rw [hj]
  simp only [hr, and_self, if_true]
  apply ends_effect
  · intro os' _
    exact h.congr { hf with } (by rw [hold]; rfl)
  · intro os' hne
    cases hne
  · intro hne
    simp at hne

theorem ends_unprepare_new {E : State → List Outcome → Prop} {C : State → Prop}
    (ht : t.continued = false) (e : Text) (h : E s os) :
    Ends (backThenThrow t e s os) Q E C := by
  have hrun : unprepare t s os = (.ok (), s, os) := by
    simp only [unprepare, ht, Bind.bind, Faulty.bind, Faulty.get]
    cases s.journal with
    | none => rfl
    | some r =>
      cases t.previous with
      | none | some => rfl
  apply ends_bind
  apply ends_attempt
  rw [hrun]
  exact h

section
variable (h : ChainInv P p loaded s last)
include h

/-- **A continued save.** It returns with the file replaced, or its record goes back. -/
theorem chain_continued {old : Record} {kept : Deps} (hd : d.unchanged P.fold s.includes = true) (hj : s.journal = some old)
    (hc : continuedRecord P s (some path) (P.hash c.candidate.bytes) = some (r, kept))
    (hw : ∀ rest, os = .done :: rest → Finishes true rest) :
    Ends ((do
      writeContinued { r with deps := kept.union P.fold d } old
      issue ⟨s.journal, r.id, true⟩ : M PreparedSave) s os)
      (fun t s' os' => KeepsChain P p loaded last (putInPlace P c.candidate.bytes d c.pruned path s t s' os'))
      (fun s' _ => ChainInv P p loaded s' last) (fun s' => ChainInv P p loaded s' last) := by
  obtain ⟨old', server, hj', hstatus, hserver, hp, hr, hkept, hdepsEq, _⟩ := continuedRecord_some hc
  rw [hj, Option.some.injEq] at hj'
  subst hj' hdepsEq
  rw [h.server] at hp
  subst hp
  obtain ⟨hprev, hsaved, hbefore⟩ := h.target old hj hstatus hserver
  have hrstatus : r.status = .prepared := by rw [hr]; rfl
  have hrserver : r.server = some server := by rw [hr]
  have hrprev : r.previous = true := by rw [hr]; exact hprev
  have hrbefore : r.before = some (P.hash loaded) := by rw [hr]; simp [hprev, hbefore]
  have hrapplied : r.applied = P.hash c.candidate.bytes := by rw [hr]; rfl
  have hrpath : r.backupPath = some path := by rw [hr]; rfl
  apply ends_bind
  apply ends_effect
  · intro rest hos
    apply ends_bind
    apply ends_modify
    apply ends_pure
    refine chain_finish h.server
      ⟨rfl, hrstatus, hrserver, hrprev, hrbefore, hsaved⟩ hrapplied (Deps.union_unchanged hkept hd) hrpath hd (hw rest hos) ?_ ?_
    · intro os' e hrest
      obtain ⟨rest', rfl⟩ := (hrest ▸ hw rest hos).failed_done
      rw [hj]
      refine ends_unprepare (r := { r with deps := old.deps.union P.fold d }) h ?_ hj ?_ hrstatus e
      · exact ⟨rfl, rfl, rfl, rfl, rfl⟩
      · rfl
    · intro hcut
      exact absurd hcut (hw rest hos).not_cut
  · intro os' _
    exact h
  · intro _
    exact h

/-- **A new record.** Only the first save makes one, and it backs up what sshd loaded. -/
theorem chain_new (hp : p ≠ [])
    (hd : d.unchanged P.fold s.includes = true) (hc : continues P s = false) (hb : s.backups path = s.live)
    (hw : ∀ rest, os = .done :: .done :: rest → Finishes false rest) :
    Ends ((do
      let r ← newRecord P (some path) (P.hash c.candidate.bytes)
      let d ← stored (some d)
      write { r with server := some (if (some path).isNone then [] else s.serverIdentity true), deps := d }
      issue ⟨s.journal, r.id, false⟩ : M PreparedSave) s os)
      (fun t s' os' => KeepsChain P p loaded last (putInPlace P c.candidate.bytes d c.pruned path s t s' os'))
      (fun s' _ => ChainInv P p loaded s' last) (fun s' => ChainInv P p loaded s' last) := by
  have hchanged : s.changed = false := by
    cases hch : s.changed with
    | false => rfl
    | true =>
      rw [h.continues_of_changed hp hch] at hc
      cases hc
  have hlive : s.live = some loaded := h.fresh hchanged
  have hlast : ∀ b, last ≠ some b := by
    intro b hb
    have hch := (h.last b hb).1
    rw [hchanged] at hch
    cases hch
  -- until the file is replaced, any state with these files will do
  have hopen : ∀ s' : State, s'.server = s.server → s'.pending = false → s'.live = s.live → s'.changed = s.changed →
      (∀ r, s'.journal = some r → r.status = .prepared → r.server = some p →
        r.previous = true ∧ s'.saved = some loaded ∧ r.before = some (P.hash loaded)) → ChainInv P p loaded s' last := by
    intro s' h1 h2 h3 h4 h5
    refine ⟨h1.trans h.server, h2, h3 ▸ h.live, fun _ => h3.trans hlive, h5, ?_, fun b hb => absurd hb (hlast b)⟩
    intro hch
    rw [h4, hchanged] at hch
    cases hch
  apply ends_bind
  apply ends_newRecord (hb.trans hlive)
  · intro os₁ hos₁
    have hcopy : ChainInv P p loaded { s with saved := some loaded } last := by
      refine hopen { s with saved := some loaded } rfl h.notPending rfl rfl ?_
      intro r hj hstatus hserver
      obtain ⟨hprev, _, hbefore⟩ := h.target r hj hstatus hserver
      exact ⟨hprev, rfl, hbefore⟩
    apply ends_bind
    apply ends_bind
    apply ends_effect
    · intro rest hos
      have hidentity : s.serverIdentity true = p := by simp [State.serverIdentity, hchanged, h.server]
      -- a record whose bytes are not in place yet
      have hwritten : ∀ s' : State, s'.journal = some { recordValues s.next (some path) (P.hash c.candidate.bytes) true with
          before := some (P.hash loaded), server := some (s.serverIdentity true), deps := d } → s'.saved = some loaded →
          s'.server = s.server → s'.live = s.live → s'.changed = s.changed → s'.includes = s.includes →
          ChainInv P p loaded s' last := by
        intro s' h1 h2 h3 h4 h5 _
        refine hopen s' h3 (by simp [State.pending, h1, recordValues]) h4 h5 ?_
        intro r hj _ _
        rw [h1, Option.some.injEq] at hj
        subst hj
        exact ⟨rfl, h2, rfl⟩
      apply ends_bind
      apply ends_modify
      apply ends_pure
      refine chain_finish h.server
        ⟨rfl, rfl, congrArg some hidentity, rfl, rfl, rfl⟩ rfl hd rfl hd (hw rest (by rw [hos₁, hos])) ?_ ?_
      · intro os' e _
        exact ends_unprepare_new rfl e (hwritten _ rfl rfl rfl rfl rfl rfl)
      · intro _
        exact hwritten _ rfl rfl rfl rfl rfl rfl
    · intro os' _
      exact hcopy
    · intro _
      exact hcopy
  · intro os'
    exact h
  · exact h

/-- **One save keeps the chain.** However it ends. -/
theorem chain_save (hp : p ≠ []) (hw : Whole P s c) : KeepsChain P p loaded last (save P c s c.outcomes) := by
  apply ends_bind
  refine ends_require (fun _ => ?_) h
  apply ends_bind
  refine ends_stored (fun d _ => ?_) h
  apply ends_get
  apply ends_bind
  apply ends_require_true (by simp [h.notPending])
  apply ends_bind
  refine ends_require (fun hd => ?_) h
  apply ends_bind
  refine ends_require (fun _ => ?_) h
  apply ends_bind
  refine ends_stored (fun now hnow => ?_) h
  have hdeps : (d.union P.fold now).unchanged P.fold s.includes = true :=
    Deps.union_unchanged hd (captureFile_unchanged hnow)
  apply ends_bind
  refine ends_backupLive h.live ?_ (fun _ => h) h
  intro backups os hos hb
  have h₁ : ChainInv P p loaded { s with backups := backups } last := h.congr ⟨rfl, rfl, rfl, rfl, rfl⟩ rfl
  have hcontinues : (continuedRecord P { s with backups := backups } (some c.backup) (P.hash c.candidate.bytes)).isSome =
      continues P s := continues_iff ⟨rfl, rfl, rfl, rfl, rfl⟩ rfl
  apply ends_bind
  cases hc : continuedRecord P { s with backups := backups } (some c.backup) (P.hash c.candidate.bytes) with
  | none =>
    rw [hc] at hcontinues
    rw [prepare_new h₁.notPending hc]
    refine chain_new h₁ hp hdeps ?_ hb ?_
    · exact (continues_iff ⟨rfl, rfl, rfl, rfl, rfl⟩ rfl).symm.trans hcontinues.symm
    · intro rest hrest
      have hfinish := hw rest (by rw [← hcontinues, hos, hrest]; rfl)
      rwa [← hcontinues] at hfinish
  | some x =>
    rw [hc] at hcontinues
    obtain ⟨old, _, hj, _⟩ := continuedRecord_some hc
    rw [prepare_continued h₁.notPending hj hc]
    refine chain_continued h₁ hdeps hj hc ?_
    intro rest hrest
    have hfinish := hw rest (by rw [← hcontinues, hos, hrest]; rfl)
    rwa [← hcontinues] at hfinish

theorem chain_saveStep (hp : p ≠ []) (hw : Whole P s c) :
    ChainInv P p loaded (saveStep P (s, last) c).1 (saveStep P (s, last) c).2 := by
  have hends := chain_save h hp hw
  unfold saveStep
  revert hends
  cases hr : save P c s c.outcomes with
  | mk r rest =>
    cases r with
    | ok | error | cut => exact id

end

/-! ## Arming and recovery -/

theorem completes_arm (firewall : Option Text) (due : ℕ) (hj : s.journal = some r)
    (hr : r.status = .prepared) (hpath : r.backupPath = some b) (happlied : r.applied = P.fileHash s.live)
    (hdeps : r.deps.unchanged P.fold s.includes = true) :
    Completes (arm P (some b) firewall due true) s 3 fun _ s' =>
      SameFiles s s' ∧ ∃ r', s'.journal = some r' ∧ Same r r' ∧ r'.status = .pending ∧ r'.deadline = some due ∧
        r'.deps = r.deps := by
  have hpending : s.pending = false := by simp [State.pending, hj, hr]
  apply completes_get
  apply completes_bind 0 3 rfl
  apply completes_require (by simp [hpending])
  apply completes_bind 0 3 rfl
  · apply completes_get
    simp only [hj, hr]
    apply completes_bind 0 0 rfl
    apply completes_require (by simp [hpath])
    apply completes_bind 0 0 rfl
    apply completes_require (by simp [happlied])
    apply completes_pure 0
    apply completes_bind 0 3 rfl
    apply completes_require hdeps
    apply completes_bind 1 2 rfl
    apply completes_effect
    apply completes_bind 2 0 rfl
    apply completes_attempt
    apply completes_bind 1 1 rfl
    apply completes_effect
    apply completes_effect
    apply completes_pure 0
    exact ⟨⟨rfl, rfl, rfl, rfl, rfl⟩, _, rfl, ⟨rfl, rfl, rfl, rfl⟩, rfl, rfl, rfl⟩

/-- the start: what sshd loaded is in place, and a record of this sshd goes back to it -/
structure Started (P : Platform) (p loaded : Text) (s : State) : Prop where
  running : p ≠ []
  server : s.server = p
  live : s.live = some loaded
  unchanged : s.changed = false
  notPending : s.pending = false
  target : ∀ r, s.journal = some r → r.status = .prepared → r.server = some p →
    r.previous = true ∧ s.saved = some loaded ∧ r.before = some (P.hash loaded)

theorem Started.chainInv (h : Started P p loaded s) : ChainInv P p loaded s none where
  server := h.server
  notPending := h.notPending
  live := by rw [h.live]; rfl
  fresh := fun _ => h.live
  target := h.target
  tip := fun hc => by rw [h.unchanged] at hc; cases hc
  last := fun b hb => by cases hb

/-- **Rollback returns to what sshd runs.** Any saves, none of them cut between its record and the end of the call nor leaving a
continued record behind: armed from the latest one that returned, recovery puts back the bytes sshd loaded. -/
theorem rollback_to_loaded (P : Platform) (p loaded : Text) (s : State) (h : Started P p loaded s) (saves : List SaveCall)
    (hw : Runs.Always (saveStep P) (fun x c => Whole P x.1 c) (s, none) saves) (b : Text)
    (hb : (Runs.run (saveStep P) (s, none) saves).2 = some b) (firewall : Option Text) (due now : ℕ) (force : Bool) (k k' : ℕ)
    (hdue : force = true ∨ due ≤ now) (hk : 3 ≤ k) (hk' : 7 ≤ k') :
    (step P (step P (Runs.run (saveStep P) (s, none) saves).1 ⟨.arm (some b) firewall due true, List.replicate k .done⟩)
      ⟨.recover now force none, List.replicate k' .done⟩).live = some loaded := by
  have hchain : ChainInv P p loaded (Runs.run (saveStep P) (s, none) saves).1 (Runs.run (saveStep P) (s, none) saves).2 :=
    Runs.run_inv (I := fun x : State × Option Text => ChainInv P p loaded x.1 x.2)
      (fun _ _ hx hc => chain_saveStep hx h.running hc) saves h.chainInv hw
  generalize Runs.run (saveStep P) (s, none) saves = x at hb hchain
  obtain ⟨hchanged, r, hj, hpath⟩ := hchain.last b hb
  obtain ⟨r', hj', hstatus, hserver, happlied, hdeps⟩ := hchain.tip hchanged
  rw [hj, Option.some.injEq] at hj'
  subst hj'
  obtain ⟨hprev, hsaved, hbefore⟩ := hchain.target r hj hstatus hserver
  -- the record becomes pending, the files stay
  have harm := exec_of_completes (completes_arm firewall due hj hstatus hpath happlied hdeps) hk
  have hstep : step P x.1 ⟨.arm (some b) firewall due true, replicate k .done⟩ =
      exec (arm P (some b) firewall due true) x.1 (replicate k .done) := exec_discard
  rw [hstep]
  generalize exec (arm P (some b) firewall due true) x.1 (replicate k .done) = s₁ at harm
  obtain ⟨hfiles, r₁, hj₁, hsame, hpending, hdeadline, hdeps₁⟩ := harm
  have hbefore₁ : beforeHash r₁ = some (P.hash loaded) := by
    rw [hsame.beforeHash_eq, beforeHash, if_pos hprev, hbefore]
  have hdue₁ : dueNow r₁ now force = some true := by
    unfold dueNow
    rcases hdue with rfl | hle
    · rfl
    · split_ifs
      · rfl
      · simp [hdeadline, hle]
  have hrecover := exec_of_completes (completes_recoverPending (P := P) _ none hj₁ hpending (by simp) hdue₁ hbefore₁
    (.inl (by rw [hfiles.live, hsame.applied, happlied])) (by rw [hdeps₁, hfiles.includes]; exact hdeps)
    (fun _ => by rw [hfiles.saved, hsaved]; rfl)) hk'
  have hlast : step P s₁ ⟨.recover now force none, replicate k' .done⟩ =
      exec (recoverPending P now force none) s₁ (replicate k' .done) := exec_discard
  rw [hlast]
  obtain ⟨_, _, _, _, hlive⟩ := hrecover
  cases hl : (exec (recoverPending P now force none) s₁ (replicate k' .done)).live with
  | none =>
    rw [hl] at hlive
    exact absurd hlive.symm (P.hash_ne_nil loaded)
  | some c =>
    rw [hl] at hlive
    exact congrArg some (P.hash_injective hlive)

/-! ## A chain that breaks -/

def sshdProcess : Text := "1234@1"
def thirdBackup : Text := "sshd_config.bak.3"

/-- sshd runs with the old file -/
def runningState : State where
  journal := none
  saved := none
  live := some oldText
  backups := fun _ => none
  includes := ⟨fun _ => none, fun _ => []⟩
  server := sshdProcess
  changed := false
  next := 0
  tokens := []
  log := []

def saveOf (bytes backup : Text) (outcomes : List Outcome) : SaveCall :=
  ⟨⟨bytes, true, some ⟨[], []⟩, none⟩, false, backup, fun _ => false, outcomes⟩

/-- backup, rollback copy, record, file and pruning -/
def newSave : SaveCall := saveOf newText firstBackup [.done, .done, .done, .done, .done]

/-- backup, record, file and pruning -/
def nextSave : SaveCall := saveOf newestText secondBackup [.done, .done, .done, .done]

/-- backup and record; the process ends before the file is replaced -/
def brokenSave : SaveCall := saveOf newestText secondBackup [.done, .done, .cut]

def lastSave : SaveCall := saveOf newestText thirdBackup [.done, .done, .done, .done, .done]

/-- armed from a backup and left to run until it is due -/
def rolledBack (s : State) (b : Text) : State :=
  step plainPlatform (step plainPlatform s ⟨.arm (some b) none 5 true, List.replicate 3 .done⟩)
    ⟨.recover 5 false none, List.replicate 7 .done⟩

/-- **A rollback to a file sshd never ran.** The save in the middle is cut after its record; the last one succeeds, and its
rollback restores what the first save wrote. -/
theorem rollback_to_unloaded :
    (Runs.run (saveStep plainPlatform) (runningState, none) [newSave, brokenSave, lastSave]).2 = some thirdBackup ∧
      (rolledBack (Runs.run (saveStep plainPlatform) (runningState, none) [newSave, brokenSave, lastSave]).1 thirdBackup).live =
        some newText ∧ newText ≠ oldText := by
  decide

/-- two saves that succeed roll back to what sshd loaded -/
theorem rollback_of_two_saves :
    (rolledBack (Runs.run (saveStep plainPlatform) (runningState, none) [newSave, nextSave]).1
    secondBackup).live = some oldText := by
  refine rollback_to_loaded plainPlatform sshdProcess oldText runningState
    ⟨by decide, rfl, rfl, rfl, rfl, by simp [runningState]⟩ [newSave, nextSave] ⟨?_, ?_, trivial⟩
    secondBackup (by decide) none 5 5 false 3 7 (.inr le_rfl) le_rfl le_rfl
  · intro rest hrest
    have hnew : continues plainPlatform runningState = false := by decide
    simp only [hnew, newSave, saveOf, Bool.false_eq_true, if_false, cons_append, cons.injEq, true_and] at hrest
    subst hrest
    simp [Finishes]
  · intro rest hrest
    have hold : continues plainPlatform (saveStep plainPlatform (runningState, none) newSave).1 = true := by decide
    simp only [hold, nextSave, saveOf, if_true, cons_append, cons.injEq, true_and] at hrest
    subst hrest
    simp [Finishes]

end OpenSSHServerPN.Recovery
