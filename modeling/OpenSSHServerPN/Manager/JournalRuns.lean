/-
Histories of the event log and the agent's runs over its transfer journal.

The log changes at any time: events are appended, a rollover drops the oldest records, the log is cleared or replaced (with any
numbering and generation). A run is three steps, with changes of the log between them: it inspects the log, reads a batch, and
verifies and commits; a run that fails at any point leaves the saved journal as it was (`CollectTransfers` restores it, and after an
exception the state is loaded again). Beside the machine the history is kept: what was parsed, what is owed (the records that
committed runs have moved the cursor past since the last reported reset), and what was dropped from the log.

Results:
- `journal_complete`: in every history whose steps are orderly, each record owed was parsed exactly once, and a committed run that
  begins after an unparsed record has disappeared sets `Gap`. Orderly: a cleared log has a generation it never had, or goes on with
  its numbers; no record between the cursor and the batch is dropped between inspecting and reading; a run that reports a reset
  reads the whole log; no run commits with an empty log and no cursor;
- `first_run_on_empty_log`: after a first run on an empty log a record is lost and no run says so; `dropped_while_reading`: the same
  for a rollover between inspecting and reading.
-/
import OpenSSHServerPN.Lib.Runs
import OpenSSHServerPN.Manager.EventJournal

namespace OpenSSHServerPN.Journal

open List

/-! ## The machine -/

/-- a run in progress -/
structure Run where
  /-- the log it inspected -/
  seenLog : Log
  /-- how many of the records dropped and not accounted for were gone by then -/
  seenDropped : ℕ
  snapshot : Snapshot
  /-- the run reports a reset -/
  reset : Bool
  gap : Option Gap
  /-- the journal after `Prepare` -/
  prepared : State
  batch : Option (List Rec)

structure Sys where
  log : Log
  /-- events written so far: the next stamp -/
  written : ℕ
  /-- generations the log has had -/
  generations : List ℕ
  journal : State
  run : Option Run
  /-- stamps of the events parsed by committed runs -/
  parsed : List ℕ
  /-- events written when the first run committed -/
  firstCommit : Option ℕ
  /-- records that committed runs have read past since the last reported reset -/
  owed : List Rec
  /-- records dropped from the log since the beginning of the last committed run that set `Gap` -/
  dropped : List Rec

inductive Op where
  | append (sftp : Bool)
  | rollover (k : ℕ)
  /-- the log is cleared or replaced: the next record has the number `before + 1` -/
  | clear (generation before : ℕ)
  | inspect
  | read
  | commit
  | fail
deriving DecidableEq, Repr

/-- a new journal beside a log without records -/
def Sys.start (generation before : ℕ) : Sys where
  log := Log.empty generation before
  written := 0
  generations := [generation]
  journal := .new
  run := none
  parsed := []
  firstCommit := none
  owed := []
  dropped := []

/-- `Inspect` and `Prepare` -/
def begin (s : Sys) : Run :=
  let snapshot := inspect s.log s.journal.lastRecordId
  { seenLog := s.log, seenDropped := s.dropped.length, snapshot, reset := isReset s.journal snapshot
    gap := findGap s.journal snapshot, prepared := prepare s.journal snapshot, batch := none }

/-- `Verify` succeeded: `Apply`, and the state is saved -/
def Sys.committed (s : Sys) (r : Run) (batch : List Rec) : Sys :=
  let journal := apply r.prepared batch
  { s with
    journal
    run := none
    parsed := s.parsed ++ events batch
    firstCommit := some (s.firstCommit.getD s.written)
    owed :=
      if r.reset then []
      else s.owed ++ r.seenLog.records.filter fun x =>
        decide (r.prepared.lastRecordId < x.id) && decide (x.id ≤ journal.lastRecordId)
    dropped := if r.gap.isSome then s.dropped.drop r.seenDropped else s.dropped }

def step (s : Sys) : Op → Sys
  | .append sftp => { s with log := s.log.append s.written sftp, written := s.written + 1 }
  | .rollover k => { s with log := s.log.rollover k, dropped := s.dropped ++ s.log.records.take k }
  | .clear g b =>
    { s with log := .empty g b, generations := g :: s.generations, dropped := s.dropped ++ s.log.records }
  | .inspect =>
    match s.run with
    | none => { s with run := some (begin s) }
    | some _ => s
  | .read =>
    match s.run with
    | some r =>
      match r.batch with
      | none => { s with run := some { r with batch := some (readBatch s.log r.prepared.lastRecordId r.snapshot) } }
      | some _ => s
    | none => s
  | .commit =>
    match s.run with
    | some r =>
      match r.batch with
      | some batch => if verify s.log r.snapshot batch then s.committed r batch else { s with run := none }
      | none => s
    | none => s
  | .fail => { s with run := none }

/-! ## What is claimed, and when -/

/-- each record owed was parsed exactly once -/
def ParsedOnce (s : Sys) : Prop := ∀ x ∈ s.owed, x.sftp = true → s.parsed.count x.stamp = 1

/-- the event was written after the first committed run -/
def Sys.after (s : Sys) (x : Rec) : Prop := ∃ n, s.firstCommit = some n ∧ n ≤ x.stamp

/-- a run that commits without `Gap` began when no unparsed record had disappeared -/
def ReportsLoss (s : Sys) (o : Op) : Prop :=
  o = .commit → ∀ r batch, s.run = some r → r.batch = some batch → verify s.log r.snapshot batch = true → r.gap = none →
    ∀ x ∈ s.dropped.take r.seenDropped, s.after x → x.sftp = true → x.stamp ∈ s.parsed

/-- the condition on a step -/
def Orderly (s : Sys) : Op → Prop
  | .clear g b => g ∉ s.generations ∨ (g = s.log.generation ∧ b = s.log.last)
  | .read => ∀ r ∈ s.run, r.batch = none → (readBatch s.log r.prepared.lastRecordId r.snapshot = [] ∨
        s.log.before ≤ max r.prepared.lastRecordId (r.snapshot.oldest - 1)) ∧
      (r.reset = true → s.log.records.length ≤ batchLimit)
  | .commit => ∀ r ∈ s.run, ∀ batch ∈ r.batch, (apply r.prepared batch).lastRecordId ≠ 0
  | _ => True

instance (s : Sys) : (o : Op) → Decidable (Orderly s o)
  | .append _ => isTrue trivial
  | .rollover _ => isTrue trivial
  | .clear g b => inferInstanceAs (Decidable (g ∉ s.generations ∨ (g = s.log.generation ∧ b = s.log.last)))
  | .inspect => isTrue trivial
  | .read => inferInstanceAs (Decidable (∀ r ∈ s.run, r.batch = none →
      (readBatch s.log r.prepared.lastRecordId r.snapshot = [] ∨
        s.log.before ≤ max r.prepared.lastRecordId (r.snapshot.oldest - 1)) ∧
      (r.reset = true → s.log.records.length ≤ batchLimit)))
  | .commit => inferInstanceAs (Decidable (∀ r ∈ s.run, ∀ batch ∈ r.batch, (apply r.prepared batch).lastRecordId ≠ 0))
  | .fail => isTrue trivial

/-! ## The invariants -/

/-- the saved cursor is about the present log -/
def Sys.Same (s : Sys) : Prop := s.journal.generation = some s.log.generation

open Classical in
/-- the number up to which the present log has been read -/
noncomputable def Sys.cursor (s : Sys) : ℕ := if s.Same then s.journal.lastRecordId else 0

structure Inv (s : Sys) : Prop where
  stamps : (s.log.records.map Rec.stamp).Nodup
  below : ∀ x ∈ s.log.records, x.stamp < s.written
  parsedBelow : ∀ t ∈ s.parsed, t < s.written
  droppedBelow : ∀ x ∈ s.dropped, x.stamp < s.written
  generation : s.log.generation ∈ s.generations
  journal : ∀ g, s.journal.generation = some g → g ∈ s.generations
  /-- before the first commit there is no cursor, afterwards there is one -/
  start : s.firstCommit = none → s.journal.lastRecordId = 0
  started : ∀ n, s.firstCommit = some n → s.journal.lastRecordId ≠ 0 ∧ s.journal.generation.isSome = true
  ahead : s.Same → s.journal.lastRecordId ≤ s.log.last
  unread : ∀ x ∈ s.log.records, s.cursor < x.id → x.stamp ∉ s.parsed
  read : s.Same → ∀ x ∈ s.log.records, x.id ≤ s.journal.lastRecordId → s.after x → x.sftp = true → x.stamp ∈ s.parsed
  /-- an unparsed record that disappeared can be seen: another generation, or a hole after the cursor -/
  lost : ∀ x ∈ s.dropped, s.after x → x.sftp = true → x.stamp ∉ s.parsed →
    ¬s.Same ∨ s.journal.lastRecordId < s.log.before
  once : ParsedOnce s

/-- the generation of the log is still that which the run has seen -/
def Run.alive (r : Run) (s : Sys) : Prop := s.log.generation = r.snapshot.generation

/-- what a run in progress knows -/
structure RunInv (s : Sys) (r : Run) : Prop where
  snapshot : r.snapshot = inspect r.seenLog s.journal.lastRecordId
  reset : r.reset = isReset s.journal r.snapshot
  prepared : r.prepared = prepare s.journal r.snapshot
  gap : r.gap = findGap s.journal r.snapshot
  generation : r.seenLog.generation ∈ s.generations
  moved : r.alive s → r.seenLog.Extends s.log
  ahead : s.journal.generation = some r.seenLog.generation → s.journal.lastRecordId ≤ r.seenLog.last
  read : s.journal.generation = some r.seenLog.generation → ∀ x ∈ r.seenLog.records, x.id ≤ s.journal.lastRecordId →
    s.after x → x.sftp = true → x.stamp ∈ s.parsed
  seen : r.seenDropped ≤ s.dropped.length
  /-- without `Gap`, nothing unparsed had disappeared -/
  unreported : r.gap = none → ∀ x ∈ s.dropped.take r.seenDropped, s.after x → x.sftp = true → x.stamp ∈ s.parsed
  /-- what has disappeared since then was in the log that was seen, or is newer -/
  since : r.alive s → ∀ x ∈ s.dropped.drop r.seenDropped, x.id ≤ s.log.before ∧
    (x.id ≤ r.seenLog.last → x ∈ r.seenLog.records)

/-- what a batch has -/
structure BatchInv (s : Sys) (r : Run) (b : List Rec) : Prop where
  stamps : (b.map Rec.stamp).Nodup
  below : ∀ x ∈ b, x.stamp < s.written
  sorted : b.Pairwise fun x y => x.id < y.id
  range : ∀ x ∈ b, r.prepared.lastRecordId < x.id ∧ x.id ≤ r.snapshot.newest
  fresh : r.reset = false → ∀ x ∈ b, x.stamp ∉ s.parsed
  /-- an event has one number in the log -/
  number : r.alive s → ∀ x ∈ b, ∀ y ∈ s.log.records, x.stamp = y.stamp → x.id = y.id
  upTo : r.alive s → ∀ x ∈ s.log.records, r.prepared.lastRecordId < x.id → x.id ≤ lastId b → x ∈ b
  seen : r.alive s → ∀ x ∈ r.seenLog.records, r.prepared.lastRecordId < x.id → x.id ≤ lastId b → x ∈ b
  whole : r.alive s → r.reset = true → ∀ x ∈ s.log.records, x.id ≤ r.snapshot.newest → x ∈ b

/-- the invariant of a history -/
structure Good (s : Sys) : Prop where
  inv : Inv s
  run : ∀ r, s.run = some r → RunInv s r
  batch : ∀ r, s.run = some r → ∀ b, r.batch = some b → BatchInv s r b

/-! ## Changes of the log -/

/-- what a change of the log does: the log goes on, or is a new one; nothing else of the agent changes -/
structure LogStep (s s' : Sys) : Prop where
  journal : s'.journal = s.journal
  parsed : s'.parsed = s.parsed
  firstCommit : s'.firstCommit = s.firstCommit
  owed : s'.owed = s.owed
  run : s'.run = s.run
  written : s.written ≤ s'.written
  generations : ∀ g ∈ s.generations, g ∈ s'.generations
  generation : s'.log.generation ∈ s'.generations
  log : s.log.Extends s'.log ∨ (s'.log.generation ∉ s.generations ∧ s'.log.records = [])
  stamps : (s'.log.records.map Rec.stamp).Nodup
  below : ∀ x ∈ s'.log.records, x.stamp < s'.written
  new : ∀ x ∈ s'.log.records, x ∈ s.log.records ∨ (s.written ≤ x.stamp ∧ s.log.last < x.id)
  dropped : ∃ gone, s'.dropped = s.dropped ++ gone ∧
    ∀ x ∈ gone, x ∈ s.log.records ∧ (s'.log.generation ∈ s.generations → x.id ≤ s'.log.before)

variable {s : Sys}

theorem logStep_append (h : Inv s) (sftp : Bool) : LogStep s (step s (.append sftp)) where
  journal := rfl
  parsed := rfl
  firstCommit := rfl
  owed := rfl
  run := rfl
  written := Nat.le_succ _
  generations := fun _ hg => hg
  generation := h.generation
  log := .inl (Log.extends_append _ _ _)
  stamps := by
    have hnew : s.written ∉ s.log.records.map Rec.stamp := fun hm => by
      obtain ⟨x, hx, hxs⟩ := mem_map.1 hm
      exact (h.below x hx).ne hxs
    simpa [step, Log.append, nodup_append, h.stamps] using fun x hx hxs => hnew (mem_map.2 ⟨x, hx, hxs⟩)
  below := by
    intro x hx
    rcases mem_append.1 hx with hx | hx
    · exact (h.below x hx).trans (Nat.lt_succ_self _)
    · rw [mem_singleton.1 hx]
      exact Nat.lt_succ_self _
  new := by
    intro x hx
    rcases mem_append.1 hx with hx | hx
    · exact .inl hx
    · rw [mem_singleton.1 hx]
      exact .inr ⟨le_rfl, Nat.lt_succ_self _⟩
  dropped := ⟨[], (append_nil _).symm, by simp⟩

theorem logStep_rollover (h : Inv s) (k : ℕ) : LogStep s (step s (.rollover k)) where
  journal := rfl
  parsed := rfl
  firstCommit := rfl
  owed := rfl
  run := rfl
  written := le_rfl
  generations := fun _ hg => hg
  generation := h.generation
  log := .inl (Log.extends_rollover _ k)
  stamps := by
    have := h.stamps.sublist ((drop_sublist k s.log.records).map Rec.stamp)
    exact this
  below := fun x hx => h.below x (mem_of_mem_drop hx)
  new := fun x hx => .inl (mem_of_mem_drop hx)
  dropped := ⟨s.log.records.take k, rfl, fun _ hx => ⟨mem_of_mem_take hx, fun _ => Log.rollover_dropped hx⟩⟩

theorem logStep_clear {g b : ℕ} (ho : Orderly s (.clear g b)) : LogStep s (step s (.clear g b)) where
  journal := rfl
  parsed := rfl
  firstCommit := rfl
  owed := rfl
  run := rfl
  written := le_rfl
  generations := fun _ => mem_cons_of_mem _
  generation := mem_cons_self
  log := by
    rcases ho with hfresh | ⟨rfl, rfl⟩
    · exact .inr ⟨hfresh, rfl⟩
    · exact .inl (Log.extends_empty _)
  stamps := nodup_nil
  below := fun x hx => by cases hx
  new := fun x hx => by cases hx
  dropped := by
    refine ⟨s.log.records, rfl, fun x hx => ⟨hx, fun hg => ?_⟩⟩
    rcases ho with hfresh | ⟨rfl, rfl⟩
    · exact absurd hg hfresh
    · exact (Log.bounds hx).2

variable {r : Run}

section LogStep

variable {s s' : Sys}

theorem extends_of_old (hs : LogStep s s') (hg : s'.log.generation ∈ s.generations) : s.log.Extends s'.log :=
  hs.log.resolve_right fun h => h.1 hg

theorem after_iff (hs : LogStep s s') (x : Rec) : s'.after x ↔ s.after x := by
  unfold Sys.after
  rw [hs.firstCommit]

theorem same_of_step (h : Inv s) (hs : LogStep s s') (hsame : s'.Same) : s.Same ∧ s.log.Extends s'.log := by
  unfold Sys.Same at hsame
  rw [hs.journal] at hsame
  have hext := extends_of_old hs (h.journal _ hsame)
  rw [hext.generation] at hsame
  exact ⟨hsame, hext⟩

theorem inv_logStep (h : Inv s) (hs : LogStep s s') : Inv s' where
  stamps := hs.stamps
  below := hs.below
  parsedBelow := fun t ht => (h.parsedBelow t (hs.parsed ▸ ht)).trans_le hs.written
  droppedBelow := by
    obtain ⟨gone, hdropped, hgone⟩ := hs.dropped
    intro x hx
    rw [hdropped] at hx
    rcases mem_append.1 hx with hx | hx
    · exact (h.droppedBelow x hx).trans_le hs.written
    · exact (h.below x (hgone x hx).1).trans_le hs.written
  generation := hs.generation
  journal := fun g hg => hs.generations g (h.journal g (hs.journal ▸ hg))
  start := fun hn => by
    rw [hs.journal]
    exact h.start (hs.firstCommit ▸ hn)
  started := fun n hn => by
    rw [hs.journal]
    exact h.started n (hs.firstCommit ▸ hn)
  ahead := fun hsame => by
    obtain ⟨hsame', hext⟩ := same_of_step h hs hsame
    rw [hs.journal]
    exact (h.ahead hsame').trans hext.last
  unread := by
    intro x hx hcur
    rw [hs.parsed]
    rcases hs.new x hx with hold | ⟨hstamp, -⟩
    · refine h.unread x hold ?_
      by_cases hsame : s'.Same
      · obtain ⟨hsame', -⟩ := same_of_step h hs hsame
        rw [Sys.cursor, if_pos hsame, hs.journal] at hcur
        rw [Sys.cursor, if_pos hsame']
        exact hcur
      · -- the log goes on, but was not that of the cursor before either
        have hext : s.log.Extends s'.log := hs.log.resolve_right fun hf => by rw [hf.2] at hx; cases hx
        have hsame' : ¬s.Same := fun hc => hsame (by
          unfold Sys.Same
          rw [hs.journal, hext.generation]
          exact hc)
        rw [Sys.cursor, if_neg hsame']
        exact (Nat.zero_le _).trans_lt (Log.bounds hold).1
    · exact fun hp => absurd (h.parsedBelow _ hp) (Nat.not_lt_of_le hstamp)
  read := by
    intro hsame x hx hid hafter hsftp
    obtain ⟨hsame', hext⟩ := same_of_step h hs hsame
    rw [hs.journal] at hid
    have hold : x ∈ s.log.records := hext.old hx (hid.trans (h.ahead hsame'))
    rw [hs.parsed]
    exact h.read hsame' x hold hid ((after_iff hs x).1 hafter) hsftp
  lost := by
    intro x hx hafter hsftp hunparsed
    rw [after_iff hs] at hafter
    rw [hs.parsed] at hunparsed
    by_cases hsame : s'.Same
    · obtain ⟨hsame', hext⟩ := same_of_step h hs hsame
      right
      rw [hs.journal]
      obtain ⟨gone, hdropped, hgone⟩ := hs.dropped
      rw [hdropped] at hx
      rcases mem_append.1 hx with hx | hx
      · rcases h.lost x hx hafter hsftp hunparsed with hno | hlt
        · exact absurd hsame' hno
        · exact hlt.trans_le hext.before
      -- what has just gone was not read, so it was after the cursor
      obtain ⟨hrec, hb⟩ := hgone x hx
      have hgen : s'.log.generation ∈ s.generations := hext.generation ▸ h.generation
      have hcur : s.journal.lastRecordId < x.id := by
        by_contra hle
        exact hunparsed (h.read hsame' x hrec (Nat.le_of_not_lt hle) hafter hsftp)
      exact hcur.trans_le (hb hgen)
    · exact .inl hsame
  once := by
    intro x hx hsftp
    rw [hs.parsed]
    exact h.once x (hs.owed ▸ hx) hsftp

theorem alive_of_step (hs : LogStep s s') (hr : RunInv s r) (ha : r.alive s') : r.alive s ∧ s.log.Extends s'.log := by
  have hgen : r.snapshot.generation = r.seenLog.generation := by rw [hr.snapshot]; rfl
  have hext := extends_of_old hs (by
    rw [ha, hgen]
    exact hr.generation)
  refine ⟨?_, hext⟩
  unfold Run.alive
  rw [← ha, hext.generation]

theorem runInv_logStep (hs : LogStep s s') (hr : RunInv s r) : RunInv s' r where
  snapshot := by rw [hs.journal]; exact hr.snapshot
  reset := by rw [hs.journal]; exact hr.reset
  prepared := by rw [hs.journal]; exact hr.prepared
  gap := by rw [hs.journal]; exact hr.gap
  generation := hs.generations _ hr.generation
  moved := fun ha => by
    obtain ⟨ha', hext⟩ := alive_of_step hs hr ha
    exact (hr.moved ha').trans hext
  ahead := by rw [hs.journal]; exact hr.ahead
  read := by
    intro hg x hx hid hafter hsftp
    rw [hs.parsed]
    rw [hs.journal] at hg hid
    exact hr.read hg x hx hid ((after_iff hs x).1 hafter) hsftp
  seen := by
    obtain ⟨gone, hdropped, -⟩ := hs.dropped
    rw [hdropped, length_append]
    exact hr.seen.trans (Nat.le_add_right _ _)
  unreported := by
    obtain ⟨gone, hdropped, -⟩ := hs.dropped
    intro hgap x hx hafter hsftp
    rw [hdropped, take_append_of_le_length hr.seen] at hx
    rw [hs.parsed]
    exact hr.unreported hgap x hx ((after_iff hs x).1 hafter) hsftp
  since := by
    obtain ⟨gone, hdropped, hgone⟩ := hs.dropped
    intro ha x hx
    obtain ⟨ha', hext⟩ := alive_of_step hs hr ha
    rw [hdropped, drop_append_of_le_length hr.seen] at hx
    rcases mem_append.1 hx with hx | hx
    · obtain ⟨hb, hin⟩ := hr.since ha' x hx
      exact ⟨hb.trans hext.before, hin⟩
    obtain ⟨hrec, hb⟩ := hgone x hx
    have hgen : s'.log.generation ∈ s.generations := by
      rw [ha, hr.snapshot]
      exact hr.generation
    exact ⟨hb hgen, (hr.moved ha').old hrec⟩

theorem batchInv_logStep (hs : LogStep s s') (hr : RunInv s r) {b : List Rec} (hb : BatchInv s r b) :
    BatchInv s' r b where
  stamps := hb.stamps
  below := fun x hx => (hb.below x hx).trans_le hs.written
  sorted := hb.sorted
  range := hb.range
  fresh := by rw [hs.parsed]; exact hb.fresh
  number := by
    intro ha x hx y hy hxy
    obtain ⟨ha', -⟩ := alive_of_step hs hr ha
    rcases hs.new y hy with hold | ⟨hstamp, -⟩
    · exact hb.number ha' x hx y hold hxy
    · have := hb.below x hx
      omega
  upTo := by
    intro ha x hx hcur hle
    obtain ⟨ha', hext⟩ := alive_of_step hs hr ha
    rcases hs.new x hx with hold | ⟨-, hid⟩
    · exact hb.upTo ha' x hold hcur hle
    have hseen := (hr.moved ha').last
    have hbatch : b ≠ [] := fun hnil => by rw [lastId_nil_of hnil] at hle; omega
    obtain ⟨y, hy, hyid⟩ := lastId_mem hbatch
    have hnew : r.snapshot.newest ≤ r.seenLog.last := by rw [hr.snapshot]; exact newest_le _ _
    have := (hb.range y hy).2
    omega
  seen := fun ha => by
    obtain ⟨ha', -⟩ := alive_of_step hs hr ha
    exact hb.seen ha'
  whole := by
    intro ha hreset x hx hle
    obtain ⟨ha', -⟩ := alive_of_step hs hr ha
    rcases hs.new x hx with hold | ⟨-, hid⟩
    · exact hb.whole ha' hreset x hold hle
    · have hseen := (hr.moved ha').last
      have hnew : r.snapshot.newest ≤ r.seenLog.last := by rw [hr.snapshot]; exact newest_le _ _
      omega

theorem good_logStep (h : Good s) (hs : LogStep s s') : Good s' where
  inv := inv_logStep h.inv hs
  run := fun r hr => runInv_logStep hs (h.run r (hs.run ▸ hr))
  batch := fun r hr b hb =>
    batchInv_logStep hs (h.run r (hs.run ▸ hr)) (h.batch r (hs.run ▸ hr) b hb)

end LogStep

/-! ## Runs -/

section Runs

variable {s : Sys}

/-- **Inspecting.** What had disappeared unparsed can be seen, and sets `Gap`. -/
theorem runInv_begin (h : Inv s) : RunInv s (begin s) where
  snapshot := rfl
  reset := rfl
  prepared := rfl
  gap := rfl
  generation := h.generation
  moved := fun _ => Log.Extends.refl _
  ahead := h.ahead
  read := h.read
  seen := le_rfl
  unreported := by
    intro hgap x hx hafter hsftp
    by_contra hunparsed
    obtain ⟨n, hn, -⟩ := id hafter
    obtain ⟨hpos, hsome⟩ := h.started n hn
    obtain ⟨g, hg⟩ := Option.isSome_iff_exists.1 hsome
    refine prepare_gap hpos hg ?_ hgap
    rcases h.lost x (mem_of_mem_take hx) hafter hsftp hunparsed with hno | hlt
    · exact .inl fun heq => hno (hg.trans (congrArg some heq))
    · exact .inr hlt
  since := by
    intro _ x hx
    simp [begin] at hx

/-- **Reading.** The batch of an orderly step. -/
theorem batchInv_read (h : Inv s) (hr : RunInv s r) (ho : (readBatch s.log r.prepared.lastRecordId r.snapshot = [] ∨
        s.log.before ≤ max r.prepared.lastRecordId (r.snapshot.oldest - 1)) ∧
      (r.reset = true → s.log.records.length ≤ batchLimit)) :
    BatchInv s r (readBatch s.log r.prepared.lastRecordId r.snapshot) where
  stamps := by
    have hsub : List.Sublist (readBatch s.log r.prepared.lastRecordId r.snapshot) s.log.records :=
      (take_sublist _ _).trans filter_sublist
    exact h.stamps.sublist (hsub.map Rec.stamp)
  below := fun x hx => h.below x (mem_readBatch hx).1
  sorted := (s.log.sorted.sublist filter_sublist).sublist (take_sublist _ _)
  range := fun x hx => (mem_readBatch hx).2
  fresh := by
    intro hreset x hx
    obtain ⟨hrec, hcur, -⟩ := mem_readBatch hx
    refine h.unread x hrec (lt_of_le_of_lt ?_ hcur)
    rw [hr.reset, hr.snapshot] at hreset
    rw [hr.prepared, hr.snapshot, prepare_kept hreset, Sys.cursor]
    split
    · exact le_rfl
    · exact Nat.zero_le _
  number := by
    intro _ x hx y hy hxy
    rw [inj_on_of_nodup_map h.stamps (mem_readBatch hx).1 hy hxy]
  upTo := fun _ x => readBatch_upTo
  seen := by
    intro ha x hx hcur hle
    have hne : readBatch s.log r.prepared.lastRecordId r.snapshot ≠ [] := fun hnil => by
      rw [lastId_nil_of hnil] at hle
      omega
    -- nothing after the cursor has gone since the log was inspected
    have hbefore := ho.1.resolve_left hne
    have hold : r.snapshot.oldest = r.seenLog.before + 1 := by
      rw [hr.snapshot]
      exact inspect_oldest _ _ (ne_nil_of_mem hx)
    have hb : s.log.before < x.id := by
      have := (Log.bounds hx).1
      omega
    exact readBatch_upTo ((hr.moved ha).kept x hx hb) hcur hle
  whole := by
    intro _ hreset x hx hle
    refine readBatch_whole (ho.2 hreset) hx ?_ hle
    have hzero : r.prepared.lastRecordId = 0 := by
      rw [hr.reset, hr.snapshot] at hreset
      rw [hr.prepared, hr.snapshot]
      exact prepare_reset hreset
    rw [hzero]
    exact (Nat.zero_le _).trans_lt (Log.bounds hx).1

variable {r : Run} {b : List Rec}

/-- the cursor that is committed -/
def cursorAfter (r : Run) (b : List Rec) : ℕ := if b = [] then r.prepared.lastRecordId else lastId b

/-- without a reset a cursor is about the log that was inspected -/
theorem same_of_kept (h : Inv s) (hr : RunInv s r) (hreset : r.reset = false) (hpos : s.journal.lastRecordId ≠ 0) :
    s.journal.generation = some r.seenLog.generation ∧ s.journal.lastRecordId ≤ r.snapshot.newest := by
  rw [hr.reset, hr.snapshot] at hreset
  have hsome : s.journal.generation.isSome = true := by
    cases hc : s.firstCommit with
    | none => exact absurd (h.start hc) hpos
    | some n => exact (h.started n hc).2
  obtain ⟨g, hg⟩ := Option.isSome_iff_exists.1 hsome
  obtain ⟨hsame, hle, -⟩ := same_of_not_reset hreset hpos hg
  rw [hr.snapshot]
  exact ⟨hg.trans (congrArg some hsame), hle⟩

theorem kept_cursor (hr : RunInv s r) (hreset : r.reset = false) :
    r.prepared.lastRecordId = s.journal.lastRecordId := by
  rw [hr.reset, hr.snapshot] at hreset
  rw [hr.prepared, hr.snapshot]
  exact prepare_kept hreset

theorem reset_cursor (hr : RunInv s r) (hreset : r.reset = true) : r.prepared.lastRecordId = 0 := by
  rw [hr.reset, hr.snapshot] at hreset
  rw [hr.prepared, hr.snapshot]
  exact prepare_reset hreset

/-- the cursor before the batch is about the log that was inspected -/
theorem prepared_same (h : Inv s) (hr : RunInv s r) (hpos : r.prepared.lastRecordId ≠ 0) :
    r.reset = false ∧ s.journal.generation = some r.seenLog.generation ∧
      r.prepared.lastRecordId = s.journal.lastRecordId ∧ s.journal.lastRecordId ≤ r.snapshot.newest := by
  have hreset : r.reset = false := Bool.eq_false_iff.2 fun hc => hpos (reset_cursor hr hc)
  have hkept := kept_cursor hr hreset
  obtain ⟨hsame, hle⟩ := same_of_kept h hr hreset (hkept ▸ hpos)
  exact ⟨hreset, hsame, hkept, hle⟩

/-- the committed cursor is a number the inspected log has had -/
theorem cursorAfter_le (h : Inv s) (hr : RunInv s r) (hb : BatchInv s r b) (hpos : cursorAfter r b ≠ 0) :
    cursorAfter r b ≤ r.snapshot.newest := by
  unfold cursorAfter at hpos ⊢
  split_ifs at hpos ⊢ with hnil
  · obtain ⟨-, -, hkept, hle⟩ := prepared_same h hr hpos
    rw [hkept]
    exact hle
  · obtain ⟨y, hy, hyid⟩ := lastId_mem hnil
    rw [← hyid]
    exact (hb.range y hy).2

theorem newest_le_seen (hr : RunInv s r) : r.snapshot.newest ≤ r.seenLog.last := by
  rw [hr.snapshot]
  exact newest_le _ _

theorem prepared_le (hb : BatchInv s r b) : r.prepared.lastRecordId ≤ cursorAfter r b := by
  unfold cursorAfter
  split
  · exact le_rfl
  · next hnil =>
    obtain ⟨y, hy, hyid⟩ := lastId_mem hnil
    rw [← hyid]
    exact (hb.range y hy).1.le

variable {x : Rec}

theorem lastId_of_lt (hcur : r.prepared.lastRecordId < x.id) (hle : x.id ≤ cursorAfter r b) : x.id ≤ lastId b := by
  unfold cursorAfter at hle
  split at hle
  · omega
  · exact hle

theorem mem_events (hx : x ∈ b) (hsftp : x.sftp = true) : x.stamp ∈ events b :=
  mem_map.2 ⟨x, mem_filter.2 ⟨hx, hsftp⟩, rfl⟩

theorem of_mem_events {t : ℕ} (h : t ∈ events b) : ∃ x ∈ b, x.stamp = t := by
  obtain ⟨x, hx, rfl⟩ := mem_map.1 h
  exact ⟨x, (mem_filter.1 hx).1, rfl⟩

/-- records in the log after the committed cursor were never parsed -/
theorem unread_committed (h : Inv s) (hr : RunInv s r) (hb : BatchInv s r b) (ha : r.alive s) (hpos : cursorAfter r b ≠ 0)
    (hx : x ∈ s.log.records) (hcur : cursorAfter r b < x.id) : x.stamp ∉ s.parsed ++ events b := by
  have hbatch : ∀ y ∈ b, y.id ≤ cursorAfter r b := fun y hy => by
    have hne : b ≠ [] := ne_nil_of_mem hy
    unfold cursorAfter
    rw [if_neg hne]
    exact le_lastId hb.sorted hy
  have hevents : x.stamp ∉ events b := fun hm => by
    obtain ⟨y, hy, hyx⟩ := of_mem_events hm
    have hid := hb.number ha y hy x hx hyx
    have := hbatch y hy
    omega
  have hparsed : x.stamp ∉ s.parsed := by
    cases hreset : r.reset with
    | false =>
      refine h.unread x hx (lt_of_le_of_lt ?_ hcur)
      have hle := prepared_le hb
      rw [kept_cursor hr hreset] at hle
      unfold Sys.cursor
      split
      · exact hle
      · exact Nat.zero_le _
    | true =>
      -- after a reset the whole log was read: the record is newer than all that was inspected
      have hnew : r.snapshot.newest < x.id := by
        by_contra hle
        have := hbatch x (hb.whole ha hreset x hx (Nat.le_of_not_lt hle))
        omega
      have hseen : r.seenLog.records ≠ [] := fun hnil => by
        have hle := cursorAfter_le h hr hb hpos
        rw [hr.snapshot, inspect_empty _ _ hnil] at hle
        omega
      refine h.unread x hx (lt_of_le_of_lt ?_ hnew)
      unfold Sys.cursor
      split
      · next hsame =>
        have hgen : s.journal.generation = some r.seenLog.generation := by
          have hext := hr.moved ha
          rw [← hext.generation]
          exact hsame
        rw [hr.snapshot, inspect_newest _ _ hseen]
        exact hr.ahead hgen
      · exact Nat.zero_le _
  simp [hparsed, hevents]

/-- records up to the committed cursor that were written after the first commit were parsed -/
theorem read_committed (hinv : Inv s) (hr : RunInv s r) {n : ℕ}
    (hfirst : s.firstCommit = some n) (hn : n ≤ x.stamp) (hsftp : x.sftp = true) (hle : x.id ≤ cursorAfter r b)
    (hold : r.prepared.lastRecordId < x.id → x.id ≤ lastId b → x ∈ b)
    (hread : s.journal.generation = some r.seenLog.generation → x.id ≤ s.journal.lastRecordId → s.after x →
      x.stamp ∈ s.parsed) (hidpos : x.id ≠ 0) : x.stamp ∈ s.parsed ++ events b := by
  by_cases hcur : r.prepared.lastRecordId < x.id
  · exact mem_append_right _ (mem_events (hold hcur (lastId_of_lt hcur hle)) hsftp)
  · have hpos : r.prepared.lastRecordId ≠ 0 := by omega
    obtain ⟨-, hsame, hkept, -⟩ := prepared_same hinv hr hpos
    exact mem_append_left _ (hread hsame (by omega) ⟨n, hfirst, hn⟩)

/-- what is owed after a commit was parsed exactly once -/
theorem once_committed (h : Inv s) (hb : BatchInv s r b) (ha : r.alive s) (hreset : r.reset = false)
    (hsftp : x.sftp = true)
    (hx : x ∈ s.owed ∨ (x ∈ r.seenLog.records ∧ r.prepared.lastRecordId < x.id ∧ x.id ≤ cursorAfter r b)) :
    (s.parsed ++ events b).count x.stamp = 1 := by
  rw [count_append]
  rcases hx with hx | ⟨hrec, hcur, hle⟩
  · have hone := h.once x hx hsftp
    have hparsed : x.stamp ∈ s.parsed := count_pos_iff.1 (by omega)
    have hno : x.stamp ∉ events b := fun hm => by
      obtain ⟨y, hy, hyx⟩ := of_mem_events hm
      exact hb.fresh hreset y hy (hyx ▸ hparsed)
    rw [hone, count_eq_zero.2 hno]
  · have hin : x ∈ b := hb.seen ha x hrec hcur (lastId_of_lt hcur hle)
    have hnodup : (events b).Nodup := hb.stamps.sublist (filter_sublist.map Rec.stamp)
    rw [count_eq_zero.2 (hb.fresh hreset x hin), count_eq_one_of_mem hnodup (mem_events hin hsftp)]

/-- **Committing.** A verified run whose cursor is not 0 keeps the invariant. -/
theorem inv_committed (h : Inv s) (hr : RunInv s r) (hb : BatchInv s r b) (ha : r.alive s) (hpos : cursorAfter r b ≠ 0) :
    Inv (s.committed r b) := by
  have hcursor : (s.committed r b).journal.lastRecordId = cursorAfter r b := apply_lastRecordId r.prepared b
  have hgen : (s.committed r b).journal.generation = some s.log.generation := by
    have hsnap : r.prepared.generation = some r.snapshot.generation := by rw [hr.prepared]; rfl
    simp only [Sys.committed, apply_generation, hsnap]
    exact congrArg some ha.symm
  have hsame : (s.committed r b).Same := hgen
  have hcur : (s.committed r b).cursor = cursorAfter r b := by rw [Sys.cursor, if_pos hsame, hcursor]
  have hext := hr.moved ha
  have hseen : cursorAfter r b ≤ r.seenLog.last := (cursorAfter_le h hr hb hpos).trans (newest_le_seen hr)
  -- an event written after the first commit, when there was one before this run
  have hafter : ∀ x : Rec, x.stamp < s.written → (s.committed r b).after x →
      ∃ n, s.firstCommit = some n ∧ n ≤ x.stamp := by
    rintro x hbelow ⟨n, hn, hle⟩
    simp only [Sys.committed, Option.some.injEq] at hn
    cases hfirst : s.firstCommit with
    | none =>
      rw [hfirst, Option.getD_none] at hn
      omega
    | some m =>
      rw [hfirst, Option.getD_some] at hn
      exact ⟨m, rfl, hn ▸ hle⟩
  exact {
    stamps := h.stamps
    below := h.below
    parsedBelow := by
      intro t ht
      rcases mem_append.1 ht with ht | ht
      · exact h.parsedBelow t ht
      · obtain ⟨x, hx, rfl⟩ := of_mem_events ht
        exact hb.below x hx
    droppedBelow := by
      intro x hx
      simp only [Sys.committed] at hx
      split at hx
      · exact h.droppedBelow x (mem_of_mem_drop hx)
      · exact h.droppedBelow x hx
    generation := h.generation
    journal := by
      intro g hg
      rw [hgen] at hg
      rw [← Option.some.inj hg]
      exact h.generation
    start := by
      intro hn
      simp [Sys.committed] at hn
    started := by
      intro n _
      rw [hcursor, hgen]
      exact ⟨hpos, rfl⟩
    ahead := by
      intro _
      rw [hcursor]
      exact hseen.trans hext.last
    unread := by
      intro x hx hlt
      rw [hcur] at hlt
      exact unread_committed h hr hb ha hpos hx hlt
    read := by
      intro _ x hx hle hx' hsftp
      rw [hcursor] at hle
      obtain ⟨n, hfirst, hn⟩ := hafter x (h.below x hx) hx'
      refine read_committed h hr hfirst hn hsftp hle (hb.upTo ha x hx) ?_ (Nat.ne_zero_of_lt (Log.bounds hx).1)
      intro hg hid haf
      have hs : s.Same := by
        unfold Sys.Same
        rw [hext.generation]
        exact hg
      exact h.read hs x hx hid haf hsftp
    lost := by
      intro x hx hx' hsftp hunparsed
      right
      rw [hcursor]
      simp only [Sys.committed] at hx
      -- what had gone before the run began was parsed, or is accounted for
      have hdropped : x ∈ s.dropped.drop r.seenDropped := by
        split at hx
        · exact hx
        next hgap =>
        rw [← take_append_drop r.seenDropped s.dropped] at hx
        rcases mem_append.1 hx with hx | hx
        · have hbelow := h.droppedBelow x (mem_of_mem_take hx)
          exact absurd (mem_append_left _ (hr.unreported (by simpa using hgap) x hx (hafter x hbelow hx') hsftp))
            hunparsed
        · exact hx
      obtain ⟨hbefore, hin⟩ := hr.since ha x hdropped
      by_contra hge
      have hle : x.id ≤ cursorAfter r b := hbefore.trans (Nat.le_of_not_lt hge)
      have hrec := hin (hle.trans hseen)
      obtain ⟨n, hfirst, hn⟩ := hafter x (h.droppedBelow x (mem_of_mem_drop hdropped)) hx'
      refine hunparsed (read_committed h hr hfirst hn hsftp hle (hb.seen ha x hrec) ?_
        (Nat.ne_zero_of_lt (Log.bounds hrec).1))
      intro hg hid haf
      exact hr.read hg x hrec hid haf hsftp
    once := by
      intro x hx hsftp
      simp only [Sys.committed] at hx
      cases hreset : r.reset with
      | true =>
        rw [hreset] at hx
        cases hx
      | false =>
        rw [hreset] at hx
        refine once_committed h hb ha hreset hsftp ?_
        rcases mem_append.1 hx with hx | hx
        · exact .inl hx
        · simp only [mem_filter, Bool.and_eq_true, decide_eq_true_eq, apply_lastRecordId] at hx
          exact .inr ⟨hx.1, hx.2.1, hx.2.2⟩ }

theorem inv_run (h : Inv s) (run : Option Run) : Inv { s with run } := by
  obtain ⟨h1, h2, h3, h4, h5, h6, h7, h8, h9, h10, h11, h12, h13⟩ := h
  exact ⟨h1, h2, h3, h4, h5, h6, h7, h8, h9, h10, h11, h12, h13⟩

theorem good_idle (h : Inv s) (hrun : s.run = none) : Good s where
  inv := h
  run := fun r hr => by rw [hrun] at hr; cases hr
  batch := fun r hr => by rw [hrun] at hr; cases hr

end Runs

theorem good_step {o : Op} (h : Good s) (ho : Orderly s o) : Good (step s o) := by
  cases o with
  | append sftp => exact good_logStep h (logStep_append h.inv sftp)
  | rollover k => exact good_logStep h (logStep_rollover h.inv k)
  | clear g b => exact good_logStep h (logStep_clear ho)
  | fail => exact good_idle (inv_run h.inv none) rfl
  | inspect =>
    simp only [step]
    split
    · have hinv := inv_run h.inv (some (begin s))
      refine ⟨hinv, fun r hr => ?_, fun r hr b hb => ?_⟩
      · cases hr
        obtain ⟨h1, h2, h3, h4, h5, h6, h7, h8, h9, h10, h11⟩ := runInv_begin h.inv
        exact ⟨h1, h2, h3, h4, h5, h6, h7, h8, h9, h10, h11⟩
      · cases hr
        cases hb
    · exact h
  | read =>
    simp only [step]
    split
    · next r hrun =>
      split
      · next hnone =>
        have hr := h.run r hrun
        have hb := batchInv_read h.inv hr (ho r hrun hnone)
        refine ⟨inv_run h.inv _, fun r' hr' => ?_, fun r' hr' b' hb' => ?_⟩
        · cases hr'
          exact { hr with }
        · cases hr'
          cases hb'
          exact { hb with }
      · exact h
    · exact h
  | commit =>
    simp only [step]
    split
    · next r hrun =>
      split
      · next b hbatch =>
        split
        · next hverify =>
          have hpos : cursorAfter r b ≠ 0 := by
            have := ho r hrun b hbatch
            rw [apply_lastRecordId] at this
            exact this
          rw [verify, Bool.and_eq_true, decide_eq_true_eq] at hverify
          have hinv := inv_committed h.inv (h.run r hrun) (h.batch r hrun b hbatch) hverify.1 hpos
          exact good_idle hinv rfl
        · exact good_idle (inv_run h.inv none) rfl
      · exact h
    · exact h

theorem good_start (generation before : ℕ) : Good (Sys.start generation before) := by
  refine good_idle ⟨nodup_nil, ?_, ?_, ?_, mem_cons_self, ?_, fun _ => rfl, ?_, ?_, ?_, ?_, ?_, ?_⟩ rfl
  all_goals simp [Sys.start, Log.empty, State.new, ParsedOnce]

/-- **The journal is complete.** For every history whose steps are orderly, in every state reached: each record that committed
runs have read past since the last reported reset was parsed exactly once; and a run that commits without `Gap` began when no
unparsed record written after the first committed run had disappeared. -/
theorem journal_complete (generation before : ℕ) (ops : List Op)
    (h : Runs.Always step Orderly (Sys.start generation before) ops) :
    (∀ pre, pre <+: ops → ParsedOnce (Runs.run step (Sys.start generation before) pre)) ∧
      Runs.Always step ReportsLoss (Sys.start generation before) ops := by
  refine ⟨?_, ?_⟩
  · rintro pre ⟨post, rfl⟩
    have hpre := ((Runs.always_append _ pre post).1 h).1
    exact (Runs.run_inv (fun s o => good_step) pre (good_start generation before) hpre).inv.once
  · refine Runs.always_of_inv (fun s o => good_step) ?_ ops (good_start generation before) h
    intro s o hs _ hcommit r b hrun _ _ hgap
    exact (hs.run r hrun).unreported hgap

/-! ## Losses that no run reports -/

/-- a whole run -/
def wholeRun : List Op := [.inspect, .read, .commit]

/-- a first run on an empty log, two events, and a rollover that drops the first of them before the next run -/
def emptyFirst : List Op := wholeRun ++ [.append true, .append true, .rollover 1, .inspect, .read]

/-- the second run commits without `Gap`, and the first event was never parsed -/
theorem first_run_on_empty_log : ¬Runs.Always step ReportsLoss (Sys.start 7 0) (emptyFirst ++ [.commit]) := by
  intro h
  have hcommit := Runs.always_split h emptyFirst .commit [] rfl
  have hparsed := hcommit rfl _ _ rfl rfl (by decide) (by decide) ⟨1, 0, true⟩ (by decide) ⟨0, rfl, le_rfl⟩ rfl
  revert hparsed
  decide

/-- a run, two events, and a rollover between inspecting and reading of the next run -/
def droppedMidway : List Op :=
  .append true :: wholeRun ++ [.append true, .append true, .inspect, .rollover 2, .read, .commit, .inspect, .read]

/-- the second run reads past the dropped event, and the third one commits without `Gap` -/
theorem dropped_while_reading : ¬Runs.Always step ReportsLoss (Sys.start 7 0) (droppedMidway ++ [.commit]) := by
  intro h
  have hcommit := Runs.always_split h droppedMidway .commit [] rfl
  have hparsed := hcommit rfl _ _ rfl rfl (by decide) (by decide) ⟨2, 1, true⟩ (by decide) ⟨1, rfl, le_rfl⟩ rfl
  revert hparsed
  decide

/-- runs with rollovers of records already read, an event lost to a clear, and the run that reports it -/
def replacedLog : List Op :=
  .append true :: .append false :: wholeRun ++ [.append true, .rollover 2] ++ wholeRun ++
    [.append true, .clear 8 0, .append true] ++
    wholeRun

theorem journal_complete_replaced : (∀ pre, pre <+: replacedLog → ParsedOnce (Runs.run step (Sys.start 7 0) pre)) ∧
      Runs.Always step ReportsLoss (Sys.start 7 0) replacedLog :=
  journal_complete 7 0 replacedLog (by decide)

example : (Runs.run step (Sys.start 7 0) replacedLog).journal.gap = some .replaced := by decide

end OpenSSHServerPN.Journal
