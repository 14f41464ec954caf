/-
The transfer journal and the event log it reads (`TransferJournal.cs`).

The OpenSSH event log keeps a range of consecutively numbered records of one generation (the creation time of the log). An agent
run inspects the log, prepares its saved cursor against what it saw, reads a bounded batch after the cursor, verifies that the log
is still the same one and advances the cursor. The identity of a record is the hash of all its contents; here every event ever
written has a stamp of its own.

`Log.Extends` relates a log to what becomes of it without a change of generation or numbering: records are appended and the oldest
ones dropped. Over it:
- `prepare_reset`, `prepare_kept`: the cursor goes back to 0 exactly on a reset, and stays where it was otherwise;
- `prepare_gap`: a log of another generation, or one whose records start after the cursor's successor, sets `Gap`;
- `readBatch_upTo`: a batch has every record between the cursor and its own last record.
The parser's context, the times and the backlog of the journal decide nothing here and are left out.
-/
import Mathlib.Tactic

namespace OpenSSHServerPN.Journal

open List

/-! ## The log -/

/-- an event: its number, its contents, and whether `sftp-server` wrote it -/
structure Rec where
  id : ℕ
  stamp : ℕ
  sftp : Bool
deriving DecidableEq, Repr

/-- the records from number `before + 1` on, oldest first -/
structure Log where
  generation : ℕ
  before : ℕ
  records : List Rec
  numbered : records.map Rec.id = List.range' (before + 1) records.length

namespace Log

/-- the number of the newest record, or that of the last one dropped -/
def last (l : Log) : ℕ := l.before + l.records.length

/-- a log without records; the next one gets the number `before + 1` -/
def empty (generation before : ℕ) : Log := ⟨generation, before, [], rfl⟩

def append (l : Log) (stamp : ℕ) (sftp : Bool) : Log where
  generation := l.generation
  before := l.before
  records := l.records ++ [⟨l.last + 1, stamp, sftp⟩]
  numbered := by
    rw [List.map_append, l.numbered, List.length_append, List.length_singleton, List.range'_concat]
    simp [last, Nat.add_comm, Nat.add_left_comm, Nat.add_assoc]

/-- a rollover drops the oldest records -/
def rollover (l : Log) (k : ℕ) : Log where
  generation := l.generation
  before := l.before + min k l.records.length
  records := l.records.drop k
  numbered := by
    rw [List.map_drop, l.numbered, List.drop_range', List.length_drop]
    rcases Nat.le_total k l.records.length with h | h
    · rw [Nat.min_eq_left h]
      congr 1
      omega
    · rw [Nat.sub_eq_zero_of_le h]
      rfl

variable {l l' l'' : Log} {r r' : Rec}

theorem bounds (h : r ∈ l.records) : l.before < r.id ∧ r.id ≤ l.last := by
  have hmem : r.id ∈ range' (l.before + 1) l.records.length := l.numbered ▸ mem_map_of_mem h
  rw [mem_range'_1] at hmem
  unfold last
  omega

theorem exists_id {id : ℕ} (hb : l.before < id) (hl : id ≤ l.last) : ∃ r ∈ l.records, r.id = id := by
  have hmem : id ∈ l.records.map Rec.id := by
    rw [l.numbered, mem_range'_1]
    unfold last at hl
    omega
  exact mem_map.1 hmem

theorem sorted (l : Log) : l.records.Pairwise fun a b => a.id < b.id := by
  have hlt : (range' (l.before + 1) l.records.length).Pairwise (· < ·) := pairwise_lt_range'
  rw [← l.numbered, pairwise_map] at hlt
  exact hlt

theorem eq_of_id (h : r ∈ l.records) (h' : r' ∈ l.records) (hid : r.id = r'.id) : r = r' := by
  have hnodup : (l.records.map Rec.id).Nodup := by
    rw [l.numbered]
    exact nodup_range'
  exact inj_on_of_nodup_map hnodup h h' hid

/-! ## What becomes of a log -/

/-- the same log later: records were appended, and the oldest ones may be gone -/
structure Extends (l l' : Log) : Prop where
  generation : l'.generation = l.generation
  before : l.before ≤ l'.before
  last : l.last ≤ l'.last
  kept : ∀ r ∈ l.records, l'.before < r.id → r ∈ l'.records

theorem Extends.refl (l : Log) : l.Extends l := ⟨rfl, le_rfl, le_rfl, fun _ h _ => h⟩

theorem Extends.trans (h : l.Extends l') (h' : l'.Extends l'') : l.Extends l'' where
  generation := h'.generation.trans h.generation
  before := h.before.trans h'.before
  last := h.last.trans h'.last
  kept := fun r hr hb => h'.kept r (h.kept r hr (h'.before.trans_lt hb)) hb

theorem Extends.old (h : l.Extends l') (hr : r ∈ l'.records) (hid : r.id ≤ l.last) : r ∈ l.records := by
  have hb := (bounds hr).1
  obtain ⟨x, hx, hxid⟩ := exists_id (h.before.trans_lt hb) hid
  have hx' : x ∈ l'.records := h.kept x hx (hxid ▸ hb)
  rw [eq_of_id hr hx' hxid.symm]
  exact hx

theorem last_append (l : Log) (stamp : ℕ) (sftp : Bool) : (l.append stamp sftp).last = l.last + 1 := by
  simp [last, append, Nat.add_assoc]

theorem extends_append (l : Log) (stamp : ℕ) (sftp : Bool) : l.Extends (l.append stamp sftp) where
  generation := rfl
  before := le_rfl
  last := by
    rw [last_append]
    exact Nat.le_succ _
  kept := fun _ hr _ => mem_append_left _ hr

/-- what a rollover drops has the numbers up to the new `before` -/
theorem rollover_dropped {k : ℕ} (h : r ∈ l.records.take k) : r.id ≤ (l.rollover k).before := by
  obtain ⟨i, hi, rfl⟩ := mem_iff_getElem.1 h
  have hid : (l.records.map Rec.id)[i]? = (range' (l.before + 1) l.records.length)[i]? := by rw [l.numbered]
  simp only [length_take, lt_inf_iff] at hi
  simp only [getElem?_map, getElem?_eq_getElem hi.2, Option.map_some, getElem?_range' hi.2, Option.some.injEq] at hid
  simp only [getElem_take, rollover]
  omega

theorem extends_rollover (l : Log) (k : ℕ) : l.Extends (l.rollover k) where
  generation := rfl
  before := Nat.le_add_right _ _
  last := by
    simp only [last, rollover, length_drop]
    omega
  kept := by
    intro r hr hb
    rw [← take_append_drop k l.records] at hr
    rcases mem_append.1 hr with h | h
    · exact absurd (rollover_dropped h) (Nat.not_le_of_lt hb)
    · exact h

/-- a clear after which the numbers go on -/
theorem extends_empty (l : Log) : l.Extends (empty l.generation l.last) where
  generation := rfl
  before := Nat.le_add_right _ _
  last := le_rfl
  kept := fun _ hr hb => absurd (bounds hr).2 (Nat.not_le_of_lt hb)

end Log

/-! ## The journal -/

/-- the texts of `Gap` -/
inductive Gap where
  | replaced
  | overwrote (first last : ℕ)
  | checkpointMissing
deriving DecidableEq, Repr

/-- `TransferJournalState`; an empty text is `none` -/
structure State where
  lastRecordId : ℕ
  generation : Option ℕ
  lastIdentity : Option ℕ
  gap : Option Gap
deriving DecidableEq, Repr

def State.new : State := ⟨0, none, none, none⟩

structure Snapshot where
  generation : ℕ
  checkpointIdentity : Option ℕ
  oldest : ℕ
  newest : ℕ
deriving DecidableEq, Repr

/-- `Anchor`: the identity of the record with a number -/
def anchor (l : Log) (id : ℕ) : Option ℕ :=
  if id = 0 then none else (l.records.find? fun r => r.id = id).map Rec.stamp

/-- `Inspect` -/
def inspect (l : Log) (checkpoint : ℕ) : Snapshot where
  generation := l.generation
  checkpointIdentity := anchor l checkpoint
  oldest := (l.records.head?.map Rec.id).getD 0
  newest := (l.records.getLast?.map Rec.id).getD 0

/-- the saved cursor belongs to another log -/
def isReset (st : State) (log : Snapshot) : Bool :=
  decide (st.lastRecordId > 0) &&
    (decide (log.newest < st.lastRecordId) || (st.generation.isSome && st.generation != some log.generation) ||
      (log.checkpointIdentity.isSome && st.lastIdentity.isSome && log.checkpointIdentity != st.lastIdentity))

/-- what the run finds missing -/
def findGap (st : State) (log : Snapshot) : Option Gap :=
  if isReset st log then some .replaced
  else if st.lastRecordId > 0 ∧ log.oldest > st.lastRecordId + 1 then
    some (.overwrote (st.lastRecordId + 1) (log.oldest - 1))
  else if st.lastRecordId > 0 ∧ log.checkpointIdentity = none ∧ log.oldest ≤ st.lastRecordId ∧
      log.newest ≥ st.lastRecordId then
    some .checkpointMissing
  else none

/-- `Prepare` -/
def prepare (st : State) (log : Snapshot) : State :=
  let st' :=
    match findGap st log with
    | none => st
    | some gap =>
      -- retained history is replayed after a replacement; records already consumed are not replayed on a wrap
      if isReset st log || decide (log.oldest ≤ st.lastRecordId) then
        { st with gap := some gap, lastRecordId := 0, lastIdentity := none }
      else { st with gap := some gap }
  { st' with generation := some log.generation }

def batchLimit : ℕ := 25000

/-- `ReadBatch` -/
def readBatch (l : Log) (after : ℕ) (snapshot : Snapshot) : List Rec :=
  (l.records.filter fun r => decide (after < r.id) && decide (r.id ≤ snapshot.newest)).take batchLimit

/-- `batch.LastRecordId` -/
def lastId (batch : List Rec) : ℕ := (batch.getLast?.map Rec.id).getD 0

/-- `Verify` -/
def verify (l : Log) (snapshot : Snapshot) (batch : List Rec) : Bool :=
  decide (l.generation = snapshot.generation) &&
    match batch.getLast? with
    | none => true
    | some r => anchor l r.id == some r.stamp

/-- `Apply`, as far as the cursor goes -/
def apply (st : State) (batch : List Rec) : State :=
  match batch.getLast? with
  | none => st
  | some r => { st with lastRecordId := r.id, lastIdentity := some r.stamp }

/-- the events that are parsed: those of `sftp-server` -/
def events (batch : List Rec) : List ℕ := (batch.filter Rec.sftp).map Rec.stamp

/-! ## Inspecting and preparing -/

section Prepare

variable {l : Log} {st : State}

theorem inspect_newest (l : Log) (c : ℕ) (h : l.records ≠ []) : (inspect l c).newest = l.last := by
  have hpos : l.before < l.last := Nat.lt_add_of_pos_right (length_pos_of_ne_nil h)
  obtain ⟨x, hx, hid⟩ := Log.exists_id hpos le_rfl
  have hlast : (l.records.getLast h).id = l.last := by
    refine le_antisymm (Log.bounds (getLast_mem h)).2 ?_
    -- no record comes after the last one
    rcases eq_nil_or_concat l.records with hnil | ⟨init, y, hy⟩
    · exact absurd hnil h
    have hsorted := l.sorted
    simp only [hy, concat_eq_append] at hx hsorted ⊢
    rw [getLast_append_singleton, ← hid]
    rcases mem_append.1 hx with hx | hx
    · exact ((pairwise_append.1 hsorted).2.2 x hx y mem_cons_self).le
    · rw [mem_singleton.1 hx]
  simp [inspect, getLast?_eq_some_getLast h, hlast]

theorem inspect_oldest (l : Log) (c : ℕ) (h : l.records ≠ []) : (inspect l c).oldest = l.before + 1 := by
  obtain ⟨x, xs, hx⟩ := exists_cons_of_ne_nil h
  have hnum := l.numbered
  rw [hx] at hnum
  simp [inspect, hx, (cons.inj hnum).1]

theorem inspect_empty (l : Log) (c : ℕ) (h : l.records = []) : (inspect l c).newest = 0 := by simp [inspect, h]

theorem newest_le (l : Log) (c : ℕ) : (inspect l c).newest ≤ l.last := by
  by_cases h : l.records = []
  · rw [inspect_empty l c h]
    exact Nat.zero_le _
  · exact (inspect_newest l c h).le

/-- consecutive numbers: between the oldest and the newest record no checkpoint is missing -/
theorem anchor_isSome {id : ℕ} (hpos : id ≠ 0) (hold : (inspect l id).oldest ≤ id) (hnew : id ≤ (inspect l id).newest) :
    (inspect l id).checkpointIdentity ≠ none := by
  have hne : l.records ≠ [] := by
    intro h
    rw [inspect_empty l id h] at hnew
    omega
  rw [inspect_oldest l id hne] at hold
  rw [inspect_newest l id hne] at hnew
  obtain ⟨r, hr, hid⟩ := Log.exists_id hold hnew
  simp only [inspect, anchor, if_neg hpos, ne_eq, Option.map_eq_none_iff, find?_eq_none, not_forall]
  exact ⟨r, hr, by simp [hid]⟩

theorem findGap_ne_missing (st : State) (l : Log) : findGap st (inspect l st.lastRecordId) ≠ some .checkpointMissing := by
  unfold findGap
  split
  · simp
  · split
    · simp
    · split
      · next h => exact absurd h.2.1 (anchor_isSome (Nat.pos_iff_ne_zero.1 h.1) h.2.2.1 h.2.2.2)
      · simp

theorem prepare_reset (h : isReset st (inspect l st.lastRecordId) = true) :
    (prepare st (inspect l st.lastRecordId)).lastRecordId = 0 := by
  simp [prepare, findGap, h]

section
variable (h : isReset st (inspect l st.lastRecordId) = false)
include h

theorem prepare_kept : (prepare st (inspect l st.lastRecordId)).lastRecordId = st.lastRecordId := by
  have hmissing := findGap_ne_missing st l
  unfold prepare
  cases hgap : findGap st (inspect l st.lastRecordId) with
  | none => rfl
  | some gap =>
    -- the only gap without a reset is a wrap, whose oldest record comes after the cursor
    have hover : st.lastRecordId + 1 < (inspect l st.lastRecordId).oldest := by
      unfold findGap at hgap hmissing
      rw [h, if_neg (by decide)] at hgap hmissing
      split at hgap
      · next hw => exact hw.2
      · next hw =>
        rw [if_neg hw] at hmissing
        split at hgap
        · next hm => rw [if_pos hm] at hmissing; exact absurd rfl hmissing
        · cases hgap
    have hno : ¬(inspect l st.lastRecordId).oldest ≤ st.lastRecordId := by omega
    simp [h, hno]

/-- a run without a reset has found its own log, at least as long as it was -/
theorem same_of_not_reset (hpos : st.lastRecordId ≠ 0) {g : ℕ} (hg : st.generation = some g) :
    g = l.generation ∧ st.lastRecordId ≤ (inspect l st.lastRecordId).newest ∧ l.records ≠ [] := by
  have hpos' : 0 < st.lastRecordId := Nat.pos_of_ne_zero hpos
  simp only [isReset, hpos', decide_true, Bool.true_and, Bool.or_eq_false_iff, hg, decide_eq_false_iff_not, Nat.not_lt] at h
  obtain ⟨⟨hnew, hgen⟩, -⟩ := h
  refine ⟨?_, hnew, fun hnil => ?_⟩
  · have : some g = some (inspect l st.lastRecordId).generation := by simpa using hgen
    exact Option.some.inj this
  · rw [inspect_empty l _ hnil] at hnew
    omega

end

/-- **A visible loss sets `Gap`.** Another generation, or records that start after the successor of the cursor. -/
theorem prepare_gap (hpos : st.lastRecordId ≠ 0) {g : ℕ} (hg : st.generation = some g)
    (h : g ≠ l.generation ∨ st.lastRecordId < l.before) : findGap st (inspect l st.lastRecordId) ≠ none := by
  cases hreset : isReset st (inspect l st.lastRecordId) with
  | true => simp [findGap, hreset]
  | false =>
    obtain ⟨hsame, -, hne⟩ := same_of_not_reset hreset hpos hg
    have hold := inspect_oldest l st.lastRecordId hne
    have hwrap : st.lastRecordId > 0 ∧ (inspect l st.lastRecordId).oldest > st.lastRecordId + 1 := by omega
    simp [findGap, hreset, hwrap]

end Prepare

/-! ## Batches -/

section Batch

variable {l : Log} {after : ℕ} {snapshot : Snapshot} {r : Rec}

theorem mem_readBatch (h : r ∈ readBatch l after snapshot) : r ∈ l.records ∧ after < r.id ∧ r.id ≤ snapshot.newest := by
  have := mem_of_mem_take h
  simpa using this

theorem le_lastId {batch : List Rec} (hsorted : batch.Pairwise fun a b => a.id < b.id) (h : r ∈ batch) :
    r.id ≤ lastId batch := by
  rcases eq_nil_or_concat batch with hnil | ⟨init, y, hy⟩
  · rw [hnil] at h
    cases h
  subst hy
  simp only [concat_eq_append] at h hsorted ⊢
  have hlast : lastId (init ++ [y]) = y.id := by simp [lastId]
  rw [hlast]
  rcases mem_append.1 h with h | h
  · exact ((pairwise_append.1 hsorted).2.2 r h y mem_cons_self).le
  · rw [mem_singleton.1 h]

theorem lastId_mem {batch : List Rec} (h : batch ≠ []) : ∃ r ∈ batch, r.id = lastId batch := by
  refine ⟨batch.getLast h, getLast_mem h, ?_⟩
  simp [lastId, getLast?_eq_some_getLast h]

theorem lastId_nil_of {batch : List Rec} (h : batch = []) : lastId batch = 0 := by simp [lastId, h]

/-- **No holes.** A batch has every record of the log between the cursor and its own last record. -/
theorem readBatch_upTo (h : r ∈ l.records) (ha : after < r.id) (hl : r.id ≤ lastId (readBatch l after snapshot)) :
    r ∈ readBatch l after snapshot := by
  have hne : readBatch l after snapshot ≠ [] := by
    intro hnil
    rw [lastId_nil_of hnil] at hl
    omega
  obtain ⟨y, hy, hyid⟩ := lastId_mem hne
  have hnewest : r.id ≤ snapshot.newest := (hyid ▸ hl).trans (mem_readBatch hy).2.2
  have hfilter : r ∈ l.records.filter fun r => decide (after < r.id) && decide (r.id ≤ snapshot.newest) := by
    simp [h, ha, hnewest]
  rw [← take_append_drop batchLimit
    (l.records.filter fun r => decide (after < r.id) && decide (r.id ≤ snapshot.newest))] at hfilter
  rcases mem_append.1 hfilter with hin | hout
  · exact hin
  -- what is left out comes after every record of the batch
  have hsorted : (l.records.filter fun r => decide (after < r.id) && decide (r.id ≤ snapshot.newest)).Pairwise
      fun a b => a.id < b.id := l.sorted.sublist filter_sublist
  rw [← take_append_drop batchLimit
    (l.records.filter fun r => decide (after < r.id) && decide (r.id ≤ snapshot.newest))] at hsorted
  have hlt : y.id < r.id := (pairwise_append.1 hsorted).2.2 y hy r hout
  omega

/-- a batch below the limit has everything up to the newest record that was seen -/
theorem readBatch_whole (hlen : l.records.length ≤ batchLimit) (h : r ∈ l.records) (ha : after < r.id)
    (hn : r.id ≤ snapshot.newest) : r ∈ readBatch l after snapshot := by
  unfold readBatch
  rw [take_of_length_le ((length_filter_le _ _).trans hlen)]
  simp [h, ha, hn]

theorem apply_lastRecordId (st : State) (batch : List Rec) :
    (apply st batch).lastRecordId = if batch = [] then st.lastRecordId else lastId batch := by
  rcases eq_nil_or_concat batch with hnil | ⟨init, y, hy⟩
  · simp [hnil, apply]
  · subst hy
    simp [apply, lastId]

theorem apply_generation (st : State) (batch : List Rec) : (apply st batch).generation = st.generation := by
  unfold apply
  split <;> rfl

end Batch

end OpenSSHServerPN.Journal
