/-
What the transfer list says about a session of `sftp-server` (Transfers.cs over `sftp-server.c`).

A closed file handle stands for an upload if something was written through it, or if it was opened for writing and nothing
was read, and for a download if something was read (`FileHandle.transfers`). `Faithful` says that the records the parser
makes from the lines of a session are these transfers, one handle after the other, and changes of names that were
completed.

The parser does not see handles. It keeps (name, flags) pairs and takes the first pair of a name for the handle that is
closed, takes the status that follows the line of an open request for the outcome of that request, and records a change
before its outcome is known. So the list is faithful to every session whose steps are `Orderly`:
- a request that changes a name succeeds, and a new name has no quote;
- files of one name that are open at the same time agree on whether they were opened for writing;
- the line after that of a successful open request is not a status;
- no line is cut or encoded, a count fits a `long`, and an open request without flags has no quote in its name.

The invariant (`Tracks`) compares counts: for each name, the parser has as many files open for writing as the server, and
at most as many others, and one of the two numbers is zero.

Results:
- `tracks_opened`, `tracks_closed`: what an open and a close do to the invariant, and that the paired file has the
  direction of the closed one;
- `parse_quiet`: lines about nothing of this leave the state alone;
- `step_reads`: one request;
- `session_records_faithful`: every session of orderly steps;
- `session_records_wrong`: a failed removal, a file open twice, a status after an open request.
-/
import OpenSSHServerPN.Lib.Runs
import OpenSSHServerPN.Manager.Transfers

namespace OpenSSHServerPN.Transfers

open Runs OpenSSHServerPN.Sftp List

/-! ## What the records should say -/

/-- the transfers a closed handle stands for: action, name and bytes -/
def transfersOfHandle (f : FileHandle) : List (Action × Text × ℕ) :=
  (if 0 < f.bytesWrite || f.flags.write && f.bytesRead == 0 then [(.upload, f.name, f.bytesWrite)] else []) ++
    if 0 < f.bytesRead then [(.download, f.name, f.bytesRead)] else []

/-- the record of a change: action, name and detail -/
def changeRecord : Change → Action × Text × Text
  | .remove name => (.delete, name, [])
  | .mkdir name _ => (.newFolder, name, [])
  | .rmdir name => (.removeFolder, name, [])
  | .rename old new => (.rename, new, "from " ++ old)
  | .posixRename old new => (.rename, new, "from " ++ old)

def TransferRecord.transfer (r : TransferRecord) : Option (Action × Text × ℕ) :=
  if r.action = .upload ∨ r.action = .download then some (r.action, r.file, r.bytes) else none

def TransferRecord.change (r : TransferRecord) : Option (Action × Text × Text) :=
  if r.action = .upload ∨ r.action = .download ∨ r.action = .refused then none else some (r.action, r.file, r.detail)

/-- `Parse` of the lines of a session -/
def recordsOf (pid : ℕ) (l : Login) (log : List Msg) : Option (List TransferRecord) :=
  (parse (fun _ => PidState.new) (log.map fun m => (pid, line l m))).map Prod.fst

/-- **The list is right about a session.** -/
def Faithful (pid : ℕ) (l : Login) (s : Session) : Prop :=
  ∃ recs, recordsOf pid l s.log = some recs ∧
    recs.filterMap TransferRecord.transfer = s.closed.flatMap transfersOfHandle ∧
    (recs.filterMap TransferRecord.change).Sublist (s.completed.map changeRecord)

/-! ## Orderly steps -/

/-- the first line that is not an error is a status -/
def startsWithStatus (ms : List Msg) : Bool :=
  match ms.dropWhile Msg.isError with
  | .sentStatus _ :: _ => true
  | _ => false

/-- the condition on the request itself -/
def OrderlyRequest (readonly : Bool) (s : Session) : Request → Prop
  | .openFile name flags _ result =>
    (openResult readonly flags result = none → ∀ f ∈ s.handles.files, f.name = name → f.flags.write = flags.write) ∧
      (stringFromPortable flags = [] → '"' ∉ name)
  | .change c result => result = none ∧ plainTarget c = true
  | _ => True

structure Orderly (readonly : Bool) (l : Login) (s : Session) (r : Request) : Prop where
  whole : ∀ m ∈ (process readonly s.handles r).2, Whole l m
  counts : ∀ f ∈ closedBy s.handles r, f.bytesRead < 2 ^ 63 ∧ f.bytesWrite < 2 ^ 63
  noStatus : s.justOpened = true → startsWithStatus (process readonly s.handles r).2 = false
  request : OrderlyRequest readonly s r

instance (readonly : Bool) (s : Session) : ∀ r, Decidable (OrderlyRequest readonly s r)
  | .openFile _ _ _ _ => inferInstanceAs (Decidable (_ ∧ _))
  | .change _ _ => inferInstanceAs (Decidable (_ ∧ _))
  | .close _ _ => isTrue trivial
  | .read _ _ => isTrue trivial
  | .write _ _ => isTrue trivial
  | .opendir _ _ => isTrue trivial
  | .copyData _ _ _ _ _ _ => isTrue trivial
  | .other _ _ => isTrue trivial
  | .refused => isTrue trivial
  | .exit => isTrue trivial

instance (readonly : Bool) (l : Login) (s : Session) (r : Request) : Decidable (Orderly readonly l s r) :=
  decidable_of_iff
    ((∀ m ∈ (process readonly s.handles r).2, Whole l m) ∧
      (∀ f ∈ closedBy s.handles r, f.bytesRead < 2 ^ 63 ∧ f.bytesWrite < 2 ^ 63) ∧
      (s.justOpened = true → startsWithStatus (process readonly s.handles r).2 = false) ∧
      OrderlyRequest readonly s r)
    ⟨fun h => ⟨h.1, h.2.1, h.2.2.1, h.2.2.2⟩, fun h => ⟨h.whole, h.counts, h.noStatus, h.request⟩⟩

/-! ## Open files by name and direction -/

def named (n : Text) (w : Bool) (f : FileHandle) : Bool := f.name = n && f.flags.write = w

def entered (n : Text) (w : Bool) (o : OpenedFile) : Bool := o.file = n && mentionsWrite o.flags = w

/-- the parser's list against the open files of the server -/
structure Tracks (fs : List FileHandle) (es : List OpenedFile) : Prop where
  agree : ∀ n, fs.countP (named n true) = 0 ∨ fs.countP (named n false) = 0
  writing : ∀ n, es.countP (entered n true) = fs.countP (named n true)
  reading : ∀ n, es.countP (entered n false) ≤ fs.countP (named n false)

variable {fs fs' : List FileHandle} {f : FileHandle} {result : Option Failure}

variable {es : List OpenedFile}

theorem Tracks.of_counts (h : Tracks fs es)
    (hc : ∀ n w, fs'.countP (named n w) = fs.countP (named n w)) : Tracks fs' es := by
  refine ⟨fun n => ?_, fun n => ?_, fun n => ?_⟩
  · rw [hc, hc]; exact h.agree n
  · rw [hc]; exact h.writing n
  · rw [hc]; exact h.reading n

theorem entered_eq_named (n : Text) (w : Bool) (f : FileHandle) :
    entered n w ⟨f.name, stringFromPortable f.flags⟩ = named n w f := by
  rw [entered, named, (stringFromPortable_word f.flags).2]

theorem named_iff {n : Text} {w : Bool} : named n w f = true ↔ f.name = n ∧ f.flags.write = w := by
  simp [named]

theorem agree_opened (h : ∀ n, fs.countP (named n true) = 0 ∨ fs.countP (named n false) = 0)
    (hother : fs.countP (named f.name (!f.flags.write)) = 0)
    (hfs : ∀ n w, fs'.countP (named n w) = fs.countP (named n w) + if named n w f then 1 else 0) (n : Text) :
    fs'.countP (named n true) = 0 ∨ fs'.countP (named n false) = 0 := by
  rw [hfs, hfs]
  by_cases hn : f.name = n
  · subst hn
    cases hw : f.flags.write with
    | true =>
      exact Or.inr (by simpa [named, hw] using hother)
    | false =>
      exact Or.inl (by simpa [named, hw] using hother)
  · simpa [named, hn] using h n

/-- **An open request that succeeds**, with flags: the parser enters the file. -/
theorem tracks_opened (h : Tracks fs es) (hother : fs.countP (named f.name (!f.flags.write)) = 0)
    (hfs : ∀ n w, fs'.countP (named n w) = fs.countP (named n w) + if named n w f then 1 else 0) :
    Tracks fs' (es ++ [⟨f.name, stringFromPortable f.flags⟩]) := by
  refine ⟨agree_opened h.agree hother hfs, fun n => ?_, fun n => ?_⟩
  · rw [countP_append, countP_singleton, entered_eq_named, hfs, h.writing]
  · rw [countP_append, countP_singleton, entered_eq_named, hfs]
    exact Nat.add_le_add_right (h.reading n) _

/-- without flags the parser does not see it; such a file is not open for writing -/
theorem tracks_opened_bare (h : Tracks fs es)
    (hother : fs.countP (named f.name (!f.flags.write)) = 0) (hbare : stringFromPortable f.flags = [])
    (hfs : ∀ n w, fs'.countP (named n w) = fs.countP (named n w) + if named n w f then 1 else 0) : Tracks fs' es := by
  have hw : f.flags.write = false := by rw [← (stringFromPortable_word f.flags).2, hbare]; rfl
  refine ⟨agree_opened h.agree hother hfs, fun n => ?_, fun n => ?_⟩
  · rw [hfs, h.writing]
    simp [named, hw]
  · rw [hfs]
    exact (h.reading n).trans (Nat.le_add_right _ _)

theorem countP_eraseP {α : Type} {p q : α → Bool} {es : List α} {o : α} (h : es.find? p = some o) :
    (es.eraseP p).countP q + (if q o then 1 else 0) = es.countP q := by
  induction es with
  | nil => cases h
  | cons a es ih =>
    by_cases ha : p a = true
    · rw [find?_cons_of_pos ha] at h
      rw [eraseP_cons_of_pos ha, countP_cons, Option.some.inj h]
    · rw [find?_cons_of_neg ha] at h
      rw [eraseP_cons_of_neg ha, countP_cons, countP_cons, ← ih h]
      omega

/-- the test of `FindIndex` -/
def sameName (n : Text) (o : OpenedFile) : Bool := o.file = n

/-- **Pairing.** The file a close is paired with has the direction of the closed handle; where the parser has none, the
handle was not open for writing. -/
theorem tracks_paired (h : Tracks fs es) (hf : 0 < fs.countP (named f.name f.flags.write)) :
    ((es.find? (sameName f.name)).map fun o => mentionsWrite o.flags).getD false = f.flags.write ∧
      ∀ o, es.find? (sameName f.name) = some o → ∀ n w, entered n w o = named n w f := by
  -- no entry of the name has the other direction
  have hnone : es.countP (entered f.name (!f.flags.write)) = 0 := by
    have ha := h.agree f.name
    have hw := h.writing f.name
    have hr := h.reading f.name
    cases hd : f.flags.write with
    | true =>
      rw [hd] at hf
      simp only [Bool.not_true]
      omega
    | false =>
      rw [hd] at hf
      simp only [Bool.not_false]
      omega
  have hdir : ∀ o, es.find? (sameName f.name) = some o → o.file = f.name ∧ mentionsWrite o.flags = f.flags.write := by
    intro o ho
    have hname : o.file = f.name := by simpa [sameName] using find?_some ho
    have hno := countP_eq_zero.1 hnone o (mem_of_find?_eq_some ho)
    exact ⟨hname, by simpa [entered, hname] using hno⟩
  refine ⟨?_, fun o ho n w => ?_⟩
  · cases ho : es.find? (sameName f.name) with
    | some o => simpa using (hdir o ho).2
    | none =>
      -- a file open for writing has an entry
      by_contra hne
      have hw : f.flags.write = true := by simpa using hne
      rw [hw, ← h.writing f.name] at hf
      obtain ⟨o, ho', he⟩ := countP_pos_iff.1 hf
      have hno := find?_eq_none.1 ho o ho'
      simp only [entered, Bool.and_eq_true] at he
      simp [sameName, he.1] at hno
  · obtain ⟨hname, hwrite⟩ := hdir o ho
    rw [entered, named, hname, hwrite]

/-- **A close** takes one file of the name from both sides. -/
theorem tracks_closed (h : Tracks fs es)
    (hfs : ∀ n w, fs'.countP (named n w) + (if named n w f then 1 else 0) = fs.countP (named n w)) :
    Tracks fs' (es.eraseP (sameName f.name)) := by
  have hf : 0 < fs.countP (named f.name f.flags.write) := by
    rw [← hfs, if_pos (named_iff.2 ⟨rfl, rfl⟩)]
    omega
  obtain ⟨hpair, hsame⟩ := tracks_paired h hf
  have hagree : ∀ n, fs'.countP (named n true) = 0 ∨ fs'.countP (named n false) = 0 := by
    intro n
    have ha := h.agree n
    rw [← hfs n true, ← hfs n false] at ha
    omega
  cases ho : es.find? (sameName f.name) with
  | some o =>
    have hcount : ∀ n w, (es.eraseP (sameName f.name)).countP (entered n w) + (if named n w f then 1 else 0) =
        es.countP (entered n w) := by
      intro n w
      rw [← countP_eraseP ho, hsame o ho]
    refine ⟨hagree, fun n => ?_, fun n => ?_⟩
    · have := h.writing n
      rw [← hcount, ← hfs] at this
      exact Nat.add_right_cancel this
    · have := h.reading n
      rw [← hcount, ← hfs] at this
      exact Nat.le_of_add_le_add_right this
  | none =>
    have hmiss : ∀ o ∈ es, ¬ sameName f.name o = true := find?_eq_none.1 ho
    have hw : f.flags.write = false := by
      rw [ho] at hpair
      exact hpair.symm
    rw [eraseP_of_forall_not hmiss]
    refine ⟨hagree, fun n => ?_, fun n => ?_⟩
    · rw [h.writing, ← hfs n true]
      simp [named, hw]
    by_cases hn : f.name = n
    · have hzero : es.countP (entered n false) = 0 :=
        countP_eq_zero.2 fun o ho' he => hmiss o ho' (by simp [sameName, entered, hn] at he ⊢; exact he.1)
      rw [hzero]
      exact Nat.zero_le _
    · have hr := h.reading n
      rw [← hfs n false] at hr
      simpa [named, hn] using hr

/-! ## Reading one line -/

variable {recs : List TransferRecord}

section Lines

variable {l : Login} {a : Option Text} {lo : Option OpenedFile} {es : List OpenedFile} {m : Msg}

/-- the parser's state inside a session of the account -/
def inSession (l : Login) (a : Option Text) (lo : Option OpenedFile) (es : List OpenedFile) : PidState :=
  ⟨some l.user, a, lo, some es⟩

theorem parseLine_info (hw : Whole l m) (hm : m.isError = false) :
    parseLine (inSession l a lo es) (line l m) = record (inSession l a lo es) l.user (classify (m.text l)) := by
  have hlogin : (inSession l a lo es).login l.user = inSession l a lo es := by simp [PidState.login, inSession, PidState.files]
  rw [parseLine, line_whole hw, matchLine_relayed l hm]
  simp only [hlogin]

theorem parseLine_error (hw : Whole l m) (hm : m.isError = true) :
    parseLine (inSession l a lo es) (line l m) = some ([], inSession l a lo es) := by
  rw [parseLine, line_whole hw, matchLine_error l hm]

theorem parseLine_inert (hw : Whole l m) (hm : inert m = true) :
    parseLine (inSession l a lo es) (line l m) = some ([], inSession l a none es) := by
  have herr : m.isError = false := by
    cases m <;> simp_all [inert, Msg.isError]
  rw [parseLine_info hw herr, classify_inert l hm]
  rfl

theorem parseLine_status {s : Failure} (hw : Whole l (.sentStatus s)) :
    parseLine (inSession l a none es) (line l (.sentStatus s)) = some ([], inSession l a none es) := by
  rw [parseLine_info hw rfl, classify_sentStatus]
  split <;> rfl

theorem parseLine_status_open (a : Option Text) (es : List OpenedFile) {s : Failure} {o : OpenedFile}
    (hw : Whole l (.sentStatus s)) :
    ∃ recs, parseLine (inSession l a (some o) (es ++ [o])) (line l (.sentStatus s)) =
        some (recs, inSession l a none es) ∧ ∀ r ∈ recs, r.action = .refused := by
  have herase : eraseLast o (es ++ [o]) = es := by simp [eraseLast]
  have hdenied : record (inSession l a (some o) (es ++ [o])) l.user .denied =
      some ([makeRecord (inSession l a (some o) (es ++ [o])) l.user .refused o.file 0
        (if mentionsWrite o.flags then "upload refused" else "download refused")],
        inSession l a none (eraseLast o (es ++ [o]))) := rfl
  have hfailed : record (inSession l a (some o) (es ++ [o])) l.user .failed =
      some ([], inSession l a none (eraseLast o (es ++ [o]))) := rfl
  rw [parseLine_info hw rfl, classify_sentStatus]
  split
  · rw [hdenied, herase]
    refine ⟨_, rfl, fun r hr => ?_⟩
    rw [mem_singleton.1 hr]
    rfl
  · rw [hfailed, herase]
    exact ⟨[], rfl, fun r hr => absurd hr not_mem_nil⟩

variable {name : Text} {flags : PFlags} {mode : ℕ}

theorem parseLine_open (hw : Whole l (.openFile name flags mode)) (hf : stringFromPortable flags ≠ []) :
    parseLine (inSession l a lo es) (line l (.openFile name flags mode)) =
      some ([], inSession l a (some ⟨name, stringFromPortable flags⟩) (es ++ [⟨name, stringFromPortable flags⟩])) := by
  rw [parseLine_info hw rfl, classify_open l name flags mode hf]
  rfl

theorem parseLine_open_bare (hw : Whole l (.openFile name flags mode))
    (hf : stringFromPortable flags = []) (hn : '"' ∉ name) :
    parseLine (inSession l a lo es) (line l (.openFile name flags mode)) = some ([], inSession l a none es) := by
  rw [parseLine_info hw rfl, classify_open_bare l name flags mode hf hn]
  rfl

theorem parseLine_change (a : Option Text) (lo : Option OpenedFile) (es : List OpenedFile) {c : Change}
    (hw : Whole l (.change c)) (hc : plainTarget c = true) :
    ∃ r, parseLine (inSession l a lo es) (line l (.change c)) = some ([r], inSession l a none es) ∧
      r.transfer = none ∧ r.change = some (changeRecord c) := by
  rw [parseLine_info hw rfl, show (Msg.change c).text l = c.text from rfl, classify_change c hc]
  cases c <;> exact ⟨_, rfl, rfl, rfl⟩

theorem parseLong_decimal {n : ℕ} (h : n < 2 ^ 63) : parseLong (decimal n) = some n := by
  have hv : Scan.value (decimal n) = n := Scan.value_toDigits n
  rw [parseLong, hv, if_pos h]

theorem parseLine_close (a : Option Text) (lo : Option OpenedFile) (es : List OpenedFile) {forced : Bool}
    (hw : Whole l (.close forced f)) (hr : f.bytesRead < 2 ^ 63)
    (hwr : f.bytesWrite < 2 ^ 63) : parseLine (inSession l a lo es) (line l (.close forced f)) =
      some (closeRecords (inSession l a lo es) l.user f.name (es.find? (sameName f.name)) f.bytesRead f.bytesWrite,
        inSession l a none (es.eraseP (sameName f.name))) := by
  rw [parseLine_info hw rfl, classify_close]
  simp only [record, parseLong_decimal hr, parseLong_decimal hwr]
  rfl

theorem closeRecords_paired (p : PidState) (user : Text) {found : Option OpenedFile}
    (h : (found.map fun o => mentionsWrite o.flags).getD false = f.flags.write) :
    (closeRecords p user f.name found f.bytesRead f.bytesWrite).filterMap TransferRecord.transfer = transfersOfHandle f ∧
      (closeRecords p user f.name found f.bytesRead f.bytesWrite).filterMap TransferRecord.change = [] := by
  rw [closeRecords, h, transfersOfHandle]
  split <;> split <;> exact ⟨rfl, rfl⟩

/-! ## Reading the lines of a request -/

theorem parsePid_cons {p q : PidState} {t : Text} (ts : List Text) (h : parseLine p t = some (recs, q)) :
    parsePid p (t :: ts) = (parsePid q ts).map fun r => (recs ++ r.1, r.2) := by
  rw [parsePid, h]

/-- errors, lines the parser has no use for, and statuses -/
def quiet : Msg → Bool
  | .sentStatus _ => true
  | m => m.isError || inert m

/-- **Quiet lines** leave the list of files as it is, if a status among them is not taken for that of an open request. -/
theorem parse_quiet (ms : List Msg) (hw : ∀ m ∈ ms, Whole l m) (hq : ∀ m ∈ ms, quiet m = true)
    (hs : lo.isSome = true → startsWithStatus ms = false) : parsePid (inSession l a lo es) (ms.map (line l)) =
      some ([], inSession l a (if ms.all Msg.isError then lo else none) es) := by
  induction ms generalizing lo with
  | nil => rfl
  | cons m ms ih =>
    have hwm : Whole l m := hw m mem_cons_self
    have hws : ∀ m ∈ ms, Whole l m := fun k hk => hw k (mem_cons_of_mem m hk)
    have hqs : ∀ m ∈ ms, quiet m = true := fun k hk => hq k (mem_cons_of_mem m hk)
    rw [map_cons]
    by_cases herr : m.isError = true
    · have hs' : lo.isSome = true → startsWithStatus ms = false := by
        intro h
        have := hs h
        rwa [startsWithStatus, dropWhile_cons_of_pos herr] at this
      rw [parsePid_cons _ (parseLine_error hwm herr), ih hws hqs hs', all_cons, herr]
      rfl
    · -- from here on no open request is pending
      have hline : parseLine (inSession l a lo es) (line l m) = some ([], inSession l a none es) := by
        cases m with
        | sentStatus s =>
          have hlo : lo = none := by
            cases lo with
            | none => rfl
            | some o => exact absurd (hs rfl) (by simp [startsWithStatus, Msg.isError])
          subst hlo
          exact parseLine_status hwm
        | _ => exact parseLine_inert hwm (by simpa [quiet, herr] using hq _ mem_cons_self)
      rw [parsePid_cons _ hline, ih hws hqs (fun h => absurd h (by simp))]
      simp [herr]

/-- what reading the lines of a request gives -/
def StepReads (readonly : Bool) (l : Login) (s : Session) (r : Request) (a : Option Text) (lo : Option OpenedFile)
    (es : List OpenedFile) : Prop :=
  ∃ recs lo' es', parsePid (inSession l a lo es) ((process readonly s.handles r).2.map (line l)) =
      some (recs, inSession l a lo' es') ∧
    Tracks (process readonly s.handles r).1.files es' ∧
    (lo'.isSome = true → (if (process readonly s.handles r).2.all Msg.isError then s.justOpened
      else opensFile readonly r) = true) ∧
    recs.filterMap TransferRecord.transfer = (closedBy s.handles r).flatMap transfersOfHandle ∧
    recs.filterMap TransferRecord.change = (completedBy r).map changeRecord

variable {readonly : Bool} {s : Session} {r : Request}

/-- a request with quiet lines that closes no file and opens none -/
theorem step_quiet (ho : Orderly readonly l s r) (ht : Tracks s.handles.files es)
    (hp : lo.isSome = true → s.justOpened = true) (hq : ∀ m ∈ (process readonly s.handles r).2, quiet m = true)
    (hcount : ∀ n w, (process readonly s.handles r).1.files.countP (named n w) = s.handles.files.countP (named n w))
    (hclosed : closedBy s.handles r = []) (hcompleted : completedBy r = []) : StepReads readonly l s r a lo es := by
  refine ⟨[], _, es, parse_quiet _ ho.whole hq (fun h => ho.noStatus (hp h)), ht.of_counts hcount, ?_, ?_, ?_⟩
  · intro h
    split at h
    · next hall => rw [if_pos hall]; exact hp h
    · cases h
  · rw [hclosed]; rfl
  · rw [hcompleted]; rfl

theorem quiet_sendStatus : ∀ m ∈ sendStatus result, quiet m = true := by
  cases result <;> simp [sendStatus, quiet]

theorem parse_sendStatus (hw : ∀ m ∈ sendStatus result, Whole l m) :
    parsePid (inSession l a none es) ((sendStatus result).map (line l)) = some ([], inSession l a none es) := by
  rw [parse_quiet _ hw quiet_sendStatus (fun h => absurd h (by simp)), ite_self]

theorem records_refused (h : ∀ r ∈ recs, r.action = .refused) :
    recs.filterMap TransferRecord.transfer = [] ∧ recs.filterMap TransferRecord.change = [] := by
  constructor
  · exact filterMap_eq_nil_iff.2 fun r hr => by simp [TransferRecord.transfer, h r hr]
  · exact filterMap_eq_nil_iff.2 fun r hr => by simp [TransferRecord.change, h r hr]

theorem step_openFile (ho : Orderly readonly l s (.openFile name flags mode result)) (ht : Tracks s.handles.files es) :
    StepReads readonly l s (.openFile name flags mode result) a lo es := by
  have hlines : (process readonly s.handles (.openFile name flags mode result)).2 =
      .openFile name flags mode :: sendStatus (openResult readonly flags result) := rfl
  have hwhole := ho.whole
  have hwo : Whole l (.openFile name flags mode) := hwhole _ mem_cons_self
  have hws : ∀ m ∈ sendStatus (openResult readonly flags result), Whole l m :=
    fun m hm => hwhole m (mem_cons_of_mem _ hm)
  cases hres : openResult readonly flags result with
  | none =>
    have hnew : (process readonly s.handles (.openFile name flags mode result)).1 =
        s.handles.new (.file ⟨name, flags, 0, 0⟩) := by simp only [process, hres]
    have hother : s.handles.files.countP (named name (!flags.write)) = 0 := by
      refine countP_eq_zero.2 fun f hf hn => ?_
      obtain ⟨hname, hw⟩ := named_iff.1 hn
      rw [ho.request.1 hres f hf hname] at hw
      simp at hw
    have hopens : opensFile readonly (.openFile name flags mode result) = true := by simp [opensFile, hres]
    rw [StepReads, hlines, hnew, hres]
    by_cases hf : stringFromPortable flags = []
    · refine ⟨[], none, es, ?_, tracks_opened_bare ht hother hf fun n w => s.handles.new_files _, by simp, rfl, rfl⟩
      exact parsePid_cons _ (parseLine_open_bare hwo hf (ho.request.2 hf))
    · refine ⟨[], some ⟨name, stringFromPortable flags⟩, _, ?_,
        tracks_opened ht hother fun n w => s.handles.new_files _, fun _ => ?_, rfl, rfl⟩
      · exact parsePid_cons _ (parseLine_open hwo hf)
      · simpa [Msg.isError] using hopens
  | some e =>
    have hsame : (process readonly s.handles (.openFile name flags mode result)).1 = s.handles := by
      simp only [process, hres]
    rw [hres] at hws
    rw [StepReads, hlines, hsame, hres]
    by_cases hf : stringFromPortable flags = []
    · refine ⟨[], none, es, ?_, ht, by simp, rfl, rfl⟩
      rw [map_cons, parsePid_cons _ (parseLine_open_bare hwo hf (ho.request.2 hf)), parse_sendStatus hws]
      rfl
    -- the status takes the entry back
    obtain ⟨recs, hrecs, href⟩ := parseLine_status_open a es
      (hws (.sentStatus e) mem_cons_self)
    refine ⟨recs, none, es, ?_, ht, by simp, (records_refused href).1, (records_refused href).2⟩
    rw [map_cons, parsePid_cons _ (parseLine_open hwo hf), sendStatus, map_cons, parsePid_cons _ hrecs]
    simp [parsePid]

theorem step_close {i : ℕ} (ho : Orderly readonly l s (.close i result))
    (ht : Tracks s.handles.files es) (hp : lo.isSome = true → s.justOpened = true) :
    StepReads readonly l s (.close i result) a lo es := by
  by_cases hu : s.handles.used i = true
  · obtain ⟨slot, hslot, hne⟩ := (s.handles.used_iff i).1 hu
    have hgetD : s.handles.slots.getD i .unused = slot := by rw [getD_eq_getElem?_getD, hslot, Option.getD_some]
    have hproc : process readonly s.handles (.close i result) =
        (s.handles.release i, logClose false slot :: sendStatus result) := by
      simp only [process, hu, if_true, hgetD]
    cases slot with
    | unused => exact absurd rfl hne
    | dir name =>
      have hfile : s.handles.file? i = none := by simp [Handles.file?, hslot, Slot.file?]
      refine step_quiet ho ht hp ?_ ?_ ?_ rfl
      · rw [hproc]
        intro m hm
        rcases mem_cons.1 hm with rfl | hm
        · rfl
        · exact quiet_sendStatus m hm
      · intro n w
        rw [hproc]
        have := Handles.release_files (p := named n w) hslot hne
        simpa [Handles.onFile] using this
      · rw [closedBy, hfile]
        rfl
    | file f =>
      have hfile : s.handles.file? i = some f := Handles.file?_eq_some.2 hslot
      have hclosed : closedBy s.handles (.close i result) = [f] := by rw [closedBy, hfile]; rfl
      have hcount : ∀ n w, (s.handles.release i).files.countP (named n w) + (if named n w f then 1 else 0) =
          s.handles.files.countP (named n w) := fun n w => Handles.release_files hslot hne
      have hpos : 0 < s.handles.files.countP (named f.name f.flags.write) := by
        rw [← hcount, if_pos (named_iff.2 ⟨rfl, rfl⟩)]
        omega
      obtain ⟨hr, hw⟩ := ho.counts f (by rw [hclosed]; exact mem_cons_self)
      have hwhole := ho.whole
      rw [hproc] at hwhole
      have hline := parseLine_close a lo es (hwhole _ mem_cons_self) hr hw
      have hrecs := closeRecords_paired (inSession l a lo es) l.user (tracks_paired ht hpos).1
      rw [StepReads, hproc, hclosed]
      refine ⟨_, none, _, ?_, tracks_closed ht hcount, by simp, ?_, hrecs.2⟩
      · rw [map_cons, logClose, parsePid_cons _ hline,
          parse_sendStatus fun m hm => hwhole m (mem_cons_of_mem _ hm), Option.map_some, append_nil]
      · rw [hrecs.1]
        simp
  · have hproc : process readonly s.handles (.close i result) =
        (s.handles, [.closedir false none, .sentStatus .noSuchFile]) := by
      simp only [process, hu]
      rfl
    have hfile : s.handles.file? i = none := by
      by_contra hf
      obtain ⟨f, hf⟩ := Option.ne_none_iff_exists'.1 hf
      exact hu ((s.handles.used_iff i).2 ⟨.file f, Handles.file?_eq_some.1 hf, by simp⟩)
    refine step_quiet ho ht hp ?_ (fun n w => by rw [hproc]) ?_ rfl
    · rw [hproc]
      simp [quiet, inert]
    · rw [closedBy, hfile]
      rfl

theorem step_change {c : Change} (ho : Orderly readonly l s (.change c result))
    (ht : Tracks s.handles.files es) : StepReads readonly l s (.change c result) a lo es := by
  obtain ⟨rfl, hc⟩ := ho.request
  obtain ⟨r, hline, htransfer, hchange⟩ := parseLine_change a lo es
    (ho.whole (.change c) mem_cons_self) hc
  refine ⟨[r], none, es, parsePid_cons _ hline, ht, by simp, ?_, ?_⟩
  · simp [htransfer, closedBy]
  · simp [hchange, completedBy]

/-- **One request** before the exit. -/
theorem step_reads (a : Option Text) (hr : r ≠ .exit) (ho : Orderly readonly l s r) (ht : Tracks s.handles.files es)
    (hp : lo.isSome = true → s.justOpened = true) : StepReads readonly l s r a lo es := by
  have hupdate : ∀ (h : Handles) i x y n w, (h.update i x y).files.countP (named n w) = h.files.countP (named n w) :=
    fun h i x y n w => h.update_files i x y fun _ _ _ => rfl
  cases r with
  | openFile name flags mode result => exact step_openFile ho ht
  | close i result => exact step_close ho ht hp
  | change c result => exact step_change ho ht
  | exit => exact absurd rfl hr
  | read | write =>
    refine step_quiet ho ht hp ?_ ?_ rfl rfl
    · simp only [process]
      split <;> simp [quiet, Msg.isError]
    · simp only [process]
      split <;> simp [hupdate]
  | opendir name result =>
    refine step_quiet ho ht hp ?_ ?_ rfl rfl
    · intro m hm
      rcases mem_cons.1 hm with rfl | hm
      · rfl
      · exact quiet_sendStatus m hm
    · intro n w
      simp only [process]
      cases result with
      | some e => rfl
      | none => simpa [Handles.onFile] using s.handles.new_files (.dir name)
  | copyData i j x y errors result =>
    refine step_quiet ho ht hp ?_ ?_ rfl rfl
    · intro m hm
      simp only [process] at hm
      split at hm
      · rcases mem_append.1 hm with hm | hm
        · obtain ⟨t, -, rfl⟩ := mem_map.1 hm
          rfl
        · exact quiet_sendStatus m hm
      · rcases mem_append.1 hm with hm | hm
        · obtain ⟨t, -, rfl⟩ := mem_map.1 hm
          rfl
        · rw [mem_singleton.1 hm]
          rfl
    · simp only [process]
      split <;> simp [hupdate]
  | other notes result =>
    refine step_quiet ho ht hp ?_ (fun _ _ => rfl) rfl rfl
    intro m hm
    rcases mem_append.1 hm with hm | hm
    · obtain ⟨n, -, rfl⟩ := mem_map.1 hm
      cases n <;> rfl
    · exact quiet_sendStatus m hm
  | refused =>
    refine step_quiet ho ht hp ?_ (fun _ _ => rfl) rfl rfl
    intro m hm
    rw [mem_singleton.1 hm]
    rfl

/-! ## The exit -/

theorem parse_forced (a : Option Text) (lo : Option OpenedFile) (slots : List Slot) (hused : ∀ x ∈ slots, x ≠ .unused)
    (hw : ∀ x ∈ slots, Whole l (logClose true x))
    (hc : ∀ f ∈ slots.filterMap Slot.file?, f.bytesRead < 2 ^ 63 ∧ f.bytesWrite < 2 ^ 63)
    (ht : Tracks (slots.filterMap Slot.file?) es) :
    ∃ recs lo' es', parsePid (inSession l a lo es) ((slots.map (logClose true)).map (line l)) =
        some (recs, inSession l a lo' es') ∧
      recs.filterMap TransferRecord.transfer = (slots.filterMap Slot.file?).flatMap transfersOfHandle ∧
      recs.filterMap TransferRecord.change = [] := by
  induction slots generalizing lo es with
  | nil => exact ⟨[], lo, es, rfl, rfl, rfl⟩
  | cons x slots ih =>
    have hused' : ∀ y ∈ slots, y ≠ .unused := fun y hy => hused y (mem_cons_of_mem x hy)
    have hw' : ∀ y ∈ slots, Whole l (logClose true y) := fun y hy => hw y (mem_cons_of_mem x hy)
    rw [map_cons, map_cons]
    cases x with
    | unused => exact absurd rfl (hused _ mem_cons_self)
    | dir name =>
      obtain ⟨recs, lo', es', hparse, htr, hch⟩ := ih none hused' hw' hc ht
      refine ⟨recs, lo', es', ?_, htr, hch⟩
      rw [parsePid_cons _ (parseLine_inert (hw _ mem_cons_self) rfl), hparse]
      rfl
    | file f =>
      have hfs : (Slot.file f :: slots).filterMap Slot.file? = f :: slots.filterMap Slot.file? := rfl
      have hcount : ∀ n w, (slots.filterMap Slot.file?).countP (named n w) + (if named n w f then 1 else 0) =
          (f :: slots.filterMap Slot.file?).countP (named n w) := fun n w => (countP_cons ..).symm
      have hpos : 0 < (f :: slots.filterMap Slot.file?).countP (named f.name f.flags.write) := by
        rw [← hcount, if_pos (named_iff.2 ⟨rfl, rfl⟩)]
        omega
      obtain ⟨hr, hwr⟩ := hc f mem_cons_self
      obtain ⟨recs, lo', es', hparse, htr, hch⟩ :=
        ih none hused' hw' (fun g hg => hc g (mem_cons_of_mem f hg)) (tracks_closed ht hcount)
      have hrecs := closeRecords_paired (inSession l a lo es) l.user (tracks_paired ht hpos).1
      refine ⟨closeRecords (inSession l a lo es) l.user f.name (es.find? (sameName f.name)) f.bytesRead f.bytesWrite ++ recs,
        lo', es', ?_, ?_, ?_⟩
      · rw [logClose, parsePid_cons _ (parseLine_close a lo es (hw _ mem_cons_self) hr hwr), hparse]
        rfl
      · rw [filterMap_append, hrecs.1, htr, hfs, flatMap_cons]
      · rw [filterMap_append, hrecs.2, hch, nil_append]

theorem files_inUse (h : Handles) : h.inUse.filterMap Slot.file? = h.files := by
  unfold Handles.inUse Handles.files
  induction h.slots with
  | nil => rfl
  | cons x slots ih => cases x <;> simp_all [Slot.file?, filterMap_cons]

theorem step_exit (a : Option Text) (lo : Option OpenedFile) (ho : Orderly readonly l s .exit) (ht : Tracks s.handles.files es) :
    ∃ recs, parsePid (inSession l a lo es) ((process readonly s.handles .exit).2.map (line l)) =
        some (recs, PidState.new) ∧
      recs.filterMap TransferRecord.transfer = (closedBy s.handles .exit).flatMap transfersOfHandle ∧
      recs.filterMap TransferRecord.change = (completedBy .exit).map changeRecord := by
  have hlines : (process readonly s.handles .exit).2 = s.handles.inUse.map (logClose true) ++ [.sessionClosed] := rfl
  have hwhole := ho.whole
  have hcounts := ho.counts
  rw [show closedBy s.handles .exit = s.handles.files from rfl, ← files_inUse] at hcounts
  rw [← files_inUse] at ht
  have hused : ∀ x ∈ s.handles.inUse, x ≠ Slot.unused := fun x hx => by simpa using (mem_filter.1 hx).2
  obtain ⟨recs, lo', es', hparse, htr, hch⟩ := parse_forced a lo s.handles.inUse hused
    (fun x hx => hwhole _ (mem_append_left _ (mem_map_of_mem hx))) hcounts ht
  have hclosed : parseLine (inSession l a lo' es') (line l .sessionClosed) = some ([], PidState.new) := by
    rw [parseLine_info (hwhole _ (mem_append_right _ mem_cons_self)) rfl, classify_sessionClosed]
    rfl
  refine ⟨recs, ?_, ?_, hch⟩
  · rw [hlines, map_append, parsePid_append _ hparse, map_cons, parsePid_cons _ hclosed]
    simp [parsePid]
  · rw [htr, files_inUse]
    rfl

end Lines

/-! ## Sessions -/

/-- the records so far, and the parser's state against the server's while the session runs -/
structure Reads (l : Login) (s : Session) (recs : List TransferRecord) (p : PidState) : Prop where
  parsed : parsePid PidState.new (s.log.map (line l)) = some (recs, p)
  transfers : recs.filterMap TransferRecord.transfer = s.closed.flatMap transfersOfHandle
  changes : recs.filterMap TransferRecord.change = s.completed.map changeRecord
  running : s.ended = false → ∃ a lo es, p = inSession l a lo es ∧ Tracks s.handles.files es ∧
    (lo.isSome = true → s.justOpened = true)

variable {l : Login}

theorem reads_start (hw : Whole l .sessionOpened) : ∃ recs p, Reads l Session.start recs p := by
  have hline : ∃ a, parseLine PidState.new (line l .sessionOpened) = some ([], inSession l a none []) := by
    rw [parseLine, line_whole hw, matchLine_relayed l rfl]
    rcases classify_sessionOpened l with ⟨address, h⟩ | h
    · exact ⟨some address, by simp only [h]; rfl⟩
    · exact ⟨none, by simp only [h]; rfl⟩
  obtain ⟨a, ha⟩ := hline
  refine ⟨[], inSession l a none [], ?_, rfl, rfl, fun _ => ⟨a, none, [], rfl, ?_, by simp⟩⟩
  · exact parsePid_cons [] ha
  · exact ⟨fun _ => Or.inl rfl, fun _ => rfl, fun _ => Nat.le_refl _⟩

variable {s : Session}

/-- **One step** of a session. -/
theorem reads_step {readonly : Bool} {r : Request} (h : ∃ recs p, Reads l s recs p)
    (ho : Orderly readonly l s r) : ∃ recs p, Reads l (step readonly s r) recs p := by
  obtain ⟨recs, p, hreads⟩ := h
  cases hend : s.ended with
  | true =>
    refine ⟨recs, p, ?_⟩
    rw [step, hend]
    exact hreads
  | false =>
    obtain ⟨a, lo, es, rfl, ht, hp⟩ := hreads.running hend
    rw [step, if_neg (by simp [hend])]
    by_cases hr : r = .exit
    · subst hr
      obtain ⟨recs', hparse, htr, hch⟩ := step_exit a lo ho ht
      refine ⟨recs ++ recs', PidState.new, ?_, ?_, ?_, fun hc => absurd hc (by simp)⟩
      · simp only [map_append]
        rw [parsePid_append _ hreads.parsed, hparse]
        rfl
      · rw [filterMap_append, hreads.transfers, htr, flatMap_append]
      · rw [filterMap_append, hreads.changes, hch, map_append]
    · obtain ⟨recs', lo', es', hparse, ht', hp', htr, hch⟩ := step_reads a hr ho ht hp
      refine ⟨recs ++ recs', inSession l a lo' es', ?_, ?_, ?_, fun _ => ⟨a, lo', es', rfl, ht', hp'⟩⟩
      · simp only [map_append]
        rw [parsePid_append _ hreads.parsed, hparse]
        rfl
      · rw [filterMap_append, hreads.transfers, htr, flatMap_append]
      · rw [filterMap_append, hreads.changes, hch, map_append]

theorem faithful_of_reads {pid : ℕ} (h : ∃ recs p, Reads l s recs p) : Faithful pid l s := by
  obtain ⟨recs, p, hreads⟩ := h
  refine ⟨recs, ?_, hreads.transfers, hreads.changes ▸ List.Sublist.refl _⟩
  have hmap : (s.log.map fun m => (pid, line l m)) = (s.log.map (line l)).map fun t => (pid, t) := by simp
  rw [recordsOf, hmap, parse_pid, hreads.parsed]
  rfl

/-- **The list is right about orderly sessions.** In every session each of whose requests is orderly in the state in which
it is processed, in read-only mode or not, the records made from the lines so far are those of the handles closed so far,
and of completed changes. -/
theorem session_records_faithful (readonly : Bool) (pid : ℕ) (l : Login) (rs : List Request)
    (hw : Whole l .sessionOpened) (ho : Always (step readonly) (Orderly readonly l) Session.start rs) :
    Faithful pid l (run (step readonly) Session.start rs) := by
  have hreads := run_inv (I := fun s => ∃ recs p, Reads l s recs p) (fun _ _ => reads_step) rs
    (reads_start hw) ho
  exact faithful_of_reads hreads

/-! ## Sessions the list is wrong about -/

def bob : Login := ⟨"bob", "bob", "10.0.0.7", by decide, by decide⟩

def readFlags : PFlags := ⟨true, false, false, false, false, false⟩

def writeFlags : PFlags := ⟨false, true, false, true, true, false⟩

/-- an upload, a download and a new folder, with a refused open request in between -/
theorem session_records_faithful_mixed : Faithful 7 bob (run (step false) Session.start
      [.openFile "/a" writeFlags 438 none, .openFile "/b" readFlags 438 none, .read 1 (.data 5),
        .openFile "/c" writeFlags 438 (some .permissionDenied), .write 0 (.written 3), .close 0 none,
        .change (.mkdir "/d" 511) none, .exit]) :=
  session_records_faithful false 7 bob _ (by decide) (by decide)

theorem not_faithful {pid : ℕ} (h : recordsOf pid l s.log = some recs)
    (hne : recs.filterMap TransferRecord.transfer ≠ s.closed.flatMap transfersOfHandle ∨
      ¬ (recs.filterMap TransferRecord.change).Sublist (s.completed.map changeRecord)) : ¬ Faithful pid l s := by
  rintro ⟨recs', h', htr, hch⟩
  rw [h] at h'
  obtain rfl := Option.some.inj h'
  exact hne.elim (fun hn => hn htr) (fun hn => hn hch)

/-- a removal that fails is recorded as a deletion; of a file open for writing and for reading, the close of the reader is
recorded as an upload; a status that follows a successful open request hides the upload of an empty file -/
theorem session_records_wrong :
    (¬ Faithful 7 bob (run (step false) Session.start [.change (.remove "/a") (some .noSuchFile), .exit])) ∧
    (¬ Faithful 7 bob (run (step false) Session.start
      [.openFile "/a" writeFlags 438 none, .openFile "/a" readFlags 438 none, .close 1 none])) ∧
    ¬ Faithful 7 bob (run (step false) Session.start
      [.openFile "/a" writeFlags 438 none, .other [] (some .noSuchFile), .close 0 none]) := by
  have hdelete : recordsOf 7 bob (run (step false) Session.start
      [.change (.remove "/a") (some .noSuchFile), .exit]).log =
      some [⟨bob.user, bob.clientAddr, .delete, "/a", 0, []⟩] := by decide +kernel
  have hupload : recordsOf 7 bob (run (step false) Session.start
      [.openFile "/a" writeFlags 438 none, .openFile "/a" readFlags 438 none, .close 1 none]).log =
      some [⟨bob.user, bob.clientAddr, .upload, "/a", 0, []⟩] := by decide +kernel
  have hlost : recordsOf 7 bob (run (step false) Session.start
      [.openFile "/a" writeFlags 438 none, .other [] (some .noSuchFile), .close 0 none]).log = some [] := by
    decide +kernel
  exact ⟨not_faithful hdelete (by decide), not_faithful hupload (by decide), not_faithful hlost (by decide)⟩

end OpenSSHServerPN.Transfers
