/-
Transfer records from the log lines of `sftp-server` (`Parse` in Transfers.cs).

Model: the parser keeps, for each process id, the user, the client's address, the open request of the line before and the
list of files it takes to be open, as pairs of a name and the text of the flags. `classify` is the chain of patterns in
the order of the source; a greedy `.*` ends at the last occurrence of what follows it (`lastSplit`), the lazy loops of the
line pattern at the first one. A log line has no line break, since the log encodes it. `record` is what the parser does
with a line; a byte count beyond a `long` is an exception, which ends the parsing. The copies of the event's own fields
(time, channel, record id) are left out of a record.

A close is paired with the first file of its name in the list; the flags found there decide about an upload of no bytes.
The records for a removal, a renaming, a new folder and a removed folder are made when the line of the request is read.
An open request is taken back when the next line of the process is a status.

Results:
- `matchLine_relayed`: the user and the message of a line are read back;
- `classify_open`, `classify_close`, `classify_change`, `classify_sentStatus`, ...: what each line of a session is read as;
- `parse_pid`, `parsePid_append`: a process is parsed from its own state, piece by piece.
-/
import OpenSSHServerPN.Lib.Scan
import OpenSSHServerPN.Sftp.Session

namespace OpenSSHServerPN.Transfers

open Scan OpenSSHServerPN.Sftp
open List hiding after

/-! ## Records and state -/

inductive Action where
  | upload
  | download
  | delete
  | rename
  | newFolder
  | removeFolder
  | refused
deriving DecidableEq, Repr

structure TransferRecord where
  user : Text
  address : Text
  action : Action
  file : Text
  bytes : ℕ
  detail : Text
deriving DecidableEq, Repr

/-- a file the parser takes to be open -/
structure OpenedFile where
  file : Text
  flags : Text
deriving DecidableEq, Repr

/-- the entries of `ParserState` for one process id -/
structure PidState where
  user : Option Text
  address : Option Text
  lastOpen : Option OpenedFile
  active : Option (List OpenedFile)
deriving DecidableEq, Repr

def PidState.new : PidState := ⟨none, none, none, none⟩

def PidState.files (p : PidState) : List OpenedFile := p.active.getD []

/-! ## Patterns -/

/-- `(?: \[postauth\])?$` behind a lazy loop -/
def stripPostauth (t : Text) : Text :=
  match lastSplit " [postauth]" isEmpty t with
  | some p => p.1
  | none => t

/-- `Line`: the user and the rest -/
def matchLine (text : Text) : Option (Text × Text) :=
  match after "user: " text with
  | some (c :: t) => (firstSplit ": " t).map fun p => (c :: p.1, stripPostauth p.2)
  | _ => none

/-- `SessionOpened`: the address -/
def sessionOpened (rest : Text) : Option Text :=
  match after "session opened for local user " rest with
  | some (_ :: t) =>
    (lastSplit " from [" (fun u => u.contains ']') t).map fun p => p.2.takeWhile fun c => c != ']'
  | _ => none

/-- `\S` -/
def nonSpace (c : Char) : Bool := !c.isWhitespace

/-- the text starts with `\S` -/
def startsWord (u : Text) : Bool := (u.head?.map nonSpace).getD false

/-- `Open` -/
def openPattern (rest : Text) : Option OpenedFile :=
  (after "open \"" rest).bind fun t =>
    (lastSplit "\" flags " startsWord t).map fun p => ⟨p.1, p.2.takeWhile nonSpace⟩

/-- `(?<r>\d+) written (?<w>\d+)$` -/
def byteCounts (u : Text) : Option (Text × Text) :=
  if u.takeWhile Char.isDigit = [] then none
  else
    (after " written " (u.dropWhile Char.isDigit)).bind fun w =>
      if w ≠ [] ∧ w.all Char.isDigit = true then some (u.takeWhile Char.isDigit, w) else none

/-- `Close`: the name and the byte counts -/
def closePattern (rest : Text) : Option (Text × Text × Text) :=
  (after "close \"" ((after "forced " rest).getD rest)).bind fun t =>
    (lastSplit "\" bytes read " (fun u => (byteCounts u).isSome) t).bind fun p =>
      (byteCounts p.2).map fun c => (p.1, c)

/-- `(?<f>.*)"$` -/
def upToLastQuote (t : Text) : Option Text := if t.getLast? = some '"' then some t.dropLast else none

/-- `Remove` -/
def removePattern (rest : Text) : Option Text := (after "remove name \"" rest).bind upToLastQuote

/-- `Rename`: the old and the new name -/
def renamePattern (rest : Text) : Option (Text × Text) :=
  (after "rename old \"" ((after "posix-" rest).getD rest)).bind fun t =>
    (lastSplit "\" new \"" (fun u => (upToLastQuote u).isSome) t).bind fun p =>
      (upToLastQuote p.2).map fun n => (p.1, n)

/-- `Mkdir` -/
def mkdirPattern (rest : Text) : Option Text :=
  (after "mkdir name \"" rest).bind fun t => (lastSplit "\"" (fun _ => true) t).map Prod.fst

/-- `Rmdir` -/
def rmdirPattern (rest : Text) : Option Text := (after "rmdir name \"" rest).bind upToLastQuote

/-- `^request \d+: sent status \d+$` -/
def requestStatus (rest : Text) : Bool :=
  match after "request " rest with
  | none => false
  | some t =>
    t.takeWhile Char.isDigit ≠ [] &&
      match after ": sent status " (t.dropWhile Char.isDigit) with
      | none => false
      | some n => n ≠ [] && n.all Char.isDigit

/-- what a line is taken for -/
inductive Entry where
  /-- the lines of a finer log level that belong to an open request -/
  | explanation
  | sessionOpened (address : Text)
  | sessionClosed
  | opened (o : OpenedFile)
  | closed (file read written : Text)
  | removed (file : Text)
  | renamed (old new : Text)
  | madeDir (file : Text)
  | removedDir (file : Text)
  /-- `sent status Permission denied` -/
  | denied
  /-- `sent status` with another text than `Success` -/
  | failed
  | other
deriving DecidableEq, Repr

/-- a test as a step of the chain -/
def whenever (b : Bool) (e : Entry) : Option Entry := if b then some e else none

def classify (rest : Text) : Entry :=
  ((whenever (rest = "Refusing open request in read-only mode" || requestStatus rest) .explanation).or <|
    ((sessionOpened rest).map .sessionOpened).or <|
    (whenever (after "session closed for local user " rest).isSome .sessionClosed).or <|
    ((openPattern rest).map .opened).or <|
    ((closePattern rest).map fun c => .closed c.1 c.2.1 c.2.2).or <|
    ((removePattern rest).map .removed).or <|
    ((renamePattern rest).map fun r => .renamed r.1 r.2).or <|
    ((mkdirPattern rest).map .madeDir).or <|
    ((rmdirPattern rest).map .removedDir).or <|
    (whenever (after "sent status Permission denied" rest).isSome .denied).or <|
    whenever ((after "sent status " rest).isSome && rest ≠ "sent status Success") .failed).getD .other

/-! ## Parsing -/

/-- `Contains("WRITE")` -/
def mentionsWrite : Text → Bool
  | [] => false
  | c :: t => (after "WRITE" (c :: t)).isSome || mentionsWrite t

/-- `long.Parse` of digits -/
def parseLong (t : Text) : Option ℕ := if value t < 2 ^ 63 then some (value t) else none

/-- the state a line with this user is read in -/
def PidState.login (p : PidState) (user : Text) : PidState :=
  match p.user with
  | some previous => if previous = user then { p with active := some p.files } else ⟨some user, none, none, some []⟩
  | none => { p with user := some user, active := some p.files }

/-- `FindLastIndex` and `RemoveAt` -/
def eraseLast (o : OpenedFile) (l : List OpenedFile) : List OpenedFile := (l.reverse.erase o).reverse

def makeRecord (p : PidState) (user : Text) (action : Action) (file : Text) (bytes : ℕ) (detail : Text) :
    TransferRecord :=
  ⟨user, p.address.getD [], action, file, bytes, detail⟩

/-- the records of a close: `found` is the file the close is paired with -/
def closeRecords (p : PidState) (user file : Text) (found : Option OpenedFile) (read written : ℕ) :
    List TransferRecord :=
  (if 0 < written || (found.map fun o => mentionsWrite o.flags).getD false && read == 0 then
      [makeRecord p user .upload file written []]
    else []) ++
    if 0 < read then [makeRecord p user .download file read []] else []

/-- what the parser does with a line, for the state `login` gives -/
def record (p : PidState) (user : Text) : Entry → Option (List TransferRecord × PidState)
  | .explanation => some ([], p)
  | .sessionOpened address => some ([], { p with lastOpen := none, address := some address, active := some [] })
  | .sessionClosed => some ([], ⟨none, none, none, none⟩)
  | .opened o => some ([], { p with lastOpen := some o, active := some (p.files ++ [o]) })
  | .closed file read written =>
    match parseLong read, parseLong written with
    | some r, some w =>
      some (closeRecords p user file (p.files.find? fun o => o.file = file) r w,
        { p with lastOpen := none, active := some (p.files.eraseP fun o => o.file = file) })
    | _, _ => none
  | .removed file => some ([makeRecord p user .delete file 0 []], { p with lastOpen := none })
  | .renamed old new =>
    some ([makeRecord p user .rename new 0 ("from " ++ old)], { p with lastOpen := none })
  | .madeDir file => some ([makeRecord p user .newFolder file 0 []], { p with lastOpen := none })
  | .removedDir file => some ([makeRecord p user .removeFolder file 0 []], { p with lastOpen := none })
  | .denied =>
    match p.lastOpen with
    | some o =>
      some ([makeRecord p user .refused o.file 0
          (if mentionsWrite o.flags then "upload refused" else "download refused")],
        { p with lastOpen := none, active := some (eraseLast o p.files) })
    | none => some ([], { p with lastOpen := none })
  | .failed =>
    match p.lastOpen with
    | some o => some ([], { p with lastOpen := none, active := some (eraseLast o p.files) })
    | none => some ([], { p with lastOpen := none })
  | .other => some ([], { p with lastOpen := none })

/-- one event of a process -/
def parseLine (p : PidState) (text : Text) : Option (List TransferRecord × PidState) :=
  match matchLine text with
  | none => some ([], p)
  | some (user, rest) => record (p.login user) user (classify rest)

/-- the parser's state, by process id -/
abbrev State : Type := ℕ → PidState

/-- `Parse`: the records of a list of events, each a process id and a text -/
def parse : State → List (ℕ × Text) → Option (List TransferRecord × State)
  | st, [] => some ([], st)
  | st, (pid, text) :: events =>
    match parseLine (st pid) text with
    | none => none
    | some (recs, p) => (parse (Function.update st pid p) events).map fun r => (recs ++ r.1, r.2)

/-- the events of one process -/
def parsePid : PidState → List Text → Option (List TransferRecord × PidState)
  | p, [] => some ([], p)
  | p, text :: texts =>
    match parseLine p text with
    | none => none
    | some (recs, q) => (parsePid q texts).map fun r => (recs ++ r.1, r.2)

/-- **Each process has its own state.** Its events are parsed from its own entry, and no other one changes. -/
theorem parse_pid (st : State) (pid : ℕ) (texts : List Text) : parse st (texts.map fun t => (pid, t)) =
      (parsePid (st pid) texts).map fun r => (r.1, Function.update st pid r.2) := by
  induction texts generalizing st with
  | nil => simp [parse, parsePid]
  | cons t texts ih =>
    rw [map_cons, parse, parsePid]
    cases hl : parseLine (st pid) t with
    | none => rfl
    | some q =>
      simp only [ih, Function.update_self, Function.update_idem, Option.map_map]
      rfl

theorem parsePid_append {p p₁ : PidState} {r₁ : List TransferRecord} {a : List Text} (b : List Text)
    (ha : parsePid p a = some (r₁, p₁)) : parsePid p (a ++ b) = (parsePid p₁ b).map fun r => (r₁ ++ r.1, r.2) := by
  induction a generalizing p r₁ with
  | nil =>
    obtain ⟨rfl, rfl⟩ := Prod.mk.inj (Option.some.inj ha)
    simp
  | cons t a ih =>
    rw [cons_append, parsePid]
    rw [parsePid] at ha
    cases hl : parseLine p t with
    | none => simp [hl] at ha
    | some q =>
      simp only [hl, Option.map_eq_some_iff] at ha
      obtain ⟨⟨r, q'⟩, hr, he⟩ := ha
      obtain ⟨rfl, rfl⟩ := Prod.mk.inj he
      simp only [ih hr, Option.map_map, Function.comp_def, append_assoc]

/-! ## Reading the lines of a session -/

section Lines

variable (l : Login)

theorem stripPostauth_append (t : Text) : stripPostauth (t ++ " [postauth]".toList) = t := by
  have h : lastSplit " [postauth]".toList isEmpty (t ++ (" [postauth]".toList ++ [])) = some (t, []) := by
    refine lastSplit_append t (by decide) rfl fun a v ha e => ?_
    have hlen := congrArg length e
    have hpos : 0 < a.length := length_pos_iff.2 ha
    simp only [length_append] at hlen
    simp only [length_nil] at hlen
    omega
  rw [append_nil] at h
  rw [stripPostauth, h]

/-- **The user and the message of a line are read back.** -/
theorem matchLine_relayed {m : Msg} (hm : m.isError = false) : matchLine (m.relayed l) = some (l.user, m.text l) := by
  have hlevel : m.level = [] := by
    unfold Msg.level
    split
    · cases hm
    · rfl
  obtain ⟨c, u, huser⟩ := exists_cons_of_ne_nil l.user_ne
  have hcu : ':' ∉ u := fun h => l.user_colon (huser ▸ mem_cons_of_mem c h)
  have hsplit : firstSplit ": ".toList (u ++ (": ".toList ++ (m.text l ++ " [postauth]".toList))) =
      some (u, m.text l ++ " [postauth]".toList) := firstSplit_marked hcu
  rw [Msg.relayed, hlevel, nil_append, matchLine, after_append, huser, cons_append]
  simp only [hsplit, Option.map_some, stripPostauth_append]

/-- a line at level ERROR does not start with the user -/
theorem matchLine_error {m : Msg} (hm : m.isError = true) : matchLine (m.relayed l) = none := by
  cases m with
  | note n =>
    cases n with
    | error text => rfl
    | _ => cases hm
  | _ => cases hm

theorem not_mem_of_digits {t : Text} (h : ∀ c ∈ t, c.isDigit = true) : '"' ∉ t := fun hq => absurd (h '"' hq) (by decide)

theorem octal_no_quote (n : ℕ) : '"' ∉ octal n := by
  have h := @not_mem_of_digits (Nat.toDigits 8 n) fun _ => Nat.isDigit_of_mem_toDigits (by decide) (by decide)
  simp only [octal, mem_cons, not_or]
  exact ⟨by decide, h⟩

theorem decimal_digits (n : ℕ) : ∀ c ∈ decimal n, c.isDigit = true :=
  fun _ => Nat.isDigit_of_mem_toDigits (by decide) (by decide)

theorem stringFromPortable_word (p : PFlags) :
    (∀ c ∈ stringFromPortable p, nonSpace c = true ∧ c ≠ '"') ∧ mentionsWrite (stringFromPortable p) = p.write := by
  obtain ⟨r, w, a, c, t, e⟩ := p
  have h : ∀ r w a c t e : Bool, ((stringFromPortable ⟨r, w, a, c, t, e⟩).all fun c => nonSpace c && c != '"') = true ∧
      mentionsWrite (stringFromPortable ⟨r, w, a, c, t, e⟩) = w := by decide
  have hp := h r w a c t e
  simpa using hp

theorem quoted_append (t u : Text) : quoted t ++ u = '"' :: (t ++ '"' :: u) := by simp [quoted]

/-! ### Open -/

/-- what follows the name in the line of an open request -/
def openTail (flags : PFlags) (mode : ℕ) : Text := stringFromPortable flags ++ (" mode " ++ octal mode)

variable (name : Text) (flags : PFlags) (mode : ℕ)

theorem openTail_no_quote : '"' ∉ openTail flags mode := by
  simp only [openTail, mem_append, not_or]
  exact ⟨fun h => ((stringFromPortable_word flags).1 _ h).2 rfl, by decide, octal_no_quote mode⟩

theorem startsWord_openTail : startsWord (openTail flags mode) = !(stringFromPortable flags).isEmpty := by
  unfold openTail
  cases h : stringFromPortable flags with
  | nil => rfl
  | cons c t =>
    have hc : nonSpace c = true := ((stringFromPortable_word flags).1 c (h ▸ mem_cons_self)).1
    simp [startsWord, hc]

theorem takeWhile_openTail : (openTail flags mode).takeWhile nonSpace = stringFromPortable flags := by
  have hall : ∀ c ∈ stringFromPortable flags, nonSpace c = true := fun c hc => ((stringFromPortable_word flags).1 c hc).1
  rw [openTail, takeWhile_append_of_pos hall]
  exact append_nil _

theorem openPattern_front (name u : Text) : openPattern ("open " ++ (quoted name ++ (" flags " ++ u))) =
      (lastSplit "\" flags " startsWord (name ++ ("\" flags " ++ u))).map fun p => ⟨p.1, p.2.takeWhile nonSpace⟩ := by
  have htext : "open " ++ (quoted name ++ (" flags " ++ u)) = "open \"" ++ (name ++ ("\" flags " ++ u)) := by
    rw [quoted_append]
    rfl
  rw [htext]
  rfl

theorem classify_open (hf : stringFromPortable flags ≠ []) :
    classify ((Msg.openFile name flags mode).text l) = .opened ⟨name, stringFromPortable flags⟩ := by
  have hstart : startsWord (openTail flags mode) = true := by
    rw [startsWord_openTail]
    simpa using hf
  have hsplit := lastSplit_marked startsWord (s := " flags ") name (by decide) (openTail_no_quote flags mode) hstart
  have hopen : openPattern ((Msg.openFile name flags mode).text l) = some ⟨name, stringFromPortable flags⟩ := by
    refine (openPattern_front name (openTail flags mode)).trans ?_
    exact (congrArg (Option.map _) hsplit).trans (by simp [takeWhile_openTail])
  rw [classify, hopen]
  rfl

theorem classify_open_bare (hf : stringFromPortable flags = [])
    (hn : '"' ∉ name) : classify ((Msg.openFile name flags mode).text l) = .other := by
  have hsplit : lastSplit "\" flags " startsWord (name ++ ("\" flags " ++ openTail flags mode)) = none := by
    refine lastSplit_eq_none fun a u e => ?_
    have hq : '"' ∉ " flags " ++ openTail flags mode := by
      simp only [mem_append, not_or]
      exact ⟨by decide, openTail_no_quote flags mode⟩
    -- the only quote is the one behind the name
    have htail : " flags " ++ openTail flags mode = " flags " ++ u :=
      ((append_cons_inj_of_notMem hn hq).1 e).2.2
    rw [← append_cancel_left htail, startsWord_openTail, hf]
    rfl
  have hopen : openPattern ((Msg.openFile name flags mode).text l) = none := by
    exact (openPattern_front name (openTail flags mode)).trans (congrArg (Option.map _) hsplit)
  rw [classify, hopen]
  rfl

/-! ### Close -/

theorem decimal_ne_nil (n : ℕ) : decimal n ≠ [] := Nat.toDigits_ne_nil

theorem byteCounts_text (r w : ℕ) :
    byteCounts (decimal r ++ (" written " ++ decimal w)) = some (decimal r, decimal w) := by
  have htake : (decimal r ++ (" written " ++ decimal w)).takeWhile Char.isDigit = decimal r := by
    rw [takeWhile_append_of_pos (decimal_digits r)]
    exact append_nil _
  have hdrop : (decimal r ++ (" written " ++ decimal w)).dropWhile Char.isDigit = " written " ++ decimal w := by
    rw [dropWhile_append_of_pos (decimal_digits r)]
    rfl
  have hall : (decimal w).all Char.isDigit = true := all_eq_true.2 (decimal_digits w)
  rw [byteCounts, htake, hdrop, after_append, if_neg (decimal_ne_nil r)]
  exact if_pos ⟨decimal_ne_nil w, hall⟩

theorem closePattern_front (forced : Bool) (name u : Text) :
    closePattern (forcedText forced ++ ("close " ++ (quoted name ++ (" bytes read " ++ u)))) =
      (lastSplit "\" bytes read " (fun u => (byteCounts u).isSome)
        (name ++ ("\" bytes read " ++ u))).bind fun p => (byteCounts p.2).map fun c => (p.1, c) := by
  have htext : "close " ++ (quoted name ++ (" bytes read " ++ u)) =
      "close \"" ++ (name ++ ("\" bytes read " ++ u)) := by
    rw [quoted_append]
    rfl
  rw [htext]
  cases forced with
  | true =>
    rfl
  | false =>
    rfl

theorem classify_close (forced : Bool) (f : FileHandle) :
    classify ((Msg.close forced f).text l) = .closed f.name (decimal f.bytesRead) (decimal f.bytesWrite) := by
  have hq : '"' ∉ decimal f.bytesRead ++ (" written " ++ decimal f.bytesWrite) := by
    simp only [mem_append, not_or]
    exact ⟨not_mem_of_digits (decimal_digits _), by decide, not_mem_of_digits (decimal_digits _)⟩
  have hcounts := byteCounts_text f.bytesRead f.bytesWrite
  have hsplit := lastSplit_marked (fun u => (byteCounts u).isSome) (s := " bytes read ") f.name (by decide) hq
    (by rw [hcounts]; rfl)
  have hclose : closePattern ((Msg.close forced f).text l) =
      some (f.name, decimal f.bytesRead, decimal f.bytesWrite) := by
    refine (closePattern_front forced f.name _).trans ?_
    refine (congrArg (fun o => Option.bind o _) hsplit).trans ?_
    rw [Option.bind_some, hcounts]
    rfl
  rw [classify, hclose]
  cases forced <;> rfl

/-! ### The other lines -/

theorem upToLastQuote_append (t : Text) : upToLastQuote (t ++ ['"']) = some t := by
  simp [upToLastQuote]

/-- what the line of a change is read as -/
def changeEntry : Change → Entry
  | .remove name => .removed name
  | .mkdir name _ => .madeDir name
  | .rmdir name => .removedDir name
  | .rename old new => .renamed old new
  | .posixRename old new => .renamed old new

/-- a new name without a quote -/
def plainTarget : Change → Bool
  | .rename _ new => !new.contains '"'
  | .posixRename _ new => !new.contains '"'
  | _ => true

theorem renamePattern_front (posix : Bool) (old new : Text) (hn : '"' ∉ new) :
    renamePattern ((if posix then "posix-".toList else []) ++
      ("rename old " ++ (quoted old ++ (" new " ++ quoted new)))) = some (old, new) := by
  have htext : "rename old " ++ (quoted old ++ (" new " ++ quoted new)) =
      "rename old \"" ++ (old ++ ("\" new \"" ++ (new ++ ['"']))) := by
    rw [quoted_append]
    rfl
  have hlast := upToLastQuote_append new
  have hsplit := lastSplit_enclosed (fun u => (upToLastQuote u).isSome) (s := " new ") (x := old)
    (by decide) hn (by rw [hlast]; rfl) rfl
  have hfront : (after "posix-".toList ((if posix then "posix-".toList else []) ++
      ("rename old \"".toList ++ (old ++ ("\" new \"".toList ++ (new ++ ['"'])))))).getD
        ((if posix then "posix-".toList else []) ++
          ("rename old \"".toList ++ (old ++ ("\" new \"".toList ++ (new ++ ['"']))))) =
      "rename old \"".toList ++ (old ++ ("\" new \"".toList ++ (new ++ ['"']))) := by
    cases posix with
    | true => rw [if_pos rfl, after_append, Option.getD_some]
    | false => rfl
  rw [htext, renamePattern, hfront]
  refine (congrArg (fun o => Option.bind o _) hsplit).trans ?_
  rw [Option.bind_some, hlast]
  rfl

/-- **The line of a change** is read with its names. -/
theorem classify_change (c : Change) (hc : plainTarget c = true) : classify (c.text) = changeEntry c := by
  cases c with
  | remove name =>
    have h : removePattern (Change.text (.remove name)) = some name := upToLastQuote_append name
    rw [classify, h]
    rfl
  | mkdir name mode =>
    have hq : '"' ∉ " mode ".toList ++ octal mode := by
      simp only [mem_append, not_or]
      exact ⟨by decide, octal_no_quote mode⟩
    have hsplit := lastSplit_marked (fun _ => true) (s := []) name (by simp) hq rfl
    have htext : Change.text (.mkdir name mode) =
        "mkdir name \"".toList ++ (name ++ ("\"".toList ++ (" mode ".toList ++ octal mode))) := by
      change "mkdir name ".toList ++ (quoted name ++ _) = _
      rw [quoted_append]
      rfl
    have h : mkdirPattern (Change.text (.mkdir name mode)) = some name := by
      rw [htext]
      exact congrArg (Option.map Prod.fst) hsplit
    rw [classify, h]
    rfl
  | rmdir name =>
    have h : rmdirPattern (Change.text (.rmdir name)) = some name := upToLastQuote_append name
    rw [classify, h]
    rfl
  | rename old new =>
    have hn : '"' ∉ new := by simpa [plainTarget] using hc
    have h : renamePattern (Change.text (.rename old new)) = some (old, new) := renamePattern_front false old new hn
    rw [classify, h]
    rfl
  | posixRename old new =>
    have hn : '"' ∉ new := by simpa [plainTarget] using hc
    have h : renamePattern (Change.text (.posixRename old new)) = some (old, new) := renamePattern_front true old new hn
    rw [classify, h]
    rfl

theorem classify_sentStatus (s : Failure) :
    classify ((Msg.sentStatus s).text l) = if s = .permissionDenied then .denied else .failed := by
  cases s <;> rfl

/-- the lines the parser has no use for -/
def inert : Msg → Bool
  | .closedir _ _ => true
  | .opendir _ => true
  | .note n => !(Msg.note n).isError
  | _ => false

theorem classify_inert {m : Msg} (hm : inert m = true) : classify (m.text l) = .other := by
  cases m with
  | closedir forced name => cases forced <;> rfl
  | opendir name => rfl
  | note n =>
    cases n with
    | error text => cases hm
    | _ => rfl
  | _ => cases hm

theorem classify_sessionClosed : classify (Msg.sessionClosed.text l) = .sessionClosed := rfl

theorem classify_sessionOpened : (∃ address, classify (Msg.sessionOpened.text l) = .sessionOpened address) ∨
      classify (Msg.sessionOpened.text l) = .other := by
  rw [classify]
  cases h : sessionOpened (Msg.sessionOpened.text l) with
  | none => exact Or.inr rfl
  | some address => exact Or.inl ⟨address, rfl⟩

end Lines

end OpenSSHServerPN.Transfers
