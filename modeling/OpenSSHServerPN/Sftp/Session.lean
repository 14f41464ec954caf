/-
A session of `sftp-server` and what it logs at level INFO (`sftp-server.c`, `monitor.c`, `log.c`).

Model: the handle table (`Handles`) is the array `handles` with the chain of unused entries; an entry of the chain is
unused and stands in it once. A `Request` carries its outcome: what the file system answered. `process` gives the new
handle table and the statements the request logs. `logit` statements are written before the operation; `send_status` logs
a status other than success and end of file; `error` statements are logged at level ERROR; `verbose` and `debug`
statements are not logged. A failed call sets `errno`, so it never yields the status of success. Requests that concern
neither a file handle nor a change of a name (`stat`, `setstat`, `symlink`, `statvfs`, ...) are `other`, with the
statements they log. `exit` is `sftp_server_cleanup_exit`, which logs every handle still in use as a forced close.

A statement reaches the event log through `sshd`, which writes `user: <name>: <message> [postauth]`, with `error: ` in
front at that level, cuts the line to its buffer and encodes it (`line`).

Results:
- `new_files`, `release_files`, `update_files`: how many open files have a property after each operation on the table;
- `line_whole`: a line without encoded characters that fits the buffer is logged as it is.
-/
import OpenSSHServerPN.Log.Lines

namespace OpenSSHServerPN.Sftp

open List

/-! ## Open flags and statuses -/

/-- the bits `SSH2_FXF_*` of an open request -/
structure PFlags where
  read : Bool
  write : Bool
  append : Bool
  creat : Bool
  trunc : Bool
  excl : Bool
deriving DecidableEq, Repr

/-- `PAPPEND`, if the bit is set -/
def pappend (set : Bool) (str ret : Text) : Text :=
  if set then (if ret = [] then str else ret ++ ',' :: str) else ret

/-- `string_from_portable` -/
def stringFromPortable (p : PFlags) : Text :=
  pappend p.excl "EXCL" <| pappend p.trunc "TRUNCATE" <| pappend p.creat "CREATE" <|
    pappend p.append "APPEND" <| pappend p.write "WRITE" <| pappend p.read "READ" []

/-- the test of `process_open` in read-only mode, on the flags `flags_from_portable` gives -/
def PFlags.changes (p : PFlags) : Bool := p.write || p.creat || p.trunc

/-- the statuses of `errno_to_portable` for a failed call, with `SSH2_FX_FAILURE` -/
inductive Failure where
  | noSuchFile
  | permissionDenied
  | failure
  | badMessage
  | opUnsupported
deriving DecidableEq, Repr

/-- `status_to_message` -/
def statusToMessage : Failure → Text
  | .noSuchFile => "No such file"
  | .permissionDenied => "Permission denied"
  | .failure => "Failure"
  | .badMessage => "Bad message"
  | .opUnsupported => "Operation unsupported"

/-! ## The handle table -/

/-- an open file; the counts are 64-bit -/
structure FileHandle where
  name : Text
  flags : PFlags
  bytesRead : ℕ
  bytesWrite : ℕ
deriving DecidableEq, Repr

inductive Slot where
  | unused
  | dir (name : Text)
  | file (f : FileHandle)
deriving DecidableEq, Repr

def Slot.file? : Slot → Option FileHandle
  | .file f => some f
  | _ => none

structure Handles where
  slots : List Slot
  /-- the chain that starts at `first_unused_handle` -/
  chain : List ℕ
  chain_unused : ∀ i ∈ chain, slots[i]? = some .unused
  chain_nodup : chain.Nodup

namespace Handles

def empty : Handles := ⟨[], [], by simp, List.nodup_nil⟩

/-- an entry that is not unused is not in the chain -/
theorem not_mem_chain (h : Handles) {i : ℕ} {s : Slot} (hi : h.slots[i]? = some s) (hs : s ≠ .unused) :
    i ∉ h.chain := by
  intro hm
  rw [h.chain_unused i hm] at hi
  exact hs (Option.some.inj hi).symm

theorem chain_unused_set (h : Handles) {c : List ℕ} {i : ℕ} (s : Slot) (hsub : ∀ j ∈ c, j ∈ h.chain) (hi : i ∉ c) :
    ∀ j ∈ c, (h.slots.set i s)[j]? = some .unused := by
  intro j hj
  have hne : i ≠ j := by
    rintro rfl
    exact hi hj
  rw [List.getElem?_set_ne hne]
  exact h.chain_unused j (hsub j hj)

/-- `handle_new` -/
def new (h : Handles) (s : Slot) : Handles :=
  match hc : h.chain with
  | [] => ⟨h.slots ++ [s], [], by simp, List.nodup_nil⟩
  | i :: rest =>
    have hnd : (i :: rest).Nodup := hc ▸ h.chain_nodup
    ⟨h.slots.set i s, rest,
      h.chain_unused_set s (fun j hj => hc ▸ List.mem_cons_of_mem i hj) (List.nodup_cons.1 hnd).1, (List.nodup_cons.1 hnd).2⟩

/-- the file handle at an index, if `handle_is_ok` for a file -/
def file? (h : Handles) (i : ℕ) : Option FileHandle :=
  h.slots[i]?.bind Slot.file?

/-- the handle at an index is in use -/
def used (h : Handles) (i : ℕ) : Bool :=
  match h.slots[i]? with
  | some .unused => false
  | some _ => true
  | none => false

theorem used_iff (h : Handles) (i : ℕ) : h.used i = true ↔ ∃ s, h.slots[i]? = some s ∧ s ≠ .unused := by
  unfold used
  cases hs : h.slots[i]? with
  | none => simp
  | some s => cases s <;> simp

theorem file?_eq_some {h : Handles} {i : ℕ} {f : FileHandle} :
    h.file? i = some f ↔ h.slots[i]? = some (Slot.file f) := by
  unfold file?
  cases hs : h.slots[i]? with
  | none => simp
  | some s => cases s <;> simp [Slot.file?]

/-- `handle_unused`, for a handle in use -/
def release (h : Handles) (i : ℕ) : Handles :=
  if hu : h.used i = true then
    have hi : i ∉ h.chain := by
      obtain ⟨s, hs, hne⟩ := (h.used_iff i).1 hu
      exact h.not_mem_chain hs hne
    have hlt : i < h.slots.length := by
      obtain ⟨s, hs, -⟩ := (h.used_iff i).1 hu
      exact (List.getElem?_eq_some_iff.1 hs).1
    ⟨h.slots.set i .unused, i :: h.chain, by
        intro j hj
        rcases List.mem_cons.1 hj with rfl | hj
        · exact List.getElem?_set_self hlt
        · exact h.chain_unused_set .unused (fun _ hk => hk) hi j hj,
      List.nodup_cons.2 ⟨hi, h.chain_nodup⟩⟩
  else h

/-- `handle_update_read` and `handle_update_write`: the counts wrap at 64 bits -/
def update (h : Handles) (i read written : ℕ) : Handles :=
  match hf : h.file? i with
  | none => h
  | some f =>
    ⟨h.slots.set i (.file { f with
        bytesRead := (f.bytesRead + read) % 2 ^ 64, bytesWrite := (f.bytesWrite + written) % 2 ^ 64 }), h.chain,
      h.chain_unused_set _ (fun _ hk => hk) (h.not_mem_chain (file?_eq_some.1 hf) (by simp)), h.chain_nodup⟩

/-- the open files, in the order of the table -/
def files (h : Handles) : List FileHandle := h.slots.filterMap Slot.file?

/-- the handles in use, in the order of the table -/
def inUse (h : Handles) : List Slot := h.slots.filter fun s => s != .unused

end Handles

/-! ## Requests -/

/-- the requests that change a name -/
inductive Change where
  | remove (name : Text)
  | mkdir (name : Text) (mode : ℕ)
  | rmdir (name : Text)
  | rename (old new : Text)
  | posixRename (old new : Text)
deriving DecidableEq, Repr

/-- the other statements logged at INFO, and those logged at ERROR -/
inductive Note where
  /-- `set "%s" ...`, from the requests that set attributes -/
  | set (name what : Text)
  | symlink (old new : Text)
  | hardlink (old new : Text)
  | statvfs (name : Text)
  | error (text : Text)
deriving DecidableEq, Repr

inductive Msg where
  | sessionOpened
  | sessionClosed
  | openFile (name : Text) (flags : PFlags) (mode : ℕ)
  | close (forced : Bool) (f : FileHandle)
  /-- `none`: not a valid handle -/
  | closedir (forced : Bool) (name : Option Text)
  | opendir (name : Text)
  | change (c : Change)
  | note (n : Note)
  | sentStatus (s : Failure)
deriving DecidableEq, Repr

/-- how a read ends -/
inductive ReadResult where
  | data (len : ℕ)
  | eof
  | failed (s : Failure) (text : Text)
deriving DecidableEq, Repr

/-- how a write ends; `short`: not everything was written -/
inductive WriteResult where
  | written (len : ℕ)
  | short
  | failed (s : Failure) (text : Text)
deriving DecidableEq, Repr

/-- a request with its outcome; `none` as an outcome is success -/
inductive Request where
  | openFile (name : Text) (flags : PFlags) (mode : ℕ) (result : Option Failure)
  | close (handle : ℕ) (result : Option Failure)
  | read (handle : ℕ) (result : ReadResult)
  | write (handle : ℕ) (result : WriteResult)
  | opendir (name : Text) (result : Option Failure)
  /-- the bytes read and written before the end, and the errors logged -/
  | copyData (readHandle writeHandle : ℕ) (read written : ℕ) (errors : List Text) (result : Option Failure)
  | change (c : Change) (result : Option Failure)
  | other (notes : List Note) (result : Option Failure)
  /-- a request that `request_permitted` refuses -/
  | refused
  | exit
deriving DecidableEq, Repr

/-- `send_status` -/
def sendStatus : Option Failure → List Msg
  | none => []
  | some s => [.sentStatus s]

/-- `handle_log_close` for a handle in use -/
def logClose (forced : Bool) : Slot → Msg
  | .file f => .close forced f
  | .dir name => .closedir forced (some name)
  | .unused => .closedir forced none

/-- the outcome of `process_open` -/
def openResult (readonly : Bool) (flags : PFlags) (result : Option Failure) : Option Failure :=
  if readonly && flags.changes then some .permissionDenied else result

/-- the handle table after a request and the statements it logs -/
def process (readonly : Bool) (h : Handles) : Request → Handles × List Msg
  | .openFile name flags mode result =>
    (match openResult readonly flags result with
      | none => h.new (.file ⟨name, flags, 0, 0⟩)
      | some _ => h,
      .openFile name flags mode :: sendStatus (openResult readonly flags result))
  | .close i result =>
    if h.used i then (h.release i, logClose false (h.slots.getD i .unused) :: sendStatus result)
    else (h, [.closedir false none, .sentStatus .noSuchFile])
  | .read i result =>
    match h.file? i, result with
    | none, _ => (h, [.sentStatus .failure])
    | some _, .data len => (h.update i len 0, [])
    | some _, .eof => (h, [])
    | some _, .failed s text => (h, [.note (.error text), .sentStatus s])
  | .write i result =>
    match h.file? i, result with
    | none, _ => (h, [.sentStatus .failure])
    | some _, .written len => (h.update i 0 len, [])
    | some _, .short => (h, [.sentStatus .failure])
    | some _, .failed s text => (h, [.note (.error text), .sentStatus s])
  | .opendir name result =>
    (match result with
      | none => h.new (.dir name)
      | some _ => h,
      .opendir name :: sendStatus result)
  | .copyData r w read written errors result =>
    match h.file? r, h.file? w with
    | some _, some _ =>
      ((h.update r read 0).update w 0 written, errors.map (fun t => .note (.error t)) ++ sendStatus result)
    | _, _ => (h, errors.map (fun t => .note (.error t)) ++ [.sentStatus .noSuchFile])
  | .change c result => (h, .change c :: sendStatus result)
  | .other notes result => (h, notes.map .note ++ sendStatus result)
  | .refused => (h, [.sentStatus .permissionDenied])
  | .exit => (h, h.inUse.map (logClose true) ++ [.sessionClosed])

/-! ## Log lines -/

/-- the account of the session: the name in `sshd`, which cuts it at a colon, the local name and the client's address -/
structure Login where
  user : Text
  pwName : Text
  clientAddr : Text
  user_ne : user ≠ []
  user_colon : ':' ∉ user

def quoted (t : Text) : Text := '"' :: t ++ ['"']

def decimal (n : ℕ) : Text := Nat.toDigits 10 n

/-- `0%o` -/
def octal (n : ℕ) : Text := '0' :: Nat.toDigits 8 n

def Change.text : Change → Text
  | .remove name => "remove name " ++ quoted name
  | .mkdir name mode => "mkdir name " ++ (quoted name ++ (" mode " ++ octal mode))
  | .rmdir name => "rmdir name " ++ quoted name
  | .rename old new => "rename old " ++ (quoted old ++ (" new " ++ quoted new))
  | .posixRename old new => "posix-rename old " ++ (quoted old ++ (" new " ++ quoted new))

def Note.text : Note → Text
  | .set name what => "set " ++ (quoted name ++ ' ' :: what)
  | .symlink old new => "symlink old " ++ (quoted old ++ (" new " ++ quoted new))
  | .hardlink old new => "hardlink old " ++ (quoted old ++ (" new " ++ quoted new))
  | .statvfs name => "statvfs " ++ quoted name
  | .error text => text

def forcedText (forced : Bool) : Text := if forced then "forced " else []

def Msg.text (l : Login) : Msg → Text
  | .sessionOpened =>
    "session opened for local user " ++ (l.pwName ++ (" from [" ++ (l.clientAddr ++ "]")))
  | .sessionClosed =>
    "session closed for local user " ++ (l.pwName ++ (" from [" ++ (l.clientAddr ++ "]")))
  | .openFile name flags mode =>
    "open " ++ (quoted name ++ (" flags " ++ (stringFromPortable flags ++ (" mode " ++ octal mode))))
  | .close forced f =>
    forcedText forced ++ ("close " ++ (quoted f.name ++
      (" bytes read " ++ (decimal f.bytesRead ++ (" written " ++ decimal f.bytesWrite)))))
  | .closedir forced name => forcedText forced ++ ("closedir " ++ quoted (name.getD "(null)"))
  | .opendir name => "opendir " ++ quoted name
  | .change c => c.text
  | .note n => n.text
  | .sentStatus s => "sent status " ++ statusToMessage s

/-- the text `do_log` of `sshd` puts in front -/
def Msg.level : Msg → Text
  | .note (.error _) => "error: "
  | _ => []

/-- the statement as `sshd` writes it -/
def Msg.relayed (l : Login) (m : Msg) : Text :=
  m.level ++ ("user: " ++ (l.user ++ (": " ++ (m.text l ++ " [postauth]"))))

/-- the line in the event log: `sftp-server` cuts the message to its buffer, `sshd` the whole line -/
def line (l : Login) (m : Msg) : Text :=
  Log.strnvis Log.msgbufLen ((m.level ++ ("user: " ++ (l.user ++ (": " ++
    ((m.text l).take Log.msgbufLen ++ " [postauth]"))))).take Log.msgbufLen)

/-- nothing of the line is cut off or encoded -/
def Whole (l : Login) (m : Msg) : Prop :=
  (m.relayed l).length ≤ Log.msgbufLen ∧ ∀ c ∈ m.relayed l, Log.visChar c = [c]

instance (l : Login) (m : Msg) : Decidable (Whole l m) := inferInstanceAs (Decidable (_ ∧ _))

theorem strnvis_unchanged (n : ℕ) (s : Text) (hlen : s.length ≤ n) (h : ∀ c ∈ s, Log.visChar c = [c]) :
    Log.strnvis n s = s := by
  induction s generalizing n with
  | nil => rfl
  | cons c s ih =>
    have hc : Log.visChar c = [c] := h c mem_cons_self
    simp only [length_cons] at hlen
    rw [Log.strnvis, hc, if_pos (by simp; omega), ih _ (by simp; omega) fun d hd => h d (mem_cons_of_mem c hd)]
    rfl

/-- **A whole line is logged as it is.** -/
theorem line_whole {l : Login} {m : Msg} (h : Whole l m) : line l m = m.relayed l := by
  have hlen : (m.text l).length ≤ Log.msgbufLen := by
    have hw := h.1
    simp only [Msg.relayed, length_append] at hw
    omega
  rw [line, take_of_length_le hlen]
  change Log.strnvis Log.msgbufLen ((m.relayed l).take Log.msgbufLen) = m.relayed l
  rw [take_of_length_le h.1, strnvis_unchanged _ _ h.1 h.2]

/-! ## Sessions -/

/-- the file handles a request closes -/
def closedBy (h : Handles) : Request → List FileHandle
  | .close i _ => (h.file? i).toList
  | .exit => h.files
  | _ => []

/-- the change a request completes -/
def completedBy : Request → List Change
  | .change c none => [c]
  | _ => []

/-- the request logs the opening of a file, and the file is opened -/
def opensFile (readonly : Bool) : Request → Bool
  | .openFile _ flags _ result => openResult readonly flags result = none
  | _ => false

def Msg.isError : Msg → Bool
  | .note (.error _) => true
  | _ => false

structure Session where
  handles : Handles
  log : List Msg
  /-- the file handles closed so far, as they were when they were closed -/
  closed : List FileHandle
  completed : List Change
  /-- the last line that is not an error is that of an open request that succeeded -/
  justOpened : Bool
  ended : Bool

def Session.start : Session := ⟨Handles.empty, [.sessionOpened], [], [], false, false⟩

/-- one request; nothing is read after the exit -/
def step (readonly : Bool) (s : Session) (r : Request) : Session :=
  if s.ended then s
  else
    { handles := (process readonly s.handles r).1
      log := s.log ++ (process readonly s.handles r).2
      closed := s.closed ++ closedBy s.handles r
      completed := s.completed ++ completedBy r
      justOpened :=
        if (process readonly s.handles r).2.all Msg.isError then s.justOpened else opensFile readonly r
      ended := r = .exit }

/-! ## The open files after an operation on the table -/

namespace Handles

variable {p : FileHandle → Bool}

/-- a test on files, for the entries of the table -/
def onFile (p : FileHandle → Bool) : Slot → Bool
  | .file f => p f
  | _ => false

theorem countP_files (h : Handles) : h.files.countP p = h.slots.countP (onFile p) := by
  unfold files
  induction h.slots with
  | nil => rfl
  | cons s l ih =>
    cases s with
    | unused | dir =>
      change (l.filterMap Slot.file?).countP p = _
      rw [ih]
      rfl
    | file f =>
      change (f :: l.filterMap Slot.file?).countP p = _
      rw [countP_cons, countP_cons, ih]
      rfl

theorem countP_set_slot {l : List Slot} {i : ℕ} {cur s : Slot} (hi : l[i]? = some cur) :
    (l.set i s).countP (onFile p) + (if onFile p cur then 1 else 0) =
      l.countP (onFile p) + (if onFile p s then 1 else 0) := by
  obtain ⟨hlt, hcur⟩ := List.getElem?_eq_some_iff.1 hi
  have hpos : (if onFile p cur then 1 else 0) ≤ l.countP (onFile p) := by
    split
    · next h => exact countP_pos_iff.2 ⟨cur, mem_of_getElem? hi, h⟩
    · exact Nat.zero_le _
  rw [countP_set hlt, hcur]
  omega

/-- **A new handle.** -/
theorem new_files (h : Handles) (s : Slot) :
    (h.new s).files.countP p = h.files.countP p + (if onFile p s then 1 else 0) := by
  rw [countP_files, countP_files]
  unfold new
  split
  · rw [countP_append, countP_singleton]
  · next i rest hc =>
    have hi : h.slots[i]? = some .unused := h.chain_unused i (hc ▸ mem_cons_self)
    have := countP_set_slot (p := p) (s := s) hi
    simpa [onFile] using this

/-- **A released handle.** -/
theorem release_files {h : Handles} {i : ℕ} {s : Slot} (hi : h.slots[i]? = some s) (hs : s ≠ .unused) :
    (h.release i).files.countP p + (if onFile p s then 1 else 0) = h.files.countP p := by
  rw [countP_files, countP_files]
  have hu : h.used i = true := (h.used_iff i).2 ⟨s, hi, hs⟩
  unfold release
  rw [dif_pos hu]
  have := countP_set_slot (p := p) (s := .unused) hi
  simpa [onFile] using this

/-- **Byte counts.** A test that does not look at the counts has as many files as before. -/
theorem update_files (h : Handles) (i read written : ℕ)
    (hp : ∀ f a b, p { f with bytesRead := a, bytesWrite := b } = p f) :
    (h.update i read written).files.countP p = h.files.countP p := by
  rw [countP_files, countP_files]
  unfold update
  split
  · rfl
  next f hf =>
  have := countP_set_slot (p := p) (s := .file { f with
    bytesRead := (f.bytesRead + read) % 2 ^ 64, bytesWrite := (f.bytesWrite + written) % 2 ^ 64 })
    (file?_eq_some.1 hf)
  simp only [onFile, hp] at this
  exact Nat.add_right_cancel this

end Handles

end OpenSSHServerPN.Sftp
