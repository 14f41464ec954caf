/-
Reads and writes on a descriptor (`w32fd.c`: `w32_read`, `w32_write`, `w32_writev`; `fileio.c`: `fileio_read`,
`fileio_write`, `fileio_write_wrapper`, `fileio_on_select`; `socketio.c`: `socketio_recv`, `socketio_send`,
`socketio_on_select`; `termio.c`: `syncio_initiate_read`).

Model: each call is a function of the descriptor, of its argument and of the system's answers (`Answers`): the waits for
an operation that is already outstanding, whether memory is available, what the operation is answered when it is issued,
what runs in `SleepEx(0, TRUE)`, and the waits for the call's own operation. `none` means that the call never returns.
The value returned is a C `int`; `errno` is a field of the descriptor.
A history of a descriptor is a list of `Event`s: calls, `select`, alertable waits elsewhere in the program, changes of
the blocking mode. Answers that end while the call still waits describe no call that returned, so the step leaves the
state as it is.
Not modelled: invalid descriptors and buffers, listening and connecting sockets.

Results: `w32Write_inv`, `w32Writev_inv`, `w32Read_inv` and `onSelect_inv`, the rules for what a call leaves alone.
-/
import OpenSSHServerPN.Lib.Runs
import OpenSSHServerPN.Win32.Overlapped

namespace OpenSSHServerPN.Descriptor

/-! ## Answers of the system -/

/-- the answer to issuing an operation: under way, done with its procedure call queued (a result of `WSASend` and
`WSARecv` only), or an error code -/
inductive Issue where
  | started
  | finished
  | refused (error : ℤ)
deriving DecidableEq, Repr

structure Answers where
  /-- waits for the operation that is outstanding when the call is made -/
  earlier : List Wait
  /-- `malloc` succeeds -/
  memory : Bool
  issue : Issue
  /-- what `SleepEx(0, TRUE)` runs -/
  apcs : List Apc
  /-- waits for the call's own operation -/
  own : List Wait
deriving DecidableEq, Repr

/-- the procedure calls of a call's waits -/
def Answers.queued (a : Answers) : List Apc := (a.earlier ++ a.own).flatMap Wait.apcs ++ a.apcs

/-- the value of a C `int` -/
def int (n : ℤ) : ℤ := Int.bmod n (2 ^ 32)

/-- a `size_t` cast to `int` and compared as `DWORD` -/
def dword (n : ℕ) : ℕ := n % 2 ^ 32

/-! ## Writing -/

def WRITE_BUFFER_SIZE : ℕ := 100 * 1024
def INTERNAL_SEND_BUFFER_SIZE : ℕ := 70 * 1024

/-- `memcpy_s` into the write buffer -/
def Io.fill (chunk : List Byte) (s : Io) : Io := { s with write := { s.write with buf := some chunk } }

/-- the buffer was filled and the system accepted the operation -/
def Io.accept (chunk : List Byte) (s : Io) : Io :=
  { s with
    write := { s.write with buf := some chunk, remaining := UInt32.ofNat chunk.length, pending := true }
    handed := s.handed ++ chunk }

/-- the head of `fileio_write` and `socketio_send`: an outstanding write is waited for, or refused with `EAGAIN` -/
def whenIdle (k : Kind) (a : Answers) (s : Io) (idle : Io → Option (ℤ × Io)) : Option (ℤ × Io) :=
  if s.write.pending = true ∧ s.blocking = false then some (-1, s.setErrno EAGAIN)
  else
    (waitWhile k (fun s => s.write.pending) a.earlier s).bind fun
      | (false, s) => some (-1, s)
      | (true, s) => idle s

/-- the call's own wait, made by a blocking descriptor only -/
def awaitIfBlocking (k : Kind) (a : Answers) (s : Io) : Option (Bool × Io) :=
  if s.blocking then awaitOwn k a.own s else some (true, s)

/-- `errno` for an error of a write: `EPIPE` when the read end of a pipe is closed -/
def pipeErrno (k : Kind) (e : ℤ) : ℤ :=
  if k.isPipe = true ∧ errnoFromWin32Error e = ERROR_BROKEN_PIPE then EPIPE else errnoFromWin32Error e

/-- `fileio_write` once the system has accepted `n` bytes -/
def fileioWriteAccepted (k : Kind) (a : Answers) (n : ℕ) (s : Io) : Option (ℤ × Io) :=
  (awaitIfBlocking k a s).bind fun
    | (false, s) => some (-1, s)
    | (true, s) =>
      let s := apcs k a.apcs s
      if s.write.pending = false ∧ s.write.error ≠ 0 then
        some (-1, { s.setErrno (errnoFromWin32Error s.write.error) with write := { s.write with error := 0 } })
      else some (n, s)

/-- `fileio_write` when no write is outstanding -/
def fileioWriteIdle (k : Kind) (a : Answers) (data : List Byte) (s : Io) : Option (ℤ × Io) :=
  if s.write.error ≠ 0 then
    some (-1, { s.setErrno (pipeErrno k s.write.error) with write := { s.write with error := 0 } })
  else if s.write.buf = none ∧ a.memory = false then some (-1, s.setErrno ENOMEM)
  else
    let chunk := data.take (min (dword data.length) WRITE_BUFFER_SIZE)
    match a.issue with
    | .refused e => some (-1, (s.fill chunk).setErrno (if k.onThread then errnoFromWin32Error e else pipeErrno k e))
    | _ => fileioWriteAccepted k a chunk.length (s.accept chunk)

def fileioWrite (k : Kind) (a : Answers) (data : List Byte) (s : Io) : Option (ℤ × Io) :=
  whenIdle k a s (fileioWriteIdle k a data)

/-- the loop of `fileio_write_wrapper`, with one set of answers for each chunk -/
def writeChunks (k : Kind) : List Answers → List Byte → ℤ → Io → Option (ℤ × Io)
  | [], data, copied, s => if data = [] then some (copied, s) else none
  | a :: as, data, copied, s =>
    if data = [] then some (copied, s)
    else
      (fileioWrite k a (data.take WRITE_BUFFER_SIZE) s).bind fun (written, s) =>
        if written = -1 then some (copied, s)
        else
          writeChunks k as (data.drop WRITE_BUFFER_SIZE) (int ((if copied = -1 then 0 else copied) + written)) s

def fileioWriteWrapper (k : Kind) (as : List Answers) (data : List Byte) (s : Io) : Option (ℤ × Io) :=
  if data.length ≤ WRITE_BUFFER_SIZE then as.head?.bind fun a => fileioWrite k a data s
  else writeChunks k as data (-1) s

/-- `socketio_send` when no send is outstanding; the stored error stays -/
def socketioSendIdle (a : Answers) (data : List Byte) (s : Io) : Option (ℤ × Io) :=
  if s.write.error ≠ 0 then some (-1, s.setErrno (errnoFromWSAError s.write.error))
  else if s.write.buf = none ∧ a.memory = false then some (-1, s.setErrno ENOMEM)
  else
    let chunk := data.take (min INTERNAL_SEND_BUFFER_SIZE (dword data.length))
    match a.issue with
    | .finished =>
      let s := apcs .socket a.apcs (s.accept chunk)
      if s.write.pending = true ∨ s.write.remaining ≠ 0 then some (-1, s.setErrno EOTHER)
      else some (chunk.length, s)
    | .started =>
      (awaitIfBlocking .socket a (s.accept chunk)).bind fun
        | (false, s) => some (-1, s)
        | (true, s) => some (chunk.length, s)
    | .refused e => some (-1, (s.fill chunk).setErrno (errnoFromWSAError e))

def socketioSend (a : Answers) (data : List Byte) (s : Io) : Option (ℤ × Io) :=
  if data = [] then some (-1, s.setErrno EINVAL)
  else whenIdle .socket a s (socketioSendIdle a data)

def w32Write (k : Kind) (as : List Answers) (data : List Byte) (s : Io) : Option (ℤ × Io) :=
  match k with
  | .socket => as.head?.bind fun a => socketioSend a data s
  | .file _ _ => fileioWriteWrapper k as data s

/-- the loop of `w32_writev`, with the answers to each element's write -/
def w32Writev (k : Kind) : List (List Answers × List Byte) → ℤ → Io → Option (ℤ × Io)
  | [], written, s => some (written, s)
  | (as, data) :: iov, written, s =>
    (w32Write k as data s).bind fun (ret, s) =>
      w32Writev k iov (if ret > 0 then int (written + ret) else written) s

/-! ## Reading -/

def READ_BUFFER_SIZE : ℕ := 100 * 1024
def INTERNAL_RECV_BUFFER_SIZE : ℕ := 70 * 1024
def TERM_IO_BUF_SIZE : ℕ := 3 * 1024

/-- `fileio_is_io_available`, `socketio_is_io_available` of a connected socket -/
def readAvailable (s : Io) : Bool := s.read.remaining != 0 || s.read.error != 0

/-- a returned value, the bytes copied to the caller and the state -/
abbrev ReadResult := ℤ × List Byte × Io

def Io.readFailed (s : Io) : ReadResult := (-1, [], s)

/-- the next `n` unread bytes go to the caller -/
def Io.copyOut (n : ℕ) (s : Io) : ReadResult :=
  (n, ((s.read.buf.getD []).drop s.read.completed).take n,
    { s with read := { s.read with remaining := s.read.remaining - n, completed := s.read.completed + n } })

/-- the system answers the issuing of a read; `false` is the return of -1 -/
def issueRead (k : Kind) (errnoOf : ℤ → ℤ) (a : Answers) (s : Io) : Bool × Io :=
  match a.issue with
  | .refused e =>
    (false, { s.setErrno (errnoOf e) with
      ended := s.ended || (k != .socket && (e == ERROR_BROKEN_PIPE || e == ERROR_HANDLE_EOF)) })
  | _ => (true, { s with read := { s.read with pending := true } })

def syncioInitiateRead (k : Kind) (a : Answers) (s : Io) : Bool × Io :=
  if s.read.bufSize = 0 then
    if a.memory then
      issueRead k errnoFromWin32Error a { s with read := { s.read with buf := some [], bufSize := TERM_IO_BUF_SIZE } }
    else (false, s.setErrno ENOMEM)
  else issueRead k errnoFromWin32Error a s

def fileioReadFileEx (k : Kind) (a : Answers) (requested : ℕ) (s : Io) : Bool × Io :=
  if s.read.buf = none ∧ a.memory = false then (false, s.setErrno ENOMEM)
  else
    issueRead k errnoFromWin32Error a
      { s with read := { s.read with
          buf := some (s.read.buf.getD [])
          bufSize := if k.isDisk then min requested READ_BUFFER_SIZE else READ_BUFFER_SIZE } }

/-- the two ways a file's read is started -/
def fileioInitiateRead (k : Kind) (a : Answers) (requested : ℕ) (s : Io) : Bool × Io :=
  if k.onThread then syncioInitiateRead k a s else fileioReadFileEx k a requested s

/-- the end of `fileio_read`: a stored error, or the bytes of the completed read -/
def fileioReadReady (max : ℕ) (s : Io) : ReadResult :=
  if s.read.error ≠ 0 then
    if s.read.error = ERROR_BROKEN_PIPE ∨ s.read.error = ERROR_HANDLE_EOF then
      (0, [], { s.setErrno 0 with read := { s.read with error := 0 } })
    else
      Io.readFailed { s.setErrno (errnoFromWin32Error s.read.error) with read := { s.read with error := 0 } }
  else s.copyOut (min (dword max) s.read.remaining)

/-- a loop that waits until a read has something to report, and what follows it -/
def awaitRead (k : Kind) (ws : List Wait) (s : Io) (ready : Io → Option ReadResult) : Option ReadResult :=
  (waitWhile k (fun s => !readAvailable s) ws s).bind fun
    | (false, s) => some s.readFailed
    | (true, s) => ready s

/-- `fileio_read` once its operation has been issued -/
def fileioReadIssued (k : Kind) (a : Answers) (max : ℕ) (s : Io) : Option ReadResult :=
  let s := apcs k a.apcs s
  if s.blocking then awaitRead k a.own s fun s => some (fileioReadReady max s)
  else if s.read.pending then some (s.setErrno EAGAIN).readFailed
  else some (fileioReadReady max s)

/-- `fileio_read` when its operation could not be issued: the end of a pipe or of a file may be reported here already -/
def fileioReadRefused (k : Kind) (s : Io) : ReadResult :=
  if k.onThread = false ∧ (k.isPipe = true ∧ s.errno = ERROR_BROKEN_PIPE ∨ k.isDisk = true ∧ s.errno = ERROR_HANDLE_EOF)
  then (0, [], s.setErrno 0)
  else s.readFailed

def fileioRead (k : Kind) (a : Answers) (max : ℕ) (s : Io) : Option ReadResult :=
  if s.read.pending then
    -- a blocking descriptor waits here and reports EAGAIN all the same
    if s.blocking then awaitRead k a.earlier s fun s => some (s.setErrno EAGAIN).readFailed
    else some (s.setErrno EAGAIN).readFailed
  else if readAvailable s then some (fileioReadReady max s)
  else
    match fileioInitiateRead k a (dword max) s with
    | (false, s) => some (fileioReadRefused k s)
    | (true, s) => fileioReadIssued k a max s

def socketioWSARecv (a : Answers) (s : Io) : Bool × Io :=
  if s.read.buf = none then
    if a.memory then
      issueRead .socket errnoFromWSAError a
        { s with read := { s.read with buf := some [], bufSize := INTERNAL_RECV_BUFFER_SIZE } }
    else (false, s.setErrno ENOMEM)
  else issueRead .socket errnoFromWSAError a s

/-- a stored error of a receive: the closed connection stays closed, any other error is reported once -/
def recvError (s : Io) : ReadResult :=
  if s.read.error = ERROR_GRACEFUL_DISCONNECT then (0, [], s)
  else Io.readFailed { s.setErrno (errnoFromWSAError s.read.error) with read := { s.read with error := 0 } }

/-- the end of `socketio_recv`, which copies from the start of the buffer -/
def recvReady (len : ℕ) (s : Io) : ReadResult :=
  if s.read.error ≠ 0 then recvError s
  else if s.read.remaining ≠ 0 then Io.copyOut (min (dword len) s.read.remaining)
    { s with read := { s.read with completed := 0 } }
  else (s.setErrno EOTHER).readFailed

/-- `socketio_recv` after `SleepEx(0, TRUE)`, which runs only when the operation was reported as done -/
def recvIssued (a : Answers) (len : ℕ) (s : Io) : Option ReadResult :=
  if a.issue = .finished ∧ s.read.pending = true then some (s.setErrno EOTHER).readFailed
  else if s.blocking then awaitRead .socket a.own s fun s => some (recvReady len s)
  else if readAvailable s then some (recvReady len s)
  else some (s.setErrno EAGAIN).readFailed

/-- `socketio_recv` when no receive is outstanding -/
def recvIdle (a : Answers) (len : ℕ) (s : Io) : Option ReadResult :=
  if s.read.remaining ≠ 0 then some (s.copyOut (min (dword len) s.read.remaining))
  else if s.read.error ≠ 0 then some (recvError s)
  else
    match socketioWSARecv a s with
    | (false, s) => some s.readFailed
    | (true, s) => recvIssued a len (if a.issue = .finished then apcs .socket a.apcs s else s)

def socketioRecv (a : Answers) (len : ℕ) (s : Io) : Option ReadResult :=
  if len = 0 then some (s.setErrno EINVAL).readFailed
  else if s.read.pending then
    if s.blocking then awaitRead .socket a.earlier s (recvIdle a len) else some (s.setErrno EAGAIN).readFailed
  else recvIdle a len s

def w32Read (k : Kind) (a : Answers) (max : ℕ) (s : Io) : Option ReadResult :=
  match k with
  | .socket => socketioRecv a max s
  | .file _ _ => fileioRead k a max s

/-- `fileio_on_select` and `socketio_on_select` for reading: a refused operation leaves `errno` in the error field -/
def onSelect (k : Kind) (a : Answers) (s : Io) : Io :=
  if s.read.pending = false ∧ readAvailable s = false then
    match (if k = .socket then socketioWSARecv a s else fileioInitiateRead k a (2 ^ 31 - 1) s) with
    | (false, s) => { s.setErrno 0 with read := { s.read with error := s.errno } }
    | (true, s) => s
  else s

/-! ## Histories -/

inductive Event where
  | write (as : List Answers) (data : List Byte)
  | writev (iov : List (List Answers × List Byte))
  | read (a : Answers) (max : ℕ)
  | select (a : Answers)
  /-- an alertable wait elsewhere in the program -/
  | alertable (as : List Apc)
  | setBlocking (b : Bool)
deriving DecidableEq, Repr

/-- the descriptor, the writes that returned (their data and the value returned) and the bytes reads have returned -/
structure World where
  io : Io
  written : List (List Byte × ℤ)
  got : List Byte
deriving DecidableEq, Repr

def World.opened (blocking : Bool) : World := { io := Io.opened blocking, written := [], got := [] }

/-- the data of a `w32_writev` call -/
def gathered (iov : List (List Answers × List Byte)) : List Byte := iov.flatMap Prod.snd

/-- a write that returned -/
def World.wrote (w : World) (data : List Byte) : Option (ℤ × Io) → World
  | some (r, s) => { w with io := s, written := w.written ++ [(data, r)] }
  | none => w

/-- a read that returned -/
def World.received (w : World) : Option ReadResult → World
  | some (_, bytes, s) => { w with io := s, got := w.got ++ bytes }
  | none => w

def step (k : Kind) (w : World) : Event → World
  | .write as data => w.wrote data (w32Write k as data w.io)
  | .writev iov => w.wrote (gathered iov) (w32Writev k iov 0 w.io)
  | .read a max => w.received (w32Read k a max w.io)
  | .select a => { w with io := onSelect k a w.io }
  | .alertable as => { w with io := apcs k as w.io }
  | .setBlocking b => { w with io := { w.io with blocking := b } }

section
variable {w : World} {I : List Byte → Io → Prop} (hw : I w.got w.io)
include hw

/-- a call that does not return changes nothing -/
theorem wrote_inv {data : List Byte} {c : Option (ℤ × Io)} (h : ∀ r s, c = some (r, s) → I w.got s) :
    I (w.wrote data c).got (w.wrote data c).io := by
  cases c with
  | none => exact hw
  | some p => exact h p.1 p.2 rfl

theorem received_inv {c : Option ReadResult} (h : ∀ r bytes s, c = some (r, bytes, s) → I (w.got ++ bytes) s) :
    I (w.received c).got (w.received c).io := by
  cases c with
  | none => exact hw
  | some p => exact h p.1 p.2.1 p.2.2 rfl

end

/-! ## What a call leaves alone -/

/-- the translation of an error code that a read reports -/
def errnoOf : Kind → ℤ → ℤ
  | .socket => errnoFromWSAError
  | .file _ _ => errnoFromWin32Error

/-- stored error codes that a read reports as 0 -/
def isEnd : Kind → ℤ → Bool
  | .socket, e => e == ERROR_GRACEFUL_DISCONNECT
  | .file _ _, e => e == ERROR_BROKEN_PIPE || e == ERROR_HANDLE_EOF

/-- `I` survives what a write does to the descriptor, all of it while no write is outstanding -/
structure WriteKept (I : Io → Prop) : Prop where
  clear : ∀ s, s.write.pending = false → I s → I { s with write := { s.write with error := 0 } }
  fill : ∀ s chunk, s.write.pending = false → I s → I (s.fill chunk)
  accept : ∀ s chunk, s.write.pending = false → I s → I (s.accept chunk)

section Frame

variable {k : Kind} {P : Apc → Prop} {I : Io → Prop} {s s' : Io} {a : Answers} {r : ℤ}

variable {Q : Apc → Prop}

section
variable (h : ∀ x ∈ a.queued, Q x)
include h

theorem earlier_queued : ∀ w ∈ a.earlier, ∀ x ∈ w.apcs, Q x :=
  fun w hw x hx => h x (List.mem_append_left _ (List.mem_flatMap.2 ⟨w, List.mem_append_left _ hw, hx⟩))

theorem own_queued : ∀ w ∈ a.own, ∀ x ∈ w.apcs, Q x :=
  fun w hw x hx => h x (List.mem_append_left _ (List.mem_flatMap.2 ⟨w, List.mem_append_right _ hw, hx⟩))

theorem apcs_queued : ∀ x ∈ a.apcs, Q x :=
  fun x hx => h x (List.mem_append_right _ hx)

end

section Write

variable (hI : Kept k P I) (hwrite : WriteKept I)

include hI

theorem whenIdle_inv {idle : Io → Option (ℤ × Io)} (hp : ∀ x ∈ a.queued, P x)
    (hidle : ∀ s₁, s₁.write.pending = false → I s₁ → idle s₁ = some (r, s') → I s')
    (h : whenIdle k a s idle = some (r, s')) (hs : I s) : I s' := by
  unfold whenIdle at h
  split at h
  · cases h
    exact hI.errno s EAGAIN hs
  obtain ⟨⟨b, s₁⟩, hwait, h⟩ := Option.bind_eq_some_iff.1 h
  obtain ⟨hs₁, hpend, -⟩ := waitWhile_inv hI (earlier_queued hp) hwait hs
  cases b with
  | false =>
    cases h
    exact hs₁
  | true => exact hidle s₁ (hpend rfl) hs₁ h

theorem awaitIfBlocking_inv {b : Bool} (hp : ∀ x ∈ a.queued, P x) (h : awaitIfBlocking k a s = some (b, s'))
    (hs : I s) : I s' := by
  unfold awaitIfBlocking at h
  split at h
  · exact awaitOwn_inv hI (own_queued hp) h hs
  · cases h
    exact hs

include hwrite

theorem fileioWriteAccepted_inv {n : ℕ} (hp : ∀ x ∈ a.queued, P x) (h : fileioWriteAccepted k a n s = some (r, s'))
    (hs : I s) : I s' := by
  obtain ⟨⟨b, s₁⟩, hwait, h⟩ := Option.bind_eq_some_iff.1 h
  have hs₁ : I s₁ := awaitIfBlocking_inv hI hp hwait hs
  cases b with
  | false =>
    cases h
    exact hs₁
  | true =>
    have hs₂ : I (apcs k a.apcs s₁) := apcs_inv hI a.apcs (apcs_queued hp) hs₁
    simp only at h
    split at h
    · next hdone =>
      cases h
      exact hwrite.clear _ hdone.1 (hI.errno _ _ hs₂)
    · cases h
      exact hs₂

variable {data bytes : List Byte}

theorem fileioWrite_inv (hp : ∀ x ∈ a.queued, P x) (h : fileioWrite k a data s = some (r, s')) (hs : I s) : I s' := by
  refine whenIdle_inv hI hp (fun s₁ hpend hs₁ h => ?_) h hs
  unfold fileioWriteIdle at h
  split at h
  · cases h
    exact hwrite.clear (s₁.setErrno _) hpend (hI.errno _ _ hs₁)
  split at h
  · cases h
    exact hI.errno _ _ hs₁
  · split at h
    · cases h
      exact hI.errno _ _ (hwrite.fill s₁ _ hpend hs₁)
    · exact fileioWriteAccepted_inv hI hwrite hp h (hwrite.accept s₁ _ hpend hs₁)

theorem writeChunks_inv {as : List Answers} {copied : ℤ} (hp : ∀ a ∈ as, ∀ x ∈ a.queued, P x)
    (h : writeChunks k as data copied s = some (r, s')) (hs : I s) : I s' := by
  induction as generalizing data copied s with
  | nil =>
    unfold writeChunks at h
    split at h
    · cases h
      exact hs
    · cases h
  | cons a as ih =>
    unfold writeChunks at h
    split at h
    · cases h
      exact hs
    obtain ⟨⟨written, s₁⟩, hone, h⟩ := Option.bind_eq_some_iff.1 h
    have hs₁ : I s₁ := fileioWrite_inv hI hwrite (hp a List.mem_cons_self) hone hs
    simp only at h
    split at h
    · cases h
      exact hs₁
    · exact ih (fun b hb => hp b (List.mem_cons_of_mem a hb)) h hs₁

end Write

theorem socketioSend_inv (hI : Kept .socket P I) (hwrite : WriteKept I) (hp : ∀ x ∈ a.queued, P x)
    (h : socketioSend a data s = some (r, s')) (hs : I s) : I s' := by
  unfold socketioSend at h
  split at h
  · cases h
    exact hI.errno _ _ hs
  refine whenIdle_inv hI hp (fun s₁ hpend hs₁ h => ?_) h hs
  unfold socketioSendIdle at h
  split at h
  · cases h
    exact hI.errno _ _ hs₁
  split at h
  · cases h
    exact hI.errno _ _ hs₁
  simp only at h
  split at h
  · -- done: the queued completion runs in `SleepEx`
    have hs₂ : I (apcs .socket a.apcs (s₁.accept (data.take (min INTERNAL_SEND_BUFFER_SIZE (dword data.length))))) :=
      apcs_inv hI a.apcs (apcs_queued hp) (hwrite.accept s₁ _ hpend hs₁)
    split at h
    · cases h
      exact hI.errno _ _ hs₂
    · cases h
      exact hs₂
  · -- under way
    obtain ⟨⟨b, s₂⟩, hwait, h⟩ := Option.bind_eq_some_iff.1 h
    have hs₂ : I s₂ := awaitIfBlocking_inv hI hp hwait (hwrite.accept s₁ _ hpend hs₁)
    cases b with
    | false | true =>
      cases h
      exact hs₂
  · cases h
    exact hI.errno _ _ (hwrite.fill s₁ _ hpend hs₁)

/-- **Invariant rule for writes.** What completions, `errno` and the steps of a write keep, `w32_write` keeps. -/
theorem w32Write_inv (hI : Kept k P I) (hwrite : WriteKept I) {as : List Answers} (hp : ∀ a ∈ as, ∀ x ∈ a.queued, P x)
    (h : w32Write k as data s = some (r, s')) (hs : I s) : I s' := by
  cases k with
  | socket =>
    obtain ⟨a, ha, h⟩ := Option.bind_eq_some_iff.1 h
    exact socketioSend_inv hI hwrite (hp a (List.mem_of_head? ha)) h hs
  | file sync type =>
    unfold w32Write fileioWriteWrapper at h
    simp only at h
    split at h
    · obtain ⟨a, ha, h⟩ := Option.bind_eq_some_iff.1 h
      exact fileioWrite_inv hI hwrite (hp a (List.mem_of_head? ha)) h hs
    · exact writeChunks_inv hI hwrite hp h hs

theorem w32Writev_inv (hI : Kept k P I) (hwrite : WriteKept I)
    {iov : List (List Answers × List Byte)} {written : ℤ} (hp : ∀ v ∈ iov, ∀ a ∈ v.1, ∀ x ∈ a.queued, P x)
    (h : w32Writev k iov written s = some (r, s')) (hs : I s) : I s' := by
  induction iov generalizing written s with
  | nil =>
    cases h
    exact hs
  | cons v iov ih =>
    obtain ⟨⟨ret, s₁⟩, hone, h⟩ := Option.bind_eq_some_iff.1 h
    exact ih (fun u hu => hp u (List.mem_cons_of_mem v hu)) h
      (w32Write_inv hI hwrite (hp v List.mem_cons_self) hone hs)

end Frame

section Read

variable {k : Kind} {P : Apc → Prop} {I F : Io → Prop} {R : ReadResult → Prop} {s s₁ s' : Io} {a : Answers} {max n : ℕ} {r : ℤ}
  {bytes : List Byte} {p : ReadResult}

/-- how an operation is started: not without memory for its buffer, which is kept or empty -/
inductive Started (k : Kind) (a : Answers) (s : Io) : Bool × Io → Prop
  | noMemory : Started k a s (false, s.setErrno ENOMEM)
  | issued (buf : Option (List Byte)) (n : ℕ) (h : buf.getD [] = s.read.buf.getD [] ∨ buf = some []) :
    Started k a s (issueRead k (errnoOf k) a { s with read := { s.read with buf := buf, bufSize := n } })

theorem fileioInitiateRead_started (sync : Bool) (type : FileType) :
    Started (.file sync type) a s (fileioInitiateRead (.file sync type) a n s) := by
  unfold fileioInitiateRead syncioInitiateRead fileioReadFileEx
  split_ifs
  · exact .issued _ _ (.inr rfl)
  · exact .noMemory
  · exact .issued s.read.buf s.read.bufSize (.inl rfl)
  · exact .noMemory
  · exact .issued _ _ (.inl rfl)
  · exact .issued _ _ (.inl rfl)

theorem socketioWSARecv_started : Started .socket a s (socketioWSARecv a s) := by
  unfold socketioWSARecv
  split_ifs
  · exact .issued _ _ (.inr rfl)
  · exact .noMemory
  · exact .issued s.read.buf s.read.bufSize (.inl rfl)

/-- the conditions under which a read from `s` ends with `R`, one for each way it can end: `I` holds of the descriptor, and
`F` once the operation of the read is under way -/
structure ReadRule (k : Kind) (P : Apc → Prop) (a : Answers) (max : ℕ) (s : Io) (I F : Io → Prop) (R : ReadResult → Prop) :
    Prop where
  queued : ∀ x ∈ a.queued, P x
  before : Kept k P I
  after : Kept k P F
  weaken : ∀ {s₁}, F s₁ → I s₁
  started : ∀ {s₁ s₂}, I s₁ → s₁.read.remaining = 0 → Started k a s₁ (true, s₂) → F s₂
  refused : ∀ {s₁ s₂}, I s₁ → s₁.read.remaining = 0 → Started k a s₁ (false, s₂) →
    R s₂.readFailed ∧ (k ≠ .socket → isEnd k s₂.errno = true → R (0, [], s₂.setErrno 0))
  woken : ∀ {s₁ w}, I s₁ → w ∈ a.earlier ++ a.own → w.woken = .failed s₁.errno → R s₁.readFailed
  again : ∀ {s₁}, I s₁ → (s₁.blocking = true → k ≠ .socket ∧ s.blocking = true ∧ s.read.pending = true) →
    R (s₁.setErrno EAGAIN).readFailed
  failed : ∀ {s₁ e}, I s₁ → e ≠ EAGAIN → R (s₁.setErrno e).readFailed
  error : ∀ {s₁}, I s₁ →
    R (Io.readFailed { s₁.setErrno (errnoOf k s₁.read.error) with read := { s₁.read with error := 0 } })
  ended : ∀ {s₁}, I s₁ → isEnd k s₁.read.error = true →
    R (0, [], s₁) ∧ R (0, [], { s₁.setErrno 0 with read := { s₁.read with error := 0 } })
  restart : ∀ {s₁}, F s₁ → s₁.read.remaining ≠ 0 → I { s₁ with read := { s₁.read with completed := 0 } }
  copy : ∀ {s₁}, I s₁ → s₁.read.remaining ≠ 0 → R (s₁.copyOut (min (dword max) s₁.read.remaining))
  /-- the operation has completed in `SleepEx`, and left nothing -/
  empty : ∀ {s₁ s₂}, I s₁ → s₁.read.remaining = 0 → Started k a s₁ (true, s₂) → k ≠ .socket →
    (apcs k a.apcs s₂).blocking = false → (apcs k a.apcs s₂).read.pending = false →
    (apcs k a.apcs s₂).read.error = 0 → (apcs k a.apcs s₂).read.remaining = 0 → R ((apcs k a.apcs s₂).copyOut 0)

theorem readAvailable_false : readAvailable s = false ↔ s.read.remaining = 0 ∧ s.read.error = 0 := by
  simp [readAvailable]

theorem ReadRule.await {J : Io → Prop} (h : ReadRule k P a max s I F R) (hJ : Kept k P J) (hweaken : ∀ s₁, J s₁ → I s₁)
    {ws : List Wait} (hws : ws ⊆ a.earlier ++ a.own) {ready : Io → Option ReadResult}
    (hready : ∀ s₂, J s₂ → readAvailable s₂ = true → ready s₂ = some p → R p) (hs : J s₁)
    (hr : awaitRead k ws s₁ ready = some p) : R p := by
  obtain ⟨⟨b, s₂⟩, hwait, hr⟩ := Option.bind_eq_some_iff.1 hr
  have hp : ∀ w ∈ ws, ∀ x ∈ w.apcs, P x :=
    fun w hw x hx => h.queued x (List.mem_append_left _ (List.mem_flatMap.2 ⟨w, hws hw, hx⟩))
  obtain ⟨hs₂, hbusy, hfail⟩ := waitWhile_inv hJ hp hwait hs
  cases b with
  | false =>
    cases hr
    obtain ⟨w, hw, hwoken⟩ := hfail rfl
    exact h.woken (hweaken s₂ hs₂) (hws hw) hwoken
  | true => exact hready s₂ hs₂ (by simpa using hbusy rfl) hr

section File

variable {sync : Bool} {type : FileType} (h : ReadRule (.file sync type) P a max s I F R)

include h

theorem ReadRule.ready (hs : I s₁) (havail : readAvailable s₁ = true) : R (fileioReadReady max s₁) := by
  unfold fileioReadReady
  split_ifs with herror hend
  · exact (h.ended hs (by simpa [isEnd] using hend)).2
  · exact h.error hs
  · refine h.copy hs fun h₀ => ?_
    rw [readAvailable_false.2 ⟨h₀, not_not.1 herror⟩] at havail
    cases havail

theorem ReadRule.issued {s₂ : Io} (hs : I s₁) (h₀ : s₁.read.remaining = 0)
    (hst : Started (.file sync type) a s₁ (true, s₂)) (hr : fileioReadIssued (.file sync type) a max s₂ = some p) : R p := by
  have hs₃ : F (apcs (.file sync type) a.apcs s₂) :=
    apcs_inv h.after a.apcs (apcs_queued h.queued) (h.started hs h₀ hst)
  unfold fileioReadIssued at hr
  dsimp only at hr
  split_ifs at hr with hblock hpend
  · refine h.await h.after (fun _ => h.weaken) (List.subset_append_right _ _) (fun s₄ hs₄ havail hr => ?_) hs₃ hr
    cases hr
    exact h.ready (h.weaken hs₄) havail
  · cases hr
    exact h.again (h.weaken hs₃) fun hb => absurd hb hblock
  · cases hr
    by_cases havail : readAvailable (apcs (.file sync type) a.apcs s₂) = true
    · exact h.ready (h.weaken hs₃) havail
    · -- nothing was read, and there is no error
      obtain ⟨hrem, herror⟩ := readAvailable_false.1 (by simpa using havail)
      rw [fileioReadReady, if_neg (not_not.2 herror), hrem, Nat.min_zero]
      exact h.empty hs h₀ hst (by simp) (by simpa using hblock) (by simpa using hpend) herror hrem

theorem ReadRule.file (hs : I s) (hr : fileioRead (.file sync type) a max s = some p) : R p := by
  unfold fileioRead at hr
  split_ifs at hr with hpend hblock havail
  · refine h.await h.before (fun _ => id) (List.subset_append_left _ _) (fun s₁ hs₁ _ hr => ?_) hs hr
    cases hr
    exact h.again hs₁ fun _ => ⟨by simp, hblock, hpend⟩
  · cases hr
    exact h.again hs fun hb => absurd hb hblock
  · cases hr
    exact h.ready hs havail
  · have h₀ := (readAvailable_false.1 (by simpa using havail)).1
    have hst := fileioInitiateRead_started (a := a) (s := s) (n := dword max) sync type
    split at hr
    · next s₁ hissue =>
      rw [hissue] at hst
      obtain ⟨hfail, hend⟩ := h.refused hs h₀ hst
      unfold fileioReadRefused at hr
      split_ifs at hr with he
      · cases hr
        refine hend (by simp) ?_
        simp only [isEnd, Bool.or_eq_true, beq_iff_eq]
        exact he.2.imp And.right And.right
      · cases hr
        exact hfail
    · next s₁ hissue =>
      rw [hissue] at hst
      exact h.issued hs h₀ hst hr

end File

section Recv

variable (h : ReadRule .socket P a max s I F R)

include h

theorem ReadRule.socketError (hs : I s₁) : R (recvError s₁) := by
  unfold recvError
  split_ifs with hend
  · exact (h.ended hs (by simpa [isEnd] using hend)).1
  · exact h.error hs

/-- copying from the start of the buffer is right because nothing has been taken from it -/
theorem ReadRule.socketReady (hs : F s₁) : R (recvReady max s₁) := by
  unfold recvReady
  split_ifs with herror hne
  · exact h.socketError (h.weaken hs)
  · exact h.copy (h.restart hs hne) hne
  · exact h.failed (h.weaken hs) (by decide)

theorem ReadRule.socketIssued (hs : F s₁) (hr : recvIssued a max s₁ = some p) : R p := by
  unfold recvIssued at hr
  split_ifs at hr with hpend hblock
  · cases hr
    exact h.failed (h.weaken hs) (by decide)
  · refine h.await h.after (fun _ => h.weaken) (List.subset_append_right _ _) (fun s₂ hs₂ _ hr => ?_) hs hr
    cases hr
    exact h.socketReady hs₂
  · cases hr
    exact h.socketReady hs
  · cases hr
    exact h.again (h.weaken hs) fun hb => absurd hb hblock

theorem ReadRule.socketIdle (hs : I s₁) (hr : recvIdle a max s₁ = some p) : R p := by
  unfold recvIdle at hr
  split at hr
  · next hne =>
    cases hr
    exact h.copy hs hne
  next hne =>
  split at hr
  · cases hr
    exact h.socketError hs
  have h₀ := not_not.1 hne
  have hst := socketioWSARecv_started (a := a) (s := s₁)
  split at hr
  · next s₂ hissue =>
    rw [hissue] at hst
    cases hr
    exact (h.refused hs h₀ hst).1
  · next s₂ hissue =>
    rw [hissue] at hst
    have hs₂ := h.started hs h₀ hst
    refine h.socketIssued ?_ hr
    split
    · exact apcs_inv h.after a.apcs (apcs_queued h.queued) hs₂
    · exact hs₂

theorem ReadRule.socket (hs : I s) (hr : socketioRecv a max s = some p) : R p := by
  unfold socketioRecv at hr
  split_ifs at hr with hlen hpend hblock
  · cases hr
    exact h.failed hs (by decide)
  · exact h.await h.before (fun _ => id) (List.subset_append_left _ _) (fun s₁ hs₁ _ => h.socketIdle hs₁) hs hr
  · cases hr
    exact h.again hs fun hb => absurd hb hblock
  · exact h.socketIdle hs hr

end Recv

/-- **Rule for reads.** -/
theorem ReadRule.read (h : ReadRule k P a max s I F R) (hs : I s) (hr : w32Read k a max s = some p) : R p := by
  cases k with
  | socket => exact h.socket hs hr
  | file sync type => exact h.file hs hr

theorem onSelect_cases (k : Kind) (a : Answers) (s : Io) : onSelect k a s = s ∨ s.read.remaining = 0 ∧ ∃ s₁,
    Started k a s (true, s₁) ∧ onSelect k a s = s₁ ∨
    Started k a s (false, s₁) ∧ onSelect k a s = { s₁.setErrno 0 with read := { s₁.read with error := s₁.errno } } := by
  have hst : Started k a s (if k = .socket then socketioWSARecv a s else fileioInitiateRead k a (2 ^ 31 - 1) s) := by
    cases k with
    | socket => exact socketioWSARecv_started
    | file sync type => exact fileioInitiateRead_started sync type
  unfold onSelect
  split
  · next hidle =>
    refine .inr ⟨(readAvailable_false.1 hidle.2).1, ?_⟩
    split
    · next s₁ hissue => exact ⟨s₁, .inr ⟨hissue ▸ hst, rfl⟩⟩
    · next s₁ hissue => exact ⟨s₁, .inl ⟨hissue ▸ hst, rfl⟩⟩
  · exact .inl rfl

variable (hI : Kept k P I) (hread : ∀ s d e, I s → I { s with read := d, ended := e })

include hI hread

theorem started_inv {p : Bool × Io} (hs : I s) (h : Started k a s p) : I p.2 := by
  cases h with
  | noMemory => exact hI.errno _ _ hs
  | issued buf n =>
    unfold issueRead
    split
    · exact hread _ _ _ (hI.errno _ _ (hread _ _ s.ended hs))
    · exact hread _ _ _ (hread _ _ s.ended hs)

theorem readRule_of_kept (hp : ∀ x ∈ a.queued, P x) : ReadRule k P a max s I I fun p => I p.2.2 where
  queued := hp
  before := hI
  after := hI
  weaken := id
  started hs _ h := started_inv hI hread hs h
  refused hs _ h := ⟨started_inv hI hread hs h, fun _ _ => hI.errno _ _ (started_inv hI hread hs h)⟩
  woken hs _ _ := hs
  again hs _ := hI.errno _ _ hs
  failed hs _ := hI.errno _ _ hs
  error hs := hread _ _ _ (hI.errno _ _ hs)
  ended hs _ := ⟨hs, hread _ _ _ (hI.errno _ _ hs)⟩
  restart hs _ := hread _ _ _ hs
  copy hs _ := hread _ _ _ hs
  empty hs _ h _ _ _ _ _ := hread _ _ _ (apcs_inv hI a.apcs (apcs_queued hp) (started_inv hI hread hs h))

/-- **Frame rule for reads.** What completions, `errno` and the read's own fields cannot change, `w32_read` leaves. -/
theorem w32Read_inv (hp : ∀ x ∈ a.queued, P x) (h : w32Read k a max s = some (r, bytes, s')) (hs : I s) : I s' :=
  (readRule_of_kept hI hread hp).read hs h

theorem onSelect_inv (hs : I s) : I (onSelect k a s) := by
  obtain heq | ⟨-, s₁, ⟨hst, heq⟩ | ⟨hst, heq⟩⟩ := onSelect_cases k a s
  · rwa [heq]
  · rw [heq]
    exact started_inv hI hread hs hst
  · rw [heq]
    exact hread _ _ _ (hI.errno _ _ (started_inv hI hread hs hst))

end Read

end OpenSSHServerPN.Descriptor
