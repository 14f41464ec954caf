/-
Overlapped operations behind a descriptor (`fileio.c`, `socketio.c`, `termio.c`: the completion routines;
`signal.c`: `wait_for_any_event`).

Model: `Io` is the part of `struct w32_io` that reads and writes use, with the thread's `errno`. One read and one write
may be outstanding; each ends with a procedure call that the system queues for the thread and that runs only inside an
alertable wait. What such a wait runs, and how it ends, is the system's answer: a list of `Apc`s and a `Woken`. A loop
around a wait takes a list of answers; when the list ends while the loop still waits, the call never returns.
Three fields record history and are read by no function: the bytes of the accepted writes, the bytes of the completed
reads, and whether the system has reported the end of the stream.
Not modelled: a failing `QueueUserAPC` or `memcpy_s`, handlers that use the descriptor from inside a wait.

Results: `apcs_inv`, `waitWhile_inv` and `awaitOwn_inv`, the rules for what the procedure calls of a wait can change.
-/
import Mathlib.Tactic

namespace OpenSSHServerPN.Descriptor

abbrev Byte := UInt8

/-! ## Error numbers -/

def EINTR : ℤ := 4
def EAGAIN : ℤ := 11
def ENOMEM : ℤ := 12
def EINVAL : ℤ := 22
def EPIPE : ℤ := 32
def EOTHER : ℤ := 131

def ERROR_HANDLE_EOF : ℤ := 38
def ERROR_BROKEN_PIPE : ℤ := 109
def ERROR_GRACEFUL_DISCONNECT : ℤ := 1226

/-- `errno_from_Win32Error` -/
def errnoFromWin32Error (e : ℤ) : ℤ :=
  if e = 1314 ∨ e = 5 then 13                     -- PRIVILEGE_NOT_HELD, ACCESS_DENIED: EACCES
  else if e = 14 then ENOMEM                      -- OUTOFMEMORY
  else if e = 80 then 17                          -- FILE_EXISTS: EEXIST
  else if e = 2 ∨ e = 3 ∨ e = 123 then 2          -- FILE_NOT_FOUND, PATH_NOT_FOUND, INVALID_NAME: ENOENT
  else if e = 1 ∨ e = 50 then 130                 -- INVALID_FUNCTION, NOT_SUPPORTED: EOPNOTSUPP
  else e

/-- `errno_from_WSAError` -/
def errnoFromWSAError (e : ℤ) : ℤ :=
  if e = 10035 then EAGAIN                        -- WSAEWOULDBLOCK
  else if e = 10014 then 14                       -- WSAEFAULT
  else if e = 10022 then EINVAL                   -- WSAEINVAL
  else if e = 10053 then 106                      -- WSAECONNABORTED
  else if e = 10060 then 138                      -- WSAETIMEDOUT
  else if e = 10061 then 107                      -- WSAECONNREFUSED
  else if e = 10036 then 112                      -- WSAEINPROGRESS
  else if e = 10058 then 108                      -- WSAESHUTDOWN: ECONNRESET
  else if e = 10057 then 126                      -- WSAENOTCONN
  else if e = 10054 then 108                      -- WSAECONNRESET
  else e - 10000

/-! ## Descriptors -/

/-- `GetFileType` of the handle -/
inductive FileType where
  | disk
  | char
  | pipe
  | unknown
deriving DecidableEq, Repr

/-- `pio->type`: `SOCK_FD`, or `NONSOCK_FD` and `NONSOCK_SYNC_FD` with the type of the handle -/
inductive Kind where
  | socket
  | file (sync : Bool) (type : FileType)
deriving DecidableEq, Repr

/-- the operation runs on a worker thread (`syncio_initiate_read`, `syncio_initiate_write`) -/
def Kind.onThread : Kind → Bool
  | .socket => false
  | .file sync type => sync || type == .char

def Kind.isPipe : Kind → Bool
  | .file _ .pipe => true
  | _ => false

def Kind.isDisk : Kind → Bool
  | .file _ .disk => true
  | _ => false

/-- `pio->write_details`; `buf` holds the bytes last copied in -/
structure WriteDetails where
  buf : Option (List Byte)
  remaining : UInt32
  error : ℤ
  pending : Bool
  /-- `write_overlapped.Offset` -/
  offset : UInt64
deriving DecidableEq, Repr

/-- `pio->read_details`; `buf` holds the bytes of the last completed read -/
structure ReadDetails where
  buf : Option (List Byte)
  bufSize : ℕ
  remaining : ℕ
  completed : ℕ
  error : ℤ
  pending : Bool
  /-- `read_overlapped.Offset` -/
  offset : UInt64
deriving DecidableEq, Repr

structure Io where
  blocking : Bool
  errno : ℤ
  write : WriteDetails
  read : ReadDetails
  /-- history: the bytes of the write operations the system accepted -/
  handed : List Byte
  /-- history: the bytes of the read operations the system completed -/
  delivered : List Byte
  /-- history: the system has reported the end of the file or of the connection -/
  ended : Bool
deriving DecidableEq, Repr

/-- a descriptor as it is opened -/
def Io.opened (blocking : Bool) : Io where
  blocking := blocking
  errno := 0
  write := { buf := none, remaining := 0, error := 0, pending := false, offset := 0 }
  read := { buf := none, bufSize := 0, remaining := 0, completed := 0, error := 0, pending := false, offset := 0 }
  handed := []
  delivered := []
  ended := false

def Io.setErrno (e : ℤ) (s : Io) : Io := { s with errno := e }

/-! ## Completions -/

/-- a queued procedure call: the error code and what was transferred -/
inductive Apc where
  | read (error : ℤ) (data : List Byte)
  | write (error : ℤ) (transferred : UInt32)
deriving DecidableEq, Repr

/-- the error a completed read leaves behind: `WSARecvCompletionRoutine` takes an empty receive for the end of the
connection, `ReadThread` an empty read for the end of the file unless the handle is a character device -/
def readError (k : Kind) (error : ℤ) (data : List Byte) : ℤ :=
  match k with
  | .socket => if error = 0 ∧ data = [] then ERROR_GRACEFUL_DISCONNECT else error
  | .file sync type =>
    if sync = true ∧ type ≠ .char ∧ error = 0 ∧ data = [] then ERROR_HANDLE_EOF else error

/-- a completion by which the system reports the end: a broken pipe, the end of the file, a closed connection, or a read
on a synchronous handle or a connection that succeeds with no byte -/
def reportsEnd (k : Kind) (error : ℤ) (data : List Byte) : Bool :=
  match k with
  | .socket => error == ERROR_GRACEFUL_DISCONNECT || (error == 0 && data.isEmpty)
  | .file _ _ =>
    error == ERROR_BROKEN_PIPE || error == ERROR_HANDLE_EOF || (k.onThread && error == 0 && data.isEmpty)

/-- `ReadCompletionRoutine`, `WSARecvCompletionRoutine` and `ReadAPCProc` -/
def readCompletion (k : Kind) (error : ℤ) (data : List Byte) (s : Io) : Io :=
  { s with
    read := { s.read with
      buf := some data
      remaining := data.length
      completed := 0
      error := readError k error data
      pending := false
      offset := if k.onThread || k == .socket then s.read.offset else s.read.offset + UInt64.ofNat data.length }
    delivered := s.delivered ++ data
    ended := s.ended || reportsEnd k error data }

/-- `WriteCompletionRoutine`, `WSASendCompletionRoutine` and `WriteAPCProc` -/
def writeCompletion (k : Kind) (error : ℤ) (transferred : UInt32) (s : Io) : Io :=
  { s with
    write := { s.write with
      remaining := s.write.remaining - transferred
      error := error
      pending := false
      offset := if k.onThread || k == .socket then s.write.offset else s.write.offset + transferred.toUInt64 } }

/-- a completion runs only for an operation that is outstanding -/
def apc (k : Kind) (s : Io) : Apc → Io
  | .read error data => if s.read.pending then readCompletion k error data s else s
  | .write error transferred => if s.write.pending then writeCompletion k error transferred s else s

/-- the procedure calls of one alertable wait, in their order -/
def apcs (k : Kind) (as : List Apc) (s : Io) : Io := as.foldl (apc k) s

/-! ## Waits -/

/-- what `wait_for_any_event` returns: 0, or -1 with `errno` (`EINTR` after a signal handler) -/
inductive Woken where
  | ready
  | failed (errno : ℤ)
deriving DecidableEq, Repr

/-- the system's answer to one wait -/
structure Wait where
  apcs : List Apc
  woken : Woken
deriving DecidableEq, Repr

/-- `while (busy) if (wait_for_any_event(NULL, 0, INFINITE) == -1) return -1;`, where `false` is that return -/
def waitWhile (k : Kind) (busy : Io → Bool) : List Wait → Io → Option (Bool × Io)
  | [], s => if busy s then none else some (true, s)
  | w :: ws, s =>
    if busy s then
      match w.woken with
      | .ready => waitWhile k busy ws (apcs k w.apcs s)
      | .failed e => some (false, (apcs k w.apcs s).setErrno e)
    else some (true, s)

/-- the wait of a blocking write for its own operation: `EINTR` is forgiven once the operation has completed -/
def awaitOwn (k : Kind) : List Wait → Io → Option (Bool × Io)
  | [], s => if s.write.pending then none else some (true, s)
  | w :: ws, s =>
    if s.write.pending then
      match w.woken with
      | .ready => awaitOwn k ws (apcs k w.apcs s)
      | .failed e =>
        if e ≠ EINTR ∨ (apcs k w.apcs s).write.pending = true then some (false, (apcs k w.apcs s).setErrno e)
        else awaitOwn k ws ((apcs k w.apcs s).setErrno 0)
    else some (true, s)

/-! ## What a wait can change -/

/-- `I` survives every completion that meets `P` and every change of `errno` -/
structure Kept (k : Kind) (P : Apc → Prop) (I : Io → Prop) : Prop where
  apc : ∀ s a, P a → I s → I (apc k s a)
  errno : ∀ s e, I s → I (s.setErrno e)

section Frame

variable {k : Kind} {P : Apc → Prop} {I : Io → Prop} {s s' : Io} {b : Bool}

theorem kept_of (hread : ∀ s e data, P (.read e data) → s.read.pending = true → I s → I (readCompletion k e data s))
    (hwrite : ∀ s e t, s.write.pending = true → I s → I (writeCompletion k e t s)) (herrno : ∀ s e, I s → I (s.setErrno e)) :
    Kept k P I where
  apc s x hx h := by
    cases x with
    | read e data =>
      simp only [apc]
      split
      · next hp => exact hread s e data hx hp h
      · exact h
    | write e t =>
      simp only [apc]
      split
      · next hp => exact hwrite s e t hp h
      · exact h
  errno := herrno

/-- what every admissible completion keeps, a wait keeps -/
theorem apcs_inv (hI : Kept k P I) (as : List Apc) (hp : ∀ a ∈ as, P a) (h : I s) : I (apcs k as s) := by
  induction as generalizing s with
  | nil => exact h
  | cons a as ih =>
    exact ih (fun b hb => hp b (List.mem_cons_of_mem a hb)) (hI.apc s a (hp a List.mem_cons_self) h)

/-- **Invariant rule for waits.** A waiting loop keeps what completions and changes of `errno` keep. It ends by itself
only when nothing is left to wait for, and a failed wait leaves its `errno`. -/
theorem waitWhile_inv (hI : Kept k P I) {busy : Io → Bool} {ws : List Wait} (hp : ∀ w ∈ ws, ∀ a ∈ w.apcs, P a)
    (h : waitWhile k busy ws s = some (b, s')) (hs : I s) :
    I s' ∧ (b = true → busy s' = false) ∧ (b = false → ∃ w ∈ ws, w.woken = .failed s'.errno) := by
  induction ws generalizing s with
  | nil =>
    unfold waitWhile at h
    split at h
    · cases h
    · next hbusy =>
      cases h
      exact ⟨hs, fun _ => by simpa using hbusy, by simp⟩
  | cons w ws ih =>
    have hw : I (apcs k w.apcs s) := apcs_inv hI w.apcs (hp w List.mem_cons_self) hs
    unfold waitWhile at h
    split at h
    · cases hwoken : w.woken with
      | ready =>
        simp only [hwoken] at h
        obtain ⟨hs', hbusy, hfail⟩ := ih (fun v hv => hp v (List.mem_cons_of_mem w hv)) h hw
        refine ⟨hs', hbusy, fun hb => ?_⟩
        obtain ⟨v, hv, hve⟩ := hfail hb
        exact ⟨v, List.mem_cons_of_mem w hv, hve⟩
      | failed e =>
        simp only [hwoken] at h
        obtain ⟨rfl, rfl⟩ := h
        exact ⟨hI.errno _ e hw, by simp, fun _ => ⟨w, List.mem_cons_self, hwoken⟩⟩
    · next hbusy =>
      cases h
      exact ⟨hs, fun _ => by simpa using hbusy, by simp⟩

theorem awaitOwn_inv (hI : Kept k P I) {ws : List Wait} (hp : ∀ w ∈ ws, ∀ a ∈ w.apcs, P a)
    (h : awaitOwn k ws s = some (b, s')) (hs : I s) : I s' := by
  induction ws generalizing s with
  | nil =>
    unfold awaitOwn at h
    split at h
    · cases h
    · cases h
      exact hs
  | cons w ws ih =>
    have hw : I (apcs k w.apcs s) := apcs_inv hI w.apcs (hp w List.mem_cons_self) hs
    have hws : ∀ v ∈ ws, ∀ a ∈ v.apcs, P a := fun v hv => hp v (List.mem_cons_of_mem w hv)
    unfold awaitOwn at h
    split at h
    · cases hwoken : w.woken with
      | ready => exact ih hws (by simpa only [hwoken] using h) hw
      | failed e =>
        simp only [hwoken] at h
        split at h
        · cases h
          exact hI.errno _ e hw
        · exact ih hws h (hI.errno _ 0 hw)
    · cases h
      exact hs

end Frame

end OpenSSHServerPN.Descriptor
