/-
What `w32_read` returns, over histories of a descriptor with `select` and completions in between.

A completed read leaves its bytes in a buffer with two counters, `completed` and `remaining`; reads of any size take from
it, `select` and reads start the next operation when it is empty.

Results:
- `got_prefix_delivered`: over every history whatever, the bytes returned are a prefix of the bytes the system delivered;
- `read_answers`: over every history that meets `sound`, 0 is returned only after the system reported the end, and a
  blocking read never returns -1 with `EAGAIN`. `sound` asks for reads of a size that is not 0 as a `DWORD`, for
  non-blocking overlapped reads of files that do not complete empty, for blocking reads of a file made when no read is
  outstanding, and for error codes that are not `EAGAIN` after translation;
- `blocking_read_again`: without it, a blocking read of a pipe after `select` returns -1 with `EAGAIN`, and a message of
  no bytes makes a non-blocking read of a pipe return 0.
-/
import OpenSSHServerPN.Win32.DescriptorIo

namespace OpenSSHServerPN.Descriptor

open Runs List

variable {k : Kind} {s s' : Io} {a : Answers} {r : ℤ} {got bytes : List Byte}

/-! ## The byte stream -/

/-- the bytes of the last completed read that no read has returned -/
def Io.unread (s : Io) : List Byte := (s.read.buf.getD []).drop s.read.completed

/-- returned and unread bytes are those delivered; the next operation is issued only when nothing is unread -/
structure Stream (got : List Byte) (s : Io) : Prop where
  stream : s.delivered = got ++ s.unread
  counted : s.unread.length = s.read.remaining
  idle : s.read.pending = true → s.read.remaining = 0

theorem Stream.unread_nil (h : Stream got s) (h₀ : s.read.remaining = 0) : s.unread = [] :=
  length_eq_zero_iff.1 (h.counted.trans h₀)

theorem Stream.completed {data : List Byte} (h : Stream got s) (hp : s.read.pending = true) (e : ℤ) :
    Stream got (readCompletion k e data s) := by
  refine ⟨?_, ?_, by simp [readCompletion]⟩
  · have hall : s.delivered = got := by rw [h.stream, h.unread_nil (h.idle hp), append_nil]
    simp [readCompletion, Io.unread, hall]
  · simp [readCompletion, Io.unread]

theorem kept_stream (k : Kind) (got : List Byte) : Kept k (fun _ => True) (Stream got) :=
  kept_of (fun _ e _ _ hp h => h.completed hp e) (fun _ _ _ _ h => { h with }) fun _ _ h => { h with }

theorem writeKept_stream (got : List Byte) : WriteKept (Stream got) where
  clear _ _ h := { h with }
  fill _ _ _ h := { h with }
  accept _ _ _ h := { h with }

/-- the result of a read continues the stream with as many bytes as the value returned says -/
structure Continues (got : List Byte) (p : ReadResult) : Prop where
  stream : Stream (got ++ p.2.1) p.2.2
  value : p.1.toNat = p.2.1.length

theorem continues_none (h : Stream got s) (hr : r ≤ 0) : Continues got (r, [], s) :=
  ⟨by rw [append_nil]; exact h, by simpa using hr⟩

variable {n : ℕ} {e : ℤ} {p : ReadResult}

theorem copyOut_continues (hn : n ≤ s.read.remaining) (h : Stream got s) : Continues got (s.copyOut n) := by
  have hafter : (s.copyOut n).2.2.unread = s.unread.drop n := by simp [Io.copyOut, Io.unread]
  have hlen : (s.copyOut n).2.1.length = n := by
    rw [← h.counted] at hn
    exact length_take_of_le hn
  refine ⟨⟨?_, ?_, fun hp => ?_⟩, by rw [hlen]; rfl⟩
  · have hmoved : (s.copyOut n).2.1 ++ s.unread.drop n = s.unread := take_append_drop n s.unread
    rw [hafter, append_assoc, hmoved]
    exact h.stream
  · rw [hafter, length_drop, h.counted]
    rfl
  · have hzero : s.read.remaining = 0 := h.idle hp
    simp [Io.copyOut, hzero]

/-- an operation is under way and nothing is unread, or it has completed and nothing has been taken from it -/
structure Fresh (got : List Byte) (s : Io) : Prop extends Stream got s where
  start : s.read.remaining ≠ 0 → s.read.completed = 0

theorem kept_fresh (k : Kind) (got : List Byte) : Kept k (fun _ => True) (Fresh got) :=
  kept_of (fun _ e _ _ hp h => ⟨h.toStream.completed hp e, fun _ => rfl⟩) (fun _ _ _ _ h => { h with }) fun _ _ h => { h with }

theorem fresh_of_empty (h : Stream got s) (h₀ : s.read.remaining = 0) : Fresh got s :=
  ⟨h, fun hne => absurd h₀ hne⟩

/-- only the buffer's allocation and the pending mark change when an operation is started, and nothing was unread -/
theorem started_fresh {p : Bool × Io} (h : Stream got s) (h₀ : s.read.remaining = 0) (hst : Started k a s p) :
    Fresh got p.2 := by
  cases hst with
  | noMemory => exact fresh_of_empty { h with } h₀
  | issued buf n hbuf =>
    have hnil : (buf.getD []).drop s.read.completed = s.unread := by
      rcases hbuf with hbuf | rfl
      · rw [hbuf]
        rfl
      · rw [h.unread_nil h₀]
        exact drop_nil
    have hbuffer : Stream got { s with read := { s.read with buf := buf, bufSize := n } } :=
      ⟨h.stream.trans (congrArg _ hnil.symm), (congrArg length hnil).trans h.counted, h.idle⟩
    unfold issueRead
    split
    · exact fresh_of_empty { hbuffer with } h₀
    · exact fresh_of_empty ⟨hbuffer.stream, hbuffer.counted, fun _ => h₀⟩ h₀

variable {max : ℕ}

/-- copying from the start of the buffer is right because nothing has been taken from it -/
theorem Fresh.restart (h : Fresh got s) (hne : s.read.remaining ≠ 0) :
    Stream got { s with read := { s.read with completed := 0 } } := by
  rw [← h.start hne]
  exact h.toStream

theorem readRule_continues (k : Kind) (a : Answers) (max : ℕ) (s : Io) (got : List Byte) :
    ReadRule k (fun _ => True) a max s (Stream got) (Fresh got) (Continues got) where
  queued _ _ := trivial
  before := kept_stream k got
  after := kept_fresh k got
  weaken h := h.toStream
  started h h₀ hst := started_fresh h h₀ hst
  refused h h₀ hst :=
    have hs := (started_fresh h h₀ hst).toStream
    ⟨continues_none hs (by omega), fun _ _ => continues_none { hs with } le_rfl⟩
  woken h _ _ := continues_none h (by omega)
  again h _ := continues_none { h with } (by omega)
  failed h _ := continues_none { h with } (by omega)
  error h := continues_none { h with } (by omega)
  ended h _ := ⟨continues_none h le_rfl, continues_none { h with } le_rfl⟩
  restart h hne := h.restart hne
  copy h _ := copyOut_continues (Nat.min_le_right _ _) h
  empty h h₀ hst _ _ _ _ _ :=
    copyOut_continues (Nat.zero_le _) (apcs_inv (kept_fresh k got) a.apcs (fun _ _ => trivial) (started_fresh h h₀ hst)).toStream

theorem onSelect_stream (hs : Stream got s) : Stream got (onSelect k a s) := by
  obtain heq | ⟨h₀, s₁, ⟨hst, heq⟩ | ⟨hst, heq⟩⟩ := onSelect_cases k a s
  · rwa [heq]
  · rw [heq]
    exact (started_fresh hs h₀ hst).toStream
  · rw [heq]
    exact { (started_fresh hs h₀ hst).toStream with }

variable (w : World)

/-- **Step lemma for the stream.** -/
theorem stream_step (e : Event) (hw : Stream w.got w.io) : Stream (step k w e).got (step k w e).io := by
  have hkept := kept_stream k w.got
  cases e with
  | write as data =>
    exact wrote_inv hw fun _ _ h => w32Write_inv hkept (writeKept_stream w.got) (fun _ _ _ _ => trivial) h hw
  | writev iov =>
    exact wrote_inv hw fun _ _ h => w32Writev_inv hkept (writeKept_stream w.got) (fun _ _ _ _ _ _ => trivial) h hw
  | read a max =>
    -- whatever happens in its waits, the bytes of a read continue the stream
    exact received_inv hw fun _ _ _ h => ((readRule_continues k a max w.io w.got).read hw h).stream
  | select a => exact onSelect_stream hw
  | alertable as => exact apcs_inv hkept as (fun _ _ => trivial) hw
  | setBlocking b => exact { hw with }

theorem stream_run (k : Kind) (blocking : Bool) (events : List Event) :
    Stream (run (step k) (World.opened blocking) events).got (run (step k) (World.opened blocking) events).io :=
  run_inv_all stream_step events
    ⟨rfl, rfl, fun h => absurd h (by simp [World.opened, Io.opened])⟩

/-- **No byte is lost, doubled or moved.** Over every history, the bytes returned are a prefix of those delivered. -/
theorem got_prefix_delivered (k : Kind) (blocking : Bool) (events : List Event) :
    (run (step k) (World.opened blocking) events).got <+: (run (step k) (World.opened blocking) events).io.delivered :=
  ⟨_, (stream_run k blocking events).stream.symm⟩

/-! ## What 0 and -1 say -/

/-- a completion with an error code that is not `EAGAIN` after translation -/
def plainApc (k : Kind) : Apc → Bool
  | .read e _ => errnoOf k e != EAGAIN
  | .write _ _ => true

/-- the stored error code stands for the end only after the system reported the end, and never for `EAGAIN` -/
structure Truthful (k : Kind) (b : Bool) (s : Io) : Prop where
  blocking : s.blocking = b
  ends : isEnd k s.read.error = true → s.ended = true
  code : errnoOf k s.read.error ≠ EAGAIN

theorem isEnd_zero (k : Kind) : isEnd k 0 = false := by cases k <;> rfl

theorem errnoOf_zero (k : Kind) : errnoOf k 0 ≠ EAGAIN := by
  cases k with
  | socket => decide
  | file sync type => exact (by decide : errnoFromWin32Error 0 ≠ EAGAIN)

/-- a completion that leaves an end code behind reports the end -/
theorem reportsEnd_of_isEnd {data : List Byte} (h : isEnd k (readError k e data) = true) :
    reportsEnd k e data = true := by
  cases k with
  | socket =>
    simp only [readError] at h
    split at h
    · next hclosed => simp [reportsEnd, hclosed.1, hclosed.2]
    · simpa [isEnd, reportsEnd] using Or.inl h
  | file sync type =>
    simp only [readError] at h
    split at h
    · next hempty =>
      obtain ⟨hsync, -, he, hdata⟩ := hempty
      simp [reportsEnd, Kind.onThread, hsync, he, hdata]
    · simp only [isEnd, Bool.or_eq_true, beq_iff_eq] at h
      rcases h with rfl | rfl
      · rfl
      · rfl

theorem errnoOf_readError {data : List Byte} (h : errnoOf k e ≠ EAGAIN) : errnoOf k (readError k e data) ≠ EAGAIN := by
  cases k with
  | socket =>
    simp only [readError]
    split
    · decide
    · exact h
  | file sync type =>
    simp only [readError]
    split
    · exact (by decide : errnoFromWin32Error ERROR_HANDLE_EOF ≠ EAGAIN)
    · exact h

theorem kept_truthful (k : Kind) (b : Bool) : Kept k (fun x => plainApc k x = true) (Truthful k b) := by
  refine kept_of (fun s e data hx _ h => ?_) (fun _ _ _ _ h => { h with }) fun _ _ h => { h with }
  refine ⟨h.blocking, fun hend => ?_, errnoOf_readError (by simpa [plainApc] using hx)⟩
  simp only [readCompletion, Bool.or_eq_true]
  exact .inr (reportsEnd_of_isEnd hend)

theorem writeKept_truthful (k : Kind) (b : Bool) : WriteKept (Truthful k b) where
  clear _ _ h := { h with }
  fill _ _ _ h := { h with }
  accept _ _ _ h := { h with }

variable {b : Bool}

/-- the error code is taken out and reported -/
theorem Truthful.cleared (h : Truthful k b s) (e : ℤ) :
    Truthful k b { s.setErrno e with read := { s.read with error := 0 } } :=
  ⟨h.blocking, fun hend => absurd hend (by simp [isEnd_zero]), errnoOf_zero k⟩

/-- what the value returned by a read says -/
structure Answered (k : Kind) (b : Bool) (p : ReadResult) : Prop where
  truthful : Truthful k b p.2.2
  zero : p.1 = 0 → p.2.2.ended = true
  again : b = true → p.1 = -1 → p.2.2.errno ≠ EAGAIN

section
variable (h : Truthful k b s)
include h

theorem answered_failed (he : b = true → s.errno ≠ EAGAIN) : Answered k b s.readFailed :=
  ⟨h, fun h0 => absurd h0 (by simp [Io.readFailed]), fun hb _ => he hb⟩

theorem answered_again (hb : b = false) : Answered k b (s.setErrno EAGAIN).readFailed :=
  answered_failed ((kept_truthful k b).errno _ _ h) (fun hb' => absurd (hb'.symm.trans hb) (by simp))

theorem answered_end (he : s.ended = true) : Answered k b (0, [], s) :=
  ⟨h, fun _ => he, fun _ h1 => absurd h1 (by norm_num)⟩

theorem copyOut_answered (hn : n = 0 → s.ended = true) : Answered k b (s.copyOut n) :=
  ⟨{ h with }, fun h0 => hn (by simpa [Io.copyOut] using h0), fun _ h1 => by
    simp only [Io.copyOut] at h1
    omega⟩

end

/-- the operation could not be issued: `errno` is the translated code, and the end was reported if it says so -/
structure Refused (k : Kind) (a : Answers) (s : Io) : Prop where
  errno : s.errno = ENOMEM ∨ ∃ e, a.issue = .refused e ∧ s.errno = errnoOf k e
  ends : k ≠ .socket → isEnd k s.errno = true → s.ended = true

theorem win32_end (h : errnoFromWin32Error e = ERROR_BROKEN_PIPE ∨ errnoFromWin32Error e = ERROR_HANDLE_EOF) :
    e = ERROR_BROKEN_PIPE ∨ e = ERROR_HANDLE_EOF := by
  unfold errnoFromWin32Error ERROR_BROKEN_PIPE ERROR_HANDLE_EOF ENOMEM at *
  split_ifs at h <;> omega

/-- issuing keeps the stored code; it ends with an outstanding operation or a refusal -/
structure Issued (k : Kind) (b : Bool) (a : Answers) (p : Bool × Io) : Prop where
  truthful : Truthful k b p.2
  refused : p.1 = false → Refused k a p.2
  pending : p.1 = true → p.2.read.pending = true

theorem issueRead_issued (h : Truthful k b s) : Issued k b a (issueRead k (errnoOf k) a s) := by
  unfold issueRead
  cases hissue : a.issue with
  | refused e =>
    refine ⟨⟨h.blocking, fun hend => ?_, h.code⟩, fun _ => ⟨.inr ⟨e, hissue, rfl⟩, fun hk hend => ?_⟩, by simp⟩
    · have hold : s.ended = true := h.ends hend
      simp [hold]
    cases k with
    | socket => exact absurd rfl hk
    | file sync type =>
      simp only [isEnd, Bool.or_eq_true, beq_iff_eq] at hend
      simp only [Bool.or_eq_true, Bool.and_eq_true, beq_iff_eq]
      exact .inr ⟨rfl, win32_end hend⟩
  | started | finished => exact ⟨{ h with }, by simp, fun _ => rfl⟩

theorem started_issued {p : Bool × Io} (h : Truthful k b s) (hst : Started k a s p) : Issued k b a p := by
  cases hst with
  | noMemory =>
    exact ⟨(kept_truthful k b).errno _ _ h, fun _ => ⟨.inl rfl, fun _ hend => by cases k <;> cases hend⟩, by simp⟩
  | issued buf n => exact issueRead_issued { h with }

/-! ## The condition -/

/-- a refused operation whose code is not `EAGAIN` after translation -/
def plainRefusal (k : Kind) (a : Answers) : Bool :=
  match a.issue with
  | .refused e => errnoOf k e != EAGAIN
  | _ => true

/-- a read whose value can be relied on -/
def soundRead (k : Kind) (s : Io) (a : Answers) (max : ℕ) : Bool :=
  dword max != 0 && a.queued.all (plainApc k) &&
    if s.blocking then
      (k == .socket || !s.read.pending) && plainRefusal k a &&
        (a.earlier ++ a.own).all fun w => w.woken != .failed EAGAIN
    else k == .socket || k.onThread || a.apcs.all fun x => x != .read 0 []

/-- `select` stores the translated code, which the read translates once more -/
def soundSelect (k : Kind) (a : Answers) : Bool :=
  match a.issue with
  | .refused e => errnoOf k (errnoOf k e) != EAGAIN && !(k == .socket && errnoOf k e == ERROR_GRACEFUL_DISCONNECT)
  | _ => true

def sound (k : Kind) (w : World) : Event → Bool
  | .write as _ => as.all fun a => a.queued.all (plainApc k)
  | .writev iov => iov.all fun v => v.1.all fun a => a.queued.all (plainApc k)
  | .read a max => soundRead k w.io a max
  | .select a => soundSelect k a
  | .alertable as => as.all (plainApc k)
  | .setBlocking _ => true

/-- the parts of `soundRead` -/
structure SoundRead (k : Kind) (s : Io) (a : Answers) (max : ℕ) : Prop where
  size : dword max ≠ 0
  apcs : ∀ x ∈ a.queued, plainApc k x = true
  idle : s.blocking = true → k ≠ .socket → s.read.pending = false
  refusal : s.blocking = true → ∀ e, a.issue = .refused e → errnoOf k e ≠ EAGAIN
  earlier : s.blocking = true → ∀ w ∈ a.earlier, w.woken ≠ .failed EAGAIN
  own : s.blocking = true → ∀ w ∈ a.own, w.woken ≠ .failed EAGAIN
  nonempty : s.blocking = false → k ≠ .socket → ∀ x ∈ a.apcs, k.onThread = true ∨ x ≠ .read 0 []

theorem soundRead_parts (h : soundRead k s a max = true) : SoundRead k s a max := by
  unfold soundRead at h
  simp only [Bool.and_eq_true, bne_iff_ne, ne_eq, all_eq_true] at h
  obtain ⟨⟨hsize, hapcs⟩, h⟩ := h
  cases hb : s.blocking with
  | true =>
    simp only [hb, if_true, Bool.and_eq_true, Bool.or_eq_true, beq_iff_eq, Bool.not_eq_true', all_eq_true, bne_iff_ne] at h
    obtain ⟨⟨hidle, hrefusal⟩, hwaits⟩ := h
    refine ⟨hsize, hapcs, fun _ hk => hidle.resolve_left hk, fun _ e he => ?_,
      fun _ w hw => hwaits w (mem_append_left _ hw), fun _ w hw => hwaits w (mem_append_right _ hw),
      fun hf => absurd (hb.symm.trans hf) (by simp)⟩
    simpa [plainRefusal, he] using hrefusal
  | false =>
    simp only [hb, Bool.false_eq_true, if_false, Bool.or_eq_true, beq_iff_eq, all_eq_true, bne_iff_ne, ne_eq] at h
    have hno : s.blocking = true → False := fun ht => absurd (hb.symm.trans ht) (by simp)
    refine ⟨hsize, hapcs, fun ht => (hno ht).elim, fun ht => (hno ht).elim, fun ht => (hno ht).elim,
      fun ht => (hno ht).elim, fun _ hk x hx => ?_⟩
    rcases h with (h | h) | h
    · exact absurd h hk
    · exact .inl h
    · exact .inr (h x hx)

/-! ## One read -/

/-- after the issue: still under way, or something to return, or the end was reported -/
def Landed (s : Io) : Prop :=
  s.read.pending = true ∨ s.read.remaining ≠ 0 ∨ s.read.error ≠ 0 ∨ s.ended = true

theorem kept_landed (hk : k ≠ .socket) : Kept k (fun x => k.onThread = true ∨ x ≠ .read 0 []) Landed := by
  refine kept_of (fun s e data hx _ h => .inr ?_) (fun _ _ _ _ h => h) fun _ _ h => h
  cases k with
  | socket => exact absurd rfl hk
  | file sync type =>
    -- the operation completes: with bytes, with an error, or empty on a worker thread
    by_cases hdata : data = []
    · by_cases he : e = 0
      · subst hdata he
        have hthread : (Kind.file sync type).onThread = true := hx.resolve_right (by simp)
        simp [readCompletion, reportsEnd, hthread]
      · exact .inr (.inl (by simp [readCompletion, readError, he]))
    · exact .inl (by simp [readCompletion, hdata])

section
variable (hread : SoundRead k s a max) (hb : s.blocking = b) {s₁ s₂ : Io} (hs : Truthful k b s₁)
include hread hb hs

/-- `errno` of an operation that could not be started is not `EAGAIN` for a blocking read -/
theorem refused_answered (hst : Started k a s₁ (false, s₂)) : Answered k b s₂.readFailed := by
  have hissued := started_issued hs hst
  refine answered_failed hissued.truthful fun hbt he => ?_
  rcases (hissued.refused rfl).errno with hmem | ⟨e, hrefusal, herrno⟩
  · exact absurd (hmem.symm.trans he) (by decide)
  · exact hread.refusal (hb.trans hbt) e hrefusal (herrno.symm.trans he)

theorem woken_answered {w : Wait} (hw : w ∈ a.earlier ++ a.own) (hwoken : w.woken = .failed s₁.errno) :
    Answered k b s₁.readFailed := by
  refine answered_failed hs fun hbt he => ?_
  rw [he] at hwoken
  rcases mem_append.1 hw with hw | hw
  · exact hread.earlier (hb.trans hbt) w hw hwoken
  · exact hread.own (hb.trans hbt) w hw hwoken

/-- an empty completion of an overlapped file read is excluded, and that of a synchronous one is the end -/
theorem empty_answered (hst : Started k a s₁ (true, s₂)) (hk : k ≠ .socket) (hblock : (apcs k a.apcs s₂).blocking = false)
    (hpend : (apcs k a.apcs s₂).read.pending = false) (herror : (apcs k a.apcs s₂).read.error = 0)
    (hrem : (apcs k a.apcs s₂).read.remaining = 0) : Answered k b ((apcs k a.apcs s₂).copyOut 0) := by
  have hissued := started_issued hs hst
  have hs₃ := apcs_inv (kept_truthful k b) a.apcs (apcs_queued hread.apcs) hissued.truthful
  have hnonempty := hread.nonempty (by rw [hb, ← hs₃.blocking, hblock]) hk
  have hland : Landed (apcs k a.apcs s₂) := apcs_inv (kept_landed hk) a.apcs hnonempty (.inl (hissued.pending rfl))
  refine copyOut_answered hs₃ fun _ => ?_
  simpa [Landed, hpend, herror, hrem] using hland

end

theorem readRule_answered (hread : SoundRead k s a max) (hb : s.blocking = b) :
    ReadRule k (fun x => plainApc k x = true) a max s (Truthful k b) (Truthful k b) (Answered k b) where
  queued := hread.apcs
  before := kept_truthful k b
  after := kept_truthful k b
  weaken := id
  started hs _ hst := (started_issued hs hst).truthful
  refused hs _ hst :=
    have hissued := started_issued hs hst
    ⟨refused_answered hread hb hs hst,
      fun hk hend => answered_end ((kept_truthful k b).errno _ _ hissued.truthful) ((hissued.refused rfl).ends hk hend)⟩
  woken hs hw hwoken := woken_answered hread hb hs hw hwoken
  again hs hbusy := by
    refine answered_again hs (Bool.eq_false_iff.2 fun hbt => ?_)
    obtain ⟨hk, hblock, hpend⟩ := hbusy (hs.blocking.trans hbt)
    rw [hread.idle hblock hk] at hpend
    cases hpend
  failed hs he := answered_failed ((kept_truthful k b).errno _ _ hs) fun _ => he
  error hs := answered_failed (hs.cleared _) fun _ => hs.code
  ended hs hend := ⟨answered_end hs (hs.ends hend), answered_end (hs.cleared 0) (hs.ends hend)⟩
  restart hs _ := { hs with }
  copy hs hne := copyOut_answered hs fun h0 => absurd h0 (by have := hread.size; omega)
  empty hs _ hst hk hblock hpend herror hrem := empty_answered hread hb hs hst hk hblock hpend herror hrem

theorem w32Read_answered (hread : SoundRead k s a max) (hs : Truthful k s.blocking s)
    (h : w32Read k a max s = some p) : Answered k s.blocking p :=
  (readRule_answered hread rfl).read hs h

/-- the code that `select` stores -/
theorem onSelect_truthful (hselect : soundSelect k a = true) (hs : Truthful k b s) : Truthful k b (onSelect k a s) := by
  obtain heq | ⟨-, s₁, ⟨hst, heq⟩ | ⟨hst, heq⟩⟩ := onSelect_cases k a s
  · rwa [heq]
  · rw [heq]
    exact (started_issued hs hst).truthful
  rw [heq]
  have hissued := started_issued hs hst
  have hrefused := hissued.refused rfl
  refine ⟨hissued.truthful.blocking, fun hend => ?_, ?_⟩
  · by_cases hk : k = .socket
    · subst hk
      rcases hrefused.errno with hmem | ⟨e, hrefusal, herrno⟩
      · rw [hmem] at hend
        cases hend
      · rw [herrno] at hend
        simp [soundSelect, hrefusal] at hselect
        exact absurd (by simpa [isEnd] using hend) hselect.2
    · exact hrefused.ends hk hend
  · show errnoOf k s₁.errno ≠ EAGAIN
    rcases hrefused.errno with hmem | ⟨e, hrefusal, herrno⟩
    · rw [hmem]
      cases k with
      | socket => decide
      | file sync type => exact (by decide : errnoFromWin32Error ENOMEM ≠ EAGAIN)
    · rw [herrno]
      simp only [soundSelect, hrefusal, Bool.and_eq_true, bne_iff_ne] at hselect
      exact hselect.1

/-! ## Histories -/

/-- 0 is returned only at the end, and a blocking read never returns -1 with `EAGAIN` -/
def ReadRight (k : Kind) (w : World) : Event → Prop
  | .read a max => ∀ r bytes s', w32Read k a max w.io = some (r, bytes, s') →
      (r = 0 → s'.ended = true) ∧ ¬(w.io.blocking = true ∧ r = -1 ∧ s'.errno = EAGAIN)
  | _ => True

theorem truthful_step (e : Event) (hw : Truthful k w.io.blocking w.io) (he : sound k w e = true) :
    Truthful k (step k w e).io.blocking (step k w e).io := by
  have hkept := kept_truthful k w.io.blocking
  have hsame : ∀ {s : Io}, Truthful k w.io.blocking s → Truthful k s.blocking s :=
    fun h => ⟨rfl, h.ends, h.code⟩
  let I : List Byte → Io → Prop := fun _ s => Truthful k s.blocking s
  cases e with
  | write as data =>
    simp only [sound, all_eq_true] at he
    exact wrote_inv (I := I) hw fun _ _ h => hsame (w32Write_inv hkept (writeKept_truthful k _) he h hw)
  | writev iov =>
    simp only [sound, all_eq_true] at he
    exact wrote_inv (I := I) hw fun _ _ h => hsame (w32Writev_inv hkept (writeKept_truthful k _) he h hw)
  | read a max =>
    exact received_inv (I := I) hw fun _ _ _ h => hsame (w32Read_answered (soundRead_parts he) hw h).truthful
  | select a => exact hsame (onSelect_truthful he hw)
  | alertable as =>
    simp only [sound, all_eq_true] at he
    exact hsame (apcs_inv hkept as he hw)
  | setBlocking b => exact ⟨rfl, hw.ends, hw.code⟩

theorem readRight_of_sound (e : Event) (hw : Truthful k w.io.blocking w.io) (he : sound k w e = true) :
    ReadRight k w e := by
  cases e with
  | read a max =>
    intro r bytes s' h
    have hans := w32Read_answered (soundRead_parts he) hw h
    exact ⟨hans.zero, fun hc => hans.again hc.1 hc.2.1 hc.2.2⟩
  | write | writev | select | alertable | setBlocking => trivial

/-- **Reads return the stream.** Over every history whose steps meet `sound`, the bytes returned are a prefix of the bytes
delivered, 0 is returned only after the end was reported, and a blocking read never returns -1 with `EAGAIN`. -/
theorem read_answers (k : Kind) (blocking : Bool) (events : List Event)
    (h : Always (step k) (fun w e => sound k w e = true) (World.opened blocking) events) :
    (run (step k) (World.opened blocking) events).got <+: (run (step k) (World.opened blocking) events).io.delivered ∧
      Always (step k) (ReadRight k) (World.opened blocking) events := by
  refine ⟨got_prefix_delivered k blocking events, ?_⟩
  exact always_of_inv truthful_step readRight_of_sound events
    ⟨rfl, fun hend => absurd hend (by simp [World.opened, Io.opened, isEnd_zero]), errnoOf_zero k⟩ h

/-! ## Where a read misleads -/

/-- an operation that is started at once, with the completions of `SleepEx` and the waits for an earlier operation -/
def startedRead (queued : List Apc) (earlier : List Wait) : Answers :=
  { earlier := earlier, memory := true, issue := .started, apcs := queued, own := [] }

/-- `select` has started a read on a blocking pipe: `w32_read` waits for its byte and returns -1 with `EAGAIN`; a message
of no bytes makes a non-blocking `w32_read` return 0 on a pipe whose end nobody reported -/
theorem blocking_read_again :
    (w32Read (.file false .pipe) (startedRead [] [{ apcs := [.read 0 [7]], woken := .ready }]) 1
      (run (step (.file false .pipe)) (World.opened true) [.select (startedRead [] [])]).io).map
        (fun p => (p.1, p.2.2.errno, p.2.2.blocking)) = some (-1, EAGAIN, true) ∧
    (w32Read (.file false .pipe) (startedRead [.read 0 []] []) 1 (Io.opened false)).map
        (fun p => (p.1, p.2.1, p.2.2.ended)) = some (0, [], false) := by
  decide

/-- a non-blocking pipe: a read that finds nothing yet, a completion, two short reads, and the end -/
def pipeReads : List Event :=
  [.read (startedRead [] []) 4, .alertable [.read 0 [1, 2, 3]], .read (startedRead [] []) 2,
    .read (startedRead [] []) 2, .select (startedRead [] []), .alertable [.read ERROR_BROKEN_PIPE []],
    .read (startedRead [] []) 2]

theorem pipe_reads_answered : (run (step (.file false .pipe)) (World.opened false) pipeReads).got <+:
        (run (step (.file false .pipe)) (World.opened false) pipeReads).io.delivered ∧
      Always (step (.file false .pipe)) (ReadRight (.file false .pipe)) (World.opened false) pipeReads :=
  read_answers (.file false .pipe) false pipeReads (by decide)

end OpenSSHServerPN.Descriptor
