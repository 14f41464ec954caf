/-
What `w32_write` and `w32_writev` hand to the handle, over histories of a descriptor.

The bytes of a write are handed over when the system accepts the operation. They should be the first r bytes of the
call's data, where r is the value the call returns, so that a caller who submits the rest (or after -1 all of it) again
sends every byte once.

Results:
- `handed_of_returned`: this holds over every history in which no call loses its own operation: a blocking call is not
  woken with an error before its operation has completed, the operation does not fail before the call returns (on a
  socket: one that `WSASend` reports as done has completed in full), and no call has 2 GiB of data or more; and of a
  `w32_writev` the system takes one element after the other in full, up to one that stays outstanding on a non-blocking
  descriptor or behind which it refuses every operation;
- `interrupted_write_sent_twice`: a blocking write that a signal interrupts returns -1 with its bytes under way, and a
  `w32_writev` goes on after an element that failed;
- `buffer_of_pending`: an outstanding write finds its bytes in the buffer until it has completed.
-/
import OpenSSHServerPN.Win32.DescriptorIo

namespace OpenSSHServerPN.Descriptor

open Runs List

variable {k : Kind} {s s' : Io} {a : Answers} {r : ℤ}

/-! ## What completions do to a write -/

/-- the first completion of a write among queued procedure calls -/
def writeDone : List Apc → Option (ℤ × UInt32)
  | [] => none
  | .write e t :: _ => some (e, t)
  | .read _ _ :: as => writeDone as

/-- completions hand over nothing -/
structure SameHanded (s s' : Io) : Prop where
  handed : s'.handed = s.handed
  blocking : s'.blocking = s.blocking

theorem SameHanded.refl (s : Io) : SameHanded s s := ⟨rfl, rfl⟩

theorem SameHanded.trans {s₁ s₂ s₃ : Io} (h : SameHanded s₁ s₂) (h' : SameHanded s₂ s₃) : SameHanded s₁ s₃ :=
  ⟨h'.handed.trans h.handed, h'.blocking.trans h.blocking⟩

theorem kept_sameHanded (k : Kind) (s : Io) : Kept k (fun _ => True) (SameHanded s) :=
  kept_of (fun _ _ _ _ _ h => h.trans ⟨rfl, rfl⟩) (fun _ _ _ _ h => h.trans ⟨rfl, rfl⟩) fun _ _ h => h.trans ⟨rfl, rfl⟩

theorem apcs_sameHanded (k : Kind) (as : List Apc) (s : Io) : SameHanded s (apcs k as s) :=
  apcs_inv (kept_sameHanded k s) as (fun _ _ => trivial) (SameHanded.refl s)

theorem apc_read_write (k : Kind) (s : Io) (e : ℤ) (data : List Byte) : (apc k s (.read e data)).write = s.write := by
  simp only [apc]
  split <;> rfl

theorem apcs_cons (k : Kind) (x : Apc) (as : List Apc) (s : Io) : apcs k (x :: as) s = apcs k as (apc k s x) := rfl

theorem apcs_write_idle (as : List Apc) (h : s.write.pending = false) : (apcs k as s).write = s.write := by
  induction as generalizing s with
  | nil => rfl
  | cons x as ih =>
    have hx : (apc k s x).write = s.write := by
      cases x with
      | read e data => exact apc_read_write k s e data
      | write e t => simp [apc, h]
    rw [apcs_cons, ih (by rw [hx]; exact h), hx]

theorem apcs_write_none {as : List Apc} (h : writeDone as = none) : (apcs k as s).write = s.write := by
  induction as generalizing s with
  | nil => rfl
  | cons x as ih =>
    cases x with
    | read e data => rw [apcs_cons, ih h, apc_read_write]
    | write e t => cases h

/-- the first completion ends the operation -/
theorem apcs_write_done {as : List Apc} {e : ℤ} {t : UInt32} (h : writeDone as = some (e, t))
    (hp : s.write.pending = true) : (apcs k as s).write.pending = false ∧ (apcs k as s).write.error = e ∧
      (apcs k as s).write.remaining = s.write.remaining - t := by
  induction as generalizing s with
  | nil => cases h
  | cons x as ih =>
    cases x with
    | read e' data =>
      rw [apcs_cons]
      have hx := apc_read_write k s e' data
      obtain ⟨hpend, herr, hrem⟩ := ih h (by rw [hx]; exact hp)
      exact ⟨hpend, herr, by rw [hrem, hx]⟩
    | write e' t' =>
      obtain ⟨rfl, rfl⟩ : e' = e ∧ t' = t := by simpa [writeDone] using h
      have hx : apc k s (.write e' t') = writeCompletion k e' t' s := by simp [apc, hp]
      have hidle : (writeCompletion k e' t' s).write.pending = false := rfl
      rw [apcs_cons, hx, apcs_write_idle as hidle]
      exact ⟨rfl, rfl, rfl⟩

/-! ## Calls that keep hold of their operation -/

/-- the waits of a blocking write for its own operation: no wait fails before the one that brings the completion, which
may be interrupted by a signal, and the operation completes without error where errors are not allowed -/
def undisturbed (errors : Bool) : List Wait → Bool
  | [] => true
  | w :: ws =>
    match writeDone w.apcs with
    | none => w.woken == .ready && undisturbed errors ws
    | some (e, _) => (w.woken == .ready || w.woken == .failed EINTR) && (errors || e == 0)

/-- the call that issues `n` bytes with these answers does not lose the operation once it is accepted -/
def keepsOperation (k : Kind) (blocking : Bool) (n : ℕ) (a : Answers) : Bool :=
  match k, a.issue with
  | _, .refused _ => true
  | .socket, .finished => (writeDone a.apcs).map Prod.snd == some (UInt32.ofNat n)
  | .socket, .started => !blocking || undisturbed true a.own
  | .file _ _, _ =>
    if blocking then undisturbed false a.own else ((writeDone a.apcs).all fun p => p.1 == 0)

/-- the number of bytes `socketio_send` issues -/
def sendSize (data : List Byte) : ℕ := min INTERNAL_SEND_BUFFER_SIZE (dword data.length)

/-- no operation of the call is lost -/
def keepsOperations (k : Kind) (blocking : Bool) (as : List Answers) (data : List Byte) : Bool :=
  as.all (keepsOperation k blocking (sendSize data))

theorem awaitOwn_idle (ws : List Wait) (h : s.write.pending = false) : awaitOwn k ws s = some (true, s) := by
  cases ws with
  | nil | cons => simp [awaitOwn, h]

/-- an undisturbed wait ends with the operation completed -/
theorem awaitOwn_undisturbed {errors : Bool} {ws : List Wait} {b : Bool} (hw : undisturbed errors ws = true)
    (hp : s.write.pending = true) (h : awaitOwn k ws s = some (b, s')) :
    b = true ∧ SameHanded s s' ∧ s'.write.pending = false ∧ (errors = false → s'.write.error = 0) := by
  induction ws generalizing s with
  | nil => simp [awaitOwn, hp] at h
  | cons w ws ih =>
    have hkeep := apcs_sameHanded k w.apcs s
    unfold awaitOwn at h
    rw [if_pos hp] at h
    unfold undisturbed at hw
    cases hdone : writeDone w.apcs with
    | none =>
      rw [hdone] at hw
      simp only [Bool.and_eq_true, beq_iff_eq] at hw
      have hsame : (apcs k w.apcs s).write = s.write := apcs_write_none hdone
      simp only [hw.1] at h
      obtain ⟨hb, hs, hidle, herror⟩ := ih hw.2 (by rw [hsame]; exact hp) h
      exact ⟨hb, hkeep.trans hs, hidle, herror⟩
    | some p =>
      obtain ⟨e, t⟩ := p
      rw [hdone] at hw
      obtain ⟨hidle, herror, -⟩ := apcs_write_done (k := k) hdone hp
      have hfinal : (apcs k w.apcs s).write.error = e ∧ (errors = false → e = 0) := by
        simp only [Bool.and_eq_true, Bool.or_eq_true, beq_iff_eq] at hw
        exact ⟨herror, fun he => hw.2.resolve_left (by simp [he])⟩
      cases hwoken : w.woken with
      | ready =>
        simp only [hwoken, awaitOwn_idle ws hidle, Option.some.injEq, Prod.mk.injEq] at h
        obtain ⟨rfl, rfl⟩ := h
        exact ⟨rfl, hkeep, hidle, fun hk => hfinal.1.trans (hfinal.2 hk)⟩
      | failed e' =>
        have he' : e' = EINTR := by
          simp only [hwoken, Bool.and_eq_true, Bool.or_eq_true, beq_iff_eq, reduceCtorEq, Woken.failed.injEq,
            false_or] at hw
          exact hw.1
        have hidle' : ((apcs k w.apcs s).setErrno 0).write.pending = false := hidle
        simp only [hwoken, he', hidle, ne_eq, not_true_eq_false, Bool.false_eq_true, or_self, if_false,
          awaitOwn_idle ws hidle', Option.some.injEq, Prod.mk.injEq] at h
        obtain ⟨rfl, rfl⟩ := h
        exact ⟨rfl, hkeep.trans ⟨rfl, rfl⟩, hidle, fun hk => hfinal.1.trans (hfinal.2 hk)⟩

/-! ## One operation -/

/-- the call handed over exactly the bytes it reports -/
structure Reports (s s' : Io) (data : List Byte) (r : ℤ) : Prop where
  blocking : s'.blocking = s.blocking
  handed : s'.handed = s.handed ++ data.take r.toNat
  value : r = -1 ∨ 0 ≤ r ∧ r ≤ data.length

variable {data : List Byte}

theorem Reports.failed (h : SameHanded s s') : Reports s s' data (-1) :=
  ⟨h.blocking, by rw [h.handed]; simp, .inl rfl⟩

theorem Reports.after {s₁ : Io} (h : SameHanded s s₁) (h' : Reports s₁ s' data r) : Reports s s' data r :=
  ⟨h'.blocking.trans h.blocking, by rw [h'.handed, h.handed], h'.value⟩

variable {n : ℕ}

theorem Reports.accepted (h : SameHanded (s.accept (data.take n)) s') :
    Reports s s' data ((data.take n).length : ℕ) := by
  refine ⟨h.blocking, ?_, .inr ⟨by positivity, ?_⟩⟩
  · rw [h.handed, Io.accept, Int.toNat_natCast, length_take, ← take_eq_take_min]
  · exact_mod_cast length_take_le' n data

theorem whenIdle_reports {idle : Io → Option (ℤ × Io)} {P : ℤ → Prop} (hfail : P (-1))
    (hidle : ∀ s₁, s₁.blocking = s.blocking → idle s₁ = some (r, s') → Reports s₁ s' data r ∧ P r)
    (h : whenIdle k a s idle = some (r, s')) : Reports s s' data r ∧ P r := by
  unfold whenIdle at h
  split at h
  · cases h
    exact ⟨Reports.failed ⟨rfl, rfl⟩, hfail⟩
  obtain ⟨⟨b, s₁⟩, hwait, h⟩ := Option.bind_eq_some_iff.1 h
  have hs := (waitWhile_inv (kept_sameHanded k s) (fun _ _ _ _ => trivial) hwait (SameHanded.refl s)).1
  cases b with
  | false =>
    cases h
    exact ⟨Reports.failed hs, hfail⟩
  | true =>
    obtain ⟨hr, hp⟩ := hidle s₁ hs.blocking h
    exact ⟨hr.after hs, hp⟩

variable {sync : Bool} {type : FileType} {m : ℕ}

theorem fileioWriteAccepted_reports
    (hrefused : ∀ e, a.issue ≠ .refused e) (hkeep : keepsOperation (.file sync type) s.blocking m a = true)
    (h : fileioWriteAccepted (.file sync type) a (data.take n).length (s.accept (data.take n)) = some (r, s')) :
    Reports s s' data r ∧ r = ((data.take n).length : ℕ) := by
  have hpend : (s.accept (data.take n)).write.pending = true := rfl
  unfold fileioWriteAccepted awaitIfBlocking at h
  obtain ⟨⟨b, s₁⟩, hwait, h⟩ := Option.bind_eq_some_iff.1 h
  have hsleep := apcs_sameHanded (.file sync type) a.apcs s₁
  have hcond : (if s.blocking then undisturbed false a.own else (writeDone a.apcs).all fun p => p.1 == 0) = true := by
    cases hi : a.issue with
    | refused e => exact absurd hi (hrefused e)
    | started | finished => simpa [keepsOperation, hi] using hkeep
  -- either way the call goes on with an operation that is outstanding or has completed without error
  have hcalm : b = true ∧ SameHanded (s.accept (data.take n)) s₁ ∧
      ¬((apcs (.file sync type) a.apcs s₁).write.pending = false ∧
        (apcs (.file sync type) a.apcs s₁).write.error ≠ 0) := by
    cases hb : s.blocking with
    | true =>
      rw [hb] at hcond
      rw [show (s.accept (data.take n)).blocking = true from hb] at hwait
      obtain ⟨hbt, hs, hidle, herr⟩ := awaitOwn_undisturbed hcond hpend hwait
      rw [apcs_write_idle a.apcs hidle]
      exact ⟨hbt, hs, fun hc => hc.2 (herr rfl)⟩
    | false =>
      rw [show (s.accept (data.take n)).blocking = false from hb] at hwait
      obtain ⟨rfl, rfl⟩ := hwait
      refine ⟨rfl, SameHanded.refl _, fun hc => ?_⟩
      rw [hb] at hcond
      cases hdone : writeDone a.apcs with
      | none =>
        rw [apcs_write_none hdone] at hc
        exact absurd hc.1 (by simp [hpend])
      | some p =>
        obtain ⟨-, he, -⟩ := apcs_write_done hdone hpend
        rw [hdone] at hcond
        exact hc.2 (by rw [he]; simpa using hcond)
  obtain ⟨rfl, hs, hcalm⟩ := hcalm
  simp only [if_neg hcalm] at h
  obtain ⟨rfl, rfl⟩ := h
  exact ⟨Reports.accepted (hs.trans hsleep), rfl⟩

theorem take_dword (h : data.length ≤ n) (hn : n < 2 ^ 32) : data.take (min (dword data.length) n) = data := by
  have hd : dword data.length = data.length := Nat.mod_eq_of_lt (by omega)
  rw [hd, Nat.min_eq_left h, take_length]

/-- **One chunk.** `fileio_write` of at most a buffer's length hands over all of the data and says so, or nothing. -/
theorem fileioWrite_reports
    (hlen : data.length ≤ WRITE_BUFFER_SIZE) (hkeep : keepsOperation (.file sync type) s.blocking m a = true)
    (h : fileioWrite (.file sync type) a data s = some (r, s')) : Reports s s' data r ∧ (r = -1 ∨ r = data.length) := by
  refine whenIdle_reports (P := fun r => r = -1 ∨ r = data.length) (.inl rfl) (fun s₁ hb h => ?_) h
  have hchunk := take_dword hlen (by unfold WRITE_BUFFER_SIZE; omega)
  unfold fileioWriteIdle at h
  split at h
  · cases h
    exact ⟨Reports.failed ⟨rfl, rfl⟩, .inl rfl⟩
  split at h
  · cases h
    exact ⟨Reports.failed ⟨rfl, rfl⟩, .inl rfl⟩
  split at h
  · cases h
    exact ⟨Reports.failed ⟨rfl, rfl⟩, .inl rfl⟩
  · next hissue =>
    obtain ⟨hr, hval⟩ := fileioWriteAccepted_reports hissue (by rw [hb]; exact hkeep) h
    rw [hchunk] at hval
    exact ⟨hr, .inr hval⟩

theorem length_take_sendSize : (data.take (sendSize data)).length = sendSize data :=
  length_take_of_le ((Nat.min_le_right _ _).trans (Nat.mod_le _ _))

/-- a send that `WSASend` reports as done has completed in full -/
theorem send_finished {blocking : Bool} (hissue : a.issue = .finished)
    (hkeep : keepsOperation .socket blocking (sendSize data) a = true) :
    (apcs .socket a.apcs (s.accept (data.take (sendSize data)))).write.pending = false ∧
      (apcs .socket a.apcs (s.accept (data.take (sendSize data)))).write.remaining = 0 := by
  have hdone : (writeDone a.apcs).map Prod.snd = some (UInt32.ofNat (sendSize data)) := by
    simpa [keepsOperation, hissue] using hkeep
  obtain ⟨p, hp, ht⟩ := Option.map_eq_some_iff.1 hdone
  obtain ⟨hidle, -, hrem⟩ := apcs_write_done (k := .socket) (e := p.1) (t := p.2)
    (s := s.accept (data.take (sendSize data))) hp rfl
  refine ⟨hidle, ?_⟩
  rw [hrem, ht]
  simp only [Io.accept, length_take_sendSize, UInt32.sub_self]

/-- `socketio_send` of an operation that is kept reports what it issued -/
theorem socketioSend_reports (hkeep : keepsOperation .socket s.blocking (sendSize data) a = true)
    (h : socketioSend a data s = some (r, s')) : Reports s s' data r := by
  unfold socketioSend at h
  split at h
  · cases h
    exact Reports.failed ⟨rfl, rfl⟩
  refine (whenIdle_reports (P := fun _ => True) trivial (fun s₁ hb h => ⟨?_, trivial⟩) h).1
  rw [← hb] at hkeep
  unfold socketioSendIdle at h
  rw [show min INTERNAL_SEND_BUFFER_SIZE (dword data.length) = sendSize data from rfl] at h
  split at h
  · cases h
    exact Reports.failed ⟨rfl, rfl⟩
  split at h
  · cases h
    exact Reports.failed ⟨rfl, rfl⟩
  cases hissue : a.issue with
  | refused e =>
    simp only [hissue] at h
    cases h
    exact Reports.failed ⟨rfl, rfl⟩
  | finished =>
    obtain ⟨hidle, hrem⟩ := send_finished (s := s₁) hissue hkeep
    simp only [hissue, hidle, hrem, ne_eq, not_true_eq_false, Bool.false_eq_true, or_self, if_false,
      Option.some.injEq, Prod.mk.injEq] at h
    obtain ⟨rfl, rfl⟩ := h
    exact Reports.accepted (apcs_sameHanded .socket a.apcs _)
  | started =>
    simp only [hissue] at h
    obtain ⟨⟨b, s₂⟩, hwait, h⟩ := Option.bind_eq_some_iff.1 h
    have hs : b = true ∧ SameHanded (s₁.accept (data.take (sendSize data))) s₂ := by
      unfold awaitIfBlocking at hwait
      split at hwait
      · next hblock =>
        have hu : undisturbed true a.own = true := by
          simpa [keepsOperation, hissue, show s₁.blocking = true from hblock] using hkeep
        obtain ⟨hbt, hs, -⟩ := awaitOwn_undisturbed hu rfl hwait
        exact ⟨hbt, hs⟩
      · cases hwait
        exact ⟨rfl, SameHanded.refl _⟩
    obtain ⟨rfl, hs⟩ := hs
    cases h
    exact Reports.accepted hs

/-! ## One call -/

theorem int_of_lt {n : ℤ} (h₀ : 0 ≤ n) (h : n < 2 ^ 31) : int n = n :=
  Int.bmod_eq_of_le (by omega) (by omega)

/-- the loop of `fileio_write_wrapper`: `copied` bytes are reported so far, and the loop adds what it hands over -/
theorem writeChunks_reports {as : List Answers} {copied : ℤ}
    (hcopied : -1 ≤ copied) (hlen : copied.toNat + data.length < 2 ^ 31)
    (hkeep : as.all (keepsOperation (.file sync type) s.blocking m) = true)
    (h : writeChunks (.file sync type) as data copied s = some (r, s')) :
    s'.blocking = s.blocking ∧ s'.handed = s.handed ++ data.take (r.toNat - copied.toNat) ∧
      -1 ≤ r ∧ copied.toNat ≤ r.toNat ∧ r.toNat ≤ copied.toNat + data.length := by
  induction as generalizing data copied s with
  | nil =>
    unfold writeChunks at h
    split at h
    · cases h
      exact ⟨rfl, by simp, hcopied, le_rfl, by omega⟩
    · cases h
  | cons a as ih =>
    unfold writeChunks at h
    split at h
    · cases h
      exact ⟨rfl, by simp, hcopied, le_rfl, by omega⟩
    obtain ⟨⟨written, s₁⟩, hone, h⟩ := Option.bind_eq_some_iff.1 h
    simp only [all_cons, Bool.and_eq_true] at hkeep
    obtain ⟨hr, hval⟩ := fileioWrite_reports (length_take_le _ _) hkeep.1 hone
    simp only at h
    split at h
    · next hfail =>
      cases h
      subst hfail
      refine ⟨hr.blocking, ?_, hcopied, le_rfl, by omega⟩
      rw [hr.handed]
      simp
    · next hok =>
      -- the chunk was taken: its length is added to what is reported
      have hwritten : written = ((data.take WRITE_BUFFER_SIZE).length : ℕ) := hval.resolve_left hok
      have hle : (data.take WRITE_BUFFER_SIZE).length ≤ data.length := length_take_le' _ _
      have hnext : int ((if copied = -1 then 0 else copied) + written) =
          ((copied.toNat + (data.take WRITE_BUFFER_SIZE).length : ℕ) : ℤ) := by
        rw [int_of_lt]
        · split <;> omega
        · split <;> omega
        · split <;> omega
      rw [hnext] at h
      have hsplit : (data.take WRITE_BUFFER_SIZE).length + (data.drop WRITE_BUFFER_SIZE).length = data.length := by
        rw [← length_append, take_append_drop]
      obtain ⟨hb, hhanded, hlow, hge, hle'⟩ := ih (by omega) (by rw [Int.toNat_natCast]; omega)
        (by rw [hr.blocking]; exact hkeep.2) h
      rw [Int.toNat_natCast] at hhanded hge hle'
      refine ⟨hb.trans hr.blocking, ?_, hlow, by omega, by omega⟩
      have htaken : data.take (r.toNat - copied.toNat) =
          data.take WRITE_BUFFER_SIZE ++ (data.drop WRITE_BUFFER_SIZE).take
            (r.toNat - (copied.toNat + (data.take WRITE_BUFFER_SIZE).length)) := by
        conv_lhs => rw [← take_append_drop WRITE_BUFFER_SIZE data]
        rw [take_append, take_of_length_le (by omega), Nat.sub_sub]
      rw [hhanded, hr.handed, htaken, hwritten, Int.toNat_natCast, take_length, append_assoc]

/-- **One `w32_write`.** A call that loses no operation hands over exactly what it reports. -/
theorem w32Write_reports {as : List Answers} (hlen : data.length < 2 ^ 31)
    (hkeep : keepsOperations k s.blocking as data = true) (h : w32Write k as data s = some (r, s')) :
    Reports s s' data r := by
  have hhead : ∀ a, as.head? = some a → keepsOperation k s.blocking (sendSize data) a = true :=
    fun a ha => all_eq_true.1 hkeep a (mem_of_head? ha)
  cases k with
  | socket =>
    obtain ⟨a, ha, h⟩ := Option.bind_eq_some_iff.1 h
    exact socketioSend_reports (hhead a ha) h
  | file sync type =>
    unfold w32Write fileioWriteWrapper at h
    simp only at h
    split at h
    · next hsmall =>
      obtain ⟨a, ha, h⟩ := Option.bind_eq_some_iff.1 h
      exact (fileioWrite_reports hsmall (hhead a ha) h).1
    · obtain ⟨hb, hhanded, hlow, hge, hle⟩ := writeChunks_reports le_rfl (by simpa using hlen) hkeep h
      refine ⟨hb, by simpa using hhanded, ?_⟩
      omega

/-! ## The elements of a `w32_writev` -/

/-- what an element finds: no write outstanding and no stored error, a write outstanding that is not waited for, or else -/
inductive Readiness where
  | idle
  | busy
  | other
deriving DecidableEq, Repr

def Io.readiness (s : Io) : Readiness :=
  if s.write.pending then if s.blocking then .other else .busy
  else if s.write.error = 0 then .idle
  else .other

def refused (a : Answers) : Bool := a.issue matches .refused _

/-- the operation is accepted, and completes without error before the call goes on -/
def completed (k : Kind) (blocking : Bool) (a : Answers) : Bool :=
  a.memory && !refused a &&
    match k, a.issue with
    | .socket, .finished => (writeDone a.apcs).any fun p => p.1 == 0
    | .socket, _ => blocking && undisturbed false a.own
    | .file _ _, _ => if blocking then undisturbed false a.own else (writeDone a.apcs).any fun p => p.1 == 0

/-- the operation is accepted on a non-blocking descriptor, and does not complete before the call goes on -/
def outstanding (k : Kind) (a : Answers) : Bool :=
  a.memory && !refused a &&
    match k with
    | .socket => a.issue == .started
    | .file _ _ => (writeDone a.apcs).isNone

/-- the system takes all of the element -/
def whole (k : Kind) (blocking : Bool) (as : List Answers) (data : List Byte) : Bool :=
  match k with
  | .socket => data == [] || data.length ≤ INTERNAL_SEND_BUFFER_SIZE && as.all (completed k blocking)
  | .file _ _ => as.all (completed k blocking)

/-- the answers to a `w32_writev`: no operation is lost, and each element is taken in full, or stays outstanding on a
non-blocking descriptor, or all operations behind it are refused -/
def orderly (k : Kind) (blocking : Bool) : Readiness → List (List Answers × List Byte) → Bool
  | .busy, _ => true
  | _, [] => true
  | ready, (as, data) :: iov =>
    keepsOperations k blocking as data &&
      (ready == .idle && whole k blocking as data && orderly k blocking .idle iov ||
        ready == .idle && !blocking && data != [] && as.head?.any (outstanding k) || iov.all fun v => v.1.all refused)

theorem readiness_idle : s.readiness = .idle ↔ s.write.pending = false ∧ s.write.error = 0 := by
  unfold Io.readiness
  split_ifs <;> simp_all

theorem readiness_busy : s.readiness = .busy ↔ s.write.pending = true ∧ s.blocking = false := by
  unfold Io.readiness
  split_ifs <;> simp_all

theorem whenIdle_idle {idle : Io → Option (ℤ × Io)} (hs : s.readiness = .idle) : whenIdle k a s idle = idle s := by
  obtain ⟨hp, -⟩ := readiness_idle.1 hs
  have hwait : waitWhile k (fun s => s.write.pending) a.earlier s = some (true, s) := by
    cases a.earlier <;> simp [waitWhile, hp]
  simp [whenIdle, hp, hwait]

theorem whenIdle_busy {idle : Io → Option (ℤ × Io)} (hs : s.readiness = .busy) (h : whenIdle k a s idle = some (r, s')) :
    r = -1 ∧ SameHanded s s' ∧ s'.readiness = .busy := by
  rw [whenIdle, if_pos (readiness_busy.1 hs)] at h
  cases h
  exact ⟨rfl, ⟨rfl, rfl⟩, hs⟩

/-- a write that fails with its first operation -/
theorem fileioWriteWrapper_failed {J : Io → Prop} {as : List Answers}
    (hfail : ∀ a ∈ as, ∀ d r s', fileioWrite k a d s = some (r, s') → r = -1 ∧ J s')
    (h : fileioWriteWrapper k as data s = some (r, s')) : r = -1 ∧ J s' := by
  unfold fileioWriteWrapper at h
  split at h
  · obtain ⟨a, ha, h⟩ := Option.bind_eq_some_iff.1 h
    exact hfail a (mem_of_head? ha) _ _ _ h
  · next hlarge =>
    have hne : data ≠ [] := by
      rintro rfl
      exact hlarge (Nat.zero_le _)
    cases as with
    | nil => simp [writeChunks, hne] at h
    | cons a as =>
      rw [writeChunks, if_neg hne] at h
      obtain ⟨⟨written, s₁⟩, hone, h⟩ := Option.bind_eq_some_iff.1 h
      obtain ⟨rfl, hj⟩ := hfail a mem_cons_self _ _ _ hone
      cases h
      exact ⟨rfl, hj⟩

theorem w32Write_busy {as : List Answers} (hs : s.readiness = .busy) (h : w32Write k as data s = some (r, s')) :
    r = -1 ∧ SameHanded s s' ∧ s'.readiness = .busy := by
  cases k with
  | socket =>
    obtain ⟨a, -, h⟩ := Option.bind_eq_some_iff.1 h
    unfold socketioSend at h
    split at h
    · cases h
      exact ⟨rfl, ⟨rfl, rfl⟩, hs⟩
    · exact whenIdle_busy hs h
  | file sync type => exact fileioWriteWrapper_failed (fun _ _ _ _ _ h => whenIdle_busy hs h) h

theorem w32Write_refused {as : List Answers} (has : as.all refused = true) (h : w32Write k as data s = some (r, s')) :
    r = -1 ∧ SameHanded s s' := by
  have hno : ∀ a ∈ as, ∃ e, a.issue = .refused e := by
    intro a ha
    have := all_eq_true.1 has a ha
    unfold refused at this
    cases hi : a.issue <;> simp_all
  have hsame : ∀ {d : List Byte} {r : ℤ} {s' : Io}, Reports s s' d r ∧ r = -1 → r = -1 ∧ SameHanded s s' := by
    rintro d r s' ⟨hr, rfl⟩
    exact ⟨rfl, by simpa using hr.handed, hr.blocking⟩
  cases k with
  | socket =>
    obtain ⟨a, ha, h⟩ := Option.bind_eq_some_iff.1 h
    obtain ⟨e, he⟩ := hno a (mem_of_head? ha)
    unfold socketioSend at h
    split at h
    · cases h
      exact ⟨rfl, rfl, rfl⟩
    refine hsame (d := data) (whenIdle_reports (P := (· = -1)) rfl (fun s₁ _ h => ?_) h)
    unfold socketioSendIdle at h
    simp only [he] at h
    split_ifs at h <;> cases h <;> exact ⟨Reports.failed ⟨rfl, rfl⟩, rfl⟩
  | file sync type =>
    refine fileioWriteWrapper_failed (fun a ha d r s' h => ?_) h
    obtain ⟨e, he⟩ := hno a ha
    refine hsame (d := d) (whenIdle_reports (P := (· = -1)) rfl (fun s₁ _ h => ?_) h)
    unfold fileioWriteIdle at h
    simp only [he] at h
    split_ifs at h <;> cases h <;> exact ⟨Reports.failed ⟨rfl, rfl⟩, rfl⟩

/-- elements none of which is taken -/
theorem w32Writev_silent {J : Io → Prop} {iov : List (List Answers × List Byte)} {written : ℤ}
    (hv : ∀ v ∈ iov, ∀ s r s', J s → w32Write k v.1 v.2 s = some (r, s') → r = -1 ∧ SameHanded s s' ∧ J s')
    (hs : J s) (h : w32Writev k iov written s = some (r, s')) : r = written ∧ SameHanded s s' := by
  induction iov generalizing s with
  | nil =>
    cases h
    exact ⟨rfl, SameHanded.refl _⟩
  | cons v iov ih =>
    obtain ⟨⟨ret, s₁⟩, hone, h⟩ := Option.bind_eq_some_iff.1 h
    obtain ⟨rfl, hsame, hs₁⟩ := hv v mem_cons_self _ ret s₁ hs hone
    obtain ⟨hr, hrest⟩ := ih (fun v hmem => hv v (mem_cons_of_mem _ hmem)) hs₁ h
    exact ⟨hr, hsame.trans hrest⟩

theorem not_refused (h : refused a = false) : ∀ e, a.issue ≠ .refused e := by
  intro e he
  simp [refused, he] at h

/-- an operation that is accepted -/
theorem fileioWrite_accept (hs : s.readiness = .idle) (hmem : a.memory = true) (hissue : refused a = false) :
    fileioWrite k a data s = fileioWriteAccepted k a (data.take (min (dword data.length) WRITE_BUFFER_SIZE)).length
      (s.accept (data.take (min (dword data.length) WRITE_BUFFER_SIZE))) := by
  obtain ⟨-, he⟩ := readiness_idle.1 hs
  rw [fileioWrite, whenIdle_idle hs, fileioWriteIdle, if_neg (by simp [he]), if_neg (by simp [hmem])]
  cases hi : a.issue with
  | refused e => exact absurd hi (not_refused hissue e)
  | started | finished => rfl

theorem apcs_write_any {as : List Apc} (h : ((writeDone as).any fun p => p.1 == 0) = true) (hp : s.write.pending = true) :
    (apcs k as s).readiness = .idle := by
  cases hdone : writeDone as with
  | none => simp [hdone] at h
  | some p =>
    obtain ⟨hidle, herr, -⟩ := apcs_write_done (k := k) hdone hp
    exact readiness_idle.2 ⟨hidle, herr.trans (by simpa [hdone] using h)⟩

/-- a chunk whose operation completes leaves the descriptor idle -/
theorem fileioWrite_completed (hs : s.readiness = .idle) (hc : completed (.file sync type) s.blocking a = true)
    (h : fileioWrite (.file sync type) a data s = some (r, s')) : r ≠ -1 ∧ s'.readiness = .idle := by
  simp only [completed, Bool.and_eq_true, Bool.not_eq_true'] at hc
  obtain ⟨⟨hmem, hissue⟩, hdone⟩ := hc
  rw [fileioWrite_accept hs hmem hissue] at h
  generalize data.take (min (dword data.length) WRITE_BUFFER_SIZE) = chunk at h
  obtain ⟨⟨b, s₁⟩, hwait, h⟩ := Option.bind_eq_some_iff.1 h
  have hidle : b = true ∧ (apcs (.file sync type) a.apcs s₁).readiness = .idle := by
    unfold awaitIfBlocking at hwait
    rw [show (s.accept chunk).blocking = s.blocking from rfl] at hwait
    cases hb : s.blocking with
    | true =>
      simp only [hb, if_true] at hwait hdone
      obtain ⟨hbt, -, hidle, herr⟩ := awaitOwn_undisturbed hdone rfl hwait
      exact ⟨hbt, readiness_idle.2 (by rw [apcs_write_idle a.apcs hidle]; exact ⟨hidle, herr rfl⟩)⟩
    | false =>
      simp only [hb, Bool.false_eq_true, if_false] at hwait hdone
      cases hwait
      exact ⟨rfl, apcs_write_any hdone rfl⟩
  obtain ⟨rfl, hidle⟩ := hidle
  simp only [(readiness_idle.1 hidle).2, ne_eq, not_true_eq_false, and_false, if_false, Option.some.injEq, Prod.mk.injEq] at h
  obtain ⟨rfl, rfl⟩ := h
  exact ⟨by omega, hidle⟩

theorem writeChunks_completed {as : List Answers} {copied : ℤ} (hs : s.readiness = .idle) (hcopied : -1 ≤ copied)
    (hlen : copied.toNat + data.length < 2 ^ 31) (hkeep : as.all (keepsOperation (.file sync type) s.blocking m) = true)
    (hc : as.all (completed (.file sync type) s.blocking) = true)
    (h : writeChunks (.file sync type) as data copied s = some (r, s')) :
    r.toNat = copied.toNat + data.length ∧ s'.readiness = .idle := by
  have hdone {copied : ℤ} {data : List Byte} {s : Io} (hs : s.readiness = .idle) (hd : data = [])
      (h : some (copied, s) = some (r, s')) : r.toNat = copied.toNat + data.length ∧ s'.readiness = .idle := by
    cases h
    exact ⟨by simp [hd], hs⟩
  induction as generalizing data copied s with
  | nil =>
    unfold writeChunks at h
    split at h
    · next hd => exact hdone hs hd h
    · cases h
  | cons a as ih =>
    unfold writeChunks at h
    split at h
    · next hd => exact hdone hs hd h
    obtain ⟨⟨written, s₁⟩, hone, h⟩ := Option.bind_eq_some_iff.1 h
    simp only [all_cons, Bool.and_eq_true] at hkeep hc
    obtain ⟨hne, hs₁⟩ := fileioWrite_completed hs hc.1 hone
    obtain ⟨hr, hval⟩ := fileioWrite_reports (length_take_le _ _) hkeep.1 hone
    have hwritten := hval.resolve_left hne
    have hsplit : (data.take WRITE_BUFFER_SIZE).length + (data.drop WRITE_BUFFER_SIZE).length = data.length := by
      rw [← length_append, take_append_drop]
    simp only [if_neg hne] at h
    rw [int_of_lt (by split <;> omega) (by split <;> omega)] at h
    rw [← hr.blocking] at hkeep hc
    have hrest := ih hs₁ (by split <;> omega) (by split <;> omega) hkeep.2 hc.2 h
    refine ⟨?_, hrest.2⟩
    have := hrest.1
    split at this <;> omega

theorem socketioSend_completed (hne : data ≠ []) (hs : s.readiness = .idle) (hc : completed .socket s.blocking a = true)
    (hkeep : keepsOperation .socket s.blocking (sendSize data) a = true) (h : socketioSend a data s = some (r, s')) :
    r = sendSize data ∧ s'.readiness = .idle := by
  obtain ⟨-, he⟩ := readiness_idle.1 hs
  simp only [completed, Bool.and_eq_true, Bool.not_eq_true'] at hc
  obtain ⟨⟨hmem, hissue⟩, hdone⟩ := hc
  rw [socketioSend, if_neg hne, whenIdle_idle hs, socketioSendIdle, if_neg (by simp [he]), if_neg (by simp [hmem]),
    show min INTERNAL_SEND_BUFFER_SIZE (dword data.length) = sendSize data from rfl] at h
  cases hi : a.issue with
  | refused e => exact absurd hi (not_refused hissue e)
  | finished =>
    simp only [hi] at h hdone
    obtain ⟨hidle, hrem⟩ := send_finished (s := s) hi hkeep
    simp only [hidle, hrem, ne_eq, not_true_eq_false, Bool.false_eq_true, or_self, if_false, length_take_sendSize,
      Option.some.injEq, Prod.mk.injEq] at h
    obtain ⟨rfl, rfl⟩ := h
    exact ⟨rfl, apcs_write_any hdone rfl⟩
  | started =>
    simp only [hi, Bool.and_eq_true] at h hdone
    obtain ⟨⟨b, s₁⟩, hwait, h⟩ := Option.bind_eq_some_iff.1 h
    rw [awaitIfBlocking, if_pos (show (s.accept _).blocking = true from hdone.1)] at hwait
    obtain ⟨rfl, -, hidle, herr⟩ := awaitOwn_undisturbed hdone.2 rfl hwait
    cases h
    exact ⟨by rw [length_take_sendSize], readiness_idle.2 ⟨hidle, herr rfl⟩⟩

theorem w32Write_whole {as : List Answers} (hlen : data.length < 2 ^ 31) (hs : s.readiness = .idle)
    (hkeep : keepsOperations k s.blocking as data = true) (hw : whole k s.blocking as data = true)
    (h : w32Write k as data s = some (r, s')) : r.toNat = data.length ∧ s'.readiness = .idle := by
  cases k with
  | socket =>
    obtain ⟨a, ha, h⟩ := Option.bind_eq_some_iff.1 h
    simp only [whole, Bool.or_eq_true, beq_iff_eq, Bool.and_eq_true, decide_eq_true_eq] at hw
    obtain rfl | ⟨hsize, hw⟩ := hw
    · rw [socketioSend, if_pos rfl] at h
      cases h
      exact ⟨rfl, hs⟩
    · by_cases hne : data = []
      · rw [socketioSend, if_pos hne] at h
        cases h
        exact ⟨by simp [hne], hs⟩
      · obtain ⟨rfl, hs'⟩ := socketioSend_completed hne hs (all_eq_true.1 hw a (mem_of_head? ha))
          (all_eq_true.1 hkeep a (mem_of_head? ha)) h
        refine ⟨?_, hs'⟩
        have hd : dword data.length = data.length := Nat.mod_eq_of_lt (by omega)
        rw [sendSize, hd, Nat.min_eq_right hsize, Int.toNat_natCast]
  | file sync type =>
    unfold w32Write fileioWriteWrapper at h
    simp only at h
    split at h
    · next hsmall =>
      obtain ⟨a, ha, h⟩ := Option.bind_eq_some_iff.1 h
      obtain ⟨hne, hs'⟩ := fileioWrite_completed hs (all_eq_true.1 hw a (mem_of_head? ha)) h
      have hval := (fileioWrite_reports hsmall (all_eq_true.1 hkeep a (mem_of_head? ha)) h).2.resolve_left hne
      exact ⟨by rw [hval, Int.toNat_natCast], hs'⟩
    · obtain ⟨hval, hs'⟩ := writeChunks_completed hs le_rfl (by simpa using hlen) hkeep hw h
      exact ⟨by simpa using hval, hs'⟩

/-- an operation that stays outstanding on a non-blocking descriptor -/
theorem fileioWrite_outstanding (hs : s.readiness = .idle) (hb : s.blocking = false)
    (ho : outstanding (.file sync type) a = true) (h : fileioWrite (.file sync type) a data s = some (r, s')) :
    s'.readiness = .busy := by
  simp only [outstanding, Bool.and_eq_true, Bool.not_eq_true', Option.isNone_iff_eq_none] at ho
  obtain ⟨⟨hmem, hissue⟩, hnone⟩ := ho
  rw [fileioWrite_accept hs hmem hissue] at h
  generalize data.take (min (dword data.length) WRITE_BUFFER_SIZE) = chunk at h
  have hbusy : (apcs (.file sync type) a.apcs (s.accept chunk)).write.pending = true := by
    rw [apcs_write_none hnone]
    rfl
  rw [fileioWriteAccepted, awaitIfBlocking, if_neg (by simp [Io.accept, hb]), Option.bind_some] at h
  simp only [hbusy, Bool.true_eq_false, false_and, if_false] at h
  cases h
  exact readiness_busy.2 ⟨hbusy, (apcs_sameHanded _ a.apcs _).blocking.trans hb⟩

theorem writeChunks_busy {as : List Answers} {copied : ℤ} (hs : s.readiness = .busy)
    (h : writeChunks k as data copied s = some (r, s')) : s'.readiness = .busy := by
  cases as with
  | nil =>
    unfold writeChunks at h
    split_ifs at h
    cases h
    exact hs
  | cons a as =>
    unfold writeChunks at h
    split at h
    · cases h
      exact hs
    obtain ⟨⟨written, s₁⟩, hone, h⟩ := Option.bind_eq_some_iff.1 h
    obtain ⟨rfl, -, hs₁⟩ := whenIdle_busy hs hone
    cases h
    exact hs₁

theorem w32Write_outstanding {as : List Answers} (hne : data ≠ []) (hs : s.readiness = .idle) (hb : s.blocking = false)
    (ho : as.head?.any (outstanding k) = true) (h : w32Write k as data s = some (r, s')) : s'.readiness = .busy := by
  cases k with
  | socket =>
    obtain ⟨a, ha, h⟩ := Option.bind_eq_some_iff.1 h
    obtain ⟨-, he⟩ := readiness_idle.1 hs
    rw [ha, Option.any_some] at ho
    simp only [outstanding, Bool.and_eq_true, beq_iff_eq] at ho
    obtain ⟨⟨hmem, -⟩, hi⟩ := ho
    rw [socketioSend, if_neg hne, whenIdle_idle hs, socketioSendIdle, if_neg (by simp [he]), if_neg (by simp [hmem])] at h
    simp only [hi, awaitIfBlocking] at h
    rw [if_neg (by simp [Io.accept, hb])] at h
    cases h
    exact readiness_busy.2 ⟨rfl, hb⟩
  | file sync type =>
    cases as with
    | nil => cases ho
    | cons a as =>
      unfold w32Write fileioWriteWrapper at h
      simp only at h
      split at h
      · exact fileioWrite_outstanding hs hb ho h
      · -- the chunks behind the first one find it outstanding
        rw [writeChunks, if_neg hne] at h
        obtain ⟨⟨written, s₁⟩, hone, h⟩ := Option.bind_eq_some_iff.1 h
        have hs₁ := fileioWrite_outstanding hs hb ho hone
        simp only at h
        split at h
        · cases h
          exact hs₁
        · exact writeChunks_busy hs₁ h

theorem w32Writev_reports {iov : List (List Answers × List Byte)} {written : ℕ} {ready : Readiness}
    (hready : s.readiness = ready) (hlen : written + (gathered iov).length < 2 ^ 31)
    (hord : orderly k s.blocking ready iov = true) (h : w32Writev k iov written s = some (r, s')) :
    s'.handed = s.handed ++ (gathered iov).take (r.toNat - written) ∧ written ≤ r ∧ r ≤ written + (gathered iov).length := by
  induction iov generalizing written s ready with
  | nil =>
    cases h
    exact ⟨by simp [gathered], le_rfl, by omega⟩
  | cons v iov ih =>
    by_cases hbusy : ready = .busy
    · obtain ⟨rfl, hsame⟩ := w32Writev_silent (fun _ _ _ _ _ hs hone => w32Write_busy hs hone) (hready.trans hbusy) h
      exact ⟨by simp [hsame.handed], le_rfl, by omega⟩
    obtain ⟨as, data⟩ := v
    obtain ⟨⟨ret, s₁⟩, hone, h⟩ := Option.bind_eq_some_iff.1 h
    have hgather : gathered ((as, data) :: iov) = data ++ gathered iov := rfl
    rw [hgather, length_append] at hlen ⊢
    rw [orderly] at hord
    pick_goal 2
    · exact hbusy
    simp only [Bool.and_eq_true, Bool.or_eq_true, beq_iff_eq, bne_iff_ne, Bool.not_eq_true'] at hord
    obtain ⟨hkeep, hcase⟩ := hord
    have hr := w32Write_reports (by omega) hkeep hone
    have hret : ret.toNat ≤ data.length := by
      rcases hr.value with h | h <;> omega
    have hnext : (if ret > 0 then int (written + ret) else (written : ℤ)) = ((written + ret.toNat : ℕ) : ℤ) := by
      split
      · rw [int_of_lt] <;> omega
      · omega
    simp only [hnext] at h
    -- an element behind which nothing is taken
    have hstop : r = (written + ret.toNat : ℕ) ∧ SameHanded s₁ s' →
        s'.handed = s.handed ++ (data ++ gathered iov).take (r.toNat - written) ∧ (written : ℤ) ≤ r ∧
          r ≤ written + ((data.length + (gathered iov).length : ℕ) : ℤ) := by
      rintro ⟨rfl, hsame⟩
      refine ⟨?_, by omega, by omega⟩
      rw [hsame.handed, hr.handed, Int.toNat_natCast, Nat.add_sub_cancel_left, take_append_of_le_length hret]
    obtain (⟨⟨rfl, hwhole⟩, hrest⟩ | ⟨⟨⟨rfl, hb⟩, hne⟩, hout⟩) | hrefused := hcase
    · -- taken in full: the later elements follow
      obtain ⟨hfull, hs₁⟩ := w32Write_whole (by omega) hready hkeep hwhole hone
      obtain ⟨hhanded, hge, hle⟩ := ih hs₁ (by omega) (by rw [hr.blocking]; exact hrest) h
      refine ⟨?_, by omega, by omega⟩
      have hsum : r.toNat - written = data.length + (r.toNat - (written + ret.toNat)) := by omega
      rw [hhanded, hr.handed, hfull, take_length, hsum, hfull, take_length_add_append, append_assoc]
    · have hs₁ := w32Write_outstanding hne hready hb hout hone
      exact hstop (w32Writev_silent (fun _ _ _ _ _ hs hone => w32Write_busy hs hone) hs₁ h)
    · refine hstop (w32Writev_silent (J := fun _ => True) (fun v hv s r s' _ hone => ?_) trivial h)
      obtain ⟨hfail, hsame⟩ := w32Write_refused (all_eq_true.1 hrefused v hv) hone
      exact ⟨hfail, hsame, trivial⟩

/-! ## Histories -/

/-- the first r bytes of each call's data, where r is the value returned, and nothing for -1 -/
def reported (calls : List (List Byte × ℤ)) : List Byte := calls.flatMap fun c => c.1.take c.2.toNat

/-- the condition on a call in the state in which it is made; reads and waits are free -/
def undisrupted (k : Kind) (w : World) : Event → Bool
  | .write as data => data.length < 2 ^ 31 && keepsOperations k w.io.blocking as data
  | .writev iov => (gathered iov).length < 2 ^ 31 && orderly k w.io.blocking w.io.readiness iov
  | _ => true

/-- the bytes handed over are those reported, after `sent` from before the history -/
def Consistent (sent : List Byte) (w : World) : Prop := w.io.handed = sent ++ reported w.written

variable {sent : List Byte}

theorem consistent_wrote {w : World} {c : Option (ℤ × Io)}
    (hw : Consistent sent w) (h : ∀ r s', c = some (r, s') → s'.handed = w.io.handed ++ data.take r.toNat) :
    Consistent sent (w.wrote data c) := by
  cases c with
  | none => exact hw
  | some p =>
    have hhanded := h p.1 p.2 rfl
    unfold Consistent
    simp only [World.wrote, reported, flatMap_append, flatMap_singleton]
    rw [hhanded, hw, reported, append_assoc]

theorem consistent_of_same {w w' : World} (hw : Consistent sent w)
    (hcalls : w'.written = w.written) (h : SameHanded w.io w'.io) : Consistent sent w' := by
  unfold Consistent
  rw [h.handed, hcalls]
  exact hw

/-- **Step lemma.** A call that meets the condition adds to the handle what it reports; nothing else adds anything. -/
theorem consistent_step (w : World) (e : Event) (hw : Consistent sent w)
    (he : undisrupted k w e = true) : Consistent sent (step k w e) := by
  have hkept := kept_sameHanded k w.io
  have hsame : ∀ s d e, SameHanded w.io s → SameHanded w.io { s with read := d, ended := e } :=
    fun s d e h => h.trans ⟨rfl, rfl⟩
  cases e with
  | write as data =>
    simp only [undisrupted, Bool.and_eq_true, decide_eq_true_eq] at he
    exact consistent_wrote hw fun r s' h => (w32Write_reports he.1 he.2 h).handed
  | writev iov =>
    simp only [undisrupted, Bool.and_eq_true, decide_eq_true_eq] at he
    refine consistent_wrote hw fun r s' h => ?_
    have hlen : 0 + (gathered iov).length < 2 ^ 31 := by omega
    obtain ⟨hhanded, -⟩ := w32Writev_reports rfl hlen he.2 h
    simpa using hhanded
  | read a max =>
    simp only [step]
    cases h : w32Read k a max w.io with
    | none => exact hw
    | some p =>
      exact consistent_of_same hw rfl (w32Read_inv hkept hsame (fun _ _ => trivial) h (SameHanded.refl _))
  | select a => exact consistent_of_same hw rfl (onSelect_inv hkept hsame (SameHanded.refl _))
  | alertable as => exact consistent_of_same hw rfl (apcs_sameHanded k as w.io)
  | setBlocking b => exact hw

/-- **Writes agree with what they report.** From any state of any descriptor, over every history in which no call loses
its own operation, the bytes handed to the handle are, in order, the first r bytes of each call's data. -/
theorem handed_of_returned (k : Kind) (s : Io) (events : List Event)
    (h : Always (step k) (fun w e => undisrupted k w e = true) { io := s, written := [], got := [] } events) :
    let w := run (step k) { io := s, written := [], got := [] } events
    w.io.handed = s.handed ++ reported w.written :=
  run_inv consistent_step events (by simp [Consistent, reported]) h

/-- the system starts the operation; the waits are given -/
def answered (own : List Wait) : Answers := { earlier := [], memory := true, issue := .started, apcs := [], own := own }

/-- a wait in which the write of `n` bytes completes -/
def completes (n : UInt32) : Wait := { apcs := [.write 0 n], woken := .ready }

/-- a blocking write that a signal interrupts; its operation completes later; the caller submits the data again -/
def interruptedWrite : List Event :=
  [.write [answered [{ apcs := [], woken := .failed EINTR }]] [1, 2], .alertable [.write 0 2],
    .write [answered [completes 2]] [1, 2]]

/-- a `w32_writev` whose first element is refused for lack of buffers (`WSAENOBUFS`) -/
def refusedElement : List Event :=
  [.writev [([{ answered [] with issue := .refused 10055 }], [1, 2]), ([answered [completes 1]], [3])]]

/-- the two bytes were reported once and handed over twice; of the three bytes the third was handed over as the first -/
theorem interrupted_write_sent_twice : (let w := run (step (.file false .pipe)) (World.opened true) interruptedWrite;
      w.written = [([1, 2], -1), ([1, 2], 2)] ∧ w.io.handed = [1, 2, 1, 2] ∧ reported w.written = [1, 2]) ∧
    (let w := run (step .socket) (World.opened true) refusedElement;
      w.written = [([1, 2, 3], 1)] ∧ w.io.handed = [3] ∧ reported w.written = [1]) := by
  decide

/-- a blocking pipe: a call that fails while an earlier operation is outstanding, one that a signal interrupts in the wait
that completes it, and a `w32_writev` -/
def plainWrites : List Event :=
  [.setBlocking false, .write [answered []] [1, 2], .write [answered []] [3], .setBlocking true,
    .write [{ answered [{ apcs := [.write 0 1], woken := .failed EINTR }] with earlier := [completes 2] }] [3],
    .writev [([answered [completes 1]], [4]), ([answered [completes 2]], [5, 6])]]

theorem handed_of_plain_writes : (let w := run (step (.file false .pipe)) (World.opened true) plainWrites;
      w.io.handed = (Io.opened true).handed ++ reported w.written) ∧
    (run (step (.file false .pipe)) (World.opened true) plainWrites).io.handed = [1, 2, 3, 4, 5, 6] :=
  ⟨handed_of_returned (.file false .pipe) (Io.opened true) plainWrites (by decide), by decide⟩

end OpenSSHServerPN.Descriptor
