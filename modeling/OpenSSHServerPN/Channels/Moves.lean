/-
What the functions of a channel do, said once (`nchan.c`, `channels.c`).

The trace of a channel is read as a ledger: what was sent and received, read and written (`sends`, `rcvds`, `reads`, `writes`).
`Core` is the part of a channel that closing, bytes and window are about. A function does a few things to it, one after the
other, each under its own condition: `Move` lists them, `Collect` those of the collector, and `Arrives` what a message does
before anything else. A datagram that is sent (`Posted`) stands apart, since what it costs is in question elsewhere.

Results:
- `does_apply`: everything that happens here is a sequence of moves, the work of the collector, or a datagram that is sent;
- `does_input`: a message arrives, and moves follow;
- `Flows.of_does`, `Flows.of_collect`, `Flows.of_arrives`: an invariant that each of these keeps is kept by all of them.
-/
import OpenSSHServerPN.Channels.Channel

namespace OpenSSHServerPN.Channels

open Wire

/-! ## The ledger -/

@[simp] def Act.sends : Act → List Msg
  | .sent m => [m]
  | _ => []

@[simp] def Act.rcvds : Act → List Msg
  | .rcvd m => [m]
  | _ => []

@[simp] def Act.reads : Act → List UInt8
  | .readRfd bytes => bytes
  | _ => []

@[simp] def Act.readsExt : Act → List UInt8
  | .readEfd bytes => bytes
  | _ => []

@[simp] def Act.writes : Act → List UInt8
  | .wroteWfd bytes => bytes
  | _ => []

@[simp] def Act.writesExt : Act → List UInt8
  | .wroteEfd bytes => bytes
  | _ => []

/-- the messages that were sent -/
def sends (t : List Act) : List Msg := t.flatMap Act.sends

/-- the messages that were received -/
def rcvds (t : List Act) : List Msg := t.flatMap Act.rcvds

/-- the bytes that were read from `rfd` -/
def reads (t : List Act) : List UInt8 := t.flatMap Act.reads

/-- the bytes that were read from `efd` -/
def readsExt (t : List Act) : List UInt8 := t.flatMap Act.readsExt

/-- the bytes that were written to `wfd` -/
def writes (t : List Act) : List UInt8 := t.flatMap Act.writes

/-- the bytes that were written to `efd` -/
def writesExt (t : List Act) : List UInt8 := t.flatMap Act.writesExt

variable (t : List Act) (a : Act)

@[simp] theorem sends_snoc : sends (t ++ [a]) = sends t ++ a.sends := by simp [sends]
@[simp] theorem rcvds_snoc : rcvds (t ++ [a]) = rcvds t ++ a.rcvds := by simp [rcvds]
@[simp] theorem reads_snoc : reads (t ++ [a]) = reads t ++ a.reads := by simp [reads]
@[simp] theorem readsExt_snoc : readsExt (t ++ [a]) = readsExt t ++ a.readsExt := by simp [readsExt]
@[simp] theorem writes_snoc : writes (t ++ [a]) = writes t ++ a.writes := by simp [writes]
@[simp] theorem writesExt_snoc : writesExt (t ++ [a]) = writesExt t ++ a.writesExt := by
  simp [writesExt]

/-- what a message costs of the window -/
@[simp] def Msg.size : Msg → ℕ
  | .data bytes => bytes.length
  | .extendedData _ bytes => bytes.length
  | _ => 0

/-- what a message gives back to the window -/
@[simp] def Msg.credit : Msg → ℕ
  | .windowAdjust n => n
  | _ => 0

@[simp] def Msg.dataBytes : Msg → List UInt8
  | .data bytes => bytes
  | _ => []

/-- the bytes for `stderr`; there is no other extended data -/
@[simp] def Msg.extBytes : Msg → List UInt8
  | .extendedData tcode bytes => if tcode = SSH2_EXTENDED_DATA_STDERR then bytes else []
  | _ => []

def sizes (ms : List Msg) : ℕ := (ms.map Msg.size).sum
def credits (ms : List Msg) : ℕ := (ms.map Msg.credit).sum
def dataOf (ms : List Msg) : List UInt8 := ms.flatMap Msg.dataBytes
def extOf (ms : List Msg) : List UInt8 := ms.flatMap Msg.extBytes

@[simp] theorem sizes_nil : sizes [] = 0 := rfl
@[simp] theorem credits_nil : credits [] = 0 := rfl
@[simp] theorem dataOf_nil : dataOf [] = [] := rfl
@[simp] theorem extOf_nil : extOf [] = [] := rfl
@[simp] theorem sizes_singleton (m : Msg) : sizes [m] = m.size := by simp [sizes]
@[simp] theorem credits_singleton (m : Msg) : credits [m] = m.credit := by simp [credits]
@[simp] theorem dataOf_singleton (m : Msg) : dataOf [m] = m.dataBytes := by simp [dataOf]
@[simp] theorem extOf_singleton (m : Msg) : extOf [m] = m.extBytes := by simp [extOf]
@[simp] theorem sizes_append (ms ms' : List Msg) : sizes (ms ++ ms') = sizes ms + sizes ms' := by simp [sizes]
@[simp] theorem credits_append (ms ms' : List Msg) : credits (ms ++ ms') = credits ms + credits ms' := by simp [credits]
@[simp] theorem dataOf_append (ms ms' : List Msg) : dataOf (ms ++ ms') = dataOf ms ++ dataOf ms' := by simp [dataOf]
@[simp] theorem extOf_append (ms ms' : List Msg) : extOf (ms ++ ms') = extOf ms ++ extOf ms' := by simp [extOf]

/-- messages without bytes and window -/
def Msg.control : Msg → Prop
  | .eof => True
  | .close => True
  | .eow => True
  | _ => False

/-- an entry of the ledger that moves no bytes and no window -/
def Act.control : Act → Prop
  | .sent m => m.control
  | .rcvd m => m.control
  | .logit line => line ≠ .tooMuchData ∧ line ≠ .tooMuchExtendedData
  | _ => False

theorem rcvds_append (t t' : List Act) : rcvds (t ++ t') = rcvds t ++ rcvds t' := by simp [rcvds]

theorem sends_data (m : Msg) (logs : List LogLine) : sends (t ++ .rcvd m :: logs.map .logit) = sends t := by
  simp [sends]

theorem rcvds_data (m : Msg) (logs : List LogLine) : rcvds (t ++ .rcvd m :: logs.map .logit) = rcvds t ++ [m] := by
  simp [rcvds]

/-! ## The part of a channel that matters -/

/-- what closing, bytes and window are about -/
structure Core where
  type : ChanType
  haveRemoteId : Bool
  chanLocal : Bool
  istate : IState
  ostate : OState
  closeSent : Bool
  closeRcvd : Bool
  eofSent : Bool
  efd : Bool
  usage : Usage
  datagram : Bool
  input : List UInt8
  output : List UInt8
  extended : List UInt8
  remoteWindow : ℕ
  remoteMaxpacket : ℕ
  localWindow : ℕ
  localWindowMax : ℕ
  localConsumed : ℕ
  localMaxpacket : ℕ
  status : Status
  trace : List Act

def Channel.core (c : Channel) : Core :=
  ⟨c.type, c.haveRemoteId, c.chanLocal, c.istate, c.ostate, c.closeSent, c.closeRcvd, c.eofSent, c.efd, c.extendedUsage,
    c.datagram, c.input, c.output, c.extended, c.remoteWindow, c.remoteMaxpacket, c.localWindow, c.localWindowMax,
    c.localConsumed, c.localMaxpacket, c.status, c.trace⟩

/-! ## Moves -/

/-- one thing that a function does, but for the collector; `drops`: output that is not written may be thrown away -/
inductive Move (drops : Bool) : Core → Core → Prop
  -- the halves
  | drainInput {p} (hin : p.istate = .inOpen) : Move drops p { p with istate := .waitDrain }
  | closeInput {p} : Move drops p { p with istate := .closed }
  | dropInput {p} : Move drops p { p with input := [], istate := .closed }
  | sendEof {p} (hin : p.istate = .waitDrain) :
      Move drops p { p with trace := p.trace ++ [.sent .eof], eofSent := true, istate := .closed }
  | drainOutput {p} (hout : p.ostate = .outOpen) : Move drops p { p with ostate := .waitDrain }
  | closeOutput {p} : Move drops p { p with ostate := .closed }
  | dropOutput {p} (hd : drops = true) : Move drops p { p with output := [], ostate := .closed }
  | sendEow {p} : Move drops p { p with trace := p.trace ++ [.sent .eow] }
  | closeEfd {p} : Move drops p { p with efd := false }
  | markDead {p} : Move drops p { p with type := .zombie }
  | abandon {p} (hs : p.status ≠ .freed) : Move drops p { p with type := .abandoned }
  | die {p} : Move drops p { p with status := .died }
  -- the bytes of a stream
  | read {p bytes} (hd : p.datagram = false) :
      Move drops p { p with trace := p.trace ++ [.readRfd bytes], input := p.input ++ bytes }
  | send {p n} (hd : p.datagram = false) (hin : p.istate = .inOpen ∨ p.istate = .waitDrain) (hclose : p.closeSent = false)
      (hn : n ≤ p.input.length) (hw : n ≤ p.remoteWindow) (hm : n ≤ p.remoteMaxpacket) :
      Move drops p { p with
        trace := p.trace ++ [.sent (.data (p.input.take n))]
        input := p.input.drop n
        remoteWindow := p.remoteWindow - n }
  | write {p n} (hd : p.datagram = false) :
      Move drops p { p with
        trace := p.trace ++ [.wroteWfd (p.output.take n)]
        output := p.output.drop n
        localConsumed := u32 (p.localConsumed + (p.output.length - (p.output.drop n).length)) }
  -- datagrams
  | readDatagram {p bytes} (hd : p.datagram = true) (hne : bytes ≠ []) (hlen : bytes.length ≤ CHAN_RBUF) :
      Move drops p { p with trace := p.trace ++ [.readRfd bytes], input := p.input ++ putString bytes }
  | skipDatagram {p pkt rest} (hd : p.datagram = true) (hget : getString maxString p.input = some (pkt, rest)) :
      Move drops p { p with input := rest }
  | loseDatagram {p rest} (hd : p.datagram = true) (hout : p.output ≠ []) : Move drops p { p with output := rest }
  | writeDatagram {p bytes rest n} (hd : p.datagram = true) (hout : p.output ≠ []) :
      Move drops p { p with trace := p.trace ++ [.wroteWfd bytes], output := rest, localConsumed := n }
  -- `efd` and the window
  | readExt {p bytes} (hu : p.usage = .read) :
      Move drops p { p with trace := p.trace ++ [.readEfd bytes], extended := p.extended ++ bytes }
  | sendExt {p n} (hu : p.usage = .read) (heof : p.eofSent = false) (hclose : p.closeSent = false)
      (hn : n ≤ p.extended.length) (hw : n ≤ p.remoteWindow) (hm : n ≤ p.remoteMaxpacket) :
      Move drops p { p with
        trace := p.trace ++ [.sent (.extendedData SSH2_EXTENDED_DATA_STDERR (p.extended.take n))]
        extended := p.extended.drop n
        remoteWindow := p.remoteWindow - n }
  | writeExt {p n} (hu : p.usage = .write) :
      Move drops p { p with
        trace := p.trace ++ [.wroteEfd (p.extended.take n)]
        extended := p.extended.drop n
        localConsumed := u32 (p.localConsumed + min n p.extended.length) }
  | adjust {p} (ht : p.type = .opened) (hquiet : ¬(p.closeSent = true ∨ p.closeRcvd = true)) (hc : p.localConsumed > 0) :
      Move drops p { p with
        trace := p.trace ++ [.sent (.windowAdjust p.localConsumed)]
        localWindow := u32 (p.localWindow + p.localConsumed)
        localConsumed := 0 }

/-- moves, one after the other -/
abbrev Does (drops : Bool) : Core → Core → Prop := Relation.ReflTransGen (Move drops)

/-- the datagram at the head of the queue is sent -/
def Posted (p p' : Core) : Prop :=
  ∃ pkt rest, p.datagram = true ∧ (p.istate = .inOpen ∨ p.istate = .waitDrain) ∧ p.closeSent = false ∧
    getString maxString p.input = some (pkt, rest) ∧ pkt.length ≤ p.remoteWindow ∧
    p' = { p with trace := p.trace ++ [.sent (.data pkt)], input := rest, remoteWindow := p.remoteWindow - pkt.length }

/-- what the collector does -/
inductive Collect : Core → Core → Prop
  | sendClose {p} (hin : p.istate = .closed) (hout : p.ostate = .closed) (hnot : p.closeSent = false) :
      Collect p { p with trace := p.trace ++ [.sent .close], closeSent := true }
  | die {p} (hid : p.haveRemoteId = false) : Collect p { p with status := .died }
  | free {p} (h : p.type = .zombie ∨ p.chanLocal = true ∨ (p.closeSent = true ∧ p.closeRcvd = true)) :
      Collect p { p with status := .freed }

/-- `DATA` and `EXTENDED_DATA` -/
def Msg.carriesData : Msg → Prop
  | .data _ => True
  | .extendedData _ _ => True
  | _ => False

/-- a message arrives -/
inductive Arrives : Msg → Core → Core → Prop
  | eof {p} : Arrives .eof p { p with trace := p.trace ++ [.rcvd .eof] }
  | eow {p} : Arrives .eow p { p with trace := p.trace ++ [.rcvd .eow] }
  -- a local channel has no flag for it
  | close {p} : Arrives .close p
      { p with trace := p.trace ++ [.rcvd .close], closeRcvd := if p.chanLocal then p.closeRcvd else true }
  | adjust {p n} : Arrives (.windowAdjust n) p
      { p with trace := p.trace ++ [.rcvd (.windowAdjust n)], remoteWindow := u32 (p.remoteWindow + n) }
  | overflow {p n} : Arrives (.windowAdjust n) p { p with trace := p.trace ++ [.rcvd (.windowAdjust n)], status := .died }
  -- data that is not taken, and data that may be
  | miss {p m t st} (logs : List LogLine) (hm : m.carriesData) (ht : t = p.trace ++ .rcvd m :: logs.map .logit)
      (hst : st = p.status ∨ st = .died) : Arrives m p { p with trace := t, status := st }
  | take {p m t st output extended window consumed} (logs : List LogLine)
      (hm : (∃ bytes, m = .data bytes) ∨ (∃ tcode bytes, m = .extendedData tcode bytes) ∧ p.usage = .write)
      (ht : t = p.trace ++ .rcvd m :: logs.map .logit) (hst : st = p.status ∨ st = .died) :
      Arrives m p { p with
        trace := t
        output := output
        extended := extended
        localWindow := window
        localConsumed := consumed
        status := st }

section Facts

variable {drops : Bool} {p p' p'' : Core}

/-- what no move changes, and what it may change in one direction only -/
structure Stays (p p' : Core) : Prop where
  haveRemoteId : p'.haveRemoteId = p.haveRemoteId
  closeSent : p'.closeSent = p.closeSent
  usage : p'.usage = p.usage
  status : p'.status = p.status ∨ p'.status = .died
  type : p'.type = p.type ∨ p'.type = .zombie ∨ p'.type = .abandoned
  input : p.istate.rank ≤ p'.istate.rank
  output : p.ostate.rank ≤ p'.ostate.rank

theorem Stays.refl (p : Core) : Stays p p := ⟨rfl, rfl, rfl, .inl rfl, .inl rfl, le_rfl, le_rfl⟩

theorem Stays.trans (h : Stays p p') (h' : Stays p' p'') : Stays p p'' := by
  refine ⟨h'.haveRemoteId.trans h.haveRemoteId, h'.closeSent.trans h.closeSent, h'.usage.trans h.usage, ?_, ?_,
    h.input.trans h'.input, h.output.trans h'.output⟩
  · rcases h'.status with hs | hs
    · rw [hs]
      exact h.status
    · exact .inr hs
  · rcases h'.type with ht | ht
    · rw [ht]
      exact h.type
    · exact .inr ht

theorem IState.le_closed (s : IState) : s.rank ≤ IState.closed.rank := by cases s <;> decide
theorem OState.le_closed (s : OState) : s.rank ≤ OState.closed.rank := by cases s <;> decide

theorem Move.stays (h : Move drops p p') : Stays p p' := by
  have hsame := Stays.refl p
  cases h with
  | drainInput hin => exact { hsame with input := by rw [hin]; exact Nat.zero_le _ }
  | closeInput | dropInput | sendEof => exact { hsame with input := IState.le_closed _ }
  | drainOutput hout => exact { hsame with output := by rw [hout]; exact Nat.zero_le _ }
  | closeOutput | dropOutput => exact { hsame with output := OState.le_closed _ }
  | markDead => exact { hsame with type := .inr (.inl rfl) }
  | abandon => exact { hsame with type := .inr (.inr rfl) }
  | die => exact { hsame with status := .inr rfl }
  | _ => exact { hsame with }

theorem Does.stays (h : Does drops p p') : Stays p p' := by
  induction h with
  | refl => exact .refl p
  | tail _ hm ih => exact ih.trans hm.stays

theorem Arrives.stays {m : Msg} (h : Arrives m p p') : Stays p p' := by
  have hsame := Stays.refl p
  cases h with
  | overflow => exact { hsame with status := .inr rfl }
  | miss _ _ _ hst | take _ _ _ hst => exact { hsame with status := hst }
  | _ => exact { hsame with }

theorem Posted.stays (h : Posted p p') : Stays p p' := by
  obtain ⟨pkt, rest, -, -, -, -, -, rfl⟩ := h
  exact { Stays.refl p with }

/-- the collector moves neither half, and sends `CLOSE` only if both are closed -/
structure Collected (p p' : Core) : Prop where
  haveRemoteId : p'.haveRemoteId = p.haveRemoteId
  type : p'.type = p.type
  input : p'.istate = p.istate
  output : p'.ostate = p.ostate
  close : p'.closeSent = p.closeSent ∨ (p.istate = .closed ∧ p.ostate = .closed)
  died : p'.status = .died → p.status = .died ∨ p.haveRemoteId = false

theorem collected_of_collect (h : Relation.ReflTransGen Collect p p') : Collected p p' := by
  induction h with
  | refl => exact ⟨rfl, rfl, rfl, rfl, .inl rfl, .inl⟩
  | tail _ hm ih =>
    cases hm with
    | sendClose hin hout hnot =>
      exact { ih with close := .inr ⟨ih.input.symm.trans hin, ih.output.symm.trans hout⟩ }
    | die hid => exact { ih with died := fun _ => .inr (ih.haveRemoteId.symm.trans hid) }
    | free => exact { ih with died := by simp }

theorem Move.trace (h : Move drops p p') : p'.trace = p.trace ∨ ∃ a, p'.trace = p.trace ++ [a] ∧ a.rcvds = [] := by
  cases h with
  | sendEof | sendEow | read | send | write | readDatagram | writeDatagram | readExt | sendExt | writeExt | adjust =>
    exact .inr ⟨_, rfl, rfl⟩
  | _ => exact .inl rfl

end Facts

/-! ## The functions, one by one -/

/-- unwritten output may be thrown away -/
def Local.drops : Local → Bool
  | .writeFailed => true
  | .forceClose _ _ => true
  | .handleWfd _ _ => true
  | _ => false

section Functions

variable {drops : Bool} {p : Core} {k : Compat} {c : Channel}

theorem Does.ite {q : Prop} [Decidable q] {a b : Channel} (ha : q → Does drops p a.core) (hb : ¬q → Does drops p b.core) :
    Does drops p (if q then a else b).core := iteInduction (motive := fun c : Channel => Does drops p c.core) ha hb

theorem core_shutdownRead : (chanShutdownRead c).core = c.core := by
  unfold chanShutdownRead
  split_ifs <;> rfl

theorem core_shutdownWrite : (chanShutdownWrite c).core = { c.core with output := [] } := by
  unfold chanShutdownWrite
  dsimp only
  split_ifs <;> rfl

theorem Does.closeInput (h : Does drops p c.core) : Does drops p (chanSetIstate .closed c).core := h.tail .closeInput

theorem Does.shutdownExtendedRead (h : Does drops p (chanSetIstate .closed c).core) :
    Does drops p (chanSetIstate .closed (chanShutdownExtendedRead c)).core := by
  unfold chanShutdownExtendedRead
  split_ifs
  · exact h
  · exact h
  · exact h.tail .closeEfd

theorem does_sendEof2 : Does drops c.core (chanSetIstate .closed (chanSendEof2 c)).core := by
  unfold chanSendEof2
  split_ifs with hdrain hid
  · exact .single (.sendEof hdrain)
  · exact (Relation.ReflTransGen.single .die).tail .closeInput
  · exact .single .closeInput

theorem does_readFailed (c : Channel) : Does drops c.core (chanReadFailed c).core := by
  refine .ite (fun hopen => ?_) fun _ => .refl
  show Does drops c.core { (chanShutdownRead c).core with istate := .waitDrain }
  rw [core_shutdownRead]
  exact .single (.drainInput hopen)

theorem does_ibufEmpty (c : Channel) : Does drops c.core (chanIbufEmpty c).core := by
  refine .ite (fun _ => .refl) fun _ => .ite (fun _ => ?_) fun _ => .refl
  split_ifs
  · exact .single .closeInput
  · exact does_sendEof2

theorem does_obufEmpty (c : Channel) : Does drops c.core (chanObufEmpty c).core := by
  refine .ite (fun _ => .refl) fun hempty => .ite (fun _ => ?_) fun _ => .refl
  show Does drops c.core { (chanShutdownWrite c).core with ostate := .closed }
  rw [core_shutdownWrite, ← not_not.1 hempty]
  exact .single .closeOutput

theorem does_startDrain (c : Channel) : Does drops c.core (startDrain c).core := by
  exact .ite (fun hopen => .single (.drainOutput hopen)) fun _ => .refl

theorem does_writeFailed (k : Compat) (c : Channel) : Does true c.core (chanWriteFailed k c).core := by
  refine .ite (fun _ => ?_) fun _ => .refl
  extract_lets c₁
  have h₁ : Does true c.core (chanSetOstate .closed c₁).core := by
    show Does true c.core { (chanShutdownWrite c).core with ostate := .closed }
    rw [core_shutdownWrite]
    exact .single (.dropOutput rfl)
  unfold chanSendEow2
  split_ifs
  · exact h₁
  · exact h₁
  · exact h₁.tail .sendEow
  · exact h₁.tail .die
  · exact h₁

/-- the input is thrown away first, and then closed -/
theorem does_dropInput (hdrain : c.istate = .waitDrain) : Does drops c.core (chanIbufEmpty { c with input := [] }).core := by
  have heq : chanIbufEmpty { c with input := [] } =
      chanSetIstate .closed (if c.closeSent ∨ c.chanLocal then { c with input := [] } else chanSendEof2
        { c with input := [] }) := by
    exact if_pos hdrain
  rw [heq]
  unfold chanSendEof2
  split_ifs
  · exact .single .dropInput
  · exact .tail (.single (.sendEof hdrain)) .dropInput
  · exact .tail (.single .die) .dropInput

theorem does_forceClose (k : Compat) (abandon cleared : Bool) (hlive : c.status = .live) :
    Does true c.core (channelForceClose k abandon cleared c).core := by
  unfold channelForceClose
  extract_lets c₁ c₂ c₃ c₄ c₅
  have h₁ : Does true c.core c₁.core := .ite (fun _ => does_readFailed c) fun _ => .refl
  have h₂ : Does true c₁.core c₂.core := .ite does_dropInput fun _ => .refl
  have h₃ : Does true c₂.core c₃.core := by
    refine .ite (fun hopen => ?_) fun _ => .refl
    have hsame : chanWriteFailed k { c₂ with output := [] } = chanWriteFailed k c₂ := by
      unfold chanWriteFailed
      rw [if_pos hopen, if_pos hopen]
      rfl
    rw [hsame]
    exact does_writeFailed k c₂
  have h₄ : c₄.core = c₃.core := by
    show (detach cleared c₃).core = _
    unfold detach
    split_ifs <;> rfl
  have h₅ : Does true c.core c₅.core := by
    show Does true c.core { c₄.core with efd := false }
    rw [h₄]
    exact ((h₁.trans h₂).trans h₃).tail .closeEfd
  refine .ite (fun _ => h₅.tail (.abandon fun hfreed => ?_)) fun _ => h₅
  rcases h₅.stays.status with hs | hs
  · exact absurd (hfreed.symm.trans (hs.trans hlive)) (by simp)
  · exact absurd (hfreed.symm.trans hs) (by simp)

theorem does_readFail (c : Channel) : Does drops c.core (readFail c).core := by
  exact .ite (fun _ => .single .markDead) fun _ => does_readFailed c

theorem does_writeFail (k : Compat) (c : Channel) : Does true c.core (writeFail k c).core := by
  exact .ite (fun _ => .single .markDead) fun _ => does_writeFailed k c

/-! ### Polls, descriptors and the window -/

theorem does_pollInputOpen (hin : c.istate = .inOpen ∨ c.istate = .waitDrain) (hclose : c.closeSent = false) :
    Does drops c.core (channelOutputPollInputOpen c).core ∨ Posted c.core (channelOutputPollInputOpen c).core := by
  unfold channelOutputPollInputOpen
  split_ifs with hempty hdrain hid hd
  · exact .inl (does_ibufEmpty c)
  · exact .inl .refl
  · exact .inl (.single .die)
  · cases hget : getString maxString c.input with
    | none => exact .inl (.single .die)
    | some r =>
      dsimp only
      split_ifs with hbig
      · exact .inl (.single (.skipDatagram hd hget))
      · exact .inr ⟨r.1, r.2, hd, hin, hclose, hget, by show r.1.length ≤ c.remoteWindow; omega, rfl⟩
  · refine .inl ?_
    extract_lets len
    refine .ite (fun _ => .refl) fun _ => .single (.send (Bool.eq_false_iff.2 hd) hin hclose ?_ ?_ ?_)
    · show len ≤ c.input.length; omega
    · show len ≤ c.remoteWindow; omega
    · show len ≤ c.remoteMaxpacket; omega

theorem does_pollExtendedRead (hu : c.extendedUsage = .read) (heof : c.eofSent = false) (hclose : c.closeSent = false) :
    Does drops c.core (channelOutputPollExtendedRead c).core := by
  unfold channelOutputPollExtendedRead
  extract_lets len
  refine .ite (fun _ => .refl) fun _ => .ite (fun _ => .single .die) fun _ => .single (.sendExt hu heof hclose ?_ ?_ ?_)
  · show len ≤ c.extended.length; omega
  · show len ≤ c.remoteWindow; omega
  · show len ≤ c.remoteMaxpacket; omega

/-- the poll moves, or sends a datagram; if nothing is read from `efd`, that is all -/
theorem does_outputPoll (c : Channel) :
    Does drops c.core (channelOutputPoll c).core ∨ ∃ q, Posted c.core q ∧ Does drops q (channelOutputPoll c).core ∧
      (c.extendedUsage ≠ .read → (channelOutputPoll c).core = q) := by
  unfold channelOutputPoll
  extract_lets c₁
  by_cases htype : c.type ≠ .opened
  · rw [if_pos htype]
    exact .inl .refl
  rw [if_neg htype]
  by_cases hquiet : c.closeSent ∨ c.closeRcvd
  · rw [if_pos hquiet]
    exact .inl .refl
  rw [if_neg hquiet]
  have hclose : c.closeSent = false := Bool.eq_false_iff.2 fun h => hquiet (.inl h)
  have hext : c₁.closeSent = c.closeSent → Does drops c₁.core (if c₁.status = .live ∧ c₁.eofSent = false ∧
      c₁.extendedUsage = .read then channelOutputPollExtendedRead c₁ else c₁).core := fun h =>
    .ite (fun hext => does_pollExtendedRead hext.2.2 hext.2.1 (h.trans hclose)) fun _ => .refl
  have h₁ : Does drops c.core c₁.core ∨ Posted c.core c₁.core := by
    by_cases hin : c.istate = .inOpen ∨ c.istate = .waitDrain
    · have hc₁ : c₁ = channelOutputPollInputOpen c := if_pos hin
      rw [hc₁]
      exact does_pollInputOpen hin hclose
    · have hc₁ : c₁ = c := if_neg hin
      rw [hc₁]
      exact .inl .refl
  rcases h₁ with h₁ | h₁
  · exact .inl (h₁.trans (hext h₁.stays.closeSent))
  · refine .inr ⟨c₁.core, h₁, hext h₁.stays.closeSent, fun hu => ?_⟩
    have hu₁ : c₁.extendedUsage = c.extendedUsage := h₁.stays.usage
    rw [if_neg fun hext => hu (hu₁.symm.trans hext.2.2)]

theorem does_preOpen (c : Channel) : Does drops c.core (channelPreOpen c).core := by
  exact .ite (fun _ => does_obufEmpty c) fun _ => .refl

theorem readLimit_datagram (hd : c.datagram = true) : readLimit c ≤ CHAN_RBUF := by
  unfold readLimit
  rw [if_pos hd]
  split_ifs <;> omega

theorem does_handleRfd (ready : Bool) (answer : Read) (c : Channel) : Does drops c.core (channelHandleRfd ready answer c).core := by
  refine .ite (fun _ => .refl) fun _ => .ite (fun _ => .refl) fun hlimit => ?_
  cases (if c.rfd then answer else .fail) with
  | intr => exact .refl
  | again => exact .ite (fun _ => does_readFail c) fun _ => .refl
  | fail => exact does_readFail c
  | got bytes =>
    refine .ite (fun _ => does_readFail c) fun hbytes => ?_
    refine .ite (fun hd => .ite (fun _ => .single .die) fun _ => .single (.readDatagram hd ?_ ?_)) fun hd => ?_
    · simp [hbytes, hlimit]
    · exact (List.length_take_le _ _).trans (readLimit_datagram hd)
    · exact .single (.read (Bool.eq_false_iff.2 hd))

theorem does_handleWfd (k : Compat) (ready : Bool) (answer : Write) (c : Channel) :
    Does true c.core (channelHandleWfd k ready answer c).core := by
  refine .ite (fun _ => .refl) fun _ => .ite (fun _ => .refl) fun hout => .ite (fun hd => ?_) fun hd => ?_
  · cases getString maxString c.output with
    | none => exact .single .die
    | some r =>
      have hlost : Does true c.core ({ c with output := r.2 } : Channel).core := .single (.loseDatagram hd hout)
      cases answer with
      | again => exact hlost
      | fail => exact hlost.trans (does_writeFail k _)
      | wrote n =>
        cases n with
        | zero => exact hlost.trans (does_writeFail k _)
        | succ n => exact .single (.writeDatagram hd hout)
  · cases answer with
    | again => exact .refl
    | fail => exact does_writeFail k c
    | wrote n =>
      cases n with
      | zero => exact does_writeFail k c
      | succ n => exact .single (.write (Bool.eq_false_iff.2 hd))

theorem does_handleEfd (ready : Bool) (answer : Read) (answer' : Write) (c : Channel) :
    Does drops c.core (channelHandleEfd ready answer answer' c).core := by
  have hclose : Does drops c.core ({ c with efd := false } : Channel).core := .single .closeEfd
  refine .ite (fun _ => .refl) fun _ => .ite (fun hwrite => ?_) fun hwrite => ?_
  · refine .ite (fun _ => .refl) fun _ => .ite (fun _ => .refl) fun _ => ?_
    cases answer' with
    | again => exact .refl
    | fail => exact hclose
    | wrote n =>
      cases n with
      | zero => exact hclose
      | succ n => exact .single (.writeExt hwrite)
  · refine .ite (fun _ => .refl) fun _ => ?_
    cases answer with
    | intr => exact .refl
    | again => exact .ite (fun _ => hclose) fun _ => .refl
    | fail => exact hclose
    | got bytes =>
      refine .ite (fun _ => hclose) fun _ => .ite (fun _ => .refl) fun hignore => .single (.readExt ?_)
      cases h : c.extendedUsage with
      | read => exact h
      | write => exact absurd h hwrite
      | ignore => exact absurd h hignore

theorem does_checkWindow (c : Channel) : Does drops c.core (channelCheckWindow c).core := by
  refine .ite (fun hlow => .ite (fun _ => .single .die) fun _ => ?_) fun _ => .refl
  exact .single (.adjust hlow.1 hlow.2.1 hlow.2.2.2)

/-! ### The collector -/

theorem collect_sendClose2 (c : Channel) : Relation.ReflTransGen Collect c.core (chanSendClose2 c).core := by
  unfold chanSendClose2
  split_ifs with hopen hsent hid
  · exact .refl
  · exact .refl
  · have hboth : c.istate = .closed ∧ c.ostate = .closed := by tauto
    exact .single (.sendClose hboth.1 hboth.2 (Bool.eq_false_iff.2 hsent))
  · exact .single (.die (Bool.eq_false_iff.2 hid))

theorem collect_isDead (k : Compat) (c : Channel) (doSend : Bool) :
    Relation.ReflTransGen Collect c.core (chanIsDead k c doSend).1.core := by
  unfold chanIsDead
  split_ifs
  iterate 5 exact .refl
  · exact collect_sendClose2 c
  · exact .refl

/-- why a channel is dead, if the collector may send `CLOSE` -/
theorem isDead_reason (h : (chanIsDead k c true).2 = true) :
    (chanIsDead k c true).1.type = .zombie ∨ (chanIsDead k c true).1.chanLocal = true ∨
      ((chanIsDead k c true).1.closeSent = true ∧ (chanIsDead k c true).1.closeRcvd = true) := by
  unfold chanIsDead at h ⊢
  split_ifs at h ⊢ with hzombie hopen hexteof hlocal hflags hsend
  · exact .inl hzombie
  · exact .inr (.inl hlocal)
  · exact absurd hflags.2.1 (by simp)
  · exact .inr (.inr (by simpa using h))
  · exact .inr (.inr (by simpa using h))

theorem collect_collect (k : Compat) (c : Channel) : Relation.ReflTransGen Collect c.core (collect k c).core := by
  unfold collect
  have h := collect_isDead k c true
  dsimp only
  split_ifs with hdead
  · exact h.tail (.free (isDead_reason hdead))
  · exact h

theorem collect_garbageCollect (k : Compat) (cleared : Bool) (c : Channel) :
    Relation.ReflTransGen Collect c.core (channelGarbageCollect k cleared c).core := by
  unfold channelGarbageCollect
  dsimp only
  have h := collect_isDead k c c.detachClose
  have hdetach : (detach cleared (chanIsDead k c c.detachClose).1).core = (chanIsDead k c c.detachClose).1.core := by
    unfold detach
    split_ifs <;> rfl
  rw [← hdetach] at h
  split_ifs
  · rwa [hdetach] at h
  · exact h
  · exact h.trans (collect_collect k _)
  · exact collect_collect k c

/-! ### Messages -/

theorem arrives_inputData (data : List UInt8) (c : Channel) : Arrives (.data data) c.core (channelInputData data c).core := by
  have hm : (∃ bytes, Msg.data data = .data bytes) ∨ (∃ tcode bytes, Msg.data data = .extendedData tcode bytes) ∧
      c.core.usage = .write := .inl ⟨data, rfl⟩
  unfold channelInputData
  dsimp only
  split_ifs
  · exact .take [] hm rfl (.inl rfl)
  · exact .miss [.bigPacket] trivial (by simp [Channel.core, Channel.record]) (.inl rfl)
  · exact .take [.tooMuchData] hm (by simp [Channel.core, Channel.record, Channel.fatal, overrun]) (.inr rfl)
  · exact .take [.tooMuchData] hm (by simp [Channel.core, Channel.record, putOutput, overrun]) (.inl rfl)
  · exact .take [] hm rfl (.inl rfl)
  · exact .miss [] trivial rfl (.inl rfl)

theorem arrives_inputExtendedData (k : Compat) (tcode : ℕ) (data : List UInt8) (c : Channel) :
    Arrives (.extendedData tcode data) c.core (channelInputExtendedData k tcode data c).core := by
  have hlog : ∀ line, Arrives (.extendedData tcode data) c.core
      ((c.record (.rcvd (.extendedData tcode data))).record (.logit line)).core := fun line =>
    .miss [line] trivial (by simp [Channel.core, Channel.record]) (.inl rfl)
  unfold channelInputExtendedData
  dsimp only
  split_ifs with htype heof hbad hmuch
  · exact hlog _
  · exact .miss [] trivial rfl (.inr rfl)
  · exact hlog _
  · exact hlog _
  · refine .take [] (.inr ⟨⟨tcode, data, rfl⟩, ?_⟩) rfl (.inl rfl)
    by_contra h
    exact hbad (.inr (.inl h))

theorem does_rcvdIeof (c : Channel) : ∃ q, Arrives .eof c.core q ∧ Does drops q (chanRcvdIeof c).core := by
  refine ⟨_, .eof, ?_⟩
  unfold chanRcvdIeof
  extract_lets c₁
  have h₁ : Does drops _ c₁.core := does_startDrain { c with trace := c.trace ++ [.rcvd .eof], eofRcvd := true }
  exact .ite (fun _ => h₁.trans (does_obufEmpty c₁)) fun _ => h₁

theorem does_inputIeof (c : Channel) : ∃ q, Arrives .eof c.core q ∧ Does drops q (channelInputIeof c).core := by
  obtain ⟨q, hq, h₁⟩ : ∃ q, Arrives .eof c.core q ∧ Does drops q (chanRcvdIeof c).core := does_rcvdIeof c
  refine ⟨q, hq, ?_⟩
  unfold channelInputIeof
  extract_lets c₁ c₂
  refine .ite (fun hforce => ?_) fun _ => h₁
  have h₂ : Does drops c₁.core c₂.core := .single (.drainInput hforce.2)
  exact (h₁.trans h₂).trans (Does.ite (fun _ => does_ibufEmpty c₂) fun _ => .refl)

theorem does_rcvdOclose (c : Channel) : ∃ q, Arrives .close c.core q ∧ Does drops q (chanRcvdOclose c).core := by
  unfold chanRcvdOclose
  extract_lets c₁ c₂ c₃
  have h₂ : Arrives .close c.core c₂.core := by
    have heq : c₂.core = { c.core with
        trace := c.trace ++ [.rcvd .close], closeRcvd := if c.chanLocal then c.closeRcvd else true } := by
      show (if c.chanLocal then c₁ else { c₁ with closeRcvd := true }).core = _
      split_ifs <;> rfl
    rw [heq]
    exact .close
  have h₃ : Does drops c₂.core c₃.core := does_startDrain c₂
  refine ⟨c₂.core, h₂, ?_⟩
  refine .ite (fun _ => .tail (.single .closeOutput) .closeInput) fun _ => .ite (fun _ => ?_) fun _ => .ite
    (fun _ => ?_) fun _ => h₃
  · refine (Does.closeInput ?_).shutdownExtendedRead
    rwa [core_shutdownRead]
  · refine Does.shutdownExtendedRead ?_
    split_ifs
    · exact h₃.closeInput
    · exact h₃.trans does_sendEof2

theorem does_input (k : Compat) (m : Msg) (c : Channel) : ∃ q, Arrives m c.core q ∧ Does false q (channelInput k m c).core := by
  cases m with
  | data bytes => exact ⟨_, arrives_inputData bytes c, .refl⟩
  | extendedData tcode bytes => exact ⟨_, arrives_inputExtendedData k tcode bytes c, .refl⟩
  | windowAdjust n =>
    refine ⟨(channelInputWindowAdjust n c).core, ?_, .refl⟩
    unfold channelInputWindowAdjust
    dsimp only
    split_ifs
    · exact .overflow
    · exact .adjust
  | eof => exact does_inputIeof c
  | close => exact does_rcvdOclose c
  | eow =>
    refine ⟨_, .eow, ?_⟩
    refine .ite (fun _ => Does.closeInput ?_) fun _ => .refl
    rw [core_shutdownRead]
    exact .refl

/-- **What happens here**, in moves; the collector and a datagram that is sent stand apart. -/
theorem does_apply (k : Compat) (l : Local) (hlive : c.status = .live) : Does l.drops c.core (l.apply k c).core ∨
      (∃ cleared, l = .garbageCollect cleared) ∧ Relation.ReflTransGen Collect c.core (l.apply k c).core ∨
      l = .outputPoll ∧ ∃ q, Posted c.core q ∧ Does false q (l.apply k c).core ∧
        (c.extendedUsage ≠ .read → (l.apply k c).core = q) := by
  cases l with
  | readFailed => exact .inl (does_readFailed c)
  | ibufEmpty => exact .inl (does_ibufEmpty c)
  | obufEmpty => exact .inl (does_obufEmpty c)
  | writeFailed => exact .inl (does_writeFailed k c)
  | markDead => exact .inl (.single .markDead)
  | forceClose abandon cleared => exact .inl (does_forceClose k abandon cleared hlive)
  | garbageCollect cleared => exact .inr (.inl ⟨⟨cleared, rfl⟩, collect_garbageCollect k cleared c⟩)
  | outputPoll => exact (does_outputPoll c).imp id fun h => .inr ⟨rfl, h⟩
  | preOpen => exact .inl (.ite (fun _ => does_preOpen c) fun _ => .refl)
  | handleRfd ready answer => exact .inl (.ite (fun _ => does_handleRfd ready answer c) fun _ => .refl)
  | handleWfd ready answer => exact .inl (.ite (fun _ => does_handleWfd k ready answer c) fun _ => .refl)
  | handleEfd ready answer answer' => exact .inl (.ite (fun _ => does_handleEfd ready answer answer' c) fun _ => .refl)
  | checkWindow => exact .inl (.ite (fun _ => does_checkWindow c) fun _ => .refl)

end Functions

/-! ## Invariants -/

/-- `ms` was received, and the invariant is kept -/
structure Flows (I : Core → Prop) (ms : List Msg) (p p' : Core) : Prop where
  trace : ∃ t, p'.trace = p.trace ++ t ∧ rcvds t = ms
  kept : I p → I p'

namespace Flows

variable {I : Core → Prop} {ms : List Msg} {p p' p'' : Core}

theorem refl (p : Core) : Flows I [] p p := ⟨⟨[], by simp, rfl⟩, id⟩

theorem after (h : Flows I ms p p') (h' : Flows I [] p' p'') : Flows I ms p p'' := by
  obtain ⟨t, ht, hms⟩ := h.trace
  obtain ⟨t', ht', hnone⟩ := h'.trace
  refine ⟨⟨t ++ t', ?_, ?_⟩, h'.kept ∘ h.kept⟩
  · rw [ht', ht, List.append_assoc]
  · rw [rcvds_append, hms, hnone, List.append_nil]

theorem entry (ht : p'.trace = p.trace ++ [a]) (hs : I p → I p') : Flows I a.rcvds p p' :=
  ⟨⟨[a], ht, by simp [rcvds]⟩, hs⟩

theorem ite {q : Prop} [Decidable q] {a b : Channel} (ha : q → Flows I ms p a.core) (hb : ¬q → Flows I ms p b.core) :
    Flows I ms p (if q then a else b).core := iteInduction (motive := fun c : Channel => Flows I ms p c.core) ha hb

theorem of_move {drops : Bool} (hI : Move drops p p' → I p → I p') (h : Move drops p p') : Flows I [] p p' := by
  rcases h.trace with ht | ⟨a, ht, ha⟩
  · exact ⟨⟨[], by rw [ht, List.append_nil], rfl⟩, hI h⟩
  · have hone := entry a ht (hI h)
    rwa [ha] at hone

/-- **Moves keep what each of them keeps.** -/
theorem of_does {drops : Bool} (hI : ∀ {q q'}, Move drops q q' → I q → I q') (h : Does drops p p') : Flows I [] p p' := by
  induction h with
  | refl => exact .refl p
  | tail _ hm ih => exact ih.after (.of_move hI hm)

theorem of_collect (hI : ∀ {q q'}, Collect q q' → I q → I q') (h : Relation.ReflTransGen Collect p p') : Flows I [] p p' := by
  induction h with
  | refl => exact .refl p
  | tail _ hm ih =>
    refine ih.after ?_
    cases hm with
    | sendClose hin hout hnot => exact entry (.sent .close) rfl (hI (.sendClose hin hout hnot))
    | die hid => exact ⟨⟨[], by simp, rfl⟩, hI (.die hid)⟩
    | free h => exact ⟨⟨[], by simp, rfl⟩, hI (.free h)⟩

theorem of_posted (hI : I p → I p') (h : Posted p p') : Flows I [] p p' := by
  obtain ⟨pkt, rest, -, -, -, -, -, rfl⟩ := h
  exact entry (.sent (.data pkt)) rfl hI

theorem of_arrives {m : Msg} {drops : Bool} (harr : Arrives m p p' → I p → I p') (hI : ∀ {q q'}, Move drops q q' → I q → I q')
    (h : Arrives m p p') (h' : Does drops p' p'') : Flows I [m] p p'' := by
  refine Flows.after ⟨?_, harr h⟩ (.of_does hI h')
  cases h with
  | miss _ _ ht | take _ _ ht => exact ⟨_, ht, by simp [rcvds]⟩
  | _ => exact ⟨_, rfl, rfl⟩

end Flows

end OpenSSHServerPN.Channels
