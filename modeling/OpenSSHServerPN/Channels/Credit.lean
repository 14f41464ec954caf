/-
Window credit at a receiver (`channels.c`: `channel_input_data`, `channel_input_extended_data`, `channel_handle_wfd`,
`channel_handle_efd_write`, `channel_check_window`; `nchan.c`: `chan_shutdown_write`).

The window of a channel is in four places: what the peer may still send (`local_window`), what was consumed and not given back
yet (`local_consumed`), and what waits in the buffers `output` and `extended`. Their sum should stay `local_window_max`
(`Conserved`). It does not:
- `chan_shutdown_write` resets `output` and credits nothing: after a failed write, or a forced close, the window is smaller by
  the bytes that were not written, and the channel goes on with it;
- data beyond the window that is still accepted (up to a tenth of it) sets `local_window` to 0, and is credited in full.

Results:
- `tallies_step`: one event keeps the sum exactly if it is `Careful`;
- `credit_conserved_iff`: over every run, the sum is `local_window_max` in each state exactly if each event is careful;
- `failed_write_loses_credit`: five bytes of window are lost by one failed write.
-/
import OpenSSHServerPN.Channels.Stream
import OpenSSHServerPN.Lib.Runs

namespace OpenSSHServerPN.Channels

open Runs Wire

/-! ## The purse -/

/-- the parts of a channel that hold window -/
structure Purse where
  localWindow : ℕ
  localConsumed : ℕ
  output : List UInt8
  extended : List UInt8
  usage : Usage
  max : ℕ
  datagram : Bool
  haveRemoteId : Bool

def Channel.purse (c : Channel) : Purse :=
  ⟨c.localWindow, c.localConsumed, c.output, c.extended, c.extendedUsage, c.localWindowMax, c.datagram, c.haveRemoteId⟩

def Core.purse (p : Core) : Purse :=
  ⟨p.localWindow, p.localConsumed, p.output, p.extended, p.usage, p.localWindowMax, p.datagram, p.haveRemoteId⟩

/-- `sshbuf_reset` of the output -/
def Purse.dropOutput (p : Purse) : Purse := { p with output := [] }

/-- window that waits in `extended`; bytes that were read from `efd` are no window -/
def Purse.extHeld (p : Purse) : ℕ := if p.usage = .write then p.extended.length else 0

/-- all the window there is -/
def Purse.total (p : Purse) : ℕ := p.localWindow + p.localConsumed + p.output.length + p.extHeld

/-- the window is all there, as long as there is a channel -/
def Conserved (c : Channel) : Prop := c.status = .live → c.purse.total = c.purse.max

instance (c : Channel) : Decidable (Conserved c) := inferInstanceAs (Decidable (_ → _))

variable {c a b : Channel} {p : Prop}

section Functions

variable {k : Compat} {c : Channel}

/-! ## Functions that throw output away -/

/-- the half that writes is not closed -/
def outputUsed (c : Channel) : Prop := c.ostate = .outOpen ∨ c.ostate = .waitDrain

instance (c : Channel) : Decidable (outputUsed c) := inferInstanceAs (Decidable (_ ∨ _))

theorem purse_sendEow2 (k : Compat) (c : Channel) : (chanSendEow2 k c).purse = c.purse := by
  unfold chanSendEow2
  split_ifs <;> rfl

theorem purse_writeFailed (k : Compat) (h : outputUsed c) : (chanWriteFailed k c).purse = c.purse.dropOutput := by
  have heq : chanWriteFailed k c = chanSetOstate .closed (if (chanShutdownWrite c).ctype = "session".toList then
      chanSendEow2 k (chanShutdownWrite c) else chanShutdownWrite c) := if_pos h
  have hshut : (chanShutdownWrite c).purse = c.purse.dropOutput := congrArg Core.purse core_shutdownWrite
  rw [heq]
  show (if (chanShutdownWrite c).ctype = "session".toList then chanSendEow2 k (chanShutdownWrite c)
    else chanShutdownWrite c).purse = _
  split_ifs
  · rw [purse_sendEow2, hshut]
  · exact hshut

theorem writeFailed_unused (k : Compat) (h : ¬outputUsed c) : chanWriteFailed k c = c := if_neg h

/-- what is left of a channel by functions that do not write -/
structure SameOut (c c' : Channel) : Prop where
  purse : c'.purse = c.purse
  status : c'.status = c.status
  ostate : c'.ostate = c.ostate

variable {c' : Channel}

theorem SameOut.remoteId (h : SameOut c c') : c'.haveRemoteId = c.haveRemoteId :=
  congrArg Purse.haveRemoteId h.purse

theorem SameOut.used (h : SameOut c c') : outputUsed c' ↔ outputUsed c := by
  unfold outputUsed
  rw [h.ostate]

theorem SameOut.refl (c : Channel) : SameOut c c := ⟨rfl, rfl, rfl⟩

theorem SameOut.trans {c'' : Channel} (h : SameOut c c') (h' : SameOut c' c'') : SameOut c c'' :=
  ⟨h'.purse.trans h.purse, h'.status.trans h.status, h'.ostate.trans h.ostate⟩

theorem SameOut.ite [Decidable p] (ha : p → SameOut c a) (hb : ¬p → SameOut c b) :
    SameOut c (if p then a else b) := iteInduction (motive := SameOut c) ha hb

theorem sameOut_readFailed (c : Channel) : SameOut c (chanReadFailed c) := by
  constructor
  all_goals
    unfold chanReadFailed chanShutdownRead
    split_ifs <;> rfl

theorem sameOut_ibufEmpty (hid : c.haveRemoteId = true) : SameOut c (chanIbufEmpty c) := by
  constructor
  all_goals
    unfold chanIbufEmpty chanSendEof2
    split_ifs <;> rfl

theorem status_writeFailed (k : Compat) (hid : c.haveRemoteId = true) : (chanWriteFailed k c).status = c.status := by
  have hcore := core_shutdownWrite (c := c)
  have hid' : (chanShutdownWrite c).haveRemoteId = true := (congrArg Core.haveRemoteId hcore).trans hid
  have hstatus : (chanShutdownWrite c).status = c.status := congrArg Core.status hcore
  unfold chanWriteFailed chanSendEow2 chanSetOstate
  dsimp only
  split_ifs <;> simp_all [Channel.record]

/-- a forced close is a failed write, for the window -/
theorem forceClose_spec (k : Compat) (abandon cleared : Bool) (hid : c.haveRemoteId = true) :
    (channelForceClose k abandon cleared c).status = c.status ∧
      (channelForceClose k abandon cleared c).purse = (chanWriteFailed k c).purse := by
  unfold channelForceClose
  extract_lets c₁ c₂ c₃ c₄ c₅
  have h₁ : SameOut c c₁ := .ite (fun _ => sameOut_readFailed c) fun _ => .refl c
  have h₂ : SameOut c c₂ := by
    refine h₁.trans (.ite (fun _ => ?_) fun _ => .refl c₁)
    have hreset : SameOut c₁ { c₁ with input := [] } := ⟨rfl, rfl, rfl⟩
    exact hreset.trans (sameOut_ibufEmpty (h₁.remoteId.trans hid))
  have h₃ : c₃.status = c.status ∧ c₃.purse = (chanWriteFailed k c).purse := by
    by_cases h : outputUsed c₂
    · have hid' : ({ c₂ with output := [] } : Channel).haveRemoteId = true := h₂.remoteId.trans hid
      have hc₃ : c₃ = chanWriteFailed k { c₂ with output := [] } := if_pos h
      have hused : outputUsed { c₂ with output := [] } := h
      rw [hc₃, status_writeFailed k hid', purse_writeFailed k hused, purse_writeFailed k (h₂.used.1 h), ← h₂.purse]
      exact ⟨h₂.status, rfl⟩
    · have hc₃ : c₃ = c₂ := if_neg h
      rw [hc₃, writeFailed_unused k fun hused => h (h₂.used.2 hused)]
      exact ⟨h₂.status, h₂.purse⟩
  have h₄ : c₄.status = c₃.status ∧ c₄.purse = c₃.purse := by
    show (detach cleared c₃).status = c₃.status ∧ (detach cleared c₃).purse = c₃.purse
    unfold detach
    split_ifs
    · exact ⟨rfl, rfl⟩
    · exact ⟨rfl, rfl⟩
  rw [← h₃.1, ← h₃.2, ← h₄.1, ← h₄.2]
  split_ifs
  · exact ⟨rfl, rfl⟩
  · exact ⟨rfl, rfl⟩

end Functions

/-! ## Functions that move window -/

/-- the same window, and the same channel -/
structure Purse.Same (p p' : Purse) : Prop where
  total : p'.total = p.total
  max : p'.max = p.max
  datagram : p'.datagram = p.datagram
  haveRemoteId : p'.haveRemoteId = p.haveRemoteId

variable {p' : Purse}

theorem Purse.Same.of_eq {p : Purse} (h : p' = p) : p.Same p' := by
  subst h
  exact ⟨rfl, rfl, rfl, rfl⟩

theorem Purse.Same.trans {p p'' : Purse} (h : p.Same p') (h' : p'.Same p'') : p.Same p'' :=
  ⟨h'.total.trans h.total, h'.max.trans h.max, h'.datagram.trans h.datagram, h'.haveRemoteId.trans h.haveRemoteId⟩

theorem Purse.Same.ite {q : Purse} [Decidable p] (ha : p → q.Same a.purse) (hb : ¬p → q.Same b.purse) :
    q.Same (if p then a else b).purse := iteInduction (motive := fun c : Channel => q.Same c.purse) ha hb

/-- an open stream; its window is a `u_int` -/
structure Purse.Sound (p : Purse) : Prop where
  total : p.total = p.max
  max_lt : p.max < 2 ^ 32
  datagram : p.datagram = false
  haveRemoteId : p.haveRemoteId = true

theorem Purse.Sound.same {p : Purse} (h : p.Sound) (hs : p.Same p') : p'.Sound :=
  ⟨by rw [hs.total, hs.max, h.total], by rw [hs.max]; exact h.max_lt, by rw [hs.datagram]; exact h.datagram,
    by rw [hs.haveRemoteId]; exact h.haveRemoteId⟩

section Window

variable {k : Compat} {c : Channel} {p p' : Core}

/-- **The window stays together**, as long as no output is thrown away. -/
theorem same_move (hs : p.purse.Sound) (hm : Move false p p') : p.purse.Same p'.purse := by
  have htotal : p.localWindow + p.localConsumed + p.output.length + p.purse.extHeld = p.localWindowMax := hs.total
  have hmax : p.localWindowMax < 2 ^ 32 := hs.max_lt
  cases hm with
  | dropOutput hd => cases hd
  | @write n =>
    refine ⟨?_, rfl, rfl, rfl⟩
    show p.localWindow + u32 (p.localConsumed + (p.output.length - (p.output.drop n).length)) + (p.output.drop n).length +
      p.purse.extHeld = p.localWindow + p.localConsumed + p.output.length + p.purse.extHeld
    have hle : (p.output.drop n).length ≤ p.output.length := by simp
    rw [u32_of_le (by omega) hmax]
    omega
  | readDatagram hd | skipDatagram hd | loseDatagram hd | writeDatagram hd =>
    exact absurd (hd.symm.trans hs.datagram) (by simp)
  -- these bytes were read here
  | readExt hu | sendExt hu => exact ⟨by simp [Purse.total, Purse.extHeld, Core.purse, hu], rfl, rfl, rfl⟩
  | @writeExt n hu =>
    refine ⟨?_, rfl, rfl, rfl⟩
    simp only [Purse.extHeld, Core.purse, hu, if_true] at htotal
    simp only [Purse.total, Purse.extHeld, Core.purse, hu, if_true]
    rw [u32_of_le (by omega) hmax, List.length_drop]
    omega
  | adjust =>
    refine ⟨?_, rfl, rfl, rfl⟩
    show u32 (p.localWindow + p.localConsumed) + 0 + p.output.length + p.purse.extHeld =
      p.localWindow + p.localConsumed + p.output.length + p.purse.extHeld
    rw [u32_of_le (by omega) hmax]
    omega
  | _ => exact .of_eq rfl

theorem same_does (hs : p.purse.Sound) (h : Does false p p') : p.purse.Same p'.purse := by
  induction h with
  | refl => exact .of_eq rfl
  | tail _ hm ih => exact ih.trans (same_move (hs.same ih) hm)

theorem purse_collect (h : Relation.ReflTransGen Collect p p') : p'.purse = p.purse := by
  induction h with
  | refl => rfl
  | tail _ hc ih => cases hc <;> exact ih

theorem same_apply (hs : c.purse.Sound) (hlive : c.status = .live) {l : Local} (hl : l.drops = false) :
    c.purse.Same (l.apply k c).purse := by
  rcases does_apply k l hlive with h | ⟨-, h⟩ | ⟨-, q, ⟨_, _, hd, -⟩, -⟩
  · rw [hl] at h
    exact same_does (p := c.core) hs h
  · exact .of_eq (purse_collect h)
  · exact absurd (hd.symm.trans hs.datagram) (by simp)

theorem same_input (hs : c.purse.Sound) (k : Compat) {m : Msg} (hm : ¬m.carriesData) : c.purse.Same (channelInput k m c).purse := by
  obtain ⟨q, harr, h⟩ := does_input k m c
  have hq : q.purse = c.purse := by
    cases harr with
    | miss _ hdata => exact absurd hdata hm
    | take _ hdata =>
      rcases hdata with ⟨_, rfl⟩ | ⟨⟨_, _, rfl⟩, -⟩
      · exact absurd trivial hm
      · exact absurd trivial hm
    | _ => rfl
  have hsame := same_does (by rw [hq]; exact hs) h
  rwa [hq] at hsame

end Window

/-! ## Careful events -/

/-- events that shut down an output that is still used -/
def Discards (c : Channel) : Local → Prop
  | .writeFailed => outputUsed c
  | .forceClose _ _ => outputUsed c
  | .handleWfd ready answer =>
    c.type = .opened ∧ (ready && c.wfd) = true ∧ (answer = .fail ∨ answer = .wrote 0) ∧ outputUsed c
  | _ => False

/-- data beyond the window that is still accepted: for a half that is closed without any limit, else up to a tenth of the
window -/
def Overruns (c : Channel) (data : List UInt8) : Prop :=
  takesData c.type ∧ c.localWindow < data.length ∧
    (c.ostate = .outOpen → data.length ≤ c.localMaxpacket ∧
      ¬u32 (c.localWindowExceeded + (data.length - c.localWindow)) > c.localWindowMax / 10)

/-- no unwritten output is thrown away, and no data beyond the window is accepted -/
def Careful (c : Channel) : Event → Prop
  | .here l => c.status = .live → Discards c l → c.output = []
  | .arrives (.data bytes) => c.status = .live → ¬Overruns c bytes
  | .arrives _ => True

/-- the length of a message fits into its length field -/
def Event.sendable : Event → Prop
  | .arrives m => m.size < 2 ^ 32
  | .here _ => True

/-- an event after which the window is all there exactly if `P` -/
structure Tallies (c c' : Channel) (P : Prop) : Prop where
  max : c'.purse.max = c.purse.max
  datagram : c'.purse.datagram = c.purse.datagram
  haveRemoteId : c'.purse.haveRemoteId = c.purse.haveRemoteId
  iff : Conserved c' ↔ P

section Steps

variable {k : Compat} {c c' : Channel} {P : Prop}

theorem Tallies.same (hs : c.purse.Sound) (h : c.purse.Same c'.purse) (hP : P) : Tallies c c' P :=
  ⟨h.max, h.datagram, h.haveRemoteId, iff_of_true (fun _ => (hs.same h).total) hP⟩

theorem Tallies.ite [Decidable p] (ha : p → Tallies c a P) (hb : ¬p → Tallies c b P) :
    Tallies c (if p then a else b) P := iteInduction (motive := (Tallies c · P)) ha hb

theorem Tallies.congr {Q : Prop} (h : Tallies c c' P) (hPQ : P ↔ Q) : Tallies c c' Q := { h with iff := h.iff.trans hPQ }

section
variable (hs : c.purse.Sound)
include hs

theorem tallies_dropOutput (hlive : c'.status = .live) (h : c'.purse = c.purse.dropOutput) :
    Tallies c c' (c.output = []) := by
  have htotal : c.localWindow + c.localConsumed + c.output.length + c.purse.extHeld = c.purse.max := hs.total
  have hdrop : c'.purse.total = c.localWindow + c.localConsumed + 0 + c.purse.extHeld := congrArg Purse.total h
  have hmax : c'.purse.max = c.purse.dropOutput.max := congrArg Purse.max h
  refine ⟨hmax, (congrArg Purse.datagram h).trans rfl, (congrArg Purse.haveRemoteId h).trans rfl, ?_⟩
  unfold Conserved
  rw [hdrop, hmax, ← List.length_eq_zero_iff]
  constructor
  · intro hc
    have : c.localWindow + c.localConsumed + 0 + c.purse.extHeld = c.purse.max := hc hlive
    omega
  · intro hzero _
    show c.localWindow + c.localConsumed + 0 + c.purse.extHeld = c.purse.max
    omega

section
variable (hlive : c.status = .live)
include hlive

theorem tallies_writeFailed (hstatus : c'.status = c.status)
    (h : c'.purse = (chanWriteFailed k c).purse) : Tallies c c' (outputUsed c → c.output = []) := by
  by_cases hused : outputUsed c
  · rw [purse_writeFailed k hused] at h
    refine (tallies_dropOutput hs (hstatus.trans hlive) h).congr ?_
    exact ⟨fun hempty _ => hempty, fun hempty => hempty hused⟩
  · rw [writeFailed_unused k hused] at h
    exact .same hs (.of_eq h) fun hu => absurd hu hused

theorem tallies_handleWfd (ready : Bool) (answer : Write) :
    Tallies c (channelHandleWfd k ready answer c) (Discards c (.handleWfd ready answer) → c.output = []) := by
  unfold channelHandleWfd
  by_cases hready : (ready && c.wfd) = false
  · rw [if_pos hready]
    refine .same hs (.of_eq rfl) ?_
    rintro ⟨-, hw, -⟩
    rw [hready] at hw
    cases hw
  rw [if_neg hready]
  by_cases hempty : c.output = []
  · rw [if_pos hempty]
    exact .same hs (.of_eq rfl) fun _ => hempty
  rw [if_neg hempty, if_neg (by rw [show c.datagram = false from hs.datagram]; simp)]
  have hfail : (answer = .fail ∨ answer = .wrote 0) →
      Tallies c (writeFail k c) (Discards c (.handleWfd ready answer) → c.output = []) := by
    intro hans
    unfold writeFail
    by_cases htype : c.type = .opened
    · rw [if_neg (not_not_intro htype)]
      refine (tallies_writeFailed hs hlive (status_writeFailed k hs.haveRemoteId) rfl).congr ?_
      exact ⟨fun h hd => h hd.2.2.2, fun h hused => h ⟨htype, by simpa using hready, hans, hused⟩⟩
    · rw [if_pos htype]
      exact .same hs (.of_eq rfl) fun hd => absurd hd.1 htype
  cases answer with
  | again =>
    refine .same hs (.of_eq rfl) ?_
    rintro ⟨-, -, h | h, -⟩ <;> cases h
  | fail => exact hfail (Or.inl rfl)
  | wrote n =>
    cases n with
    | zero => exact hfail (Or.inr rfl)
    | succ n =>
      refine .same hs (same_move (p := c.core) hs (.write hs.datagram)) ?_
      rintro ⟨-, -, h | h, -⟩ <;> cases h

theorem tallies_apply (l : Local) : Tallies c (l.apply k c) (Discards c l → c.output = []) := by
  cases l with
  | writeFailed => exact tallies_writeFailed hs hlive (status_writeFailed k hs.haveRemoteId) rfl
  | forceClose abandon cleared =>
    obtain ⟨hstatus, hpurse⟩ := forceClose_spec k abandon cleared hs.haveRemoteId
    exact tallies_writeFailed hs hlive hstatus hpurse
  | handleWfd ready answer =>
    refine .ite (fun _ => tallies_handleWfd hs hlive ready answer) fun hpost => ?_
    exact .same hs (.of_eq rfl) fun hd => absurd (Or.inl hd.1) hpost
  | _ => exact .same hs (same_apply hs hlive rfl) fun hd => hd.elim

end

end

/-! ## Data -/

theorem tallies_ne (hs : c.purse.Sound) (hlive : c'.status = .live) (hmax : c'.purse.max = c.purse.max)
    (hd : c'.purse.datagram = c.purse.datagram) (hid : c'.purse.haveRemoteId = c.purse.haveRemoteId)
    (hne : c'.purse.total ≠ c.purse.total) (hP : ¬P) : Tallies c c' P := by
  refine ⟨hmax, hd, hid, iff_of_false (fun hc => hne ?_) hP⟩
  rw [hc hlive, hmax, hs.total]

theorem tallies_inputData (hs : c.purse.Sound) (hlive : c.status = .live) {data : List UInt8} (hlen : data.length < 2 ^ 32) :
    Tallies c (channelInputData data c) (¬Overruns c data) := by
  have hwin : winLen (c.record (.rcvd (.data data))) data = data.length := by
    unfold winLen
    exact if_neg (by rw [Channel.record, show c.datagram = false from hs.datagram]; simp)
  have htotal : c.localWindow + c.localConsumed + c.output.length + c.purse.extHeld = c.localWindowMax := hs.total
  have hmax : c.localWindowMax < 2 ^ 32 := hs.max_lt
  have hput : ∀ c'' : Channel, c''.datagram = false → (putOutput data c'').output = c''.output ++ data := by
    intro c'' hplain
    simp [putOutput, hplain]
  unfold channelInputData
  extract_lets c₁ c₂
  refine .ite (fun hnot => ?_) fun htakes => .ite (fun hout => ?_) fun hout => .ite (fun hbig => ?_) fun hsmall =>
    .ite (fun hmuch => ?_) fun hfits => ?_
  · exact .same hs (.of_eq rfl) fun ho => hnot ho.1
  · rw [hwin]
    by_cases hfits : data.length ≤ c.localWindow
    · refine .same hs ⟨?_, rfl, rfl, rfl⟩ fun ho => absurd ho.2.1 (by omega)
      show c.localWindow - data.length + u32 (c.localConsumed + data.length) + c.output.length + c.purse.extHeld =
        c.localWindow + c.localConsumed + c.output.length + c.purse.extHeld
      rw [u32_of_le (w := c.localWindowMax) (by omega) hmax]
      omega
    · refine tallies_ne hs hlive rfl rfl rfl ?_ (not_not_intro ⟨not_not.1 htakes, by omega, fun h => absurd h hout⟩)
      show c.localWindow - data.length + u32 (c.localConsumed + data.length) + c.output.length + c.purse.extHeld ≠
        c.localWindow + c.localConsumed + c.output.length + c.purse.extHeld
      unfold u32
      omega
  · refine .same hs (.of_eq rfl) fun ho => ?_
    have hbig' : data.length > c.localMaxpacket := by rwa [hwin] at hbig
    exact absurd (ho.2.2 (not_not.1 hout)).1 (by omega)
  · have hmuch' : data.length > c.localWindow := by rwa [hwin] at hmuch
    have hsmall' : ¬data.length > c.localMaxpacket := by rwa [hwin] at hsmall
    have hexceeded : c₂.localWindowExceeded = u32 (c.localWindowExceeded + (data.length - c.localWindow)) := by
      show u32 (c.localWindowExceeded + (winLen c₁ data - c.localWindow)) = _
      rw [hwin]
    rw [hexceeded]
    refine .ite (fun hgrace => ?_) fun hgrace => ?_
    · refine ⟨rfl, rfl, rfl, iff_of_true (fun hl => by cases hl) fun ho => ?_⟩
      exact (ho.2.2 (not_not.1 hout)).2 hgrace
    refine tallies_ne hs hlive rfl rfl rfl ?_
      (not_not_intro ⟨not_not.1 htakes, hmuch', fun _ => ⟨by omega, hgrace⟩⟩)
    show 0 + c.localConsumed + (putOutput data c₂).output.length + c.purse.extHeld ≠
      c.localWindow + c.localConsumed + c.output.length + c.purse.extHeld
    rw [hput c₂ hs.datagram, List.length_append]
    show 0 + c.localConsumed + (c.output.length + data.length) + c.purse.extHeld ≠ _
    omega
  · rw [hwin]
    have hfits' : ¬data.length > c.localWindow := by rwa [hwin] at hfits
    refine .same hs ⟨?_, rfl, rfl, rfl⟩ fun ho => absurd ho.2.1 (by omega)
    show c.localWindow - data.length + c.localConsumed +
      (putOutput data { c₁ with localWindow := c₁.localWindow - data.length, localWindowExceeded := 0 }).output.length +
        c.purse.extHeld = c.localWindow + c.localConsumed + c.output.length + c.purse.extHeld
    rw [hput { c₁ with localWindow := c₁.localWindow - data.length, localWindowExceeded := 0 } hs.datagram, List.length_append]
    show c.localWindow - data.length + c.localConsumed + (c.output.length + data.length) + c.purse.extHeld = _
    omega

/-- extended data is taken only if it fits -/
theorem same_inputExtendedData (k : Compat) (tcode : ℕ) (data : List UInt8) (c : Channel) :
    c.purse.Same (channelInputExtendedData k tcode data c).purse := by
  unfold channelInputExtendedData
  extract_lets c₁
  refine .ite (fun _ => .of_eq rfl) fun _ => .ite (fun _ => .of_eq rfl) fun _ => .ite (fun _ => .of_eq rfl) fun hgood =>
    .ite (fun _ => .of_eq rfl) fun hfits => ⟨?_, rfl, rfl, rfl⟩
  have hwrite : c.extendedUsage = .write := by
    by_contra h
    exact hgood (Or.inr (Or.inl h))
  have hfits' : ¬data.length > c.localWindow := hfits
  simp only [Purse.total, Purse.extHeld, Channel.purse, c₁, Channel.record, hwrite, if_true, List.length_append]
  omega

/-- **One event.** It keeps the window together exactly if it is careful. -/
theorem tallies_step (hs : c.purse.Sound) (hlive : c.status = .live) {e : Event} (he : e.sendable) :
    Tallies c (step k c e) (Careful c e) := by
  unfold step
  rw [if_neg (not_not_intro hlive)]
  cases e with
  | here l =>
    refine (tallies_apply hs hlive l).congr ?_
    exact ⟨fun h _ => h, fun h => h hlive⟩
  | arrives m =>
    cases m with
    | data bytes =>
      refine (tallies_inputData hs hlive he).congr ?_
      exact ⟨fun h _ => h, fun h => h hlive⟩
    | extendedData tcode bytes => exact .same hs (same_inputExtendedData k tcode bytes c) trivial
    | _ => exact .same hs (same_input hs k id) trivial

theorem careful_gone (hgone : c.status ≠ .live) (e : Event) : Careful c e := by
  cases e with
  | here l => exact fun hl => absurd hl hgone
  | arrives m => cases m <;> first | exact fun hl => absurd hl hgone | trivial

end Steps

/-! ## Runs -/

theorem always_conserved_iff (k : Compat) (hc : c.status = .live → c.purse.Sound) {es : List Event}
    (hes : ∀ e ∈ es, e.sendable) :
    Always (step k) (fun c e => Conserved (step k c e)) c es ↔ Always (step k) Careful c es := by
  induction es generalizing c with
  | nil => exact Iff.rfl
  | cons e es ih =>
    have he := hes e List.mem_cons_self
    have hrest : ∀ e' ∈ es, e'.sendable := fun e' h => hes e' (List.mem_cons_of_mem e h)
    by_cases hlive : c.status = .live
    · have ht := tallies_step (k := k) (hc hlive) hlive he
      have hnext : Conserved (step k c e) → (step k c e).status = .live → (step k c e).purse.Sound := by
        intro hcons hl
        refine ⟨hcons hl, ?_, ?_, ?_⟩
        · rw [ht.max]; exact (hc hlive).max_lt
        · rw [ht.datagram]; exact (hc hlive).datagram
        · rw [ht.haveRemoteId]; exact (hc hlive).haveRemoteId
      constructor
      · rintro ⟨h, htail⟩
        exact ⟨ht.iff.1 h, (ih (hnext h) hrest).1 htail⟩
      · rintro ⟨h, htail⟩
        have hcons := ht.iff.2 h
        exact ⟨hcons, (ih (hnext hcons) hrest).2 htail⟩
    · have hgone : Conserved c := fun hl => absurd hl hlive
      simp only [Always, careful_gone hlive, true_and, show ∀ e, step k c e = c from fun _ => if_pos hlive, hgone]
      exact ih hc hrest

/-- an open stream channel -/
def openStream (p : Params) : Channel := channelNew { p with type := .opened, datagram := false, haveRemoteId := true }

/-- **Credit.** In every run of an open stream channel, `local_window`, `local_consumed` and the bytes in `output` and
`extended` add up to `local_window_max` in each state exactly if each event is careful: no unwritten output is thrown away by a
failed write or a forced close, and no data beyond the window is accepted. -/
theorem credit_conserved_iff (k : Compat) (p : Params) (es : List Event) (hes : ∀ e ∈ es, e.sendable) :
    Always (step k) (fun c e => Conserved (step k c e)) (openStream p) es ↔ Always (step k) Careful (openStream p) es := by
  have hsound : (openStream p).purse.Sound := by
    refine ⟨?_, p.window.toNat_lt, rfl, rfl⟩
    have hext : (openStream p).purse.extHeld = 0 := ite_self 0
    rw [Purse.total, hext]
    rfl
  exact always_conserved_iff k (fun _ => hsound) hes

/-- a session with a window of 100 bytes -/
def smallSession : Params where
  type := .opened
  ctype := "session".toList
  haveRemoteId := true
  rfd := true
  wfd := true
  sock := false
  efd := false
  isatty := false
  forceDrain := false
  datagram := false
  extendedUsage := .ignore
  remoteWindow := 100
  remoteMaxpacket := 50
  window := 100
  maxpack := 50
  detachUser := false
  detachClose := false

/-- five bytes arrive, and are written -/
theorem credit_conserved_written :
    Always (step ⟨true, false⟩) (fun c e => Conserved (step ⟨true, false⟩ c e)) (openStream smallSession)
      [.arrives (.data [1, 2, 3, 4, 5]), .here (.handleWfd true (.wrote 5))] := by
  refine (credit_conserved_iff ⟨true, false⟩ smallSession _ ?_).2 ?_
  · intro e he
    simp only [List.mem_cons, List.not_mem_nil, or_false] at he
    rcases he with rfl | rfl
    · exact show 5 < 2 ^ 32 by norm_num
    · trivial
  · refine ⟨?_, ?_, trivial⟩
    · rintro - ⟨-, h, -⟩
      exact absurd h (by decide)
    · rintro - ⟨-, -, h | h, -⟩ <;> cases h

/-- **A failed write loses credit.** Five bytes arrive and cannot be written: the channel is open as before, and five bytes of
its window are in no place. -/
theorem failed_write_loses_credit :
    let c := run (step ⟨true, false⟩) (openStream smallSession)
      [.arrives (.data [1, 2, 3, 4, 5]), .here (.handleWfd true .fail)]
    c.status = .live ∧ c.type = .opened ∧ c.istate = .inOpen ∧ c.purse.total + 5 = c.localWindowMax := by
  decide +kernel

end OpenSSHServerPN.Channels
