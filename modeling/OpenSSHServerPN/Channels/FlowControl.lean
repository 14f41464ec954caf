/-
Flow control between the two ends of a stream channel (`channels.c`).

`Pair` has a channel on each side. What one side sent and the other has not received is on the link, in order: the next message
for a side is the first in the list of the other that is not in its own list of received messages. On each side anything may
happen at any time (`Local`): reads, writes, partial writes, polls, window adjustments, failures and closing.

The ledger of one side bounds its `remote_window` by what it sent and got back; the ledger of the other side bounds its
`local_window` from below by what it received and gave back (`Stream`). Together (`link_bound`):

  remote_window + data on the link + credit on the link ≤ local_window of the other side.

So the next message always fits, and both sides stay streams (`linked_run`). Results:
- `stream_flow_control`: over every run, in both directions, no more data arrives than the window has, `remote_window` is within
  `local_window` and the credit on the link, and what is written on one side is a prefix of what was read on the other.
-/
import OpenSSHServerPN.Channels.Stream
import OpenSSHServerPN.Lib.Runs

namespace OpenSSHServerPN.Channels

open Runs Wire List

/-! ## The two ends -/

structure Pair where
  a : Channel
  b : Channel

inductive PairEvent where
  /-- something happens at one end -/
  | atA (l : Local)
  | atB (l : Local)
  /-- the next message arrives -/
  | toA
  | toB
  deriving DecidableEq, Repr

/-- the messages that are still on the link -/
def inFlight (sender receiver : Channel) : List Msg := (sends sender.trace).drop (rcvds receiver.trace).length

/-- the next message arrives -/
def deliver (k : Compat) (sender receiver : Channel) : Channel :=
  match inFlight sender receiver with
  | [] => receiver
  | m :: _ => step k receiver (.arrives m)

/-- the two sides may have different bugs -/
def pairStep (kA kB : Compat) (s : Pair) : PairEvent → Pair
  | .atA l => { s with a := step kA s.a (.here l) }
  | .atB l => { s with b := step kB s.b (.here l) }
  | .toA => { s with a := deliver kA s.b s.a }
  | .toB => { s with b := deliver kB s.a s.b }

/-- how a channel was opened: what each side chose, and whether it opened its window only afterwards
(`channel_set_fds` of a larval session) -/
structure Opening where
  a : Params
  b : Params
  lateA : Bool
  lateB : Bool

/-- one end of a stream; `lateHere`: the window was opened with a `WINDOW_ADJUST` -/
def openEnd (here there : Params) (lateHere lateThere : Bool) : Channel :=
  let c := channelNew { here with
    type := .opened
    datagram := false
    remoteWindow := if lateThere then 0 else there.window
    remoteMaxpacket := there.maxpack }
  if lateHere then c.record (.sent (.windowAdjust c.localWindow)) else c

def opened (o : Opening) : Pair := ⟨openEnd o.a o.b o.lateA o.lateB, openEnd o.b o.a o.lateB o.lateA⟩

/-! ## The link -/

/-- the limits of both ends, as they were agreed on -/
structure Agreed (la lb : Limits) : Prop where
  window : la.peerWindow = lb.advertised
  maxpacket : la.peerMaxpacket = lb.maxpacket

/-- an invariant at each end, and each end received a part of what the other sent -/
structure Linked (I J : Core → Prop) (s : Pair) : Prop where
  a : I s.a.core
  b : J s.b.core
  ab : rcvds s.b.trace <+: sends s.a.trace
  ba : rcvds s.a.trace <+: sends s.b.trace

theorem sends_append (t t' : List Act) : sends (t ++ t') = sends t ++ sends t' := by simp [sends]

variable {sender receiver : Channel}

/-- what was sent was received, or is on the link -/
theorem sends_eq (h : rcvds receiver.trace <+: sends sender.trace) :
    sends sender.trace = rcvds receiver.trace ++ inFlight sender receiver := by
  obtain ⟨rest, hrest⟩ := h
  rw [inFlight, ← hrest, drop_left]

variable {la lb : Limits} {ms : List Msg} {c : Channel}

/-- **Conservation.** What a side may still send, with what is on the link, is within the window of the other side. -/
theorem link_bound (hagreed : Agreed la lb) (hs : Stream la sender.core)
    (hr : Stream lb receiver.core) (hab : rcvds receiver.trace <+: sends sender.trace)
    (hba : rcvds sender.trace <+: sends receiver.trace) :
    sender.remoteWindow + sizes (inFlight sender receiver) + credits (inFlight receiver sender) ≤ receiver.localWindow := by
  have hspent : sender.remoteWindow + sizes (sends sender.trace) ≤ la.peerWindow + credits (rcvds sender.trace) :=
    hs.sending.spent
  have hgranted : lb.advertised + credits (sends receiver.trace) ≤ receiver.localWindow + sizes (rcvds receiver.trace) :=
    hr.receiving.granted
  rw [sends_eq hab, sizes_append, hagreed.window] at hspent
  rw [sends_eq hba, credits_append] at hgranted
  omega

variable {I : Core → Prop}

theorem rcvds_of_flows {c' : Channel} (h : Flows I ms c.core c'.core) : rcvds c'.trace = rcvds c.trace ++ ms := by
  obtain ⟨t, ht, hms⟩ := h.trace
  rw [show c'.trace = c.trace ++ t from ht, rcvds_append, hms]

theorem sends_of_flows {c' : Channel} (h : Flows I ms c.core c'.core) : sends c.trace <+: sends c'.trace := by
  obtain ⟨t, ht, -⟩ := h.trace
  rw [show c'.trace = c.trace ++ t from ht, sends_append]
  exact prefix_append _ _

theorem flows_here (lim : Limits) (k : Compat) (c : Channel) (l : Local) : Flows (Stream lim) [] c.core
    (step k c (.here l)).core := by
  exact .ite (fun _ => .refl _) fun hlive => flows_apply k l (not_not.1 hlive)

/-- a live receiver gets the first message that is in flight -/
theorem flows_first (k : Compat)
    (hin : ∀ m rest, inFlight sender receiver = m :: rest → receiver.status = .live →
      Flows I [m] receiver.core (channelInput k m receiver).core) :
    ∃ ms, ms <+: inFlight sender receiver ∧ Flows I ms receiver.core (deliver k sender receiver).core := by
  unfold deliver
  cases hnext : inFlight sender receiver with
  | nil => exact ⟨[], nil_prefix, .refl _⟩
  | cons m rest =>
    by_cases hlive : receiver.status = .live
    · refine ⟨[m], ⟨rest, rfl⟩, ?_⟩
      simp only [step, hlive]
      exact hin m rest hnext hlive
    · refine ⟨[], nil_prefix, ?_⟩
      simp only [step, ne_eq, hlive]
      exact .refl _

theorem flows_deliver (k : Compat) (hagreed : Agreed la lb)
    (hs : Stream la sender.core) (hr : Stream lb receiver.core) (hab : rcvds receiver.trace <+: sends sender.trace)
    (hba : rcvds sender.trace <+: sends receiver.trace) :
    ∃ ms, ms <+: inFlight sender receiver ∧ Flows (Stream lb) ms receiver.core (deliver k sender receiver).core := by
  refine flows_first k fun m rest hnext hlive => ?_
  have hbound := link_bound hagreed hs hr hab hba
  rw [hnext, sizes, map_cons, sum_cons] at hbound
  have hmem : m ∈ sends sender.trace := by
    rw [sends_eq hab, hnext]
    simp
  have hsmall : m.size ≤ receiver.localMaxpacket := by
    have := hs.sending.small m hmem
    rw [hagreed.maxpacket, ← hr.maxpacket] at this
    exact this
  exact flows_input k hlive hr.plain (by omega) hsmall

section Link

variable {I J : Core → Prop} {s : Pair}

theorem Linked.swap (h : Linked I J s) : Linked J I ⟨s.b, s.a⟩ := ⟨h.b, h.a, h.ba, h.ab⟩

theorem Linked.moveA (h : Linked I J s) (hf : ∃ ms, ms <+: inFlight s.b s.a ∧ Flows I ms s.a.core c.core) :
    Linked I J { s with a := c } := by
  obtain ⟨ms, hms, hf⟩ := hf
  refine ⟨hf.kept h.a, h.b, h.ab.trans (sends_of_flows hf), ?_⟩
  rw [rcvds_of_flows hf, sends_eq h.ba]
  exact (prefix_append_right_inj _).2 hms

theorem Linked.moveB (h : Linked I J s) (hf : ∃ ms, ms <+: inFlight s.a s.b ∧ Flows J ms s.b.core c.core) :
    Linked I J { s with b := c } := (h.swap.moveA hf).swap

end Link

variable {s : Pair}

section
variable (h : Linked (Stream la) (Stream lb) s)
include h

theorem Linked.here (k : Compat) (l : Local) : Linked (Stream la) (Stream lb) { s with a := step k s.a (.here l) } :=
  h.moveA ⟨[], nil_prefix, flows_here la k s.a l⟩

theorem Linked.deliver (hagreed : Agreed la lb) (k : Compat) :
    Linked (Stream la) (Stream lb) { s with b := deliver k s.a s.b } :=
  h.moveB (flows_deliver k hagreed h.a h.b h.ab h.ba)

theorem Linked.step (hab : Agreed la lb)
    (hba : Agreed lb la) (kA kB : Compat) (e : PairEvent) : Linked (Stream la) (Stream lb) (pairStep kA kB s e) := by
  cases e with
  | atA l => exact h.here kA l
  | atB l => exact (h.swap.here kB l).swap
  | toA => exact (h.swap.deliver hba kA).swap
  | toB => exact h.deliver hab kB

end

/-! ## Runs -/

/-- the limits of an end -/
def limits (here there : Params) (lateHere lateThere : Bool) : Limits where
  window := here.window.toNat
  advertised := if lateHere then 0 else here.window.toNat
  maxpacket := here.maxpack.toNat
  peerWindow := if lateThere then 0 else there.window.toNat
  peerMaxpacket := there.maxpack.toNat
  window_lt := here.window.toNat_lt

theorem agreed_limits (here there : Params) (lateHere lateThere : Bool) :
    Agreed (limits here there lateHere lateThere) (limits there here lateThere lateHere) := ⟨rfl, rfl⟩

theorem stream_openEnd (here there : Params) (lateHere lateThere : Bool) :
    Stream (limits here there lateHere lateThere) (openEnd here there lateHere lateThere).core := by
  cases lateHere <;> cases lateThere <;>
    refine ⟨rfl, Or.inl rfl, rfl, rfl, ⟨?_, ?_, ?_, ?_, ?_, ?_⟩, ⟨?_, ?_, ?_, ?_, ?_, ?_, ?_, ?_⟩⟩ <;>
    simp [limits, openEnd, channelNew, Channel.core, Channel.record, sends, rcvds, reads, readsExt, writes, writesExt]

theorem rcvds_openEnd (here there : Params) (lateHere lateThere : Bool) :
    rcvds (openEnd here there lateHere lateThere).trace = [] := by
  cases lateHere <;> rfl

theorem linked_opened (o : Opening) :
    Linked (Stream (limits o.a o.b o.lateA o.lateB)) (Stream (limits o.b o.a o.lateB o.lateA)) (opened o) := by
  refine ⟨stream_openEnd .., stream_openEnd .., ?_, ?_⟩
  · show rcvds (openEnd o.b o.a o.lateB o.lateA).trace <+: _
    rw [rcvds_openEnd]
    exact nil_prefix
  · show rcvds (openEnd o.a o.b o.lateA o.lateB).trace <+: _
    rw [rcvds_openEnd]
    exact nil_prefix

theorem linked_run (kA kB : Compat) (o : Opening) (es : List PairEvent) :
    Linked (Stream (limits o.a o.b o.lateA o.lateB)) (Stream (limits o.b o.a o.lateB o.lateA))
      (run (pairStep kA kB) (opened o) es) :=
  run_inv_all (I := Linked _ _) (fun _ e h => h.step (agreed_limits ..) (agreed_limits ..) kA kB e) es (linked_opened o)

/-- flow control in one direction -/
structure Controlled (sender receiver : Channel) : Prop where
  /-- `rcvd too much data` and `rcvd too much extended_data` are not logged -/
  data : .logit .tooMuchData ∉ receiver.trace
  extended : .logit .tooMuchExtendedData ∉ receiver.trace
  window : sender.remoteWindow ≤ receiver.localWindow + credits (inFlight receiver sender)
  bytes : writes receiver.trace <+: reads sender.trace
  extBytes : writesExt receiver.trace <+: readsExt sender.trace

theorem dataOf_prefix {ms' : List Msg} (h : ms <+: ms') : dataOf ms <+: dataOf ms' := by
  obtain ⟨rest, rfl⟩ := h
  rw [dataOf_append]
  exact prefix_append _ _

theorem extOf_prefix {ms' : List Msg} (h : ms <+: ms') : extOf ms <+: extOf ms' := by
  obtain ⟨rest, rfl⟩ := h
  rw [extOf_append]
  exact prefix_append _ _

/-- what was sent for `stderr` was read from `efd` -/
theorem extOf_sends_prefix {lim : Limits} {p : Core} (h : Stream lim p) : extOf (sends p.trace) <+: readsExt p.trace := by
  by_cases hread : p.usage = .read
  · rw [h.sending.ext hread]
    exact prefix_append _ _
  · rw [h.sending.noExt hread]
    exact nil_prefix

/-- what was written to `efd` was received -/
theorem writesExt_prefix {lim : Limits} {p : Core} (h : Stream lim p) : writesExt p.trace <+: extOf (rcvds p.trace) := by
  by_cases hwrite : p.usage = .write
  · exact (prefix_append _ _).trans (h.receiving.ext hwrite)
  · rw [h.receiving.noExt hwrite]
    exact nil_prefix

theorem Linked.controlled (h : Linked (Stream la) (Stream lb) s) (hagreed : Agreed la lb) : Controlled s.a s.b := by
  refine ⟨h.b.receiving.fits.1, h.b.receiving.fits.2, ?_, ?_, ?_⟩
  · have := link_bound hagreed h.a h.b h.ab h.ba
    omega
  · calc writes s.b.trace <+: writes s.b.trace ++ s.b.output := prefix_append _ _
      _ <+: dataOf (rcvds s.b.trace) := h.b.receiving.stream
      _ <+: dataOf (sends s.a.trace) := dataOf_prefix h.ab
      _ <+: reads s.a.trace := h.a.sending.stream
  · calc writesExt s.b.trace <+: extOf (rcvds s.b.trace) := writesExt_prefix h.b
      _ <+: extOf (sends s.a.trace) := extOf_prefix h.ab
      _ <+: readsExt s.a.trace := extOf_sends_prefix h.a

/-- **Flow control.** However a stream channel was opened and whatever happens at both ends, in both directions: no more data
arrives than the window has, `remote_window` is within `local_window` of the other side and the credit on the link, and the
bytes written on one side are a prefix of the bytes read on the other. -/
theorem stream_flow_control (kA kB : Compat) (o : Opening) (es : List PairEvent) :
    Controlled (run (pairStep kA kB) (opened o) es).a (run (pairStep kA kB) (opened o) es).b ∧
      Controlled (run (pairStep kA kB) (opened o) es).b (run (pairStep kA kB) (opened o) es).a := by
  have h := linked_run kA kB o es
  exact ⟨h.controlled (agreed_limits ..), h.swap.controlled (agreed_limits ..)⟩

end OpenSSHServerPN.Channels
