/-
The window of a datagram channel, a tunnel (`channels.c`: `channel_output_poll_input_open`, `channel_input_data`,
`channel_handle_wfd`, `channel_check_window`).

A datagram of `n` bytes is sent as the string of a `DATA` message, and the sender lowers `remote_window` by `n`. The receiver
keeps it in `output` with its length in front: it lowers `local_window` by `n + 4`, and what it gives back once the datagram is
written is `n + 4` too. So the two sides disagree by four bytes for each datagram, and the sender is given back more than it
spent: `remote_window` grows beyond the window of the receiver.

- `Charges cost`: in one step, a datagram `d` costs `cost d` at the sender and at the receiver, and is credited as `cost d`.
- `Balanced`: some `cost` fits every step of a run, and whenever nothing is on the link, `remote_window` of the sender is
  `local_window` of the receiver.

Results:
- `posts_move`: the queue of the sender holds datagrams that are not empty, and its window is lowered by their bytes;
- `inputData_charges`: a receiver never charges and owes what the sender paid, whatever state it is in;
- `datagram_windows_balanced_iff`: a run is balanced exactly if no datagram arrives in it;
- `one_datagram_unbalances`: a datagram of one byte.
-/
import OpenSSHServerPN.Channels.FlowControl

namespace OpenSSHServerPN.Channels

open Runs Wire List

/-! ## Two ends of a tunnel -/

/-- one end: it has no `efd`, and the window of the other side is the one this side starts with -/
def openTunnel (here there : Params) : Channel :=
  channelNew { here with
    type := .opened
    datagram := true
    haveRemoteId := true
    efd := false
    extendedUsage := .ignore
    remoteWindow := there.window
    remoteMaxpacket := there.maxpack }

def tunnel (a b : Params) : Pair := ⟨openTunnel a b, openTunnel b a⟩

/-- nothing is on the link -/
def Quiescent (s : Pair) : Prop := inFlight s.a s.b = [] ∧ inFlight s.b s.a = []

/-- the window that a receiver has still to give back: for what was written, and for what waits in `output` -/
def owed (c : Channel) : ℕ := c.localConsumed + c.output.length

/-- a datagram `d` costs `cost d` where it is sent and where it is received, and this is given back for it; `a` is the sender -/
structure Charges (cost : List UInt8 → ℕ) (kA kB : Compat) (s : Pair) (e : PairEvent) : Prop where
  sent : ∀ d, e = .atA .outputPoll → (pairStep kA kB s e).a.trace = s.a.trace ++ [.sent (.data d)] →
    s.a.remoteWindow = (pairStep kA kB s e).a.remoteWindow + cost d
  received : ∀ d, e = .toB → s.b.status = .live → (inFlight s.a s.b).head? = some (.data d) →
    s.b.localWindow = (pairStep kA kB s e).b.localWindow + cost d ∧ owed (pairStep kA kB s e).b = owed s.b + cost d
  credited : ∀ ready answer d rest, e = .atB (.handleWfd ready answer) → s.b.output = putString d ++ rest →
    (pairStep kA kB s e).b.output = rest → (pairStep kA kB s e).b.localConsumed = u32 (s.b.localConsumed + cost d)

/-- every datagram of a run has one cost, and the windows agree whenever the link is quiet -/
structure Balanced (kA kB : Compat) (s : Pair) (es : List PairEvent) : Prop where
  charges : ∃ cost, Always (pairStep kA kB) (Charges cost kA kB) s es
  windows : ∀ pre, pre <+: es → Quiescent (run (pairStep kA kB) s pre) →
    (run (pairStep kA kB) s pre).a.remoteWindow = (run (pairStep kA kB) s pre).b.localWindow

/-- the event is not the arrival of a datagram -/
def NoDatagram (s : Pair) (e : PairEvent) : Prop :=
  ∀ d, e = .toB → s.b.status = .live → (inFlight s.a s.b).head? ≠ some (.data d)

/-- an invariant of tunnels that is kept by everything but a datagram that is sent or received -/
structure Carries (I : Core → Prop) : Prop where
  usage : ∀ {p}, I p → p.usage = .ignore
  move : ∀ {drops p p'}, Move drops p p' → I p → I p'
  collect : ∀ {p p'}, Collect p p' → I p → I p'
  arrives : ∀ {m p p'}, (∀ d, m ≠ .data d) → Arrives m p p' → I p → I p'

/-! ## The sender -/

/-- the side that sends: `w` is the window it started with, and `S` has the datagrams that it sent -/
structure Posts (w : UInt32) (S : Set (List UInt8)) (p : Core) : Prop where
  datagram : p.datagram = true
  usage : p.usage = .ignore
  queue : ∃ ds : List (List UInt8), p.input = ds.flatMap putString ∧ ∀ d ∈ ds, d ≠ [] ∧ d.length ≤ CHAN_RBUF
  kinds : ∀ m ∈ sends p.trace, (m.size = 0 ∧ ∀ d, m ≠ .data d) ∨ ∃ d ∈ S, m = .data d ∧ d ≠ []
  spent : credits (rcvds p.trace) = 0 → p.remoteWindow + sizes (sends p.trace) = w.toNat

variable {p' : Core} {m : Msg}

section Sender

variable {w : UInt32} {S : Set (List UInt8)} {p : Core}

theorem Posts.record (h : Posts w S p) {a : Act} (hs : ∀ m ∈ a.sends, m.size = 0 ∧ ∀ d, m ≠ .data d)
    (hr : credits a.rcvds = 0) : Posts w S { p with trace := p.trace ++ [a] } := by
  have hsizes : sizes a.sends = 0 := sum_eq_zero (by simpa using fun m hm => (hs m hm).1)
  refine { h with kinds := ?_, spent := ?_ }
  · intro m hm
    rw [sends_snoc, mem_append] at hm
    rcases hm with hm | hm
    · exact h.kinds m hm
    · exact Or.inl (hs m hm)
  · rw [sends_snoc, rcvds_snoc, sizes_append, credits_append, hsizes, hr]
    exact h.spent

theorem Posts.pop (h : Posts w S p) {pkt rest : List UInt8} (hget : getString maxString p.input = some (pkt, rest)) :
    pkt ≠ [] ∧ Posts w S { p with input := rest } := by
  obtain ⟨ds, hin, hds⟩ := h.queue
  cases ds with
  | nil =>
    rw [hin] at hget
    cases hget
  | cons d ds =>
    have hd := hds d (by simp)
    have hdec : getString maxString p.input = some (d, ds.flatMap putString) := by
      rw [hin]
      refine decodes_getString (by norm_num [maxString]) ?_ _
      exact hd.2.trans (by norm_num [CHAN_RBUF, maxString])
    rw [hdec] at hget
    cases hget
    exact ⟨hd.1, { h with queue := ⟨ds, rfl, fun d' hd' => hds d' (mem_cons_of_mem _ hd')⟩ }⟩

theorem posts_move {drops : Bool} (hm : Move drops p p') (h : Posts w S p) : Posts w S p' := by
  cases hm with
  | dropInput => exact { h with queue := ⟨[], rfl, by simp⟩ }
  | sendEof => exact { h.record (by simp) rfl with }
  | sendEow => exact h.record (by simp) rfl
  | @readDatagram bytes _ hne hlen =>
    have hrec := h.record (a := .readRfd bytes) (by simp) rfl
    obtain ⟨ds, hin, hds⟩ := h.queue
    refine { hrec with queue := ⟨ds ++ [bytes], ?_, ?_⟩ }
    · simp [hin]
    · intro d hd
      rw [mem_append, mem_singleton] at hd
      rcases hd with hd | rfl
      · exact hds d hd
      · exact ⟨hne, hlen⟩
  | skipDatagram _ hget => exact (h.pop hget).2
  | @writeDatagram bytes => exact { h.record (by simp) rfl with }
  | adjust => exact { h.record (by simp) rfl with }
  -- a tunnel is no stream, and has no `efd`
  | read hd | send hd | write hd => exact absurd (hd.symm.trans h.datagram) (by simp)
  | readExt hu | sendExt hu | writeExt hu => exact absurd (hu.symm.trans h.usage) (by simp)
  | _ => exact { h with }

theorem posts_collect (hc : Collect p p') (h : Posts w S p) : Posts w S p' := by
  cases hc with
  | sendClose => exact { h.record (by simp) rfl with }
  | _ => exact { h with }

theorem Posts.log (h : Posts w S p) (hm : m.credit = 0) (logs : List LogLine) :
    Posts w S { p with trace := p.trace ++ .rcvd m :: logs.map .logit } := by
  refine { h with kinds := ?_, spent := ?_ }
  · rw [sends_data]
    exact h.kinds
  · rw [sends_data, rcvds_data, credits_append, credits_singleton, hm]
    exact h.spent

theorem Posts.adjusted (h : Posts w S p) {n r : ℕ} (hr : n = 0 → r = u32 p.remoteWindow ∨ r = p.remoteWindow) :
    Posts w S { p with trace := p.trace ++ [.rcvd (.windowAdjust n)], remoteWindow := r } := by
  refine { h with kinds := by simpa using h.kinds, spent := ?_ }
  intro hzero
  simp only [rcvds_snoc, Act.rcvds, credits_append, credits_singleton, Msg.credit] at hzero
  have hspent := h.spent (by omega)
  have hw := w.toNat_lt
  have hu : u32 p.remoteWindow = p.remoteWindow := Nat.mod_eq_of_lt (by omega)
  have hsame : r = p.remoteWindow := by
    rcases hr (by omega) with hr | hr
    · rw [hr, hu]
    · exact hr
  simpa [hsame] using hspent

theorem posts_arrives (ha : Arrives m p p') (h : Posts w S p) : Posts w S p' := by
  cases ha with
  | eof | eow => exact h.record (by simp) rfl
  | close => exact { h.record (by simp) rfl with }
  | adjust => exact h.adjusted fun hn => Or.inl (by rw [hn, Nat.add_zero])
  | overflow => exact { h.adjusted fun _ => Or.inr rfl with }
  | miss logs hm ht =>
    subst ht
    refine { h.log ?_ logs with }
    cases m <;> first | rfl | exact hm.elim
  | take logs hm ht =>
    subst ht
    refine { h.log ?_ logs with }
    rcases hm with ⟨_, rfl⟩ | ⟨⟨_, _, rfl⟩, -⟩ <;> rfl

theorem carries_posts (w : UInt32) (S : Set (List UInt8)) : Carries (Posts w S) :=
  ⟨fun h => h.usage, posts_move, posts_collect, fun _ => posts_arrives⟩

theorem Posts.post (h : Posts w S p) (hpost : Posted p p')
    (hS : ∀ pkt, p'.trace = p.trace ++ [.sent (.data pkt)] → p.remoteWindow = p'.remoteWindow + pkt.length → pkt ∈ S) :
    Posts w S p' := by
  obtain ⟨pkt, rest, -, -, -, hget, hlen, rfl⟩ := hpost
  obtain ⟨hne, hpop⟩ := h.pop hget
  have hmem : pkt ∈ S := hS pkt rfl (by dsimp only; omega)
  refine { hpop with kinds := ?_, spent := ?_ }
  · intro m hm
    simp only [sends_snoc, Act.sends, mem_append, mem_singleton] at hm
    rcases hm with hm | rfl
    · exact h.kinds m hm
    · exact Or.inr ⟨pkt, hmem, rfl, hne⟩
  · intro hzero
    have hspent := h.spent (by simpa using hzero)
    simp only [sends_snoc, Act.sends, sizes_append, sizes_singleton, Msg.size]
    omega

theorem flows_posts_inputData (w : UInt32) (S : Set (List UInt8)) (data : List UInt8) (c : Channel) :
    Flows (Posts w S) [.data data] c.core (channelInputData data c).core :=
  .of_arrives posts_arrives (posts_move : ∀ {q q'}, Move true q q' → _) (arrives_inputData data c) .refl

end Sender

/-! ## A receiver without datagrams -/

/-- the side that received no datagram: `w` is its window -/
structure Idle (w : UInt32) (p : Core) : Prop where
  datagram : p.datagram = true
  usage : p.usage = .ignore
  output : p.output = []
  window : p.localWindow = w.toNat
  consumed : p.localConsumed = 0
  noCredit : credits (sends p.trace) = 0
  noData : dataOf (rcvds p.trace) = []

section Receiver

variable {w : UInt32} {p : Core}

/-- an entry that gives no window and takes no datagram -/
theorem Idle.record (h : Idle w p) {a : Act} (hs : credits a.sends = 0) (hr : dataOf a.rcvds = []) :
    Idle w { p with trace := p.trace ++ [a] } := by
  refine { h with noCredit := ?_, noData := ?_ }
  · rw [sends_snoc, credits_append, hs]
    exact h.noCredit
  · rw [rcvds_snoc, dataOf_append, hr, append_nil]
    exact h.noData

theorem idle_move {drops : Bool} (hm : Move drops p p') (h : Idle w p) : Idle w p' := by
  cases hm with
  | sendEof => exact { h.record rfl rfl with }
  | dropOutput => exact { h with output := rfl }
  | sendEow => exact h.record rfl rfl
  | @readDatagram bytes => exact { h.record rfl rfl with }
  | loseDatagram _ hne | writeDatagram _ hne => exact absurd h.output hne
  | adjust _ _ hpos => exact absurd h.consumed (by omega)
  | read hd | send hd | write hd => exact absurd (hd.symm.trans h.datagram) (by simp)
  | readExt hu | sendExt hu | writeExt hu => exact absurd (hu.symm.trans h.usage) (by simp)
  | _ => exact { h with }

theorem idle_collect (hc : Collect p p') (h : Idle w p) : Idle w p' := by
  cases hc with
  | sendClose => exact { h.record rfl rfl with }
  | _ => exact { h with }

theorem idle_arrives (hdata : ∀ d, m ≠ .data d) (ha : Arrives m p p') (h : Idle w p) : Idle w p' := by
  cases ha with
  | eof | eow => exact h.record rfl rfl
  | close => exact { h.record rfl rfl with }
  | @adjust _ n | @overflow _ n => exact { h.record (a := .rcvd (.windowAdjust n)) rfl rfl with }
  | miss logs hm ht =>
    subst ht
    refine { h with noCredit := ?_, noData := ?_ }
    · rw [sends_data]
      exact h.noCredit
    · rw [rcvds_data, dataOf_append, h.noData]
      cases m with
      | data d => exact absurd rfl (hdata d)
      | _ => rfl
  | take logs hm =>
    rcases hm with ⟨d, rfl⟩ | ⟨-, hu⟩
    · exact absurd rfl (hdata d)
    · exact absurd (hu.symm.trans h.usage) (by simp)

theorem carries_idle (w : UInt32) : Carries (Idle w) := ⟨fun h => h.usage, idle_move, idle_collect, idle_arrives⟩

theorem Idle.post (h : Idle w p) (hpost : Posted p p') : Idle w p' := by
  obtain ⟨pkt, rest, -, -, -, -, -, rfl⟩ := hpost
  exact { h.record rfl rfl with }

end Receiver

/-! ## Steps of the tunnel -/

section Tunnel

variable {I : Core → Prop}

theorem carries_here (hI : Carries I) (k : Compat) {c : Channel} (l : Local) (h : I c.core)
    (hpost : l = .outputPoll → c.status = .live → Posted c.core (channelOutputPoll c).core → I (channelOutputPoll c).core) :
    Flows I [] c.core (step k c (.here l)).core := by
  have hu : c.extendedUsage = .ignore := hI.usage h
  refine .ite (fun _ => .refl _) fun hlive => ?_
  rcases does_apply k l (not_not.1 hlive) with hd | ⟨-, hd⟩ | ⟨rfl, q, hq, -, hlast⟩
  · exact .of_does hI.move hd
  · exact .of_collect hI.collect hd
  · rw [← hlast (by rw [hu]; simp)] at hq
    exact .of_posted (fun _ => hpost rfl (not_not.1 hlive) hq) hq

theorem carries_deliver (hI : Carries I) (k : Compat) {sender receiver : Channel}
    (hdata : ∀ d, receiver.status = .live → (inFlight sender receiver).head? = some (.data d) →
      Flows I [.data d] receiver.core (channelInputData d receiver).core) :
    ∃ ms, ms <+: inFlight sender receiver ∧ Flows I ms receiver.core (deliver k sender receiver).core := by
  refine flows_first k fun m rest hnext hlive => ?_
  by_cases hm : ∃ d, m = .data d
  · obtain ⟨d, rfl⟩ := hm
    exact hdata d hlive (by rw [hnext]; rfl)
  · push Not at hm
    obtain ⟨q, harr, hd⟩ := does_input k m receiver
    exact .of_arrives (hI.arrives hm) hI.move harr hd

end Tunnel

/-- a tunnel in which the datagrams that `a` sends are in `S`, as far as the poll says so -/
theorem linked_posts_step {wa : UInt32} {S : Set (List UInt8)} (kA kB : Compat) (e : PairEvent)
    (hS : e = .atA .outputPoll → ∀ pkt, (pairStep kA kB s e).a.trace = s.a.trace ++ [.sent (.data pkt)] →
      s.a.remoteWindow = (pairStep kA kB s e).a.remoteWindow + pkt.length → pkt ∈ S)
    (h : Linked (Posts wb S) (Posts wa Set.univ) s) : Linked (Posts wb S) (Posts wa Set.univ) (pairStep kA kB s e) := by
  cases e with
  | atA l =>
    refine h.moveA ⟨[], nil_prefix, carries_here (carries_posts wb S) kA l h.a fun hl hlive hpost => h.a.post hpost fun pkt => ?_⟩
    subst hl
    simpa [pairStep, step, hlive, Local.apply, Channel.core] using hS rfl pkt
  | atB l =>
    refine h.moveB ⟨[], nil_prefix, carries_here (carries_posts wa _) kB l h.b fun _ _ hpost => ?_⟩
    exact h.b.post hpost fun _ _ _ => trivial
  | toA => exact h.moveA (carries_deliver (carries_posts wb S) kA fun d _ _ => flows_posts_inputData wb S d s.a)
  | toB => exact h.moveB (carries_deliver (carries_posts wa _) kB fun d _ _ => flows_posts_inputData wa _ d s.b)

/-- a tunnel in which no datagram arrived at `b` -/
theorem linked_idle_step (kA kB : Compat) (e : PairEvent) (hno : NoDatagram s e)
    (h : Linked (Posts wb Set.univ) (Idle wb) s) : Linked (Posts wb Set.univ) (Idle wb) (pairStep kA kB s e) := by
  cases e with
  | atA l =>
    refine h.moveA ⟨[], nil_prefix, carries_here (carries_posts wb _) kA l h.a fun _ _ hpost => ?_⟩
    exact h.a.post hpost fun _ _ _ => trivial
  | atB l =>
    exact h.moveB ⟨[], nil_prefix, carries_here (carries_idle wb) kB l h.b fun _ _ => h.b.post⟩
  | toA => exact h.moveA (carries_deliver (carries_posts wb _) kA fun d _ _ => flows_posts_inputData wb _ d s.a)
  | toB => exact h.moveB (carries_deliver (carries_idle wb) kB fun d hlive hhead => absurd hhead (hno d rfl hlive))

/-! ## What a datagram costs -/

/-- **No agreement.** A receiver does not charge and owe what the sender paid for a datagram, whatever state it is in. -/
theorem inputData_charges {c : Channel} (hd : c.datagram = true) {data : List UInt8} (hne : data ≠ []) :
    ¬(c.localWindow = (channelInputData data c).localWindow + data.length ∧
      owed (channelInputData data c) = owed c + data.length) := by
  rintro ⟨hwindow, howed⟩
  have hpos := length_pos_iff.2 hne
  have hlen : winLen (c.record (.rcvd (.data data))) data = data.length + 4 := if_pos hd
  have hputLen : (putString data).length = 4 + data.length := length_putString data
  have hput : ∀ c' : Channel, c'.datagram = true → owed (putOutput data c') = owed c' + (4 + data.length) := by
    intro c' hd'
    rw [← hputLen, owed, putOutput, if_pos hd', length_append, ← Nat.add_assoc]
    rfl
  unfold channelInputData at hwindow howed
  dsimp only at hwindow howed
  split_ifs at hwindow howed
  · -- dropped: the credit differs by four, also if the counter wraps
    have howed' : u32 (c.localConsumed + (data.length + 4)) + c.output.length = c.localConsumed + c.output.length +
      data.length := by
      rw [← hlen]
      exact howed
    unfold u32 at howed'
    omega
  · -- too big
    have : c.localWindow = c.localWindow + data.length := hwindow
    omega
  · -- beyond the window, and the process ends
    have : c.localConsumed + c.output.length = c.localConsumed + c.output.length + data.length := howed
    omega
  · -- beyond the window
    have : owed c + (4 + data.length) = owed c + data.length := (hput _ hd).symm.trans howed
    omega
  · have : owed c + (4 + data.length) = owed c + data.length := (hput _ hd).symm.trans howed
    omega
  · -- not taken
    have : c.localWindow = c.localWindow + data.length := hwindow
    omega

/-- where every datagram has a cost, none arrives -/
theorem noDatagram_of_charges {cost : List UInt8 → ℕ} {wa : UInt32} {kA kB : Compat} {e : PairEvent}
    (h : Linked (Posts wb {d | cost d = d.length}) (Posts wa Set.univ) s) (hc : Charges cost kA kB s e) : NoDatagram s e := by
  intro d he hlive hhead
  subst he
  obtain ⟨rest, hrest⟩ := head?_eq_some_iff.1 hhead
  have hstep : (pairStep kA kB s .toB).b = channelInputData d s.b := by
    simp [pairStep, deliver, hrest, step, hlive, channelInput]
  rcases h.a.kinds _ (mem_of_mem_drop (mem_of_mem_head? hhead)) with hnone | ⟨d', hcost, heq, hne⟩
  · exact hnone.2 d rfl
  · cases heq
    have hcharged := hc.received d rfl hlive hhead
    rw [hstep, hcost] at hcharged
    exact inputData_charges h.b.datagram hne hcharged

/-- an idle receiver gave no window back -/
theorem credits_of_idle (h : Linked (Posts wb Set.univ) (Idle wb) s) : credits (rcvds s.a.trace) = 0 := by
  have hsum : credits (sends s.b.trace) = credits (rcvds s.a.trace) + credits (inFlight s.b s.a) := by
    rw [sends_eq h.ba, credits_append]
  have hzero : credits (sends s.b.trace) = 0 := h.b.noCredit
  omega

/-- where no datagram arrives, a datagram costs its bytes -/
theorem charges_of_noDatagram (kA kB : Compat) {e : PairEvent}
    (h : Linked (Posts wb Set.univ) (Idle wb) s) (hno : NoDatagram s e) : Charges List.length kA kB s e := by
  have h' := linked_idle_step kA kB e hno h
  refine ⟨?_, ?_, ?_⟩
  · intro d _ htrace
    have hspent : s.a.remoteWindow + sizes (sends s.a.trace) = wb.toNat := h.a.spent (credits_of_idle h)
    have hspent' : (pairStep kA kB s e).a.remoteWindow + sizes (sends (pairStep kA kB s e).a.trace) = wb.toNat :=
      h'.a.spent (credits_of_idle h')
    rw [htrace] at hspent'
    simp only [sends_snoc, Act.sends, sizes_append, sizes_singleton, Msg.size] at hspent'
    omega
  · intro d he hlive hhead
    exact absurd hhead (hno d he hlive)
  · intro ready answer d rest _ hout _
    have hnil : s.b.output = [] := h.b.output
    rw [hnil] at hout
    have hlen := congrArg length hout
    rw [length_append, length_putString, length_nil] at hlen
    omega

/-- where no datagram arrived and nothing is on the link, none was sent -/
theorem windows_of_quiescent (h : Linked (Posts wb Set.univ) (Idle wb) s) (hquiet : Quiescent s) :
    s.a.remoteWindow = s.b.localWindow := by
  have hsent : sends s.a.trace = rcvds s.b.trace := by rw [sends_eq h.ab, hquiet.1, append_nil]
  have hnone : dataOf (rcvds s.b.trace) = [] := h.b.noData
  have hsizes : sizes (sends s.a.trace) = 0 := by
    refine sum_eq_zero fun n hn => ?_
    obtain ⟨m, hm, rfl⟩ := mem_map.1 hn
    rcases h.a.kinds m hm with hzero | ⟨d, -, rfl, -⟩
    · exact hzero.1
    · -- a datagram that was sent was received
      have hd := flatMap_eq_nil_iff.1 hnone _ (hsent ▸ hm)
      rw [Msg.size, show d = [] from hd, length_nil]
  have hspent : s.a.remoteWindow + sizes (sends s.a.trace) = wb.toNat := h.a.spent (credits_of_idle h)
  have hwindow : s.b.localWindow = wb.toNat := h.b.window
  omega

/-! ## Runs -/

theorem posts_openTunnel (here there : Params) (S : Set (List UInt8)) : Posts there.window S (openTunnel here there).core where
  datagram := rfl
  usage := rfl
  queue := ⟨[], rfl, by simp⟩
  kinds := by simp [openTunnel, channelNew, Channel.core, sends]
  spent _ := rfl

/-- **Datagram windows.** Over every run of a tunnel, a datagram costs the same where it is sent and where it is received, is
credited with it, and the windows agree when nothing is on the link, exactly if no datagram arrives. -/
theorem datagram_windows_balanced_iff (kA kB : Compat) (a b : Params) (es : List PairEvent) :
    Balanced kA kB (tunnel a b) es ↔ Always (pairStep kA kB) NoDatagram (tunnel a b) es := by
  constructor
  · rintro ⟨⟨cost, hcost⟩, -⟩
    have hopen : Linked (Posts b.window {d | cost d = d.length}) (Posts a.window Set.univ) (tunnel a b) :=
      ⟨posts_openTunnel a b _, posts_openTunnel b a _, nil_prefix, nil_prefix⟩
    refine always_of_inv (fun s e h hc => linked_posts_step kA kB e ?_ h) (fun s e => noDatagram_of_charges)
      es hopen hcost
    intro he pkt htrace hlen
    have hsent := hc.sent pkt he htrace
    show cost pkt = pkt.length
    omega
  · intro hno
    have hopen : Linked (Posts b.window Set.univ) (Idle b.window) (tunnel a b) :=
      ⟨posts_openTunnel a b _, ⟨rfl, rfl, rfl, rfl, rfl, rfl, rfl⟩, nil_prefix, nil_prefix⟩
    have hstep : ∀ s e, Linked (Posts b.window Set.univ) (Idle b.window) s → NoDatagram s e →
        Linked (Posts b.window Set.univ) (Idle b.window) (pairStep kA kB s e) := fun s e h hno => linked_idle_step kA kB e hno h
    refine ⟨⟨length, ?_⟩, ?_⟩
    · exact always_of_inv hstep (fun s e => charges_of_noDatagram kA kB) es hopen hno
    · rintro pre ⟨post, rfl⟩ hquiet
      rw [always_append] at hno
      exact windows_of_quiescent (run_inv hstep pre hopen hno.1) hquiet

/-! ## One datagram -/

/-- both sides with the window and the packets of a tunnel: `CHAN_TCP_WINDOW_DEFAULT` and `CHAN_TCP_PACKET_DEFAULT` -/
def tunParams : Params where
  type := .opened
  ctype := "tun".toList
  haveRemoteId := true
  rfd := true
  wfd := true
  sock := false
  efd := false
  isatty := false
  forceDrain := false
  datagram := true
  extendedUsage := .ignore
  remoteWindow := 64 * 32 * 1024
  remoteMaxpacket := 32 * 1024
  window := 64 * 32 * 1024
  maxpack := 32 * 1024
  detachUser := false
  detachClose := false

/-- one byte is read, sent, received and written -/
def oneDatagram : List PairEvent :=
  [.atA (.handleRfd true (.got [7])), .atA .outputPoll, .toB, .atB (.handleWfd true (.wrote 1))]

/-- **A counterexample.** After one datagram nothing is on the link, and `remote_window` is four bytes above `local_window`. -/
theorem one_datagram_unbalances : ¬Balanced ⟨true, false⟩ ⟨true, false⟩ (tunnel tunParams tunParams) oneDatagram ∧
      (run (pairStep ⟨true, false⟩ ⟨true, false⟩) (tunnel tunParams tunParams) oneDatagram).a.remoteWindow =
        (run (pairStep ⟨true, false⟩ ⟨true, false⟩) (tunnel tunParams tunParams) oneDatagram).b.localWindow + 4 := by
  have hquiet : Quiescent (run (pairStep ⟨true, false⟩ ⟨true, false⟩) (tunnel tunParams tunParams) oneDatagram) := by
    constructor <;> decide +kernel
  have hdrift : (run (pairStep ⟨true, false⟩ ⟨true, false⟩) (tunnel tunParams tunParams) oneDatagram).a.remoteWindow =
      (run (pairStep ⟨true, false⟩ ⟨true, false⟩) (tunnel tunParams tunParams) oneDatagram).b.localWindow + 4 := by
    decide +kernel
  refine ⟨fun h => ?_, hdrift⟩
  have hequal := h.windows oneDatagram (prefix_refl _) hquiet
  omega

end OpenSSHServerPN.Channels
