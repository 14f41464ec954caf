/-
Closing a channel (`nchan.c`, `channel_force_close`, `channel_output_poll`, `channel_garbage_collect`, `channel_check_window`).

The two halves are moved from many places: reads and writes that fail, messages of the peer, forced closing and the collector.
What may be sent depends on the flags that the others set. `Inv` is what holds after every sequence of events:
- the flags say what the trace says (`EOF` and `CLOSE` sent, `CLOSE` received);
- after `EOF` the input is closed, after `CLOSE` both halves are;
- the trace is orderly: each message was admissible when it was sent (`Admissible`).

Results:
- `forward_step`: a half never goes back, only the collector sends `CLOSE`, and the invariant is kept by every event;
- `inv_run`: the invariant over every run;
- `close_protocol`: the close protocol of every channel, over every sequence of events.
-/
import OpenSSHServerPN.Channels.Moves
import OpenSSHServerPN.Lib.Runs

namespace OpenSSHServerPN.Channels

open Runs Wire List

/-! ## Orderly traces -/

/-- what may be sent after a trace -/
def Admissible (t : List Act) : Act → Prop
  | .sent (.data _) => .sent .eof ∉ t ∧ .sent .close ∉ t
  | .sent (.extendedData _ _) => .sent .eof ∉ t ∧ .sent .close ∉ t
  | .sent (.windowAdjust _) => .sent .close ∉ t ∧ .rcvd .close ∉ t
  | .sent .eof => .sent .eof ∉ t
  | .sent .close => .sent .close ∉ t
  | _ => True

/-- everything was admissible when it was done -/
def Orderly (t : List Act) : Prop := ∀ pre a post, t = pre ++ a :: post → Admissible pre a

theorem Orderly.nil : Orderly [] := by
  intro pre a post h
  simp at h

theorem Orderly.snoc {t : List Act} {a : Act} (h : Orderly t) (ha : Admissible t a) : Orderly (t ++ [a]) := by
  intro pre b post hb
  rcases eq_nil_or_concat post with rfl | ⟨post', b', rfl⟩
  · obtain ⟨rfl, hlast⟩ := append_inj' hb rfl
    cases hlast
    exact ha
  · have hb' : t ++ [a] = (pre ++ b :: post') ++ [b'] := by rw [hb]; simp
    obtain ⟨rfl, -⟩ := append_inj' hb' rfl
    exact h pre b post' rfl

theorem Orderly.count_le_one {t : List Act} {a : Act} (h : Orderly t) (ha : ∀ u, Admissible u a → a ∉ u) : t.count a ≤ 1 := by
  induction t using reverseRecOn with
  | nil => simp
  | append_singleton t b ih =>
    have ht : Orderly t := by
      intro pre x post hx
      exact h pre x (post ++ [b]) (by rw [hx]; simp)
    rw [count_append]
    by_cases hb : b = a
    · subst hb
      have hnot := count_eq_zero_of_not_mem (ha t (h t b [] rfl))
      simp [hnot]
    · have hzero : count a [b] = 0 := count_eq_zero_of_not_mem (by simpa using Ne.symm hb)
      have := ih ht
      omega

/-! ## The invariant -/

/-- what holds after every sequence of events -/
structure Inv (h : Core) : Prop where
  eofSent_flag : .sent .eof ∈ h.trace → h.eofSent = true
  input_closed : h.eofSent = true → h.istate = .closed
  closeSent_iff : .sent .close ∈ h.trace ↔ h.closeSent = true
  both_closed : h.closeSent = true → h.istate = .closed ∧ h.ostate = .closed
  closeRcvd_flag : .rcvd .close ∈ h.trace → h.closeRcvd = true ∨ h.chanLocal = true
  closeRcvd_mem : h.closeRcvd = true → .rcvd .close ∈ h.trace
  local_type : h.chanLocal = true → h.type ≠ .opened
  orderly : Orderly h.trace
  freed : h.status = .freed → h.type = .zombie ∨ h.chanLocal = true ∨ (h.closeSent = true ∧ h.closeRcvd = true)

section Rules

variable {h : Core}

section
variable (hi : Inv h)
include hi

theorem Inv.record {a : Act} (ha : Admissible h.trace a)
    (hneutral : a ≠ .sent .eof ∧ a ≠ .sent .close ∧ a ≠ .rcvd .close) : Inv { h with trace := h.trace ++ [a] } := by
  obtain ⟨heof, hclose, hrcvd⟩ := hneutral
  refine ⟨?_, hi.input_closed, ?_, hi.both_closed, ?_, ?_, hi.local_type, hi.orderly.snoc ha, hi.freed⟩
  · intro hmem
    simp only [mem_append, mem_singleton] at hmem
    exact hi.eofSent_flag (hmem.resolve_right fun h => heof h.symm)
  · simp only [mem_append, mem_singleton, Ne.symm hclose, or_false]
    exact hi.closeSent_iff
  · intro hmem
    simp only [mem_append, mem_singleton] at hmem
    exact hi.closeRcvd_flag (hmem.resolve_right fun h => hrcvd h.symm)
  · intro hflag
    exact mem_append_left _ (hi.closeRcvd_mem hflag)

theorem Inv.sent_eof (hdrain : h.istate = .waitDrain) :
    Inv { h with trace := h.trace ++ [.sent .eof], eofSent := true, istate := .closed } := by
  have hnot : h.eofSent ≠ true := by
    intro hsent
    rw [hi.input_closed hsent] at hdrain
    cases hdrain
  have hclose : h.closeSent ≠ true := by
    intro hsent
    rw [(hi.both_closed hsent).1] at hdrain
    cases hdrain
  refine ⟨fun _ => rfl, fun _ => rfl, ?_, fun hsent => absurd hsent hclose, ?_, ?_, hi.local_type,
    hi.orderly.snoc fun hmem => hnot (hi.eofSent_flag hmem), hi.freed⟩
  · simpa using hi.closeSent_iff
  · simpa using hi.closeRcvd_flag
  · intro hflag
    exact mem_append_left _ (hi.closeRcvd_mem hflag)

theorem Inv.sent_close (hin : h.istate = .closed) (hout : h.ostate = .closed) (hnot : h.closeSent = false) :
    Inv { h with trace := h.trace ++ [.sent .close], closeSent := true } := by
  have hmem : Act.sent .close ∉ h.trace := by
    intro hmem
    rw [hi.closeSent_iff.1 hmem] at hnot
    cases hnot
  refine ⟨?_, hi.input_closed, by simp, fun _ => ⟨hin, hout⟩, ?_, ?_, hi.local_type, hi.orderly.snoc hmem, ?_⟩
  · simpa using hi.eofSent_flag
  · simpa using hi.closeRcvd_flag
  · intro hflag
    exact mem_append_left _ (hi.closeRcvd_mem hflag)
  · intro hfreed
    rcases hi.freed hfreed with hz | hl | ⟨hs, -⟩
    · exact .inl hz
    · exact .inr (.inl hl)
    · rw [hnot] at hs
      cases hs

/-- `CLOSE` is received; a local channel has no flag for it -/
theorem Inv.rcvd_close :
    Inv { h with trace := h.trace ++ [.rcvd .close], closeRcvd := if h.chanLocal then h.closeRcvd else true } := by
  refine ⟨?_, hi.input_closed, ?_, hi.both_closed, ?_, by simp, hi.local_type, hi.orderly.snoc trivial, ?_⟩
  · simpa using hi.eofSent_flag
  · simpa using hi.closeSent_iff
  · intro _
    cases h.chanLocal
    · exact .inl rfl
    · exact .inr rfl
  · intro hfreed
    rcases hi.freed hfreed with hz | hl | ⟨hs, hr⟩
    · exact .inl hz
    · exact .inr (.inl hl)
    · refine .inr (.inr ⟨hs, ?_⟩)
      cases h.chanLocal
      · rfl
      · exact hr

theorem Inv.input_drains (hopen : h.istate = .inOpen) : Inv { h with istate := .waitDrain } := by
  refine { hi with input_closed := ?_, both_closed := ?_ }
  · intro hsent
    rw [hi.input_closed hsent] at hopen
    cases hopen
  · intro hsent
    rw [(hi.both_closed hsent).1] at hopen
    cases hopen

theorem Inv.input_closes : Inv { h with istate := .closed } :=
  { hi with input_closed := fun _ => rfl, both_closed := fun hsent => ⟨rfl, (hi.both_closed hsent).2⟩ }

theorem Inv.output_drains (hopen : h.ostate = .outOpen) : Inv { h with ostate := .waitDrain } := by
  refine { hi with both_closed := ?_ }
  intro hsent
  rw [(hi.both_closed hsent).2] at hopen
  cases hopen

theorem Inv.output_closes : Inv { h with ostate := .closed } :=
  { hi with both_closed := fun hsent => ⟨(hi.both_closed hsent).1, rfl⟩ }

theorem Inv.dies : Inv { h with status := .died } := { hi with freed := fun hfreed => by cases hfreed }

theorem Inv.zombie : Inv { h with type := .zombie } :=
  { hi with local_type := fun _ => by simp, freed := fun _ => .inl rfl }

theorem Inv.abandoned (hs : h.status ≠ .freed) : Inv { h with type := .abandoned } :=
  { hi with local_type := fun _ => by simp, freed := fun hfreed => absurd hfreed hs }

end

end Rules

/-! ## Moves keep it -/

section Steps

variable {drops : Bool} {p p' : Core}

/-- data may be sent while neither flag is set -/
theorem Inv.no_end (hi : Inv p) (heof : p.eofSent = false) (hclose : p.closeSent = false) :
    Act.sent .eof ∉ p.trace ∧ Act.sent .close ∉ p.trace := by
  refine ⟨fun hmem => ?_, fun hmem => ?_⟩
  · rw [hi.eofSent_flag hmem] at heof
    cases heof
  · rw [hi.closeSent_iff.1 hmem] at hclose
    cases hclose

theorem Inv.no_eof (hi : Inv p) (hin : p.istate = .inOpen ∨ p.istate = .waitDrain) : p.eofSent = false := by
  cases heof : p.eofSent with
  | false => rfl
  | true =>
    have hclosed := hi.input_closed heof
    rcases hin with hin | hin <;> exact absurd (hin.symm.trans hclosed) (by simp)

theorem inv_move (h : Move drops p p') (hi : Inv p) : Inv p' := by
  cases h with
  | drainInput hin => exact hi.input_drains hin
  | closeInput => exact hi.input_closes
  | dropInput => exact { hi.input_closes with }
  | sendEof hin => exact hi.sent_eof hin
  | drainOutput hout => exact hi.output_drains hout
  | closeOutput => exact hi.output_closes
  | dropOutput => exact { hi.output_closes with }
  | sendEow => exact hi.record trivial (by simp)
  | markDead => exact hi.zombie
  | abandon hs => exact hi.abandoned hs
  | die => exact hi.dies
  | @read bytes | @readDatagram bytes => exact { hi.record (a := .readRfd bytes) trivial (by simp) with }
  | @send n _ hin hclose =>
    exact { hi.record (a := .sent (.data (p.input.take n))) (hi.no_end (hi.no_eof hin) hclose) (by simp) with }
  | @write n => exact { hi.record (a := .wroteWfd (p.output.take n)) trivial (by simp) with }
  | @writeDatagram bytes => exact { hi.record (a := .wroteWfd bytes) trivial (by simp) with }
  | @readExt bytes => exact { hi.record (a := .readEfd bytes) trivial (by simp) with }
  | @sendExt n _ heof hclose =>
    exact { hi.record (a := .sent (.extendedData _ (p.extended.take n))) (hi.no_end heof hclose) (by simp) with }
  | @writeExt n => exact { hi.record (a := .wroteEfd (p.extended.take n)) trivial (by simp) with }
  | adjust ht hquiet =>
    refine { hi.record (a := .sent (.windowAdjust p.localConsumed)) ⟨fun hmem => ?_, fun hmem => ?_⟩ (by simp) with }
    · exact hquiet (.inl (hi.closeSent_iff.1 hmem))
    · rcases hi.closeRcvd_flag hmem with hflag | hlocal
      · exact hquiet (.inr hflag)
      · exact hi.local_type hlocal ht
  | _ => exact { hi with }

theorem inv_posted (h : Posted p p') (hi : Inv p) : Inv p' := by
  obtain ⟨pkt, rest, -, hin, hclose, -, -, rfl⟩ := h
  exact { hi.record (a := .sent (.data pkt)) (hi.no_end (hi.no_eof hin) hclose) (by simp) with }

theorem inv_collect (h : Collect p p') (hi : Inv p) : Inv p' := by
  cases h with
  | sendClose hin hout hnot => exact hi.sent_close hin hout hnot
  | die => exact hi.dies
  | free hreason => exact { hi with freed := fun _ => hreason }

theorem Inv.logged (hi : Inv p) {m : Msg} (hm : m.carriesData) (logs : List LogLine) :
    Inv { p with trace := p.trace ++ .rcvd m :: logs.map .logit } := by
  have hrcvd : Inv { p with trace := p.trace ++ [.rcvd m] } := by
    refine hi.record trivial ⟨by simp, by simp, fun h => ?_⟩
    cases h
    exact hm
  induction logs using reverseRecOn with
  | nil => exact hrcvd
  | append_singleton logs line ih =>
    have := ih.record (a := .logit line) trivial (by simp)
    simpa using this

theorem inv_arrives {m : Msg} (h : Arrives m p p') (hi : Inv p) : Inv p' := by
  have hst : ∀ {q : Core} {st : Status}, Inv q → st = q.status ∨ st = .died → Inv { q with status := st } := by
    rintro q st hq (rfl | rfl)
    · exact hq
    · exact hq.dies
  cases h with
  | eof | eow => exact hi.record trivial (by simp)
  | close => exact hi.rcvd_close
  | @adjust _ n => exact { hi.record (a := .rcvd (.windowAdjust n)) trivial (by simp) with }
  | @overflow _ n => exact (hi.record (a := .rcvd (.windowAdjust n)) trivial (by simp)).dies
  | miss logs hm ht hstatus =>
    subst ht
    exact hst (hi.logged hm logs) hstatus
  | take logs hm ht hstatus =>
    subst ht
    have hdata : m.carriesData := by
      rcases hm with ⟨_, rfl⟩ | ⟨⟨_, _, rfl⟩, -⟩ <;> trivial
    exact { hst (hi.logged hdata logs) hstatus with }

/-- what one event does: halves go forward, and `CLOSE` is sent only if both are closed -/
structure Forward (p p' : Core) : Prop where
  input : p.istate.rank ≤ p'.istate.rank
  output : p.ostate.rank ≤ p'.ostate.rank
  close : p'.closeSent = p.closeSent ∨ (p.istate = .closed ∧ p.ostate = .closed)
  inv : Inv p → Inv p'

theorem Stays.forward (h : Stays p p') (hinv : Inv p → Inv p') : Forward p p' := ⟨h.input, h.output, .inl h.closeSent, hinv⟩

end Steps

/-! ## Runs -/

variable (k : Compat)

/-- **One event.** A half never goes back, and only the collector sends `CLOSE`. -/
theorem forward_step (c : Channel) (e : Event) : Forward c.core (step k c e).core := by
  have hdoes : ∀ {drops : Bool} {p p' : Core}, Does drops p p' → Inv p → Inv p' := fun h => (Flows.of_does inv_move h).kept
  unfold step
  split_ifs with hdone
  · exact (Stays.refl _).forward id
  cases e with
  | here l =>
    rcases does_apply k l (not_not.1 hdone) with h | ⟨-, h⟩ | ⟨-, q, hpost, h, -⟩
    · exact h.stays.forward (hdoes h)
    · have hc := collected_of_collect h
      exact ⟨by rw [hc.input], by rw [hc.output], hc.close, (Flows.of_collect inv_collect h).kept⟩
    · exact (hpost.stays.trans h.stays).forward (hdoes h ∘ inv_posted hpost)
  | arrives m =>
    obtain ⟨q, harr, h⟩ := does_input k m c
    exact (harr.stays.trans h.stays).forward (hdoes h ∘ inv_arrives harr)

theorem inv_new (p : Params) : Inv (channelNew p).core := by
  refine ⟨?_, ?_, ?_, ?_, ?_, ?_, ?_, .nil, ?_⟩
  · intro h; cases h
  · intro h; cases h
  · constructor
    · intro h; cases h
    · intro h; cases h
  · intro h; cases h
  · intro h; cases h
  · intro h; cases h
  · intro h
    have htype : p.type = .muxClient := by simpa [channelNew, Channel.core] using h
    show p.type ≠ .opened
    rw [htype]
    simp
  · intro h; cases h

theorem inv_run (p : Params) (es : List Event) : Inv (run (step k) (channelNew p) es).core :=
  run_inv_all (I := fun c => Inv c.core) (fun c e hi => (forward_step k c e).inv hi) es (inv_new p)

theorem ranks_run (c : Channel) (es : List Event) :
    c.istate.rank ≤ (run (step k) c es).istate.rank ∧ c.ostate.rank ≤ (run (step k) c es).ostate.rank := by
  induction es generalizing c with
  | nil => exact ⟨le_rfl, le_rfl⟩
  | cons e es ih =>
    have h := forward_step k c e
    obtain ⟨hin, hout⟩ := ih (step k c e)
    exact ⟨h.input.trans hin, h.output.trans hout⟩

/-- **Close protocol.** After every sequence of events: the halves only go forward; `EOF` and `CLOSE` were sent at most once;
`CLOSE` is sent only if both halves are closed; no data was sent after `EOF` or `CLOSE`, and no window after `CLOSE` was sent
or received; and a channel that is neither local nor a zombie was freed only after `CLOSE` was sent and received. -/
theorem close_protocol (k : Compat) (p : Params) (es : List Event) :
    let c := run (step k) (channelNew p) es
    (∀ es', c.istate.rank ≤ (run (step k) c es').istate.rank ∧ c.ostate.rank ≤ (run (step k) c es').ostate.rank) ∧
      c.trace.count (.sent .eof) ≤ 1 ∧ c.trace.count (.sent .close) ≤ 1 ∧
      (∀ e, .sent .close ∉ c.trace → .sent .close ∈ (step k c e).trace → c.istate = .closed ∧ c.ostate = .closed) ∧
      (∀ pre m post, c.trace = pre ++ .sent m :: post → m.carriesData → .sent .eof ∉ pre ∧ .sent .close ∉ pre) ∧
      (∀ pre n post, c.trace = pre ++ .sent (.windowAdjust n) :: post → .sent .close ∉ pre ∧ .rcvd .close ∉ pre) ∧
      (c.status = .freed → c.type ≠ .zombie → c.chanLocal = false → .sent .close ∈ c.trace ∧ .rcvd .close ∈ c.trace) := by
  intro c
  have hi : Inv c.core := inv_run k p es
  refine ⟨ranks_run k c, hi.orderly.count_le_one fun _ h => h, hi.orderly.count_le_one fun _ h => h, ?_, ?_, ?_, ?_⟩
  · intro e hnot hsent
    have hstep := forward_step k c e
    have hflag : (step k c e).closeSent = true := (hstep.inv hi).closeSent_iff.1 hsent
    rcases hstep.close with hsame | hboth
    · exact absurd (hi.closeSent_iff.2 (hsame.symm.trans hflag)) hnot
    · exact hboth
  · intro pre m post htrace hdata
    have hadm := hi.orderly pre (.sent m) post htrace
    cases m with
    | data | extendedData => exact hadm
    | _ => exact absurd hdata id
  · intro pre n post htrace
    exact hi.orderly pre (.sent (.windowAdjust n)) post htrace
  · intro hfreed hzombie hlocal
    rcases hi.freed hfreed with h | h | ⟨hs, hr⟩
    · exact absurd h hzombie
    · exact absurd (hlocal.symm.trans h) (by simp)
    · exact ⟨hi.closeSent_iff.2 hs, hi.closeRcvd_mem hr⟩

end OpenSSHServerPN.Channels
