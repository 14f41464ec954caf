/-
What a stream channel does with bytes and window, on one side (`channels.c`).

`Stream lim` relates the ledger of a channel to its buffers and windows, for a channel with the limits `lim`:
- `Sends`: the window of the peer was not overdrawn, and what was sent is what was read, but for the bytes in `input`;
- `Receives`: the window here was lowered by no more than was received, and what was received is what was written, but for the
  bytes in `output`; once data was dropped, none is written after it.

Everything that happens here keeps `Stream` (`flows_apply`). A message keeps it if it fits into the window and into a packet
(`flows_input`); that the messages of the peer fit is a fact about both sides, and not proved here.
-/
import OpenSSHServerPN.Channels.Moves

namespace OpenSSHServerPN.Channels

open Wire List

/-! ## The invariant -/

/-- what the two sides agreed on when the channel was opened -/
structure Limits where
  /-- the window here -/
  window : ℕ
  /-- the window that the peer was told; the rest comes with `WINDOW_ADJUST` -/
  advertised : ℕ
  maxpacket : ℕ
  /-- the window that the peer told -/
  peerWindow : ℕ
  peerMaxpacket : ℕ
  window_lt : window < 2 ^ 32

/-- what was sent -/
structure Sends (lim : Limits) (p : Core) : Prop where
  spent : p.remoteWindow + sizes (sends p.trace) ≤ lim.peerWindow + credits (rcvds p.trace)
  small : ∀ m ∈ sends p.trace, m.size ≤ lim.peerMaxpacket
  stream : dataOf (sends p.trace) <+: reads p.trace
  pending : p.istate = .inOpen ∨ p.istate = .waitDrain → reads p.trace = dataOf (sends p.trace) ++ p.input
  ext : p.usage = .read → readsExt p.trace = extOf (sends p.trace) ++ p.extended
  noExt : p.usage ≠ .read → extOf (sends p.trace) = []

/-- what was received -/
structure Receives (lim : Limits) (p : Core) : Prop where
  granted : lim.advertised + credits (sends p.trace) ≤ p.localWindow + sizes (rcvds p.trace)
  held : p.localWindow + p.localConsumed + p.output.length + (if p.usage = .write then p.extended.length else 0) ≤ lim.window
  stream : writes p.trace ++ p.output <+: dataOf (rcvds p.trace)
  taken : p.status = .live → p.type = .opened → p.ostate = .outOpen → writes p.trace ++ p.output = dataOf (rcvds p.trace)
  ext : p.usage = .write → writesExt p.trace ++ p.extended <+: extOf (rcvds p.trace)
  extTaken : p.status = .live → p.type = .opened → p.usage = .write → p.efd = true →
    writesExt p.trace ++ p.extended = extOf (rcvds p.trace)
  noExt : p.usage ≠ .write → writesExt p.trace = []
  fits : .logit .tooMuchData ∉ p.trace ∧ .logit .tooMuchExtendedData ∉ p.trace

structure Stream (lim : Limits) (p : Core) : Prop where
  plain : p.datagram = false
  types : p.type = .opened ∨ p.type = .zombie ∨ p.type = .abandoned
  maxpacket : p.localMaxpacket = lim.maxpacket
  peerMaxpacket : p.remoteMaxpacket = lim.peerMaxpacket
  sending : Sends lim p
  receiving : Receives lim p

/-! ## Rules -/

section Rules

variable {lim : Limits} {p : Core} {a : Act}

/-- neither half of the ledger changes for what was sent -/
theorem Sends.note (h : Sends lim p) (hs : a.sends.map Msg.size = a.sends.map fun _ => 0)
    (hd : dataOf a.sends = []) (he : extOf a.sends = []) (hc : credits a.rcvds = 0) (hr : a.reads = []) (hx : a.readsExt = []) :
    Sends lim { p with trace := p.trace ++ [a] } := by
  have hzero : ∀ m ∈ a.sends, m.size = 0 := map_eq_map_iff.1 hs
  have hsizes : sizes a.sends = 0 := by
    rw [sizes, hs]
    simp
  refine ⟨?_, ?_, ?_, ?_, ?_, ?_⟩
  · simpa only [sends_snoc, rcvds_snoc, sizes_append, credits_append, hsizes, hc, Nat.add_zero] using h.spent
  · intro m hm
    rw [sends_snoc, mem_append] at hm
    rcases hm with hm | hm
    · exact h.small m hm
    · rw [hzero m hm]
      exact Nat.zero_le _
  · simpa only [sends_snoc, reads_snoc, dataOf_append, hd, hr, append_nil] using h.stream
  · simpa only [sends_snoc, reads_snoc, dataOf_append, hd, hr, append_nil] using h.pending
  · simpa only [sends_snoc, readsExt_snoc, extOf_append, he, hx, append_nil] using h.ext
  · simpa only [sends_snoc, extOf_append, he, append_nil] using h.noExt

/-- neither half of the ledger changes for what was received, but for more that was dropped -/
theorem Receives.note (h : Receives lim p) (hc : credits a.sends = 0) (hd : dataOf a.rcvds = [])
    (he : extOf a.rcvds = []) (hw : a.writes = []) (hx : a.writesExt = []) (hd' : a ≠ .logit .tooMuchData)
    (he' : a ≠ .logit .tooMuchExtendedData) : Receives lim { p with trace := p.trace ++ [a] } := by
  refine ⟨?_, h.held, ?_, ?_, ?_, ?_, ?_, ?_⟩
  · have := h.granted
    simp only [sends_snoc, rcvds_snoc, credits_append, sizes_append]
    omega
  · simpa only [rcvds_snoc, writes_snoc, dataOf_append, hd, hw, append_nil] using h.stream
  · simpa only [rcvds_snoc, writes_snoc, dataOf_append, hd, hw, append_nil] using h.taken
  · simpa only [rcvds_snoc, writesExt_snoc, extOf_append, he, hx, append_nil] using h.ext
  · simpa only [rcvds_snoc, writesExt_snoc, extOf_append, he, hx, append_nil] using h.extTaken
  · simpa only [writesExt_snoc, hx, append_nil] using h.noExt
  · simpa [Ne.symm hd', Ne.symm he'] using h.fits

section
variable (h : Stream lim p)
include h

theorem Stream.note (ha : a.control) : Stream lim { p with trace := p.trace ++ [a] } := by
  refine { h with sending := h.sending.note ?_ ?_ ?_ ?_ ?_ ?_, receiving := h.receiving.note ?_ ?_ ?_ ?_ ?_ ?_ ?_ }
  all_goals
    cases a with
    | sent m | rcvd m => cases m <;> first | exact ha.elim | simp
    | logit line => simp [ha.1, ha.2]
    | _ => exact ha.elim

theorem Stream.closeInput : Stream lim { p with istate := .closed } :=
  { h with sending := { h.sending with pending := by simp }, receiving := { h.receiving with } }

theorem Stream.drainInput (hopen : p.istate = .inOpen) : Stream lim { p with istate := .waitDrain } :=
  { h with
    sending := { h.sending with pending := fun _ => h.sending.pending (.inl hopen) }
    receiving := { h.receiving with } }

theorem Stream.dropInput : Stream lim { p with input := [], istate := .closed } :=
  { h with sending := { h.sending with pending := by simp }, receiving := { h.receiving with } }

theorem Stream.drainOutput : Stream lim { p with ostate := .waitDrain } :=
  { h with
    sending := { h.sending with }
    receiving := { h.receiving with taken := fun _ _ hopen => by cases hopen } }

theorem Stream.dropOutput : Stream lim { p with output := [], ostate := .closed } := by
  refine { h with sending := { h.sending with }, receiving := { h.receiving with held := ?_, stream := ?_, taken := ?_ } }
  · have := h.receiving.held
    simp only [length_nil]
    omega
  · exact (prefix_append_right_inj _).2 nil_prefix |>.trans h.receiving.stream
  · intro _ _ hopen
    cases hopen

theorem Stream.ends {t : Status} (ht : t ≠ .live) : Stream lim { p with status := t } :=
  { h with
    sending := { h.sending with }
    receiving := { h.receiving with taken := fun hl => absurd hl ht, extTaken := fun hl => absurd hl ht } }

theorem Stream.closeEfd : Stream lim { p with efd := false } :=
  { h with
    sending := { h.sending with }
    receiving := { h.receiving with extTaken := fun _ _ _ he => by cases he } }

theorem Stream.retype {t : ChanType} (ht : t = .zombie ∨ t = .abandoned) : Stream lim { p with type := t } := by
  have hne : t ≠ .opened := by rcases ht with rfl | rfl <;> simp
  exact { h with
    types := .inr ht
    sending := { h.sending with }
    receiving := { h.receiving with taken := fun _ hopen => absurd hopen hne, extTaken := fun _ hopen => absurd hopen hne } }

theorem Stream.closeOutput : Stream lim { p with ostate := .closed } :=
  { h with
    sending := { h.sending with }
    receiving := { h.receiving with taken := by simp } }

end

/-! ### Bytes that are sent -/

variable {n : ℕ} {bytes : List UInt8}

section
variable (h : Stream lim p)
include h

theorem Stream.sendData (hin : p.istate = .inOpen ∨ p.istate = .waitDrain)
    (hn : n ≤ p.input.length) (hw : n ≤ p.remoteWindow) (hm : n ≤ p.remoteMaxpacket) : Stream lim { p with
      trace := p.trace ++ [.sent (.data (p.input.take n))]
      input := p.input.drop n
      remoteWindow := p.remoteWindow - n } := by
  have hsize : (p.input.take n).length = n := length_take_of_le hn
  have hpending : reads p.trace = dataOf (sends p.trace) ++ p.input := h.sending.pending hin
  have hr := h.receiving.note (a := .sent (.data (p.input.take n))) rfl rfl rfl rfl rfl (by simp) (by simp)
  refine { h with sending := ⟨?_, ?_, ?_, ?_, ?_, ?_⟩, receiving := { hr with } }
  · have := h.sending.spent
    simp only [sends_snoc, rcvds_snoc, Act.sends, Act.rcvds, sizes_append, sizes_singleton, Msg.size, append_nil]
    omega
  · intro m hmem
    simp only [sends_snoc, Act.sends, mem_append, mem_singleton] at hmem
    rcases hmem with hmem | rfl
    · exact h.sending.small m hmem
    · rw [Msg.size, hsize, ← h.peerMaxpacket]
      exact hm
  · simp only [sends_snoc, reads_snoc, Act.sends, Act.reads, dataOf_append, dataOf_singleton, append_nil, hpending]
    exact (prefix_append_right_inj _).2 ( take_prefix n p.input)
  · simp [hpending]
  · simpa using h.sending.ext
  · simpa using h.sending.noExt

theorem Stream.sendExt (husage : p.usage = .read) (hn : n ≤ p.extended.length)
    (hw : n ≤ p.remoteWindow) (hm : n ≤ p.remoteMaxpacket) : Stream lim { p with
      trace := p.trace ++ [.sent (.extendedData SSH2_EXTENDED_DATA_STDERR (p.extended.take n))]
      extended := p.extended.drop n
      remoteWindow := p.remoteWindow - n } := by
  have hsize : (p.extended.take n).length = n := length_take_of_le hn
  have hread : ¬p.usage = .write := by rw [husage]; simp
  have hr := h.receiving.note (a := .sent (.extendedData SSH2_EXTENDED_DATA_STDERR (p.extended.take n))) rfl rfl rfl rfl rfl
    (by simp) (by simp)
  refine { h with sending := ⟨?_, ?_, ?_, ?_, ?_, ?_⟩, receiving := { hr with held := ?_, ext := ?_, extTaken := ?_ } }
  · have := h.sending.spent
    simp only [sends_snoc, rcvds_snoc, Act.sends, Act.rcvds, sizes_append, sizes_singleton, Msg.size, append_nil]
    omega
  · intro m hmem
    simp only [sends_snoc, Act.sends, mem_append, mem_singleton] at hmem
    rcases hmem with hmem | rfl
    · exact h.sending.small m hmem
    · rw [Msg.size, hsize, ← h.peerMaxpacket]
      exact hm
  · simpa using h.sending.stream
  · simpa using h.sending.pending
  · simp [h.sending.ext husage]
  · exact absurd husage
  · simpa [hread] using h.receiving.held
  · exact fun hwrite => absurd hwrite hread
  · exact fun _ _ hwrite => absurd hwrite hread

theorem Stream.readInput (bytes : List UInt8) :
    Stream lim { p with trace := p.trace ++ [.readRfd bytes], input := p.input ++ bytes } := by
  have hr := h.receiving.note (a := .readRfd bytes) rfl rfl rfl rfl rfl (by simp) (by simp)
  refine { h with sending := ⟨?_, ?_, ?_, ?_, ?_, ?_⟩, receiving := { hr with } }
  · simpa using h.sending.spent
  · simpa using h.sending.small
  · simpa using h.sending.stream.trans (prefix_append _ _)
  · intro hin
    simp [h.sending.pending hin]
  · simpa using h.sending.ext
  · simpa using h.sending.noExt

theorem Stream.readExt (husage : p.usage = .read) (bytes : List UInt8) :
    Stream lim { p with trace := p.trace ++ [.readEfd bytes], extended := p.extended ++ bytes } := by
  have hread : ¬p.usage = .write := by rw [husage]; simp
  have hr := h.receiving.note (a := .readEfd bytes) rfl rfl rfl rfl rfl (by simp) (by simp)
  refine { h with sending := ⟨?_, ?_, ?_, ?_, ?_, ?_⟩, receiving := { hr with held := ?_, ext := ?_, extTaken := ?_ } }
  · simpa using h.sending.spent
  · simpa using h.sending.small
  · simpa using h.sending.stream
  · simpa using h.sending.pending
  · simp [h.sending.ext husage]
  · exact absurd husage
  · simpa [hread] using h.receiving.held
  · exact fun hwrite => absurd hwrite hread
  · exact fun _ _ hwrite => absurd hwrite hread

end

/-! ### Bytes that are received -/

theorem u32_of_le {w : ℕ} (h : n ≤ w) (hw : w < 2 ^ 32) : u32 n = n := Nat.mod_eq_of_lt (h.trans_lt hw)

theorem Stream.writeOutput (h : Stream lim p) (n : ℕ) : Stream lim { p with
      trace := p.trace ++ [.wroteWfd (p.output.take n)]
      output := p.output.drop n
      localConsumed := u32 (p.localConsumed + (p.output.length - (p.output.drop n).length)) } := by
  have hs := h.sending.note (a := .wroteWfd (p.output.take n)) rfl rfl rfl rfl rfl rfl
  have hheld := h.receiving.held
  have hu : u32 (p.localConsumed + (p.output.length - (p.output.drop n).length)) =
      p.localConsumed + (p.output.length - (p.output.drop n).length) := u32_of_le (by omega) lim.window_lt
  refine { h with sending := { hs with }, receiving := ⟨?_, ?_, ?_, ?_, ?_, ?_, ?_, ?_⟩ }
  · simpa using h.receiving.granted
  · have : (p.output.drop n).length ≤ p.output.length := by simp
    dsimp only
    omega
  · simpa using h.receiving.stream
  · simpa using h.receiving.taken
  · simpa using h.receiving.ext
  · simpa using h.receiving.extTaken
  · simpa using h.receiving.noExt
  · simpa using h.receiving.fits

theorem Stream.writeExt (h : Stream lim p) (husage : p.usage = .write) (n : ℕ) : Stream lim { p with
      trace := p.trace ++ [.wroteEfd (p.extended.take n)]
      extended := p.extended.drop n
      localConsumed := u32 (p.localConsumed + min n p.extended.length) } := by
  have hs := h.sending.note (a := .wroteEfd (p.extended.take n)) rfl rfl rfl rfl rfl rfl
  have hheld := h.receiving.held
  rw [if_pos husage] at hheld
  have hu : u32 (p.localConsumed + min n p.extended.length) = p.localConsumed + min n p.extended.length :=
    u32_of_le (by omega) lim.window_lt
  have hread : ¬p.usage = .read := by rw [husage]; simp
  refine { h with sending := { hs with ext := fun hr => absurd hr hread }, receiving := ⟨?_, ?_, ?_, ?_, ?_, ?_, ?_, ?_⟩ }
  · simpa using h.receiving.granted
  · rw [if_pos husage]
    simp only [length_drop]
    omega
  · simpa using h.receiving.stream
  · simpa using h.receiving.taken
  · simpa using h.receiving.ext
  · simpa using h.receiving.extTaken
  · exact absurd husage
  · simpa using h.receiving.fits

theorem Stream.adjust (h : Stream lim p) : Stream lim { p with
      trace := p.trace ++ [.sent (.windowAdjust p.localConsumed)]
      localWindow := u32 (p.localWindow + p.localConsumed)
      localConsumed := 0 } := by
  have hs := h.sending.note (a := .sent (.windowAdjust p.localConsumed)) rfl rfl rfl rfl rfl rfl
  have hheld := h.receiving.held
  have hu : u32 (p.localWindow + p.localConsumed) = p.localWindow + p.localConsumed := u32_of_le (by omega) lim.window_lt
  refine { h with sending := { hs with }, receiving := ⟨?_, ?_, ?_, ?_, ?_, ?_, ?_, ?_⟩ }
  · have := h.receiving.granted
    simp only [sends_snoc, rcvds_snoc, Act.sends, Act.rcvds, credits_append, credits_singleton, Msg.credit, append_nil]
    omega
  · dsimp only
    omega
  · simpa using h.receiving.stream
  · simpa using h.receiving.taken
  · simpa using h.receiving.ext
  · simpa using h.receiving.extTaken
  · simpa using h.receiving.noExt
  · simpa using h.receiving.fits

theorem Receives.granted_rcvd (h : Receives lim p) {m : Msg} {w : ℕ} (hw : p.localWindow ≤ w + m.size) :
    lim.advertised + credits (sends (p.trace ++ [.rcvd m])) ≤ w + sizes (rcvds (p.trace ++ [.rcvd m])) := by
  have := h.granted
  simp only [sends_snoc, rcvds_snoc, Act.sends, Act.rcvds, sizes_append, sizes_singleton, append_nil]
  omega

section
variable (h : Stream lim p)
include h

theorem Stream.missData (hclosed : p.type = .opened → p.ostate ≠ .outOpen) (bytes : List UInt8) :
    Stream lim { p with trace := p.trace ++ [.rcvd (.data bytes)] } := by
  have hs := h.sending.note (a := .rcvd (.data bytes)) rfl rfl rfl rfl rfl rfl
  refine { h with sending := { hs with }, receiving := ⟨?_, h.receiving.held, ?_, ?_, ?_, ?_, ?_, ?_⟩ }
  · exact h.receiving.granted_rcvd (Nat.le_add_right _ _)
  · simpa using h.receiving.stream.trans (prefix_append _ _)
  · exact fun _ hopen hout => absurd hout (hclosed hopen)
  · simpa using h.receiving.ext
  · simpa using h.receiving.extTaken
  · simpa using h.receiving.noExt
  · simpa using h.receiving.fits

theorem Stream.dropData (hclosed : p.ostate ≠ .outOpen) (hfits : bytes.length ≤ p.localWindow) : Stream lim { p with
      trace := p.trace ++ [.rcvd (.data bytes)]
      localWindow := p.localWindow - bytes.length
      localConsumed := u32 (p.localConsumed + bytes.length) } := by
  have hm := h.missData (fun _ => hclosed) bytes
  have hheld := h.receiving.held
  have hu : u32 (p.localConsumed + bytes.length) = p.localConsumed + bytes.length := u32_of_le (by omega) lim.window_lt
  refine { hm with sending := { hm.sending with }, receiving := { hm.receiving with granted := ?_, held := ?_ } }
  · exact h.receiving.granted_rcvd le_tsub_add
  · dsimp only
    omega

theorem Stream.takeData (hlive : p.status = .live) (htype : p.type = .opened)
    (hopen : p.ostate = .outOpen) (hfits : bytes.length ≤ p.localWindow) :
    Stream lim { p with
      trace := p.trace ++ [.rcvd (.data bytes)]
      output := p.output ++ bytes
      localWindow := p.localWindow - bytes.length } := by
  have hs := h.sending.note (a := .rcvd (.data bytes)) rfl rfl rfl rfl rfl rfl
  have htaken := h.receiving.taken hlive htype hopen
  refine { h with sending := { hs with }, receiving := ⟨?_, ?_, ?_, ?_, ?_, ?_, ?_, ?_⟩ }
  · exact h.receiving.granted_rcvd le_tsub_add
  · have := h.receiving.held
    simp only [length_append]
    omega
  · simp [← htaken]
  · simp [← htaken]
  · simpa using h.receiving.ext
  · simpa using h.receiving.extTaken
  · simpa using h.receiving.noExt
  · simpa using h.receiving.fits

theorem Stream.missExt {tcode : ℕ}
    (hmiss : p.status = .live → p.type = .opened → p.usage = .write → p.efd = true → tcode ≠ SSH2_EXTENDED_DATA_STDERR) :
    Stream lim { p with trace := p.trace ++ [.rcvd (.extendedData tcode bytes)] } := by
  have hs := h.sending.note (a := .rcvd (.extendedData tcode bytes)) rfl rfl rfl rfl rfl rfl
  refine { h with sending := { hs with }, receiving := ⟨?_, h.receiving.held, ?_, ?_, ?_, ?_, ?_, ?_⟩ }
  · exact h.receiving.granted_rcvd (Nat.le_add_right _ _)
  · simpa using h.receiving.stream
  · simpa using h.receiving.taken
  · intro hw
    simpa using (h.receiving.ext hw).trans (prefix_append _ _)
  · intro hl ht hw he
    simpa [hmiss hl ht hw he] using h.receiving.extTaken hl ht hw he
  · simpa using h.receiving.noExt
  · simpa using h.receiving.fits

theorem Stream.takeExt (hlive : p.status = .live) (htype : p.type = .opened) (husage : p.usage = .write)
    (hefd : p.efd = true) (hfits : bytes.length ≤ p.localWindow) : Stream lim { p with
      trace := p.trace ++ [.rcvd (.extendedData SSH2_EXTENDED_DATA_STDERR bytes)]
      extended := p.extended ++ bytes
      localWindow := p.localWindow - bytes.length } := by
  have hs := h.sending.note (a := .rcvd (.extendedData SSH2_EXTENDED_DATA_STDERR bytes)) rfl rfl rfl rfl rfl rfl
  have htaken := h.receiving.extTaken hlive htype husage hefd
  have hread : ¬p.usage = .read := by rw [husage]; simp
  refine { h with sending := { hs with ext := fun hr => absurd hr hread }, receiving := ⟨?_, ?_, ?_, ?_, ?_, ?_, ?_, ?_⟩ }
  · exact h.receiving.granted_rcvd le_tsub_add
  · have := h.receiving.held
    rw [if_pos husage] at this ⊢
    simp only [length_append]
    omega
  · simpa using h.receiving.stream
  · simpa using h.receiving.taken
  · simp [← htaken]
  · simp [← htaken]
  · exact absurd husage
  · simpa using h.receiving.fits

theorem Stream.takeAdjust {r : ℕ} (hr : r ≤ p.remoteWindow + n) :
    Stream lim { p with trace := p.trace ++ [.rcvd (.windowAdjust n)], remoteWindow := r } := by
  have hn := h.receiving.note (a := .rcvd (.windowAdjust n)) rfl rfl rfl rfl rfl (by simp) (by simp)
  refine { h with sending := ⟨?_, ?_, ?_, ?_, ?_, ?_⟩, receiving := { hn with } }
  · have := h.sending.spent
    simp only [sends_snoc, rcvds_snoc, Act.sends, Act.rcvds, credits_append, credits_singleton, Msg.credit, append_nil]
    omega
  · simpa using h.sending.small
  · simpa using h.sending.stream
  · simpa using h.sending.pending
  · simpa using h.sending.ext
  · simpa using h.sending.noExt

end

/-! ### Everything that happens here -/

theorem Stream.flags (h : Stream lim p) (eofSent closeSent closeRcvd : Bool) :
    Stream lim { p with eofSent := eofSent, closeSent := closeSent, closeRcvd := closeRcvd } :=
  { h with sending := { h.sending with }, receiving := { h.receiving with } }

variable {p' : Core}

theorem stream_move {drops : Bool} (hm : Move drops p p') (h : Stream lim p) : Stream lim p' := by
  cases hm with
  | drainInput hin => exact h.drainInput hin
  | closeInput => exact h.closeInput
  | dropInput => exact h.dropInput
  | sendEof => exact (h.note (a := .sent .eof) trivial).closeInput.flags true _ _
  | drainOutput => exact h.drainOutput
  | closeOutput => exact h.closeOutput
  | dropOutput => exact h.dropOutput
  | sendEow => exact h.note trivial
  | closeEfd => exact h.closeEfd
  | markDead => exact h.retype (.inl rfl)
  | abandon => exact h.retype (.inr rfl)
  | die => exact h.ends (by simp)
  | read => exact h.readInput _
  | send _ hin _ hn hw hmax => exact h.sendData hin hn hw hmax
  | write => exact h.writeOutput _
  | readExt hu => exact h.readExt hu _
  | sendExt hu _ _ hn hw hmax => exact h.sendExt hu hn hw hmax
  | writeExt hu => exact h.writeExt hu _
  | adjust => exact h.adjust
  -- a stream is no datagram channel
  | readDatagram hd | skipDatagram hd | loseDatagram hd | writeDatagram hd => exact absurd (hd.symm.trans h.plain) (by simp)

theorem stream_collect (hc : Collect p p') (h : Stream lim p) : Stream lim p' := by
  cases hc with
  | sendClose => exact (h.note (a := .sent .close) trivial).flags _ true _
  | die | free => exact h.ends (by simp)

theorem stream_arrives {m : Msg} (hm : ¬m.carriesData) (ha : Arrives m p p') (h : Stream lim p) : Stream lim p' := by
  cases ha with
  | eof | eow => exact h.note trivial
  | close => exact (h.note (a := .rcvd .close) trivial).flags _ _ _
  | adjust => exact h.takeAdjust (Nat.mod_le _ _)
  | overflow => exact (h.takeAdjust (Nat.le_add_right _ _)).ends (by simp)
  | miss _ hdata => exact absurd hdata hm
  | take _ hdata =>
    rcases hdata with ⟨_, rfl⟩ | ⟨⟨_, _, rfl⟩, -⟩
    · exact absurd trivial hm
    · exact absurd trivial hm

end Rules

/-! ## Events -/

section Functions

variable {lim : Limits} {k : Compat} {c : Channel}

/-- **What happens here.** Everything that is not a message keeps a stream. -/
theorem flows_apply (k : Compat) (l : Local) (hlive : c.status = .live) : Flows (Stream lim) [] c.core (l.apply k c).core := by
  rcases does_apply k l hlive with h | ⟨-, h⟩ | ⟨-, q, hpost, h, -⟩
  · exact .of_does stream_move h
  · exact .of_collect stream_collect h
  · -- a stream sends no datagram
    obtain ⟨pkt, rest, hd, -⟩ := id hpost
    refine (Flows.of_posted (fun hs => ?_) hpost).after (.of_does stream_move h)
    exact absurd (hd.symm.trans hs.plain) (by simp)

variable {data : List UInt8}

theorem flows_inputData (hlive : c.status = .live) (hplain : c.datagram = false)
    (hfits : data.length ≤ c.localWindow) (hsmall : data.length ≤ c.localMaxpacket) :
    Flows (Stream lim) [.data data] c.core (channelInputData data c).core := by
  have hlen : winLen (c.record (.rcvd (.data data))) data = data.length := by
    exact if_neg (by rw [Channel.record, hplain]; simp)
  unfold channelInputData
  extract_lets c₁ c₂
  refine .ite (fun hnot => ?_) fun htakes => .ite (fun hout => ?_) fun hout => .ite (fun hbig => ?_) fun _ =>
    .ite (fun hmuch => ?_) fun _ => ?_
  · refine .entry (.rcvd (.data data)) rfl fun hs => hs.missData (fun hopen => ?_) data
    exact absurd (.inl hopen) hnot
  · rw [hlen]
    exact .entry (.rcvd (.data data)) rfl fun hs => hs.dropData hout hfits
  · exact absurd (show data.length > c.localMaxpacket by rwa [hlen] at hbig) (by omega)
  · exact absurd (show data.length > c.localWindow by rwa [hlen] at hmuch) (by omega)
  · have hpipe : (putOutput data { c₁ with localWindow := c₁.localWindow - winLen c₁ data, localWindowExceeded := 0 }).core =
        { c.core with
          trace := c.trace ++ [.rcvd (.data data)]
          output := c.output ++ data
          localWindow := c.localWindow - data.length } := by
      rw [hlen]
      simp [putOutput, Channel.core, c₁, Channel.record, hplain]
    refine .entry (.rcvd (.data data)) rfl fun hs => ?_
    rw [hpipe]
    refine hs.takeData hlive ?_ (not_not.1 hout) hfits
    -- a stream that takes data is open
    rcases hs.types with h | h | h
    · exact h
    · exact absurd htakes (by rw [show c₁.type = .zombie from h]; decide)
    · exact absurd htakes (by rw [show c₁.type = .abandoned from h]; decide)

theorem flows_inputExtendedData (k : Compat) (hlive : c.status = .live) (tcode : ℕ)
    (hfits : data.length ≤ c.localWindow) : Flows (Stream lim) [.extendedData tcode data] c.core
    (channelInputExtendedData k tcode data c).core := by
  unfold channelInputExtendedData
  extract_lets c₁
  have hlog : ∀ line, line ≠ LogLine.tooMuchData ∧ line ≠ .tooMuchExtendedData → Flows (Stream lim) [] c₁.core
    (c₁.record (.logit line)).core := by
    intro line hline
    exact .entry (.logit line) rfl fun hs => hs.note hline
  refine .ite (fun htype => ?_) fun htype => .ite (fun _ => ?_) fun _ => .ite (fun hbad => ?_) fun hgood =>
    .ite (fun hmuch => absurd (show data.length > c.localWindow from hmuch) (by omega)) fun _ => ?_
  · refine (Flows.entry (.rcvd (.extendedData tcode data)) rfl fun hs => ?_).after (hlog _ (by simp))
    exact hs.missExt fun _ hopen => absurd hopen htype
  · -- the process ends
    refine .entry (.rcvd (.extendedData tcode data)) rfl fun hs => ?_
    exact (hs.ends (t := .died) (by simp)).missExt fun hl => by cases hl
  · refine (Flows.entry (.rcvd (.extendedData tcode data)) rfl fun hs => ?_).after (hlog _ (by simp))
    refine hs.missExt fun _ _ hwrite hefd => ?_
    rcases hbad with h | h | h
    · exact absurd (h.symm.trans hefd) (by simp)
    · exact absurd hwrite h
    · exact h
  · have hefd : c.efd = true := by
      cases h : c.efd with
      | true => rfl
      | false => exact absurd (.inl h) hgood
    have hwrite : c.extendedUsage = .write := by
      by_contra h
      exact hgood (.inr (.inl h))
    obtain rfl : tcode = SSH2_EXTENDED_DATA_STDERR := by
      by_contra h
      exact hgood (.inr (.inr h))
    exact .entry (.rcvd (.extendedData _ data)) rfl fun hs => hs.takeExt hlive (not_not.1 htype) hwrite hefd hfits

/-- **What the peer sends.** A message that fits into the window and into a packet keeps a stream. -/
theorem flows_input (k : Compat) (hlive : c.status = .live) (hplain : c.datagram = false) {m : Msg}
    (hfits : m.size ≤ c.localWindow) (hsmall : m.size ≤ c.localMaxpacket) : Flows (Stream lim) [m] c.core
    (channelInput k m c).core := by
  have hplainMsg : ∀ m : Msg, ¬m.carriesData → Flows (Stream lim) [m] c.core (channelInput k m c).core := by
    intro m hm
    obtain ⟨q, harr, h⟩ := does_input k m c
    exact .of_arrives (stream_arrives hm) stream_move harr h
  cases m with
  | data bytes => exact flows_inputData hlive hplain hfits hsmall
  | extendedData tcode bytes => exact flows_inputExtendedData k hlive tcode hfits
  | windowAdjust | eof | close | eow => exact hplainMsg _ id

end Functions

end OpenSSHServerPN.Channels
