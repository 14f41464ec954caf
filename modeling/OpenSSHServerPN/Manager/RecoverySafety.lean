/-
Safety of commit-confirmed recovery: what holds in every state that any calls, ending in any way, can lead to.

`Inv` is the invariant of the moves. A record is known if it is in the journal or was continued by a later one; `Reach` are the
identifiers that the journal has or can get back by `Unprepare`. A settled identifier is not among them, so it is settled once.
`Sound` says what held when an event was logged.

Results: `inv_move`, `inv_run`.
-/
import OpenSSHServerPN.Manager.RecoveryMoves

namespace OpenSSHServerPN.Recovery

open Match Faulty List

variable {P : Platform} {g : Guard} {s s' : State}

/-! ## The invariant -/

/-- a record that a later call can write again -/
def Known (s : State) (r : Record) : Prop := s.journal = some r ∨ ∃ id, Event.continued id r ∈ s.log

/-- identifiers the journal has, unsettled, or can get back -/
inductive Reach (s : State) : ℕ → Prop
  | current (r : Record) : s.journal = some r → r.status.terminal = false → Reach s r.id
  | back (id : ℕ) (old : Record) : Reach s id → Event.continued id old ∈ s.log → Reach s old.id

/-- the record with this identifier was written with this last status -/
def Settled (log : List Event) (id : ℕ) (st : Status) : Prop :=
  st.terminal = true ∧ ∃ r live, Event.wrote r live ∈ log ∧ r.id = id ∧ r.status = st

/-- `sshd_config` is the previous file of the record, or not there if there was none -/
def HasPrevious (P : Platform) (r : Record) (live : Option Text) : Prop :=
  if r.previous = true then ∃ c, live = some c ∧ r.before = some (P.hash c) else live = none

/-- what held when an event was logged, in terms of the events before it -/
def Sound (P : Platform) (log : List Event) : Event → Prop
  | .wrote r live => r.status = .restored → HasPrevious P r live ∧
      ∃ r₀, Event.restart r₀ ∈ log ∧ r₀.id = r.id ∧ r₀.firewall = r.firewall
  | .replaced r old => P.fileHash old = r.applied ∨ HasPrevious P r old
  | .restart r => FirewallDone log r
  | .continued _ _ => True
  | .firewall _ _ => True

structure Inv (P : Platform) (s : State) : Prop where
  known_lt : ∀ r, Known s r → r.id < s.next
  continued_lt : ∀ id old, Event.continued id old ∈ s.log → id < s.next
  wrote_lt : ∀ r live, Event.wrote r live ∈ s.log → r.id < s.next
  continued_prepared : ∀ id old, Event.continued id old ∈ s.log → old.status = .prepared
  tokens : ∀ t ∈ s.tokens, t.continued = true → ∃ old, t.previous = some old ∧ Event.continued t.id old ∈ s.log
  prepared_phase : ∀ r, Known s r → r.status = .prepared → r.phase = .applied
  before : ∀ r, Known s r → r.previous = true → ∃ h, r.before = some h ∧ h ≠ []
  deadline : ∀ r, s.journal = some r → r.status = .pending → r.deadline.isSome = true
  firewall : ∀ r, s.journal = some r → r.status = .pending → r.phase = .firewallRestored → FirewallDone s.log r
  settled : ∀ id st, Settled s.log id st → ¬Reach s id
  once : ∀ id st st', Settled s.log id st → Settled s.log id st' → st = st'
  sound : ∀ a e, a ++ [e] <+: s.log → Sound P a e

/-- nothing written yet -/
structure Initial (s : State) : Prop where
  journal : s.journal = none
  tokens : s.tokens = []
  log : s.log = []

theorem inv_initial (h : Initial s) : Inv P s := by
  constructor <;> simp [h.journal, h.tokens, h.log, Known, Settled]

variable {live : Option Text}

theorem fileHash_eq_nil : P.fileHash live = [] ↔ live = none := by
  cases live with
  | none => simp [Platform.fileHash]
  | some c => simp [Platform.fileHash, P.hash_ne_nil c]

variable {r : Record}

/-- a record that names a hash names it of a file -/
theorem hasPrevious_iff (h : r.previous = true → ∃ b, r.before = some b ∧ b ≠ []) :
    HasPrevious P r live ↔ beforeHash r = some (P.fileHash live) := by
  unfold HasPrevious beforeHash
  split_ifs with hp
  · obtain ⟨b, hb, hne⟩ := h hp
    constructor
    · intro hlive
      obtain ⟨c, rfl, hc⟩ := hlive
      exact hc
    intro hbefore
    cases live with
    | none =>
      rw [hb] at hbefore
      simp only [Platform.fileHash, Option.some.injEq] at hbefore
      exact absurd hbefore hne
    | some c => exact ⟨c, rfl, hbefore⟩
  · rw [Option.some.injEq, eq_comm, eq_comm (a := [])]
    exact ⟨fun hl => fileHash_eq_nil.2 hl.symm, fun hl => (fileHash_eq_nil.1 hl).symm⟩

/-! ## Moves that write no record -/

variable {log : List Event}

theorem FirewallDone.append (h : FirewallDone log r) (l : List Event) :
    FirewallDone (log ++ l) r := fun rule hrule => mem_append_left l (h rule hrule)

/-- an event that is not about a record of the journal -/
def Event.isNote : Event → Bool
  | .wrote _ _ | .continued _ _ => false
  | .replaced _ _ | .firewall _ _ | .restart _ => true

variable {e : Event} {l : List Event}

theorem mem_notes {x : Event} (hl : ∀ e ∈ l, e.isNote = true) (hx : x.isNote = false) (h : x ∈ log ++ l) : x ∈ log := by
  rcases mem_append.1 h with h | h
  · exact h
  · rw [hl x h] at hx
    cases hx

theorem known_notes (hnotes : ∀ e ∈ l, e.isNote = true) (hj : s'.journal = s.journal) (hl : s'.log = s.log ++ l)
    (hr : Known s' r) : Known s r := by
  rcases hr with hr | ⟨id, hc⟩
  · exact .inl (hj ▸ hr)
  · exact .inr ⟨id, mem_notes hnotes rfl (hl ▸ hc)⟩

/-- **More events**, none about a record of the journal, and results of calls that are accounted for. -/
theorem Inv.notes (h : Inv P s) (hnotes : ∀ e ∈ l, e.isNote = true) (hj : s'.journal = s.journal) (hn : s'.next = s.next)
    (hl : s'.log = s.log ++ l) (hsound : ∀ a e, a ++ [e] <+: s.log ++ l → a ++ [e] <+: s.log ∨ Sound P a e)
    (ht : ∀ t ∈ s'.tokens, t.continued = true → ∃ old, t.previous = some old ∧ Event.continued t.id old ∈ s.log) :
    Inv P s' := by
  have hcont : ∀ id old, Event.continued id old ∈ s'.log → Event.continued id old ∈ s.log := by
    intro id old hc
    exact mem_notes hnotes rfl (hl ▸ hc)
  have hwrote : ∀ r live, Event.wrote r live ∈ s'.log → Event.wrote r live ∈ s.log := by
    intro r live hw
    exact mem_notes hnotes rfl (hl ▸ hw)
  have hsettled : ∀ id st, Settled s'.log id st → Settled s.log id st := by
    intro id st hs
    obtain ⟨hterminal, r, live, hw, hrest⟩ := hs
    exact ⟨hterminal, r, live, hwrote r live hw, hrest⟩
  have hknown : ∀ r, Known s' r → Known s r := fun r hr => known_notes hnotes hj hl hr
  have hreach : ∀ id, Reach s' id → Reach s id := by
    intro id hr
    induction hr with
    | current r hr ho => exact .current r (hj ▸ hr) ho
    | back id old _ hc ih => exact .back id old ih (hcont id old hc)
  exact {
    known_lt := fun r hr => hn ▸ h.known_lt r (hknown r hr)
    continued_lt := fun id old hc => hn ▸ h.continued_lt id old (hcont id old hc)
    wrote_lt := fun r live hw => hn ▸ h.wrote_lt r live (hwrote r live hw)
    continued_prepared := fun id old hc => h.continued_prepared id old (hcont id old hc)
    tokens := by
      intro t ht' hc
      obtain ⟨old, hold, hmem⟩ := ht t ht' hc
      exact ⟨old, hold, by rw [hl]; exact mem_append_left _ hmem⟩
    prepared_phase := fun r hr => h.prepared_phase r (hknown r hr)
    before := fun r hr => h.before r (hknown r hr)
    deadline := fun r hr => h.deadline r (hj ▸ hr)
    firewall := fun r hr hpending hphase => by rw [hl]; exact (h.firewall r (hj ▸ hr) hpending hphase).append _
    settled := fun id st hs hr => h.settled id st (hsettled id st hs) (hreach id hr)
    once := fun id st st' hs hs' => h.once id st st' (hsettled id st hs) (hsettled id st' hs')
    sound := fun a e he => (hsound a e (hl ▸ he)).elim (h.sound a e) id }

theorem Inv.quiet (h : Inv P s) (hj : s'.journal = s.journal) (hn : s'.next = s.next) (hl : s'.log = s.log)
    (ht : ∀ t ∈ s'.tokens, t.continued = true → ∃ old, t.previous = some old ∧ Event.continued t.id old ∈ s.log) :
    Inv P s' :=
  h.notes (by simp) hj hn (by rw [hl, append_nil]) (fun _ _ he => .inl (append_nil s.log ▸ he)) ht

theorem Inv.congr (h : Inv P s) (hj : s'.journal = s.journal) (hn : s'.next = s.next) (ht : s'.tokens = s.tokens)
    (hl : s'.log = s.log) : Inv P s' := h.quiet hj hn hl fun t ht' => h.tokens t (ht ▸ ht')

theorem concat_prefix_concat {l a : List Event} {x : Event} : a ++ [e] <+: l ++ [x] ↔ (a = l ∧ e = x) ∨ a ++ [e] <+: l := by
  simp [prefix_concat_iff]

/-- **One more event.** -/
theorem Inv.note (h : Inv P s) (he : e.isNote = true) (hsound : Sound P s.log e)
    (hj : s'.journal = s.journal) (hn : s'.next = s.next) (ht : s'.tokens = s.tokens) (hl : s'.log = s.log ++ [e]) :
    Inv P s' := by
  refine h.notes (by simpa using he) hj hn hl (fun a x hx => ?_) fun t ht' => h.tokens t (ht ▸ ht')
  rcases concat_prefix_concat.1 hx with ⟨rfl, rfl⟩ | hx
  · exact .inr hsound
  · exact .inl hx

theorem Inv.issue (h : Inv P s) {t : PreparedSave}
    (ht : t.continued = true → ∃ old, t.previous = some old ∧ Event.continued t.id old ∈ s.log) :
    Inv P { s with tokens := s.tokens ++ [t] } := by
  refine h.quiet rfl rfl rfl fun u hu hc => ?_
  rcases mem_append.1 hu with hu | hu
  · exact h.tokens u hu hc
  · rw [mem_singleton.1 hu] at hc ⊢
    exact ht hc

/-! ## Moves that write a record -/

/-- what a record needs to be written; `cont` is the one it continues -/
structure Writable (P : Platform) (s : State) (cont : Option Record) (r : Record) : Prop where
  /-- it has a new identifier or one the journal can get back -/
  id : r.id = s.next ∧ r.status = .prepared ∨ Reach s r.id ∧ cont = none
  cont : ∀ old, cont = some old → s.journal = some old ∧ old.status = .prepared
  phase : r.status = .prepared → r.phase = .applied
  before : r.previous = true → ∃ h, r.before = some h ∧ h ≠ []
  deadline : r.status = .pending → r.deadline.isSome = true
  firewall : r.status = .pending → r.phase = .firewallRestored → FirewallDone s.log r
  sound : Sound P s.log (.wrote r s.live)

/-- the events of a write -/
def writeEvents (s : State) (cont : Option Record) (r : Record) : List Event :=
  cont.toList.map (Event.continued r.id) ++ [.wrote r s.live]

/-- the state after a write -/
def State.put (s : State) (cont : Option Record) (r : Record) : State :=
  { s.write r with log := s.log ++ writeEvents s cont r }

variable {old : Record}

section Put

variable {cont : Option Record} {r : Record}

variable {id : ℕ}

theorem continued_put (cont : Option Record) (h : Event.continued id old ∈ (s.put cont r).log) :
    Event.continued id old ∈ s.log ∨ id = r.id ∧ cont = some old := by
  simp only [State.put, writeEvents, mem_append, mem_map, Option.mem_toList, mem_singleton] at h
  rcases h with h | ⟨x, hx, he⟩ | h
  · exact .inl h
  · simp only [Event.continued.injEq] at he
    exact .inr ⟨he.1.symm, by rw [hx, he.2]⟩
  · cases h

theorem wrote_put {x : Record} (h : Event.wrote x live ∈ (s.put cont r).log) : Event.wrote x live ∈ s.log ∨ x = r := by
  simp only [State.put, writeEvents, mem_append, mem_map, mem_singleton] at h
  rcases h with h | ⟨x', _, he⟩ | h
  · exact .inl h
  · cases he
  · simp only [Event.wrote.injEq] at h
    exact .inr h.1

theorem settled_put {st : Status} (h : Settled (s.put cont r).log id st) :
    Settled s.log id st ∨ r.id = id ∧ r.status = st ∧ st.terminal = true := by
  obtain ⟨hterminal, x, live, hw, hid, hst⟩ := h
  rcases wrote_put hw with hw | rfl
  · exact .inl ⟨hterminal, x, live, hw, hid, hst⟩
  · exact .inr ⟨hid, hst, hterminal⟩

theorem known_put (hw : Writable P s cont r) {x : Record} (h : Known (s.put cont r) x) : Known s x ∨ x = r := by
  rcases h with h | ⟨id, hc⟩
  · simp only [State.put, State.write, Option.some.injEq] at h
    exact .inr h.symm
  · rcases continued_put _ hc with hc | ⟨_, hcont⟩
    · exact .inl (.inr ⟨id, hc⟩)
    · exact .inl (.inl (hw.cont x hcont).1)

theorem reach_put (h : Inv P s) (hw : Writable P s cont r) (hr : Reach (s.put cont r) id) :
    Reach s id ∨ id = s.next := by
  induction hr with
  | current x hx _ =>
    simp only [State.put, State.write, Option.some.injEq] at hx
    subst hx
    rcases hw.id with hid | hid
    · exact .inr hid.1
    · exact .inl hid.1
  | back id old _ hc ih =>
    rcases continued_put _ hc with hc | ⟨_, hcont⟩
    · rcases ih with ih | rfl
      · exact .inl (.back id old ih hc)
      · exact absurd (h.continued_lt _ old hc) (lt_irrefl _)
    · obtain ⟨hj, hprepared⟩ := hw.cont old hcont
      exact .inl (.current old hj (by rw [hprepared]; rfl))

/-- **A record is written.** -/
theorem Inv.put (h : Inv P s) (hw : Writable P s cont r) : Inv P (s.put cont r) := by
  have hnext : s.next ≤ (s.put cont r).next := le_max_left _ _
  have hid : r.id < (s.put cont r).next := Nat.lt_of_succ_le (le_max_right _ _)
  have hlog : ∀ e ∈ s.log, e ∈ (s.put cont r).log := fun e he => mem_append_left _ he
  -- an identifier that was settled before is neither new nor reachable
  have hdead : ∀ id st, Settled s.log id st → ¬Reach (s.put cont r) id := by
    intro id st hs hr
    rcases reach_put h hw hr with hr | rfl
    · exact h.settled id st hs hr
    · obtain ⟨_, x, live, hx, hxid, _⟩ := hs
      have hlt : x.id < s.next := h.wrote_lt x live hx
      omega
  have hnot : ∀ st, r.status.terminal = true → ¬Settled s.log r.id st := by
    intro st hterminal hs
    rcases hw.id with hid | hid
    · rw [hid.2] at hterminal
      cases hterminal
    · exact h.settled r.id st hs hid.1
  refine {
    known_lt := ?_, continued_lt := ?_, wrote_lt := ?_, continued_prepared := ?_, tokens := ?_, prepared_phase := ?_,
    before := ?_, deadline := ?_, firewall := ?_, settled := ?_, once := ?_, sound := ?_ }
  · intro x hx
    rcases known_put hw hx with hx | rfl
    · exact lt_of_lt_of_le (h.known_lt x hx) hnext
    · exact hid
  · intro id old hc
    rcases continued_put _ hc with hc | ⟨rfl, _⟩
    · exact lt_of_lt_of_le (h.continued_lt id old hc) hnext
    · exact hid
  · intro x live hx
    rcases wrote_put hx with hx | rfl
    · exact lt_of_lt_of_le (h.wrote_lt x live hx) hnext
    · exact hid
  · intro id old hc
    rcases continued_put _ hc with hc | ⟨_, hcont⟩
    · exact h.continued_prepared id old hc
    · exact (hw.cont old hcont).2
  · intro t ht hc
    obtain ⟨old, hold, hmem⟩ := h.tokens t ht hc
    exact ⟨old, hold, hlog _ hmem⟩
  · intro x hx
    rcases known_put hw hx with hx | rfl
    · exact h.prepared_phase x hx
    · exact hw.phase
  · intro x hx
    rcases known_put hw hx with hx | rfl
    · exact h.before x hx
    · exact hw.before
  · intro x hx
    simp only [State.put, State.write, Option.some.injEq] at hx
    exact hx ▸ hw.deadline
  · intro x hx hpending hphase
    simp only [State.put, State.write, Option.some.injEq] at hx
    subst hx
    exact (hw.firewall hpending hphase).append _
  · intro id st hs hr
    rcases settled_put hs with hs | ⟨rfl, rfl, hterminal⟩
    · exact hdead id st hs hr
    -- the journal is settled, so nothing is reachable any more
    have hnone : ∀ id, ¬Reach (s.put cont r) id := by
      intro id hr
      induction hr with
      | current x hx ho =>
        simp only [State.put, State.write, Option.some.injEq] at hx
        rw [← hx, hterminal] at ho
        cases ho
      | back _ _ _ _ ih => exact ih
    exact hnone _ hr
  · intro id st st' hs hs'
    rcases settled_put hs with hs | ⟨rfl, rfl, hterminal⟩
    · rcases settled_put hs' with hs' | ⟨rfl, rfl, hterminal'⟩
      · exact h.once id st st' hs hs'
      · exact absurd hs (hnot st hterminal')
    · rcases settled_put hs' with hs' | ⟨_, rfl, _⟩
      · exact absurd hs' (hnot st' hterminal)
      · rfl
  · intro a e he
    have hsplit : (s.put cont r).log = s.log ++ cont.toList.map (Event.continued r.id) ++ [.wrote r s.live] := by
      simp [State.put, writeEvents]
    rw [hsplit, concat_prefix_concat] at he
    rcases he with ⟨rfl, rfl⟩ | he
    · intro hrestored
      obtain ⟨hbefore, r₀, hmem, hrest⟩ := hw.sound hrestored
      exact ⟨hbefore, r₀, mem_append_left _ hmem, hrest⟩
    · cases hcont : cont with
      | none =>
        rw [hcont] at he
        exact h.sound a e (by simpa using he)
      | some old =>
        rw [hcont] at he
        simp only [Option.toList_some, map_cons, map_nil, concat_prefix_concat] at he
        rcases he with ⟨-, rfl⟩ | he
        · trivial
        · exact h.sound a e he

end Put

/-! ## Every move -/

/-- a record that is not restored is logged without a condition -/
theorem sound_wrote (h : r.status ≠ .restored) : Sound P log (.wrote r live) := fun hr => absurd hr h

theorem Root.writable (hr : Root P s r) : Writable P s none r where
  id := .inl ⟨hr.id, hr.status⟩
  cont := by simp
  phase := fun _ => hr.phase
  before := by
    intro hp
    obtain ⟨c, _, hbefore⟩ := hr.before hp
    exact ⟨P.hash c, hbefore, P.hash_ne_nil c⟩
  deadline := by simp [hr.status]
  firewall := by simp [hr.phase]
  sound := sound_wrote (by simp [hr.status])

theorem Chain.writable (h : Inv P s) (hc : Chain P s old r) : Writable P s (some old) r where
  id := .inl ⟨hc.id, hc.status⟩
  cont := by
    intro x hx
    simp only [Option.some.injEq] at hx
    subst hx
    exact ⟨hc.journal, hc.prepared⟩
  phase := fun _ => hc.phase
  before := by
    intro hp
    rw [hc.before hp]
    exact h.before old (.inl hc.journal) (hc.previous ▸ hp)
  deadline := by simp [hc.status]
  firewall := by simp [hc.phase]
  sound := sound_wrote (by simp [hc.status])

theorem writable_back (h : Inv P s) (hj : s.journal = some r) (hr : r.status = .prepared)
    (ht : ∃ t ∈ s.tokens, t.continued = true ∧ t.id = r.id ∧ t.previous = some old) : Writable P s none old := by
  obtain ⟨t, hmem, hcontinued, hid, hprev⟩ := ht
  obtain ⟨old', hold', hc⟩ := h.tokens t hmem hcontinued
  rw [hprev, Option.some.injEq] at hold'
  subst hold'
  have hstatus : old.status = .prepared := h.continued_prepared t.id old hc
  have hphase : old.phase = .applied := h.prepared_phase old (.inr ⟨t.id, hc⟩) hstatus
  have hreach : Reach s old.id := by
    apply Reach.back t.id old _ hc
    rw [hid]
    exact .current r hj (by rw [hr]; rfl)
  exact ⟨.inr ⟨hreach, rfl⟩, by simp, fun _ => hphase, h.before old (.inr ⟨t.id, hc⟩), by simp [hstatus], by simp [hphase],
    sound_wrote (by simp [hstatus])⟩

theorem Update.writable (h : Inv P s) {r' : Record} (hu : Update s r r') : Writable P s none r' where
  id := .inr ⟨by rw [hu.same.id]; exact .current r hu.journal hu.unsettled, rfl⟩
  cont := by simp
  phase := by
    intro hp
    obtain ⟨hprepared, hphase⟩ := hu.prepared hp
    rw [hphase]
    exact h.prepared_phase r (.inl hu.journal) hprepared
  before := by
    intro hp
    rw [hu.same.before]
    exact h.before r (.inl hu.journal) (hu.same.previous ▸ hp)
  deadline := by
    intro hp
    rcases hu.deadline hp with hd | ⟨hpending, hd⟩
    · exact hd
    · rw [hd]
      exact h.deadline r hu.journal hpending
  firewall := by
    intro _ hp
    rcases hu.firewall with ⟨hprepared, hphase⟩ | ⟨hpending, hfirewall, hdone⟩
    · rw [hphase, h.prepared_phase r (.inl hu.journal) hprepared] at hp
      cases hp
    · rcases hdone hp with hphase | hdone
      · intro rule hrule
        rw [hu.same.id]
        exact h.firewall r hu.journal hpending hphase rule (hfirewall ▸ hrule)
      · exact hdone
  sound := by
    apply sound_wrote
    intro hr
    have hstill := hu.still
    rw [hr] at hstill
    cases hstill

theorem not_terminal_of_pending (h : r.status = .pending) : r.status.terminal = false := by
  rw [h]
  rfl

/-- the last version of a record has no phase or deadline to keep up -/
theorem Settle.writable (h : Inv P s) {r' : Record} (hs : Settle P s r r') : Writable P s none r' where
  id := .inr ⟨by rw [hs.same.id]; exact .current r hs.journal (not_terminal_of_pending hs.pending), rfl⟩
  cont := by simp
  phase := fun hp => by simpa [hp, Status.terminal] using hs.terminal
  before := by
    intro hp
    rw [hs.same.before]
    exact h.before r (.inl hs.journal) (hs.same.previous ▸ hp)
  deadline := fun hp => by simpa [hp, Status.terminal] using hs.terminal
  firewall := fun hp => by simpa [hp, Status.terminal] using hs.terminal
  sound := by
    intro hrestored
    obtain ⟨hlive, hrestart⟩ := hs.restored hrestored
    refine ⟨(hasPrevious_iff ?_).2 hlive, hrestart⟩
    rw [hs.same.previous, hs.same.before]
    exact h.before r (.inl hs.journal)

/-- **The invariant is kept by every move.** -/
theorem inv_move (h : Inv P s) (hm : Move P g s s') : Inv P s' := by
  cases hm with
  | outside | copy => exact h.congr rfl rfl rfl rfl
  | root r _ hr => exact h.put hr.writable
  | place c r _ hr =>
    have hcopy : Inv P { s with saved := some c } := h.congr rfl rfl rfl rfl
    exact hcopy.put hr.writable
  | chain old r hc => exact h.put (hc.writable h)
  | issue t ht => exact h.issue ht
  | back r old hj hr ht => exact h.put (writable_back h hj hr ht)
  | update r r' hu => exact h.put (hu.writable h)
  | settle r r' hs => exact h.put (hs.writable h)
  | replace r live hj hr hguard =>
    have hsound : Sound P s.log (.replaced r s.live) := hguard.imp_right (hasPrevious_iff (h.before r (.inl hj))).2
    exact h.note rfl hsound rfl rfl rfl rfl
  | firewall id rule => exact h.note (e := .firewall id rule) rfl trivial rfl rfl rfl rfl
  | restart r hj hr hphase => exact h.note (e := .restart r) rfl (h.firewall r hj hr hphase) rfl rfl rfl rfl

/-- **The invariant holds in every run.** -/
theorem inv_run (h : Initial s) (calls : List Call) : Inv P (Runs.run (step P) s calls) :=
  run_of_moves (fun _ _ _ h hm => inv_move h hm) calls (inv_initial h)

end OpenSSHServerPN.Recovery
