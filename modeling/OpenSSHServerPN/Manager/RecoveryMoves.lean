/-
What the calls of the recovery transaction can do to the durable objects, one file operation at a time.

Model: a call is an operation with the outcomes of its effects; `outside` is everything other programs and the administrator
do between two calls (edits of `sshd_config`, of its backups and of included files, a restart of sshd). `Move` lists the atomic
changes with what holds at the moment they are made.

Result: `step_moves`, every call, however it ends, is a sequence of moves. Each invariant is proved of a move; a `Guard` says
which copies and which outside edits are among them.
-/
import OpenSSHServerPN.Manager.Recovery

namespace OpenSSHServerPN.Recovery

open Match Faulty

variable (P : Platform)

/-! ## Calls -/

/-- what other programs can change between calls -/
structure World where
  live : Option Text
  backups : Text → Option Text
  includes : Includes
  server : Text
  changed : Bool

def State.inWorld (s : State) (w : World) : State :=
  { s with live := w.live, backups := w.backups, includes := w.includes, server := w.server, changed := w.changed }

inductive Op where
  | prepare (backup : Option Text) (bytes : Text) (deps : Option Deps)
  /-- with the result of the `Prepare` at this place -/
  | unprepare (token : ℕ)
  | arm (backup firewall : Option Text) (due : ℕ) (usePrepared : Bool)
  | confirm (id now : ℕ)
  | confirmAsync (id now : ℕ) (keep : Bool) (edit : State → Option Text × Includes)
  | setDeadline (id now due : ℕ)
  | recover (now : ℕ) (force : Bool) (id : Option ℕ)
  | abandon (id : ℕ) (reason : Text)
  | reportFailure (error : Text)
  | outside (w : World)

structure Call where
  op : Op
  outcomes : List Outcome

def program : Op → M Unit
  | .prepare backup bytes deps => do let _ ← prepare P backup bytes deps
  | .unprepare i => do
    let s ← get
    match s.tokens[i]? with
    | some t => unprepare t
    | none => pure ()
  | .arm backup firewall due usePrepared => do let _ ← arm P backup firewall due usePrepared
  | .confirm id now => confirm P id now
  | .confirmAsync id now keep edit => confirmAsync P id now keep edit
  | .setDeadline id now due => setDeadline id now due
  | .recover now force id => do let _ ← recoverPending P now force id
  | .abandon id reason => abandon id reason
  | .reportFailure error => reportFailure error
  | .outside w => modify (·.inWorld w)

/-- the content a call copies to `previous.config`, if it gets that far -/
def copied (s : State) : Op → Option Text
  | .prepare backup bytes _ =>
    if s.pending = true ∨ (continuedRecord P s backup (P.hash bytes)).isSome then none else backup.bind s.backups
  | .arm backup _ _ usePrepared =>
    if s.pending = true ∨ usePrepared = true ∧ s.journal.any (·.status == .prepared) = true then none
    else backup.bind s.backups
  | _ => none

/-- what other programs do to the files, between calls or while a call waits -/
def edits (s : State) : Op → World → Prop
  | .outside w', w => w = w'
  | .confirmAsync _ _ _ edit, w => w = ⟨(edit s).1, s.backups, (edit s).2, s.server, s.changed⟩
  | _, _ => False

/-- a call, however it ends -/
def step (s : State) (c : Call) : State := exec (program P c.op) s c.outcomes

/-! ## Moves -/

/-- a new record, which names the rollback copy as it is -/
structure Root (s : State) (r : Record) : Prop where
  id : r.id = s.next
  status : r.status = .prepared
  phase : r.phase = .applied
  before : r.previous = true → ∃ c, s.saved = some c ∧ r.before = some (P.hash c)

/-- a new record with the rollback copy of the prepared one -/
structure Chain (s : State) (old r : Record) : Prop where
  journal : s.journal = some old
  prepared : old.status = .prepared
  id : r.id = s.next
  status : r.status = .prepared
  phase : r.phase = .applied
  previous : r.previous = old.previous
  before : r.previous = true → r.before = old.before
  copy : r.previous = true → r.before = some (P.fileHash s.saved)

/-- the firewall a record has was restored -/
def FirewallDone (log : List Event) (r : Record) : Prop := ∀ rule, r.firewall = some rule → Event.firewall r.id rule ∈ log

/-- what every later version of a record keeps -/
structure Same (r r' : Record) : Prop where
  id : r'.id = r.id
  previous : r'.previous = r.previous
  before : r'.before = r.before
  applied : r'.applied = r.applied

/-- a later version of the record, not settled yet -/
structure Update (s : State) (r r' : Record) : Prop where
  journal : s.journal = some r
  same : Same r r'
  unsettled : r.status.terminal = false
  still : r'.status.terminal = false
  prepared : r'.status = .prepared → r.status = .prepared ∧ r'.phase = r.phase
  deadline : r'.status = .pending → r'.deadline.isSome = true ∨ r.status = .pending ∧ r'.deadline = r.deadline
  firewall : r.status = .prepared ∧ r'.phase = r.phase ∨ r.status = .pending ∧ r'.firewall = r.firewall ∧
    (r'.phase = .firewallRestored → r.phase = .firewallRestored ∨ FirewallDone s.log r')

/-- the last version of the record -/
structure Settle (s : State) (r r' : Record) : Prop where
  journal : s.journal = some r
  same : Same r r'
  pending : r.status = .pending
  terminal : r'.status.terminal = true
  restored : r'.status = .restored → beforeHash r' = some (P.fileHash s.live) ∧
    ∃ r₀, Event.restart r₀ ∈ s.log ∧ r₀.id = r'.id ∧ r₀.firewall = r'.firewall

/-- when a rollback copy may be replaced before its record, and what other programs may do -/
structure Guard where
  copy : State → Text → Prop
  edit : State → World → Prop

/-- the atomic changes -/
inductive Move (g : Guard) : State → State → Prop
  | outside (s : State) (w : World) : g.edit s w → Move g s (s.inWorld w)
  | copy (s : State) (c : Text) : s.pending = false → g.copy s c → Move g s { s with saved := some c }
  | root (s : State) (r : Record) : s.pending = false → Root P s r → Move g s (s.write r)
  /-- copy and record together -/
  | place (s : State) (c : Text) (r : Record) : s.pending = false → Root P { s with saved := some c } r →
      Move g s ({ s with saved := some c }.write r)
  | chain (s : State) (old r : Record) : Chain P s old r →
      Move g s { s.write r with log := s.log ++ [.continued r.id old, .wrote r s.live] }
  | issue (s : State) (t : PreparedSave) :
      (t.continued = true → ∃ old, t.previous = some old ∧ Event.continued t.id old ∈ s.log) →
      Move g s { s with tokens := s.tokens ++ [t] }
  | back (s : State) (r old : Record) : s.journal = some r → r.status = .prepared →
      (∃ t ∈ s.tokens, t.continued = true ∧ t.id = r.id ∧ t.previous = some old) → Move g s (s.write old)
  | update (s : State) (r r' : Record) : Update s r r' → Move g s (s.write r')
  | settle (s : State) (r r' : Record) : Settle P s r r' → Move g s (s.write r')
  | replace (s : State) (r : Record) (live : Option Text) : s.journal = some r → r.status = .pending →
      (P.fileHash s.live = r.applied ∨ beforeHash r = some (P.fileHash s.live)) →
      Move g s { s with live := live, changed := true, log := s.log ++ [.replaced r s.live] }
  | firewall (s : State) (id : ℕ) (rule : Text) : Move g s { s with log := s.log ++ [.firewall id rule] }
  | restart (s : State) (r : Record) : s.journal = some r → r.status = .pending → r.phase = .firewallRestored →
      Move g s { s with log := s.log ++ [.restart r] }

/-- a sequence of moves -/
abbrev Moves (g : Guard) : State → State → Prop := Relation.ReflTransGen (Move P g)

variable {P} {g : Guard} {s : State}

/-! ## Parts of the calls -/

variable {I : State → Prop} {Q : Unit → State → Prop} {r : Record} {now id : ℕ} {backup : Option Text}

section
variable (hs : I s)
include hs

theorem wp_requireNotPending (hq : s.pending = false → Q () s) : WP (requireNotPending s) s Q I I := by
  apply wp_require
  · intro h
    exact hq (by simpa using h)
  · exact hs

theorem wp_stored {deps : Option Deps} {Q : Deps → State → Prop} (hq : ∀ d, Q d s) : WP (stored deps) s Q I I := by
  cases deps with
  | none => exact wp_throw hs
  | some d => exact wp_pure (hq d)

theorem wp_requireUnchanged (hq : r.deps.unchanged P.fold s.includes = true → Q () s) : WP (requireUnchanged P r) s Q I I :=
  wp_get (wp_require hq hs)

theorem wp_requireApplied (hq : Q () s) : WP (requireApplied P r) s Q I I :=
  wp_get (wp_require (fun _ => hq) hs)

theorem wp_requireInTime (hq : Q () s) : WP (requireInTime r now) s Q I I :=
  wp_require (fun _ => hq) hs

end

theorem wp_disarmInactive {E C : State → Prop} (hq : Q () s) (hc : C s) : WP disarmInactive s Q E C := by
  apply wp_attempt
  apply wp_effect
  · exact hq
  · intro e
    exact wp_pure hq
  · exact hc

theorem wp_pendingRecord {message : String} {Q : Record → State → Prop} (hs : I s)
    (hq : ∀ r, s.journal = some r → r.status = .pending → Q r s) : WP (pendingRecord id message) s Q I I := by
  apply wp_get
  cases hj : s.journal with
  | none => exact wp_throw hs
  | some r =>
    simp only
    split_ifs with h
    · exact wp_pure (hq r hj h.1)
    · exact wp_throw hs

theorem chain_of_continuedRecord {applied : Text} {old : Record} {kept d : Deps}
    (hj : s.journal = some old) (h : continuedRecord P s backup applied = some (r, kept)) :
    Chain P s old { r with deps := d } := by
  unfold continuedRecord at h
  rw [hj] at h
  cases hserver : old.server with
  | none => simp [hserver] at h
  | some server =>
    simp only [hserver] at h
    split_ifs at h with hstatus happlied hcopy hdeps hprev
    · obtain ⟨rfl, rfl⟩ := h
      push Not at hstatus hcopy
      exact ⟨hj, hstatus.1, rfl, rfl, rfl, rfl, fun _ => rfl, hcopy⟩
    · obtain ⟨rfl, rfl⟩ := h
      push Not at hstatus
      refine ⟨hj, hstatus.1, rfl, rfl, rfl, rfl, ?_, ?_⟩
      · intro hp
        exact absurd hp hprev
      · intro hp
        exact absurd hp hprev

section Moving

variable (hI : ∀ s s', I s → Move P g s s' → I s')
include hI

theorem wp_move {e : Text} {f : State → State} (hs : I s) (hm : Move P g s (f s))
    (hq : I (f s) → Q () (f s)) : WP (effect e f : M Unit) s Q I I :=
  wp_effect (hq (hI _ _ hs hm)) hs hs

/-- a new record is a root of the state it is made in; the copy is the only file that changed -/
theorem wp_newRecord {applied : Text} {Q : Record → State → Prop}
    (hp : s.pending = false) (hg : ∀ c, backup.bind s.backups = some c → g.copy s c) (hs : I s)
    (hq : ∀ r s', I s' → s'.pending = false → Root P s' r → Q r s') : WP (newRecord P backup applied) s Q I I := by
  apply wp_get
  cases backup with
  | none => exact wp_pure (hq _ s hs hp ⟨rfl, rfl, rfl, by simp [recordValues]⟩)
  | some path =>
    simp only
    cases hb : s.backups path with
    | none => exact wp_throw hs
    | some bytes =>
      apply wp_bind
      refine wp_move hI hs (.copy s bytes hp (hg bytes hb)) ?_
      intro hs'
      exact wp_get (wp_pure (hq _ _ hs' hp ⟨rfl, rfl, rfl, fun _ => ⟨bytes, rfl, rfl⟩⟩))

/-! ## Save-only changes -/

theorem wp_prepare {bytes : Text} {deps : Option Deps}
    (hg : ∀ c, copied P s (.prepare backup bytes deps) = some c → g.copy s c) (hs : I s) :
    WP (prepare P backup bytes deps) s (fun _ => I) I I := by
  apply wp_get
  apply wp_bind
  apply wp_requireNotPending hs
  intro hp
  split
  · rename_i old r kept hj hc
    apply wp_bind
    apply wp_stored hs
    intro d
    have hchain : Chain P s old { r with deps := kept.union P.fold d } := chain_of_continuedRecord hj hc
    apply wp_bind
    refine wp_move hI hs (.chain s old _ hchain) ?_
    intro hs'
    apply wp_bind
    apply wp_modify
    apply wp_pure
    refine hI _ _ hs' (.issue _ _ ?_)
    intro _
    exact ⟨old, hj, by simp⟩
  · rename_i hno
    have hnew : continuedRecord P s backup (P.hash bytes) = none := by
      cases hj : s.journal with
      | none => rw [continuedRecord, hj]
      | some old =>
        cases hc : continuedRecord P s backup (P.hash bytes) with
        | none => rfl
        | some p => exact absurd hc (hno old p.1 p.2 hj)
    apply wp_bind
    apply wp_newRecord hI hp (fun c hc => hg c (by simp [copied, hp, hnew, hc])) hs
    intro r s' hs' hp' hroot
    apply wp_bind
    apply wp_stored hs'
    intro d
    apply wp_bind
    refine wp_move hI hs' (.root s' _ hp' { hroot with }) ?_
    intro hs''
    apply wp_bind
    apply wp_modify
    apply wp_pure
    refine hI _ _ hs'' (.issue _ _ ?_)
    intro hcontinued
    exact absurd hcontinued (by simp)

theorem wp_unprepare {t : PreparedSave} (ht : t ∈ s.tokens) (hs : I s) : WP (unprepare t) s (fun _ => I) I I := by
  apply wp_get
  split
  · rename_i r old hj hold
    split_ifs with h
    · refine wp_move hI hs (.back s r old hj h.2.2 ⟨t, ht, h.1, h.2.1.symm, hold⟩) ?_
      intro hs'
      exact hs'
    · exact wp_pure hs
  · exact wp_pure hs

/-! ## Arming, keeping and giving up -/

variable {due : ℕ} {firewall : Option Text} {usePrepared : Bool}

/-- the record to be armed: the prepared one of the journal, or a new root -/
theorem wp_armedRecord {Q : Record → State → Prop}
    (hp : s.pending = false) (hg : ∀ c, copied P s (.arm backup firewall due usePrepared) = some c → g.copy s c) (hs : I s)
    (hq : ∀ r s', I s' → s'.pending = false → s'.journal = some r ∧ r.status = .prepared ∨ Root P s' r → Q r s') :
    WP (armedRecord P backup usePrepared) s Q I I := by
  have hnew : ¬(usePrepared = true ∧ s.journal.any (·.status == .prepared) = true) →
      WP (freshRecord P backup) s Q I I := by
    intro hno
    apply wp_get
    apply wp_bind
    apply wp_newRecord hI hp (fun c hc => hg c (by rw [copied, if_neg (by simp [hp] at hno ⊢; exact hno), hc])) hs
    intro r s' hs' hp' hroot
    apply wp_bind
    apply wp_stored hs'
    intro d
    exact wp_pure (hq _ s' hs' hp' (.inr { hroot with }))
  apply wp_get
  split
  · rename_i r hj
    split_ifs with h
    · apply wp_bind
      refine wp_require (fun _ => ?_) hs
      apply wp_bind
      refine wp_require (fun _ => ?_) hs
      exact wp_pure (hq r s hs hp (.inl ⟨hj, h.2⟩))
    · apply hnew
      simpa [hj] using h
  · rename_i hj
    apply hnew
    simp [hj]

theorem wp_schedule (hj : s.journal = some r) (hr : r.status = .prepared) (hd : r.deadline.isSome = true) (hs : I s) :
    WP (schedule r) s (fun _ => I) I I := by
  have hopen : r.status.terminal = false := by rw [hr]; rfl
  apply wp_bind
  apply wp_attempt
  -- a failure of either effect leaves the prepared record, which then gets the message
  have hfail : ∀ e, WP (do
      write { r with status := .prepared, error := e }
      throw e : M Unit) s (fun _ s' => WP (pure r.id : M ℕ) s' (fun _ => I) I I)
      I I := by
    intro e
    apply wp_bind
    refine wp_move hI hs (.update s r _ ⟨hj, ⟨rfl, rfl, rfl, rfl⟩, hopen, rfl, fun _ => ⟨hr, rfl⟩, ?_, .inl ⟨hr, rfl⟩⟩) ?_
    · intro h
      cases h
    · intro hs'
      exact wp_throw hs'
  apply wp_bind
  apply wp_effect
  · apply wp_effect
    · apply wp_pure
      refine hI _ _ hs (.update s r _ ⟨hj, ⟨rfl, rfl, rfl, rfl⟩, hopen, rfl, ?_, fun _ => .inl hd, .inl ⟨hr, rfl⟩⟩)
      intro h
      cases h
    · exact hfail
    · exact hs
  · exact hfail
  · exact hs

theorem wp_arm
    (hg : ∀ c, copied P s (.arm backup firewall due usePrepared) = some c → g.copy s c) (hs : I s) :
    WP (arm P backup firewall due usePrepared) s (fun _ => I) I I := by
  apply wp_get
  apply wp_bind
  apply wp_requireNotPending hs
  intro hp
  apply wp_bind
  apply wp_armedRecord hI hp hg hs
  intro r s' hs' hp' hr
  apply wp_bind
  apply wp_requireUnchanged hs'
  intro _
  apply wp_bind
  have hstatus : r.status = .prepared := hr.elim (fun h => h.2) (fun h => h.status)
  have hmove : Move P g s' (s'.write { r with deadline := some due, firewall := firewall }) := by
    rcases hr with ⟨hj, hprepared⟩ | hroot
    · refine .update s' r _ ⟨hj, ⟨rfl, rfl, rfl, rfl⟩, ?_, ?_, fun _ => ⟨hprepared, rfl⟩, fun _ => .inl rfl, .inl ⟨hprepared, rfl⟩⟩
      · rw [hprepared]
        rfl
      · simp [hprepared, Status.terminal]
    · exact .root s' _ hp' { hroot with }
  refine wp_move hI hs' hmove ?_
  intro hs''
  exact wp_schedule hI rfl hstatus rfl hs''

variable {r' : Record}

theorem wp_settle (hj : s.journal = some r) (hr : r.status = .pending) (hsame : Same r r')
    (hterminal : r'.status.terminal = true) (hrestored : r'.status ≠ .restored) (hs : I s) :
    WP (do write r'; disarmInactive) s (fun _ => I) I I := by
  apply wp_bind
  refine wp_move hI hs (.settle s r r' ⟨hj, hsame, hr, hterminal, fun h => absurd h hrestored⟩) ?_
  intro hs'
  exact wp_disarmInactive hs' hs'

theorem wp_confirm (hs : I s) : WP (confirm P id now) s (fun _ => I) I I := by
  apply wp_bind
  apply wp_pendingRecord hs
  intro r hj hr
  apply wp_bind
  apply wp_requireApplied hs
  apply wp_bind
  apply wp_requireUnchanged hs
  intro _
  apply wp_bind
  apply wp_requireInTime hs
  exact wp_settle hI hj hr ⟨rfl, rfl, rfl, rfl⟩ rfl (by simp) hs

theorem wp_confirmAsync {keep : Bool} {edit : State → Option Text × Includes}
    (hg : ∀ w, edits s (.confirmAsync id now keep edit) w → g.edit s w) (hs : I s) :
    WP (confirmAsync P id now keep edit) s (fun _ => I) I I := by
  apply wp_bind
  apply wp_pendingRecord hs
  intro r hj hr
  apply wp_bind
  apply wp_requireInTime hs
  apply wp_bind
  apply wp_requireApplied hs
  apply wp_bind
  apply wp_requireUnchanged hs
  intro _
  apply wp_bind
  apply wp_modify
  have hs' : I { s with live := (edit s).1, includes := (edit s).2 } :=
    hI _ _ hs (.outside s ⟨(edit s).1, s.backups, (edit s).2, s.server, s.changed⟩ (hg _ rfl))
  apply wp_bind
  refine wp_require (fun _ => ?_) hs'
  apply wp_bind
  apply wp_requireApplied hs'
  apply wp_bind
  apply wp_requireUnchanged hs'
  intro _
  exact wp_settle hI hj hr ⟨rfl, rfl, rfl, rfl⟩ rfl (by simp) hs'

theorem wp_rewrite (hj : s.journal = some r) (hr : r.status = .pending) (hsame : Same r r') (hr' : r'.status = .pending)
    (hdeadline : r'.deadline.isSome = true ∨ r'.deadline = r.deadline) (hfirewall : r'.firewall = r.firewall)
    (hphase : r'.phase = .firewallRestored → r.phase = .firewallRestored ∨ FirewallDone s.log r') (hs : I s)
    (hq : I (s.write r') → Q () (s.write r')) : WP (write r') s Q I I := by
  refine wp_move hI hs (.update s r r' ⟨hj, hsame, ?_, ?_, ?_, ?_, .inr ⟨hr, hfirewall, hphase⟩⟩) hq
  · rw [hr]
    rfl
  · rw [hr']
    rfl
  · intro h
    rw [hr'] at h
    cases h
  · intro _
    exact hdeadline.imp_right fun h => ⟨hr, h⟩

theorem wp_setDeadline (hs : I s) : WP (setDeadline id now due) s (fun _ => I) I I := by
  apply wp_bind
  apply wp_pendingRecord hs
  intro r hj hr
  apply wp_bind
  apply wp_requireInTime hs
  apply wp_bind
  refine wp_effect ?_ hs hs
  exact wp_rewrite hI hj hr ⟨rfl, rfl, rfl, rfl⟩ hr (.inl rfl) rfl .inl hs (fun h => h)

theorem wp_abandon {reason : Text} (hs : I s) : WP (abandon id reason) s (fun _ => I) I I := by
  apply wp_bind
  apply wp_pendingRecord hs
  intro r hj hr
  exact wp_settle hI hj hr ⟨rfl, rfl, rfl, rfl⟩ rfl (by simp) hs

theorem wp_reportFailure {error : Text} (hs : I s) : WP (reportFailure error) s (fun _ => I) I I := by
  apply wp_get
  split
  · rename_i r hj
    split_ifs with h
    · exact wp_rewrite hI hj h.1 ⟨rfl, rfl, rfl, rfl⟩ h.1 (.inr rfl) rfl .inl hs (fun h => h)
    · exact wp_pure hs
  · exact wp_pure hs

end Moving

/-! ## Recovery -/

/-- the record in memory against the pending one of the journal -/
structure Progress (s : State) (rj r : Record) : Prop where
  journal : s.journal = some rj
  waiting : rj.status = .pending
  same : Same rj r
  pending : r.status = .pending
  deadline : r.deadline = rj.deadline
  deps : r.deps = rj.deps
  firewall : r.firewall = rj.firewall
  phase : r.phase = .firewallRestored → rj.phase = .firewallRestored ∨ FirewallDone s.log r

/-- the moves of recovery -/
inductive Recovering (P : Platform) : State → State → Prop
  | report (s : State) (rj r : Record) : Progress s rj r → Recovering P s (s.write r)
  | replace (s : State) (r : Record) (live : Option Text) : s.journal = some r → r.status = .pending →
      (P.fileHash s.live = r.applied ∨ beforeHash r = some (P.fileHash s.live)) → beforeHash r = some (P.fileHash live) →
      Recovering P s { s with live := live, changed := true, log := s.log ++ [.replaced r s.live] }
  | firewall (s : State) (id : ℕ) (rule : Text) : Recovering P s { s with log := s.log ++ [.firewall id rule] }
  | restart (s : State) (r : Record) : s.journal = some r → r.status = .pending → r.phase = .firewallRestored →
      Recovering P s { s with log := s.log ++ [.restart r] }
  | restored (s : State) (r r' : Record) : s.journal = some r → r.status = .pending → Same r r' → r'.status = .restored →
      beforeHash r = some (P.fileHash s.live) →
      (∃ r₀, Event.restart r₀ ∈ s.log ∧ r₀.id = r'.id ∧ r₀.firewall = r'.firewall) → Recovering P s (s.write r')

theorem Same.beforeHash_eq (h : Same r r') : beforeHash r' = beforeHash r := by
  unfold beforeHash
  rw [h.previous, h.before]

theorem Progress.update {rj : Record} (h : Progress s rj r) : Update s rj r := by
  refine ⟨h.journal, h.same, ?_, ?_, ?_, fun _ => .inr ⟨h.waiting, h.deadline⟩, .inr ⟨h.waiting, h.firewall, h.phase⟩⟩
  · rw [h.waiting]
    rfl
  · rw [h.pending]
    rfl
  · intro hprepared
    rw [h.pending] at hprepared
    cases hprepared

theorem Recovering.move {s' : State} (h : Recovering P s s') : Move P g s s' := by
  cases h with
  | report rj r hprogress => exact .update s rj r hprogress.update
  | replace r live hj hr hguard _ => exact .replace s r live hj hr hguard
  | firewall id rule => exact .firewall s id rule
  | restart r hj hr hphase => exact .restart s r hj hr hphase
  | restored r r' hj hr hsame hr' hbefore hrestart =>
    refine .settle s r r' ⟨hj, hsame, hr, ?_, fun _ => ⟨by rw [hsame.beforeHash_eq, hbefore], hrestart⟩⟩
    rw [hr']
    rfl

/-- the record a recovery step works on is the pending one of the journal, up to its phase and message -/
def Working (s : State) (r : Record) : Prop := ∃ rj, Progress s rj r

theorem Working.of_journal (hj : s.journal = some r) (hr : r.status = .pending) : Working s r :=
  ⟨r, hj, hr, ⟨rfl, rfl, rfl, rfl⟩, hr, rfl, rfl, rfl, fun h => .inl h⟩

theorem Working.report (h : Working s r) (e : Text) : Recovering P s (s.write { r with error := e }) := by
  obtain ⟨rj, hp⟩ := h
  exact .report s rj _ ⟨hp.journal, hp.waiting, ⟨hp.same.id, hp.same.previous, hp.same.before, hp.same.applied⟩, hp.pending,
    hp.deadline, hp.deps, hp.firewall, hp.phase⟩

section Steps

variable (hI : ∀ s s', I s → Recovering P s s' → I s')
include hI

/-- an exception in a recovery step: the record as it is in memory may be written with any message -/
theorem wp_orReport {m : M Unit}
    (h : WP m s Q (fun s' => I s' ∧ ∀ e, Recovering P s' (s'.write { r with error := e })) I) :
    WP (orReport r m) s Q I I := by
  apply wp_attempt
  refine wp_mono h (fun _ _ hq => hq) ?_ (fun _ hc => hc)
  intro s' hs' e
  apply wp_bind
  have hs'' : I (s'.write { r with error := e }) := hI _ _ hs'.1 (hs'.2 e)
  exact wp_effect (wp_throw hs'') hs'.1 hs'.1

theorem wp_write_working (h : Working s r) (hs : I s)
    (hq : I (s.write r) → Q () (s.write r)) : WP (orReport r (write r)) s Q I I := by
  apply wp_orReport hI
  have hmove : Recovering P s (s.write r) := h.report r.error
  exact wp_effect (hq (hI _ _ hs hmove)) ⟨hs, h.report⟩ hs

variable {before : Text}

section
variable (hj : s.journal = some r) (hr : r.status = .pending)
include hj hr

section
variable (hbefore : beforeHash r = some before)
include hbefore

section
variable (hlive : P.fileHash s.live = r.applied ∨ P.fileHash s.live = before)
include hlive

theorem wp_restoreLive (hs : I s) (hq : ∀ s', I s' → s'.journal = some r → P.fileHash s'.live = before → Q () s') :
    WP (orReport r (restoreLive P r before)) s Q I I := by
  have hE : I s ∧ ∀ e, Recovering P s (s.write { r with error := e }) := ⟨hs, (Working.of_journal hj hr).report⟩
  have hguard : P.fileHash s.live = r.applied ∨ beforeHash r = some (P.fileHash s.live) := by
    rcases hlive with h | h
    · exact .inl h
    · exact .inr (by rw [hbefore, h])
  -- whatever replaces the file has the hash the record names
  have hreplace : ∀ live, P.fileHash live = before →
      I { s with live := live, changed := true, log := s.log ++ [.replaced r s.live] } := by
    intro live hnew
    exact hI _ _ hs (.replace s r live hj hr hguard (by rw [hbefore, hnew]))
  apply wp_orReport hI
  apply wp_get
  split_ifs with hsame hprev
  · exact wp_pure (hq s hs hj hsame)
  · apply wp_bind
    apply wp_require
    · intro hsaved
      have hnew : P.fileHash s.saved = before := by simpa using hsaved
      exact wp_effect (hq _ (hreplace s.saved hnew) hj hnew) hE hs
    · exact hE
  · have hnew : P.fileHash none = before := by
      simp only [beforeHash, hprev, Bool.false_eq_true, if_false, Option.some.injEq] at hbefore
      exact hbefore
    exact wp_effect (hq _ (hreplace none hnew) hj hnew) hE hs

theorem wp_restoreConfiguration {Q : Record → State → Prop} (hs : I s)
    (hq : ∀ r' s', I s' → s'.journal = some r' → r'.status = .pending → beforeHash r' = some before →
      P.fileHash s'.live = before → r'.phase ≠ .applied → Q r' s') : WP (restoreConfiguration P r before) s Q I I := by
  apply wp_bind
  apply wp_orReport hI
  apply wp_require
  · intro _
    apply wp_bind
    apply wp_restoreLive hI hj hr hbefore hlive hs
    intro s' hs' hj' hlive'
    split_ifs with hphase
    · apply wp_bind
      refine wp_write_working hI ?_ hs' ?_
      · refine ⟨r, hj', hr, ⟨rfl, rfl, rfl, rfl⟩, hr, rfl, rfl, rfl, ?_⟩
        intro h
        cases h
      · intro hs''
        exact wp_pure (hq _ _ hs'' rfl hr hbefore hlive' (by simp))
    · exact wp_pure (hq r s' hs' hj' hr hbefore hlive' hphase)
  · exact ⟨hs, (Working.of_journal hj hr).report⟩

end

theorem wp_restoreFirewall {Q : Record → State → Prop} (hlive : P.fileHash s.live = before)
    (hphase : r.phase ≠ .applied) (hs : I s)
    (hq : ∀ r' s', I s' → s'.journal = some r' → r'.status = .pending → beforeHash r' = some before →
      P.fileHash s'.live = before → r'.phase = .firewallRestored → Q r' s') : WP (restoreFirewall r) s Q I I := by
  unfold restoreFirewall
  split_ifs with h
  · -- the firewall comes back, then the record says so
    have hwrite : ∀ s', I s' → s'.journal = some r → P.fileHash s'.live = before →
        FirewallDone s'.log { r with phase := .firewallRestored } →
        WP (do
          orReport { r with phase := .firewallRestored } (write { r with phase := .firewallRestored })
          pure { r with phase := .firewallRestored }) s' Q I I := by
      intro s' hs' hj' hlive' hdone
      apply wp_bind
      refine wp_write_working hI ?_ hs' ?_
      · exact ⟨r, hj', hr, ⟨rfl, rfl, rfl, rfl⟩, hr, rfl, rfl, rfl, fun _ => .inr hdone⟩
      · intro hs''
        exact wp_pure (hq _ _ hs'' rfl hr hbefore hlive' rfl)
    apply wp_bind
    apply wp_orReport hI
    unfold restoreRule
    split
    · rename_i rule hfirewall
      apply wp_effect
      · apply hwrite _ (hI _ _ hs (.firewall s r.id rule)) hj hlive
        intro rule' hrule
        simp only [hfirewall, Option.some.injEq] at hrule
        subst hrule
        simp
      · exact ⟨hs, (Working.of_journal hj hr).report⟩
      · exact hs
    · rename_i hfirewall
      apply wp_pure
      apply hwrite s hs hj hlive
      intro rule hrule
      simp [hfirewall] at hrule
  · refine wp_pure (hq r s hs hj hr hbefore hlive ?_)
    cases hp : r.phase with
    | applied => exact absurd hp hphase
    | configurationRestored => exact absurd hp h
    | firewallRestored => rfl

end

theorem wp_restartServer
    (hbefore : beforeHash r = some (P.fileHash s.live)) (hphase : r.phase = .firewallRestored) (hs : I s)
    (hq : ∀ s', I s' → Q () s') : WP (restartServer r) s Q I I := by
  apply wp_bind
  apply wp_orReport hI
  apply wp_effect
  · have hs' : I { s with log := s.log ++ [.restart r] } := hI _ _ hs (.restart s r hj hr hphase)
    -- a first write that fails is tried once more, with the record already restored
    have hmove : ∀ e, Recovering P { s with log := s.log ++ [.restart r] }
        (({ s with log := s.log ++ [.restart r] } : State).write { r with status := .restored, error := e }) := by
      intro e
      exact .restored _ r _ hj hr ⟨rfl, rfl, rfl, rfl⟩ rfl hbefore ⟨r, by simp, rfl, rfl⟩
    apply wp_orReport hI
    exact wp_effect (hq _ (hI _ _ hs' (hmove []))) ⟨hs', hmove⟩ hs'
  · exact ⟨hs, (Working.of_journal hj hr).report⟩
  · exact hs

end

/-- **Recovery keeps what its moves keep.** -/
theorem wp_recoverPending {force : Bool} {id : Option ℕ} (hs : I s) :
    WP (recoverPending P now force id) s (fun _ => I) I I := by
  apply wp_get
  split
  · exact wp_pure hs
  rename_i r hj
  split_ifs with hnot
  · exact wp_pure hs
  have hr : r.status = .pending := by
    by_contra h
    exact hnot (.inl h)
  split
  · exact wp_throw hs
  · exact wp_pure hs
  · exact wp_throw hs
  · rename_i before _ hbefore
    split_ifs with hlive
    · apply wp_bind
      have hs' : I (s.write { r with error := changedOutside }) :=
        hI _ _ hs ((Working.of_journal hj hr).report changedOutside)
      exact wp_effect (wp_throw hs') hs hs
    · apply wp_bind
      apply wp_restoreConfiguration hI hj hr hbefore (by tauto) hs
      intro r₁ s₁ hs₁ hj₁ hr₁ hbefore₁ hlive₁ hphase₁
      apply wp_bind
      apply wp_restoreFirewall hI hj₁ hr₁ hbefore₁ hlive₁ hphase₁ hs₁
      intro r₂ s₂ hs₂ hj₂ hr₂ hbefore₂ hlive₂ hphase₂
      apply wp_bind
      apply wp_restartServer hI hj₂ hr₂ (by rw [hbefore₂, hlive₂]) hphase₂ hs₂
      intro s₃ hs₃
      apply wp_bind
      exact wp_disarmInactive (wp_pure hs₃) hs₃

end Steps

/-! ## Every call -/

theorem wp_program (hI : ∀ s s', I s → Move P g s s' → I s') (op : Op) (hg : ∀ c, copied P s op = some c → g.copy s c)
    (he : ∀ w, edits s op w → g.edit s w) (hs : I s) : WP (program P op) s (fun _ => I) I I := by
  cases op with
  | prepare backup bytes deps => exact wp_bind (wp_mono (wp_prepare hI hg hs) (fun _ _ h => wp_pure h) (fun _ h => h) fun _ h => h)
  | unprepare i =>
    apply wp_get
    split
    · rename_i t ht
      exact wp_unprepare hI (List.mem_of_getElem? ht) hs
    · exact wp_pure hs
  | arm backup firewall due usePrepared =>
    exact wp_bind (wp_mono (wp_arm hI hg hs) (fun _ _ h => wp_pure h) (fun _ h => h) fun _ h => h)
  | confirm id now => exact wp_confirm hI hs
  | confirmAsync id now keep edit => exact wp_confirmAsync hI he hs
  | setDeadline id now due => exact wp_setDeadline hI hs
  | recover now force id =>
    exact wp_bind (wp_mono (wp_recoverPending (fun _ _ h hm => hI _ _ h hm.move) hs) (fun _ _ h => wp_pure h)
      (fun _ h => h) fun _ h => h)
  | abandon id reason => exact wp_abandon hI hs
  | reportFailure error => exact wp_reportFailure hI hs
  | outside w => exact wp_modify (hI _ _ hs (.outside s w (he w rfl)))

/-- the moves of a call made in `s` -/
def guardOf (s : State) (op : Op) : Guard := ⟨fun _ _ => True, fun s' w => s' = s ∧ edits s op w⟩

/-- **Every call is a sequence of moves.** However it ends. -/
theorem step_moves (s : State) (c : Call) : Moves P (guardOf s c.op) s (step P s c) :=
  exec_of_wp (wp_program (g := guardOf s c.op) (fun _ _ => .tail) c.op (fun _ _ => trivial) (fun _ h => ⟨rfl, h⟩) .refl) c.outcomes

variable {I : State → Prop}

theorem step_of_moves (hmove : ∀ s s', I s → Move P g s s' → I s') {s s' : State}
    (hmoves : Moves P g s s') (h : I s) : I s' := by
  induction hmoves with
  | refl => exact h
  | tail _ hm ih => exact hmove _ _ ih hm

theorem run_of_moves (hmove : ∀ g s s', I s → Move P g s s' → I s') (calls : List Call)
    (h : I s) : I (Runs.run (step P) s calls) := by
  apply Runs.run_inv_all _ calls h
  intro s c hs
  exact step_of_moves (hmove _) (step_moves s c) hs

end OpenSSHServerPN.Recovery
