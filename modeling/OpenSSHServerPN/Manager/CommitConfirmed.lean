/-
Commit-confirmed recovery: a change that is not kept is taken back, once, and nothing else is lost.

Results, for every interleaving of the calls, each of which may fail or be cut at any effect, and of outside edits:
- `commit_confirmed`: a record is settled once; it is restored only when the previous file is in place, the firewall was
  restored and sshd restarted after that; only the applied and the previous content of `sshd_config` are ever overwritten; and,
  if every call keeps the copy with its record, recovery that is run again after any failures ends with the record restored;
- `recovery_stuck`: after a save that was cut between its copy and its record, the earlier record can be armed, and its
  recovery never succeeds.
-/
import OpenSSHServerPN.Manager.RollbackCopy

namespace OpenSSHServerPN.Recovery

open Match Faulty

variable {P : Platform} {g : Guard} {s s' : State}

/-! ## What recovery leaves for the next attempt -/

/-- the record can be restored, or is -/
structure Ready (P : Platform) (r₀ : Record) (s : State) (r : Record) : Prop where
  journal : s.journal = some r
  same : Same r₀ r
  named : r.previous = true → ∃ b, r.before = some b ∧ b ≠ []
  open_or_done : r.status = .pending ∧ r.deadline = r₀.deadline ∧ r.deps.unchanged P.fold s.includes = true ∧
      (P.fileHash s.live = r.applied ∨ beforeHash r = some (P.fileHash s.live)) ∧
      (r.previous = true → beforeHash r = some (P.fileHash s.saved)) ∨
    r.status = .restored ∧ beforeHash r = some (P.fileHash s.live)

theorem Same.trans {r₁ r₂ r₃ : Record} (h : Same r₁ r₂) (h' : Same r₂ r₃) : Same r₁ r₃ :=
  ⟨h'.id.trans h.id, h'.previous.trans h.previous, h'.before.trans h.before, h'.applied.trans h.applied⟩

/-- **No attempt spoils the next.** -/
theorem ready_recovering {r₀ : Record} (h : ∃ r, Ready P r₀ s r) (hm : Recovering P s s') : ∃ r, Ready P r₀ s' r := by
  obtain ⟨r, hr⟩ := h
  -- every move but the last one finds the record pending
  have hpending : ∀ x, s.journal = some x → x.status = .pending → x = r ∧ r.deadline = r₀.deadline ∧
      r.deps.unchanged P.fold s.includes = true ∧ (P.fileHash s.live = r.applied ∨ beforeHash r = some (P.fileHash s.live)) ∧
      (r.previous = true → beforeHash r = some (P.fileHash s.saved)) := by
    intro x hx hstatus
    rw [hr.journal, Option.some.injEq] at hx
    subst hx
    rcases hr.open_or_done with ⟨_, hrest⟩ | ⟨hrestored, _⟩
    · exact ⟨rfl, hrest⟩
    · rw [hstatus] at hrestored
      cases hrestored
  cases hm with
  | report rj r' hp =>
    obtain ⟨rfl, hdeadline, hdeps, hlive, hsaved⟩ := hpending rj hp.journal hp.waiting
    refine ⟨r', rfl, hr.same.trans hp.same, ?_, .inl ⟨hp.pending, hp.deadline.trans hdeadline, ?_, ?_, ?_⟩⟩
    · rw [hp.same.previous, hp.same.before]
      exact hr.named
    · rw [hp.deps]
      exact hdeps
    · rw [hp.same.applied, hp.same.beforeHash_eq]
      exact hlive
    · rw [hp.same.previous, hp.same.beforeHash_eq]
      exact hsaved
  | replace x live hj hx _ hnew =>
    obtain ⟨rfl, hdeadline, hdeps, _, hsaved⟩ := hpending x hj hx
    exact ⟨x, hj, hr.same, hr.named, .inl ⟨hx, hdeadline, hdeps, .inr hnew, hsaved⟩⟩
  | firewall | restart => exact ⟨r, hr.journal, hr.same, hr.named, hr.open_or_done⟩
  | restored x r' hj hx hsame hstatus hlive _ =>
    obtain ⟨rfl, _⟩ := hpending x hj hx
    refine ⟨r', rfl, hr.same.trans hsame, ?_, .inr ⟨hstatus, ?_⟩⟩
    · rw [hsame.previous, hsame.before]
      exact hr.named
    · rw [hsame.beforeHash_eq]
      exact hlive

/-! ## Recovery without failures -/

variable {r : Record} {Q : Unit → State → Prop}

theorem completes_orReport {m : M Unit} {n : ℕ} (h : Completes m s n Q) :
    Completes (orReport r m) s n Q := completes_attempt h

theorem completes_write (h : Q () (s.write r)) : Completes (write r) s 1 Q :=
  completes_effect h

variable {before : Text}

theorem completes_restoreLive
    (hbefore : beforeHash r = some before) (hsaved : r.previous = true → P.fileHash s.saved = before)
    (hq : ∀ s', s'.journal = s.journal → P.fileHash s'.live = before → Q () s') :
    Completes (restoreLive P r before) s 1 Q := by
  apply completes_get
  split_ifs with hsame hprev
  · exact completes_pure 1 (hq s rfl hsame)
  · apply completes_bind 0 1 rfl
    apply completes_require
    · simpa using hsaved hprev
    · exact completes_effect (hq _ rfl (hsaved hprev))
  · apply completes_effect
    refine hq _ rfl ?_
    simp only [beforeHash, hprev, Bool.false_eq_true, if_false, Option.some.injEq] at hbefore
    exact hbefore

theorem completes_restoreConfiguration {Q : Record → State → Prop} (hj : s.journal = some r)
    (hbefore : beforeHash r = some before) (hsaved : r.previous = true → P.fileHash s.saved = before)
    (hdeps : r.deps.unchanged P.fold s.includes = true)
    (hq : ∀ r' s', s'.journal = some r' → Same r r' → P.fileHash s'.live = before → Q r' s') :
    Completes (restoreConfiguration P r before) s 2 Q := by
  apply completes_bind 0 2 rfl
  apply completes_orReport
  apply completes_get
  apply completes_require hdeps
  apply completes_bind 1 1 rfl
  apply completes_orReport
  apply completes_restoreLive hbefore hsaved
  intro s' hj' hlive
  split_ifs with hphase
  · apply completes_bind 1 0 rfl
    apply completes_orReport
    apply completes_write
    exact completes_pure 0 (hq _ _ rfl ⟨rfl, rfl, rfl, rfl⟩ hlive)
  · exact completes_pure 1 (hq r s' (hj'.trans hj) ⟨rfl, rfl, rfl, rfl⟩ hlive)

theorem completes_restoreRule (hq : ∀ s', s'.live = s.live → Q () s') : Completes (restoreRule r) s 1 Q := by
  unfold restoreRule
  split
  · exact completes_effect (hq _ rfl)
  · exact completes_pure 1 (hq s rfl)

theorem completes_restoreFirewall {Q : Record → State → Prop} (hj : s.journal = some r)
    (hq : ∀ r' s', s'.journal = some r' → Same r r' → s'.live = s.live → Q r' s') :
    Completes (restoreFirewall r) s 2 Q := by
  unfold restoreFirewall
  split_ifs with hphase
  · apply completes_bind 1 1 rfl
    apply completes_orReport
    apply completes_restoreRule
    intro s₁ hlive
    apply completes_bind 1 0 rfl
    apply completes_orReport
    apply completes_write
    exact completes_pure 0 (hq _ _ rfl ⟨rfl, rfl, rfl, rfl⟩ hlive)
  · exact completes_pure 2 (hq r s hj ⟨rfl, rfl, rfl, rfl⟩ rfl)

theorem completes_restartServer
    (hq : ∀ r' s', s'.journal = some r' → Same r r' → r'.status = .restored → s'.live = s.live → Q () s') :
    Completes (restartServer r) s 2 Q := by
  apply completes_bind 1 1 rfl
  apply completes_orReport
  apply completes_effect
  apply completes_orReport
  apply completes_write
  exact hq _ _ rfl ⟨rfl, rfl, rfl, rfl⟩ rfl rfl

theorem completes_disarmInactive (hq : Q () s) : Completes disarmInactive s 1 Q :=
  completes_attempt (completes_effect hq)

/-- **Recovery succeeds.** A record that is due, with its files as it knows them. -/
theorem completes_recoverPending (now : ℕ) {force : Bool} (id : Option ℕ)
    (hj : s.journal = some r) (hr : r.status = .pending) (hid : ∀ i, id = some i → r.id = i)
    (hdue : dueNow r now force = some true) (hbefore : beforeHash r = some before)
    (hlive : P.fileHash s.live = r.applied ∨ P.fileHash s.live = before)
    (hdeps : r.deps.unchanged P.fold s.includes = true) (hsaved : r.previous = true → P.fileHash s.saved = before) :
    Completes (recoverPending P now force id) s 7 fun _ s' =>
      ∃ r', s'.journal = some r' ∧ Same r r' ∧ r'.status = .restored ∧ P.fileHash s'.live = before := by
  apply completes_get
  rw [hj]
  have hnot : ¬(r.status ≠ .pending ∨ ∃ i, id = some i ∧ r.id ≠ i) := by
    intro h
    rcases h with h | ⟨i, hi, hne⟩
    · exact h hr
    · exact hne (hid i hi)
  have hsame : ¬(P.fileHash s.live ≠ r.applied ∧ P.fileHash s.live ≠ before) := by tauto
  simp only [if_neg hnot, hdue, hbefore, if_neg hsame]
  apply completes_bind 2 5 rfl
  apply completes_restoreConfiguration hj hbefore hsaved hdeps
  intro r₁ s₁ hj₁ hsame₁ hlive₁
  apply completes_bind 2 3 rfl
  apply completes_restoreFirewall hj₁
  intro r₂ s₂ _ hsame₂ hlive₂
  apply completes_bind 2 1 rfl
  apply completes_restartServer
  intro r₃ s₃ hj₃ hsame₃ hstatus hlive₃
  apply completes_bind 1 0 rfl
  apply completes_disarmInactive
  exact completes_pure 0 ⟨r₃, hj₃, (hsame₁.trans hsame₂).trans hsame₃, hstatus, by rw [hlive₃, hlive₂, hlive₁]⟩

/-! ## Results -/

/-- what every state reached has -/
structure CommitConfirmed (P : Platform) (s : State) : Prop where
  /-- a record is kept, restored or abandoned, once -/
  once : ∀ id st st', Settled s.log id st → Settled s.log id st' → st = st'
  /-- restored: the previous file in place, the firewall restored, sshd restarted after that -/
  restored : ∀ a r live, a ++ [.wrote r live] <+: s.log → r.status = .restored →
    HasPrevious P r live ∧ ∃ b r₀ d, a = b ++ .restart r₀ :: d ∧ r₀.id = r.id ∧ FirewallDone b r
  /-- only the applied and the previous content are overwritten -/
  overwritten : ∀ r old, Event.replaced r old ∈ s.log → P.fileHash old = r.applied ∨ HasPrevious P r old
  /-- and each change of `sshd_config` that is not an outside edit is such an overwrite -/
  changed : ∀ c : Call, ∃ l, (step P s c).log = s.log ++ l ∧
    ((step P s c).live = s.live ∨ (∃ w, edits s c.op w ∧ (step P s c).live = w.live) ∨ ∃ r old, Event.replaced r old ∈ l)

/-- a call that recovers -/
def Call.recovers (c : Call) : Prop := ∃ now force id, c.op = .recover now force id

/-- recovery, run again after any attempts that failed or were cut, ends with the record restored -/
def Recovers (P : Platform) (s : State) : Prop :=
  ∀ r, s.journal = some r → r.status = .pending → P.fileHash s.live = r.applied ∨ HasPrevious P r s.live →
    r.deps.unchanged P.fold s.includes = true →
    ∀ attempts : List Call, (∀ c ∈ attempts, c.recovers) →
    ∀ (now : ℕ) (force : Bool) (id : Option ℕ) (k : ℕ), force = true ∨ (∃ due, r.deadline = some due ∧ due ≤ now) →
      (∀ i, id = some i → r.id = i) → 7 ≤ k →
      ∃ r', (step P (Runs.run (step P) s attempts) ⟨.recover now force id, List.replicate k .done⟩).journal = some r' ∧
        r'.id = r.id ∧ r'.status = .restored ∧
        HasPrevious P r (step P (Runs.run (step P) s attempts) ⟨.recover now force id, List.replicate k .done⟩).live

theorem ready_attempts {r₀ : Record} (attempts : List Call) (hc : ∀ c ∈ attempts, c.recovers) (h : ∃ r, Ready P r₀ s r) :
    ∃ r, Ready P r₀ (Runs.run (step P) s attempts) r := by
  induction attempts generalizing s with
  | nil => exact h
  | cons c attempts ih =>
    apply ih (fun x hx => hc x (List.mem_cons_of_mem c hx))
    obtain ⟨now, force, id, hop⟩ := hc c List.mem_cons_self
    unfold step
    rw [hop]
    change ∃ r, Ready P r₀ (exec (recoverPending P now force id >>= fun _ => pure ()) s c.outcomes) r
    rw [exec_discard]
    exact exec_of_wp
      (wp_recoverPending (fun _ _ => ready_recovering) h) c.outcomes

theorem recoverPending_settled {now : ℕ} {force : Bool} {id : Option ℕ} (hj : s.journal = some r)
    (hr : r.status ≠ .pending) (os : List Outcome) : exec (recoverPending P now force id) s os = s := by
  unfold recoverPending
  rw [exec_get, hj]
  simp only [if_pos (Or.inl hr : r.status ≠ .pending ∨ ∃ i, id = some i ∧ r.id ≠ i)]
  rfl

theorem recovers_of_copyInv (h : CopyInv P s) : Recovers P s := by
  intro r hj hr hlive hdeps attempts hattempts now force id k hdue hid hk
  have hnamed : r.previous = true → ∃ b, r.before = some b ∧ b ≠ [] := h.inv.before r (.inl hj)
  have hready : Ready P r s r := by
    refine ⟨hj, ⟨rfl, rfl, rfl, rfl⟩, hnamed, .inl ⟨hr, rfl, hdeps, hlive.imp_right (hasPrevious_iff hnamed).1, ?_⟩⟩
    intro hp
    obtain ⟨c, hc, hb⟩ := h.own r hj (not_terminal_of_pending hr) hp
    rw [beforeHash, if_pos hp, hc, hb]
    rfl
  obtain ⟨r₁, hr₁⟩ := ready_attempts attempts hattempts ⟨r, hready⟩
  set s₁ := Runs.run (step P) s attempts with hs₁
  have hlast : step P s₁ ⟨.recover now force id, List.replicate k .done⟩ =
      exec (recoverPending P now force id) s₁ (List.replicate k .done) := exec_discard
  rw [hlast]
  have hprev : ∀ live, beforeHash r₁ = some (P.fileHash live) → HasPrevious P r live := by
    intro live hb
    rw [hasPrevious_iff hnamed, ← hb, hr₁.same.beforeHash_eq]
  rcases hr₁.open_or_done with ⟨hstatus, hdeadline, hdeps₁, hlive₁, hsaved₁⟩ | ⟨hstatus, hb⟩
  · obtain ⟨before, hbefore⟩ : ∃ before, beforeHash r₁ = some before := by
      unfold beforeHash
      split_ifs with hp
      · obtain ⟨b, hb, _⟩ := hr₁.named hp
        exact ⟨b, hb⟩
      · exact ⟨[], rfl⟩
    have hdue₁ : dueNow r₁ now force = some true := by
      unfold dueNow
      rcases hdue with rfl | ⟨due, hd, hle⟩
      · rfl
      · split_ifs
        · rfl
        · simp [hdeadline, hd, hle]
    have hcompletes := completes_recoverPending (P := P) now _ hr₁.journal hstatus
      (fun i hi => hr₁.same.id.trans (hid i hi)) hdue₁ hbefore
      (hlive₁.imp_right fun hl => by rw [hbefore, Option.some.injEq] at hl; exact hl.symm) hdeps₁
      (fun hp => by
        have hl := hsaved₁ hp
        rw [hbefore, Option.some.injEq] at hl
        exact hl.symm)
    obtain ⟨r', hj', hsame, hstatus', hlive'⟩ := exec_of_completes hcompletes hk
    exact ⟨r', hj', hsame.id.trans hr₁.same.id, hstatus', hprev _ (by rw [hbefore, hlive'])⟩
  · rw [recoverPending_settled hr₁.journal (by rw [hstatus]; simp)]
    exact ⟨r₁, hr₁.journal, hr₁.same.id, hstatus, hprev _ hb⟩

/-- `sshd_config` is changed by outside edits and by logged overwrites only -/
theorem live_changed (s : State) (c : Call) : ∃ l, (step P s c).log = s.log ++ l ∧
    ((step P s c).live = s.live ∨ (∃ w, edits s c.op w ∧ (step P s c).live = w.live) ∨ ∃ r old, Event.replaced r old ∈ l) := by
  -- a move that leaves the file alone adds some events
  have hkeep : ∀ s₁ s₂ : State, ∀ l', s₂.log = s₁.log ++ l' → s₂.live = s₁.live →
      (∃ l, s₁.log = s.log ++ l ∧ (s₁.live = s.live ∨ (∃ w, edits s c.op w ∧ s₁.live = w.live) ∨
        ∃ r old, Event.replaced r old ∈ l)) →
      ∃ l, s₂.log = s.log ++ l ∧ (s₂.live = s.live ∨ (∃ w, edits s c.op w ∧ s₂.live = w.live) ∨
        ∃ r old, Event.replaced r old ∈ l) := by
    intro s₁ s₂ l' hlog hlive h
    obtain ⟨l, hl, hcases⟩ := h
    refine ⟨l ++ l', by rw [hlog, hl, List.append_assoc], ?_⟩
    rw [hlive]
    rcases hcases with h | h | ⟨r, old, h⟩
    · exact .inl h
    · exact .inr (.inl h)
    · exact .inr (.inr ⟨r, old, List.mem_append_left l' h⟩)
  refine step_of_moves (P := P) (I := fun s' => ∃ l, s'.log = s.log ++ l ∧ (s'.live = s.live ∨
    (∃ w, edits s c.op w ∧ s'.live = w.live) ∨ ∃ r old, Event.replaced r old ∈ l)) ?_ (step_moves s c) ⟨[], by simp, .inl rfl⟩
  intro s₁ s₂ h hm
  cases hm with
  | outside w he =>
    obtain ⟨l, hl, _⟩ := h
    exact ⟨l, hl, .inr (.inl ⟨w, he.2, rfl⟩)⟩
  | copy | issue => exact hkeep s₁ _ [] (by simp) rfl h
  | root | place | chain | back | update | settle | firewall | restart => exact hkeep s₁ _ _ rfl rfl h
  | replace r live _ _ _ =>
    obtain ⟨l, hl, _⟩ := h
    exact ⟨l ++ [.replaced r s₁.live], by simp [hl], .inr (.inr ⟨r, s₁.live, by simp⟩)⟩

/-- **Commit-confirmed recovery.** In every state that calls, failures, crashes and outside edits lead to: records are settled
once, a restored record has its file and firewall back and sshd restarted, and no other content of `sshd_config` was overwritten.
If every call kept the copy with its record, recovery that is run again after any failures ends in restored. -/
theorem commit_confirmed (P : Platform) (s : State) (h : Initial s) (calls : List Call) :
    CommitConfirmed P (Runs.run (step P) s calls) ∧
      (Runs.Always (step P) (KeepsCopy P) s calls → Recovers P (Runs.run (step P) s calls)) := by
  have hinv : Inv P (Runs.run (step P) s calls) := inv_run h calls
  refine ⟨⟨hinv.once, ?_, ?_, live_changed _⟩, fun hk => recovers_of_copyInv (copyInv_run h calls hk)⟩
  · intro a r live hprefix hrestored
    obtain ⟨hprev, r₀, hmem, hid, hfirewall⟩ := hinv.sound a _ hprefix hrestored
    obtain ⟨b, d, rfl⟩ := List.append_of_mem hmem
    have hrestart : b ++ [.restart r₀] <+: (Runs.run (step P) s calls).log := by
      refine List.IsPrefix.trans ⟨d ++ [.wrote r live], ?_⟩ hprefix
      simp
    refine ⟨hprev, b, r₀, d, rfl, hid, ?_⟩
    intro rule hrule
    rw [← hid]
    exact hinv.sound b _ hrestart rule (hfirewall ▸ hrule)
  · intro r old hmem
    obtain ⟨b, d, hlog⟩ := List.append_of_mem hmem
    exact hinv.sound b (.replaced r old) ⟨d, by simp [hlog]⟩

/-- **Stuck.** The save that was cut took the copy of the record that is armed then; its recovery fails, each time. -/
theorem recovery_stuck : ¬Recovers plainPlatform (Runs.run (step plainPlatform) twoBackups [firstSave, cutSave, armFirst]) := by
  intro h
  obtain ⟨r', hj, _, hr', _⟩ := h { recordValues 0 (some firstBackup) (plainPlatform.hash newText) true with
      before := some (plainPlatform.hash oldText), server := some [], status := .pending, deadline := some 5 }
    (by decide) rfl (.inl (by decide)) rfl [] (by simp) 0 true none 7 (.inl rfl) (by simp) le_rfl
  have hpending : (step plainPlatform (Runs.run (step plainPlatform) twoBackups [firstSave, cutSave, armFirst])
      ⟨.recover 0 true none, List.replicate 7 .done⟩).pending = true := by decide
  rw [Runs.run_nil] at hj
  unfold State.pending at hpending
  rw [hj] at hpending
  simp [hr'] at hpending

/-- a save that is armed can be taken back -/
theorem armed_save_recovers : CommitConfirmed plainPlatform (Runs.run (step plainPlatform) twoBackups [firstSave, armFirst]) ∧
    Recovers plainPlatform (Runs.run (step plainPlatform) twoBackups [firstSave, armFirst]) :=
  ⟨(commit_confirmed plainPlatform twoBackups twoBackups_initial [firstSave, armFirst]).1,
    (commit_confirmed plainPlatform twoBackups twoBackups_initial [firstSave, armFirst]).2 armFirst_keepsCopy⟩

end OpenSSHServerPN.Recovery
