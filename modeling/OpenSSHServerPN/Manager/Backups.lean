/-
Which backups a save keeps (`SshdConfig.cs`: `NewBackupPath`, `ListBackups`, `PruneBackups`).

Model: a clock reading is its text `yyyyMMdd-HHmmss`, a time the number of its digits. The files beside `sshd_config` are listed
in any order, and some cannot be deleted; both may differ from save to save. `shelfStep` is a save with the backup path and the
deletions that follow from these files and from the clock, and `Runs.run` of it a sequence of saves.

Results, for every sequence of saves that return:
- `saved_backup_kept`: every backup that is returned has what its save replaced, if and only if at each save fewer than `keep`
  backups are put before the new one, those of the same time and number by the order of the listing; and a save that deletes
  what it wants to delete leaves at most `keep`;
- `saved_backup_pruned`: after the clock was set back, a save deletes the backup it returns.
-/
import OpenSSHServerPN.Lib.Scan
import OpenSSHServerPN.Manager.SaveRace

namespace OpenSSHServerPN.Recovery

open Match Faulty List Scan

def KeepBackups : ℕ := 50

/-- the digits are those of a `DateTime` -/
def validTime (n : ℕ) : Bool :=
  let y := n / 10 ^ 10
  let m := n / 10 ^ 8 % 100
  let d := n / 10 ^ 6 % 100
  let days := if m = 2 then if y % 4 = 0 ∧ (y % 100 ≠ 0 ∨ y % 400 = 0) then 29 else 28 else if m ∈ [4, 6, 9, 11] then 30 else 31
  0 < y ∧ 0 < m ∧ m ≤ 12 ∧ 0 < d ∧ d ≤ days ∧ n / 10 ^ 4 % 100 < 24 ∧ n / 100 % 100 < 60 ∧ n % 100 < 60

/-- `TryParseExact` -/
def parseTime (t : Text) : Option ℕ :=
  let digits := t.take 8 ++ t.drop 9
  if t.length = 15 ∧ t[8]? = some '-' ∧ digits.all Char.isDigit ∧ validTime (value digits) then some (value digits) else none

/-- a clock reading -/
abbrev Stamp := { t : Text // (parseTime t).isSome }

/-- the number behind the time; the first backup of a second has none -/
def parseSequence (t : Text) : Option ℕ :=
  let n := value t.tail
  if t = [] then some 1
  else if t.head? = some '-' ∧ t.tail ≠ [] ∧ t.tail.all Char.isDigit ∧ 2 ≤ n ∧ n < 2 ^ 31 then some n
  else none

/-- the directory of the live file -/
structure Directory where
  path : Text
  /-- a path, for a comparison without case -/
  fold : Text → Text

/-- what a save sees of its files -/
structure Listing where
  order : List Text → List Text
  order_perm : ∀ l, order l ~ l
  /-- `File.Delete` succeeds -/
  deletes : Text → Bool

variable (d : Directory)

/-- the time and the number of a backup -/
def Directory.key (f : Text) : Option (ℕ ×ₗ ℕ) := do
  guard (d.fold (f.take d.path.length) = d.fold d.path)
  let rest ← after (".bak." : Text) (f.drop d.path.length)
  let time ← parseTime (rest.take 15)
  let sequence ← parseSequence (rest.drop 15)
  pure (toLex (time, sequence))

/-- `ListBackups` takes the file for a backup -/
def Directory.isBackup (f : Text) : Bool := (d.key f).isSome

/-- `NewBackupPath`; there are more candidates than files -/
def Directory.newBackupPath (files : List Text) (now : Stamp) : Option Text :=
  let b := d.path ++ ".bak." ++ now.1
  (b :: (range (files.length + 1)).map fun i => b ++ '-' :: Nat.toDigits 10 (i + 2)).find? fun p =>
    files.all fun f => d.fold f ≠ d.fold p

/-- the order of the backups -/
def Directory.Newer (f g : Text) : Prop := (d.key g).getD 0 ≤ (d.key f).getD 0

instance : DecidableRel d.Newer := fun _ _ => inferInstanceAs (Decidable (_ ≤ _))

def Directory.listBackups (l : Listing) (files : List Text) : List Text :=
  ((l.order files).filter d.isBackup).insertionSort d.Newer

/-- what `PruneBackups` deletes -/
def Directory.prunes (l : Listing) (keep : ℕ) (files : List Text) (f : Text) : Bool :=
  f ∈ (d.listBackups l files).drop keep ∧ l.deletes f

/-! ## Sequences of saves -/

/-- the state, and the files beside `sshd_config` -/
structure Shelf where
  state : State
  files : List Text

/-- the files are those that exist -/
def Shelf.Lists (x : Shelf) : Prop := ∀ f, f ∈ x.files ↔ (x.state.backups f).isSome = true

/-- the files when old backups are pruned -/
def Shelf.withBackup (x : Shelf) (b : Text) : List Text := if x.state.live.isSome then b :: x.files else x.files

/-- a save at a time; its backup path and what it prunes are not given -/
structure DatedSave where
  now : Stamp
  listing : Listing
  candidate : Candidate
  overwrite : Bool
  outcomes : List Outcome

/-- the call of `Save`, if `NewBackupPath` ends -/
def DatedSave.call (keep : ℕ) (x : Shelf) (e : DatedSave) : Option SaveCall :=
  (d.newBackupPath x.files e.now).map fun b =>
    ⟨e.candidate, e.overwrite, b, d.prunes e.listing keep (x.withBackup b), e.outcomes⟩

def shelfStep (P : Platform) (keep : ℕ) (x : Shelf) (e : DatedSave) : Shelf :=
  match e.call d keep x with
  | none => x
  | some c =>
    let s := exec (save P c) x.state c.outcomes
    ⟨s, (x.withBackup c.backup).filter fun f => (s.backups f).isSome⟩

/-- the save returns `b` -/
structure Returns (P : Platform) (keep : ℕ) (x : Shelf) (e : DatedSave) (c : SaveCall) (b : Option Text) (s : State)
    (os : List Outcome) : Prop where
  call : e.call d keep x = some c
  save : save P c x.state e.outcomes = (.ok b, s, os)

def Returned (P : Platform) (keep : ℕ) (x : Shelf) (e : DatedSave) : Prop := ∃ c b s os, Returns d P keep x e c b s os

/-- the backup that is returned has what was replaced -/
def Kept (P : Platform) (keep : ℕ) (x : Shelf) (e : DatedSave) : Prop :=
  ∀ c b s os, Returns d P keep x e c b s os → b.bind s.backups = x.state.live

/-- no call of the save failed, and `PruneBackups` raised no exception -/
def Smooth (e : DatedSave) (os : List Outcome) : Prop := ∃ k, e.outcomes = replicate k .done ++ os

/-- the backups that `ListBackups` puts before `b` -/
def Directory.ahead (l : Listing) (files : List Text) (b : Text) : ℕ :=
  ((l.order files).takeWhile (· ≠ b)).countP (fun f => d.isBackup f ∧ d.Newer f b) +
    ((l.order files).dropWhile (· ≠ b)).countP (fun f => d.isBackup f ∧ ¬d.Newer b f)

/-- if the new backup is listed and can be deleted, fewer than `keep` are put before it -/
def InFront (P : Platform) (keep : ℕ) (x : Shelf) (e : DatedSave) : Prop :=
  ∀ c b s os, Returns d P keep x e c b s os → x.state.live.isSome = true → Smooth e os →
    d.isBackup c.backup = true → e.listing.deletes c.backup = true → d.ahead e.listing (x.withBackup c.backup) c.backup < keep

/-- at most `keep` backups are left -/
def Bounded (P : Platform) (keep : ℕ) (x : Shelf) (e : DatedSave) : Prop :=
  ∀ c b s os, Returns d P keep x e c b s os → Smooth e os → (∀ f, e.listing.deletes f = true) →
    ∀ l : List Text, l.Nodup → (∀ f ∈ l, d.isBackup f = true ∧ (s.backups f).isSome = true) → l.length ≤ keep

/-! ## The place of an element in a sorted list -/

section Place

variable {α : Type} [BEq α] [LawfulBEq α] {r : α → α → Prop} [DecidableRel r] [IsTrans α r] {a b : α} {s : List α}

theorem idxOf_orderedInsert (hs : s.Pairwise r) (hb : b ∈ s) (hne : a ≠ b) :
    (s.orderedInsert r a).idxOf b = s.idxOf b + if r a b then 1 else 0 := by
  induction s with
  | nil => cases hb
  | cons c s ih =>
    obtain ⟨hc, hs⟩ := pairwise_cons.1 hs
    by_cases hac : r a c
    · have hab : r a b := (mem_cons.1 hb).elim (fun h => h ▸ hac) fun h => trans_of r hac (hc b h)
      rw [orderedInsert_cons_of_le r s hac, idxOf_cons_ne _ hne, if_pos hab]
    · rw [orderedInsert_of_not_le r s hac]
      by_cases hcb : c = b
      · subst hcb
        rw [idxOf_cons_self, idxOf_cons_self, if_neg hac]
      · rw [idxOf_cons_ne _ hcb, idxOf_cons_ne _ hcb, ih hs ((mem_cons.1 hb).resolve_left (Ne.symm hcb))]
        omega

theorem idxOf_orderedInsert_self (hs : s.Pairwise r) (hb : b ∉ s) :
    (s.orderedInsert r b).idxOf b = s.countP fun y => ¬r b y := by
  induction s with
  | nil => simp
  | cons c s ih =>
    obtain ⟨hc, hs⟩ := pairwise_cons.1 hs
    obtain ⟨hne, hb⟩ := not_or.1 (mem_cons.not.1 hb)
    by_cases hbc : r b c
    · have hnone : (c :: s).countP (fun y => ¬r b y) = 0 := countP_eq_zero.2 fun y hy => by
        have hby : r b y := (mem_cons.1 hy).elim (fun h => h ▸ hbc) fun h => trans_of r hbc (hc y h)
        simpa using hby
      rw [orderedInsert_cons_of_le r s hbc, idxOf_cons_self, hnone]
    · rw [orderedInsert_of_not_le r s hbc, idxOf_cons_ne _ (Ne.symm hne), ih hs hb, countP_cons_of_pos (by simpa using hbc)]

/-- **The place of `b`.** Before it are those before it in the list that go first or are as good, and those behind it that go
first. -/
theorem idxOf_insertionSort [Std.Total r] {l l' : List α} (hl : b ∉ l) (hl' : b ∉ l') :
    ((l ++ b :: l').insertionSort r).idxOf b = l.countP (fun y => r y b) + l'.countP fun y => ¬r b y := by
  induction l with
  | nil =>
    have hb : b ∉ l'.insertionSort r := fun h => hl' ((mem_insertionSort r).1 h)
    rw [nil_append, insertionSort_cons, idxOf_orderedInsert_self (pairwise_insertionSort r l') hb,
      (perm_insertionSort r l').countP_eq, countP_nil, Nat.zero_add]
  | cons a l ih =>
    obtain ⟨hne, hl⟩ := not_or.1 (mem_cons.not.1 hl)
    have hb : b ∈ (l ++ b :: l').insertionSort r := (mem_insertionSort r).2 (by simp)
    rw [cons_append, insertionSort_cons, idxOf_orderedInsert (pairwise_insertionSort r _) hb (Ne.symm hne), ih hl, countP_cons]
    simp only [decide_eq_true_eq]
    omega

theorem mem_drop_iff_idxOf {n : ℕ} (hb : s.count b = 1) : b ∈ s.drop n ↔ n ≤ s.idxOf b := by
  have hmem : b ∈ s := count_pos_iff.1 (by omega)
  have hsplit : (s.take n).count b + (s.drop n).count b = 1 := by rw [← count_append, take_append_drop, hb]
  rw [← not_lt, ← mem_take_iff_idxOf_lt hmem, ← count_pos_iff, ← count_pos_iff]
  omega

end Place

/-! ## One save -/

variable {P : Platform} {d} {l : Listing} {files : List Text} {keep : ℕ} {x : Shelf} {e : DatedSave} {c : SaveCall} {b : Text}

instance : Std.Total d.Newer := ⟨fun _ _ => le_total _ _⟩

instance : IsTrans Text d.Newer := ⟨fun _ _ _ h h' => h'.trans h⟩

theorem listBackups_perm : d.listBackups l files ~ files.filter d.isBackup :=
  (perm_insertionSort _ _).trans ((l.order_perm files).filter _)

/-- **What is put before a backup.** -/
theorem idxOf_listBackups (hb : files.count b = 1) (hkey : d.isBackup b = true) :
    (d.listBackups l files).idxOf b = d.ahead l files b := by
  have hmem : b ∈ l.order files := (l.order_perm files).mem_iff.2 (count_pos_iff.1 (by omega))
  obtain ⟨u, v, huv, hu⟩ := eq_append_cons_of_mem hmem
  have hv : b ∉ v := by
    have hcount := (l.order_perm files).count_eq b
    rw [huv, hb, count_append, count_cons_self, count_eq_zero.2 hu] at hcount
    exact count_eq_zero.1 (by omega)
  have hpos : ∀ f ∈ u, decide (f ≠ b) = true := fun f hf => decide_eq_true (ne_of_mem_of_not_mem hf hu)
  have hkeep : (u ++ b :: v).filter d.isBackup =
      u.filter d.isBackup ++ b :: v.filter d.isBackup := by
    rw [filter_append, filter_cons_of_pos hkey]
  rw [Directory.listBackups, Directory.ahead, huv, hkeep,
    idxOf_insertionSort (fun h => hu (mem_of_mem_filter h)) (fun h => hv (mem_of_mem_filter h)), countP_filter, countP_filter,
    takeWhile_append_of_pos hpos, dropWhile_append_of_pos hpos]
  have hself : ¬¬d.Newer b b := not_not.2 le_rfl
  simp [hself, and_comm]

theorem newBackupPath_new {now : Stamp} (h : d.newBackupPath files now = some b) : b ∉ files := by
  intro hb
  have hfree := find?_some h
  simpa using (all_eq_true.1 hfree) b hb

/-- **What is pruned.** The step of a window is `Undisturbed` by the pruning of its save if and only if fewer than `keep`
backups are put before the new one, or it is not deleted. -/
theorem undisturbed_iff (hc : e.call d keep x = some c) (hlive : x.state.live.isSome = true) (y : Race) (w : ℕ) :
    Undisturbed P y (.save w c) ↔ (d.isBackup c.backup = true → e.listing.deletes c.backup = true →
      d.ahead e.listing (x.withBackup c.backup) c.backup < keep) := by
  obtain ⟨b, hnew, rfl⟩ := Option.map_eq_some_iff.1 hc
  have hone : (x.withBackup b).count b = 1 := by
    rw [Shelf.withBackup, if_pos hlive, count_cons_self, count_eq_zero.2 (newBackupPath_new hnew)]
  change d.prunes e.listing keep (x.withBackup b) b = false ↔ _
  rw [Directory.prunes, decide_eq_false_iff_not, not_and]
  dsimp only
  cases hkey : d.isBackup b with
  | false =>
    refine iff_of_true (fun hmem => ?_) (fun h => nomatch h)
    have hlisted := (mem_filter.1 (listBackups_perm.mem_iff.1 (mem_of_mem_drop hmem))).2
    exact absurd hlisted (by simp [hkey])
  | true =>
    have hcount : (d.listBackups e.listing (x.withBackup b)).count b = 1 := by
      rw [listBackups_perm.count_eq, count_filter hkey, hone]
    rw [mem_drop_iff_idxOf hcount, idxOf_listBackups hone hkey, ← not_lt]
    tauto

theorem Returns.committed {b : Option Text} {s : State} {os : List Outcome} (h : Returns d P keep x e c b s os) :
    Committed P x.state c e.outcomes b s os := by
  have hdone := ends_save (P := P) (c := c) (s := x.state) e.outcomes
  rwa [h.save] at hdone

theorem not_smooth_of_failed {k : ℕ} {os : List Outcome} (h : e.outcomes = replicate k .done ++ .failed :: os) :
    ¬Smooth e os := by
  rintro ⟨k', h'⟩
  have hlen := congrArg length (h.symm.trans h')
  have hat := congrArg (·[k]?) (h.symm.trans h')
  simp only [length_append, length_replicate, length_cons] at hlen
  simp [getElem?_append, show k < k' by omega] at hat

theorem kept_iff_inFront : Kept d P keep x e ↔ InFront d P keep x e := by
  refine forall₄_congr fun c b s os => forall_congr' fun hr => ?_
  have hk := hr.committed
  rw [hk.path]
  cases hlive : x.state.live with
  | none => exact iff_of_true rfl (fun h => nomatch h)
  | some content =>
    have hund := undisturbed_iff (P := P) hr.call (by rw [hlive]; rfl) (Race.start x.state) 0
    have hmade : c.made x.state c.backup = some content := by simp [SaveCall.made, hlive]
    simp only [Option.map_some, Option.bind_some, Option.isSome_some, forall_true_left]
    obtain ⟨⟨k, hos⟩, hb⟩ | ⟨⟨k, hos⟩, hb⟩ := hk.backups
    · have hsmooth : Smooth e os := ⟨k, hos⟩
      rw [forall_prop_of_true hsmooth, ← hund, hb]
      change _ ↔ c.pruned c.backup = false
      cases hp : c.pruned c.backup <;> simp [hp, hmade]
    · -- nothing is deleted
      exact iff_of_true (by rw [hb, hmade]) fun hsmooth => absurd hsmooth (not_smooth_of_failed hos)

/-- **What exists after a save.** -/
theorem lists_withBackup (hx : x.Lists) {b : Option Text} {s : State} {os : List Outcome} (h : Returns d P keep x e c b s os)
    {f : Text} (hf : (s.backups f).isSome = true) : f ∈ x.withBackup c.backup := by
  have hmade : (c.made x.state f).isSome = true := by
    obtain ⟨-, hb⟩ | ⟨-, hb⟩ := h.committed.backups
    · simp only [hb] at hf
      split_ifs at hf
      · cases hf
      · exact hf
    · rwa [hb] at hf
  unfold Shelf.withBackup
  by_cases hnew : x.state.live.isSome ∧ f = c.backup
  · rw [if_pos hnew.1, hnew.2]
    exact mem_cons_self
  · rw [SaveCall.made, if_neg hnew] at hmade
    split_ifs
    · exact mem_cons_of_mem _ ((hx f).2 hmade)
    · exact (hx f).2 hmade

theorem shelfStep_lists (hx : x.Lists) (hr : Returned d P keep x e) : (shelfStep d P keep x e).Lists := by
  obtain ⟨c, b, s, os, hr⟩ := hr
  intro f
  have hstate : exec (save P c) x.state c.outcomes = s := by
    obtain ⟨_, _, rfl⟩ := Option.map_eq_some_iff.1 hr.call
    rw [exec, hr.save]
  simp only [shelfStep, hr.call, hstate, mem_filter]
  exact and_iff_right_of_imp (lists_withBackup hx hr)

theorem bounded_step (hx : x.Lists) : Bounded d P keep x e := by
  intro c b s os hr hsmooth hdel l hl hall
  obtain ⟨-, hb⟩ | ⟨⟨k, hos⟩, -⟩ := hr.committed.backups
  · have hfirst : l ⊆ (d.listBackups e.listing (x.withBackup c.backup)).take keep := by
      intro f hf
      obtain ⟨hkey, hthere⟩ := hall f hf
      have hmem : f ∈ d.listBackups e.listing (x.withBackup c.backup) :=
        listBackups_perm.mem_iff.2 (mem_filter.2 ⟨lists_withBackup hx hr hthere, hkey⟩)
      rw [← take_append_drop keep (d.listBackups e.listing (x.withBackup c.backup)), mem_append] at hmem
      refine hmem.resolve_right fun hdrop => ?_
      obtain ⟨b', -, rfl⟩ := Option.map_eq_some_iff.1 hr.call
      simp [hb, Directory.prunes, hdrop, hdel f] at hthere
    exact (hl.subperm hfirst).length_le.trans (length_take_le _ _)
  · exact absurd hsmooth (not_smooth_of_failed hos)

/-- **The backups that saves return**, in every sequence of saves that return, with any clock readings and any files. -/
theorem saved_backup_kept (P : Platform) (d : Directory) (keep : ℕ) (x : Shelf) (hx : x.Lists) (es : List DatedSave)
    (hr : Runs.Always (shelfStep d P keep) (Returned d P keep) x es) :
    (Runs.Always (shelfStep d P keep) (Kept d P keep) x es ↔ Runs.Always (shelfStep d P keep) (InFront d P keep) x es) ∧
      Runs.Always (shelfStep d P keep) (Bounded d P keep) x es := by
  have hiff : Kept d P keep = InFront d P keep := by
    funext x e
    exact propext kept_iff_inFront
  rw [hiff]
  exact ⟨Iff.rfl, Runs.always_of_inv (I := Shelf.Lists) (fun _ _ => shelfStep_lists) (fun _ _ h _ => bounded_step h) es hx hr⟩

/-! ## A clock that is set back -/

def newYear : Directory := ⟨"sshd_config", id⟩

def allDeleted : Listing := ⟨id, fun _ => .rfl, fun _ => true⟩

/-- sshd runs, and these backups are there -/
def shelfOf (files : List Text) : Shelf :=
  ⟨{ runningState with backups := fun p => if p ∈ files then some oldText else none }, files⟩

theorem shelfOf_lists (files : List Text) : (shelfOf files).Lists := by
  intro f
  simp only [shelfOf]
  split_ifs with h
  · exact iff_of_true h rfl
  · exact iff_of_false h (by simp)

def savedAt (now : Stamp) (c : SaveCall) : DatedSave := ⟨now, allDeleted, c.candidate, c.overwrite, c.outcomes⟩

def firstMinute : Stamp := ⟨"20260101-000100", by decide⟩

theorem returned_of_ok (h : ((e.call d keep x).any fun c => (save P c x.state e.outcomes).1 matches .ok _) = true) :
    Returned d P keep x e := by
  cases hc : e.call d keep x with
  | none => simp [hc] at h
  | some c =>
    rw [hc, Option.any_some] at h
    rcases hs : save P c x.state e.outcomes with ⟨r, s, os⟩
    rw [hs] at h
    cases r with
    | ok b => exact ⟨c, b, s, os, hc, hs⟩
    | error | cut => cases h

theorem inFront_of_ahead (h : ((e.call d keep x).all fun c =>
    d.ahead e.listing (x.withBackup c.backup) c.backup < keep) = true) : InFront d P keep x e := by
  intro c b s os hr _ _ _ _
  rw [hr.call] at h
  exact of_decide_eq_true h

def tenSeconds : List Text := ["sshd_config.bak.20260101-000010", "sshd_config.bak.20260101-000011"]

/-- two saves in one second, in a directory of which two backups are kept -/
theorem saved_first_backup : Runs.Always (shelfStep newYear plainPlatform 2) (Kept newYear plainPlatform 2)
    (shelfOf tenSeconds) [savedAt firstMinute newSave, savedAt firstMinute nextSave] := by
  refine (saved_backup_kept plainPlatform newYear 2 (shelfOf tenSeconds) (shelfOf_lists tenSeconds)
    [savedAt firstMinute newSave, savedAt firstMinute nextSave] ⟨?_, ?_, trivial⟩).1.2 ⟨?_, ?_, trivial⟩
  · exact returned_of_ok (by decide +kernel)
  · exact returned_of_ok (by decide +kernel)
  · exact inFront_of_ahead (by decide +kernel)
  · exact inFront_of_ahead (by decide +kernel)

def yearBefore : Stamp := ⟨"20251231-120000", by decide⟩

def laterBackups : List Text := (range 50).map fun i => "sshd_config.bak.20260101-0000".toList ++ Nat.toDigits 10 (59 - i)

/-- **The backup a save returns is gone.** -/
theorem saved_backup_pruned : ∃ c s os,
    Returns newYear plainPlatform KeepBackups (shelfOf laterBackups) (savedAt yearBefore newSave) c
      (some "sshd_config.bak.20251231-120000") s os ∧ s.backups "sshd_config.bak.20251231-120000" = none := by
  have hnew : newYear.newBackupPath laterBackups yearBefore = some "sshd_config.bak.20251231-120000" := by decide +kernel
  exact ⟨_, _, _, ⟨congrArg (Option.map _) hnew, rfl⟩, by decide +kernel⟩

end OpenSSHServerPN.Recovery
