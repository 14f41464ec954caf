/-
Included files after start-up (`servconf.c`: `sInclude`, `parse_server_match_config`).

A connection should get what the files of start-up say, whatever is on the disk by then, and no file should be opened for
it. The list of included files is keyed by the path of the Include. On Windows an item is added under the path with its
backslashes turned into slashes, but looked up under the path as it was: a path with a backslash is never found. `SSHDIR`
itself has one, so that no relative Include is ever found. Its files are read from the disk again, for every connection.

A second way to differ: while the files of a pattern are loaded, the items added so far are found by a file that includes
the pattern again. sshd starts; for a connection the pattern is complete, the file includes itself, and the process ends.

Three facts about the list carry the proof:
- `parse_inStep`: what start-up accepts is accepted for a connection of which all is known, with the same list;
- `parse_whole`: in the list of start-up no path has a backslash, and every path has all its files;
- `parse_unopened`: a parse that ends well and opens nothing has found every path it reaches in the list.

Results:
- `include_cache_iff`: connections get what the files of start-up say, and no file is opened, exactly if no path that is
  reached has a backslash and the Includes, all followed, nest at most 16 deep;
- `relative_include_reread`: with `Include extra.conf`, a later change of the file reaches the next connection.
-/
import OpenSSHServerPN.Servconf.IncludeCache

namespace OpenSSHServerPN.Servconf

open Argv List

variable {env : Env} {fs : FileSystem}

/-! ## The list that start-up builds -/

/-- a path without a backslash, with an item for each of its files -/
def Whole (fs : FileSystem) (I : List IncludeItem) (path : Text) : Prop :=
  '\\' ∉ path ∧ ∃ files, fs.glob path = some files ∧
    ∀ file ∈ files, ∃ conf, fs.read file = some conf ∧ IncludeItem.mk path (some (file, conf)) ∈ I

theorem Whole.mono {I I' : List IncludeItem} {path : Text} (h : Whole fs I path) (hsub : I ⊆ I') : Whole fs I' path := by
  obtain ⟨hplain, files, hglob, hfiles⟩ := h
  refine ⟨hplain, files, hglob, fun file hfile => ?_⟩
  obtain ⟨conf, hread, hmem⟩ := hfiles file hfile
  exact ⟨conf, hread, hsub hmem⟩

/-- only whole paths are added -/
structure AddsWhole (fs : FileSystem) (s s' : St) : Prop where
  grows : Grows s s'
  whole : s'.core.dead = false → ∀ i ∈ s'.includes, i ∈ s.includes ∨ Whole fs s'.includes i.selector

variable {s s' : St}

theorem AddsWhole.of_eq (h : Grows s s') (heq : s'.includes = s.includes) : AddsWhole fs s s' :=
  ⟨h, fun _ _ hi => .inl (heq ▸ hi)⟩

variable {a b c : St}

theorem AddsWhole.trans (h : AddsWhole fs a b) (h' : AddsWhole fs b c) : AddsWhole fs a c := by
  refine ⟨h.grows.trans h'.grows, fun halive i hi => ?_⟩
  rcases h'.whole halive i hi with hi | hi
  · rcases h.whole (h'.grows.alive halive) i hi with hi | hi
    · exact .inl hi
    · exact .inr (hi.mono h'.grows.includes.subset)
  · exact .inr hi

theorem backslash_notMem_convert (path : Text) : '\\' ∉ WinPath.convertToForwardslash path := by
  intro hmem
  obtain ⟨c, -, hc⟩ := mem_map.1 hmem
  split at hc
  · exact absurd hc (by decide)
  · next hne => exact hne hc

section
variable (p : Pass env) (hdisk : ∀ t, p.disk t = fs) {nested : List Text → St → St}
  (hn : ∀ conf s, AddsWhole fs s (nested conf s))
include hdisk hn

/-- at the end all files of the path are there; meanwhile they are not -/
theorem load_whole (path : Text) (active : Bool) (files : List Text) (s : St)
    (halive : (load p nested path active files s).core.dead = false) :
    (∀ i ∈ (load p nested path active files s).includes, i ∈ s.includes ∨ i.selector = path ∨
      Whole fs (load p nested path active files s).includes i.selector) ∧
    ∀ file ∈ files, ∃ conf, fs.read file = some conf ∧
      IncludeItem.mk path (some (file, conf)) ∈ (load p nested path active files s).includes := by
  induction files generalizing s with
  | nil => exact ⟨fun i => .inl, nofun⟩
  | cons file files ih =>
    rw [load] at halive ⊢
    split at halive
    · next hdead => rw [hdead] at halive; cases halive
    next hdead =>
    rw [if_neg hdead]
    cases hread : (p.disk s.clock).read file with
    | none => rw [hread] at halive; cases halive
    | some conf =>
      rw [hread] at halive
      have hgrows := load_grows p (fun c s => (hn c s).grows) path active files
        (((nested conf (s.open file)).activate active).add ⟨path, some (file, conf)⟩)
      obtain ⟨hitems, hfiles⟩ := ih _ halive
      constructor
      · intro i hi
        rcases hitems i hi with hi | hi | hi
        · rcases mem_append.1 hi with hi | hi
          · rcases (hn conf (s.open file)).whole (hgrows.alive halive) i hi with hi | hi
            · exact .inl hi
            · exact .inr (.inr (hi.mono fun x hx => hgrows.includes.subset (mem_append_left _ hx)))
          · obtain rfl := mem_singleton.1 hi
            exact .inr (.inl rfl)
        · exact .inr (.inl hi)
        · exact .inr (.inr hi)
      · intro f hf
        rcases mem_cons.1 hf with rfl | hf
        · refine ⟨conf, by rw [← hdisk s.clock]; exact hread, hgrows.includes.subset ?_⟩
          exact mem_append_right _ mem_cons_self
        · exact hfiles f hf

theorem miss_whole (path : Text) (active : Bool) (s : St) :
    AddsWhole fs s (miss p nested (WinPath.convertToForwardslash path) active s) := by
  have hplain := backslash_notMem_convert path
  refine ⟨miss_grows p (fun c s => (hn c s).grows) _ _ _, fun halive i hi => ?_⟩
  unfold miss at halive hi ⊢
  rw [hdisk] at halive hi ⊢
  cases hglob : fs.glob (WinPath.convertToForwardslash path) with
  | none => rw [hglob] at halive; cases halive
  | some files =>
    rw [hglob] at halive hi
    cases files with
    | nil =>
      rcases mem_append.1 hi with hi | hi
      · exact .inl hi
      · obtain rfl := mem_singleton.1 hi
        exact .inr ⟨hplain, [], hglob, nofun⟩
    | cons file files =>
      obtain ⟨hitems, hfiles⟩ := load_whole p hdisk hn _ active (file :: files) s.tick halive
      rcases hitems i hi with hi | hi | hi
      · exact .inl hi
      · rw [hi]
        exact .inr ⟨hplain, _, hglob, hfiles⟩
      · exact .inr hi

end

/-- **The list that is built.** Every path that a parse adds is whole. -/
theorem parse_whole (p : Pass env) (hdisk : ∀ t, p.disk t = fs) (levels : ℕ) (flags : Flags) (conf : List Text) (s : St) :
    AddsWhole fs s (parse p levels flags conf s) := by
  have hkept : Kept p (AddsWhole fs) :=
    ⟨fun s => AddsWhole.of_eq (Grows.refl s) rfl, AddsWhole.trans,
      fun s core h => AddsWhole.of_eq (grows_core s core h) rfl, fun _ => miss_whole p hdisk⟩
  exact hkept.parse levels flags conf s

/-! ## A parse that opens nothing -/

/-- a disk on which every pattern has a file that can be opened -/
def temptingDisk : FileSystem := ⟨fun _ => some [['x']], fun _ => some []⟩

/-- nothing is added unless a file is opened -/
structure Quiet (s s' : St) : Prop where
  grows : Grows s s'
  includes : s'.opened = s.opened → s'.includes = s.includes

theorem Quiet.trans (h : Quiet a b) (h' : Quiet b c) : Quiet a c := by
  refine ⟨h.grows.trans h'.grows, fun heq => ?_⟩
  have hmid := h.grows.opened_eq h'.grows heq
  rw [h'.includes hmid.2, h.includes hmid.1]

section
variable (p : Pass env) (hdisk : ∀ t, p.disk t = temptingDisk)
include hdisk

variable {nested : List Text → St → St}

theorem miss_opens (hn : ∀ conf s, Grows s (nested conf s)) (path : Text)
    (active : Bool) (halive : s.core.dead = false) : (miss p nested path active s).opened ≠ s.opened := by
  have hmiss : miss p nested path active s =
      ((nested [] (s.tick.open ['x'])).activate active).add ⟨path, some (['x'], [])⟩ := by
    unfold miss
    rw [hdisk]
    show load p nested path active [['x']] s.tick = _
    rw [load, if_neg (show ¬s.tick.core.dead = true by rw [show s.tick.core.dead = false from halive]; decide), hdisk]
    rfl
  rw [hmiss]
  intro heq
  have hprefix : s.opened ++ [['x']] <+: (nested [] (s.tick.open ['x'])).opened := (hn [] (s.tick.open ['x'])).opened
  have hlen := hprefix.length_le
  rw [show (nested [] (s.tick.open ['x'])).opened = s.opened from heq] at hlen
  simp at hlen

theorem miss_quiet (hn : ∀ conf s, Quiet s (nested conf s)) (path : Text) (active : Bool)
    (s : St) : Quiet s (miss p nested path active s) := by
  have hgrows : ∀ conf s, Grows s (nested conf s) := fun conf s => (hn conf s).grows
  refine ⟨miss_grows p hgrows path active s, fun heq => ?_⟩
  by_cases hdead : s.core.dead = true
  · unfold miss
    rw [hdisk]
    show (load p nested path active [['x']] s.tick).includes = s.includes
    rw [load, if_pos (show s.tick.core.dead = true from hdead)]
    rfl
  · exact absurd heq (miss_opens p hdisk hgrows path active (by simpa using hdead))

theorem kept_quiet : Kept p Quiet :=
  ⟨fun s => ⟨Grows.refl s, fun _ => rfl⟩, Quiet.trans, fun s core h => ⟨grows_core s core h, fun _ => rfl⟩,
    fun _ hn _ active s => miss_quiet p hdisk hn _ active s⟩

end

/-- the end of a parse: sshd has not given up, and no more files were opened -/
structure Unopened (s s' : St) : Prop where
  alive : s'.core.dead = false
  opened : s'.opened = s.opened

theorem Unopened.split (h : Grows a b) (h' : Grows b c) (hu : Unopened a c) : Unopened a b ∧ Unopened b c := by
  obtain ⟨h1, h2⟩ := h.opened_eq h' hu.opened
  exact ⟨⟨h'.alive hu.alive, h1⟩, ⟨hu.alive, h2⟩⟩

section
variable {C : List IncludeItem} {nested : List Text → St → St} {Q : List Text → Prop}
  (hgrows : ∀ conf s, Quiet s (nested conf s))
  (hn : ∀ conf s, s.includes = C → Unopened s (nested conf s) → Q conf) (path : Text) (active : Bool)
include hgrows hn

/-- the files of the items with the path were all parsed -/
theorem visit_unopened (p : Pass env) (hkept : Kept p Quiet) {items : List IncludeItem} (hs : s.includes = C)
    (hu : Unopened s (visit nested path active items s).1) :
    ∀ i ∈ items, i.selector = path → ∀ f conf, i.file = some (f, conf) → Q conf := by
  induction items generalizing s with
  | nil => exact nofun
  | cons item items ih =>
    rw [visit] at hu
    intro i hi hsel f conf hfile
    have hrest := fun s => (hkept.visit hgrows path active items s).grows
    split at hu
    · cases hitem : item.file with
      | none =>
        rw [hitem] at hu
        rcases mem_cons.1 hi with rfl | hi
        · rw [hitem] at hfile
          cases hfile
        · have hu' := (Unopened.split (grows_activate s active) (hrest _) hu).2
          exact ih (show (s.activate active).includes = C from hs) hu' i hi hsel f conf hfile
      | some file =>
        rw [hitem] at hu
        obtain ⟨hfirst, hu'⟩ := Unopened.split (hgrows file.2 s).grows ((grows_activate _ active).trans (hrest _)) hu
        rcases mem_cons.1 hi with rfl | hi
        · rw [hitem] at hfile
          cases hfile
          exact hn conf s hs hfirst
        · have hs' : ((nested file.2 s).activate active).includes = C := ((hgrows file.2 s).includes hfirst.opened).trans hs
          exact ih hs' (Unopened.split (grows_activate _ active) (hrest _) hu').2 i hi hsel f conf hfile
    · next hne =>
      rcases mem_cons.1 hi with rfl | hi
      · exact absurd hsel hne
      · exact ih hs hu i hi hsel f conf hfile

theorem walk_unopened (p : Pass env) (hkept : Kept p Quiet) (rounds : ℕ) (hs : s.includes = C)
    (hu : Unopened s (walk nested path active (rounds + 1) 0 s).1) :
    ∀ i ∈ C, i.selector = path → ∀ f conf, i.file = some (f, conf) → Q conf := by
  subst hs
  unfold walk at hu
  split at hu
  · have hnil : s.includes = [] := eq_nil_of_length_eq_zero (by omega)
    rw [hnil]
    simp
  · have hvisit := (hkept.visit hgrows path active s.includes s).grows
    have hrest := (hkept.walk hgrows path active rounds s.includes.length (visit nested path active s.includes s).1).grows
    exact visit_unopened hgrows hn path active p hkept rfl (Unopened.split hvisit hrest hu).1

end

/-- a path as `Follows` wants it, with its files parsed at `levels` more levels -/
def Followed (env : Env) (fs : FileSystem) (levels : ℕ) (path : Text) : Prop :=
  '\\' ∉ path ∧ ∃ files, fs.glob path = some files ∧
    ∀ file ∈ files, ∃ conf, fs.read file = some conf ∧ ∃ d, levels = d + 1 ∧ Follows env fs d conf

theorem follows_of_paths {levels : ℕ} {conf : List Text} (h : ∀ path ∈ includePaths env conf, Followed env fs levels path) :
    Follows env fs levels conf := by
  cases levels with
  | zero =>
    intro path hpath
    obtain ⟨hplain, files, hglob, hfiles⟩ := h path hpath
    cases files with
    | nil => exact ⟨hplain, hglob⟩
    | cons file files =>
      obtain ⟨_, _, d, hd, -⟩ := hfiles file mem_cons_self
      cases hd
  | succ levels =>
    intro path hpath
    obtain ⟨hplain, files, hglob, hfiles⟩ := h path hpath
    refine ⟨hplain, files, hglob, fun file hfile => ?_⟩
    obtain ⟨conf', hread, d, hd, hf⟩ := hfiles file hfile
    cases hd
    exact ⟨conf', hread, hf⟩

variable {args : List Text} {r : St × Flags × Bool}

section
variable (p : Pass env) (hdisk : ∀ t, p.disk t = temptingDisk) {C : List IncludeItem}
  (hwhole : ∀ i ∈ C, Whole fs C i.selector) {levels : ℕ}
  (hn : ∀ flags conf s, s.includes = C → Unopened s (parse p levels flags conf s) → ∃ d, levels = d + 1 ∧ Follows env fs d conf)
include hdisk hwhole hn

theorem includeOne_unopened (flags : Flags) {arg : Text} (hs : s.includes = C) (halive : s.core.dead = false)
    (hu : Unopened s (includeOne p (parse p levels) flags arg s)) : Followed env fs levels (includePath arg) := by
  have hkept := kept_quiet p hdisk
  have hnested : ∀ flags conf s, Quiet s (parse p levels flags conf s) := hkept.parse levels
  have hgrows : ∀ conf s', Grows s' (parse p levels (nestedFlags flags s.core.active) conf s') :=
    fun conf s' => (hnested _ conf s').grows
  by_cases hpresent : ∃ i ∈ C, i.selector = includePath arg
  · have hlook : Unopened s (lookup p (parse p levels) flags arg s).1 := by
      have hwalk : Grows s (lookup p (parse p levels) flags arg s).1 := (hkept.walk (hnested _) _ _ _ _ _).grows
      unfold includeOne at hu
      dsimp only at hu
      split at hu
      · exact hu
      · exact (Unopened.split hwalk (miss_grows p hgrows _ _ _) hu).1
    have hparsed := walk_unopened (hnested _) (hn _) (includePath arg) s.core.active p hkept p.rounds hs hlook
    obtain ⟨i, hi, hsel⟩ := hpresent
    obtain ⟨hplain, files, hglob, hfiles⟩ := hwhole i hi
    rw [hsel] at hplain hglob hfiles
    refine ⟨hplain, files, hglob, fun file hfile => ?_⟩
    obtain ⟨conf, hread, hmem⟩ := hfiles file hfile
    exact ⟨conf, hread, hparsed _ hmem rfl file conf rfl⟩
  · have habsent : ∀ i ∈ s.includes, i.selector ≠ includePath arg := fun i hi heq => hpresent ⟨i, hs ▸ hi, heq⟩
    have hmiss : includeOne p (parse p levels) flags arg s =
        miss p (parse p levels (nestedFlags flags s.core.active)) (WinPath.convertToForwardslash (includePath arg))
          s.core.active s := by
      unfold includeOne
      rw [lookup_absent p _ flags habsent]
      exact if_neg (by simp [halive])
    have hopened := hu.opened
    rw [hmiss] at hopened
    exact absurd hopened (miss_opens p hdisk hgrows _ _ halive)

theorem includeAll_unopened (flags : Flags) (hs : s.includes = C)
    (hu : Unopened s (includeAll p (parse p levels) flags args s).1) (hok : (includeAll p (parse p levels) flags args s).2 = true) :
    ∀ arg ∈ args, Followed env fs levels (includePath arg) := by
  have hkept := kept_quiet p hdisk
  have hnested : ∀ flags conf s, Quiet s (parse p levels flags conf s) := hkept.parse levels
  induction args generalizing s with
  | nil => exact nofun
  | cons arg args ih =>
    have halive : s.core.dead = false := (hkept.includeAll hnested flags _ s).grows.alive hu.alive
    rw [includeAll, if_neg (show ¬s.core.dead = true by simp [halive])] at hu hok
    split at hu
    · next hempty =>
      rw [if_pos hempty] at hok
      cases hok
    next hne =>
    rw [if_neg hne] at hok
    have hone := hkept.includeOne hnested flags arg s
    obtain ⟨hfirst, hrest⟩ := Unopened.split hone.grows (hkept.includeAll hnested flags args _).grows hu
    intro a ha
    rcases mem_cons.1 ha with rfl | ha
    · exact includeOne_unopened p hdisk hwhole hn flags hs halive hfirst
    · exact ih ((hone.includes hfirst.opened).trans hs) hrest hok a ha

theorem stepLine_unopened {line : Text} (hs : r.1.includes = C)
    (hu : Unopened r.1 (stepLine p (parse p levels) r line).1) (hok : (stepLine p (parse p levels) r line).2.2 = true) :
    ∀ path ∈ linePaths env line, Followed env fs levels path := by
  have halive : r.1.core.dead = false :=
    ((kept_quiet p hdisk).stepLine ((kept_quiet p hdisk).parse levels) r line).grows.alive hu.alive
  unfold stepLine at hu hok
  rw [if_neg (show ¬r.1.core.dead = true by simp [halive])] at hu hok
  cases he : lineEffect p.acc p.ci r.2.1 r.1.core line with
  | next core flags' ok' =>
    rw [linePaths_of_next he]
    exact nofun
  | files args =>
    rw [he] at hu hok
    dsimp only at hu hok
    split at hu
    · cases hu.alive
    next hne =>
    rw [if_neg hne] at hok
    rw [linePaths_of_files he]
    intro path hpath
    obtain ⟨arg, harg, rfl⟩ := mem_map.1 hpath
    exact includeAll_unopened p hdisk hwhole hn r.2.1 hs hu (Bool.and_eq_true_iff.1 hok).2 arg harg

theorem foldl_stepLine_unopened {lines : List Text} (hs : r.1.includes = C)
    (hu : Unopened r.1 (lines.foldl (stepLine p (parse p levels)) r).1)
    (hok : (lines.foldl (stepLine p (parse p levels)) r).2.2 = true) :
    ∀ path ∈ includePaths env lines, Followed env fs levels path := by
  have hkept := kept_quiet p hdisk
  have hnested : ∀ flags conf s, Quiet s (parse p levels flags conf s) := hkept.parse levels
  induction lines generalizing r with
  | nil => exact nofun
  | cons line lines ih =>
    have hline := hkept.stepLine hnested r line
    obtain ⟨hfirst, hrest⟩ := Unopened.split hline.grows (hkept.foldl_stepLine hnested lines _).grows hu
    intro path hpath
    rcases mem_append.1 hpath with hpath | hpath
    · exact stepLine_unopened p hdisk hwhole hn hs hfirst (good_of_foldl hok) path hpath
    · exact ih ((hline.includes hfirst.opened).trans hs) hrest hok path hpath

end

/-- **A parse that opens nothing.** If every pattern would find a file to open, and none was opened, then every Include was
found in the list; with whole paths, the configuration nests no deeper than the levels. -/
theorem parse_unopened (p : Pass env) (hdisk : ∀ t, p.disk t = temptingDisk) {C : List IncludeItem}
    (hwhole : ∀ i ∈ C, Whole fs C i.selector) (levels : ℕ) (flags : Flags) (conf : List Text) (s : St) (hs : s.includes = C)
    (hu : Unopened s (parse p levels flags conf s)) : ∃ d, levels = d + 1 ∧ Follows env fs d conf := by
  induction levels generalizing flags conf s with
  | zero => cases hu.alive
  | succ levels ih =>
    refine ⟨levels, rfl, follows_of_paths ?_⟩
    rw [parse] at hu
    split at hu
    · next hok => exact foldl_stepLine_unopened p hdisk hwhole ih hs hu hok
    · cases hu.alive

/-! ## Start-up and a connection in step -/

/-- what a directive accepts does not depend on the options so far -/
theorem applyDirective_ok {active : Bool} {op : Opcode} {str : Text} {o o' : ServerOptions}
    (h : applyDirective env active op str args o = .ok o') (active' : Bool) (o₂ : ServerOptions) :
    ∃ o₂', applyDirective env active' op str args o₂ = .ok o₂' := by
  cases op with
  | matchBlock | includeFiles => exact ⟨o₂, rfl⟩
  | option | other =>
    unfold applyDirective at h ⊢
    dsimp only at h ⊢
    split at h
    · cases h
    · exact ⟨_, rfl⟩

section
variable {acc : Accounts env} {ci : ConnInfo} (hc : ci.Complete)
include hc

theorem lineEffect_complete {flags flags₁ : Flags} {core core₁ : Core} {line : Text} (flags' : Flags) (core' : Core)
    (h : lineEffect acc none flags core line = .next core₁ flags₁ true) (halive : core₁.dead = false) :
    ∃ core₂ flags₂, lineEffect acc (some ci) flags' core' line = .next core₂ flags₂ true ∧ core₂.dead = core'.dead := by
  unfold lineEffect at h ⊢
  dsimp only at h ⊢
  cases hl : readLine line with
  | ignored => exact ⟨_, _, rfl, rfl⟩
  | bad => rw [hl] at h; cases h
  | directive keyword str args =>
    rw [hl] at h
    dsimp only at h ⊢
    cases ht : parseToken env keyword with
    | none =>
      rw [ht] at h
      dsimp only at h
      split at h
      · cases h
      · -- start-up does not skip what it does not know
        change Effect.next core.die flags true = _ at h
        cases h
        cases halive
    | some token =>
      obtain ⟨op, inMatch⟩ := token
      rw [ht] at h
      dsimp only at h ⊢
      by_cases hskip : core'.active = false ∧ inMatch = false
      · rw [if_pos hskip]
        exact ⟨_, _, rfl, rfl⟩
      rw [if_neg hskip]
      split at h
      · change Effect.next core.die flags true = _ at h
        cases h
        cases halive
      cases op with
      | includeFiles => cases h
      | matchBlock =>
        rw [ite_self] at h
        dsimp only at h ⊢
        cases hm : matchCfgLine env acc none args with
        | none =>
          rw [hm] at h
          cases h
          cases halive
        | some result =>
          obtain ⟨b, left⟩ := result
          rw [hm] at h
          obtain ⟨b', hb'⟩ : ∃ b', matchCfgLine env acc (if flags'.neverMatch then none else some ci) args = some (b', left) := by
            split
            · exact ⟨b, hm⟩
            · exact matchCriteria_complete hc hm
          rw [hb']
          obtain rfl : left = [] := by simpa using (Effect.next.inj h).2.2
          exact ⟨_, _, rfl, rfl⟩
      | option | other =>
        dsimp only at h ⊢
        split at h
        · next options hok =>
          obtain ⟨options', hok'⟩ := applyDirective_ok hok core'.active core'.options
          rw [hok']
          exact ⟨_, _, rfl, rfl⟩
        · cases h
          cases halive
        · cases h

end

/-- start-up and a connection stand at the same point, with the same list -/
structure InStep (s s' : St) : Prop where
  alive : s'.core.dead = false
  includes : s'.includes = s.includes
  clock : s'.clock = s.clock

section
variable (h : InStep s s')
include h

theorem InStep.activate (active active' : Bool) : InStep (s.activate active) (s'.activate active') :=
  { h with }

theorem InStep.tick : InStep s.tick s'.tick :=
  ⟨h.alive, h.includes, congrArg (· + 1) h.clock⟩

theorem InStep.open (file : Text) : InStep (s.open file) (s'.open file) :=
  ⟨h.alive, h.includes, congrArg (· + 1) h.clock⟩

theorem InStep.add (item : IncludeItem) : InStep (s.add item) (s'.add item) :=
  ⟨h.alive, congrArg (· ++ [item]) h.includes, h.clock⟩

end

section
variable (p : Pass env) {p' : Pass env} (hdisk : p'.disk = p.disk) {n n' : List Text → St → St}
  (hgrows : ∀ conf s, Grows s (n conf s))
  (hn : ∀ conf s s', InStep s s' → (n conf s).core.dead = false → InStep (n conf s) (n' conf s'))
  (path : Text) (active active' : Bool)
include p hgrows hn

theorem visit_inStep (items : List IncludeItem) (h : InStep s s')
    (halive : (visit n path active items s).1.core.dead = false) :
    InStep (visit n path active items s).1 (visit n' path active' items s').1 ∧
      (visit n' path active' items s').2 = (visit n path active items s).2 := by
  induction items generalizing s s' with
  | nil => exact ⟨h, rfl⟩
  | cons item items ih =>
    rw [visit] at halive ⊢
    rw [visit]
    split at halive
    · next hsel =>
      rw [if_pos hsel, if_pos hsel]
      cases hfile : item.file with
      | none =>
        rw [hfile] at halive
        exact ⟨(ih (h.activate active active') halive).1, rfl⟩
      | some file =>
        rw [hfile] at halive
        have hmid := ((kept_grows p).visit hgrows path active items ((n file.2 s).activate active)).alive halive
        exact ⟨(ih ((hn file.2 s s' h hmid).activate active active') halive).1, rfl⟩
    · next hsel =>
      rw [if_neg hsel, if_neg hsel]
      exact ih h halive

theorem walk_inStep (rounds seen : ℕ) (h : InStep s s')
    (halive : (walk n path active rounds seen s).1.core.dead = false) :
    InStep (walk n path active rounds seen s).1 (walk n' path active' rounds seen s').1 ∧
      (walk n' path active' rounds seen s').2 = (walk n path active rounds seen s).2 := by
  induction rounds generalizing seen s s' with
  | zero =>
    unfold walk at halive ⊢
    rw [h.includes]
    split
    · exact ⟨h, rfl⟩
    · next hlen =>
      rw [if_neg hlen] at halive
      cases halive
  | succ rounds ih =>
    unfold walk at halive ⊢
    rw [h.includes]
    split
    · exact ⟨h, rfl⟩
    next hlen =>
    rw [if_neg hlen] at halive
    dsimp only at halive ⊢
    have hmid := ((kept_grows p).walk hgrows path active rounds s.includes.length
      (visit n path active (s.includes.drop seen) s).1).alive halive
    obtain ⟨hvisit, hfirst⟩ := visit_inStep p hgrows hn path active active' (s.includes.drop seen) h hmid
    obtain ⟨hwalk, hrest⟩ := ih s.includes.length hvisit halive
    rw [hfirst, hrest]
    exact ⟨hwalk, rfl⟩

include hdisk

theorem load_inStep (files : List Text) (h : InStep s s') (halive : (load p n path active files s).core.dead = false) :
    InStep (load p n path active files s) (load p' n' path active' files s') := by
  induction files generalizing s s' with
  | nil => exact h
  | cons file files ih =>
    have hs := (load_grows p hgrows path active (file :: files) s).alive halive
    rw [load, if_neg (show ¬s.core.dead = true by simp [hs])] at halive ⊢
    rw [load, if_neg (show ¬s'.core.dead = true by simp [h.alive]), hdisk, h.clock]
    cases hread : (p.disk s.clock).read file with
    | none =>
      rw [hread] at halive
      cases halive
    | some conf =>
      rw [hread] at halive
      have hmid := (load_grows p hgrows path active files _).alive halive
      exact ih (((hn conf _ _ (h.open file) hmid).activate active active').add _) halive

theorem miss_inStep (h : InStep s s') (halive : (miss p n path active s).core.dead = false) :
    InStep (miss p n path active s) (miss p' n' path active' s') := by
  unfold miss at halive ⊢
  rw [hdisk, h.clock]
  cases hglob : (p.disk s.clock).glob path with
  | none =>
    rw [hglob] at halive
    cases halive
  | some files =>
    rw [hglob] at halive
    cases files with
    | nil => exact h.tick.add _
    | cons file files => exact load_inStep p hdisk hgrows hn path active active' (file :: files) h.tick halive

end

section
variable {p p' : Pass env} (hdisk : p'.disk = p.disk) (hrounds : p'.rounds = p.rounds) {levels : ℕ}
  (hn : ∀ flags flags' conf s s', InStep s s' → (parse p levels flags conf s).core.dead = false →
    InStep (parse p levels flags conf s) (parse p' levels flags' conf s'))
include hdisk hrounds hn

theorem includeOne_inStep (flags flags' : Flags) (arg : Text) (h : InStep s s')
    (halive : (includeOne p (parse p levels) flags arg s).core.dead = false) :
    InStep (includeOne p (parse p levels) flags arg s) (includeOne p' (parse p' levels) flags' arg s') := by
  have hgrows := parse_grows p levels
  have hmid : (lookup p (parse p levels) flags arg s).1.core.dead = false := by
    unfold includeOne at halive
    dsimp only at halive
    split at halive
    · exact halive
    · exact (miss_grows p (hgrows _) _ _ _).alive halive
  obtain ⟨hlook, hfound⟩ : InStep (lookup p (parse p levels) flags arg s).1 (lookup p' (parse p' levels) flags' arg s').1 ∧
      (lookup p' (parse p' levels) flags' arg s').2 = (lookup p (parse p levels) flags arg s).2 := by
    unfold lookup at hmid ⊢
    rw [hrounds]
    exact walk_inStep p (hgrows _) (hn _ _) _ _ _ _ _ h hmid
  unfold includeOne at halive ⊢
  dsimp only at halive ⊢
  by_cases hhit : (lookup p (parse p levels) flags arg s).2 = true
  · rw [if_pos (.inl hhit), if_pos (.inl (hfound.trans hhit))]
    exact hlook
  have hmiss : ¬((lookup p (parse p levels) flags arg s).2 = true ∨
    (lookup p (parse p levels) flags arg s).1.core.dead = true) := by
    simp [hhit, hmid]
  have hmiss' : ¬((lookup p' (parse p' levels) flags' arg s').2 = true ∨
      (lookup p' (parse p' levels) flags' arg s').1.core.dead = true) := by
    simp [hfound, hhit, hlook.alive]
  rw [if_neg hmiss] at halive ⊢
  rw [if_neg hmiss']
  exact miss_inStep p hdisk (hgrows _) (hn _ _) _ _ _ hlook halive

theorem includeAll_inStep (flags flags' : Flags) (args : List Text) (h : InStep s s')
    (halive : (includeAll p (parse p levels) flags args s).1.core.dead = false) :
    InStep (includeAll p (parse p levels) flags args s).1 (includeAll p' (parse p' levels) flags' args s').1 ∧
      (includeAll p' (parse p' levels) flags' args s').2 = (includeAll p (parse p levels) flags args s).2 := by
  have hgrows := parse_grows p levels
  induction args generalizing s s' with
  | nil => exact ⟨h, rfl⟩
  | cons arg args ih =>
    have hs := ((kept_grows p).includeAll hgrows flags (arg :: args) s).alive halive
    rw [includeAll, if_neg (show ¬s.core.dead = true by simp [hs])] at halive ⊢
    rw [includeAll, if_neg (show ¬s'.core.dead = true by simp [h.alive])]
    split
    · exact ⟨h, rfl⟩
    · next hne =>
      rw [if_neg hne] at halive
      have hmid := ((kept_grows p).includeAll hgrows flags args _).alive halive
      exact ih (includeOne_inStep hdisk hrounds hn flags flags' arg h hmid) halive

variable {ci : ConnInfo} (hc : ci.Complete) (hci : p.ci = none) (hci' : p'.ci = some ci) (hacc : p'.acc = p.acc)
include hc hci hci' hacc

theorem stepLine_inStep (line : Text) {r' : St × Flags × Bool} (h : InStep r.1 r'.1) (hgood : r'.2.2 = true)
    (halive : (stepLine p (parse p levels) r line).1.core.dead = false)
    (hok : (stepLine p (parse p levels) r line).2.2 = true) :
    InStep (stepLine p (parse p levels) r line).1 (stepLine p' (parse p' levels) r' line).1 ∧
      (stepLine p' (parse p' levels) r' line).2.2 = true := by
  have hs := ((kept_grows p).stepLine (parse_grows p levels) r line).alive halive
  unfold stepLine at halive hok ⊢
  rw [if_neg (show ¬r.1.core.dead = true by simp [hs])] at halive hok ⊢
  rw [if_neg (show ¬r'.1.core.dead = true by simp [h.alive]), hci', hacc]
  rw [hci] at halive hok ⊢
  cases he : lineEffect p.acc none r.2.1 r.1.core line with
  | next core flags ok =>
    rw [he] at halive hok
    dsimp only at halive hok
    obtain rfl : ok = true := (Bool.and_eq_true_iff.1 hok).2
    obtain ⟨core', flags', he', hdead⟩ := lineEffect_complete hc r'.2.1 r'.1.core he halive
    rw [he']
    exact ⟨⟨hdead.trans h.alive, h.includes, h.clock⟩, by simp [hgood]⟩
  | files args =>
    rw [he] at halive hok
    rw [lineEffect_files.2 (lineEffect_files.1 he)]
    dsimp only at halive hok ⊢
    split
    · next hnil =>
      rw [if_pos hnil] at halive
      cases halive
    next hne =>
    rw [if_neg hne] at halive hok
    obtain ⟨hall, hbool⟩ := includeAll_inStep hdisk hrounds hn r.2.1 r'.2.1 args h halive
    refine ⟨hall, ?_⟩
    rw [hbool, hgood, (Bool.and_eq_true_iff.1 hok).2]
    rfl

theorem foldl_stepLine_inStep (lines : List Text) (r r' : St × Flags × Bool) (h : InStep r.1 r'.1) (hgood : r'.2.2 = true)
    (halive : (lines.foldl (stepLine p (parse p levels)) r).1.core.dead = false)
    (hok : (lines.foldl (stepLine p (parse p levels)) r).2.2 = true) :
    InStep (lines.foldl (stepLine p (parse p levels)) r).1 (lines.foldl (stepLine p' (parse p' levels)) r').1 ∧
      (lines.foldl (stepLine p' (parse p' levels)) r').2.2 = true := by
  induction lines generalizing r r' with
  | nil => exact ⟨h, hgood⟩
  | cons line lines ih =>
    have hmid := ((kept_grows p).foldl_stepLine (parse_grows p levels) lines (stepLine p (parse p levels) r line)).alive halive
    obtain ⟨hline, hgood'⟩ := stepLine_inStep hdisk hrounds hn hc hci hci' hacc line h hgood hmid (good_of_foldl hok)
    exact ih _ _ hline hgood' halive hok

end

/-- **In step.** What start-up accepts is accepted for a connection of which all is known, and the list is the same. -/
theorem parse_inStep (p p' : Pass env) (hdisk : p'.disk = p.disk) (hrounds : p'.rounds = p.rounds) {ci : ConnInfo}
    (hc : ci.Complete) (hci : p.ci = none) (hci' : p'.ci = some ci) (hacc : p'.acc = p.acc) (levels : ℕ)
    (flags flags' : Flags) (conf : List Text) (s s' : St) (h : InStep s s')
    (halive : (parse p levels flags conf s).core.dead = false) :
    InStep (parse p levels flags conf s) (parse p' levels flags' conf s') := by
  induction levels generalizing flags flags' conf s s' with
  | zero => cases halive
  | succ levels ih =>
    rw [parse] at halive ⊢
    rw [parse]
    split at halive
    · next hok =>
      obtain ⟨hlines, hgood⟩ := foldl_stepLine_inStep hdisk hrounds ih hc hci hci' hacc conf
        (s, flags, true) (s', flags', true) h rfl halive hok
      rw [if_pos hok, if_pos hgood]
      exact hlines
    · cases halive

/-! ## Connections after start-up -/

/-- a connection of which all is known -/
def knownConnection : ConnInfo := ⟨some [], false, some [], some [], some [], 22, some [], false⟩

section
variable {acc : Accounts env} {rounds : ℕ} {cfg : List Text} (hstart : (startUp acc rounds fs cfg).core.dead = false)
include hstart

theorem startUp_allSettled (hf : Follows env fs SERVCONF_MAX_DEPTH cfg) :
    AllSettled env fs cfg (startUp acc rounds fs cfg).includes := by
  have hfresh := parse_fresh ⟨acc, none, fun _ => fs, rounds⟩ (fun _ => rfl) (SERVCONF_MAX_DEPTH + 1) ⟨false, false⟩ cfg _ hf
    ⟨⟨ServerOptions.initial, true, false⟩, [], [], 0⟩ (by rintro path - ⟨i, hi, -⟩; cases hi)
  exact (hfresh.2 hstart).allSettled

theorem startUp_whole : ∀ i ∈ (startUp acc rounds fs cfg).includes, Whole fs (startUp acc rounds fs cfg).includes i.selector := by
  intro i hi
  have hadds : AddsWhole fs _ (startUp acc rounds fs cfg) := parse_whole _ (fun _ => rfl) _ _ cfg _
  rcases hadds.whole hstart i hi with hmem | hwhole
  · cases hmem
  · exact hwhole

/-- with the files of start-up, the known connection is served -/
theorem reference_alive : (reprocess acc rounds (fun _ => fs) knownConnection [] cfg).core.dead = false :=
  (parse_inStep ⟨acc, none, fun _ => fs, rounds⟩ ⟨acc, some knownConnection, fun _ => fs, rounds⟩ rfl rfl
    ⟨rfl, rfl, rfl, rfl, by decide, rfl⟩ rfl rfl rfl _ ⟨false, false⟩ ⟨false, true⟩ cfg
      ⟨⟨ServerOptions.initial, true, false⟩, [], [], 0⟩
    ⟨⟨ServerOptions.initial, false, false⟩, [], [], 0⟩ ⟨rfl, rfl, rfl⟩ hstart).alive

end

/-- **Configuration of a connection.** Every connection gets what the files of start-up say, whatever is on the disk, and no
file is opened for it, exactly if no path that is reached has a backslash and the Includes nest at most 16 deep. -/
theorem include_cache_iff (acc : Accounts env) (rounds : ℕ) (fs : FileSystem) (cfg : List Text) (options : ServerOptions)
    (hstart : (startUp acc rounds fs cfg).core.dead = false) : (∀ (ci : ConnInfo) (disk : ℕ → FileSystem),
      matchOptions options (reprocess acc rounds disk ci (startUp acc rounds fs cfg).includes cfg) =
          matchOptions options (reprocess acc rounds (fun _ => fs) ci [] cfg) ∧
        (reprocess acc rounds disk ci (startUp acc rounds fs cfg).includes cfg).opened = []) ↔
      Follows env fs SERVCONF_MAX_DEPTH cfg := by
  constructor
  · intro h
    obtain ⟨hsame, hopened⟩ := h knownConnection fun _ => temptingDisk
    have halive : (reprocess acc rounds (fun _ => temptingDisk) knownConnection (startUp acc rounds fs cfg).includes
        cfg).core.dead = false := by
      by_contra hdead
      have href := reference_alive hstart
      unfold matchOptions at hsame
      rw [if_pos (by simpa using hdead), if_neg (by simp [href])] at hsame
      cases hsame
    obtain ⟨d, hd, hf⟩ := parse_unopened ⟨acc, some knownConnection, fun _ => temptingDisk, rounds⟩ (fun _ => rfl)
      (startUp_whole hstart) (SERVCONF_MAX_DEPTH + 1) ⟨false, true⟩ cfg
      ⟨⟨ServerOptions.initial, false, false⟩, (startUp acc rounds fs cfg).includes, [], 0⟩ rfl ⟨halive, hopened⟩
    obtain rfl : d = SERVCONF_MAX_DEPTH := by omega
    exact hf
  · intro hf ci disk
    have hcached : reprocess acc rounds disk ci (startUp acc rounds fs cfg).includes cfg = _ :=
      parse_settled ⟨acc, some ci, disk, rounds⟩ _ _ cfg _ (startUp_allSettled hstart hf)
    have hread : (reprocess acc rounds (fun _ => fs) ci [] cfg).core = _ :=
      (parse_fresh ⟨acc, some ci, fun _ => fs, rounds⟩ (fun _ => rfl) _ _ cfg _ hf _
        (by rintro path - ⟨i, hi, -⟩; cases hi)).1
    unfold matchOptions
    rw [hread, hcached]
    exact ⟨rfl, rfl⟩

/-! ## Two configurations -/

/-- an sshd without further keywords -/
def bareEnv : Env where
  otherKeyword := fun _ => none
  otherCheck := fun _ _ _ => .error .bad
  tildeExpand := id
  a2port := fun _ => none
  addrListValid := fun _ => false
  releaseMatches := fun _ => false

def bareAccounts : Accounts bareEnv := ⟨fun _ _ => false, fun _ _ => none, nofun⟩

/-- one file on the disk, that sets PasswordAuthentication for all accounts -/
def oneFile (path value : Text) : FileSystem where
  glob := fun pattern => some (if pattern = path then [path] else [])
  read := fun file => if file = path then some ["Match all", "PasswordAuthentication " ++ value] else none

def extraConf : Text := "__PROGRAMDATA__/ssh/extra.conf"

/-- an Include of a file by its full path, with slashes -/
def absoluteFile : List Text := ["Include __PROGRAMDATA__/ssh/extra.conf"]

/-- every connection gets what the file said when sshd started, whatever it says now -/
theorem include_cache_absolute :
    (startUp bareAccounts 0 (oneFile extraConf "no") absoluteFile).core.dead = false ∧
      Follows bareEnv (oneFile extraConf "no") SERVCONF_MAX_DEPTH absoluteFile ∧
      ∀ (ci : ConnInfo) (disk : ℕ → FileSystem),
        matchOptions ServerOptions.initial (reprocess bareAccounts 0 disk ci
            (startUp bareAccounts 0 (oneFile extraConf "no") absoluteFile).includes absoluteFile) =
          matchOptions ServerOptions.initial
            (reprocess bareAccounts 0 (fun _ => oneFile extraConf "no") ci [] absoluteFile) ∧
        (reprocess bareAccounts 0 disk ci (startUp bareAccounts 0 (oneFile extraConf "no") absoluteFile).includes
          absoluteFile).opened = [] := by
  have hstart : (startUp bareAccounts 0 (oneFile extraConf "no") absoluteFile).core.dead = false := by
    change (startUp bareAccounts 0 (oneFile extraConf "no") ["Include __PROGRAMDATA__/ssh/extra.conf"]).core.dead = false
    decide +kernel
  have hpaths : includePaths bareEnv absoluteFile = [extraConf] := by decide +kernel
  have hinner : includePaths bareEnv ["Match all", "PasswordAuthentication no"] = [] := by decide +kernel
  have hglob : (oneFile extraConf "no").glob extraConf = some [extraConf] := by decide +kernel
  have hread : (oneFile extraConf "no").read extraConf =
      some ["Match all".toList, "PasswordAuthentication no".toList] := by decide +kernel
  have hleaf : Follows bareEnv (oneFile extraConf "no") 15 ["Match all", "PasswordAuthentication no"] := by
    intro path hpath
    rw [hinner] at hpath
    cases hpath
  have hf : Follows bareEnv (oneFile extraConf "no") SERVCONF_MAX_DEPTH absoluteFile := by
    intro path hpath
    rw [hpaths, mem_singleton] at hpath
    rw [hpath]
    refine ⟨by decide +kernel, [extraConf], hglob, fun file hfile => ?_⟩
    rw [mem_singleton.1 hfile]
    exact ⟨_, hread, hleaf⟩
  exact ⟨hstart, hf, (include_cache_iff bareAccounts 0 _ _ _ hstart).2 hf⟩

/-- a file in the directory of sshd -/
def relativeFile : List Text := ["Include extra.conf"]

/-- **A relative Include is read again.** sshd starts with `PasswordAuthentication no` in the included file; the file is
changed; the next connection opens it and is allowed a password. -/
theorem relative_include_reread : (startUp bareAccounts 0 (oneFile extraConf "no") relativeFile).core.dead = false ∧
      (matchOptions ServerOptions.initial (reprocess bareAccounts 0 (fun _ => oneFile extraConf "no") knownConnection []
        relativeFile)).map (fun o => o.settings .passwordAuthentication) = some (some (.int 0)) ∧
      (matchOptions ServerOptions.initial (reprocess bareAccounts 0 (fun _ => oneFile extraConf "yes") knownConnection
        (startUp bareAccounts 0 (oneFile extraConf "no") relativeFile).includes
        relativeFile)).map (fun o => o.settings .passwordAuthentication) = some (some (.int 1)) ∧
      (reprocess bareAccounts 0 (fun _ => oneFile extraConf "yes") knownConnection
        (startUp bareAccounts 0 (oneFile extraConf "no") relativeFile).includes relativeFile).opened = [extraConf] := by
  decide +kernel

end OpenSSHServerPN.Servconf
