/-
The list of included files as a cache (`servconf.c`: `sInclude`).

For every connection sshd parses its configuration again, from the text it read when it started and the list of included
files built then. `expand` is the meaning of a configuration with the files of one moment: every Include stands for the
files its pattern has then.

Results:
- `parse_settled`: with a list that is complete for all paths that can be reached, a parse gives the meaning and does not
  touch the disk, whatever is on it;
- `parse_fresh`: on the disk of that moment, a parse from any consistent list gives the meaning and completes the list, if
  no path has a backslash and no file includes itself.
-/
import Mathlib.Logic.Relation
import OpenSSHServerPN.Servconf.Parse

namespace OpenSSHServerPN.Servconf

open Argv Relation List

variable {env : Env}

/-! ## The meaning of a configuration -/

variable {c : Core} {flags : Flags} {line : Text} {args : List Text} {s : St}

theorem Core.die_of_dead (h : c.dead = true) : c.die = c := by
  cases c
  cases h
  rfl

@[simp] theorem Core.activate_self (c : Core) : c.activate c.active = c := rfl

section
variable (fs : FileSystem)

/-- a file of an Include -/
def expandFile (nested : List Text → Core → Core) (active : Bool) (c : Core) (file : Text) : Core :=
  match fs.read file with
  | none => c.die
  | some conf => (nested conf c).activate active

/-- one argument of an Include: the files of its pattern in place of it -/
def expandOne (nested : Flags → List Text → Core → Core) (flags : Flags) (arg : Text) (c : Core) : Core :=
  match fs.glob (includePath arg) with
  | none => c.die
  | some files => files.foldl (expandFile fs (nested (nestedFlags flags c.active)) c.active) c

def expandAll (nested : Flags → List Text → Core → Core) (flags : Flags) : List Text → Core → Core × Bool
  | [], c => (c, true)
  | arg :: args, c =>
    if c.dead then (c, true) else if arg = [] then (c, false)
    else expandAll nested flags args (expandOne fs nested flags arg c)

def expandLine (acc : Accounts env) (ci : Option ConnInfo) (nested : Flags → List Text → Core → Core)
    (r : Core × Flags × Bool) (line : Text) : Core × Flags × Bool :=
  if r.1.dead then r
  else
    match lineEffect acc ci r.2.1 r.1 line with
    | .next core flags ok => (core, flags, r.2.2 && ok)
    | .files args =>
      if args = [] then (r.1.die, r.2)
      else
        let i := expandAll fs nested r.2.1 args r.1
        (i.1, r.2.1, r.2.2 && i.2)

/-- the meaning of a configuration with the files of `fs` -/
def expand (acc : Accounts env) (ci : Option ConnInfo) : ℕ → Flags → List Text → Core → Core
  | 0, _, _, c => c.die
  | levels + 1, flags, conf, c =>
    let r := conf.foldl (expandLine fs acc ci (expand acc ci levels)) (c, flags, true)
    if r.2.2 then r.1 else r.1.die

end

theorem foldl_expandLine_dead (fs : FileSystem) (acc : Accounts env) (ci : Option ConnInfo)
    (nested : Flags → List Text → Core → Core) (conf : List Text) {r : Core × Flags × Bool} (h : r.1.dead = true) :
    conf.foldl (expandLine fs acc ci nested) r = r := by
  induction conf with
  | nil => rfl
  | cons line conf ih =>
    rw [foldl_cons]
    have hline : expandLine fs acc ci nested r line = r := by rw [expandLine, if_pos h]
    rw [hline, ih]

theorem expand_dead (fs : FileSystem) (acc : Accounts env) (ci : Option ConnInfo) (levels : ℕ) (flags : Flags)
    (conf : List Text) (h : c.dead = true) : expand fs acc ci levels flags conf c = c := by
  cases levels with
  | zero => exact Core.die_of_dead h
  | succ levels =>
    rw [expand, foldl_expandLine_dead fs acc ci _ conf h]
    rfl

/-! ## Paths that are included -/

/-- the paths of the Includes of a line -/
def linePaths (env : Env) (line : Text) : List Text :=
  match readLine line with
  | .directive keyword _ args =>
    if (parseToken env keyword).map Prod.fst = some .includeFiles then args.map includePath else []
  | _ => []

/-- the paths a file includes -/
def includePaths (env : Env) (conf : List Text) : List Text := conf.flatMap (linePaths env)

/-- Include is allowed in every block -/
theorem parseToken_include {keyword : Text} (h : (parseToken env keyword).map Prod.fst = some .includeFiles) :
    parseToken env keyword = some (.includeFiles, true) := by
  unfold parseToken at h ⊢
  dsimp only at h ⊢
  split_ifs at h ⊢
  · cases h
  · rfl
  · split at h
    · cases h
    · cases ho : env.otherKeyword (lower keyword) with
      | none | some => rw [ho] at h; cases h

variable {acc : Accounts env} {ci : Option ConnInfo} {core : Core}

/-- a line includes files in every state or in none -/
theorem lineEffect_files : lineEffect acc ci flags core line = .files args ↔
      ∃ keyword str, readLine line = .directive keyword str args ∧
        (parseToken env keyword).map Prod.fst = some .includeFiles := by
  constructor
  · intro h
    unfold lineEffect at h
    dsimp only at h
    cases hl : readLine line with
    | ignored | bad => rw [hl] at h; cases h
    | directive keyword str args' =>
      rw [hl] at h
      dsimp only at h
      split at h
      · split_ifs at h
      next op inMatch hop =>
      split at h
      · split_ifs at h
      cases op with
      | includeFiles =>
        obtain rfl : args' = args := by simpa using h
        exact ⟨keyword, str, rfl, by rw [hop]; rfl⟩
      | matchBlock | option | other =>
        dsimp only at h
        split at h <;> cases h
  · rintro ⟨keyword, str, hl, hinclude⟩
    unfold lineEffect
    rw [hl]
    dsimp only
    rw [parseToken_include hinclude]
    dsimp only
    rw [if_neg (by simp)]

theorem linePaths_of_files (h : lineEffect acc ci flags core line = .files args) : linePaths env line = args.map includePath := by
  obtain ⟨keyword, str, hl, hinclude⟩ := lineEffect_files.1 h
  rw [linePaths, hl]
  exact if_pos hinclude

theorem linePaths_of_next {flags' : Flags} {core' : Core}
    {ok : Bool} (h : lineEffect acc ci flags core line = .next core' flags' ok) : linePaths env line = [] := by
  unfold linePaths
  cases hl : readLine line with
  | ignored | bad => rfl
  | directive keyword str args =>
    refine if_neg fun hinclude => ?_
    rw [lineEffect_files.2 ⟨keyword, str, hl, hinclude⟩] at h
    cases h

section
variable (env) (fs : FileSystem)

/-- `conf` is a file of a path -/
def FileOf (path : Text) (conf : List Text) : Prop :=
  ∃ files, fs.glob path = some files ∧ ∃ file ∈ files, fs.read file = some conf

/-- a file includes another -/
def Step (conf conf' : List Text) : Prop := ∃ path ∈ includePaths env conf, FileOf fs path conf'

/-- a path is included by a file or by files it includes -/
def Reaches (conf : List Text) (path : Text) : Prop :=
  ∃ conf', ReflTransGen (Step env fs) conf conf' ∧ path ∈ includePaths env conf'

/-- no path has a backslash, and Includes that are all followed nest at most `depth` deep -/
def Follows : ℕ → List Text → Prop
  | 0, conf => ∀ path ∈ includePaths env conf, '\\' ∉ path ∧ fs.glob path = some []
  | depth + 1, conf => ∀ path ∈ includePaths env conf, '\\' ∉ path ∧ ∃ files, fs.glob path = some files ∧
      ∀ file ∈ files, ∃ conf', fs.read file = some conf' ∧ Follows depth conf'

end

variable {fs : FileSystem}

variable {conf : List Text} {path : Text}

theorem reaches_of_mem (h : path ∈ includePaths env conf) : Reaches env fs conf path :=
  ⟨conf, ReflTransGen.refl, h⟩

variable {conf' : List Text}

theorem Reaches.step (h : Step env fs conf conf') (hr : Reaches env fs conf' path) :
    Reaches env fs conf path := by
  obtain ⟨c, hc, hp⟩ := hr
  exact ⟨c, hc.head h, hp⟩

/-- a path is included by the file itself or by one that it includes -/
theorem Reaches.cases (h : Reaches env fs conf path) :
    path ∈ includePaths env conf ∨ ∃ conf', Step env fs conf conf' ∧ Reaches env fs conf' path := by
  obtain ⟨c, hc, hp⟩ := h
  rcases hc.cases_head with rfl | ⟨c', hstep, hrest⟩
  · exact .inl hp
  · exact .inr ⟨c', hstep, c, hrest, hp⟩

variable {depth : ℕ}

section
variable (h : Follows env fs depth conf)
include h

theorem Follows.step (hs : Step env fs conf conf') : ∃ d, depth = d + 1 ∧ Follows env fs d conf' := by
  obtain ⟨path, hpath, files, hglob, file, hfile, hread⟩ := hs
  cases depth with
  | zero =>
    have hnone := (h path hpath).2
    rw [hnone] at hglob
    cases hglob
    cases hfile
  | succ d =>
    obtain ⟨-, files', hglob', hfiles⟩ := h path hpath
    rw [hglob] at hglob'
    cases hglob'
    obtain ⟨c, hread', hc⟩ := hfiles file hfile
    rw [hread] at hread'
    cases hread'
    exact ⟨d, rfl, hc⟩

theorem Follows.plain (hp : path ∈ includePaths env conf) : '\\' ∉ path := by
  cases depth with
  | zero | succ => exact (h path hp).1

theorem Follows.files (hp : path ∈ includePaths env conf) :
    ∃ files : List (Text × List Text), fs.glob path = some (files.map Prod.fst) ∧ ∀ f ∈ files, fs.read f.1 = some f.2 := by
  cases depth with
  | zero => exact ⟨[], (h path hp).2, fun f hf => absurd hf not_mem_nil⟩
  | succ d =>
    obtain ⟨-, names, hglob, hfiles⟩ := h path hp
    have hread : ∀ f ∈ names, ∃ conf, fs.read f = some conf := fun f hf => by
      obtain ⟨c, hc, -⟩ := hfiles f hf
      exact ⟨c, hc⟩
    refine ⟨names.map fun f => (f, (fs.read f).getD []), ?_, ?_⟩
    · rw [hglob, List.map_map]
      exact congrArg some (map_id names).symm
    · intro f hf
      obtain ⟨name, hname, rfl⟩ := mem_map.1 hf
      obtain ⟨c, hc⟩ := hread name hname
      simp [hc]

/-- **No file includes itself.** -/
theorem Follows.acyclic : ¬TransGen (Step env fs) conf conf := by
  induction depth generalizing conf with
  | zero =>
    intro hcycle
    obtain ⟨c, hstep, -⟩ := TransGen.head'_iff.1 hcycle
    obtain ⟨d, hd, -⟩ := h.step hstep
    cases hd
  | succ depth ih =>
    intro hcycle
    obtain ⟨c, hstep, hback⟩ := TransGen.head'_iff.1 hcycle
    obtain ⟨d, hd, hc⟩ := h.step hstep
    cases hd
    exact ih hc (TransGen.tail' hback hstep)

end

/-! ## Complete lists -/

/-- the items of a path are its files, in order -/
def Settled (fs : FileSystem) (includes : List IncludeItem) (path : Text) : Prop :=
  ∃ files : List (Text × List Text), fs.glob path = some (files.map Prod.fst) ∧ (∀ f ∈ files, fs.read f.1 = some f.2) ∧
    (includes.filter fun i => i.selector = path).map IncludeItem.file = if files = [] then [none] else files.map some

variable {includes : List IncludeItem}

theorem Settled.present (h : Settled fs includes path) :
    ∃ i ∈ includes, i.selector = path := by
  obtain ⟨files, -, -, hitems⟩ := h
  have hne : includes.filter (fun i => decide (i.selector = path)) ≠ [] := by
    intro hnil
    rw [hnil] at hitems
    split at hitems
    · cases hitems
    · next hfiles => exact hfiles (by simpa using hitems.symm)
  obtain ⟨i, hi⟩ := exists_mem_of_ne_nil _ hne
  have := mem_filter.1 hi
  exact ⟨i, this.1, by simpa using this.2⟩

variable {added : List IncludeItem}

theorem Settled.append (h : Settled fs includes path)
    (hadded : ∀ i ∈ added, i.selector ≠ path) : Settled fs (includes ++ added) path := by
  obtain ⟨files, hglob, hread, hitems⟩ := h
  refine ⟨files, hglob, hread, ?_⟩
  have hnone : added.filter (fun i => decide (i.selector = path)) = [] :=
    filter_eq_nil_iff.2 fun i hi => by simpa using hadded i hi
  rw [filter_append, hnone, append_nil, hitems]

/-! ## A parse with a complete list -/

/-- what an item of the list does to the options -/
def itemCore (g : List Text → Core → Core) (active : Bool) (c : Core) : Option (Text × List Text) → Core
  | some (_, conf) => (g conf c).activate active
  | none => c.activate active

/-- a parse that only changes the options -/
def St.withCore (s : St) (c : Core) : St := { s with core := c }

variable {g : List Text → Core → Core} {I : List IncludeItem} {nested : List Text → St → St}

/-- a walk over items whose files only change the options -/
theorem visit_core {active : Bool} {items : List IncludeItem}
    (hn : ∀ i ∈ items, i.selector = path → ∀ f conf, i.file = some (f, conf) → ∀ s : St, s.includes = I →
      nested conf s = s.withCore (g conf s.core)) : ∀ s : St, s.includes = I → visit nested path active items s =
      (s.withCore (((items.filter fun i => i.selector = path).map IncludeItem.file).foldl (itemCore g active) s.core),
        !(items.filter fun i => i.selector = path).isEmpty) := by
  induction items with
  | nil => intro s _; rfl
  | cons item items ih =>
    intro s hs
    have ih := ih fun i hi => hn i (mem_cons_of_mem _ hi)
    by_cases hsel : item.selector = path
    · rw [visit, if_pos hsel, filter_cons_of_pos (by simpa using hsel), map_cons, foldl_cons]
      cases hfile : item.file with
      | none =>
        show ((visit nested path active items (s.activate active)).1, true) = _
        rw [ih (s.activate active) hs]
        rfl
      | some file =>
        have hnest := hn item mem_cons_self hsel file.1 file.2 hfile s hs
        show ((visit nested path active items ((nested file.2 s).activate active)).1, true) = _
        rw [hnest, ih ((s.withCore (g file.2 s.core)).activate active) hs]
        rfl
    · rw [visit, if_neg hsel, filter_cons_of_neg (by simpa using hsel)]
      exact ih s hs

/-- the walk over a list that does not grow -/
theorem walk_core (path : Text) (active : Bool)
    (hn : ∀ i ∈ s.includes, i.selector = path → ∀ f conf, i.file = some (f, conf) → ∀ s' : St, s'.includes = s.includes →
      nested conf s' = s'.withCore (g conf s'.core)) (rounds : ℕ) : walk nested path active (rounds + 1) 0 s =
      (s.withCore (((s.includes.filter fun i => i.selector = path).map IncludeItem.file).foldl (itemCore g active) s.core),
        !(s.includes.filter fun i => i.selector = path).isEmpty) := by
  unfold walk
  split
  · have hnil : s.includes = [] := eq_nil_of_length_eq_zero (by omega)
    rw [hnil]
    rfl
  · rw [drop_zero, visit_core hn s rfl]
    unfold walk
    dsimp only
    rw [if_pos (by exact le_rfl), Bool.or_false]

variable {files : List (Text × List Text)}

theorem foldl_itemCore (hread : ∀ f ∈ files, fs.read f.1 = some f.2) :
    (if files = [] then [none] else files.map some).foldl (itemCore g c.active) c =
      (files.map Prod.fst).foldl (expandFile fs g c.active) c := by
  split
  · next hnil => subst hnil; rfl
  · rw [foldl_map, foldl_map]
    refine foldl_ext _ _ _ fun b f hf => ?_
    rw [expandFile, hread f hf]
    rfl

variable {nested : Flags → List Text → St → St} {arg : Text}

variable (p : Pass env)

theorem includeOne_settled {g : Flags → List Text → Core → Core} (hset : Settled fs s.includes (includePath arg))
    (hn : ∀ flags conf, FileOf fs (includePath arg) conf → ∀ s' : St, s'.includes = s.includes →
      nested flags conf s' = s'.withCore (g flags conf s'.core)) :
    includeOne p nested flags arg s = s.withCore (expandOne fs g flags arg s.core) := by
  have hpresent := hset.present
  obtain ⟨files, hglob, hread, hitems⟩ := hset
  have hfile : ∀ i ∈ s.includes, i.selector = includePath arg → ∀ f conf, i.file = some (f, conf) →
      FileOf fs (includePath arg) conf := by
    intro i hi hsel f conf hf
    have hmem : some (f, conf) ∈ if files = [] then [none] else files.map some := by
      rw [← hitems]
      exact mem_map.2 ⟨i, mem_filter.2 ⟨hi, by simpa using hsel⟩, hf⟩
    split at hmem
    · simp at hmem
    · obtain ⟨x, hx, hxe⟩ := mem_map.1 hmem
      cases hxe
      exact ⟨_, hglob, f, mem_map.2 ⟨_, hx, rfl⟩, hread _ hx⟩
  have hwalk := walk_core (includePath arg) s.core.active (fun i hi hsel f conf hf s' hs' =>
    hn (nestedFlags flags s.core.active) conf (hfile i hi hsel f conf hf) s' hs') p.rounds
  have hfound : (!(s.includes.filter fun i => decide (i.selector = includePath arg)).isEmpty) = true := by
    obtain ⟨i, hi, hsel⟩ := hpresent
    have hmem : i ∈ s.includes.filter fun i => decide (i.selector = includePath arg) :=
      mem_filter.2 ⟨hi, by simpa using hsel⟩
    cases hl : s.includes.filter fun i => decide (i.selector = includePath arg) with
    | nil => rw [hl] at hmem; cases hmem
    | cons x xs => rfl
  unfold includeOne lookup
  rw [hwalk, hfound, if_pos (.inl rfl), hitems, foldl_itemCore hread, expandOne, hglob]

theorem lookup_absent (nested : Flags → List Text → St → St) (flags : Flags)
    (habsent : ∀ i ∈ s.includes, i.selector ≠ includePath arg) : lookup p nested flags arg s = (s, false) := by
  have hnone : s.includes.filter (fun i => decide (i.selector = includePath arg)) = [] :=
    filter_eq_nil_iff.2 fun i hi => by simpa using habsent i hi
  unfold lookup
  rw [walk_core (g := fun _ c => c) (includePath arg) s.core.active (fun i hi hsel => absurd hsel (habsent i hi)) p.rounds,
    hnone]
  rfl

theorem includeAll_settled {g : Flags → List Text → Core → Core} (hset : ∀ arg ∈ args, Settled fs I (includePath arg))
    (hn : ∀ arg ∈ args, ∀ flags conf, FileOf fs (includePath arg) conf → ∀ s : St, s.includes = I →
      nested flags conf s = s.withCore (g flags conf s.core)) :
    ∀ s : St, s.includes = I → includeAll p nested flags args s =
      (s.withCore (expandAll fs g flags args s.core).1, (expandAll fs g flags args s.core).2) := by
  induction args with
  | nil => intro s _; rfl
  | cons arg args ih =>
    intro s hs
    rw [includeAll, expandAll]
    split
    · rfl
    · split
      · rfl
      · rw [includeOne_settled p (by rw [hs]; exact hset arg mem_cons_self) fun flags conf hconf s' hs' =>
          hn arg mem_cons_self flags conf hconf s' (hs'.trans hs)]
        exact ih (fun a ha => hset a (mem_cons_of_mem _ ha)) (fun a ha => hn a (mem_cons_of_mem _ ha)) _ hs

theorem stepLine_settled {g : Flags → List Text → Core → Core} (hset : ∀ path ∈ linePaths env line, Settled fs I path)
    (hn : ∀ path ∈ linePaths env line, ∀ flags conf, FileOf fs path conf → ∀ s : St, s.includes = I →
      nested flags conf s = s.withCore (g flags conf s.core)) (s : St) (hs : s.includes = I) (flags : Flags) (ok : Bool) :
    stepLine p nested (s, flags, ok) line = (s.withCore (expandLine fs p.acc p.ci g (s.core, flags, ok) line).1,
        (expandLine fs p.acc p.ci g (s.core, flags, ok) line).2) := by
  unfold stepLine expandLine
  dsimp only
  split
  · rfl
  cases he : lineEffect p.acc p.ci flags s.core line with
  | next core flags' ok' => rfl
  | files args =>
    dsimp only
    rw [linePaths_of_files he] at hset hn
    split
    · rfl
    · rw [includeAll_settled p (fun arg ha => hset _ (mem_map_of_mem ha))
        (fun arg ha => hn _ (mem_map_of_mem ha)) s hs]

/-- **A complete list.** The parse gives the meaning of the configuration; nothing is read, and nothing is added. -/
theorem parse_settled (levels : ℕ) (flags : Flags) (conf : List Text) (s : St)
    (h : ∀ path, Reaches env fs conf path → Settled fs s.includes path) :
    parse p levels flags conf s = s.withCore (expand fs p.acc p.ci levels flags conf s.core) := by
  induction levels generalizing flags conf s with
  | zero => rfl
  | succ levels ih =>
    -- over the lines of the file, with a list that stays as it is
    have hlines : ∀ lines : List Text, lines ⊆ conf → ∀ (s' : St) (flags : Flags) (ok : Bool), s'.includes = s.includes →
        lines.foldl (stepLine p (parse p levels)) (s', flags, ok) =
          (s'.withCore (lines.foldl (expandLine fs p.acc p.ci (expand fs p.acc p.ci levels)) (s'.core, flags, ok)).1,
            (lines.foldl (expandLine fs p.acc p.ci (expand fs p.acc p.ci levels)) (s'.core, flags, ok)).2) := by
      intro lines
      induction lines with
      | nil => intro _ s' flags ok _; rfl
      | cons line lines ihl =>
        intro hsub s' flags ok hs'
        have hline : line ∈ conf := hsub mem_cons_self
        have hmem : ∀ path ∈ linePaths env line, path ∈ includePaths env conf :=
          fun path hp => mem_flatMap.2 ⟨line, hline, hp⟩
        have hnested : ∀ path ∈ linePaths env line, ∀ flags c, FileOf fs path c → ∀ s'' : St, s''.includes = s.includes →
            parse p levels flags c s'' = s''.withCore (expand fs p.acc p.ci levels flags c s''.core) := by
          intro path hp flags c hc s'' hs''
          refine ih flags c s'' fun q hq => ?_
          rw [hs'']
          exact h q (hq.step ⟨path, hmem path hp, hc⟩)
        have hstep := stepLine_settled p (fun path hp => h path (reaches_of_mem (hmem path hp))) hnested s' hs' flags ok
        rw [foldl_cons, foldl_cons, hstep]
        exact ihl (fun x hx => hsub (mem_cons_of_mem _ hx)) _ _ _ hs'
    rw [parse, expand, hlines conf (fun _ hx => hx) s flags true rfl]
    dsimp only
    split <;> rfl

/-! ## Lists on the way -/

section
variable (env fs)

/-- every path that a file reaches is complete -/
def AllSettled (conf : List Text) (I : List IncludeItem) : Prop := ∀ path, Reaches env fs conf path → Settled fs I path

/-- a path is complete, with all that its files reach -/
def Deep (I : List IncludeItem) (path : Text) : Prop :=
  Settled fs I path ∧ ∀ conf, FileOf fs path conf → AllSettled env fs conf I

/-- a path is reached through another -/
def Under (path q : Text) : Prop := q = path ∨ ∃ conf, FileOf fs path conf ∧ Reaches env fs conf q

/-- what a file can find in the list is complete -/
def Ready (conf : List Text) (I : List IncludeItem) : Prop :=
  ∀ path, Reaches env fs conf path → (∃ i ∈ I, i.selector = path) → Deep env fs I path

/-- new items have new paths -/
def Fresh (I added : List IncludeItem) : Prop := ∀ i ∈ added, ∀ j ∈ I, j.selector ≠ i.selector

/-- the list after some paths were included -/
structure Advance (I : List IncludeItem) (paths : List Text) (I' : List IncludeItem) : Prop where
  added : ∃ added, I' = I ++ added ∧ Fresh I added ∧ ∀ i ∈ added, ∃ path ∈ paths, Under env fs path i.selector
  deep : ∀ path ∈ paths, Deep env fs I' path

end

theorem Fresh.settled (h : Fresh I added) (hp : Settled fs I path) : Settled fs (I ++ added) path := by
  obtain ⟨j, hj, rfl⟩ := hp.present
  exact hp.append fun i hi => (h i hi j hj).symm

theorem Fresh.deep (h : Fresh I added) (hp : Deep env fs I path) : Deep env fs (I ++ added) path :=
  ⟨h.settled hp.1, fun conf hconf q hq => h.settled (hp.2 conf hconf q hq)⟩

theorem Deep.under {q : Text} (h : Deep env fs I path) (hq : Under env fs path q) : Deep env fs I q := by
  rcases hq with rfl | ⟨conf, hconf, hr⟩
  · exact h
  · refine ⟨h.2 conf hconf q hr, fun conf' hconf' q' hq' => h.2 conf hconf q' ?_⟩
    obtain ⟨c, hc, hqc⟩ := hr
    obtain ⟨c', hc', hq''⟩ := hq'
    exact ⟨c', (hc.tail ⟨q, hqc, hconf'⟩).trans hc', hq''⟩

/-- a path reached by a file all of whose paths are complete -/
theorem AllSettled.deep (h : AllSettled env fs conf I) (hp : Reaches env fs conf path) : Deep env fs I path := by
  refine ⟨h path hp, fun conf' hconf' q hq => h q ?_⟩
  obtain ⟨c, hc, hpc⟩ := hp
  obtain ⟨c', hc', hq'⟩ := hq
  exact ⟨c', (hc.tail ⟨path, hpc, hconf'⟩).trans hc', hq'⟩

theorem advance_nil (I : List IncludeItem) : Advance env fs I [] I :=
  ⟨⟨[], (append_nil I).symm, nofun, nofun⟩, nofun⟩

variable {I' : List IncludeItem}

theorem Advance.trans {I'' : List IncludeItem} {ps qs : List Text} (h : Advance env fs I ps I')
    (h' : Advance env fs I' qs I'') : Advance env fs I (ps ++ qs) I'' := by
  obtain ⟨⟨a, rfl, hfresh, hunder⟩, hdeep⟩ := h
  obtain ⟨⟨b, rfl, hfresh', hunder'⟩, hdeep'⟩ := h'
  refine ⟨⟨a ++ b, append_assoc _ _ _, ?_, ?_⟩, ?_⟩
  · intro i hi j hj
    rcases mem_append.1 hi with hi | hi
    · exact hfresh i hi j hj
    · exact hfresh' i hi j (mem_append_left _ hj)
  · intro i hi
    rcases mem_append.1 hi with hi | hi
    · obtain ⟨path, hpath, hu⟩ := hunder i hi
      exact ⟨path, mem_append_left _ hpath, hu⟩
    · obtain ⟨path, hpath, hu⟩ := hunder' i hi
      exact ⟨path, mem_append_right _ hpath, hu⟩
  · intro path hpath
    rcases mem_append.1 hpath with hpath | hpath
    · exact hfresh'.deep (hdeep path hpath)
    · exact hdeep' path hpath

theorem Advance.ready {ps : List Text} (h : Advance env fs I ps I')
    (hr : Ready env fs conf I) : Ready env fs conf I' := by
  obtain ⟨⟨added, rfl, hfresh, hunder⟩, hdeep⟩ := h
  rintro path hpath ⟨i, hi, rfl⟩
  rcases mem_append.1 hi with hi | hi
  · exact hfresh.deep (hr _ hpath ⟨i, hi, rfl⟩)
  · obtain ⟨q, hq, hu⟩ := hunder i hi
    exact (hdeep q hq).under hu

theorem Advance.allSettled (h : Advance env fs I (includePaths env conf) I') : AllSettled env fs conf I' := by
  intro path hpath
  rcases hpath.cases with hmem | ⟨conf', ⟨q, hq, hfile⟩, hreach⟩
  · exact (h.deep path hmem).1
  · exact (h.deep q hq).2 conf' hfile path hreach

theorem Under.reaches {q : Text} (h : Under env fs path q) (hp : path ∈ includePaths env conf) :
    Reaches env fs conf q := by
  rcases h with rfl | ⟨c, hc, hr⟩
  · exact reaches_of_mem hp
  · exact hr.step ⟨path, hp, hc⟩

/-! ## A parse on the disk of the moment -/

section
variable (env fs)

/-- the list while the files of a path are loaded -/
structure Loading (I : List IncludeItem) (path : Text) (done : List (Text × List Text)) (J : List IncludeItem) : Prop where
  added : ∃ added, J = I ++ added ∧ Fresh I added ∧
    ∀ i ∈ added, i.selector = path ∨ ∃ f ∈ done, Reaches env fs f.2 i.selector
  items : (J.filter fun i => i.selector = path).map IncludeItem.file = done.map some
  settled : ∀ f ∈ done, AllSettled env fs f.2 J

end

section
variable {I J J' : List IncludeItem} {conf : List Text} {path : Text} {done : List (Text × List Text)}

theorem loading_nil (habsent : ∀ i ∈ I, i.selector ≠ path) : Loading env fs I path [] I where
  added := ⟨[], (append_nil I).symm, nofun, nofun⟩
  items := by
    rw [filter_eq_nil_iff.2 fun i hi => by simpa using habsent i hi]
    rfl
  settled := nofun

/-- a file of the path finds only what is complete -/
theorem Loading.ready (h : Loading env fs I path done J) (hpath : path ∈ includePaths env conf) (hready : Ready env fs conf I)
    {c : List Text} (hc : FileOf fs path c) (hacyc : ¬Reaches env fs c path) : Ready env fs c J := by
  rintro q hq ⟨i, hi, rfl⟩
  obtain ⟨added, rfl, hfresh, hadded⟩ := h.added
  rcases mem_append.1 hi with hi | hi
  · exact hfresh.deep (hready i.selector (hq.step ⟨path, hpath, hc⟩) ⟨i, hi, rfl⟩)
  · rcases hadded i hi with heq | ⟨f, hf, hreach⟩
    · exact absurd (heq ▸ hq) hacyc
    · exact (h.settled f hf).deep hreach

/-- an item of a path that a file does not reach makes no difference to it -/
theorem AllSettled.add {c : List Text} (h : AllSettled env fs c J) (hacyc : ¬Reaches env fs c path)
    (file : Option (Text × List Text)) : AllSettled env fs c (J ++ [⟨path, file⟩]) := by
  intro q hq
  refine (h q hq).append fun i hi => ?_
  obtain rfl := mem_singleton.1 hi
  rintro rfl
  exact hacyc hq

theorem Loading.step (h : Loading env fs I path done J) (habsent : ∀ i ∈ I, i.selector ≠ path)
    (hacyc : ∀ c, FileOf fs path c → ¬Reaches env fs c path) (hdone : ∀ f ∈ done, FileOf fs path f.2) {f : Text × List Text}
    (hf : FileOf fs path f.2) (hadv : Advance env fs J (includePaths env f.2) J') :
    Loading env fs I path (done ++ [f]) (J' ++ [⟨path, some f⟩]) := by
  have hall := hadv.allSettled
  obtain ⟨added, rfl, hfresh, hadded⟩ := h.added
  obtain ⟨⟨b, rfl, hfreshb, hunder⟩, -⟩ := hadv
  have hreach : ∀ i ∈ b, Reaches env fs f.2 i.selector := by
    intro i hi
    obtain ⟨q, hq, hu⟩ := hunder i hi
    exact hu.reaches hq
  refine ⟨⟨added ++ (b ++ [⟨path, some f⟩]), by simp, ?_, ?_⟩, ?_, ?_⟩
  · intro i hi j hj
    rcases mem_append.1 hi with hi | hi
    · exact hfresh i hi j hj
    rcases mem_append.1 hi with hi | hi
    · exact hfreshb i hi j (mem_append_left _ hj)
    · obtain rfl := mem_singleton.1 hi
      exact habsent j hj
  · intro i hi
    rcases mem_append.1 hi with hi | hi
    · rcases hadded i hi with heq | ⟨g, hg, hr⟩
      · exact .inl heq
      · exact .inr ⟨g, mem_append_left _ hg, hr⟩
    rcases mem_append.1 hi with hi | hi
    · exact .inr ⟨f, mem_append_right _ mem_cons_self, hreach i hi⟩
    · obtain rfl := mem_singleton.1 hi
      exact .inl rfl
  · have hb : b.filter (fun i => decide (i.selector = path)) = [] :=
      filter_eq_nil_iff.2 fun i hi => by
        simpa using fun heq : i.selector = path => hacyc f.2 hf (heq ▸ hreach i hi)
    rw [filter_append, filter_append, hb, append_nil, map_append, h.items]
    simp
  · intro g hg
    rcases mem_append.1 hg with hg | hg
    · have : AllSettled env fs g.2 (I ++ added ++ b) := fun q hq => hfreshb.settled (h.settled g hg q hq)
      exact this.add (hacyc g.2 (hdone g hg)) _
    · obtain rfl := mem_singleton.1 hg
      exact hall.add (hacyc g.2 hf) _

theorem Loading.advance (h : Loading env fs I path done J) (hne : done ≠ []) (hglob : fs.glob path = some (done.map Prod.fst))
    (hread : ∀ f ∈ done, fs.read f.1 = some f.2) : Advance env fs I [path] J := by
  have hfile : ∀ f ∈ done, FileOf fs path f.2 := fun f hf => ⟨_, hglob, f.1, mem_map.2 ⟨f, hf, rfl⟩, hread f hf⟩
  constructor
  · obtain ⟨added, hJ, hfresh, hadded⟩ := h.added
    refine ⟨added, hJ, hfresh, fun i hi => ⟨path, mem_cons_self, ?_⟩⟩
    rcases hadded i hi with heq | ⟨f, hf, hr⟩
    · exact .inl heq
    · exact .inr ⟨f.2, hfile f hf, hr⟩
  · intro q hq
    obtain rfl := mem_singleton.1 hq
    refine ⟨⟨done, hglob, hread, by rw [if_neg hne]; exact h.items⟩, ?_⟩
    rintro conf ⟨files, hglob', file, hfile, hread'⟩
    rw [hglob] at hglob'
    cases hglob'
    obtain ⟨f, hf, rfl⟩ := mem_map.1 hfile
    rw [hread f hf] at hread'
    cases hread'
    exact h.settled f hf

theorem advance_placeholder (habsent : ∀ i ∈ I, i.selector ≠ path) (hglob : fs.glob path = some []) :
    Advance env fs I [path] (I ++ [⟨path, none⟩]) := by
  constructor
  · refine ⟨[⟨path, none⟩], rfl, ?_, ?_⟩
    · intro i hi j hj
      obtain rfl := mem_singleton.1 hi
      exact habsent j hj
    · intro i hi
      obtain rfl := mem_singleton.1 hi
      exact ⟨path, mem_cons_self, .inl rfl⟩
  · intro q hq
    obtain rfl := mem_singleton.1 hq
    refine ⟨⟨[], hglob, nofun, ?_⟩, ?_⟩
    · rw [filter_append, filter_eq_nil_iff.2 fun i hi => by simpa using habsent i hi]
      simp
    · rintro conf ⟨files, hglob', file, hfile, -⟩
      rw [hglob] at hglob'
      cases hglob'
      cases hfile

end

theorem foldl_expandFile_dead (hg : ∀ conf c, c.dead = true → g conf c = c)
    (hdead : c.dead = true) (files : List Text) : files.foldl (expandFile fs g c.active) c = c := by
  induction files with
  | nil => rfl
  | cons file files ih =>
    have hone : expandFile fs g c.active c file = c := by
      unfold expandFile
      split
      · exact Core.die_of_dead hdead
      · rw [hg _ _ hdead, Core.activate_self]
    rw [foldl_cons, hone, ih]

section
variable (p : Pass env) (hdisk : ∀ t, p.disk t = fs) {conf : List Text} {I : List IncludeItem} {path : Text} {active : Bool}
  {nested : List Text → St → St} {g : List Text → Core → Core} (hgdead : ∀ c core, core.dead = true → g c core = core)
  (hpath : path ∈ includePaths env conf) (hready : Ready env fs conf I) (habsent : ∀ i ∈ I, i.selector ≠ path)
  (hacyc : ∀ c, FileOf fs path c → ¬Reaches env fs c path)
  (hn : ∀ c, FileOf fs path c → ∀ s : St, Ready env fs c s.includes → (nested c s).core = g c s.core ∧
    ((nested c s).core.dead = false → Advance env fs s.includes (includePaths env c) (nested c s).includes))
include hdisk hgdead hpath hready habsent hacyc hn

/-- the files of a path are loaded one after the other -/
theorem load_fresh (rest : List (Text × List Text)) : ∀ (done : List (Text × List Text)) (s : St),
    (∀ f ∈ done ++ rest, FileOf fs path f.2) → (∀ f ∈ rest, fs.read f.1 = some f.2) → s.core.active = active →
    (s.core.dead = false → Loading env fs I path done s.includes) →
    (load p nested path active (rest.map Prod.fst) s).core = (rest.map Prod.fst).foldl (expandFile fs g active) s.core ∧
      ((load p nested path active (rest.map Prod.fst) s).core.dead = false →
        Loading env fs I path (done ++ rest) (load p nested path active (rest.map Prod.fst) s).includes) := by
  induction rest with
  | nil =>
    intro done s _ _ _ hload
    rw [append_nil]
    exact ⟨rfl, hload⟩
  | cons f rest ih =>
    intro done s hfiles hread hactive hload
    by_cases hdead : s.core.dead = true
    · rw [map_cons, load, if_pos hdead, ← hactive, foldl_expandFile_dead hgdead hdead]
      refine ⟨rfl, fun halive => ?_⟩
      rw [hdead] at halive
      cases halive
    · have hload := hload (by simpa using hdead)
      have hf : FileOf fs path f.2 := hfiles f (by simp)
      have hreadf := hread f mem_cons_self
      have hreadp : (p.disk s.clock).read f.1 = some f.2 := by rw [hdisk]; exact hreadf
      obtain ⟨hcore, hadv⟩ := hn f.2 hf (s.open f.1) (hload.ready hpath hready hf (hacyc _ hf))
      have hnext := ih (done ++ [f]) (((nested f.2 (s.open f.1)).activate active).add ⟨path, some f⟩)
        (by simpa using hfiles) (fun x hx => hread x (mem_cons_of_mem _ hx)) rfl
        fun halive => hload.step habsent hacyc (fun x hx => hfiles x (mem_append_left _ hx)) hf (hadv halive)
      have hexp : expandFile fs g active s.core f.1 = (nested f.2 (s.open f.1)).core.activate active := by
        rw [expandFile, hreadf, hcore]
        rfl
      rw [map_cons, foldl_cons, load, if_neg hdead, hreadp, hexp]
      rw [append_assoc] at hnext
      exact hnext

theorem miss_fresh (hs : s.includes = I) (hactive : s.core.active = active)
    (hglob : fs.glob path = some (files.map Prod.fst))
    (hread : ∀ f ∈ files, fs.read f.1 = some f.2) :
    (miss p nested path active s).core = (files.map Prod.fst).foldl (expandFile fs g active) s.core ∧
      ((miss p nested path active s).core.dead = false → Advance env fs I [path] (miss p nested path active s).includes) := by
  have hfile : ∀ f ∈ files, FileOf fs path f.2 := fun f hf => ⟨_, hglob, f.1, mem_map.2 ⟨f, hf, rfl⟩, hread f hf⟩
  unfold miss
  rw [hdisk, hglob]
  cases files with
  | nil =>
    refine ⟨rfl, fun _ => ?_⟩
    show Advance env fs I [path] (s.includes ++ [⟨path, none⟩])
    rw [hs]
    exact advance_placeholder habsent hglob
  | cons f rest =>
    have hload : s.tick.core.dead = false → Loading env fs I path [] s.tick.includes := by
      intro _
      show Loading env fs I path [] s.includes
      rw [hs]
      exact loading_nil habsent
    obtain ⟨hcore, hdone⟩ := load_fresh p hdisk hgdead hpath hready habsent hacyc hn (f :: rest) [] s.tick hfile hread hactive hload
    exact ⟨hcore, fun h => (hdone h).advance (cons_ne_nil _ _) hglob hread⟩

end

theorem convertToForwardslash_plain (h : '\\' ∉ path) : WinPath.convertToForwardslash path = path := by
  conv_rhs => rw [← map_id path]
  refine map_congr_left fun c hc => ?_
  rw [if_neg fun heq : c = '\\' => h (heq ▸ hc)]
  rfl

section
variable (env fs)

/-- how a parse that began with the list `I` stands: it has the options of the meaning, and a consistent list; without a
bad option, the list is complete for the paths so far -/
structure OnTrack (conf : List Text) (I : List IncludeItem) (paths : List Text) (s : St) (c : Core) (ok : Bool) : Prop where
  core : s.core = c
  ready : s.core.dead = false → Ready env fs conf s.includes
  advance : s.core.dead = false → ok = true → Advance env fs I paths s.includes

end

theorem OnTrack.of_dead {paths : List Text} (h : s.core.dead = true) (ok : Bool) :
    OnTrack env fs conf I paths s s.core ok := by
  refine ⟨rfl, fun halive => ?_, fun halive => ?_⟩
  · rw [h] at halive
    cases halive
  · rw [h] at halive
    cases halive

section
variable (p : Pass env) (hdisk : ∀ t, p.disk t = fs) {conf : List Text} {depth levels : ℕ} (hf : Follows env fs depth conf)
  (hn : ∀ flags c d, Follows env fs d c → ∀ s : St, Ready env fs c s.includes →
    (parse p levels flags c s).core = expand fs p.acc p.ci levels flags c s.core ∧
      ((parse p levels flags c s).core.dead = false →
        Advance env fs s.includes (includePaths env c) (parse p levels flags c s).includes))
include hdisk hf hn

theorem includeOne_fresh (flags : Flags) (harg : includePath arg ∈ includePaths env conf)
    (hready : Ready env fs conf s.includes) (halive : s.core.dead = false) :
    (includeOne p (parse p levels) flags arg s).core = expandOne fs (expand fs p.acc p.ci levels) flags arg s.core ∧
      ((includeOne p (parse p levels) flags arg s).core.dead = false →
        Advance env fs s.includes [includePath arg] (includeOne p (parse p levels) flags arg s).includes) := by
  by_cases hpresent : ∃ i ∈ s.includes, i.selector = includePath arg
  · -- the list has the path, with all that its files reach
    have hdeep := hready _ (reaches_of_mem harg) hpresent
    have heq : includeOne p (parse p levels) flags arg s =
        s.withCore (expandOne fs (expand fs p.acc p.ci levels) flags arg s.core) :=
      includeOne_settled p hdeep.1 fun flags c hc s' hs' =>
        parse_settled p levels flags c s' (by rw [hs']; exact hdeep.2 c hc)
    rw [heq]
    refine ⟨rfl, fun _ => ⟨⟨[], (append_nil _).symm, nofun, nofun⟩, fun path hpath => ?_⟩⟩
    obtain rfl := mem_singleton.1 hpath
    exact hdeep
  · have habsent : ∀ i ∈ s.includes, i.selector ≠ includePath arg := fun i hi heq => hpresent ⟨i, hi, heq⟩
    obtain ⟨files, hglob, hread⟩ := hf.files harg
    have hacyc : ∀ c, FileOf fs (includePath arg) c → ¬Reaches env fs c (includePath arg) := by
      intro c hc
      obtain ⟨d, -, hd⟩ := hf.step ⟨_, harg, hc⟩
      rintro ⟨_, hreach, hp⟩
      exact hd.acyclic (.tail' hreach ⟨_, hp, hc⟩)
    have hmiss := miss_fresh p hdisk (fun c core hdead => expand_dead fs p.acc p.ci levels _ c hdead) harg hready habsent hacyc
      (fun c hc s' hs' => by
        obtain ⟨d, -, hd⟩ := hf.step ⟨_, harg, hc⟩
        exact hn (nestedFlags flags s.core.active) c d hd s' hs') rfl rfl hglob hread
    unfold includeOne
    rw [lookup_absent p _ flags habsent]
    have hstop : ¬(false = true ∨ s.core.dead = true) := by simp [halive]
    rw [if_neg hstop, convertToForwardslash_plain (hf.plain harg), expandOne, hglob]
    exact hmiss

theorem includeAll_fresh (flags : Flags) (hargs : ∀ arg ∈ args, includePath arg ∈ includePaths env conf)
    (s : St) (hready : s.core.dead = false → Ready env fs conf s.includes) :
    OnTrack env fs conf s.includes (args.map includePath) (includeAll p (parse p levels) flags args s).1
        (expandAll fs (expand fs p.acc p.ci levels) flags args s.core).1 (includeAll p (parse p levels) flags args s).2 ∧
      (includeAll p (parse p levels) flags args s).2 = (expandAll fs (expand fs p.acc p.ci levels) flags args s.core).2 := by
  induction args generalizing s with
  | nil => exact ⟨⟨rfl, hready, fun _ _ => advance_nil _⟩, rfl⟩
  | cons arg args ih =>
    rw [includeAll, expandAll]
    by_cases hdead : s.core.dead = true
    · rw [if_pos hdead, if_pos hdead]
      exact ⟨OnTrack.of_dead hdead _, rfl⟩
    have halive : s.core.dead = false := by simpa using hdead
    rw [if_neg hdead, if_neg hdead]
    split
    · exact ⟨⟨rfl, hready, fun _ h => by cases h⟩, rfl⟩
    obtain ⟨hcore, hadv⟩ := includeOne_fresh p hdisk hf hn flags (hargs arg mem_cons_self) (hready halive) halive
    obtain ⟨htrack, hok⟩ := ih (fun a ha => hargs a (mem_cons_of_mem _ ha))
      (includeOne p (parse p levels) flags arg s) fun h => (hadv h).ready (hready halive)
    rw [hcore] at htrack hok
    refine ⟨⟨htrack.core, htrack.ready, fun hend hgood => ?_⟩, hok⟩
    exact (hadv (((kept_grows p).includeAll (parse_grows p levels) flags args _).alive hend)).trans (htrack.advance hend hgood)

theorem stepLine_fresh (hline : line ∈ conf) (r : St × Flags × Bool)
    (hready : r.1.core.dead = false → Ready env fs conf r.1.includes) :
    OnTrack env fs conf r.1.includes (linePaths env line) (stepLine p (parse p levels) r line).1
        (expandLine fs p.acc p.ci (expand fs p.acc p.ci levels) (r.1.core, r.2) line).1
        (stepLine p (parse p levels) r line).2.2 ∧ (stepLine p (parse p levels) r line).2 =
        (expandLine fs p.acc p.ci (expand fs p.acc p.ci levels) (r.1.core, r.2) line).2 := by
  unfold stepLine expandLine
  dsimp only
  split
  · next hdead => exact ⟨OnTrack.of_dead hdead _, rfl⟩
  next hdead =>
  have hready := hready (by simpa using hdead)
  cases he : lineEffect p.acc p.ci r.2.1 r.1.core line with
  | next core flags' ok' =>
    rw [linePaths_of_next he]
    exact ⟨⟨rfl, fun _ => hready, fun _ _ => advance_nil _⟩, rfl⟩
  | files args =>
    have hargs : ∀ arg ∈ args, includePath arg ∈ includePaths env conf := by
      intro arg harg
      refine mem_flatMap.2 ⟨line, hline, ?_⟩
      rw [linePaths_of_files he]
      exact mem_map_of_mem harg
    obtain ⟨htrack, hok⟩ := includeAll_fresh p hdisk hf hn r.2.1 hargs r.1 fun _ => hready
    dsimp only
    split
    · exact ⟨OnTrack.of_dead rfl _, rfl⟩
    · rw [linePaths_of_files he, ← hok]
      exact ⟨⟨htrack.core, htrack.ready, fun halive hgood => htrack.advance halive (Bool.and_eq_true_iff.1 hgood).2⟩, rfl⟩

theorem foldl_stepLine_fresh {lines : List Text} (hsub : lines ⊆ conf) (r : St × Flags × Bool)
    (hready : r.1.core.dead = false → Ready env fs conf r.1.includes) :
    OnTrack env fs conf r.1.includes (includePaths env lines) (lines.foldl (stepLine p (parse p levels)) r).1
        (lines.foldl (expandLine fs p.acc p.ci (expand fs p.acc p.ci levels)) (r.1.core, r.2)).1
        (lines.foldl (stepLine p (parse p levels)) r).2.2 ∧ (lines.foldl (stepLine p (parse p levels)) r).2 =
        (lines.foldl (expandLine fs p.acc p.ci (expand fs p.acc p.ci levels)) (r.1.core, r.2)).2 := by
  induction lines generalizing r with
  | nil => exact ⟨⟨rfl, hready, fun _ _ => advance_nil _⟩, rfl⟩
  | cons line lines ih =>
    obtain ⟨hstep, hflags⟩ := stepLine_fresh p hdisk hf hn (hsub mem_cons_self) r hready
    obtain ⟨hrest, hend⟩ := ih (fun x hx => hsub (mem_cons_of_mem _ hx)) (stepLine p (parse p levels) r line) hstep.ready
    rw [hstep.core, hflags] at hrest hend
    rw [foldl_cons, foldl_cons]
    refine ⟨⟨hrest.core, hrest.ready, fun halive hgood => ?_⟩, hend⟩
    have hgrows := (kept_grows p).foldl_stepLine (parse_grows p levels) lines (stepLine p (parse p levels) r line)
    exact (hstep.advance (hgrows.alive halive) (good_of_foldl hgood)).trans (hrest.advance halive hgood)

end

/-- **A parse from a consistent list.** On the disk of the moment it gives the meaning of the configuration, and completes
the list. -/
theorem parse_fresh (hdisk : ∀ t, p.disk t = fs) (levels : ℕ) (flags : Flags) (conf : List Text) (d : ℕ)
    (hf : Follows env fs d conf) (s : St) (hready : Ready env fs conf s.includes) :
    (parse p levels flags conf s).core = expand fs p.acc p.ci levels flags conf s.core ∧
      ((parse p levels flags conf s).core.dead = false →
        Advance env fs s.includes (includePaths env conf) (parse p levels flags conf s).includes) := by
  induction levels generalizing flags conf d s with
  | zero => exact ⟨rfl, fun halive => by cases halive⟩
  | succ levels ih =>
    obtain ⟨htrack, hflags⟩ := foldl_stepLine_fresh p hdisk hf ih (List.Subset.refl conf) (s, flags, true) fun _ => hready
    rw [parse, expand]
    dsimp only at hflags ⊢
    rw [← hflags, ← htrack.core]
    split
    · next hok => exact ⟨rfl, fun halive => htrack.advance halive hok⟩
    · exact ⟨rfl, fun halive => by cases halive⟩

end OpenSSHServerPN.Servconf
