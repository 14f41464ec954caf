/-
Reading sshd_config (`servconf.c`: `parse_server_config_depth`, `process_server_config_line_depth`,
`parse_server_match_config`; `misc.c` of win32compat: `convertToForwardslash`, `is_absolute_path`).

Model: `parse` reads the lines of a file at some depth of Include. The state is the options, whether the block is active,
whether sshd has given up, and the list of included files (`struct include_list`). A connection is `ConnInfo`; without one
sshd starts. `lineEffect` is a line other than Include. An Include is looked up in the list under its path (`walk`); what
is not there is looked up on the disk under the path with its backslashes turned, and added to the list under that path
(`load`). The disk is a function of the number of accesses so far: it may change at any time.

The list is walked from its head while files on it are read, which may add items at its tail; `rounds` bounds how often the
walk goes on to items that were added meanwhile. All results hold for every bound.

What `parse_server_config` does to the options afterwards (listen addresses, names in small letters) is a function of them
and is left out.

Results:
- `Kept.parse`: a relation that a line, and an Include that is not in the list, keep is kept by every parse;
- `parse_grows`: a parse never forgets that sshd gave up, a file that was opened or an item of the list.
-/
import OpenSSHServerPN.Servconf.MatchLine
import OpenSSHServerPN.Win32.Path

namespace OpenSSHServerPN.Servconf

open Argv

/-! ## State -/

structure FileSystem where
  /-- the files of a pattern; `none`: an error other than that there are none -/
  glob : Text → Option (List Text)
  /-- the lines of a file; `none`: it cannot be opened -/
  read : Text → Option (List Text)

/-- `struct include_item`: a pattern with a file and its lines, or with the note that there is none -/
structure IncludeItem where
  selector : Text
  file : Option (Text × List Text)
deriving DecidableEq

/-- `SSHCFG_NEVERMATCH` and `SSHCFG_MATCH_ONLY` -/
structure Flags where
  neverMatch : Bool
  matchOnly : Bool
deriving DecidableEq, Repr

structure Core where
  options : ServerOptions
  active : Bool
  /-- `fatal` -/
  dead : Bool

def Core.die (c : Core) : Core := { c with dead := true }

def Core.activate (c : Core) (active : Bool) : Core := { c with active := active }

structure St where
  core : Core
  includes : List IncludeItem
  /-- the files that were opened -/
  opened : List Text
  /-- the number of accesses to the disk -/
  clock : ℕ

def St.die (s : St) : St := { s with core := s.core.die }

def St.activate (s : St) (active : Bool) : St := { s with core := s.core.activate active }

def St.tick (s : St) : St := { s with clock := s.clock + 1 }

def St.open (s : St) (file : Text) : St := { s.tick with opened := s.opened ++ [file] }

/-- `TAILQ_INSERT_TAIL` -/
def St.add (s : St) (item : IncludeItem) : St := { s with includes := s.includes ++ [item] }

/-- what a parse works with -/
structure Pass (env : Env) where
  acc : Accounts env
  ci : Option ConnInfo
  disk : ℕ → FileSystem
  rounds : ℕ

/-! ## Lines other than Include -/

inductive Effect where
  /-- the state and the flags afterwards; `false`: a bad option -/
  | next (core : Core) (flags : Flags) (ok : Bool)
  | files (args : List Text)

/-- `process_server_config_line_depth` -/
def lineEffect {env : Env} (acc : Accounts env) (ci : Option ConnInfo) (flags : Flags) (core : Core) (line : Text) : Effect :=
  -- a directive that was processed before, or that is not allowed in a Match block
  let skip := if ci.isNone then Effect.next core.die flags true else .next core flags true
  match readLine line with
  | .ignored => .next core flags true
  | .bad => .next core flags false
  | .directive keyword str args =>
    match parseToken env keyword with
    | none => if core.active then .next core flags false else skip
    | some (op, inMatch) =>
      if core.active = false ∧ inMatch = false then skip
      else
        match op with
        | .includeFiles => .files args
        | .matchBlock =>
          match matchCfgLine env acc (if flags.neverMatch then none else ci) args with
          | none => .next core.die flags true
          | some (b, left) =>
            .next (core.activate (!flags.neverMatch && b)) { flags with matchOnly := false } (left = [])
        | op =>
          match applyDirective env core.active op str args core.options with
          | .ok options => .next { core with options := options } flags true
          | .error .fatal => .next core.die flags true
          | .error .bad => .next core flags false

/-! ## Include -/

def SSHDIR : Text := "__PROGRAMDATA__\\ssh"

/-- `is_absolute_path` -/
def isAbsolutePath (path : Text) : Bool :=
  let path := match path with
    | c :: rest => if c == '"' || c == '\'' then rest else path
    | [] => []
  match path with
  | [] => false
  | c :: rest =>
    c == '/' || c == '\\' || (c.toNat < 128 && c.isAlpha && rest.head? == some ':') ||
      WinPath.programData.isPrefixOf (c :: rest)

/-- the path an Include is looked up under -/
def includePath (arg : Text) : Text :=
  if !isAbsolutePath arg && arg.head? != some '~' then SSHDIR ++ '/' :: arg else arg

/-- the flags of an included file -/
def nestedFlags (flags : Flags) (active : Bool) : Flags :=
  if flags.matchOnly then ⟨false, true⟩ else if active then ⟨false, false⟩ else ⟨true, false⟩

section
variable {env : Env} (p : Pass env) (nested : List Text → St → St) (path : Text) (active : Bool)

/-- the items of the list with a path are parsed; the answer says whether there is one -/
def visit : List IncludeItem → St → St × Bool
  | [], s => (s, false)
  | item :: items, s =>
    if item.selector = path then
      let s := match item.file with
        | some (_, conf) => nested conf s
        | none => s
      ((visit items (s.activate active)).1, true)
    else visit items s

/-- `TAILQ_FOREACH`, from the item number `seen` on -/
def walk : ℕ → ℕ → St → St × Bool
  | rounds, seen, s =>
    if s.includes.length ≤ seen then (s, false)
    else
      match rounds with
      | 0 => (s.die, false)
      | rounds + 1 =>
        let first := visit nested path active (s.includes.drop seen) s
        let rest := walk rounds s.includes.length first.1
        (rest.1, first.2 || rest.2)

/-- the files that were found are loaded, parsed and added to the list -/
def load : List Text → St → St
  | [], s => s
  | file :: files, s =>
    if s.core.dead then s
    else
      match (p.disk s.clock).read file with
      | none => (s.open file).die
      | some conf => load files (((nested conf (s.open file)).activate active).add ⟨path, some (file, conf)⟩)

/-- an Include that is not in the list; `path` has its backslashes turned -/
def miss (s : St) : St :=
  match (p.disk s.clock).glob path with
  | none => s.tick.die
  | some [] => s.tick.add ⟨path, none⟩
  | some files => load p nested path active files s.tick

end

section
variable {env : Env} (p : Pass env) (nested : Flags → List Text → St → St)

/-- the list is consulted for an Include -/
def lookup (flags : Flags) (arg : Text) (s : St) : St × Bool :=
  walk (nested (nestedFlags flags s.core.active)) (includePath arg) s.core.active (p.rounds + 1) 0 s

/-- one argument of an Include -/
def includeOne (flags : Flags) (arg : Text) (s : St) : St :=
  let hit := lookup p nested flags arg s
  if hit.2 = true ∨ hit.1.core.dead = true then hit.1
  else
    miss p (nested (nestedFlags flags s.core.active)) (WinPath.convertToForwardslash (includePath arg)) s.core.active hit.1

/-- the arguments of an Include; an empty one is a bad option -/
def includeAll (flags : Flags) : List Text → St → St × Bool
  | [], s => (s, true)
  | arg :: args, s =>
    if s.core.dead then (s, true) else if arg = [] then (s, false) else includeAll flags args (includeOne p nested flags arg s)

/-- one line: the state, the flags, and whether all options were good -/
def stepLine (r : St × Flags × Bool) (line : Text) : St × Flags × Bool :=
  if r.1.core.dead then r
  else
    match lineEffect p.acc p.ci r.2.1 r.1.core line with
    | .next core flags ok => ({ r.1 with core := core }, flags, r.2.2 && ok)
    | .files args =>
      if args = [] then (r.1.die, r.2)
      else
        let i := includeAll p nested r.2.1 args r.1
        (i.1, r.2.1, r.2.2 && i.2)

end

/-- `parse_server_config_depth`, with the number of levels that are left -/
def parse {env : Env} (p : Pass env) : ℕ → Flags → List Text → St → St
  | 0, _, _, s => s.die
  | levels + 1, flags, conf, s =>
    let r := conf.foldl (stepLine p (parse p levels)) (s, flags, true)
    if r.2.2 then r.1 else r.1.die

def SERVCONF_MAX_DEPTH : ℕ := 16

/-- `parse_server_config` when sshd starts -/
def startUp {env : Env} (acc : Accounts env) (rounds : ℕ) (fs : FileSystem) (cfg : List Text) : St :=
  parse ⟨acc, none, fun _ => fs, rounds⟩ (SERVCONF_MAX_DEPTH + 1) ⟨false, false⟩ cfg
    ⟨⟨ServerOptions.initial, true, false⟩, [], [], 0⟩

/-- `parse_server_config` for a connection, with a list of included files -/
def reprocess {env : Env} (acc : Accounts env) (rounds : ℕ) (disk : ℕ → FileSystem) (ci : ConnInfo)
    (includes : List IncludeItem) (cfg : List Text) : St :=
  parse ⟨acc, some ci, disk, rounds⟩ (SERVCONF_MAX_DEPTH + 1) ⟨false, true⟩ cfg
    ⟨⟨ServerOptions.initial, false, false⟩, includes, [], 0⟩

/-- the options for a connection in `parse_server_match_config`; `none`: the process has ended -/
def matchOptions (options : ServerOptions) (s : St) : Option ServerOptions :=
  if s.core.dead then none else some (copySet options s.core.options)

/-! ## What every parse keeps -/

/-- a relation between the state before and after that the parts of a parse keep -/
structure Kept {env : Env} (p : Pass env) (R : St → St → Prop) : Prop where
  refl : ∀ s, R s s
  trans : ∀ {a b c}, R a b → R b c → R a c
  /-- a line other than Include -/
  core : ∀ (s : St) (core : Core), (s.core.dead = true → core.dead = true) → R s { s with core := core }
  /-- an Include that is not in the list -/
  miss : ∀ nested : List Text → St → St, (∀ conf s, R s (nested conf s)) →
    ∀ path active s, R s (miss p nested (WinPath.convertToForwardslash path) active s)

namespace Kept

variable {env : Env} {p : Pass env} {R : St → St → Prop} (h : Kept p R)
include h

theorem die (s : St) : R s s.die := h.core s _ fun _ => rfl

theorem activate (s : St) (active : Bool) : R s (s.activate active) := h.core s _ id

section
variable {nested : List Text → St → St} (hn : ∀ conf s, R s (nested conf s)) (path : Text) (active : Bool)
include hn

theorem visit (items : List IncludeItem) (s : St) : R s (visit nested path active items s).1 := by
  induction items generalizing s with
  | nil => exact h.refl s
  | cons item items ih =>
    rw [Servconf.visit]
    split
    · cases item.file with
      | none => exact h.trans (h.activate s active) (ih _)
      | some file => exact h.trans (hn file.2 s) (h.trans (h.activate _ active) (ih _))
    · exact ih s

theorem walk (rounds seen : ℕ) (s : St) : R s (walk nested path active rounds seen s).1 := by
  induction rounds generalizing seen s with
  | zero =>
    unfold Servconf.walk
    split
    · exact h.refl s
    · exact h.die s
  | succ rounds ih =>
    unfold Servconf.walk
    split
    · exact h.refl s
    · exact h.trans (h.visit hn path active _ s) (ih _ _)

end

section
variable {nested : Flags → List Text → St → St} (hn : ∀ flags conf s, R s (nested flags conf s))
include hn

variable (flags : Flags)

theorem includeOne (arg : Text) (s : St) : R s (includeOne p nested flags arg s) := by
  have hwalk : R s (lookup p nested flags arg s).1 := h.walk (hn _) _ _ _ _ _
  unfold Servconf.includeOne
  dsimp only
  split
  · exact hwalk
  · exact h.trans hwalk (h.miss _ (hn _) _ _ _)

theorem includeAll (args : List Text) (s : St) : R s (includeAll p nested flags args s).1 := by
  induction args generalizing s with
  | nil => exact h.refl s
  | cons arg args ih =>
    rw [Servconf.includeAll]
    split
    · exact h.refl s
    · split
      · exact h.refl s
      · exact h.trans (h.includeOne hn flags arg s) (ih _)

theorem stepLine (r : St × Flags × Bool) (line : Text) : R r.1 (stepLine p nested r line).1 := by
  unfold Servconf.stepLine
  split
  · exact h.refl _
  next halive =>
  split
  · exact h.core _ _ fun hdead => absurd hdead halive
  · split
    · exact h.die _
    · exact h.includeAll hn _ _ _

theorem foldl_stepLine (conf : List Text) (r : St × Flags × Bool) : R r.1 (conf.foldl (Servconf.stepLine p nested) r).1 := by
  induction conf generalizing r with
  | nil => exact h.refl _
  | cons line conf ih => exact h.trans (h.stepLine hn r line) (ih _)

end

/-- **The rule for parses.** What the parts keep, the parse of a file keeps. -/
theorem parse (levels : ℕ) (flags : Flags) (conf : List Text) (s : St) : R s (parse p levels flags conf s) := by
  induction levels generalizing flags conf s with
  | zero => exact h.die s
  | succ levels ih =>
    have hfold := h.foldl_stepLine ih conf (s, flags, true)
    rw [Servconf.parse]
    split
    · exact hfold
    · exact h.trans hfold (h.die _)

end Kept

variable {env : Env} {r : St × Flags × Bool}

theorem stepLine_bad (p : Pass env) (nested : Flags → List Text → St → St)
    (h : r.2.2 = false) (line : Text) : (stepLine p nested r line).2.2 = false := by
  unfold stepLine
  split
  · exact h
  · split
    · simp [h]
    · split
      · exact h
      · simp [h]

theorem foldl_stepLine_bad (p : Pass env) (nested : Flags → List Text → St → St) (conf : List Text)
    (h : r.2.2 = false) : (conf.foldl (stepLine p nested) r).2.2 = false := by
  induction conf generalizing r with
  | nil => exact h
  | cons line conf ih => exact ih (stepLine_bad p nested h line)

theorem good_of_foldl {p : Pass env} {nested : Flags → List Text → St → St} {conf : List Text}
    (h : (conf.foldl (stepLine p nested) r).2.2 = true) : r.2.2 = true := by
  by_contra hbad
  rw [foldl_stepLine_bad p nested conf (by simpa using hbad)] at h
  cases h

/-! ## A parse forgets nothing -/

/-- what never goes back -/
structure Grows (s s' : St) : Prop where
  dead : s.core.dead = true → s'.core.dead = true
  opened : s.opened <+: s'.opened
  includes : s.includes <+: s'.includes

theorem Grows.refl (s : St) : Grows s s := ⟨id, List.prefix_refl _, List.prefix_refl _⟩

theorem Grows.trans {a b c : St} (h : Grows a b) (h' : Grows b c) : Grows a c :=
  ⟨fun hd => h'.dead (h.dead hd), h.opened.trans h'.opened, h.includes.trans h'.includes⟩

theorem Grows.alive {s s' : St} (h : Grows s s') (halive : s'.core.dead = false) : s.core.dead = false := by
  by_contra hdead
  rw [h.dead (by simpa using hdead)] at halive
  cases halive

theorem Grows.opened_eq {a b c : St} (h : Grows a b) (h' : Grows b c) (heq : c.opened = a.opened) :
    b.opened = a.opened ∧ c.opened = b.opened := by
  have hmid : a.opened = b.opened := h.opened.eq_of_length_le (by rw [← heq]; exact h'.opened.length_le)
  exact ⟨hmid.symm, heq.trans hmid⟩

theorem grows_tick (s : St) : Grows s s.tick := ⟨id, List.prefix_refl _, List.prefix_refl _⟩

theorem grows_core (s : St) (core : Core) (h : s.core.dead = true → core.dead = true) : Grows s { s with core := core } :=
  ⟨h, List.prefix_refl _, List.prefix_refl _⟩

theorem grows_activate (s : St) (active : Bool) : Grows s (s.activate active) := grows_core s _ id

theorem grows_add (s : St) (item : IncludeItem) : Grows s (s.add item) := ⟨id, List.prefix_refl _, List.prefix_append _ _⟩

theorem grows_open (s : St) (file : Text) : Grows s (s.open file) := ⟨id, List.prefix_append _ _, List.prefix_refl _⟩

section
variable {env : Env} (p : Pass env) {nested : List Text → St → St} (hn : ∀ conf s, Grows s (nested conf s))
  (path : Text) (active : Bool)
include hn

theorem load_grows (files : List Text) (s : St) : Grows s (load p nested path active files s) := by
  induction files generalizing s with
  | nil => exact Grows.refl s
  | cons file files ih =>
    rw [load]
    split
    · exact Grows.refl s
    · split
      · exact (grows_open s file).trans (grows_core _ _ fun _ => rfl)
      · exact (grows_open s file).trans ((hn _ _).trans ((grows_activate _ active).trans ((grows_add _ _).trans (ih _))))

theorem miss_grows (s : St) : Grows s (miss p nested path active s) := by
  unfold miss
  split
  · exact (grows_tick s).trans (grows_core _ _ fun _ => rfl)
  · exact (grows_tick s).trans (grows_add _ _)
  · exact (grows_tick s).trans (load_grows p hn path active _ _)

end

theorem kept_grows (p : Pass env) : Kept p Grows :=
  ⟨Grows.refl, Grows.trans, grows_core, fun _ hn _ active s => miss_grows p hn _ active s⟩

/-- **A parse forgets nothing.** -/
theorem parse_grows (p : Pass env) (levels : ℕ) (flags : Flags) (conf : List Text) (s : St) :
    Grows s (parse p levels flags conf s) := (kept_grows p).parse levels flags conf s

end OpenSSHServerPN.Servconf
