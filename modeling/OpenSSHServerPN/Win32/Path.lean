/-
Path names of the Windows port (`misc.c`: `realpath`, `resolved_path_utf16`, `w32_chdir`, `w32_getcwd`, `chroot`).

Model: the process state is its working directory and the static `chroot_path`. A directory is a `Full` path: the UNC
flag and the components, with the proofs that each is a component and none is `.` or `..`. The runtime's `_wfullpath` is
lexical normalisation (`fullPath`): UNC, drive-absolute, drive-relative, rooted and relative texts each start from their
own place, and `..` never leaves the drive or the share. Both separators are accepted and a final one is kept.
Buffers do not run out (`PATH_MAX` is 32768) and the UTF-8/UTF-16 conversions are the identity.

Results, after a successful `chroot` and any `chdir` calls:
- `chroot_confines`: every path `resolved_path_utf16` returns is, under every reading of relative texts, the chroot
  directory or below it, component by component; every text `realpath` returns starts at `/` and has no `.` or `..`;
- `realpath_view`, `resolvedPath_under`: the same for one call in any state.
-/
import OpenSSHServerPN.Lib.LexPath
import OpenSSHServerPN.Lib.Runs
import OpenSSHServerPN.Match.Pattern

namespace OpenSSHServerPN.WinPath

open List

/-- the `errno` values the path functions set -/
inductive Errno where
  | EINVAL
  | EACCES
  | ENOTSUP
  | EOTHER
deriving DecidableEq, Repr

/-! ## Full paths -/

/-- both separators of Windows -/
def isSep (c : Char) : Bool := c == '/' || c == '\\'

def dot : Text := ['.']

def dotdot : Text := ['.', '.']

/-- the components of a text -/
def comps (p : Text) : List Text := LexPath.comps isSep p

abbrev IsComp (c : Text) : Prop := LexPath.IsComp isSep c

abbrev Clean (c : Text) : Prop := LexPath.Clean dot dotdot c

instance (c : Text) : Decidable (IsComp c) := inferInstanceAs (Decidable (c ≠ [] ∧ ∀ x ∈ c, isSep x = false))

instance (c : Text) : Decidable (Clean c) := inferInstanceAs (Decidable (c ≠ dot ∧ c ≠ dotdot))

/-- a normalised absolute path: `\\server\share\...`, or `x:\...` with the drive as first component -/
@[ext]
structure Full where
  unc : Bool
  cs : List Text
  isComp : ∀ c ∈ cs, IsComp c
  clean : ∀ c ∈ cs, Clean c
  /-- a path that is not UNC starts with its drive -/
  rooted : unc = false → ∃ x dirs, cs = [x, ':'] :: dirs
deriving DecidableEq

/-- the components `..` cannot remove: the drive, or server and share -/
def Full.floor (f : Full) : ℕ := if f.unc then 2 else 1

/-- the path reached from `f` by the components of `p` -/
def Full.down (f : Full) (p : Text) : Full where
  unc := f.unc
  cs := LexPath.resolve dot dotdot f.floor f.cs (comps p)
  isComp := by
    intro c hc
    rcases LexPath.mem_resolve _ _ _ _ _ c hc with hc | ⟨hc, -⟩
    · exact f.isComp c hc
    · exact LexPath.isComp_of_mem isSep p c hc
  clean := by
    intro c hc
    rcases LexPath.mem_resolve _ _ _ _ _ c hc with hc | ⟨-, hc⟩
    · exact f.clean c hc
    · exact hc
  rooted := by
    intro hu
    obtain ⟨x, dirs, hcs⟩ := f.rooted hu
    have hpre := LexPath.take_prefix_resolve dot dotdot f.floor f.cs (comps p)
    have hfloor : f.floor = 1 := by simp [floor, hu]
    rw [hcs, hfloor] at hpre ⊢
    obtain ⟨dirs', hdirs'⟩ := hpre
    exact ⟨x, dirs', hdirs'.symm⟩

/-- the root of the drive or share -/
def Full.root (f : Full) : Full where
  unc := f.unc
  cs := f.cs.take f.floor
  isComp := fun c hc => f.isComp c (List.mem_of_mem_take hc)
  clean := fun c hc => f.clean c (List.mem_of_mem_take hc)
  rooted := by
    intro hu
    obtain ⟨x, dirs, hcs⟩ := f.rooted hu
    exact ⟨x, [], by simp [hcs, floor, hu]⟩

/-- where UNC texts start -/
def uncRoot : Full := ⟨true, [], by simp, by simp, by simp⟩

/-- the root of drive `x` -/
def driveRoot (x : Char) (hx : isSep x = false) : Full where
  unc := false
  cs := [[x, ':']]
  isComp := by
    intro c hc
    rw [List.mem_singleton] at hc
    subst hc
    refine ⟨by simp, fun y hy => ?_⟩
    rcases List.mem_cons.1 hy with rfl | hy
    · exact hx
    · rw [List.mem_singleton] at hy
      subst hy
      rfl
  clean := by
    intro c hc
    rw [List.mem_singleton] at hc
    subst hc
    exact ⟨by simp [dot], by simp [dotdot]⟩
  rooted := by simp

/-- the working directory of drive `x`: that of the process when it is on this drive -/
def driveCwd (cwd : Full) (x : Char) (hx : isSep x = false) : Full :=
  if cwd.unc = false ∧ cwd.cs.head?.map (List.map Char.toLower) = some [x.toLower, ':'] then cwd else driveRoot x hx

/-- where the walk along a text starts -/
def base (cwd : Full) : Text → Full
  | a :: b :: rest =>
    if isSep a && isSep b then uncRoot
    else if isSep a then cwd.root
    else if h : isSep a = false ∧ b = ':' then
      if rest.head?.any isSep then driveRoot a h.1 else driveCwd cwd a h.1
    else cwd
  | [a] => if isSep a then cwd.root else cwd
  | [] => cwd

/-- the text without its drive -/
def afterDrive : Text → Text
  | a :: b :: rest => if isSep a = false ∧ b = ':' then rest else a :: b :: rest
  | p => p

/-- `_wfullpath` as a path -/
def fullPath (cwd : Full) (p : Text) : Full := (base cwd p).down (afterDrive p)

/-- does the text of the path end in a separator? the root of a drive always does -/
def Full.endsSlash (f : Full) (slash : Bool) : Bool := (slash && !f.cs.isEmpty) || (!f.unc && f.cs.length ≤ 1)

/-- the text of a full path -/
def Full.text (f : Full) (slash : Bool) : Text :=
  (if f.unc then ['\\', '\\'] else []) ++ (['\\'].intercalate f.cs ++ if f.endsSlash slash then ['\\'] else [])

/-- `_wfullpath` as a text: a final separator is kept -/
def wfullpath (cwd : Full) (p : Text) : Text := (fullPath cwd p).text (p.getLast?.any isSep)

/-! ## The functions -/

/-- `__progdata` and the bash test environment -/
structure Env where
  progdata : Text
  bashTestEnv : Bool

structure St where
  cwd : Full
  chrootPath : Option Text

/-- a process that has not called `chroot` -/
def St.start (cwd : Full) : St := ⟨cwd, none⟩

/-- `_strnicmp(p, start, strlen(start)) == 0` -/
def startsWithNoCase (start p : Text) : Bool := (p.take start.length).map Char.toLower = start.map Char.toLower

theorem startsWithNoCase_cons (x a : Char) (start p : Text) : startsWithNoCase (x :: start) (a :: p) =
    (decide (a.toLower = x.toLower) && startsWithNoCase start p) := by
  simp [startsWithNoCase]

def toLowerCase (p : Text) : Text := p.map Char.toLower

def convertToBackslash (p : Text) : Text := p.map fun c => if c = '/' then '\\' else c

def convertToForwardslash (p : Text) : Text := p.map fun c => if c = '\\' then '/' else c

def cygwinPathPrefix : Text := "/cygdrive/"

def programData : Text := "__PROGRAMDATA__"

/-- `bash_to_win_path`; `none` when the text is not a Cygwin one -/
def bashToWinPath (p : Text) : Option Text :=
  if startsWithNoCase cygwinPathPrefix p then
    let rest := p.drop cygwinPathPrefix.length
    -- a text that ends after the marker leaves an empty string: its first character is the terminating NUL
    some (match rest with | [] => [] | x :: tail => x :: ':' :: tail)
  else none

/-- the client's text after the bash and `__PROGRAMDATA__` rewriting -/
def inputPath (env : Env) (p : Text) : Text :=
  match (if env.bashTestEnv then bashToWinPath p else none) with
  | some q => q
  | none => if startsWithNoCase programData p then env.progdata ++ p.drop programData.length else p

/-- `w32_getcwd`: the text it returns, or `none` with what it leaves in the buffer -/
def w32Getcwd (s : St) : Option Text × Text :=
  let buffer := toLowerCase (s.cwd.text false)
  match s.chrootPath with
  | none => (some buffer, buffer)
  | some jail =>
    if jail <+: buffer then
      match buffer.drop jail.length with
      | [] => (some ['\\'], ['\\'])
      | c :: tail => if c = '\\' then (some (c :: tail), c :: tail) else (none, buffer)
    else (none, buffer)

/-- `x:` becomes `x:\` -/
def withDriveRoot (p : Text) : Text :=
  match p with
  | [x, ':'] => [x, ':', '\\']
  | _ => p

/-- the end of the chroot branch of `realpath`: a full path as the chroot shows it -/
def fromJail (jail tempPath : Text) : Except Errno Text :=
  if jail <+: tempPath then
    let resolved := if tempPath.length = jail.length then ['\\'] else tempPath.drop jail.length
    if resolved.head? = some '\\' then .ok (convertToForwardslash resolved) else .error .EACCES
  else .error .EACCES

/-- the branch of `realpath` for a process in a chroot -/
def realpathJailed (s : St) (jail path : Text) : Except Errno Text :=
  let absolute := path.head?.any isSep
  -- the result of w32_getcwd is not checked: after a failure its buffer holds the whole working directory
  let resolved := jail ++ (if absolute then path else (w32Getcwd s).2 ++ '/' :: path)
  fromJail jail (wfullpath s.cwd (withDriveRoot resolved))

/-- `/x:...` without its first slash -/
def skipSlash : Text → Text
  | '/' :: x :: ':' :: rest => x :: ':' :: rest
  | p => p

/-- the branch of `realpath` without a chroot -/
def realpathFree (s : St) (path : Text) : Except Errno Text :=
  if path.length = 6 ∧ path.set 1 'x' = "/x:/.." then .ok ['/']
  else .ok ('/' :: convertToForwardslash (wfullpath s.cwd (withDriveRoot (skipSlash path))))

/-- `realpath` -/
def realpath (env : Env) (s : St) (inputpath : Text) : Except Errno Text :=
  let path := inputPath env inputpath
  if path = ['/'] ∨ path = ['\\'] then .ok ['/']
  else
    match s.chrootPath with
    | some jail => realpathJailed s jail path
    | none => realpathFree s path

/-- `resolved_path_utf16`; the null pointer is `none` -/
def resolvedPathUtf16 (env : Env) (s : St) (inputPath : Option Text) : Except Errno Text :=
  match inputPath with
  | none => .error .EINVAL
  | some p =>
    match realpath env s p with
    | .error e => .error e
    | .ok real =>
      match s.chrootPath with
      | some jail => .ok (jail ++ real)
      | none => .ok (if real = ['/'] then real else real.tail)

/-- `w32_chdir`; `ok` is the answer of `_wchdir` -/
def w32Chdir (env : Env) (s : St) (dirname : Text) (ok : Bool) : St :=
  match resolvedPathUtf16 env s (some dirname) with
  | .ok p => if ok then { s with cwd := fullPath s.cwd p } else s
  | .error _ => s

/-- removes one final backslash -/
def stripTrailing (p : Text) : Text := if p.getLast? = some '\\' then p.dropLast else p

/-- the directory a `chroot` call names, as the call reads it -/
def chrootTarget (s : St) (path : Text) : Except Errno Text :=
  if path = dot then
    match (w32Getcwd s).1 with
    | none => .error .EOTHER
    | some cwd => .ok cwd
  else if (path.drop 1).head? = some ':' then .ok path
  else .error .ENOTSUP

/-- `chroot` -/
def chroot (s : St) (path : Text) : Except Errno St :=
  match chrootTarget s path with
  | .error e => .error e
  | .ok dir => .ok { s with chrootPath := some (stripTrailing (convertToBackslash (toLowerCase dir))) }

/-! ## Components of the texts the functions build -/

variable {c : Char}

theorem comps_append_sep (a b : Text) (hc : isSep c = true) : comps (a ++ c :: b) = comps a ++ comps b :=
  LexPath.comps_append_sep isSep a b hc

theorem comps_cons_sep (b : Text) (hc : isSep c = true) : comps (c :: b) = comps b :=
  LexPath.comps_cons_sep isSep b hc

theorem comps_snoc_sep (a : Text) (hc : isSep c = true) : comps (a ++ [c]) = comps a :=
  LexPath.comps_snoc_sep isSep a hc

theorem comps_map_sep (f : Char → Char) (hsep : ∀ c, isSep (f c) = isSep c) (hf : ∀ c, isSep c = false → f c = c)
    (p : Text) : comps (p.map f) = comps p := by
  have h : comps (p.map f) = (comps p).map (map f) := LexPath.comps_map isSep isSep f hsep p
  have hid : ∀ c ∈ comps p, c.map f = c := by
    intro c hc
    have hcomp := LexPath.isComp_of_mem isSep p c hc
    exact (map_congr_left fun x hx => hf x (hcomp.2 x hx)).trans (map_id' c)
  rw [h]
  exact (map_congr_left hid).trans (map_id' _)

variable (cwd : Full) (p : Text) (f : Full) (slash : Bool)

theorem comps_forwardslash : comps (convertToForwardslash p) = comps p := by
  refine comps_map_sep _ (fun c => ?_) (fun c hc => ?_) p
  · by_cases h : c = '\\' <;> simp [h, isSep]
  · have h : c ≠ '\\' := by rintro rfl; simp [isSep] at hc
    simp [h]

theorem Full.comps_text : comps (f.text slash) = f.cs := by
  have hsep : isSep '\\' = true := rfl
  have hbody : comps (['\\'].intercalate f.cs) = f.cs := LexPath.comps_intercalate isSep hsep f.cs f.isComp
  have htail : ∀ (b : Bool) (p : Text), comps (p ++ if b then ['\\'] else []) = comps p := by
    intro b p
    cases b with
    | false => simp
    | true => exact comps_snoc_sep p hsep
  have hhead : ∀ (b : Bool) (p : Text), comps ((if b then ['\\', '\\'] else []) ++ p) = comps p := by
    intro b p
    cases b with
    | false => simp
    | true => exact (comps_cons_sep _ hsep).trans (comps_cons_sep p hsep)
  rw [Full.text, hhead, htail, hbody]

theorem Full.two_le_text : 2 ≤ (f.text slash).length := by
  unfold Full.text
  cases hu : f.unc with
  | true => simp
  | false =>
    obtain ⟨x, dirs, hcs⟩ := f.rooted hu
    cases dirs with
    | nil => simp [Full.endsSlash, hu, hcs]
    | cons d dirs =>
      rw [hcs]
      simp

/-! ## Full paths in lower case, and their texts -/

theorem isSep_toLower (c : Char) : isSep c.toLower = isSep c :=
  toLower_cases (P := fun c d => isSep d = isSep c) (by decide) (fun _ _ => rfl) c

theorem clean_toLower {c : Text} (h : Clean c) : Clean (toLowerCase c) := by
  have hdots : ∀ n, toLowerCase c = replicate n '.' → c = replicate n '.' := by
    intro n hn
    refine eq_replicate_iff.2 ⟨by simpa [toLowerCase] using congrArg length hn, fun x hx => ?_⟩
    have hmem : x.toLower ∈ toLowerCase c := mem_map_of_mem hx
    rw [hn] at hmem
    exact eq_of_toLower (by decide) (eq_of_mem_replicate hmem)
  exact ⟨fun hd => h.1 (hdots 1 hd), fun hd => h.2 (hdots 2 hd)⟩

/-- the path in lower case -/
def Full.lower (f : Full) : Full where
  unc := f.unc
  cs := f.cs.map toLowerCase
  isComp := by
    intro c hc
    obtain ⟨d, hd, rfl⟩ := List.mem_map.1 hc
    have hcomp := f.isComp d hd
    refine ⟨by simpa [toLowerCase] using hcomp.1, fun x hx => ?_⟩
    obtain ⟨y, hy, rfl⟩ := List.mem_map.1 hx
    exact (isSep_toLower y).trans (hcomp.2 y hy)
  clean := by
    intro c hc
    obtain ⟨d, hd, rfl⟩ := List.mem_map.1 hc
    exact clean_toLower (f.clean d hd)
  rooted := by
    intro hu
    obtain ⟨x, dirs, hcs⟩ := f.rooted hu
    exact ⟨x.toLower, dirs.map toLowerCase, by simp [hcs, toLowerCase]⟩

theorem toLowerCase_intercalate (cs : List Text) :
    toLowerCase (['\\'].intercalate cs) = ['\\'].intercalate (cs.map toLowerCase) := by
  induction cs with
  | nil => rfl
  | cons c cs ih =>
    cases cs with
    | nil => simp
    | cons d cs =>
      rw [intercalate_cons_cons, map_cons, map_cons, intercalate_cons_cons, ← map_cons, ← ih]
      simp [toLowerCase]

theorem Full.toLowerCase_text : toLowerCase (f.text slash) = f.lower.text slash := by
  have happ : ∀ a b : Text, toLowerCase (a ++ b) = toLowerCase a ++ toLowerCase b := fun a b => map_append
  have hite : ∀ (b : Bool) (p : Text), toLowerCase (if b then p else []) = if b then toLowerCase p else [] := by
    intro b p
    cases b <;> rfl
  have hends : f.lower.endsSlash slash = f.endsSlash slash := by simp [Full.endsSlash, Full.lower]
  simp only [Full.text, hends, happ, hite, toLowerCase_intercalate]
  rfl

/-- the drive of a text of a drive path is followed by a separator -/
theorem Full.text_drive (hu : f.unc = false) (slash : Bool) {x : Char} {dirs : List Text}
    (hcs : f.cs = [x, ':'] :: dirs) : ∃ rest, f.text slash = x :: ':' :: '\\' :: rest ∧ comps rest = dirs := by
  obtain ⟨rest, hrest⟩ : ∃ rest, f.text slash = x :: ':' :: '\\' :: rest := by
    cases dirs with
    | nil => exact ⟨[], by simp [Full.text, Full.endsSlash, hu, hcs]⟩
    | cons d dirs => exact ⟨_, by rw [Full.text, hcs]; simp [hu]; rfl⟩
  refine ⟨rest, hrest, ?_⟩
  have hall := congrArg comps hrest
  have hdrive : comps [x, ':'] = [[x, ':']] := LexPath.comps_of_isComp isSep (f.isComp _ (by simp [hcs]))
  rw [Full.comps_text, hcs, show x :: ':' :: '\\' :: rest = [x, ':'] ++ '\\' :: rest from rfl,
    comps_append_sep [x, ':'] rest rfl, hdrive] at hall
  exact (cons.inj hall).2.symm

theorem Full.text_shape : (∃ x rest, isSep x = false ∧ f.text slash = x :: ':' :: '\\' :: rest) ∨
      ∃ rest, f.text slash = '\\' :: '\\' :: rest := by
  cases hu : f.unc with
  | true => exact Or.inr ⟨_, by simp only [Full.text, hu]; rfl⟩
  | false =>
    obtain ⟨x, dirs, hcs⟩ := f.rooted hu
    obtain ⟨rest, htext, -⟩ := f.text_drive hu slash hcs
    exact Or.inl ⟨x, rest, (f.isComp [x, ':'] (by simp [hcs])).2 x (by simp), htext⟩

/-- **The text of a full path names it**, whatever the working directory. -/
theorem fullPath_text (cwd f : Full) (slash : Bool) : fullPath cwd (f.text slash) = f := by
  cases hu : f.unc with
  | true =>
    have hbase : base cwd (f.text slash) = uncRoot := by simp [Full.text, hu, base, isSep]
    have hafter : afterDrive (f.text slash) = f.text slash := by simp [Full.text, hu, afterDrive]
    ext1
    · simp only [fullPath, Full.down, hbase, uncRoot, hu]
    · simp only [fullPath, Full.down, hbase, hafter, Full.comps_text]
      rw [LexPath.resolve_of_clean _ _ _ _ _ f.clean]
      rfl
  | false =>
    obtain ⟨x, dirs, hcs⟩ := f.rooted hu
    obtain ⟨rest, htext, hrest⟩ := f.text_drive hu slash hcs
    have hx : isSep x = false := (f.isComp [x, ':'] (by simp [hcs])).2 x (by simp)
    have hclean : ∀ c ∈ comps rest, Clean c := by
      intro c hc
      rw [hrest] at hc
      exact f.clean c (by simp [hcs, hc])
    have hbase : base cwd (f.text slash) = driveRoot x hx := by
      rw [htext]
      simp [base, hx, show isSep '\\' = true from rfl]
    have hafter : afterDrive (f.text slash) = '\\' :: rest := by
      rw [htext]
      simp [afterDrive, hx]
    ext1
    · simp only [fullPath, Full.down, hbase, driveRoot, hu]
    · simp only [fullPath, Full.down, hbase, hafter, comps_cons_sep rest (show isSep '\\' = true from rfl)]
      rw [LexPath.resolve_of_clean _ _ _ _ _ hclean, hrest, hcs]
      rfl

/-! ## The chroot view -/

/-- a text of the chroot view: it starts at the root and has no `.` or `..` component -/
def InView (t : Text) : Prop := ∃ r, t = '/' :: r ∧ ∀ c ∈ comps r, Clean c

theorem fromJail_view (jail : Text) (f : Full) (slash : Bool) (t : Text)
    (h : fromJail jail (f.text slash) = .ok t) : InView t := by
  simp only [fromJail] at h
  split_ifs at h with hpre hlen hhead hhead
  · simp only [Except.ok.injEq] at h
    subst h
    exact ⟨[], rfl, by simp [comps]⟩
  simp only [Except.ok.injEq] at h
  subst h
  obtain ⟨rest, hrest⟩ := hpre
  rw [← hrest, drop_left] at hhead ⊢
  obtain ⟨r, rfl⟩ : ∃ r, rest = '\\' :: r := by
    cases rest with
    | nil => simp at hhead
    | cons c r =>
      simp only [head?_cons, Option.some.injEq] at hhead
      exact ⟨r, by rw [hhead]⟩
  refine ⟨convertToForwardslash r, rfl, fun c hc => f.clean c ?_⟩
  rw [comps_forwardslash] at hc
  have hcs := congrArg comps hrest
  rw [comps_append_sep jail r rfl, Full.comps_text] at hcs
  rw [← hcs]
  exact mem_append_right _ hc

theorem realpath_view (env : Env) (s : St) {jail : Text} (hj : s.chrootPath = some jail) (p t : Text)
    (h : realpath env s p = .ok t) : InView t := by
  simp only [realpath, hj] at h
  split_ifs at h with hroot
  · simp only [Except.ok.injEq] at h
    subst h
    exact ⟨[], rfl, by simp [comps]⟩
  · exact fromJail_view jail _ _ t h

/-! ## Where a resolved path lies -/

/-- the directory `d` or a descendant of it, component by component -/
def Full.Under (d f : Full) : Prop := f.unc = d.unc ∧ d.cs <+: f.cs

variable {j : Text}

theorem base_append (hj : j ≠ []) (r : Text) {a b : Char} (ha : isSep a = true)
    (hb : isSep b = true) : base cwd (j ++ a :: r) = base cwd (j ++ [b]) := by
  have hcolon : ∀ {c : Char}, isSep c = true → c ≠ ':' := by
    rintro c hc rfl
    simp [isSep] at hc
  rcases j with _ | ⟨x, _ | ⟨y, _ | ⟨z, j⟩⟩⟩
  · exact absurd rfl hj
  · simp [base, ha, hb, hcolon ha, hcolon hb]
  · simp [base, ha, hb]
  · rfl

/-- the drive is cut from the front, so what stands behind a separator stays -/
theorem afterDrive_append (hj : j ≠ []) : ∃ j', ∀ (r : Text) (a : Char), isSep a = true →
    afterDrive (j ++ a :: r) = j' ++ a :: r := by
  have hcolon : ∀ {c : Char}, isSep c = true → c ≠ ':' := by
    rintro c hc rfl
    simp [isSep] at hc
  rcases j with _ | ⟨x, _ | ⟨y, j⟩⟩
  · exact absurd rfl hj
  · exact ⟨[x], fun r a ha => by simp [afterDrive, hcolon ha]⟩
  · by_cases h : isSep x = false ∧ y = ':'
    · exact ⟨j, fun r a _ => by simp [afterDrive, h]⟩
    · exact ⟨x :: y :: j, fun r a _ => by simp only [cons_append, afterDrive, if_neg h]⟩

/-- a text behind a directory text is walked from that directory, wherever relative texts start -/
theorem fullPath_append (hj : j ≠ []) (r : Text) {a b : Char} (ha : isSep a = true)
    (hb : isSep b = true) : fullPath cwd (j ++ a :: r) = (fullPath cwd (j ++ [b])).down r := by
  obtain ⟨j', hj'⟩ := afterDrive_append hj
  have hbase := base_append cwd hj r ha hb
  ext1
  · simp only [fullPath, Full.down, hbase]
  · have hdir := hj' [] b hb
    simp only [fullPath, hbase, hj' r a ha, hdir, Full.down, Full.floor]
    rw [comps_append_sep j' r ha, comps_snoc_sep j' hb, LexPath.resolve_append]

theorem Full.under_down (d : Full) (r : Text) (hr : ∀ c ∈ comps r, Clean c) : d.Under (d.down r) := by
  refine ⟨rfl, ?_⟩
  simp only [Full.down]
  rw [LexPath.resolve_of_clean _ _ _ _ _ hr]
  exact prefix_append _ _

theorem resolvedPath_under (env : Env) (s : St) {jail : Text} (hj : s.chrootPath = some jail) (hne : jail ≠ [])
    (input : Option Text) (p : Text) (h : resolvedPathUtf16 env s input = .ok p) (cwd : Full) :
    (fullPath cwd (jail ++ ['\\'])).Under (fullPath cwd p) := by
  cases input with
  | none => simp [resolvedPathUtf16] at h
  | some input =>
    simp only [resolvedPathUtf16, hj] at h
    cases hreal : realpath env s input with
    | error e => simp [hreal] at h
    | ok real =>
      simp only [hreal, Except.ok.injEq] at h
      obtain ⟨r, rfl, hclean⟩ := realpath_view env s hj input real hreal
      rw [← h]
      rw [fullPath_append cwd hne r (b := '\\') rfl rfl]
      exact Full.under_down _ r hclean

/-! ## After `chroot` -/

/-- the text `chroot` stores for a directory -/
def stored (dir : Text) : Text := stripTrailing (convertToBackslash (toLowerCase dir))

variable {path : Text}

theorem chroot_eq {s s' : St} (h : chroot s path = .ok s') :
    ∃ dir, chrootTarget s path = .ok dir ∧ s' = { s with chrootPath := some (stored dir) } := by
  unfold chroot at h
  cases hdir : chrootTarget s path with
  | error e => simp [hdir] at h
  | ok dir =>
    simp only [hdir, Except.ok.injEq] at h
    exact ⟨dir, rfl, h.symm⟩

variable {dir : Text}

/-- the first `chroot` of a process names a directory of at least two characters -/
theorem two_le_target {cwd : Full} (h : chrootTarget (St.start cwd) path = .ok dir) : 2 ≤ dir.length := by
  simp only [chrootTarget, w32Getcwd, St.start] at h
  split_ifs at h with hdot hcolon
  · simp only [Except.ok.injEq] at h
    subst h
    simpa [toLowerCase] using cwd.two_le_text false
  · simp only [Except.ok.injEq] at h
    subst h
    by_contra hlt
    have : path.drop 1 = [] := drop_eq_nil_of_le (by omega)
    simp [this] at hcolon

theorem stored_ne_nil (h : 2 ≤ dir.length) : stored dir ≠ [] := by
  have hlen : dir.length - 1 ≤ (stored dir).length := by
    unfold stored stripTrailing
    split_ifs <;> simp [convertToBackslash, toLowerCase]
  intro hnil
  rw [hnil] at hlen
  simp at hlen
  omega

theorem comps_backslash : comps (convertToBackslash p) = comps p := by
  refine comps_map_sep _ (fun c => ?_) (fun c hc => ?_) p
  · by_cases h : c = '/' <;> simp [h, isSep]
  · have h : c ≠ '/' := by rintro rfl; simp [isSep] at hc
    simp [h]

/-- the full path of a text does not depend on which of the two separators it uses -/
theorem fullPath_backslash : fullPath cwd (convertToBackslash p) = fullPath cwd p := by
  have hsep : ∀ c, isSep (if c = '/' then '\\' else c) = isSep c := by
    intro c
    by_cases h : c = '/' <;> simp [h, isSep]
  have hid : ∀ c, isSep c = false → (if c = '/' then '\\' else c) = c := by
    intro c hc
    have h : c ≠ '/' := by rintro rfl; simp [isSep] at hc
    simp [h]
  have hcolon : ∀ c : Char, ((if c = '/' then '\\' else c) = ':') = (c = ':') := by
    intro c
    by_cases h : c = '/' <;> simp [h]
  have hbase : base cwd (convertToBackslash p) = base cwd p := by
    rcases p with _ | ⟨x, _ | ⟨y, p⟩⟩
    · rfl
    · simp only [convertToBackslash, map_cons, map_nil, base, hsep]
    have hhead : (p.map fun c => if c = '/' then '\\' else c).head?.any isSep = p.head?.any isSep := by
      cases p with
      | nil => rfl
      | cons z p => simp [hsep]
    by_cases hx : isSep x = true
    · simp [convertToBackslash, base, hsep, hx]
    · simp only [Bool.not_eq_true] at hx
      simp only [convertToBackslash, map_cons, base, hsep, hcolon, hhead, hid x hx]
  have hdrive : comps (afterDrive (convertToBackslash p)) = comps (afterDrive p) := by
    rcases p with _ | ⟨x, _ | ⟨y, p⟩⟩
    · rfl
    · exact comps_backslash [x]
    simp only [convertToBackslash, map_cons, afterDrive, hsep, hcolon]
    by_cases hd : isSep x = false ∧ y = ':'
    · rw [if_pos hd, if_pos hd]
      exact comps_backslash p
    · rw [if_neg hd, if_neg hd]
      exact comps_backslash (x :: y :: p)
  ext1
  · simp only [fullPath, Full.down, hbase]
  · simp only [fullPath, Full.down, hbase, hdrive]

theorem fullPath_forwardslash : fullPath cwd (convertToForwardslash p) = fullPath cwd p := by
  have hback : convertToBackslash (convertToForwardslash p) = convertToBackslash p := by
    simp only [convertToBackslash, convertToForwardslash, map_map]
    refine map_congr_left fun c _ => ?_
    by_cases h : c = '\\' <;> simp [h]
  rw [← fullPath_backslash, hback, fullPath_backslash]

/-- the separator at the end of a text of a full path is there exactly when asked for, or always -/
theorem Full.text_getLast : f.text ((f.text slash).getLast?.any isSep) = f.text slash := by
  by_cases hcs : f.cs = []
  · simp [Full.text, Full.endsSlash, hcs]
  have hend : (f.text slash).getLast?.any isSep = f.endsSlash slash := by
    unfold Full.text
    by_cases he : f.endsSlash slash = true
    · simp [he, isSep]
    · obtain ⟨x, hx, hsep⟩ := LexPath.getLast_intercalate isSep '\\' f.cs hcs f.isComp
      simp [he, hx, hsep]
  rw [hend]
  have hslash : f.endsSlash (f.endsSlash slash) = f.endsSlash slash := by
    have hne : f.cs.isEmpty = false := by simpa using hcs
    cases slash <;> simp [Full.endsSlash, hne]
  simp only [Full.text, hslash]

/-- **Full paths are fixed points** of `_wfullpath`. -/
theorem wfullpath_text (cwd f : Full) (slash : Bool) : wfullpath cwd (f.text slash) = f.text slash := by
  rw [wfullpath, fullPath_text, Full.text_getLast]

theorem wfullpath_forwardslash : wfullpath cwd (convertToForwardslash p) = wfullpath cwd p := by
  have hlast : (convertToForwardslash p).getLast?.any isSep = p.getLast?.any isSep := by
    simp only [convertToForwardslash, getLast?_map, Option.any_map]
    congr 1
    funext c
    by_cases h : c = '\\' <;> simp [h, isSep]
  rw [wfullpath, fullPath_forwardslash, hlast, wfullpath]

/-- `chroot` keeps the directory it is given: separators and a final separator make no difference -/
theorem fullPath_stored (h : 2 ≤ dir.length) :
    fullPath cwd (stored dir ++ ['\\']) = fullPath cwd (toLowerCase dir ++ ['\\']) := by
  have hne := stored_ne_nil h
  have hback : fullPath cwd (toLowerCase dir ++ ['\\']) =
      fullPath cwd (convertToBackslash (toLowerCase dir) ++ ['\\']) := by
    rw [← fullPath_backslash]
    simp [convertToBackslash]
  rw [hback]
  revert hne
  unfold stored stripTrailing
  split_ifs with hlast
  · intro hne
    obtain ⟨q, hq⟩ := getLast?_eq_some_iff.1 hlast
    rw [hq] at hne ⊢
    rw [dropLast_concat] at hne ⊢
    rw [append_assoc, singleton_append, fullPath_append cwd hne ['\\'] (b := '\\') rfl rfl]
    ext1
    · rfl
    · rfl
  · intro _
    rfl

/-- one `chdir` call, with the answer of `_wchdir` -/
def chdirStep (env : Env) (s : St) (move : Text × Bool) : St := w32Chdir env s move.1 move.2

theorem chdir_chrootPath (env : Env) (s : St) (move : Text × Bool) :
    (chdirStep env s move).chrootPath = s.chrootPath := by
  unfold chdirStep w32Chdir
  split
  · split_ifs <;> rfl
  · rfl

/-- no `chdir` call changes the chroot -/
theorem run_chrootPath (env : Env) (s : St) (moves : List (Text × Bool)) :
    (Runs.run (chdirStep env) s moves).chrootPath = s.chrootPath :=
  Runs.run_inv_all (I := fun s' : St => s'.chrootPath = s.chrootPath)
    (fun s' o h => (chdir_chrootPath env s' o).trans h) moves rfl

/-- the directory named in a `chroot` call, in lower case as Windows compares names -/
def chrootDir (cwd : Full) (path : Text) : Text := toLowerCase (if path = dot then cwd.text false else path)

theorem target_eq_chrootDir {cwd : Full} (h : chrootTarget (St.start cwd) path = .ok dir) :
    toLowerCase dir = chrootDir cwd path := by
  have hidem : ∀ p : Text, toLowerCase (toLowerCase p) = toLowerCase p := by
    intro p
    exact (map_map ..).trans (map_congr_left fun c _ => toLower_cases (P := fun _ d => d.toLower = d) (by decide) (fun _ h => h) c)
  simp only [chrootTarget, w32Getcwd, St.start] at h
  unfold chrootDir
  split_ifs at h ⊢ with hdot hcolon
  · simp only [Except.ok.injEq] at h
    rw [← h, hidem]
  · simp only [Except.ok.injEq] at h
    rw [← h]

/-- **Chroot confinement of path names.** After `chroot` and any `chdir` calls, whatever text a client sends,
`resolved_path_utf16` returns a path at or below the chroot directory and `realpath` a text of the chroot view. -/
theorem chroot_confines (env : Env) (cwd : Full) (path : Text) (s : St) (hs : chroot (St.start cwd) path = .ok s)
    (moves : List (Text × Bool)) : (∀ input p, resolvedPathUtf16 env (Runs.run (chdirStep env) s moves) input = .ok p →
      ∀ c, (fullPath c (chrootDir cwd path ++ ['\\'])).Under (fullPath c p)) ∧
    (∀ input t, realpath env (Runs.run (chdirStep env) s moves) input = .ok t → InView t) := by
  obtain ⟨dir, hdir, rfl⟩ := chroot_eq hs
  have hlen := two_le_target hdir
  have hj := run_chrootPath env { St.start cwd with chrootPath := some (stored dir) } moves
  refine ⟨fun input p hp c => ?_, realpath_view env _ hj⟩
  rw [← target_eq_chrootDir hdir, ← fullPath_stored c hlen]
  exact resolvedPath_under env _ hj (stored_ne_nil hlen) input p hp c

/-- a client of `C:\\Jail` that sends `..\\x` from a subdirectory stays inside -/
theorem chroot_confines_jail :
    let env : Env := ⟨"c:\\programdata", false⟩
    let start := driveRoot 'c' rfl
    let jailed : St := ⟨start, some "c:\\jail"⟩
    let moved := Runs.run (chdirStep env) jailed [("/sub", true)]
    resolvedPathUtf16 env moved (some "..\\x") = .ok "c:\\jail/x" ∧
      (fullPath start (chrootDir start "C:\\Jail/" ++ ['\\'])).Under (fullPath start "c:\\jail/x") := by
  intro env start jailed moved
  have hresolved : resolvedPathUtf16 env moved (some "..\\x") = .ok "c:\\jail/x" := by decide
  exact ⟨hresolved, (chroot_confines env start "C:\\Jail/" jailed rfl [("/sub", true)]).1 _ _ hresolved start⟩

end OpenSSHServerPN.WinPath
