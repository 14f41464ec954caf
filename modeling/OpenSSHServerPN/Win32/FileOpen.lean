/-
Opening files under a chroot (`fileio.c`: `createFile_flags_setup`, `file_in_chroot_jail`, `fileio_open`; `misc.c`:
`w32_fopen_utf8`).

Model: the file system is whatever answers `CreateFileW`, `_wfopen_s` and `GetFinalPathNameByHandleW`, so links, junctions
and network targets are arbitrary. A final path is a full path behind `\\?\`; for a share the text goes on with `UNC\`.
The check runs after the open, on the final path of the handle. Not modelled: exhausted memory, the byte order mark that
`w32_fopen_utf8` skips in the open stream.

Results, after a successful `chroot` and any `chdir` calls:
- `opened_confined`: an open file is the null device the caller asked for, or on a network share, or at or below the
  chroot directory;
- `share_opened_from_jail`: a link inside the chroot to a share is followed.
-/
import OpenSSHServerPN.Win32.Path

namespace OpenSSHServerPN.FileOpen

open WinPath

/-! ## What the system answers -/

/-- access mask of an entry for the owner or for everyone -/
inductive Rights where
  | full
  | mask (att : BitVec 32)
deriving DecidableEq, Repr

/-- the security descriptor `createFile_flags_setup` writes: administrators and SYSTEM always have full access -/
structure Security where
  owner : Text
  ownerAce : Option Rights
  everyoneAce : Option Rights
deriving DecidableEq, Repr

inductive Disposition where
  | createNew
  | createAlways
  | openExisting
  | openAlways
  | truncateExisting
deriving DecidableEq, Repr

/-- `struct createFile_flags`; the attributes are always overlapped with backup semantics -/
structure CreateFlags where
  desiredAccess : BitVec 32
  shareMode : BitVec 32
  creationDisposition : Disposition
  /-- `none`: inherited from the parent folder -/
  security : Option Security
deriving DecidableEq, Repr

/-- why nothing was opened -/
inductive OpenError where
  | errno (e : Errno)
  /-- `errno` from the last error of a system call -/
  | win32 (code : ℕ)
  /-- `errno` is left as it was -/
  | unset
deriving DecidableEq, Repr

structure Os (H : Type) where
  createFile : Text → CreateFlags → Except ℕ H
  wfopen : Text → Text → Except ℕ H
  finalPath : H → Option Full
  /-- the user's SID and whether it is SYSTEM -/
  userSid : Option (Text × Bool)
  validDescriptor : Security → Bool

/-! ## Flags -/

def oRdonly : BitVec 32 := 0x0

def oWronly : BitVec 32 := 0x1

def oRdwr : BitVec 32 := 0x2

def oNonblock : BitVec 32 := 0x4

def oAppend : BitVec 32 := 0x8

def oCreat : BitVec 32 := 0x100

def oTrunc : BitVec 32 := 0x200

def oExcl : BitVec 32 := 0x400

def oBinary : BitVec 32 := 0x8000

def genericRead : BitVec 32 := 0x80000000

def genericWrite : BitVec 32 := 0x40000000

def fileAppendData : BitVec 32 := 0x4

def fileShareRead : BitVec 32 := 0x1

def fileShareWrite : BitVec 32 := 0x2

/-- the mode that asks for inherited permissions -/
def ushrtMax : BitVec 16 := 0xffff

/-- the permission bits of owner, group and others, directory and regular file -/
def modeMask : BitVec 16 := 0o700 ||| 0o070 ||| 0o007 ||| 0o040000 ||| 0o100000

/-- `st_mode_to_file_att` -/
def stModeToFileAtt (mode : BitVec 16) : Rights :=
  if mode = 0o7 then .full
  else
    let read : BitVec 32 := if mode &&& 0o4 ≠ 0 then 0x120089 ||| 0x20 else 0
    let write : BitVec 32 := if mode &&& 0o2 ≠ 0 then 0x120116 ||| 0x10000 else 0
    let execute : BitVec 32 := if mode &&& 0o1 ≠ 0 then 0x1200a0 else 0
    .mask (read ||| write ||| execute)

variable {H : Type}

/-- the descriptor for a mode -/
def securityOf (os : Os H) (mode : BitVec 16) : Except OpenError (Option Security) :=
  if mode = ushrtMax then .ok none
  else if mode &&& ~~~modeMask ≠ 0 then .error (.errno .ENOTSUP)
  else
    match os.userSid with
    | none => .error .unset
    | some (sid, isSystem) =>
      let descriptor : Security :=
        { owner := sid
          ownerAce := if !isSystem ∧ mode &&& 0o700 ≠ 0 then some (stModeToFileAtt ((mode &&& 0o700) >>> 6)) else none
          everyoneAce := if mode &&& 0o7 ≠ 0 then some (stModeToFileAtt (mode &&& 0o7)) else none }
      if os.validDescriptor descriptor then .ok (some descriptor) else .error .unset

/-- access and sharing for the read/write flags -/
def accessOf (rwflags : BitVec 32) : Except OpenError (BitVec 32 × BitVec 32) :=
  if rwflags = oRdonly then .ok (genericRead, fileShareRead ||| fileShareWrite)
  else if rwflags = oWronly then .ok (genericWrite, fileShareWrite)
  else if rwflags = oRdwr then .ok (genericRead ||| genericWrite, 0)
  else .error (.errno .EINVAL)

def dispositionOf (flags : BitVec 32) : Disposition :=
  if flags &&& oCreat ≠ 0 then
    if flags &&& oExcl ≠ 0 then .createNew
    else if flags &&& oTrunc ≠ 0 then .createAlways
    else .openAlways
  else if flags &&& oTrunc ≠ 0 then .truncateExisting
  else .openExisting

/-- `createFile_flags_setup` -/
def createFileFlagsSetup (os : Os H) (flags : BitVec 32) (mode : BitVec 16) : Except OpenError CreateFlags := do
  let rwflags := flags &&& 0x3
  let csFlags := flags &&& 0xfffffffc
  let (access, share) ← accessOf rwflags
  if csFlags &&& ~~~(oNonblock ||| oAppend ||| oCreat ||| oTrunc ||| oExcl ||| oBinary) ≠ 0 then
    throw (.errno .ENOTSUP)
  let security ← securityOf os mode
  return { desiredAccess := if csFlags &&& oAppend ≠ 0 then fileAppendData else access
           shareMode := share
           creationDisposition := dispositionOf csFlags
           security := security }

/-! ## The check on the handle -/

/-- the text of a final path behind `\\?\` -/
def finalText (f : Full) : Text :=
  if f.unc then "UNC\\" ++ ['\\'].intercalate f.cs else f.text false

/-- `file_in_chroot_jail_helper` -/
def fileInChrootJailHelper (jail finalPath : Text) : Bool :=
  let path := toLowerCase finalPath
  decide (jail <+: path) && decide ((path.drop jail.length).head? = some '\\')

/-- `file_in_chroot_jail` -/
def fileInChrootJail (os : Os H) (jail : Text) (handle : H) : Bool :=
  match os.finalPath handle with
  | none => false
  | some f =>
    -- a link that points to a UNC path is let through
    if "UNC\\" <+: finalText f then true else fileInChrootJailHelper jail (finalText f)

/-! ## The functions -/

def nullDevice : Text := "/dev/null"

def nullDeviceWin : Text := "NUL"

/-- the names of the null device -/
def isNullDevice (path : Text) : Bool := path = nullDevice || path = nullDeviceWin

/-- the path to open: the null device is not resolved -/
def targetPath (env : Env) (s : St) (path : Text) : Except OpenError Text :=
  if isNullDevice path then .ok nullDeviceWin
  else
    match resolvedPathUtf16 env s (some path) with
    | .ok p => .ok p
    | .error e => .error (.errno e)

/-- the last step of both functions: a file outside the chroot is closed again -/
def keepInJail (os : Os H) (s : St) (path : Text) (handle : H) : Except OpenError H :=
  match s.chrootPath with
  | none => .ok handle
  | some jail =>
    if isNullDevice path || fileInChrootJail os jail handle then .ok handle else .error (.errno .EACCES)

/-- `fileio_open` -/
def fileioOpen (os : Os H) (env : Env) (s : St) (path : Option Text) (flags : BitVec 32) (mode : BitVec 16) :
    Except OpenError H :=
  match path with
  | none => .error (.errno .EINVAL)
  | some path => do
    let target ← targetPath env s path
    let cfFlags ← createFileFlagsSetup os flags mode
    let handle ← (os.createFile target cfFlags).mapError .win32
    keepInJail os s path handle

/-- only one-letter modes and `a+` are supported -/
def modeSupported (mode : Text) : Bool := mode.length ≤ 1 || "a+".toList.isPrefixOf mode

/-- `w32_fopen_utf8` -/
def w32FopenUtf8 (os : Os H) (env : Env) (s : St) (path mode : Option Text) : Except OpenError H :=
  match mode with
  | none => .error (.errno .ENOTSUP)
  | some mode =>
    if modeSupported mode then
      match path with
      | none => .error (.errno .EINVAL)
      | some path => do
        let target ← targetPath env s path
        let handle ← (os.wfopen target mode).mapError .win32
        keepInJail os s path handle
    else .error (.errno .ENOTSUP)

/-- a call that opens a file -/
inductive Call where
  | fileio (path : Option Text) (flags : BitVec 32) (mode : BitVec 16)
  | fopen (path mode : Option Text)
deriving DecidableEq, Repr

def Call.path : Call → Option Text
  | .fileio path _ _ => path
  | .fopen path _ => path

def openFile (os : Os H) (env : Env) (s : St) : Call → Except OpenError H
  | .fileio path flags mode => fileioOpen os env s path flags mode
  | .fopen path mode => w32FopenUtf8 os env s path mode

/-! ## Confinement -/

/-- the final path of the handle is the directory or lies below it -/
def Confined (os : Os H) (dir : Text) (handle : H) : Prop :=
  ∃ f, os.finalPath handle = some f ∧ ∀ c, (fullPath c (dir ++ ['\\'])).Under f.lower

/-- the final path of the handle is on a network share -/
def OnShare (os : Os H) (handle : H) : Prop := ∃ f, os.finalPath handle = some f ∧ f.unc = true

theorem bind_eq_ok {ε α β : Type} {x : Except ε α} {f : α → Except ε β} {b : β} (h : (x >>= f) = .ok b) :
    ∃ a, x = .ok a ∧ f a = .ok b := by
  cases x with
  | error e => simp [bind, Except.bind] at h
  | ok a => exact ⟨a, rfl, h⟩

theorem keepInJail_eq {os : Os H} {s : St} {path : Text} {handle handle' : H}
    (h : keepInJail os s path handle' = .ok handle) : keepInJail os s path handle = .ok handle := by
  have heq : handle' = handle := by
    unfold keepInJail at h
    split at h
    · exact Except.ok.inj h
    · split_ifs at h
      exact Except.ok.inj h
  rw [← heq] at h ⊢
  exact h

/-- every file either function returns went through the check on its handle -/
theorem openFile_kept {os : Os H} {env : Env} {s : St} {call : Call} {handle : H}
    (h : openFile os env s call = .ok handle) :
    ∃ path, call.path = some path ∧ keepInJail os s path handle = .ok handle := by
  cases call with
  | fileio path flags mode =>
    cases path with
    | none => simp [openFile, fileioOpen] at h
    | some path =>
      obtain ⟨target, -, h⟩ := bind_eq_ok h
      obtain ⟨cfFlags, -, h⟩ := bind_eq_ok h
      obtain ⟨handle', -, h⟩ := bind_eq_ok h
      exact ⟨path, rfl, keepInJail_eq h⟩
  | fopen path mode =>
    cases mode with
    | none => simp [openFile, w32FopenUtf8] at h
    | some mode =>
      simp only [openFile, w32FopenUtf8] at h
      split_ifs at h with hmode
      cases path with
      | none => simp at h
      | some path =>
        obtain ⟨target, -, h⟩ := bind_eq_ok h
        obtain ⟨handle', -, h⟩ := bind_eq_ok h
        exact ⟨path, rfl, keepInJail_eq h⟩

/-- a final path of a drive never looks like one of a share -/
theorem drive_not_unc (f : Full) (hu : f.unc = false) : ¬ "UNC\\" <+: finalText f := by
  obtain ⟨x, dirs, hcs⟩ := f.rooted hu
  obtain ⟨rest, htext, -⟩ := f.text_drive hu false hcs
  rintro ⟨t, ht⟩
  simp [finalText, hu, htext] at ht

/-- **The helper's text comparison is containment.** A drive path that passes lies below the chroot directory. -/
theorem helper_under {jail : Text} (hne : jail ≠ []) (f : Full) (hu : f.unc = false)
    (h : fileInChrootJailHelper jail (finalText f) = true) (c : Full) :
    (fullPath c (jail ++ ['\\'])).Under f.lower := by
  simp only [fileInChrootJailHelper, finalText, hu, Bool.false_eq_true, if_false, Bool.and_eq_true,
    decide_eq_true_eq, Full.toLowerCase_text] at h
  obtain ⟨⟨t, ht⟩, hhead⟩ := h
  rw [← ht, List.drop_left] at hhead
  obtain ⟨r, rfl⟩ : ∃ r, t = '\\' :: r := List.head?_eq_some_iff.1 hhead
  have hclean : ∀ d ∈ comps r, Clean d := by
    intro d hd
    have hcs := congrArg comps ht
    rw [comps_append_sep jail r rfl, Full.comps_text] at hcs
    exact f.lower.clean d (hcs ▸ List.mem_append_right _ hd)
  have hself := fullPath_text c f.lower false
  rw [← ht, fullPath_append c hne r (b := '\\') rfl rfl] at hself
  rw [← hself]
  exact Full.under_down _ r hclean

/-- **Chroot confinement of opened files.** Whatever links and targets the file system has, a file opened after `chroot`
is the null device the caller named, is on a network share, or lies at or below the chroot directory. -/
theorem opened_confined (os : Os H) (env : Env) (cwd : Full) (path : Text) (s : St)
    (hs : chroot (St.start cwd) path = .ok s) (moves : List (Text × Bool)) (call : Call) (handle : H)
    (hopen : openFile os env (Runs.run (chdirStep env) s moves) call = .ok handle) :
    (∃ name, call.path = some name ∧ isNullDevice name = true) ∨ OnShare os handle ∨
      Confined os (chrootDir cwd path) handle := by
  obtain ⟨dir, hdir, rfl⟩ := chroot_eq hs
  have hlen := two_le_target hdir
  have hj := run_chrootPath env { St.start cwd with chrootPath := some (stored dir) } moves
  obtain ⟨name, hname, hkeep⟩ := openFile_kept hopen
  simp only [keepInJail, hj] at hkeep
  split_ifs at hkeep with hin
  simp only [Bool.or_eq_true] at hin
  rcases hin with hnull | hjail
  · exact Or.inl ⟨name, hname, hnull⟩
  right
  unfold fileInChrootJail at hjail
  cases hf : os.finalPath handle with
  | none => simp [hf] at hjail
  | some f =>
    cases hu : f.unc with
    | true => exact Or.inl ⟨f, hf, hu⟩
    | false =>
      simp only [hf, if_neg (drive_not_unc f hu)] at hjail
      refine Or.inr ⟨f, hf, fun c => ?_⟩
      rw [← target_eq_chrootDir hdir, ← fullPath_stored c hlen]
      exact helper_under (stored_ne_nil hlen) f hu hjail c

/-! ## A link to a share -/

def exampleEnv : Env := ⟨"c:\\programdata", false⟩

/-- the chroot of the examples -/
def jailed : St := ⟨driveRoot 'c' rfl, some "c:\\jail"⟩

/-- `\\srv\pub\f` -/
def shareFile : Full := ⟨true, ["srv", "pub", "f"], by decide, by decide, by simp⟩

/-- `C:\Jail\f` -/
def jailFile : Full := ⟨false, ["C:", "Jail", "f"], by decide, by decide, by simp⟩

/-- a file system with two names in the chroot: `link` leads to the share, every other name to the chroot's own file -/
def linkedOs : Os Bool where
  createFile := fun p _ => .ok (p = "c:\\jail/link")
  wfopen := fun p _ => .ok (p = "c:\\jail/link")
  finalPath := fun onShare => some (if onShare then shareFile else jailFile)
  userSid := some ("S-1-5-21-1", false)
  validDescriptor := fun _ => true

/-- a link inside the chroot that leads to a share is followed: the file returned is not below the chroot directory -/
theorem share_opened_from_jail : chroot (St.start (driveRoot 'c' rfl)) "C:\\Jail" = .ok jailed ∧
      openFile linkedOs exampleEnv jailed (.fileio (some "/link") 0 ushrtMax) = .ok true ∧
      ¬ Confined linkedOs (chrootDir (driveRoot 'c' rfl) "C:\\Jail") true := by
  refine ⟨rfl, by decide, ?_⟩
  rintro ⟨f, hf, hunder⟩
  obtain rfl : shareFile = f := by simpa [linkedOs] using hf
  have hunc := (hunder (driveRoot 'c' rfl)).1
  revert hunc
  decide

/-- opening a file of the chroot by a relative name, from a subdirectory -/
theorem opened_confined_file : openFile linkedOs exampleEnv (Runs.run (chdirStep exampleEnv) jailed [("/sub", true)])
        (.fopen (some "..\\f") (some "r")) = .ok false ∧
      ((∃ name, (Call.fopen (some "..\\f") (some "r")).path = some name ∧ isNullDevice name = true) ∨
        OnShare linkedOs false ∨ Confined linkedOs (chrootDir (driveRoot 'c' rfl) "C:\\Jail") false) := by
  have hopen : openFile linkedOs exampleEnv (Runs.run (chdirStep exampleEnv) jailed [("/sub", true)])
      (.fopen (some "..\\f") (some "r")) = .ok false := by decide
  exact ⟨hopen, opened_confined linkedOs exampleEnv (driveRoot 'c' rfl) "C:\\Jail" jailed rfl
    [("/sub", true)] _ false hopen⟩

end OpenSSHServerPN.FileOpen
