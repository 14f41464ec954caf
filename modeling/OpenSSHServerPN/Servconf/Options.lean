/-
Options and directives of sshd_config (`servconf.c`, `servconf.h`, `auth2-methods.c`, `auth2.c`).

Model: the options for login methods and for SFTP-only accounts are kept with their values, each set by its first active
line (`Settings`). Every other directive is recorded in order (`others`), so that whatever sshd derives from it is a
function of the result; its syntax check is part of the `Env`. A line is read by `readLine` into keyword, text and arguments.

Results:
- `readLine_keyword`: a directive of the usual form is read as it is written.
-/
import OpenSSHServerPN.Misc.Argv

namespace OpenSSHServerPN.Servconf

open Argv List

/-! ## Keywords and values -/

/-- the options the model keeps apart -/
inductive Keyword where
  | passwordAuthentication
  | pubkeyAuthentication
  | gssapiAuthentication
  | kbdInteractiveAuthentication
  | authenticationMethods
  | forceCommand
  | chrootDirectory
  | authorizedKeysFile
  | permitTTY
  | allowTcpForwarding
  | allowAgentForwarding
  | allowStreamLocalForwarding
  | permitTunnel
  | x11Forwarding
deriving DecidableEq, Repr

/-- their names, with `SSHCFG_MATCH` -/
def keywords : List (Text × Keyword × Bool) :=
  [("passwordauthentication", .passwordAuthentication, true), ("pubkeyauthentication", .pubkeyAuthentication, true),
    ("dsaauthentication", .pubkeyAuthentication, false),
    ("gssapiauthentication", .gssapiAuthentication, true),
    ("kbdinteractiveauthentication", .kbdInteractiveAuthentication, true),
    ("challengeresponseauthentication", .kbdInteractiveAuthentication, true),
    ("skeyauthentication", .kbdInteractiveAuthentication, true),
    ("authenticationmethods", .authenticationMethods, true),
    ("forcecommand", .forceCommand, true),
    ("chrootdirectory", .chrootDirectory, true),
    ("authorizedkeysfile", .authorizedKeysFile, true),
    ("permittty", .permitTTY, true),
    ("allowtcpforwarding", .allowTcpForwarding, true),
    ("allowagentforwarding", .allowAgentForwarding, true),
    ("allowstreamlocalforwarding", .allowStreamLocalForwarding, true),
    ("permittunnel", .permitTunnel, true),
    ("x11forwarding", .x11Forwarding, true)]

inductive Value where
  | int (n : ℕ)
  | text (t : Text)
  | list (l : List Text)
deriving DecidableEq, Repr

/-- a line that sshd refuses: at once, or with the count of bad options at the end of the file -/
inductive Failure where
  | fatal
  | bad
deriving DecidableEq, Repr

/-- what sshd does besides: its other directives, paths, ports, address lists and its version -/
structure Env where
  /-- `SSHCFG_MATCH` of another keyword in small letters; `none`: there is no such keyword -/
  otherKeyword : Text → Option Bool
  /-- the check of another directive's arguments -/
  otherCheck : Text → Text → List Text → Except Failure Unit
  tildeExpand : Text → Text
  a2port : Text → Option ℕ
  addrListValid : Text → Bool
  releaseMatches : Text → Bool

inductive Opcode where
  | option (k : Keyword)
  | matchBlock
  | includeFiles
  | other (name : Text)
deriving DecidableEq, Repr

/-- `parse_token`, with the keyword's `SSHCFG_MATCH`; `none` is `sBadOption` -/
def parseToken (env : Env) (cp : Text) : Option (Opcode × Bool) :=
  let name := lower cp
  if name = "match" then some (.matchBlock, true)
  else if name = "include" then some (.includeFiles, true)
  else
    match keywords.lookup name with
    | some (k, inMatch) => some (.option k, inMatch)
    | none => (env.otherKeyword name).map fun inMatch => (.other name, inMatch)

/-! ## Values -/

def multistateFlag : List (Text × ℕ) := [("yes", 1), ("no", 0)]

def multistateTcpfwd : List (Text × ℕ) :=
  [("yes", 3), ("all", 3), ("no", 0), ("remote", 1), ("local", 2)]

def tunmodeDesc : List (Text × ℕ) := [("no", 0), ("point-to-point", 1), ("ethernet", 2), ("yes", 3)]

/-- the one argument of a directive, read by a function -/
def oneArg (read : Text → Option Value) : List Text → Except Failure Value
  | [] => .error .fatal
  | arg :: rest =>
    if arg = [] then .error .fatal
    else
      match read arg with
      | none => .error .fatal
      | some v => if rest = [] then .ok v else .error .bad

def parseMultistate (table : List (Text × ℕ)) : List Text → Except Failure Value :=
  oneArg fun arg => (table.lookup (lower arg)).map .int

/-- the methods of `authmethod_cfgs` -/
def methodNames : List Text :=
  ["none", "publickey", "gssapi-with-mic", "password", "keyboard-interactive", "hostbased"]

/-- the methods of a list, without their submethods -/
def listMethods (l : Text) : List Text := (l.splitOn ',').map fun m => m.takeWhile (· != ':')

/-- `auth2_methods_valid(list, 0)` -/
def methodsValid (l : Text) : Bool := l != [] && (listMethods l).all fun m => methodNames.contains m

/-- the loop of `sAuthenticationMethods`: `any` stands alone -/
def parseAuthMethods (args : List Text) : Except Failure Value :=
  if args = [] then .error .fatal
  else if args = ["any".toList] then .ok (.list args)
  else if args.all fun a => a != "any" && methodsValid a then .ok (.list args)
  else .error .fatal

/-- `parse_filenames`: `none` stands alone -/
def parseFilenames (env : Env) (args : List Text) : Except Failure Value :=
  if args = [] then .error .fatal
  else if args.contains [] then .error .bad
  else if 1 < args.length ∧ args.any fun a => lower a == "none" then .error .bad
  else .ok (.list (args.map env.tildeExpand))

/-- the value of an option from its line: the text behind the keyword and its arguments -/
def parseValue (env : Env) (k : Keyword) (str : Text) (args : List Text) : Except Failure Value :=
  match k with
  | .passwordAuthentication | .pubkeyAuthentication | .gssapiAuthentication | .kbdInteractiveAuthentication
  | .permitTTY | .allowAgentForwarding | .x11Forwarding => parseMultistate multistateFlag args
  | .allowTcpForwarding | .allowStreamLocalForwarding => parseMultistate multistateTcpfwd args
  | .permitTunnel => oneArg (fun arg => (tunmodeDesc.lookup arg).map .int) args
  | .authenticationMethods => parseAuthMethods args
  | .forceCommand => .ok (.text (skipWhite str))
  | .chrootDirectory => oneArg (fun arg => some (.text arg)) args
  | .authorizedKeysFile => parseFilenames env args

/-! ## A line -/

inductive Line where
  | ignored
  /-- `error` and -1 before the keyword is looked up -/
  | bad
  | directive (keyword str : Text) (args : List Text)
deriving DecidableEq, Repr

/-- blanks at the end of a line; the first character always stays -/
def stripEnd : Text → Text
  | [] => []
  | c :: s => c :: (s.reverse.dropWhile fun d => isWhite d || d == '\x0c').reverse

/-- the words of a line: `load_server_config` drops blanks in front, `process_server_config_line_depth` takes the keyword
off and splits the rest -/
def readLine (line : Text) : Line :=
  let line := stripEnd (line.dropWhile fun c => c == ' ' || c == '\t' || c == '\r')
  let (keyword, str) :=
    match strdelim line with
    -- blanks in front of the keyword
    | (some [], some str) => strdelim str
    | p => p
  match keyword with
  | none => .ignored
  | some [] => .ignored
  | some (c :: kw) =>
    if c = '#' then .ignored
    else
      match str with
      | none => .bad
      | some [] => .bad
      | some str =>
        match argvSplit true str with
        | none => .bad
        | some args => .directive (c :: kw) str args

example : readLine "\tPasswordAuthentication = yes # note" =
    .directive "PasswordAuthentication" "yes # note" ["yes"] := by decide

example : readLine "\"Match\" User bob" = .directive "Match" "User bob" ["User", "bob"] := by
  decide

/-- the last character of a line that is no blank -/
def EndsInText (s : Text) : Prop := ∃ c, s.getLast? = some c ∧ isWhite c = false ∧ c ≠ '\x0c'

theorem stripEnd_of_endsInText {s : Text} (h : EndsInText s) (c : Char) : stripEnd (c :: s) = c :: s := by
  obtain ⟨z, hz, hwhite, hff⟩ := h
  obtain ⟨u, rfl⟩ := getLast?_eq_some_iff.1 hz
  simp [stripEnd, hwhite, hff]

theorem endsInText_append (s : Text) {t : Text} (h : EndsInText t) : EndsInText (s ++ t) := by
  obtain ⟨z, hz, hrest⟩ := h
  exact ⟨z, by simp [hz], hrest⟩

/-- **A directive of the usual form.** Blanks, the keyword, a space and the arguments. -/
theorem readLine_keyword {lead kw s : Text} (hlead : ∀ c ∈ lead, (c == ' ' || c == '\t' || c == '\r') = true)
    (hne : kw ≠ []) (hkw : ∀ c ∈ kw, isKeyChar c = true) {c : Char} (hs : s.head? = some c) (hwhite : isWhite c = false)
    (heq : c ≠ '=') (hend : EndsInText s) : readLine (lead ++ (kw ++ ' ' :: s)) = match argvSplit true s with
      | none => .bad
      | some args => .directive kw s args := by
  obtain ⟨k, kw', rfl⟩ := exists_cons_of_ne_nil hne
  have hk := hkw k mem_cons_self
  simp only [isKeyChar, isWhite, Bool.and_eq_true, Bool.not_eq_true', Bool.or_eq_false_iff, bne_iff_ne] at hk
  have hdrop : (lead ++ (k :: kw' ++ ' ' :: s)).dropWhile (fun c => c == ' ' || c == '\t' || c == '\r') =
      k :: (kw' ++ ' ' :: s) := by
    rw [dropWhile_append_of_pos hlead]
    simp [hk]
  have hstrip : stripEnd (k :: (kw' ++ ' ' :: s)) = (k :: kw') ++ ' ' :: s :=
    stripEnd_of_endsInText (endsInText_append kw' (endsInText_append [' '] hend)) k
  obtain ⟨s', rfl⟩ := head?_eq_some_iff.1 hs
  unfold readLine
  simp only [hdrop, hstrip, strdelim_keyword hkw hs hwhite heq, hk.2, if_false]

/-! ## Setting options -/

/-- the options set so far -/
abbrev Settings := Keyword → Option Value

structure ServerOptions where
  settings : Settings
  /-- the other active directives, in order -/
  others : List (Text × Text)

def ServerOptions.initial : ServerOptions := ⟨fun _ => none, []⟩

/-- the first value of an option stays -/
def Settings.setFirst (s : Settings) (k : Keyword) (v : Value) : Settings :=
  fun k' => if k' = k ∧ s k = none then some v else s k'

/-- the directives of the `switch` other than `Match` and `Include` -/
def applyDirective (env : Env) (active : Bool) (op : Opcode) (str : Text) (args : List Text) (o : ServerOptions) :
    Except Failure ServerOptions :=
  match op with
  | .option k =>
    match parseValue env k str args with
    | .error e => .error e
    | .ok v => .ok (if active then { o with settings := o.settings.setFirst k v } else o)
  | .other name =>
    match env.otherCheck name str args with
    | .error e => .error e
    | .ok _ => .ok (if active then { o with others := o.others ++ [(name, str)] } else o)
  | .matchBlock | .includeFiles => .ok o

/-- `copy_set_server_options`: what a matching block sets replaces the value for all accounts -/
def copySet (dst src : ServerOptions) : ServerOptions where
  settings := fun k => (src.settings k).or (dst.settings k)
  others := dst.others ++ src.others

end OpenSSHServerPN.Servconf
