/-
The lines of sshd_config in the manager (`SshdConfig.cs`: `Split`, `CommentStart`, `FirstMatchIndex`, `Get`, `GetAll`, `Set`,
`SshdArgs`).

Model: a configuration is its list of lines. `split` is the source's expression for a directive, with the comment behind it
apart. `set` works on the lines above the first Match section (`top`): it rewrites the first line of the keyword and comments
out the others, moves the line above the first Include, or puts a new line there or in the place of a commented-out example.
Casing and word characters outside ASCII are those of .NET (`Dotnet`).

Result:
- `argvSplit_quote`: what `Quote` writes is read back as the one argument.
-/
import OpenSSHServerPN.Lib.Edit
import OpenSSHServerPN.Servconf.Options

namespace OpenSSHServerPN.SshdConfig

open Argv Edit Servconf List

/-! ## Characters -/

/-- `char.IsWhiteSpace`, and `\s` of an expression -/
def isSpace (c : Char) : Bool :=
  let n := c.toNat
  (9 ≤ n && n ≤ 13) || n == 0x20 || n == 0x85 || n == 0xa0 || n == 0x1680 || (0x2000 ≤ n && n ≤ 0x200a) || n == 0x2028 ||
    n == 0x2029 || n == 0x202f || n == 0x205f || n == 0x3000

/-- `char.IsControl` -/
def isControl (c : Char) : Bool := c.toNat < 0x20 || (0x7f ≤ c.toNat && c.toNat ≤ 0x9f)

/-- `[A-Za-z0-9]` -/
def isAlnum (c : Char) : Bool := ('a' ≤ c && c ≤ 'z') || ('A' ≤ c && c ≤ 'Z') || ('0' ≤ c && c ≤ '9')

/-- what .NET adds to the rules for ASCII -/
structure Dotnet where
  /-- `ToLowerInvariant` -/
  lowerInvariant : Char → Char
  lowerInvariant_ascii : ∀ c, c.toNat < 128 → lowerInvariant c = c.toLower
  /-- `\w` -/
  isWord : Char → Bool
  isWord_ascii : ∀ c, c.toNat < 128 → isWord c = (isAlnum c || c == '_')

/-- .NET on ASCII texts -/
def asciiNet : Dotnet where
  lowerInvariant := Char.toLower
  lowerInvariant_ascii := fun _ _ => rfl
  isWord := fun c => isAlnum c || c == '_'
  isWord_ascii := fun _ _ => rfl

abbrev Lines := List Text

def trimText (t : Text) : Text := trim isSpace t

def trimStart (t : Text) : Text := t.dropWhile isSpace

/-! ## A directive line -/

/-- `CommentStart`: the text before the comment, and the comment with its `#` -/
def cutComment : Option Char → Bool → Text → Text × Text
  | _, _, [] => ([], [])
  | quote, argStart, '\\' :: d :: s =>
    if escapes quote d then
      let (v, c) := cutComment quote false s
      ('\\' :: d :: v, c)
    else
      let (v, c) := cutComment quote (quote.isSome && argStart) (d :: s)
      ('\\' :: v, c)
  | some q, argStart, c :: s =>
    let (v, k) := cutComment (if c = q then none else some q) argStart s
    (c :: v, k)
  | none, argStart, c :: s =>
    if isBlank c then
      let (v, k) := cutComment none true s
      (c :: v, k)
    else if c = '#' ∧ argStart then ([], c :: s)
    else
      let (v, k) := cutComment (if c = '"' ∨ c = '\'' then some c else none) false s
      (c :: v, k)

structure Directive where
  key : Text
  value : Text
  comment : Text
deriving DecidableEq, Repr

/-- `Split`: `^([A-Za-z0-9]+)\s*(?:=|\s)\s*(.*)$`, with the comment cut off -/
def split (line : Text) : Option Directive :=
  let t := trimText line
  let key := t.takeWhile isAlnum
  let behind := t.dropWhile isAlnum
  let make := fun rest =>
    let (value, comment) := cutComment none true rest
    some ⟨key, trimText value, trimText comment⟩
  if key = [] then none
  else
    match trimStart behind with
    | '=' :: rest => make (trimStart rest)
    | rest => if behind.head?.any isSpace then make rest else none

/-- a directive line of the keyword -/
def hasKey (keyword line : Text) : Bool :=
  match split line with
  | some d => lower d.key == lower keyword
  | none => false

/-! ## Match sections -/

def authRegionBegin : Text :=
  "# Login methods by user and group, managed on the Authentication tab of OpenSSH Server PN Manager."

def authLegacyRegionBegin : Text :=
  "# Login methods by user and group, managed on the Authentication tab of OpenSSH Server Manager."

def sftpRegionBegin : Text := "# SFTP-only accounts, managed on the SFTP tab of OpenSSH Server PN Manager."

/-- `AuthConfig.IsRegionBegin` -/
def isAuthRegionBegin (trimmed : Text) : Bool := trimmed == authRegionBegin || trimmed == authLegacyRegionBegin

/-- `^\s*Match\b` without case -/
def isMatchLine (net : Dotnet) (line : Text) : Bool :=
  let t := trimStart line
  lower (t.take 5) == "match" && !(t.drop 5).head?.any net.isWord

/-- `StartsMatchSection` -/
def startsMatchSection (net : Dotnet) (line : Text) : Bool :=
  isMatchLine net line || isAuthRegionBegin (trimText line) || trimText line == sftpRegionBegin

/-- the lines above `FirstMatchIndex` -/
def top (net : Dotnet) (lines : Lines) : Lines := lines.takeWhile fun l => !startsMatchSection net l

/-- the lines from `FirstMatchIndex` on -/
def bottom (net : Dotnet) (lines : Lines) : Lines := lines.dropWhile fun l => !startsMatchSection net l

/-! ## Reading and setting -/

/-- `GetAll`: the directives of a keyword at the top -/
def getAll (net : Dotnet) (lines : Lines) (keyword : Text) : List Directive :=
  ((top net lines).filter (hasKey keyword)).filterMap split

/-- `Get` -/
def get (net : Dotnet) (lines : Lines) (keyword : Text) : Option Text := (getAll net lines keyword).head?.map (·.value)

def cumulativeKeywords : List Text := ["allowusers", "allowgroups", "denyusers", "denygroups"]

def repeatableKeywords : List Text :=
  ["port", "listenaddress", "hostkey", "hostcertificate", "subsystem", "acceptenv", "include"]

def includeKeyword : Text := "Include"

/-- the line commented out, if it is one of the keyword -/
def commentOut (keyword line : Text) : Text := if hasKey keyword line then '#' :: trimStart line else line

/-- the new line, with the comment of the line it replaces -/
def withComment (newLine line : Text) : Text :=
  match split line with
  | some d => if d.comment = [] then newLine else newLine ++ ' ' :: d.comment
  | none => newLine

/-- the first line of the keyword is replaced, further lines are commented out -/
def replaceLines (keyword newLine : Text) : Lines → Lines
  | [] => []
  | l :: ls =>
    if hasKey keyword l then withComment newLine l :: ls.map (commentOut keyword)
    else l :: replaceLines keyword newLine ls

/-- moves the first line of the keyword above the first Include, if it stands below -/
def moveAboveInclude (keyword : Text) (ls : Lines) : Lines :=
  match ls.span fun l => !hasKey includeKeyword l with
  | (above, inc :: below) =>
    if above.any (hasKey keyword) then ls
    else
      match below.span fun l => !hasKey keyword l with
      | (between, edited :: rest) => above ++ edited :: inc :: (between ++ rest)
      | (_, []) => ls
  | (_, []) => ls

/-- `^\s*#keyword(\s|=)` without case -/
def isExample (keyword line : Text) : Bool :=
  match trimStart line with
  | '#' :: t =>
    lower (t.take keyword.length) == lower keyword && (t.drop keyword.length).head?.any fun c => isSpace c || c == '='
  | _ => false

/-- the new line in the place of the first example -/
def replaceExample (keyword newLine : Text) (ls : Lines) : Option Lines :=
  match ls.span fun l => !isExample keyword l with
  | (above, _ :: rest) => some (above ++ newLine :: rest)
  | (_, []) => none

/-- a new line: in the place of an example, above the first Include, or at the end -/
def insertLine (keyword newLine : Text) (ls : Lines) (bottom : Lines) : Lines :=
  match ls.span fun l => !hasKey includeKeyword l with
  | (above, inc :: below) =>
    match replaceExample keyword newLine above with
    | some above' => above' ++ inc :: below
    | none => above ++ newLine :: inc :: below
  | (above, []) =>
    match replaceExample keyword newLine above with
    | some above' => above'
    | none => above ++ if bottom = [] then [newLine] else [newLine, []]

/-- `Set` for the lines at the top; the value is trimmed and one line -/
def setTop (keyword value : Text) (ls bottom : Lines) : Lines :=
  if value = [] then ls.map (commentOut keyword)
  else
    let newLine := keyword ++ ' ' :: value
    if ls.any (hasKey keyword) then
      let ls' := replaceLines keyword newLine ls
      if repeatableKeywords.contains (lower keyword) || cumulativeKeywords.contains (lower keyword) then ls'
      else moveAboveInclude keyword ls'
    else insertLine keyword newLine ls bottom

/-- `Set` -/
def set (net : Dotnet) (lines : Lines) (keyword value : Text) : Except Text Lines :=
  let value := trimText value
  if value.any fun c => c != '\t' && isControl c then .error (keyword ++ ": the value must be a single line.")
  else .ok (setTop keyword value (top net lines) (bottom net lines) ++ bottom net lines)

/-! ## Arguments -/

/-- `SshdArgs.Quote`: the characters of an argument, in quotation marks or not -/
def quoteChars (quoted : Bool) : Text → Text
  | [] => []
  | c :: s =>
    let next := s.head?.getD (if quoted then '"' else ' ')
    (if c = '"' then ['\\', '"']
      else if c = '\\' ∧ (next = '\\' ∨ next = '\'' ∨ next = '"' ∨ (!quoted ∧ next = ' ')) then ['\\', '\\']
      else [c]) ++ quoteChars quoted s

/-- `SshdArgs.Quote` -/
def quote (arg : Text) : Text :=
  let quoted := arg = [] || arg.head? = some '#' || arg.any fun c => c == ' ' || c == '\t' || c == '\'' || c == '"'
  if quoted then '"' :: quoteChars true arg ++ ['"'] else quoteChars false arg

/-- the quotation mark that is open while an argument is read back -/
def openQuote (quoted : Bool) : Option Char := if quoted then some '"' else none

/-- `Quote` doubles a backslash where it would protect the next character -/
theorem quoteChars_cons (quoted : Bool) (c : Char) (s : Text) : quoteChars quoted (c :: s) =
      (if c = '"' then ['\\', '"']
        else if c = '\\' ∧ escapes (openQuote quoted) (s.head?.getD (if quoted then '"' else ' ')) = true then ['\\', '\\']
        else [c]) ++ quoteChars quoted s := by
  have hesc : ∀ d, escapes (openQuote quoted) d = true ↔ d = '\\' ∨ d = '\'' ∨ d = '"' ∨ (!quoted ∧ d = ' ') := by
    cases quoted <;> simp [escapes, openQuote] <;> tauto
  simp only [hesc, quoteChars]

theorem quoteChars_head (quoted : Bool) {c : Char} (s : Text) (hq : c ≠ '"') : ∃ t, quoteChars quoted (c :: s) = c :: t := by
  rw [quoteChars_cons, if_neg hq]
  by_cases hc : c = '\\' ∧ escapes (openQuote quoted) (s.head?.getD (if quoted then '"' else ' ')) = true
  · rw [if_pos hc, hc.1]
    exact ⟨'\\' :: quoteChars quoted s, rfl⟩
  · rw [if_neg hc]
    exact ⟨quoteChars quoted s, rfl⟩

/-- a character that is not written in quotation marks -/
def isBare (c : Char) : Bool := !isBlank c && c != '\'' && c != '"'

/-- the characters that are written are read back -/
theorem scan_quoteChars (quoted : Bool) {s rest : Text} {args : List Text} (h : quoted = true ∨ ∀ c ∈ s, isBare c = true)
    (hafter : scan true (some none) rest = some ([], args)) :
    scan true (some (openQuote quoted)) (quoteChars quoted s ++ ((if quoted then ['"'] else []) ++ rest)) = some (s, args) := by
  induction s with
  | nil =>
    cases quoted with
    | true => exact ((scan_step (by decide) rest).2.2 '"').trans ((if_pos rfl).trans hafter)
    | false => exact hafter
  | cons c s ih =>
    have hrest := ih (h.imp_right fun hs d hd => hs d (mem_cons_of_mem c hd))
    rw [quoteChars_cons]
    by_cases hq : c = '"'
    · subst hq
      simp only [if_true, cons_append, nil_append, scan_backslash_cons, Option.getD_some, hrest]
      cases quoted <;> rfl
    by_cases hb : c = '\\'
    · subst hb
      by_cases hesc : escapes (openQuote quoted) (s.head?.getD (if quoted then '"' else ' ')) = true
      · simp only [hq, hesc, and_self, if_true, if_false, cons_append, nil_append, scan_backslash_cons,
          Option.getD_some, hrest]
        cases quoted <;> rfl
      -- the next character is written as it is, and the backslash does not protect it
      obtain ⟨d, s', rfl⟩ : ∃ d s', s = d :: s' := by
        refine exists_cons_of_ne_nil fun hnil => hesc ?_
        subst hnil
        cases quoted <;> rfl
      simp only [head?_cons, Option.getD_some] at hesc
      have hd : d ≠ '"' := by
        rintro rfl
        exact hesc (by cases quoted <;> rfl)
      obtain ⟨t, ht⟩ := quoteChars_head quoted s' hd
      simp only [hq, hesc, and_false, if_false, head?_cons, Option.getD_some, ht, cons_append, nil_append,
        scan_backslash_cons, Bool.false_eq_true] at hrest ⊢
      rw [hrest]
      rfl
    · simp only [hq, hb, false_and, if_false, cons_append, nil_append]
      cases quoted with
      | true =>
        rw [openQuote, if_pos rfl, (scan_step hb _).2.2, if_neg hq]
        rw [openQuote, if_pos rfl] at hrest
        rw [hrest]
        rfl
      | false =>
        have hbare : isBare c = true := by simpa using (h.resolve_left (by decide)) c mem_cons_self
        simp only [isBare, Bool.and_eq_true, Bool.not_eq_true', bne_iff_ne] at hbare
        rw [openQuote, if_neg (by decide), (scan_step hb _).2.1]
        simp only [openQuote, Bool.false_eq_true, if_false] at hrest
        simp only [hbare.1.1, hbare.1.2, hq, Bool.false_eq_true, if_false, hrest]
        rfl

/-- an argument that was written is read back, in front of what does not go on with it -/
theorem scan_quote (arg : Text) {rest : Text} {args : List Text} (hafter : scan true (some none) rest = some ([], args)) :
    scan true none (quote arg ++ rest) = some ([], arg :: args) := by
  unfold quote
  simp only
  split_ifs with hquoted
  · have hopen : scan true (some (some '"')) (quoteChars true arg ++ (['"'] ++ rest)) = some (arg, args) :=
      scan_quoteChars true (.inl rfl) hafter
    rw [cons_append, cons_append, (scan_step (by decide) _).1, append_assoc, hopen]
    rfl
  · simp only [Bool.or_eq_true, decide_eq_true_eq, not_or, Bool.not_eq_true] at hquoted
    obtain ⟨⟨hne, hhash⟩, hbare⟩ := hquoted
    have hall : ∀ c ∈ arg, isBare c = true := by
      intro c hc
      have hno := any_eq_false.1 hbare c hc
      simp only [Bool.or_eq_true, beq_iff_eq, not_or] at hno
      simp [isBare, isBlank, hno]
    have hin := scan_quoteChars false (.inr hall) hafter
    simp only [openQuote, Bool.false_eq_true, if_false, nil_append] at hin
    obtain ⟨c, s, rfl⟩ := exists_cons_of_ne_nil hne
    have hc := hall c mem_cons_self
    simp only [isBare, Bool.and_eq_true, Bool.not_eq_true', bne_iff_ne] at hc
    obtain ⟨t, ht⟩ := quoteChars_head false s hc.2
    rw [ht] at hin ⊢
    rw [cons_append] at hin ⊢
    rw [scan_none_start hc.1.1 (by simpa using hhash), hin]
    rfl

/-- **An argument that was written is read back.** -/
theorem argvSplit_quote (arg : Text) : argvSplit true (quote arg) = some [arg] := by
  have h := @scan_quote arg [] _ rfl
  rw [append_nil] at h
  rw [argvSplit, h]
  rfl

end OpenSSHServerPN.SshdConfig
