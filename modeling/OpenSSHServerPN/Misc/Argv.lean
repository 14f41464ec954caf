/-
Words of a configuration line (`misc.c`: `strdelim`, `argv_split`, `argv_assemble`).

Model: `strdelim` takes the keyword off a line, `argvSplit` splits what follows into arguments with quotes, escapes and
comments. `scan` is the double loop of `argv_split` as one pass: its state is the position between two arguments, or inside
one with the quotation mark that is open.

Results:
- `argvSplit_plain`: without quotation marks, backslashes and `#` the arguments are the words between blanks;
- `strdelim_keyword`: a keyword and a space in front of the arguments is taken off;
- `argv_round_trip_iff`: arguments that are assembled and split again come back, unless one is empty (`argv_empty_lost`).
-/
import OpenSSHServerPN.Match.Pattern

namespace OpenSSHServerPN.Argv

open List

/-! ## The keyword -/

/-- `WHITESPACE` -/
def isWhite (c : Char) : Bool := c == ' ' || c == '\t' || c == '\r' || c == '\n'

def skipWhite (s : Text) : Text := s.dropWhile isWhite

/-- `strdelim`: the next token and what follows it; `none` is a null pointer -/
def strdelim (s : Text) : Option Text × Option Text :=
  let isDelim := fun c => isWhite c || c == '"' || c == '='
  let token := s.takeWhile fun c => !isDelim c
  match s.dropWhile fun c => !isDelim c with
  | [] => (some s, none)
  | '"' :: rest =>
    -- the quoted part is joined to what stands before it
    match rest.dropWhile (· != '"') with
    | [] => (none, none)
    | _ :: rest' => (some (token ++ rest.takeWhile (· != '"')), some (skipWhite rest'))
  | d :: rest =>
    match skipWhite rest with
    | '=' :: rest' => (some token, some (if d == '=' then '=' :: rest' else skipWhite rest'))
    | rest' => (some token, some rest')

/-- a character of a keyword -/
def isKeyChar (c : Char) : Bool := !isWhite c && c != '"' && c != '=' && c != '#'

variable {s : Text} {c : Char} {r : Text × List Text} {k : Bool}

theorem strdelim_keyword {kw : Text} (hkw : ∀ c ∈ kw, isKeyChar c = true) (hs : s.head? = some c)
    (hwhite : isWhite c = false) (heq : c ≠ '=') : strdelim (kw ++ ' ' :: s) = (some kw, some s) := by
  obtain ⟨s', rfl⟩ := head?_eq_some_iff.1 hs
  have hnot : ∀ d ∈ kw, (!(isWhite d || d == '"' || d == '=')) = true := by
    intro d hd
    have hkey := hkw d hd
    simp only [isKeyChar, Bool.and_eq_true, bne_iff_ne] at hkey
    simp [hkey]
  have hskip : skipWhite (c :: s') = c :: s' := by simp [skipWhite, hwhite]
  have hspace : (!(isWhite ' ' || ' ' == '"' || ' ' == '=')) = false := by decide
  unfold strdelim
  simp only [takeWhile_append_of_pos hnot, dropWhile_append_of_pos hnot, takeWhile_cons, dropWhile_cons,
    hspace, Bool.false_eq_true, if_false, append_nil]
  split
  · rename_i h
    simp at h
  · rename_i h
    simp at h
  rename_i d rest _ h
  obtain ⟨rfl, rfl⟩ := h
  rw [hskip]
  split
  · rename_i h
    exact absurd (cons.inj h).1 heq
  · rfl

/-! ## The arguments -/

def isBlank (c : Char) : Bool := c == ' ' || c == '\t'

/-- the characters a backslash protects -/
def escapes (quote : Option Char) (c : Char) : Bool := c == '\'' || c == '"' || c == '\\' || (quote.isNone && c == ' ')

/-- closes the argument that is being read, if the text before was between two arguments -/
def close (st : Option (Option Char)) (r : Option (Text × List Text)) : Option (Text × List Text) :=
  match st with
  | none => r.map fun p => ([], p.1 :: p.2)
  | some _ => r

/-- puts a character in front of the argument that is being read -/
def push (c : Char) (r : Option (Text × List Text)) : Option (Text × List Text) := r.map fun p => (c :: p.1, p.2)

/-- the loops of `argv_split`: the rest of the current argument and the arguments that follow; `k` is
`terminate_on_comment` -/
def scan (k : Bool) : Option (Option Char) → Text → Option (Text × List Text)
  | some (some _), [] => none
  | _, [] => some ([], [])
  | st, '\\' :: d :: s =>
    let quote := st.getD none
    close st (if escapes quote d then push d (scan k (some quote) s) else push '\\' (scan k (some quote) (d :: s)))
  | none, c :: s =>
    if isBlank c then scan k none s
    else if k ∧ c = '#' then some ([], [])
    else if c = '"' ∨ c = '\'' then close none (scan k (some (some c)) s)
    else close none (push c (scan k (some none) s))
  | some none, c :: s =>
    if isBlank c then scan k none s
    else if c = '"' ∨ c = '\'' then scan k (some (some c)) s
    else push c (scan k (some none) s)
  | some (some q), c :: s => if c = q then scan k (some none) s else push c (scan k (some (some q)) s)

/-- `argv_split`; `none`: a quotation mark is not closed -/
def argvSplit (terminateOnComment : Bool) (s : Text) : Option (List Text) := (scan terminateOnComment none s).map (·.2)

example : argvSplit true "a \"b c\" d\\e x\\\\ 'it\\'s' #f" =
    some ["a".toList, "b c".toList, "d\\e".toList, "x\\".toList, "it's".toList] := by decide

/-! ## Step by step -/

/-- the rest of an argument and the arguments behind it -/
abbrev Scanned := Option (Text × List Text)

theorem scan_step (hc : c ≠ '\\') (s : Text) :
    (scan k none (c :: s) = if isBlank c then scan k none s else if k ∧ c = '#' then some ([], [])
      else if c = '"' ∨ c = '\'' then close none (scan k (some (some c)) s) else close none (push c (scan k (some none) s))) ∧
    (scan k (some none) (c :: s) = if isBlank c then scan k none s
      else if c = '"' ∨ c = '\'' then scan k (some (some c)) s else push c (scan k (some none) s)) ∧
    ∀ q, scan k (some (some q)) (c :: s) = if c = q then scan k (some none) s else push c (scan k (some (some q)) s) := by
  cases s <;> simp [scan, hc]

variable (st : Option (Option Char))

theorem scan_backslash_cons (d : Char) (s : Text) :
    scan k st ('\\' :: d :: s) = close st (if escapes (st.getD none) d then push d (scan k (some (st.getD none)) s)
      else push '\\' (scan k (some (st.getD none)) (d :: s))) := by
  match st with
  | none => rfl
  | some none => rfl
  | some (some q) => rfl

theorem close_fst {x : Scanned} (h : close none x = some r) : r.1 = [] := by
  obtain ⟨p, -, rfl⟩ := Option.map_eq_some_iff.1 h
  rfl

/-- between two arguments nothing is left of the one before -/
theorem scan_none_fst (h : scan k none s = some r) : r.1 = [] := by
  induction s with
  | nil =>
    obtain rfl : ([], []) = r := Option.some.inj h
    rfl
  | cons c s ih =>
    by_cases hc : c = '\\'
    · subst hc
      cases s with
      | nil => exact close_fst (x := push '\\' (scan k (some none) [])) (by cases k <;> exact h)
      | cons d t =>
        exact close_fst h
    · rw [(scan_step hc s).1] at h
      split_ifs at h with hquote
      · exact ih h
      · obtain rfl : ([], []) = r := Option.some.inj h
        rfl
      · exact close_fst h
      · exact close_fst h

/-- an argument starts with any character but a blank and the `#` of a comment -/
theorem scan_none_start (hblank : isBlank c = false) (hhash : ¬(k = true ∧ c = '#')) (s : Text) :
    scan k none (c :: s) = close none (scan k (some none) (c :: s)) := by
  by_cases hc : c = '\\'
  · subst hc
    cases s with
    | nil => cases k <;> rfl
    | cons => rfl
  · rw [(scan_step hc s).1, (scan_step hc s).2.1]
    simp only [hblank, hhash, Bool.false_eq_true, if_false]
    split_ifs <;> rfl

/-! ## Plain texts -/

/-- a character without a meaning of its own -/
def isPlain (c : Char) : Bool := c != '\\' && c != '"' && c != '\'' && c != '#'

/-- a character that is part of an argument wherever it stands outside quotation marks -/
def isWordChar (c : Char) : Bool := isPlain c && !isBlank c

theorem scan_cons_word (h : isWordChar c = true) (s : Text) :
    scan k none (c :: s) = close none (push c (scan k (some none) s)) ∧
      scan k (some none) (c :: s) = push c (scan k (some none) s) := by
  simp only [isWordChar, isPlain, Bool.and_eq_true, bne_iff_ne, Bool.not_eq_true'] at h
  obtain ⟨⟨⟨⟨hb, hd⟩, hq⟩, hc⟩, hblank⟩ := h
  constructor
  · simp [(scan_step hb s).1, hd, hq, hc, hblank]
  · simp [(scan_step hb s).2.1, hd, hq, hblank]

theorem scan_cons_blank (h : isBlank c = true) (s : Text) :
    scan k none (c :: s) = scan k none s ∧ scan k (some none) (c :: s) = scan k none s := by
  have hb : c ≠ '\\' := by
    rintro rfl
    exact absurd h (by decide)
  constructor
  · rw [(scan_step hb s).1, if_pos h]
  · rw [(scan_step hb s).2.1, if_pos h]

theorem plain_cases (h : isPlain c = true) : isBlank c = true ∨ isWordChar c = true := by
  by_cases hb : isBlank c = true
  · exact .inl hb
  · exact .inr (by simp [isWordChar, h, hb])

theorem scan_plain (h : ∀ c ∈ s, isPlain c = true) :
    ∃ t ws, s.splitOnP isBlank = t :: ws ∧ scan k (some none) s = some (t, ws.filter (· != [])) ∧
      scan k none s = some ([], (t :: ws).filter (· != [])) := by
  induction s with
  | nil => exact ⟨[], [], rfl, rfl, rfl⟩
  | cons c s ih =>
    obtain ⟨t, ws, hsplit, hin, hbetween⟩ := ih fun d hd => h d (mem_cons_of_mem c hd)
    rw [splitOnP_cons_eq_if_modifyHead, hsplit]
    rcases plain_cases (h c mem_cons_self) with hc | hc
    · refine ⟨[], t :: ws, by simp [hc], ?_, ?_⟩
      · rw [(scan_cons_blank hc s).2, hbetween]
      · rw [(scan_cons_blank hc s).1, hbetween]
        rfl
    · have hblank : isBlank c = false := by
        simp only [isWordChar, Bool.and_eq_true, Bool.not_eq_true'] at hc
        exact hc.2
      refine ⟨c :: t, ws, by simp [hblank], ?_, ?_⟩
      · rw [(scan_cons_word hc s).2, hin]
        rfl
      · rw [(scan_cons_word hc s).1, hin]
        rfl

/-- **Plain texts.** Without quotation marks, backslashes and `#` the arguments are the words between blanks. -/
theorem argvSplit_plain (h : ∀ c ∈ s, isPlain c = true) :
    argvSplit k s = some ((s.splitOnP isBlank).filter (· != [])) := by
  obtain ⟨t, ws, hsplit, -, hbetween⟩ := scan_plain h
  rw [argvSplit, hbetween, hsplit]
  rfl

variable {args : List Text}

/-! ## Assembly -/

/-- a character that `argv_assemble` puts a backslash before -/
def isProtected (c : Char) : Bool := c == '\\' || c == '\'' || c == '"'

def escapeArg (arg : Text) : Text := arg.flatMap fun c => if isProtected c then ['\\', c] else [c]

def assembleArg (arg : Text) : Text :=
  if arg.any isBlank then '"' :: (escapeArg arg ++ ['"']) else escapeArg arg

/-- `argv_assemble` -/
def argvAssemble (args : List Text) : Text := [' '].intercalate (args.map assembleArg)

variable {quote : Option Char}

/-- one character of an argument, as it is assembled -/
theorem scan_char (hq : quote = none ∨ quote = some '"') {c : Char}
    (hc : quote = none → isBlank c = false) (s : Text) :
    scan false (some quote) ((if isProtected c then ['\\', c] else [c]) ++ s) = push c (scan false (some quote) s) := by
  by_cases hp : isProtected c = true
  · have he : escapes quote c = true := by
      simp only [isProtected, Bool.or_eq_true] at hp
      simp only [escapes, Bool.or_eq_true]
      tauto
    rw [if_pos hp]
    rcases hq with rfl | rfl <;> exact if_pos he
  · simp only [isProtected, Bool.or_eq_true, beq_iff_eq, not_or] at hp
    obtain ⟨⟨hb, hs⟩, hd⟩ := hp
    rcases hq with rfl | rfl
    · cases s <;> simp [isProtected, scan, hb, hs, hd, hc rfl]
    · cases s <;> simp [isProtected, scan, hb, hs, hd]

theorem scan_escapeArg (hq : quote = none ∨ quote = some '"') {arg : Text}
    (harg : quote = none → ∀ c ∈ arg, isBlank c = false) (s : Text) :
    scan false (some quote) (escapeArg arg ++ s) = (scan false (some quote) s).map fun p => (arg ++ p.1, p.2) := by
  induction arg with
  | nil => exact (congrFun Option.map_id _).symm
  | cons c arg ih =>
    rw [escapeArg, flatMap_cons, append_assoc, scan_char hq fun h => harg h c mem_cons_self,
      ← escapeArg, ih fun h d hd => harg h d (mem_cons_of_mem c hd), push, Option.map_map]
    rfl

theorem scan_escapeArg_start {c : Char} (hc : isBlank c = false) (arg s : Text) :
    scan false none (escapeArg (c :: arg) ++ s) = close none (scan false (some none) (escapeArg (c :: arg) ++ s)) := by
  rw [escapeArg, flatMap_cons]
  split
  · exact scan_none_start (k := false) rfl nofun _
  · exact scan_none_start (k := false) hc nofun _

/-- an argument in front of a text that ends it; an empty one leaves no trace -/
theorem scan_assembleArg (arg : Text) {s : Text} (hin : scan false (some none) s = some ([], args))
    (hbetween : scan false none s = some ([], args)) :
    scan false none (assembleArg arg ++ s) = some ([], if arg ≠ [] then arg :: args else args) := by
  unfold assembleArg
  split
  · next hany =>
    have hne : arg ≠ [] := by
      rintro rfl
      cases hany
    have hquote : ∀ t, scan false none ('"' :: t) = close none (scan false (some (some '"')) t) := fun t => by cases t <;> rfl
    have hend : scan false (some (some '"')) ('"' :: s) = scan false (some none) s := by cases s <;> rfl
    rw [cons_append, append_assoc, hquote, scan_escapeArg (.inr rfl) nofun, singleton_append, hend, hin, if_pos hne]
    simp [close]
  · next hany =>
    have hblank : ∀ c ∈ arg, isBlank c = false := by simpa using hany
    cases arg with
    | nil => exact hbetween
    | cons c arg =>
      rw [scan_escapeArg_start (hblank c mem_cons_self), scan_escapeArg (.inl rfl) fun _ => hblank, hin]
      simp [close]

theorem scan_argvAssemble (args : List Text) :
    scan false none (argvAssemble args) = some ([], args.filter (· ≠ [])) := by
  induction args with
  | nil => rfl
  | cons arg args ih =>
    rw [filter_cons]
    simp only [decide_eq_true_eq]
    cases args with
    | nil => exact scan_assembleArg arg rfl rfl
    | cons b args =>
      have hspace : ∀ st, st = none ∨ st = some none → ∀ t, scan false st (' ' :: t) = scan false none t := by
        rintro _ (rfl | rfl) t <;> cases t <;> rfl
      exact scan_assembleArg arg ((hspace _ (.inr rfl) _).trans ih)
        ((hspace _ (.inl rfl) _).trans ih)

/-- **Split after assembly.** The arguments come back exactly when none is empty. -/
theorem argv_round_trip_iff (args : List Text) :
    argvSplit false (argvAssemble args) = some args ↔ ∀ arg ∈ args, arg ≠ [] := by
  rw [argvSplit, scan_argvAssemble]
  simp

/-- an empty argument between two others -/
theorem argv_empty_lost : argvSplit false (argvAssemble ["a".toList, [], "b".toList]) = some ["a".toList, "b".toList] := by decide

end OpenSSHServerPN.Argv
