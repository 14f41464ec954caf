/-
Windows command lines: how a program splits its own, and arguments written so that they are read back.

`readArg` has the rules of `CommandLineToArgvW`. Before a quotation mark 2n backslashes stand for n, and the mark begins or
ends a quoted part; 2n + 1 stand for n, and the mark for itself. Other backslashes stand for themselves, and a blank outside
of quoted parts ends the argument. `escape k` writes an argument so; a backslash at its end is written `k` times. The rules:
- `readArg_escape`: an escaped argument is read back if what follows it reads the backslashes at its end right;
- `argv_words`: a line of words that are each read back gives the program and the arguments, without those that are
  written as nothing;
- `flatten_readArgs`, `kept_escape`: all that is read of a line, in any state of the reader.
-/
import Mathlib.Tactic

namespace CommandLine

open List

/-- what separates arguments -/
def isBlank (c : Char) : Bool := c == ' ' || c == '\t'

/-- an argument and the text behind it, after `n` backslashes that are not settled -/
def readArg : Bool → ℕ → List Char → List Char × List Char
  | _, n, [] => (replicate n '\\', [])
  | quoted, n, c :: s =>
    if c = '\\' then readArg quoted (n + 1) s
    else if c = '"' then
      if n % 2 = 0 then
        let r := readArg (!quoted) 0 s
        (replicate (n / 2) '\\' ++ r.1, r.2)
      else
        let r := readArg quoted 0 s
        (replicate (n / 2) '\\' ++ c :: r.1, r.2)
    else if !quoted && isBlank c then (replicate n '\\', c :: s)
    else
      let r := readArg quoted 0 s
      (replicate n '\\' ++ c :: r.1, r.2)

/-- the arguments of a text, at most `fuel` of them -/
def readArgs : ℕ → List Char → List (List Char)
  | 0, _ => []
  | fuel + 1, s =>
    let t := s.dropWhile isBlank
    if t = [] then [] else (readArg false 0 t).1 :: readArgs fuel (readArg false 0 t).2

/-- the name of the program, which has no escapes, and the text behind it -/
def program (line : List Char) : List Char × List Char :=
  if line.head? = some '"' then (line.tail.takeWhile (· != '"'), (line.tail.dropWhile (· != '"')).tail)
  else (line.takeWhile (!isBlank ·), line.dropWhile (!isBlank ·))

/-- the program and its arguments; every argument takes a character -/
def argv (line : List Char) : List (List Char) := (program line).1 :: readArgs ((program line).2.length + 1) (program line).2

/-- the argument `s` behind `n` backslashes, written with escapes -/
def escape (k : ℕ) : ℕ → List Char → List Char
  | n, [] => replicate (n * k) '\\'
  | n, c :: s =>
    if c = '\\' then escape k (n + 1) s
    else if c = '"' then replicate (n * 2 + 1) '\\' ++ c :: escape k 0 s
    else replicate n '\\' ++ c :: escape k 0 s

/-- how many backslashes stand at the end of `s`, with `n` before it -/
def trailing : ℕ → List Char → ℕ
  | n, [] => n
  | n, c :: s => if c = '\\' then trailing (n + 1) s else trailing 0 s

/-- where an argument can end -/
def AtEnd (rest : List Char) : Prop := ∀ c ∈ rest.head?, isBlank c = true

/-- arguments as words, with a space before each -/
def words (write : List Char → List Char) (args : List (List Char)) : List Char := args.flatMap fun arg => ' ' :: write arg

/-! ## One argument -/

variable {k n : ℕ} {quoted : Bool} {s t rest arg : List Char}

theorem readArg_replicate (m : ℕ) : readArg quoted n (replicate m '\\' ++ s) = readArg quoted (n + m) s := by
  induction m generalizing n with
  | zero => rfl
  | succ m ih =>
    rw [replicate_succ, cons_append, readArg, if_pos rfl, ih, Nat.add_right_comm, Nat.add_assoc]

theorem readArg_escape (hs : quoted = true ∨ ∀ c ∈ s, isBlank c = false)
    (hrest : readArg quoted (trailing n s * k) rest = (replicate (trailing n s) '\\' ++ arg, t)) :
    readArg quoted 0 (escape k n s ++ rest) = (replicate n '\\' ++ s ++ arg, t) := by
  -- the writer has the `n` backslashes still to write, the reader has seen none of them
  induction s generalizing n with
  | nil =>
    rw [escape, readArg_replicate, Nat.zero_add, append_nil]
    exact hrest
  | cons c s ih =>
    have hs' : quoted = true ∨ ∀ c ∈ s, isBlank c = false := hs.imp_right fun h d hd => h d (mem_cons_of_mem c hd)
    rw [trailing] at hrest
    rw [escape]
    split_ifs at hrest ⊢ with hc hq
    · rw [ih hs' hrest, hc]
      simp [replicate_succ']
    · rw [append_assoc, readArg_replicate, cons_append, readArg, if_neg hc, if_pos hq, if_neg (by omega), ih hs' hrest,
        show (0 + (n * 2 + 1)) / 2 = n by omega]
      simp
    · have hb : (!quoted && isBlank c) = false := by
        rcases hs with rfl | hs
        · rfl
        · rw [hs c mem_cons_self, Bool.and_false]
      rw [append_assoc, readArg_replicate, cons_append, readArg, if_neg hc, if_neg hq, hb, if_neg Bool.false_ne_true,
        ih hs' hrest, Nat.zero_add]
      simp

/-- a written word is read as `arg` before a blank and at the end of the line -/
structure Reads (word arg : List Char) : Prop where
  start : ∃ c ∈ word.head?, isBlank c = false
  read : ∀ {rest}, AtEnd rest → readArg false 0 (word ++ rest) = (arg, rest)

theorem blank_plain {c : Char} (h : isBlank c = true) : c ≠ '\\' ∧ c ≠ '"' := by
  constructor <;>
  · rintro rfl
    exact absurd h (by decide)

theorem readArg_end (h : AtEnd rest) (n : ℕ) : readArg false n rest = (replicate n '\\', rest) := by
  cases rest with
  | nil => rfl
  | cons c s =>
    have hb : isBlank c = true := h c rfl
    have hc := blank_plain hb
    rw [readArg, if_neg hc.1, if_neg hc.2, hb]
    rfl

/-- an argument without blanks needs no quotation marks -/
theorem Reads.bare (hne : s ≠ []) (hs : ∀ c ∈ s, isBlank c = false) : Reads (escape 1 0 s) s := by
  have hread : ∀ {rest}, AtEnd rest → readArg false 0 (escape 1 0 s ++ rest) = (s, rest) := by
    intro rest hrest
    have hend : readArg false (trailing 0 s * 1) rest = (replicate (trailing 0 s) '\\' ++ [], rest) := by
      simpa using readArg_end hrest (trailing 0 s)
    simpa using readArg_escape (.inr hs) hend
  refine ⟨?_, hread⟩
  by_contra hstart
  -- a word that starts with a blank would be read as the empty argument
  have hempty := readArg_end (fun c hc => eq_true_of_ne_false fun hb => hstart ⟨c, hc, hb⟩) 0
  have hs := @hread [] nofun
  rw [append_nil, hempty] at hs
  exact hne (congrArg Prod.fst hs).symm

/-- in quotation marks any argument can be written, if the backslashes at its end do not escape the closing one -/
theorem Reads.inQuotes (h : k = 2 ∨ trailing 0 s = 0) : Reads ('"' :: escape k 0 s ++ ['"']) s := by
  refine ⟨⟨_, rfl, rfl⟩, fun {rest} hrest => ?_⟩
  have hend : trailing 0 s * k = trailing 0 s * 2 := by
    rcases h with rfl | h
    · rfl
    · rw [h, Nat.zero_mul, Nat.zero_mul]
  have hclose : readArg true (trailing 0 s * k) ('"' :: rest) = (replicate (trailing 0 s) '\\' ++ [], rest) := by
    simp [hend, readArg, readArg_end hrest]
  rw [cons_append, cons_append, append_assoc, readArg, if_neg (by decide), if_pos rfl, if_pos rfl]
  simpa using readArg_escape (.inl rfl) hclose

/-! ## The line -/

variable {write : List Char → List Char} {args : List (List Char)}

theorem words_atEnd : AtEnd (words write args) := by
  cases args <;> simp [AtEnd, words, isBlank]

/-- words are read back, and an empty one leaves no trace -/
theorem readArgs_words (h : ∀ arg ∈ args, write arg ≠ [] → Reads (write arg) arg) {fuel : ℕ}
    (hfuel : args.length < fuel) : readArgs fuel (words write args) = args.filter (write · ≠ []) := by
  induction args generalizing fuel with
  | nil => cases fuel <;> rfl
  | cons arg args ih =>
    obtain ⟨fuel, rfl⟩ : ∃ m, fuel = m + 1 := ⟨fuel - 1, by omega⟩
    have hrest := fun a ha => h a (mem_cons_of_mem arg ha)
    rw [length_cons] at hfuel
    by_cases hempty : write arg = []
    · have hskip : (words write (arg :: args)).dropWhile isBlank = (words write args).dropWhile isBlank := by
        rw [words, flatMap_cons, hempty, cons_append, nil_append, dropWhile_cons_of_pos rfl, words]
      rw [filter_cons_of_neg (by simp [hempty]), ← ih hrest (show args.length < fuel + 1 by omega), readArgs, readArgs, hskip]
    · have hword := h arg mem_cons_self hempty
      obtain ⟨c, hcs, hc⟩ := hword.start
      obtain ⟨s, hcs⟩ := head?_eq_some_iff.1 hcs
      have hskip : (words write (arg :: args)).dropWhile isBlank = write arg ++ words write args := by
        simp [words, hcs, hc, show isBlank ' ' = true from rfl]
      rw [readArgs, hskip, if_neg (by simp [hcs]), hword.read words_atEnd, ih hrest (by omega),
        filter_cons_of_pos (by simpa using hempty)]

/-- a text that is read as the name of a program, before a blank and at the end of the line -/
structure ProgramName where
  token : List Char
  name : List Char
  read : ∀ {rest}, AtEnd rest → program (token ++ rest) = (name, rest)

theorem argv_words (p : ProgramName) (h : ∀ arg ∈ args, write arg ≠ [] → Reads (write arg) arg) :
    argv (p.token ++ words write args) = p.name :: args.filter (write · ≠ []) := by
  have hlen : args.length ≤ (words write args).length := by
    rw [words, length_flatMap]
    exact le_of_eq_of_le (length_map _).symm (length_le_sum_of_one_le _ (by simp))
  rw [argv, p.read words_atEnd, readArgs_words h (Nat.lt_succ_of_le hlen)]

/-- a name in quotation marks -/
def ProgramName.inQuotes (name : List Char) (h : '"' ∉ name) : ProgramName where
  token := '"' :: name ++ ['"']
  name := name
  read _ := by
    have hall : ∀ c ∈ name, (c != '"') = true := fun c hc => bne_iff_ne.2 (ne_of_mem_of_not_mem hc h)
    simp [program, takeWhile_append_of_pos hall, dropWhile_append_of_pos hall]

/-! ## All that is read -/

/-- a character that does not end the argument -/
def stays (quoted : Bool) (c : Char) : Bool := quoted || !isBlank c

/-- everything that is read from a state on, without the blanks between arguments -/
def kept : Bool → ℕ → List Char → List Char
  | _, n, [] => replicate n '\\'
  | quoted, n, c :: s =>
    if c = '\\' then kept quoted (n + 1) s
    else if c = '"' then
      replicate (n / 2) '\\' ++ if n % 2 = 0 then kept (!quoted) 0 s else c :: kept quoted 0 s
    else replicate n '\\' ++ ((if stays quoted c then [c] else []) ++ kept quoted 0 s)

theorem readArg_kept : (readArg quoted n s).1 ++ kept false 0 (readArg quoted n s).2 = kept quoted n s := by
  induction s generalizing quoted n with
  | nil => simp [readArg, kept]
  | cons c s ih =>
    have hstays : (!quoted && isBlank c) = !stays quoted c := by rw [stays, Bool.not_or, Bool.not_not]
    rw [readArg, kept, hstays]
    by_cases hc : c = '\\'
    · rw [if_pos hc, if_pos hc, ih]
    rw [if_neg hc, if_neg hc]
    by_cases hq : c = '"'
    · rw [if_pos hq, if_pos hq]
      split_ifs
      · rw [append_assoc, ih]
      · rw [append_assoc, cons_append, ih]
    rw [if_neg hq, if_neg hq]
    cases hs : stays quoted c with
    | true => simp [ih]
    | false =>
      obtain ⟨rfl, hblank⟩ : quoted = false ∧ isBlank c = true := by simpa [stays] using hs
      simp [kept, hc, hq, hs]

theorem kept_dropWhile (s : List Char) : kept false 0 (s.dropWhile isBlank) = kept false 0 s := by
  induction s with
  | nil => rfl
  | cons c s ih =>
    by_cases hb : isBlank c = true
    · have hc := blank_plain hb
      rw [dropWhile_cons_of_pos hb, ih, kept, if_neg hc.1, if_neg hc.2, stays, hb]
      rfl
    · rw [dropWhile_cons_of_neg hb]

/-- the arguments are a beginning of all that is read -/
theorem flatten_readArgs (fuel : ℕ) (s : List Char) : (readArgs fuel s).flatten <+: kept false 0 s := by
  induction fuel generalizing s with
  | zero => exact nil_prefix
  | succ fuel ih =>
    rw [readArgs, ← kept_dropWhile]
    split_ifs
    · exact nil_prefix
    · rw [flatten_cons, ← readArg_kept]
      exact (prefix_append_right_inj _).2 (ih _)

theorem kept_replicate (m : ℕ) : kept quoted n (replicate m '\\' ++ s) = kept quoted (n + m) s := by
  induction m generalizing n with
  | zero => rfl
  | succ m ih =>
    rw [replicate_succ, cons_append, kept, if_pos rfl, ih, Nat.add_right_comm, Nat.add_assoc]

/-- **An escaped argument in any state**: all of it is read but the backslashes at its end, which are up to what follows,
and without its blanks outside of quoted parts. -/
theorem kept_escape (quoted : Bool) (n : ℕ) (s rest : List Char) :
    ∃ body, replicate n '\\' ++ s.filter (stays quoted) = body ++ replicate (trailing n s) '\\' ∧
      kept quoted 0 (escape 1 n s ++ rest) = body ++ kept quoted (trailing n s) rest := by
  induction s generalizing n with
  | nil => exact ⟨[], by simp [trailing], by rw [escape, Nat.mul_one, kept_replicate, Nat.zero_add]; rfl⟩
  | cons c s ih =>
    rw [escape, trailing]
    split_ifs with hc hq
    · obtain ⟨body, hbody, hkept⟩ := ih (n + 1)
      have hkeep : stays quoted c = true := by
        rw [hc]
        cases quoted <;> rfl
      refine ⟨body, ?_, hkept⟩
      rw [← hbody, filter_cons_of_pos hkeep, hc, replicate_succ', append_assoc]
      rfl
    · obtain ⟨body, hbody, hkept⟩ := ih 0
      have hkeep : stays quoted c = true := by
        rw [hq]
        cases quoted <;> rfl
      refine ⟨replicate n '\\' ++ c :: body, ?_, ?_⟩
      · rw [filter_cons_of_pos hkeep, append_assoc, cons_append, ← hbody]
        rfl
      · rw [append_assoc, kept_replicate, cons_append, kept, if_neg hc, if_pos hq, if_neg (by omega), hkept,
          show (0 + (n * 2 + 1)) / 2 = n by omega, append_assoc, cons_append]
    · obtain ⟨body, hbody, hkept⟩ := ih 0
      refine ⟨replicate n '\\' ++ ((if stays quoted c then [c] else []) ++ body), ?_, ?_⟩
      · rw [filter_cons, append_assoc, append_assoc, ← hbody]
        split_ifs <;> rfl
      · rw [append_assoc, kept_replicate, cons_append, kept, if_neg hc, if_neg hq, hkept, Nat.zero_add, append_assoc,
          append_assoc]

theorem kept_end (h : AtEnd rest) (quoted : Bool) (n : ℕ) : kept quoted n rest = replicate n '\\' ++ kept quoted 0 rest := by
  cases rest with
  | nil => simp [kept]
  | cons c s =>
    have hb : isBlank c = true := h c rfl
    have hc := blank_plain hb
    simp [kept, hc]

end CommandLine
