/-
The command lines the manager and win32compat write (`Platform.cs`: `Proc.Quote`; `misc.c`: `build_commandline_string`).

Model: both loops are `escape`, which counts the backslashes before a character. The manager's doubles those at the end,
the other one leaves them. The paths of the tests under bash are not modelled.

Results: `argv_quote`, and `argv_build`, an equivalence. A closing quotation mark takes half of the backslashes before it, in
whatever state the reader is, so the backslashes that are read back tell whether one was lost; then the blanks tell whether
an argument was cut, and the number of arguments whether one was empty.
-/
import OpenSSHServerPN.Lib.CommandLine
import OpenSSHServerPN.Lib.Scan
import OpenSSHServerPN.Servconf.Parse

namespace OpenSSHServerPN.CommandLines

open CommandLine Servconf List

/-! ## Model -/

/-- `Proc.Quote` -/
def quote (arg : Text) : Text :=
  if arg ≠ [] ∧ (∀ c ∈ arg, isBlank c = false) ∧ '"' ∉ arg then arg else '"' :: escape 2 0 arg ++ ['"']

/-- whether `build_commandline_string` puts an argument in quotation marks -/
def addQuotes (arg : Text) : Bool := arg.head? != some '\'' && arg.contains ' '

/-- an argument as it writes it -/
def buildArg (arg : Text) : Text := if addQuotes arg then '"' :: escape 1 0 arg ++ ['"'] else escape 1 0 arg

/-- where it ends the program name: the first space after the first `.exe` -/
def exeSplit (path : Text) : Option (Text × Text) :=
  (Scan.firstSplit ".exe" path).bind fun p =>
    if ' ' ∈ p.2 then some (p.1 ++ ".exe" ++ p.2.takeWhile (· != ' '), p.2.dropWhile (· != ' ')) else none

/-- the name of the program as it writes it, behind the first quotation mark -/
def buildPath (path : Text) : Text :=
  if path.head? = some '"' then path.tail
  else (exeSplit path).elim (path ++ ['"']) fun p => p.1 ++ '"' :: p.2

/-- `build_commandline_string` -/
def buildCommandlineString (progdir cmd : Text) (argv : List Text) (prependModulePath : Bool) : Text :=
  '"' :: (if !isAbsolutePath cmd && prependModulePath then progdir ++ ['\\'] else []) ++ buildPath cmd ++
    words buildArg argv

/-! ## Read back -/

theorem escape_bare {s : Text} (hs : '"' ∉ s) (n : ℕ) : escape 1 n s = replicate n '\\' ++ s := by
  induction s generalizing n with
  | nil => rw [escape, Nat.mul_one, append_nil]
  | cons c s ih =>
    have ih := ih fun h => hs (mem_cons_of_mem c h)
    rw [escape]
    split_ifs with hc hq
    · rw [ih, hc, replicate_succ', append_assoc]
      rfl
    · exact absurd (hq ▸ mem_cons_self) hs
    · rw [ih]
      rfl

theorem quote_reads (arg : Text) : Reads (quote arg) arg := by
  unfold quote
  split_ifs with h
  · simpa [escape_bare h.2.2] using Reads.bare h.1 h.2.1
  · exact Reads.inQuotes (.inl rfl)

/-- **Arguments the manager writes are read back.** -/
theorem argv_quote (p : ProgramName) (args : List Text) :
    argv ([' '].intercalate (p.token :: args.map quote)) = p.name :: args := by
  have hjoin : ∀ word, [' '].intercalate (word :: args.map quote) = word ++ words quote args := by
    induction args with
    | nil => simp [words]
    | cons arg args ih =>
      intro word
      simpa [words, intercalate_cons_cons] using ih (quote arg)
  have hkept : args.filter (quote · ≠ []) = args := filter_eq_self.2 fun arg _ => by
    obtain ⟨c, hc, -⟩ := (quote_reads arg).start
    exact decide_eq_true fun h => by simp [h] at hc
  rw [hjoin, argv_words p fun arg _ _ => quote_reads arg, hkept]

/-- an argument `build_commandline_string` writes so that it is read back -/
abbrev ReadBack (arg : Text) : Prop :=
  if addQuotes arg then trailing 0 arg = 0 else arg ≠ [] ∧ ∀ c ∈ arg, isBlank c = false

theorem buildArg_reads {arg : Text} (h : ReadBack arg) : Reads (buildArg arg) arg := by
  unfold buildArg
  split_ifs at h ⊢ with hq
  · exact Reads.inQuotes (.inr h)
  · exact Reads.bare h.1 h.2

/-! ## What is lost -/

/-- the backslashes at the end of an argument that its closing quotation mark takes -/
def lost (arg : Text) : ℕ := if addQuotes arg then trailing 0 arg - trailing 0 arg / 2 else 0

theorem count_kept_space (quoted : Bool) (t : Text) : (kept quoted 0 (' ' :: t)).count '\\' = (kept quoted 0 t).count '\\' := by
  rw [kept, if_neg (by decide), if_neg (by decide)]
  split_ifs <;> rfl

/-- **Backslashes.** In any state of the reader these are not read back, and all others are. -/
theorem count_kept_words (quoted : Bool) (args : List Text) :
    (kept quoted 0 (words buildArg args)).count '\\' + (args.map lost).sum = (args.map (count '\\')).sum := by
  have hall : ∀ (q : Bool) (arg : Text), (arg.filter (stays q)).count '\\' = arg.count '\\' := fun q arg =>
    count_filter (by cases q <;> rfl)
  induction args generalizing quoted with
  | nil => rfl
  | cons arg args ih =>
    rw [words, flatMap_cons, cons_append, count_kept_space, ← words, map_cons, map_cons, sum_cons, sum_cons, lost, buildArg]
    split_ifs with hq
    · -- the closing mark takes the backslashes before it, whether it closes or not
      obtain ⟨body, hbody, hkept⟩ := kept_escape (!quoted) 0 arg ('"' :: words buildArg args)
      have hcount := congrArg (count '\\') hbody
      simp only [replicate_zero, nil_append, hall, count_append, count_replicate_self] at hcount
      have hclose : (kept (!quoted) (trailing 0 arg) ('"' :: words buildArg args)).count '\\' + (args.map lost).sum =
          trailing 0 arg / 2 + (args.map (count '\\')).sum := by
        rw [kept, if_neg (by decide), if_pos rfl, count_append, count_replicate_self]
        split_ifs
        · rw [Bool.not_not, Nat.add_assoc, ih]
        · rw [count_cons_of_ne (by decide), Nat.add_assoc, ih]
      rw [cons_append, cons_append, append_assoc, singleton_append, kept, if_neg (by decide), if_pos rfl]
      simp only [Nat.zero_div, Nat.zero_mod, replicate_zero, nil_append, if_true, hkept, count_append]
      omega
    · obtain ⟨body, hbody, hkept⟩ := kept_escape quoted 0 arg (words buildArg args)
      have hcount := congrArg (count '\\') hbody
      simp only [replicate_zero, nil_append, hall, count_append, count_replicate_self] at hcount
      have hrest := ih quoted
      rw [hkept, kept_end words_atEnd, count_append, count_append, count_replicate_self]
      omega

/-- **All that is read**, if no backslash is lost: an argument without quotation marks loses its blanks. -/
theorem kept_words {args : List Text} (h : ∀ arg ∈ args, addQuotes arg = true → trailing 0 arg = 0) :
    kept false 0 (words buildArg args) = args.flatMap fun arg => arg.filter (stays (addQuotes arg)) := by
  induction args with
  | nil => rfl
  | cons arg args ih =>
    have hspace : ∀ t, kept false 0 (' ' :: t) = kept false 0 t := fun _ => rfl
    rw [words, flatMap_cons, flatMap_cons, cons_append, hspace, ← words, buildArg,
      ← ih fun a ha => h a (mem_cons_of_mem arg ha)]
    cases hq : addQuotes arg with
    | true =>
      obtain ⟨body, hbody, hkept⟩ := kept_escape true 0 arg ('"' :: words buildArg args)
      rw [h arg mem_cons_self hq] at hbody hkept
      simp only [replicate_zero, nil_append, append_nil] at hbody
      rw [if_pos rfl, cons_append, cons_append, append_assoc, singleton_append, hbody]
      exact hkept
    | false =>
      obtain ⟨body, hbody, hkept⟩ := kept_escape false 0 arg (words buildArg args)
      rw [replicate_zero, nil_append] at hbody
      rw [if_neg (by decide), hkept, kept_end words_atEnd, hbody, append_assoc]

theorem readBack_of_readArgs {fuel : ℕ} {args : List Text} (h : readArgs fuel (words buildArg args) = args) :
    ∀ arg ∈ args, arg ≠ [] → ReadBack arg := by
  have hread : args.flatten <+: kept false 0 (words buildArg args) := by
    have := flatten_readArgs fuel (words buildArg args)
    rwa [h] at this
  have hclosed : ∀ arg ∈ args, addQuotes arg = true → trailing 0 arg = 0 := by
    have hslashes := hread.sublist.count_le '\\'
    rw [count_flatten] at hslashes
    have hzero : (args.map lost).sum = 0 := by
      have := count_kept_words false args
      omega
    intro arg harg hq
    have hnone := sum_eq_zero_iff.1 hzero (lost arg) (mem_map_of_mem harg)
    rw [lost, if_pos hq] at hnone
    omega
  have hblank : ∀ arg ∈ args, arg.filter (stays (addQuotes arg)) = arg := by
    by_contra hno
    push Not at hno
    obtain ⟨arg, harg, hne⟩ := hno
    have hlt : (args.map fun arg => (arg.filter (stays (addQuotes arg))).length).sum < (args.map length).sum :=
      sum_lt_sum _ _ (fun _ _ => length_filter_le _ _) ⟨arg, harg,
        lt_of_le_of_ne (length_filter_le _ _) fun heq => hne (filter_eq_self.2 (length_filter_eq_length_iff.1 heq))⟩
    have hle := hread.length_le
    rw [kept_words hclosed, length_flatMap, length_flatten] at hle
    omega
  intro arg harg hne
  unfold ReadBack
  split_ifs with hq
  · exact hclosed arg harg hq
  · refine ⟨hne, fun c hc => ?_⟩
    have hstays := filter_eq_self.1 (hblank arg harg) c hc
    simpa [stays, hq] using hstays

theorem exeSplit_eq {path pre post : Text} (h : exeSplit path = some (pre, post)) : path = pre ++ post ∧ post ≠ [] := by
  obtain ⟨⟨front, back⟩, hsplit, h⟩ := Option.bind_eq_some_iff.1 h
  split_ifs at h with hspace
  cases h
  refine ⟨?_, ?_⟩
  · rw [append_assoc, takeWhile_append_dropWhile]
    exact Scan.firstSplit_eq hsplit
  · intro hnil
    simpa using dropWhile_eq_nil_iff.1 hnil ' ' hspace

variable {path : Text} {args : List Text}

/-- a name that is cut is not read back: what is read ends before the space -/
theorem argv_cut {p : Text × Text} (hquote : '"' ∉ path) (hexe : exeSplit path = some p) (rest : Text) :
    argv ('"' :: (p.1 ++ '"' :: p.2) ++ rest) ≠ path :: args := by
  intro h
  obtain ⟨hpath, hpost⟩ := exeSplit_eq hexe
  have hpre : ∀ c ∈ p.1, (c != '"') = true := fun c hc =>
    bne_iff_ne.2 (ne_of_mem_of_not_mem (hpath ▸ mem_append_left p.2 hc) hquote)
  have hname : p.1 = path := by
    have hfirst := (cons.inj h).1
    simpa [program, takeWhile_append_of_pos hpre] using hfirst
  exact hpost (by simpa [hname] using hpath)

/-- behind any name, the arguments are read back if they are all of a kind that is kept -/
theorem argv_buildArgs (prog : ProgramName) :
    argv (prog.token ++ words buildArg args) = prog.name :: args ↔ ∀ arg ∈ args, ReadBack arg := by
  constructor
  · intro h
    have hargs : ∀ arg ∈ args, arg ≠ [] → ReadBack arg := by
      rw [argv, prog.read words_atEnd] at h
      exact readBack_of_readArgs (cons.inj h).2
    have hwritten : ∀ arg ∈ args, buildArg arg ≠ [] → Reads (buildArg arg) arg := by
      intro arg harg hne
      refine buildArg_reads (hargs arg harg ?_)
      rintro rfl
      exact hne rfl
    rw [argv_words _ hwritten] at h
    have hall := filter_eq_self.1 (cons.inj h).2
    intro arg harg
    refine hargs arg harg ?_
    rintro rfl
    exact absurd (hall [] harg) (by decide)
  · intro hargs
    have hne : args.filter (buildArg · ≠ []) = args := filter_eq_self.2 fun arg harg => by
      obtain ⟨c, hc, -⟩ := (buildArg_reads (hargs arg harg)).start
      exact decide_eq_true fun h => by simp [h] at hc
    rw [argv_words _ fun arg harg _ => buildArg_reads (hargs arg harg), hne]

/-- **Command lines of win32compat are read back** if and only if the name is not cut and every argument is of a kind that
is kept. -/
theorem argv_build (progdir : Text) {path : Text} (args : List Text) (prependModulePath : Bool)
    (habs : isAbsolutePath path = true) (hquote : '"' ∉ path) :
    argv (buildCommandlineString progdir path args prependModulePath) = path :: args ↔
      exeSplit path = none ∧ ∀ arg ∈ args, ReadBack arg := by
  have hhead : path.head? ≠ some '"' := fun h => hquote (mem_of_mem_head? h)
  have hline : buildCommandlineString progdir path args prependModulePath =
      '"' :: (exeSplit path).elim (path ++ ['"']) (fun p => p.1 ++ '"' :: p.2) ++ words buildArg args := by
    simp [buildCommandlineString, habs, buildPath, hhead]
  rw [hline]
  cases hexe : exeSplit path with
  | some p => exact iff_of_false (argv_cut hquote hexe _) (by simp)
  | none => exact (argv_buildArgs (.inQuotes path hquote)).trans (and_iff_right rfl).symm

theorem argv_build_quoted : argv (buildCommandlineString [] "C:\\a.exe" ["x y", "\\\""] false) =
    ["C:\\a.exe", "x y", "\\\""] :=
  (argv_build [] ["x y", "\\\""] false (by decide) (by decide)).2 (by decide)

/-- **Other arguments are not.** An empty argument is lost, a tab or a leading apostrophe leaves an argument without
quotation marks, a backslash at the end escapes the closing one, and a name can be cut far behind `.exe`. -/
theorem build_loses_arguments : (∀ arg ∈ ([[], "a\tb", "'a b'", "a b\\"] : List Text),
    argv (buildCommandlineString [] "C:\\a.exe" [arg] false) ≠ ("C:\\a.exe" : Text) :: [arg]) ∧
    argv (buildCommandlineString [] "C:\\a.exe.d\\b c" [] false) ≠ ["C:\\a.exe.d\\b c"] := by
  decide

end OpenSSHServerPN.CommandLines
