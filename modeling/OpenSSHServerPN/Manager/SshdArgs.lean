/-
The arguments of a value in the manager (`SshdConfig.cs`: `SshdArgs.Split`, `Join`) and in sshd (`argv_split` in `misc.c`).

Model: `split` has the two loops of the source, `argvSplit` of `Misc/Argv` reads a C string, which ends at the first null
character. The characters that mean something to either are ASCII, so that their encoding makes no difference.

Result: `split_join_sshd`.
-/
import OpenSSHServerPN.Manager.SshdConfig

namespace OpenSSHServerPN.SshdArgs

open Argv SshdConfig List

/-! ## Model -/

/-- the inner loop of `Split`: the argument, the quotation mark that is open at its end, and the text from there -/
def readArg (quote : Option Char) : Text → Text × Option Char × Text
  | [] => ([], quote, [])
  | '\\' :: d :: s =>
    if d = '\'' ∨ d = '"' ∨ d = '\\' ∨ (quote = none ∧ d = ' ') then
      let r := readArg quote s
      (d :: r.1, r.2)
    else
      let r := readArg quote (d :: s)
      ('\\' :: r.1, r.2)
  | c :: s =>
    if quote = none ∧ (c = ' ' ∨ c = '\t') then ([], quote, c :: s)
    else if quote = none ∧ (c = '"' ∨ c = '\'') then readArg (some c) s
    else if quote = some c then readArg none s
    else
      let r := readArg quote s
      (c :: r.1, r.2)

/-- the outer loop of `Split`, at most `fuel` times -/
def splitFrom : ℕ → Text → Except Text (List Text)
  | 0, _ => .ok []
  | _, [] => .ok []
  | fuel + 1, c :: s =>
    if c = ' ' ∨ c = '\t' then splitFrom fuel s
    else if c = '#' then .ok []
    else
      match readArg none (c :: s) with
      | (_, some q, _) => .error ("a quotation mark (" ++ q :: ") is not closed".toList)
      | (arg, none, rest) => (splitFrom fuel rest).map (arg :: ·)

/-- `SshdArgs.Split`; every round takes a character -/
def split (value : Text) : Except Text (List Text) := splitFrom value.length value

/-- `SshdArgs.Join` -/
def join (args : List Text) : Text := [' '].intercalate (args.map quote)

/-- the C string at the start of a text -/
def cString (s : Text) : Text := s.takeWhile (· != '\x00')

/-! ## The two readers -/

variable {quote : Option Char} {s : Text}

theorem readArg_rest (quote : Option Char) (s : Text) : (readArg quote s).2.2 <:+ s ∧
    ∀ c ∈ (readArg quote s).2.2.head?, c = ' ' ∨ c = '\t' := by
  fun_induction readArg quote s with
  | case1 => simp
  | case2 quote d s _ _ ih => exact ⟨ih.1.trans ((suffix_cons d s).trans (suffix_cons _ _)), ih.2⟩
  | case4 quote c s _ hc => exact ⟨suffix_rfl, by simpa using hc.2⟩
  | case3 _ _ _ _ _ ih | case5 _ _ _ _ _ _ ih | case6 _ _ _ _ _ ih | case7 _ _ _ _ _ _ _ _ ih =>
    exact ⟨ih.1.trans (suffix_cons _ _), ih.2⟩

theorem escapes_iff {d : Char} : escapes quote d = true ↔ d = '\'' ∨ d = '"' ∨ d = '\\' ∨ (quote = none ∧ d = ' ') := by
  cases quote <;> simp [escapes, or_assoc]

theorem push_elim (c : Char) (r : Text × Option Char × Text) :
    push c (r.2.1.elim ((scan true none r.2.2).map fun p => (r.1, p.2)) fun _ => none) =
      r.2.1.elim ((scan true none r.2.2).map fun p => (c :: r.1, p.2)) fun _ => none := by
  obtain ⟨arg, _ | q, rest⟩ := r
  · exact Option.map_map ..
  · rfl

theorem scan_char {c : Char} (h : ∀ d t, c = '\\' → s = d :: t → False) : scan true (some quote) (c :: s) =
    if quote = none ∧ (c = ' ' ∨ c = '\t') then scan true none s
    else if quote = none ∧ (c = '"' ∨ c = '\'') then scan true (some (some c)) s
    else if quote = some c then scan true (some none) s
    else push c (scan true (some quote) s) := by
  cases s with
  | nil =>
    cases quote with
    | none => simp [scan, isBlank]
    | some q => simp [scan, @eq_comm _ q]
  | cons d t =>
    have hc : c ≠ '\\' := fun hc => h d t hc rfl
    cases quote with
    | none => simp [(scan_step hc _).2.1, isBlank]
    | some q => simp [(scan_step hc _).2.2, eq_comm]

/-- the rest of an argument, as both read it -/
theorem scan_readArg (quote : Option Char) (s : Text) : scan true (some quote) s =
    (readArg quote s).2.1.elim ((scan true none (readArg quote s).2.2).map fun p => ((readArg quote s).1, p.2)) fun _ => none := by
  fun_induction readArg quote s with
  | case1 quote => cases quote <;> rfl
  | case2 quote d s hesc r ih =>
    rw [scan_backslash_cons, Option.getD_some, if_pos (escapes_iff.2 hesc)]
    exact (congrArg (push d) ih).trans (push_elim d r)
  | case3 quote d s hesc r ih =>
    rw [scan_backslash_cons, Option.getD_some, if_neg (mt escapes_iff.1 hesc)]
    exact (congrArg (push '\\') ih).trans (push_elim _ r)
  | case4 quote c s _ hc =>
    obtain ⟨rfl, hc⟩ := hc
    have hb : isBlank c = true := by simpa [isBlank] using hc
    rw [(scan_cons_blank hb s).2]
    rw [(scan_cons_blank hb s).1]
    cases h : scan true none s with
    | none => rfl
    | some p => exact congrArg some (Prod.ext (scan_none_fst h) rfl)
  | case5 quote c s hbs hb hq ih => rw [scan_char hbs, if_neg hb, if_pos hq, ih]
  | case6 c s hbs hb hq ih => rw [scan_char hbs, if_neg hb, if_neg hq, if_pos rfl, ih]
  | case7 quote c s hbs hb hq hc r ih =>
    rw [scan_char hbs, if_neg hb, if_neg hq, if_neg hc]
    exact (congrArg (push c) ih).trans (push_elim c r)

theorem splitFrom_scan (fuel : ℕ) (hlen : s.length ≤ fuel) : (splitFrom fuel s).toOption = (scan true none s).map (·.2) := by
  induction fuel generalizing s with
  | zero =>
    obtain rfl := length_eq_zero_iff.1 (Nat.le_zero.1 hlen)
    rfl
  | succ fuel ih =>
    cases s with
    | nil => rfl
    | cons c s =>
      rw [splitFrom]
      split_ifs with hb hh
      · rw [ih (Nat.le_of_succ_le_succ hlen), (scan_cons_blank (by simpa [isBlank] using hb) s).1]
      · rw [hh]
        cases s <;> rfl
      · obtain ⟨hrest, hblank⟩ := readArg_rest none (c :: s)
        -- the argument has a character, as its end is no blank
        have hlt : (readArg none (c :: s)).2.2.length ≤ fuel := by
          refine Nat.le_of_lt_succ (lt_of_le_of_lt' hlen (lt_of_le_of_ne hrest.length_le fun he => hb (hblank c ?_)))
          rw [hrest.eq_of_length he]
          rfl
        rw [scan_none_start (by simpa [isBlank] using hb) (fun h => hh h.2), scan_readArg]
        generalize readArg none (c :: s) = r at hlt
        obtain ⟨arg, _ | q, rest⟩ := r
        · have hmap : ((splitFrom fuel rest).map (arg :: ·)).toOption = (splitFrom fuel rest).toOption.map (arg :: ·) := by
            cases splitFrom fuel rest <;> rfl
          refine hmap.trans ?_
          rw [ih hlt, Option.map_map]
          show _ = (((scan true none rest).map fun p => (arg, p.2)).map fun p => ([], p.1 :: p.2)).map Prod.snd
          rw [Option.map_map, Option.map_map]
          rfl
        · rfl

/-! ## Written and read back -/

theorem scan_join (args : List Text) : scan true none (join args) = some ([], args) := by
  unfold join
  induction args with
  | nil => rfl
  | cons arg args ih =>
    cases args with
    | nil => simpa using @scan_quote arg [] _ rfl
    | cons next args =>
      exact scan_quote arg (((scan_cons_blank rfl _).2).trans ih)

theorem cString_of_notMem (h : '\x00' ∉ s) : cString s = s :=
  takeWhile_eq_self_iff.2 fun c hc => by
    rw [bne_iff_ne]
    rintro rfl
    exact h hc

theorem mem_quoteChars {quoted : Bool} {c : Char} (h : c ∈ quoteChars quoted s) : c ∈ s ∨ c = '"' ∨ c = '\\' := by
  induction s with
  | nil => cases h
  | cons d s ih =>
    rw [quoteChars_cons] at h
    split_ifs at h with hd hb <;> simp only [cons_append, nil_append, mem_cons] at h ⊢ <;> tauto

/-- `Quote` adds nothing but quotation marks and backslashes -/
theorem mem_quote {arg : Text} {c : Char} (h : c ∈ SshdConfig.quote arg) : c ∈ arg ∨ c = '"' ∨ c = '\\' := by
  unfold SshdConfig.quote at h
  dsimp only at h
  split_ifs at h
  · rcases mem_append.1 h with h | h
    · rcases mem_cons.1 h with rfl | h
      · exact .inr (.inl rfl)
      · exact mem_quoteChars h
    · exact .inr (.inl (mem_singleton.1 h))
  · exact mem_quoteChars h

theorem null_notMem_join {args : List Text} (h : ∀ arg ∈ args, '\x00' ∉ arg) : '\x00' ∉ join args := by
  have hquote : ∀ arg ∈ args, '\x00' ∉ SshdConfig.quote arg := by
    intro arg harg hnull
    obtain h0 | h0 | h0 := mem_quote hnull
    exacts [h arg harg h0, (nomatch h0), (nomatch h0)]
  clear h
  unfold join
  induction args with
  | nil => exact not_mem_nil
  | cons arg args ih =>
    have hrest := ih fun b hb => hquote b (mem_cons_of_mem arg hb)
    cases args with
    | nil => simpa using hquote
    | cons next args =>
      intro hmem
      obtain hmem | hmem := mem_append.1 (show '\x00' ∈ SshdConfig.quote arg ++ ' ' :: _ from hmem)
      · exact hquote arg mem_cons_self hmem
      · exact hrest (mem_of_ne_of_mem (by decide) hmem)

/-- **Arguments are written and read alike.** For texts without a null character, `argv_split` reads back what `Join` writes,
and `Split` succeeds if and only if `argv_split` does, with the same arguments. -/
theorem split_join_sshd : (∀ args : List Text, (∀ arg ∈ args, '\x00' ∉ arg) → argvSplit true (cString (join args)) = some args) ∧
    ∀ s : Text, '\x00' ∉ s → (split s).toOption = argvSplit true (cString s) := by
  refine ⟨fun args hargs => ?_, fun s hs => ?_⟩
  · rw [cString_of_notMem (null_notMem_join hargs), argvSplit, scan_join]
    rfl
  · rw [cString_of_notMem hs]
    exact splitFrom_scan _ le_rfl

theorem split_join_sshd_quoted : (∀ arg ∈ ["it's #1".toList, [], "C:\\".toList], '\x00' ∉ arg) ∧
    argvSplit true (cString (join ["it's #1".toList, [], "C:\\".toList])) = some ["it's #1".toList, [], "C:\\".toList] ∧
    (split "a 'b".toList).toOption = argvSplit true (cString "a 'b".toList) :=
  ⟨by decide, split_join_sshd.1 _ (by decide), split_join_sshd.2 _ (by decide)⟩

/-- **A null character** ends the text for sshd, and not for the manager. -/
theorem null_ends_arguments : argvSplit true (cString (join [['\x00']])) = some [] ∧
    (split ['\x00', '"']).toOption = none ∧ argvSplit true (cString ['\x00', '"']) = some [] := by
  decide

end OpenSSHServerPN.SshdArgs
