/-
What `SshdConfig.Set` does to the lines of sshd_config.

The lines at the top are read in order by sshd, the first value of a keyword counts, and an Include stands for the lines of
its files. So the result is described by where the written line stands (`Shape`): in front of every line of its keyword and
of the first Include, with all other lines in their order, for any way to read them that passes over the keyword, comments
and blank lines (`Skips`).

Results:
- `setTop_shape`, `setTop_nil`: the lines at the top after a value was set or removed;
- `hasKey_line`, `ordinary_line`: the written line is a directive of its keyword and starts no Match section;
- `readLine_written`: sshd reads the keyword and the text behind it;
- `set_cases`: what is left of a whole file.
-/
import OpenSSHServerPN.Manager.SshdConfig

namespace OpenSSHServerPN.SshdConfig
open Argv Edit Servconf List

/-! ## What `set` does to the lines -/

/-- any keyword but Match and Include -/
structure IsKeyword (kw : Text) : Prop where
  alnum : kw.all isAlnum = true
  nonempty : kw ≠ []
  noMatch : lower kw ≠ "match"
  noInclude : lower kw ≠ lower includeKeyword

/-- a keyword whose lines add up, or may stand below an Include -/
def repeats (kw : Text) : Bool := repeatableKeywords.contains (lower kw) || cumulativeKeywords.contains (lower kw)

variable {kw l : Text}

theorem hasKey_iff : hasKey kw l = true ↔ ∃ d, split l = some d ∧ lower d.key = lower kw := by
  unfold hasKey
  cases split l with
  | none | some => simp

theorem hasKey_unique {kw' : Text} (h : hasKey kw l = true) (h' : hasKey kw' l = true) : lower kw = lower kw' := by
  obtain ⟨d, hd, hkey⟩ := hasKey_iff.1 h
  obtain ⟨d', hd', hkey'⟩ := hasKey_iff.1 h'
  obtain rfl : d = d' := Option.some.inj (hd.symm.trans hd')
  exact hkey.symm.trans hkey'

variable {a b : Lines} {n : Text}

section
variable {kw newLine : Text} {ls : Lines}

theorem exists_first (h : ls.any (hasKey kw) = true) :
    ∃ a l b, ls = a ++ l :: b ∧ (∀ x ∈ a, hasKey kw x = false) ∧ hasKey kw l = true := by
  obtain ⟨l, hl, hkey⟩ := any_eq_true.1 h
  cases hs : ls.span fun x => !hasKey kw x with
  | mk a r =>
    cases r with
    | nil =>
      obtain ⟨rfl, hall⟩ := span_eq_nil.1 hs
      have hno := hall l hl
      simp [hkey] at hno
    | cons x b =>
      obtain ⟨rfl, ha, hx⟩ := span_eq_cons.1 hs
      exact ⟨a, x, b, rfl, fun y hy => by simpa using ha y hy, by simpa using hx⟩

theorem replaceLines_eq (ha : ∀ x ∈ a, hasKey kw x = false) (hl : hasKey kw l = true) :
    replaceLines kw newLine (a ++ l :: b) = a ++ withComment newLine l :: b.map (commentOut kw) := by
  induction a with
  | nil => simp [replaceLines, hl]
  | cons x a ih =>
    rw [cons_append, replaceLines, ha x mem_cons_self, ih fun y hy => ha y (mem_cons_of_mem x hy)]
    rfl

/-- the first line of the keyword, moved above the first Include -/
theorem moveAboveInclude_eq (hn : hasKey kw n = true) (hinc : hasKey includeKeyword n = false)
    (ha : ∀ x ∈ a, hasKey kw x = false) :
    ((∀ x ∈ a, hasKey includeKeyword x = false) ∧ moveAboveInclude kw (a ++ n :: b) = a ++ n :: b) ∨
      ∃ above inc between, a = above ++ inc :: between ∧ (∀ x ∈ above, hasKey includeKeyword x = false) ∧
        hasKey includeKeyword inc = true ∧ moveAboveInclude kw (a ++ n :: b) = above ++ n :: inc :: (between ++ b) := by
  by_cases hany : a.any (hasKey includeKeyword) = true
  · right
    obtain ⟨above, inc, between, rfl, habove, hinc'⟩ := exists_first hany
    have hspan : (above ++ inc :: between ++ n :: b).span (fun l => !hasKey includeKeyword l) =
        (above, inc :: (between ++ n :: b)) :=
      span_eq_cons.2 ⟨by simp, fun y hy => by simpa using habove y hy, by simpa using hinc'⟩
    have hno : above.any (hasKey kw) = false := by
      refine any_eq_false.2 fun x hx => ?_
      simp [ha x (mem_append_left _ hx)]
    have hspan' : (between ++ n :: b).span (fun l => !hasKey kw l) = (between, n :: b) := by
      refine span_eq_cons.2 ⟨rfl, fun y hy => ?_, by simpa using hn⟩
      simp [ha y (by simp [hy])]
    refine ⟨above, inc, between, rfl, habove, hinc', ?_⟩
    simp only [moveAboveInclude, hspan, hno, Bool.false_eq_true, if_false, hspan']
  · left
    have hall : ∀ x ∈ a, hasKey includeKeyword x = false := by
      intro x hx
      simpa using any_eq_false.1 (by simpa using hany) x hx
    refine ⟨hall, ?_⟩
    unfold moveAboveInclude
    cases hs : (a ++ n :: b).span fun l => !hasKey includeKeyword l with
    | mk above r =>
      cases r with
      | nil => rfl
      | cons inc below =>
        -- the first Include stands below, so the line itself is above it
        have hmem : n ∈ above := by
          rw [span_eq_takeWhile_dropWhile, Prod.mk.injEq] at hs
          rw [← hs.1, takeWhile_append_of_pos fun y hy => by simpa using hall y hy,
            takeWhile_cons_of_pos (by simpa using hinc)]
          simp
        have hkeyed : above.any (hasKey kw) = true := any_eq_true.2 ⟨n, hmem, hn⟩
        simp only [hkeyed, if_true]

end

/-- the line that is written: new, or in the place of one of the keyword -/
def IsNew (kw value : Text) (ls : Lines) (n : Text) : Prop :=
  n = kw ++ ' ' :: value ∨ ∃ l ∈ ls, hasKey kw l = true ∧ n = withComment (kw ++ ' ' :: value) l

/-- the lines that stay: as they were, commented out, or blank -/
def IsKept (kw : Text) (ls : Lines) (x : Text) : Prop :=
  x ∈ ls ∨ x = [] ∨ ∃ l ∈ ls, hasKey kw l = true ∧ x = '#' :: trimStart l

/-- a reading of lines in which the keyword, comments and blank lines do not count -/
structure Skips {β : Type} (f : Text → Option β) (kw : Text) (ls : Lines) : Prop where
  key : ∀ l ∈ ls, hasKey kw l = true → f l = none
  comment : ∀ s, f ('#' :: s) = none
  blank : f [] = none
  unread : ∀ l ∈ ls, split l = none → f l = none

/-- what `set` leaves: the line written stands in front of all lines of the keyword, and of the first Include if only one line
counts; the other lines stay in order -/
structure Shape (kw value : Text) (ls a : Lines) (n : Text) (b : Lines) : Prop where
  line : n = ((ls.find? (hasKey kw)).map (withComment (kw ++ ' ' :: value))).getD (kw ++ ' ' :: value)
  before : ∀ x ∈ a, x ∈ ls ∧ hasKey kw x = false
  early : repeats kw = false → ∀ x ∈ a, hasKey includeKeyword x = false
  kept : ∀ x ∈ a ++ b, IsKept kw ls x
  order : ∀ {β : Type} (f : Text → Option β), Skips f kw ls → (a ++ b).filterMap f = ls.filterMap f

variable {value : Text} {ls : Lines}

theorem Shape.new (h : Shape kw value ls a n b) : IsNew kw value ls n := by
  have hline := h.line
  cases hfind : ls.find? (hasKey kw) with
  | none =>
    rw [hfind] at hline
    exact .inl hline
  | some l =>
    rw [hfind] at hline
    exact .inr ⟨l, mem_of_find?_eq_some hfind, find?_some hfind, hline⟩

theorem Shape.first {β : Type} {f : Text → Option β} (h : Shape kw value ls a n b)
    (hf : Skips f kw ls) : (a ++ b).findSome? f = ls.findSome? f := by
  rw [← head?_filterMap, h.order f hf, head?_filterMap]

theorem commentOut_kept (h : l ∈ ls) : IsKept kw ls (commentOut kw l) := by
  unfold commentOut
  split_ifs with hk
  · exact .inr (.inr ⟨l, h, hk, rfl⟩)
  · exact .inl h

theorem filterMap_commentOut {β : Type} {f : Text → Option β} (hf : Skips f kw ls)
    (hb : ∀ l ∈ b, l ∈ ls) : (b.map (commentOut kw)).filterMap f = b.filterMap f := by
  rw [filterMap_map]
  refine filterMap_congr fun l hl => ?_
  simp only [Function.comp_apply, commentOut]
  split_ifs with hk
  · rw [hf.comment, hf.key l (hb l hl) hk]
  · rfl

theorem split_of_isExample (h : isExample kw l = true) : split l = none := by
  unfold isExample at h
  split at h
  · rename_i t ht
    have hkey : (trimText l).takeWhile isAlnum = [] := by
      obtain ⟨w, hw⟩ := trim_prefix isSpace l
      change trimText l ++ w = trimStart l at hw
      rw [ht] at hw
      cases htl : trimText l with
      | nil => rfl
      | cons c s =>
        rw [htl, cons_append, cons.injEq] at hw
        rw [hw.1]
        rfl
    simp [split, hkey]
  · simp at h

section
variable {kw value : Text} {ls : Lines}

theorem replace_shape (hnew : ∀ l ∈ ls, hasKey kw (withComment (kw ++ ' ' :: value) l) = true)
    (hinc : lower kw ≠ lower includeKeyword) (h : ls.any (hasKey kw) = true) :
    ∃ a n b, (if repeats kw then replaceLines kw (kw ++ ' ' :: value) ls
      else moveAboveInclude kw (replaceLines kw (kw ++ ' ' :: value) ls)) = a ++ n :: b ∧ Shape kw value ls a n b := by
  obtain ⟨a, l, b, rfl, ha, hl⟩ := exists_first h
  set n := withComment (kw ++ ' ' :: value) l with hn
  have hnkey : hasKey kw n = true := hnew l (by simp)
  have hninc : hasKey includeKeyword n = false := by
    by_contra hcon
    exact hinc (hasKey_unique hnkey (by simpa using hcon))
  have hline : n = (((a ++ l :: b).find? (hasKey kw)).map (withComment (kw ++ ' ' :: value))).getD (kw ++ ' ' :: value) := by
    have hnone : a.find? (hasKey kw) = none := find?_eq_none.2 fun x hx => by simp [ha x hx]
    rw [find?_append, hnone, find?_cons_of_pos hl]
    rfl
  have hkept : ∀ x ∈ a ++ b.map (commentOut kw), IsKept kw (a ++ l :: b) x := by
    intro x hx
    rcases mem_append.1 hx with hx | hx
    · exact .inl (by simp [hx])
    · obtain ⟨y, hy, rfl⟩ := mem_map.1 hx
      exact commentOut_kept (by simp [hy])
  have horder : ∀ {β : Type} (f : Text → Option β), Skips f kw (a ++ l :: b) →
      (a ++ b.map (commentOut kw)).filterMap f = (a ++ l :: b).filterMap f := by
    intro β f hf
    rw [filterMap_append, filterMap_append, filterMap_commentOut hf (by simp +contextual),
      filterMap_cons_none (hf.key l (by simp) hl)]
  rw [replaceLines_eq ha hl]
  have hstay : (repeats kw = false → ∀ x ∈ a, hasKey includeKeyword x = false) →
      Shape kw value (a ++ l :: b) a n (b.map (commentOut kw)) := fun hearly =>
    ⟨hline, fun x hx => ⟨by simp [hx], ha x hx⟩, hearly, hkept, horder⟩
  split_ifs with hrep
  · exact ⟨a, n, _, rfl, hstay fun hno => by rw [hrep] at hno; cases hno⟩
  rcases moveAboveInclude_eq (b := b.map (commentOut kw)) hnkey hninc ha with
    ⟨hnone, hmove⟩ | ⟨above, inc, between, rfl, habove, -, hmove⟩
  · exact ⟨a, n, _, hmove, hstay fun _ => hnone⟩
  refine ⟨above, n, _, hmove, hline, ?_, fun _ => habove, ?_, ?_⟩
  · exact fun x hx => ⟨by simp [hx], ha x (by simp [hx])⟩
  · intro x hx
    exact hkept x (by simpa using hx)
  · intro β f hf
    rw [← horder f hf]
    simp

theorem replaceExample_cases (kw newLine : Text) (ls : Lines) : replaceExample kw newLine ls = none ∨
      ∃ a e b, ls = a ++ e :: b ∧ isExample kw e = true ∧ replaceExample kw newLine ls = some (a ++ newLine :: b) := by
  unfold replaceExample
  cases hs : ls.span fun l => !isExample kw l with
  | mk a r =>
    cases r with
    | nil => exact .inl rfl
    | cons e b =>
      obtain ⟨rfl, -, he⟩ := span_eq_cons.1 hs
      exact .inr ⟨a, e, b, rfl, by simpa using he, rfl⟩

theorem new_shape (kw value : Text) (a tail blank : Lines) (hkey : ∀ l ∈ a ++ tail, hasKey kw l = false)
    (hinc : ∀ x ∈ a, hasKey includeKeyword x = false) (hblank : ∀ x ∈ blank, x = []) :
    Shape kw value (a ++ tail) a (kw ++ ' ' :: value) (tail ++ blank) where
  line := by rw [find?_eq_none.2 fun x hx => by simp [hkey x hx]]; rfl
  before := fun x hx => ⟨by simp [hx], hkey x (by simp [hx])⟩
  early := fun _ => hinc
  kept := by
    intro x hx
    rw [← append_assoc] at hx
    rcases mem_append.1 hx with hx | hx
    · exact .inl hx
    · exact .inr (.inl (hblank x hx))
  order := by
    intro β f hf
    have hnone : blank.filterMap f = [] := filterMap_eq_nil_iff.2 fun x hx => hblank x hx ▸ hf.blank
    rw [← append_assoc, filterMap_append, hnone, append_nil]

theorem example_shape (kw value : Text) (tail : Lines) {e : Text} (hkey : ∀ l ∈ a ++ e :: b ++ tail, hasKey kw l = false)
    (hinc : ∀ x ∈ a, hasKey includeKeyword x = false) (he : isExample kw e = true) :
    Shape kw value (a ++ e :: b ++ tail) a (kw ++ ' ' :: value) (b ++ tail) where
  line := by rw [find?_eq_none.2 fun x hx => by simp [hkey x hx]]; rfl
  before := fun x hx => ⟨by simp [hx], hkey x (by simp [hx])⟩
  early := fun _ => hinc
  kept := by
    intro x hx
    refine .inl ?_
    simp only [mem_append] at hx ⊢
    tauto
  order := by
    intro β f hf
    have hnone : f e = none := hf.unread e (by simp) (split_of_isExample he)
    simp only [append_assoc, filterMap_append, filterMap_cons_none hnone]

theorem insert_shape (bottom : Lines) (h : ∀ l ∈ ls, hasKey kw l = false) :
    ∃ a n b, insertLine kw (kw ++ ' ' :: value) ls bottom = a ++ n :: b ∧ Shape kw value ls a n b := by
  unfold insertLine
  cases hs : ls.span fun l => !hasKey includeKeyword l with
  | mk above r =>
    cases r with
    | nil =>
      obtain ⟨rfl, hall⟩ := span_eq_nil.1 hs
      have hinc : ∀ x ∈ ls, hasKey includeKeyword x = false := fun x hx => by simpa using hall x hx
      rcases replaceExample_cases kw (kw ++ ' ' :: value) ls with hno | ⟨a, e, b, rfl, he, hrep⟩
      · refine ⟨ls, kw ++ ' ' :: value, if bottom = [] then [] else [[]], ?_, ?_⟩
        · simp only [hno]
          split_ifs <;> rfl
        · have hshape := new_shape kw value ls [] (if bottom = [] then [] else [[]]) (by simpa using h) hinc
            (by split_ifs <;> simp)
          simpa using hshape
      · refine ⟨a, kw ++ ' ' :: value, b, by simp only [hrep], ?_⟩
        have hshape := example_shape kw value [] (by simpa using h) (fun x hx => hinc x (by simp [hx])) he
        simpa using hshape
    | cons inc below =>
      obtain ⟨rfl, hall, -⟩ := span_eq_cons.1 hs
      have hinc : ∀ x ∈ above, hasKey includeKeyword x = false := fun x hx => by simpa using hall x hx
      rcases replaceExample_cases kw (kw ++ ' ' :: value) above with hno | ⟨a, e, b, rfl, he, hrep⟩
      · refine ⟨above, kw ++ ' ' :: value, inc :: below, by simp only [hno], ?_⟩
        have hshape := new_shape kw value above (inc :: below) [] h hinc (by simp)
        simpa using hshape
      · refine ⟨a, kw ++ ' ' :: value, b ++ inc :: below, by simp [hrep], ?_⟩
        exact example_shape kw value (inc :: below) h (fun x hx => hinc x (by simp [hx])) he

/-- **Setting a value.** -/
theorem setTop_shape (ls bottom : Lines) (hkw : IsKeyword kw) (hvalue : value ≠ [])
    (hnew : ∀ l ∈ ls, hasKey kw (withComment (kw ++ ' ' :: value) l) = true) :
    ∃ a n b, setTop kw value ls bottom = a ++ n :: b ∧ Shape kw value ls a n b := by
  unfold setTop
  simp only [hvalue, if_false]
  split_ifs with hany hrep
  · have hshape := replace_shape hnew hkw.noInclude hany
    rwa [repeats, if_pos hrep] at hshape
  · have hshape := replace_shape hnew hkw.noInclude hany
    rwa [repeats, if_neg hrep] at hshape
  · exact insert_shape bottom fun l hl => by simpa using any_eq_false.1 (by simpa using hany) l hl

/-- **Removing a value.** The lines of the keyword are commented out. -/
theorem setTop_nil (ls bottom : Lines) : setTop kw [] ls bottom = ls.map (commentOut kw) := by simp [setTop]

end

/-! ## The line that is written -/

theorem cutComment_comment (quote : Option Char) (argStart : Bool) (s : Text) :
    (cutComment quote argStart s).2 = [] ∨ ∃ k, (cutComment quote argStart s).2 = '#' :: k := by
  fun_induction cutComment quote argStart s with
  | case1 => exact .inl rfl
  | case2 quote _ d s hesc v c hcut ih => simpa [hcut] using ih
  | case3 quote argStart d s hesc v c hcut ih => simpa [hcut] using ih
  | case4 q argStart c s _ v k hcut ih => simpa [hcut] using ih
  | case5 _ c s _ hblank v k hcut ih => simpa [hcut] using ih
  | case6 _ c s _ _ hhash => exact .inr ⟨s, by rw [hhash.1]⟩
  | case7 _ c s _ _ _ v k hcut ih => simpa [hcut] using ih

/-- the text of a line behind its keyword: the value, and a comment that stays with it -/
def IsTail (value tail : Text) : Prop :=
  tail = value ∨ ∃ k z, tail = value ++ ' ' :: '#' :: k ∧ ('#' :: k).getLast? = some z ∧ isSpace z = false

variable {d : Directive}

section
variable (h : split l = some d)
include h

/-- the value and the comment of a directive are parts of its text, trimmed -/
theorem split_parts :
    ∃ rest, d.value = trimText (cutComment none true rest).1 ∧ d.comment = trimText (cutComment none true rest).2 := by
  unfold split at h
  simp only at h
  split_ifs at h
  · split at h <;> exact ⟨_, by rw [← Option.some.inj h], by rw [← Option.some.inj h]⟩
  · split at h
    · exact ⟨_, by rw [← Option.some.inj h], by rw [← Option.some.inj h]⟩
    · simp at h

theorem split_value_trimmed : trimText d.value = d.value := by
  obtain ⟨rest, hvalue, -⟩ := split_parts h
  rw [hvalue]
  exact trim_trim isSpace _

theorem split_comment (hne : d.comment ≠ []) :
    ∃ k z, d.comment = '#' :: k ∧ ('#' :: k).getLast? = some z ∧ isSpace z = false := by
  obtain ⟨rest, -, hrest⟩ := split_parts h
  rcases cutComment_comment none true rest with hnil | ⟨k, hk⟩
  · rw [hrest, hnil] at hne
    exact absurd rfl hne
  obtain ⟨t, ht⟩ := trim_cons isSpace (a := '#') (by decide) k
  rw [hk] at hrest
  refine ⟨t, ?_⟩
  rcases trim_ends isSpace ('#' :: k) with hnil | ⟨a, z, -, -, hz, hspace⟩
  · rw [ht] at hnil
    exact absurd hnil (by simp)
  · rw [ht] at hz
    exact ⟨z, hrest.trans ht, hz, hspace⟩

end

theorem withComment_tail (kw value l : Text) : ∃ tail, withComment (kw ++ ' ' :: value) l = kw ++ ' '
    :: tail ∧ IsTail value tail := by
  unfold withComment
  split
  · rename_i d hd
    split_ifs with hc
    · exact ⟨value, rfl, .inl rfl⟩
    · obtain ⟨k, z, hk, hz, hspace⟩ := split_comment hd hc
      exact ⟨value ++ ' ' :: '#' :: k, by simp [hk], .inr ⟨k, z, rfl, hz, hspace⟩⟩
  · exact ⟨value, rfl, .inl rfl⟩

theorem IsNew.tail (h : IsNew kw value ls n) : ∃ tail, n = kw ++ ' ' :: tail ∧ IsTail value tail := by
  rcases h with rfl | ⟨l, -, -, rfl⟩
  · exact ⟨value, rfl, .inl rfl⟩
  · exact withComment_tail kw value l

/-- a trimmed value -/
structure Trimmed (value : Text) : Prop where
  head : ∃ a, value.head? = some a ∧ isSpace a = false
  last : ∃ z, value.getLast? = some z ∧ isSpace z = false

theorem trimmed_trimText {t : Text} (h : trimText t ≠ []) : Trimmed (trimText t) := by
  rcases trim_ends isSpace t with hnil | ⟨a, z, ha, hsa, hz, hsz⟩
  · exact absurd hnil h
  · exact ⟨⟨a, ha, hsa⟩, ⟨z, hz, hsz⟩⟩

theorem trimText_of_trimmed {t : Text} (h : Trimmed t) : trimText t = t := by
  obtain ⟨⟨a, ha, hsa⟩, ⟨z, hz, hsz⟩⟩ := h
  exact trim_self isSpace ha hsa hz hsz

variable {tail : Text}

theorem IsTail.trimmed (h : IsTail value tail) (hv : Trimmed value) : Trimmed tail := by
  rcases h with rfl | ⟨k, z, rfl, hz, hspace⟩
  · exact hv
  · obtain ⟨a, ha, hsa⟩ := hv.head
    obtain ⟨v, rfl⟩ := head?_eq_some_iff.1 ha
    refine ⟨⟨a, rfl, hsa⟩, ⟨z, ?_, hspace⟩⟩
    rw [getLast?_append, getLast?_cons_cons, hz]
    rfl

variable {c : Char}

theorem isAlnum_range (h : isAlnum c = true) : 48 ≤ c.toNat ∧ c.toNat ≤ 122 := by
  simp only [isAlnum, Bool.or_eq_true, Bool.and_eq_true, decide_eq_true_eq] at h
  change (97 ≤ c.toNat ∧ c.toNat ≤ 122 ∨ 65 ≤ c.toNat ∧ c.toNat ≤ 90) ∨ 48 ≤ c.toNat ∧ c.toNat ≤ 57 at h
  omega

theorem isSpace_of_isAlnum (h : isAlnum c = true) : isSpace c = false := by
  have hrange := isAlnum_range h
  simp only [isSpace, Bool.or_eq_false_iff, Bool.and_eq_false_iff, decide_eq_false_iff_not, beq_eq_false_iff_ne]
  omega

/-- **The written line is a directive of its keyword.** -/
theorem trimmed_line (hkw : kw.all isAlnum = true) (hne : kw ≠ []) (htail : Trimmed tail) :
    Trimmed (kw ++ ' ' :: tail) := by
  obtain ⟨c, k, rfl⟩ := exists_cons_of_ne_nil hne
  obtain ⟨z, hz, hspace⟩ := htail.last
  refine ⟨⟨c, rfl, ?_⟩, ⟨z, ?_, hspace⟩⟩
  · exact isSpace_of_isAlnum (all_eq_true.1 hkw c mem_cons_self)
  · obtain ⟨a, ha, -⟩ := htail.head
    obtain ⟨t, rfl⟩ := head?_eq_some_iff.1 ha
    rw [getLast?_append, getLast?_cons_cons, hz]
    rfl

/-- the text behind the keyword and one `=` -/
def afterEquals : Text → Text
  | '=' :: rest => trimStart rest
  | t => t

theorem split_line (hkw : kw.all isAlnum = true) (hne : kw ≠ []) (htail : Trimmed tail) :
    ∃ k, split (kw ++ ' ' :: tail) = some ⟨kw, trimText (cutComment none true (afterEquals tail)).1, k⟩ := by
  have htrim : trimText (kw ++ ' ' :: tail) = kw ++ ' ' :: tail := trimText_of_trimmed (trimmed_line hkw hne htail)
  have hall : ∀ c ∈ kw, isAlnum c = true := all_eq_true.1 hkw
  have hspace : isAlnum ' ' = false := by decide
  have hkey : (kw ++ ' ' :: tail).takeWhile isAlnum = kw := by
    rw [takeWhile_append_of_pos hall, takeWhile_cons_of_neg (by simp [hspace]), append_nil]
  have hbehind : (kw ++ ' ' :: tail).dropWhile isAlnum = ' ' :: tail := by
    rw [dropWhile_append_of_pos hall, dropWhile_cons_of_neg (by simp [hspace])]
  have hstart : trimStart (' ' :: tail) = tail := by
    obtain ⟨a, ha, hsa⟩ := htail.head
    obtain ⟨t, rfl⟩ := head?_eq_some_iff.1 ha
    rw [trimStart, dropWhile_cons_of_pos (by decide), dropWhile_cons_of_neg (by simp [hsa])]
  unfold split
  simp only [htrim, hkey, hbehind, hne, if_false, hstart]
  split
  · exact ⟨_, rfl⟩
  next hno =>
  have hsame : afterEquals tail = tail := by
    unfold afterEquals
    split
    · next rest => exact absurd rfl (hno rest)
    · rfl
  rw [hsame]
  exact ⟨_, rfl⟩

theorem hasKey_line (hkw : kw.all isAlnum = true) (hne : kw ≠ []) (htail : Trimmed tail) :
    hasKey kw (kw ++ ' ' :: tail) = true := by
  obtain ⟨k, hsplit⟩ := split_line hkw hne htail
  exact hasKey_iff.2 ⟨_, hsplit, rfl⟩

theorem IsTail.head (h : IsTail value tail) (hv : Trimmed value) : tail.head? = value.head? := by
  obtain ⟨a, ha, -⟩ := hv.head
  obtain ⟨v, rfl⟩ := head?_eq_some_iff.1 ha
  rcases h with rfl | ⟨k, z, rfl, -⟩ <;> rfl

theorem isKeyChar_of_isAlnum (h : isAlnum c = true) : isKeyChar c = true := by
  have hne d (hd : isAlnum d = false) : c ≠ d := ne_of_apply_ne isAlnum (by simp [h, hd])
  have h1 := hne ' ' (by decide)
  have h2 := hne '\t' (by decide)
  have h3 := hne '\r' (by decide)
  have h4 := hne '\n' (by decide)
  have h5 := hne '"' (by decide)
  have h6 := hne '=' (by decide)
  have h7 := hne '#' (by decide)
  simp [isKeyChar, isWhite, *]

theorem isWhite_of_isSpace (h : isSpace c = false) : isWhite c = false ∧ c ≠ '\x0c' := by
  have hne d (hd : isSpace d = true) : c ≠ d := ne_of_apply_ne isSpace (by simp [h, hd])
  have h1 := hne ' ' (by decide)
  have h2 := hne '\t' (by decide)
  have h3 := hne '\r' (by decide)
  have h4 := hne '\n' (by decide)
  exact ⟨by simp [isWhite, *], hne '\x0c' (by decide)⟩

theorem readLine_written (lead kw : Text) (hlead : ∀ c ∈ lead, (c == ' ' || c == '\t' || c == '\r') = true)
    (hkw : kw.all isAlnum = true) (hne : kw ≠ []) (htail : Trimmed tail) (heq : tail.head? ≠ some '=') :
    readLine (lead ++ (kw ++ ' ' :: tail)) = match argvSplit true tail with
      | none => .bad
      | some args => .directive kw tail args := by
  obtain ⟨a, ha, hsa⟩ := htail.head
  obtain ⟨z, hz, hsz⟩ := htail.last
  refine readLine_keyword hlead hne (fun c hc => isKeyChar_of_isAlnum (all_eq_true.1 hkw c hc)) ha
    (isWhite_of_isSpace hsa).1 ?_ ⟨z, hz, isWhite_of_isSpace hsz⟩
  rintro rfl
  exact heq ha

/-! ## The top of the file -/

/-- neither a Match line nor a note of the program, such as the start of a section -/
structure Ordinary (net : Dotnet) (line : Text) : Prop where
  noMatch : isMatchLine net line = false
  noNote : (trimText line).take 2 ≠ "# "

theorem Ordinary.noSection {net : Dotnet} {line : Text} (h : Ordinary net line) : startsMatchSection net line = false := by
  have hne : ∀ t : Text, t.take 2 = "# " → (trimText line == t) = false := by
    intro t ht
    refine beq_eq_false_iff_ne.2 fun heq => h.noNote ?_
    rw [heq, ht]
  simp [startsMatchSection, isAuthRegionBegin, h.noMatch, hne authRegionBegin (by decide), hne authLegacyRegionBegin
    (by decide), hne sftpRegionBegin (by decide)]

theorem ordinary_line (net : Dotnet) (hkw : IsKeyword kw) (htail : Trimmed tail) :
    Ordinary net (kw ++ ' ' :: tail) := by
  have hall := all_eq_true.1 hkw.alnum
  have hline := trimmed_line hkw.alnum hkw.nonempty htail
  constructor
  · have hstart : trimStart (kw ++ ' ' :: tail) = kw ++ ' ' :: tail := by
      obtain ⟨a, ha, hspace⟩ := hline.head
      obtain ⟨t, ht⟩ := head?_eq_some_iff.1 ha
      rw [ht]
      simp [trimStart, hspace]
    rw [isMatchLine, hstart]
    -- the keyword is shorter than `Match`, it is another of five letters, or a letter follows the fifth
    rcases lt_trichotomy kw.length 5 with hlt | heq | hgt
    · have hblank : ' ' ∈ lower ((kw ++ ' ' :: tail).take 5) := by
        obtain ⟨m, hm⟩ : ∃ m, 5 - kw.length = m + 1 := ⟨4 - kw.length, by omega⟩
        rw [take_append, hm, take_succ_cons]
        exact mem_map.2 ⟨' ', by simp, rfl⟩
      have hne : lower ((kw ++ ' ' :: tail).take 5) ≠ "match" := fun h => absurd (h ▸ hblank) (by decide)
      simp only [beq_eq_false_iff_ne.2 hne, Bool.false_and]
    · rw [take_left' heq]
      simp only [beq_eq_false_iff_ne.2 hkw.noMatch, Bool.false_and]
    · have hsixth : (((kw ++ ' ' :: tail).drop 5).head?.any net.isWord) = true := by
        obtain ⟨c, t, ht⟩ : ∃ c t, kw.drop 5 = c :: t := exists_cons_of_ne_nil fun h => by simp at h; omega
        have hc := hall c (mem_of_mem_drop (by rw [ht]; exact mem_cons_self))
        rw [drop_append_of_le_length hgt.le, ht]
        simp [net.isWord_ascii c (by have := isAlnum_range hc; omega), hc]
      simp only [hsixth, Bool.not_true, Bool.and_false]
  · rw [trimText_of_trimmed hline]
    obtain ⟨c, k, rfl⟩ := exists_cons_of_ne_nil hkw.nonempty
    intro heq
    have hc : c = '#' := (cons.inj heq).1
    have halnum := hall c mem_cons_self
    rw [hc] at halnum
    exact absurd halnum (by decide)

theorem ordinary_comment (net : Dotnet) (h : hasKey kw l = true) : Ordinary net ('#' :: trimStart l) := by
  obtain ⟨d, hd, -⟩ := hasKey_iff.1 h
  -- the keyword's first letter follows the `#`
  obtain ⟨c, t, hct, hc⟩ : ∃ c t, trimStart l = c :: t ∧ isAlnum c = true := by
    obtain ⟨w, hw⟩ := trim_prefix isSpace l
    change trimText l ++ w = trimStart l at hw
    have hkey : (trimText l).takeWhile isAlnum ≠ [] := by
      intro hnil
      simp [split, hnil] at hd
    cases htl : trimText l with
    | nil =>
      rw [htl] at hkey
      exact absurd rfl hkey
    | cons c t =>
      refine ⟨c, t ++ w, by rw [← hw, htl]; rfl, ?_⟩
      by_contra hno
      rw [htl, takeWhile_cons_of_neg hno] at hkey
      exact hkey rfl
  rw [hct]
  constructor
  · have hstart : trimStart ('#' :: c :: t) = '#' :: c :: t := by
      rw [trimStart, dropWhile_cons_of_neg (by decide)]
    rw [isMatchLine, hstart]
    have hlow : (lower (('#' :: c :: t).take 5) == "match") = false :=
      beq_eq_false_iff_ne.2 fun heq => absurd (cons.inj heq).1 (by decide)
    rw [hlow, Bool.false_and]
  · intro heq
    obtain ⟨w, hw⟩ := trim_prefix isSpace ('#' :: c :: t)
    rw [dropWhile_cons_of_neg (by decide)] at hw
    have htake : ('#' :: c :: t).take 2 = "# " := by
      rw [← hw, take_append_of_le_length, show trim isSpace ('#' :: c :: t) = trimText ('#' :: c :: t) from rfl, heq]
      have hlen := congrArg length heq
      rw [length_take] at hlen
      change min 2 _ = 2 at hlen
      change 2 ≤ (trimText ('#' :: c :: t)).length
      omega
    have hsp : c = ' ' := (cons.inj (cons.inj htake).2).1
    rw [hsp] at hc
    exact absurd hc (by decide)

theorem top_of_ordinary {net : Dotnet} (lines : Lines) (h : ∀ l ∈ ls, startsMatchSection net l = false) :
    top net (ls ++ bottom net lines) = ls ∧ bottom net (ls ++ bottom net lines) = bottom net lines := by
  have hall : ∀ l ∈ ls, (!startsMatchSection net l) = true := fun l hl => by simp [h l hl]
  have hbottom : (bottom net lines).takeWhile (fun l => !startsMatchSection net l) = [] ∧
      (bottom net lines).dropWhile (fun l => !startsMatchSection net l) = bottom net lines := by
    unfold bottom
    cases hd : lines.dropWhile fun l => !startsMatchSection net l with
    | nil => exact ⟨rfl, rfl⟩
    | cons x b =>
      have hne : lines.dropWhile (fun l => !startsMatchSection net l) ≠ [] := by simp [hd]
      have hx := head_dropWhile_not _ hne
      simp only [hd, head_cons] at hx
      exact ⟨takeWhile_cons_of_neg (by simp [hx]), dropWhile_cons_of_neg (by simp [hx])⟩
  constructor
  · rw [top, takeWhile_append_of_pos hall, hbottom.1, append_nil]
  · rw [bottom, dropWhile_append_of_pos hall]
    exact hbottom.2

section
variable {net : Dotnet} {lines lines' : Lines} {kw value : Text}

theorem top_noSection (h : l ∈ top net lines) : startsMatchSection net l = false := by
  simpa using mem_takeWhile_imp h

/-- **`Set`, at the top.** A line that is there is written in place of the keyword's lines, or they are commented out. -/
theorem set_cases (hkw : IsKeyword kw) (hset : set net lines kw value = .ok lines') :
    bottom net lines' = bottom net lines ∧
      ((trimText value = [] ∧ top net lines' = (top net lines).map (commentOut kw)) ∨
        (trimText value ≠ [] ∧ ∃ a n b, top net lines' = a ++ n :: b ∧ Shape kw (trimText value) (top net lines) a n b)) := by
  unfold set at hset
  simp only at hset
  split_ifs at hset
  obtain rfl := Except.ok.inj hset
  by_cases hvalue : trimText value = []
  · have hord : ∀ l ∈ (top net lines).map (commentOut kw), startsMatchSection net l = false := by
      intro l hl
      obtain ⟨l₀, hl₀, rfl⟩ := mem_map.1 hl
      unfold commentOut
      split_ifs with hk
      · exact (ordinary_comment net hk).noSection
      · exact top_noSection hl₀
    rw [hvalue, setTop_nil]
    obtain ⟨htop, hbottom⟩ := top_of_ordinary lines hord
    exact ⟨hbottom, .inl ⟨rfl, htop⟩⟩
  · have htrim := trimmed_trimText hvalue
    obtain ⟨a, n, b, hshape, hs⟩ := setTop_shape (top net lines) (bottom net lines) hkw hvalue fun l _ => by
      obtain ⟨tail, htail, hist⟩ := withComment_tail kw (trimText value) l
      rw [htail]
      exact hasKey_line hkw.alnum hkw.nonempty (hist.trimmed htrim)
    have hord : ∀ l ∈ a ++ n :: b, startsMatchSection net l = false := by
      intro l hl
      have hcases : l = n ∨ l ∈ a ++ b := by
        simp only [mem_append, mem_cons] at hl ⊢
        tauto
      rcases hcases with rfl | hl
      · obtain ⟨tail, rfl, hist⟩ := hs.new.tail
        exact (ordinary_line net hkw (hist.trimmed htrim)).noSection
      · rcases hs.kept l hl with hl | rfl | ⟨l₀, -, hk, rfl⟩
        · exact top_noSection hl
        · exact (show Ordinary net [] from ⟨rfl, by decide⟩).noSection
        · exact (ordinary_comment net hk).noSection
    rw [hshape]
    obtain ⟨htop, hbottom⟩ := top_of_ordinary lines hord
    exact ⟨hbottom, .inr ⟨hvalue, a, n, b, htop, hs⟩⟩

end

end OpenSSHServerPN.SshdConfig
