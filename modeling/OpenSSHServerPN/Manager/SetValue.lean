/-
What `Get` and `GetAll` read after `Set`.

`Set` writes a line of the keyword, a blank and the value, followed by the comment of the line it replaces; `Get` splits that
line again. The value comes back unless the line reads differently: blanks around it are not kept, a `=` at its start is
taken for the separator, and a backslash at its end protects the blank in front of the comment (`readsBack`).

Results:
- `cutWith`: where the comment starts in a value with a comment behind it;
- `set_one_keyword_iff`: for a keyword but Match and Include and a value with balanced quotation marks and no comment, `Set`
  is read back and leaves the rest as it was, exactly if the value and the replaced line meet `readsBack`;
- `comment_becomes_value`: the comment behind a folder that ends in a backslash becomes part of its name.
-/
import OpenSSHServerPN.Manager.SetLines

namespace OpenSSHServerPN.SshdConfig

open Argv Edit Servconf List

/-! ## A comment behind a value -/

/-- the quotation mark that is open at the end of a text, and whether its last character is a backslash that protects the
next one -/
def ending : Option Char → Text → Option Char × Bool
  | quote, [] => (quote, false)
  | quote, ['\\'] => (quote, true)
  | quote, '\\' :: d :: s => if escapes quote d then ending quote s else ending quote (d :: s)
  | some q, c :: s => ending (if c = q then none else some q) s
  | none, c :: s => ending (if c = '"' ∨ c = '\'' then some c else none) s

/-- what is left of a text with a comment behind it: up to the `#`, or to an earlier one, or with the comment -/
def CutWith (k : Text) (quote : Option Char) (argStart : Bool) (s : Text) : Prop :=
  let cut := (cutComment quote argStart (s ++ ' ' :: '#' :: k)).1
  ((cutComment quote argStart s).2 = [] → if (ending quote s).2 then ∃ w, cut = s ++ ' ' :: '#' :: w else cut = s ++ [' ']) ∧
    ((cutComment quote argStart s).2 ≠ [] → cut = (cutComment quote argStart s).1)

theorem CutWith.cons {k x s : Text} {quote quote' : Option Char} {argStart : Bool} (argStart' : Bool)
    (hs : ∀ t, cutComment quote argStart (x ++ (s ++ t)) =
      (x ++ (cutComment quote' argStart' (s ++ t)).1, (cutComment quote' argStart' (s ++ t)).2))
    (he : ending quote (x ++ s) = ending quote' s) (h : CutWith k quote' argStart' s) : CutWith k quote argStart (x ++ s) := by
  have hnil := hs []
  rw [append_nil] at hnil
  unfold CutWith
  simp only [append_assoc, hs, hnil, he]
  refine ⟨fun hc => ?_, fun hc => by rw [h.2 hc]⟩
  have hcut := h.1 hc
  split_ifs at hcut ⊢
  · obtain ⟨w, hw⟩ := hcut
    exact ⟨w, by rw [hw]⟩
  · rw [hcut]

/-- **A comment behind a text.** A backslash at the end makes it part of the last argument. -/
theorem cutWith (k : Text) (quote : Option Char) (argStart : Bool) (s : Text) (h : (ending quote s).1 = none) :
    CutWith k quote argStart s := by
  fun_induction ending quote s generalizing argStart with
  | case1 quote =>
    obtain rfl : quote = none := h
    exact ⟨fun _ => rfl, absurd rfl⟩
  | case2 quote =>
    obtain rfl : quote = none := h
    cases argStart <;> exact ⟨fun _ => ⟨_, rfl⟩, absurd rfl⟩
  | case3 quote d s hesc ih =>
    refine CutWith.cons (x := ['\\', d]) false (fun t => ?_) ?_ (ih _ h)
    · simp [cutComment, hesc]
    · simp [ending, hesc]
  | case4 quote d s hesc ih =>
    refine CutWith.cons (x := ['\\']) (quote.isSome && argStart) (fun t => ?_) ?_ (ih _ h)
    · simp [cutComment, hesc]
    · simp [ending, hesc]
  | case5 q c s hlast hpair ih =>
    have hc : c ≠ '\\' := by
      rintro rfl
      cases s with
      | nil => exact hlast rfl rfl
      | cons d s => exact hpair d s rfl rfl
    refine CutWith.cons (x := [c]) argStart (fun t => ?_) ?_ (ih _ h)
    · simp [cutComment, hc]
    · simp [ending]
  | case6 c s hlast hpair ih =>
    have hc : c ≠ '\\' := by
      rintro rfl
      cases s with
      | nil => exact hlast rfl rfl
      | cons d s => exact hpair d s rfl rfl
    by_cases hblank : isBlank c = true
    · have hquote : ¬(c = '"' ∨ c = '\'') := by
        rintro (rfl | rfl) <;> exact absurd hblank (by decide)
      refine CutWith.cons (x := [c]) true (fun t => ?_) ?_ (ih _ h)
      · simp [cutComment, hc, hblank, hquote]
      · simp [ending]
    by_cases hhash : c = '#' ∧ argStart = true
    · obtain ⟨rfl, rfl⟩ := hhash
      exact ⟨fun hnil => by simp [cutComment, isBlank] at hnil, fun _ => by simp [cutComment, isBlank]⟩
    · refine CutWith.cons (x := [c]) false (fun t => ?_) ?_ (ih _ h)
      · simp [cutComment, hc, hblank, hhash]
      · simp [ending]

theorem cutComment_parts (quote : Option Char) (argStart : Bool) (s : Text) :
    (cutComment quote argStart s).1 ++ (cutComment quote argStart s).2 = s := by
  fun_induction cutComment quote argStart s <;> simp_all

/-! ## Reading the written line -/

/-- balanced quotation marks, and no comment -/
def whole (value : Text) : Bool := (ending none value).1 = none && (cutComment none true value).2 = []

/-- the value is trimmed and does not start with `=`, and it does not end in a backslash where a comment follows -/
def readsBack (net : Dotnet) (lines : Lines) (kw value : Text) : Prop :=
  trimText value = value ∧ value.head? ≠ some '=' ∧
    ((ending none value).2 = true → ∀ l ∈ (top net lines).find? (hasKey kw), ∀ d ∈ split l, d.comment = [])

theorem countP_trimText {p : Char → Bool} (hp : ∀ c, isSpace c = true → p c = false) (t : Text) :
    (trimText t).countP p = t.countP p ∧ (trimStart t).countP p = t.countP p := by
  have hdrop : ∀ t : Text, (t.dropWhile isSpace).countP p = t.countP p := by
    intro t
    have hzero : (t.takeWhile isSpace).countP p = 0 :=
      countP_eq_zero.2 fun c hc => by simp [hp c (mem_takeWhile_imp hc)]
    conv_rhs => rw [← takeWhile_append_dropWhile (l := t), countP_append, hzero, Nat.zero_add]
  refine ⟨?_, hdrop t⟩
  rw [trimText, trim, countP_reverse, hdrop, countP_reverse, hdrop]

/-- a text is not the value if it has fewer characters, blanks apart, or more `#` -/
theorem trimText_ne {t value : Text}
    (h : t.countP (!isSpace ·) < value.countP (!isSpace ·) ∨ value.countP (· == '#') < t.countP (· == '#')) :
    trimText t ≠ value := by
  rintro rfl
  have hchars := (countP_trimText (p := (!isSpace ·)) (fun c hc => by simp [hc]) t).1
  have hhash := (countP_trimText (p := (· == '#')) (fun c hc => beq_eq_false_iff_ne.2 (by rintro rfl; cases hc)) t).1
  omega

theorem ending_trimStart (t : Text) : ending none (trimStart t) = ending none t := by
  induction t with
  | nil => rfl
  | cons c t ih =>
    by_cases hc : isSpace c = true
    · have hne : ∀ d, isSpace d = false → c ≠ d := fun d hd heq => by rw [heq, hd] at hc; cases hc
      have hback := hne '\\' (by decide)
      have hquotes : ¬(c = '"' ∨ c = '\'') := by simp [hne '"' (by decide), hne '\'' (by decide)]
      rw [trimStart, dropWhile_cons_of_pos hc, ← trimStart, ih]
      simp [ending, hquotes, hback]
    · rw [trimStart, dropWhile_cons_of_neg hc]

/-- **A `=` in front is lost**, whatever comment follows. -/
theorem equals_lost {r x : Text} (hend : (ending none r).1 = none) (hx : x = r ∨ ∃ k, x = r ++ ' ' :: '#' :: k) :
    trimText (cutComment none true (trimStart x)).1 ≠ '=' :: r := by
  have hpart : ∀ s : Text, (cutComment none true s).1.countP (!isSpace ·) ≤ s.countP (!isSpace ·) := by
    intro s
    conv_rhs => rw [← cutComment_parts none true s, countP_append]
    exact Nat.le_add_right _ _
  have hr := (countP_trimText (p := (!isSpace ·)) (fun c hc => by simp [hc]) r).2
  have hvalue : ('=' :: r).countP (!isSpace ·) = r.countP (!isSpace ·) + 1 := by rw [countP_cons]; rfl
  refine trimText_ne ?_
  rcases hx with rfl | ⟨k, rfl⟩
  · exact .inl (by have := hpart (trimStart x); omega)
  by_cases hnil : trimStart r = []
  · -- nothing but the comment is left
    have hall : trimStart (r ++ ' ' :: '#' :: k) = '#' :: k := by
      rw [trimStart, dropWhile_append, ← trimStart, hnil]
      rfl
    exact .inl (by rw [hall, hvalue]; exact Nat.succ_pos _)
  · have hkeep : trimStart (r ++ ' ' :: '#' :: k) = trimStart r ++ ' ' :: '#' :: k := by
      rw [trimStart, dropWhile_append, if_neg (by simpa [trimStart] using hnil), ← trimStart]
    obtain ⟨hplain, hearly⟩ := cutWith k none true (trimStart r) (by rw [ending_trimStart, hend])
    rw [hkeep]
    by_cases hcut : (cutComment none true (trimStart r)).2 = []
    · have hplain := hplain hcut
      split_ifs at hplain
      · obtain ⟨w, hw⟩ := hplain
        have hhash := (countP_trimText (p := (· == '#')) (fun c hc => beq_eq_false_iff_ne.2 (by rintro rfl; cases hc)) r).2
        right
        rw [hw, countP_append, hhash]
        simp
      · have hblank : countP (!isSpace ·) [' '] = 0 := rfl
        exact .inl (by rw [hplain, countP_append]; omega)
    · exact .inl (by rw [hearly hcut]; have := hpart (trimStart r); omega)

/-! ## After `Set` -/

section
variable {net : Dotnet} {lines lines' : Lines} {kw value : Text}

theorem getAll_eq (net : Dotnet) (lines : Lines) (kw : Text) :
    getAll net lines kw = (top net lines).filterMap fun l => if hasKey kw l then split l else none := by
  rw [getAll, filterMap_filter]

theorem skips_other {kw' : Text} (hne : lower kw' ≠ lower kw) (ls : Lines) :
    Skips (fun l => if hasKey kw' l then split l else none) kw ls where
  key := by
    intro l _ hkey
    refine if_neg fun hkey' => hne (hasKey_unique hkey' hkey)
  comment := fun s => by
    have hno : hasKey kw' ('#' :: s) = false := by
      obtain ⟨t, ht⟩ := trim_cons isSpace (a := '#') (by decide) s
      have hkey : (trimText ('#' :: s)).takeWhile isAlnum = [] := by
        rw [trimText, ht]
        rfl
      simp [hasKey, split, hkey]
    simp [hno]
  blank := rfl
  unread := fun l _ hsplit => by simp [hsplit]

variable {a b : Lines} {n : Text}

theorem get_written (htop : top net lines' = a ++ n :: b) (hshape : Shape kw value (top net lines) a n b)
    {d : Directive} (hsplit : split n = some d) (hkey : hasKey kw n = true) : get net lines' kw = some d.value := by
  have hnone : a.filterMap (fun l => if hasKey kw l then split l else none) = [] :=
    filterMap_eq_nil_iff.2 fun x hx => by simp [(hshape.before x hx).2]
  rw [get, getAll_eq, htop, filterMap_append, hnone, filterMap_cons_some (b := d) (by simp [hkey, hsplit])]
  rfl

theorem line_tail (hshape : Shape kw value (top net lines) a n b) :
    (n = kw ++ ' ' :: value ∧ ∀ l ∈ (top net lines).find? (hasKey kw), ∀ d ∈ split l, d.comment = []) ∨
      (∃ k, n = kw ++ ' ' :: (value ++ ' ' :: '#' :: k) ∧ Trimmed ('#' :: k)) ∧
        ¬∀ l ∈ (top net lines).find? (hasKey kw), ∀ d ∈ split l, d.comment = [] := by
  have hline := hshape.line
  cases hfind : (top net lines).find? (hasKey kw) with
  | none =>
    rw [hfind] at hline
    exact .inl ⟨hline, nofun⟩
  | some l =>
    obtain ⟨d, hd, -⟩ := hasKey_iff.1 (find?_some hfind)
    rw [hfind] at hline
    simp only [Option.map_some, withComment, hd] at hline
    by_cases hnone : d.comment = []
    · rw [if_pos hnone] at hline
      exact .inl ⟨hline, by simp [hd, hnone]⟩
    · obtain ⟨k, z, hk, hz, hspace⟩ := split_comment hd hnone
      rw [hk] at hline
      exact .inr ⟨⟨k, by simp [hline], ⟨'#', rfl, by decide⟩, z, hz, hspace⟩, by simp [hd, hnone]⟩

theorem trimText_blank (h : Trimmed value) : trimText (value ++ [' ']) = value := by
  obtain ⟨a, ha, hsa⟩ := h.head
  obtain ⟨z, hz, hsz⟩ := h.last
  obtain ⟨u, rfl⟩ := getLast?_eq_some_iff.1 hz
  have hfront : (u ++ [z] ++ [' ']).dropWhile isSpace = u ++ [z] ++ [' '] := by
    cases u with
    | nil => simp [hsz]
    | cons b u =>
      obtain rfl : b = a := by simpa using ha
      simp [hsa]
  have hblank : isSpace ' ' = true := by decide
  rw [trimText, trim, hfront]
  simp [hblank, hsz]

/-- **Whether the value is read back.** -/
theorem written_iff (hkw : IsKeyword kw) (htrim : Trimmed value) (hwhole : whole value = true)
    (htop : top net lines' = a ++ n :: b) (hshape : Shape kw value (top net lines) a n b) :
    get net lines' kw = some value ↔ readsBack net lines kw value := by
  simp only [whole, Bool.and_eq_true, decide_eq_true_eq] at hwhole
  obtain ⟨hclosed, huncut⟩ := hwhole
  have hself := trimText_of_trimmed htrim
  have hget : ∀ {tail}, n = kw ++ ' ' :: tail → Trimmed tail →
      (get net lines' kw = some value ↔ trimText (cutComment none true (afterEquals tail)).1 = value) := by
    rintro tail rfl htail
    obtain ⟨k, hsplit⟩ := split_line hkw.alnum hkw.nonempty htail
    rw [get_written htop hshape hsplit (hasKey_line hkw.alnum hkw.nonempty htail), Option.some.injEq]
  have hcut : (cutComment none true value).1 = value := by
    have hparts := cutComment_parts none true value
    rwa [huncut, append_nil] at hparts
  -- the value starts with `=` or is read from its first character on
  obtain ⟨c, hc, hsc⟩ := htrim.head
  obtain ⟨r, rfl⟩ := head?_eq_some_iff.1 hc
  have hspaced : ∀ {k}, Trimmed ('#' :: k) → Trimmed (c :: r ++ ' ' :: '#' :: k) := by
    intro k hk
    obtain ⟨z, hz, hsz⟩ := hk.last
    exact ⟨⟨c, rfl, hsc⟩, z, by rw [getLast?_append, getLast?_cons_cons, hz]; rfl, hsz⟩
  by_cases heq : c = '='
  · subst heq
    have hend : (ending none r).1 = none := by simpa [ending] using hclosed
    have hlost : get net lines' kw ≠ some ('=' :: r) := by
      rcases line_tail hshape with ⟨hn, -⟩ | ⟨⟨k, hn, hk⟩, -⟩
      · exact fun h => equals_lost hend (.inl rfl) ((hget hn htrim).1 h)
      · exact fun h => equals_lost hend (.inr ⟨k, rfl⟩) ((hget hn (hspaced hk)).1 h)
    exact ⟨fun h => absurd h hlost, fun h => absurd rfl h.2.1⟩
  have hafter : ∀ t, afterEquals (c :: t) = c :: t := fun t => by simp [afterEquals, heq]
  rcases line_tail hshape with ⟨hn, hnone⟩ | ⟨⟨k, hn, hk⟩, hsome⟩
  · rw [hget hn htrim, hafter, hcut]
    exact ⟨fun _ => ⟨hself, by simp [heq], fun _ => hnone⟩, fun _ => hself⟩
  rw [hget hn (hspaced hk), cons_append, hafter]
  have hplain := (cutWith k none true (c :: r) hclosed).1 huncut
  rw [cons_append] at hplain
  split_ifs at hplain with hback
  · obtain ⟨w, hw⟩ := hplain
    have hmore : trimText (cutComment none true (c :: (r ++ ' ' :: '#' :: k))).1 ≠ c :: r := by
      refine trimText_ne (.inr ?_)
      rw [hw, countP_append]
      simp
    exact ⟨fun h => absurd h hmore, fun h => absurd (h.2.2 hback) hsome⟩
  · rw [hplain, trimText_blank htrim]
    exact ⟨fun _ => ⟨hself, by simp [heq], fun h => absurd h hback⟩, fun _ => rfl⟩

/-- **Setting one keyword.** -/
theorem set_one_keyword_iff (hkw : IsKeyword kw) (hvalue : value ≠ []) (hwhole : whole value = true)
    (hset : set net lines kw value = .ok lines') : (get net lines' kw = some value ∧
      (∀ kw', lower kw' ≠ lower kw → (getAll net lines' kw').map Directive.value = (getAll net lines kw').map Directive.value) ∧
      bottom net lines' = bottom net lines) ↔ readsBack net lines kw value := by
  obtain ⟨hbottom, hcases⟩ := set_cases hkw hset
  by_cases hself : trimText value = value
  · obtain ⟨hnil, -⟩ | ⟨hne, a, n, b, htop, hshape⟩ := hcases
    · exact absurd (hself.symm.trans hnil) hvalue
    have htrim := trimmed_trimText hne
    rw [hself] at hshape htrim
    rw [written_iff hkw htrim hwhole htop hshape]
    refine and_iff_left ⟨fun kw' hother => ?_, hbottom⟩
    obtain ⟨tail, hn, htail⟩ := hshape.new.tail
    have hnkey : hasKey kw n = true := hn ▸ hasKey_line hkw.alnum hkw.nonempty (htail.trimmed htrim)
    have hskips := skips_other hother (top net lines)
    have hnone : (if hasKey kw' n then split n else none) = none := if_neg fun h => hother (hasKey_unique h hnkey)
    rw [getAll_eq, getAll_eq, htop, filterMap_append, filterMap_cons_none (f := fun l => if hasKey kw' l then split l else none)
      hnone, ← filterMap_append, hshape.order _ hskips]
  · refine ⟨fun h => absurd ?_ hself, fun h => absurd h.1 hself⟩
    obtain ⟨d, hd, hv⟩ := Option.map_eq_some_iff.1 h.1
    obtain ⟨l, -, hl⟩ := mem_filterMap.1 (mem_of_mem_head? hd)
    rw [← hv]
    exact split_value_trimmed hl

end

/-- a port in place of the last one, below an Include and in front of a Match block -/
theorem set_port_read_back :
    get asciiNet ["Include x".toList, "Port 2200 # b".toList, "#Port 23".toList, [], "Match all".toList] "Port".toList =
        some "2200".toList ∧ (∀ kw', lower kw' ≠ lower "Port".toList →
        (getAll asciiNet ["Include x".toList, "Port 2200 # b".toList, "#Port 23".toList, [], "Match all".toList] kw').map
            Directive.value =
          (getAll asciiNet ["Include x".toList, "Port 22 # b".toList, "Port 23".toList, [], "Match all".toList] kw').map
            Directive.value) ∧
      bottom asciiNet ["Include x".toList, "Port 2200 # b".toList, "#Port 23".toList, [], "Match all".toList] =
        bottom asciiNet ["Include x".toList, "Port 22 # b".toList, "Port 23".toList, [], "Match all".toList] :=
  (@set_one_keyword_iff asciiNet _ _ "Port".toList _ ⟨by decide, by decide, by decide, by decide⟩ (by decide)
    (by decide +kernel) (by decide +kernel)).2 ⟨by decide +kernel, by decide, by decide +kernel⟩

/-- **The comment becomes part of the value.** -/
theorem comment_becomes_value :
    ∃ lines', set asciiNet ["ChrootDirectory C:\\jail # all".toList] "ChrootDirectory".toList "D:\\jail\\".toList = .ok lines' ∧
      whole "D:\\jail\\".toList = true ∧
      get asciiNet lines' "ChrootDirectory".toList = some "D:\\jail\\ # all".toList :=
  ⟨["ChrootDirectory D:\\jail\\ # all".toList], by decide +kernel⟩

end OpenSSHServerPN.SshdConfig
