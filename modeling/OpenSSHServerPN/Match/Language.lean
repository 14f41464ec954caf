/-
Patterns as languages, and lists of patterns.

`language` is the set of texts a pattern stands for, a product of one language for each of its characters.
`matchPatternOriginal` is the recursive matcher the unit test compares with, and `matchCounted` is `match_pattern` with the
steps of its loops counted. A list of patterns is cut at its commas.

Results:
- `matchPattern_language`: automaton, language and recursive matcher agree, and the steps are bounded by a product;
- `pattern_list_verdict`: the verdict on a list is one about the members of the list, in any order.

A text that is empty after the last comma is not an entry (`empty_last_entry`).
-/
import Mathlib.Computability.Language
import OpenSSHServerPN.Match.Glob

namespace OpenSSHServerPN.Match

open List

/-! ## The language of a pattern -/

/-- what one character of a pattern stands for -/
def symbol (p : Char) : Language Char := if p = '*' then ⊤ else if p = '?' then {w | w.length = 1} else {[p]}

def language : Text → Language Char
  | [] => 1
  | p :: ps => symbol p * language ps

theorem anySuffix_iff (f : Text → Bool) (s : Text) : anySuffix f s = true ↔ ∃ a b, a ++ b = s ∧ f b = true := by
  induction s with
  | nil => simp [anySuffix]
  | cons c s ih =>
    rw [anySuffix, Bool.or_eq_true, ih]
    constructor
    · rintro (h | ⟨a, b, rfl, h⟩)
      · exact ⟨[], _, rfl, h⟩
      · exact ⟨c :: a, b, rfl, h⟩
    · rintro ⟨_ | ⟨d, a⟩, b, hab, h⟩
      · exact .inl (hab ▸ h)
      · exact .inr ⟨a, b, (cons.inj hab).2, h⟩

theorem glob_iff_language (pattern s : Text) : glob pattern s = true ↔ s ∈ language pattern := by
  induction pattern generalizing s with
  | nil => simp [glob, language]
  | cons p ps ih =>
    by_cases hp : p = '*'
    · subst hp
      rw [glob_star, anySuffix_iff]
      have htop : ∀ a : Text, a ∈ symbol '*' := fun a => trivial
      constructor
      · rintro ⟨a, b, hab, h⟩
        exact ⟨a, htop a, b, (ih b).1 h, hab⟩
      · rintro ⟨a, -, b, h, hab⟩
        exact ⟨a, b, hab, (ih b).2 h⟩
    · have hone : ∀ a : Text, a ∈ symbol p ↔ ∃ c, a = [c] ∧ (p == '?' || p == c) = true := by
        intro a
        by_cases hq : p = '?'
        · subst hq
          exact length_eq_one_iff.trans (by simp)
        · simp only [symbol, if_neg hp, Bool.or_eq_true, beq_iff_eq, hq, false_or, exists_eq_right']
          exact Iff.rfl
      cases s with
      | nil =>
        simp only [glob_cons_nil hp, Bool.false_eq_true, false_iff]
        rintro ⟨a, ha, b, -, hab⟩
        obtain ⟨c, rfl, -⟩ := (hone a).1 ha
        cases hab
      | cons c s =>
        rw [glob_cons hp, Bool.and_eq_true, ih]
        constructor
        · rintro ⟨hc, hs⟩
          exact ⟨[c], (hone _).2 ⟨c, rfl, hc⟩, s, hs, rfl⟩
        · rintro ⟨a, ha, b, hb, hab⟩
          obtain ⟨d, rfl, hd⟩ := (hone a).1 ha
          obtain ⟨rfl, rfl⟩ := cons.inj hab
          exact ⟨hd, hb⟩

/-! ## The recursive matcher -/

/-- `match_pattern_original(s, pattern)` of the unit test: a star looks for the next character of the pattern, or, before a
question mark, tries every position that is not the end -/
def matchPatternOriginal : Text → Text → Bool
  | s, [] => s.isEmpty
  | s, p :: ps =>
    if p = '*' then
      match ps with
      | [] => true
      | q :: qs =>
        if q = '*' then matchPatternOriginal s (q :: qs)
        else if q = '?' then anySuffix (fun t => !t.isEmpty && matchPatternOriginal t (q :: qs)) s
        else anySuffix (fun t => t.head? == some q && matchPatternOriginal t.tail qs) s
    else
      match s with
      | [] => false
      | c :: s => (p == '?' || p == c) && matchPatternOriginal s ps

theorem matchPatternOriginal_cons {p : Char} (hp : p ≠ '*') (c : Char) (s ps : Text) :
    matchPatternOriginal (c :: s) (p :: ps) = ((p == '?' || p == c) && matchPatternOriginal s ps) := by
  cases ps <;> simp [matchPatternOriginal, hp]

theorem glob_star_star (ps s : Text) : glob ('*' :: '*' :: ps) s = glob ('*' :: ps) s := by
  rw [Bool.eq_iff_iff, glob_star, anySuffix_iff]
  constructor
  · rintro ⟨a, b, rfl, h⟩
    rw [glob_star, anySuffix_iff] at h
    obtain ⟨a', b', rfl, h⟩ := h
    rw [glob_star, anySuffix_iff]
    exact ⟨a ++ a', b', append_assoc .., h⟩
  · exact fun h => ⟨[], s, rfl, h⟩

theorem matchPatternOriginal_eq (s pattern : Text) : matchPatternOriginal s pattern = glob pattern s := by
  induction pattern generalizing s with
  | nil => simp [matchPatternOriginal, glob]
  | cons p ps ih =>
    by_cases hp : p = '*'
    · subst hp
      cases ps with
      | nil =>
        have hend : anySuffix (glob []) s = true := (anySuffix_iff _ _).2 ⟨s, [], append_nil s, rfl⟩
        rw [glob_star, hend]
        rfl
      | cons q qs =>
        simp only [matchPatternOriginal, if_true]
        split_ifs with hq hq'
        · subst hq
          rw [ih, glob_star_star]
        · rw [glob_star]
          -- a question mark needs a character, so the end need not be tried
          congr 1
          funext t
          cases t with
          | nil => simp [glob_cons_nil hq]
          | cons c t => simp [ih]
        · congr 1
          funext t
          cases t with
          | nil => simp [glob_cons_nil hq]
          | cons c t =>
            have hq'' : (q == '?') = false := by simpa using hq'
            rw [← ih, matchPatternOriginal_cons hq, hq'', BEq.comm]
            rfl
    · cases s with
      | nil => cases ps <;> simp [matchPatternOriginal, hp, glob_cons_nil hp]
      | cons c s => rw [matchPatternOriginal_cons hp, glob_cons hp, ih]

/-! ## Steps -/

/-- `matchLoop` with a count: `per` for each set of states it computes -/
def loopCounted (per : List Bool → ℕ) (pattern : Text) : List Bool → Text → Bool × ℕ
  | states, [] => (states.getLastD false, 0)
  | states, c :: s =>
    let next := epsilonClosure pattern (nextStates c false pattern states)
    if next.any id then
      let rest := loopCounted per pattern next s
      (rest.1, per next + rest.2)
    else (false, per next)

/-- `match_pattern` with a count, `before` for the first closure -/
def matchCounted (before : ℕ) (per : List Bool → ℕ) (s pattern : Text) : Bool × ℕ :=
  if pattern = [] then (s = [], 0)
  else
    let run := loopCounted per pattern (epsilonClosure pattern (true :: List.replicate pattern.length false)) s
    (run.1, before + run.2)

/-- the moves out of the states, `for (i = 0; i < M; i++)` for each character -/
def stateSteps (s pattern : Text) : Bool × ℕ := matchCounted 0 (fun _ => pattern.length) s pattern

/-- the rounds of all loops: moves, closures, and the search for an active state, which stops at the first one -/
def loopSteps (s pattern : Text) : Bool × ℕ :=
  matchCounted pattern.length
    (fun next => pattern.length + pattern.length + min (next.findIdx id + 1) (pattern.length + 1)) s pattern

theorem loopCounted_spec {per : List Bool → ℕ} {k : ℕ} (hper : ∀ next, per next ≤ k) (pattern : Text)
    (states : List Bool) (s : Text) : (loopCounted per pattern states s).1 = matchLoop pattern states s ∧
      (loopCounted per pattern states s).2 ≤ s.length * k := by
  induction s generalizing states with
  | nil => simp [loopCounted, matchLoop]
  | cons c s ih =>
    have hnext := hper (epsilonClosure pattern (nextStates c false pattern states))
    rw [loopCounted, matchLoop, length_cons, Nat.add_mul, Nat.one_mul]
    split
    · obtain ⟨hrun, hcount⟩ := ih (epsilonClosure pattern (nextStates c false pattern states))
      exact ⟨hrun, by dsimp only; omega⟩
    · exact ⟨rfl, by dsimp only; omega⟩

theorem matchCounted_spec {per : List Bool → ℕ} {k : ℕ} (hper : ∀ next, per next ≤ k) (before : ℕ) (s pattern : Text) :
    (matchCounted before per s pattern).1 = matchPattern s pattern ∧
      (matchCounted before per s pattern).2 ≤ before + s.length * k := by
  unfold matchCounted matchPattern
  split
  · exact ⟨rfl, Nat.zero_le _⟩
  · obtain ⟨hrun, hcount⟩ := loopCounted_spec hper pattern
      (epsilonClosure pattern (true :: replicate pattern.length false)) s
    exact ⟨hrun, by dsimp only; omega⟩

/-- **What `match_pattern` accepts, and what it costs.** It accepts the language of the pattern, as the recursive matcher
does; the moves out of states are at most the product of the lengths, and all its loops together stay within four times the
product with the terminating NUL counted. -/
theorem matchPattern_language (s pattern : Text) : (matchPattern s pattern = true ↔ s ∈ language pattern) ∧
      matchPattern s pattern = matchPatternOriginal s pattern ∧
      (stateSteps s pattern).1 = matchPattern s pattern ∧ (stateSteps s pattern).2 ≤ s.length * pattern.length ∧
      (loopSteps s pattern).1 = matchPattern s pattern ∧
      (loopSteps s pattern).2 ≤ 4 * ((s.length + 1) * pattern.length) := by
  have hlanguage : matchPattern s pattern = true ↔ s ∈ language pattern := by
    rw [matchPattern_eq_glob, glob_iff_language]
  have horiginal : matchPattern s pattern = matchPatternOriginal s pattern := by
    rw [matchPattern_eq_glob, matchPatternOriginal_eq]
  obtain ⟨hrun, hcount⟩ := matchCounted_spec (fun _ => le_refl pattern.length) 0 s pattern
  obtain ⟨hall, htotal⟩ := matchCounted_spec
    (fun next => Nat.add_le_add_left (min_le_right (next.findIdx id + 1) _) _) pattern.length s pattern
  refine ⟨hlanguage, horiginal, hrun, hcount.trans (Nat.zero_add _).le, hall, ?_⟩
  rcases Nat.eq_zero_or_pos pattern.length with h | h
  · rw [length_eq_zero_iff] at h
    subst h
    exact Nat.zero_le _
  · calc (loopSteps s pattern).2
        ≤ pattern.length + s.length * (pattern.length + pattern.length + (pattern.length + 1)) := htotal
      _ ≤ pattern.length + s.length * (4 * pattern.length) := by gcongr; omega
      _ ≤ 4 * ((s.length + 1) * pattern.length) := by linarith

/-! ## Lists of patterns -/

def dropEmptyLast (es : List Text) : List Text := if es.getLast? = some [] then es.dropLast else es

/-- the texts between commas, without an empty last one -/
def listed (list : Text) : List Text := dropEmptyLast (list.splitOn ',')

/-- the pattern of an entry, without its `!` -/
def entryPattern (dolower : Bool) (e : Text) : Text :=
  let sub := if e.head? = some '!' then e.tail else e
  if dolower then sub.map Char.toLower else sub

/-- a negated (or positive) entry whose pattern matches -/
def Hit (string : Text) (dolower negated : Bool) (e : Text) : Prop :=
  (e.head? = some '!' ↔ negated = true) ∧ matchPattern string (entryPattern dolower e) = true

instance (string : Text) (dolower negated : Bool) (e : Text) : Decidable (Hit string dolower negated e) :=
  inferInstanceAs (Decidable (_ ∧ _))

theorem dropEmptyLast_cons (e : Text) {es : List Text} (hes : es ≠ []) :
    dropEmptyLast (e :: es) = e :: dropEmptyLast es := by
  obtain ⟨e', es', rfl⟩ := exists_cons_of_ne_nil hes
  simp only [dropEmptyLast, getLast?_cons_cons]
  split <;> rfl

theorem modifyHead_nil_append (es : List Text) : es.modifyHead (([] : Text) ++ ·) = es := by
  cases es <;> rfl

/-- the entries from the middle of one, `cur` being what is read of it -/
theorem entries_eq {cur : Option Text} (hcur : cur ≠ some []) (list : Text) :
    entries cur list = dropEmptyLast ((list.splitOnP (· == ',')).modifyHead ((cur.getD []).reverse ++ ·)) := by
  induction list generalizing cur with
  | nil =>
    cases cur with
    | none => rfl
    | some cur => simp_all [entries, dropEmptyLast]
  | cons c cs ih =>
    rw [entries, splitOnP_cons_eq_if_modifyHead]
    by_cases hc : c = ','
    · have hnone := @ih none (by simp)
      rw [Option.getD_none, reverse_nil, modifyHead_nil_append] at hnone
      simp only [hc, if_true, beq_self_eq_true, modifyHead_cons, append_nil]
      rw [dropEmptyLast_cons _ (by simp), hnone]
    · have hcb : (c == ',') = false := by simpa using hc
      simp only [if_neg hc, hcb, Bool.false_eq_true, if_false, modifyHead_modifyHead]
      rw [ih (by simp)]
      congr 2
      funext t
      simp

theorem entries_eq_listed (list : Text) : entries none list = listed list := by
  rw [entries_eq (by simp), Option.getD_none, reverse_nil, modifyHead_nil_append]
  rfl

section
variable (string : Text) (dolower : Bool)

theorem matchEntries_verdict {es : List Text} (hlen : ∀ e ∈ es, e.length < 1023) (got : Bool) :
    ((∃ e ∈ es, Hit string dolower true e) → matchEntries string dolower got es = -1) ∧
      ((¬∃ e ∈ es, Hit string dolower true e) → matchEntries string dolower got es =
          if got = true ∨ ∃ e ∈ es, Hit string dolower false e then 1 else 0) := by
  induction es generalizing got with
  | nil => simp [matchEntries]
  | cons e es ih =>
    obtain ⟨he, hes⟩ := forall_mem_cons.1 hlen
    have hfits : ¬1023 ≤ (entryPattern dolower e).length := by
      unfold entryPattern
      split_ifs <;> simp <;> omega
    have hstep : matchEntries string dolower got (e :: es) = if matchPattern string (entryPattern dolower e) then
          if e.head? = some '!' then -1 else matchEntries string dolower true es
        else matchEntries string dolower got es := if_neg hfits
    rw [hstep]
    by_cases hm : matchPattern string (entryPattern dolower e) = true
    · rw [if_pos hm]
      by_cases hn : e.head? = some '!'
      · have hneg : Hit string dolower true e := ⟨by simp [hn], hm⟩
        simp [hn, hneg]
      · have hneg : ¬Hit string dolower true e := fun h => hn (h.1.2 rfl)
        have hpos : Hit string dolower false e := ⟨by simp [hn], hm⟩
        rw [if_neg hn]
        simpa [hneg, hpos] using ih hes true
    · have hmiss : ∀ negated, ¬Hit string dolower negated e := fun _ h => hm h.2
      rw [if_neg hm]
      simpa [hmiss] using ih hes got

/-- **The verdict on a list.** With entries that fit the buffer it is -1 if a negated entry's pattern matches, else 1 if a
positive one matches, else 0; lists of the same entries in another order get the same verdict. -/
theorem pattern_list_verdict (list : Text) (hlen : ∀ e ∈ listed list, e.length < 1023) :
    (matchPatternList string list dolower = -1 ↔ ∃ e ∈ listed list, Hit string dolower true e) ∧
      ((¬∃ e ∈ listed list, Hit string dolower true e) →
        matchPatternList string list dolower = if ∃ e ∈ listed list, Hit string dolower false e then 1 else 0) ∧
      ∀ list', (listed list').Perm (listed list) →
        matchPatternList string list' dolower = matchPatternList string list dolower := by
  have hverdict : ∀ list' : Text, (∀ e, e ∈ listed list' ↔ e ∈ listed list) →
      matchPatternList string list' dolower = if ∃ e ∈ listed list, Hit string dolower true e then -1
        else if ∃ e ∈ listed list, Hit string dolower false e then 1 else 0 := by
    intro list' hsame
    have hlen' : ∀ e ∈ listed list', e.length < 1023 := fun e he => hlen e ((hsame e).1 he)
    obtain ⟨hneg, hpos⟩ := matchEntries_verdict string dolower hlen' false
    simp only [hsame, Bool.false_eq_true, false_or] at hneg hpos
    rw [matchPatternList, entries_eq_listed]
    split_ifs with h hp
    · exact hneg h
    · rw [hpos h, if_pos hp]
    · rw [hpos h, if_neg hp]
  have hlist := hverdict list fun _ => Iff.rfl
  refine ⟨?_, fun h => by rw [hlist, if_neg h], fun list' hperm => ?_⟩
  · rw [hlist]
    split_ifs <;> simp_all
  · rw [hlist, hverdict list' fun _ => hperm.mem_iff]

theorem pattern_list_verdict_negated :
    matchPatternList "eve" "e*,!EV?" true = -1 ∧ matchPatternList "eve" "!EV?,e*" true = -1 :=
  have h := pattern_list_verdict "eve" true "!EV?,e*" (by decide +kernel)
  have hneg := h.1.2 ⟨"!EV?", by decide +kernel⟩
  ⟨(h.2.2 "e*,!EV?" (by decide +kernel)).trans hneg, hneg⟩

/-- **The last entry.** The empty text after a comma at the end is no entry, before the comma it is one. -/
theorem empty_last_entry : ("a,".toList.splitOn ',').Perm (",a".toList.splitOn ',') ∧
      matchPatternList "" ",a" false = 1 ∧ matchPatternList "" "a," false = 0 := by
  decide +kernel

end

end OpenSSHServerPN.Match
