/-
Wildcard patterns and pattern lists (`match.c`).

`matchPattern` is the source's automaton: one state for each character of the pattern and an accepting one, a forward
pass for the `*` transitions, one step for each character of the string. `matchPatternList` walks the comma-separated
entries, with negation, optional lower-casing of the pattern and the limit of the fixed buffer `sub[1024]`.
Strings are lists of characters; `tolower` is that of the C locale, `Char.toLower` (A-Z only).
-/
import Mathlib.Tactic

namespace OpenSSHServerPN

/-- text as the source's `char` strings, without the terminating NUL -/
abbrev Text := List Char

instance : Coe String Text := ⟨String.toList⟩

instance : LawfulBEq Text := inferInstanceAs (LawfulBEq (List Char))

/-- decided along the text, not over all characters -/
instance (priority := high) (t : Text) (p : Char → Prop) [DecidablePred p] : Decidable (∀ k ∈ t, p k) := List.decidableBAll p t

instance (priority := high) (t : Text) (p : Char → Prop) [DecidablePred p] : Decidable (∃ k ∈ t, p k) := List.decidableBEx p t

/-- `tolower` changes the 26 capitals and nothing else -/
theorem toLower_cases {P : Char → Char → Prop}
    (hupper : ∀ n : Fin 26, P (Char.ofNat (65 + n.val)) (Char.ofNat (65 + n.val)).toLower)
    (hsame : ∀ c, c.toLower = c → P c c) (c : Char) : P c c.toLower := by
  by_cases h : 'A'.val ≤ c.val ∧ c.val ≤ 'Z'.val
  · have hn : 65 ≤ c.toNat ∧ c.toNat ≤ 90 := h
    have hc : Char.ofNat (65 + (c.toNat - 65)) = c := by
      rw [Nat.add_sub_cancel' hn.1, Char.ofNat_toNat]
    have hletter := hupper ⟨c.toNat - 65, by omega⟩
    simpa only [hc] using hletter
  · have hid : c.toLower = c := by
      exact dif_neg h
    rw [hid]
    exact hsame c hid

/-- a character that is no small letter has no other capital -/
theorem eq_of_toLower {d : Char} (hd : ∀ n : Fin 26, (Char.ofNat (65 + n.val)).toLower ≠ d) {c : Char}
    (h : c.toLower = d) : c = d :=
  toLower_cases (P := fun c e => e = d → c = d) (fun n he => absurd he (hd n)) (fun _ _ he => he) c h

/-- `lowercase` -/
def lower (t : Text) : Text := t.map Char.toLower

namespace Match

/-! ## `match_pattern` -/

/-- `epsilon_closure`: an active state on `*` also activates the next one -/
def epsilonClosure : Text → List Bool → List Bool
  | p :: ps, s :: t :: ss => s :: epsilonClosure ps ((t || (s && p == '*')) :: ss)
  | _, ss => ss

/-- the inner loop: the states reachable on input `c`; `carry` is the move into the state at the head -/
def nextStates (c : Char) : Bool → Text → List Bool → List Bool
  | carry, p :: ps, s :: ss =>
    (carry || (s && p == '*')) :: nextStates c (s && p != '*' && (p == '?' || p == c)) ps ss
  | carry, _, _ => [carry]

/-- the loop over the string, with the early exit when no state is active -/
def matchLoop (pattern : Text) : List Bool → Text → Bool
  | states, [] => states.getLastD false
  | states, c :: s =>
    let next := epsilonClosure pattern (nextStates c false pattern states)
    if next.any id then matchLoop pattern next s else false

/-- `match_pattern(s, pattern)` -/
def matchPattern (s pattern : Text) : Bool :=
  if pattern = [] then s = []
  else matchLoop pattern (epsilonClosure pattern (true :: List.replicate pattern.length false)) s

example : matchPattern "adm" "a*" = true ∧ matchPattern "adm" "a?" = false := by decide

/-! ## `match_pattern_list` -/

/-- the comma-separated entries of a list; the text after the last comma counts only when it is not empty -/
def entries : Option Text → Text → List Text
  | none, [] => []
  | some cur, [] => [cur.reverse]
  | cur, c :: cs => if c = ',' then (cur.getD []).reverse :: entries none cs else entries (some (c :: cur.getD [])) cs

/-- the loop over the entries: a negated match is -1 at once, an entry that fills `sub[1024]` is 0 at once -/
def matchEntries (string : Text) (dolower : Bool) : Bool → List Text → ℤ
  | got, [] => if got then 1 else 0
  | got, e :: es =>
    let negated := e.head? = some '!'
    let sub := if negated then e.tail else e
    let sub := if dolower then sub.map Char.toLower else sub
    if 1023 ≤ sub.length then 0
    else if matchPattern string sub then
      if negated then -1 else matchEntries string dolower true es
    else matchEntries string dolower got es

/-- `match_pattern_list(string, pattern, dolower)` -/
def matchPatternList (string pattern : Text) (dolower : Bool) : ℤ :=
  matchEntries string dolower false (entries none pattern)

example : matchPatternList "eve" "a*,!EVE,e*" true = -1 := by decide

/-- replaces the first occurrence of a character (`*strstr(...) = ...`) -/
def replaceFirst (a b : Char) : Text → Text
  | [] => []
  | c :: cs => if c = a then b :: cs else c :: replaceFirst a b cs

theorem replaceFirst_of_not_mem {a b : Char} {t : Text} (h : a ∉ t) : replaceFirst a b t = t := by
  induction t with
  | nil => rfl
  | cons c t ih =>
    obtain ⟨hc, ht⟩ := not_or.1 fun hmem => h (List.mem_cons.2 hmem)
    rw [replaceFirst, if_neg (Ne.symm hc), ih ht]

end Match

end OpenSSHServerPN
