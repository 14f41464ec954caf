/-
Reading a text by its fixed parts, for lists over an arbitrary alphabet, and decimal numerals.

`after p t` is the rest of `t` behind the front `p`. `firstSplit` cuts at the first occurrence of a separator, as a lazy
loop of a pattern does. `lastSplit` cuts at the last occurrence whose remainder is acceptable, as a greedy loop does that
gives characters back until the rest of the pattern matches. The rules:
- `after_eq_some`: `after` undoes an append;
- `lastSplit_append`: the cut is at a given occurrence if no later one has an acceptable remainder;
- `lastSplit_marked`: this is so if the separator starts with a mark that occurs nowhere behind it;
- `value_toDigits`: a number written in decimal is read back.
-/
import Mathlib.Tactic

namespace Scan

open List

section Split

variable {α : Type*}

variable {q : α}

theorem eq_nil_of_last_mark {x a b : List α} (hx : q ∉ x) (e : x ++ [q] = a ++ q :: b) : b = [] := by
  rcases eq_nil_or_concat b with rfl | ⟨b, z, rfl⟩
  · rfl
  · have h : x ++ [q] = (a ++ q :: b) ++ [z] := by simp [e]
    have hx' : x = a ++ q :: b := (append_inj' h rfl).1
    exact absurd (by simp [hx']) hx

variable [DecidableEq α]

/-- the text behind the front `p` -/
def after : List α → List α → Option (List α)
  | [], t => some t
  | c :: p, d :: t => if c = d then after p t else none
  | _ :: _, [] => none

variable {u : List α}

theorem after_eq_some {p t : List α} : after p t = some u ↔ t = p ++ u := by
  induction p generalizing t with
  | nil => simp [after]
  | cons c p ih =>
    cases t with
    | nil => simp [after]
    | cons d t =>
      by_cases h : c = d
      · subst h
        simp [after, ih]
      · simp [after, h, Ne.symm h]

@[simp] theorem after_append (p t : List α) : after p (p ++ t) = some t := after_eq_some.2 rfl

/-- before and behind the first occurrence of `sep` -/
def firstSplit (sep : List α) : List α → Option (List α × List α)
  | [] => none
  | c :: t =>
    match after sep (c :: t) with
    | some u => some ([], u)
    | none => (firstSplit sep t).map fun p => (c :: p.1, p.2)

theorem firstSplit_eq {sep t front back : List α} (h : firstSplit sep t = some (front, back)) : t = front ++ sep ++ back := by
  induction t generalizing front with
  | nil => cases h
  | cons c t ih =>
    rw [firstSplit] at h
    split at h
    · next u hu =>
      cases h
      exact after_eq_some.1 hu
    · obtain ⟨⟨front', back'⟩, hp, h⟩ := Option.map_eq_some_iff.1 h
      cases h
      rw [ih hp]
      rfl

/-- the separator starts with a mark that the front does not have -/
theorem firstSplit_marked {s x : List α} (hx : q ∉ x) : firstSplit (q :: s) (x ++ (q :: s ++ u)) = some (x, u) := by
  induction x with
  | nil => simp [firstSplit, after]
  | cons c x ih =>
    have hc : q ≠ c := fun h => hx (h ▸ mem_cons_self)
    rw [cons_append, firstSplit, after, if_neg hc, ih fun h => hx (mem_cons_of_mem c h)]
    rfl

/-- before and behind the last occurrence of `sep` with an acceptable remainder -/
def lastSplit (sep : List α) (ok : List α → Bool) : List α → Option (List α × List α)
  | [] => none
  | c :: t =>
    match lastSplit sep ok t with
    | some p => some (c :: p.1, p.2)
    | none =>
      match after sep (c :: t) with
      | some u => if ok u then some ([], u) else none
      | none => none

variable {sep : List α} {ok : List α → Bool}

theorem lastSplit_eq_none {t : List α} (h : ∀ a u, t = a ++ (sep ++ u) → ok u = false) : lastSplit sep ok t = none := by
  induction t with
  | nil => rfl
  | cons c t ih =>
    have ht : lastSplit sep ok t = none := ih fun a u e => h (c :: a) u (by rw [e]; rfl)
    simp only [lastSplit, ht]
    cases hu : after sep (c :: t) with
    | none => rfl
    | some u =>
      have hno : ok u = false := h [] u (by rw [nil_append]; exact after_eq_some.1 hu)
      simp [hno]

/-- **The last acceptable occurrence.** -/
theorem lastSplit_append (x : List α) (hsep : sep ≠ []) (hu : ok u = true)
    (hlast : ∀ a v, a ≠ [] → sep ++ u = a ++ (sep ++ v) → ok v = false) :
    lastSplit sep ok (x ++ (sep ++ u)) = some (x, u) := by
  induction x with
  | nil =>
    obtain ⟨c, s, rfl⟩ := exists_cons_of_ne_nil hsep
    have ht : lastSplit (c :: s) ok (s ++ u) = none :=
      lastSplit_eq_none fun a v e => hlast (c :: a) v (by simp) (by rw [cons_append, e]; rfl)
    have ha : after (c :: s) (c :: (s ++ u)) = some u := after_append (c :: s) u
    simp [lastSplit, ht, ha, hu]
  | cons c x ih => simp [lastSplit, ih]

/-- a separator that starts with a mark, which occurs nowhere behind it -/
theorem lastSplit_marked (ok : List α → Bool) {s : List α} (x : List α) (hs : q ∉ s) (hq : q ∉ u) (hu : ok u = true) :
    lastSplit (q :: s) ok (x ++ (q :: s ++ u)) = some (x, u) := by
  refine lastSplit_append x (by simp) hu fun a v ha e => ?_
  obtain ⟨c, a, rfl⟩ := exists_cons_of_ne_nil ha
  have htail : s ++ u = a ++ (q :: s ++ v) := (cons.inj e).2
  have hmem : q ∈ s ++ u := by simp [htail]
  rcases mem_append.1 hmem with h | h
  · exact absurd h hs
  · exact absurd h hq

/-- a separator with a mark at both ends, before a text that ends in the mark and has no other: an occurrence further on
has nothing behind it -/
theorem lastSplit_enclosed (ok : List α → Bool) {s x y : List α} (hs : q ∉ s) (hy : q ∉ y) (hu : ok (y ++ [q]) = true)
    (hnil : ok [] = false) :
    lastSplit (q :: (s ++ [q])) ok (x ++ (q :: (s ++ [q]) ++ (y ++ [q]))) = some (x, y ++ [q]) := by
  refine lastSplit_append x (by simp) hu fun a v ha e => ?_
  obtain ⟨c, a, rfl⟩ := exists_cons_of_ne_nil ha
  have htail : s ++ (q :: (y ++ [q])) = a ++ (q :: (s ++ q :: v)) := by simpa using (cons.inj e).2
  rcases append_eq_append_iff.1 htail with ⟨m, rfl, hm⟩ | ⟨m, rfl, hm⟩
  · -- the occurrence starts at mark
    cases m with
    | nil =>
      have h : y ++ [q] = s ++ q :: v := by simpa using hm
      rw [eq_nil_of_last_mark hy h, hnil]
    | cons d m =>
      have h : y ++ [q] = m ++ q :: (s ++ q :: v) := (cons.inj (by simpa using hm)).2
      exact absurd (eq_nil_of_last_mark hy h) (by simp)
  · -- it cannot start inside `s`
    cases m with
    | nil =>
      have h : y ++ [q] = a ++ q :: v := by simpa using hm.symm
      rw [eq_nil_of_last_mark hy h, hnil]
    | cons d m =>
      have hd : q = d := (cons.inj (by simpa using hm)).1
      exact absurd (by simp [hd]) hs

end Split

/-! ## Decimal numerals -/

/-- the number a text of digits stands for -/
def value (t : List Char) : ℕ := t.foldl (fun n c => 10 * n + (c.toNat - 48)) 0

/-- **A number is read back.** -/
theorem value_toDigits (n : ℕ) : value (Nat.toDigits 10 n) = n := Nat.ofDigitChars_toDigits (by decide) (by decide)

end Scan
