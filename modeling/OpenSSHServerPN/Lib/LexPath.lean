/-
Lexical paths over an arbitrary alphabet: components between separators, and the resolution of "this directory" and
"parent directory" components.

`comps` cuts a text at its separators and drops the empty pieces. `resolve k acc cs` walks `cs` from the position `acc`;
a parent component goes up, but never above the first `k` components (the root of the path). The rules: `comps` of a text
put together with a separator is the concatenation (`comps_append_sep`), a rendered list of clean components has exactly
these components (`comps_intercalate`), a map that respects separators acts componentwise (`comps_map`), resolution is
compositional (`resolve_append`), its result contains neither dot component unless the start did (`mem_resolve`), clean
components are only appended (`resolve_of_clean`), and the root is never left (`take_prefix_resolve`).
-/
import OpenSSHServerPN.Lib.Edit

namespace LexPath

open List

variable {α : Type*} (sep : α → Bool)

/-- the components of a path text: the pieces between separators, without the empty ones -/
def comps (p : List α) : List (List α) := (p.splitOnP sep).filter (fun c => decide (c ≠ []))

@[simp] theorem comps_nil : comps sep [] = [] := by simp [comps]

theorem comps_append_sep (a b : List α) {s : α} (hs : sep s = true) :
    comps sep (a ++ s :: b) = comps sep a ++ comps sep b := by
  simp [comps, splitOnP_append_cons a b hs]

theorem comps_cons_sep (b : List α) {s : α} (hs : sep s = true) : comps sep (s :: b) = comps sep b := by
  simpa using comps_append_sep sep [] b hs

theorem comps_snoc_sep (a : List α) {s : α} (hs : sep s = true) : comps sep (a ++ [s]) = comps sep a := by
  simpa using comps_append_sep sep a [] hs

/-- a component: not empty, no separator in it -/
def IsComp (c : List α) : Prop := c ≠ [] ∧ ∀ x ∈ c, sep x = false

theorem comps_of_isComp {c : List α} (h : IsComp sep c) : comps sep c = [c] := by
  simp [comps, splitOnP_eq_singleton h.2, h.1]

theorem isComp_of_mem (p : List α) : ∀ c ∈ comps sep p, IsComp sep c := by
  intro c hc
  obtain ⟨hsplit, hne⟩ := mem_filter.1 hc
  exact ⟨by simpa using hne, fun x hx => (Edit.mem_splitOnP.1 ⟨c, hsplit, hx⟩).2⟩

/-- **Rendering.** Components joined by one separator are read back unchanged. -/
theorem comps_intercalate {s : α} (hs : sep s = true) (cs : List (List α)) (h : ∀ c ∈ cs, IsComp sep c) :
    comps sep ([s].intercalate cs) = cs := by
  induction cs with
  | nil => simp
  | cons c cs ih =>
    have hc := comps_of_isComp sep (h c mem_cons_self)
    have ih' := ih fun d hd => h d (mem_cons_of_mem c hd)
    cases cs with
    | nil => simpa using hc
    | cons d cs =>
      rw [intercalate_cons_cons, append_assoc, singleton_append, comps_append_sep sep _ _ hs, hc, ih']
      rfl

theorem getLast_intercalate (s : α) (cs : List (List α)) (hne : cs ≠ []) (h : ∀ c ∈ cs, IsComp sep c) :
    ∃ x, ([s].intercalate cs).getLast? = some x ∧ sep x = false := by
  induction cs with
  | nil => exact absurd rfl hne
  | cons c cs ih =>
    have hc := h c mem_cons_self
    cases cs with
    | nil =>
      refine ⟨c.getLast hc.1, ?_, hc.2 _ (getLast_mem hc.1)⟩
      simpa using getLast?_eq_some_getLast hc.1
    | cons d cs =>
      obtain ⟨x, hx, hsep⟩ := ih (by simp) fun e he => h e (mem_cons_of_mem c he)
      refine ⟨x, ?_, hsep⟩
      rw [intercalate_cons_cons, getLast?_append, hx]
      rfl

/-- a map that keeps separators apart from the rest acts on each component -/
theorem comps_map {β : Type*} (sep' : β → Bool) (f : α → β) (hf : ∀ x, sep' (f x) = sep x) (p : List α) :
    comps sep' (p.map f) = (comps sep p).map (List.map f) := by
  have hsplit : (p.map f).splitOnP sep' = (p.splitOnP sep).map (map f) := by
    induction p with
    | nil => simp
    | cons y p ih =>
      rw [map_cons, splitOnP_cons_eq_if_modifyHead, splitOnP_cons_eq_if_modifyHead, hf, ih]
      cases sep y
      · cases p.splitOnP sep <;> rfl
      · rfl
  rw [comps, hsplit, filter_map, comps]
  congr 1
  refine filter_congr fun c _ => ?_
  simp

variable [DecidableEq α] (cur up : List α)

/-- one component, from the position `acc` below a root of `k` components -/
def push (k : ℕ) (acc : List (List α)) (c : List α) : List (List α) :=
  if c = cur then acc
  else if c = up then (if k < acc.length then acc.dropLast else acc)
  else acc ++ [c]

/-- resolution of a list of components from the position `acc` -/
def resolve (k : ℕ) (acc cs : List (List α)) : List (List α) := cs.foldl (push cur up k) acc

theorem resolve_append (k : ℕ) (acc a b : List (List α)) :
    resolve cur up k acc (a ++ b) = resolve cur up k (resolve cur up k acc a) b := by
  simp [resolve]

/-- neither of the two special components -/
def Clean (c : List α) : Prop := c ≠ cur ∧ c ≠ up

theorem resolve_of_clean (k : ℕ) (acc cs : List (List α)) (h : ∀ c ∈ cs, Clean cur up c) :
    resolve cur up k acc cs = acc ++ cs := by
  induction cs generalizing acc with
  | nil => simp [resolve]
  | cons c cs ih =>
    have hc := h c mem_cons_self
    have hstep : resolve cur up k acc (c :: cs) = resolve cur up k (acc ++ [c]) cs := by
      simp [resolve, push, hc.1, hc.2]
    rw [hstep, ih _ fun d hd => h d (mem_cons_of_mem c hd)]
    simp

/-- every component of the result was there at the start or is a clean one of the list -/
theorem mem_resolve (k : ℕ) (acc cs : List (List α)) :
    ∀ c ∈ resolve cur up k acc cs, c ∈ acc ∨ (c ∈ cs ∧ Clean cur up c) := by
  induction cs generalizing acc with
  | nil => intro c hc; exact Or.inl hc
  | cons d cs ih =>
    intro c hc
    rcases ih (push cur up k acc d) c hc with hc | ⟨hc, hcl⟩
    · unfold push at hc
      split_ifs at hc with h1 h2
      · exact Or.inl hc
      · exact Or.inl (mem_of_mem_dropLast hc)
      · exact Or.inl hc
      · rcases mem_append.1 hc with hc | hc
        · exact Or.inl hc
        · simp only [mem_singleton] at hc; subst hc
          exact Or.inr ⟨mem_cons_self, h1, h2⟩
    · exact Or.inr ⟨mem_cons_of_mem _ hc, hcl⟩

/-- **The root stays.** No walk goes above the first `k` components. -/
theorem take_prefix_resolve (k : ℕ) (acc cs : List (List α)) : acc.take k <+: resolve cur up k acc cs := by
  have hpush : ∀ acc c, acc.take k <+: (push cur up k acc c).take k := by
    intro acc c
    unfold push
    split_ifs with h1 h2 h3
    · exact prefix_refl _
    · rw [dropLast_eq_take, take_take, Nat.min_eq_left (by omega)]
    · exact prefix_refl _
    · exact (prefix_append acc [c]).take k
  induction cs generalizing acc with
  | nil => exact take_prefix k acc
  | cons c cs ih => exact (hpush acc c).trans ((prefix_refl _).trans (ih _))

end LexPath
