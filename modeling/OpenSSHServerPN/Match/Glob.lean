/-
What `match_pattern` accepts.

`glob` is the meaning of a pattern: `*` stands for any text, `?` for one character, every other character for itself. The
automaton of `match_pattern` carries a list of states; `accepts` is the union of what the active states accept.

Results:
- `matchPattern_eq_glob`: the automaton accepts exactly the texts the pattern means;
- `matchPattern_literal`: a pattern without wildcards matches itself and nothing else.
-/
import OpenSSHServerPN.Match.Pattern

namespace OpenSSHServerPN.Match

open List

/-! ## The meaning of a pattern -/

/-- some end of the text is accepted -/
def anySuffix (f : Text → Bool) : Text → Bool
  | [] => f []
  | c :: s => f (c :: s) || anySuffix f s

def glob : Text → Text → Bool
  | [], s => s.isEmpty
  | p :: ps, s =>
    if p = '*' then anySuffix (glob ps) s
    else
      match s with
      | [] => false
      | c :: s => (p == '?' || p == c) && glob ps s

theorem glob_star (ps s : Text) : glob ('*' :: ps) s = anySuffix (glob ps) s := by simp [glob]

theorem glob_star_of (ps s : Text) (h : glob ps s = true) : glob ('*' :: ps) s = true := by
  rw [glob_star]
  cases s with
  | nil => exact h
  | cons c s => simp [anySuffix, h]

theorem glob_cons {p : Char} (hp : p ≠ '*') (ps s : Text) (c : Char) :
    glob (p :: ps) (c :: s) = ((p == '?' || p == c) && glob ps s) := by
  simp [glob, hp]

theorem glob_cons_nil {p : Char} (hp : p ≠ '*') (ps : Text) : glob (p :: ps) [] = false := by simp [glob, hp]

/-! ## What the states accept -/

/-- the texts accepted from the active states; the last state is the end of the pattern -/
def accepts : Text → List Bool → Text → Bool
  | _, [], _ => false
  | [], b :: _, s => b && s.isEmpty
  | p :: ps, b :: bs, s => (b && glob (p :: ps) s) || accepts ps bs s

/-- an active state on a star has the next one active as well -/
def Closed : Text → List Bool → Prop
  | p :: ps, b :: c :: bs => (b = true → p = '*' → c = true) ∧ Closed ps (c :: bs)
  | _, _ => True

@[simp]
theorem accepts_end (b : Bool) (bs : List Bool) (s : Text) : accepts [] (b :: bs) s = (b && s.isEmpty) := rfl

@[simp]
theorem accepts_cons (p : Char) (ps : Text) (b : Bool) (bs : List Bool) (s : Text) :
    accepts (p :: ps) (b :: bs) s = ((b && glob (p :: ps) s) || accepts ps bs s) := rfl

variable {ps : Text} {ss : List Bool}

theorem exists_two {p : Char} (hlen : ss.length = (p :: ps).length + 1) : ∃ b c bs, ss = b :: c :: bs := by
  match ss, hlen with
  | b :: c :: bs, _ => exact ⟨b, c, bs, rfl⟩

theorem accepts_none {s : Text} (h : ss.any id = false) : accepts ps ss s = false := by
  induction ps generalizing ss with
  | nil =>
    cases ss with
    | nil => rfl
    | cons b bs =>
      simp only [any_cons, id_eq, Bool.or_eq_false_iff] at h
      simp [h.1]
  | cons p ps ih =>
    cases ss with
    | nil => rfl
    | cons b bs =>
      simp only [any_cons, id_eq, Bool.or_eq_false_iff] at h
      simp [h.1, ih h.2]

theorem accepts_start (ps s : Text) : accepts ps (true :: List.replicate ps.length false) s = glob ps s := by
  have hrest : ∀ ps' : Text, accepts ps' (replicate ps.length false) s = false :=
    fun ps' => accepts_none (by simp)
  cases ps with
  | nil => simp [glob]
  | cons p ps => rw [accepts_cons, hrest ps, Bool.true_and, Bool.or_false]

/-- one more state after an active star adds nothing -/
theorem accepts_or_star (ps : Text) (b c : Bool) (bs : List Bool) (s : Text) (hlen : bs.length = ps.length) :
    ((b && glob ('*' :: ps) s) || accepts ps ((c || b) :: bs) s) =
      ((b && glob ('*' :: ps) s) || accepts ps (c :: bs) s) := by
  cases b with
  | false => simp
  | true =>
    have hstar := glob_star_of ps s
    cases ps with
    | nil =>
      cases hg : glob [] s with
      | true => simp [hstar hg]
      | false =>
        have hs : s.isEmpty = false := by simpa [glob] using hg
        simp [hs]
    | cons p ps =>
      cases hg : glob (p :: ps) s with
      | true => simp [hstar hg]
      | false => simp [hg]

theorem length_epsilonClosure (ps : Text) (ss : List Bool) : (epsilonClosure ps ss).length = ss.length := by
  induction ps, ss using epsilonClosure.induct with
  | case1 p ps s t ss ih => simp [epsilonClosure, ih]
  | case2 ps ss h => rw [epsilonClosure]; exact h

variable (s : Text)

/-- the forward pass accepts no more and no less -/
theorem accepts_epsilonClosure (hlen : ss.length = ps.length + 1) :
    accepts ps (epsilonClosure ps ss) s = accepts ps ss s := by
  induction ps generalizing ss with
  | nil =>
    rfl
  | cons p ps ih =>
    obtain ⟨b, c, bs, rfl⟩ := exists_two hlen
    have hbs : bs.length = ps.length := by simpa using hlen
    rw [epsilonClosure, accepts_cons, ih (by simp [hbs]), accepts_cons]
    by_cases hp : p = '*'
    · subst hp
      simpa using accepts_or_star ps b c bs s hbs
    · have hpb : (p == '*') = false := by simpa using hp
      rw [hpb, Bool.and_false, Bool.or_false]

theorem closed_epsilonClosure (hlen : ss.length = ps.length + 1) : Closed ps (epsilonClosure ps ss) := by
  induction ps generalizing ss with
  | nil =>
    trivial
  | cons p ps ih =>
    obtain ⟨b, c, bs, rfl⟩ := exists_two hlen
    have hbs : bs.length = ps.length := by simpa using hlen
    have hrest : Closed ps (epsilonClosure ps ((c || (b && p == '*')) :: bs)) := ih (by simp [hbs])
    rw [epsilonClosure]
    -- the pass does not take back the state it has just set
    obtain ⟨bs', hbs'⟩ : ∃ bs', epsilonClosure ps ((c || (b && p == '*')) :: bs) = (c || (b && p == '*')) :: bs' := by
      cases ps with
      | nil =>
        rw [length_nil, length_eq_zero_iff] at hbs
        subst hbs
        exact ⟨[], rfl⟩
      | cons q ps =>
        obtain ⟨d, ds, rfl⟩ := exists_cons_of_length_eq_add_one hbs
        exact ⟨_, rfl⟩
    rw [hbs'] at hrest ⊢
    exact ⟨fun hb hp => by simp [hb, hp], hrest⟩

/-- one character: what the next states accept, `carry` being the move into the first of them -/
theorem accepts_nextStates (c : Char) (carry : Bool) (s : Text)
    (hlen : ss.length = ps.length + 1) (hclosed : Closed ps ss) :
    accepts ps (nextStates c carry ps ss) s = ((carry && glob ps s) || accepts ps ss (c :: s)) := by
  induction ps generalizing ss carry with
  | nil =>
    obtain ⟨b, rfl⟩ := length_eq_one_iff.1 hlen
    simp [nextStates, glob]
  | cons p ps ih =>
    obtain ⟨b, d, bs, rfl⟩ := exists_two hlen
    obtain ⟨hstar, hrest⟩ := hclosed
    rw [nextStates, accepts_cons, ih _ (by simpa using hlen) hrest]
    by_cases hp : p = '*'
    · subst hp
      -- the star stays; going on at once is the state after it, which is active
      have hnext : (b && glob ps (c :: s)) = true → accepts ps (d :: bs) (c :: s) = true := by
        intro h
        rw [Bool.and_eq_true] at h
        have hd : d = true := hstar h.1 rfl
        subst hd
        cases ps with
        | nil => simpa [glob] using h.2
        | cons q ps => simp [h.2]
      simp only [beq_self_eq_true, Bool.and_true, bne_self_eq_false, Bool.and_false]
      have hbool : ∀ carry b g g' a : Bool, ((b && g') = true → a = true) →
          ((carry || b) && g || a) = (carry && g || (b && (g' || g) || a)) := by decide
      exact hbool _ _ _ _ _ hnext
    · have hpb : (p == '*') = false := by simpa using hp
      have hpn : (p != '*') = true := by simpa using hp
      rw [accepts_cons, glob_cons hp, hpb, hpn]
      simp only [Bool.and_false, Bool.or_false, Bool.and_true, Bool.and_assoc]

theorem length_nextStates (c : Char) (carry : Bool) (hlen : ss.length = ps.length + 1) :
    (nextStates c carry ps ss).length = ps.length + 1 := by
  induction ps generalizing ss carry with
  | nil =>
    rfl
  | cons p ps ih =>
    obtain ⟨b, bs, rfl⟩ := exists_cons_of_length_eq_add_one hlen
    simp [nextStates, ih _ (by simpa using hlen)]

theorem accepts_nil (hlen : ss.length = ps.length + 1) (hclosed : Closed ps ss) :
    accepts ps ss [] = ss.getLastD false := by
  induction ps generalizing ss with
  | nil =>
    obtain ⟨b, rfl⟩ := length_eq_one_iff.1 hlen
    simp
  | cons p ps ih =>
    obtain ⟨b, d, bs, rfl⟩ := exists_two hlen
    obtain ⟨hstar, hrest⟩ := hclosed
    have hlast : (b :: d :: bs).getLastD false = (d :: bs).getLastD false := by simp
    rw [accepts_cons, hlast, ← ih (by simpa using hlen) hrest]
    by_cases hp : p = '*'
    · subst hp
      cases b with
      | false => simp
      | true =>
        have hd : d = true := hstar rfl rfl
        subst hd
        have hsub : glob ('*' :: ps) [] = true → accepts ps (true :: bs) [] = true := by
          intro hg
          rw [glob_star, anySuffix] at hg
          cases ps with
          | nil => rfl
          | cons q ps => simp [hg]
        cases hg : glob ('*' :: ps) [] with
        | true => simp [hsub hg]
        | false => simp
    · rw [glob_cons_nil hp, Bool.and_false, Bool.false_or]

/-- **The loop.** From closed states it accepts what they accept; the early exit is taken when that is nothing. -/
theorem matchLoop_eq (hlen : ss.length = ps.length + 1) (hclosed : Closed ps ss) :
    matchLoop ps ss s = accepts ps ss s := by
  induction s generalizing ss with
  | nil => rw [accepts_nil hlen hclosed, matchLoop]
  | cons c s ih =>
    have hnext := length_nextStates c false hlen
    have hstep : accepts ps (epsilonClosure ps (nextStates c false ps ss)) s = accepts ps ss (c :: s) := by
      rw [accepts_epsilonClosure s hnext, accepts_nextStates c false s hlen hclosed]
      simp
    rw [matchLoop]
    split
    · rw [ih (by rw [length_epsilonClosure, hnext]) (closed_epsilonClosure hnext), hstep]
    · next hnone =>
      rw [← hstep, accepts_none (by simpa using hnone)]

/-- **The automaton means the pattern.** -/
theorem matchPattern_eq_glob (s pattern : Text) : matchPattern s pattern = glob pattern s := by
  unfold matchPattern
  split
  · next h =>
    subst h
    cases s <;> simp [glob]
  · have hlen : (true :: replicate pattern.length false).length = pattern.length + 1 := by simp
    rw [matchLoop_eq s (by rw [length_epsilonClosure, hlen]) (closed_epsilonClosure hlen),
      accepts_epsilonClosure s hlen, accepts_start]

/-! ## Patterns without wildcards, and patterns of question marks -/

theorem glob_literal {pattern : Text} (hq : '?' ∉ pattern) (hs : '*' ∉ pattern) (s : Text) :
    glob pattern s = true ↔ s = pattern := by
  induction pattern generalizing s with
  | nil => simp [glob]
  | cons p ps ih =>
    have hp : p ≠ '*' := fun h => hs (h ▸ mem_cons_self)
    have hp' : p ≠ '?' := fun h => hq (h ▸ mem_cons_self)
    have ih' := ih (fun h => hq (mem_cons_of_mem p h)) (fun h => hs (mem_cons_of_mem p h))
    cases s with
    | nil => simp [glob_cons_nil hp]
    | cons c s =>
      rw [glob_cons hp]
      simp only [Bool.and_eq_true, Bool.or_eq_true, beq_iff_eq, hp', false_or, ih', cons.injEq]
      exact and_congr_left' eq_comm

/-- **A pattern without wildcards** matches itself and nothing else, in its own case. -/
theorem matchPattern_literal {pattern : Text} (hq : '?' ∉ pattern) (hs : '*' ∉ pattern) (s : Text) :
    matchPattern s pattern = true ↔ s = pattern := by
  rw [matchPattern_eq_glob]
  exact glob_literal hq hs s

/-- question marks match the texts of their number -/
theorem matchPattern_questions (n : ℕ) (s : Text) : matchPattern s (List.replicate n '?') = true ↔ s.length = n := by
  rw [matchPattern_eq_glob]
  induction n generalizing s with
  | zero => simp [glob]
  | succ n ih =>
    rw [replicate_succ]
    cases s with
    | nil => simp [glob_cons_nil (p := '?') (by decide)]
    | cons c s =>
      rw [glob_cons (by decide)]
      simp [ih]

end OpenSSHServerPN.Match
