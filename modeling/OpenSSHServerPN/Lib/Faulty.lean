/-
Programs whose effects can fail or be cut off, for arbitrary states and exceptions.

An effect is all or nothing. It takes place (`done`), raises an exception (`failed`) or the process ends before it (`cut`); a
program takes the outcomes of its effects one by one, and every state in which it can be left is the result for some list of
outcomes.

Three program logics with the same rules, one for each form of program: `Ends` for a run with given outcomes, with a
postcondition each for a result, for an exception and for a process that ended; `WP` for every list of outcomes; `Completes` for
runs in which every effect takes place. `exec_of_wp` and `exec_of_completes` give what holds of the state that is left.
`Finishes` and `Fails` give the exact end of a run in which every effect takes place, and of one in which the last effect fails;
`Raises` gives the exceptions of every run in which at most one effect fails.
-/
import Mathlib.Tactic

namespace Faulty

open List

/-- what becomes of an effect -/
inductive Outcome where
  | done
  | failed
  | cut
deriving DecidableEq, Repr

/-- how a program ends -/
inductive Result (ε α : Type) where
  | ok (a : α)
  | error (e : ε)
  | cut
deriving DecidableEq, Repr

/-- a program: the result, the state that is left and the outcomes it did not need -/
def Prog (σ ε α : Type) := σ → List Outcome → Result ε α × σ × List Outcome

variable {σ ε α β : Type}

def ret (a : α) : Prog σ ε α := fun s os => (.ok a, s, os)

def throw (e : ε) : Prog σ ε α := fun s os => (.error e, s, os)

def bind (m : Prog σ ε α) (f : α → Prog σ ε β) : Prog σ ε β := fun s os =>
  match m s os with
  | (.ok a, s', os') => f a s' os'
  | (.error e, s', os') => (.error e, s', os')
  | (.cut, s', os') => (.cut, s', os')

instance : Monad (Prog σ ε) where
  pure := ret
  bind := bind

/-- reads the state -/
def get : Prog σ ε σ := fun s os => (.ok s, s, os)

/-- a step in memory, which cannot fail -/
def modify (f : σ → σ) : Prog σ ε Unit := fun s os => (.ok (), f s, os)

/-- a write or a call; without a further outcome the process ends -/
def effect (e : ε) (f : σ → σ) : Prog σ ε Unit := fun s os =>
  match os with
  | .done :: os => (.ok (), f s, os)
  | .failed :: os => (.error e, s, os)
  | .cut :: os => (.cut, s, os)
  | [] => (.cut, s, [])

/-- an exception is handled, the end of the process is not -/
def attempt (m : Prog σ ε α) (h : ε → Prog σ ε α) : Prog σ ε α := fun s os =>
  match m s os with
  | (.error e, s', os') => h e s' os'
  | r => r

/-- goes on only if a check succeeds -/
def require (b : Bool) (e : ε) : Prog σ ε Unit := if b then ret () else throw e

/-- the state that is left -/
def exec (m : Prog σ ε α) (s : σ) (os : List Outcome) : σ := (m s os).2.1

/-! ## How a run ends -/

/-- a run ended with `Q`, raised an exception with `E` or was cut with `C`; each also has the outcomes that are left -/
def Ends (x : Result ε α × σ × List Outcome) (Q : α → σ → List Outcome → Prop) (E : σ → List Outcome → Prop)
    (C : σ → Prop) : Prop :=
  match x with
  | (.ok a, s, os) => Q a s os
  | (.error _, s, os) => E s os
  | (.cut, s, _) => C s

variable {m : Prog σ ε α} {f : α → Prog σ ε β} {k : σ → Prog σ ε β} {c : ε → Prog σ ε α} {a : α} {e : ε} {b : Bool} {g : σ → σ}

section Ends

variable {s : σ} {os : List Outcome} {Q : α → σ → List Outcome → Prop} {R : β → σ → List Outcome → Prop}
  {U : Unit → σ → List Outcome → Prop} {E : σ → List Outcome → Prop} {C : σ → Prop}

/-- **Sequence.** The second program starts where the first one ended. -/
theorem ends_bind (h : Ends (m s os) (fun a s' os' => Ends (f a s' os') R E C) E C) : Ends ((m >>= f) s os) R E C := by
  change Ends (bind m f s os) R E C
  unfold bind
  cases hr : m s os with
  | mk r rest =>
    rw [hr] at h
    cases r with
    | ok | error | cut => exact h

theorem ends_pure (h : Q a s os) : Ends ((pure a : Prog σ ε α) s os) Q E C := h

theorem ends_throw (h : E s os) : Ends ((throw e : Prog σ ε α) s os) Q E C := h

theorem ends_get (h : Ends (k s s os) R E C) : Ends ((get >>= k) s os) R E C := h

theorem ends_modify (h : U () (g s) os) : Ends ((modify g : Prog σ ε Unit) s os) U E C := h

/-- **An effect.** It takes place, or the state stays as it was. -/
theorem ends_effect (hdone : ∀ os', os = .done :: os' → U () (g s) os')
    (hfail : ∀ os', os = .failed :: os' → E s os') (hcut : os.head? = some .cut ∨ os = [] → C s) :
    Ends (effect e g s os) U E C := by
  cases os with
  | nil => exact hcut (.inr rfl)
  | cons o os =>
    cases o with
    | done => exact hdone os rfl
    | failed => exact hfail os rfl
    | cut => exact hcut (.inl rfl)

/-- **An exception that is handled.** -/
theorem ends_attempt (hm : Ends (m s os) Q (fun s' os' => ∀ e, Ends (c e s' os') Q E C) C) : Ends (attempt m c s os) Q E C := by
  unfold attempt
  cases hr : m s os with
  | mk r rest =>
    rw [hr] at hm
    cases r with
    | ok | cut => exact hm
    | error e => exact hm e

theorem ends_require (hok : b = true → U () s os) (hfail : E s os) : Ends (require b e s os) U E C := by
  unfold require
  split_ifs with h
  · exact hok h
  · exact hfail

theorem ends_require_true (hb : b = true) (h : U () s os) : Ends (require b e s os) U E C := by
  unfold require
  rw [if_pos hb]
  exact h

theorem ends_mono {x : Result ε α × σ × List Outcome} {Q' : α → σ → List Outcome → Prop} {E' : σ → List Outcome → Prop}
    {C' : σ → Prop} (h : Ends x Q E C) (hQ : ∀ a s os, Q a s os → Q' a s os) (hE : ∀ s os, E s os → E' s os)
    (hC : ∀ s, C s → C' s) : Ends x Q' E' C' := by
  obtain ⟨r, s, os⟩ := x
  cases r with
  | ok a => exact hQ a s os h
  | error e => exact hE s os h
  | cut => exact hC s h

theorem ends_state {I : σ → Prop} (h : Ends (m s os) (fun _ s' _ => I s') (fun s' _ => I s') I) : I (exec m s os) := by
  unfold exec
  revert h
  cases hm : m s os with
  | mk r rest =>
    cases r with
    | ok | error | cut => exact id

end Ends

/-! ## Whatever the effects do -/

/-- from `s`, the program ends with `Q`, raises an exception with `E` or is cut with `C` -/
def WP (m : Prog σ ε α) (s : σ) (Q : α → σ → Prop) (E C : σ → Prop) : Prop :=
  ∀ os, Ends (m s os) (fun a s' _ => Q a s') (fun s' _ => E s') C

variable {s : σ} {Q : α → σ → Prop} {R : β → σ → Prop} {U : Unit → σ → Prop} {E C I : σ → Prop}

theorem wp_pure (h : Q a s) : WP (pure a : Prog σ ε α) s Q E C := fun _ => ends_pure h

theorem wp_throw (h : E s) : WP (throw e : Prog σ ε α) s Q E C := fun _ => ends_throw h

theorem wp_bind (h : WP m s (fun a s' => WP (f a) s' R E C) E C) : WP (m >>= f) s R E C := by
  intro os
  apply ends_bind
  exact ends_mono (h os) (fun _ _ os' hf => hf os') (fun _ _ he => he) (fun _ hc => hc)

theorem wp_get (h : WP (k s) s R E C) : WP (get >>= k) s R E C := fun os => ends_get (h os)

theorem wp_modify (h : U () (g s)) : WP (modify g : Prog σ ε Unit) s U E C :=
  fun _ => ends_modify h

theorem wp_effect (hdone : U () (g s)) (hfail : E s) (hcut : C s) : WP (effect e g) s U E C :=
  fun _ => ends_effect (fun _ _ => hdone) (fun _ _ => hfail) (fun _ => hcut)

theorem wp_attempt (hm : WP m s Q (fun s' => ∀ e, WP (c e) s' Q E C) C) : WP (attempt m c) s Q E C := by
  intro os
  apply ends_attempt
  exact ends_mono (hm os) (fun _ _ _ hq => hq) (fun _ os' hh e => hh e os') (fun _ hc => hc)

theorem wp_require (hok : b = true → U () s) (hfail : E s) : WP (require b e) s U E C := fun _ => ends_require hok hfail

variable {Q' : α → σ → Prop}

theorem wp_mono {E' C' : σ → Prop} (h : WP m s Q E C) (hQ : ∀ a s, Q a s → Q' a s)
    (hE : ∀ s, E s → E' s) (hC : ∀ s, C s → C' s) : WP m s Q' E' C' :=
  fun os => ends_mono (h os) (fun a s _ => hQ a s) (fun s _ => hE s) hC

/-- **What is left.** However the program ends. -/
theorem exec_of_wp (h : WP m s (fun _ => I) I I) (os : List Outcome) : I (exec m s os) := ends_state (h os)

/-! ## Given outcomes -/

variable {os os' : List Outcome}

theorem exec_bind {s' : σ}
    (h : m s os = (.ok a, s', os')) : exec (m >>= f) s os = exec (f a) s' os' := by
  change (bind m f s os).2.1 = _
  unfold bind
  rw [h]
  rfl

theorem exec_bind_stop {s' : σ} {r : Result ε α}
    (h : m s os = (r, s', os')) (hr : ∀ a, r ≠ .ok a) : exec (m >>= f) s os = s' := by
  change (bind m f s os).2.1 = _
  unfold bind
  rw [h]
  cases r with
  | ok a => exact absurd rfl (hr a)
  | error | cut => rfl

variable {os : List Outcome}

theorem exec_get : exec (get >>= k) s os = exec (k s) s os := rfl

theorem exec_discard {b : β} : exec (m >>= fun _ => pure b) s os = exec m s os := by
  change (bind m _ s os).2.1 = (m s os).2.1
  unfold bind
  cases hr : m s os with
  | mk r rest =>
    cases r with
    | ok | error | cut => rfl

/-! ## Without failures -/

/-- at most `n` effects are needed: if at least that many take place, the program ends with `Q` -/
def Completes (m : Prog σ ε α) (s : σ) (n : ℕ) (Q : α → σ → Prop) : Prop :=
  ∀ k, n ≤ k → ∃ a s' k', m s (List.replicate k .done) = (.ok a, s', List.replicate k' .done) ∧ k ≤ k' + n ∧ Q a s'

theorem completes_pure (n : ℕ) (h : Q a s) : Completes (pure a : Prog σ ε α) s n Q :=
  fun k _ => ⟨a, s, k, rfl, by omega, h⟩

theorem completes_effect (h : U () (g s)) : Completes (effect e g) s 1 U := by
  intro k hk
  obtain ⟨k, rfl⟩ := Nat.exists_eq_succ_of_ne_zero (by omega : k ≠ 0)
  exact ⟨(), g s, k, rfl, by omega, h⟩

theorem completes_require (hb : b = true) (h : U () s) : Completes (require b e) s 0 U := by
  unfold require
  rw [if_pos hb]
  exact completes_pure 0 h

/-- **Sequence.** The second program has the effects the first one leaves. -/
theorem completes_bind (n n' : ℕ) {l : ℕ} (hl : n + n' = l)
    (h : Completes m s n fun a s' => Completes (f a) s' n' R) : Completes (m >>= f) s l R := by
  intro k hk
  obtain ⟨a, s', k', hm, hk', hf⟩ := h k (by omega)
  obtain ⟨b, s'', k'', hf, hk'', hq⟩ := hf k' (by omega)
  refine ⟨b, s'', k'', ?_, by omega, hq⟩
  change bind m f s _ = _
  unfold bind
  rw [hm]
  exact hf

theorem completes_get {n : ℕ} (h : Completes (k s) s n R) : Completes (get >>= k) s n R :=
  completes_bind 0 n (Nat.zero_add n) fun k _ => ⟨s, s, k, rfl, by omega, h⟩

theorem completes_attempt {n : ℕ} (hm : Completes m s n Q) : Completes (attempt m c) s n Q := by
  intro k hk
  obtain ⟨a, s', k', hr, hk', hq⟩ := hm k hk
  refine ⟨a, s', k', ?_, hk', hq⟩
  unfold attempt
  rw [hr]

theorem exec_of_completes {n k : ℕ} (h : Completes m s n fun _ => I) (hk : n ≤ k) :
    I (exec m s (List.replicate k .done)) := by
  obtain ⟨a, s', k', hr, _, hq⟩ := h k hk
  unfold exec
  rw [hr]
  exact hq

/-! ## Where a run ends -/

/-- when every effect takes place, the program ends with `a` in `s'` -/
def Finishes (m : Prog σ ε α) (s : σ) (a : α) (s' : σ) : Prop :=
  ∃ n, ∀ os, m s (List.replicate n .done ++ os) = (.ok a, s', os)

/-- for some effect: when those before it take place and it fails, the program ends with the exception `e` in `s'` -/
def Fails (m : Prog σ ε α) (s : σ) (e : ε) (s' : σ) : Prop :=
  ∃ n, ∀ os, m s (List.replicate n .done ++ .failed :: os) = (.error e, s', os)

section Finishes

variable {s s' s'' : σ} {a a' : α} {b : β} {e : ε} {m : Prog σ ε α} {f : α → Prog σ ε β}

theorem finishes_pure : Finishes (pure a : Prog σ ε α) s a s := ⟨0, fun _ => rfl⟩

theorem finishes_effect : Finishes (effect e g) s () (g s) := ⟨1, fun _ => rfl⟩

theorem finishes_require {c : Bool} (hc : c = true) : Finishes (require c e) s () s := by
  unfold require
  rw [if_pos hc]
  exact finishes_pure

theorem finishes_bind (hm : Finishes m s a s') (hf : Finishes (f a) s' b s'') : Finishes (m >>= f) s b s'' := by
  obtain ⟨n, hn⟩ := hm
  obtain ⟨n', hn'⟩ := hf
  refine ⟨n + n', fun os => ?_⟩
  change bind m f s _ = _
  unfold bind
  rw [replicate_add, append_assoc, hn]
  exact hn' os

theorem finishes_get (h : Finishes (k s) s b s') : Finishes (get >>= k) s b s' :=
  finishes_bind ⟨0, fun _ => rfl⟩ h

theorem finishes_attempt (hm : Finishes m s a s') : Finishes (attempt m c) s a s' := by
  obtain ⟨n, hn⟩ := hm
  refine ⟨n, fun os => ?_⟩
  unfold attempt
  rw [hn]

theorem finishes_attempt_error (hm : ∃ n, ∀ os, m s (replicate n .done ++ os) = (.error e, s', os))
    (hc : Finishes (c e) s' a s'') : Finishes (attempt m c) s a s'' := by
  obtain ⟨n, hn⟩ := hm
  obtain ⟨n', hn'⟩ := hc
  refine ⟨n + n', fun os => ?_⟩
  unfold attempt
  rw [replicate_add, append_assoc, hn]
  exact hn' os

theorem finishes_unique (h : Finishes m s a s') (h' : Finishes m s a' s'') : a = a' ∧ s' = s'' := by
  obtain ⟨n, hn⟩ := h
  obtain ⟨n', hn'⟩ := h'
  have hcomm : replicate n Outcome.done ++ replicate n' .done = replicate n' .done ++ replicate n .done := by
    rw [← replicate_add, ← replicate_add, Nat.add_comm]
  have heq := hn (replicate n' .done)
  rw [hcomm, hn'] at heq
  simp only [Prod.mk.injEq, Result.ok.injEq] at heq
  exact ⟨heq.1.symm, heq.2.1.symm⟩

theorem fails_effect : Fails (effect e g) s e s := ⟨0, fun _ => rfl⟩

theorem fails_bind_left (hm : Fails m s e s') : Fails (m >>= f) s e s' := by
  obtain ⟨n, hn⟩ := hm
  refine ⟨n, fun os => ?_⟩
  change bind m f s _ = _
  unfold bind
  rw [hn]

theorem fails_bind_right (hm : Finishes m s a s') (hf : Fails (f a) s' e s'') : Fails (m >>= f) s e s'' := by
  obtain ⟨n, hn⟩ := hm
  obtain ⟨n', hn'⟩ := hf
  refine ⟨n + n', fun os => ?_⟩
  change bind m f s _ = _
  unfold bind
  rw [replicate_add, append_assoc, hn]
  exact hn' os

end Finishes

/-! ## One failure -/

/-- at most one effect fails, and the process does not end -/
def OneFailure (os : List Outcome) : Prop := os.count .failed ≤ 1 ∧ .cut ∉ os

theorem oneFailure_done (h : OneFailure (.done :: os)) : OneFailure os :=
  ⟨by simpa [count_cons] using h.1, fun hm => h.2 (mem_cons_of_mem _ hm)⟩

theorem oneFailure_failed (h : OneFailure (.failed :: os)) : ∀ o ∈ os, o = .done := by
  have hnone : os.count .failed = 0 := by simpa using h.1
  intro o ho
  cases o with
  | done => rfl
  | failed => exact absurd ho (count_eq_zero.1 hnone)
  | cut => exact absurd (mem_cons_of_mem _ ho) h.2

theorem oneFailure_at (n k : ℕ) : OneFailure (List.replicate n .done ++ .failed :: List.replicate k .done) := by
  constructor
  · simp [count_replicate]
  · simp [mem_replicate]

/-- in a run with at most one failure, a result has `Q`, and an exception `E`; all effects after it take place -/
def Raises (m : Prog σ ε α) (s : σ) (Q : α → σ → Prop) (E : ε → σ → Prop) : Prop :=
  ∀ os, OneFailure os → match m s os with
    | (.ok a, s', os') => Q a s' ∧ OneFailure os'
    | (.error e, s', os') => E e s' ∧ ∀ o ∈ os', o = .done
    | (.cut, _, _) => True

section Raises

variable {E : ε → σ → Prop}

theorem raises_pure (h : Q a s) : Raises (pure a : Prog σ ε α) s Q E := fun _ hos => ⟨h, hos⟩

theorem raises_effect (hdone : U () (g s)) (hfail : E e s) : Raises (effect e g) s U E := by
  intro os hos
  cases os with
  | nil => trivial
  | cons o os =>
    cases o with
    | done => exact ⟨hdone, oneFailure_done hos⟩
    | failed => exact ⟨hfail, oneFailure_failed hos⟩
    | cut => exact absurd mem_cons_self hos.2

theorem raises_bind (h : Raises m s (fun a s' => Raises (f a) s' R E) E) : Raises (m >>= f) s R E := by
  intro os hos
  have hm := h os hos
  change match bind m f s os with
    | (.ok a, s', os') => R a s' ∧ OneFailure os'
    | (.error e, s', os') => E e s' ∧ ∀ o ∈ os', o = .done
    | (.cut, _, _) => True
  unfold bind
  cases hr : m s os with
  | mk r rest =>
    rw [hr] at hm
    cases r with
    | ok a => exact hm.1 rest.2 hm.2
    | error e => exact hm
    | cut => trivial

theorem raises_mono (h : Raises m s Q E) (hQ : ∀ a s', Q a s' → Q' a s') : Raises m s Q' E := by
  intro os hos
  have hm := h os hos
  revert hm
  rcases m s os with ⟨r, s', os'⟩
  cases r with
  | ok a => exact fun hm => ⟨hQ a s' hm.1, hm.2⟩
  | error | cut => exact id

end Raises

end Faulty
