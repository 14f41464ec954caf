/-
Runs of a step function, for arbitrary states and operations.

`run` folds the step over a list of operations. `Always P` says that every operation of the list meets `P` in the state
in which it is taken; both the premises on a run ("each call is made at a moment where ...") and the conclusions ("each
answer is ...") have this form. The rules:
- `run_inv`: an invariant that every admissible step keeps holds after every admissible run;
- `always_of_inv`: what an admissible step from an invariant state guarantees holds at every step of the run;
- `always_split`: the reading of `Always` by prefixes, used to state results about "the state before the step";
- `always_proj`: a premise on one component of the state, followed by itself, is a premise on the whole state.
-/
import Mathlib.Tactic

namespace Runs

variable {σ ι : Type*}

/-- the state after a list of operations -/
def run (step : σ → ι → σ) (s : σ) (ops : List ι) : σ := ops.foldl step s

/-- every operation meets `P` in the state in which it is taken -/
def Always (step : σ → ι → σ) (P : σ → ι → Prop) : σ → List ι → Prop
  | _, [] => True
  | s, o :: ops => P s o ∧ Always step P (step s o) ops

instance (step : σ → ι → σ) (P : σ → ι → Prop) [∀ s o, Decidable (P s o)] : ∀ s ops, Decidable (Always step P s ops)
  | _, [] => isTrue trivial
  | s, o :: ops =>
    match (inferInstance : Decidable (P s o)), instDecidableAlways step P (step s o) ops with
    | isTrue h, isTrue h' => isTrue ⟨h, h'⟩
    | isFalse h, _ => isFalse fun hc => h hc.1
    | _, isFalse h' => isFalse fun hc => h' hc.2

section
variable (step : σ → ι → σ)
include step

@[simp] theorem run_nil (s : σ) : run step s [] = s := rfl

@[simp] theorem run_cons (s : σ) (o : ι) (ops : List ι) : run step s (o :: ops) = run step (step s o) ops := rfl

theorem run_append (s : σ) (a b : List ι) : run step s (a ++ b) = run step (run step s a) b := by
  simp [run]

end

variable {step : σ → ι → σ} {P Q : σ → ι → Prop} {I : σ → Prop}

section
variable (hstep : ∀ s o, I s → P s o → I (step s o))
include hstep

/-- **Invariant rule.** An invariant kept by every admissible step holds after every admissible run. -/
theorem run_inv {s : σ} (ops : List ι) (h : I s) (hp : Always step P s ops) : I (run step s ops) := by
  induction ops generalizing s with
  | nil => exact h
  | cons o ops ih => exact ih (hstep s o h hp.1) hp.2

/-- **Guarantee rule.** If every admissible step from an invariant state keeps the invariant and guarantees `Q`, then
`Q` holds at every step of an admissible run. -/
theorem always_of_inv (hq : ∀ s o, I s → P s o → Q s o) {s : σ}
    (ops : List ι) (h : I s) (hp : Always step P s ops) : Always step Q s ops := by
  induction ops generalizing s with
  | nil => trivial
  | cons o ops ih => exact ⟨hq s o h hp.1, ih (hstep s o h hp.1) hp.2⟩

end

theorem always_true (s : σ) (ops : List ι) : Always step (fun _ _ => True) s ops := by
  induction ops generalizing s with
  | nil => trivial
  | cons o ops ih => exact ⟨trivial, ih _⟩

theorem run_inv_all (hstep : ∀ s o, I s → I (step s o)) {s : σ} (ops : List ι) (h : I s) : I (run step s ops) :=
  run_inv (P := fun _ _ => True) (fun s o h _ => hstep s o h) ops h (always_true s ops)

theorem always_append (s : σ) (a b : List ι) :
    Always step P s (a ++ b) ↔ Always step P s a ∧ Always step P (run step s a) b := by
  induction a generalizing s with
  | nil => simp [Always]
  | cons o a ih => simp only [List.cons_append, Always, run_cons, ih, and_assoc]

/-- `Always` by prefixes: the operation after any prefix of the run meets `P` in the state the prefix leads to -/
theorem always_split {s : σ} {ops : List ι} (h : Always step P s ops) (pre : List ι) (o : ι) (post : List ι)
    (e : ops = pre ++ o :: post) : P (run step s pre) o := by
  subst e
  exact ((always_append s pre (o :: post)).1 h).2.1

theorem always_proj {τ : Type*} {step' : τ → ι → τ} {P : τ → ι → Prop} (π : σ → τ)
    (hπ : ∀ s o, π (step s o) = step' (π s) o) {s : σ} (ops : List ι) (h : Always step' P (π s) ops) :
    Always step (fun s o => P (π s) o) s ops := by
  induction ops generalizing s with
  | nil => trivial
  | cons o ops ih => exact ⟨h.1, ih (by rw [hπ]; exact h.2)⟩

end Runs
