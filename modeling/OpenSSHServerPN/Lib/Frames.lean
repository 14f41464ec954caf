/-
Streams of length-prefixed frames, over any type of items.

A frame is a header of fixed size and a body whose length the header gives. `cut` is the reading of a stream: the bodies
of the frames that are there in full, in order. `Whole s fs` says that the stream `s` is exactly the frames with bodies
`fs`; a receiver's invariant is most easily kept in this form, and `cut_of_whole` turns it into a statement about `cut`.
-/
import Mathlib.Tactic

namespace Frames

open List

variable {β : Type*}

/-- the size of a header, and the body length it gives -/
structure Header (β : Type*) where
  size : ℕ
  length : List β → ℕ

variable (H : Header β)

/-- the stream starts with a frame that is there in full -/
def Complete (s : List β) : Prop := H.size ≤ s.length ∧ H.size + H.length (s.take H.size) ≤ s.length

instance (s : List β) : Decidable (Complete H s) := inferInstanceAs (Decidable (_ ∧ _))

/-- at most `fuel` frames of a stream -/
def cutUpTo : ℕ → List β → List (List β)
  | 0, _ => []
  | fuel + 1, s =>
    if Complete H s then
      (s.drop H.size).take (H.length (s.take H.size)) :: cutUpTo fuel (s.drop (H.size + H.length (s.take H.size)))
    else []

/-- the bodies of the frames that are there in full -/
def cut (s : List β) : List (List β) := cutUpTo H s.length s

/-- a stream made of whole frames -/
inductive Whole : List β → List (List β) → Prop where
  | nil : Whole [] []
  | cons {header body s : List β} {fs : List (List β)} (hsize : header.length = H.size)
      (hbody : H.length header = body.length) (hs : Whole s fs) : Whole (header ++ (body ++ s)) (body :: fs)

variable {H}

variable {s body : List β} {fs : List (List β)} {header : List β}

theorem Whole.snoc (hs : Whole H s fs) (hsize : header.length = H.size)
    (hbody : H.length header = body.length) : Whole H (s ++ (header ++ body)) (fs ++ [body]) := by
  induction hs with
  | nil => simpa using Whole.cons hsize hbody Whole.nil
  | cons hsize' hbody' _ ih =>
    simp only [append_assoc]
    exact Whole.cons hsize' hbody' ih

theorem complete_frame (hsize : header.length = H.size)
    (hbody : H.length header = body.length) : Complete H (header ++ (body ++ s)) := by
  have htake : (header ++ (body ++ s)).take H.size = header := by rw [← hsize, take_left]
  refine ⟨by simp [hsize], ?_⟩
  rw [htake]
  simp only [length_append]
  omega

variable {fuel : ℕ}

theorem cutUpTo_frame (hsize : header.length = H.size) (hbody : H.length header = body.length) :
    cutUpTo H (fuel + 1) (header ++ (body ++ s)) = body :: cutUpTo H fuel s := by
  have htake : (header ++ (body ++ s)).take H.size = header := by rw [← hsize, take_left]
  have hdrop : (header ++ (body ++ s)).drop H.size = body ++ s := by rw [← hsize, drop_left]
  rw [cutUpTo, if_pos (complete_frame hsize hbody), htake, hbody, ← drop_drop, hdrop, take_left, drop_left]

theorem cutUpTo_of_incomplete (h : ¬Complete H s) : cutUpTo H fuel s = [] := by
  cases fuel with
  | zero => rfl
  | succ fuel => rw [cutUpTo, if_neg h]

theorem cutUpTo_of_whole {rest : List β} (hs : Whole H s fs) (hrest : ¬Complete H rest)
    (hfuel : fs.length ≤ fuel) : cutUpTo H fuel (s ++ rest) = fs := by
  induction hs generalizing fuel with
  | nil => exact cutUpTo_of_incomplete hrest
  | cons hsize hbody _ ih =>
    obtain ⟨fuel, rfl⟩ : ∃ n, fuel = n + 1 := ⟨fuel - 1, by simp only [length_cons] at hfuel; omega⟩
    rw [append_assoc, append_assoc, cutUpTo_frame hsize hbody, ih (by simpa using hfuel)]

theorem Whole.length_le (hpos : 0 < H.size) (hs : Whole H s fs) : fs.length ≤ s.length := by
  induction hs with
  | nil => exact le_rfl
  | cons hsize _ _ ih =>
    simp only [length_cons, length_append]
    omega

/-- **Cutting a stream.** Whole frames followed by an incomplete one are cut into these frames. -/
theorem cut_of_whole {rest : List β} (hpos : 0 < H.size) (hs : Whole H s fs)
    (hrest : ¬Complete H rest) : cut H (s ++ rest) = fs := by
  refine cutUpTo_of_whole hs hrest ?_
  have hle := hs.length_le hpos
  rw [length_append]
  omega

end Frames
