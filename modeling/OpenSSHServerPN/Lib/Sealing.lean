/-
Stateful encryption, authentication and compression of a byte stream, as pairs of inverse operations.

A `BlockMode` works on whole blocks and may be applied piece by piece; an `Aead` seals a header and a body under a number;
a `Mac` is a function of a number and the bytes, compared as a whole; a `Codec` transforms one unit after another. The state
of an operation is carried from one application to the next, the same on both sides.

`BlockMode.dec_split` is the rule for a receiver that decrypts the first block before the rest has arrived.
-/
import Mathlib.Tactic

namespace Sealing

/-- a cipher in a mode of operation -/
structure BlockMode (σ : Type) (block : ℕ) where
  enc : σ → List UInt8 → σ × List UInt8
  dec : σ → List UInt8 → σ × List UInt8
  length_enc : ∀ st a, (enc st a).2.length = a.length
  length_dec : ∀ st a, (dec st a).2.length = a.length
  /-- blocks are encrypted one after another -/
  enc_append : ∀ st a b, block ∣ a.length →
    enc st (a ++ b) = ((enc (enc st a).1 b).1, (enc st a).2 ++ (enc (enc st a).1 b).2)
  dec_enc : ∀ st a, block ∣ a.length → dec st (enc st a).2 = ((enc st a).1, a)

/-- an authenticated cipher; a header of fixed length is sent before the body and may be read alone -/
structure Aead (σ : Type) where
  tagLen : ℕ
  header : σ → UInt32 → List UInt8 → List UInt8
  unheader : σ → UInt32 → List UInt8 → List UInt8
  /-- the new state, the body and the tag -/
  enc : σ → UInt32 → List UInt8 → List UInt8 → σ × List UInt8 × List UInt8
  dec : σ → UInt32 → List UInt8 → List UInt8 → List UInt8 → Option (σ × List UInt8)
  length_header : ∀ st n h, (header st n h).length = h.length
  unheader_header : ∀ st n h, unheader st n (header st n h) = h
  length_enc : ∀ st n h a, (enc st n h a).2.1.length = a.length
  length_tag : ∀ st n h a, (enc st n h a).2.2.length = tagLen
  dec_enc : ∀ st n h a, dec st n (header st n h) (enc st n h a).2.1 (enc st n h a).2.2 = some ((enc st n h a).1, a)

structure Mac where
  len : ℕ
  tag : UInt32 → List UInt8 → List UInt8
  length_tag : ∀ n a, (tag n a).length = len

/-- a compression with a history -/
structure Codec (κ : Type) where
  start : κ
  pack : κ → List UInt8 → κ × List UInt8
  unpack : κ → List UInt8 → Option (κ × List UInt8)
  unpack_pack : ∀ k a, unpack k (pack k a).2 = some ((pack k a).1, a)

attribute [simp] BlockMode.length_enc BlockMode.length_dec Aead.length_header Aead.unheader_header Aead.length_enc Aead.length_tag
  Mac.length_tag

variable {σ : Type} {block : ℕ}

section
variable (c : BlockMode σ block)
include c

theorem BlockMode.enc_take (st : σ) {a b : List UInt8} (ha : block ∣ a.length) :
    (c.enc st (a ++ b)).2.take a.length = (c.enc st a).2 := by
  rw [c.enc_append st a b ha, ← c.length_enc st a, List.take_left]

theorem BlockMode.enc_drop (st : σ) {a b : List UInt8} (ha : block ∣ a.length) :
    (c.enc st (a ++ b)).2.drop a.length = (c.enc (c.enc st a).1 b).2 := by
  rw [c.enc_append st a b ha]
  conv_lhs => rw [← c.length_enc st a]
  rw [List.drop_left]

/-- **Decryption in two pieces.** -/
theorem BlockMode.dec_split (st : σ) {a b : List UInt8} (ha : block ∣ a.length)
    (hb : block ∣ b.length) : c.dec st ((c.enc st (a ++ b)).2.take a.length) = ((c.enc st a).1, a) ∧
      c.dec (c.enc st a).1 ((c.enc st (a ++ b)).2.drop a.length) = ((c.enc st (a ++ b)).1, b) := by
  rw [c.enc_take st ha, c.enc_drop st ha, c.dec_enc st a ha, c.dec_enc _ b hb]
  exact ⟨rfl, by rw [c.enc_append st a b ha]⟩

end

end Sealing
