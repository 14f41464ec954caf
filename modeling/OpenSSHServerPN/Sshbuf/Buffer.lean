/-
Writable buffers and their maximum size (`sshbuf.c`, `sshbuf_put` of `sshbuf-getput-basic.c`).

A buffer here is neither read-only nor shared, so no call returns `SSH_ERR_BUFFER_READ_ONLY`. What `sshbuf_check_sanity` asks
of the sizes is part of the type. `mem` says whether `recallocarray` finds memory. A call that fails may have packed the
buffer.

`sshbuf_reset` is left out: it sets the allocation to `SSHBUF_SIZE_INIT` whatever the maximum is, and under a smaller maximum
the next `sshbuf_check_sanity` raises `SIGSEGV`.

`setMaxSize_iff`: `sshbuf_set_max_size` shrinks the allocation only if the new maximum is larger than `size`. So it refuses a
maximum that the stored bytes fill exactly, unless they fill the allocation too.
-/
import OpenSSHServerPN.Packet.Framing

namespace OpenSSHServerPN.Sshbuf

open Packet List
open PacketFraming (roundup)

def SSHBUF_SIZE_INIT : ℕ := 256
def SSHBUF_SIZE_INC : ℕ := 256
def SSHBUF_PACK_MIN : ℕ := 8192

theorem le_roundup (x : ℕ) : x ≤ roundup x SSHBUF_SIZE_INC := by
  simp only [roundup, SSHBUF_SIZE_INC]
  omega

inductive Err where
  | allocFail | noBufferSpace
deriving DecidableEq

structure Buf where
  /-- the stored bytes; `size` is their number -/
  d : Bytes
  off : ℕ
  alloc : ℕ
  maxSize : ℕ
  off_le : off ≤ d.length
  size_le : d.length ≤ alloc
  alloc_le : alloc ≤ maxSize
  max_le : maxSize ≤ SSHBUF_SIZE_MAX

namespace Buf

variable (b : Buf) (mem : Bool) (m : ℕ)

/-- the readable bytes -/
def content : Bytes := b.d.drop b.off

theorem length_content : b.content.length = b.d.length - b.off := length_drop

def maybePack (force : Bool) : Buf :=
  if b.off = 0 then b
  else if force = true ∨ SSHBUF_PACK_MIN ≤ b.off ∧ b.d.length / 2 ≤ b.off then
    { b with
      d := b.content
      off := 0
      off_le := Nat.zero_le _
      size_le := by have := b.size_le; rw [length_content]; omega }
  else b

theorem maybePack_kept (force : Bool) :
    (b.maybePack force).content = b.content ∧ (b.maybePack force).alloc = b.alloc ∧
      (b.maybePack force).maxSize = b.maxSize ∧ (b.maybePack force).d.length ≤ b.d.length := by
  unfold maybePack
  split_ifs <;> simp [content]

theorem maybePack_forced : (b.maybePack true).d.length = b.content.length := by
  unfold maybePack
  split_ifs with h
  · rw [length_content, h, Nat.sub_zero]
  · rfl
  · simp at *

/-- the allocation when the maximum becomes `m` -/
def shrunk : ℕ :=
  if m < b.alloc ∧ b.d.length < m then
    min (if b.d.length < SSHBUF_SIZE_INIT then SSHBUF_SIZE_INIT else roundup b.d.length SSHBUF_SIZE_INC) m
  else b.alloc

theorem size_le_shrunk : b.d.length ≤ b.shrunk m := by
  have := b.size_le
  have := le_roundup b.d.length
  unfold shrunk
  split_ifs <;> omega

theorem lt_shrunk : m < b.shrunk m ↔ m < b.alloc ∧ m ≤ b.d.length := by
  unfold shrunk
  split_ifs <;> omega

/-- `sshbuf_set_max_size` -/
def setMaxSize : Option Err × Buf :=
  if m = b.maxSize then (none, b)
  else if hm : SSHBUF_SIZE_MAX < m then (some .noBufferSpace, b)
  else
    let b := b.maybePack (m < b.d.length)
    if (m < b.alloc ∧ b.d.length < m) ∧ mem = false then (some .allocFail, b)
    else if h : m < b.shrunk m then (some .noBufferSpace, b)
    else
      (none, { b with
        alloc := b.shrunk m
        maxSize := m
        size_le := b.size_le_shrunk m
        alloc_le := Nat.le_of_not_lt h
        max_le := Nat.le_of_not_lt hm })

/-- the allocation that has room for `len` more bytes -/
def grown (len : ℕ) : ℕ :=
  if len + b.d.length ≤ b.alloc then b.alloc
  else
    let need := len + b.d.length - b.alloc
    let rlen := roundup (b.alloc + need) SSHBUF_SIZE_INC
    if b.maxSize < rlen then b.alloc + need else rlen

variable {b} {len : ℕ}

theorem le_grown (h : len + b.d.length ≤ b.maxSize) : len + b.d.length ≤ b.grown len ∧ b.grown len ≤ b.maxSize := by
  have := b.alloc_le
  have := le_roundup (b.alloc + (len + b.d.length - b.alloc))
  simp only [grown]
  split_ifs <;> omega

/-- a buffer that is packed as `sshbuf_allocate` does has the room that `sshbuf_check_reserve` asks for -/
theorem maybePack_room (h : ¬(b.maxSize < len ∨ b.maxSize - len < b.d.length - b.off)) :
    len + (b.maybePack (b.maxSize < b.d.length + len)).d.length ≤
      (b.maybePack (b.maxSize < b.d.length + len)).maxSize := by
  obtain ⟨-, -, hmax, hsize⟩ := b.maybePack_kept (b.maxSize < b.d.length + len)
  rw [hmax]
  by_cases hforce : b.maxSize < b.d.length + len
  · rw [decide_eq_true hforce, maybePack_forced, length_content]
    omega
  · omega

variable (b)

/-- `sshbuf_put`: `sshbuf_reserve`, and the copy of the bytes -/
def put (v : Bytes) : Option Err × Buf :=
  if h : b.maxSize < v.length ∨ b.maxSize - v.length < b.d.length - b.off then (some .noBufferSpace, b)
  else
    let p := b.maybePack (b.maxSize < b.d.length + v.length)
    have hroom := le_grown (maybePack_room h)
    if p.alloc < v.length + p.d.length ∧ mem = false then (some .allocFail, p)
    else
      (none, { p with
        d := p.d ++ v
        alloc := p.grown v.length
        off_le := by have := p.off_le; rw [length_append]; omega
        size_le := by rw [length_append, Nat.add_comm]; exact hroom.1
        alloc_le := hroom.2 })

theorem content_put {v : Bytes} (h : (b.put mem v).1 = none) : (b.put mem v).2.content = b.content ++ v := by
  simp only [put] at h ⊢
  split_ifs at h ⊢
  rw [← (b.maybePack_kept _).1]
  exact drop_append_of_le_length (b.maybePack _).off_le

/-- `sshbuf_consume` -/
def consume (n : ℕ) : Buf :=
  if n = 0 then b
  else if h : b.d.length - b.off < n then b
  else if b.off + n = b.d.length then { b with d := [], off := 0, off_le := le_rfl, size_le := Nat.zero_le _ }
  else { b with off := b.off + n, off_le := by have := b.off_le; omega }

/-- `sshbuf_consume_end` -/
def consumeEnd (n : ℕ) : Buf :=
  if n = 0 then b
  else if h : b.d.length - b.off < n then b
  else
    { b with
      d := b.d.take (b.d.length - n)
      off_le := by have := b.off_le; rw [length_take]; omega
      size_le := (length_take_le _ _).trans (by have := b.size_le; omega) }

inductive Op where
  | put (mem : Bool) (v : Bytes)
  | consume (n : ℕ)
  | consumeEnd (n : ℕ)

def step (b : Buf) : Op → Buf
  | .put mem v => (b.put mem v).2
  | .consume n => b.consume n
  | .consumeEnd n => b.consumeEnd n

theorem maxSize_step (op : Op) : (b.step op).maxSize = b.maxSize := by
  cases op with
  | put mem v =>
    simp only [step, put]
    split_ifs <;> simp [(b.maybePack_kept _).2.2.1]
  | consume n =>
    simp only [step, consume]
    split_ifs <;> rfl
  | consumeEnd n =>
    simp only [step, consumeEnd]
    split_ifs <;> rfl

theorem maxSize_run (ops : List Op) : (ops.foldl step b).maxSize = b.maxSize := by
  induction ops generalizing b with
  | nil => rfl
  | cons op ops ih => rw [foldl_cons, ih, maxSize_step]

theorem put_noBufferSpace (v : Bytes) :
    (b.put mem v).1 = some .noBufferSpace ↔ b.maxSize < b.content.length + v.length := by
  rw [length_content]
  simp only [put]
  split_ifs <;> simp <;> omega

theorem content_setMaxSize : (b.setMaxSize mem m).2.content = b.content := by
  have := (b.maybePack_kept (m < b.d.length)).1
  simp only [setMaxSize]
  split_ifs <;> first | rfl | exact this

theorem maxSize_setMaxSize (h : (b.setMaxSize mem m).1 = none) : (b.setMaxSize mem m).2.maxSize = m := by
  simp only [setMaxSize] at h ⊢
  split_ifs <;> simp_all

theorem setMaxSize_none : (b.setMaxSize true m).1 = none ↔
    m ≤ SSHBUF_SIZE_MAX ∧ ¬(m < b.alloc ∧ m ≤ (b.maybePack (m < b.d.length)).d.length) := by
  obtain ⟨-, halloc, -⟩ := b.maybePack_kept (m < b.d.length)
  have := b.alloc_le
  have := b.max_le
  simp only [setMaxSize, lt_shrunk, Bool.true_eq_false, and_false, if_false]
  split_ifs <;> simp <;> omega

/-- **When a maximum is accepted.** Given memory, exactly for a maximum that holds the content and is not too large, except
for one that the stored bytes fill, in a larger allocation. The content stays, and an accepted maximum bounds what later
calls put. -/
theorem setMaxSize_iff :
    (((b.setMaxSize true m).1 = none ↔ b.content.length ≤ m ∧ m ≤ SSHBUF_SIZE_MAX) ↔
      ¬(m < b.alloc ∧ (b.maybePack (m < b.d.length)).d.length = m)) ∧
    (b.setMaxSize mem m).2.content = b.content ∧ ((b.setMaxSize mem m).1 = none → ∀ ops : List Op,
      let c := ops.foldl step (b.setMaxSize mem m).2
      c.content.length ≤ m ∧ ∀ mem' v, (c.put mem' v).1 = some .noBufferSpace ↔ m < c.content.length + v.length) := by
  refine ⟨?_, b.content_setMaxSize mem m, ?_⟩
  · obtain ⟨hcont, -, -, hsize⟩ := b.maybePack_kept (m < b.d.length)
    have hlen : b.content.length ≤ (b.maybePack (m < b.d.length)).d.length := by
      rw [← hcont, length_content]
      omega
    have hforced : m < b.d.length → (b.maybePack (m < b.d.length)).d.length = b.content.length := by
      intro h
      rw [decide_eq_true h, maybePack_forced]
    have := b.size_le
    have := b.alloc_le.trans b.max_le
    rw [setMaxSize_none]
    omega
  · intro hok ops c
    have hmax : c.maxSize = m := by rw [maxSize_run, b.maxSize_setMaxSize mem m hok]
    refine ⟨?_, fun mem' v => by rw [put_noBufferSpace, hmax]⟩
    calc c.content.length ≤ c.d.length := by rw [length_content]; exact Nat.sub_le _ _
      _ ≤ c.maxSize := c.size_le.trans c.alloc_le
      _ = m := hmax

/-- `sshbuf_new` -/
def new : Buf := ⟨[], 0, SSHBUF_SIZE_INIT, SSHBUF_SIZE_MAX, le_rfl, Nat.zero_le _, by decide, le_rfl⟩

/-- 100 bytes in a new buffer, and the maximum 100 -/
theorem setMaxSize_full :
    let b := (new.put true (replicate 100 0)).2
    b.content.length = 100 ∧ (b.setMaxSize true 100).1 = some .noBufferSpace := by
  decide

end Buf

end OpenSSHServerPN.Sshbuf
