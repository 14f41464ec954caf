/-
Values that are written to a buffer and read back (`sshbuf-getput-basic.c`).

`typed_round_trip`: whatever is written, in whatever order, is read back by the matching calls, whatever follows in the
buffer. A large number comes back without its leading zeros, and must have at most `SSHBUF_MAX_BIGNUM` bytes without them:
`sshbuf_put_bignum2_bytes` writes longer ones, which `sshbuf_get_bignum2_bytes_direct` refuses.
-/
import OpenSSHServerPN.Krl.RoundTrip
import OpenSSHServerPN.Sshbuf.Buffer

namespace OpenSSHServerPN.Sshbuf

open Wire Packet Krl List

inductive Kind where
  | u8 | u16 | u32 | u64 | string | cstring | bignum2

/-- the values of a kind; for a C string, the bytes in memory from its first one on -/
abbrev Kind.Val : Kind → Type
  | .u8 => UInt8
  | .u16 => UInt16
  | .u32 => UInt32
  | .u64 => UInt64
  | .string | .cstring | .bignum2 => Bytes

abbrev Value := Σ k : Kind, k.Val

/-- `sshbuf_put_string` -/
def Buf.putString (b : Buf) (mem : Bool) (v : Bytes) : Option Err × Buf :=
  if SSHBUF_SIZE_MAX - 4 < v.length then (some .noBufferSpace, b) else b.put mem (Wire.putString v)

/-- `sshbuf_put_u8` to `sshbuf_put_bignum2_bytes` -/
def Buf.putValue (b : Buf) (mem : Bool) : Value → Option Err × Buf
  | ⟨.u8, x⟩ => b.put mem (putU8 x)
  | ⟨.u16, x⟩ => b.put mem (be 2 x.toNat)
  | ⟨.u32, x⟩ => b.put mem (putU32 x)
  | ⟨.u64, x⟩ => b.put mem (putU64 x)
  | ⟨.string, v⟩ => b.putString mem v
  | ⟨.cstring, v⟩ => b.putString mem (v.takeWhile (· ≠ 0))
  | ⟨.bignum2, v⟩ => if SSHBUF_SIZE_MAX - 5 < v.length then (some .noBufferSpace, b) else b.put mem (putBignum2Bytes v)

/-- `sshbuf_get_u8` to `sshbuf_get_bignum2_bytes_direct` -/
def Kind.get : (k : Kind) → Get k.Val
  | .u8 => getU8
  | .u16 => UInt16.ofNat <$> getNat 2
  | .u32 => getU32
  | .u64 => getU64
  | .string => getStr
  | .cstring => getCstring
  | .bignum2 => getBignum2Bytes

/-- what is read for a value -/
def Kind.read : (k : Kind) → k.Val → k.Val
  | .cstring, v => v.takeWhile (· ≠ 0)
  | .bignum2, v => v.dropWhile (· = 0)
  | _, v => v

def Kind.InLimits : (k : Kind) → k.Val → Prop
  | .bignum2, v => (v.dropWhile (· = 0)).length ≤ SSHBUF_MAX_BIGNUM
  | _, _ => True

/-- the values are written in turn, until a call fails -/
def Buf.putAll (b : Buf) (mem : Bool) : List Value → Option Err × Buf
  | [] => (none, b)
  | v :: vs =>
    match b.putValue mem v with
    | (none, b) => b.putAll mem vs
    | r => r

/-- the matching calls in turn -/
def getAll : List Kind → Get (List Value)
  | [] => pure []
  | k :: ks => do
    let x ← k.get
    let xs ← getAll ks
    pure (⟨k, x⟩ :: xs)

variable {b : Buf} {mem : Bool}

theorem putString_spec {v : Bytes} (h : (b.putString mem v).1 = none) :
    Fits v ∧ (b.putString mem v).2.content = b.content ++ Wire.putString v := by
  unfold Buf.putString at h ⊢
  split_ifs at h ⊢ with hlong
  have : 4 ≤ SSHBUF_SIZE_MAX := by decide
  exact ⟨by unfold Fits; omega, b.content_put mem h⟩

/-- a call that succeeds appends bytes that the matching call reads -/
theorem putValue_decodes {v : Value} (hv : v.1.InLimits v.2) (h : (b.putValue mem v).1 = none) :
    ∃ bs, (b.putValue mem v).2.content = b.content ++ bs ∧ Decodes v.1.get bs (v.1.read v.2) := by
  obtain ⟨k, x⟩ := v
  cases k with
  | u8 => exact ⟨_, b.content_put mem h, decodes_getU8 x⟩
  | u16 =>
    have := (decodes_getNat (w := 2) x.toNat_lt).map UInt16.ofNat
    rw [UInt16.ofNat_toNat] at this
    exact ⟨_, b.content_put mem h, this⟩
  | u32 => exact ⟨_, b.content_put mem h, decodes_getU32 x⟩
  | u64 => exact ⟨_, b.content_put mem h, decodes_getU64 x⟩
  | string =>
    obtain ⟨hfit, hcont⟩ := putString_spec h
    exact ⟨_, hcont, decodes_getStr hfit⟩
  | cstring =>
    obtain ⟨hfit, hcont⟩ := putString_spec h
    exact ⟨_, hcont, decodes_getCstring hfit fun h0 => by simpa using mem_takeWhile_imp h0⟩
  | bignum2 =>
    simp only [Buf.putValue] at h ⊢
    split_ifs at h ⊢ with hlong
    refine ⟨_, b.content_put mem h, decodes_getBignum2Bytes ?_ hv⟩
    have := (dropWhile_sublist (l := x) (· = 0)).length_le
    rw [putBignum2Bytes]
    split_ifs <;> simp [SSHBUF_SIZE_MAX] at * <;> omega

/-- **Round trip.** Values that were written, numbers of at most `SSHBUF_MAX_BIGNUM` bytes among them, are read back from
what they added to the buffer, and what follows is left. -/
theorem typed_round_trip {vs : List Value} (hlim : ∀ v ∈ vs, v.1.InLimits v.2) (h : (b.putAll mem vs).1 = none) :
    ∃ bs, (b.putAll mem vs).2.content = b.content ++ bs ∧
      ∀ rest, getAll (vs.map Sigma.fst) (bs ++ rest) = some (vs.map fun v => ⟨v.1, v.1.read v.2⟩, rest) := by
  induction vs generalizing b with
  | nil => exact ⟨[], (append_nil _).symm, fun _ => rfl⟩
  | cons v vs ih =>
    rw [Buf.putAll] at h ⊢
    split at h
    · next b' hb =>
      have hput := putValue_decodes (hlim v mem_cons_self) (congrArg Prod.fst hb)
      rw [hb] at hput
      obtain ⟨bs, hbs, hdec⟩ := hput
      obtain ⟨cs, hcs, hrest⟩ := ih (fun w hw => hlim w (mem_cons_of_mem _ hw)) h
      refine ⟨bs ++ cs, by rw [hcs, hbs, append_assoc], hdec.bind (Decodes.last hrest ?_)⟩
      exact Decodes.pure _
    · next hfail => exact (hfail (b.putValue mem v).2 (Prod.ext h rfl)).elim

/-- a byte, a C string and a number with a leading zero and the sign bit set -/
theorem typed_round_trip_mixed : ∃ bs, ∀ rest, getAll [.u8, .cstring, .bignum2] (bs ++ rest) =
    some ([⟨.u8, 7⟩, ⟨.cstring, [65]⟩, ⟨.bignum2, [128]⟩], rest) := by
  obtain ⟨bs, -, hread⟩ := @typed_round_trip Buf.new true [⟨.u8, 7⟩, ⟨.cstring, [65, 0]⟩, ⟨.bignum2, [0, 128]⟩]
    (by simp [Kind.InLimits, SSHBUF_MAX_BIGNUM]) (by decide)
  exact ⟨bs, hread⟩

end OpenSSHServerPN.Sshbuf
