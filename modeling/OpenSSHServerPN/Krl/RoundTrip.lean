/-
A revocation list that is written and read back (`krl.c`).

The writer bounds a bitmap by `BITMAP_MAX` only, 2^24 serials. The reader takes the bitmap off the file with
`sshbuf_get_bignum2_bytes_direct`, which refuses more than `SSHBUF_MAX_BIGNUM` bytes, that is 16384 serials. The cost model
of `choose_next_state` never asks how long the bitmap has become: as long as going on is the cheapest choice, it goes on.

Results:
- `parseSubsection_body`: a subsection is read as the calls for the serials it names, except a wide bitmap, which is
  refused;
- `parseRevokedCerts_body`, `fromBlob_toBlob`: so is a CA, and a file;
- `krl_round_trip_iff`: a written list is read back, with the same serials, key ids, keys and fingerprints, exactly if no
  bitmap is wider than 16384 serials;
- `evenly_spaced_unreadable`: 232 serials, each 71 above the last, are written as one bitmap and cannot be read.
-/
import OpenSSHServerPN.Krl.Format

namespace OpenSSHServerPN.Krl

open Wire Packet Runs List

variable {K : Type}

/-! ## Numbers of many bytes -/

theorem head?_dropWhile_zero (bs : Bytes) : (bs.dropWhile (· = 0)).head? ≠ some 0 := by
  induction bs with
  | nil => simp
  | cons b bs ih =>
    rw [dropWhile_cons]
    split
    · exact ih
    · next h => simpa using h

theorem ofBe_dropWhile_zero (bs : Bytes) : ofBe (bs.dropWhile (· = 0)) = ofBe bs := by
  induction bs with
  | nil => rfl
  | cons b bs ih =>
    rw [dropWhile_cons]
    split
    · next h =>
      obtain rfl : b = 0 := by simpa using h
      rw [ih, ofBe_cons]
      simp
    · rfl

/-- without leading zeros, the length is that of the number -/
theorem length_le_iff_ofBe_lt {s : Bytes} (h : s.head? ≠ some 0) (n : ℕ) : s.length ≤ n ↔ ofBe s < 256 ^ n := by
  constructor
  · intro hn
    exact (ofBe_lt s).trans_le (Nat.pow_le_pow_right (by norm_num) hn)
  intro hlt
  by_contra hn
  cases s with
  | nil => simp at hn
  | cons b s =>
    have hb : 1 ≤ b.toNat := by
      have h0 : b ≠ 0 := by simpa using h
      have h1 : b.toNat ≠ 0 := fun h => h0 (UInt8.toNat_inj.1 h)
      omega
    have hlow : 256 ^ n ≤ ofBe (b :: s) := by
      calc 256 ^ n ≤ 256 ^ s.length := Nat.pow_le_pow_right (by norm_num) (by simp at hn; omega)
        _ = 1 * 256 ^ s.length := (Nat.one_mul _).symm
        _ ≤ b.toNat * 256 ^ s.length := Nat.mul_le_mul_right _ hb
        _ ≤ ofBe (b :: s) := by rw [ofBe_cons]; exact Nat.le_add_right _ _
    omega

/-- the bytes that are written for a number: they are not negative, and of the length of the number or one longer -/
theorem bignum_written {s d : Bytes} (hs : s.head? ≠ some 0) (hd : d = if ∃ b ∈ s.head?, 0x80 ≤ b then 0 :: s else s) :
    (¬∃ b ∈ d.head?, 0x80 ≤ b) ∧ d.dropWhile (· = 0) = s ∧
      (¬(SSHBUF_MAX_BIGNUM + 1 < d.length ∨ (d.length = SSHBUF_MAX_BIGNUM + 1 ∧ d.head? ≠ some 0)) ↔
        s.length ≤ SSHBUF_MAX_BIGNUM) := by
  have hdrop : s.dropWhile (· = 0) = s := by
    cases s with
    | nil => rfl
    | cons b s =>
      have hb : b ≠ 0 := by simpa using hs
      simp [hb]
  split at hd
  · subst hd
    refine ⟨by simp, by simpa using hdrop, ?_⟩
    simp only [length_cons, head?_cons, ne_eq, not_true_eq_false, and_false, or_false]
    omega
  · next hpos =>
    subst hd
    refine ⟨hpos, hdrop, ?_⟩
    simp only [hs, ne_eq, not_false_eq_true, and_true]
    omega

variable {bs : Bytes}

section
variable (hfit : (putBignum2Bytes bs).length ≤ SSHBUF_SIZE_MAX)
include hfit

theorem decodes_getBignum2Bytes (h : (bs.dropWhile (· = 0)).length ≤ SSHBUF_MAX_BIGNUM) :
    Decodes getBignum2Bytes (putBignum2Bytes bs) (bs.dropWhile (· = 0)) := by
  obtain ⟨hpos, hdrop, hlen⟩ := bignum_written (head?_dropWhile_zero bs) rfl
  rw [putBignum2Bytes, length_putString] at hfit
  refine (decodes_getStr (by unfold Fits; omega)).last ((Decodes.check hpos).last ((Decodes.check (hlen.2 h)).last ?_))
  rw [hdrop]
  exact Decodes.pure _

theorem getBignum2Bytes_long (h : ¬(bs.dropWhile (· = 0)).length ≤ SSHBUF_MAX_BIGNUM) (rest : Bytes) :
    getBignum2Bytes (putBignum2Bytes bs ++ rest) = none := by
  obtain ⟨hpos, -, hlen⟩ := bignum_written (head?_dropWhile_zero bs) rfl
  rw [putBignum2Bytes, length_putString] at hfit
  rw [getBignum2Bytes, putBignum2Bytes, (decodes_getStr (by unfold Fits; omega)).then]
  rw [guard, if_pos hpos, guard, if_neg (mt hlen.1 h)]
  rfl

end

/-! ## Bitmaps -/

theorem pow_256 (n : ℕ) : 256 ^ n = 2 ^ (8 * n) := (pow_mul 2 8 n).symm

theorem ofBe_bitmapToString (bits : ℕ) : ofBe (bitmapToString bits) = bits := by
  refine ofBe_be ?_
  calc bits < 2 ^ bitmapNbits bits := lt_two_pow_bitmapNbits bits
    _ ≤ 2 ^ (8 * ((bitmapNbits bits + 7) / 8)) := Nat.pow_le_pow_right (by norm_num) (by omega)
    _ = 256 ^ ((bitmapNbits bits + 7) / 8) := (pow_256 _).symm

/-- no serial of a bitmap is 16384 or more above its first -/
def Subsection.Narrow : Subsection → Prop
  | .bitmap _ bits => bits < 2 ^ (8 * SSHBUF_MAX_BIGNUM)
  | _ => True

instance : DecidablePred Subsection.Narrow
  | .bitmap _ bits => inferInstanceAs (Decidable (bits < 2 ^ (8 * SSHBUF_MAX_BIGNUM)))
  | .list _ => isTrue trivial
  | .range _ => isTrue trivial

theorem narrow_bitmap (start bits : ℕ) :
    ((bitmapToString bits).dropWhile (· = 0)).length ≤ SSHBUF_MAX_BIGNUM ↔ (Subsection.bitmap start bits).Narrow := by
  rw [length_le_iff_ofBe_lt (head?_dropWhile_zero _), ofBe_dropWhile_zero, ofBe_bitmapToString, pow_256]
  rfl

variable {s : UInt8 × Bytes} {bits start : ℕ} {α : Type} {subs : List Subsection}

variable {i : ℕ}

theorem testBit_lt_bitmapNbits (h : bits.testBit i = true) : i < bitmapNbits bits := by
  by_contra hi
  have hlt : bits < 2 ^ i := (lt_two_pow_bitmapNbits bits).trans_le (Nat.pow_le_pow_right (by norm_num) (by omega))
  rw [Nat.testBit_lt_two_pow hlt] at h
  cases h

theorem testBit_last (h : 0 < bitmapNbits bits) : bits.testBit (bitmapNbits bits - 1) = true := by
  unfold bitmapNbits at h ⊢
  split at h
  · omega
  · next h0 =>
    rw [if_neg h0]
    exact Nat.testBit_log2 h0

/-! ## A subsection is read as calls -/

/-- the calls for a subsection -/
def Subsection.calls (ca : Option K) : Subsection → List (Revocation K)
  | .list serials => serials.map fun n => revokeSerial ca (UInt64.ofNat n)
  | .range ranges => ranges.map fun r => .serialRange ca (UInt64.ofNat r.lo) (UInt64.ofNat r.hi)
  | .bitmap start bits =>
    ((List.range (bitmapNbits bits)).filter bits.testBit).map fun i => revokeSerial ca (UInt64.ofNat start + UInt64.ofNat i)

/-- the serials of a subsection are serials -/
def Subsection.Bounded (s : Subsection) : Prop := ∀ n, s.Names n → 0 < n ∧ n < 2 ^ 64

theorem decodes_putSerial (n : ℕ) : Decodes getU64 (putSerial n) (UInt64.ofNat n) := decodes_getU64 _

theorem toNat_ofNat_serial {n : ℕ} (h : n < 2 ^ 64) : (UInt64.ofNat n).toNat = n := UInt64.toNat_ofNat_of_lt' h

theorem toNat_add_ofNat (h : start + i < 2 ^ 64) : (UInt64.ofNat start + UInt64.ofNat i).toNat = start + i := by
  rw [UInt64.toNat_add, toNat_ofNat_serial (by omega), toNat_ofNat_serial (by omega), Nat.mod_eq_of_lt h]

theorem Subsection.Bounded.bit (h : (Subsection.bitmap start bits).Bounded) (hi : bits.testBit i = true) :
    0 < start + i ∧ start + i < 2 ^ 64 :=
  h (start + i) ⟨Nat.le_add_right _ _, by rwa [Nat.add_sub_cancel_left]⟩

variable (codec : KeyCodec K) (ca : Option K)

theorem parse_list (serials : List ℕ) :
    parseSubsection ca ((Subsection.list serials).type, (Subsection.list serials).body) =
      some ((Subsection.list serials).calls ca) := by
  have hread : getMany getU64 (serials.flatMap putSerial) = some (serials.map UInt64.ofNat) := by
    have hall : ∀ x ∈ serials.map UInt64.ofNat, Decodes getU64 (putU64 x) x ∧ putU64 x ≠ [] :=
      fun x _ => ⟨decodes_getU64 x, by intro h; simpa using congrArg length h⟩
    have := getMany_encoded hall
    rwa [flatMap_map] at this
  show (getMany getU64 (serials.flatMap putSerial)).map _ = _
  rw [hread, Option.map_some, map_map]
  rfl

theorem parse_range (r : RevokedSerial) :
    parseSubsection ca ((Subsection.range [r]).type, (Subsection.range [r]).body) =
      some ((Subsection.range [r]).calls ca) := by
  have hbody : (Subsection.range [r]).body = putSerial r.lo ++ putSerial r.hi := by simp [Subsection.body]
  have hread : Decodes (getRange ca) (putSerial r.lo ++ putSerial r.hi) ((Subsection.range [r]).calls ca) := by
    refine (decodes_putSerial r.lo).bind ?_
    exact (decodes_putSerial r.hi).last (Decodes.pure _)
  rw [hbody]
  exact hread.whole

theorem bitmapCalls_written {s : Bytes} (hs : ofBe s = bits)
    (hlen : s.length ≤ SSHBUF_MAX_BIGNUM) (hb : (Subsection.bitmap start bits).Bounded) :
    bitmapCalls ca (UInt64.ofNat start) s = some ((Subsection.bitmap start bits).calls ca) := by
  -- the last bit is set, so that no number up to it wraps around
  have hwrap : ¬∃ i < bitmapNbits bits, 0 < i ∧ UInt64.ofNat start + UInt64.ofNat i = 0 := by
    rintro ⟨i, hi, hpos, hzero⟩
    have hlast := hb.bit (testBit_last (Nat.lt_of_le_of_lt (Nat.zero_le _) hi))
    have hval : (UInt64.ofNat start + UInt64.ofNat i).toNat = start + i := toNat_add_ofNat (by omega)
    rw [hzero] at hval
    have : (0 : UInt64).toNat = 0 := rfl
    omega
  have hshort : ¬BITMAP_MAX / 8 < s.length := by
    have : SSHBUF_MAX_BIGNUM ≤ BITMAP_MAX / 8 := by decide
    omega
  rw [bitmapCalls, hs, if_neg hshort, if_neg hwrap]
  rfl

theorem parse_bitmap (hb : (Subsection.bitmap start bits).Bounded)
    (hfit : (Subsection.bitmap start bits).body.length ≤ SSHBUF_SIZE_MAX) :
    parseSubsection ca ((Subsection.bitmap start bits).type, (Subsection.bitmap start bits).body) =
      if (Subsection.bitmap start bits).Narrow then some ((Subsection.bitmap start bits).calls ca) else none := by
  have hnum : (putBignum2Bytes (bitmapToString bits)).length ≤ SSHBUF_SIZE_MAX := by
    rw [Subsection.body, length_append] at hfit
    omega
  show (whole getBitmap (Subsection.bitmap start bits).body).bind _ = _
  split
  · next hn =>
    have hlen := (narrow_bitmap start bits).2 hn
    have hread : Decodes getBitmap (Subsection.bitmap start bits).body
        (UInt64.ofNat start, (bitmapToString bits).dropWhile (· = 0)) := by
      refine (decodes_putSerial start).bind ?_
      exact (decodes_getBignum2Bytes hnum hlen).last (Decodes.pure _)
    rw [hread.whole]
    exact bitmapCalls_written ca (by rw [ofBe_dropWhile_zero, ofBe_bitmapToString]) hlen hb
  · next hn =>
    have hlong := getBignum2Bytes_long hnum (mt (narrow_bitmap start bits).1 hn) []
    rw [append_nil] at hlong
    have hread : getBitmap (Subsection.bitmap start bits).body = none := by
      rw [getBitmap, Subsection.body, (decodes_putSerial start).then]
      exact bind_eq_none hlong _
    rw [whole, hread]
    rfl

/-- **A subsection.** It is read as its calls, unless it is a wide bitmap. -/
theorem parseSubsection_body {s : Subsection} (hwf : s.WellFormed) (hb : s.Bounded)
    (hfit : s.body.length ≤ SSHBUF_SIZE_MAX) :
    parseSubsection ca (s.type, s.body) = if s.Narrow then some (s.calls ca) else none := by
  cases s with
  | list serials => rw [parse_list, if_pos (show (Subsection.list serials).Narrow from trivial)]
  | range ranges =>
    obtain ⟨r, rfl⟩ := hwf
    rw [parse_range, if_pos (show (Subsection.range [r]).Narrow from trivial)]
  | bitmap start bits => exact parse_bitmap ca hb hfit

theorem revokeSerial_valid {x : UInt64} (h : 0 < x.toNat) : (revokeSerial ca x).Valid := ⟨h, le_rfl⟩

theorem revokeSerial_names (x : UInt64) (i : Item K) : (revokeSerial ca x).Names i ↔ i = .serial ca x.toNat := by
  cases i with
  | serial ca' n =>
    simp only [Item.serial.injEq]
    exact and_congr Iff.rfl ⟨fun h => le_antisymm h.2 h.1, fun h => ⟨h.ge, h.le⟩⟩
  | _ => simp [revokeSerial, Revocation.Names]

theorem Subsection.calls_spec {s : Subsection} (hb : s.Bounded) : (∀ r ∈ s.calls ca, r.Valid) ∧
      ∀ i, (∃ r ∈ s.calls ca, r.Names i) ↔ ∃ n, i = .serial ca n ∧ s.Names n := by
  cases s with
  | list serials =>
    have hval : ∀ n ∈ serials, (UInt64.ofNat n).toNat = n := fun n hn => toNat_ofNat_serial (hb n hn).2
    constructor
    · intro r hr
      obtain ⟨n, hn, rfl⟩ := mem_map.1 hr
      exact revokeSerial_valid ca (by rw [hval n hn]; exact (hb n hn).1)
    intro i
    simp only [Subsection.calls, mem_map, exists_exists_and_eq_and, revokeSerial_names]
    constructor
    · rintro ⟨n, hn, rfl⟩
      exact ⟨n, by rw [hval n hn], hn⟩
    · rintro ⟨n, rfl, hn⟩
      exact ⟨n, hn, by rw [hval n hn]⟩
  | range ranges =>
    have hlo : ∀ r : RevokedSerial, (UInt64.ofNat r.lo).toNat = r.lo :=
      fun r => toNat_ofNat_serial (r.lo_le.trans_lt r.hi_lt)
    have hhi : ∀ r : RevokedSerial, (UInt64.ofNat r.hi).toNat = r.hi := fun r => toNat_ofNat_serial r.hi_lt
    constructor
    · intro r hr
      obtain ⟨rs, -, rfl⟩ := mem_map.1 hr
      exact ⟨by rw [hlo]; exact rs.lo_pos, by rw [hlo, hhi]; exact rs.lo_le⟩
    intro i
    cases i with
    | serial ca' n =>
      simp only [Subsection.calls, mem_map, exists_exists_and_eq_and, Revocation.Names, hlo, hhi, Item.serial.injEq]
      constructor
      · rintro ⟨r, hr, rfl, h⟩
        exact ⟨n, ⟨rfl, rfl⟩, r, hr, h⟩
      · rintro ⟨n, ⟨rfl, rfl⟩, r, hr, h⟩
        exact ⟨r, hr, rfl, h⟩
    | _ => simp [Subsection.calls, Revocation.Names]
  | bitmap start bits =>
    have hval : ∀ i, bits.testBit i = true → (UInt64.ofNat start + UInt64.ofNat i).toNat = start + i :=
      fun i hi => toNat_add_ofNat (hb.bit hi).2
    constructor
    · intro r hr
      obtain ⟨i, hi, rfl⟩ := mem_map.1 hr
      have hbit := (mem_filter.1 hi).2
      exact revokeSerial_valid ca (by rw [hval i hbit]; exact (hb.bit hbit).1)
    · intro i
      simp only [Subsection.calls, mem_map, exists_exists_and_eq_and, revokeSerial_names, mem_filter, mem_range]
      constructor
      · rintro ⟨j, ⟨-, hj⟩, rfl⟩
        exact ⟨start + j, by rw [hval j hj], Nat.le_add_right _ _, by rwa [Nat.add_sub_cancel_left]⟩
      · rintro ⟨n, rfl, hn, hbit⟩
        refine ⟨n - start, ⟨testBit_lt_bitmapNbits hbit, hbit⟩, ?_⟩
        rw [hval _ hbit, Nat.add_sub_cancel' hn]

/-! ## A certificate section is read as calls -/

variable {l : List α}

theorem length_le_flatMap {f : α → Bytes} {a : α} (h : a ∈ l) : (f a).length ≤ (l.flatMap f).length := by
  obtain ⟨l₁, l₂, rfl⟩ := append_of_mem h
  simp only [flatMap_append, flatMap_cons, length_append]
  omega

theorem length_putSection (s : UInt8 × Bytes) : (putSection s).length = 1 + (4 + s.2.length) := by
  rw [putSection, length_append, length_putU8, length_putString]

variable {sects : List (UInt8 × Bytes)}

/-- a section in a buffer is shorter than the buffer -/
theorem length_section_le (h : s ∈ sects) :
    s.2.length + 4 ≤ (sects.flatMap putSection).length := by
  have h1 := length_le_flatMap (f := putSection) h
  rw [length_putSection] at h1
  omega

theorem putSection_ne_nil (s : UInt8 × Bytes) : putSection s ≠ [] := by
  intro h
  have := length_putSection s
  rw [h, length_nil] at this
  omega

theorem decodes_getSubsection (h : Fits s.2) : Decodes getSubsection (putSection s) s := by
  refine (decodes_getU8 s.1).bind ?_
  exact (decodes_getStr h).last (Decodes.pure _)

/-- sections in a buffer are read one by one -/
theorem getMany_getSubsection (h : (sects.flatMap putSection).length ≤ SSHBUF_SIZE_MAX) :
    getMany getSubsection (sects.flatMap putSection) = some sects := by
  exact getMany_encoded fun s hs => ⟨decodes_getSubsection ((length_section_le hs).trans h), putSection_ne_nil s⟩

theorem putString_ne_nil (bs : Bytes) : putString bs ≠ [] := by
  intro h
  have := congrArg length h
  simp at this

/-- a section of strings is there exactly if there is a string -/
theorem stringSection_eq (type : UInt8) (strings : List Bytes) :
    stringSection type strings = if strings = [] then [] else [(type, strings.flatMap putString)] := by
  unfold stringSection
  have hiff : strings.flatMap putString = [] ↔ strings = [] := by
    rw [flatMap_eq_nil_iff]
    constructor
    · intro h
      cases strings with
      | nil => rfl
      | cons b bs => exact absurd (h b mem_cons_self) (putString_ne_nil b)
    · rintro rfl
      exact fun _ h => absurd h not_mem_nil
  simp only [hiff]

variable {strings : List Bytes}

/-- a section of strings is read as one call a string -/
theorem mapM_stringSection {type : UInt8} {parse : UInt8 × Bytes → Option (List (Revocation K))}
    {call : Bytes → Revocation K} (h : (type, strings.flatMap putString) ∈ stringSection type strings →
      parse (type, strings.flatMap putString) = some (strings.map call)) :
    ∃ calls, (stringSection type strings).mapM parse = some calls ∧ calls.flatten = strings.map call := by
  rw [stringSection_eq] at h ⊢
  split at h
  · next hnil => exact ⟨[], by rw [if_pos hnil]; rfl, by rw [hnil]; rfl⟩
  · next hne =>
    refine ⟨[strings.map call], ?_, by simp⟩
    rw [if_neg hne, mapM_cons, h mem_cons_self]
    rfl

section
variable (h : (strings.flatMap putString).length ≤ SSHBUF_SIZE_MAX)
include h

theorem fits_of_mem (hbs : bs ∈ strings) : Fits bs := by
  have h1 := length_le_flatMap (f := putString) hbs
  rw [length_putString] at h1
  unfold Fits
  omega

theorem getMany_getStr : getMany getStr (strings.flatMap putString) = some strings :=
  getMany_encoded fun bs hbs => ⟨decodes_getStr (fits_of_mem h hbs), putString_ne_nil bs⟩

end

theorem getMany_getCstring {strings : List CString}
    (h : ((strings.map Subtype.val).flatMap putString).length ≤ SSHBUF_SIZE_MAX) :
    getMany getCstring ((strings.map Subtype.val).flatMap putString) = some (strings.map Subtype.val) := by
  refine getMany_encoded fun bs hbs => ⟨decodes_getCstring (fits_of_mem h hbs) ?_, putString_ne_nil bs⟩
  obtain ⟨id, -, rfl⟩ := mem_map.1 hbs
  exact id.2

theorem cstr_val (id : CString) : cstr id.1 = id := by
  apply Subtype.ext
  show id.1.takeWhile (· ≠ 0) = id.1
  rw [takeWhile_eq_self_iff]
  intro b hb
  simpa using fun h0 : b = 0 => id.2 (h0 ▸ hb)

/-- the calls for a CA -/
def certCalls (rc : RevokedCerts K) (subs : List Subsection) : List (Revocation K) :=
  subs.flatMap (Subsection.calls rc.caKey) ++ rc.keyIds.map (Revocation.keyId rc.caKey)

theorem decodes_getCa (h : Fits (ca.elim [] codec.toBlob)) :
    Decodes (getCa codec) (putString (ca.elim [] codec.toBlob) ++ putString []) ca := by
  have hnil : Fits [] := by
    unfold Fits
    decide
  refine (decodes_getStr h).bind ((decodes_getStr hnil).last ?_)
  cases ca with
  | none => exact Decodes.pure _
  | some k =>
    have hne : (some k).elim [] codec.toBlob ≠ [] := codec.toBlob_ne_nil k
    have hfrom : codec.fromBlob ((some k).elim [] codec.toBlob) = some k := codec.fromBlob_toBlob k
    rw [if_neg hne, hfrom]
    exact Decodes.pure _

/-- what the subsections of a CA promise -/
structure SectionsOk (subs : List Subsection) : Prop where
  wellFormed : ∀ s ∈ subs, s.WellFormed
  bounded : ∀ s ∈ subs, s.Bounded

theorem sectionsOk {t : RevokedSerialTree} (h : serialSections t = some subs) : SectionsOk subs := by
  refine ⟨serialSections_wellFormed h, fun s hs n hn => ?_⟩
  obtain ⟨r, -, hr⟩ := (serialSections_names h n).1 ⟨s, hs, hn⟩
  have h1 := r.lo_pos
  have h2 := r.hi_lt
  unfold RevokedSerial.Covers at hr
  omega

variable {rc : RevokedCerts K}

/-- **A CA.** Its section is read as its calls, unless there is a wide bitmap in it. -/
theorem parseRevokedCerts_body (hok : SectionsOk subs) (hfit : (certBody codec rc subs).length ≤ SSHBUF_SIZE_MAX) :
    parseRevokedCerts codec (certBody codec rc subs) =
      if ∀ s ∈ subs, s.Narrow then some (certCalls rc subs) else none := by
  simp only [certBody, length_append, length_putString] at hfit
  have hca := decodes_getCa codec rc.caKey (by unfold Fits; omega)
  have hsubs : getMany getSubsection ((certSubsections rc subs).flatMap putSection) = some (certSubsections rc subs) :=
    getMany_getSubsection (by omega)
  have hsub : ∀ s ∈ subs, parseSubsection rc.caKey (s.type, s.body) = if s.Narrow then some (s.calls rc.caKey) else none := by
    intro s hs
    refine parseSubsection_body rc.caKey (hok.wellFormed s hs) (hok.bounded s hs) ?_
    have hmem : (s.type, s.body) ∈ certSubsections rc subs := mem_append_left _ (mem_map.2 ⟨s, hs, rfl⟩)
    have h1 : s.body.length + 4 ≤ _ := length_section_le hmem
    omega
  have hread : parseRevokedCerts codec (certBody codec rc subs) =
      ((certSubsections rc subs).mapM (parseSubsection rc.caKey)).map flatten := by
    unfold parseRevokedCerts certBody
    rw [← append_assoc, hca]
    show (getMany getSubsection _).bind _ = _
    rw [hsubs, Option.bind_some]
    cases (certSubsections rc subs).mapM (parseSubsection rc.caKey) <;> rfl
  rw [hread, certSubsections, mapM_append, mapM_map]
  split
  · next hn =>
    have hserials : subs.mapM (parseSubsection rc.caKey ∘ fun s => (s.type, s.body)) =
        some (subs.map (Subsection.calls rc.caKey)) :=
      mapM_eq_some_map fun s hs => (hsub s hs).trans (if_pos (hn s hs))
    have hids : (KRL_SECTION_CERT_KEY_ID, (rc.keyIds.map Subtype.val).flatMap putString) ∈
        stringSection KRL_SECTION_CERT_KEY_ID (rc.keyIds.map Subtype.val) →
        parseSubsection rc.caKey (KRL_SECTION_CERT_KEY_ID, (rc.keyIds.map Subtype.val).flatMap putString) =
          some ((rc.keyIds.map Subtype.val).map fun id => .keyId rc.caKey (cstr id)) := by
      intro hmem
      have h1 : ((rc.keyIds.map Subtype.val).flatMap putString).length + 4 ≤ _ :=
        length_section_le (mem_append_right (subs.map fun s => (s.type, s.body)) hmem)
      show (getMany getCstring _).map _ = _
      rw [getMany_getCstring (by unfold certSubsections at hfit; omega)]
      rfl
    obtain ⟨calls, hcalls, hflat⟩ := mapM_stringSection hids
    rw [hserials, hcalls]
    show some ((subs.map (Subsection.calls rc.caKey) ++ calls).flatten) = _
    rw [flatten_append, hflat, map_map]
    congr 2
    exact map_congr_left fun id _ => congrArg _ (cstr_val id)
  · next hn =>
    push Not at hn
    obtain ⟨s, hs, hwide⟩ := hn
    rw [mapM_eq_none hs ((hsub s hs).trans (if_neg hwide))]
    rfl

/-! ## What the calls name -/

theorem keyId_names (id : CString) (i : Item K) : (Revocation.keyId ca id).Names i ↔ i = .keyId ca id := by
  cases i <;> simp [Revocation.Names]

theorem explicit_names (blob : Bytes) (i : Item K) : (Revocation.explicit blob).Names i ↔ i = .key blob := by
  cases i <;> simp [Revocation.Names]

theorem sha1_names (digest : Bytes) (i : Item K) : (Revocation.sha1 digest).Names i ↔ i = .sha1 digest := by
  cases i <;> simp [Revocation.Names]

theorem sha256_names (digest : Bytes) (i : Item K) : (Revocation.sha256 digest).Names i ↔ i = .sha256 digest := by
  cases i <;> simp [Revocation.Names]

section
variable (h : serialSections rc.serials = some subs)
include h

theorem certCalls_names (i : Item K) : (∃ r ∈ certCalls rc subs, r.Names i) ↔
      (∃ n, i = .serial rc.caKey n ∧ n ∈ rc.serials) ∨ ∃ id ∈ rc.keyIds, i = .keyId rc.caKey id := by
  simp only [certCalls, mem_append, mem_flatMap, mem_map, or_and_right, exists_or, exists_exists_and_eq_and, keyId_names]
  refine or_congr_left ?_
  have hok := sectionsOk h
  constructor
  · rintro ⟨r, ⟨s, hs, hr⟩, hname⟩
    obtain ⟨n, hi, hn⟩ := ((Subsection.calls_spec rc.caKey (hok.bounded s hs)).2 i).1 ⟨r, hr, hname⟩
    exact ⟨n, hi, (serialSections_names h n).1 ⟨s, hs, hn⟩⟩
  · rintro ⟨n, hi, hn⟩
    obtain ⟨s, hs, hname⟩ := (serialSections_names h n).2 hn
    obtain ⟨r, hr, hr'⟩ := ((Subsection.calls_spec rc.caKey (hok.bounded s hs)).2 i).2 ⟨n, hi, hname⟩
    exact ⟨r, ⟨s, hs, hr⟩, hr'⟩

theorem certCalls_valid : ∀ r ∈ certCalls rc subs, r.Valid := by
  intro r hr
  rcases mem_append.1 hr with hr | hr
  · obtain ⟨s, hs, hr⟩ := mem_flatMap.1 hr
    exact (Subsection.calls_spec rc.caKey ((sectionsOk h).bounded s hs)).1 r hr
  · obtain ⟨id, -, rfl⟩ := mem_map.1 hr
    trivial

end

/-- the subsections of a CA that was written -/
def certSubs (rc : RevokedCerts K) : List Subsection := (serialSections rc.serials).getD []

/-- every CA was written -/
def Written (krl : SshKrl K) : Prop := ∀ rc ∈ krl.certs, serialSections rc.serials = some (certSubs rc)

/-- the calls for a whole list -/
def fileCalls (krl : SshKrl K) : List (Revocation K) :=
  krl.certs.flatMap (fun rc => certCalls rc (certSubs rc)) ++ (krl.keys.map .explicit ++
    ((krl.sha1s.map Subtype.val).map .sha1 ++ (krl.sha256s.map Subtype.val).map .sha256))

variable {krl : SshKrl K}

theorem fileCalls_names (h : Written krl) (i : Item K) : (∃ r ∈ fileCalls krl, r.Names i) ↔ krl.Revokes i := by
  have hcerts : (∃ r, (∃ rc ∈ krl.certs, r ∈ certCalls rc (certSubs rc)) ∧ r.Names i) ↔ ∃ rc ∈ krl.certs,
      (∃ n, i = .serial rc.caKey n ∧ n ∈ rc.serials) ∨ ∃ id ∈ rc.keyIds, i = .keyId rc.caKey id := by
    constructor
    · rintro ⟨r, ⟨rc, hrc, hr⟩, hname⟩
      exact ⟨rc, hrc, (certCalls_names (h rc hrc) i).1 ⟨r, hr, hname⟩⟩
    · rintro ⟨rc, hrc, hname⟩
      obtain ⟨r, hr, hr'⟩ := (certCalls_names (h rc hrc) i).2 hname
      exact ⟨r, ⟨rc, hrc, hr⟩, hr'⟩
  simp only [fileCalls, mem_append, mem_flatMap, mem_map, or_and_right, exists_or, hcerts, exists_exists_and_eq_and,
    explicit_names, sha1_names, sha256_names]
  cases i with
  | serial ca n =>
    simp only [Item.serial.injEq, reduceCtorEq, and_false, exists_false, or_false]
    constructor
    · rintro ⟨rc, hrc, n, ⟨rfl, rfl⟩, hn⟩
      exact ⟨rc, hrc, rfl, hn⟩
    · rintro ⟨rc, hrc, rfl, hn⟩
      exact ⟨rc, hrc, n, ⟨rfl, rfl⟩, hn⟩
  | keyId ca id =>
    simp only [Item.keyId.injEq, reduceCtorEq, false_and, and_false, exists_false, or_false, false_or]
    constructor
    · rintro ⟨rc, hrc, id, hid, rfl, rfl⟩
      exact ⟨rc, hrc, rfl, hid⟩
    · rintro ⟨rc, hrc, rfl, hid⟩
      exact ⟨rc, hrc, id, hid, rfl, rfl⟩
  | key | sha1 | sha256 => simp [SshKrl.Revokes]

theorem fileCalls_valid (h : Written krl) : ∀ r ∈ fileCalls krl, r.Valid := by
  intro r hr
  rcases mem_append.1 hr with hr | hr
  · obtain ⟨rc, hrc, hr⟩ := mem_flatMap.1 hr
    exact certCalls_valid (h rc hrc) r hr
  rcases mem_append.1 hr with hr | hr
  · obtain ⟨b, -, rfl⟩ := mem_map.1 hr
    trivial
  rcases mem_append.1 hr with hr | hr
  all_goals
    simp only [mem_map] at hr
    obtain ⟨_, ⟨d, -, rfl⟩, rfl⟩ := hr
    exact d.2

/-! ## A file is read back -/

/-- what is read off the header -/
def SshKrl.header (krl : SshKrl K) : SshKrl K :=
  { SshKrl.init with version := krl.version, generatedDate := krl.generatedDate, flags := krl.flags, comment := krl.comment }

theorem decodes_getHeader (h : (putHeader krl).length ≤ SSHBUF_SIZE_MAX) :
    Decodes getHeader (putHeader krl) krl.header := by
  simp only [putHeader, length_append, length_putString, length_putU64] at h
  refine (decodes_getBytes rfl).bind ?_
  refine (Decodes.check rfl).bind ((decodes_getU32 _).bind ((Decodes.check rfl).bind ?_))
  refine (decodes_getU64 _).bind ((decodes_getU64 _).bind ((decodes_getU64 _).bind ?_))
  refine (decodes_getStr (by unfold Fits; omega)).bind ?_
  refine (decodes_getCstring (by unfold Fits; omega) krl.comment.2).last ?_
  rw [cstr_val]
  exact Decodes.pure _

theorem toBlob_eq {codec : KeyCodec K} {now : UInt64} {blob : Bytes} (h : toBlob codec now krl = some blob) :
    Written krl ∧ blob.length ≤ SSHBUF_SIZE_MAX ∧ blob = putHeader (krl.dated now) ++
      (krlSections krl (krl.certs.map fun rc => certBody codec rc (certSubs rc))).flatMap putSection := by
  obtain ⟨certs, hcerts, hblob⟩ := Option.bind_eq_some_iff.1 h
  have hw : Written krl := by
    intro rc hrc
    obtain ⟨body, hbody⟩ := of_mapM_eq_some hcerts hrc
    obtain ⟨subs, hsubs, -⟩ := Option.map_eq_some_iff.1 hbody
    rw [certSubs, hsubs]
    rfl
  have hbodies : krl.certs.mapM (revokedCertsGenerate codec) =
      some (krl.certs.map fun rc => certBody codec rc (certSubs rc)) := by
    refine mapM_eq_some_map fun rc hrc => ?_
    rw [revokedCertsGenerate, hw rc hrc]
    rfl
  rw [hbodies] at hcerts
  obtain rfl := Option.some.inj hcerts
  simp only at hblob
  split at hblob
  · next hlen =>
    obtain rfl := Option.some.inj hblob
    exact ⟨hw, hlen, rfl⟩
  · cases hblob

variable {certs : List Bytes}

theorem type_ne_signature (h : s ∈ krlSections krl certs) : s.1 ≠ KRL_SECTION_SIGNATURE := by
  have hstring : ∀ {type : UInt8} {strings : List Bytes}, type ≠ KRL_SECTION_SIGNATURE →
      s ∈ stringSection type strings → s.1 ≠ KRL_SECTION_SIGNATURE := by
    intro type strings htype hs
    rw [stringSection_eq] at hs
    split at hs
    · cases hs
    · obtain rfl := mem_singleton.1 hs
      exact htype
  rcases mem_append.1 h with h | h
  · obtain ⟨body, -, rfl⟩ := mem_map.1 h
    show KRL_SECTION_CERTIFICATES ≠ KRL_SECTION_SIGNATURE
    decide
  rcases mem_append.1 h with h | h
  · exact hstring (by decide) h
  rcases mem_append.1 h with h | h
  · exact hstring (by decide) h
  · exact hstring (by decide) h

theorem decodes_getSection (hfit : Fits s.2) (htype : s.1 ≠ KRL_SECTION_SIGNATURE) :
    Decodes getSection (putSection s) s := by
  refine (decodes_getSubsection hfit).last ?_
  rw [if_neg htype]
  exact Decodes.pure _

/-- the file is read as its header and the calls of its sections -/
theorem fromBlob_sections [DecidableEq K] {k : SshKrl K}
    (h : (putHeader k ++ (krlSections krl certs).flatMap putSection).length ≤ SSHBUF_SIZE_MAX) :
    fromBlob codec (putHeader k ++ (krlSections krl certs).flatMap putSection) =
      ((krlSections krl certs).mapM (parseSection codec)).bind fun calls => revokeAll k.header calls.flatten := by
  rw [length_append] at h
  have hsects : getMany getSection ((krlSections krl certs).flatMap putSection) = some (krlSections krl certs) := by
    refine getMany_encoded fun s hs => ⟨decodes_getSection ?_ (type_ne_signature hs), putSection_ne_nil s⟩
    have := length_section_le hs
    unfold Fits
    omega
  rw [fromBlob, decodes_getHeader (by omega)]
  show (getMany getSection _).bind _ = _
  rw [hsects]
  rfl

/-- no bitmap of the list is wider than what can be read -/
def SshKrl.Narrow (krl : SshKrl K) : Prop :=
  ∀ rc ∈ krl.certs, ∀ subs, serialSections rc.serials = some subs → ∀ s ∈ subs, s.Narrow

instance (krl : SshKrl K) : Decidable krl.Narrow :=
  decidable_of_iff (∀ rc ∈ krl.certs, ∀ s ∈ certSubs rc, s.Narrow) <| by
    refine forall_congr' fun rc => forall_congr' fun _ => ?_
    unfold certSubs
    cases serialSections rc.serials with
    | none | some => simp

theorem SshKrl.Narrow.certSubs (h : krl.Narrow) (hw : Written krl)
    (hrc : rc ∈ krl.certs) : ∀ s ∈ certSubs rc, s.Narrow := h rc hrc _ (hw rc hrc)

section Sections

variable (codec : KeyCodec K) {krl : SshKrl K}

/-- the sections of a list that was written -/
def fileSections (krl : SshKrl K) : List (UInt8 × Bytes) :=
  krlSections krl (krl.certs.map fun rc => certBody codec rc (certSubs rc))

theorem parse_cert (hw : Written krl) (hfit : ((fileSections codec krl).flatMap putSection).length ≤ SSHBUF_SIZE_MAX)
    (hrc : rc ∈ krl.certs) : parseSection codec (KRL_SECTION_CERTIFICATES, certBody codec rc (certSubs rc)) =
      if ∀ s ∈ certSubs rc, s.Narrow then some (certCalls rc (certSubs rc)) else none := by
  have hmem : (KRL_SECTION_CERTIFICATES, certBody codec rc (certSubs rc)) ∈ fileSections codec krl :=
    mem_append_left _ (mem_map.2 ⟨_, mem_map.2 ⟨rc, hrc, rfl⟩, rfl⟩)
  have hlen : (certBody codec rc (certSubs rc)).length + 4 ≤ _ := length_section_le hmem
  exact parseRevokedCerts_body codec (sectionsOk (hw rc hrc)) (by omega)

theorem parse_strings (type : UInt8) (strings : List Bytes) (call : Bytes → Revocation K)
    (hfit : ((fileSections codec krl).flatMap putSection).length ≤ SSHBUF_SIZE_MAX)
    (hsub : stringSection type strings ⊆ fileSections codec krl)
    (hparse : ∀ body, parseSection codec (type, body) = (getMany getStr body).map fun bs => bs.map call) :
    ∃ calls, (stringSection type strings).mapM (parseSection codec) = some calls ∧ calls.flatten = strings.map call := by
  refine mapM_stringSection fun hmem => ?_
  have hlen : (strings.flatMap putString).length + 4 ≤ _ := length_section_le (hsub hmem)
  rw [hparse, getMany_getStr (by omega)]
  rfl

/-- the sections of a narrow list are read as its calls -/
theorem mapM_fileSections (hw : Written krl) (hn : krl.Narrow)
    (hfit : ((fileSections codec krl).flatMap putSection).length ≤ SSHBUF_SIZE_MAX) :
    ∃ calls, (fileSections codec krl).mapM (parseSection codec) = some calls ∧ calls.flatten = fileCalls krl := by
  have hcerts : krl.certs.mapM ((parseSection codec ∘ fun body => (KRL_SECTION_CERTIFICATES, body)) ∘
      fun rc => certBody codec rc (certSubs rc)) = some (krl.certs.map fun rc => certCalls rc (certSubs rc)) :=
    mapM_eq_some_map fun rc hrc => (parse_cert codec hw hfit hrc).trans (if_pos (hn.certSubs hw hrc))
  obtain ⟨keys, hkeys, hkeys'⟩ := parse_strings codec KRL_SECTION_EXPLICIT_KEY krl.keys .explicit hfit
    (fun _ hs => mem_append_right _ (mem_append_left _ hs)) fun _ => rfl
  obtain ⟨sha1s, hsha1s, hsha1s'⟩ := parse_strings codec KRL_SECTION_FINGERPRINT_SHA1
    (krl.sha1s.map Subtype.val) .sha1 hfit
    (fun _ hs => mem_append_right _ (mem_append_right _ (mem_append_left _ hs))) fun _ => rfl
  obtain ⟨sha256s, hsha256s, hsha256s'⟩ := parse_strings codec KRL_SECTION_FINGERPRINT_SHA256
    (krl.sha256s.map Subtype.val) .sha256 hfit
    (fun _ hs => mem_append_right _ (mem_append_right _ (mem_append_right _ hs))) fun _ => rfl
  refine ⟨krl.certs.map (fun rc => certCalls rc (certSubs rc)) ++ (keys ++ (sha1s ++ sha256s)), ?_, ?_⟩
  · rw [fileSections, krlSections, mapM_append, mapM_append, mapM_append, mapM_map, mapM_map,
      hcerts, hkeys, hsha1s, hsha256s]
    rfl
  · rw [flatten_append, flatten_append, flatten_append, hkeys', hsha1s', hsha256s']
    rfl

/-- one wide bitmap is enough for the file to be refused -/
theorem mapM_fileSections_wide (hw : Written krl) (hn : ¬krl.Narrow)
    (hfit : ((fileSections codec krl).flatMap putSection).length ≤ SSHBUF_SIZE_MAX) :
    (fileSections codec krl).mapM (parseSection codec) = none := by
  unfold SshKrl.Narrow at hn
  push Not at hn
  obtain ⟨rc, hrc, subs, hsubs, s, hs, hwide⟩ := hn
  have hsame : certSubs rc = subs := by rw [certSubs, hsubs]; rfl
  refine mapM_eq_none (a := (KRL_SECTION_CERTIFICATES, certBody codec rc (certSubs rc))) ?_ ?_
  · exact mem_append_left _ (mem_map.2 ⟨_, mem_map.2 ⟨rc, hrc, rfl⟩, rfl⟩)
  · rw [parse_cert codec hw hfit hrc, if_neg]
    intro h
    exact hwide (h s (hsame ▸ hs))

/-- **A file.** A narrow list is read back; a list with a wide bitmap is refused. -/
theorem fromBlob_toBlob [DecidableEq K] {now : UInt64} {blob : Bytes} (h : toBlob codec now krl = some blob) :
    (krl.Narrow → ∃ krl', fromBlob codec blob = some krl' ∧ ∀ i, krl'.Revokes i ↔ krl.Revokes i) ∧
      (¬krl.Narrow → fromBlob codec blob = none) := by
  obtain ⟨hw, hlen, rfl⟩ := toBlob_eq h
  have hread : fromBlob codec _ = ((fileSections codec krl).mapM (parseSection codec)).bind
      fun calls => revokeAll (krl.dated now).header calls.flatten := fromBlob_sections codec hlen
  have hfit : ((fileSections codec krl).flatMap putSection).length ≤ SSHBUF_SIZE_MAX := by
    rw [length_append] at hlen
    exact le_trans (Nat.le_add_left _ _) hlen
  constructor
  · intro hn
    obtain ⟨calls, hcalls, hflat⟩ := mapM_fileSections codec hw hn hfit
    obtain ⟨krl', hall, hrev⟩ := revokeAll_revokes (fileCalls_valid hw) (krl.dated now).header
    refine ⟨krl', ?_, fun i => ?_⟩
    · rw [hread, hcalls, Option.bind_some, hflat]
      exact hall
    · rw [hrev, fileCalls_names hw]
      exact or_iff_right (by cases i <;> simp [SshKrl.header, SshKrl.init, SshKrl.Revokes])
  · intro hn
    rw [hread, mapM_fileSections_wide codec hw hn hfit]
    rfl

end Sections

/-! ## Lists reached by calls -/

/-- **Round trip.** A list that was built by any calls and could be written is read back, with the same serials and key ids
for every CA and the same keys and fingerprints, exactly if no bitmap of it is wider than what can be read. -/
theorem krl_round_trip_iff [DecidableEq K] (codec : KeyCodec K) (now : UInt64) (calls : List (Revocation K)) (blob : Bytes)
    (h : toBlob codec now (run step SshKrl.init calls) = some blob) :
    (∃ krl', fromBlob codec blob = some krl' ∧ ∀ i, krl'.Revokes i ↔ (run step SshKrl.init calls).Revokes i) ↔
      (run step (SshKrl.init : SshKrl K) calls).Narrow := by
  obtain ⟨hnarrow, hwide⟩ := fromBlob_toBlob codec h
  constructor
  · rintro ⟨krl', hread, -⟩
    by_contra hn
    rw [hwide hn] at hread
    cases hread
  · exact hnarrow

section
variable [DecidableEq K]

theorem step_revokes (krl : SshKrl K) (r : Revocation K) (i : Item K) :
    (step krl r).Revokes i ↔ krl.Revokes i ∨ r.Valid ∧ r.Names i := by
  by_cases hv : r.Valid
  · obtain ⟨krl', h⟩ := hv.revoke krl
    simp [step, h, revoke_revokes h, hv]
  · have h : revoke krl r = none := by cases r <;> first | exact dif_neg hv | exact absurd trivial hv
    simp [step, h, hv]

theorem run_revokes (krl : SshKrl K) (calls : List (Revocation K)) (i : Item K) :
    (run step krl calls).Revokes i ↔ krl.Revokes i ∨ ∃ r ∈ calls, r.Valid ∧ r.Names i := by
  induction calls generalizing krl with
  | nil => simp
  | cons r calls ih =>
    rw [run_cons, ih, step_revokes, or_assoc]
    simp

/-- **What a file revokes** that is written after any calls: what the calls that were accepted name, in any order. -/
theorem file_revokes (codec : KeyCodec K) {now : UInt64} {calls : List (Revocation K)} {blob : List UInt8}
    (h : toBlob codec now (run step SshKrl.init calls) = some blob) (hn : (run step SshKrl.init calls).Narrow) :
    ∃ krl, fromBlob codec blob = some krl ∧ ∀ i, krl.Revokes i ↔ ∃ r ∈ calls, r.Valid ∧ r.Names i := by
  obtain ⟨krl, hk, hrev⟩ := (fromBlob_toBlob codec h).1 hn
  have hinit (i : Item K) : ¬SshKrl.init.Revokes i := by cases i <;> simp [SshKrl.Revokes, SshKrl.init]
  exact ⟨krl, hk, fun i => by simp [hrev, run_revokes, hinit]⟩

end

/-- keys that are their own blobs, of one byte -/
def byteKeys : KeyCodec UInt8 where
  toBlob k := [k]
  fromBlob
    | [k] => some k
    | _ => none
  fromBlob_toBlob _ := rfl
  toBlob_ne_nil _ := List.cons_ne_nil _ _

/-- serials `1, 72, 143, …`, revoked from the highest down -/
def evenlySpaced (count : ℕ) : List (Revocation UInt8) :=
  (List.range count).reverse.map fun i => revokeSerial none (UInt64.ofNat (1 + 71 * i))

theorem spaced_file_revokes : ∃ blob krl, toBlob byteKeys 7 (run step SshKrl.init (evenlySpaced 5)) = some blob ∧
    fromBlob byteKeys blob = some krl ∧ ∀ i, krl.Revokes i ↔ ∃ r ∈ evenlySpaced 5, r.Valid ∧ r.Names i := by
  have hsome : (toBlob byteKeys 7 (run step SshKrl.init (evenlySpaced 5))).isSome = true := by decide +kernel
  obtain ⟨blob, hblob⟩ := Option.isSome_iff_exists.1 hsome
  obtain ⟨krl, hread, hsame⟩ := file_revokes byteKeys hblob (by decide +kernel)
  exact ⟨blob, krl, hblob, hread, hsame⟩

theorem krl_round_trip_mixed : ∃ blob krl',
    toBlob byteKeys 7 (run step SshKrl.init (evenlySpaced 5 ++ [.serialRange (some 3) 10 9000, .keyId none (cstr [97]),
      .explicit [1, 2], .sha1 (List.replicate 20 5), .sha256 [1]])) = some blob ∧
    fromBlob byteKeys blob = some krl' ∧ ∀ i, krl'.Revokes i ↔
      (run step SshKrl.init (evenlySpaced 5 ++ [.serialRange (some 3) 10 9000, .keyId none (cstr [97]),
        .explicit [1, 2], .sha1 (List.replicate 20 5), .sha256 [1]])).Revokes i := by
  have hsome : (toBlob byteKeys 7 (run step SshKrl.init (evenlySpaced 5 ++ [.serialRange (some 3) 10 9000,
      .keyId none (cstr [97]), .explicit [1, 2], .sha1 (replicate 20 5), .sha256 [1]]))).isSome = true := by
    decide +kernel
  obtain ⟨blob, hblob⟩ := Option.isSome_iff_exists.1 hsome
  obtain ⟨krl', hread, hsame⟩ := (krl_round_trip_iff byteKeys 7 _ blob hblob).2 (by decide +kernel)
  exact ⟨blob, krl', hblob, hread, hsame⟩

/-- **A list that is written and cannot be read.** Evenly spaced serials stay in one bitmap, which ends 16401 above its
first serial. -/
theorem evenly_spaced_unreadable : ∃ blob, toBlob byteKeys 7 (run step SshKrl.init (evenlySpaced 232)) = some blob ∧
    fromBlob byteKeys blob = none := by
  have hsome : (toBlob byteKeys 7 (run step SshKrl.init (evenlySpaced 232))).isSome = true := by decide +kernel
  obtain ⟨blob, hblob⟩ := Option.isSome_iff_exists.1 hsome
  exact ⟨blob, hblob, (fromBlob_toBlob byteKeys hblob).2 (by decide +kernel)⟩

end OpenSSHServerPN.Krl
