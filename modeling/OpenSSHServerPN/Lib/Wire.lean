/-
Byte formats: readers that take bytes off the front of a buffer, and the bytes they undo.

A reader is `Get α`: from a buffer to a value and the rest, or to a failure. `Decodes g bs a` says that `g` reads `a` off any
buffer that starts with `bs` and leaves what follows. The rules `Decodes.pure`, `Decodes.bind` and `Decodes.check` follow
the `do` blocks of a reader, so that a round trip is proved field by field.

- `be`, `ofBe`: numbers of a fixed width, most significant byte first (`ofBe_be`);
- `getBytes`, `getU8`, `getU32`, `getU64`: fixed sizes;
- `putString`, `getString`: a length of four bytes and the bytes, with a limit;
- `whole`: a reader that has to use up its buffer;
- `getMany`: a reader that is repeated until the buffer is empty;
- `mapM_eq_some_map`, `mapM_eq_none`: parts that are read one by one.
-/
import Mathlib.Tactic

namespace Wire

open List

/-! ## Numbers -/

/-- the `w` low bytes of `n`, most significant first -/
def be : ℕ → ℕ → List UInt8
  | 0, _ => []
  | w + 1, n => UInt8.ofNat (n / 256 ^ w) :: be w n

/-- the number of a string of bytes -/
def ofBe (bs : List UInt8) : ℕ := bs.foldl (fun n b => n * 256 + b.toNat) 0

@[simp] theorem length_be (w n : ℕ) : (be w n).length = w := by
  induction w with
  | zero => rfl
  | succ w ih => simp [be, ih]

theorem foldl_be (w n a : ℕ) : (be w n).foldl (fun n b => n * 256 + b.toNat) a = a * 256 ^ w + n % 256 ^ w := by
  induction w generalizing a with
  | zero => simp [be, Nat.mod_one]
  | succ w ih =>
    have hbyte : (UInt8.ofNat (n / 256 ^ w)).toNat = n / 256 ^ w % 256 := UInt8.toNat_ofNat'
    rw [be, foldl_cons, ih, hbyte, pow_succ, Nat.mod_mul]
    ring

variable {n : ℕ}

theorem ofBe_be {w : ℕ} (h : n < 256 ^ w) : ofBe (be w n) = n := by
  rw [ofBe, foldl_be, Nat.mod_eq_of_lt h, Nat.zero_mul, Nat.zero_add]

theorem foldl_ofBe (bs : List UInt8) (a : ℕ) :
    bs.foldl (fun n b => n * 256 + b.toNat) a = a * 256 ^ bs.length + ofBe bs := by
  induction bs generalizing a with
  | nil => simp [ofBe]
  | cons b bs ih =>
    rw [ofBe, foldl_cons, foldl_cons, ih, ih (0 * 256 + b.toNat), length_cons]
    ring

theorem ofBe_cons (b : UInt8) (bs : List UInt8) : ofBe (b :: bs) = b.toNat * 256 ^ bs.length + ofBe bs := by
  rw [ofBe, foldl_cons, foldl_ofBe]
  simp

theorem ofBe_lt (bs : List UInt8) : ofBe bs < 256 ^ bs.length := by
  induction bs with
  | nil => simp [ofBe]
  | cons b bs ih =>
    have hb : b.toNat + 1 ≤ 256 := b.toNat_lt
    calc ofBe (b :: bs) = b.toNat * 256 ^ bs.length + ofBe bs := ofBe_cons b bs
      _ < (b.toNat + 1) * 256 ^ bs.length := by rw [Nat.add_mul, Nat.one_mul]; omega
      _ ≤ 256 * 256 ^ bs.length := Nat.mul_le_mul_right _ hb
      _ = 256 ^ (b :: bs).length := by rw [length_cons, pow_succ, Nat.mul_comm]

/-! ## Readers -/

/-- a reader: the value and the rest of the buffer -/
abbrev Get (α : Type) := StateT (List UInt8) Option α

/-- `g` reads `a` off every buffer that starts with `bs` -/
def Decodes {α : Type} (g : Get α) (bs : List UInt8) (a : α) : Prop := ∀ rest, g (bs ++ rest) = some (a, rest)

variable {α β : Type}

theorem Decodes.pure (a : α) : Decodes (pure a) [] a := fun _ => rfl

variable {bs : List UInt8}

variable {g : Get α} {a : α}

theorem Decodes.then (hg : Decodes g bs a) (f : α → Get β) (rest : List UInt8) : (g >>= f) (bs ++ rest) = f a rest := by
  show (g (bs ++ rest)).bind _ = _
  rw [hg]
  rfl

variable {buf : List UInt8}

theorem bind_eq_none (hg : g buf = none) (f : α → Get β) : (g >>= f) buf = none := by
  show (g buf).bind _ = _
  rw [hg]
  rfl

variable {b : β} {f : α → Get β} {rest : List UInt8}

theorem of_bind_eq_some (h : (g >>= f) buf = some (b, rest)) :
    ∃ a mid, g buf = some (a, mid) ∧ f a mid = some (b, rest) := by
  obtain ⟨⟨a, mid⟩, hg, hf⟩ := Option.bind_eq_some_iff.1 h
  exact ⟨a, mid, hg, hf⟩

theorem of_guard_eq_some {p : Prop} [Decidable p] {f : PUnit → Get β}
    (h : (guard p >>= f) buf = some (b, rest)) : p ∧ f PUnit.unit buf = some (b, rest) := by
  by_cases hp : p
  · rw [guard, if_pos hp] at h
    exact ⟨hp, h⟩
  · rw [guard, if_neg hp] at h
    cases h

theorem Decodes.bind {cs : List UInt8} (hg : Decodes g bs a)
    (hf : Decodes (f a) cs b) : Decodes (g >>= f) (bs ++ cs) b := by
  intro rest
  rw [append_assoc, hg.then]
  exact hf rest

theorem Decodes.last (hg : Decodes g bs a) (hf : Decodes (f a) [] b) : Decodes (g >>= f) bs b := by
  have := hg.bind hf
  rwa [append_nil] at this

theorem Decodes.map (h : Decodes g bs a) (f : α → β) : Decodes (f <$> g) bs (f a) := by
  intro rest
  show (g (bs ++ rest)).bind _ = _
  rw [h]
  rfl

theorem Decodes.check {p : Prop} [Decidable p] (h : p) : Decodes (guard p : Get PUnit) [] PUnit.unit := by
  intro rest
  rw [guard, if_pos h]
  rfl

/-- the next `n` bytes -/
def getBytes (n : ℕ) : Get (List UInt8) := fun buf => if n ≤ buf.length then some (buf.take n, buf.drop n) else none

theorem decodes_getBytes (h : bs.length = n) : Decodes (getBytes n) bs bs := by
  intro rest
  rw [getBytes, if_pos (by simp [h]), take_left' h, drop_left' h]

def getNat (w : ℕ) : Get ℕ := ofBe <$> getBytes w

theorem decodes_getNat {w : ℕ} (h : n < 256 ^ w) : Decodes (getNat w) (be w n) n := by
  have := (decodes_getBytes (length_be w n)).map ofBe
  rwa [ofBe_be h] at this

def getU8 : Get UInt8 := UInt8.ofNat <$> getNat 1
def getU32 : Get UInt32 := UInt32.ofNat <$> getNat 4
def getU64 : Get UInt64 := UInt64.ofNat <$> getNat 8
def putU8 (x : UInt8) : List UInt8 := be 1 x.toNat
def putU32 (x : UInt32) : List UInt8 := be 4 x.toNat
def putU64 (x : UInt64) : List UInt8 := be 8 x.toNat

@[simp] theorem length_putU8 (x : UInt8) : (putU8 x).length = 1 := length_be 1 _
@[simp] theorem length_putU32 (x : UInt32) : (putU32 x).length = 4 := length_be 4 _
@[simp] theorem length_putU64 (x : UInt64) : (putU64 x).length = 8 := length_be 8 _

theorem decodes_getU8 (x : UInt8) : Decodes getU8 (putU8 x) x := by
  have := (decodes_getNat (w := 1) (by simpa using x.toNat_lt)).map UInt8.ofNat
  rwa [UInt8.ofNat_toNat] at this

theorem decodes_getU32 (x : UInt32) : Decodes getU32 (putU32 x) x := by
  have := (decodes_getNat (w := 4) (by simpa using x.toNat_lt)).map UInt32.ofNat
  rwa [UInt32.ofNat_toNat] at this

theorem decodes_getU64 (x : UInt64) : Decodes getU64 (putU64 x) x := by
  have := (decodes_getNat (w := 8) (by simpa using x.toNat_lt)).map UInt64.ofNat
  rwa [UInt64.ofNat_toNat] at this

/-! ## Strings -/

/-- a string: its length in four bytes, and its bytes -/
def putString (bs : List UInt8) : List UInt8 := be 4 bs.length ++ bs

/-- a string of at most `limit` bytes -/
def getString (limit : ℕ) : Get (List UInt8) := do
  let n ← getNat 4
  guard (n ≤ limit)
  getBytes n

theorem decodes_getString {limit : ℕ} (hlimit : limit < 2 ^ 32) (h : bs.length ≤ limit) :
    Decodes (getString limit) (putString bs) bs := by
  have hn : Decodes (getNat 4) (be 4 bs.length) bs.length := decodes_getNat (by norm_num; omega)
  exact hn.bind ((Decodes.check h).bind (decodes_getBytes rfl))

@[simp] theorem length_putString (bs : List UInt8) : (putString bs).length = 4 + bs.length := by simp [putString]

/-! ## Whole buffers -/

/-- the value of a reader that uses up its buffer -/
def whole (g : Get α) (buf : List UInt8) : Option α :=
  match g buf with
  | some (a, []) => some a
  | _ => none

theorem Decodes.whole (h : Decodes g bs a) : whole g bs = some a := by
  have := h []
  rw [append_nil] at this
  rw [Wire.whole, this]

/-- the reader `g` until the buffer is empty; `fuel` bounds the number of repetitions -/
def getUpTo (g : Get α) : ℕ → List UInt8 → Option (List α)
  | _, [] => some []
  | 0, _ :: _ => none
  | fuel + 1, b :: bs =>
    match g (b :: bs) with
    | none => none
    | some (a, rest) => (getUpTo g fuel rest).map (a :: ·)

/-- `g` until the buffer is empty; a reader that takes a byte or more at a time stays within the length of the buffer -/
def getMany (g : Get α) (buf : List UInt8) : Option (List α) := getUpTo g buf.length buf

variable {as : List α} {enc : α → List UInt8}

theorem getUpTo_encoded (h : ∀ a ∈ as, Decodes g (enc a) a ∧ enc a ≠ [])
    {fuel : ℕ} (hfuel : (as.flatMap enc).length ≤ fuel) : getUpTo g fuel (as.flatMap enc) = some as := by
  induction as generalizing fuel with
  | nil => cases fuel <;> rfl
  | cons a as ih =>
    obtain ⟨hdec, hne⟩ := h a (by simp)
    obtain ⟨b, bs, hb⟩ := exists_cons_of_ne_nil hne
    rw [flatMap_cons, length_append] at hfuel
    have hpos : 0 < (enc a).length := by simp [hb]
    obtain ⟨n, rfl⟩ : ∃ n, fuel = n + 1 := ⟨fuel - 1, by omega⟩
    have hread : g (b :: (bs ++ as.flatMap enc)) = some (a, as.flatMap enc) := by
      have := hdec (as.flatMap enc)
      rwa [hb] at this
    rw [flatMap_cons, hb, cons_append, getUpTo, hread]
    have hrest : getUpTo g n (as.flatMap enc) = some as := ih (fun x hx => h x (mem_cons_of_mem _ hx)) (by omega)
    simp [hrest]

theorem getMany_encoded (h : ∀ a ∈ as, Decodes g (enc a) a ∧ enc a ≠ []) :
    getMany g (as.flatMap enc) = some as := getUpTo_encoded h le_rfl

/-! ## Parts that are read one by one -/

variable {f : α → Option β}

theorem mapM_eq_some_map {g : α → β} (h : ∀ a ∈ as, f a = some (g a)) : as.mapM f = some (as.map g) := by
  induction as with
  | nil => rfl
  | cons a as ih =>
    rw [mapM_cons, h a mem_cons_self, ih fun b hb => h b (mem_cons_of_mem _ hb)]
    rfl

theorem mapM_eq_none (ha : a ∈ as) (h : f a = none) : as.mapM f = none := by
  induction as with
  | nil => cases ha
  | cons b as ih =>
    rw [mapM_cons]
    rcases mem_cons.1 ha with rfl | ha
    · rw [h]
      rfl
    · rw [ih ha]
      cases f b <;> rfl

theorem of_mapM_eq_some {bs : List β} (h : as.mapM f = some bs) (ha : a ∈ as) : ∃ b, f a = some b := by
  cases hf : f a with
  | none => rw [mapM_eq_none ha hf] at h; cases h
  | some b => exact ⟨b, rfl⟩

end Wire
