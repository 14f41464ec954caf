/-
Revoked serial numbers in memory and the subsections they are written as (`krl.c`, `bitmap.c`).

Model: the tree of revoked serials of one CA is the ordered list of its ranges, `RevokedSerialTree`; two ranges neither
overlap nor abut. `insertSerialRange` grows or inserts a range and then merges its predecessors and successors.
`serialSections` is the loop of `revoked_certs_generate`: a cost model (`chooseNextState`) decides range by range whether
the subsection that is open goes on, or a list, a range or a bitmap is started. A bitmap is the number with its bits.

Results:
- `mem_insert`: an insertion adds the serials of its range and nothing else;
- `serialSections_names`: the subsections name exactly the serials of the tree, whatever the cost model chose;
- `serialSections_wellFormed`: a range subsection holds one range, and a bitmap starts at a serial.
-/
import Mathlib.Data.List.TakeWhile
import Mathlib.Tactic

namespace OpenSSHServerPN.Krl

open List

/-! ## Ranges -/

/-- `struct revoked_serial`: the serials from `lo` to `hi`, without zero -/
structure RevokedSerial where
  lo : ℕ
  hi : ℕ
  lo_pos : 0 < lo
  lo_le : lo ≤ hi
  hi_lt : hi < 2 ^ 64
deriving DecidableEq

def RevokedSerial.Covers (r : RevokedSerial) (n : ℕ) : Prop := r.lo ≤ n ∧ n ≤ r.hi

/-- the order of the tree: not even the next serial is shared -/
def Apart (a b : RevokedSerial) : Prop := a.hi + 1 < b.lo

def Covered (rt : List RevokedSerial) (n : ℕ) : Prop := ∃ r ∈ rt, r.Covers n

theorem covered_nil (n : ℕ) : ¬Covered [] n := by simp [Covered]

variable {n : ℕ} {t : RevokedSerialTree} {rs : RevokedSerial}

variable {rt : List RevokedSerial}

theorem covered_cons {r : RevokedSerial} : Covered (r :: rt) n ↔ r.Covers n ∨ Covered rt n := by simp [Covered]

theorem covered_append {as bs : List RevokedSerial} : Covered (as ++ bs) n ↔ Covered as n ∨ Covered bs n := by
  simp only [Covered, mem_append, or_and_right, exists_or]

theorem covered_reverse : Covered rt.reverse n ↔ Covered rt n := by simp [Covered]

/-- an existing range grows over the inserted one -/
def RevokedSerial.grow (e rs : RevokedSerial) : RevokedSerial where
  lo := min e.lo rs.lo
  hi := max e.hi rs.hi
  lo_pos := lt_min e.lo_pos rs.lo_pos
  lo_le := (min_le_left _ _).trans (e.lo_le.trans (le_max_left _ _))
  hi_lt := max_lt e.hi_lt rs.hi_lt

/-- the range takes over a predecessor -/
def RevokedSerial.takePred (e crs : RevokedSerial) : RevokedSerial where
  lo := min crs.lo e.lo
  hi := e.hi
  lo_pos := lt_min crs.lo_pos e.lo_pos
  lo_le := (min_le_right _ _).trans e.lo_le
  hi_lt := e.hi_lt

/-- the range takes over a successor -/
def RevokedSerial.takeSucc (e crs : RevokedSerial) : RevokedSerial where
  lo := e.lo
  hi := max crs.hi e.hi
  lo_pos := e.lo_pos
  lo_le := e.lo_le.trans (le_max_right _ _)
  hi_lt := max_lt crs.hi_lt e.hi_lt

/-- the predecessors, nearest first, are merged up to the first that does not touch the range -/
def mergePreds : List RevokedSerial → RevokedSerial → List RevokedSerial × RevokedSerial
  | [], e => ([], e)
  | crs :: preds, e => if crs.hi + 1 < e.lo then (crs :: preds, e) else mergePreds preds (e.takePred crs)

/-- the successors are merged up to the first that does not touch the range -/
def mergeSuccs (e : RevokedSerial) : List RevokedSerial → RevokedSerial × List RevokedSerial
  | [] => (e, [])
  | crs :: succs => if e.hi + 1 < crs.lo then (e, crs :: succs) else mergeSuccs (e.takeSucc crs) succs

def coalesce (preds : List RevokedSerial) (e : RevokedSerial) (succs : List RevokedSerial) : List RevokedSerial :=
  let p := mergePreds preds.reverse e
  let s := mergeSuccs p.2 succs
  p.1.reverse ++ s.1 :: s.2

/-- `insert_serial_range`. `RB_NFIND` finds some range that overlaps, if there is one: here the lowest. The others that
overlap are merged afterwards. -/
def insertSerialRange (rt : List RevokedSerial) (rs : RevokedSerial) : List RevokedSerial :=
  let preds := rt.takeWhile fun r => r.hi < rs.lo
  match rt.dropWhile fun r => r.hi < rs.lo with
  | [] => coalesce preds rs []
  | ers :: succs =>
    if ers.lo ≤ rs.hi then coalesce preds (ers.grow rs) succs else coalesce preds rs (ers :: succs)

/-! ## Merging keeps the serials and the order -/

theorem mergePreds_sublist_lo (preds : List RevokedSerial) (e : RevokedSerial) :
    (mergePreds preds e).1.Sublist preds ∧ (mergePreds preds e).2.lo ≤ e.lo := by
  induction preds generalizing e with
  | nil => exact ⟨List.Sublist.refl _, le_rfl⟩
  | cons crs preds ih =>
    rw [mergePreds]
    split
    · exact ⟨List.Sublist.refl _, le_rfl⟩
    · exact ⟨(ih _).1.cons _, (ih _).2.trans (min_le_right _ _)⟩

variable {e : RevokedSerial}

theorem mergePreds_spec {preds : List RevokedSerial}
    (hord : preds.Pairwise fun a b => Apart b a) (hlow : ∀ p ∈ preds, p.hi < e.lo) :
    (∀ p ∈ (mergePreds preds e).1, Apart p (mergePreds preds e).2) ∧
      ∀ n, Covered (mergePreds preds e).1 n ∨ (mergePreds preds e).2.Covers n ↔ Covered preds n ∨ e.Covers n := by
  induction preds generalizing e with
  | nil => exact ⟨fun p hp => absurd hp not_mem_nil, fun n => Iff.rfl⟩
  | cons crs preds ih =>
    obtain ⟨hhead, htail⟩ := pairwise_cons.1 hord
    rw [mergePreds]
    split
    · next hgap =>
      refine ⟨fun p hp => ?_, fun n => Iff.rfl⟩
      rcases mem_cons.1 hp with rfl | hp
      · exact hgap
      · have h1 : Apart p crs := hhead p hp
        have h2 := crs.lo_le
        show p.hi + 1 < e.lo
        unfold Apart at h1
        omega
    · have hcrs : crs.hi < e.lo := hlow crs mem_cons_self
      have hlow' : ∀ p ∈ preds, p.hi < (e.takePred crs).lo := by
        intro p hp
        have h1 : Apart p crs := hhead p hp
        have h2 : p.hi < e.lo := hlow p (mem_cons_of_mem _ hp)
        unfold Apart at h1
        exact lt_min (by omega) h2
      obtain ⟨hap, hcov⟩ := ih htail hlow'
      refine ⟨hap, fun n => (hcov n).trans ?_⟩
      -- the predecessor ends right below the range
      have hjoin : (e.takePred crs).Covers n ↔ crs.Covers n ∨ e.Covers n := by
        have he := e.lo_le
        simp only [RevokedSerial.Covers, RevokedSerial.takePred]
        omega
      rw [covered_cons]
      tauto

theorem mergeSuccs_lo (e : RevokedSerial) (succs : List RevokedSerial) : (mergeSuccs e succs).1.lo = e.lo := by
  induction succs generalizing e with
  | nil => rfl
  | cons crs succs ih =>
    rw [mergeSuccs]
    split
    · rfl
    · exact ih _

theorem mergeSuccs_spec {succs : List RevokedSerial} (hord : succs.Pairwise Apart) (hhigh : ∀ s ∈ succs, e.lo ≤ s.lo) :
    ((mergeSuccs e succs).1 :: (mergeSuccs e succs).2).Pairwise Apart ∧
      ∀ n, Covered ((mergeSuccs e succs).1 :: (mergeSuccs e succs).2) n ↔ e.Covers n ∨ Covered succs n := by
  induction succs generalizing e with
  | nil => exact ⟨pairwise_singleton _ _, fun n => covered_cons⟩
  | cons crs succs ih =>
    obtain ⟨hhead, htail⟩ := pairwise_cons.1 hord
    rw [mergeSuccs]
    split
    · next hgap =>
      refine ⟨pairwise_cons.2 ⟨fun s hs => ?_, hord⟩, fun n => covered_cons⟩
      rcases mem_cons.1 hs with rfl | hs
      · exact hgap
      · have h1 : Apart crs s := hhead s hs
        have h2 := crs.lo_le
        show e.hi + 1 < s.lo
        unfold Apart at h1
        omega
    · have hle : e.lo ≤ crs.lo := hhigh crs mem_cons_self
      obtain ⟨hap, hcov⟩ := ih (e := e.takeSucc crs) htail (fun s hs => hhigh s (mem_cons_of_mem _ hs))
      refine ⟨hap, fun n => (hcov n).trans ?_⟩
      have hjoin : (e.takeSucc crs).Covers n ↔ e.Covers n ∨ crs.Covers n := by
        simp only [RevokedSerial.Covers, RevokedSerial.takeSucc]
        omega
      rw [covered_cons]
      tauto

theorem coalesce_spec {preds succs : List RevokedSerial} (hpreds : preds.Pairwise Apart)
    (hsuccs : succs.Pairwise Apart) (hlow : ∀ p ∈ preds, p.hi < e.lo) (hhigh : ∀ s ∈ succs, e.lo ≤ s.lo) :
    (coalesce preds e succs).Pairwise Apart ∧
      ∀ n, Covered (coalesce preds e succs) n ↔ Covered preds n ∨ e.Covers n ∨ Covered succs n := by
  have hrev : preds.reverse.Pairwise fun a b => Apart b a := pairwise_reverse.2 hpreds
  obtain ⟨hp, hpcov⟩ := mergePreds_spec hrev fun p hp => hlow p (mem_reverse.1 hp)
  obtain ⟨hsub, hlo⟩ := mergePreds_sublist_lo preds.reverse e
  obtain ⟨hs, hscov⟩ := mergeSuccs_spec hsuccs
    fun s hs => hlo.trans (hhigh s hs)
  have hslo := mergeSuccs_lo (mergePreds preds.reverse e).2 succs
  constructor
  · refine pairwise_append.2 ⟨?_, hs, fun p hpm s hsm => ?_⟩
    · exact pairwise_reverse.2 (hrev.sublist hsub)
    -- a predecessor that is left ends below the merged range, with which the successors begin
    have h1 : Apart p (mergePreds preds.reverse e).2 := hp p (mem_reverse.1 hpm)
    unfold Apart at h1 ⊢
    rcases mem_cons.1 hsm with rfl | hsm
    · omega
    · have h2 : Apart _ s := (pairwise_cons.1 hs).1 s hsm
      have h3 := (mergeSuccs (mergePreds preds.reverse e).2 succs).1.lo_le
      unfold Apart at h2
      omega
  · intro n
    have h1 := hpcov n
    have h2 := hscov n
    rw [covered_reverse] at h1
    rw [coalesce, covered_append, covered_reverse]
    tauto

theorem insertSerialRange_spec (hrt : rt.Pairwise Apart) (rs : RevokedSerial) :
    (insertSerialRange rt rs).Pairwise Apart ∧
      ∀ n, Covered (insertSerialRange rt rs) n ↔ Covered rt n ∨ rs.Covers n := by
  have hsplit := takeWhile_append_dropWhile (p := fun r : RevokedSerial => decide (r.hi < rs.lo)) (l := rt)
  have hbelow : ∀ p ∈ rt.takeWhile fun r => r.hi < rs.lo, p.hi < rs.lo := by
    intro p hp
    simpa using mem_takeWhile_imp hp
  have hfirst := head?_dropWhile_not (fun r : RevokedSerial => decide (r.hi < rs.lo)) rt
  rw [← hsplit] at hrt
  obtain ⟨hpreds, hrest, hcross⟩ := pairwise_append.1 hrt
  have hcov : ∀ n, Covered rt n ↔ Covered (rt.takeWhile fun r => r.hi < rs.lo) n ∨
      Covered (rt.dropWhile fun r => r.hi < rs.lo) n := by
    intro n
    rw [← covered_append, hsplit]
  unfold insertSerialRange
  generalize rt.takeWhile (fun r => r.hi < rs.lo) = preds at *
  generalize rt.dropWhile (fun r => r.hi < rs.lo) = rest at *
  cases rest with
  | nil =>
    obtain ⟨hap, hc⟩ := coalesce_spec hpreds List.Pairwise.nil hbelow fun s hs => absurd hs not_mem_nil
    refine ⟨hap, fun n => ?_⟩
    rw [hc, hcov]
    have := covered_nil n
    tauto
  | cons ers succs =>
    obtain ⟨hhead, hsuccs⟩ := pairwise_cons.1 hrest
    have hers : rs.lo ≤ ers.hi := by simpa using hfirst
    have hbounds := ers.lo_le
    simp only
    split
    · next hover =>
      have hlow : ∀ p ∈ preds, p.hi < (ers.grow rs).lo := by
        intro p hp
        have h1 : Apart p ers := hcross p hp ers mem_cons_self
        unfold Apart at h1
        exact lt_min (by omega) (hbelow p hp)
      have hhigh : ∀ s ∈ succs, (ers.grow rs).lo ≤ s.lo := by
        intro s hs
        have h1 : Apart ers s := hhead s hs
        unfold Apart at h1
        exact (min_le_left _ _).trans (by omega)
      obtain ⟨hap, hc⟩ := coalesce_spec hpreds hsuccs hlow hhigh
      refine ⟨hap, fun n => ?_⟩
      have hjoin : (ers.grow rs).Covers n ↔ ers.Covers n ∨ rs.Covers n := by
        have hrs := rs.lo_le
        simp only [RevokedSerial.Covers, RevokedSerial.grow]
        omega
      rw [hc, hcov, hjoin, covered_cons]
      tauto
    · next hclear =>
      have hhigh : ∀ s ∈ ers :: succs, rs.lo ≤ s.lo := by
        intro s hs
        have hrs := rs.lo_le
        rcases mem_cons.1 hs with rfl | hs
        · omega
        · have h1 : Apart ers s := hhead s hs
          unfold Apart at h1
          omega
      obtain ⟨hap, hc⟩ := coalesce_spec hpreds hrest hbelow hhigh
      refine ⟨hap, fun n => ?_⟩
      rw [hc, hcov]
      tauto

/-! ## The tree -/

/-- `struct revoked_serial_tree` -/
structure RevokedSerialTree where
  ranges : List RevokedSerial
  apart : ranges.Pairwise Apart

def RevokedSerialTree.empty : RevokedSerialTree := ⟨[], List.Pairwise.nil⟩

def RevokedSerialTree.insert (t : RevokedSerialTree) (rs : RevokedSerial) : RevokedSerialTree :=
  ⟨insertSerialRange t.ranges rs, (insertSerialRange_spec t.apart rs).1⟩

instance : Membership ℕ RevokedSerialTree := ⟨fun t n => Covered t.ranges n⟩

theorem not_mem_empty (n : ℕ) : n ∉ RevokedSerialTree.empty := covered_nil n

/-- **Insertion.** The tree gains the serials of the range. -/
theorem mem_insert : n ∈ t.insert rs ↔ n ∈ t ∨ rs.Covers n :=
  (insertSerialRange_spec t.apart rs).2 n

/-! ## Bitmaps -/

def BITMAP_MAX : ℕ := 2 ^ 24

/-- `bitmap_set_bit` -/
def bitmapSetBit (b n : ℕ) : Option ℕ := if BITMAP_MAX < n then none else some (b ||| 1 <<< n)

/-- the bits of a run of `contig` serials, from the offset `off` on -/
def bitmapSetRun (b off : ℕ) : ℕ → Option ℕ
  | 0 => some b
  | contig + 1 => (bitmapSetRun b off contig).bind fun b => bitmapSetBit b (off + contig)

/-- `bitmap_nbits` -/
def bitmapNbits (b : ℕ) : ℕ := if b = 0 then 0 else b.log2 + 1

theorem lt_two_pow_bitmapNbits (b : ℕ) : b < 2 ^ bitmapNbits b := by
  unfold bitmapNbits
  split
  · next h => simp [h]
  · exact Nat.lt_log2_self

theorem testBit_bitmapSetRun {b off contig b' : ℕ} (h : bitmapSetRun b off contig = some b') (i : ℕ) :
    b'.testBit i = true ↔ b.testBit i = true ∨ (off ≤ i ∧ i < off + contig) := by
  induction contig generalizing b' with
  | zero =>
    obtain rfl : b = b' := by simpa [bitmapSetRun] using h
    constructor
    · exact .inl
    · rintro (h | h)
      · exact h
      · omega
  | succ contig ih =>
    obtain ⟨c, hc, hset⟩ := Option.bind_eq_some_iff.1 h
    unfold bitmapSetBit at hset
    split at hset
    · cases hset
    · obtain rfl : c ||| 1 <<< (off + contig) = b' := by simpa using hset
      have hbit : (1 <<< (off + contig)).testBit i = decide (off + contig = i) := by
        rw [Nat.one_shiftLeft, Nat.testBit_two_pow]
      rw [Nat.testBit_or, Bool.or_eq_true, ih hc, hbit, decide_eq_true_eq, or_assoc]
      exact or_congr Iff.rfl (by omega)

/-! ## Subsections -/

/-- the types of the subsections with serials -/
inductive SectionKind where
  | list
  | range
  | bitmap
deriving DecidableEq, Repr

/-- a subsection and what has been written into it -/
inductive Subsection where
  | list (serials : List ℕ)
  | range (ranges : List RevokedSerial)
  | bitmap (start bits : ℕ)

def Subsection.kind : Subsection → SectionKind
  | .list _ => .list
  | .range _ => .range
  | .bitmap _ _ => .bitmap

/-- the serials a subsection names -/
def Subsection.Names : Subsection → ℕ → Prop
  | .list serials, n => n ∈ serials
  | .range ranges, n => Covered ranges n
  | .bitmap start bits, n => start ≤ n ∧ bits.testBit (n - start) = true

/-- `choose_next_state`: the cheapest subsection for the next run of serials, and whether a bitmap has to be started anew -/
def chooseNextState (current : Option SectionKind) (contig : ℕ) (final : Bool) (lastGap nextGap : ℕ) : SectionKind × Bool :=
  let contig := min contig (2 ^ 31)
  let lastGap := min lastGap (2 ^ 31)
  let nextGap := min nextGap (2 ^ 31)
  let switchList := if current = some .list then 0 else 8
  let switchBitmap := if current = some .bitmap then 0 else 8 + 64
  let costList := (switchList + 64 * contig + (if final then 0 else 8 + 64) + 7) / 8
  let costRange := (8 + 2 * 64 + (if final then 0 else 8 + 64) + 7) / 8
  let costBitmap := (switchBitmap + lastGap + contig + (if final then 0 else min nextGap (8 + 64)) + 7) / 8
  let costBitmapRestart := (8 + 64 + contig + (if final then 0 else min nextGap (8 + 64)) + 7) / 8
  let best := (SectionKind.bitmap, false, costBitmap)
  let best := if costRange < best.2.2 then (.range, false, costRange) else best
  let best := if costList < best.2.2 then (.list, false, costList) else best
  let best := if costBitmapRestart < best.2.2 then (.bitmap, true, costBitmapRestart) else best
  (best.1, best.2.1)

/-- an empty subsection for serials from `lo` on -/
def Subsection.start (lo : ℕ) : SectionKind → Subsection
  | .list => .list []
  | .range => .range []
  | .bitmap => .bitmap lo 0

def INT_MAX : ℕ := 2 ^ 31 - 1

/-- a run of serials is written into a subsection -/
def Subsection.put (rs : RevokedSerial) : Subsection → Option Subsection
  | .list serials => some (.list (serials ++ (List.range (1 + (rs.hi - rs.lo))).map (rs.lo + ·)))
  | .range ranges => some (.range (ranges ++ [rs]))
  | .bitmap start bits =>
    if INT_MAX < rs.lo - start then none
    else (bitmapSetRun bits (rs.lo - start) (1 + (rs.hi - rs.lo))).map (.bitmap start)

/-- the state of the loop of `revoked_certs_generate` -/
structure Writer where
  finished : List Subsection
  sect : Option Subsection
  last : ℕ

/-- all subsections, with the one that is open -/
def Writer.sections (w : Writer) : List Subsection := w.finished ++ w.sect.toList

/-- the kind of subsection for the next range, and whether a bitmap is started anew -/
def Writer.choice (w : Writer) (rs : RevokedSerial) (next : Option RevokedSerial) : SectionKind × Bool :=
  let gap := match next with
    | none => 0
    | some nrs => nrs.lo - rs.hi
  chooseNextState (w.sect.map Subsection.kind) (1 + (rs.hi - rs.lo)) next.isNone
    (if w.sect.isNone then 0 else rs.lo - w.last) gap

/-- the open subsection is finished before the next range is written -/
def Writer.Finishes (w : Writer) (choice : SectionKind × Bool) : Prop :=
  choice.2 = true ∨ w.sect.map Subsection.kind ≠ some choice.1 ∨ w.sect.map Subsection.kind = some .range

instance (w : Writer) (choice : SectionKind × Bool) : Decidable (w.Finishes choice) := by
  unfold Writer.Finishes
  infer_instance

/-- one round of the loop. A range subsection is always finished: it is empty again when the next range is written. -/
def Writer.step (w : Writer) (rs : RevokedSerial) (next : Option RevokedSerial) : Option Writer :=
  let choice := w.choice rs next
  if w.Finishes choice then ((Subsection.start rs.lo choice.1).put rs).map fun sect => ⟨w.sections, some sect, rs.hi⟩
  else ((w.sect.getD (.start rs.lo choice.1)).put rs).map fun sect => ⟨w.finished, some sect, rs.hi⟩

/-- the loop over the tree -/
def Writer.loop : Writer → List RevokedSerial → Option Writer
  | w, [] => some w
  | w, rs :: rest => (w.step rs rest.head?).bind fun w => w.loop rest

/-- the subsections of a tree, the last one flushed -/
def serialSections (t : RevokedSerialTree) : Option (List Subsection) :=
  (Writer.loop ⟨[], none, 0⟩ t.ranges).map Writer.sections

/-! ## The subsections name the serials of the tree -/

/-- one range a subsection, and bitmaps that start at a serial -/
def Subsection.WellFormed : Subsection → Prop
  | .list _ => True
  | .range ranges => ∃ r, ranges = [r]
  | .bitmap start _ => 0 < start ∧ start < 2 ^ 64

/-- what `w` may be put into -/
structure Subsection.Open (s : Subsection) (rs : RevokedSerial) : Prop where
  empty_range : ∀ ranges, s = .range ranges → ranges = []
  start_pos : ∀ start bits, s = .bitmap start bits → 0 < start
  start_le : ∀ start bits, s = .bitmap start bits → start ≤ rs.lo

theorem Subsection.open_start (rs : RevokedSerial) (k : SectionKind) : (Subsection.start rs.lo k).Open rs := by
  have hpos := rs.lo_pos
  cases k with
  | list => exact ⟨nofun, nofun, nofun⟩
  | range => exact ⟨fun _ h => by cases h; rfl, nofun, nofun⟩
  | bitmap => exact ⟨nofun, fun _ _ h => by cases h; exact hpos, fun _ _ h => by cases h; exact le_rfl⟩

theorem Subsection.not_names_start (lo n : ℕ) (k : SectionKind) : ¬(Subsection.start lo k).Names n := by
  cases k with
  | list => exact not_mem_nil
  | range => exact covered_nil n
  | bitmap => simp [Subsection.start, Subsection.Names]

variable {s : Subsection} {s' : Subsection}

/-- a run adds its serials to the subsection -/
theorem Subsection.put_spec (ho : s.Open rs) (h : s.put rs = some s') :
    s'.WellFormed ∧ (∀ start bits, s' = .bitmap start bits → start ≤ rs.hi) ∧
      ∀ n, s'.Names n ↔ s.Names n ∨ rs.Covers n := by
  have hle := rs.lo_le
  have hlt := rs.hi_lt
  cases s with
  | list serials =>
    obtain rfl := Option.some.inj h
    refine ⟨trivial, nofun, fun n => ?_⟩
    simp only [Subsection.Names, mem_append, mem_map, mem_range, RevokedSerial.Covers]
    constructor
    · rintro (h | ⟨i, hi, rfl⟩)
      · exact .inl h
      · exact .inr (by omega)
    · rintro (h | h)
      · exact .inl h
      · exact .inr ⟨n - rs.lo, by omega, by omega⟩
  | range ranges =>
    obtain rfl := Option.some.inj h
    obtain rfl := ho.empty_range ranges rfl
    refine ⟨⟨rs, rfl⟩, nofun, fun n => ?_⟩
    simp [Subsection.Names, covered_cons, covered_nil]
  | bitmap start bits =>
    rw [Subsection.put] at h
    split at h
    · cases h
    obtain ⟨b, hb, rfl⟩ := Option.map_eq_some_iff.1 h
    have hpos := ho.start_pos start bits rfl
    have hstart := ho.start_le start bits rfl
    refine ⟨⟨hpos, by omega⟩, ?_, fun n => ?_⟩
    · rintro _ _ ⟨rfl, rfl⟩
      omega
    simp only [Subsection.Names, testBit_bitmapSetRun hb, RevokedSerial.Covers]
    constructor
    · rintro ⟨hn, h | h⟩
      · exact .inl ⟨hn, h⟩
      · exact .inr (by omega)
    · rintro (⟨hn, h⟩ | h)
      · exact ⟨hn, .inl h⟩
      · exact ⟨by omega, .inr (by omega)⟩

/-- the loop between two ranges: the subsections name the serials of the ranges that are done -/
structure Writer.Inv (w : Writer) (done : List RevokedSerial) : Prop where
  wellFormed : ∀ s ∈ w.sections, s.WellFormed
  start_le : ∀ start bits, w.sect = some (.bitmap start bits) → start ≤ w.last
  last_lt : ∀ rs, (∀ d ∈ done, Apart d rs) → w.sect ≠ none → w.last < rs.lo
  names : ∀ n, (∃ s ∈ w.sections, s.Names n) ↔ Covered done n

variable {fin : List Subsection}

theorem Writer.sections_put {l : ℕ} : (⟨fin, some s, l⟩ : Writer).sections = fin ++ [s] := rfl

variable {done : List RevokedSerial}

/-- a range is written into the subsection `s` behind the subsections `fin` -/
theorem Writer.put_inv (hwf : ∀ t ∈ fin, t.WellFormed) (ho : s.Open rs)
    (hnames : ∀ n, ((∃ t ∈ fin, t.Names n) ∨ s.Names n) ↔ Covered done n) (h : s.put rs = some s') :
    (⟨fin, some s', rs.hi⟩ : Writer).Inv (done ++ [rs]) := by
  obtain ⟨hwf', hstart, hput⟩ := Subsection.put_spec ho h
  refine ⟨?_, ?_, ?_, fun n => ?_⟩
  · intro t ht
    rcases mem_append.1 ht with ht | ht
    · exact hwf t ht
    · obtain rfl : t = s' := by simpa using ht
      exact hwf'
  · intro start bits heq
    exact hstart start bits (Option.some.inj heq)
  · intro r hr _
    have h1 : Apart rs r := hr rs (by simp)
    exact lt_trans (Nat.lt_succ_self _) h1
  · simp only [Writer.sections_put, mem_append, mem_singleton, or_and_right, exists_or, exists_eq_left]
    rw [hput, ← or_assoc, hnames, covered_append, covered_cons]
    have := covered_nil n
    tauto

theorem Writer.step_inv {w w' : Writer} {next : Option RevokedSerial}
    (hw : w.Inv done) (hrs : ∀ d ∈ done, Apart d rs) (h : w.step rs next = some w') : w'.Inv (done ++ [rs]) := by
  rw [Writer.step] at h
  generalize w.choice rs next = choice at h
  split at h
  · -- a new subsection
    obtain ⟨s', hput, rfl⟩ := Option.map_eq_some_iff.1 h
    refine Writer.put_inv hw.wellFormed (Subsection.open_start rs choice.1) (fun n => ?_) hput
    rw [← hw.names n]
    exact or_iff_left (Subsection.not_names_start rs.lo n choice.1)
  · -- the list or the bitmap that is open
    next hopen =>
    obtain ⟨s', hput, rfl⟩ := Option.map_eq_some_iff.1 h
    unfold Writer.Finishes at hopen
    push Not at hopen
    obtain ⟨-, hsame, hnot⟩ := hopen
    obtain ⟨s, hs⟩ : ∃ s, w.sect = some s := by
      cases hws : w.sect with
      | none => rw [hws] at hsame; cases hsame
      | some s => exact ⟨s, rfl⟩
    have hwf : s.WellFormed := hw.wellFormed s (by simp [Writer.sections, hs])
    have hlast : w.last < rs.lo := hw.last_lt rs hrs (by simp [hs])
    rw [hs] at hput hnot
    have ho : s.Open rs := by
      refine ⟨?_, ?_, ?_⟩
      · rintro ranges rfl
        exact absurd rfl hnot
      · rintro start bits rfl
        exact hwf.1
      · rintro start bits rfl
        have := hw.start_le start bits hs
        omega
    refine Writer.put_inv (fun t ht => hw.wellFormed t (mem_append_left _ ht)) ho (fun n => ?_) hput
    rw [← hw.names n, Writer.sections, hs]
    simp [or_and_right, exists_or]

theorem Writer.loop_inv {w w' : Writer} {rest : List RevokedSerial} (hw : w.Inv done)
    (hord : (done ++ rest).Pairwise Apart) (h : w.loop rest = some w') : w'.Inv (done ++ rest) := by
  induction rest generalizing w done with
  | nil =>
    obtain rfl : w = w' := by simpa [Writer.loop] using h
    rwa [append_nil]
  | cons rs rest ih =>
    obtain ⟨w₁, hstep, hloop⟩ := Option.bind_eq_some_iff.1 h
    have hrs : ∀ d ∈ done, Apart d rs := fun d hd => (pairwise_append.1 hord).2.2 d hd rs mem_cons_self
    have hinv := Writer.step_inv hw hrs hstep
    have heq : done ++ rs :: rest = done ++ [rs] ++ rest := by simp
    rw [heq] at hord ⊢
    exact ih hinv hord hloop

variable {subs : List Subsection}

section
variable (h : serialSections t = some subs)
include h

theorem serialSections_inv : ∃ w : Writer, w.sections = subs ∧ w.Inv t.ranges := by
  obtain ⟨w, hw, rfl⟩ := Option.map_eq_some_iff.1 h
  have hstart : (⟨[], none, 0⟩ : Writer).Inv [] := by
    refine ⟨nofun, nofun, fun _ _ => absurd rfl, fun n => ?_⟩
    simp [Writer.sections, covered_nil]
  exact ⟨w, rfl, Writer.loop_inv hstart t.apart hw⟩

/-- **The subsections name the serials of the tree.** -/
theorem serialSections_names (n : ℕ) : (∃ s ∈ subs, s.Names n) ↔ n ∈ t := by
  obtain ⟨w, rfl, hinv⟩ := serialSections_inv h
  exact hinv.names n

theorem serialSections_wellFormed : ∀ s ∈ subs, s.WellFormed := by
  obtain ⟨w, rfl, hinv⟩ := serialSections_inv h
  exact hinv.wellFormed

end

end OpenSSHServerPN.Krl
