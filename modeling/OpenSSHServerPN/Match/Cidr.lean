/-
Address lists (`addrmatch.c`: `addr_match_cidr_list`; `addr.c`: `addr_pton_cidr`, `addr_netmatch`).

Model: `addrMatchCidrList` goes through the entries of a list for an address, or without one. The platform (`Env`) is
arbitrary; there are no scopes in this build. Addresses are the bits in network order.

An entry that is read as a network with characters of no network (`Odd`) only sets `ret`, which a match overwrites.

Results:
- `cidr_list_verdict`: the verdict is the one of the entries if and only if the loop ends at an entry, or no entry is odd, or
  an odd entry is followed by no match (`Unmasked`);
- `cidr_list_masked`: an odd entry that is masked by its own network, and by a later one.
-/
import OpenSSHServerPN.Lib.Scan
import OpenSSHServerPN.Match.Pattern

namespace OpenSSHServerPN.Cidr

open List

inductive Family where
  | inet
  | inet6
  deriving DecidableEq

/-- `addr_unicast_masklen` -/
def Family.width : Family → ℕ
  | .inet => 32
  | .inet6 => 128

/-- `struct xaddr` -/
structure XAddr where
  af : Family
  bits : BitVec af.width

/-! ## Networks -/

/-- `addr_netmask` -/
def netmask (w l : ℕ) : BitVec w := BitVec.allOnes w <<< (w - l)

/-- `addr_netmatch` -/
def netmatch (host net : XAddr) (l : ℕ) : Bool :=
  if h : host.af = net.af then h ▸ (host.bits &&& netmask _ l) == net.bits else false

/-- the host is in the network: the first `l` bits are the same -/
def Inside (host net : XAddr) (l : ℕ) : Prop := host.af = net.af ∧ ∀ i < l, host.bits.getMsbD i = net.bits.getMsbD i

theorem getMsbD_netmask {w l i : ℕ} (hl : l ≤ w) : (netmask w l).getMsbD i = decide (i < l) := by
  simp only [netmask, BitVec.getMsbD_shiftLeft, BitVec.getMsbD_allOnes]
  exact decide_eq_decide.2 (by omega)

theorem netmatch_iff {host net : XAddr} {l : ℕ} (hl : l ≤ net.af.width) (hzero : net.bits &&& ~~~netmask _ l = 0) :
    netmatch host net l = true ↔ Inside host net l := by
  obtain ⟨af, host⟩ := host
  obtain ⟨af', net⟩ := net
  by_cases h : af = af'
  · subst h
    have hnet : ∀ i < af.width, l ≤ i → net.getMsbD i = false := by
      intro i hi hil
      have hbit := congrArg (fun x => BitVec.getMsbD x i) hzero
      simpa [getMsbD_netmask hl, hi, Nat.not_lt.2 hil] using hbit
    simp only [netmatch, Inside, dif_pos, beq_iff_eq, true_and]
    constructor
    · rintro rfl i hi
      simp [getMsbD_netmask hl, hi]
    intro hsame
    refine BitVec.eq_of_getMsbD_eq fun i hi => ?_
    rw [BitVec.getMsbD_and, getMsbD_netmask hl]
    by_cases hil : i < l
    · simp [hil, hsame i hil]
    · simp [hil, hnet i hi (Nat.le_of_not_lt hil)]
  · simp [netmatch, Inside, h]

/-! ## Entries -/

/-- `strtonum(s, 0, INT_MAX, &errstr)` -/
def strtonum (s : Text) : Option ℕ :=
  let s := s.dropWhile [' ', '\t', '\n', '\x0b', '\x0c', '\r'].contains
  let digits := if s.head? = some '+' ∨ s.head? = some '-' then s.tail else s
  let n := Scan.value digits
  if digits = [] ∨ ¬digits.all Char.isDigit ∨ 2147483647 < n ∨ s.head? = some '-' ∧ n ≠ 0 then none else some n

inductive CidrError where
  /-- -1 -/
  | unparseable
  /-- -2 -/
  | inconsistent
  deriving DecidableEq

/-- what follows a slash; without one it is up to the family -/
def masklen (p : Text) : Option (Option ℕ) :=
  match p.dropWhile (· ≠ '/') with
  | [] => some none
  | _ :: mp => (strtonum mp).map some

/-- the checks of the mask -/
def network (a : XAddr) (l : ℕ) : Except CidrError (XAddr × ℕ) :=
  if l ≤ a.af.width ∧ a.bits &&& ~~~netmask _ l = 0 then .ok (a, l) else .error .inconsistent

structure Env where
  /-- `addr_pton`: what `getaddrinfo` makes of a numeric address -/
  pton : Text → Option XAddr
  /-- `INET6_ADDRSTRLEN` -/
  addrStrLen : ℕ

section
variable (env : Env)

/-- `addr_pton_cidr` -/
def ptonCidr (p : Text) : Except CidrError (XAddr × ℕ) :=
  if 64 ≤ p.length then .error .unparseable
  else
    match masklen p, env.pton (p.takeWhile (· ≠ '/')) with
    | some mask, some a => network a (mask.getD a.af.width)
    | _, _ => .error .unparseable

/-- `VALID_CIDR_CHARS` -/
def validChars (e : Text) : Bool := e.all fun c => "0123456789abcdefABCDEF.:/".toList.contains c

/-- the loop; an entry with other characters does not end it -/
def matchEntries (tried : Option XAddr) : ℤ → List Text → ℤ
  | ret, [] => ret
  | ret, e :: es =>
    if e = [] ∨ env.addrStrLen + 3 < e.length then -1
    else
      match ptonCidr env e with
      | .error _ => -1
      | .ok (net, l) =>
        matchEntries tried (if tried.any (netmatch · net l) then 1 else if validChars e then ret else -1) es

/-- `addr_match_cidr_list(addr, list)` -/
def addrMatchCidrList (addr : Option Text) (list : Text) : ℤ :=
  match addr with
  | none => matchEntries env none 0 (list.splitOn ',')
  | some t =>
    match env.pton t with
    | none => 0
    | some a => matchEntries env (some a) 0 (list.splitOn ',')

/-- an entry that is an address or a network -/
def Valid (e : Text) : Prop :=
  e ≠ [] ∧ e.length ≤ env.addrStrLen + 3 ∧ validChars e = true ∧ ∃ net l, ptonCidr env e = .ok (net, l)

/-- the address is in the network of the entry -/
def Lists (a : XAddr) (e : Text) : Prop := ∃ net l, ptonCidr env e = .ok (net, l) ∧ Inside a net l

/-- the loop ends at the entry -/
def Stops (e : Text) : Prop := e = [] ∨ env.addrStrLen + 3 < e.length ∨ ∃ err, ptonCidr env e = .error err

/-- an entry that is read as a network, with characters of no network -/
def Odd (e : Text) : Prop := ¬Stops env e ∧ validChars e = false

/-- the address that is tried is in the network of the entry -/
def Hit (tried : Option XAddr) (e : Text) : Prop := ∃ a, tried = some a ∧ Lists env a e

/-- an odd entry, and no match at it or behind it -/
def LastOdd (tried : Option XAddr) (es : List Text) : Prop :=
  ∃ pre e post, es = pre ++ e :: post ∧ Odd env e ∧ ∀ x ∈ e :: post, ¬Hit env tried x

variable {env} {e : Text} (tried : Option XAddr) (es : List Text)

theorem valid_iff : Valid env e ↔ ¬Stops env e ∧ validChars e = true := by
  unfold Valid Stops
  cases ptonCidr env e with
  | error err => simp
  | ok v =>
    obtain ⟨net, l⟩ := v
    simp [and_assoc]

theorem ptonCidr_ok {v : XAddr × ℕ} (h : ptonCidr env e = .ok v) :
    v.2 ≤ v.1.af.width ∧ v.1.bits &&& ~~~netmask _ v.2 = 0 := by
  unfold ptonCidr at h
  split_ifs at h
  split at h
  · unfold network at h
    split_ifs at h with hfits
    cases h
    exact hfits
  · cases h

/-- one entry: the loop ends, or a match sets 1 and an odd entry sets -1 -/
theorem matchEntries_cons (ret : ℤ) : (Stops env e → matchEntries env tried ret (e :: es) = -1) ∧ (¬Stops env e →
    ∃ hit : Bool, (hit = true ↔ Hit env tried e) ∧ matchEntries env tried ret (e :: es) =
      matchEntries env tried (if hit then 1 else if validChars e then ret else -1) es) := by
  rw [matchEntries]
  by_cases hsize : e = [] ∨ env.addrStrLen + 3 < e.length
  · rw [if_pos hsize]
    exact ⟨fun _ => rfl, fun h => absurd (or_assoc.1 (.inl hsize)) h⟩
  rw [if_neg hsize]
  cases hok : ptonCidr env e with
  | error err => exact ⟨fun _ => rfl, fun h => absurd (.inr (.inr ⟨err, hok⟩)) h⟩
  | ok v =>
    obtain ⟨net, l⟩ := v
    refine ⟨fun h => ?_, fun _ => ⟨tried.any (netmatch · net l), ?_, rfl⟩⟩
    · rcases h with h | h | ⟨err, h⟩
      · exact absurd (.inl h) hsize
      · exact absurd (.inr h) hsize
      · cases hok.symm.trans h
    · obtain ⟨hl, hzero⟩ := ptonCidr_ok hok
      rw [Option.any_eq_true]
      refine exists_congr fun a => and_congr_right fun _ => (netmatch_iff hl hzero).trans ⟨fun h => ⟨net, l, hok, h⟩, ?_⟩
      rintro ⟨net', l', hok', h⟩
      cases hok.symm.trans hok'
      exact h

variable {es}

theorem matchEntries_stops (h : ∃ e ∈ es, Stops env e) (ret : ℤ) : matchEntries env tried ret es = -1 := by
  induction es generalizing ret with
  | nil =>
    obtain ⟨_, h, -⟩ := h
    cases h
  | cons e es ih =>
    obtain ⟨hstop, hgo⟩ : (Stops env e → _) ∧ (¬ Stops env e → _) := matchEntries_cons tried es ret
    by_cases he : Stops env e
    · exact hstop he
    · obtain ⟨hit, -, hstep⟩ := hgo he
      rw [hstep]
      obtain ⟨x, hx, hxs⟩ := h
      rcases mem_cons.1 hx with rfl | hx
      · exact absurd hxs he
      · exact ih ⟨x, hx, hxs⟩ _

theorem lastOdd_cons : LastOdd env tried (e :: es) ↔
    LastOdd env tried es ∨ Odd env e ∧ ∀ x ∈ e :: es, ¬Hit env tried x := by
  constructor
  · rintro ⟨pre, x, post, hes, hodd, hno⟩
    cases pre with
    | nil =>
      obtain ⟨rfl, rfl⟩ := cons.inj hes
      exact .inr ⟨hodd, hno⟩
    | cons y pre => exact .inl ⟨pre, x, post, (cons.inj hes).2, hodd, hno⟩
  · rintro (⟨pre, x, post, rfl, hodd, hno⟩ | ⟨hodd, hno⟩)
    · exact ⟨e :: pre, x, post, rfl, hodd, hno⟩
    · exact ⟨[], e, es, rfl, hodd, hno⟩

/-- **The loop without an end.** It gives -1 if nothing matches from an odd entry on, or from the start with `ret` -1. -/
theorem matchEntries_eq_neg (h : ∀ e ∈ es, ¬Stops env e) (ret : ℤ) : matchEntries env tried ret es = -1 ↔
    LastOdd env tried es ∨ ret = -1 ∧ ∀ x ∈ es, ¬Hit env tried x := by
  induction es generalizing ret with
  | nil => simp [matchEntries, LastOdd]
  | cons e es ih =>
    obtain ⟨he, hes⟩ := forall_mem_cons.1 h
    obtain ⟨hit, hhit, hstep⟩ := (matchEntries_cons tried es ret).2 he
    rw [hstep, ih hes, lastOdd_cons]
    cases hit with
    | true => simp [hhit.1 rfl]
    | false =>
      have hno : ¬Hit env tried e := fun hx => absurd (hhit.2 hx) (by decide)
      have hodd : Odd env e ↔ validChars e = false := and_iff_right he
      cases hv : validChars e with
      | true => simp [hno, hodd, hv]
      | false =>
        simp only [hv, hno, hodd, Bool.false_eq_true, if_false, true_and, forall_mem_cons, not_false_eq_true, iff_self_or]
        exact fun h => Or.inr h.2

theorem matchEntries_valid (h : ∀ e ∈ es, Valid env e) (ret : ℤ) :
    ((∃ e ∈ es, Hit env tried e) → matchEntries env tried ret es = 1) ∧
      ((¬∃ e ∈ es, Hit env tried e) → matchEntries env tried ret es = ret) := by
  induction es generalizing ret with
  | nil => simp [matchEntries]
  | cons e es ih =>
    obtain ⟨he, hes⟩ := forall_mem_cons.1 h
    obtain ⟨hgo, hv⟩ := valid_iff.1 he
    obtain ⟨hit, hhit, hstep⟩ := (matchEntries_cons tried es ret).2 hgo
    simp only [hv, if_true] at hstep
    obtain ⟨hin, hout⟩ := ih hes (if hit then 1 else ret)
    rw [hstep]
    simp only [exists_mem_cons_iff, ← hhit]
    by_cases hrest : ∃ e ∈ es, Hit env tried e
    · exact ⟨fun _ => hin hrest, absurd (.inr hrest)⟩
    · rw [hout hrest]
      cases hit with
      | true => exact ⟨fun _ => rfl, absurd (.inl rfl)⟩
      | false => exact ⟨fun hx => absurd hx (by simpa using hrest), fun _ => rfl⟩

end

/-! ## The verdict -/

/-- what is claimed: -1 if an entry is not valid, else 1 if the address is in a network of the list, else 0; and 0 for an
address that cannot be read, for which no entry is looked at -/
def Verdict (env : Env) (addr : Option Text) (list : Text) : Prop :=
  ((∃ t, addr = some t ∧ env.pton t = none) → addrMatchCidrList env addr list = 0) ∧
    ((¬∃ t, addr = some t ∧ env.pton t = none) →
      (addrMatchCidrList env addr list = -1 ↔ ∃ e ∈ list.splitOn ',', ¬Valid env e) ∧
      ((∀ e ∈ list.splitOn ',', Valid env e) →
        ((∃ e ∈ list.splitOn ',', Hit env (addr.bind env.pton) e) → addrMatchCidrList env addr list = 1) ∧
        ((¬∃ e ∈ list.splitOn ',', Hit env (addr.bind env.pton) e) → addrMatchCidrList env addr list = 0)))

/-- no odd entry is masked -/
def Unmasked (env : Env) (addr : Option Text) (list : Text) : Prop :=
  (∃ t, addr = some t ∧ env.pton t = none) ∨ (∃ e ∈ list.splitOn ',', Stops env e) ∨
    (∀ e ∈ list.splitOn ',', ¬Odd env e) ∨ LastOdd env (addr.bind env.pton) (list.splitOn ',')

theorem addrMatchCidrList_loop {env : Env} {addr : Option Text} (list : Text)
    (hread : ¬∃ t, addr = some t ∧ env.pton t = none) :
    addrMatchCidrList env addr list = matchEntries env (addr.bind env.pton) 0 (list.splitOn ',') := by
  cases addr with
  | none => rfl
  | some t =>
    cases ht : env.pton t with
    | none => exact absurd ⟨t, rfl, ht⟩ hread
    | some a => simp [addrMatchCidrList, ht]

/-- the verdict on a list at which no entry ends the loop -/
theorem verdict_of_not_stops {env : Env} {es : List Text} (tried : Option XAddr) (hgo : ∀ e ∈ es, ¬Stops env e) :
    ((matchEntries env tried 0 es = -1 ↔ ∃ e ∈ es, ¬Valid env e) ∧
      ((∀ e ∈ es, Valid env e) → ((∃ e ∈ es, Hit env tried e) → matchEntries env tried 0 es = 1) ∧
        ((¬∃ e ∈ es, Hit env tried e) → matchEntries env tried 0 es = 0))) ↔
      (∀ e ∈ es, ¬Odd env e) ∨ LastOdd env tried es := by
  have hneg := matchEntries_eq_neg tried hgo 0
  simp only [show ¬(0 : ℤ) = -1 by decide, false_and, or_false] at hneg
  have hodd : (∃ e ∈ es, ¬Valid env e) ↔ ∃ e ∈ es, Odd env e := by
    refine exists_congr fun e => and_congr_right fun he => ?_
    rw [valid_iff, Odd, and_iff_right (hgo e he), and_iff_right (hgo e he), Bool.not_eq_true]
  rw [hneg, hodd]
  by_cases hno : ∀ e ∈ es, ¬Odd env e
  · have hlast : ¬LastOdd env tried es := by
      rintro ⟨pre, e, post, rfl, he, -⟩
      exact hno e (by simp) he
    refine iff_of_true ⟨iff_of_false hlast (by simpa using hno), fun hall => ?_⟩ (.inl hno)
    exact matchEntries_valid tried hall 0
  · obtain ⟨e, he, ho⟩ : ∃ e ∈ es, Odd env e := by simpa using hno
    have hinvalid : ¬∀ e ∈ es, Valid env e := by
      intro hall
      exact absurd ((valid_iff.1 (hall e he)).2.symm.trans ho.2) (by decide)
    simp only [hno, hinvalid, false_implies, and_true, false_or, iff_true_intro (show ∃ e ∈ es, Odd env e from ⟨e, he, ho⟩),
      iff_true]

/-- **The verdict on a list.** For every address (or none) and every list: the result is the claimed one if and only if the
address cannot be read, or the loop ends at an entry, or no entry is odd, or an odd entry is followed by no match. -/
theorem cidr_list_verdict (env : Env) (addr : Option Text) (list : Text) :
    Verdict env addr list ↔ Unmasked env addr list := by
  unfold Verdict Unmasked
  by_cases hread : ∃ t, addr = some t ∧ env.pton t = none
  · obtain ⟨t, ht, hnone⟩ := hread
    exact iff_of_true ⟨fun _ => by simp [addrMatchCidrList, ht, hnone], fun h => absurd ⟨t, ht, hnone⟩ h⟩
      (.inl ⟨t, ht, hnone⟩)
  rw [addrMatchCidrList_loop list hread]
  simp only [hread, false_or, not_false_eq_true, true_implies, false_implies, true_and]
  by_cases hstops : ∃ e ∈ list.splitOn ',', Stops env e
  · have hbad : ∃ e ∈ list.splitOn ',', ¬Valid env e := by
      obtain ⟨e, he, hs⟩ := hstops
      exact ⟨e, he, fun hv => (valid_iff.1 hv).1 hs⟩
    refine iff_of_true ⟨iff_of_true (matchEntries_stops _ hstops 0) hbad, fun hall => ?_⟩ (.inl hstops)
    obtain ⟨e, he, hno⟩ := hbad
    exact absurd (hall e he) hno
  · rw [verdict_of_not_stops _ fun e he hs => hstops ⟨e, he, hs⟩, or_iff_right hstops]

/-- a platform with two addresses -/
def twoAddresses : Env where
  pton t :=
    if t = "10.0.0.0".toList then some ⟨.inet, 0x0a000000⟩
    else if t = "10.1.2.3".toList then some ⟨.inet, 0x0a010203⟩
    else none
  addrStrLen := 46

/-- an empty entry behind the network of the address -/
theorem cidr_list_verdict_empty : addrMatchCidrList twoAddresses (some "10.1.2.3".toList) "10.0.0.0/8" = 1 ∧
    addrMatchCidrList twoAddresses (some "10.1.2.3".toList) "10.0.0.0/8," = -1 ∧
    Verdict twoAddresses (some "10.1.2.3".toList) "10.0.0.0/8," :=
  ⟨by decide +kernel, by decide +kernel, (cidr_list_verdict _ _ _).2 (.inr (.inl ⟨[], by decide +kernel, .inl rfl⟩))⟩

/-- a plus sign is no character of a network, but `strtonum` takes it -/
theorem cidr_list_masked : validChars "10.0.0.0/+8" = false ∧ addrMatchCidrList twoAddresses none "10.0.0.0/+8" = -1 ∧
      addrMatchCidrList twoAddresses (some "10.1.2.3".toList) "10.0.0.0/+8" = 1 ∧
      addrMatchCidrList twoAddresses (some "10.1.2.3".toList) "10.0.0.0/+16,10.0.0.0/8" = 1 := by
  decide +kernel

end OpenSSHServerPN.Cidr
