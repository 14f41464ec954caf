/-
Longer group lists (`ga_match` for `AllowGroups` and `DenyGroups`).

The entries are stored in lower case, with their first `/` made a backslash. A list without wildcards is answered by asking
Windows about each entry; one entry with a wildcard makes the whole list a comparison with the account's formatted group
names, in lower case, without the domain for local groups, and without the groups that are neither builtin nor of a machine
or domain. So an entry that was accepted before may no longer count.

Results:
- `group_list_grows_iff`: no list that contains an accepted list is refused, if and only if the accepted list has a
  wildcard itself, or has an entry that is spelled as one of the account's formatted names while no membership check fails;
- `deny_wildcard_admits`: with `DenyGroups host\admins` the account is refused, with `DenyGroups host\admins guest*` it is
  admitted.
-/
import OpenSSHServerPN.Match.Glob
import OpenSSHServerPN.Win32.GroupAccess

namespace OpenSSHServerPN.GroupAccess

open OpenSSHServerPN.Match List

variable {Token : Type} {w : Windows Token} {token : Option Token} {gs gs' : List Text}

/-- `ga_match` accepts the list of a configuration for the user -/
def Accepts (w : Windows Token) (user : Text) (groups : List Text) : Prop :=
  freshReply w user (.groups (groups.map storedEntry) false) = .value 1

/-- every list that contains the accepted list is accepted -/
def GrowsSafely (w : Windows Token) (user : Text) (groups : List Text) : Prop :=
  ∀ groups', groups ⊆ groups' → Accepts w user groups → Accepts w user groups'

/-- an entry is one of the account's formatted group names, up to case, and no membership check fails -/
structure Spelled (w : Windows Token) (token : Option Token) (groups : List Text) : Prop where
  listed : ∃ names, fetchGroups w token = some names ∧ ∃ g ∈ groups, storedEntry g ∈ names
  checked : ∀ g, hasWildcard (storedEntry g) = false → checkGroupMembership w token (storedEntry g) ≠ none

/-- some entry has a wildcard -/
def wild (groups : List Text) : Bool := (groups.map storedEntry).any hasWildcard

/-! ## The two procedures -/

variable {g : Text}

theorem no_question (h : hasWildcard g = false) : '?' ∉ g := by
  simp only [hasWildcard, Bool.or_eq_false_iff, contains_eq_mem, decide_eq_false_iff_not] at h
  exact h.1

theorem no_star (h : hasWildcard g = false) : '*' ∉ g := by
  simp only [hasWildcard, Bool.or_eq_false_iff, contains_eq_mem, decide_eq_false_iff_not] at h
  exact h.2

theorem accepts_wild (user : Text) (h : wild gs = true) : Accepts w user gs ↔
    ∃ names, fetchGroups w (w.getUserToken user) = some names ∧ anyGroupMatches names (gs.map storedEntry) = true := by
  unfold wild at h
  unfold Accepts
  rw [freshReply_eq w user _ rfl, tokenReply]
  simp only [needsList, h]
  cases fetchGroups w (w.getUserToken user) with
  | none => simp
  | some names => cases hm : anyGroupMatches names (gs.map storedEntry) <;> simp [listAnswer, hm]

theorem accepts_plain (user : Text) (h : wild gs = false) :
    Accepts w user gs ↔ anyMembership w (w.getUserToken user) (gs.map storedEntry) = some true := by
  unfold wild at h
  unfold Accepts
  rw [freshReply_eq w user _ rfl, tokenReply]
  simp only [needsList, h, directAnswer]
  cases anyMembership w (w.getUserToken user) (gs.map storedEntry) with
  | none => simp
  | some b => cases b <;> simp

theorem any_subset {p : Text → Bool} (hsub : gs ⊆ gs') (h : gs.any p = true) : gs'.any p = true := by
  obtain ⟨g, hg, hp⟩ := any_eq_true.1 h
  exact any_eq_true.2 ⟨g, hsub hg, hp⟩

variable {names : List Text}

/-- the comparison with the names only gains from further entries -/
theorem anyGroupMatches_subset (hsub : gs ⊆ gs') (h : anyGroupMatches names gs = true) :
    anyGroupMatches names gs' = true := by
  obtain ⟨n, hn, hg⟩ := any_eq_true.1 h
  exact any_eq_true.2 ⟨n, hn, any_subset hsub hg⟩

/-- the membership checks gain from further entries as long as none fails -/
theorem anyMembership_of_mem (hmem : g ∈ gs) (hg : checkGroupMembership w token g = some true)
    (hall : ∀ g ∈ gs, checkGroupMembership w token g ≠ none) : anyMembership w token gs = some true := by
  induction gs with
  | nil => cases hmem
  | cons x xs ih =>
    unfold anyMembership
    cases hx : checkGroupMembership w token x with
    | none => exact absurd hx (hall x mem_cons_self)
    | some b =>
      cases b with
      | true => rfl
      | false =>
        have hxs : g ∈ xs := by
          rcases mem_cons.1 hmem with rfl | h
          · rw [hg] at hx
            cases hx
          · exact h
        exact ih hxs fun y hy => hall y (mem_cons_of_mem x hy)

theorem mem_of_anyMembership (h : anyMembership w token gs = some true) :
    ∃ g ∈ gs, checkGroupMembership w token g = some true := by
  induction gs with
  | nil => cases h
  | cons x xs ih =>
    unfold anyMembership at h
    cases hx : checkGroupMembership w token x with
    | none => rw [hx] at h; cases h
    | some b =>
      rw [hx] at h
      cases b with
      | true => exact ⟨x, mem_cons_self, hx⟩
      | false =>
        obtain ⟨g, hg, hgm⟩ := ih h
        exact ⟨g, mem_cons_of_mem x hg, hgm⟩

/-! ## A wildcard that matches nothing -/

/-- more question marks than any name has characters -/
def beyond (names : List Text) : Text := List.replicate ((names.map List.length).sum + 1) '?'

theorem beyond_wildcard (names : List Text) : hasWildcard (beyond names) = true := by
  simp [hasWildcard, beyond]

theorem beyond_matches_none {n : Text} (hn : n ∈ names) : matchPattern n (beyond names) = false := by
  refine Bool.eq_false_iff.2 fun h => ?_
  have hlen := (matchPattern_questions _ n).1 h
  have hle : n.length ≤ (names.map length).sum := single_le_sum (by simp) _ (mem_map_of_mem hn)
  omega

/-- it is stored as it is written -/
theorem storedEntry_beyond (names : List Text) : storedEntry (beyond names) = beyond names := by
  have hslash : '/' ∉ beyond names := by simp [beyond, mem_replicate]
  rw [storedEntry, replaceFirst_of_not_mem hslash, lower, beyond, map_replicate]
  rfl

/-- with it, an entry without wildcards must be spelled as a name -/
theorem listed_of_matches (hplain : gs.any hasWildcard = false)
    (h : anyGroupMatches names (beyond names :: gs) = true) : ∃ g ∈ gs, g ∈ names := by
  obtain ⟨n, hn, hg⟩ := any_eq_true.1 h
  obtain ⟨g, hmem, hmatch⟩ := any_eq_true.1 hg
  rcases mem_cons.1 hmem with rfl | hmem
  · rw [beyond_matches_none hn] at hmatch
    cases hmatch
  · have hw : hasWildcard g = false := by simpa using any_eq_false.1 hplain g hmem
    have heq := (matchPattern_literal (no_question hw) (no_star hw) n).1 hmatch
    exact ⟨g, hmem, heq ▸ hn⟩

/-! ## Longer lists -/

theorem plain_of_mem {gs : List Text} (h : wild gs = false) (hg : g ∈ gs) : hasWildcard (storedEntry g) = false := by
  simpa using any_eq_false.1 h (storedEntry g) (mem_map_of_mem hg)

theorem grows_of_spelled {user : Text} (hplain : wild gs = false)
    (h : Spelled w (w.getUserToken user) gs) : GrowsSafely w user gs := by
  intro gs' hsub hacc
  obtain ⟨names, hfetch, g, hg, hname⟩ := h.listed
  have hw : hasWildcard (storedEntry g) = false := plain_of_mem hplain hg
  cases hwild : wild gs' with
  | true =>
    refine (accepts_wild user hwild).2 ⟨names, hfetch, ?_⟩
    have hself : matchPattern (storedEntry g) (storedEntry g) = true :=
      (matchPattern_literal (no_question hw) (no_star hw) _).2 rfl
    exact any_eq_true.2 ⟨_, hname, any_eq_true.2 ⟨_, mem_map_of_mem (hsub hg), hself⟩⟩
  | false =>
    obtain ⟨x, hx, hxm⟩ := mem_of_anyMembership ((accepts_plain user hplain).1 hacc)
    refine (accepts_plain user hwild).2 (anyMembership_of_mem (map_subset storedEntry hsub hx) hxm fun y hy => ?_)
    obtain ⟨z, hz, rfl⟩ := mem_map.1 hy
    exact h.checked z (plain_of_mem hwild hz)

theorem spelled_of_grows {user : Text} (hplain : wild gs = false) (hacc : Accepts w user gs)
    (h : GrowsSafely w user gs) : Spelled w (w.getUserToken user) gs where
  listed := by
    -- one more entry, with a wildcard that matches none of the names
    have hwild : ∀ names, wild (beyond names :: gs) = true := fun names => by
      rw [wild, map_cons, any_cons, storedEntry_beyond, beyond_wildcard, Bool.true_or]
    have hgrown := fun names => (accepts_wild user (hwild names)).1 (h _ (subset_cons_self _ gs) hacc)
    obtain ⟨names, hfetch, -⟩ := hgrown []
    obtain ⟨names', hfetch', hmatch⟩ := hgrown names
    rw [hfetch] at hfetch'
    cases hfetch'
    rw [map_cons, storedEntry_beyond] at hmatch
    obtain ⟨g, hg, hname⟩ := listed_of_matches hplain hmatch
    obtain ⟨x, hx, rfl⟩ := mem_map.1 hg
    exact ⟨names, hfetch, x, hx, hname⟩
  checked := by
    intro g hg hnone
    have hplain' : wild (g :: gs) = false := by
      rw [wild, map_cons, any_cons, hg, Bool.false_or]
      exact hplain
    have hgrown := (accepts_plain user hplain').1 (h _ (subset_cons_self g gs) hacc)
    rw [map_cons] at hgrown
    unfold anyMembership at hgrown
    rw [hnone] at hgrown
    cases hgrown

/-- **Longer lists.** For every account and every list of groups in a configuration: each list that contains it is accepted
when it is accepted, if and only if an accepted list has a wildcard or is `Spelled` as the account's groups are formatted. -/
theorem group_list_grows_iff (w : Windows Token) (user : Text) (groups : List Text) : GrowsSafely w user groups ↔
      (Accepts w user groups → wild groups = true ∨ Spelled w (w.getUserToken user) groups) := by
  constructor
  · intro h hacc
    cases hwild : wild groups with
    | true => exact .inl rfl
    | false => exact .inr (spelled_of_grows hwild hacc h)
  · intro h groups' hsub hacc
    have hstored : groups.map storedEntry ⊆ groups'.map storedEntry := map_subset storedEntry hsub
    cases hwild : wild groups with
    | true =>
      obtain ⟨names, hfetch, hmatch⟩ := (accepts_wild user hwild).1 hacc
      exact (accepts_wild user (any_subset hstored hwild)).2 ⟨names, hfetch, anyGroupMatches_subset hstored hmatch⟩
    | false =>
      rcases h hacc with htrue | hspelled
      · rw [hwild] at htrue
        cases htrue
      · exact grows_of_spelled hwild hspelled groups' hsub hacc

/-! ## A wildcard that admits -/

/-- one user, in the local group Admins; names are looked up in any case, with the computer's name or without it -/
def adminsBySid : Windows Unit :=
  { oneAdmin with
    getSid := fun name =>
      if lower name = "admins" ∨ lower name = "host\\admins" then some ⟨5, [21, 1, 2, 3, 1001]⟩ else none
    checkTokenMembership := fun _ sid => some (sid == ⟨5, [21, 1, 2, 3, 1001]⟩) }

/-- `DenyGroups host\admins` finds the user; `DenyGroups host\admins guest*` does not -/
theorem deny_wildcard_admits : Accepts adminsBySid "bob" ["host\\admins"] ∧
      ¬Accepts adminsBySid "bob" ["host\\admins", "guest*"] := by
  unfold Accepts
  decide

end OpenSSHServerPN.GroupAccess
