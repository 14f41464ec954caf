/-
SID strings in `AllowUsers`, `DenyUsers`, `AllowGroups` and `DenyGroups`.

When the configuration is parsed, an entry that is a SID string is replaced by the name of the account, without its domain
(`servconf.c`, the same code as in `check_group_membership`), and every entry is made lower case (`parse_server_config`). Much
later that name is compared with the user's name, which is in lower case and has the domain in front of it except for accounts
of this computer (`get_passwd`); or it is looked up again, local accounts first (`check_group_membership`); or, when another
entry of the list has a wildcard, it is compared with the formatted names of the user's groups.

A `Directory` is what Windows knows: the accounts of this computer, those of the domains, which texts are SID strings, and the
groups in the tokens of the users.

Results:
- `sid_entry_exact_iff`: for each kind of list, the entry matches exactly the accounts with that SID if and only if the SID's
  account is found under its bare name by the procedure of that list, and no other account is;
- `accepts_iff_entry`: `ga_match` accepts a list of a configuration exactly if it has an entry that matches;
- `sid_of_other_account`: the SID of the domain's bob matches the local bob and not the domain's.
-/
import OpenSSHServerPN.Win32.GroupLists

namespace OpenSSHServerPN.SidEntries

open OpenSSHServerPN.Match OpenSSHServerPN.GroupAccess List

/-! ## What Windows knows -/

/-- `SID_NAME_USE`, as far as the code looks at it -/
inductive SidNameUse where
  | user
  | domain
  | other
deriving DecidableEq, Repr

structure Account where
  sid : Sid
  name : Text
  domain : Text
  use : SidNameUse
deriving DecidableEq, Repr

/-- `_wcsicmp(a, b) == 0` -/
def sameText (a b : Text) : Bool := lower a == lower b

/-- characters that separate a domain, are wildcards or introduce a host; names have none of them -/
def reserved : List Char := ['\\', '/', '*', '?', '@']

def plain (t : Text) : Bool := t.all fun c => !reserved.contains c

structure Directory where
  computer : Text
  /-- accounts and groups of this computer, builtin and well-known ones included -/
  locals : List Account
  /-- those of the domains, in the order in which they are searched -/
  others : List Account
  /-- `ConvertStringSidToSidW` -/
  convertStringSidToSid : Text → Option Sid
  /-- the groups in the token that `get_user_token` gets for a user -/
  userToken : Text → Option (List TokenGroup)
  distinct : (locals ++ others).Pairwise fun a b => a.sid ≠ b.sid
  plainNames : ∀ a ∈ locals ++ others, plain a.name = true
  plainSids : ∀ t sid, convertStringSidToSid t = some sid → plain t = true

variable (d : Directory)

def Directory.accounts : List Account := d.locals ++ d.others

/-- `LookupAccountSidW` -/
def Directory.lookupAccountSid (sid : Sid) : Option Account := d.accounts.find? fun a => a.sid = sid

/-- `LookupAccountNameW`: a name with a domain, or a bare name, for which local accounts come first -/
def Directory.lookupAccountName (name : Text) : Option Account :=
  if name.contains '\\' then d.accounts.find? fun a => sameText (a.domain ++ '\\' :: a.name) name
  else (d.locals.find? fun a => sameText a.name name).or (d.others.find? fun a => sameText a.name name)

/-- the builtin group Administrators -/
def administrators : Sid := ⟨ntAuthority, [securityBuiltinDomainRid, 544]⟩

/-- `lookup_sid`: a name that is the computer's is looked up once more with itself as the domain -/
def Directory.lookupSid (name : Text) : Option Sid :=
  match d.lookupAccountName name with
  | none => if sameText name "administrators" then some administrators else none
  | some a =>
    if a.use ≠ .domain then some a.sid
    else if sameText name d.computer then
      match d.lookupAccountName (name ++ '\\' :: name) with
      | none => none
      | some b => if b.use ≠ .domain then some b.sid else none
    else none

/-- the calls of `win32_groupaccess.c` -/
def Directory.windows : Windows (List TokenGroup) where
  getUserToken := d.userToken
  getComputerName := some d.computer
  getTokenGroups := some
  lookupAccountSid sid := (d.lookupAccountSid sid).map fun a => (a.name, a.domain)
  convertStringSidToSid := d.convertStringSidToSid
  getSid := d.lookupSid
  checkTokenMembership token sid := some ((token.getD []).any fun g => g.enabled && g.sid == sid)

/-! ## Entries -/

/-- the entry as it is stored: the name of the account for a SID string that Windows knows; in lower case -/
def Directory.entry (arg : Text) : Text := storedEntry (localizedName d.windows arg)

def securityLocalSystemRid : ℕ := 18

/-- the account logs in under its bare name: one of this computer, or the system -/
def Directory.bareUser (a : Account) : Bool :=
  sameText a.domain d.computer || (a.sid.authority == ntAuthority && a.sid.sub.headD 0 == securityLocalSystemRid)

/-- `pw_name` (`get_passwd`) -/
def Directory.pwName (a : Account) : Text :=
  lower (if d.bareUser a then a.name else a.domain ++ '\\' :: a.name)

/-- the text before the last `@`, and the text after it -/
def splitAt (pattern : Text) : Option (Text × Text) :=
  let after := pattern.reverse.takeWhile (· ≠ '@')
  if pattern.contains '@' then some ((pattern.reverse.drop (after.length + 1)).reverse, after.reverse) else none

/-- `match_user`; `hostMatch` is `match_host_and_ip` for the connection -/
def matchUser (hostMatch : Text → ℤ) (user pattern : Text) : ℤ :=
  match splitAt pattern with
  | none => if matchPattern user pattern then 1 else 0
  | some (pat, host) => if matchPattern user pat then hostMatch host else 0

/-- what one entry contributes to `ga_match`; `wildcard`: some entry of the list has one -/
def Directory.groupEntryMatches (wildcard : Bool) (token : List TokenGroup) (entry : Text) : Option Bool :=
  if wildcard then (fetchGroups d.windows (some token)).map fun names => anyGroupMatches names [entry]
  else checkGroupMembership d.windows (some token) entry

/-- Windows knows the groups of the token -/
def Directory.Known (token : List TokenGroup) : Prop :=
  ∀ g ∈ token, g.valid = true ∧ ∃ a ∈ d.accounts, a.sid = g.sid

/-- the lists with SID entries -/
inductive ListKind where
  | users
  | groups (wildcard : Bool)
deriving DecidableEq, Repr

/-- the entry matches exactly the users with that SID, or the users with that group -/
def Exact (arg : Text) (sid : Sid) : ListKind → Prop
  | .users => ∀ hostMatch, ∀ a ∈ d.accounts, a.use = .user →
      (matchUser hostMatch (d.pwName a) (d.entry arg) = 1 ↔ a.sid = sid)
  | .groups wildcard => ∀ token, d.Known token → (d.groupEntryMatches wildcard token (d.entry arg) = some true ↔
        ∃ g ∈ token, g.enabled = true ∧ g.sid = sid)

/-- a group's formatted name is its bare name: a builtin group, or one of this computer -/
def Directory.bareGroup (a : Account) : Bool :=
  wanted a.sid && (a.sid.sub.headD 0 == securityBuiltinDomainRid || sameText d.computer a.domain)

/-- the account is found under a bare name by the procedure of the list -/
def Directory.FoundBy (a : Account) (name : Text) : ListKind → Prop
  | .users => d.bareUser a = true ∧ lower a.name = name
  | .groups true => d.bareGroup a = true ∧ lower a.name = name
  | .groups false => d.lookupSid (localizedName d.windows name) = some a.sid

/-- the accounts the list is about -/
def concerns (a : Account) : ListKind → Prop
  | .users => a.use = .user
  | .groups _ => True

/-! ## The directory -/

variable {d}

variable {a : Account}

theorem find_sid {l : List Account} (hpair : l.Pairwise fun a b => a.sid ≠ b.sid) (h : a ∈ l) :
    (l.find? fun x => x.sid = a.sid) = some a := by
  induction l with
  | nil => cases h
  | cons x xs ih =>
    obtain ⟨hx, hxs⟩ := pairwise_cons.1 hpair
    rcases mem_cons.1 h with rfl | h
    · simp
    · rw [find?_cons_of_neg (by simpa using hx a h)]
      exact ih hxs h

theorem lookupAccountSid_mem (h : a ∈ d.accounts) : d.lookupAccountSid a.sid = some a :=
  find_sid d.distinct h

variable {sid : Sid}

variable {t : Text}

section
variable (h : plain t = true)
include h

theorem not_mem_plain {c : Char} (hc : c ∈ reserved) : c ∉ t := by
  intro hmem
  have := all_eq_true.1 h c hmem
  rw [Bool.not_eq_true', contains_eq_mem, decide_eq_false_iff_not] at this
  exact this hc

theorem plain_storedEntry : plain (storedEntry t) = true := by
  have hkept : ∀ r ∈ reserved, ∀ n : Fin 26, (Char.ofNat (65 + n.val)).toLower ≠ r := by decide
  rw [storedEntry, replaceFirst_of_not_mem (not_mem_plain h (by decide))]
  refine all_eq_true.2 fun c hc => ?_
  obtain ⟨x, hx, rfl⟩ := mem_map.1 hc
  rw [Bool.not_eq_true', contains_eq_mem, decide_eq_false_iff_not]
  intro hmem
  have hsame : x = x.toLower := eq_of_toLower (hkept _ hmem) rfl
  exact not_mem_plain h (hsame ▸ hmem) hx

theorem matchPattern_plain (s : Text) : matchPattern s t = true ↔ s = t :=
  matchPattern_literal (not_mem_plain h (by decide)) (not_mem_plain h (by decide)) s

theorem matchUser_plain (hostMatch : Text → ℤ) (user : Text) : matchUser hostMatch user t = 1 ↔ user = t := by
  have hat : splitAt t = none := by
    have hno : '@' ∉ t := not_mem_plain h (by decide)
    simp [splitAt, hno]
  unfold matchUser
  rw [hat, ← matchPattern_plain h]
  cases matchPattern user t <;> simp

theorem qualified_ne (a : Account) : lower (a.domain ++ '\\' :: a.name) ≠ t := by
  intro heq
  refine not_mem_plain h (c := '\\') (by decide) (heq ▸ ?_)
  have hlow : Char.toLower '\\' = '\\' := by decide
  exact mem_map.2 ⟨'\\', by simp, hlow⟩

theorem pwName_eq (a : Account) : d.pwName a = t ↔ d.bareUser a = true ∧ lower a.name = t := by
  unfold Directory.pwName
  cases hb : d.bareUser a with
  | true => simp
  | false => simpa using qualified_ne h a

theorem formattedGroup_eq (a : Account) : wanted a.sid = true ∧ formattedGroup d.computer a.sid a.name a.domain = t ↔
      d.bareGroup a = true ∧ lower a.name = t := by
  have hcond : (a.sid.sub.headD 0 = securityBuiltinDomainRid ∨ d.computer.map Char.toLower = a.domain.map Char.toLower) ↔
      (a.sid.sub.headD 0 == securityBuiltinDomainRid || sameText d.computer a.domain) = true := by
    simp [sameText, lower]
  unfold formattedGroup Directory.bareGroup
  simp only [hcond, Bool.and_eq_true, and_assoc, and_congr_right_iff]
  intro _
  cases hb : (a.sid.sub.headD 0 == securityBuiltinDomainRid || sameText d.computer a.domain) with
  | true => simp [lower]
  | false =>
    have := qualified_ne h a
    simpa [lower] using this

end

theorem entry_plain {arg : Text} (h : d.convertStringSidToSid arg = some sid) : plain (d.entry arg) = true := by
  refine plain_storedEntry ?_
  simp only [localizedName, Directory.windows, h]
  cases hl : d.lookupAccountSid sid with
  | none => exact d.plainSids arg sid h
  | some a => exact d.plainNames a (mem_of_find?_eq_some hl)

/-! ## The groups of a token -/

variable {token : List TokenGroup}

theorem groupNames_known (h : d.Known token) : ∃ names, groupNames d.windows d.computer token = some names ∧
      ∀ n, n ∈ names ↔ ∃ a ∈ d.accounts, (∃ g ∈ token, g.enabled = true ∧ g.sid = a.sid) ∧ wanted a.sid = true ∧
        formattedGroup d.computer a.sid a.name a.domain = n := by
  induction token with
  | nil => exact ⟨[], rfl, by simp⟩
  | cons g gs ih =>
    obtain ⟨names, hnames, hmem⟩ := ih fun g' hg' => h g' (mem_cons_of_mem g hg')
    obtain ⟨hvalid, b, hb, hbsid⟩ := h g mem_cons_self
    unfold groupNames
    by_cases hin : (g.enabled && g.valid && wanted g.sid) = true
    · have hlook : d.windows.lookupAccountSid g.sid = some (b.name, b.domain) := by
        simp [Directory.windows, ← hbsid, lookupAccountSid_mem hb]
      refine ⟨formattedGroup d.computer g.sid b.name b.domain :: names, by rw [if_pos hin, hlook, hnames]; rfl, fun n => ?_⟩
      simp only [Bool.and_eq_true] at hin
      rw [mem_cons, hmem]
      constructor
      · rintro (rfl | ⟨a, ha, ⟨g', hg', hen, hsid⟩, hrest⟩)
        · exact ⟨b, hb, ⟨g, mem_cons_self, hin.1.1, hbsid.symm⟩, by rw [hbsid]; exact hin.2, by rw [hbsid]⟩
        · exact ⟨a, ha, ⟨g', mem_cons_of_mem g hg', hen, hsid⟩, hrest⟩
      rintro ⟨a, ha, ⟨g', hg', hen, hsid⟩, hw, hf⟩
      rcases mem_cons.1 hg' with rfl | hg'
      · have hab : a = b := by
          have := lookupAccountSid_mem ha
          rw [← hsid, ← hbsid, lookupAccountSid_mem hb] at this
          exact (Option.some.inj this).symm
        subst hab
        exact .inl (by rw [← hf, hsid])
      · exact .inr ⟨a, ha, ⟨g', hg', hen, hsid⟩, hw, hf⟩
    · refine ⟨names, by rw [if_neg hin, hnames], fun n => ?_⟩
      rw [hmem]
      constructor
      · rintro ⟨a, ha, ⟨g', hg', hen, hsid⟩, hrest⟩
        exact ⟨a, ha, ⟨g', mem_cons_of_mem g hg', hen, hsid⟩, hrest⟩
      · rintro ⟨a, ha, ⟨g', hg', hen, hsid⟩, hw, hf⟩
        rcases mem_cons.1 hg' with rfl | hg'
        · rw [hsid, hen, hvalid, hw] at hin
          exact absurd rfl hin
        · exact ⟨a, ha, ⟨g', hg', hen, hsid⟩, hw, hf⟩

/-- an entry among wildcards matches a group whose bare name it is -/
theorem groupEntryMatches_wildcard (h : d.Known token) (ht : plain t = true) :
    d.groupEntryMatches true token t = some true ↔
      ∃ a ∈ d.accounts, (∃ g ∈ token, g.enabled = true ∧ g.sid = a.sid) ∧ d.bareGroup a = true ∧ lower a.name = t := by
  obtain ⟨names, hnames, hmem⟩ := groupNames_known h
  have hfetch : fetchGroups d.windows (some token) = some names := hnames
  have hmatch : anyGroupMatches names [t] = true ↔ t ∈ names := by
    unfold anyGroupMatches
    simp only [any_cons, any_nil, Bool.or_false, any_eq_true, matchPattern_plain ht]
    exact ⟨fun ⟨n, hn, he⟩ => he ▸ hn, fun hn => ⟨t, hn, rfl⟩⟩
  unfold Directory.groupEntryMatches
  rw [if_pos rfl, hfetch, Option.map_some, Option.some.injEq, hmatch, hmem]
  refine exists_congr fun a => and_congr_right fun _ => and_congr_right fun _ => ?_
  exact formattedGroup_eq ht a

/-- an entry of a list without wildcards is looked up and checked -/
theorem groupEntryMatches_direct (token : List TokenGroup) (t : Text) : d.groupEntryMatches false token t = some true ↔
      ∃ g ∈ token, g.enabled = true ∧ d.lookupSid (localizedName d.windows t) = some g.sid := by
  unfold Directory.groupEntryMatches checkGroupMembership
  rw [if_neg (by decide)]
  have hsid : d.windows.getSid (localizedName d.windows t) = d.lookupSid (localizedName d.windows t) := rfl
  rw [hsid]
  cases d.lookupSid (localizedName d.windows t) with
  | none => simp
  | some sid =>
    simp only [Directory.windows, Option.some.injEq, any_eq_true, Bool.and_eq_true, beq_iff_eq]
    refine exists_congr fun g => and_congr_right fun _ => and_congr_right fun _ => eq_comm

/-- **The entries of a list.** `ga_match` accepts a list of a configuration, SID strings among its entries, for a user whose
groups are known, if and only if an entry matches. -/
theorem accepts_iff_entry {user : Text} (huser : d.userToken user = some token) (h : d.Known token) (args : List Text) :
    Accepts d.windows user (args.map (localizedName d.windows)) ↔
      ∃ arg ∈ args, d.groupEntryMatches (wild (args.map (localizedName d.windows))) token (d.entry arg) = some true := by
  have htoken : d.windows.getUserToken user = some token := huser
  cases hwild : wild (args.map (localizedName d.windows)) with
  | true =>
    obtain ⟨names, hnames, -⟩ := groupNames_known h
    have hfetch : fetchGroups d.windows (some token) = some names := hnames
    rw [accepts_wild user hwild, htoken, hfetch]
    simp only [Directory.groupEntryMatches, hfetch, anyGroupMatches, if_true, Option.map_some, Option.some.injEq,
      exists_eq_left', any_eq_true, map_map, mem_singleton, exists_eq_left]
    constructor
    · rintro ⟨n, hn, g, hg, hm⟩
      obtain ⟨arg, harg, rfl⟩ := mem_map.1 hg
      exact ⟨arg, harg, n, hn, hm⟩
    · rintro ⟨arg, harg, n, hn, hm⟩
      exact ⟨n, hn, _, mem_map_of_mem harg, hm⟩
  | false =>
    rw [accepts_plain user hwild, htoken, map_map]
    simp only [Directory.groupEntryMatches, Bool.false_eq_true, if_false]
    constructor
    · intro hany
      obtain ⟨g, hg, hm⟩ := mem_of_anyMembership hany
      obtain ⟨arg, harg, rfl⟩ := mem_map.1 hg
      exact ⟨arg, harg, hm⟩
    · rintro ⟨arg, harg, hm⟩
      exact anyMembership_of_mem (mem_map_of_mem harg) hm fun x _ => by
        unfold checkGroupMembership
        split <;> exact Option.some_ne_none _

/-! ## Exact entries -/

theorem exact_users_iff {arg : Text} (h : d.convertStringSidToSid arg = some sid) : Exact d arg sid .users ↔
      ∀ a ∈ d.accounts, concerns a .users → (d.FoundBy a (d.entry arg) .users ↔ a.sid = sid) := by
  have hplain := entry_plain h
  constructor
  · intro hex a ha huse
    rw [← hex (fun _ => 0) a ha huse, matchUser_plain hplain, pwName_eq hplain]
    rfl
  · intro hfound hostMatch a ha huse
    rw [← hfound a ha huse, matchUser_plain hplain, pwName_eq hplain]
    rfl

/-- a token with one group -/
def tokenOf (a : Account) : List TokenGroup := [⟨true, true, a.sid⟩]

theorem tokenOf_known (h : a ∈ d.accounts) : d.Known (tokenOf a) := by
  intro g hg
  rw [mem_singleton.1 hg]
  exact ⟨rfl, a, h, rfl⟩

/-- a match that depends on the enabled groups one by one is exact if and only if it is for each group -/
theorem exact_groups_iff {matched : List TokenGroup → Prop} {found : Account → Prop}
    (hmatched : ∀ token, d.Known token →
      (matched token ↔ ∃ a ∈ d.accounts, (∃ g ∈ token, g.enabled = true ∧ g.sid = a.sid) ∧ found a)) :
    (∀ token, d.Known token → (matched token ↔ ∃ g ∈ token, g.enabled = true ∧ g.sid = sid)) ↔
      ∀ a ∈ d.accounts, found a ↔ a.sid = sid := by
  constructor
  · intro hex a ha
    have hone := (hmatched _ (tokenOf_known ha)).symm.trans (hex _ (tokenOf_known ha))
    have hleft : (∃ b ∈ d.accounts, (∃ g ∈ tokenOf a, g.enabled = true ∧ g.sid = b.sid) ∧ found b) ↔ found a := by
      constructor
      · rintro ⟨b, hb, ⟨g, hg, -, hsid⟩, hf⟩
        rw [mem_singleton.1 hg] at hsid
        have hab : a = b := by
          have := lookupAccountSid_mem hb
          rw [← hsid, lookupAccountSid_mem ha] at this
          exact Option.some.inj this
        exact hab ▸ hf
      · exact fun hf => ⟨a, ha, ⟨_, mem_singleton.2 rfl, rfl, rfl⟩, hf⟩
    have hright : (∃ g ∈ tokenOf a, g.enabled = true ∧ g.sid = sid) ↔ a.sid = sid := by simp [tokenOf]
    exact hleft.symm.trans (hone.trans hright)
  · intro hfound token hknown
    rw [hmatched token hknown]
    constructor
    · rintro ⟨a, ha, ⟨g, hg, hen, hsid⟩, hf⟩
      exact ⟨g, hg, hen, hsid.trans ((hfound a ha).1 hf)⟩
    · rintro ⟨g, hg, hen, hsid⟩
      obtain ⟨-, a, ha, hasid⟩ := hknown g hg
      exact ⟨a, ha, ⟨g, hg, hen, hasid.symm⟩, (hfound a ha).2 (hasid.trans hsid)⟩

/-- **SID entries.** For every directory, every SID string and every kind of list: the entry matches exactly the accounts with
that SID, if and only if the account with that SID, and no other one, is found under the bare name by the list's procedure. -/
theorem sid_entry_exact_iff (d : Directory) (arg : Text) (sid : Sid) (kind : ListKind)
    (h : d.convertStringSidToSid arg = some sid) :
    Exact d arg sid kind ↔ ∀ a ∈ d.accounts, concerns a kind → (d.FoundBy a (d.entry arg) kind ↔ a.sid = sid) := by
  cases kind with
  | users => exact exact_users_iff h
  | groups wildcard =>
    cases wildcard with
    | true =>
      have hwild : ∀ token, d.Known token → (d.groupEntryMatches true token (d.entry arg) = some true ↔
          ∃ a ∈ d.accounts, (∃ g ∈ token, g.enabled = true ∧ g.sid = a.sid) ∧
            d.bareGroup a = true ∧ lower a.name = d.entry arg) :=
        fun token hknown => groupEntryMatches_wildcard hknown (entry_plain h)
      simpa [Exact, concerns, Directory.FoundBy] using exact_groups_iff hwild
    | false =>
      have hdirect : ∀ token, d.Known token → (d.groupEntryMatches false token (d.entry arg) = some true ↔
          ∃ a ∈ d.accounts, (∃ g ∈ token, g.enabled = true ∧ g.sid = a.sid) ∧
            d.lookupSid (localizedName d.windows (d.entry arg)) = some a.sid) := by
        intro token hknown
        rw [groupEntryMatches_direct]
        constructor
        · rintro ⟨g, hg, hen, hs⟩
          obtain ⟨-, a, ha, hasid⟩ := hknown g hg
          exact ⟨a, ha, ⟨g, hg, hen, hasid.symm⟩, hs.trans (congrArg some hasid.symm)⟩
        · rintro ⟨a, -, ⟨g, hg, hen, hsid⟩, hs⟩
          exact ⟨g, hg, hen, hs.trans (congrArg some hsid.symm)⟩
      simpa [Exact, concerns, Directory.FoundBy] using exact_groups_iff hdirect

/-! ## Two accounts of one name -/

def hostBob : Account := ⟨⟨5, [21, 1, 1, 1, 1001]⟩, "bob", "HOST", .user⟩
def corpBob : Account := ⟨⟨5, [21, 9, 9, 9, 1105]⟩, "bob", "CORP", .user⟩
def hostAdmins : Account := ⟨⟨5, [21, 1, 1, 1, 1002]⟩, "admins", "HOST", .other⟩
def corpAdmins : Account := ⟨⟨5, [21, 9, 9, 9, 1200]⟩, "admins", "CORP", .other⟩

/-- the SID strings of the four accounts -/
def exampleSids (t : Text) : Option Sid :=
  if t = "S-1-5-21-1-1-1-1001" then some hostBob.sid
  else if t = "S-1-5-21-9-9-9-1105" then some corpBob.sid
  else if t = "S-1-5-21-9-9-9-1200" then some corpAdmins.sid
  else none

theorem exampleSids_plain (t : Text) (sid : Sid) (h : exampleSids t = some sid) : plain t = true := by
  unfold exampleSids at h
  split at h
  · next ht => rw [ht]; decide
  · split at h
    · next ht => rw [ht]; decide
    · split at h
      · next ht => rw [ht]; decide
      · cases h

/-- a computer in a domain, both with an account bob and a group admins -/
def twoBobs : Directory where
  computer := "HOST"
  locals := [hostBob, hostAdmins]
  others := [corpBob, corpAdmins]
  convertStringSidToSid := exampleSids
  userToken user :=
    if user = "bob" then some (tokenOf hostAdmins) else if user = "corp\\bob" then some (tokenOf corpAdmins) else none
  distinct := by decide
  plainNames := by decide
  plainSids := exampleSids_plain

/-- the SID of the domain's bob matches the local bob and not the domain's; the SID of the domain's group matches a member of
the local group only -/
theorem sid_of_other_account :
    (∀ hostMatch, matchUser hostMatch (twoBobs.pwName hostBob) (twoBobs.entry "S-1-5-21-9-9-9-1105") = 1 ∧
      matchUser hostMatch (twoBobs.pwName corpBob) (twoBobs.entry "S-1-5-21-9-9-9-1105") = 0) ∧
    Accepts twoBobs.windows "bob" [localizedName twoBobs.windows "S-1-5-21-9-9-9-1200"] ∧
    ¬Accepts twoBobs.windows "corp\\bob" [localizedName twoBobs.windows "S-1-5-21-9-9-9-1200"] := by
  refine ⟨fun hostMatch => ⟨?_, rfl⟩, ?_⟩
  · have hentry : twoBobs.entry "S-1-5-21-9-9-9-1105" = "bob" := by decide
    have hname : twoBobs.pwName hostBob = "bob" := by decide
    rw [hentry, hname, matchUser_plain (by decide)]
  · unfold Accepts
    decide

/-- the SID of the local bob -/
theorem sid_entry_exact_local : Exact twoBobs "S-1-5-21-1-1-1-1001" hostBob.sid .users := by
  refine (sid_entry_exact_iff twoBobs "S-1-5-21-1-1-1-1001" hostBob.sid .users (by decide)).2 ?_
  simp only [concerns, Directory.FoundBy]
  decide

end OpenSSHServerPN.SidEntries
