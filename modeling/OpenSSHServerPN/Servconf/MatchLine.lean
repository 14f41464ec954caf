/-
The criteria of a Match line (`servconf.c`: `match_cfg_line`).

Model: `matchCfgLine` goes through the arguments of a Match line, criterion by criterion, for a connection (`ConnInfo`) or,
without one, as a check of the syntax. It says whether the block applies and which arguments are left over; `none` is a
line that ends the process, by `fatal` or because its condition is bad.

`all` applies without a connection, and so does a `version` that matches: such a block is active when sshd starts.

Result:
- `matchCriteria_complete`: a line that is accepted without a connection is accepted for every connection of which all is
  known, with the same arguments left over;
- `usergroup_calls`: a user or group list with one `/` at most gives every lower-case name the verdict of the list with a
  backslash, whatever calls were made on it. Each call writes its backslash into the list.
-/
import OpenSSHServerPN.Servconf.Options

namespace OpenSSHServerPN.Servconf

open Argv Match

/-! ## Connections -/

/-- `struct connection_info` -/
structure ConnInfo where
  user : Option Text
  userInvalid : Bool
  host : Option Text
  address : Option Text
  laddress : Option Text
  /-- -1: not given in a test; 0: not known -/
  lport : ℤ
  rdomain : Option Text
  test : Bool

/-- all that a criterion may ask for is known -/
structure ConnInfo.Complete (ci : ConnInfo) : Prop where
  user : ci.user.isSome
  host : ci.host.isSome
  address : ci.address.isSome
  laddress : ci.laddress.isSome
  lport : 0 < ci.lport
  rdomain : ci.rdomain.isSome

/-- what decides about groups and addresses -/
structure Accounts (env : Env) where
  /-- `match_cfg_line_group`, of an account and a list -/
  inGroups : Text → Text → Bool
  /-- `addr_match_list`, of an address and a list; `none` is -2 -/
  addrMatchList : Text → Text → Option Bool
  /-- a list that is valid without an address is valid with one -/
  addrMatchList_valid : ∀ addr list, env.addrListValid list = true → (addrMatchList addr list).isSome

/-! ## Criteria -/

/-- `match_usergroup_pattern_list`: the first `/` of the list stands for a backslash -/
def matchUsergroupPatternList (string pattern : Text) : ℤ := matchPatternList string (replaceFirst '/' '\\' pattern) true

/-- `match_hostname` -/
def matchHostname (host pattern : Text) : ℤ := matchPatternList (lower host) pattern true

section
variable (env : Env) (acc : Accounts env)

/-- a criterion on a text of the connection; it fails without a connection, and in a test that does not give the text -/
def textCriterion (absent : Option Bool) (field : ConnInfo → Option Text) (check : Text → Option Bool) :
    Option ConnInfo → Option Bool
  | none => absent
  | some ci =>
    match field ci with
    | none => if ci.test then absent else none
    | some value => check value

/-- an address list is checked even if there is no address -/
def addressCriterion (field : ConnInfo → Option Text) (list : Text) : Option ConnInfo → Option Bool :=
  textCriterion (if env.addrListValid list then some false else none) field fun addr => acc.addrMatchList addr list

def localPortCriterion (arg : Text) (ci : Option ConnInfo) : Option Bool :=
  match env.a2port arg, ci with
  | none, _ => none
  | some _, none => some false
  | some port, some ci =>
    if ci.test ∧ ci.lport = -1 then some false else if ci.lport = 0 then none else some ((port : ℤ) = ci.lport)

/-- one criterion with its argument -/
def criterion (ci : Option ConnInfo) (attrib arg : Text) : Option Bool :=
  if lower attrib = "user" then
    textCriterion (some false) ConnInfo.user (fun user => some (matchUsergroupPatternList user arg = 1)) ci
  else if lower attrib = "group" then
    textCriterion (some false) ConnInfo.user (fun user => some (acc.inGroups user arg)) ci
  else if lower attrib = "host" then
    textCriterion (some false) ConnInfo.host (fun host => some (matchHostname host arg = 1)) ci
  else if lower attrib = "address" then addressCriterion env acc ConnInfo.address arg ci
  else if lower attrib = "localaddress" then addressCriterion env acc ConnInfo.laddress arg ci
  else if lower attrib = "localport" then localPortCriterion env arg ci
  else if lower attrib = "rdomain" then
    textCriterion (some false) ConnInfo.rdomain (fun rdomain => some (matchPatternList rdomain arg false = 1)) ci
  else if lower attrib = "version" then some (env.releaseMatches arg)
  else none

/-- the criteria that may be written with `=` -/
def assigned : List Text :=
  ["user=", "group=", "host=", "address=", "localaddress=", "localport=", "rdomain=", "version="]

def isAssigned (attrib : Text) : Bool := assigned.any fun p => lower (attrib.take p.length) == p

/-- the two sides of such a criterion -/
def assignedName (attrib : Text) : Text := attrib.takeWhile (· != '=')

def assignedArg (attrib : Text) : Text := (attrib.dropWhile (· != '=')).drop 1

/-- a criterion needs an argument -/
def isMissing (arg : Text) : Bool := arg == [] || arg.head? == some '#'

/-- the loop of `match_cfg_line`: `seen` says whether there was a criterion before, `result` whether all of them held -/
def matchCriteria (ci : Option ConnInfo) (seen result : Bool) : List Text → Option (Bool × List Text)
  | [] => if seen then some (result, []) else none
  | oattrib :: rest =>
    if oattrib.head? = some '#' then if seen then some (result, []) else none
    else if lower oattrib = "all" then
      -- stands alone
      if seen then none
      else
        match rest with
        | [] => some (true, [])
        | arg :: rest => if arg = [] then some (true, rest) else if arg.head? = some '#' then some (true, []) else none
    else if lower oattrib = "invalid-user" then
      matchCriteria ci true (result && ci.any ConnInfo.userInvalid) rest
    else if isAssigned oattrib then
      if isMissing (assignedArg oattrib) then none
      else
        match criterion env acc ci (assignedName oattrib) (assignedArg oattrib) with
        | none => none
        | some b => matchCriteria ci true (result && b) rest
    else
      match rest with
      | [] => none
      | arg :: rest =>
        if isMissing arg then none
        else
          match criterion env acc ci oattrib arg with
          | none => none
          | some b => matchCriteria ci true (result && b) rest

/-- `match_cfg_line` -/
def matchCfgLine (ci : Option ConnInfo) (args : List Text) : Option (Bool × List Text) :=
  matchCriteria env acc ci false true args

/-! ## Lines that are accepted -/

variable {env acc} {ci : ConnInfo}

theorem textCriterion_complete {absent : Option Bool} {field : ConnInfo → Option Text} {check : Text → Option Bool}
    (hfield : (field ci).isSome) (hcheck : absent.isSome → ∀ value, (check value).isSome)
    (h : (textCriterion absent field check none).isSome) : (textCriterion absent field check (some ci)).isSome := by
  obtain ⟨value, hvalue⟩ := Option.isSome_iff_exists.1 hfield
  rw [textCriterion, hvalue]
  exact hcheck h value

/-- a criterion that is accepted without a connection is accepted with one -/
theorem criterion_complete (hc : ci.Complete) {attrib arg : Text} (h : (criterion env acc none attrib arg).isSome) :
    (criterion env acc (some ci) attrib arg).isSome := by
  have haddr : (if env.addrListValid arg then some false else none).isSome → ∀ addr, (acc.addrMatchList addr arg).isSome := by
    intro hvalid addr
    split at hvalid
    · next hv => exact acc.addrMatchList_valid addr arg hv
    · cases hvalid
  unfold criterion at h ⊢
  split_ifs at h ⊢
  · exact textCriterion_complete hc.user (fun _ _ => rfl) h
  · exact textCriterion_complete hc.user (fun _ _ => rfl) h
  · exact textCriterion_complete hc.host (fun _ _ => rfl) h
  · exact textCriterion_complete hc.address haddr h
  · exact textCriterion_complete hc.laddress haddr h
  · unfold localPortCriterion at h ⊢
    cases hp : env.a2port arg with
    | none => rw [hp] at h; cases h
    | some port =>
      have hpos := hc.lport
      have h1 : ¬(ci.test ∧ ci.lport = -1) := fun h => by omega
      have h2 : ¬ci.lport = 0 := by omega
      simp only [if_neg h1, if_neg h2]
      rfl
  · exact textCriterion_complete hc.rdomain (fun _ _ => rfl) h
  · rfl
  · cases h

theorem criterion_some (hc : ci.Complete) {attrib arg : Text} {b : Bool} (h : criterion env acc none attrib arg = some b) :
    ∃ b', criterion env acc (some ci) attrib arg = some b' :=
  Option.isSome_iff_exists.1 (criterion_complete hc (by rw [h]; rfl))

/-- **Accepted lines.** What is accepted when sshd starts is accepted for a connection of which all is known. -/
theorem matchCriteria_complete (hc : ci.Complete) {seen result result' b : Bool} {args left : List Text}
    (h : matchCriteria env acc none seen result args = some (b, left)) :
    ∃ b', matchCriteria env acc (some ci) seen result' args = some (b', left) := by
  -- a case not named is one in which the line is refused
  fun_induction matchCriteria env acc none seen result args generalizing result' with
  | case1 =>
    cases h
    exact ⟨result', rfl⟩
  | case3 _ _ _ hcomment =>
    cases h
    refine ⟨result', ?_⟩
    rw [matchCriteria.eq_def]
    simp only [if_pos hcomment, if_true]
  | case6 _ _ _ hcomment hall hseen | case7 _ _ _ hcomment hall hseen =>
    cases h
    refine ⟨true, ?_⟩
    rw [matchCriteria.eq_def]
    simp only [if_neg hcomment, if_pos hall, if_neg hseen, if_true]
  | case8 _ _ _ hcomment hall hseen _ _ hne hsharp =>
    cases h
    refine ⟨true, ?_⟩
    rw [matchCriteria.eq_def]
    simp only [if_neg hcomment, if_pos hall, if_neg hseen, if_neg hne, if_pos hsharp]
  | case10 _ _ _ _ hcomment hall hinvalid ih =>
    obtain ⟨b', hb'⟩ := @ih (result' && (some ci).any ConnInfo.userInvalid) h
    refine ⟨b', ?_⟩
    rw [matchCriteria.eq_def]
    simp only [if_neg hcomment, if_neg hall, if_pos hinvalid]
    exact hb'
  | case13 _ _ _ _ hcomment hall hinvalid hassigned hmissing c hcrit ih =>
    obtain ⟨c', hc'⟩ := criterion_some hc hcrit
    obtain ⟨b', hb'⟩ := @ih (result' && c') h
    refine ⟨b', ?_⟩
    rw [matchCriteria.eq_def]
    simp only [if_neg hcomment, if_neg hall, if_neg hinvalid, if_pos hassigned, if_neg hmissing, hc']
    exact hb'
  | case17 _ _ _ hcomment hall hinvalid hassigned _ _ hmissing c hcrit ih =>
    obtain ⟨c', hc'⟩ := criterion_some hc hcrit
    obtain ⟨b', hb'⟩ := @ih (result' && c') h
    refine ⟨b', ?_⟩
    rw [matchCriteria.eq_def]
    simp only [if_neg hcomment, if_neg hall, if_neg hinvalid, if_neg hassigned, if_neg hmissing, hc']
    exact hb'
  | _ => cases h

end

/-! ## Calls on one list -/

/-- a user or group list after calls with these strings: `*tmp = '\\\\'` stays in it -/
def listAfter (pattern : Text) (calls : List Text) : Text := calls.foldl (fun list _ => replaceFirst '/' '\\' list) pattern

/-- what a list is for: every `/` is a backslash, and case does not count -/
def usergroupVerdict (string pattern : Text) : ℤ :=
  matchPatternList (lower string) (pattern.map fun c => if c = '/' then '\\' else c) true

theorem replaceFirst_eq_map {a b : Char} {t : Text} (h : t.count a ≤ 1) :
    replaceFirst a b t = t.map fun c => if c = a then b else c := by
  induction t with
  | nil => rfl
  | cons c t ih =>
    rw [replaceFirst, List.map_cons]
    by_cases hc : c = a
    · have ht : a ∉ t := by
        rw [hc, List.count_cons_self] at h
        exact List.count_eq_zero.1 (by omega)
      have hmap : t.map (fun c => if c = a then b else c) = t := by
        refine (List.map_congr_left fun d hd => ?_).trans (List.map_id t)
        exact if_neg fun he : d = a => ht (he ▸ hd)
      rw [if_pos hc, if_pos hc, hmap]
    · rw [List.count_cons_of_ne hc] at h
      rw [if_neg hc, if_neg hc, ih h]

/-- the list a call looks at, after any calls before it -/
theorem replaceFirst_listAfter {pattern : Text} (h : pattern.count '/' ≤ 1) (calls : List Text) :
    replaceFirst '/' '\\' (listAfter pattern calls) = pattern.map fun c => if c = '/' then '\\' else c := by
  have hmap := replaceFirst_eq_map (b := '\\') h
  have hnone : '/' ∉ replaceFirst '/' '\\' pattern := by
    rw [hmap, List.mem_map]
    rintro ⟨c, -, hc⟩
    split_ifs at hc with h'
    · cases hc
    · exact h' hc
  have hkept : ∀ later : List Text, listAfter (replaceFirst '/' '\\' pattern) later = replaceFirst '/' '\\' pattern := by
    intro later
    induction later with
    | nil => rfl
    | cons _ later ih => rw [listAfter, List.foldl_cons, replaceFirst_of_not_mem hnone, ← listAfter, ih]
  cases calls with
  | nil => exact hmap
  | cons _ later => rw [listAfter, List.foldl_cons, ← listAfter, hkept, replaceFirst_of_not_mem hnone, hmap]

/-- **Calls on one list.** With one `/` at most, a lower-case string gets the verdict of the list after any calls on it, and
the one of a first call. -/
theorem usergroup_calls (pattern : Text) (hslash : pattern.count '/' ≤ 1) (calls : List Text) (string : Text)
    (hlower : lower string = string) :
    matchUsergroupPatternList string (listAfter pattern calls) = usergroupVerdict string pattern ∧
      matchUsergroupPatternList string (listAfter pattern calls) = matchUsergroupPatternList string pattern := by
  have hcall : ∀ calls, matchUsergroupPatternList string (listAfter pattern calls) = usergroupVerdict string pattern := by
    intro calls
    rw [matchUsergroupPatternList, replaceFirst_listAfter hslash, usergroupVerdict, hlower]
  exact ⟨hcall calls, (hcall calls).trans (hcall []).symm⟩

theorem usergroup_calls_domain : matchUsergroupPatternList "corp\\eve" (listAfter "bob,Corp/E*" ["bob", "eve"]) = 1 :=
  (usergroup_calls "bob,Corp/E*" (by decide) ["bob", "eve"] "corp\\eve" (by decide)).1.trans (by decide +kernel)

/-- the second `/` of a list counts from the second call on, and a capital in the string never matches -/
theorem usergroup_second_slash : usergroupVerdict "corp\\bob" "corp/eve,corp/bob" = 1 ∧
      matchUsergroupPatternList "corp\\bob" "corp/eve,corp/bob" = 0 ∧
      matchUsergroupPatternList "corp\\bob" (listAfter "corp/eve,corp/bob" ["eve"]) = 1 ∧
      usergroupVerdict "Bob" "bob" = 1 ∧ matchUsergroupPatternList "Bob" "bob" = 0 := by
  decide +kernel

end OpenSSHServerPN.Servconf
