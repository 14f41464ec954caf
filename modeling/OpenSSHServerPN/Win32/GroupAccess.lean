/-
Group membership on Windows (`win32_groupaccess.c`): `ga_init`, `ga_match`, `ga_match_pattern_list` and `ga_free` over the
static variables of one process.

The variables are `groups_byname` (with `ngroups`), `user_name`, `user_token` and the flag `processed`, local to
`get_user_groups` and kept across `ga_init` and `ga_free`. What Windows answers is a parameter (`Windows`): any directory of
accounts, tokens and groups, with lookups that fail or succeed; a call may also fail for a passing reason (`outage`), and
`fatal` ends the process.

The question is whether an answer depends only on the user of the latest `ga_init`. `freshReply` is the same call's
answer in a new process after one `ga_init` for that user.
- `reply_current_user`: in every run in which each call that needs the whole group list is the first such call of the
  process, or comes after another one made since the latest `ga_init`, every answer is the fresh one (or the call's own
  lookup failed and the process ended).
- `deny_lost_after_match_group`: a `Match Group` line for a user makes a later `DenyGroups adm*` miss them.
-/
import OpenSSHServerPN.Lib.Runs
import OpenSSHServerPN.Match.Pattern

namespace OpenSSHServerPN.GroupAccess

open OpenSSHServerPN.Match

/-! ## What Windows answers -/

/-- a security identifier: identifier authority and sub-authorities -/
structure Sid where
  authority : ℕ
  sub : List ℕ
deriving DecidableEq, Repr

/-- one entry of `TOKEN_GROUPS`: the `SE_GROUP_ENABLED` attribute, `IsValidSid`, the sid -/
structure TokenGroup where
  enabled : Bool
  valid : Bool
  sid : Sid
deriving DecidableEq, Repr

/-- the calls into Windows; `none` is a failed call -/
structure Windows (Token : Type) where
  getUserToken : Text → Option Token
  getComputerName : Option Text
  getTokenGroups : Token → Option (List TokenGroup)
  /-- name and domain of a sid -/
  lookupAccountSid : Sid → Option (Text × Text)
  convertStringSidToSid : Text → Option Sid
  getSid : Text → Option Sid
  /-- a missing token stands for the calling thread's own -/
  checkTokenMembership : Option Token → Sid → Option Bool

def ntAuthority : ℕ := 5
def securityNtNonUnique : ℕ := 21
def securityBuiltinDomainRid : ℕ := 32

/-- the static variables of the process -/
structure St (Token : Type) where
  groupsByname : List Text
  userName : Option Text
  userToken : Option Token
  /-- the flag of `get_user_groups` -/
  processed : Bool
  /-- `fatal` was called -/
  exited : Bool

/-- a process that has called none of the functions -/
def St.new (Token : Type) : St Token := ⟨[], none, none, false, false⟩

/-- what a call returns to its caller -/
inductive Reply where
  | value (n : ℕ)
  | fatal
  /-- the process has ended: there is no call -/
  | gone
deriving DecidableEq, Repr

variable {Token : Type}

/-! ## The functions -/

/-- a builtin group, or a group of a machine or domain -/
def wanted (sid : Sid) : Bool :=
  sid.authority == ntAuthority &&
    (sid.sub.headD 0 == securityNtNonUnique || sid.sub.headD 0 == securityBuiltinDomainRid)

/-- the formatted name: without the domain for builtin groups and groups of this computer; in lower case -/
def formattedGroup (computerName : Text) (sid : Sid) (name domain : Text) : Text :=
  let full :=
    if sid.sub.headD 0 = securityBuiltinDomainRid ∨ computerName.map Char.toLower = domain.map Char.toLower then name
    else domain ++ '\\' :: name
  full.map Char.toLower

/-- the loop over the groups of the token -/
def groupNames (w : Windows Token) (computerName : Text) : List TokenGroup → Option (List Text)
  | [] => some []
  | g :: gs =>
    if g.enabled && g.valid && wanted g.sid then
      match w.lookupAccountSid g.sid with
      | none => none
      | some (name, domain) => (groupNames w computerName gs).map (formattedGroup computerName g.sid name domain :: ·)
    else groupNames w computerName gs

/-- the lookups of `get_user_groups` for a token -/
def fetchGroups (w : Windows Token) (token : Option Token) : Option (List Text) := do
  let computerName ← w.getComputerName
  let token ← token
  let groups ← w.getTokenGroups token
  groupNames w computerName groups

/-- `get_user_groups`: the second component is the return value 0 (`true`) or -1 -/
def getUserGroups (w : Windows Token) (outage : Bool) (s : St Token) : St Token × Bool :=
  if s.processed then (s, true)
  else
    match (if outage then none else fetchGroups w s.userToken) with
    | none => ({ s with processed := true }, false)
    | some names => ({ s with processed := true, groupsByname := names }, true)

/-- the name a sid string stands for, when Windows knows it -/
def localizedName (w : Windows Token) (group : Text) : Text :=
  match w.convertStringSidToSid group with
  | none => group
  | some sid =>
    match w.lookupAccountSid sid with
    | none => group
    | some (name, _) => name

/-- `check_group_membership`; `none` is the `fatal` of a failed `CheckTokenMembership` -/
def checkGroupMembership (w : Windows Token) (token : Option Token) (group : Text) : Option Bool :=
  match w.getSid (localizedName w group) with
  | none => some false
  | some sid => w.checkTokenMembership token sid

/-- the loop of `ga_match` over groups without wildcards -/
def anyMembership (w : Windows Token) (token : Option Token) : List Text → Option Bool
  | [] => some false
  | g :: gs =>
    match checkGroupMembership w token g with
    | none => none
    | some true => some true
    | some false => anyMembership w token gs

/-- the loop of `ga_match` over the fetched groups -/
def anyGroupMatches (names groups : List Text) : Bool := names.any fun n => groups.any fun g => matchPattern n g

/-- the loop of `ga_match_pattern_list`: a negated match ends it -/
def groupsMatchList (pattern : Text) : Bool → List Text → Bool
  | found, [] => found
  | found, n :: ns =>
    match matchPatternList n pattern true with
    | -1 => false
    | 1 => groupsMatchList pattern true ns
    | _ => groupsMatchList pattern found ns

/-- the part shared by the two match functions: fetch the groups, `fatal` when that fails, answer from the names -/
def answerFromList (w : Windows Token) (outage : Bool) (s : St Token) (answer : List Text → Bool) : St Token × Reply :=
  match getUserGroups w outage s with
  | (s', false) => ({ s' with exited := true }, .fatal)
  | (s', true) => (s', .value (answer s'.groupsByname).toNat)

/-- an answer from `check_group_membership` -/
def answerDirect (s : St Token) : Option Bool → St Token × Reply
  | none => ({ s with exited := true }, .fatal)
  | some b => (s, .value b.toNat)

/-- an entry of `AllowGroups` or `DenyGroups` (or of a list of users) as `parse_server_config` leaves it -/
def storedEntry (entry : Text) : Text := lower (replaceFirst '/' '\\' entry)

def hasWildcard (group : Text) : Bool := group.contains '?' || group.contains '*'

/-- `ga_match(groups, n)` -/
def gaMatch (w : Windows Token) (outage : Bool) (groups : List Text) (s : St Token) : St Token × Reply :=
  if groups.any hasWildcard then answerFromList w outage s fun names => anyGroupMatches names groups
  else answerDirect s (anyMembership w s.userToken groups)

def isSingleGroup (pattern : Text) : Bool := !pattern.contains ',' && !hasWildcard pattern && !pattern.contains '!'

/-- `ga_match_pattern_list(group_pattern)`; the list is searched with its first `/` made a backslash -/
def gaMatchPatternList (w : Windows Token) (outage : Bool) (pattern : Text) (s : St Token) : St Token × Reply :=
  if isSingleGroup pattern then answerDirect s (checkGroupMembership w s.userToken pattern)
  else answerFromList w outage s (groupsMatchList (replaceFirst '/' '\\' pattern) false)

/-- `ga_init`: 0 when the user has no token -/
def gaInit (w : Windows Token) (user : Text) (s : St Token) : St Token × Reply :=
  let token := w.getUserToken user
  ({ s with groupsByname := [], userName := some user, userToken := token }, .value token.isSome.toNat)

/-- `ga_free` -/
def gaFree (s : St Token) : St Token × Reply :=
  ({ s with groupsByname := [], userName := none, userToken := none }, .value 0)

/-! ## Runs of calls -/

/-- the calls a process makes; `outage`: a lookup made by this call fails for a passing reason -/
inductive Op where
  | init (user : Text)
  | groups (groups : List Text) (outage : Bool)
  | patternList (pattern : Text) (outage : Bool)
  | free
deriving DecidableEq, Repr

/-- one call; after `fatal` there is no process to call -/
def call (w : Windows Token) (s : St Token) (o : Op) : St Token × Reply :=
  if s.exited then (s, .gone)
  else
    match o with
    | .init user => gaInit w user s
    | .groups gs outage => gaMatch w outage gs s
    | .patternList p outage => gaMatchPatternList w outage p s
    | .free => gaFree s

def step (w : Windows Token) (s : St Token) (o : Op) : St Token := (call w s o).1
def reply (w : Windows Token) (s : St Token) (o : Op) : Reply := (call w s o).2

/-- a match call -/
def isMatch : Op → Bool
  | .groups _ _ => true
  | .patternList _ _ => true
  | _ => false

/-- a match call that cannot be answered by asking about single groups -/
def needsList : Op → Bool
  | .groups gs _ => gs.any hasWildcard
  | .patternList p _ => !isSingleGroup p
  | _ => false

/-- the same call when no lookup fails for a passing reason -/
def withoutOutage : Op → Op
  | .groups gs _ => .groups gs false
  | .patternList p _ => .patternList p false
  | o => o

def outage : Op → Bool
  | .groups _ b => b
  | .patternList _ b => b
  | _ => false

/-- the answer of a call in a new process, after one `ga_init` for `user` -/
def freshReply (w : Windows Token) (user : Text) (o : Op) : Reply :=
  reply w (step w (St.new Token) (.init user)) (withoutOutage o)

/-- what the earlier calls say: the user of the latest `ga_init` (none after `ga_free`), whether a call of the process
needed the list, whether one did since the latest `ga_init` -/
structure Memo where
  user : Option Text
  listed : Bool
  current : Bool
deriving DecidableEq, Repr

def Memo.start : Memo := ⟨none, false, false⟩

def Memo.track (m : Memo) (o : Op) : Memo :=
  match o with
  | .init user => { m with user := some user, current := false }
  | .free => { m with user := none, current := false }
  | o => if needsList o then { m with listed := true, current := true } else m

/-- every call that needs the list is the first of the process, or follows another one since the latest `ga_init` -/
def Timely (ops : List Op) : Prop :=
  Runs.Always Memo.track (fun m o => needsList o = true → m.listed = false ∨ m.current = true) Memo.start ops

def stepBoth (w : Windows Token) (p : St Token × Memo) (o : Op) : St Token × Memo := (step w p.1 o, p.2.track o)

/-- for a match between a `ga_init` and its `ga_free`: the answer is that of a new process with the same user; or a
lookup of this call failed and the process ended; or it had ended before -/
def FreshAnswer (w : Windows Token) (p : St Token × Memo) (o : Op) : Prop :=
  isMatch o = true → ∀ user, p.2.user = some user →
    reply w p.1 o = freshReply w user o ∨ (outage o = true ∧ reply w p.1 o = .fatal) ∨ reply w p.1 o = .gone

/-- every answer of the run depends only on the user of the latest `ga_init` -/
def AnswersFresh (w : Windows Token) (ops : List Op) : Prop :=
  Runs.Always (stepBoth w) (FreshAnswer w) (St.new Token, Memo.start) ops

/-- once a call was `fatal`, no later call is answered -/
def SilentAfterFatal (w : Windows Token) (ops : List Op) : Prop :=
  ∀ pre o mid o' post, ops = pre ++ o :: mid ++ o' :: post → reply w (Runs.run (step w) (St.new Token) pre) o = .fatal →
    reply w (Runs.run (step w) (St.new Token) (pre ++ o :: mid)) o' = .gone

instance (ops : List Op) : Decidable (Timely ops) := by unfold Timely; infer_instance

/-! ## The static variables follow the calls -/

/-- the answer from the fetched names -/
def listAnswer (names : List Text) : Op → Bool
  | .groups gs _ => anyGroupMatches names gs
  | .patternList p _ => groupsMatchList (replaceFirst '/' '\\' p) false names
  | _ => false

/-- the answer from single membership checks -/
def directAnswer (w : Windows Token) (token : Option Token) : Op → Option Bool
  | .groups gs _ => anyMembership w token gs
  | .patternList p _ => checkGroupMembership w token p
  | _ => none

variable (w : Windows Token) (p : St Token × Memo) (s : St Token)

theorem call_match (o : Op) (ho : isMatch o = true) (hs : s.exited = false) :
    call w s o = if needsList o then answerFromList w (outage o) s (fun names => listAnswer names o)
      else answerDirect s (directAnswer w s.userToken o) := by
  cases o with
  | init | free => cases ho
  | groups gs b => simp only [call, hs]; rfl
  | patternList p b =>
    simp only [call, hs, gaMatchPatternList, needsList, outage, listAnswer, directAnswer]
    by_cases h : isSingleGroup p = true <;> simp [h]

/-- the process has ended, or its variables are those of the current user -/
structure Inv (w : Windows Token) (p : St Token × Memo) : Prop where
  token : p.1.userToken = p.2.user.bind w.getUserToken
  processed : p.1.processed = p.2.listed
  current : p.2.current = true → p.2.listed = true ∧ fetchGroups w p.1.userToken = some p.1.groupsByname
  stale : p.2.current = false → p.1.groupsByname = []

theorem inv_start : Inv w (St.new Token, Memo.start) :=
  ⟨rfl, rfl, by simp [Memo.start], fun _ => rfl⟩

/-- what `get_user_groups` does for a call made at an admissible moment: the names are those of the current user, or
the lookups failed -/
theorem getUserGroups_timely (b : Bool) (p : St Token × Memo) (h : Inv w p)
    (ht : p.2.listed = false ∨ p.2.current = true) : (∃ names, fetchGroups w p.1.userToken = some names ∧
        getUserGroups w b p.1 = ({ p.1 with processed := true, groupsByname := names }, true)) ∨
      ((b = true ∨ fetchGroups w p.1.userToken = none) ∧ ∃ s', getUserGroups w b p.1 = (s', false)) := by
  unfold getUserGroups
  cases hl : p.2.listed with
  | false =>
    rw [h.processed, hl]
    cases hb : b with
    | true => exact .inr ⟨.inl rfl, _, rfl⟩
    | false =>
      cases hf : fetchGroups w p.1.userToken with
      | none => exact .inr ⟨.inr rfl, _, rfl⟩
      | some names => exact .inl ⟨names, rfl, rfl⟩
  | true =>
    have hc : p.2.current = true := by
      rcases ht with ht | ht
      · rw [hl] at ht; cases ht
      · exact ht
    obtain ⟨-, hf⟩ := h.current hc
    have hp : p.1.processed = true := h.processed.trans hl
    refine .inl ⟨p.1.groupsByname, hf, ?_⟩
    rw [if_pos hp, ← hp]

/-- the answer as a function of the token alone -/
def tokenReply (w : Windows Token) (token : Option Token) (o : Op) : Reply :=
  if needsList o then
    match fetchGroups w token with
    | none => .fatal
    | some names => .value (listAnswer names o).toNat
  else
    match directAnswer w token o with
    | none => .fatal
    | some b => .value b.toNat

/-- **What a match answers.** At an admissible moment the answer is a function of the user's token, unless a lookup of
this call fails for a passing reason and ends the process. -/
theorem reply_timely (o : Op) (h : Inv w p) (hs : p.1.exited = false)
    (ho : isMatch o = true) (ht : needsList o = true → p.2.listed = false ∨ p.2.current = true) :
    reply w p.1 o = tokenReply w p.1.userToken o ∨ (outage o = true ∧ reply w p.1 o = .fatal) := by
  unfold reply tokenReply
  rw [call_match w p.1 o ho hs]
  cases hn : needsList o with
  | false =>
    left
    cases directAnswer w p.1.userToken o <;> rfl
  | true =>
    simp only [if_true, answerFromList]
    rcases getUserGroups_timely w (outage o) p h (ht hn) with ⟨names, hf, hg⟩ | ⟨hwhy, s', hg⟩
    · left
      rw [hg, hf]
    · rw [hg]
      rcases hwhy with hb | hf
      · exact .inr ⟨hb, rfl⟩
      · left; rw [hf]

theorem freshReply_eq (user : Text) (o : Op) (ho : isMatch o = true) :
    freshReply w user o = tokenReply w (w.getUserToken user) o := by
  have hinv : Inv w (stepBoth w (St.new Token, Memo.start) (.init user)) :=
    ⟨rfl, rfl, by simp [stepBoth, Memo.track], fun _ => rfl⟩
  have ho' : isMatch (withoutOutage o) = true := by cases o <;> first | rfl | cases ho
  rcases reply_timely w _ (withoutOutage o) hinv rfl ho' (fun _ => .inl rfl) with h | ⟨hb, -⟩
  · cases o <;> exact h
  · cases o <;> cases hb

theorem exited_stays (o : Op) (hs : s.exited = true) : step w s o = s ∧ reply w s o = .gone := by
  simp [step, reply, call, hs]

theorem step_inv (o : Op) (ht : needsList o = true → p.2.listed = false ∨ p.2.current = true)
    (h : p.1.exited = true ∨ Inv w p) : (stepBoth w p o).1.exited = true ∨ Inv w (stepBoth w p o) := by
  cases hs : p.1.exited with
  | true => left; simp only [stepBoth, (exited_stays w p.1 o hs).1, hs]
  | false =>
    have hi : Inv w p := by
      rcases h with h | h
      · rw [hs] at h; cases h
      · exact h
    cases ho : isMatch o with
    | false =>
      right
      cases o with
      | init | free =>
        simp only [stepBoth, step, call, hs, Memo.track]
        exact ⟨rfl, hi.processed, by simp [gaFree], fun _ => rfl⟩
      | groups | patternList => cases ho
    | true =>
      have htrack : p.2.track o = if needsList o then { p.2 with listed := true, current := true } else p.2 := by
        cases o <;> first | rfl | cases ho
      simp only [stepBoth, step, call_match w p.1 o ho hs, htrack]
      cases hn : needsList o with
      | false =>
        cases directAnswer w p.1.userToken o with
        | none => left; rfl
        | some b => right; exact hi
      | true =>
        simp only [if_true, answerFromList]
        rcases getUserGroups_timely w (outage o) p hi (ht hn) with ⟨names, hf, hg⟩ | ⟨-, s', hg⟩
        · right
          rw [hg]
          exact ⟨hi.token, rfl, fun _ => ⟨rfl, hf⟩, by simp⟩
        · left
          rw [hg]

theorem fatal_exits (o : Op) (h : reply w s o = .fatal) : (step w s o).exited = true := by
  cases hs : s.exited with
  | true => rw [(exited_stays w s o hs).2] at h; cases h
  | false =>
    cases ho : isMatch o with
    | false =>
      cases o with
      | init user => simp [reply, call, hs, gaInit] at h
      | free => simp [reply, call, hs, gaFree] at h
      | groups | patternList => cases ho
    | true =>
      unfold reply at h
      unfold step
      rw [call_match w s o ho hs] at h ⊢
      split_ifs at h ⊢ with hn
      · unfold answerFromList at h ⊢
        split at h
        · rfl
        · cases h
      · cases hd : directAnswer w s.userToken o with
        | none => rfl
        | some b => rw [hd] at h; cases h

theorem run_exited (ops : List Op) (hs : s.exited = true) : (Runs.run (step w) s ops).exited = true :=
  Runs.run_inv_all (I := fun s : St Token => s.exited = true) (fun s o h => by rw [(exited_stays w s o h).1]; exact h) ops hs

/-! ## Answers depend only on the current user -/

/-- **Group decisions depend only on the current user**, in every run in which each call that needs the whole list is
the first one of the process or follows another one since the latest `ga_init`. In every run, a failed lookup ends the
process, so it is never taken for a user without groups. -/
theorem reply_current_user (w : Windows Token) (ops : List Op) (ht : Timely ops) :
    AnswersFresh w ops ∧ SilentAfterFatal w ops := by
  refine ⟨?_, ?_⟩
  · refine Runs.always_of_inv
      (fun p o h hp => step_inv w p o hp h) ?_ ops (.inr (inv_start w))
      (Runs.always_proj (s := (St.new Token, Memo.start)) Prod.snd (fun _ _ => rfl) ops ht)
    intro p o h hp ho user hu
    cases hs : p.1.exited with
    | true => exact .inr (.inr (exited_stays w p.1 o hs).2)
    | false =>
      have hi : Inv w p := by
        rcases h with h | h
        · rw [hs] at h; cases h
        · exact h
      rw [freshReply_eq w user o ho]
      have htok : p.1.userToken = w.getUserToken user := by rw [hi.token, hu]; rfl
      rw [← htok]
      rcases reply_timely w p o hi hs ho hp with h | h
      · exact .inl h
      · exact .inr (.inl h)
  · intro pre o mid o' post _ hfatal
    rw [Runs.run_append]
    exact (exited_stays w _ o' (run_exited w _ mid (fatal_exits w _ o hfatal))).2

/-! ## A deny list that stops matching -/

/-- one user, in the local group Admins -/
def oneAdmin : Windows Unit where
  getUserToken _ := some ()
  getComputerName := some "HOST"
  getTokenGroups _ := some [⟨true, true, ⟨5, [21, 1, 2, 3, 1001]⟩⟩]
  lookupAccountSid _ := some ("Admins", "HOST")
  convertStringSidToSid _ := none
  getSid _ := none
  checkTokenMembership _ _ := some false

/-- a `Match Group ops,adm*` line, then the login check of `DenyGroups adm*` -/
def matchThenDeny : List Op :=
  [.init "bob", .patternList "ops,adm*" false, .free, .init "bob", .groups ["adm*"] false, .free]

/-- **The deny list is lost**: after the `Match Group` line the `DenyGroups` check misses the user's group -/
theorem deny_lost_after_match_group : ¬ AnswersFresh oneAdmin matchThenDeny := by
  intro h
  have h1 := Runs.always_split h [.init "bob", .patternList "ops,adm*" false, .free, .init "bob"]
    (.groups ["adm*"] false) [.free] rfl
  have h2 := h1 rfl "bob" rfl
  revert h2
  decide

/-- a `Match Group ops` line for one user, then the lists for another -/
def singleThenLists : List Op :=
  [.init "alice", .patternList "ops" false, .free, .init "bob", .groups ["adm*"] false, .groups ["a*"] false, .free]

theorem reply_current_user_one_list : Timely singleThenLists ∧ AnswersFresh oneAdmin singleThenLists :=
  ⟨by decide, (reply_current_user oneAdmin _ (by decide)).1⟩

end OpenSSHServerPN.GroupAccess
