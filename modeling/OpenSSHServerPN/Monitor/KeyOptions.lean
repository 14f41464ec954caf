/-
Options of keys in the monitor and in the child (`monitor.c`: `mm_answer_keyverify`; `auth.c`: `auth_activate_options`;
`auth-options.c`: `sshauthopt_serialise`; `auth2-pubkey.c`: `userauth_pubkey`).

With `AuthenticationMethods publickey,publickey` two keys are verified in one login, and the options of both are merged.
`sshauthopt_merge` fails if both force a command, and not the same. `auth_activate_options` then leaves a null pointer in
`auth_opts`, and `mm_answer_keyverify` does not look at its answer: the key is reported as authenticated, and the monitor goes
on with a null pointer.

The child merges too, but the options it is sent have the forced command `true` in place of the command of the key
(`untrusted`), so that its merge never fails: it agrees with every report of the monitor.

Results:
- `child_accepts`: the child accepts every key that the monitor reports;
- `key_options_in_force_iff`: over every run, each report leaves options that hold those of the key, exactly if no two
  different forced commands meet;
- `conflicting_keys_accepted`: two keys with different forced commands are both reported, and the loop is left.
-/
import OpenSSHServerPN.Monitor.Preauth

namespace OpenSSHServerPN.Monitor

open Wire Packet Userauth AuthOptions Runs

variable {Key : Type} {F : KeyFormat Key}

/-! ## The child -/

/-- a flag as one byte -/
def flagByte (x : ℤ) : ℤ := x % 256

/-- the options that `sshauthopt_serialise` sends to the child, as they are read there -/
def untrusted (opts : SshAuthOpt) : SshAuthOpt where
  permitPortForwardingFlag := flagByte opts.permitPortForwardingFlag
  permitAgentForwardingFlag := flagByte opts.permitAgentForwardingFlag
  permitX11ForwardingFlag := flagByte opts.permitX11ForwardingFlag
  permitPtyFlag := flagByte opts.permitPtyFlag
  permitUserRc := flagByte opts.permitUserRc
  restricted := flagByte opts.restricted
  validBefore := opts.validBefore
  certAuthority := flagByte opts.certAuthority
  certPrincipals := some "yes"
  forceTunDevice := if opts.forceTunDevice = -1 then -1 else if opts.forceTunDevice < 0 then 0 else opts.forceTunDevice
  forceCommand := some "true"
  env := []
  permitopen := []
  permitlisten := []
  requiredFromHostCert := none
  requiredFromHostKeys := none
  noRequireUserPresence := flagByte opts.noRequireUserPresence
  requireVerify := flagByte opts.requireVerify

/-- the options of a user key that is reported as authenticated by this request -/
def reported (F : KeyFormat Key) (s : State Key) (e : Event Key) : Option SshAuthOpt :=
  if s.status = .running ∧ e.body.length + 1 ≤ MONITOR_MAX_MSGLEN ∧ ReqType.ofByte e.type = some .keyverify ∧
      s.base.permit .keyverify = true then
    match answer F e.world s.base e.body .keyverify, s.base.allowedKey with
    | some a, some ⟨_, .user opts⟩ => if a.authenticated then some opts else none
    | _, _ => none
  else none

/-- the monitor and `auth_opts` of the child -/
structure Processes (Key : Type) where
  monitor : State Key
  child : Option SshAuthOpt

/-- both have the defaults -/
def launch (options : Options) : Processes Key := ⟨start options, some sshauthoptNewWithKeysDefaults⟩

/-- a request; `userauth_pubkey` activates the options of a key that is reported -/
def exchange (F : KeyFormat Key) (p : Processes Key) (e : Event Key) : Processes Key where
  monitor := step F p.monitor e
  child :=
    match reported F p.monitor e with
    | none => p.child
    | some opts => (activateOptions p.child (untrusted opts)).getD none

/-! ## Reports -/

theorem finishSuccess_base (s : State Key) (t : ReqType) (method : Option Method) : (finishSuccess s t method).base = s.base := by
  unfold finishSuccess
  split
  · rfl
  dsimp only
  split
  · rfl
  · split
    · rfl
    · split <;> rfl

variable {e : Event Key}

theorem step_authOpts_of_reported {s : State Key} {opts : SshAuthOpt} (h : reported F s e = some opts) :
    activateOptions s.base.authOpts opts = some (step F s e).base.authOpts := by
  unfold reported at h
  split at h
  · next hready =>
    obtain ⟨hrun, hlen, htype, hpermit⟩ := hready
    split at h
    · next a blob opts' ha hallowed =>
      split at h
      · next hauth =>
        cases h
        obtain ⟨_, k, _, -, hk, -, -, -, -, -, prevKeys, authOpts, hbase, -, hact⟩ := answerKeyverify_some ha
        rw [hallowed] at hk
        cases hk
        have hstep : (step F s e).base = a.base := by
          unfold step
          rw [if_neg (not_not_intro hrun), if_neg (by omega)]
          simp only [htype, hpermit, Bool.true_eq_false, if_false, ha, hauth, if_true]
          rw [finishSuccess_base]
          rfl
        rw [hstep, hbase]
        exact hact opts hauth rfl
      · cases h
    · cases h
  · cases h

theorem step_authOpts_of_not_reported {s : State Key} (h : reported F s e = none) :
    (step F s e).base.authOpts = s.base.authOpts := by
  unfold step
  split
  · rfl
  next hrun =>
  split
  · rfl
  split
  · rfl
  next t htype =>
  split
  · rfl
  next hpermit =>
  split
  · rfl
  next a ha =>
  have hused : ∀ b : Base Key, (if t.once then b.setPermit t false else b).authOpts = b.authOpts := by
    intro b
    split <;> rfl
  have hbase : a.base.authOpts = s.base.authOpts := by
    by_cases ht : t = .keyverify
    · subst ht
      obtain ⟨_, k, _, -, hk, -, -, -, -, -, prevKeys, authOpts, hbase, hkeep, -⟩ := answerKeyverify_some ha
      rw [hbase]
      refine hkeep fun opts hauth hkind => ?_
      -- it would be reported
      obtain ⟨blob, kind⟩ := k
      obtain rfl : kind = .user opts := hkind
      unfold reported at h
      rw [if_pos ⟨not_not.1 hrun, by omega, htype, by simpa using hpermit⟩, ha, hk] at h
      simp only [hauth] at h
      cases h
    · exact (answered ha).authOpts ht
  split
  · rw [finishSuccess_base]
    exact (hused a.base).trans hbase
  · exact (hused a.base).trans hbase

/-! ## Forced commands -/

/-- two forced commands are the same, or there is at most one -/
def Agree (c d : Option Text) : Prop := ∀ x ∈ c, ∀ y ∈ d, x = y

theorem mergeForceCommand_ok {c d : Option Text} : (∃ r, mergeForceCommand c d = .ok r) ↔ Agree c d := by
  cases c with
  | none => exact iff_of_true ⟨d, rfl⟩ (by intro x hx; cases hx)
  | some x =>
    cases d with
    | none => exact iff_of_true ⟨some x, rfl⟩ (by intro _ _ y hy; cases hy)
    | some y =>
      unfold mergeForceCommand
      dsimp only
      by_cases hxy : x = y
      · rw [if_pos hxy]
        refine iff_of_true ⟨_, rfl⟩ ?_
        intro x' hx' y' hy'
        cases hx'
        cases hy'
        exact hxy
      · rw [if_neg hxy]
        refine iff_of_false (by rintro ⟨r, hr⟩; cases hr) ?_
        intro hagree
        exact hxy (hagree x rfl y rfl)

theorem merge_ok_iff {p a : SshAuthOpt} : (∃ r, merge p a = .ok r) ↔ Agree p.forceCommand a.forceCommand := by
  rw [← mergeForceCommand_ok]
  unfold merge
  cases mergeForceCommand p.forceCommand a.forceCommand with
  | error e => exact iff_of_false (by rintro ⟨r, hr⟩; cases hr) (by rintro ⟨r, hr⟩; cases hr)
  | ok c => exact iff_of_true ⟨_, rfl⟩ ⟨c, rfl⟩

/-- options that hold those of a key: its merge with what was in force before -/
def Incorporates (old : Option SshAuthOpt) (opts : SshAuthOpt) (new : Option SshAuthOpt) : Prop :=
  ∃ o r, old = some o ∧ merge o opts = .ok r ∧ new = some r ∧ Confines r o ∧ Confines r opts

/-! ## The child agrees -/

/-- the options of the child force nothing but `true` -/
def ChildOk (child : Option SshAuthOpt) : Prop := ∃ c, child = some c ∧ ∀ x ∈ c.forceCommand, x = "true"

/-- **The child accepts every key that is reported.** -/
theorem child_accepts {child : Option SshAuthOpt} (h : ChildOk child) (opts : SshAuthOpt) :
    ∃ c, activateOptions child (untrusted opts) = some (some c) ∧ ChildOk (some c) := by
  obtain ⟨c, rfl, hc⟩ := h
  obtain ⟨r, hr⟩ : ∃ r, merge c (untrusted opts) = .ok r := by
    refine merge_ok_iff.2 ?_
    intro x hx y hy
    cases hy
    exact hc x hx
  refine ⟨r, by rw [activateOptions, hr], r, rfl, ?_⟩
  obtain ⟨command, hcommand, hforce, -⟩ := merge_ok hr
  rw [hforce]
  intro x hx
  cases hf : c.forceCommand with
  | none =>
    rw [hf] at hcommand
    cases hcommand
    cases hx
    rfl
  | some y =>
    rw [hf] at hcommand
    unfold mergeForceCommand at hcommand
    dsimp only [untrusted] at hcommand
    split at hcommand
    · cases hcommand
      cases hx
      exact hc _ hf
    · cases hcommand

/-! ## Options in force -/

/-- what a request has to leave: the options of a key that is reported are in force, and the child accepts the key -/
def InForce (F : KeyFormat Key) (p : Processes Key) (e : Event Key) : Prop :=
  ∀ opts, reported F p.monitor e = some opts →
    Incorporates p.monitor.base.authOpts opts (exchange F p e).monitor.base.authOpts ∧ (exchange F p e).child ≠ none

/-- a key that is reported forces no other command than the one in force -/
def SameCommand (F : KeyFormat Key) (p : Processes Key) (e : Event Key) : Prop :=
  ∀ opts, reported F p.monitor e = some opts → ∀ old ∈ p.monitor.base.authOpts, Agree old.forceCommand opts.forceCommand

/-- the state before a request: both have options -/
structure Sound (p : Processes Key) : Prop where
  monitor : p.monitor.base.authOpts ≠ none
  child : ChildOk p.child

variable {p : Processes Key}

theorem inForce_iff (hp : Sound p) (e : Event Key) : InForce F p e ↔ SameCommand F p e := by
  constructor
  · intro h opts hopts old hold
    obtain ⟨⟨o, r, ho, hr, -⟩, -⟩ := h opts hopts
    rw [ho] at hold
    cases hold
    exact merge_ok_iff.1 ⟨r, hr⟩
  · intro h opts hopts
    obtain ⟨old, hold⟩ := Option.ne_none_iff_exists'.1 hp.monitor
    obtain ⟨r, hr⟩ := merge_ok_iff.2 (h opts hopts old hold)
    have hact := step_authOpts_of_reported hopts
    have hnew : (step F p.monitor e).base.authOpts = some r := by
      rw [hold, activateOptions, hr] at hact
      exact (Option.some.inj hact).symm
    refine ⟨⟨old, r, hold, hr, hnew, merge_confines hr⟩, ?_⟩
    obtain ⟨c, hchild, -⟩ := child_accepts hp.child opts
    unfold exchange
    simp [hopts, hchild]

/-- a request after which the options of its key are in force leaves a sound state -/
theorem Sound.after (hp : Sound p) (h : InForce F p e) : Sound (exchange F p e) := by
  cases hr : reported F p.monitor e with
  | none =>
    refine ⟨?_, ?_⟩
    · show (step F p.monitor e).base.authOpts ≠ none
      rw [step_authOpts_of_not_reported hr]
      exact hp.monitor
    · unfold exchange
      simp only [hr]
      exact hp.child
  | some opts =>
    obtain ⟨⟨_, r, -, -, hnew, -⟩, -⟩ := h opts hr
    refine ⟨by rw [hnew]; simp, ?_⟩
    obtain ⟨c, hact, hc⟩ := child_accepts hp.child opts
    unfold exchange
    simp only [hr, hact]
    exact hc

theorem always_inForce_iff (hp : Sound p) (es : List (Event Key)) :
    Always (exchange F) (InForce F) p es ↔ Always (exchange F) (SameCommand F) p es := by
  induction es generalizing p with
  | nil => exact Iff.rfl
  | cons e es ih =>
    constructor
    · rintro ⟨h, hrest⟩
      exact ⟨(inForce_iff hp e).1 h, (ih (hp.after h)).1 hrest⟩
    · rintro ⟨h, hrest⟩
      have hforce := (inForce_iff hp e).2 h
      exact ⟨hforce, (ih (hp.after hforce)).2 hrest⟩

/-- **Options in force.** In every run, each key that is reported leaves options that hold its own, and the child accepts it,
exactly if no key that is reported forces another command than the one in force. -/
theorem key_options_in_force_iff (F : KeyFormat Key) (options : Options) (es : List (Event Key)) :
    Always (exchange F) (InForce F) (launch options) es ↔ Always (exchange F) (SameCommand F) (launch options) es :=
  always_inForce_iff ⟨by simp [launch, start], _, rfl, by intro x hx; cases hx⟩ es

/-! ## Two keys -/

/-- keys of one byte -/
def byteFormat : KeyFormat UInt8 := ⟨getU8, fun k => some [k], fun blob => blob.head?, fun k k' => k = k', fun _ _ => true⟩

/-- two public keys are asked for -/
def twoKeys : Options where
  passwordAuthentication := false
  pubkeyAuthentication := true
  hostbasedAuthentication := false
  kbdInteractiveAuthentication := false
  permitEmptyPasswd := false
  permitRootLogin := .no
  authMethods := ["publickey,publickey"]
  maxAuthtries := 6
  pubkeyAcceptedAlgos := []
  hostbasedAcceptedAlgos := []
  touchRequired := false
  verifyRequired := false
  refuseConnection := false

/-- every key is in the file, with its own forced command -/
def ownCommand (k : UInt8) : SshAuthOpt :=
  { sshauthoptNewWithKeysDefaults with forceCommand := some [Char.ofNat k.toNat] }

def keyWorld : World UInt8 where
  hostkeyIndex := fun _ => some 0
  hostkeyBlob := fun _ => []
  signs := fun _ _ => true
  getpwnamallow := fun user => (some ⟨user, 1000⟩, twoKeys)
  windowsPasswordAuth := fun _ _ => false
  userKeyAllowed := fun _ key _ => some (ownCommand key)
  hostbasedKeyAllowed := fun _ _ _ _ => false
  sshkeyVerify := fun _ _ _ _ _ => some none

/-- the data of a signature for the user `bob` -/
def signedData : Bytes :=
  putString (List.replicate 32 1) ++ ([50] ++ (putString [98, 111, 98] ++ (putString [] ++ (putString (bytesOf "publickey") ++
    ([1] ++ (putString [] ++ putString []))))))

/-- a key is allowed and verified -/
def useKey (k : UInt8) : List (Event UInt8) :=
  [⟨22, [0, 0, 0, 2] ++ (putString [] ++ (putString [] ++ ([k] ++ [0, 0, 0, 1]))), keyWorld⟩,
    ⟨24, putString [k] ++ (putString [] ++ (putString signedData ++ putString [])), keyWorld⟩]

/-- the requests before authentication -/
def opening : List (Event UInt8) :=
  [⟨18, [0, 0, 0, 0], keyWorld⟩,
    ⟨6, [9] ++ (putString (List.replicate 32 1) ++ (putString [] ++ [0, 0, 0, 0])), keyWorld⟩,
    ⟨8, putString [98, 111, 98], keyWorld⟩, ⟨4, putString [] ++ putString [], keyWorld⟩]

/-- **Conflicting keys are accepted.** Two keys with different forced commands: the second is reported, the loop is left,
and the monitor has no options. -/
theorem conflicting_keys_accepted :
    reported byteFormat (run (exchange byteFormat) (launch twoKeys) (opening ++ useKey 65 ++ (useKey 66).take 1)).monitor
        ⟨24, putString [66] ++ (putString [] ++ (putString signedData ++ putString [])), keyWorld⟩ = some (ownCommand 66) ∧
      (run (exchange byteFormat) (launch twoKeys) (opening ++ useKey 65 ++ useKey 66)).monitor.status = .left ∧
      (run (exchange byteFormat) (launch twoKeys) (opening ++ useKey 65 ++ useKey 66)).monitor.base.authOpts = none ∧
      (run (exchange byteFormat) (launch twoKeys) (opening ++ useKey 65 ++ useKey 66)).child ≠ none := by
  decide +kernel

end OpenSSHServerPN.Monitor
