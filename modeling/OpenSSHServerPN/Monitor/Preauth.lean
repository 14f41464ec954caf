/-
The monitor before authentication (`monitor.c`: `monitor_child_preauth`, `monitor_read` and its handlers), in a build without
PAM, GSSAPI and BSD authentication.

Model: a request is its type and its body, as the unprivileged child sends them, together with what the world answers while
it is handled (`World`): accounts, passwords, keys, signatures. `answer` is the handler of a type; `none` is the end of the
process, by `fatal` or by a null pointer. `step` is one turn of the loop: the check of the permission, the handler, the
table entry that may be used only once, and the decision whether the loop is left.

The handlers read the body with the readers of `Lib.Wire`. What `monitor_valid_userblob` counts as a failure ends the process
as a parse error does, so that both are a reader that fails. Memory is not exhausted, and writing to the child succeeds; a
child that has gone sends nothing.

The state keeps the ledger `successes`: the method of every request that authenticated.

Results:
- `step_cases`: what one request can do; all later results are derived from it.
-/
import OpenSSHServerPN.Auth.Options
import OpenSSHServerPN.Auth.Userauth
import OpenSSHServerPN.Packet.State

namespace OpenSSHServerPN.Monitor

open Wire Packet Userauth AuthOptions

/-! ## Requests -/

/-- the requests of `mon_dispatch_proto20` -/
inductive ReqType where
  | state
  | moduli
  | setcompat
  | sign
  | pwnam
  | authserv
  | auth2ReadBanner
  | authpassword
  | keyallowed
  | keyverify
deriving DecidableEq, Repr

/-- `enum monitor_reqtype` -/
def ReqType.ofByte (b : UInt8) : Option ReqType :=
  [(51, ReqType.state), (0, .moduli), (18, .setcompat), (6, .sign), (8, .pwnam), (4, .authserv), (10, .auth2ReadBanner),
    (12, .authpassword), (22, .keyallowed), (24, .keyverify)].lookup b

/-- `MON_ONCE` -/
def ReqType.once : ReqType → Bool
  | .authpassword | .keyallowed | .keyverify => false
  | _ => true

/-- `MON_AUTHDECIDE` -/
def ReqType.authDecide : ReqType → Bool
  | .authpassword | .keyverify => true
  | _ => false

/-- `MON_AUTH`, one of the two flags -/
def ReqType.auth : ReqType → Bool
  | .authpassword | .keyallowed | .keyverify => true
  | _ => false

/-! ## The world -/

inductive PermitRoot where
  | no
  | forcedOnly
  | noPasswd
  | yes
deriving DecidableEq, Repr

/-- the options the monitor consults -/
structure Options where
  passwordAuthentication : Bool
  pubkeyAuthentication : Bool
  hostbasedAuthentication : Bool
  kbdInteractiveAuthentication : Bool
  permitEmptyPasswd : Bool
  permitRootLogin : PermitRoot
  authMethods : List Text
  maxAuthtries : ℕ
  pubkeyAcceptedAlgos : Text
  hostbasedAcceptedAlgos : Text
  touchRequired : Bool
  verifyRequired : Bool
  refuseConnection : Bool

/-- what the lists of methods depend on -/
def Options.config (o : Options) : Config where
  authMethods := o.authMethods
  enabled := fun
    | .publickey => o.pubkeyAuthentication
    | .password => o.passwordAuthentication
    | .keyboardInteractive => o.kbdInteractiveAuthentication
    | .hostbased => o.hostbasedAuthentication
    | _ => false
  maxAuthtries := o.maxAuthtries
  devices := []
  devices_comma := nofun

structure Passwd where
  name : Bytes
  uid : ℕ
deriving DecidableEq

/-- `fakepw`; it has no privileges -/
def fakepw : Passwd := ⟨"NOUSER".toUTF8.toList, 2 ^ 32 - 1⟩

/-- keys as `sshkey.c` reads and writes them -/
structure KeyFormat (Key : Type) where
  /-- `sshkey_froms` -/
  froms : Get Key
  toBlob : Key → Option Bytes
  fromBlob : Bytes → Option Key
  equalPublic : Key → Key → Bool
  /-- `key_base_type_match` -/
  baseTypeMatch : Key → Text → Bool

/-- flags of a signature by a security key -/
structure SigDetails where
  userPresence : Bool
  userVerification : Bool

/-- what the world answers during a request -/
structure World (Key : Type) where
  /-- `get_hostkey_index` -/
  hostkeyIndex : Key → Option ℕ
  /-- the public host key of an index, as it is written into a proof -/
  hostkeyBlob : ℕ → Bytes
  /-- a host key signs, here or by the agent -/
  signs : ℕ → Bytes → Bool
  /-- `getpwnamallow`: the account, and the options for the user -/
  getpwnamallow : Bytes → Option Passwd × Options
  windowsPasswordAuth : Bytes → Bytes → Bool
  /-- `user_key_allowed` with the options of the key -/
  userKeyAllowed : Passwd → Key → Bool → Option SshAuthOpt
  hostbasedKeyAllowed : Passwd → Bytes → Bytes → Key → Bool
  /-- `sshkey_verify`; `none` is a wrong signature -/
  sshkeyVerify : Key → Bytes → Bytes → Option Bytes → UInt32 → Option (Option SigDetails)

structure Event (Key : Type) where
  type : UInt8
  body : Bytes
  world : World Key

/-! ## State -/

inductive Status where
  | running
  /-- the loop of `monitor_child_preauth` was left -/
  | left
  | dead
deriving DecidableEq, Repr

inductive KeyKind where
  | user (opts : SshAuthOpt)
  | host (cuser chost : Bytes)

/-- `key_blob` and what is stored with it -/
structure AllowedKey where
  blob : Bytes
  kind : KeyKind

/-- what the handlers work on -/
structure Base (Key : Type) where
  /-- `MON_PERMIT` -/
  permit : ReqType → Bool
  options : Options
  compatSet : Bool
  compat : UInt32
  /-- `session_id2`, empty if there is none -/
  sessionId : Bytes
  /-- `hostkey_proofs_done` -/
  proofsDone : List ℕ
  attempt : ℕ
  user : Bytes
  style : Option Bytes
  pw : Option Passwd
  valid : Bool
  prevKeys : List Key
  allowedKey : Option AllowedKey
  /-- `auth_opts`; `none` is a null pointer -/
  authOpts : Option SshAuthOpt
  /-- the calls of `mm_answer_authpassword` -/
  callCount : ℕ

structure State (Key : Type) where
  base : Base Key
  /-- `authctxt->auth_methods` -/
  lists : List Text
  failures : ℕ
  successes : List (Method × Option Text)
  status : Status

section
variable {Key : Type}

/-- `monitor_permit` -/
def Base.setPermit (s : Base Key) (t : ReqType) (permit : Bool) : Base Key :=
  { s with permit := Function.update s.permit t permit }

/-- `monitor_permit_authentications` -/
def Base.permitAuthentications (s : Base Key) : Base Key := { s with permit := fun t => t.auth || s.permit t }

def State.die (s : State Key) : State Key := { s with status := .dead }

/-- the monitor enters its loop -/
def start (options : Options) : State Key where
  base :=
    { permit := fun t => t = .state || t = .moduli || t = .setcompat || t = .sign
      options := options
      compatSet := false
      compat := 0
      sessionId := []
      proofsDone := []
      attempt := 0
      user := []
      style := none
      pw := none
      valid := false
      prevKeys := []
      allowedKey := none
      authOpts := some sshauthoptNewWithKeysDefaults
      callCount := 0 }
  lists := []
  failures := 0
  successes := []
  status := .running

/-! ## Reading the requests -/

/-- the value of a reader; what follows it is not looked at -/
def readBody {α : Type} (g : Get α) (body : Bytes) : Option α := (g body).map Prod.fst

def readModuli : Get (UInt32 × UInt32 × UInt32) := do
  let min ← getU32
  let want ← getU32
  let max ← getU32
  guard (¬(max < min ∨ want < min ∨ max < want))
  pure (min, want, max)

/-- the host key, the data to be signed, the algorithm and the compat bits of a SIGN request -/
def readSign (F : KeyFormat Key) : Get (Key × Bytes) := do
  let pubkey ← F.froms
  let p ← getStr
  let _ ← getCstring
  let _ ← getU32
  pure (pubkey, p)

/-- the style of an AUTHSERV request; an empty one is none -/
def readAuthserv : Get (Option Bytes) := do
  let _ ← getCstring
  let style ← getCstring
  pure (if style = [] then none else some style)

structure KeyallowedRequest (Key : Type) where
  type : UInt32
  cuser : Bytes
  chost : Bytes
  key : Key
  attempt : Bool

def readKeyallowed (F : KeyFormat Key) : Get (KeyallowedRequest Key) := do
  let type ← getU32
  let cuser ← getCstring
  let chost ← getCstring
  let key ← F.froms
  let attempt ← getU32
  pure ⟨type, cuser, chost, key, attempt ≠ 0⟩

structure KeyverifyRequest where
  blob : Bytes
  signature : Bytes
  data : Bytes
  /-- an empty one is none -/
  sigalg : Option Bytes

def readKeyverify : Get KeyverifyRequest := do
  let blob ← getStr
  let signature ← getStr
  let data ← getStr
  let sigalg ← getCstring
  pure ⟨blob, signature, data, if sigalg = [] then none else some sigalg⟩

/-! ## Signed data -/

def SSH2_MSG_USERAUTH_REQUEST : UInt8 := 50

def SSH_OLD_SESSIONID : UInt32 := 0x10

def bytesOf (t : String) : Bytes := t.toUTF8.toList

/-- the session id in front of the data of a user key; with old peers it stands without its length -/
def getSessionId (compat : UInt32) (length : ℕ) : Get Bytes :=
  if compat &&& SSH_OLD_SESSIONID ≠ 0 then getBytes length else getStr

/-- the user and the style of the session -/
def userstyle (user : Bytes) (style : Option Bytes) : Bytes := user ++ (style.map (bytesOf ":" ++ ·)).getD []

/-- the session id, the message type and the user in front of signed data -/
def signedFor (sessionIdReader : Get Bytes) : Get (Bytes × UInt8 × Bytes) := do
  let p ← sessionIdReader
  let type ← getU8
  let cp ← getCstring
  pure (p, type, cp)

/-- the data is for this session and this user -/
def checkSignedFor (s : Base Key) (sessionIdReader : Get Bytes) : Get Unit := do
  let (p, type, cp) ← signedFor sessionIdReader
  guard (s.sessionId ≠ [] ∧ p = s.sessionId)
  guard (type = SSH2_MSG_USERAUTH_REQUEST)
  guard (cp = userstyle s.user s.style)

/-- `monitor_valid_userblob` -/
def validUserblob (F : KeyFormat Key) (w : World Key) (s : Base Key) : Get Unit := do
  checkSignedFor s (getSessionId s.compat s.sessionId.length)
  let _ ← getStr
  let method ← getCstring
  guard (method = bytesOf "publickey" ∨ method = bytesOf "publickey-hostbound-v00@openssh.com")
  let type ← getU8
  guard (type ≠ 0)
  let _ ← getStr
  let _ ← getStr
  if method = bytesOf "publickey" then pure ()
  else do
    let hostkey ← F.froms
    guard (w.hostkeyIndex hostkey).isSome

/-- a trailing dot of a host name is stripped -/
def stripDot (host : Bytes) : Bytes := if host.getLast? = some 46 then host.dropLast else host

/-- `monitor_valid_hostbasedblob` -/
def validHostbasedblob (s : Base Key) (cuser chost : Bytes) : Get Unit := do
  checkSignedFor s getStr
  let _ ← getStr
  let method ← getCstring
  guard (method = bytesOf "hostbased")
  let _ ← getStr
  let _ ← getStr
  let host ← getCstring
  guard (stripDot host = chost)
  let user ← getCstring
  guard (user = cuser)

/-- the data of a signature is valid for the key that was allowed -/
def validData (F : KeyFormat Key) (w : World Key) (s : Base Key) (kind : KeyKind) (data : Bytes) : Bool :=
  match kind with
  | .user _ => (whole (validUserblob F w s) data).isSome
  | .host cuser chost => (whole (validHostbasedblob s cuser chost) data).isSome

/-! ## Handlers -/

/-- what a handler leaves: the state, whether it authenticates, and `auth_method` (`none` is `unknown`) -/
structure Answer (Key : Type) where
  base : Base Key
  authenticated : Bool
  method : Option Method

/-- a handler that cannot authenticate -/
def plain (s : Base Key) : Option (Answer Key) := some ⟨s, false, none⟩

/-- the proof of a host key for this session -/
def hostkeyProof (w : World Key) (s : Base Key) (keyid : ℕ) : Bytes :=
  putString (bytesOf "hostkeys-prove-00@openssh.com") ++ putString s.sessionId ++ putString (w.hostkeyBlob keyid)

/-- the length of the hash of a key exchange -/
def isHashLength (n : ℕ) : Bool := n = 20 || n = 32 || n = 48 || n = 64

/-- `mm_answer_sign` -/
def answerSign (F : KeyFormat Key) (w : World Key) (s : Base Key) (body : Bytes) : Option (Answer Key) := do
  guard (s.compatSet = true)
  let (pubkey, p) ← readBody (readSign F) body
  let keyid ← w.hostkeyIndex pubkey
  guard (isHashLength p.length = true ∨ (s.sessionId ≠ [] ∧ keyid ∉ s.proofsDone ∧ p = hostkeyProof w s keyid))
  let s := if isHashLength p.length then s else { s with proofsDone := keyid :: s.proofsDone }
  let s := if s.sessionId = [] then { s with sessionId := p } else s
  guard (w.signs keyid p = true)
  plain (s.setPermit .pwnam true)

/-- `auth2_setup_methods_lists` takes the pseudo method `any` out of the options -/
def Options.normalise (o : Options) : Options := { o with authMethods := o.config.methodLists }

/-- `mm_answer_pwnamallow` -/
def answerPwnamallow (w : World Key) (s : Base Key) (body : Bytes) : Option (Answer Key) := do
  guard (s.compatSet = true)
  guard (s.attempt = 0)
  let user ← readBody getCstring body
  let (pw, options) := w.getpwnamallow user
  guard (options.refuseConnection = false)
  let s := { s with
    attempt := s.attempt + 1
    user := user
    pw := some (pw.getD fakepw)
    valid := pw.isSome
    options := options.normalise }
  plain ((s.setPermit .authserv true).setPermit .auth2ReadBanner true)

/-- `mm_answer_authserv` -/
def answerAuthserv (s : Base Key) (body : Bytes) : Option (Answer Key) := do
  let style ← readBody readAuthserv body
  plain { s.permitAuthentications with style := style }

def MAX_PASSWORD_LEN : ℕ := 1024

/-- `auth_password` -/
def authPassword (w : World Key) (s : Base Key) (pw : Passwd) (password : Bytes) : Bool :=
  if MAX_PASSWORD_LEN < password.length then false
  else if password = [] ∧ s.options.permitEmptyPasswd = false then false
  else w.windowsPasswordAuth pw.name password && s.valid && !(pw.uid = 0 && s.options.permitRootLogin ≠ .yes)

/-- `mm_answer_authpassword` -/
def answerAuthpassword (w : World Key) (s : Base Key) (body : Bytes) : Option (Answer Key) := do
  guard (s.options.passwordAuthentication = true)
  let passwd ← readBody getCstring body
  -- `plen` is the length on the wire: the text leaves a final null character out
  let plen ← (readBody getStr body).map List.length
  let pw ← s.pw
  let method := if plen = 0 ∧ s.callCount = 0 then Method.none else .password
  some ⟨{ s with callCount := s.callCount + 1 }, authPassword w s pw passwd, some method⟩

def MM_HOSTKEY : UInt32 := 1

def MM_USERKEY : UInt32 := 2

/-- the checks of both kinds of keys before the key is looked up -/
def keyUsable (F : KeyFormat Key) (s : Base Key) (enabled : Bool) (algos : Text) (key : Key) : Bool :=
  enabled && !s.prevKeys.any (F.equalPublic key) && F.baseTypeMatch key algos

/-- whether a key is allowed; the outer `none` is an unknown type of key -/
def keyAllowed (F : KeyFormat Key) (w : World Key) (s : Base Key) (pw : Passwd) (r : KeyallowedRequest Key) :
    Option (Option KeyKind × Option Method) :=
  if s.valid = false then some (none, none)
  else if r.type = MM_USERKEY then
    some (if keyUsable F s s.options.pubkeyAuthentication s.options.pubkeyAcceptedAlgos r.key then
      (w.userKeyAllowed pw r.key r.attempt).map .user else none, some .publickey)
  else if r.type = MM_HOSTKEY then
    some (if keyUsable F s s.options.hostbasedAuthentication s.options.hostbasedAcceptedAlgos r.key &&
        w.hostbasedKeyAllowed pw r.cuser r.chost r.key then some (.host r.cuser r.chost) else none, some .hostbased)
  else none

/-- `mm_answer_keyallowed` -/
def answerKeyallowed (F : KeyFormat Key) (w : World Key) (s : Base Key) (body : Bytes) : Option (Answer Key) := do
  let r ← readBody (readKeyallowed F) body
  let pw ← s.pw
  let (kind, method) ← keyAllowed F w s pw r
  match kind with
  | none => some ⟨{ s with allowedKey := none }, false, method⟩
  | some kind =>
    let blob ← F.toBlob r.key
    some ⟨{ s with allowedKey := some ⟨blob, kind⟩ }, false, method⟩

/-- a security key has to say what the options ask for -/
def touchOk (o : Options) (opts : SshAuthOpt) (d : SigDetails) : Bool :=
  (d.userPresence || !(o.touchRequired || opts.noRequireUserPresence = 0)) &&
    (d.userVerification || !(o.verifyRequired || opts.requireVerify ≠ 0))

/-- `ret == 0` in `mm_answer_keyverify` -/
def signatureOk (w : World Key) (s : Base Key) (kind : KeyKind) (key : Key) (r : KeyverifyRequest) : Bool :=
  match w.sshkeyVerify key r.signature r.data r.sigalg s.compat, kind with
  | none, _ => false
  | some (some d), .user opts => touchOk s.options opts d
  | some _, _ => true

/-- the method of a kind of key -/
def KeyKind.method : KeyKind → Method
  | .user _ => .publickey
  | .host _ _ => .hostbased

/-- `auth_activate_options`: the new pointer; the old one must not be null -/
def activateOptions (authOpts : Option SshAuthOpt) (opts : SshAuthOpt) : Option (Option SshAuthOpt) :=
  match authOpts with
  | none => none
  | some old =>
    match merge old opts with
    | .ok merged => some (some merged)
    | .error _ => some none

/-- `mm_answer_keyverify`; the answer of `auth_activate_options` is not looked at -/
def answerKeyverify (F : KeyFormat Key) (w : World Key) (s : Base Key) (body : Bytes) : Option (Answer Key) := do
  let r ← readBody readKeyverify body
  let allowed ← s.allowedKey
  guard (allowed.blob = r.blob)
  let key ← F.fromBlob r.blob
  guard (validData F w s allowed.kind r.data = true)
  let s := { s with allowedKey := none }
  if signatureOk w s allowed.kind key r then
    let s := { s with prevKeys := s.prevKeys ++ [key] }
    match allowed.kind with
    | .host _ _ => some ⟨s, true, some .hostbased⟩
    | .user opts =>
      let authOpts ← activateOptions s.authOpts opts
      some ⟨{ s with authOpts := authOpts }, true, some .publickey⟩
  else some ⟨s, false, some allowed.kind.method⟩

/-- the handlers of `mon_dispatch_proto20` -/
def answer (F : KeyFormat Key) (w : World Key) (s : Base Key) (body : Bytes) : ReqType → Option (Answer Key)
  | .state => plain s
  | .moduli => (readBody readModuli body).bind fun _ => plain s
  | .setcompat => (readBody getU32 body).bind fun compat => plain { s with compatSet := true, compat := compat }
  | .sign => answerSign F w s body
  | .pwnam => answerPwnamallow w s body
  | .authserv => answerAuthserv s body
  | .auth2ReadBanner => plain s
  | .authpassword => answerAuthpassword w s body
  | .keyallowed => answerKeyallowed F w s body
  | .keyverify => answerKeyverify F w s body

/-! ## The loop -/

/-- `auth_root_allowed`; `none`: it follows a null pointer -/
def rootAllowed (s : Base Key) (method : Option Method) : Option Bool :=
  match s.options.permitRootLogin with
  | .yes => some true
  | .noPasswd => some (method = some .publickey || method = some .hostbased || method = some .gssapiWithMic)
  | .forcedOnly => s.authOpts.map fun opts => opts.forceCommand.isSome
  | .no => some false

/-- the lists after a request that authenticated: whether that is all, and the lists; `none`: the method is in no list -/
def updateLists (s : State Key) (method : Option Method) : Option (Bool × List Text) :=
  if s.base.options.authMethods = [] then some (true, s.lists)
  else
    match updateMethodsLists ((method.map Method.name).getD "unknown") none s.lists false with
    | (.complete, lists) => some (true, lists)
    | (.partially, lists) => some (false, lists)
    | (.notFound, _) => none

/-- the count of failures, and its limit -/
def countFailure (s : State Key) (failed : Bool) : State Key :=
  let failures := if failed then s.failures + 1 else s.failures
  { s with failures := failures, status := if s.base.options.maxAuthtries < failures then .dead else s.status }

/-- `authctxt->pw->pw_uid == 0 && !auth_root_allowed(...)`; `none`: it follows a null pointer -/
def rootRefused (s : Base Key) (method : Option Method) : Option Bool := do
  let pw ← s.pw
  if pw.uid = 0 then (rootAllowed s method).map (!·) else some false

/-- a request that authenticated -/
def finishSuccess (s : State Key) (t : ReqType) (method : Option Method) : State Key :=
  match updateLists s method with
  | none => s.die
  | some (done, lists) =>
    let s := { s with lists := lists, successes := s.successes ++ (method.map fun m => (m, none)).toList }
    if done = false then countFailure s false
    else if t.authDecide = false then s.die
    else
      match rootRefused s.base method with
      | none => s.die
      | some true => countFailure s true
      | some false => { s with status := .left }

def MONITOR_MAX_MSGLEN : ℕ := 4 * 1024 * 1024

/-- the state after the handler: an entry that may be used once is used, and PWNAM sets the lists up -/
def State.handled (s : State Key) (t : ReqType) (base : Base Key) : State Key :=
  { s with
    base := if t.once then base.setPermit t false else base
    lists := if t = .pwnam then base.options.config.enabledLists else s.lists }

/-- one turn of the loop of `monitor_child_preauth` -/
def step (F : KeyFormat Key) (s : State Key) (e : Event Key) : State Key :=
  if s.status ≠ .running then s
  else if MONITOR_MAX_MSGLEN < e.body.length + 1 then s.die
  else
    match ReqType.ofByte e.type with
    | none => s.die
    | some t =>
      if s.base.permit t = false then s.die
      else
        match answer F e.world s.base e.body t with
        | none => s.die
        | some a =>
          if a.authenticated then finishSuccess (s.handled t a.base) t a.method
          else countFailure (s.handled t a.base) t.authDecide

/-! ## What one request can do -/

/-- a request of a type -/
def Event.Is (e : Event Key) (t : ReqType) : Prop := ReqType.ofByte e.type = some t

variable {s : State Key}

theorem countFailure_status {failed : Bool} (h : (countFailure s failed).status ≠ .dead) :
    (countFailure s failed).status = s.status := if_neg fun hlimit => h (if_pos hlimit)

variable {t : ReqType} {method : Option Method}

theorem finishSuccess_spec
    (h : (finishSuccess s t method).status ≠ .dead) :
    ∃ done lists, updateLists s method = some (done, lists) ∧ (finishSuccess s t method).base = s.base ∧
      (finishSuccess s t method).lists = lists ∧
      (finishSuccess s t method).successes = s.successes ++ (method.map fun m => (m, none)).toList ∧
      ((finishSuccess s t method).status = s.status ∨
        (finishSuccess s t method).status = .left ∧ done = true ∧ t.authDecide = true) := by
  unfold finishSuccess at h ⊢
  cases hu : updateLists s method with
  | none => rw [hu] at h; exact absurd rfl h
  | some u =>
    obtain ⟨done, lists⟩ := u
    rw [hu] at h
    refine ⟨done, lists, rfl, ?_⟩
    dsimp only at h ⊢
    split at h
    · next hdone =>
      rw [if_pos hdone]
      exact ⟨rfl, rfl, rfl, Or.inl (countFailure_status h)⟩
    next hdone =>
    rw [if_neg hdone]
    split at h
    · exact absurd rfl h
    next hdecide =>
    rw [if_neg hdecide]
    split at h
    · exact absurd rfl h
    · exact ⟨rfl, rfl, rfl, Or.inl (countFailure_status h)⟩
    · exact ⟨rfl, rfl, rfl, Or.inr ⟨rfl, by simpa using hdone, by simpa using hdecide⟩⟩

/-- what a request that does not end the process has done -/
inductive Turn (F : KeyFormat Key) (s s' : State Key) (e : Event Key) (t : ReqType) (a : Answer Key) : Prop where
  /-- it did not authenticate -/
  | failed (hauth : a.authenticated = false) (hbase : s'.base = (s.handled t a.base).base)
      (hlists : s'.lists = (s.handled t a.base).lists) (hsuccesses : s'.successes = s.successes) (hstatus : s'.status = .running)
  /-- it authenticated; the loop is left only if the lists are done and the type decides -/
  | succeeded (done : Bool) (hauth : a.authenticated = true) (hbase : s'.base = (s.handled t a.base).base)
      (hlists : updateLists (s.handled t a.base) a.method = some (done, s'.lists))
      (hsuccesses : s'.successes = s.successes ++ (a.method.map fun m => (m, none)).toList)
      (hstatus : s'.status = .running ∨ s'.status = .left ∧ done = true ∧ t.authDecide = true)

/-- **One request.** It was permitted, its handler answered, and the loop decided. -/
theorem step_cases {F : KeyFormat Key} {e : Event Key} (hs : s.status = .running)
    (h : (step F s e).status ≠ .dead) :
    ∃ t a, e.Is t ∧ s.base.permit t = true ∧ answer F e.world s.base e.body t = some a ∧ Turn F s (step F s e) e t a := by
  have hdead : s.die.status = .dead := rfl
  unfold step at h ⊢
  rw [if_neg (not_not_intro hs)] at h ⊢
  split at h
  · exact absurd hdead h
  next hlen =>
  rw [if_neg hlen]
  split at h
  · exact absurd hdead h
  next t ht =>
  split at h
  · exact absurd hdead h
  next hpermit =>
  rw [if_neg hpermit]
  split at h
  · exact absurd hdead h
  next a ha =>
  refine ⟨t, a, ht, by simpa using hpermit, ha, ?_⟩
  split at h
  · next hauth =>
    rw [if_pos hauth]
    obtain ⟨done, lists, hu, hbase, hlists, hsucc, hstatus⟩ := finishSuccess_spec h
    subst hlists
    exact .succeeded done hauth hbase hu hsucc (hstatus.imp_left fun h => h.trans hs)
  · next hauth =>
    rw [if_neg hauth]
    exact .failed (by simpa using hauth) rfl rfl rfl ((countFailure_status h).trans hs)

/-! ## What the handlers leave -/

theorem bind_some {α β : Type} {x : Option α} {f : α → Option β} {b : β} (h : (x >>= f) = some b) :
    ∃ a, x = some a ∧ f a = some b := Option.bind_eq_some_iff.1 h

theorem guard_some {β : Type} {p : Prop} [Decidable p] {f : Unit → Option β} {b : β} (h : (guard p >>= f) = some b) :
    p ∧ f () = some b := by
  by_cases hp : p
  · rw [guard, if_pos hp] at h
    exact ⟨hp, h⟩
  · rw [guard, if_neg hp] at h
    cases h

section
variable {F : KeyFormat Key} {w : World Key} {b : Base Key} {body : Bytes} {a : Answer Key}

theorem answerSign_some (h : answerSign F w b body = some a) :
    b.compatSet = true ∧ ∃ key p done, readBody (readSign F) body = some (key, p) ∧ (b.sessionId = [] → p ≠ []) ∧
      a = ⟨{ b with proofsDone := done, sessionId := if b.sessionId = [] then p else b.sessionId }.setPermit .pwnam true,
        false, none⟩ := by
  obtain ⟨hset, h⟩ := guard_some h
  obtain ⟨⟨pubkey, p⟩, hread, h⟩ := bind_some h
  obtain ⟨keyid, -, h⟩ := bind_some h
  obtain ⟨hlength, h⟩ := guard_some h
  obtain ⟨-, h⟩ := guard_some h
  refine ⟨hset, pubkey, p, if isHashLength p.length then b.proofsDone else keyid :: b.proofsDone, hread, ?_, ?_⟩
  · rintro hsid rfl
    rcases hlength with hlength | ⟨hne, -⟩
    · cases hlength
    · exact hne hsid
  · cases h
    by_cases hhash : isHashLength p.length = true <;> by_cases hsid : b.sessionId = [] <;> simp [hhash, hsid]

theorem answerPwnamallow_some (h : answerPwnamallow w b body = some a) :
    b.compatSet = true ∧ b.attempt = 0 ∧ ∃ user, readBody getCstring body = some user ∧ a = ⟨(({ b with
          attempt := b.attempt + 1
          user := user
          pw := some ((w.getpwnamallow user).1.getD fakepw)
          valid := (w.getpwnamallow user).1.isSome
          options := (w.getpwnamallow user).2.normalise } : Base Key).setPermit .authserv true).setPermit .auth2ReadBanner true,
        false, none⟩ := by
  obtain ⟨hset, h⟩ := guard_some h
  obtain ⟨hattempt, h⟩ := guard_some h
  obtain ⟨user, huser, h⟩ := bind_some h
  obtain ⟨-, h⟩ := guard_some h
  cases h
  exact ⟨hset, hattempt, user, huser, rfl⟩

theorem answerAuthserv_some (h : answerAuthserv b body = some a) :
    ∃ style, readBody readAuthserv body = some style ∧ a = ⟨{ b.permitAuthentications with style := style }, false, none⟩ := by
  obtain ⟨style, hstyle, h⟩ := bind_some h
  cases h
  exact ⟨style, hstyle, rfl⟩

theorem answerAuthpassword_some (h : answerAuthpassword w b body = some a) :
    b.options.passwordAuthentication = true ∧ ∃ passwd wire pw, readBody getCstring body = some passwd ∧
      readBody getStr body = some wire ∧ b.pw = some pw ∧
      a = ⟨{ b with callCount := b.callCount + 1 }, authPassword w b pw passwd,
        some (if wire.length = 0 ∧ b.callCount = 0 then Method.none else .password)⟩ := by
  obtain ⟨henabled, h⟩ := guard_some h
  obtain ⟨passwd, hread, h⟩ := bind_some h
  obtain ⟨plen, hlen, h⟩ := bind_some h
  obtain ⟨wire, hwire, rfl⟩ := Option.map_eq_some_iff.1 hlen
  obtain ⟨pw, hpw, h⟩ := bind_some h
  cases h
  exact ⟨henabled, passwd, wire, pw, hread, hwire, hpw, rfl⟩

theorem keyAllowed_some {pw : Passwd} {r : KeyallowedRequest Key} {kind : KeyKind}
    (h : keyAllowed F w b pw r = some (some kind, method)) : b.valid = true ∧
      ((∃ opts, kind = .user opts ∧ r.type = MM_USERKEY ∧ w.userKeyAllowed pw r.key r.attempt = some opts) ∨
        (kind = .host r.cuser r.chost ∧ r.type = MM_HOSTKEY ∧ w.hostbasedKeyAllowed pw r.cuser r.chost r.key = true)) := by
  unfold keyAllowed at h
  split at h
  · cases h
  next hvalid =>
  refine ⟨by simpa using hvalid, ?_⟩
  split at h
  · next htype =>
    left
    split at h
    · cases hopts : w.userKeyAllowed pw r.key r.attempt with
      | none => rw [hopts] at h; cases h
      | some opts =>
        rw [hopts] at h
        cases h
        exact ⟨opts, rfl, htype, rfl⟩
    · cases h
  · split at h
    · next htype =>
      right
      split at h
      · next hallowed =>
        cases h
        exact ⟨rfl, htype, (Bool.and_eq_true_iff.1 hallowed).2⟩
      · cases h
    · cases h

theorem answerKeyallowed_some (h : answerKeyallowed F w b body = some a) :
    a.authenticated = false ∧ ∃ allowed, a.base = { b with allowedKey := allowed } ∧
      ∀ k, allowed = some k → b.valid = true ∧ ∃ r pw, readBody (readKeyallowed F) body = some r ∧ b.pw = some pw ∧
        F.toBlob r.key = some k.blob ∧
          ((∃ opts, k.kind = .user opts ∧ r.type = MM_USERKEY ∧ w.userKeyAllowed pw r.key r.attempt = some opts) ∨
            (k.kind = .host r.cuser r.chost ∧ r.type = MM_HOSTKEY ∧
              w.hostbasedKeyAllowed pw r.cuser r.chost r.key = true)) := by
  obtain ⟨r, hread, h⟩ := bind_some h
  obtain ⟨pw, hpw, h⟩ := bind_some h
  obtain ⟨⟨kind, method⟩, hallowed, h⟩ := bind_some h
  cases kind with
  | none =>
    cases h
    exact ⟨rfl, none, rfl, fun k hk => by cases hk⟩
  | some kind =>
    obtain ⟨blob, hblob, h⟩ := bind_some h
    cases h
    refine ⟨rfl, some ⟨blob, kind⟩, rfl, ?_⟩
    intro k hk
    cases hk
    obtain ⟨hvalid, hkind⟩ := keyAllowed_some hallowed
    exact ⟨hvalid, r, pw, hread, hpw, hblob, hkind⟩

theorem answerKeyverify_some (h : answerKeyverify F w b body = some a) :
    ∃ r allowed key, readBody readKeyverify body = some r ∧ b.allowedKey = some allowed ∧ allowed.blob = r.blob ∧
      F.fromBlob r.blob = some key ∧ validData F w b allowed.kind r.data = true ∧
      a.authenticated = signatureOk w b allowed.kind key r ∧ a.method = some allowed.kind.method ∧
      ∃ prevKeys authOpts, a.base = { b with allowedKey := none, prevKeys := prevKeys, authOpts := authOpts } ∧
        ((∀ opts, a.authenticated = true → allowed.kind ≠ .user opts) → authOpts = b.authOpts) ∧
        (∀ opts, a.authenticated = true → allowed.kind = .user opts → activateOptions b.authOpts opts = some authOpts) := by
  obtain ⟨r, hread, h⟩ := bind_some h
  obtain ⟨allowed, hallowed, h⟩ := bind_some h
  obtain ⟨hblob, h⟩ := guard_some h
  obtain ⟨key, hkey, h⟩ := bind_some h
  obtain ⟨hdata, h⟩ := guard_some h
  refine ⟨r, allowed, key, hread, hallowed, hblob, hkey, hdata, ?_⟩
  have hsame : signatureOk w { b with allowedKey := none } allowed.kind key r = signatureOk w b allowed.kind key r := rfl
  dsimp only at h
  rw [hsame] at h
  cases hok : signatureOk w b allowed.kind key r with
  | false =>
    rw [hok] at h
    cases h
    exact ⟨rfl, rfl, _, _, rfl, fun _ => rfl, fun _ hfalse => by cases hfalse⟩
  | true =>
    rw [hok] at h
    cases hkind : allowed.kind with
    | host cuser chost =>
      rw [hkind] at h
      cases h
      exact ⟨rfl, rfl, _, _, rfl, fun _ => rfl, fun _ _ hhost => by cases hhost⟩
    | user opts =>
      rw [hkind] at h
      obtain ⟨authOpts, hact, h⟩ := bind_some h
      cases h
      refine ⟨rfl, rfl, _, _, rfl, fun hother => absurd rfl (hother opts rfl), ?_⟩
      intro opts' _ heq
      cases heq
      exact hact

/-- whom a session is for: the account, and what its requests have fixed -/
structure Session where
  pw : Passwd
  compat : UInt32
  sid : Bytes
  user : Bytes
  style : Option Bytes

def Base.session (b : Base Key) : Option Session := b.pw.map fun pw => ⟨pw, b.compat, b.sessionId, b.user, b.style⟩

/-- what a handler leaves as it was -/
structure Answered (t : ReqType) (b : Base Key) (a : Answer Key) : Prop where
  /-- only PWNAM sets the options, starts a user and permits AUTHSERV -/
  keeps : t ≠ .pwnam → a.base.options = b.options ∧ a.base.attempt = b.attempt ∧
    a.base.permit .authserv = b.permit .authserv
  /-- the session is fixed by SETCOMPAT, the first SIGN, PWNAM and AUTHSERV -/
  session : t ≠ .setcompat → t ≠ .pwnam → t ≠ .authserv → b.sessionId ≠ [] → a.base.session = b.session
  /-- only passwords and signatures authenticate -/
  authenticated : a.authenticated = true → (t = .authpassword ∨ t = .keyverify) ∧ ∃ m, a.method = some m
  /-- only KEYVERIFY touches the options of the key -/
  authOpts : t ≠ .keyverify → a.base.authOpts = b.authOpts

theorem Answered.same (hopt : a.base.options = b.options) (hatt : a.base.attempt = b.attempt)
    (hpermit : a.base.permit .authserv = b.permit .authserv) (hkey : a.base.authOpts = b.authOpts)
    (hfalse : a.authenticated = false)
    (hsession : t ≠ .setcompat → t ≠ .authserv → b.sessionId ≠ [] → a.base.session = b.session) : Answered t b a :=
  ⟨fun _ => ⟨hopt, hatt, hpermit⟩, fun h1 _ h2 => hsession h1 h2, fun h => absurd (h.symm.trans hfalse) (by simp), fun _ => hkey⟩

theorem answered (ha : answer F w b body t = some a) : Answered t b a := by
  cases t with
  | state | auth2ReadBanner => cases ha; exact .same rfl rfl rfl rfl rfl fun _ _ _ => rfl
  | moduli =>
    obtain ⟨_, -, ha⟩ := bind_some ha
    cases ha
    exact .same rfl rfl rfl rfl rfl fun _ _ _ => rfl
  | setcompat =>
    obtain ⟨_, -, ha⟩ := bind_some ha
    cases ha
    exact .same rfl rfl rfl rfl rfl fun h => absurd rfl h
  | sign =>
    obtain ⟨-, _, _, _, -, -, rfl⟩ := answerSign_some ha
    refine .same rfl rfl rfl rfl rfl fun _ _ hsid => ?_
    simp only [Base.session, Base.setPermit, if_neg hsid]
  | pwnam =>
    obtain ⟨-, -, _, -, rfl⟩ := answerPwnamallow_some ha
    exact ⟨absurd rfl, fun _ h => absurd rfl h, fun h => (by cases h), fun _ => rfl⟩
  | authserv =>
    obtain ⟨_, -, rfl⟩ := answerAuthserv_some ha
    exact .same rfl rfl rfl rfl rfl fun _ h => absurd rfl h
  | authpassword =>
    obtain ⟨-, _, _, _, -, -, -, rfl⟩ := answerAuthpassword_some ha
    exact ⟨fun _ => ⟨rfl, rfl, rfl⟩, fun _ _ _ _ => rfl, fun _ => ⟨Or.inl rfl, _, rfl⟩, fun _ => rfl⟩
  | keyallowed =>
    obtain ⟨hfalse, _, hbase, -⟩ := answerKeyallowed_some ha
    exact .same (by rw [hbase]) (by rw [hbase]) (by rw [hbase]) (by rw [hbase]) hfalse fun _ _ _ => by rw [hbase]; rfl
  | keyverify =>
    obtain ⟨_, _, _, -, -, -, -, -, -, hmethod, _, _, hbase, -⟩ := answerKeyverify_some ha
    exact ⟨fun _ => by simp [hbase], fun _ _ _ _ => by rw [hbase]; rfl, fun _ => ⟨Or.inr rfl, _, hmethod⟩, absurd rfl⟩

end

end

end OpenSSHServerPN.Monitor
