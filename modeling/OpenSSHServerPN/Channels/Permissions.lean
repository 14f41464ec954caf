/-
Permissions for forwarding (`channels.c`).

There are two directions: local forwarding (a connection is opened here for the peer) and remote forwarding (a listener is
opened here for the peer). For each there is a set with the entries of the user, the entries of the administrator, and
`all_permitted`. The entries are edited by the calls of `Call`; a request is decided by `channel_connect_to_port`,
`channel_connect_to_path` or `check_rfwd_permission`.

`Names` says what an entry is meant to permit: a host and a port, the path of a socket to connect to, a host and a port to listen
on, or a path to listen on. `Granted` is the decision as it is meant: everything or an entry of the user, and no entries of the
administrator or one of them.

The decision of the code is that, but for sockets to listen on: `remote_open_match` answers 1 for every entry if the request has
a path ("XXX add ACLs for streamlocal"). So an entry for a port permits all paths, and the entry that `channel_disable_admin`
leaves behind, which names nothing, permits them too.

Results:
- `openMatch_iff`, `remoteOpenMatch_iff`: the entries match what they name;
- `admin_of_disabled`: while forwarding is disabled, the administrator's list is the one entry that names nothing;
- `forwarding_decision_iff`: after every run of calls, a request is decided as it is meant and is refused while its direction is
  disabled, exactly if it has no path to listen on, or there is no entry it could match by mistake;
- `disabled_listener_allowed`: a socket is opened although remote forwarding is disabled.
-/
import OpenSSHServerPN.Match.Glob

namespace OpenSSHServerPN.Forwarding

open Match

/-! ## The sets -/

def FWD_PERMIT_ANY_PORT : ℤ := 0

def FWD_PERMIT_ANY_HOST : Text := "*"

def PORT_STREAMLOCAL : ℤ := -2

def INT_MAX : ℕ := 2 ^ 31 - 1

/-- `FORWARD_ADM`, `FORWARD_USER` -/
inductive Who where
  | adm | user
  deriving DecidableEq, Repr

/-- `FORWARD_LOCAL`, `FORWARD_REMOTE` -/
inductive Where where
  | loc | rem
  deriving DecidableEq, Repr

/-- `struct permission`; `downstream` is the channel of a client of the multiplexer -/
structure Permission where
  hostToConnect : Option Text
  portToConnect : ℤ
  listenHost : Option Text
  listenPath : Option Text
  listenPort : ℤ
  downstream : Option ℕ
  deriving DecidableEq, Repr

/-- `fwd_perm_clear` -/
def fwdPermClear : Permission := ⟨none, 0, none, none, 0, none⟩

/-- `struct permission_set` -/
structure PermissionSet where
  permittedUser : List Permission
  permittedAdmin : List Permission
  allPermitted : Bool
  deriving DecidableEq, Repr

structure Perms where
  localPerms : PermissionSet
  remotePerms : PermissionSet
  deriving DecidableEq, Repr

/-- `channel_init_channels` -/
def channelInit : Perms := ⟨⟨[], [], false⟩, ⟨[], [], false⟩⟩

/-- `permission_set_get` -/
def Perms.get (s : Perms) : Where → PermissionSet
  | .loc => s.localPerms
  | .rem => s.remotePerms

def Perms.update (s : Perms) (w : Where) (f : PermissionSet → PermissionSet) : Perms :=
  match w with
  | .loc => { s with localPerms := f s.localPerms }
  | .rem => { s with remotePerms := f s.remotePerms }

/-- `permission_set_get_array` -/
def PermissionSet.array (p : PermissionSet) : Who → List Permission
  | .adm => p.permittedAdmin
  | .user => p.permittedUser

def PermissionSet.setArray (p : PermissionSet) (who : Who) (entries : List Permission) : PermissionSet :=
  match who with
  | .adm => { p with permittedAdmin := entries }
  | .user => { p with permittedUser := entries }

/-- `permission_set_add`; `none` is the `fatal` of an overflow -/
def permissionSetAdd (s : Perms) (who : Who) (w : Where) (perm : Permission) : Option Perms :=
  if ((s.get w).array who).length ≥ INT_MAX then none
  else some (s.update w fun p => p.setArray who (p.array who ++ [perm]))

/-! ## Calls that edit them -/

/-- `struct Forward` -/
structure Forward where
  listenHost : Option Text
  listenPort : ℤ
  listenPath : Option Text
  connectHost : Option Text
  connectPort : ℤ
  connectPath : Option Text
  allocatedPort : ℤ
  deriving DecidableEq, Repr

/-- `channel_permit_all` -/
def channelPermitAll (s : Perms) (w : Where) : Perms :=
  s.update w fun p => if p.permittedUser.length = 0 then { p with allPermitted := true } else p

/-- `channel_add_permission` -/
def channelAddPermission (s : Perms) (who : Who) (w : Where) (host : Text) (port : ℤ) : Option Perms :=
  let perm : Permission :=
    match w with
    | .loc => ⟨some host, port, none, none, 0, none⟩
    | .rem => ⟨none, 0, some host, none, port, none⟩
  (permissionSetAdd s who w perm).map fun s => s.update w fun p => { p with allPermitted := false }

/-- `channel_clear_permission` -/
def channelClearPermission (s : Perms) (who : Who) (w : Where) : Perms := s.update w fun p => p.setArray who []

/-- `channel_disable_admin` -/
def channelDisableAdmin (s : Perms) (w : Where) : Option Perms :=
  permissionSetAdd (channelClearPermission s .adm w) .adm w ⟨none, 0, none, none, 0, none⟩

/-- `channel_request_remote_forwarding`: the local side of a remote forward is recorded -/
def channelRequestRemoteForwarding (s : Perms) (fwd : Forward) : Option Perms :=
  let connect : Option Text × ℤ :=
    match fwd.connectPath with
    | some path => (some path, PORT_STREAMLOCAL)
    | none => (fwd.connectHost, fwd.connectPort)
  let listen : Option Text × Option Text × ℤ :=
    match fwd.listenPath with
    | some path => (none, some path, PORT_STREAMLOCAL)
    | none => (fwd.listenHost, none, fwd.listenPort)
  permissionSetAdd s .user .loc ⟨connect.1, connect.2, listen.1, listen.2.1, listen.2.2, none⟩

/-- the request `tcpip-forward` of a client of the multiplexer (`channel_proxy_downstream`) -/
def muxForward (s : Perms) (listenHost : Text) (listenPort : ℤ) (downstream : ℕ) : Option Perms :=
  permissionSetAdd s .user .loc ⟨some "<mux>", -1, some listenHost, none, listenPort, some downstream⟩

/-- `channel_update_permission` -/
def channelUpdatePermission (s : Perms) (idx newport : ℤ) (bugDynamicRport : Bool) : Perms :=
  if idx < 0 ∨ idx ≥ s.localPerms.permittedUser.length then s
  else s.update .loc fun p => { p with
    permittedUser := p.permittedUser.modify idx.toNat fun perm =>
      if newport ≤ 0 then fwdPermClear else { perm with listenPort := if bugDynamicRport then 0 else newport } }

/-- `open_listen_match_tcpip`, without translation of the host -/
def openListenMatchTcpip (allowed : Permission) (host : Option Text) (port : ℤ) : Bool :=
  if allowed.hostToConnect = none then false
  else if allowed.listenPort ≠ port then false
  else if allowed.listenHost = none ∧ host = none then true
  else if allowed.listenHost = none ∨ host = none ∨ allowed.listenHost ≠ host then false
  else true

/-- `open_listen_match_streamlocal` -/
def openListenMatchStreamlocal (allowed : Permission) (path : Text) : Bool :=
  if allowed.hostToConnect = none then false
  else if allowed.listenPort ≠ PORT_STREAMLOCAL then false
  else if allowed.listenPath = none ∨ allowed.listenPath ≠ some path then false
  else true

/-- the first entry that matches is cleared -/
def clearFirst (found : Permission → Bool) : List Permission → List Permission
  | [] => []
  | perm :: perms => if found perm then fwdPermClear :: perms else perm :: clearFirst found perms

/-- `channel_request_rforward_cancel`; the port is a `u_short` -/
def channelRequestRforwardCancel (s : Perms) (fwd : Forward) : Perms :=
  let found : Permission → Bool :=
    match fwd.listenPath with
    | some path => (openListenMatchStreamlocal · path)
    | none => (openListenMatchTcpip · fwd.listenHost ((if fwd.listenPort ≠ 0 then fwd.listenPort else fwd.allocatedPort) % 2 ^ 16))
  s.update .loc fun p => { p with permittedUser := clearFirst found p.permittedUser }

/-- `mux_remove_remote_forwardings` -/
def muxRemoveRemoteForwardings (s : Perms) (downstream : ℕ) : Perms :=
  s.update .loc fun p => { p with
    permittedUser := p.permittedUser.map fun perm => if perm.downstream = some downstream then fwdPermClear else perm }

inductive Call where
  | permitAll (w : Where)
  | addPermission (who : Who) (w : Where) (host : Text) (port : ℤ)
  | clearPermission (who : Who) (w : Where)
  | disableAdmin (w : Where)
  | requestRemoteForwarding (fwd : Forward)
  | muxForward (listenHost : Text) (listenPort : ℤ) (downstream : ℕ)
  | updatePermission (idx newport : ℤ) (bugDynamicRport : Bool)
  | rforwardCancel (fwd : Forward)
  | muxRemove (downstream : ℕ)
  deriving DecidableEq, Repr

def call (s : Perms) : Call → Option Perms
  | .permitAll w => some (channelPermitAll s w)
  | .addPermission who w host port => channelAddPermission s who w host port
  | .clearPermission who w => some (channelClearPermission s who w)
  | .disableAdmin w => channelDisableAdmin s w
  | .requestRemoteForwarding fwd => channelRequestRemoteForwarding s fwd
  | .muxForward listenHost listenPort downstream => muxForward s listenHost listenPort downstream
  | .updatePermission idx newport bug => some (channelUpdatePermission s idx newport bug)
  | .rforwardCancel fwd => some (channelRequestRforwardCancel s fwd)
  | .muxRemove downstream => some (muxRemoveRemoteForwardings s downstream)

/-- a sequence of calls -/
def calls (s : Perms) (cs : List Call) : Option Perms := cs.foldlM call s

/-! ## Requests -/

/-- `lowercase` -/
def lowercase (s : Text) : Text := s.map Char.toLower

/-- `open_match` -/
def openMatch (allowed : Permission) (host : Text) (port : ℤ) : Bool :=
  match allowed.hostToConnect with
  | none => false
  | some h =>
    if allowed.portToConnect ≠ FWD_PERMIT_ANY_PORT ∧ allowed.portToConnect ≠ port then false
    else if h ≠ FWD_PERMIT_ANY_HOST ∧ h ≠ host then false
    else true

/-- `remote_open_match` -/
def remoteOpenMatch (allowed : Permission) (fwd : Forward) : Bool :=
  match fwd.listenPath with
  | some _ => true
  | none =>
    match fwd.listenHost, allowed.listenHost with
    | some host, some pattern =>
      if allowed.listenPort ≠ FWD_PERMIT_ANY_PORT ∧ allowed.listenPort ≠ fwd.listenPort then false
      else matchPattern (lowercase host) pattern
    | _, _ => false

/-- the two loops over the entries -/
def permitted (pset : PermissionSet) (found : Permission → Bool) : Bool :=
  (pset.allPermitted || pset.permittedUser.any found) &&
    if pset.permittedAdmin.length > 0 then pset.permittedAdmin.any found else true

/-- `check_rfwd_permission` -/
def checkRfwdPermission (s : Perms) (fwd : Forward) : Bool := permitted s.remotePerms (remoteOpenMatch · fwd)

/-- the check of `channel_connect_to_port` -/
def channelConnectToPort (s : Perms) (host : Text) (port : UInt16) : Bool :=
  permitted s.localPerms (openMatch · host port.toNat)

/-- the check of `channel_connect_to_path` -/
def channelConnectToPath (s : Perms) (path : Text) : Bool := permitted s.localPerms (openMatch · path PORT_STREAMLOCAL)

inductive Request where
  | connectToPort (host : Text) (port : UInt16)
  | connectToPath (path : Text)
  /-- `channel_setup_remote_fwd_listener` -/
  | setupRemoteFwd (fwd : Forward)
  deriving DecidableEq, Repr

def allowed (s : Perms) : Request → Bool
  | .connectToPort host port => channelConnectToPort s host port
  | .connectToPath path => channelConnectToPath s path
  | .setupRemoteFwd fwd => checkRfwdPermission s fwd

def Request.dir : Request → Where
  | .connectToPort _ _ => .loc
  | .connectToPath _ => .loc
  | .setupRemoteFwd _ => .rem

/-! ## What the entries mean -/

/-- the entry has the host, or every host, and the port, or every port -/
def NamesTarget (p : Permission) (host : Text) (port : ℤ) : Prop :=
  ∃ h, p.hostToConnect = some h ∧ (h = FWD_PERMIT_ANY_HOST ∨ h = host) ∧
    (p.portToConnect = FWD_PERMIT_ANY_PORT ∨ p.portToConnect = port)

/-- the pattern of the entry is one of the host, and it has the port, or every port -/
def NamesListener (p : Permission) (host : Option Text) (port : ℤ) : Prop :=
  ∃ pattern h, p.listenHost = some pattern ∧ host = some h ∧ glob pattern (lowercase h) = true ∧
    (p.listenPort = FWD_PERMIT_ANY_PORT ∨ p.listenPort = port)

/-- what an entry is meant to permit -/
def Names (p : Permission) : Request → Prop
  | .connectToPort host port => NamesTarget p host port.toNat
  | .connectToPath path => NamesTarget p path PORT_STREAMLOCAL
  | .setupRemoteFwd fwd =>
    match fwd.listenPath with
    | some path => p.listenPath = some path
    | none => NamesListener p fwd.listenHost fwd.listenPort

/-- the decision as it is meant -/
def Granted (s : Perms) (r : Request) : Prop :=
  ((s.get r.dir).allPermitted = true ∨ ∃ p ∈ (s.get r.dir).permittedUser, Names p r) ∧
    ((s.get r.dir).permittedAdmin = [] ∨ ∃ p ∈ (s.get r.dir).permittedAdmin, Names p r)

/-- the call edits the administrator's list, other than by disabling -/
def Call.editsAdmin (w : Where) : Call → Prop
  | .addPermission .adm w' _ _ => w' = w
  | .clearPermission .adm w' => w' = w
  | _ => False

/-- forwarding was disabled, and the list was not edited since -/
def Disabled (w : Where) (cs : List Call) : Prop :=
  ∃ before after, cs = before ++ .disableAdmin w :: after ∧ ∀ c ∈ after, ¬c.editsAdmin w

/-- a request is decided as it is meant, and refused while its direction is disabled -/
structure Decided (cs : List Call) (s : Perms) (r : Request) : Prop where
  granted : allowed s r = true ↔ Granted s r
  disabled : Disabled r.dir cs → allowed s r = false

/-- the request is not for a socket to listen on; or, if it is, there is no entry of the administrator with all permitted, or no
entry of the user without -/
def NoPath (s : Perms) (r : Request) : Prop :=
  ∀ fwd, r = .setupRemoteFwd fwd → fwd.listenPath ≠ none →
    if s.remotePerms.allPermitted then s.remotePerms.permittedAdmin = [] else s.remotePerms.permittedUser = []

/-! ## Matching -/

theorem openMatch_iff (p : Permission) (host : Text) (port : ℤ) : openMatch p host port = true ↔ NamesTarget p host port := by
  unfold openMatch NamesTarget
  cases hp : p.hostToConnect with
  | none => simp
  | some h =>
    dsimp only
    by_cases hport : p.portToConnect = FWD_PERMIT_ANY_PORT ∨ p.portToConnect = port
    · by_cases hhost : h = FWD_PERMIT_ANY_HOST ∨ h = host
      · rw [if_neg (by tauto), if_neg (by tauto)]
        exact iff_of_true rfl ⟨h, rfl, hhost, hport⟩
      · rw [if_neg (by tauto), if_pos (by tauto)]
        refine iff_of_false (by simp) ?_
        rintro ⟨h', hh', hhost', -⟩
        cases hh'
        exact hhost hhost'
    · rw [if_pos (by tauto)]
      refine iff_of_false (by simp) ?_
      rintro ⟨h', hh', -, hport'⟩
      exact hport hport'

variable {fwd : Forward}

/-- a request without a path -/
theorem remoteOpenMatch_iff (p : Permission) (hpath : fwd.listenPath = none) :
    remoteOpenMatch p fwd = true ↔ NamesListener p fwd.listenHost fwd.listenPort := by
  unfold remoteOpenMatch NamesListener
  rw [hpath]
  cases hhost : fwd.listenHost with
  | none => simp
  | some host =>
    cases hpattern : p.listenHost with
    | none => simp
    | some pattern =>
      by_cases hport : p.listenPort = FWD_PERMIT_ANY_PORT ∨ p.listenPort = fwd.listenPort
      · simp [matchPattern_eq_glob, hport]
      · have hyes : p.listenPort ≠ FWD_PERMIT_ANY_PORT ∧ p.listenPort ≠ fwd.listenPort := by tauto
        simp [hyes]

/-- the two loops, for entries that match what they name -/
theorem permitted_iff {pset : PermissionSet} {found : Permission → Bool} {P : Permission → Prop} (h : ∀ p, found p = true ↔ P p) :
    permitted pset found = true ↔ (pset.allPermitted = true ∨ ∃ p ∈ pset.permittedUser, P p) ∧
      (pset.permittedAdmin = [] ∨ ∃ p ∈ pset.permittedAdmin, P p) := by
  unfold permitted
  cases hadm : pset.permittedAdmin with
  | nil | cons => simp [h]

variable {s : Perms} {cs : List Call}

/-- a request without a path is decided as it is meant -/
theorem allowed_iff {r : Request} (h : ∀ fwd, r = .setupRemoteFwd fwd → fwd.listenPath = none) :
    allowed s r = true ↔ Granted s r := by
  cases r with
  | connectToPort host port => exact permitted_iff fun p => openMatch_iff p host port.toNat
  | connectToPath path => exact permitted_iff fun p => openMatch_iff p path PORT_STREAMLOCAL
  | setupRemoteFwd fwd =>
    have hpath := h fwd rfl
    refine permitted_iff fun p => (remoteOpenMatch_iff p hpath).trans ?_
    simp [Names, hpath]

/-- a request with a path is allowed as soon as something is -/
theorem allowed_path (s : Perms) (hpath : fwd.listenPath ≠ none) :
    allowed s (.setupRemoteFwd fwd) = true ↔ s.remotePerms.allPermitted = true ∨ s.remotePerms.permittedUser ≠ [] := by
  have hfound : ∀ p, remoteOpenMatch p fwd = true ↔ True := by
    unfold remoteOpenMatch
    cases h : fwd.listenPath with
    | none => exact absurd h hpath
    | some path => simp
  refine (permitted_iff hfound).trans ?_
  cases s.remotePerms.permittedAdmin <;> cases s.remotePerms.permittedUser <;> simp

/-! ## Runs of calls -/

theorem get_update (s : Perms) (w w' : Where) (f : PermissionSet → PermissionSet) :
    (s.update w f).get w' = if w' = w then f (s.get w') else s.get w' := by
  cases w <;> cases w' <;> rfl

variable {s' : Perms}

theorem of_permissionSetAdd {who : Who} {w : Where} {perm : Permission}
    (h : permissionSetAdd s who w perm = some s') : s' = s.update w fun p => p.setArray who (p.array who ++ [perm]) := by
  unfold permissionSetAdd at h
  split_ifs at h
  exact (Option.some.inj h).symm

/-- what a call does to a set: nothing, an entry is added, or some of the user's entries are cleared or change their port -/
inductive Edits (w : Where) (c : Call) (p p' : PermissionSet) : Prop where
  | same (h : p' = p)
  | permitAll (h : p' = { p with allPermitted := true })
  | add (who : Who) (perm : Permission) (hc : who = .adm → c.editsAdmin w) (hpath : w = .rem → perm.listenPath = none)
      (h : ∃ all, p' = { p.setArray who (p.array who ++ [perm]) with allPermitted := all })
  | clear (who : Who) (hc : who = .adm → c.editsAdmin w) (h : p' = p.setArray who [])
  | disable (h : p' = { p with permittedAdmin := [fwdPermClear] })
  | entries (hw : w = .loc) (h : ∃ es, p' = { p with permittedUser := es })

theorem edits_entries (s : Perms) (w : Where) (c : Call) (f : List Permission → List Permission) :
    Edits w c (s.get w) ((s.update .loc fun p => { p with permittedUser := f p.permittedUser }).get w) := by
  rw [get_update]
  by_cases hw : w = .loc
  · rw [if_pos hw]
    exact .entries hw ⟨_, rfl⟩
  · rw [if_neg hw]
    exact .same rfl

/-- **Step lemma.** -/
theorem edits_call {c : Call} (h : call s c = some s') (w : Where) : Edits w c (s.get w) (s'.get w) := by
  cases c with
  | permitAll w' =>
    cases h
    rw [channelPermitAll, get_update]
    split_ifs
    · exact .permitAll rfl
    · exact .same rfl
    · exact .same rfl
  | addPermission who w' host port =>
    obtain ⟨s₁, hadd, rfl⟩ := Option.map_eq_some_iff.1 h
    rw [of_permissionSetAdd hadd, get_update, get_update]
    by_cases hw : w = w'
    · subst hw
      rw [if_pos rfl, if_pos rfl]
      refine .add who _ ?_ ?_ ⟨false, rfl⟩
      · rintro rfl
        rfl
      · rintro rfl
        rfl
    · rw [if_neg hw, if_neg hw]
      exact .same rfl
  | clearPermission who w' =>
    cases h
    rw [channelClearPermission, get_update]
    split_ifs with hw
    · refine .clear who ?_ rfl
      rintro rfl
      exact hw.symm
    · exact .same rfl
  | disableAdmin w' =>
    rw [of_permissionSetAdd h, get_update, channelClearPermission, get_update]
    split_ifs
    · exact .disable rfl
    · exact .same rfl
  | requestRemoteForwarding | muxForward =>
    rw [of_permissionSetAdd h]
    exact edits_entries s w _ (· ++ [_])
  | updatePermission idx newport bug =>
    cases h
    unfold channelUpdatePermission
    by_cases hidx : idx < 0 ∨ idx ≥ s.localPerms.permittedUser.length
    · rw [if_pos hidx]
      exact .same rfl
    · rw [if_neg hidx]
      exact edits_entries s w _ (·.modify idx.toNat _)
  | rforwardCancel fwd =>
    cases h
    exact edits_entries s w _ (clearFirst _)
  | muxRemove downstream =>
    cases h
    exact edits_entries s w _ (·.map _)

theorem calls_inv {I : Perms → Prop} {P : Call → Prop} (hstep : ∀ s s' c, P c → call s c = some s' → I s → I s')
    (hcs : ∀ c ∈ cs, P c) (h : calls s cs = some s') (hs : I s) : I s' := by
  induction cs generalizing s with
  | nil =>
    cases h
    exact hs
  | cons c cs ih =>
    obtain ⟨s₁, hcall, hrest⟩ := Option.bind_eq_some_iff.1 (by simpa [calls] using h)
    exact ih (fun c' hc' => hcs c' (List.mem_cons_of_mem _ hc')) hrest (hstep s s₁ c (hcs c (by simp)) hcall hs)

/-- no entry for remote forwarding has a path -/
def PathFree (s : Perms) : Prop := ∀ p ∈ s.remotePerms.permittedUser ++ s.remotePerms.permittedAdmin, p.listenPath = none

theorem pathFree_calls (h : calls channelInit cs = some s) : PathFree s := by
  refine calls_inv (fun s s' c _ hcall hfree => ?_) (fun _ _ => trivial) h
    (by simp [PathFree, channelInit])
  intro p hp
  have hold : ∀ q ∈ (s.get .rem).permittedUser ++ (s.get .rem).permittedAdmin, q.listenPath = none := hfree
  change p ∈ (s'.get .rem).permittedUser ++ (s'.get .rem).permittedAdmin at hp
  cases edits_call hcall .rem with
  | same h | permitAll h =>
    rw [h] at hp
    exact hold p hp
  | add who perm hc hpath h =>
    obtain ⟨all, h⟩ := h
    rw [h] at hp
    have hor : p ∈ (s.get .rem).permittedUser ++ (s.get .rem).permittedAdmin ∨ p = perm := by
      cases who <;> simp [PermissionSet.setArray] at hp ⊢ <;> tauto
    rcases hor with hmem | rfl
    · exact hold p hmem
    · exact hpath rfl
  | clear who hc h =>
    rw [h] at hp
    refine hold p ?_
    cases who <;> simp [PermissionSet.setArray] at hp ⊢ <;> tauto
  | disable h =>
    rw [h] at hp
    rcases List.mem_append.1 hp with hmem | hmem
    · exact hold p (List.mem_append_left _ hmem)
    · rw [List.mem_singleton.1 hmem]
      rfl
  | entries hw h => cases hw

/-- **Disabling.** While forwarding is disabled, the administrator's list is the one entry that names nothing. -/
theorem admin_of_disabled {w : Where} (h : calls channelInit cs = some s) (hdis : Disabled w cs) :
    (s.get w).permittedAdmin = [fwdPermClear] := by
  obtain ⟨before, after, rfl, hafter⟩ := hdis
  rw [calls, List.foldlM_append, Option.bind_eq_bind, Option.bind_eq_some_iff] at h
  obtain ⟨s₀, -, h⟩ := h
  obtain ⟨s₁, hdisable, hrest⟩ := Option.bind_eq_some_iff.1 (by simpa using h)
  have hset : (s₁.get w).permittedAdmin = [fwdPermClear] := by
    rw [of_permissionSetAdd hdisable, get_update, channelClearPermission, get_update, if_pos rfl, if_pos rfl]
    rfl
  refine calls_inv (I := fun s => (s.get w).permittedAdmin = [fwdPermClear]) (fun s s' c hc hcall hs => ?_) hafter hrest hset
  cases edits_call hcall w with
  | same h | permitAll h => rw [h, hs]
  | add who perm hadm hpath h =>
    obtain ⟨all, h⟩ := h
    cases who with
    | adm => exact absurd (hadm rfl) hc
    | user =>
      rw [h]
      exact hs
  | clear who hadm h =>
    cases who with
    | adm => exact absurd (hadm rfl) hc
    | user =>
      rw [h]
      exact hs
  | disable h => rw [h]
  | entries hw h =>
    obtain ⟨es, h⟩ := h
    rw [h]
    exact hs

/-! ## The decision -/

theorem not_names_clear (r : Request) : ¬Names fwdPermClear r := by
  cases r with
  | connectToPort | connectToPath => simp [Names, NamesTarget, fwdPermClear]
  | setupRemoteFwd fwd =>
    cases h : fwd.listenPath <;> simp [Names, NamesListener, fwdPermClear, h]

theorem not_granted_of_disabled {r : Request} (h : calls channelInit cs = some s)
    (hdis : Disabled r.dir cs) : ¬Granted s r := by
  rintro ⟨-, hadmin⟩
  rw [admin_of_disabled h hdis] at hadmin
  rcases hadmin with hnil | ⟨p, hp, hnames⟩
  · cases hnil
  · rw [List.mem_singleton.1 hp] at hnames
    exact not_names_clear r hnames

/-- a path is granted only with everything, and without an administrator -/
theorem granted_path (hfree : PathFree s) {path : Text} (hpath : fwd.listenPath = some path) :
    Granted s (.setupRemoteFwd fwd) ↔ s.remotePerms.allPermitted = true ∧ s.remotePerms.permittedAdmin = [] := by
  have hno : ∀ p ∈ s.remotePerms.permittedUser ++ s.remotePerms.permittedAdmin, ¬Names p (.setupRemoteFwd fwd) := by
    intro p hp hnames
    simp only [Names, hpath, hfree p hp] at hnames
    cases hnames
  constructor
  · rintro ⟨huser, hadmin⟩
    refine ⟨huser.resolve_right ?_, hadmin.resolve_right ?_⟩
    · rintro ⟨p, hp, hnames⟩
      exact hno p (List.mem_append_left _ hp) hnames
    · rintro ⟨p, hp, hnames⟩
      exact hno p (List.mem_append_right _ hp) hnames
  · rintro ⟨hall, hadmin⟩
    exact ⟨Or.inl hall, Or.inl hadmin⟩

/-- **The decision.** After every run of calls, a request is allowed as it is meant and refused while its direction is disabled,
exactly if it is not for a socket to listen on, or no entry is there that it could match by mistake. -/
theorem forwarding_decision_iff {cs : List Call} {s : Perms} (h : calls channelInit cs = some s) (r : Request) :
    Decided cs s r ↔ NoPath s r := by
  have hcond : NoPath s r → (allowed s r = true ↔ Granted s r) := by
    intro hno
    by_cases hreq : ∃ fwd, r = .setupRemoteFwd fwd ∧ fwd.listenPath ≠ none
    · obtain ⟨fwd, rfl, hpath⟩ := hreq
      obtain ⟨path, hsome⟩ := Option.ne_none_iff_exists'.1 hpath
      have htable := hno fwd rfl hpath
      rw [allowed_path s hpath, granted_path (pathFree_calls h) hsome]
      cases hall : s.remotePerms.allPermitted <;> simp [hall] at htable ⊢ <;> exact htable
    · push Not at hreq
      exact allowed_iff hreq
  constructor
  · rintro ⟨hgranted, -⟩ fwd rfl hpath
    obtain ⟨path, hsome⟩ := Option.ne_none_iff_exists'.1 hpath
    rw [allowed_path s hpath, granted_path (pathFree_calls h) hsome] at hgranted
    cases hall : s.remotePerms.allPermitted <;> simpa [hall] using hgranted
  · intro hno
    refine ⟨hcond hno, fun hdis => ?_⟩
    have hnot := not_granted_of_disabled h hdis
    rw [← hcond hno] at hnot
    simpa using hnot

/-- local forwarding to one host is permitted, then all of it is disabled -/
def permitThenDisable : List Call := [.addPermission .user .loc "db" 5432, .disableAdmin .loc]

/-- the request for that host is decided: it is refused -/
theorem forwarding_decision_disabled : ∃ s, calls channelInit permitThenDisable = some s ∧
      Decided permitThenDisable s (.connectToPort "db" 5432) ∧ allowed s (.connectToPort "db" 5432) = false := by
  refine ⟨⟨⟨[⟨some "db", 5432, none, none, 0, none⟩], [fwdPermClear], false⟩, ⟨[], [], false⟩⟩, by decide +kernel, ?_,
    by decide +kernel⟩
  exact (forwarding_decision_iff (by decide +kernel) _).2 nofun

/-- a request for a socket -/
def listenOn (path : Text) : Request := .setupRemoteFwd ⟨none, 0, some path, none, 0, none, 0⟩

/-- **A counterexample.** With remote forwarding disabled, a socket is opened all the same; and an entry for a port permits every
path. -/
theorem disabled_listener_allowed :
    (∃ s, calls channelInit [.permitAll .rem, .disableAdmin .rem] = some s ∧ Disabled .rem [.permitAll .rem, .disableAdmin .rem] ∧
      allowed s (listenOn "/tmp/s") = true ∧ ¬Decided [.permitAll .rem, .disableAdmin .rem] s (listenOn "/tmp/s")) ∧
    ∃ s, calls channelInit [.addPermission .user .rem "localhost" 8080] = some s ∧
      allowed s (listenOn "/tmp/s") = true ∧ ¬Granted s (listenOn "/tmp/s") := by
  constructor
  · have hdis : Disabled .rem [.permitAll .rem, .disableAdmin .rem] := ⟨[.permitAll .rem], [], rfl, by simp⟩
    have hallowed : allowed ⟨⟨[], [], false⟩, ⟨[], [fwdPermClear], true⟩⟩ (listenOn "/tmp/s") = true := by decide +kernel
    refine ⟨⟨⟨[], [], false⟩, ⟨[], [fwdPermClear], true⟩⟩, by decide +kernel, hdis, hallowed, fun h => ?_⟩
    rw [h.disabled hdis] at hallowed
    cases hallowed
  · refine ⟨⟨⟨[], [], false⟩, ⟨[⟨none, 0, some "localhost", none, 8080, none⟩], [], false⟩⟩, by decide +kernel, by
    decide +kernel, ?_⟩
    simp [Granted, listenOn, Request.dir, Perms.get, Names]

end OpenSSHServerPN.Forwarding
