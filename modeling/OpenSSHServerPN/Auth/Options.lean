/-
Options of keys and certificates and their merging (`auth-options.c`, `auth.c`, `server_request_tun` in `serverloop.c`).

Model: `SshAuthOpt` is `struct sshauthopt`; a C string that may be missing is an `Option`, a counted array of strings a
list. `merge` is `sshauthopt_merge`, whose only error besides memory is two different forced commands. Each activation
merges the options of the session, as the primary ones, with a new set (`activate`); `activateAll` is a chain of them.

`Confines r v` says that `r` allows nothing that `v` forbids, in every respect that `merge` combines. It is a preorder, and
the result of a merge confines both arguments (`merge_confines`), so the result of a chain confines every member. The field
`restricted` is not combined: after a merge it is 0 (`merge_restricted`), and the tunnel check of the session passes.
The expiry of the additional options is compared with the expiry of the primary ones, or with 0 if there is none
(`merge_validBefore`), so a chain keeps the earliest expiry exactly if it starts with one, or if there is none at all.

Results:
- `activateAll_confines`: a chain of merges confines every member and the options it starts from;
- `merged_never_looser_iff`: the session is as restricted as every member exactly if no member is restricted;
- `activateAll_validBefore`: the expiry of a chain;
- `earliest_expiry_iff`: the earliest expiry wins exactly if the chain starts with an expiry or has none.
-/
import OpenSSHServerPN.Match.Pattern

namespace OpenSSHServerPN.AuthOptions

open List

/-! ## The options -/

structure SshAuthOpt where
  permitPortForwardingFlag : ℤ
  permitAgentForwardingFlag : ℤ
  permitX11ForwardingFlag : ℤ
  permitPtyFlag : ℤ
  permitUserRc : ℤ
  /-- the `restrict` keyword was given -/
  restricted : ℤ
  /-- expiry in seconds, 0 for none -/
  validBefore : ℕ
  certAuthority : ℤ
  certPrincipals : Option Text
  /-- -1 for none -/
  forceTunDevice : ℤ
  forceCommand : Option Text
  env : List Text
  permitopen : List Text
  permitlisten : List Text
  /-- `source-address` of a certificate -/
  requiredFromHostCert : Option Text
  /-- `from=` of a key -/
  requiredFromHostKeys : Option Text
  noRequireUserPresence : ℤ
  requireVerify : ℤ
deriving DecidableEq, Repr

/-- `sshauthopt_new`: everything is zero, and no tunnel device is forced -/
def sshauthoptNew : SshAuthOpt where
  permitPortForwardingFlag := 0
  permitAgentForwardingFlag := 0
  permitX11ForwardingFlag := 0
  permitPtyFlag := 0
  permitUserRc := 0
  restricted := 0
  validBefore := 0
  certAuthority := 0
  certPrincipals := none
  forceTunDevice := -1
  forceCommand := none
  env := []
  permitopen := []
  permitlisten := []
  requiredFromHostCert := none
  requiredFromHostKeys := none
  noRequireUserPresence := 0
  requireVerify := 0

/-- `sshauthopt_new_with_keys_defaults` -/
def sshauthoptNewWithKeysDefaults : SshAuthOpt :=
  { sshauthoptNew with
    permitPortForwardingFlag := 1
    permitAgentForwardingFlag := 1
    permitX11ForwardingFlag := 1
    permitPtyFlag := 1
    permitUserRc := 1 }

/-! ## Merging -/

/-- `OPTFLAG_AND` -/
def optflagAnd (p a : ℤ) : ℤ := if p = 1 ∧ a = 1 then 1 else 0

/-- `OPTFLAG_OR` -/
def optflagOr (p a : ℤ) : ℤ := if p = 1 ∨ a = 1 then 1 else 0

/-- the array of the primary options, if it is not empty -/
def preferPrimary (p a : List Text) : List Text := if p ≠ [] then p else a

/-- the expiry of the result -/
def mergeValidBefore (p a : ℕ) : ℕ :=
  let ret := if p ≠ 0 then p else 0
  if a ≠ 0 ∧ a < ret then a else ret

/-- the forced command of the result -/
def mergeForceCommand : Option Text → Option Text → Except Text (Option Text)
  | some p, some a => if p = a then .ok (some p) else .error "forced command options do not match"
  | some p, none => .ok (some p)
  | none, a => .ok a

/-- `sshauthopt_merge` -/
def merge (primary additional : SshAuthOpt) : Except Text SshAuthOpt :=
  match mergeForceCommand primary.forceCommand additional.forceCommand with
  | .error e => .error e
  | .ok command =>
    .ok { sshauthoptNew with
      requiredFromHostCert := primary.requiredFromHostCert.or additional.requiredFromHostCert
      requiredFromHostKeys := primary.requiredFromHostKeys.or additional.requiredFromHostKeys
      forceTunDevice := if primary.forceTunDevice = -1 then additional.forceTunDevice else primary.forceTunDevice
      env := preferPrimary primary.env additional.env
      permitopen := preferPrimary primary.permitopen additional.permitopen
      permitlisten := preferPrimary primary.permitlisten additional.permitlisten
      permitPortForwardingFlag := optflagAnd primary.permitPortForwardingFlag additional.permitPortForwardingFlag
      permitAgentForwardingFlag := optflagAnd primary.permitAgentForwardingFlag additional.permitAgentForwardingFlag
      permitX11ForwardingFlag := optflagAnd primary.permitX11ForwardingFlag additional.permitX11ForwardingFlag
      permitPtyFlag := optflagAnd primary.permitPtyFlag additional.permitPtyFlag
      permitUserRc := optflagAnd primary.permitUserRc additional.permitUserRc
      noRequireUserPresence := optflagAnd primary.noRequireUserPresence additional.noRequireUserPresence
      requireVerify := optflagOr primary.requireVerify additional.requireVerify
      validBefore := mergeValidBefore primary.validBefore additional.validBefore
      forceCommand := command }

/-- `auth_activate_options`: the new options of the session -/
def activate (authOpts opts : SshAuthOpt) : Except Text SshAuthOpt := merge authOpts opts

/-- the options `auth_restrict_session` activates -/
def restrictSession : SshAuthOpt := { sshauthoptNew with permitPtyFlag := 1, restricted := 1 }

/-- option sets activated one after another -/
def activateAll : SshAuthOpt → List SshAuthOpt → Except Text SshAuthOpt
  | authOpts, [] => .ok authOpts
  | authOpts, opts :: rest =>
    match activate authOpts opts with
    | .error e => .error e
    | .ok merged => activateAll merged rest

variable {p a r final init : SshAuthOpt} {vs : List SshAuthOpt}

section
variable (h : merge p a = .ok r)
include h

theorem merge_ok : ∃ command, mergeForceCommand p.forceCommand a.forceCommand = .ok command ∧ r.forceCommand = command ∧
      r.restricted = 0 ∧ r.validBefore = mergeValidBefore p.validBefore a.validBefore ∧
      r.requiredFromHostCert = p.requiredFromHostCert.or a.requiredFromHostCert ∧
      r.requiredFromHostKeys = p.requiredFromHostKeys.or a.requiredFromHostKeys ∧
      r.permitopen = preferPrimary p.permitopen a.permitopen ∧
      r.permitlisten = preferPrimary p.permitlisten a.permitlisten ∧
      r.permitPortForwardingFlag = optflagAnd p.permitPortForwardingFlag a.permitPortForwardingFlag ∧
      r.permitAgentForwardingFlag = optflagAnd p.permitAgentForwardingFlag a.permitAgentForwardingFlag ∧
      r.permitX11ForwardingFlag = optflagAnd p.permitX11ForwardingFlag a.permitX11ForwardingFlag ∧
      r.permitPtyFlag = optflagAnd p.permitPtyFlag a.permitPtyFlag ∧
      r.permitUserRc = optflagAnd p.permitUserRc a.permitUserRc ∧
      r.requireVerify = optflagOr p.requireVerify a.requireVerify := by
  unfold merge at h
  cases hc : mergeForceCommand p.forceCommand a.forceCommand with
  | error e => simp [hc] at h
  | ok command =>
    simp only [hc, Except.ok.injEq] at h
    subst h
    exact ⟨command, rfl, rfl, rfl, rfl, rfl, rfl, rfl, rfl, rfl, rfl, rfl, rfl, rfl, rfl⟩

/-- **A merge is never restricted**, whatever its arguments are. -/
theorem merge_restricted : r.restricted = 0 := by
  obtain ⟨_, _, _, hr, _⟩ := merge_ok h
  exact hr

theorem merge_validBefore : r.validBefore = mergeValidBefore p.validBefore a.validBefore := by
  obtain ⟨_, _, _, _, hr, _⟩ := merge_ok h
  exact hr

end

/-! ## The order of confinement -/

/-- `r` allows nothing that `v` forbids, in the respects that are combined -/
structure Confines (r v : SshAuthOpt) : Prop where
  portForwarding : v.permitPortForwardingFlag = 0 → r.permitPortForwardingFlag = 0
  agentForwarding : v.permitAgentForwardingFlag = 0 → r.permitAgentForwardingFlag = 0
  x11Forwarding : v.permitX11ForwardingFlag = 0 → r.permitX11ForwardingFlag = 0
  pty : v.permitPtyFlag = 0 → r.permitPtyFlag = 0
  userRc : v.permitUserRc = 0 → r.permitUserRc = 0
  verify : v.requireVerify = 1 → r.requireVerify = 1
  command : v.forceCommand.isSome = true → r.forceCommand.isSome = true
  sourceAddress : v.requiredFromHostCert.isSome = true → r.requiredFromHostCert.isSome = true
  fromHosts : v.requiredFromHostKeys.isSome = true → r.requiredFromHostKeys.isSome = true
  opens : v.permitopen ≠ [] → r.permitopen ≠ []
  listens : v.permitlisten ≠ [] → r.permitlisten ≠ []

theorem Confines.refl (v : SshAuthOpt) : Confines v v :=
  ⟨id, id, id, id, id, id, id, id, id, id, id⟩

theorem Confines.trans {q v : SshAuthOpt} (h : Confines r q) (h' : Confines q v) : Confines r v where
  portForwarding hv := h.portForwarding (h'.portForwarding hv)
  agentForwarding hv := h.agentForwarding (h'.agentForwarding hv)
  x11Forwarding hv := h.x11Forwarding (h'.x11Forwarding hv)
  pty hv := h.pty (h'.pty hv)
  userRc hv := h.userRc (h'.userRc hv)
  verify hv := h.verify (h'.verify hv)
  command hv := h.command (h'.command hv)
  sourceAddress hv := h.sourceAddress (h'.sourceAddress hv)
  fromHosts hv := h.fromHosts (h'.fromHosts hv)
  opens hv := h.opens (h'.opens hv)
  listens hv := h.listens (h'.listens hv)

theorem optflagAnd_zero {p a : ℤ} (h : p = 0 ∨ a = 0) : optflagAnd p a = 0 := by rcases h with h | h <;> simp [optflagAnd, h]

theorem preferPrimary_ne_nil {p a : List Text} (h : p ≠ [] ∨ a ≠ []) : preferPrimary p a ≠ [] := by
  unfold preferPrimary
  split
  · assumption
  · next hp => exact h.resolve_left hp

theorem mergeForceCommand_isSome {p a command : Option Text} (h : mergeForceCommand p a = .ok command) :
    command.isSome = (p.isSome || a.isSome) := by
  unfold mergeForceCommand at h
  split at h
  · split at h
    · cases h; rfl
    · cases h
  · cases h; rfl
  · cases h; rfl

/-- **A merge confines both arguments.** -/
theorem merge_confines (h : merge p a = .ok r) : Confines r p ∧ Confines r a := by
  obtain ⟨command, hc, hcommand, -, -, hcert, hkeys, hopen, hlisten, hport, hagent, hx11, hpty, hrc, hverify⟩ := merge_ok h
  have hsome := mergeForceCommand_isSome hc
  constructor
  all_goals exact {
    portForwarding := fun hv => hport ▸ optflagAnd_zero (by simp [hv])
    agentForwarding := fun hv => hagent ▸ optflagAnd_zero (by simp [hv])
    x11Forwarding := fun hv => hx11 ▸ optflagAnd_zero (by simp [hv])
    pty := fun hv => hpty ▸ optflagAnd_zero (by simp [hv])
    userRc := fun hv => hrc ▸ optflagAnd_zero (by simp [hv])
    verify := fun hv => by rw [hverify, optflagOr, if_pos (by simp [hv])]
    command := fun hv => by simp [hcommand, hsome, hv]
    sourceAddress := fun hv => by simp [hcert, hv]
    fromHosts := fun hv => by simp [hkeys, hv]
    opens := fun hv => hopen ▸ preferPrimary_ne_nil (by simp [hv])
    listens := fun hv => hlisten ▸ preferPrimary_ne_nil (by simp [hv]) }

theorem activateAll_cons {authOpts opts : SshAuthOpt} {rest : List SshAuthOpt}
    (h : activateAll authOpts (opts :: rest) = .ok final) :
    ∃ merged, merge authOpts opts = .ok merged ∧ activateAll merged rest = .ok final := by
  rw [activateAll, activate] at h
  cases hm : merge authOpts opts with
  | error e => simp [hm] at h
  | ok merged => exact ⟨merged, rfl, by simpa [hm] using h⟩

/-- **A chain confines every member**, and the options it starts from. -/
theorem activateAll_confines (h : activateAll init vs = .ok final) :
    Confines final init ∧ ∀ v ∈ vs, Confines final v := by
  induction vs generalizing init with
  | nil =>
    obtain rfl := Except.ok.inj h
    exact ⟨Confines.refl _, fun v hv => absurd hv not_mem_nil⟩
  | cons v vs ih =>
    obtain ⟨merged, hm, hrest⟩ := activateAll_cons h
    obtain ⟨hinit, hv⟩ := merge_confines hm
    obtain ⟨hmerged, hvs⟩ := ih hrest
    refine ⟨hmerged.trans hinit, fun w hw => ?_⟩
    rcases mem_cons.1 hw with rfl | hw
    · exact hmerged.trans hv
    · exact hvs w hw

theorem activateAll_restricted (hne : vs ≠ []) (h : activateAll init vs = .ok final) : final.restricted = 0 := by
  induction vs generalizing init with
  | nil => exact absurd rfl hne
  | cons v vs ih =>
    obtain ⟨merged, hm, hrest⟩ := activateAll_cons h
    cases vs with
    | nil =>
      obtain rfl := Except.ok.inj hrest
      exact merge_restricted hm
    | cons w vs => exact ih (by simp) hrest

/-! ## The tunnel request -/

/-- the server options `server_request_tun` reads -/
structure TunOptions where
  permitTun : ℕ
  disableForwarding : Bool
deriving DecidableEq, Repr

inductive TunResult where
  | unsupportedMode
  /-- `Server has rejected tunnel device forwarding` -/
  | rejected
  /-- the device is not the one asked for, or not a number -/
  | noDevice
  /-- `tun_open` is called for this device -/
  | opens (tun : ℤ)
deriving DecidableEq, Repr

def sshTunmodePointopoint : ℕ := 1

def sshTunmodeEthernet : ℕ := 2

/-- `SSH_TUNID_ANY` -/
def sshTunidAny : ℕ := 0x7fffffff

/-- `server_request_tun`, up to the opening of the device -/
def serverRequestTun (options : TunOptions) (authOpts : SshAuthOpt) (mode tun : ℕ) : TunResult :=
  if mode ≠ sshTunmodePointopoint ∧ mode ≠ sshTunmodeEthernet then .unsupportedMode
  else if options.permitTun &&& mode = 0 ∨ options.disableForwarding = true ∨ authOpts.restricted ≠ 0 then .rejected
  else if 0x7fffffff < tun then .noDevice
  else if authOpts.forceTunDevice ≠ -1 then
    if tun ≠ sshTunidAny ∧ authOpts.forceTunDevice ≠ tun then .noDevice else .opens authOpts.forceTunDevice
  else .opens tun

/-- the request does not get past the check of `restricted` -/
def StoppedByCheck (r : TunResult) : Prop := r = .unsupportedMode ∨ r = .rejected

instance (r : TunResult) : Decidable (StoppedByCheck r) := inferInstanceAs (Decidable (_ ∨ _))

theorem serverRequestTun_unrestricted {authOpts : SshAuthOpt} (h : authOpts.restricted = 0) :
    ¬ StoppedByCheck (serverRequestTun ⟨3, false⟩ authOpts sshTunmodePointopoint (2 ^ 31)) := by
  rw [serverRequestTun, if_neg (by decide), if_neg (by simp [h, sshTunmodePointopoint]), if_pos (by decide)]
  decide

/-! ## Chains of merges -/

/-- the session is at least as restricted as a member of the chain -/
def AsRestrictedAs (final v : SshAuthOpt) : Prop := Confines final v ∧ (v.restricted = 1 → final.restricted = 1)

/-- no member of the chain is loosened, and no tunnel request passes the check once a restricted set was activated -/
def NeverLooser (vs : List SshAuthOpt) (final : SshAuthOpt) : Prop :=
  (∀ v ∈ vs, AsRestrictedAs final v) ∧ ((∃ v ∈ vs, v.restricted ≠ 0) →
      ∀ options mode tun, StoppedByCheck (serverRequestTun options final mode tun))

/-- **Merging never loosens, except for `restricted`.** A chain of one or more merges that all succeed leaves the session
at least as restricted as every member exactly if no member is restricted. -/
theorem merged_never_looser_iff (init : SshAuthOpt) (vs : List SshAuthOpt) (final : SshAuthOpt) (hne : vs ≠ [])
    (h : activateAll init vs = .ok final) : NeverLooser vs final ↔ ∀ v ∈ vs, v.restricted = 0 := by
  have hfinal : final.restricted = 0 := activateAll_restricted hne h
  constructor
  · intro hnl v hv
    by_contra hr
    exact serverRequestTun_unrestricted hfinal (hnl.2 ⟨v, hv, hr⟩ _ _ _)
  intro hall
  refine ⟨fun v hv => ⟨(activateAll_confines h).2 v hv, fun h1 => ?_⟩, ?_⟩
  · rw [hall v hv] at h1
    exact absurd h1 (by decide)
  · rintro ⟨v, hv, hr⟩
    exact absurd (hall v hv) hr

/-- a key with a forced command and a certificate without a terminal -/
theorem merged_never_looser_key_cert :
    NeverLooser [{ sshauthoptNewWithKeysDefaults with forceCommand := some "backup" },
        { sshauthoptNewWithKeysDefaults with permitPtyFlag := 0, requireVerify := 1 }]
      { sshauthoptNewWithKeysDefaults with
        forceCommand := some "backup", permitPtyFlag := 0, requireVerify := 1 } :=
  (merged_never_looser_iff sshauthoptNewWithKeysDefaults _ _ (by decide) (by decide)).2 (by decide)

/-- a password login of an expired account restricts the session, and the tunnel check passes -/
theorem restricted_session_loosened : ∃ final, activateAll sshauthoptNewWithKeysDefaults [restrictSession] = .ok final ∧
      ¬ NeverLooser [restrictSession] final ∧ serverRequestTun ⟨3, false⟩ final sshTunmodePointopoint 0 = .opens 0 := by
  refine ⟨{ sshauthoptNew with permitPtyFlag := 1 }, by decide, fun h => ?_, by decide⟩
  exact absurd ((h.1 restrictSession (by decide)).2 rfl) (by decide)

/-! ## Expiry -/

/-- the earliest of the expiries that are set, 0 if none is -/
structure IsEarliest (expiries : List ℕ) (m : ℕ) : Prop where
  zero_iff : m = 0 ↔ ∀ x ∈ expiries, x = 0
  mem : m ≠ 0 → m ∈ expiries
  le : m ≠ 0 → ∀ x ∈ expiries, x ≠ 0 → m ≤ x

instance (expiries : List ℕ) (m : ℕ) : Decidable (IsEarliest expiries m) :=
  decidable_of_iff ((m = 0 ↔ ∀ x ∈ expiries, x = 0) ∧ (m ≠ 0 → m ∈ expiries) ∧ (m ≠ 0 → ∀ x ∈ expiries, x ≠ 0 → m ≤ x))
    ⟨fun h => ⟨h.1, h.2.1, h.2.2⟩, fun h => ⟨h.zero_iff, h.mem, h.le⟩⟩

theorem mergeValidBefore_ne_zero {p : ℕ} (hp : p ≠ 0) (a : ℕ) :
    mergeValidBefore p a = if a = 0 then p else min a p := by
  unfold mergeValidBefore
  simp only [hp, ne_eq]
  by_cases ha : a = 0
  · simp [ha]
  · by_cases hlt : a < p
    · simp [hlt, min_eq_left hlt.le]
    · simp [hlt, min_eq_right (not_lt.1 hlt)]

/-- one more expiry, merged into the earliest of the others -/
theorem IsEarliest.merge {p : ℕ} {xs : List ℕ} {a m : ℕ} (hp : p ≠ 0) (h : IsEarliest (mergeValidBefore p a :: xs) m) :
    IsEarliest (p :: a :: xs) m := by
  have hmerge := mergeValidBefore_ne_zero hp a
  have hle : mergeValidBefore p a ≤ p ∧ (a ≠ 0 → mergeValidBefore p a ≤ a) := by
    rw [hmerge]
    split
    · exact ⟨le_rfl, absurd ‹a = 0›⟩
    · exact ⟨min_le_right _ _, fun _ => min_le_left _ _⟩
  have hmem : mergeValidBefore p a = p ∨ mergeValidBefore p a = a := by
    rw [hmerge]
    split
    · exact .inl rfl
    · exact (min_choice a p).symm
  have hne : mergeValidBefore p a ≠ 0 := by
    rw [hmerge]
    split
    · exact hp
    · next ha => exact (lt_min (Nat.pos_of_ne_zero ha) (Nat.pos_of_ne_zero hp)).ne'
  have hm : m ≠ 0 := fun h0 => hne (h.zero_iff.1 h0 _ mem_cons_self)
  refine ⟨⟨fun h0 => absurd h0 hm, fun hall => absurd (hall p mem_cons_self) hp⟩, fun _ => ?_, fun _ x hx hx0 => ?_⟩
  · rcases mem_cons.1 (h.mem hm) with he | he
    · rcases hmem with hcase | hcase <;> simp [he, hcase]
    · exact mem_cons_of_mem _ (mem_cons_of_mem _ he)
  have hfirst : m ≤ mergeValidBefore p a := h.le hm _ mem_cons_self hne
  rcases mem_cons.1 hx with rfl | hx
  · exact hfirst.trans hle.1
  · rcases mem_cons.1 hx with rfl | hx
    · exact hfirst.trans (hle.2 hx0)
    · exact h.le hm x (mem_cons_of_mem _ hx) hx0

/-- **The expiry of a chain**: 0 if it starts without one, else the earliest. -/
theorem activateAll_validBefore (h : activateAll init vs = .ok final) : (init.validBefore = 0 → final.validBefore = 0) ∧
      (init.validBefore ≠ 0 → IsEarliest ((init :: vs).map SshAuthOpt.validBefore) final.validBefore) := by
  induction vs generalizing init with
  | nil =>
    obtain rfl := Except.ok.inj h
    exact ⟨id, fun _ => ⟨by simp, by simp, by simp⟩⟩
  | cons v vs ih =>
    obtain ⟨merged, hm, hrest⟩ := activateAll_cons h
    obtain ⟨hzero, hpos⟩ := ih hrest
    rw [merge_validBefore hm] at hzero
    refine ⟨fun h0 => hzero (by simp [h0, mergeValidBefore]), fun hi => ?_⟩
    have hmerged : merged.validBefore ≠ 0 := by
      rw [merge_validBefore hm, mergeValidBefore_ne_zero hi]
      split
      · exact hi
      · next hv => exact (lt_min (Nat.pos_of_ne_zero hv) (Nat.pos_of_ne_zero hi)).ne'
    have hearliest := hpos hmerged
    rw [map_cons, merge_validBefore hm] at hearliest
    exact hearliest.merge hi

theorem earliest_chain_iff (h : activateAll init vs = .ok final) :
    IsEarliest ((init :: vs).map SshAuthOpt.validBefore) final.validBefore ↔
      init.validBefore ≠ 0 ∨ ∀ v ∈ vs, v.validBefore = 0 := by
  obtain ⟨hzero, hpos⟩ := activateAll_validBefore h
  constructor
  · intro he
    by_cases hi : init.validBefore = 0
    · refine .inr fun v hv => he.zero_iff.1 (hzero hi) _ ?_
      exact mem_map_of_mem (mem_cons_of_mem _ hv)
    · exact .inl hi
  · rintro (hi | hall)
    · exact hpos hi
    by_cases hi : init.validBefore = 0
    · have hfinal := hzero hi
      refine ⟨⟨fun _ x hx => ?_, fun _ => hfinal⟩, absurd hfinal, absurd hfinal⟩
      obtain ⟨v, hv, rfl⟩ := mem_map.1 hx
      rcases mem_cons.1 hv with rfl | hv
      · exact hi
      · exact hall v hv
    · exact hpos hi

/-- **The earliest expiry wins** in a merge exactly if the primary options have an expiry or the additional ones have
none, and in a chain exactly if it starts with an expiry or no later member has one. -/
theorem earliest_expiry_iff (init : SshAuthOpt) (vs : List SshAuthOpt) (final : SshAuthOpt)
    (h : activateAll init vs = .ok final) : (∀ p a r, merge p a = .ok r →
      (IsEarliest [p.validBefore, a.validBefore] r.validBefore ↔ p.validBefore ≠ 0 ∨ a.validBefore = 0)) ∧
    (IsEarliest ((init :: vs).map SshAuthOpt.validBefore) final.validBefore ↔
      init.validBefore ≠ 0 ∨ ∀ v ∈ vs, v.validBefore = 0) := by
  refine ⟨fun p a r hm => ?_, earliest_chain_iff h⟩
  have hchain : activateAll p [a] = .ok r := by rw [activateAll, activate, hm]; rfl
  simpa using earliest_chain_iff hchain

/-- three members with an expiry, the second the earliest -/
theorem earliest_expiry_three : IsEarliest [30, 10, 0, 20] 10 :=
  (earliest_expiry_iff { sshauthoptNew with validBefore := 30 }
    [{ sshauthoptNew with validBefore := 10 }, sshauthoptNew, { sshauthoptNew with validBefore := 20 }]
    { sshauthoptNew with validBefore := 10 } (by decide)).2.2 (.inl (by decide))

/-- a key without an expiry merged with a certificate that has one: the expiry is lost -/
theorem expiry_lost :
    ∃ r, merge sshauthoptNewWithKeysDefaults { sshauthoptNewWithKeysDefaults with validBefore := 1000 } = .ok r ∧
      r.validBefore = 0 ∧ ¬ IsEarliest [0, 1000] r.validBefore := by
  exact ⟨sshauthoptNewWithKeysDefaults, by decide, by decide, by decide⟩

end OpenSSHServerPN.AuthOptions
