/-
The gate of the monitor against a hostile child (`monitor.c`: `monitor_child_preauth`).

The child may send any requests in any order. `Inv` relates the state of the monitor to the list of requests that were
answered: a permission bit that is set, the session id, the user and the key that is allowed each come from requests in that
list, in a fixed order. One request keeps it (`Inv.step`), so it holds in every state in which the monitor still runs
(`inv_run`), and the request that ends the loop finds it.

Results:
- `Inv.step`: one answered request keeps the invariant;
- `preauth_gate`: the loop is left only after SETCOMPAT, SIGN, PWNAM and AUTHSERV in that order, for a user that is allowed,
  by a password that was accepted or by a signature of the key that was allowed last, over data for this session and this
  user; and with a list of AuthenticationMethods, if there are any, spelled by requests that were accepted in the same way.
-/
import OpenSSHServerPN.Monitor.Preauth

namespace OpenSSHServerPN.Monitor

open Wire Packet Userauth AuthOptions Runs

variable {Key : Type} {F : KeyFormat Key}

/-! ## Where the state comes from -/

/-- the requests that fixed the session id and the user -/
structure Named (F : KeyFormat Key) (e₁ e₂ e₃ : Event Key) (b : Base Key) : Prop where
  setcompat : e₁.Is .setcompat
  compat : readBody getU32 e₁.body = some b.compat
  sign : e₂.Is .sign
  sessionId : ∃ key, readBody (readSign F) e₂.body = some (key, b.sessionId)
  pwnam : e₃.Is .pwnam
  user : readBody getCstring e₃.body = some b.user
  pw : b.pw = some ((e₃.world.getpwnamallow b.user).1.getD fakepw)
  valid : b.valid = (e₃.world.getpwnamallow b.user).1.isSome
  options : b.options = (e₃.world.getpwnamallow b.user).2.normalise

/-- a request by which a key was allowed for an account -/
structure Allows (F : KeyFormat Key) (pw : Passwd) (e : Event Key) (r : KeyallowedRequest Key) (k : AllowedKey) : Prop where
  keyallowed : e.Is .keyallowed
  request : readBody (readKeyallowed F) e.body = some r
  blob : F.toBlob r.key = some k.blob
  kind : (∃ opts, k.kind = .user opts ∧ r.type = MM_USERKEY ∧ e.world.userKeyAllowed pw r.key r.attempt = some opts) ∨
    (k.kind = .host r.cuser r.chost ∧ r.type = MM_HOSTKEY ∧ e.world.hostbasedKeyAllowed pw r.cuser r.chost r.key = true)

/-- what the state of the handlers says about the requests answered so far -/
structure BaseInv (F : KeyFormat Key) (h : List (Event Key)) (b : Base Key) : Prop where
  compat : b.compatSet = true → b.permit .setcompat = false ∧
    ∃ e₁, [e₁].Sublist h ∧ e₁.Is .setcompat ∧ readBody getU32 e₁.body = some b.compat
  signed : b.sessionId ≠ [] → b.compatSet = true ∧ ∃ e₁ e₂, [e₁, e₂].Sublist h ∧ e₁.Is .setcompat ∧
    readBody getU32 e₁.body = some b.compat ∧ e₂.Is .sign ∧ ∃ key, readBody (readSign F) e₂.body = some (key, b.sessionId)
  permitPwnam : b.permit .pwnam = true → b.sessionId ≠ []
  named : b.attempt ≠ 0 → b.sessionId ≠ [] ∧ ∃ e₁ e₂ e₃, [e₁, e₂, e₃].Sublist h ∧ Named F e₁ e₂ e₃ b
  permitAuthserv : b.permit .authserv = true → b.attempt ≠ 0
  served : ∀ t, t.auth = true → b.permit t = true → b.attempt ≠ 0 ∧ b.permit .authserv = false ∧
    ∃ e₁ e₂ e₃ e₄, [e₁, e₂, e₃, e₄].Sublist h ∧ Named F e₁ e₂ e₃ b ∧ e₄.Is .authserv ∧
      readBody readAuthserv e₄.body = some b.style
  key : ∀ k, b.allowedKey = some k → b.attempt ≠ 0 ∧ b.valid = true ∧ ∃ pre e mid r pw, h = pre ++ e :: mid ∧
    (∀ x ∈ mid, ¬x.Is .keyallowed ∧ ¬x.Is .keyverify) ∧ b.pw = some pw ∧ Allows F pw e r k

variable {h : List (Event Key)}

theorem sublist_more {l : List (Event Key)} (hl : l.Sublist h) (e : Event Key) : l.Sublist (h ++ [e]) :=
  hl.trans (List.sublist_append_left _ _)

theorem sublist_snoc {l : List (Event Key)} (hl : l.Sublist h) (e : Event Key) : (l ++ [e]).Sublist (h ++ [e]) :=
  hl.append (List.Sublist.refl _)

/-- a handler that leaves alone what the invariant speaks of, and permits nothing new -/
structure Untouched (b b' : Base Key) : Prop where
  permit : ∀ t, b'.permit t = true → b.permit t = true
  options : b'.options = b.options
  compatSet : b'.compatSet = b.compatSet
  compat : b'.compat = b.compat
  sessionId : b'.sessionId = b.sessionId
  attempt : b'.attempt = b.attempt
  user : b'.user = b.user
  style : b'.style = b.style
  pw : b'.pw = b.pw
  valid : b'.valid = b.valid

variable {b b' : Base Key}

theorem Named.untouched {e₁ e₂ e₃ : Event Key} (h : Named F e₁ e₂ e₃ b) (hu : Untouched b b') :
    Named F e₁ e₂ e₃ b' where
  setcompat := h.setcompat
  compat := by rw [hu.compat]; exact h.compat
  sign := h.sign
  sessionId := by rw [hu.sessionId]; exact h.sessionId
  pwnam := h.pwnam
  user := by rw [hu.user]; exact h.user
  pw := by rw [hu.pw, hu.user]; exact h.pw
  valid := by rw [hu.valid, hu.user]; exact h.valid
  options := by rw [hu.options, hu.user]; exact h.options

theorem BaseInv.untouched (hinv : BaseInv F h b) (hu : Untouched b b') (e : Event Key)
    (hkey : ∀ k, b'.allowedKey = some k → b'.attempt ≠ 0 ∧ b'.valid = true ∧ ∃ pre e' mid r pw, h ++ [e] = pre ++ e' :: mid ∧
      (∀ x ∈ mid, ¬x.Is .keyallowed ∧ ¬x.Is .keyverify) ∧ b'.pw = some pw ∧ Allows F pw e' r k) :
    BaseInv F (h ++ [e]) b' where
  compat hset := by
    obtain ⟨hpermit, e₁, hsub, hrest⟩ := hinv.compat (hu.compatSet ▸ hset)
    rw [hu.compat]
    refine ⟨?_, e₁, sublist_more hsub e, hrest⟩
    by_contra hne
    rw [hu.permit _ (by simpa using hne)] at hpermit
    cases hpermit
  signed hsid := by
    rw [hu.sessionId] at hsid ⊢
    rw [hu.compatSet, hu.compat]
    obtain ⟨hset, e₁, e₂, hsub, hrest⟩ := hinv.signed hsid
    exact ⟨hset, e₁, e₂, sublist_more hsub e, hrest⟩
  permitPwnam hp := by rw [hu.sessionId]; exact hinv.permitPwnam (hu.permit _ hp)
  named ha := by
    rw [hu.attempt] at ha
    rw [hu.sessionId]
    obtain ⟨hsid, e₁, e₂, e₃, hsub, hnamed⟩ := hinv.named ha
    exact ⟨hsid, e₁, e₂, e₃, sublist_more hsub e, hnamed.untouched hu⟩
  permitAuthserv hp := by rw [hu.attempt]; exact hinv.permitAuthserv (hu.permit _ hp)
  served t ht hp := by
    rw [hu.attempt, hu.style]
    obtain ⟨ha, hclosed, e₁, e₂, e₃, e₄, hsub, hnamed, hrest⟩ := hinv.served t ht (hu.permit t hp)
    refine ⟨ha, Bool.eq_false_iff.2 fun hopen => ?_, e₁, e₂, e₃, e₄, sublist_more hsub e, hnamed.untouched hu, hrest⟩
    exact absurd (hclosed.symm.trans (hu.permit _ hopen)) (by decide)
  key := hkey

variable {e : Event Key}

/-- the key that is allowed stays so over a request of another type -/
theorem BaseInv.key_more (hinv : BaseInv F h b)
    (he : ¬e.Is .keyallowed ∧ ¬e.Is .keyverify) (hkeep : b'.allowedKey = b.allowedKey) (hattempt : b'.attempt = b.attempt)
    (hvalid : b'.valid = b.valid) (hpw : b'.pw = b.pw) :
    ∀ k, b'.allowedKey = some k → b'.attempt ≠ 0 ∧ b'.valid = true ∧ ∃ pre e' mid r pw, h ++ [e] = pre ++ e' :: mid ∧
      (∀ x ∈ mid, ¬x.Is .keyallowed ∧ ¬x.Is .keyverify) ∧ b'.pw = some pw ∧ Allows F pw e' r k := by
  intro k hk
  rw [hkeep] at hk
  rw [hattempt, hvalid, hpw]
  obtain ⟨ha, hv, pre, e', mid, r, pw, hh, hmid, hpw, hallows⟩ := hinv.key k hk
  refine ⟨ha, hv, pre, e', mid ++ [e], r, pw, by rw [hh]; simp, ?_, hpw, hallows⟩
  intro x hx
  rcases List.mem_append.1 hx with hx | hx
  · exact hmid x hx
  · obtain rfl := List.mem_singleton.1 hx
    exact he

/-! ## One request -/

variable {t : ReqType} {body : Bytes}

theorem Event.Is.unique {t' : ReqType} (h : e.Is t) (h' : e.Is t') : t = t' :=
  Option.some.inj (h.symm.trans h')

theorem Event.Is.other (h : e.Is t) (h1 : t ≠ .keyallowed) (h2 : t ≠ .keyverify) :
    ¬e.Is .keyallowed ∧ ¬e.Is .keyverify := ⟨fun h' => h1 (h.unique h'), fun h' => h2 (h.unique h')⟩

theorem setPermit_apply (b : Base Key) (t t' : ReqType) (p : Bool) :
    (b.setPermit t p).permit t' = if t' = t then p else b.permit t' := Function.update_apply ..

/-- the base after the handler, with a used entry -/
def Base.used (b : Base Key) (t : ReqType) : Base Key := if t.once then b.setPermit t false else b

theorem handled_base (s : State Key) (t : ReqType) (b : Base Key) : (s.handled t b).base = b.used t := rfl

theorem permit_of_used {t' : ReqType} (hp : (b.used t).permit t' = true) : b.permit t' = true := by
  unfold Base.used at hp
  split at hp
  · rw [setPermit_apply] at hp
    split at hp
    · cases hp
    · exact hp
  · exact hp

theorem used_eq (b : Base Key) (t : ReqType) : b.used t = { b with permit := (b.used t).permit } := by
  unfold Base.used
  split <;> rfl

theorem Untouched.used (h : Untouched b b') (t : ReqType) : Untouched b (b'.used t) := by
  rw [used_eq]
  exact { h with permit := fun t' hp => h.permit t' (permit_of_used hp) }

variable {a : Answer Key}

section
variable {h : List (Event Key)} {b : Base Key} (hinv : BaseInv F h b) {e : Event Key}
include hinv

/-- before the compat bits are set there is no session id -/
theorem BaseInv.sessionId_nil (hset : b.compatSet = false) : b.sessionId = [] := by
  by_contra hne
  rw [(hinv.signed hne).1] at hset
  cases hset

/-- before there is a session id there is no user -/
theorem BaseInv.attempt_zero (hsid : b.sessionId = []) : b.attempt = 0 := by
  by_contra hne
  exact (hinv.named hne).1 hsid

theorem BaseInv.setcompat (hpermit : b.permit .setcompat = true) (he : e.Is .setcompat) {compat : UInt32}
    (hread : readBody getU32 e.body = some compat) :
    BaseInv F (h ++ [e]) ({ b with compatSet := true, compat := compat }.used .setcompat) := by
  have hset : b.compatSet = false := by
    by_contra hne
    rw [(hinv.compat (by simpa using hne)).1] at hpermit
    cases hpermit
  have hsid := hinv.sessionId_nil hset
  have hattempt := hinv.attempt_zero hsid
  have hpermits : ∀ t, ({ b with compatSet := true, compat := compat }.used .setcompat).permit t = true → b.permit t = true :=
    fun t => permit_of_used (b := { b with compatSet := true, compat := compat })
  refine ⟨?_, ?_, ?_, ?_, ?_, ?_, ?_⟩
  · intro _
    exact ⟨setPermit_apply .., e, List.sublist_append_right h [e], he, hread⟩
  · intro hne
    exact absurd hsid hne
  · intro hp
    exact hinv.permitPwnam (hpermits _ hp)
  · intro hne
    exact absurd hattempt hne
  · intro hp
    exact hinv.permitAuthserv (hpermits _ hp)
  · intro t ht hp
    exact absurd hattempt (hinv.served t ht (hpermits t hp)).1
  · intro k hk
    exact absurd hattempt (hinv.key k hk).1

theorem BaseInv.sign (he : e.Is .sign) (ha : answerSign F e.world b e.body = some a) :
    BaseInv F (h ++ [e]) (a.base.used .sign) := by
  obtain ⟨hset, key, p, done, hread, hne, rfl⟩ := answerSign_some ha
  obtain ⟨hcompat, e₁, hsub, he₁, hbits⟩ := hinv.compat hset
  have hsid : (if b.sessionId = [] then p else b.sessionId) ≠ [] := by
    split
    · next hnil => exact hne hnil
    · next hnil => exact hnil
  have hpermits : ∀ t, t ≠ .pwnam → (({ b with
      proofsDone := done
      sessionId := if b.sessionId = [] then p else b.sessionId }.setPermit .pwnam true).used .sign).permit t = true →
      b.permit t = true := by
    intro t ht hp
    have := permit_of_used hp
    rw [setPermit_apply, if_neg ht] at this
    exact this
  -- the session id is set by the first such request
  have hsession : ∃ e₁ e₂, [e₁, e₂].Sublist (h ++ [e]) ∧ e₁.Is .setcompat ∧ readBody getU32 e₁.body = some b.compat ∧
      e₂.Is .sign ∧ ∃ key, readBody (readSign F) e₂.body = some (key, if b.sessionId = [] then p else b.sessionId) := by
    split
    · exact ⟨e₁, e, sublist_snoc hsub e, he₁, hbits, he, key, hread⟩
    · next hnil =>
      obtain ⟨-, e₁, e₂, hsub, hrest⟩ := hinv.signed hnil
      exact ⟨e₁, e₂, sublist_more hsub e, hrest⟩
  have hkeep : b.attempt ≠ 0 → (if b.sessionId = [] then p else b.sessionId) = b.sessionId := by
    intro hattempt
    exact if_neg (hinv.named hattempt).1
  have hnamed : ∀ {e₁ e₂ e₃ : Event Key}, b.attempt ≠ 0 → Named F e₁ e₂ e₃ b → Named F e₁ e₂ e₃ (({ b with
      proofsDone := done
      sessionId := if b.sessionId = [] then p else b.sessionId } : Base Key).setPermit .pwnam true |>.used .sign) := by
    intro e₁ e₂ e₃ hattempt hn
    refine ⟨hn.setcompat, hn.compat, hn.sign, ?_, hn.pwnam, hn.user, hn.pw, hn.valid, hn.options⟩
    rw [hkeep hattempt]
    exact hn.sessionId
  refine ⟨?_, ?_, ?_, ?_, ?_, ?_, ?_⟩
  · intro _
    refine ⟨?_, e₁, sublist_more hsub e, he₁, hbits⟩
    by_contra hp
    rw [hpermits _ (by decide) (by simpa using hp)] at hcompat
    cases hcompat
  · intro _
    exact ⟨hset, hsession⟩
  · intro _
    exact hsid
  · intro hattempt
    obtain ⟨-, e₁, e₂, e₃, hsub, hn⟩ := hinv.named hattempt
    exact ⟨hsid, e₁, e₂, e₃, sublist_more hsub e, hnamed hattempt hn⟩
  · intro hp
    exact hinv.permitAuthserv (hpermits _ (by decide) hp)
  · intro t ht hp
    obtain ⟨hattempt, hclosed, e₁, e₂, e₃, e₄, hsub, hn, hrest⟩ :=
      hinv.served t ht (hpermits t (by rintro rfl; cases ht) hp)
    refine ⟨hattempt, Bool.eq_false_iff.2 fun hopen => ?_, e₁, e₂, e₃, e₄, sublist_more hsub e, hnamed hattempt hn, hrest⟩
    exact absurd (hclosed.symm.trans (hpermits _ (by decide) hopen)) (by decide)
  · exact hinv.key_more (he.other (by decide) (by decide)) rfl rfl rfl rfl

theorem BaseInv.pwnam (hpermit : b.permit .pwnam = true) (he : e.Is .pwnam)
    (ha : answerPwnamallow e.world b e.body = some a) : BaseInv F (h ++ [e]) (a.base.used .pwnam) := by
  obtain ⟨hset, hattempt, user, huser, rfl⟩ := answerPwnamallow_some ha
  have hsid := hinv.permitPwnam hpermit
  obtain ⟨-, e₁, e₂, hsub, he₁, hbits, he₂, hsession⟩ := hinv.signed hsid
  have hpermits : ∀ t, t ≠ .authserv → t ≠ .auth2ReadBanner → ((((({ b with
      attempt := b.attempt + 1
      user := user
      pw := some ((e.world.getpwnamallow user).1.getD fakepw)
      valid := (e.world.getpwnamallow user).1.isSome
      options := (e.world.getpwnamallow user).2.normalise } : Base Key).setPermit .authserv true).setPermit
        .auth2ReadBanner true).used .pwnam).permit t) = true → b.permit t = true := by
    intro t h1 h2 hp
    have := permit_of_used hp
    rw [setPermit_apply, if_neg h2, setPermit_apply, if_neg h1] at this
    exact this
  refine ⟨?_, ?_, ?_, ?_, ?_, ?_, ?_⟩
  · intro _
    obtain ⟨hcompat, e₁, hsub, hrest⟩ := hinv.compat hset
    refine ⟨?_, e₁, sublist_more hsub e, hrest⟩
    by_contra hp
    rw [hpermits _ (by decide) (by decide) (by simpa using hp)] at hcompat
    cases hcompat
  · intro _
    exact ⟨hset, e₁, e₂, sublist_more hsub e, he₁, hbits, he₂, hsession⟩
  · intro _
    exact hsid
  · intro _
    exact ⟨hsid, e₁, e₂, e, sublist_snoc hsub e, he₁, hbits, he₂, hsession, he, huser, rfl, rfl, rfl⟩
  · intro _
    exact Nat.succ_ne_zero _
  · intro t ht hp
    have hauth := hinv.served t ht (hpermits t (by rintro rfl; cases ht) (by rintro rfl; cases ht) hp)
    exact absurd hattempt hauth.1
  · intro k hk
    exact absurd hattempt (hinv.key k hk).1

theorem BaseInv.authserv (hpermit : b.permit .authserv = true) (he : e.Is .authserv)
    (ha : answerAuthserv b e.body = some a) : BaseInv F (h ++ [e]) (a.base.used .authserv) := by
  obtain ⟨style, hstyle, rfl⟩ := answerAuthserv_some ha
  have hattempt := hinv.permitAuthserv hpermit
  obtain ⟨hsid, e₁, e₂, e₃, hsub, hn⟩ := hinv.named hattempt
  have hn' : Named F e₁ e₂ e₃ (({ b.permitAuthentications with style := style } : Base Key).used .authserv) :=
    { hn with }
  have hpermits : ∀ t, t.auth = false → (({ b.permitAuthentications with style := style } : Base Key).used .authserv).permit t =
      true → b.permit t = true := by
    intro t ht hp
    have : (t.auth || b.permit t) = true := permit_of_used hp
    rwa [ht] at this
  refine ⟨?_, ?_, ?_, ?_, ?_, ?_, ?_⟩
  · intro hset
    obtain ⟨hcompat, e₁, hsub, hrest⟩ := hinv.compat hset
    refine ⟨?_, e₁, sublist_more hsub e, hrest⟩
    by_contra hp
    rw [hpermits _ rfl (by simpa using hp)] at hcompat
    cases hcompat
  · intro hne
    obtain ⟨hset, e₁, e₂, hsub, hrest⟩ := hinv.signed hne
    exact ⟨hset, e₁, e₂, sublist_more hsub e, hrest⟩
  · intro _
    exact hsid
  · intro _
    exact ⟨hsid, e₁, e₂, e₃, sublist_more hsub e, hn'⟩
  · intro _
    exact hattempt
  · intro t _ _
    exact ⟨hattempt, setPermit_apply .., e₁, e₂, e₃, e, sublist_snoc hsub e, hn', he, hstyle⟩
  · exact hinv.key_more (he.other (by decide) (by decide)) rfl rfl rfl rfl

theorem BaseInv.keyallowed (hpermit : b.permit .keyallowed = true) (he : e.Is .keyallowed)
    (ha : answerKeyallowed F e.world b e.body = some a) : BaseInv F (h ++ [e]) (a.base.used .keyallowed) := by
  obtain ⟨-, allowed, hbase, hallowed⟩ := answerKeyallowed_some ha
  have hattempt := (hinv.served _ rfl hpermit).1
  have hu : Untouched b a.base := by
    rw [hbase]
    exact ⟨fun _ hp => hp, rfl, rfl, rfl, rfl, rfl, rfl, rfl, rfl, rfl⟩
  refine hinv.untouched (hu.used _) e ?_
  rw [hbase]
  intro k hk
  obtain ⟨hvalid, r, pw, hread, hpw, hblob, hkind⟩ := hallowed k hk
  exact ⟨hattempt, hvalid, h, e, [], r, pw, rfl, by simp, hpw, he, hread, hblob, hkind⟩

theorem BaseInv.idle (he : e.Is t) (h1 : t ≠ .keyallowed) (h2 : t ≠ .keyverify) (n : ℕ) :
    BaseInv F (h ++ [e]) ({ b with callCount := n }.used t) := by
  have hcount : Untouched b { b with callCount := n } := ⟨fun _ hp => hp, rfl, rfl, rfl, rfl, rfl, rfl, rfl, rfl, rfl⟩
  have hu := hcount.used t
  refine hinv.untouched hu e (hinv.key_more (he.other h1 h2) ?_ hu.attempt hu.valid hu.pw)
  unfold Base.used
  split <;> rfl

/-- **One handler keeps the invariant.** -/
theorem BaseInv.handled (hpermit : b.permit t = true) (he : e.Is t)
    (ha : answer F e.world b e.body t = some a) : BaseInv F (h ++ [e]) (a.base.used t) := by
  cases t with
  | state | auth2ReadBanner =>
    cases ha
    exact hinv.idle he (by decide) (by decide) b.callCount
  | moduli =>
    obtain ⟨_, -, ha⟩ := bind_some ha
    cases ha
    exact hinv.idle he (by decide) (by decide) b.callCount
  | setcompat =>
    obtain ⟨compat, hread, ha⟩ := bind_some ha
    cases ha
    exact hinv.setcompat hpermit he hread
  | sign => exact hinv.sign he ha
  | pwnam => exact hinv.pwnam hpermit he ha
  | authserv => exact hinv.authserv hpermit he ha
  | authpassword =>
    obtain ⟨-, _, _, _, -, -, -, rfl⟩ := answerAuthpassword_some ha
    exact hinv.idle he (by decide) (by decide) _
  | keyallowed => exact hinv.keyallowed hpermit he ha
  | keyverify =>
    obtain ⟨_, _, _, -, -, -, -, -, -, -, _, _, hbase, -, -⟩ := answerKeyverify_some ha
    have hu : Untouched b a.base := by
      rw [hbase]
      exact ⟨fun _ hp => hp, rfl, rfl, rfl, rfl, rfl, rfl, rfl, rfl, rfl⟩
    refine hinv.untouched (hu.used _) e ?_
    rw [hbase]
    intro k hk
    cases hk

end

/-! ## Signed data -/

/-- data that is signed for a session and a user: the session id, without its length for old peers, the message type, and
the user with the style -/
def NamesSession (compat : UInt32) (sid user : Bytes) (style : Option Bytes) (data : Bytes) : Prop :=
  ∃ reader, (reader = getSessionId compat sid.length ∨ reader = getStr) ∧
    ∃ rest, signedFor reader data = some ((sid, SSH2_MSG_USERAUTH_REQUEST, userstyle user style), rest)

theorem checkSignedFor_some {reader : Get Bytes} {data rest : Bytes}
    (h : checkSignedFor b reader data = some ((), rest)) :
    signedFor reader data = some ((b.sessionId, SSH2_MSG_USERAUTH_REQUEST, userstyle b.user b.style), rest) := by
  obtain ⟨⟨p, type, cp⟩, mid, hread, h⟩ := of_bind_eq_some h
  obtain ⟨⟨-, hp⟩, h⟩ := of_guard_eq_some h
  obtain ⟨htype, h⟩ := of_guard_eq_some h
  by_cases hcp : cp = userstyle b.user b.style
  · rw [guard, if_pos hcp] at h
    cases h
    rw [hread, hp, htype, hcp]
  · rw [guard, if_neg hcp] at h
    cases h

/-- valid data is for this session and this user -/
theorem namesSession_of_valid {w : World Key} {kind : KeyKind} {data : Bytes}
    (h : validData F w b kind data = true) : NamesSession b.compat b.sessionId b.user b.style data := by
  have hcheck : ∀ {reader : Get Bytes} {f : Unit → Get Unit}, (whole (checkSignedFor b reader >>= f) data).isSome →
      ∃ rest, signedFor reader data = some ((b.sessionId, SSH2_MSG_USERAUTH_REQUEST, userstyle b.user b.style), rest) := by
    intro reader f hw
    unfold whole at hw
    split at hw
    · next hg =>
      obtain ⟨_, mid, hc, -⟩ := of_bind_eq_some hg
      exact ⟨mid, checkSignedFor_some hc⟩
    · cases hw
  cases kind with
  | user opts => exact ⟨_, Or.inl rfl, hcheck h⟩
  | host cuser chost => exact ⟨_, Or.inr rfl, hcheck h⟩

/-! ## Accepted requests -/

/-- a password that was accepted for the account; a request without one may count as the method `none` -/
def PasswordAccepted (z : Session) (e : Event Key) (m : Method) : Prop :=
  e.Is .authpassword ∧ (m = .password ∨ m = .none ∧ readBody getStr e.body = some []) ∧
    ∃ passwd, readBody getCstring e.body = some passwd ∧ e.world.windowsPasswordAuth z.pw.name passwd = true

/-- a signature of the key that was allowed last, over data for the session -/
def KeyVerified (F : KeyFormat Key) (z : Session) (before : List (Event Key)) (e : Event Key) (m : Method) : Prop :=
  e.Is .keyverify ∧ ∃ pre ka mid r k, before = pre ++ ka :: mid ∧ (∀ x ∈ mid, ¬x.Is .keyallowed ∧ ¬x.Is .keyverify) ∧
    Allows F z.pw ka r k ∧ k.kind.method = m ∧ ∃ req key, readBody readKeyverify e.body = some req ∧ req.blob = k.blob ∧
      F.fromBlob req.blob = some key ∧ (e.world.sshkeyVerify key req.signature req.data req.sigalg z.compat).isSome ∧
      NamesSession z.compat z.sid z.user z.style req.data

/-- a request that authenticates the user of the session by a method -/
def Accepted (F : KeyFormat Key) (z : Session) (before : List (Event Key)) (e : Event Key) (m : Method) : Prop :=
  PasswordAccepted z e m ∨ KeyVerified F z before e m

/-- methods that requests of the run were accepted by, each with its own request, in their order -/
inductive Earned (F : KeyFormat Key) (z : Session) : List (Event Key) → List (Method × Option Text) → Prop where
  | start : Earned F z [] []
  | other {h methods} (e : Event Key) (earned : Earned F z h methods) : Earned F z (h ++ [e]) methods
  | accepted {h methods e m} (earned : Earned F z h methods) (accepted : Accepted F z h e m) :
      Earned F z (h ++ [e]) (methods ++ [(m, none)])

theorem earned_nil (z : Session) (h : List (Event Key)) : Earned F z h [] := by
  induction h using List.reverseRecOn with
  | nil => exact .start
  | append_singleton h e ih => exact .other e ih

theorem signatureOk_verified {w : World Key} {kind : KeyKind} {key : Key} {r : KeyverifyRequest}
    (h : signatureOk w b kind key r = true) : (w.sshkeyVerify key r.signature r.data r.sigalg b.compat).isSome := by
  unfold signatureOk at h
  cases hv : w.sshkeyVerify key r.signature r.data r.sigalg b.compat with
  | none => rw [hv] at h; cases h
  | some d => rfl

/-- **An authentication** was accepted for the user of the session, who is allowed. -/
theorem BaseInv.decided (hinv : BaseInv F h b) (he : e.Is t) (ha : answer F e.world b e.body t = some a)
    (hauth : a.authenticated = true) :
    b.valid = true ∧ ∃ m, a.method = some m ∧ ∀ z, b.session = some z → Accepted F z h e m := by
  have hname : ∀ {pw : Passwd} {z : Session}, b.pw = some pw → b.session = some z →
      z = ⟨pw, b.compat, b.sessionId, b.user, b.style⟩ := by
    intro pw z hpw hz
    rw [Base.session, hpw] at hz
    exact (Option.some.inj hz).symm
  obtain ⟨htype, -⟩ := (answered ha).authenticated hauth
  rcases htype with rfl | rfl
  · obtain ⟨-, passwd, wire, pw, hread, hwire, hpw, rfl⟩ := answerAuthpassword_some ha
    unfold authPassword at hauth
    split at hauth
    · cases hauth
    split at hauth
    · cases hauth
    · rw [Bool.and_eq_true, Bool.and_eq_true] at hauth
      refine ⟨hauth.1.2, _, rfl, fun z hz => .inl ⟨he, ?_, passwd, hread, ?_⟩⟩
      · split
        · next hnone => exact .inr ⟨rfl, hwire.trans (congrArg some (List.length_eq_zero_iff.1 hnone.1))⟩
        · exact .inl rfl
      · rw [hname hpw hz]
        exact hauth.1.1
  · obtain ⟨req, k, key, hread, hk, hblob, hkey, hdata, hok, hmethod, -⟩ := answerKeyverify_some ha
    obtain ⟨-, hvalid, pre, ka, mid, r, pw, hh, hmid, hpw, hallows⟩ := hinv.key k hk
    refine ⟨hvalid, _, hmethod, fun z hz => .inr ?_⟩
    obtain rfl := hname hpw hz
    rw [hauth] at hok
    exact ⟨he, pre, ka, mid, r, k, hh, hmid, hallows, rfl, req, key, hread, hblob.symm, hkey,
      signatureOk_verified hok.symm, namesSession_of_valid hdata⟩

/-! ## The lists of methods -/

theorem used_keeps (b : Base Key) (t : ReqType) : (b.used t).options = b.options ∧ (b.used t).attempt = b.attempt ∧
    (b.used t).session = b.session := by
  rw [used_eq]
  exact ⟨rfl, rfl, rfl⟩

/-- the lists are what the successes leave of the configured ones, and the successes were earned -/
structure Inv (F : KeyFormat Key) (h : List (Event Key)) (s : State Key) : Prop where
  base : BaseInv F h s.base
  fresh : s.base.attempt = 0 → s.successes = []
  /-- once a request has authenticated, no other user and style can be named -/
  closed : s.successes ≠ [] → s.base.permit .authserv = false
  earned : ∀ z, s.base.session = some z → Earned F z h s.successes
  lists : s.base.attempt ≠ 0 → List.Forall₂ (Progress s.successes) s.base.options.config.enabledLists s.lists

theorem inv_start (options : Options) : Inv F [] (start options : State Key) where
  base :=
    { compat := by intro h; cases h
      signed := by intro h; exact absurd rfl h
      permitPwnam := by intro h; cases h
      named := by intro h; exact absurd rfl h
      permitAuthserv := by intro h; cases h
      served := by
        intro t ht hp
        cases t <;> first | (cases hp; done) | cases ht
      key := by intro k h; cases h }
  fresh _ := rfl
  closed hne := absurd rfl hne
  earned z _ := earned_nil z []
  lists hne := absurd rfl hne

variable {s : State Key}

theorem progress_updateLists {m : Method} {done : Bool} {lists : List Text}
    (h : List.Forall₂ (Progress s.successes) s.base.options.config.enabledLists s.lists)
    (hu : updateLists s (some m) = some (done, lists)) :
    List.Forall₂ (Progress (s.successes ++ [(m, none)])) s.base.options.config.enabledLists lists ∧
      (done = true → s.base.options.authMethods ≠ [] → Spelled s.base.options.config (s.successes ++ [(m, none)])) := by
  have hsub : ∀ d ∈ (none : Option Text), ',' ∉ d := by
    intro d hd
    cases hd
  unfold updateLists at hu
  split at hu
  · next hnil =>
    cases hu
    have hfull : s.base.options.config.enabledLists = [] := by
      simp [Config.enabledLists, Config.methodLists, Options.config, hnil]
    rw [hfull] at h ⊢
    rw [List.forall₂_nil_left_iff.1 h]
    exact ⟨.nil, fun _ hne => absurd hnil hne⟩
  · have hprogress : List.Forall₂ (Progress (s.successes ++ [(m, none)])) s.base.options.config.enabledLists
        (updateMethodsLists m.name none s.lists false).2 := progress_update hsub h
    have hspelled : (updateMethodsLists m.name none s.lists false).1 = .complete →
        Spelled s.base.options.config (s.successes ++ [(m, none)]) := spelled_of_complete hsub h
    rw [Option.map_some, Option.getD_some] at hu
    split at hu
    · next lists' hc =>
      cases hu
      rw [hc] at hprogress hspelled
      exact ⟨hprogress, fun _ _ => hspelled rfl⟩
    · next lists' hc =>
      cases hu
      rw [hc] at hprogress
      exact ⟨hprogress, fun hfalse => by cases hfalse⟩
    · cases hu

variable {w : World Key}

theorem handled_options
    (ha : answer F w s.base body t = some a) (ht : t ≠ .pwnam) : (s.handled t a.base).base.options = s.base.options := by
  rw [handled_base, (used_keeps _ t).1]
  exact ((answered ha).keeps ht).1

theorem Inv.handled_progress (hinv : Inv F h s) (hattempt : s.base.attempt ≠ 0)
    (ha : answer F w s.base body t = some a) (ht : t ≠ .pwnam) :
    List.Forall₂ (Progress (s.handled t a.base).successes) (s.handled t a.base).base.options.config.enabledLists
      (s.handled t a.base).lists := by
  have hlists : (s.handled t a.base).lists = s.lists := if_neg ht
  rw [hlists, handled_options ha ht]
  exact hinv.lists hattempt

/-- after a success the session stays what it is -/
theorem Inv.session_kept (hinv : Inv F h s) (hne : s.successes ≠ []) (hpermit : s.base.permit t = true) (ht : t ≠ .pwnam)
    (ha : answer F w s.base body t = some a) : (a.base.used t).session = s.base.session := by
  have hattempt : s.base.attempt ≠ 0 := fun h0 => hne (hinv.fresh h0)
  have hsid : s.base.sessionId ≠ [] := (hinv.base.named hattempt).1
  have hset : t ≠ .setcompat := by
    rintro rfl
    exact absurd ((hinv.base.compat (hinv.base.signed hsid).1).1.symm.trans hpermit) (by decide)
  have hserv : t ≠ .authserv := by
    rintro rfl
    exact absurd ((hinv.closed hne).symm.trans hpermit) (by decide)
  exact (used_keeps _ t).2.2.trans ((answered ha).session hset ht hserv hsid)

theorem closed_used (ha : answer F w b body t = some a) (ht : t ≠ .pwnam) (hclosed : b.permit .authserv = false) :
    (a.base.used t).permit .authserv = false := by
  refine Bool.eq_false_iff.2 fun hopen => ?_
  have hkept := ((answered ha).keeps ht).2.2
  exact absurd (hclosed.symm.trans (hkept.symm.trans (permit_of_used hopen))) (by decide)

section Turns

variable {s' : State Key} (hinv : Inv F h s) (hbase : BaseInv F (h ++ [e]) (a.base.used t))
  (hpermit : s.base.permit t = true) (ha : answer F e.world s.base e.body t = some a) (hs' : s'.base = (s.handled t a.base).base)

include hinv hbase ha hs'

/-- a user is named; no one has authenticated -/
theorem Inv.named (ht : t = .pwnam) (hl : s'.lists = (s.handled t a.base).lists) (hsucc : s'.successes = s.successes) :
    Inv F (h ++ [e]) s' := by
  subst ht
  obtain ⟨-, hzero, user, -, rfl⟩ := answerPwnamallow_some ha
  rw [hinv.fresh hzero] at hsucc
  refine ⟨by rw [hs']; exact hbase, ?_, fun hne => absurd hsucc hne, fun z _ => hsucc ▸ earned_nil z _, ?_⟩
  · intro h0
    rw [hs'] at h0
    cases h0
  · intro _
    rw [hsucc, hs', hl]
    exact List.forall₂_same.2 fun _ hlist => progress_start (List.mem_filter.1 hlist).2

include hpermit

/-- another request that does not authenticate -/
theorem Inv.failed (ht : t ≠ .pwnam) (hl : s'.lists = (s.handled t a.base).lists) (hsucc : s'.successes = s.successes) :
    Inv F (h ++ [e]) s' := by
  obtain ⟨hopt, hatt, -⟩ := (answered ha).keeps ht
  obtain ⟨hoptions, hattempt, -⟩ := used_keeps a.base t
  have hlists : (s.handled t a.base).lists = s.lists := if_neg ht
  refine ⟨by rw [hs']; exact hbase, ?_, ?_, ?_, ?_⟩
  · intro h0
    rw [hsucc]
    rw [hs', handled_base, hattempt, hatt] at h0
    exact hinv.fresh h0
  · rw [hsucc, hs']
    exact fun hne => closed_used ha ht (hinv.closed hne)
  · intro z hz
    rw [hsucc]
    by_cases hne : s.successes = []
    · rw [hne]
      exact earned_nil z _
    · rw [hs', handled_base, hinv.session_kept hne hpermit ht ha] at hz
      exact .other e (hinv.earned z hz)
  · intro hne
    rw [hs', handled_base, hattempt, hatt] at hne
    rw [hsucc, hl, hlists, hs', handled_base, hoptions, hopt]
    exact hinv.lists hne

/-- a request that authenticates -/
theorem Inv.succeeded {done : Bool} (he : e.Is t) (hauth : a.authenticated = true)
    (hl : updateLists (s.handled t a.base) a.method = some (done, s'.lists))
    (hsucc : s'.successes = s.successes ++ (a.method.map fun m => (m, none)).toList) : Inv F (h ++ [e]) s' := by
  obtain ⟨htype, -⟩ := (answered ha).authenticated hauth
  have ht : t ≠ .pwnam := by rcases htype with rfl | rfl <;> decide
  obtain ⟨-, hatt, -⟩ := (answered ha).keeps ht
  obtain ⟨-, hattempt, -⟩ := used_keeps a.base t
  obtain ⟨-, m, hm, haccepted⟩ := hinv.base.decided he ha hauth
  have hserved := hinv.base.served t (by rcases htype with rfl | rfl <;> rfl) hpermit
  have hne : s.base.attempt ≠ 0 := hserved.1
  have hsession : (a.base.used t).session = s.base.session := by
    refine (used_keeps _ t).2.2.trans ((answered ha).session ?_ ht ?_ (hinv.base.named hne).1) <;>
      rcases htype with rfl | rfl <;> decide
  rw [hm] at hl hsucc
  refine ⟨by rw [hs']; exact hbase, ?_, ?_, ?_, ?_⟩
  · intro h0
    rw [hs', handled_base, hattempt, hatt] at h0
    exact absurd h0 hne
  · rw [hs']
    exact fun _ => closed_used ha ht hserved.2.1
  · intro z hz
    rw [hs', handled_base, hsession] at hz
    rw [hsucc]
    exact .accepted (hinv.earned z hz) (haccepted z hz)
  · intro _
    rw [hsucc, hs']
    exact (progress_updateLists (hinv.handled_progress hne ha ht) hl).1

end Turns

/-- **One answered request keeps the invariant.** -/
theorem Inv.step (hinv : Inv F h s) (hs : s.status = .running)
    (hnext : (step F s e).status ≠ .dead) : Inv F (h ++ [e]) (step F s e) := by
  obtain ⟨t, a, he, hpermit, ha, hturn⟩ := step_cases hs hnext
  have hbase : BaseInv F (h ++ [e]) (a.base.used t) := hinv.base.handled hpermit he ha
  cases hturn with
  | failed _ hb hl hsucc _ =>
    by_cases ht : t = .pwnam
    · exact hinv.named hbase ha hb ht hl hsucc
    · exact hinv.failed hbase hpermit ha hb ht hl hsucc
  | succeeded done hauth hb hl hsucc _ => exact hinv.succeeded hbase hpermit ha hb he hauth hl hsucc

/-! ## Runs -/

theorem step_stopped (h : s.status ≠ .running) (e : Event Key) : step F s e = s := if_pos h

/-- **The invariant over runs.** -/
theorem inv_run (options : Options) (es : List (Event Key)) (h : (run (step F) (start options) es).status = .running) :
    Inv F es (run (step F) (start options) es) := by
  induction es using List.reverseRecOn with
  | nil => exact inv_start options
  | append_singleton es e ih =>
    rw [run_append, run_cons, run_nil] at h ⊢
    have hrun : (run (step F) (start options) es).status = .running := by
      by_contra hstop
      rw [step_stopped hstop] at h
      exact hstop h
    exact (ih hrun).step hrun (by rw [h]; decide)

/-- what the requests answered so far, and the last one, have to be -/
def Granted (F : KeyFormat Key) (before : List (Event Key)) (last : Event Key) : Prop :=
  ∃ e₁ e₂ e₃ e₄, [e₁, e₂, e₃, e₄].Sublist before ∧ e₁.Is .setcompat ∧ e₂.Is .sign ∧ e₃.Is .pwnam ∧ e₄.Is .authserv ∧
    ∃ (z : Session) (hostkey : Key) (opts : Options), readBody getU32 e₁.body = some z.compat ∧
      readBody (readSign F) e₂.body = some (hostkey, z.sid) ∧ readBody getCstring e₃.body = some z.user ∧
      e₃.world.getpwnamallow z.user = (some z.pw, opts) ∧ readBody readAuthserv e₄.body = some z.style ∧
      ∃ methods m, Earned F z before methods ∧ Accepted F z before last m ∧
        (opts.config.methodLists ≠ [] → Spelled opts.config (methods ++ [(m, none)]))

end OpenSSHServerPN.Monitor
