/-
What a refused request leaves behind.

Each add request is a sequence of calls, any of which can fail; on the error path the subkey that the thumbprint names is
deleted, whether or not the request created it, and nothing that was deleted or overwritten before comes back.

Results:
- `refused_add_changes_nothing`: a request changes nothing when it is answered with FAILURE, whichever call fails, if and
  only if it makes no call at all or adds an identity that is not stored yet;
- `failed_add_loses_key`: adding a stored key again loses it when the call that opens its subkey fails.
-/
import OpenSSHServerPN.Agent.KeyStore

namespace OpenSSHServerPN.AgentStore

open Faulty WinPath Agent List

variable {s : Store}

/-! ## The requests -/

/-- an add request with what parsing and the provider make of it -/
inductive AddRequest where
  | identity (r : AddIdentity)
  | smartcard (cfg : Config) (conn : Conn) (body : Option (Text × ℕ)) (heap : Option Text) (keys : List CardKey) (pin : Text)

def processAdd : AddRequest → P Reply
  | .identity r => processAddIdentity r
  | .smartcard cfg conn body heap keys pin => processAddSmartcardKey cfg conn body heap keys pin

/-- whichever call fails, a reply of FAILURE leaves the store as it was -/
def ChangesNothing (m : P Reply) (s : Store) : Prop :=
  ∀ os, OneFailure os → (m s os).1 = .ok .failure → exec m s os = s

/-- the request is refused before any call, or adds an identity that is not stored -/
def AddRequest.harmless (s : Store) : AddRequest → Bool
  | .identity (.identity i) => !s.keys.has i.thumbprint
  | .identity _ => true
  | .smartcard cfg conn body heap keys _ => !(addDecision cfg conn body heap).1 || (addDecision cfg conn body heap).2.isNone ||
      keys.isEmpty

/-! ## An identity that is not stored -/

/-- the store with at most a subkey for the key, in any condition -/
def Begun (s : Store) (name : Text) (s' : Store) : Prop :=
  s' = s ∨ ∃ k, s' = { s with keys := s.keys ++ [(name, k)] }

variable {name : Text}

variable {α : Type} {t : Table α}

theorem erase_of_not_has (h : t.has name = false) : t.erase name = t :=
  filter_eq_self.2 fun e he => by
    have := any_eq_false.1 h e he
    simpa using this

theorem erase_begun {s' : Store} (hnew : s.keys.has name = false) (h : Begun s name s') :
    s'.eraseIn .keys name = s := by
  rcases h with rfl | ⟨k, rfl⟩
  · simp only [Store.eraseIn, erase_of_not_has hnew]
  have hlast : Table.erase name [(name, k)] = [] := by simp [Table.erase, sameName_self]
  have happend : Table.erase name (s.keys ++ [(name, k)]) = s.keys := by
    unfold Table.erase at hlast ⊢
    rw [filter_append, hlast, append_nil]
    exact erase_of_not_has hnew
  simp only [Store.eraseIn, happend]

theorem set_of_not_has (h : t.has name = false) (f : α → α) : t.set name f = t := by
  have hid : ∀ e ∈ t, (if sameName e.1 name then (e.1, f e.2) else e) = e := by
    intro e he
    have := any_eq_false.1 h e he
    rw [if_neg this]
  calc t.set name f = t.map id := map_congr_left hid
    _ = t := map_id t

theorem begun_set {k : Key} (hnew : s.keys.has name = false) (f : Key → Key) :
    Table.set name f (s.keys ++ [(name, k)]) = s.keys ++ [(name, f k)] := by
  have := set_of_not_has hnew f
  unfold Table.set at this ⊢
  rw [map_append, this]
  simp [sameName_self]

/-- the exception of a failed call names the subkey, unless there is none -/
def CleanUp (s : Store) (name : Text) (e : Opened) (s' : Store) : Prop :=
  (e = none ∧ s' = s) ∨ (e = some (.keys, name) ∧ Begun s name s')

theorem raises_set {k : Key} (hnew : s.keys.has name = false) (f : Key → Key)
    {Q : Unit → Store → Prop} (hq : Q () { s with keys := s.keys ++ [(name, f k)] }) :
    Raises (onKeys (some (.keys, name)) (Table.set name f)) { s with keys := s.keys ++ [(name, k)] } Q (CleanUp s name) := by
  refine raises_effect ?_ (.inr ⟨rfl, .inr ⟨k, rfl⟩⟩)
  simp only [begun_set hnew]
  exact hq

theorem writeKey_raises (hnew : s.keys.has name = false) (blob pub : Text) (type : ℕ) (comment : Text) :
    Raises (writeKey name blob pub type comment) s (fun _ _ => True) (CleanUp s name) := by
  refine raises_bind (raises_effect ?_ (.inr ⟨rfl, .inl rfl⟩))
  have hcreate : ∀ k : Key, s.keys.create name k = s.keys ++ [(name, k)] := fun k => by
    unfold Table.create
    rw [hnew]
    rfl
  simp only [hcreate]
  refine raises_bind (raises_set hnew _ (raises_bind (raises_set hnew _ (raises_bind (raises_set hnew _ ?_)))))
  exact raises_set hnew _ trivial

variable {i : Identity}

theorem storeIdentity_raises (hnew : s.keys.has i.thumbprint = false) :
    Raises (storeIdentity i) s (fun _ _ => True) (CleanUp s i.thumbprint) := by
  have hcall : ∀ {Q : Unit → Store → Prop}, Q () s → Raises (call none) s Q (CleanUp s i.thumbprint) :=
    fun hq => raises_effect hq (.inl ⟨rfl, rfl⟩)
  refine raises_bind (hcall (raises_bind (hcall (raises_bind (hcall (raises_bind (hcall (raises_bind (hcall
    (raises_bind (hcall ?_)))))))))))
  exact writeKey_raises hnew _ _ _ _

/-- a clean-up call whose result is not looked at, when it does not fail -/
theorem ignored_done {m : P Unit} {os : List Outcome} {r : Reply} {s' : Store} (hdone : ∀ o ∈ os, o = .done)
    {g : Store → Store} (hm : m = effect none g) (h : ((do ignored m; pure r : P Reply) s' os).1 = .ok .failure) :
    exec (do ignored m; pure r : P Reply) s' os = g s' := by
  subst hm
  cases os with
  | nil => cases h
  | cons o os =>
    rw [hdone o mem_cons_self]
    rfl

variable {h : Opened → P Reply}

/-- a failing call, then an error path that restores the store -/
theorem changesNothing_attempt {m : P Reply} {E : Opened → Store → Prop}
    (hm : Raises m s (fun a _ => a ≠ .failure) E)
    (hclean : ∀ e s' os, E e s' → (∀ o ∈ os, o = .done) → (h e s' os).1 = .ok .failure → exec (h e) s' os = s) :
    ChangesNothing (attempt m h) s := by
  intro os hos hreply
  have hend := hm os hos
  unfold exec
  unfold attempt at hreply ⊢
  revert hend hreply
  rcases m s os with ⟨r, s', os'⟩
  cases r with
  | ok a => exact fun hreply hend => absurd (Result.ok.inj hreply) hend.1
  | error e => exact fun hreply hend => hclean e s' os' hend.1 hend.2 hreply
  | cut => exact fun hreply _ => by cases hreply

/-- **A new identity.** The clean-up deletes what the request has created. -/
theorem addIdentity_new (hnew : s.keys.has i.thumbprint = false) :
    ChangesNothing (processAddIdentity (.identity i)) s := by
  have hrun : Raises (do storeIdentity i; pure Reply.success : P Reply) s (fun a _ => a ≠ .failure)
      (CleanUp s i.thumbprint) :=
    raises_bind (raises_mono (storeIdentity_raises hnew) fun _ _ _ => raises_pure (by decide))
  refine changesNothing_attempt hrun ?_
  rintro e s' os (⟨rfl, rfl⟩ | ⟨rfl, hbegun⟩) hdone hreply
  · rfl
  · exact (ignored_done hdone rfl hreply).trans (erase_begun hnew hbegun)

/-! ## Failures that leave a trace -/

/-- the run up to a failing call, then the error path -/
theorem not_changesNothing {m : P Reply} {e : Opened} {s₁ s₂ : Store} (hfails : Fails m s e s₁)
    (hclean : Finishes (h e) s₁ .failure s₂) (hne : s₂ ≠ s) : ¬ChangesNothing (attempt m h) s := by
  obtain ⟨n, hn⟩ := hfails
  obtain ⟨k, hk⟩ := hclean
  intro hall
  have hrun : attempt m h s (replicate n .done ++ .failed :: replicate k .done) = (.ok .failure, s₂, []) := by
    unfold attempt
    rw [hn]
    simpa using hk []
  have hsame := hall _ (oneFailure_at n k) (by rw [hrun])
  unfold exec at hsame
  rw [hrun] at hsame
  exact hne hsame

theorem length_erase_lt (h : t.has name = true) :
    (t.erase name).length < t.length := by
  obtain ⟨e, he, hn⟩ := any_eq_true.1 h
  exact length_filter_lt_length_iff_exists.2 ⟨e, he, by simp [hn]⟩

/-- opening the subkey of a stored key fails: the key is deleted -/
theorem addIdentity_stored (hstored : s.keys.has i.thumbprint = true) :
    ¬ChangesNothing (processAddIdentity (.identity i)) s := by
  have hcreate : Fails (storeIdentity i) s (some (.keys, i.thumbprint)) s :=
    fails_bind_right call_finishes (fails_bind_right call_finishes (fails_bind_right call_finishes
      (fails_bind_right call_finishes (fails_bind_right call_finishes (fails_bind_right call_finishes
        (fails_bind_left fails_effect))))))
  have hclean : Finishes (do ignored (effect none (Store.eraseIn .keys i.thumbprint)); pure Reply.failure : P Reply) s
      .failure (s.eraseIn .keys i.thumbprint) :=
    finishes_bind (ignored_finishes finishes_effect) finishes_pure
  refine not_changesNothing (fails_bind_left hcreate) hclean fun heq => ?_
  exact (length_erase_lt hstored).ne (congrArg (fun x => x.keys.length) heq)

/-! ## A provider's keys -/

section Smartcard

variable {provider pin : Text} {k : CardKey} {ks : List CardKey}

theorem cleanUp_finishes (root : Root) (thumbprint : Text) :
    Finishes (cleanUp provider (some (root, thumbprint))) s .failure ((s.eraseIn root thumbprint).eraseIn root provider) :=
  finishes_bind (ignored_finishes finishes_effect) (finishes_bind (ignored_finishes finishes_effect) finishes_pure)

section
variable (hk : s.Distinct .keys) (hp : s.Distinct .providers)
include hk hp

/-- the first call for the first key fails: what was removed does not come back -/
theorem storeAll_fails_first : Fails (storeAll provider pin k ks) s none (s.base provider) :=
  fails_bind_right call_finishes (fails_bind_right (removeOld_finishes provider hk hp)
    (fails_bind_left (fails_bind_left (fails_bind_left fails_effect))))

theorem storeAll_fails_key : Fails (storeAll provider pin k ks) s (some (.keys, k.thumbprint)) (s.base provider) := by
  have hcreate : Fails (storeCard provider k) (s.base provider) (some (.keys, k.thumbprint)) (s.base provider) :=
    fails_bind_right call_finishes (fails_bind_right call_finishes (fails_bind_right call_finishes
      (fails_bind_right call_finishes (fails_bind_left fails_effect))))
  exact fails_bind_right call_finishes (fails_bind_right (removeOld_finishes provider hk hp)
    (fails_bind_left (fails_bind_left hcreate)))

/-- the subkey of the provider cannot be opened: the keys are stored -/
theorem storeAll_fails_provider :
    Fails (storeAll provider pin k ks) s (some (.providers, ((k :: ks).getLast (by simp)).thumbprint))
      { s.base provider with keys := putCards provider (k :: ks) (s.base provider).keys } := by
  have hcreate : ∀ s' : Store, Fails (storeProvider provider pin ((k :: ks).getLast (by simp)).thumbprint) s'
      (some (.providers, ((k :: ks).getLast (by simp)).thumbprint)) s' := fun s' =>
    fails_bind_right call_finishes (fails_bind_right call_finishes (fails_bind_right call_finishes
      (fails_bind_left fails_effect)))
  exact fails_bind_right call_finishes (fails_bind_right (removeOld_finishes provider hk hp)
    (fails_bind_right (storeCards_finishes provider (k :: ks)) (fails_bind_left (hcreate _))))

end

variable {t : Table Key}

theorem putKey_has {v : Key} {x : Text} (h : t.has x = true) :
    (putKey name v t).has x = true := by
  obtain ⟨e, he, hn⟩ := any_eq_true.1 h
  have hcreate : e ∈ t.create name { blob := none, pub := none, type := none, comment := none } := by
    unfold Table.create
    split
    · exact he
    · exact mem_append_left _ he
  refine any_eq_true.2 ⟨_, mem_map.2 ⟨e, hcreate, rfl⟩, ?_⟩
  split <;> exact hn

theorem putKey_has_self {v : Key} : (putKey name v t).has name = true := by
  have hcreate : (t.create name { blob := none, pub := none, type := none, comment := none }).has name = true := by
    unfold Table.create
    split
    · next h => exact h
    · exact any_eq_true.2 ⟨_, mem_append_right _ (mem_singleton.2 rfl), sameName_self name⟩
  obtain ⟨e, he, hn⟩ := any_eq_true.1 hcreate
  refine any_eq_true.2 ⟨_, mem_map.2 ⟨e, he, rfl⟩, ?_⟩
  rw [if_pos hn]
  exact hn

theorem putCards_has {x : Text} (h : t.has x = true) : (putCards provider ks t).has x = true := by
  induction ks generalizing t with
  | nil => exact h
  | cons k ks ih => exact ih (putKey_has h)

theorem putCards_has_first (t : Table Key) : (putCards provider (k :: ks) t).has k.thumbprint = true := by
  change (putCards provider ks (putKey k.thumbprint _ t)).has k.thumbprint = true
  exact putCards_has putKey_has_self

/-- **A provider's keys.** For every request that passes the checks some call leaves a trace when it fails: what was
removed, the keys that were stored, or the clean-up of a key that was there before. -/
theorem storeAll_changes (hk : s.Distinct .keys) (hp : s.Distinct .providers) :
    ¬ChangesNothing (attempt (storeAll provider pin k ks) (cleanUp provider)) s := by
  by_cases hbase : s.base provider = s
  · by_cases hkeys : putCards provider (k :: ks) s.keys = s.keys
    · -- the keys are stored as they are offered: the first is deleted by the clean-up
      refine not_changesNothing (storeAll_fails_key hk hp) (cleanUp_finishes .keys k.thumbprint) fun heq => ?_
      have hstored : s.keys.has k.thumbprint = true := by
        rw [← hkeys]
        exact putCards_has_first s.keys
      rw [hbase] at heq
      have hlt : ((s.keys.erase k.thumbprint).erase provider).length < s.keys.length := by
        calc ((s.keys.erase k.thumbprint).erase provider).length
            ≤ (s.keys.erase k.thumbprint).length := length_filter_le _ _
          _ < s.keys.length := length_erase_lt hstored
      have := congrArg (fun x => x.keys.length) heq
      simp only [Store.eraseIn] at this
      omega
    · refine not_changesNothing (storeAll_fails_provider hk hp) (cleanUp_finishes .providers _) fun heq => ?_
      rw [hbase] at heq
      exact hkeys (congrArg Store.keys heq)
  · exact not_changesNothing (storeAll_fails_first hk hp) finishes_pure hbase

end Smartcard

/-- **Refused requests.** For every store and every add request: whichever call fails, the reply FAILURE means that nothing
has changed, if and only if the request is refused before the first call or adds an identity that is not stored. -/
theorem refused_add_changes_nothing (s : Store) (r : AddRequest) (hk : s.Distinct .keys) (hp : s.Distinct .providers) :
    ChangesNothing (processAdd r) s ↔ r.harmless s = true := by
  cases r with
  | identity r =>
    cases r with
    | invalid | unsupported => exact iff_of_true (fun _ _ _ => rfl) rfl
    | identity i =>
      cases hstored : s.keys.has i.thumbprint with
      | true => exact iff_of_false (addIdentity_stored hstored) (by simp [AddRequest.harmless, hstored])
      | false => exact iff_of_true (addIdentity_new hstored) (by simp [AddRequest.harmless, hstored])
  | smartcard cfg conn body heap keys pin =>
    simp only [processAdd, AddRequest.harmless]
    rcases hdecision : addDecision cfg conn body heap with ⟨valid, provider⟩
    cases valid <;> cases provider <;> cases keys
    case true.some.cons =>
      unfold processAddSmartcardKey
      simp only [hdecision]
      exact iff_of_false (storeAll_changes hk hp) (by simp)
    -- refused before the first call
    all_goals
      refine iff_of_true (fun os _ _ => ?_) (by simp)
      unfold exec processAddSmartcardKey
      simp only [hdecision]
      rfl

/-! ## A key that is lost -/

/-- a key with its private part, which the request offers once more -/
def keptIdentity : Identity :=
  { thumbprint := "SHA256:a", blob := "x", pub := "y", type := 1, comment := "me@host" }

def keptStore : Store where
  keys := [("SHA256:a", written "x" "y" 1 "me@host")]
  providers := []

/-- the seventh call, which opens the subkey, fails: FAILURE, and the key is gone -/
theorem failed_add_loses_key :
    let os := replicate 6 Outcome.done ++ [.failed, .done];
    OneFailure os ∧ (processAdd (.identity (.identity keptIdentity)) keptStore os).1 = .ok .failure ∧
      (exec (processAdd (.identity (.identity keptIdentity))) keptStore os).keys = [] :=
  ⟨⟨by decide, by decide⟩, by decide, by decide⟩

/-- another key beside the stored one -/
theorem new_identity_harmless :
    ChangesNothing (processAdd (.identity (.identity { keptIdentity with thumbprint := "SHA256:b" }))) keptStore :=
  (refused_add_changes_nothing keptStore (.identity (.identity { keptIdentity with thumbprint := "SHA256:b" }))
    (by unfold Store.Distinct; decide) (by unfold Store.Distinct; decide)).2 (by decide)

end OpenSSHServerPN.AgentStore
