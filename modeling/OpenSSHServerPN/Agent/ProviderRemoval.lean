/-
Which keys go when a provider is removed or added again.

The store does not say where a key came from: `origin` does, and all the code has is the comment, which for a provider's key
is the provider's path. A subkey is taken for the provider's if its comment agrees with the path over the length of the
comment.

Results:
- `provider_keys_deleted_exactly`: removing a provider, or adding it again, deletes its keys and no others if and only if no
  other key has a comment that agrees with a beginning of the path (an empty comment does), the provider's keys were added
  under the same spelling of a path of at most 2048 characters and the provider still is registered, and it offers no key
  that is stored from elsewhere;
- `empty_comment_deleted`: a key with an empty comment goes with the provider, and the keys of a provider removed under
  another spelling stay.
-/
import OpenSSHServerPN.Agent.KeyStore

namespace OpenSSHServerPN.AgentStore

open Faulty WinPath Agent List

variable {origin : Text → Option Text} {p : Text} {ks : List CardKey} {s : Store}

/-! ## The comparison -/

theorem strncmpEq_self (a : Text) : strncmpEq a.length a a = true := by
  induction a with
  | nil => rfl
  | cons c a ih => simp [strncmpEq, ih]

theorem eq_of_strncmpEq {a b : Text} (hlen : a.length = b.length) (hnul : '\x00' ∉ a)
    (h : strncmpEq a.length a b = true) : a = b := by
  induction a generalizing b with
  | nil => exact (length_eq_zero_iff.1 hlen.symm).symm
  | cons c a ih =>
    cases b with
    | nil => cases hlen
    | cons d b =>
      have hc : ¬c = '\x00' := fun hc => hnul (hc ▸ mem_cons_self)
      simp only [length_cons, strncmpEq, headD_cons, tail_cons, Bool.and_eq_true, Bool.or_eq_true,
        beq_iff_eq, hc, false_or] at h
      rw [h.1, ih (by simpa using hlen) (fun hm => hnul (mem_cons_of_mem c hm)) h.2]

theorem length_of_sameName {a b : Text} (h : sameName a b = true) : a.length = b.length := by
  have := congrArg length (beq_iff_eq.1 h)
  simpa [toLowerCase] using this

theorem sameName_trans {a b c : Text} (h : sameName a b = true) (h' : sameName b c = true) : sameName a c = true :=
  beq_iff_eq.2 ((beq_iff_eq.1 h).trans (beq_iff_eq.1 h'))

/-! ## What should be deleted -/

/-- the key was added from the provider: the same path, up to case -/
def From (origin : Text → Option Text) (p name : Text) : Prop := ∃ q, origin name = some q ∧ sameName q p = true

/-- a store whose names are distinct and in which a key added from a provider has the provider's path as its comment -/
structure Recorded (origin : Text → Option Text) (s : Store) : Prop where
  keys : s.Distinct .keys
  providers : s.Distinct .providers
  comment : ∀ e ∈ s.keys, ∀ q, origin e.1 = some q → e.2.comment = some q ∧ '\x00' ∉ q

/-- the thumbprint of a key is that of no other key -/
def Fingerprints (ks : List CardKey) : Prop :=
  ∀ k ∈ ks, ∀ k' ∈ ks, sameName k.thumbprint k'.thumbprint = true → k.pub = k'.pub ∧ k.type = k'.type

/-- the keys of the provider are gone, except those offered anew; every other key is there with its values -/
def DeletesExactly (origin : Text → Option Text) (p : Text) (offered : List CardKey) (before after : Table Key) : Prop :=
  ∀ e ∈ before, (From origin p e.1 → (∀ k ∈ offered, sameName e.1 k.thumbprint = false) → after.has e.1 = false) ∧
      (¬From origin p e.1 → e ∈ after)

/-- the condition on the store and the keys offered -/
structure Apart (origin : Text → Option Text) (p : Text) (offered : List CardKey) (s : Store) : Prop where
  /-- no other key's comment agrees with a beginning of the path of a provider that is registered -/
  other : s.providers.has p = true → ∀ e ∈ s.keys, ¬From origin p e.1 → matchesValue p e.2.comment = false
  /-- the provider's keys were added under this spelling, and the provider is registered -/
  own : ∀ e ∈ s.keys, ∀ q, origin e.1 = some q → sameName q p = true →
    s.providers.has p = true ∧ q = p ∧ p.length ≤ MAX_VALUE_DATA_LENGTH
  /-- a key offered is no other key of the store -/
  offered : ∀ e ∈ s.keys, ¬From origin p e.1 → ∀ k ∈ offered, sameName e.1 k.thumbprint = true →
    e.2 = written k.pub k.pub k.type p

variable {e : Text × Key} {t : Table Key}

/-- a key of the provider matches exactly under the same spelling of a path that is not too long -/
theorem matches_own (h : Recorded origin s) (he : e ∈ s.keys) {q : Text} (ho : origin e.1 = some q)
    (hq : sameName q p = true) : matchesValue p e.2.comment = true ↔ q = p ∧ p.length ≤ MAX_VALUE_DATA_LENGTH := by
  obtain ⟨hcomment, hnul⟩ := h.comment e he q ho
  rw [hcomment]
  simp only [matchesValue, Bool.and_eq_true, decide_eq_true_eq]
  constructor
  · rintro ⟨hlen, hcmp⟩
    have heq : q = p := eq_of_strncmpEq (length_of_sameName hq) hnul hcmp
    exact ⟨heq, heq ▸ hlen⟩
  · rintro ⟨rfl, hlen⟩
    exact ⟨hlen, strncmpEq_self q⟩

/-! ## Removing -/

theorem mem_base (e : Text × Key) :
    e ∈ (s.base p).keys ↔ e ∈ s.keys ∧ (s.providers.has p = true → matchesValue p e.2.comment = false) := by
  unfold Store.base
  split
  · next hknown => simp [Store.without, Store.cleared, hknown]
  · next hknown => simp [hknown]

theorem eq_of_sameName_keys (h : s.Distinct .keys) {e' : Text × Key} (he : e ∈ s.keys) (he' : e' ∈ s.keys)
    (hn : sameName e.1 e'.1 = true) : e = e' := by
  by_contra hne
  have hpair : s.keys.Pairwise fun a b => sameName a.1 b.1 = false := by
    have := h
    rw [Store.Distinct, Store.entries, pairwise_map] at this
    exact this
  have hsymm : Std.Symm fun a b : Text × Key => sameName a.1 b.1 = false :=
    ⟨fun a b hab => by rw [sameName_comm]; exact hab⟩
  have := hpair.forall he he' hne
  rw [hn] at this
  cases this

/-- a name is still there only through its own key -/
theorem has_base (h : s.Distinct .keys) (he : e ∈ s.keys) : Table.has e.1 (s.base p).keys = false ↔
    s.providers.has p = true ∧ matchesValue p e.2.comment = true := by
  constructor
  · intro hno
    by_contra hm
    have hmem : e ∈ (s.base p).keys := (mem_base e).2 ⟨he, fun hknown => Bool.eq_false_iff.2 fun hc => hm ⟨hknown, hc⟩⟩
    have hhas : Table.has e.1 (s.base p).keys = true := any_eq_true.2 ⟨e, hmem, sameName_self e.1⟩
    rw [hno] at hhas
    cases hhas
  · rintro ⟨hknown, hm⟩
    refine Bool.eq_false_iff.2 fun hhas => ?_
    obtain ⟨x, hx, hxn⟩ := any_eq_true.1 hhas
    obtain ⟨hxs, hxm⟩ := (mem_base x).1 hx
    have hxe : x = e := eq_of_sameName_keys h hxs he hxn
    rw [hxe, hm] at hxm
    cases hxm hknown

theorem removed_exactly_iff (h : Recorded origin s) : DeletesExactly origin p [] s.keys (s.base p).keys ↔
      (s.providers.has p = true → ∀ e ∈ s.keys, ¬From origin p e.1 → matchesValue p e.2.comment = false) ∧
        ∀ e ∈ s.keys, ∀ q, origin e.1 = some q → sameName q p = true →
          s.providers.has p = true ∧ q = p ∧ p.length ≤ MAX_VALUE_DATA_LENGTH := by
  constructor
  · intro hd
    refine ⟨fun hknown e he hfrom => ((mem_base e).1 ((hd e he).2 hfrom)).2 hknown, fun e he q ho hq => ?_⟩
    have hgone := (hd e he).1 ⟨q, ho, hq⟩ (by simp)
    obtain ⟨hknown, hm⟩ := (has_base h.keys he).1 hgone
    exact ⟨hknown, (matches_own h he ho hq).1 hm⟩
  · rintro ⟨hother, hown⟩ e he
    refine ⟨fun hfrom _ => ?_, fun hfrom => (mem_base e).2 ⟨he, fun hknown => hother hknown e he hfrom⟩⟩
    obtain ⟨q, ho, hq⟩ := hfrom
    obtain ⟨hknown, hpath⟩ := hown e he q ho hq
    exact (has_base h.keys he).2 ⟨hknown, (matches_own h he ho hq).2 hpath⟩

/-! ## Adding again -/

variable {name : Text} {k : Key}

theorem mem_putKey {x : Text × Key} (h : x ∈ putKey name k t) :
    (x ∈ t ∧ sameName x.1 name = false) ∨ (sameName x.1 name = true ∧ x.2 = k) := by
  obtain ⟨e, he, rfl⟩ := mem_map.1 h
  by_cases hn : sameName e.1 name = true
  · rw [if_pos hn]
    exact .inr ⟨hn, rfl⟩
  rw [if_neg hn]
  refine .inl ⟨?_, by simpa using hn⟩
  unfold Table.create at he
  split at he
  · exact he
  · rcases mem_append.1 he with he | he
    · exact he
    · rw [mem_singleton.1 he, sameName_self] at hn
      exact absurd rfl hn

theorem putKey_mem (h : e ∈ t) (hn : sameName e.1 name = false) : e ∈ putKey name k t := by
  have hcreate : e ∈ t.create name { blob := none, pub := none, type := none, comment := none } := by
    unfold Table.create
    split
    · exact h
    · exact mem_append_left _ h
  exact mem_map.2 ⟨e, hcreate, by rw [hn]; rfl⟩

theorem putKey_mem_same (h : e ∈ t) (hn : sameName e.1 name = true) : (e.1, k) ∈ putKey name k t := by
  have hcreate : t.create name { blob := none, pub := none, type := none, comment := none } = t := by
    have hhas : t.has name = true := any_eq_true.2 ⟨e, h, hn⟩
    rw [Table.create, if_pos hhas]
  unfold putKey
  rw [hcreate]
  exact mem_map.2 ⟨e, h, by rw [hn]; rfl⟩

theorem putCards_mem (h : e ∈ t) (hn : ∀ k ∈ ks, sameName e.1 k.thumbprint = false) : e ∈ putCards p ks t := by
  induction ks generalizing t with
  | nil => exact h
  | cons k ks ih =>
    exact ih (putKey_mem h (hn k mem_cons_self)) fun k' hk' => hn k' (mem_cons_of_mem k hk')

section
variable (hf : Fingerprints ks)
include hf

/-- what is there afterwards was there before under a name that is not offered, or is a key offered -/
theorem mem_putCards {x : Text × Key} (h : x ∈ putCards p ks t) : (x ∈ t ∧ ∀ k ∈ ks, sameName x.1 k.thumbprint = false) ∨
      ∃ k ∈ ks, sameName x.1 k.thumbprint = true ∧ x.2 = written k.pub k.pub k.type p := by
  induction ks generalizing t with
  | nil => exact .inl ⟨h, by simp⟩
  | cons k ks ih =>
    have hf' : Fingerprints ks := fun a ha b hb => hf a (mem_cons_of_mem k ha) b (mem_cons_of_mem k hb)
    rcases ih hf' h with ⟨hx, hno⟩ | ⟨k', hk', hsame, hval⟩
    · rcases mem_putKey hx with ⟨hx, hn⟩ | ⟨hn, hval⟩
      · refine .inl ⟨hx, fun k' hk' => ?_⟩
        rcases mem_cons.1 hk' with rfl | hk'
        · exact hn
        · exact hno k' hk'
      · exact .inr ⟨k, mem_cons_self, hn, hval⟩
    · exact .inr ⟨k', mem_cons_of_mem k hk', hsame, hval⟩

theorem putCards_mem_same (h : e ∈ t) {k : CardKey} (hk : k ∈ ks)
    (hn : sameName e.1 k.thumbprint = true) : (e.1, written k.pub k.pub k.type p) ∈ putCards p ks t := by
  induction ks generalizing t e k with
  | nil => cases hk
  | cons k' ks ih =>
    have hf' : Fingerprints ks := fun a ha b hb => hf a (mem_cons_of_mem k' ha) b (mem_cons_of_mem k' hb)
    by_cases hlater : ∃ j ∈ ks, sameName e.1 j.thumbprint = true
    · -- a later turn sets it again, to the same values
      obtain ⟨j, hj, hjn⟩ := hlater
      have hjk : sameName j.thumbprint k.thumbprint = true := sameName_trans (by rw [sameName_comm]; exact hjn) hn
      obtain ⟨hpub, htype⟩ := hf j (mem_cons_of_mem k' hj) k hk hjk
      rw [← hpub, ← htype]
      by_cases hfirst : sameName e.1 k'.thumbprint = true
      · exact ih hf' (putKey_mem_same h hfirst) hj hjn
      · exact ih hf' (putKey_mem h (by simpa using hfirst)) hj hjn
    · have hk' : k = k' := by
        rcases mem_cons.1 hk with hk | hk
        · exact hk
        · exact absurd ⟨k, hk, hn⟩ hlater
      subst hk'
      change (e.1, _) ∈ putCards p ks (putKey k.thumbprint (written k.pub k.pub k.type p) t)
      refine putCards_mem (putKey_mem_same h hn) fun j hj => ?_
      exact Bool.eq_false_iff.2 fun hjn => hlater ⟨j, hj, hjn⟩

theorem added_exactly (h : Recorded origin s) (hapart : Apart origin p ks s) :
    DeletesExactly origin p ks s.keys (putCards p ks (s.base p).keys) := by
  have hremoved := (removed_exactly_iff h).2 ⟨hapart.other, hapart.own⟩
  intro e he
  refine ⟨fun hfrom hno => ?_, fun hfrom => ?_⟩
  · have hgone := (hremoved e he).1 hfrom (by simp)
    refine Bool.eq_false_iff.2 fun hhas => ?_
    obtain ⟨x, hx, hxn⟩ := any_eq_true.1 hhas
    rcases mem_putCards hf hx with ⟨hx, -⟩ | ⟨k, hk, hsame, -⟩
    · have hstill : Table.has e.1 (s.base p).keys = true := any_eq_true.2 ⟨x, hx, hxn⟩
      rw [hgone] at hstill
      cases hstill
    · have hek : sameName e.1 k.thumbprint = true := sameName_trans (by rw [sameName_comm]; exact hxn) hsame
      rw [hno k hk] at hek
      cases hek
  · have hkept : e ∈ (s.base p).keys := (hremoved e he).2 hfrom
    by_cases hoffered : ∃ k ∈ ks, sameName e.1 k.thumbprint = true
    · obtain ⟨k, hk, hn⟩ := hoffered
      have hval := hapart.offered e he hfrom k hk hn
      have hput := putCards_mem_same (p := p) hf hkept hk hn
      rw [← hval] at hput
      exact hput
    · exact putCards_mem hkept fun k hk => Bool.eq_false_iff.2 fun hn => hoffered ⟨k, hk, hn⟩

/-- a key of another origin that is offered must have the values it is given -/
theorem offered_of_exactly (h : DeletesExactly origin p ks s.keys (putCards p ks (s.base p).keys)) :
    ∀ e ∈ s.keys, ¬From origin p e.1 → ∀ k ∈ ks, sameName e.1 k.thumbprint = true → e.2 = written k.pub k.pub k.type p := by
  intro e he hfrom k hk hn
  rcases mem_putCards hf ((h e he).2 hfrom) with ⟨-, hno⟩ | ⟨k', hk', hn', hval⟩
  · rw [hno k hk] at hn
    cases hn
  · have hkk : sameName k'.thumbprint k.thumbprint = true := sameName_trans (by rw [sameName_comm]; exact hn') hn
    obtain ⟨hpub, htype⟩ := hf k' hk' k hk hkk
    rw [hval, hpub, htype]

end

/-- **Exactly the provider's keys.** For every store, and for every provider with its path and the keys it offers:
removing it and adding it again each delete exactly the keys added from it and leave every other key as it is, if and only
if the keys are `Apart`. A provider that is not registered is not removed. -/
theorem provider_keys_deleted_exactly (cfg : Config) (conn : Conn) (body : Option (Text × ℕ)) (heap : Option Text)
    (provider p pin : Text) (origin : Text → Option Text) (ks : List CardKey) (s : Store)
    (hcanonical : canonicalProvider cfg provider = .ok p) (hdecision : addDecision cfg conn body heap = (true, some p))
    (hks : ks ≠ []) (hf : Fingerprints ks) (h : Recorded origin s) :
    ((∃ s', Finishes (processRemoveSmartcardKey cfg (some provider)) s
          (if s.providers.has p then .success else .failure) s' ∧ DeletesExactly origin p [] s.keys s'.keys) ∧
      ∃ s', Finishes (processAddSmartcardKey cfg conn body heap ks pin) s .success s' ∧
        DeletesExactly origin p ks s.keys s'.keys) ↔ Apart origin p ks s := by
  have hremove := processRemoveSmartcardKey_finishes hcanonical h.keys h.providers
  have hadd : Finishes (processAddSmartcardKey cfg conn body heap ks pin) s .success
      { keys := putCards p ks (s.base p).keys, providers := putProvider p pin (s.base p).providers } :=
    processAddSmartcardKey_finishes hdecision hks h.keys h.providers
  constructor
  · rintro ⟨⟨s₁, hs₁, hexact₁⟩, s₂, hs₂, hexact₂⟩
    rw [(finishes_unique hs₁ hremove).2] at hexact₁
    rw [(finishes_unique hs₂ hadd).2] at hexact₂
    obtain ⟨hother, hown⟩ := (removed_exactly_iff h).1 hexact₁
    exact ⟨hother, hown, offered_of_exactly hf hexact₂⟩
  · intro hapart
    exact ⟨⟨_, hremove, (removed_exactly_iff h).2 ⟨hapart.other, hapart.own⟩⟩, _, hadd, added_exactly hf h hapart⟩

/-! ## Keys that are not apart -/

/-- a provider as the client names it, and as it is stored -/
def exampleProvider : Text := "C:\\Program Files\\p11.dll"
def exampleCanonical : Text := "C:/Program Files/p11.dll"

/-- a store with one key and the provider -/
def exampleStore (comment : Text) : Store where
  keys := [("SHA256:a", written "x" "y" 1 comment)]
  providers := [(exampleCanonical, { provider := some exampleCanonical, pin := some [] })]

/-- the client's own key with an empty comment goes with the provider; when the provider is removed under another
spelling, the reply is the same and its key stays -/
theorem empty_comment_deleted :
    (let r := processRemoveSmartcardKey exampleConfig (some exampleProvider) (exampleStore []) (List.replicate 40 .done);
      r.1 = .ok .success ∧ r.2.1.keys = []) ∧
    (let r := processRemoveSmartcardKey exampleConfig (some "C:\\Program Files\\P11.dll")
        (exampleStore exampleCanonical) (List.replicate 40 .done);
      r.1 = .ok .success ∧ r.2.1.keys = (exampleStore exampleCanonical).keys) := by
  decide

/-- a key of the user beside one key of the provider -/
def mixedStore : Store where
  keys := [("SHA256:a", written "x" "y" 1 "me@host"),
    ("SHA256:b", written "z" "z" 1 exampleCanonical)]
  providers := [(exampleCanonical, { provider := some exampleCanonical, pin := some [] })]

def mixedOrigin (name : Text) : Option Text := if name = "SHA256:b" then some exampleCanonical else none

theorem mixed_recorded : Recorded mixedOrigin mixedStore where
  keys := by unfold Store.Distinct; decide
  providers := by unfold Store.Distinct; decide
  comment := by
    have hnul : '\x00' ∉ exampleCanonical := by decide
    intro e he q ho
    rcases mem_cons.1 he with rfl | he
    · cases ho
    · rw [mem_singleton.1 he] at ho ⊢
      cases ho
      exact ⟨rfl, hnul⟩

/-- the card's key is offered again -/
def exampleCard : List CardKey := [{ thumbprint := "SHA256:b", pub := "z", type := 1 }]

def exampleConn : Conn := { alive := true, allowed := some exampleList, nsessionIds := 0 }

theorem mixed_apart : Apart mixedOrigin exampleCanonical exampleCard mixedStore where
  other := by
    intro _ e he hfrom
    rcases mem_cons.1 he with rfl | he
    · decide
    · rw [mem_singleton.1 he] at hfrom
      exact absurd ⟨exampleCanonical, rfl, by decide⟩ hfrom
  own := by
    intro e he q ho _
    rcases mem_cons.1 he with rfl | he
    · cases ho
    · rw [mem_singleton.1 he] at ho
      cases ho
      exact ⟨by decide, rfl, by decide⟩
  offered := by
    intro e he hfrom k hk hn
    rcases mem_cons.1 he with rfl | he
    · rw [mem_singleton.1 hk] at hn
      exact absurd hn (by decide)
    · rw [mem_singleton.1 he] at hfrom
      exact absurd ⟨exampleCanonical, rfl, by decide⟩ hfrom

/-- the user's key beside that of a card -/
theorem provider_keys_deleted_mixed :
    (∃ s', Finishes (processRemoveSmartcardKey exampleConfig (some exampleProvider)) mixedStore .success s' ∧
        DeletesExactly mixedOrigin exampleCanonical [] mixedStore.keys s'.keys) ∧
      ∃ s', Finishes (processAddSmartcardKey exampleConfig exampleConn (some (exampleProvider, 4)) none exampleCard [])
          mixedStore .success s' ∧ DeletesExactly mixedOrigin exampleCanonical exampleCard mixedStore.keys s'.keys := by
  have hf : Fingerprints exampleCard := by
    intro k hk k' hk' _
    rw [mem_singleton.1 hk, mem_singleton.1 hk']
    exact ⟨rfl, rfl⟩
  exact (provider_keys_deleted_exactly exampleConfig exampleConn (some (exampleProvider, 4)) none exampleProvider
    exampleCanonical [] mixedOrigin exampleCard mixedStore (by decide) (by decide) (by simp [exampleCard]) hf
    mixed_recorded).2 mixed_apart

end OpenSSHServerPN.AgentStore
