/-
The agent's key store in the registry (`ssh-agent/keyagent-request.c`: `process_add_identity`,
`process_add_smartcard_key`, `process_remove_smartcard_key`, `remove_matching_subkeys_from_registry`,
`is_reg_sub_key_exists`).

Model: the store of one user is two registry keys whose subkeys are the stored keys, named by their thumbprint, and the
providers, named by their path. A subkey may lack values, as it does between its creation and the last value. Names are
compared without case. The requests are programs of `Faulty` in which every call that can fail is an effect: the exception
says which registry key was open at that moment (the variable `reg`), because the clean-up at `done:` goes by it. What is
parsed out of a request, the encrypted blobs and the keys a provider offers are part of the request.
Left out: a store reached through `HKEY_LOCAL_MACHINE` when the impersonation of the client fails.

Results: `removeMatching_finishes` and the `_finishes` lemmas after it, what the requests do when no call fails.
-/
import OpenSSHServerPN.Lib.Faulty
import OpenSSHServerPN.Agent.Providers

namespace OpenSSHServerPN.AgentStore

open Faulty WinPath Agent List

/-! ## Registry keys -/

/-- subkeys with their values -/
abbrev Table (α : Type) := List (Text × α)

def sameName (a b : Text) : Bool := toLowerCase a == toLowerCase b

variable {α : Type}

/-- `RegOpenKeyEx` finds the subkey -/
def Table.has (name : Text) (t : Table α) : Bool := t.any fun e => sameName e.1 name

/-- `RegDeleteKeyEx`, `RegDeleteTree` -/
def Table.erase (name : Text) (t : Table α) : Table α := t.filter fun e => !sameName e.1 name

/-- `RegCreateKeyEx`: opens the subkey, or creates an empty one -/
def Table.create (name : Text) (empty : α) (t : Table α) : Table α := if t.has name then t else t ++ [(name, empty)]

/-- `RegSetValueEx` -/
def Table.set (name : Text) (f : α → α) (t : Table α) : Table α :=
  t.map fun e => if sameName e.1 name then (e.1, f e.2) else e

/-! ## The store -/

/-- the values of a stored key -/
structure Key where
  /-- the default value: the encrypted private key, or the public key again for a provider's key -/
  blob : Option Text
  pub : Option Text
  type : Option ℕ
  comment : Option Text
deriving DecidableEq, Repr

structure Provider where
  provider : Option Text
  pin : Option Text
deriving DecidableEq, Repr

structure Store where
  keys : Table Key
  providers : Table Provider
deriving DecidableEq, Repr

/-- `SSH_KEYS_ROOT` and `SSH_PKCS11_PROVIDERS_ROOT` -/
inductive Root where
  | keys
  | providers
deriving DecidableEq, Repr

/-- the subkeys with the value that `remove_matching_subkeys_from_registry` compares -/
def Store.entries (s : Store) : Root → List (Text × Option Text)
  | .keys => s.keys.map fun e => (e.1, e.2.comment)
  | .providers => s.providers.map fun e => (e.1, e.2.provider)

def Store.eraseIn (root : Root) (name : Text) (s : Store) : Store :=
  match root with
  | .keys => { s with keys := s.keys.erase name }
  | .providers => { s with providers := s.providers.erase name }

/-! ## Calls -/

/-- the registry key in `reg` and the thumbprint, when a call fails -/
abbrev Opened := Option (Root × Text)

abbrev P := Prog Store Opened

/-- a call that changes nothing in the store -/
def call (reg : Opened) : P Unit := effect reg id

/-- a call whose result is not looked at -/
def ignored (m : P Unit) : P Unit := attempt m fun _ => pure ()

def onKeys (reg : Opened) (f : Table Key → Table Key) : P Unit := effect reg fun s => { s with keys := f s.keys }

def onProviders (reg : Opened) (f : Table Provider → Table Provider) : P Unit :=
  effect reg fun s => { s with providers := f s.providers }

/-- creates the subkey of a key in `SSH_KEYS_ROOT`, which is open, and sets its four values -/
def writeKey (name blob pub : Text) (type : ℕ) (comment : Text) : P Unit := do
  onKeys (some (.keys, name)) (Table.create name { blob := none, pub := none, type := none, comment := none })
  onKeys (some (.keys, name)) (Table.set name fun k => { k with blob := some blob })
  onKeys (some (.keys, name)) (Table.set name fun k => { k with pub := some pub })
  onKeys (some (.keys, name)) (Table.set name fun k => { k with type := some type })
  onKeys (some (.keys, name)) (Table.set name fun k => { k with comment := some comment })

/-- what the client is answered; `invalid` ends the connection without a reply -/
inductive Reply where
  | invalid
  | failure
  | success
deriving DecidableEq, Repr

/-! ## Adding a key -/

/-- the key of a request, with its private part encrypted -/
structure Identity where
  thumbprint : Text
  blob : Text
  pub : Text
  type : ℕ
  comment : Text
deriving DecidableEq, Repr

/-- what parsing makes of the request -/
inductive AddIdentity where
  | invalid
  /-- a constraint that is not supported -/
  | unsupported
  | identity (i : Identity)
deriving DecidableEq, Repr

def storeIdentity (i : Identity) : P Unit := do
  call none                                        -- ConvertStringSecurityDescriptorToSecurityDescriptorW
  call none                                        -- sshkey_to_blob
  call none                                        -- convert_blob
  call none                                        -- sshkey_fingerprint
  call none                                        -- get_user_root
  call none                                        -- RegCreateKeyExW(user_root, SSH_KEYS_ROOT)
  writeKey i.thumbprint i.blob i.pub i.type i.comment

def processAddIdentity : AddIdentity → P Reply
  | .invalid => pure .invalid
  | .unsupported => pure .failure
  | .identity i =>
    attempt (do storeIdentity i; pure .success) fun
      | none => pure .failure
      | some (root, thumbprint) => do
        ignored (effect none (Store.eraseIn root thumbprint))
        pure .failure

/-! ## Removing a provider's subkeys -/

/-- `strncmp(a, b, n) == 0`, where a text is followed by a null character -/
def strncmpEq : ℕ → Text → Text → Bool
  | 0, _, _ => true
  | n + 1, a, b => a.headD '\x00' == b.headD '\x00' && (a.headD '\x00' == '\x00' || strncmpEq n a.tail b.tail)

def MAX_VALUE_DATA_LENGTH : ℕ := 2048

/-- the value is compared over its own length -/
def matchesValue (provider : Text) : Option Text → Bool
  | none => false
  | some data => data.length ≤ MAX_VALUE_DATA_LENGTH && strncmpEq data.length data provider

/-- the loop of `remove_matching_subkeys_from_registry` from an index on; `fuel` bounds the number of turns -/
def removeFrom (root : Root) (provider : Text) : ℕ → ℕ → P Bool
  | 0, _ => pure true
  | fuel + 1, index => do
    call none                                      -- RegEnumKeyExW
    let s ← get
    match (s.entries root)[index]? with
    | none => pure true                            -- ERROR_NO_MORE_ITEMS
    | some (name, value) => do
      let readable ← attempt (do call none; call none; pure true) fun _ => pure false
      if readable && value.any fun data => data.length ≤ MAX_VALUE_DATA_LENGTH then do
        call none                                  -- RegQueryValueExW with the buffer
        if matchesValue provider value then do
          effect none (Store.eraseIn root name)
          removeFrom root provider fuel index      -- the next subkey has moved to this index
        else removeFrom root provider fuel (index + 1)
      else removeFrom root provider fuel (index + 1)

/-- `remove_matching_subkeys_from_registry`; `false` is the return of -1 -/
def removeMatching (root : Root) (provider : Text) : P Bool :=
  attempt (do
    call none                                      -- RegOpenKeyExW
    let s ← get
    removeFrom root provider ((s.entries root).length + 1) 0) fun _ => pure false

/-- `is_reg_sub_key_exists` -/
def providerExists (provider : Text) : P Bool :=
  attempt (do
    call none
    call none
    let s ← get
    pure (s.providers.has provider)) fun _ => pure false

def processRemoveSmartcardKey (cfg : Config) (body : Option Text) : P Reply :=
  match body with
  | none => pure .invalid
  | some provider =>
    match canonicalProvider cfg provider with
    | .error _ => pure .invalid
    | .ok canonical =>
      attempt (do
        call none                                  -- get_user_root
        let known ← providerExists canonical
        require known none
        let keysOk ← removeMatching .keys canonical
        require keysOk none
        let providersOk ← removeMatching .providers canonical
        require providersOk none
        pure .success) fun _ => pure .failure

/-! ## Adding a provider -/

/-- a key that the provider offers -/
structure CardKey where
  thumbprint : Text
  pub : Text
  type : ℕ
deriving DecidableEq, Repr

/-- one turn of the loop over the provider's keys; `reg` is open only after the fourth call -/
def storeCard (provider : Text) (k : CardKey) : P Unit := do
  call none                                        -- ConvertStringSecurityDescriptorToSecurityDescriptorW
  call none                                        -- sshkey_to_blob
  call none                                        -- sshkey_fingerprint
  call none                                        -- RegCreateKeyExW(user_root, SSH_KEYS_ROOT)
  writeKey k.thumbprint k.pub k.pub k.type provider

def storeCards (provider : Text) : List CardKey → P Unit
  | [] => pure ()
  | k :: ks => do
    storeCard provider k
    storeCards provider ks

/-- the provider itself; `reg` still is the keys' root of the last turn until the providers' root is open -/
def storeProvider (provider pin last : Text) : P Unit := do
  call (some (.keys, last))                        -- ConvertStringSecurityDescriptorToSecurityDescriptorW
  call (some (.keys, last))                        -- convert_blob
  call (some (.keys, last))                        -- RegCreateKeyExW(user_root, SSH_PKCS11_PROVIDERS_ROOT)
  onProviders (some (.providers, last)) (Table.create provider { provider := none, pin := none })
  onProviders (some (.providers, last)) (Table.set provider fun v => { v with provider := some provider })
  onProviders (some (.providers, last)) (Table.set provider fun v => { v with pin := some pin })

/-- the old keys of the provider go before the new ones are stored -/
def removeOld (provider : Text) : P Unit := do
  let known ← providerExists provider
  if known then do
    let _ ← removeMatching .keys provider
    let _ ← removeMatching .providers provider
    pure ()
  else pure ()

/-- the calls of a request that passes the checks -/
def storeAll (provider pin : Text) (k : CardKey) (ks : List CardKey) : P Reply := do
  call none                                        -- get_user_root
  removeOld provider
  storeCards provider (k :: ks)
  storeProvider provider pin (((k :: ks).getLast (List.cons_ne_nil k ks)).thumbprint)
  pure .success

/-- its error path -/
def cleanUp (provider : Text) : Opened → P Reply
  | none => pure .failure
  | some (root, thumbprint) => do
    ignored (effect none (Store.eraseIn root thumbprint))
    ignored (effect none (Store.eraseIn root provider))
    pure .failure

/-- `process_add_smartcard_key`: `body` is the provider and the pin, `keys` what the provider offers, `pin` the encrypted
pin -/
def processAddSmartcardKey (cfg : Config) (conn : Conn) (body : Option (Text × ℕ)) (heap : Option Text)
    (keys : List CardKey) (pin : Text) : P Reply :=
  match addDecision cfg conn body heap, keys with
  | (false, _), _ => pure .invalid
  | (true, none), _ => pure .failure
  | (true, some _), [] => pure .failure
  | (true, some provider), k :: ks => attempt (storeAll provider pin k ks) (cleanUp provider)

/-! ## When no call fails -/

section Finishes

variable {s : Store} {reg : Opened}

theorem call_finishes : Finishes (call reg) s () s := finishes_effect

theorem ignored_finishes {m : P Unit} {s' : Store} (h : Finishes m s () s') : Finishes (ignored m) s () s' :=
  finishes_attempt h

/-- the values of a key that `writeKey` leaves -/
def written (blob pub : Text) (type : ℕ) (comment : Text) : Key :=
  { blob := some blob, pub := some pub, type := some type, comment := some comment }

theorem Table.set_set (name : Text) (f g : α → α) (t : Table α) : (t.set name f).set name g = t.set name (g ∘ f) := by
  unfold Table.set
  rw [map_map]
  refine map_congr_left fun e _ => ?_
  by_cases h : sameName e.1 name = true
  · simp [h]
  · simp [h]

/-- the keys after a key was stored -/
def putKey (name : Text) (k : Key) (t : Table Key) : Table Key :=
  (t.create name { blob := none, pub := none, type := none, comment := none }).set name fun _ => k

theorem writeKey_finishes (name blob pub : Text) (type : ℕ) (comment : Text) :
    Finishes (writeKey name blob pub type comment) s ()
      { s with keys := putKey name (written blob pub type comment) s.keys } := by
  have hkeys : putKey name (written blob pub type comment) s.keys =
      ((((s.keys.create name { blob := none, pub := none, type := none, comment := none }).set name
        fun k => { k with blob := some blob }).set name fun k => { k with pub := some pub }).set name
        fun k => { k with type := some type }).set name fun k => { k with comment := some comment } := by
    simp only [Table.set_set]
    rfl
  rw [hkeys]
  exact finishes_bind finishes_effect (finishes_bind finishes_effect (finishes_bind finishes_effect
    (finishes_bind finishes_effect finishes_effect)))

theorem providerExists_finishes (provider : Text) : Finishes (providerExists provider) s (s.providers.has provider) s :=
  finishes_attempt (finishes_bind call_finishes (finishes_bind call_finishes (finishes_get finishes_pure)))

/-- no two subkeys have the same name -/
def Store.Distinct (s : Store) (root : Root) : Prop :=
  (s.entries root).Pairwise fun a b => sameName a.1 b.1 = false

/-- the subkeys whose value matches are gone -/
def Store.cleared (s : Store) (provider : Text) : Root → Store
  | .keys => { s with keys := s.keys.filter fun e => !matchesValue provider e.2.comment }
  | .providers => { s with providers := s.providers.filter fun e => !matchesValue provider e.2.provider }

theorem sameName_self (a : Text) : sameName a a = true := by simp [sameName]

theorem sameName_comm (a b : Text) : sameName a b = sameName b a := by
  unfold sameName
  rw [Bool.eq_iff_iff, beq_iff_eq, beq_iff_eq]
  exact eq_comm

theorem entries_eraseIn (s : Store) (root : Root) (name : Text) :
    (s.eraseIn root name).entries root = (s.entries root).filter fun e => !sameName e.1 name := by
  cases root <;> simp [Store.eraseIn, Store.entries, Table.erase, filter_map, Function.comp_def]

variable {provider : Text} {root : Root}

theorem cleared_of_none (h : ∀ e ∈ s.entries root, matchesValue provider e.2 = false) :
    s.cleared provider root = s := by
  cases root with
  | keys | providers =>
    rw [Store.cleared, filter_eq_self.2]
    intro e he
    rw [h _ (mem_map.2 ⟨e, he, rfl⟩)]
    rfl

theorem cleared_eraseIn {name : Text}
    (h : ∀ e ∈ s.entries root, sameName e.1 name = true → matchesValue provider e.2 = true) :
    (s.eraseIn root name).cleared provider root = s.cleared provider root := by
  cases root with
  | keys | providers =>
    simp only [Store.eraseIn, Store.cleared, Table.erase, filter_filter]
    congr 1
    refine filter_congr fun e he => ?_
    have := h _ (mem_map.2 ⟨e, he, rfl⟩)
    cases hn : sameName e.1 name with
    | true => simp [this hn]
    | false => simp

variable {kept rest : List (Text × Option Text)}

/-- with distinct names, only the subkey itself has its name -/
theorem filter_name {x : Text × Option Text}
    (h : (kept ++ x :: rest).Pairwise fun a b => sameName a.1 b.1 = false) :
    (kept ++ x :: rest).filter (fun e => !sameName e.1 x.1) = kept ++ rest := by
  obtain ⟨-, hx, hkept⟩ := pairwise_append.1 h
  have hk : kept.filter (fun e => !sameName e.1 x.1) = kept :=
    filter_eq_self.2 fun e he => by rw [hkept e he x mem_cons_self]; rfl
  have hr : rest.filter (fun e => !sameName e.1 x.1) = rest :=
    filter_eq_self.2 fun e he => by rw [sameName_comm, (pairwise_cons.1 hx).1 e he]; rfl
  rw [filter_append, filter_cons, sameName_self, hk, hr]
  simp

/-- **The loop removes exactly the matching subkeys.** The subkeys before the index have been looked at and kept. -/
theorem removeFrom_finishes {fuel : ℕ}
    (hentries : s.entries root = kept ++ rest) (hdistinct : s.Distinct root)
    (hkept : ∀ e ∈ kept, matchesValue provider e.2 = false) (hfuel : rest.length < fuel) :
    Finishes (removeFrom root provider fuel kept.length) s true (s.cleared provider root) := by
  induction rest generalizing s kept fuel with
  | nil =>
    obtain ⟨fuel, rfl⟩ : ∃ n, fuel = n + 1 := ⟨fuel - 1, by omega⟩
    have hnone : (s.entries root)[kept.length]? = none := by simp [hentries]
    have hsame : s.cleared provider root = s := cleared_of_none fun e he => by
      rw [hentries, append_nil] at he
      exact hkept e he
    rw [hsame]
    refine finishes_bind call_finishes (finishes_get ?_)
    rw [hnone]
    exact finishes_pure
  | cons x rest ih =>
    obtain ⟨fuel, rfl⟩ : ∃ n, fuel = n + 1 := ⟨fuel - 1, by simp only [length_cons] at hfuel; omega⟩
    obtain ⟨name, value⟩ := x
    have hfuel' : rest.length < fuel := by simpa using hfuel
    have hsome : (s.entries root)[kept.length]? = some (name, value) := by simp [hentries]
    have hpair := hdistinct
    rw [Store.Distinct, hentries] at hpair
    refine finishes_bind call_finishes (finishes_get ?_)
    rw [hsome]
    refine finishes_bind (finishes_attempt (finishes_bind call_finishes (finishes_bind call_finishes finishes_pure))) ?_
    -- a subkey that is kept
    have hnext : matchesValue provider value = false →
        Finishes (removeFrom root provider fuel (kept.length + 1)) s true (s.cleared provider root) := by
      intro hno
      have hkept' : ∀ e ∈ kept ++ [(name, value)], matchesValue provider e.2 = false := by
        intro e he
        rcases mem_append.1 he with he | he
        · exact hkept e he
        · rw [mem_singleton.1 he]
          exact hno
      have hentries' : s.entries root = (kept ++ [(name, value)]) ++ rest := by simp [hentries]
      have := ih hentries' hdistinct hkept' hfuel'
      simpa using this
    by_cases hlen : (value.any fun data => decide (data.length ≤ MAX_VALUE_DATA_LENGTH)) = true
    · rw [hlen, Bool.and_self, if_pos rfl]
      refine finishes_bind call_finishes ?_
      by_cases hm : matchesValue provider value = true
      · rw [if_pos hm]
        have herased : (s.eraseIn root name).entries root = kept ++ rest := by
          rw [entries_eraseIn, hentries]
          exact filter_name hpair
        have hclear : (s.eraseIn root name).cleared provider root = s.cleared provider root := by
          refine cleared_eraseIn fun e he hname => ?_
          by_contra hno
          have hmem : e ∈ kept ++ rest := by
            rw [hentries] at he
            rcases mem_append.1 he with he | he
            · exact mem_append_left _ he
            · rcases mem_cons.1 he with rfl | he
              · exact absurd hm hno
              · exact mem_append_right _ he
          rw [← filter_name hpair] at hmem
          have := (mem_filter.1 hmem).2
          simp [hname] at this
        have hdistinct' : (s.eraseIn root name).Distinct root := by
          rw [Store.Distinct, entries_eraseIn]
          exact List.Pairwise.sublist filter_sublist hdistinct
        refine finishes_bind finishes_effect ?_
        rw [← hclear]
        exact ih herased hdistinct' hkept hfuel'
      · rw [if_neg hm]
        exact hnext (by simpa using hm)
    · rw [Bool.eq_false_iff.2 hlen, Bool.and_false, if_neg (by simp)]
      refine hnext ?_
      cases value with
      | none => rfl
      | some data => simpa [matchesValue] using fun h => absurd (by simpa using h) hlen

theorem removeMatching_finishes (root : Root) (provider : Text) (h : s.Distinct root) :
    Finishes (removeMatching root provider) s true (s.cleared provider root) := by
  have hnone : ∀ e ∈ ([] : List (Text × Option Text)), matchesValue provider e.2 = false := by simp
  exact finishes_attempt (finishes_bind call_finishes (finishes_get
    (removeFrom_finishes rfl h hnone (Nat.lt_succ_self _))))

/-- the keys after those of a provider were stored -/
def putCards (provider : Text) (ks : List CardKey) (t : Table Key) : Table Key :=
  ks.foldl (fun t k => putKey k.thumbprint (written k.pub k.pub k.type provider) t) t

theorem storeCards_finishes (provider : Text) (ks : List CardKey) :
    Finishes (storeCards provider ks) s () { s with keys := putCards provider ks s.keys } := by
  induction ks generalizing s with
  | nil => exact finishes_pure
  | cons k ks ih =>
    have hone : Finishes (storeCard provider k) s ()
        { s with keys := putKey k.thumbprint (written k.pub k.pub k.type provider) s.keys } :=
      finishes_bind call_finishes (finishes_bind call_finishes (finishes_bind call_finishes
        (finishes_bind call_finishes (writeKey_finishes _ _ _ _ _))))
    exact finishes_bind hone ih

/-- the store after a registered provider was removed -/
def Store.without (s : Store) (provider : Text) : Store := (s.cleared provider .keys).cleared provider .providers

theorem removeBoth_finishes (provider : Text) (hk : s.Distinct .keys) (hp : s.Distinct .providers) :
    Finishes (removeMatching .keys provider) s true (s.cleared provider .keys) ∧
      Finishes (removeMatching .providers provider) (s.cleared provider .keys) true (s.without provider) :=
  ⟨removeMatching_finishes .keys provider hk, removeMatching_finishes .providers provider hp⟩

/-- the store to which the keys of a provider are added -/
def Store.base (s : Store) (provider : Text) : Store := if s.providers.has provider then s.without provider else s

theorem removeOld_finishes (provider : Text) (hk : s.Distinct .keys) (hp : s.Distinct .providers) :
    Finishes (removeOld provider) s () (s.base provider) := by
  unfold Store.base
  refine finishes_bind (providerExists_finishes provider) ?_
  obtain ⟨hkeys, hproviders⟩ := removeBoth_finishes provider hk hp
  cases s.providers.has provider with
  | true => exact finishes_bind hkeys (finishes_bind hproviders finishes_pure)
  | false => exact finishes_pure

/-- **Removing a provider**, when no call fails: one that is not registered is refused. -/
theorem processRemoveSmartcardKey_finishes {cfg : Config} {canonical : Text}
    (hcanonical : canonicalProvider cfg provider = .ok canonical) (hk : s.Distinct .keys) (hp : s.Distinct .providers) :
    Finishes (processRemoveSmartcardKey cfg (some provider)) s
      (if s.providers.has canonical then .success else .failure) (s.base canonical) := by
  unfold processRemoveSmartcardKey Store.base
  simp only [hcanonical]
  obtain ⟨hkeys, hproviders⟩ := removeBoth_finishes canonical hk hp
  cases hknown : s.providers.has canonical with
  | true =>
    refine finishes_attempt (finishes_bind call_finishes (finishes_bind (providerExists_finishes canonical) ?_))
    exact finishes_bind (finishes_require hknown) (finishes_bind hkeys (finishes_bind (finishes_require rfl)
      (finishes_bind hproviders (finishes_bind (finishes_require rfl) finishes_pure))))
  | false =>
    refine finishes_attempt_error (e := none) ⟨3, fun os => ?_⟩ finishes_pure
    -- the three calls tell that the provider is not there
    change Faulty.bind (require (s.providers.has canonical) none) _ s os = _
    rw [hknown]
    rfl

/-- the providers after one was stored -/
def putProvider (provider pin : Text) (t : Table Provider) : Table Provider :=
  ((t.create provider { provider := none, pin := none }).set provider fun v => { v with provider := some provider }).set
    provider fun v => { v with pin := some pin }

theorem storeProvider_finishes (provider pin last : Text) :
    Finishes (storeProvider provider pin last) s () { s with providers := putProvider provider pin s.providers } :=
  finishes_bind call_finishes (finishes_bind call_finishes (finishes_bind call_finishes
    (finishes_bind finishes_effect (finishes_bind finishes_effect finishes_effect))))

/-- **Adding a provider**, when no call fails. -/
theorem processAddSmartcardKey_finishes {cfg : Config} {conn : Conn} {body : Option (Text × ℕ)} {heap : Option Text}
    {pin : Text} {ks : List CardKey} (hdecision : addDecision cfg conn body heap = (true, some provider))
    (hks : ks ≠ []) (hk : s.Distinct .keys) (hp : s.Distinct .providers) :
    Finishes (processAddSmartcardKey cfg conn body heap ks pin) s .success
      { keys := putCards provider ks (s.base provider).keys
        providers := putProvider provider pin (s.base provider).providers } := by
  obtain ⟨k, ks, rfl⟩ := exists_cons_of_ne_nil hks
  unfold processAddSmartcardKey storeAll
  simp only [hdecision]
  exact finishes_attempt (finishes_bind call_finishes (finishes_bind (removeOld_finishes provider hk hp)
    (finishes_bind (storeCards_finishes provider (k :: ks)) (finishes_bind (storeProvider_finishes _ _ _) finishes_pure))))

end Finishes

end OpenSSHServerPN.AgentStore
