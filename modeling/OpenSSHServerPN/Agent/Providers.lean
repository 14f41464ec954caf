/-
PKCS#11 providers of the Windows agent (`ssh-agent/keyagent-request.c`, `connection.c`, `agent.c`, `agent-main.c`).

Model: one worker process for each connection, started with the provider list of the agent; the providers a user has
added live in the registry, shared by all workers. `allowed` is the global `allowed_providers` of a worker: `none` once
`process_add_smartcard_key` has freed it, and what a later request then reads from that memory is part of the request.
`loaded` collects the arguments of every `pkcs11_add_provider` call. `realpath` is the one of `WinPath`, without a chroot.
Answers of the registry, of the provider library and of the parsers are part of the requests. Left out: the keys
themselves, pins (only their length is read) and replies.

Results:
- `loaded_allowed`: if the providers stored at the start are allowed, and every add request names its provider in
  canonical form (up to case) and finds its worker's list still in place, then every provider ever loaded is allowed;
- `dotdot_provider_loaded`: a name with `..` passes the list and loads a library outside it.
-/
import OpenSSHServerPN.Win32.Path

namespace OpenSSHServerPN.Agent

open WinPath Match List

/-! ## State and requests -/

structure Config where
  env : Env
  cwd : Full
  /-- `-Oallow-remote-pkcs11` -/
  remoteAddProvider : Bool

/-- a worker process and its connection -/
structure Conn where
  alive : Bool
  /-- `allowed_providers`; `none` after it was freed -/
  allowed : Option Text
  nsessionIds : ℕ
deriving DecidableEq, Repr

structure St where
  conns : ℕ → Conn
  /-- the providers under `SSH_PKCS11_PROVIDERS_ROOT` -/
  registry : List Text
  /-- ghost: arguments of `pkcs11_add_provider`, oldest first -/
  loaded : List Text

/-- what the environment answers while a provider is added -/
structure AddAnswers where
  /-- what a freed list reads as; `none`: the access ends the process -/
  heap : Option Text
  /-- the number of keys `pkcs11_add_provider` returns -/
  count : ℤ
  rootOk : Bool
  storeOk : Bool
deriving DecidableEq, Repr

inductive Request where
  /-- provider and length of the pin; `none` when the request does not parse -/
  | addSmartcardKey (body : Option (Text × ℕ)) (answers : AddAnswers)
  | removeSmartcardKey (body : Option Text) (registryOk : Bool)
  /-- `reached`: how many stored providers the loop gets through -/
  | sign (reached : ℕ) (wellFormed : Bool)
  | removeAll (rootOk : Bool)
  /-- `none`: refused; else whether the session id is a new one -/
  | sessionBind (verdict : Option Bool)
  /-- a request that handles no provider; a refused one ends the connection -/
  | other (accepted : Bool)
deriving DecidableEq, Repr

/-- `agent_initialize_allow_list`, from the two environment variables -/
def agentInitializeAllowList (progFiles progFilesX86 : Option Text) : Text :=
  match progFiles, progFilesX86 with
  | none, none => []
  | some a, some b => a ++ "\\*," ++ b ++ "\\*"
  | some a, none => a ++ "\\*"
  | none, some b => b ++ "\\*"

/-- the list in force when the agent starts: that of `-P`, or the default one -/
def startList (option progFiles progFilesX86 : Option Text) : Text :=
  option.getD (agentInitializeAllowList progFiles progFilesX86)

/-- the agent after its start, with what the registry already holds -/
def St.start (allowed : Text) (registry : List Text) : St := ⟨fun _ => ⟨true, some allowed, 0⟩, registry, []⟩

/-! ## The requests -/

/-- `realpath` in a worker, without the leading slash of the result -/
def canonicalProvider (cfg : Config) (provider : Text) : Except Errno Text :=
  match realpath cfg.env (WinPath.St.start cfg.cwd) provider with
  | .error e => .error e
  | .ok p => .ok (if p.head? = some '/' then p.tail else p)

/-- `remove_matching_subkeys_from_registry`: the comparison has the length of the stored value -/
def removeMatching (provider : Text) (registry : List Text) : List Text := registry.filter fun e => !e.isPrefixOf provider

/-- `is_reg_sub_key_exists`: key names are compared without case -/
def regSubKeyExists (provider : Text) (registry : List Text) : Bool :=
  registry.any fun e => toLowerCase e = toLowerCase provider

/-- the registry after the keys of a loaded provider were stored, or not -/
def storeProvider (provider : Text) (answers : AddAnswers) (registry : List Text) : List Text :=
  if answers.count ≤ 0 ∨ !answers.rootOk then registry
  else
    let cleared := if regSubKeyExists provider registry then removeMatching provider registry else registry
    if answers.storeOk then cleared ++ [provider] else cleared.filter (· ≠ provider)

/-- what an add request does: whether the connection lives on, and the provider it loads -/
def addDecision (cfg : Config) (conn : Conn) (body : Option (Text × ℕ)) (heap : Option Text) : Bool × Option Text :=
  match body with
  | none => (false, none)
  | some (provider, pinLen) =>
    if 256 < pinLen then (false, none)
    else if conn.nsessionIds ≠ 0 ∧ !cfg.remoteAddProvider then (true, none)
    else
      match canonicalProvider cfg provider with
      | .error _ => (false, none)
      | .ok canonical =>
        match conn.allowed.or heap with
        | none => (false, none)
        | some list =>
          -- the pattern list is matched against the client's own spelling
          if matchPatternList (toLowerCase provider) list true = 1 then (true, some canonical) else (true, none)

/-- `process_add_smartcard_key`; every path through it frees the list -/
def processAddSmartcardKey (cfg : Config) (s : St) (c : ℕ) (body : Option (Text × ℕ)) (answers : AddAnswers) : St :=
  let (alive, load) := addDecision cfg (s.conns c) body answers.heap
  { conns := Function.update s.conns c { s.conns c with alive := alive, allowed := none }
    registry := match load with | none => s.registry | some p => storeProvider p answers s.registry
    loaded := s.loaded ++ load.toList }

/-- the connection after a request that answers, or ends it -/
def St.answered (s : St) (c : ℕ) (ok : Bool) : St :=
  { s with conns := Function.update s.conns c { s.conns c with alive := ok } }

/-- `process_remove_smartcard_key` -/
def processRemoveSmartcardKey (cfg : Config) (s : St) (c : ℕ) (body : Option Text) (registryOk : Bool) : St :=
  match body with
  | none => s.answered c false
  | some provider =>
    match canonicalProvider cfg provider with
    | .error _ => s.answered c false
    | .ok canonical =>
      if registryOk && regSubKeyExists canonical s.registry then
        { s with registry := removeMatching canonical s.registry }
      else s

/-- `process_ext_session_bind` and the reply of `process_extension` -/
def processSessionBind (s : St) (c : ℕ) (verdict : Option Bool) : St :=
  match verdict with
  | none => s.answered c false
  | some false => s
  | some true =>
    let conn := s.conns c
    if 16 ≤ conn.nsessionIds then s.answered c false
    else { s with conns := Function.update s.conns c { conn with nsessionIds := conn.nsessionIds + 1 } }

/-- `process_sign_request`: every stored provider is loaded before the request is read -/
def processSignRequest (s : St) (c : ℕ) (reached : ℕ) (wellFormed : Bool) : St :=
  { (s.answered c wellFormed) with loaded := s.loaded ++ s.registry.take reached }

/-- `process_request` on connection `c` -/
def step (cfg : Config) (s : St) (r : ℕ × Request) : St :=
  let c := r.1
  if (s.conns c).alive then
    match r.2 with
    | .addSmartcardKey body answers => processAddSmartcardKey cfg s c body answers
    | .removeSmartcardKey body registryOk => processRemoveSmartcardKey cfg s c body registryOk
    | .sign reached wellFormed => processSignRequest s c reached wellFormed
    | .removeAll rootOk => if rootOk then { s with registry := [] } else s
    | .sessionBind verdict => processSessionBind s c verdict
    | .other accepted => s.answered c accepted
  else s

/-! ## What is allowed -/

/-- the canonical form of a path: its full path, in lower case -/
def canonicalForm (cfg : Config) (p : Text) : Text := toLowerCase (wfullpath cfg.cwd p)

/-- the canonical form of the path matches the list -/
def Allowed (cfg : Config) (list p : Text) : Prop := matchPatternList (canonicalForm cfg p) list true = 1

instance (cfg : Config) (list p : Text) : Decidable (Allowed cfg list p) :=
  inferInstanceAs (Decidable (matchPatternList (canonicalForm cfg p) list true = 1))

/-- the provider an add request names -/
def Request.added : Request → Option Text
  | .addSmartcardKey (some (provider, _)) _ => some provider
  | _ => none

/-- the condition on a request: an add request names its provider in canonical form, up to case, and no add request was
made on its connection before -/
def PlainAdd (cfg : Config) (s : St) (r : ℕ × Request) : Prop :=
  ∀ provider ∈ r.2.added, (s.conns r.1).allowed ≠ none ∧ toLowerCase provider = canonicalForm cfg provider

instance (cfg : Config) (s : St) (r : ℕ × Request) : Decidable (PlainAdd cfg s r) :=
  inferInstanceAs (Decidable (∀ provider ∈ r.2.added, _ ∧ _))

/-! ## Names in canonical form -/

variable {cfg : Config} {p : Text}

/-- a name in canonical form starts with a drive or two backslashes -/
theorem plain_start (h : toLowerCase p = canonicalForm cfg p) :
    ∃ a b rest, p = a :: b :: rest ∧ a ≠ '/' ∧ (b = ':' → rest ≠ []) ∧ (b = ':' ∨ b = '\\') := by
  unfold canonicalForm wfullpath at h
  rcases Full.text_shape (fullPath cfg.cwd p) (p.getLast?.any isSep) with ⟨x, rest, hx, htext⟩ | ⟨rest, htext⟩
  · rw [htext] at h
    obtain ⟨a, as, rfl, ha, has⟩ := map_eq_cons_iff.1 h
    obtain ⟨b, bs, rfl, hb, hbs⟩ := map_eq_cons_iff.1 has
    obtain ⟨c, cs, rfl, -, -⟩ := map_eq_cons_iff.1 hbs
    refine ⟨a, b, c :: cs, rfl, ?_, fun _ => by simp, Or.inl (eq_of_toLower (by decide) hb)⟩
    rintro rfl
    have hsep : isSep x.toLower = true := by rw [← ha]; rfl
    rw [isSep_toLower, hx] at hsep
    exact Bool.false_ne_true hsep
  · rw [htext] at h
    obtain ⟨a, as, rfl, ha, has⟩ := map_eq_cons_iff.1 h
    obtain ⟨b, bs, rfl, hb, -⟩ := map_eq_cons_iff.1 has
    have ha' : a = '\\' := eq_of_toLower (by decide) ha
    have hb' : b = '\\' := eq_of_toLower (by decide) hb
    subst ha' hb'
    exact ⟨'\\', '\\', bs, rfl, by decide, fun h => absurd h (by decide), Or.inr rfl⟩

/-- neither the bash nor the `__PROGRAMDATA__` rewriting touches such a name -/
theorem inputPath_plain (env : Env) {a b : Char} {rest : Text} (ha : a ≠ '/') (hb : b = ':' ∨ b = '\\') :
    inputPath env (a :: b :: rest) = a :: b :: rest := by
  have hcyg : startsWithNoCase cygwinPathPrefix (a :: b :: rest) = false := by
    have hne : a.toLower ≠ '/'.toLower := fun h => ha (eq_of_toLower (by decide) h)
    rw [show cygwinPathPrefix = '/' :: "cygdrive/" from rfl, startsWithNoCase_cons, decide_eq_false hne, Bool.false_and]
  have hdata : startsWithNoCase programData (a :: b :: rest) = false := by
    have hne : b.toLower ≠ '_'.toLower := by
      rcases hb with rfl | rfl
      · decide
      · decide
    rw [show programData = '_' :: '_' :: "PROGRAMDATA__" from rfl, startsWithNoCase_cons, startsWithNoCase_cons,
      decide_eq_false hne, Bool.false_and, Bool.and_false]
  unfold inputPath
  cases env.bashTestEnv <;> simp [bashToWinPath, hcyg, hdata]

/-- **A canonical name is loaded as it is.** -/
theorem canonicalProvider_plain (h : toLowerCase p = canonicalForm cfg p) :
    canonicalProvider cfg p = .ok (convertToForwardslash (wfullpath cfg.cwd p)) := by
  obtain ⟨a, b, rest, rfl, ha, hrest, hb⟩ := plain_start h
  have hskip : skipSlash (a :: b :: rest) = a :: b :: rest := by
    unfold skipSlash
    split
    · next heq => exact absurd (cons.inj heq).1 ha
    · rfl
  have hdrive : withDriveRoot (a :: b :: rest) = a :: b :: rest := by
    unfold withDriveRoot
    split
    · next heq =>
      simp only [cons.injEq] at heq
      exact absurd heq.2.2 (hrest heq.2.1)
    · rfl
  have hfree : realpathFree (WinPath.St.start cfg.cwd) (a :: b :: rest) =
      .ok ('/' :: convertToForwardslash (wfullpath cfg.cwd (a :: b :: rest))) := by
    unfold realpathFree
    rw [if_neg, hskip, hdrive]
    · rfl
    · rintro ⟨-, hset⟩
      exact ha (by simpa using congrArg head? hset)
  have hreal : realpath cfg.env (WinPath.St.start cfg.cwd) (a :: b :: rest) =
      .ok ('/' :: convertToForwardslash (wfullpath cfg.cwd (a :: b :: rest))) := by
    unfold realpath
    rw [inputPath_plain cfg.env ha hb]
    simpa [WinPath.St.start] using hfree
  simp [canonicalProvider, hreal]

theorem canonicalForm_loaded (cfg : Config) (p : Text) :
    canonicalForm cfg (convertToForwardslash (wfullpath cfg.cwd p)) = canonicalForm cfg p := by
  unfold canonicalForm
  rw [wfullpath_forwardslash]
  conv_lhs => rw [wfullpath.eq_1 cfg.cwd p, wfullpath_text]
  rfl

/-! ## Runs -/

/-- what an add request loads under the condition is allowed -/
theorem addDecision_allowed {conn : Conn} {list : Text} (hlist : conn.allowed = some list)
    {provider : Text} (hplain : toLowerCase provider = canonicalForm cfg provider) {pinLen : ℕ} {heap : Option Text}
    (h : (addDecision cfg conn (some (provider, pinLen)) heap).2 = some p) : Allowed cfg list p := by
  simp only [addDecision, canonicalProvider_plain hplain, hlist, Option.some_or] at h
  split_ifs at h with h1 h2 h3
  simp only [Option.some.injEq] at h
  subst h
  unfold Allowed
  rw [canonicalForm_loaded, ← hplain]
  exact h3

structure Inv (cfg : Config) (list : Text) (s : St) : Prop where
  /-- a list that is still there is the one of the start -/
  lists : ∀ c l, (s.conns c).allowed = some l → l = list
  registry : ∀ p ∈ s.registry, Allowed cfg list p
  loaded : ∀ p ∈ s.loaded, Allowed cfg list p

theorem mem_storeProvider {q : Text} {answers : AddAnswers} {registry : List Text}
    (h : q ∈ storeProvider p answers registry) : q ∈ registry ∨ q = p := by
  simp only [storeProvider] at h
  split_ifs at h
  all_goals first
    | exact Or.inl h
    | exact (mem_append.1 h).imp mem_of_mem_filter mem_singleton.1
    | exact (mem_append.1 h).imp id mem_singleton.1
    | exact Or.inl (mem_of_mem_filter (mem_of_mem_filter h))
    | exact Or.inl (mem_of_mem_filter h)

theorem answered_inv {list : Text} {s : St} (h : Inv cfg list s) (c : ℕ) (ok : Bool) :
    Inv cfg list (s.answered c ok) := by
  refine ⟨fun d l hl => ?_, h.registry, h.loaded⟩
  simp only [St.answered, Function.update_apply] at hl
  split_ifs at hl with hd
  · exact h.lists c l hl
  · exact h.lists d l hl

theorem step_inv {list : Text} {s : St} {r : ℕ × Request} (h : Inv cfg list s) (hr : PlainAdd cfg s r) :
    Inv cfg list (step cfg s r) := by
  obtain ⟨c, r⟩ := r
  simp only [step]
  split_ifs with halive
  · cases r with
    | addSmartcardKey body answers =>
      have hload : ∀ p, (addDecision cfg (s.conns c) body answers.heap).2 = some p → Allowed cfg list p := by
        intro p hp
        cases body with
        | none => simp [addDecision] at hp
        | some body =>
          obtain ⟨hne, hplain⟩ := hr body.1 rfl
          obtain ⟨l, hl⟩ := Option.ne_none_iff_exists'.1 hne
          have hallowed := addDecision_allowed hl hplain hp
          rwa [h.lists c l hl] at hallowed
      refine ⟨fun d l hl => ?_, fun p hp => ?_, fun p hp => ?_⟩
      · simp only [processAddSmartcardKey, Function.update_apply] at hl
        split_ifs at hl
        exact h.lists d l hl
      · simp only [processAddSmartcardKey] at hp
        cases hdec : (addDecision cfg (s.conns c) body answers.heap).2 with
        | none =>
          rw [hdec] at hp
          exact h.registry p hp
        | some q =>
          rw [hdec] at hp
          rcases mem_storeProvider hp with hp | rfl
          · exact h.registry p hp
          · exact hload p hdec
      · simp only [processAddSmartcardKey, mem_append, Option.mem_toList] at hp
        rcases hp with hp | hp
        · exact h.loaded p hp
        · exact hload p hp
    | removeSmartcardKey body registryOk =>
      simp only [processRemoveSmartcardKey]
      split
      · exact answered_inv h c false
      · split
        · exact answered_inv h c false
        · split_ifs
          · exact ⟨h.lists, fun p hp => h.registry p (mem_of_mem_filter hp), h.loaded⟩
          · exact h
    | sign reached wellFormed =>
      have hans := answered_inv h c wellFormed
      refine ⟨hans.lists, hans.registry, fun p hp => ?_⟩
      rcases mem_append.1 hp with hp | hp
      · exact h.loaded p hp
      · exact h.registry p (mem_of_mem_take hp)
    | removeAll rootOk =>
      simp only
      split_ifs
      · exact ⟨h.lists, by simp, h.loaded⟩
      · exact h
    | sessionBind verdict =>
      simp only [processSessionBind]
      split
      · exact answered_inv h c false
      · exact h
      split_ifs
      · exact answered_inv h c false
      · refine ⟨fun d l hl => ?_, h.registry, h.loaded⟩
        simp only [Function.update_apply] at hl
        split_ifs at hl
        · exact h.lists c l hl
        · exact h.lists d l hl
    | other accepted => exact answered_inv h c accepted
  · exact h

/-- **Provider whitelist.** From a registry of allowed providers, in every sequence of requests on any connections whose
add requests are plain, every path given to `pkcs11_add_provider` has a canonical form that the list of the start allows. -/
theorem loaded_allowed (cfg : Config) (list : Text) (registry : List Text)
    (hreg : ∀ p ∈ registry, Allowed cfg list p) (rs : List (ℕ × Request))
    (hrs : Runs.Always (step cfg) (PlainAdd cfg) (St.start list registry) rs) :
    ∀ p ∈ (Runs.run (step cfg) (St.start list registry) rs).loaded, Allowed cfg list p := by
  have hstart : Inv cfg list (St.start list registry) := by
    refine ⟨fun c l hl => ?_, hreg, by simp [St.start]⟩
    simpa [St.start] using hl.symm
  exact (Runs.run_inv (fun s r => step_inv) rs hstart hrs).loaded

/-! ## A name with `..` -/

/-- a worker of the agent started from `C:\Windows`, with the default list -/
def exampleConfig : Config :=
  ⟨⟨"c:\\programdata", false⟩, ⟨false, ["C:", "Windows"], by decide, by decide, by simp⟩, false⟩

def exampleList : Text := startList none (some "C:\\Program Files") none

def addRequest (provider : String) : Request := .addSmartcardKey (some (provider.toList, 4)) ⟨none, 1, true, true⟩

/-- the spelling passes the list, the library that is loaded lies elsewhere -/
theorem dotdot_provider_loaded : ¬ ∀ p ∈ (Runs.run (step exampleConfig) (St.start exampleList [])
      [(0, addRequest "C:\\Program Files\\..\\Users\\x.dll")]).loaded, Allowed exampleConfig exampleList p := by
  decide

/-- an add request, another connection that signs with the stored provider, and a removal -/
theorem loaded_allowed_plain :
    let rs := [(0, addRequest "C:\\Program Files\\p11.dll"), (1, .sign 5 true), (0, .removeAll true)]
    let loaded := (Runs.run (step exampleConfig) (St.start exampleList []) rs).loaded
    loaded = ["C:/Program Files/p11.dll".toList, "C:/Program Files/p11.dll".toList] ∧
      ∀ p ∈ loaded, Allowed exampleConfig exampleList p := by
  intro rs loaded
  exact ⟨by decide, loaded_allowed exampleConfig exampleList [] (by simp) rs (by decide)⟩

end OpenSSHServerPN.Agent
