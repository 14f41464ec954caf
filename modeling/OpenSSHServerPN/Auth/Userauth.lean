/-
User authentication with several methods (`auth2.c`, `auth2-chall.c`, `auth2-gss.c`).

Model: the state is `Authctxt` with the handlers that are set for the replies of keyboard-interactive and gssapi-with-mic.
An event is a message of the client together with what the method functions find out about it: whether the user exists,
whether a signature or a password is right, whether root may log in this way. `step` is `input_userauth_request`,
`input_userauth_info_response` and the handlers of gssapi, each of which ends in `userauthFinish`. A message whose handler
was never set is answered by `SSH2_MSG_UNIMPLEMENTED` and changes nothing; one whose handler was set back to `NULL` makes
`ssh_dispatch_run` disconnect, where `step` lets the session go on, so that a session of the code is a run of the model up
to that message. The state also keeps the ledger `successes`: the method and submethod of every authentication that
succeeded, each `Vouched` for by a message of its own.

`auth2_methods_valid` accepts any text behind the colon of any method, and `auth2_method_allowed` admits a request for
`publickey` by the list `publickey:x`; `remove_method` does not, since the request has no submethod. The authentication of
such a user ends in the fatal error of `auth2_update_methods_lists`.

Results:
- `inv_run`: in every run, each list of the state is what the ledger leaves of a configured list, and a reply is only
  awaited for a method that is admitted now;
- `step_spec`: one message keeps that, and is not fatal if its method stands alone in front of a list;
- `vouched_run`: the ledger is a sequence of messages of the run that authenticated;
- `userauth_spelled_and_admitted`: these over runs without a qualified entry in front; `qualified_entry_fatal` is the run
  with one.
-/
import OpenSSHServerPN.Auth.MethodLists
import OpenSSHServerPN.Lib.Runs

namespace OpenSSHServerPN.Userauth

open Runs List

/-! ## Configuration and state -/

structure Config where
  /-- `options.auth_methods` -/
  authMethods : List Text
  /-- the methods that are switched on; `none` has its own flag -/
  enabled : Method → Bool
  maxAuthtries : ℕ
  /-- the names of the keyboard-interactive devices compiled in -/
  devices : List Text
  devices_comma : ∀ d ∈ devices, ',' ∉ d

/-- the lists without the pseudo method `any` -/
def Config.methodLists (cfg : Config) : List Text := if cfg.authMethods = ["any".toList] then [] else cfg.authMethods

def Config.isEnabled (cfg : Config) (noneEnabled : Bool) : Method → Bool
  | .none => noneEnabled
  | m => cfg.enabled m

/-- the lists `auth2_setup_methods_lists` keeps; it runs before `none` is switched off -/
def Config.enabledLists (cfg : Config) : List Text := cfg.methodLists.filter (methodsValid (cfg.isEnabled true))

/-- why a session ended -/
inductive Ending where
  | disconnected
  /-- a fatal error of another kind: an unreadable packet, an internal error -/
  | failed
  /-- `INTERNAL ERROR: authenticated user but method not in AuthenticationMethods` -/
  | notInMethods
deriving DecidableEq, Repr

inductive Status where
  | running
  | success
  | ended (why : Ending)
deriving DecidableEq, Repr

/-- `KbdintAuthctxt`: the device in use, those used, and the names still to be tried -/
structure KbdintCtxt where
  device : Text
  devicesDone : List Text
  devices : List Text
deriving DecidableEq, Repr

/-- the handlers of gssapi-with-mic that are set -/
structure GssHandlers where
  token : Bool
  errtok : Bool
  mic : Bool
  exchangeComplete : Bool
deriving DecidableEq, Repr

def GssHandlers.clear : GssHandlers := ⟨false, false, false, false⟩

structure State where
  attempt : ℕ
  failures : ℕ
  /-- the user and the service of the first request -/
  who : Option (Text × Text)
  valid : Bool
  noneEnabled : Bool
  /-- `authctxt->auth_methods` -/
  lists : List Text
  kbdint : Option KbdintCtxt
  gss : GssHandlers
  postponed : Bool
  serverCausedFailure : Bool
  status : Status
  successes : List (Method × Option Text)
deriving DecidableEq, Repr

def start : State where
  attempt := 0
  failures := 0
  who := Option.none
  valid := false
  noneEnabled := true
  lists := []
  kbdint := Option.none
  gss := .clear
  postponed := false
  serverCausedFailure := false
  status := .running
  successes := []

/-! ## Messages -/

/-- `SSH2_MSG_USERAUTH_REQUEST` and what is found out about it -/
structure Request where
  user : Text
  service : Text
  method : Text
  /-- the devices a keyboard-interactive request asks for -/
  devices : Text
  /-- `mm_getpwnamallow` knows the user -/
  known : Bool
  /-- what the method function returns -/
  authenticated : Bool
  /-- the method function waits for another message -/
  postponed : Bool
  serverCausedFailure : Bool
  /-- the user is root and may not log in by this method -/
  rootRefused : Bool
deriving DecidableEq, Repr

/-- the answer of a device to the responses -/
inductive Respond where
  | success
  | more
  | failure
deriving DecidableEq, Repr

/-- the result of `mm_ssh_gssapi_accept_ctx` -/
inductive Accept where
  | error
  | again
  | complete (integ : Bool)
deriving DecidableEq, Repr

inductive Event where
  | request (r : Request)
  /-- a response; `again` says whether the device could ask again, `starts` whether the next device could be started -/
  | infoResponse (res : Respond) (again starts rootRefused : Bool)
  | gssToken (res : Accept)
  | gssErrtok
  | gssMic (authenticated rootRefused : Bool)
  | gssExchangeComplete (authenticated rootRefused : Bool)
  /-- a message that cannot be read -/
  | unreadable
deriving DecidableEq, Repr

/-! ## Steps -/

/-- `auth2_method_allowed` -/
def methodAllowed (cfg : Config) (lists : List Text) (m : Method) (sub : Option Text) : Bool :=
  cfg.methodLists = [] || lists.any fun list => listStartsWith list m.name sub ≠ .none

/-- `authmethod_lookup` -/
def authmethodLookup (cfg : Config) (s : State) (name : Text) : Option Method :=
  (authmethodByname name).filter fun m => cfg.isEnabled s.noneEnabled m && methodAllowed cfg s.lists m Option.none

def stop (s : State) (why : Ending) : State := { s with status := .ended why }

/-- the failures counted; the first request may try `none` for free -/
def failuresAfter (s : State) (isPartial : Bool) (method : Text) : ℕ :=
  if !isPartial && !s.serverCausedFailure && (s.attempt > 1 || method ≠ Method.none.name) then s.failures + 1 else s.failures

/-- the part of `userauth_finish` that answers a failure -/
def finishFailure (cfg : Config) (s : State) (isPartial : Bool) (method : Text) : State :=
  if s.postponed then s
  else
    let failures := failuresAfter s isPartial method
    if failures ≥ cfg.maxAuthtries then stop { s with failures := failures } .disconnected
    else { s with failures := failures }

/-- the part of `userauth_finish` after a method has succeeded -/
def finishSuccess (cfg : Config) (s : State) (m : Method) (sub : Option Text) : State :=
  let s := { s with successes := s.successes ++ [(m, sub)] }
  if cfg.methodLists = [] then { s with status := .success }
  else
    match updateMethodsLists m.name sub s.lists false with
    | (.notFound, lists) => stop { s with lists := lists } .notInMethods
    | (.complete, lists) => { s with lists := lists, status := .success }
    | (.partially, lists) => finishFailure cfg { s with lists := lists } true m.name

/-- `userauth_finish` -/
def userauthFinish (cfg : Config) (s : State) (authenticated : Bool) (method : Text) (sub : Option Text)
    (rootRefused : Bool) : State :=
  if authenticated then
    if !s.valid || s.postponed then stop s .failed
    else
      match authmethodByname method with
      | Option.none => stop s .failed
      | some m => if rootRefused then finishFailure cfg s false m.name else finishSuccess cfg s m sub
  else finishFailure cfg s false method

/-- `kbdint_next_device`: the first name that is an unused device which is allowed; an empty name ends the search -/
def kbdintNextDevice (cfg : Config) (lists done : List Text) : List Text → Option KbdintCtxt
  | [] => Option.none
  | d :: rest =>
    if d = [] then Option.none
    else if d ∈ cfg.devices ∧ d ∉ done ∧ methodAllowed cfg lists .keyboardInteractive (some d) then
      some ⟨d, d :: done, rest⟩
    else kbdintNextDevice cfg lists done rest

/-- `auth2_challenge_start` -/
def challengeStart (cfg : Config) (s : State) (done devices : List Text) (starts : Bool) : State :=
  match kbdintNextDevice cfg s.lists done devices with
  | some k => if starts then { s with kbdint := some k, postponed := true } else { s with kbdint := Option.none }
  | Option.none => { s with kbdint := Option.none }

/-- the method functions: the state and whether the user is authenticated -/
def tryMethod (cfg : Config) (s : State) (r : Request) : Method → State × Bool
  | .none => ({ s with noneEnabled := false }, r.authenticated)
  | .keyboardInteractive =>
    (challengeStart cfg s [] (if r.devices = [] then cfg.devices else r.devices.splitOn ',') r.postponed, false)
  | .gssapiWithMic =>
    if r.postponed then ({ s with gss := { s.gss with token := true, errtok := true }, postponed := true }, false)
    else ({ s with serverCausedFailure := r.serverCausedFailure }, false)
  | .publickey | .password | .hostbased => ({ s with postponed := r.postponed }, r.authenticated)

/-- the first request sets the context up -/
def setup (cfg : Config) (s : State) (r : Request) (user : Text) : State :=
  let s := { s with who := some (user, r.service), valid := r.known && r.service = "ssh-connection",
                    lists := cfg.enabledLists }
  if cfg.methodLists ≠ [] ∧ cfg.enabledLists = [] then stop s .disconnected else s

/-- the state is reset before a request is tried; the handlers for `MIC` and `ERRTOK` stay -/
def reset (s : State) : State :=
  { s with kbdint := Option.none, gss := { s.gss with token := false, exchangeComplete := false }, postponed := false,
           serverCausedFailure := false }

/-- a request after the checks of the user name: the method is tried -/
def authenticate (cfg : Config) (s : State) (r : Request) : State :=
  match authmethodLookup cfg s r.method with
  | some m =>
    if s.failures < cfg.maxAuthtries then
      userauthFinish cfg (tryMethod cfg s r m).1 (tryMethod cfg s r m).2 r.method Option.none r.rootRefused
    else userauthFinish cfg s false r.method Option.none r.rootRefused
  | Option.none => userauthFinish cfg s false r.method Option.none r.rootRefused

/-- the user name without the style -/
def Request.name (r : Request) : Text := r.user.takeWhile (fun c => c ≠ ':')

/-- `input_userauth_request` up to the reset -/
def prepare (cfg : Config) (s : State) (r : Request) : State :=
  if s.attempt ≥ 1024 then stop s .disconnected
  else if s.attempt = 0 then setup cfg { s with attempt := s.attempt + 1 } r r.name
  else if s.who ≠ some (r.name, r.service) then stop { s with attempt := s.attempt + 1 } .disconnected
  else { s with attempt := s.attempt + 1 }

def inputUserauthRequest (cfg : Config) (s : State) (r : Request) : State :=
  if (prepare cfg s r).status = .running then authenticate cfg (reset (prepare cfg s r)) r else prepare cfg s r

/-- `input_userauth_info_response` for the context `k` -/
def inputInfoResponse (cfg : Config) (s : State) (k : KbdintCtxt) (res : Respond) (again starts rootRefused : Bool) :
    State :=
  let finish := fun (s : State) (authenticated : Bool) =>
    userauthFinish cfg s authenticated Method.keyboardInteractive.name (some k.device) rootRefused
  let s := { s with postponed := false }
  if res = .success ∧ s.valid then finish { s with kbdint := Option.none } true
  else if res = .more ∧ again then finish { s with postponed := true } false
  else finish (challengeStart cfg s k.devicesDone k.devices starts) false

/-- the end of a gssapi exchange: every handler is cleared -/
def finishGss (cfg : Config) (s : State) (gss : GssHandlers) (authenticated rootRefused : Bool) : State :=
  userauthFinish cfg { s with gss := gss, postponed := false } authenticated Method.gssapiWithMic.name Option.none rootRefused

/-- `input_gssapi_token` -/
def inputGssToken (cfg : Config) (s : State) : Accept → State
  | .error => finishGss cfg s { s.gss with token := false, errtok := false } false false
  | .again => s
  | .complete true => { s with gss := { s.gss with token := false, mic := true } }
  | .complete false => { s with gss := { s.gss with token := false, exchangeComplete := true } }

/-- one message; after success or the end of the session nothing is handled -/
def step (cfg : Config) (s : State) (e : Event) : State :=
  if s.status ≠ .running then s
  else
    match e with
    | .request r => inputUserauthRequest cfg s r
    | .infoResponse res again starts rootRefused =>
      match s.kbdint with
      | some k => inputInfoResponse cfg s k res again starts rootRefused
      | Option.none => s
    | .gssToken res => if s.gss.token then inputGssToken cfg s res else s
    | .gssErrtok => if s.gss.errtok then finishGss cfg s .clear false false else s
    | .gssMic authenticated rootRefused => if s.gss.mic then finishGss cfg s .clear authenticated rootRefused else s
    | .gssExchangeComplete authenticated rootRefused =>
      if s.gss.exchangeComplete then finishGss cfg s .clear authenticated rootRefused else s
    | .unreadable => stop s .failed

/-! ## The ledger and the lists -/

/-- what the ledger leaves of a list: the entries in front are spelled by a subsequence of it -/
def Progress (successes : List (Method × Option Text)) (list rest : Text) : Prop :=
  [] ∉ entries list ∧ ∃ done, entries list = done ++ entries rest ∧ List.SublistForall₂ Spells done successes

variable {successes : List (Method × Option Text)} {list : Text} {m : Method} {sub : Option Text} {cfg : Config}
  {lists : List Text} {s : State} {rootRefused : Bool} {r : Request}

variable {done : List Text}

section
variable (h : List.SublistForall₂ Spells done successes)
include h

theorem spelled_snoc {e : Text} {x : Method × Option Text} (he : Spells e x) :
    List.SublistForall₂ Spells (done ++ [e]) (successes ++ [x]) := by
  obtain ⟨l, hl, hsub⟩ := sublistForall₂_iff.1 h
  exact sublistForall₂_iff.2 ⟨l ++ [x], rel_append hl (.cons he .nil), hsub.append (List.Sublist.refl _)⟩

theorem spelled_more (x : Method × Option Text) : List.SublistForall₂ Spells done (successes ++ [x]) := by
  obtain ⟨l, hl, hsub⟩ := sublistForall₂_iff.1 h
  exact sublistForall₂_iff.2 ⟨l, hl, hsub.trans (sublist_append_left _ _)⟩

end

theorem progress_updated {rest rest' : Text} (hsub : ∀ s ∈ sub, ',' ∉ s) (h : Progress successes list rest)
    (hu : Updated m.name sub rest rest') : Progress (successes ++ [(m, sub)]) list rest' := by
  obtain ⟨hempty, done, hdone, hspelled⟩ := h
  obtain rfl | hr := hu
  · exact ⟨hempty, done, hdone, spelled_more hspelled _⟩
  · have hrest : [] ∉ entries rest := fun hmem => hempty (by rw [hdone]; exact mem_append_right _ hmem)
    obtain ⟨e, he, hspells⟩ := removeMethod_entries hsub hrest hr
    exact ⟨hempty, done ++ [e], by rw [hdone, he]; simp, spelled_snoc hspelled hspells⟩

theorem forall₂_comp {α β γ : Type*} {R : α → β → Prop} {S : β → γ → Prop} {T : α → γ → Prop}
    (hT : ∀ a b c, R a b → S b c → T a c) {as : List α} {bs : List β} {cs : List γ} (h : List.Forall₂ R as bs)
    (h' : List.Forall₂ S bs cs) : List.Forall₂ T as cs := by
  induction h generalizing cs with
  | nil =>
    cases h'
    exact .nil
  | cons hr _ ih =>
    cases h' with
    | cons hs ht => exact .cons (hT _ _ _ hr hs) (ih ht)

theorem exists_of_mem_right {α β : Type*} {R : α → β → Prop} {as : List α} {bs : List β} (h : List.Forall₂ R as bs) {b : β}
    (hb : b ∈ bs) : ∃ a ∈ as, R a b := by
  induction h with
  | nil => cases hb
  | cons hr _ ih =>
    obtain rfl | hb := mem_cons.1 hb
    · exact ⟨_, by simp, hr⟩
    · obtain ⟨a, ha, hab⟩ := ih hb
      exact ⟨a, by simp [ha], hab⟩

variable {enabled : Method → Bool}

theorem entries_of_valid (h : methodsValid enabled list = true) : [] ∉ entries list := by
  intro hmem
  rw [methodsValid, Bool.and_eq_true, all_eq_true] at h
  rw [entries, if_neg (by simpa using h.1)] at hmem
  have hnone : entryMethod [] = Option.none := by decide
  simpa [hnone] using h.2 [] hmem

theorem progress_start (h : methodsValid enabled list = true) :
    Progress [] list list := ⟨entries_of_valid h, [], rfl, .nil⟩

/-! ## The invariant -/

def Admitted (cfg : Config) (lists : List Text) (m : Method) (sub : Option Text) : Prop :=
  methodAllowed cfg lists m sub = true

theorem admitted_iff :
    Admitted cfg lists m sub ↔ cfg.methodLists = [] ∨ ∃ list ∈ lists, listStartsWith list m.name sub ≠ .none := by
  simp [Admitted, methodAllowed]

/-- the success of another method leaves a method admitted -/
theorem admitted_update {m' : Method} {sub' : Option Text} (hm : m' ≠ m)
    (h : Admitted cfg lists m sub) : Admitted cfg (updateMethodsLists m'.name sub' lists false).2 m sub := by
  rw [admitted_iff] at h ⊢
  obtain h | ⟨list, hlist, hw⟩ := h
  · exact .inl h
  · exact .inr ⟨list, mem_updateMethodsLists hlist (removeMethod_other hm hw), hw⟩

/-- some configured list whose methods are all enabled is spelled in order by the ledger -/
def Spelled (cfg : Config) (successes : List (Method × Option Text)) : Prop :=
  ∃ list ∈ cfg.enabledLists, List.SublistForall₂ Spells (entries list) successes

theorem progress_update {full : List Text}
    (hsub : ∀ d ∈ sub, ',' ∉ d) (h : List.Forall₂ (Progress successes) full lists) :
    List.Forall₂ (Progress (successes ++ [(m, sub)])) full (updateMethodsLists m.name sub lists false).2 := by
  have hstep : ∀ list rest rest', Progress successes list rest → Updated m.name sub rest rest' →
      Progress (successes ++ [(m, sub)]) list rest' := fun _ _ _ => progress_updated hsub
  exact forall₂_comp hstep h (updateMethodsLists_spec m.name sub lists false)

/-- a list that is given up whole is spelled by the longer ledger -/
theorem spelled_of_complete (hsub : ∀ d ∈ sub, ',' ∉ d) (h : List.Forall₂ (Progress successes) cfg.enabledLists lists)
    (hc : (updateMethodsLists m.name sub lists false).1 = .complete) : Spelled cfg (successes ++ [(m, sub)]) := by
  obtain ⟨rest, hrest, hremove⟩ := updateMethodsLists_complete hc
  obtain ⟨list, hlist, hp⟩ := exists_of_mem_right h hrest
  obtain ⟨-, done, hdone, hspelled⟩ := progress_updated hsub hp (.inr hremove)
  refine ⟨list, hlist, ?_⟩
  rwa [hdone, show entries [] = [] from rfl, append_nil]

structure Inv (cfg : Config) (s : State) : Prop where
  /-- no reply is awaited before the first request -/
  fresh : s.attempt = 0 → s.kbdint = Option.none ∧ s.gss = .clear ∧ s.successes = []
  /-- each list is what the ledger leaves of a configured one -/
  progress : s.attempt ≠ 0 → List.Forall₂ (Progress s.successes) cfg.enabledLists s.lists
  /-- a device that is asked is admitted -/
  kbdint : ∀ k, s.kbdint = some k → k.device ∈ cfg.devices ∧ Admitted cfg s.lists .keyboardInteractive (some k.device)
  /-- gssapi is admitted as long as one of its handlers is set -/
  gss : s.gss ≠ .clear → Admitted cfg s.lists .gssapiWithMic Option.none
  success : s.status = .success → s.valid = true ∧ (cfg.methodLists ≠ [] → Spelled cfg s.successes)

theorem Inv.ended (h : Inv cfg s) (why : Ending) : Inv cfg (stop s why) :=
  ⟨h.fresh, h.progress, h.kbdint, h.gss, by simp [stop]⟩

theorem inv_start (cfg : Config) : Inv cfg start :=
  ⟨fun _ => ⟨rfl, rfl, rfl⟩, by simp [start], by simp [start], by simp [start], by simp [start]⟩

/-! ## What a finish does -/

theorem finishFailure_cases (cfg : Config) (s : State) (isPartial : Bool) (method : Text) :
    finishFailure cfg s isPartial method = s ∨ ∃ n, finishFailure cfg s isPartial method = { s with failures := n } ∨
      finishFailure cfg s isPartial method = stop { s with failures := n } .disconnected := by
  unfold finishFailure
  by_cases hp : s.postponed = true
  · exact .inl (if_pos hp)
  · rw [if_neg hp]
    by_cases hn : failuresAfter s isPartial method ≥ cfg.maxAuthtries
    · exact .inr ⟨_, .inr (if_pos hn)⟩
    · exact .inr ⟨_, .inl (if_neg hn)⟩

theorem Inv.finishFailure (h : Inv cfg s) (isPartial : Bool) (method : Text) :
    Inv cfg (finishFailure cfg s isPartial method) := by
  have hn : ∀ n, Inv cfg { s with failures := n } := fun n => { h with }
  obtain hf | ⟨n, hf | hf⟩ := finishFailure_cases cfg s isPartial method <;> rw [hf]
  · exact h
  · exact hn n
  · exact (hn n).ended _

/-- the state with a longer ledger and updated lists, for a method no reply is awaited for -/
theorem Inv.updated (h : Inv cfg s) (hattempt : s.attempt ≠ 0)
    (hstatus : s.status = .running) (hsub : ∀ d ∈ sub, ',' ∉ d)
    (hk : m = .keyboardInteractive → s.kbdint = Option.none) (hg : m = .gssapiWithMic → s.gss = .clear) :
    Inv cfg { s with successes := s.successes ++ [(m, sub)], lists := (updateMethodsLists m.name sub s.lists false).2 } where
  fresh h0 := absurd h0 hattempt
  progress _ := progress_update hsub (h.progress hattempt)
  kbdint k hk' := by
    obtain ⟨hmem, hadm⟩ := h.kbdint k hk'
    refine ⟨hmem, admitted_update ?_ hadm⟩
    rintro rfl
    rw [hk rfl] at hk'
    cases hk'
  gss hg' := by
    refine admitted_update ?_ (h.gss hg')
    rintro rfl
    exact hg' (hg rfl)
  success hs := by
    rw [hstatus] at hs
    cases hs

theorem Inv.finishSuccess (h : Inv cfg s)
    (hattempt : s.attempt ≠ 0) (hstatus : s.status = .running) (hvalid : s.valid = true) (hsub : ∀ d ∈ sub, ',' ∉ d)
    (hk : m = .keyboardInteractive → s.kbdint = Option.none) (hg : m = .gssapiWithMic → s.gss = .clear) :
    Inv cfg (finishSuccess cfg s m sub) := by
  have hu := h.updated hattempt hstatus hsub hk hg
  have hcomplete : (updateMethodsLists m.name sub s.lists false).1 = .complete → Spelled cfg (s.successes ++ [(m, sub)]) :=
    spelled_of_complete hsub (h.progress hattempt)
  have hlists : cfg.methodLists = [] → (updateMethodsLists m.name sub s.lists false).2 = s.lists := by
    intro hl
    have hnil : s.lists = [] := by simpa [Config.enabledLists, hl] using h.progress hattempt
    rw [hnil]
    rfl
  unfold Userauth.finishSuccess
  dsimp only
  split
  · next hl =>
    rw [hlists hl] at hu
    exact ⟨hu.fresh, hu.progress, hu.kbdint, hu.gss, fun _ => ⟨hvalid, absurd hl⟩⟩
  revert hu hcomplete
  cases updateMethodsLists m.name sub s.lists false with
  | mk out lists =>
    intro hu hcomplete
    cases out with
    | notFound => exact hu.ended _
    | complete => exact ⟨hu.fresh, hu.progress, hu.kbdint, hu.gss, fun _ => ⟨hvalid, fun _ => hcomplete rfl⟩⟩
    | partially => exact hu.finishFailure true m.name

/-- what a finish needs of the state it starts from -/
structure Ready (s : State) (method : Text) (sub : Option Text) : Prop where
  attempt : s.attempt ≠ 0
  running : s.status = .running
  sub_comma : ∀ d ∈ sub, ',' ∉ d
  kbdint : authmethodByname method = some .keyboardInteractive → s.kbdint = Option.none
  gss : authmethodByname method = some .gssapiWithMic → s.gss = .clear

variable {authenticated : Bool} {method : Text}

/-- a finish keeps the invariant, unless it is called with a reply of its own method still awaited -/
theorem Inv.userauthFinish (h : Inv cfg s) (hready : authenticated = true → Ready s method sub) :
    Inv cfg (userauthFinish cfg s authenticated method sub rootRefused) := by
  unfold Userauth.userauthFinish
  split
  · next ha =>
    have hr := hready ha
    split
    · exact h.ended _
    next hv =>
    have hvalid : s.valid = true := by
      by_contra hn
      simp [hn] at hv
    cases hm : authmethodByname method with
    | none => exact h.ended _
    | some m =>
      dsimp only
      split
      · exact h.finishFailure false m.name
      · refine h.finishSuccess hr.attempt hr.running hvalid hr.sub_comma ?_ ?_
        · rintro rfl
          exact hr.kbdint hm
        · rintro rfl
          exact hr.gss hm
  · exact h.finishFailure false method

/-- the fatal error is reached by a success that no list can give up -/
theorem notInMethods_of_finish (hs : s.status ≠ .ended .notInMethods)
    (h : (userauthFinish cfg s authenticated method sub rootRefused).status = .ended .notInMethods) :
    authenticated = true ∧ ∃ m, authmethodByname method = some m ∧ cfg.methodLists ≠ [] ∧
      ∀ list ∈ s.lists, removeMethod list m.name sub = Option.none := by
  have hfail : ∀ (s' : State) (p : Bool) (t : Text), s'.status ≠ .ended .notInMethods →
      (finishFailure cfg s' p t).status ≠ .ended .notInMethods := by
    intro s' p t hs'
    obtain hf | ⟨n, hf | hf⟩ := finishFailure_cases cfg s' p t <;> rw [hf]
    · exact hs'
    · exact hs'
    · simp [stop]
  unfold userauthFinish at h
  split at h
  · next ha =>
    refine ⟨ha, ?_⟩
    split at h
    · simp [stop] at h
    cases hm : authmethodByname method with
    | none => simp [hm, stop] at h
    | some m =>
      simp only [hm] at h
      split at h
      · exact absurd h (hfail s false m.name hs)
      refine ⟨m, rfl, ?_⟩
      unfold finishSuccess at h
      dsimp only at h
      split at h
      · cases h
      next hl =>
      refine ⟨hl, ?_⟩
      have hnot : (updateMethodsLists m.name sub s.lists false).1 = .notFound →
          false = false ∧ ∀ list ∈ s.lists, removeMethod list m.name sub = Option.none :=
        updateMethodsLists_notFound.1
      revert h hnot
      cases updateMethodsLists m.name sub s.lists false with
      | mk out lists =>
        intro h hnot
        cases out with
        | notFound => exact (hnot rfl).2
        | complete => cases h
        | partially => exact absurd h (hfail _ _ _ hs)
  · exact absurd h (hfail s false method hs)

/-! ## One message -/

/-- the next device is one that is compiled in and admitted -/
theorem kbdintNextDevice_spec {devices : List Text} {k : KbdintCtxt}
    (h : kbdintNextDevice cfg lists done devices = some k) :
    k.device ∈ cfg.devices ∧ Admitted cfg lists .keyboardInteractive (some k.device) := by
  induction devices with
  | nil => cases h
  | cons d rest ih =>
    unfold kbdintNextDevice at h
    split at h
    · cases h
    · split at h
      · next hd =>
        obtain rfl := Option.some.inj h
        exact ⟨hd.1, hd.2.2⟩
      · exact ih h

theorem challengeStart_cases (cfg : Config) (s : State) (done devices : List Text) (starts : Bool) :
    challengeStart cfg s done devices starts = { s with kbdint := Option.none } ∨
    ∃ k, challengeStart cfg s done devices starts = { s with kbdint := some k, postponed := true } ∧
      k.device ∈ cfg.devices ∧ Admitted cfg s.lists .keyboardInteractive (some k.device) := by
  unfold challengeStart
  cases hk : kbdintNextDevice cfg s.lists done devices with
  | none => exact .inl rfl
  | some k =>
    cases starts with
    | false => exact .inl rfl
    | true => exact .inr ⟨k, rfl, kbdintNextDevice_spec hk⟩

section
variable (h : Inv cfg s)
include h

theorem Inv.challengeStart (hattempt : s.attempt ≠ 0) (done devices : List Text)
    (starts : Bool) : Inv cfg (challengeStart cfg s done devices starts) := by
  obtain hc | ⟨k, hc, hmem, hadm⟩ := challengeStart_cases cfg s done devices starts <;> rw [hc]
  · exact ⟨fun h0 => absurd h0 hattempt, h.progress, by simp, h.gss, h.success⟩
  · refine ⟨fun h0 => absurd h0 hattempt, h.progress, ?_, h.gss, h.success⟩
    rintro k' hk'
    obtain rfl := Option.some.inj hk'
    exact ⟨hmem, hadm⟩

/-- a method function keeps the invariant and the lists; the two methods that need a reply do not authenticate at once -/
theorem tryMethod_spec (hattempt : s.attempt ≠ 0) (hadm : Admitted cfg s.lists m Option.none) :
    Inv cfg (tryMethod cfg s r m).1 ∧ (tryMethod cfg s r m).1.attempt = s.attempt ∧
      (tryMethod cfg s r m).1.status = s.status ∧ (tryMethod cfg s r m).1.lists = s.lists ∧
      ((tryMethod cfg s r m).2 = true → m ≠ .keyboardInteractive ∧ m ≠ .gssapiWithMic) := by
  have hsame : ∀ (p n : Bool), Inv cfg { s with postponed := p, noneEnabled := n } :=
    fun _ _ => { h with }
  cases m with
  | none => exact ⟨hsame s.postponed false, rfl, rfl, rfl, fun _ => by decide⟩
  | publickey | password | hostbased => exact ⟨hsame r.postponed s.noneEnabled, rfl, rfl, rfl, fun _ => by decide⟩
  | keyboardInteractive =>
    refine ⟨h.challengeStart hattempt _ _ _, ?_, ?_, ?_, by simp [tryMethod]⟩ <;>
    · rw [tryMethod]
      obtain hc | ⟨k, hc, -⟩ := challengeStart_cases cfg s []
        (if r.devices = [] then cfg.devices else r.devices.splitOn ',') r.postponed <;> rw [hc]
  | gssapiWithMic =>
    simp only [tryMethod]
    split
    · exact ⟨⟨fun h0 => absurd h0 hattempt, h.progress, h.kbdint, fun _ => hadm, h.success⟩, rfl, rfl, rfl, by simp⟩
    · exact ⟨{ h with }, rfl, rfl, rfl, by simp⟩

theorem Inv.reset : Inv cfg (reset s) where
  fresh h0 := ⟨rfl, by rw [Userauth.reset]; simp [(h.fresh h0).2.1, GssHandlers.clear], (h.fresh h0).2.2⟩
  progress := h.progress
  kbdint k hk := by cases hk
  gss hg := h.gss fun hc => hg (by simp [Userauth.reset, hc, GssHandlers.clear])
  success := h.success

theorem Inv.prepare (hrun : s.status = .running) (r : Request) : Inv cfg (prepare cfg s r) := by
  have hnext : s.attempt ≠ 0 → Inv cfg { s with attempt := s.attempt + 1 } := fun h0 =>
    ⟨by simp, fun _ => h.progress h0, h.kbdint, h.gss, h.success⟩
  unfold Userauth.prepare
  split
  · exact h.ended _
  split
  · next h0 =>
    obtain ⟨hk, hg, hl⟩ := h.fresh h0
    have hsetup : ∀ (w : Option (Text × Text)) (v : Bool),
        Inv cfg { s with attempt := s.attempt + 1, who := w, valid := v, lists := cfg.enabledLists } := by
      intro w v
      refine ⟨by simp, fun _ => ?_, by simp [hk], by simp [hg], by simp [hrun]⟩
      rw [hl]
      exact forall₂_same.2 fun list hlist => progress_start (mem_filter.1 hlist).2
    unfold setup
    split
    · exact (hsetup _ _).ended _
    · exact hsetup _ _
  · next h0 =>
    split
    · exact (hnext h0).ended _
    · exact hnext h0

end

/-- the lists a message is judged by: the first request sets them up -/
def State.listsNow (cfg : Config) (s : State) : List Text := if s.attempt = 0 then cfg.enabledLists else s.lists

/-- a request that passes the checks is not the zeroth, and has the lists of the moment -/
theorem prepare_running (h : (prepare cfg s r).status = .running) :
    (prepare cfg s r).attempt ≠ 0 ∧ (prepare cfg s r).lists = s.listsNow cfg := by
  unfold prepare setup State.listsNow at *
  split at h
  · simp [stop] at h
  split at h
  · next h0 h1 =>
    split at h
    · simp [stop] at h
    · next h2 => simp [h1, h2]
  · next h0 h1 =>
    split at h
    · simp [stop] at h
    · next h2 => simp [h0, h1, h2]

theorem prepare_status (h : s.status = .running) :
    (prepare cfg s r).status = .running ∨ (prepare cfg s r).status = .ended .disconnected := by
  unfold prepare setup stop
  split_ifs <;> simp [h]

/-- a request that is tried keeps the invariant, and ends in the fatal error only if its method is admitted, authenticates
at once and can be given up by no list -/
theorem authenticate_spec (h : Inv cfg s) (hattempt : s.attempt ≠ 0) (hrun : s.status = .running) :
    Inv cfg (authenticate cfg s r) ∧ ((authenticate cfg s r).status = .ended .notInMethods →
      ∃ m, authmethodByname r.method = some m ∧ m ≠ .keyboardInteractive ∧ m ≠ .gssapiWithMic ∧ cfg.methodLists ≠ [] ∧
        Admitted cfg s.lists m Option.none ∧ ∀ list ∈ s.lists, removeMethod list m.name Option.none = Option.none) := by
  have hrefused : Inv cfg (userauthFinish cfg s false r.method Option.none r.rootRefused) ∧
      ((userauthFinish cfg s false r.method Option.none r.rootRefused).status ≠ .ended .notInMethods) :=
    ⟨h.userauthFinish (by simp), fun hf => by simpa using (notInMethods_of_finish (by simp [hrun]) hf).1⟩
  unfold authenticate
  cases hl : authmethodLookup cfg s r.method with
  | none => exact ⟨hrefused.1, fun hf => absurd hf hrefused.2⟩
  | some m =>
    dsimp only
    split
    · obtain ⟨hm, hp⟩ := Option.filter_eq_some_iff.1 hl
      have hadm : Admitted cfg s.lists m Option.none := (Bool.and_eq_true_iff.1 hp).2
      obtain ⟨hinv, hat, hst, hlists, hauth⟩ := tryMethod_spec h hattempt hadm
      constructor
      · refine hinv.userauthFinish fun ha => ⟨hat ▸ hattempt, hst.trans hrun, by simp, ?_, ?_⟩
        · intro hkb
          exact absurd (Option.some.inj (hm.symm.trans hkb)) (hauth ha).1
        · intro hgs
          exact absurd (Option.some.inj (hm.symm.trans hgs)) (hauth ha).2
      · intro hf
        obtain ⟨ha, m', hm', hne, hall⟩ := notInMethods_of_finish (by simp [hst, hrun]) hf
        obtain rfl := Option.some.inj (hm.symm.trans hm')
        exact ⟨m, hm, (hauth ha).1, (hauth ha).2, hne, hadm, hlists ▸ hall⟩
    · exact ⟨hrefused.1, fun hf => absurd hf hrefused.2⟩

/-- a list that starts with a method and a submethod that is known gives the method up -/
theorem removeMethod_of_sub {sub : Text} (h : listStartsWith list method (some sub) ≠ .none) :
    removeMethod list method (some sub) ≠ Option.none := by
  obtain ⟨r, -, -, hw⟩ | ⟨_, r, -, -, -, hw⟩ | ⟨r, hn, -⟩ := listStartsWith_cases h
  · simp [removeMethod, hw]
  · simp [removeMethod, hw]
  · cases hn

/-- a response keeps the invariant and never ends in the fatal error -/
theorem inputInfoResponse_spec {k : KbdintCtxt} {res : Respond} {again starts : Bool}
    (h : Inv cfg s) (hrun : s.status = .running) (hk : s.kbdint = some k) :
    Inv cfg (inputInfoResponse cfg s k res again starts rootRefused) ∧
    (inputInfoResponse cfg s k res again starts rootRefused).status ≠ .ended .notInMethods := by
  obtain ⟨hdev, hadm⟩ := h.kbdint k hk
  have hattempt : s.attempt ≠ 0 := by
    intro h0
    rw [(h.fresh h0).1] at hk
    cases hk
  have hwait : ∀ p : Bool, Inv cfg { s with postponed := p } :=
    fun _ => { h with }
  -- without an authentication a finish is harmless
  have hrefused : ∀ t : State, Inv cfg t → t.status = .running →
      Inv cfg (userauthFinish cfg t false Method.keyboardInteractive.name (some k.device) rootRefused) ∧
      (userauthFinish cfg t false Method.keyboardInteractive.name (some k.device) rootRefused).status ≠
        .ended .notInMethods :=
    fun t ht hr => ⟨ht.userauthFinish (by simp), fun hf => by simpa using (notInMethods_of_finish (by simp [hr]) hf).1⟩
  unfold inputInfoResponse
  dsimp only
  split
  · have hstopped : Inv cfg { s with postponed := false, kbdint := Option.none } :=
      ⟨fun h0 => absurd h0 hattempt, h.progress, by simp, h.gss, h.success⟩
    constructor
    · refine hstopped.userauthFinish fun _ => ⟨hattempt, hrun, ?_, fun _ => rfl, fun hg => absurd hg (by decide)⟩
      intro d hd
      obtain rfl := Option.some.inj hd
      exact cfg.devices_comma _ hdev
    · intro hf
      obtain ⟨-, m, hm, hne, hall⟩ := notInMethods_of_finish (by simp [hrun]) hf
      obtain rfl : Method.keyboardInteractive = m := Option.some.inj ((by decide : _ = _).symm.trans hm)
      obtain hl | ⟨list, hlist, hw⟩ := admitted_iff.1 hadm
      · exact hne hl
      · exact removeMethod_of_sub hw (hall list hlist)
  · split
    · exact hrefused _ (hwait true) hrun
    · refine hrefused _ ((hwait false).challengeStart hattempt _ _ _) ?_
      obtain hc | ⟨k', hc, -⟩ := challengeStart_cases cfg { s with postponed := false } k.devicesDone k.devices starts <;>
        rw [hc] <;> exact hrun

/-- `method` stands alone in front of some list, or in front of no list with a submethod -/
def plain (lists : List Text) (m : Method) : Bool :=
  lists.any (fun list => listStartsWith list m.name Option.none = .method) ||
    lists.all fun list => listStartsWith list m.name Option.none ≠ .partially

/-- a plain method that is admitted is given up by some list -/
theorem removeMethod_of_plain (hp : plain lists m = true)
    (hne : cfg.methodLists ≠ []) (hadm : Admitted cfg lists m Option.none) :
    ∃ list ∈ lists, removeMethod list m.name Option.none ≠ Option.none := by
  have hmethod : ∀ list, listStartsWith list m.name Option.none = .method →
      removeMethod list m.name Option.none ≠ Option.none := fun list hw => by simp [removeMethod, hw]
  simp only [plain, Bool.or_eq_true, any_eq_true, all_eq_true, decide_eq_true_eq] at hp
  obtain ⟨list, hlist, hw⟩ | hall := hp
  · exact ⟨list, hlist, hmethod list hw⟩
  obtain hl | ⟨list, hlist, hw⟩ := admitted_iff.1 hadm
  · exact absurd hl hne
  · refine ⟨list, hlist, hmethod list ?_⟩
    obtain ⟨r, -, -, hm⟩ | ⟨_, r, hn, -⟩ | ⟨r, -, -, hp⟩ := listStartsWith_cases hw
    · exact hm
    · cases hn
    · exact absurd hp (hall list hlist)

/-- the end of a gssapi exchange keeps the invariant, and is not fatal if the method is plain -/
theorem finishGss_spec {gss : GssHandlers} (h : Inv cfg s)
    (hrun : s.status = .running) (hset : s.gss ≠ .clear) (hauth : authenticated = true → gss = .clear) :
    Inv cfg (finishGss cfg s gss authenticated rootRefused) ∧
    ((authenticated = true → plain s.lists .gssapiWithMic = true) →
      (finishGss cfg s gss authenticated rootRefused).status ≠ .ended .notInMethods) := by
  have hattempt : s.attempt ≠ 0 := fun h0 => hset (h.fresh h0).2.1
  have hadm := h.gss hset
  have hinv : Inv cfg { s with gss := gss, postponed := false } :=
    ⟨fun h0 => absurd h0 hattempt, h.progress, h.kbdint, fun _ => hadm, h.success⟩
  constructor
  · exact hinv.userauthFinish fun ha => ⟨hattempt, hrun, by simp, fun hk => absurd hk (by decide), fun _ => hauth ha⟩
  · intro hp hf
    obtain ⟨ha, m, hm, hne, hall⟩ := notInMethods_of_finish (by simp [hrun]) hf
    obtain rfl : Method.gssapiWithMic = m := Option.some.inj ((by decide : _ = _).symm.trans hm)
    obtain ⟨list, hlist, hw⟩ := removeMethod_of_plain (hp ha) hne hadm
    exact hw (hall list hlist)

/-! ## Runs -/

/-- the method of a message that may authenticate at once is plain in the lists of the moment -/
def plainAt (cfg : Config) (s : State) : Event → Bool
  | .request r =>
    match authmethodByname r.method with
    | some .keyboardInteractive | some .gssapiWithMic | Option.none => true
    | some m => plain (s.listsNow cfg) m
  | .gssMic _ _ | .gssExchangeComplete _ _ => plain s.lists .gssapiWithMic
  | _ => true

theorem inputGssToken_spec {res : Accept} (h : Inv cfg s) (hrun : s.status = .running) (hset : s.gss ≠ .clear) :
    Inv cfg (inputGssToken cfg s res) ∧ (inputGssToken cfg s res).status ≠ .ended .notInMethods := by
  have hkeep : ∀ gss, Inv cfg { s with gss := gss } := fun gss =>
    ⟨fun h0 => absurd (h.fresh h0).2.1 hset, h.progress, h.kbdint, fun _ => h.gss hset, h.success⟩
  have hrun' : s.status ≠ .ended .notInMethods := by simp [hrun]
  cases res with
  | error =>
    have hf : Inv cfg (finishGss cfg s { s.gss with token := false, errtok := false } false false) ∧ _ :=
      finishGss_spec h hrun hset nofun
    exact ⟨hf.1, hf.2 nofun⟩
  | again => exact ⟨h, hrun'⟩
  | complete integ => cases integ <;> exact ⟨hkeep _, hrun'⟩

theorem inputUserauthRequest_spec (h : Inv cfg s) (hrun : s.status = .running) :
    Inv cfg (inputUserauthRequest cfg s r) ∧
    (plainAt cfg s (.request r) = true → (inputUserauthRequest cfg s r).status ≠ .ended .notInMethods) := by
  have hprep := h.prepare hrun r
  unfold inputUserauthRequest
  split
  · next hr =>
    obtain ⟨hattempt, hlists⟩ := prepare_running hr
    obtain ⟨hinv, hfatal⟩ := authenticate_spec hprep.reset hattempt hr
    refine ⟨hinv, fun hp hf => ?_⟩
    obtain ⟨m, hm, hk, hg, hne, hadm, hall⟩ := hfatal hf
    have hp' : plain (prepare cfg s r).lists m = true := by
      rw [hlists]
      rw [plainAt, hm] at hp
      cases m <;> first | exact hp | exact absurd rfl hk | exact absurd rfl hg
    obtain ⟨list, hlist, hw⟩ := removeMethod_of_plain hp' hne hadm
    exact hw (hall list hlist)
  · next hr => exact ⟨hprep, fun _ hf => by simpa [hf] using (prepare_status hrun).resolve_left hr⟩

/-- **Step.** Every message keeps the invariant; with a plain method it does not end in the fatal error. -/
theorem step_spec {e : Event} (h : Inv cfg s) : Inv cfg (step cfg s e) ∧
    (plainAt cfg s e = true → s.status ≠ .ended .notInMethods → (step cfg s e).status ≠ .ended .notInMethods) := by
  unfold step
  split
  · exact ⟨h, fun _ hs => hs⟩
  next hrun =>
  have hrun : s.status = .running := not_not.1 hrun
  have hrun' : s.status ≠ .ended .notInMethods := by simp [hrun]
  cases e with
  | request r =>
    obtain ⟨hinv, hnot⟩ := inputUserauthRequest_spec h hrun
    exact ⟨hinv, fun hp _ => hnot hp⟩
  | infoResponse res again starts rootRefused =>
    cases hk : s.kbdint with
    | none => exact ⟨h, fun _ _ => hrun'⟩
    | some k =>
      obtain ⟨hinv, hnot⟩ := inputInfoResponse_spec h hrun hk
      exact ⟨hinv, fun _ _ => hnot⟩
  | gssToken res =>
    dsimp only
    split
    · next hset =>
      obtain ⟨hinv, hnot⟩ := inputGssToken_spec h hrun (by rintro hc; simp [hc, GssHandlers.clear] at hset)
      exact ⟨hinv, fun _ _ => hnot⟩
    · exact ⟨h, fun _ _ => hrun'⟩
  | gssErrtok | gssMic | gssExchangeComplete =>
    dsimp only
    split
    · next hset =>
      obtain ⟨hinv, hnot⟩ := finishGss_spec h hrun (by rintro hc; simp [hc, GssHandlers.clear] at hset) fun _ => rfl
      refine ⟨hinv, fun hp _ => hnot fun ha => ?_⟩
      first | exact hp | simp at ha
    · exact ⟨h, fun _ _ => hrun'⟩
  | unreadable => exact ⟨h.ended _, fun _ _ => by simp [stop]⟩

/-- **Run.** The invariant holds after every sequence of messages. -/
theorem inv_run (cfg : Config) (es : List Event) : Inv cfg (run (step cfg) start es) :=
  run_inv_all (I := Inv cfg) (fun _ _ h => (step_spec h).1) es (inv_start cfg)

/-! ## Where the ledger comes from -/

/-- a message that authenticates by a method and a submethod -/
def Vouched (x : Method × Option Text) : Event → Prop
  | .request r => authmethodByname r.method = some x.1 ∧ x.2 = Option.none ∧ r.authenticated = true ∧ r.rootRefused = false
  | .infoResponse res _ _ rootRefused =>
    x.1 = .keyboardInteractive ∧ x.2.isSome = true ∧ res = .success ∧ rootRefused = false
  | .gssMic authenticated rootRefused | .gssExchangeComplete authenticated rootRefused =>
    x = (.gssapiWithMic, Option.none) ∧ authenticated = true ∧ rootRefused = false
  | _ => False

theorem finishFailure_successes (s : State) (isPartial : Bool) (method : Text) :
    (finishFailure cfg s isPartial method).successes = s.successes := by
  obtain hf | ⟨n, hf | hf⟩ := finishFailure_cases cfg s isPartial method
  · rw [hf]
  · rw [hf]
  · rw [hf, stop]

theorem finishSuccess_successes (s : State) (m : Method) (sub : Option Text) :
    (finishSuccess cfg s m sub).successes = s.successes ++ [(m, sub)] := by
  unfold finishSuccess
  dsimp only
  split
  · rfl
  · split
    · rfl
    · rfl
    · exact finishFailure_successes _ _ _

/-- a finish adds at most the authentication it is called for -/
theorem userauthFinish_successes (s : State) :
    (userauthFinish cfg s authenticated method sub rootRefused).successes = s.successes ∨
      authenticated = true ∧ rootRefused = false ∧ ∃ m, authmethodByname method = some m ∧
        (userauthFinish cfg s authenticated method sub rootRefused).successes = s.successes ++ [(m, sub)] := by
  unfold userauthFinish
  split
  · next ha =>
    split
    · exact .inl rfl
    · cases hm : authmethodByname method with
      | none => exact .inl rfl
      | some m =>
        dsimp only
        split
        · exact .inl (finishFailure_successes _ _ _)
        · next hroot => exact .inr ⟨ha, by simpa using hroot, m, rfl, finishSuccess_successes s m sub⟩
  · exact .inl (finishFailure_successes _ _ _)

theorem userauthFinish_refused (s : State) :
    (userauthFinish cfg s false method sub rootRefused).successes = s.successes :=
  (userauthFinish_successes s).resolve_right fun h => absurd h.1 (by decide)

theorem challengeStart_successes (s : State) (done devices : List Text) (starts : Bool) :
    (challengeStart cfg s done devices starts).successes = s.successes := by
  unfold challengeStart
  split
  · split <;> rfl
  · rfl

theorem tryMethod_successes (s : State) (r : Request) (m : Method) :
    (tryMethod cfg s r m).1.successes = s.successes ∧ ((tryMethod cfg s r m).2 = true → r.authenticated = true) := by
  cases m with
  | keyboardInteractive => exact ⟨challengeStart_successes _ _ _ _, nofun⟩
  | gssapiWithMic =>
    unfold tryMethod
    dsimp only
    split <;> exact ⟨rfl, nofun⟩
  | none | publickey | password | hostbased => exact ⟨rfl, id⟩

theorem prepare_successes (s : State) (r : Request) : (prepare cfg s r).successes = s.successes := by
  unfold prepare setup
  dsimp only
  split
  · rfl
  · split
    · split <;> rfl
    · split <;> rfl

theorem authenticate_successes (s : State) (r : Request) : (authenticate cfg s r).successes = s.successes ∨
    ∃ x, Vouched x (.request r) ∧ (authenticate cfg s r).successes = s.successes ++ [x] := by
  have hno : ∀ s' : State, (userauthFinish cfg s' false r.method Option.none r.rootRefused).successes = s'.successes :=
    fun s' => (userauthFinish_successes s').resolve_right fun h => absurd h.1 (by decide)
  unfold authenticate
  split
  · next m hm =>
    split
    · obtain ⟨hsame, htrue⟩ : (tryMethod cfg s r m).1.successes = s.successes ∧ _ := tryMethod_successes s r m
      rw [← hsame]
      refine (userauthFinish_successes _).imp_right ?_
      rintro ⟨ha, hroot, m', hm', h⟩
      exact ⟨_, ⟨hm', rfl, htrue ha, hroot⟩, h⟩
    · exact .inl (hno s)
  · exact .inl (hno s)

/-- **A message adds at most what it vouches for.** -/
theorem step_successes (s : State) (e : Event) : (step cfg s e).successes = s.successes ∨
    ∃ x, Vouched x e ∧ (step cfg s e).successes = s.successes ++ [x] := by
  unfold step
  split
  · exact .inl rfl
  cases e with
  | request r =>
    dsimp only
    unfold inputUserauthRequest
    split
    · have hkept : (reset (prepare cfg s r)).successes = s.successes := prepare_successes s r
      rw [← hkept]
      exact authenticate_successes _ r
    · exact .inl (prepare_successes s r)
  | infoResponse res again starts rootRefused =>
    cases s.kbdint with
    | none => exact .inl rfl
    | some k =>
      dsimp only
      unfold inputInfoResponse
      dsimp only
      split
      · next hres =>
        refine (userauthFinish_successes { s with postponed := false, kbdint := Option.none }).imp_right ?_
        rintro ⟨-, hroot, m, hm, h⟩
        exact ⟨_, ⟨(Option.some.inj hm).symm, rfl, hres.1, hroot⟩, h⟩
      · split
        · exact .inl (userauthFinish_refused _)
        · exact .inl ((userauthFinish_refused _).trans (challengeStart_successes _ _ _ _))
  | gssToken res =>
    dsimp only
    split
    · cases res with
      | error => exact .inl (userauthFinish_refused _)
      | again => exact .inl rfl
      | complete integ => cases integ <;> exact .inl rfl
    · exact .inl rfl
  | gssErrtok =>
    dsimp only
    split
    · exact .inl (userauthFinish_refused _)
    · exact .inl rfl
  | gssMic authenticated rootRefused | gssExchangeComplete authenticated rootRefused =>
    dsimp only
    split
    · refine (userauthFinish_successes _).imp_right ?_
      rintro ⟨ha, hroot, m, hm, h⟩
      obtain rfl : Method.gssapiWithMic = m := Option.some.inj hm
      exact ⟨_, ⟨rfl, ha, hroot⟩, h⟩
    · exact .inl rfl
  | unreadable => exact .inl rfl

/-- **The ledger of a run.** Each entry has a message of its own that authenticated by it, in the order of the run. -/
theorem vouched_run (cfg : Config) (es : List Event) :
    List.SublistForall₂ Vouched (run (step cfg) start es).successes es := by
  induction es using reverseRecOn with
  | nil => exact .nil
  | append_singleton es e ih =>
    rw [run_append, run_cons, run_nil]
    obtain ⟨used, hused, hsub⟩ := sublistForall₂_iff.1 ih
    have hstep : (step cfg (run (step cfg) start es) e).successes = _ ∨ _ := step_successes (run (step cfg) start es) e
    obtain h | ⟨x, hx, h⟩ := hstep <;> rw [h]
    · exact sublistForall₂_iff.2 ⟨used, hused, hsub.trans (sublist_append_left _ _)⟩
    · exact sublistForall₂_iff.2 ⟨used ++ [e], rel_append hused (.cons hx .nil), hsub.append (List.Sublist.refl _)⟩

/-- **Methods are spelled, admitted methods are found.** After every sequence of messages, the session is a success only
for a valid user and, if lists are configured, only if a configured list all of whose methods are enabled is spelled in
order by the authentications that succeeded, each by a message of its own. If moreover the method of each message that may
authenticate is plain in the lists of the moment, the fatal error of the update is never reached. -/
theorem userauth_spelled_and_admitted (cfg : Config) (es : List Event)
    (h : Always (step cfg) (fun s e => plainAt cfg s e = true) start es) :
    ((run (step cfg) start es).status = .success → (run (step cfg) start es).valid = true ∧
      (cfg.methodLists ≠ [] → ∃ list ∈ cfg.methodLists, methodsValid (cfg.isEnabled true) list = true ∧
        List.SublistForall₂ Spells (entries list) (run (step cfg) start es).successes)) ∧
    List.SublistForall₂ Vouched (run (step cfg) start es).successes es ∧
    (run (step cfg) start es).status ≠ .ended .notInMethods := by
  refine ⟨?_, vouched_run cfg es, ?_⟩
  · intro hs
    obtain ⟨hvalid, hspelled⟩ := (inv_run cfg es).success hs
    refine ⟨hvalid, fun hne => ?_⟩
    obtain ⟨list, hlist, hsub⟩ := hspelled hne
    exact ⟨list, (mem_filter.1 hlist).1, (mem_filter.1 hlist).2, hsub⟩
  · have hstep : ∀ s e, Inv cfg s ∧ s.status ≠ .ended .notInMethods → plainAt cfg s e = true →
        Inv cfg (step cfg s e) ∧ (step cfg s e).status ≠ .ended .notInMethods :=
      fun s e hs hp => ⟨(step_spec hs.1).1, (step_spec hs.1).2 hp hs.2⟩
    exact (run_inv hstep es ⟨inv_start cfg, by decide⟩ h).2

/-- a session of one user: first the key, then the password -/
def twoFactors : Config where
  authMethods := ["publickey,password"]
  enabled := fun _ => true
  maxAuthtries := 6
  devices := []
  devices_comma := by simp

/-- a request of a known user that authenticates at once -/
def goodRequest (method : Text) : Event :=
  .request { user := "alice", service := "ssh-connection", method := method, devices := [], known := true,
             authenticated := true, postponed := false, serverCausedFailure := false, rootRefused := false }

theorem userauth_spelled_and_admitted_two :
    (run (step twoFactors) start [goodRequest "publickey", goodRequest "password"]).status = .success ∧
    (run (step twoFactors) start [goodRequest "publickey", goodRequest "password"]).valid = true :=
  have hs : (run (step twoFactors) start [goodRequest "publickey", goodRequest "password"]).status =
    .success := by decide +kernel
  ⟨hs, ((userauth_spelled_and_admitted twoFactors [goodRequest "publickey", goodRequest "password"]
    (by decide +kernel)).1 hs).1⟩

/-- a list with a submethod behind a method that has none; the check of the configuration accepts it -/
def qualifiedList : Config := { twoFactors with authMethods := ["publickey:x"] }

/-- **A qualified entry is fatal.** The request is admitted and authenticates; the update does not find its method. -/
theorem qualified_entry_fatal : methodsValid (qualifiedList.isEnabled true) "publickey:x" = true ∧
    methodAllowed qualifiedList qualifiedList.enabledLists .publickey Option.none = true ∧
    (run (step qualifiedList) start [goodRequest "publickey"]).status = .ended .notInMethods := by
  decide +kernel

end OpenSSHServerPN.Userauth
