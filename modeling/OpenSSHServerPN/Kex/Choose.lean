/-
Choice of the algorithms in a key exchange (`kex_choose_conf` in `kex.c`, `match_list` in `match.c`, `kex-names.c`).

Model: a `Proposal` is what one side sends, a text for each slot and the bit `first_kex_follows`; a `KexInit` is a proposal
whose texts are name lists, lists of non-empty names without commas. `matchList` works on texts, as the code does: the
names of the server's text up to the first empty one, 40 at most, are searched for each name of the client's text. `Tables`
are the algorithms of the build, the same on both sides. `chooseConf` is the function of one side, with its role, whether it
is the initial exchange, the number of the packet that brought the peer's proposal, and what an earlier exchange recorded.

The abstract layer is `negotiate`: the choice without roles, from the client's and the server's proposal. Each side
computes it (`chooseConf_eq`), the client with the direction from the server first. What a side records about the other one,
the strict marker and the extension marker, is read from the peer's proposal alone.

Results:
- `firstCommon_iff_reached`: a choice is the client's first common name exactly if that name is among the first 40 of the
  server;
- `choices_disagree`: a server list with 41 names, and a client alone with the strict marker.
-/
import Mathlib.Data.List.TakeWhile
import OpenSSHServerPN.Match.Pattern

namespace OpenSSHServerPN.Kex

/-! ## Name lists -/

/-- a list of names as the protocol has it -/
structure NameList where
  names : List Text
  name_ne : ∀ n ∈ names, n ≠ []
  name_comma : ∀ n ∈ names, ',' ∉ n

/-- the names separated by commas -/
def NameList.text (l : NameList) : Text := [','].intercalate l.names

/-- the names the loops over `strsep` visit: they end at an empty one -/
def tokens (t : Text) : List Text := (t.splitOn ',').takeWhile fun n => n ≠ []

/-- the size of the table of server names -/
def maxProp : ℕ := 40

/-- `match_list` -/
def matchList (client server : Text) : Option Text :=
  (tokens client).find? fun n => n ∈ (tokens server).take maxProp

/-- `kex_has_any_alg` -/
def kexHasAnyAlg (proposal algs : Text) : Bool := (matchList proposal algs).isSome

theorem tokens_text (l : NameList) : tokens l.text = l.names := by
  rw [tokens, NameList.text]
  by_cases h : l.names = []
  · rw [h]
    rfl
  · rw [List.splitOn_intercalate ',' l.name_comma h]
    exact List.takeWhile_eq_self_iff.2 fun n hn => by simpa using l.name_ne n hn

/-- **The list match on names.** -/
theorem matchList_text (c s : NameList) :
    matchList c.text s.text = c.names.find? fun n => n ∈ s.names.take maxProp := by
  rw [matchList, tokens_text, tokens_text]

/-! ## Proposals and tables -/

inductive Slot where
  | kexAlgs
  | serverHostKeyAlgs
  | encAlgsCtos
  | encAlgsStoc
  | macAlgsCtos
  | macAlgsStoc
  | compAlgsCtos
  | compAlgsStoc
deriving DecidableEq, Repr

/-- a proposal as it is sent: the texts need not be lists of names -/
structure Proposal where
  prop : Slot → Text
  firstKexFollows : Bool

structure KexInit where
  prop : Slot → NameList
  firstKexFollows : Bool

def KexInit.sent (k : KexInit) : Proposal := ⟨fun slot => (k.prop slot).text, k.firstKexFollows⟩

instance : Coe KexInit Proposal := ⟨KexInit.sent⟩

/-- the entry of a key exchange method -/
structure KexAlg where
  type : ℕ
  hash : ℕ
  ecNid : ℕ
deriving DecidableEq, Repr

structure Cipher where
  blockSize : ℕ
  keyLen : ℕ
  ivLen : ℕ
  /-- not 0: the cipher authenticates -/
  authLen : ℕ
  secLen : ℕ
deriving DecidableEq, Repr

structure Mac where
  keyLen : ℕ
deriving DecidableEq, Repr

inductive Comp where
  | none
  | delayed
deriving DecidableEq, Repr

/-- the algorithms of the build -/
structure Tables where
  kexAlgByName : Text → Option KexAlg
  /-- `sshkey_type_from_name`, `none` for `KEY_UNSPEC` -/
  hostkeyType : Text → Option ℕ
  cipherByName : Text → Option Cipher
  macSetup : Text → Option Mac

inductive KexError where
  | noKexAlgMatch
  | noHostkeyAlgMatch
  | noCipherAlgMatch
  | noMacAlgMatch
  | noCompressAlgMatch
  | internalError
  /-- `ssh_packet_disconnect`: the proposal was not the first packet -/
  | strictViolation
deriving DecidableEq, Repr

/-! ## The single choices -/

/-- a name from the lists, and its entry in a table -/
def choose {α : Type} (client server : Text) (noMatch : KexError) (table : Text → Option α) : Except KexError (Text × α) :=
  match matchList client server with
  | none => .error noMatch
  | some name =>
    match table name with
    | none => .error .internalError
    | some a => .ok (name, a)

def chooseKex (t : Tables) (client server : Text) : Except KexError (Text × KexAlg) :=
  choose client server .noKexAlgMatch t.kexAlgByName

def chooseHostkeyalg (t : Tables) (client server : Text) : Except KexError (Text × ℕ) :=
  choose client server .noHostkeyAlgMatch t.hostkeyType

def chooseEnc (t : Tables) (client server : Text) : Except KexError (Text × Cipher) :=
  choose client server .noCipherAlgMatch t.cipherByName

def chooseMac (t : Tables) (client server : Text) : Except KexError (Text × Mac) :=
  choose client server .noMacAlgMatch t.macSetup

/-- the compression schemes, with `WITH_ZLIB` -/
def compByName (name : Text) : Option Comp :=
  if name = "zlib@openssh.com" then some .delayed
  else if name = "none" then some .none
  else none

def chooseComp (client server : Text) : Except KexError (Text × Comp) :=
  choose client server .noCompressAlgMatch compByName

/-- the algorithms of one direction -/
structure NewKeys where
  enc : Text × Cipher
  /-- `none` for an authenticating cipher -/
  mac : Option (Text × Mac)
  comp : Text × Comp
deriving DecidableEq, Repr

def nenc (ctos : Bool) : Slot := if ctos then .encAlgsCtos else .encAlgsStoc

def nmac (ctos : Bool) : Slot := if ctos then .macAlgsCtos else .macAlgsStoc

def ncomp (ctos : Bool) : Slot := if ctos then .compAlgsCtos else .compAlgsStoc

/-- the body of the loop over the directions -/
def chooseMode (t : Tables) (cprop sprop : Proposal) (ctos : Bool) : Except KexError NewKeys :=
  match chooseEnc t (cprop.prop (nenc ctos)) (sprop.prop (nenc ctos)) with
  | .error e => .error e
  | .ok enc =>
    if enc.2.authLen = 0 then
      match chooseMac t (cprop.prop (nmac ctos)) (sprop.prop (nmac ctos)) with
      | .error e => .error e
      | .ok mac =>
        match chooseComp (cprop.prop (ncomp ctos)) (sprop.prop (ncomp ctos)) with
        | .error e => .error e
        | .ok comp => .ok ⟨enc, some mac, comp⟩
    else
      match chooseComp (cprop.prop (ncomp ctos)) (sprop.prop (ncomp ctos)) with
      | .error e => .error e
      | .ok comp => .ok ⟨enc, none, comp⟩

/-- the text up to the first comma -/
def firstName (t : Text) : Text := t.takeWhile fun c => c ≠ ','

/-- `proposals_match` -/
def proposalsMatch (my peer : Proposal) : Bool :=
  firstName (my.prop .kexAlgs) = firstName (peer.prop .kexAlgs) &&
    firstName (my.prop .serverHostKeyAlgs) = firstName (peer.prop .serverHostKeyAlgs)

/-! ## One side -/

/-- what a side has recorded about the other one -/
structure Recorded where
  /-- `kex_strict` -/
  strict : Bool
  /-- `ext_info_c` of the server, `ext_info_s` of the client -/
  extInfo : Bool
  rsaSha2x256 : Bool
  rsaSha2x512 : Bool
deriving DecidableEq, Repr

/-- before the first exchange -/
def Recorded.empty : Recorded := ⟨false, false, false, false⟩

structure Chosen where
  kex : Text × KexAlg
  hostkey : Text × ℕ
  modeIn : NewKeys
  modeOut : NewKeys
  recorded : Recorded
  weNeed : ℕ
  dhNeed : ℕ
  /-- `dispatch_skip_packets` is set -/
  skipPacket : Bool
deriving DecidableEq, Repr

def strictMarker (server : Bool) : Text :=
  if server then "kex-strict-s-v00@openssh.com" else "kex-strict-c-v00@openssh.com"

def extInfoMarker (server : Bool) : Text := if server then "ext-info-s" else "ext-info-c"

/-- what a side records from the peer's proposal; `server` is the role of the side itself -/
def recordPeer (server initial : Bool) (prior : Recorded) (peer : Proposal) : Recorded :=
  if initial then
    { strict := kexHasAnyAlg (peer.prop .kexAlgs) (strictMarker (!server))
      extInfo := kexHasAnyAlg (peer.prop .kexAlgs) (extInfoMarker (!server))
      rsaSha2x256 := prior.rsaSha2x256 || server && kexHasAnyAlg (peer.prop .serverHostKeyAlgs)
        "rsa-sha2-256,rsa-sha2-256-cert-v01@openssh.com"
      rsaSha2x512 := prior.rsaSha2x512 || server && kexHasAnyAlg (peer.prop .serverHostKeyAlgs)
        "rsa-sha2-512,rsa-sha2-512-cert-v01@openssh.com" }
  else prior

def macKeyLen (k : NewKeys) : ℕ := (k.mac.map fun m => m.2.keyLen).getD 0

/-- the part of a direction in `we_need` -/
def modeNeed (k : NewKeys) : ℕ := max (max (max k.enc.2.keyLen k.enc.2.blockSize) k.enc.2.ivLen) (macKeyLen k)

/-- the part of a direction in `dh_need` -/
def modeDhNeed (k : NewKeys) : ℕ := max (max (max k.enc.2.secLen k.enc.2.blockSize) k.enc.2.ivLen) (macKeyLen k)

/-- `kex_choose_conf` -/
def chooseConf (t : Tables) (server initial : Bool) (seq : ℕ) (prior : Recorded) (my peer : Proposal) :
    Except KexError Chosen :=
  let cprop := if server then peer else my
  let sprop := if server then my else peer
  let recorded := recordPeer server initial prior peer
  if initial && recorded.strict && seq != 0 then .error .strictViolation
  else
    match chooseKex t (cprop.prop .kexAlgs) (sprop.prop .kexAlgs) with
    | .error e => .error e
    | .ok kex =>
      match chooseHostkeyalg t (cprop.prop .serverHostKeyAlgs) (sprop.prop .serverHostKeyAlgs) with
      | .error e => .error e
      | .ok hostkey =>
        match chooseMode t cprop sprop server with
        | .error e => .error e
        | .ok modeIn =>
          match chooseMode t cprop sprop (!server) with
          | .error e => .error e
          | .ok modeOut =>
            .ok { kex := kex
                  hostkey := hostkey
                  modeIn := modeIn
                  modeOut := modeOut
                  recorded := recorded
                  weNeed := max (modeNeed modeIn) (modeNeed modeOut)
                  dhNeed := max (modeDhNeed modeIn) (modeDhNeed modeOut)
                  skipPacket := peer.firstKexFollows && !proposalsMatch my peer }

/-! ## The negotiation without roles -/

structure Negotiated where
  kex : Text × KexAlg
  hostkey : Text × ℕ
  ctos : NewKeys
  stoc : NewKeys
deriving DecidableEq, Repr

/-- the choices that both proposals lead to, `none` if one of them cannot be made -/
def negotiate (t : Tables) (c s : Proposal) : Option Negotiated :=
  (chooseKex t (c.prop .kexAlgs) (s.prop .kexAlgs)).toOption.bind fun kex =>
    (chooseHostkeyalg t (c.prop .serverHostKeyAlgs) (s.prop .serverHostKeyAlgs)).toOption.bind fun hostkey =>
      (chooseMode t c s true).toOption.bind fun ctos =>
        (chooseMode t c s false).toOption.map fun stoc => ⟨kex, hostkey, ctos, stoc⟩

/-- the proposal is refused for its place in the stream -/
def violates (initial strict : Bool) (seq : ℕ) : Bool := initial && strict && seq != 0

/-- what the negotiation is for one side -/
def Negotiated.forSide (n : Negotiated) (server : Bool) (recorded : Recorded) (my peer : Proposal) : Chosen where
  kex := n.kex
  hostkey := n.hostkey
  modeIn := if server then n.ctos else n.stoc
  modeOut := if server then n.stoc else n.ctos
  recorded := recorded
  weNeed := max (modeNeed n.ctos) (modeNeed n.stoc)
  dhNeed := max (modeDhNeed n.ctos) (modeDhNeed n.stoc)
  skipPacket := peer.firstKexFollows && !proposalsMatch my peer

/-- **Each side computes the negotiation**, unless the proposal comes too late. -/
theorem chooseConf_eq (t : Tables) (server initial : Bool) (seq : ℕ) (prior : Recorded) (my peer : Proposal) :
    (chooseConf t server initial seq prior my peer).toOption =
      if violates initial (recordPeer server initial prior peer).strict seq then none else
        (negotiate t (if server then peer else my) (if server then my else peer)).map fun n =>
          n.forSide server (recordPeer server initial prior peer) my peer := by
  unfold chooseConf violates
  simp only []
  split
  · rfl
  unfold negotiate
  generalize (if server = true then peer else my) = c
  generalize (if server = true then my else peer) = s
  cases hk : chooseKex t (c.prop .kexAlgs) (s.prop .kexAlgs) with
  | error e => rfl
  | ok kex =>
    cases hh : chooseHostkeyalg t (c.prop .serverHostKeyAlgs) (s.prop .serverHostKeyAlgs) with
    | error e => rfl
    | ok hostkey =>
      cases server with
      | true =>
        cases chooseMode t c s true with
        | error e => rfl
        | ok modeIn =>
          cases ho : chooseMode t c s false with
          | error e => simp [ho, Except.toOption]
          | ok modeOut => simp [ho, Except.toOption, Negotiated.forSide]
      | false =>
        -- the client looks at first
        cases chooseMode t c s false with
        | error e => cases chooseMode t c s true <;> simp [Except.toOption]
        | ok modeIn =>
          cases ho : chooseMode t c s true with
          | error e => simp [ho, Except.toOption]
          | ok modeOut => simp [ho, Except.toOption, Negotiated.forSide, max_comm]

/-! ## First common names -/

/-- the client's first name that the server's list has -/
def FirstCommon (c s : NameList) (name : Text) : Prop := c.names.find? (fun n => n ∈ s.names) = some name

/-- that name is in the server's table -/
def Reached (c s : NameList) : Prop := ∀ n, FirstCommon c s n → n ∈ s.names.take maxProp

/-- the name is the one `match_list` finds -/
def Found (c s : NameList) (name : Text) : Prop := c.names.find? (fun n => n ∈ s.names.take maxProp) = some name

instance (c s : NameList) (name : Text) : Decidable (FirstCommon c s name) := inferInstanceAs (Decidable (_ = _))

theorem choose_found {α : Type} {c s : NameList} {e : KexError} {table : Text → Option α} {r : Text × α}
    (h : choose c.text s.text e table = .ok r) : Found c s r.1 := by
  rw [choose, matchList_text] at h
  rw [Found]
  cases hf : c.names.find? fun n => n ∈ s.names.take maxProp with
  | none => simp [hf] at h
  | some name =>
    simp only [hf] at h
    cases ht : table name with
    | none => simp [ht] at h
    | some a =>
      simp only [ht, Except.ok.injEq] at h
      rw [← h]

/-- **The table of 40 names.** The name found is the client's first common name exactly if that one is in the table. -/
theorem firstCommon_iff_reached {c s : NameList} {name : Text} (h : Found c s name) :
    FirstCommon c s name ↔ Reached c s := by
  have hmem : name ∈ s.names.take maxProp := by simpa using List.find?_some h
  constructor
  · intro hfc n hn
    have heq : n = name := Option.some.inj (hn.symm.trans hfc)
    rwa [heq]
  intro hr
  have hsome : (c.names.find? fun n => n ∈ s.names).isSome = true :=
    List.find?_isSome.2 ⟨name, List.mem_of_find?_eq_some h, by simpa using List.mem_of_mem_take hmem⟩
  obtain ⟨m, hm⟩ := Option.isSome_iff_exists.1 hsome
  have hreach : m ∈ s.names.take maxProp := hr m hm
  obtain ⟨-, pre, post, hc, hpre⟩ := List.find?_eq_some_iff_append.1 hm
  -- nothing before `m` is common, so the search in the table stops at `m` too
  have hfound : Found c s m := by
    refine List.find?_eq_some_iff_append.2 ⟨by simpa using hreach, pre, post, hc, fun x hx => ?_⟩
    have hno := hpre x hx
    simp only [Bool.not_eq_eq_eq_not, Bool.not_true, decide_eq_false_iff_not] at hno ⊢
    exact fun hx' => hno (List.mem_of_mem_take hx')
  have heq : m = name := Option.some.inj (hfound.symm.trans h)
  rw [← heq]
  exact hm

/-- every name of a direction is the first common one -/
structure ModeFirstCommon (c s : KexInit) (ctos : Bool) (k : NewKeys) : Prop where
  enc : FirstCommon (c.prop (nenc ctos)) (s.prop (nenc ctos)) k.enc.1
  mac : ∀ m, k.mac = some m → FirstCommon (c.prop (nmac ctos)) (s.prop (nmac ctos)) m.1
  comp : FirstCommon (c.prop (ncomp ctos)) (s.prop (ncomp ctos)) k.comp.1

/-- the first common names of the lists used for a direction are in the server's tables -/
structure ModeReached (c s : KexInit) (ctos : Bool) (k : NewKeys) : Prop where
  enc : Reached (c.prop (nenc ctos)) (s.prop (nenc ctos))
  mac : k.mac.isSome = true → Reached (c.prop (nmac ctos)) (s.prop (nmac ctos))
  comp : Reached (c.prop (ncomp ctos)) (s.prop (ncomp ctos))

variable {c s : KexInit} {t : Tables}

theorem chooseMode_found {ctos : Bool} {k : NewKeys} (h : chooseMode t c s ctos = .ok k) :
    Found (c.prop (nenc ctos)) (s.prop (nenc ctos)) k.enc.1 ∧
      (∀ m, k.mac = some m → Found (c.prop (nmac ctos)) (s.prop (nmac ctos)) m.1) ∧
      Found (c.prop (ncomp ctos)) (s.prop (ncomp ctos)) k.comp.1 := by
  unfold chooseMode at h
  cases he : chooseEnc t (c.sent.prop (nenc ctos)) (s.sent.prop (nenc ctos)) with
  | error e => simp [he] at h
  | ok enc =>
    simp only [he] at h
    split at h
    · cases hm : chooseMac t (c.sent.prop (nmac ctos)) (s.sent.prop (nmac ctos)) with
      | error e => simp [hm] at h
      | ok mac =>
        cases hc : chooseComp (c.sent.prop (ncomp ctos)) (s.sent.prop (ncomp ctos)) with
        | error e => simp [hm, hc] at h
        | ok comp =>
          simp only [hm, hc, Except.ok.injEq] at h
          subst h
          exact ⟨choose_found he, fun m hk => Option.some.inj hk ▸ choose_found hm, choose_found hc⟩
    · cases hc : chooseComp (c.sent.prop (ncomp ctos)) (s.sent.prop (ncomp ctos)) with
      | error e => simp [hc] at h
      | ok comp =>
        simp only [hc, Except.ok.injEq] at h
        subst h
        exact ⟨choose_found he, fun m hk => absurd hk (by simp), choose_found hc⟩

theorem modeFirstCommon_iff {ctos : Bool} {k : NewKeys}
    (h : chooseMode t c s ctos = .ok k) : ModeFirstCommon c s ctos k ↔ ModeReached c s ctos k := by
  obtain ⟨henc, hmac, hcomp⟩ := chooseMode_found h
  constructor
  · intro hf
    refine ⟨(firstCommon_iff_reached henc).1 hf.enc, fun hk => ?_, (firstCommon_iff_reached hcomp).1 hf.comp⟩
    obtain ⟨m, hm⟩ := Option.isSome_iff_exists.1 hk
    exact (firstCommon_iff_reached (hmac m hm)).1 (hf.mac m hm)
  · intro hr
    refine ⟨(firstCommon_iff_reached henc).2 hr.enc, fun m hm => ?_, (firstCommon_iff_reached hcomp).2 hr.comp⟩
    exact (firstCommon_iff_reached (hmac m hm)).2 (hr.mac (by rw [hm]; rfl))

/-- every chosen name is the client's first common one -/
structure AllFirstCommon (c s : KexInit) (n : Negotiated) : Prop where
  kex : FirstCommon (c.prop .kexAlgs) (s.prop .kexAlgs) n.kex.1
  hostkey : FirstCommon (c.prop .serverHostKeyAlgs) (s.prop .serverHostKeyAlgs) n.hostkey.1
  ctos : ModeFirstCommon c s true n.ctos
  stoc : ModeFirstCommon c s false n.stoc

/-- the first common names of all lists used are in the server's tables -/
structure AllReached (c s : KexInit) (n : Negotiated) : Prop where
  kex : Reached (c.prop .kexAlgs) (s.prop .kexAlgs)
  hostkey : Reached (c.prop .serverHostKeyAlgs) (s.prop .serverHostKeyAlgs)
  ctos : ModeReached c s true n.ctos
  stoc : ModeReached c s false n.stoc

theorem toOption_eq_some {ε α : Type} {x : Except ε α} {a : α} (h : x.toOption = some a) : x = .ok a := by
  cases x with
  | error e => cases h
  | ok b => rw [Option.some.inj h]

theorem allFirstCommon_iff {n : Negotiated} (h : negotiate t c s = some n) :
    AllFirstCommon c s n ↔ AllReached c s n := by
  simp only [negotiate, Option.bind_eq_some_iff, Option.map_eq_some_iff] at h
  obtain ⟨kex, hk, hostkey, hh, ctos, hct, stoc, hst, rfl⟩ := h
  have hkex : Found (c.prop .kexAlgs) (s.prop .kexAlgs) kex.1 := choose_found (toOption_eq_some hk)
  have hhost : Found (c.prop .serverHostKeyAlgs) (s.prop .serverHostKeyAlgs) hostkey.1 :=
    choose_found (toOption_eq_some hh)
  have hctos := modeFirstCommon_iff (toOption_eq_some hct)
  have hstoc := modeFirstCommon_iff (toOption_eq_some hst)
  constructor
  · intro hf
    exact ⟨(firstCommon_iff_reached hkex).1 hf.kex, (firstCommon_iff_reached hhost).1 hf.hostkey, hctos.1 hf.ctos,
      hstoc.1 hf.stoc⟩
  · intro hr
    exact ⟨(firstCommon_iff_reached hkex).2 hr.kex, (firstCommon_iff_reached hhost).2 hr.hostkey, hctos.2 hr.ctos,
      hstoc.2 hr.stoc⟩

/-! ## Agreement -/

theorem proposalsMatch_comm (a b : Proposal) : proposalsMatch a b = proposalsMatch b a := by
  unfold proposalsMatch
  simp only [eq_comm]

/-- the client's choice `a` and the server's choice `b` are one choice -/
structure SameChoice (c s : KexInit) (a b : Chosen) : Prop where
  kex : a.kex.1 = b.kex.1
  hash : a.kex.2.hash = b.kex.2.hash
  hostkey : a.hostkey.1 = b.hostkey.1
  strict : a.recorded.strict = b.recorded.strict
  extInfo : a.recorded.extInfo = b.recorded.extInfo
  ctos : a.modeOut = b.modeIn
  stoc : a.modeIn = b.modeOut
  /-- a guess is right or wrong for both sides -/
  guess : ∃ wrong, a.skipPacket = (s.firstKexFollows && wrong) ∧ b.skipPacket = (c.firstKexFollows && wrong)
  first : AllFirstCommon c s ⟨a.kex, a.hostkey, a.modeOut, a.modeIn⟩

/-- **Agreement**: both sides fail, or both make one choice. -/
def Agree (c s : KexInit) (client server : Except KexError Chosen) : Prop :=
  (client.toOption = none ∧ server.toOption = none) ∨ ∃ a b, client = .ok a ∧ server = .ok b ∧ SameChoice c s a b

theorem sameChoice_iff {n : Negotiated} (h : negotiate t c s = some n) (rc rs : Recorded) :
    SameChoice c s (n.forSide false rc c s) (n.forSide true rs s c) ↔
      rc.strict = rs.strict ∧ rc.extInfo = rs.extInfo ∧ AllReached c s n := by
  have hfirst : AllFirstCommon c s n ↔ AllReached c s n := allFirstCommon_iff h
  constructor
  · intro hs
    exact ⟨hs.strict, hs.extInfo, hfirst.1 hs.first⟩
  rintro ⟨hstrict, hext, hr⟩
  exact {
    kex := rfl
    hash := rfl
    hostkey := rfl
    strict := hstrict
    extInfo := hext
    ctos := rfl
    stoc := rfl
    guess := ⟨!proposalsMatch c s, rfl, by rw [proposalsMatch_comm]; rfl⟩
    first := hfirst.2 hr }

/-- the state of knowledge of the two sides before they choose -/
structure Before where
  /-- this is the first key exchange -/
  initial : Bool
  /-- the numbers of the packets with the proposals, as their receivers count them -/
  clientSeq : ℕ
  serverSeq : ℕ
  /-- recorded in the first exchange -/
  client : Recorded
  server : Recorded

def Before.runClient (w : Before) (t : Tables) (c s : KexInit) : Except KexError Chosen :=
  chooseConf t false w.initial w.clientSeq w.client c s

def Before.runServer (w : Before) (t : Tables) (c s : KexInit) : Except KexError Chosen :=
  chooseConf t true w.initial w.serverSeq w.server s c

/-- what the client records about the server -/
def Before.clientRecords (w : Before) (s : KexInit) : Recorded := recordPeer false w.initial w.client s

/-- what the server records about the client -/
def Before.serverRecords (w : Before) (c : KexInit) : Recorded := recordPeer true w.initial w.server c

/-- a side refuses a proposal that was not the first packet -/
def Before.clientRefuses (w : Before) (s : KexInit) : Bool := violates w.initial (w.clientRecords s).strict w.clientSeq

def Before.serverRefuses (w : Before) (c : KexInit) : Bool := violates w.initial (w.serverRecords c).strict w.serverSeq

/-- **When the two sides agree.** There is nothing to choose, or both refuse the other's proposal, or neither does, each
has recorded the same markers about the other, and the client's first common name of every list used is among the first 40
names of the server. -/
theorem choices_agree_iff (t : Tables) (w : Before) (c s : KexInit) :
    Agree c s (w.runClient t c s) (w.runServer t c s) ↔
      negotiate t c s = none ∨ (w.clientRefuses s = true ∧ w.serverRefuses c = true) ∨
        (w.clientRefuses s = false ∧ w.serverRefuses c = false ∧
          (w.clientRecords s).strict = (w.serverRecords c).strict ∧
          (w.clientRecords s).extInfo = (w.serverRecords c).extInfo ∧
          ∀ n, negotiate t c s = some n → AllReached c s n) := by
  have hclient : (w.runClient t c s).toOption = if w.clientRefuses s then none
      else (negotiate t c s).map fun n => n.forSide false (w.clientRecords s) c s := chooseConf_eq ..
  have hserver : (w.runServer t c s).toOption = if w.serverRefuses c then none
      else (negotiate t c s).map fun n => n.forSide true (w.serverRecords c) s c := chooseConf_eq ..
  cases hn : negotiate t c s with
  | none =>
    rw [hn] at hclient hserver
    simp only [Option.map_none, ite_self] at hclient hserver
    simp only [true_or, iff_true]
    exact Or.inl ⟨hclient, hserver⟩
  | some n =>
    rw [hn] at hclient hserver
    cases hc : w.clientRefuses s with
    | true =>
      cases hs : w.serverRefuses c with
      | true =>
        simp only [hc, hs] at hclient hserver
        simp only [true_and, true_or, or_true, iff_true]
        exact Or.inl ⟨hclient, hserver⟩
      | false =>
        simp only [hc, hs] at hclient hserver
        simp only [reduceCtorEq, false_and, and_false, or_false, iff_false]
        rintro (⟨-, h⟩ | ⟨a, b, ha, -⟩)
        · rw [h] at hserver; simp at hserver
        · rw [ha] at hclient; cases hclient
    | false =>
      cases hs : w.serverRefuses c with
      | true =>
        simp only [hc, hs] at hclient hserver
        simp only [reduceCtorEq, false_and, and_false, or_false, iff_false]
        rintro (⟨h, -⟩ | ⟨a, b, -, hb, -⟩)
        · rw [h] at hclient; simp at hclient
        · rw [hb] at hserver; cases hserver
      | false =>
        simp only [hc, hs] at hclient hserver
        have hca := toOption_eq_some hclient
        have hsa := toOption_eq_some hserver
        have hsame := sameChoice_iff hn (w.clientRecords s) (w.serverRecords c)
        rw [hca, hsa]
        constructor
        · rintro (⟨h, -⟩ | ⟨a, b, ha, hb, h⟩)
          · cases h
          · obtain rfl := Except.ok.inj ha
            obtain rfl := Except.ok.inj hb
            obtain ⟨hstrict, hext, hr⟩ := hsame.1 h
            exact Or.inr (Or.inr ⟨rfl, rfl, hstrict, hext, fun m hm => Option.some.inj hm ▸ hr⟩)
        · rintro (h | ⟨h, -⟩ | ⟨-, -, hstrict, hext, hr⟩)
          · cases h
          · cases h
          · exact Or.inr ⟨_, _, rfl, rfl, hsame.2 ⟨hstrict, hext, hr n rfl⟩⟩

/-! ## Two proposals that go wrong -/

/-- tables that know every name -/
def anyTables : Tables where
  kexAlgByName _ := some ⟨0, 0, 0⟩
  hostkeyType _ := some 0
  cipherByName _ := some ⟨16, 16, 0, 0, 16⟩
  macSetup _ := some ⟨32⟩

def plain : NameList := ⟨["none"], by decide, by decide⟩

def proposal (kexAlgs : NameList) : KexInit where
  prop
    | .kexAlgs => kexAlgs
    | _ => plain
  firstKexFollows := false

def firstExchange : Before := ⟨true, 0, 0, .empty, .empty⟩

def clientKex : NameList := ⟨["x", "y"], by decide, by decide⟩

/-- `y`, 39 other names and `x` -/
def longServerKex : NameList :=
  ⟨["y".toList] ++ (List.range 39).map (fun i => List.replicate (i + 1) 'a') ++ ["x".toList], by decide, by decide⟩

def strictClientKex : NameList := ⟨["x", strictMarker false], by decide, by decide⟩

def shortServerKex : NameList := ⟨["x"], by decide, by decide⟩

/-- what an agreement says about a part of the client's choice that is known -/
theorem Agree.client_part {client server : Except KexError Chosen} {β : Type} (h : Agree c s client server)
    (f : Chosen → β) {x : β} (hx : client.toOption.map f = some x) :
    ∃ a b, server = .ok b ∧ SameChoice c s a b ∧ f a = x := by
  rcases h with ⟨h, -⟩ | ⟨a, b, rfl, hb, hs⟩
  · rw [h] at hx
    cases hx
  · exact ⟨a, b, hb, hs, Option.some.inj hx⟩

/-- The client's first common name is the 41st of the server, and a later one is chosen; a client that offers the strict
marker to a server that does not is taken for strict by the server only. -/
theorem choices_disagree : (¬ Agree (proposal clientKex) (proposal longServerKex)
      (firstExchange.runClient anyTables (proposal clientKex) (proposal longServerKex))
      (firstExchange.runServer anyTables (proposal clientKex) (proposal longServerKex))) ∧
    ¬ Agree (proposal strictClientKex) (proposal shortServerKex)
      (firstExchange.runClient anyTables (proposal strictClientKex) (proposal shortServerKex))
      (firstExchange.runServer anyTables (proposal strictClientKex) (proposal shortServerKex)) := by
  constructor
  · intro h
    obtain ⟨a, b, -, hs, ha⟩ := h.client_part (fun a => a.kex.1) (x := "y".toList) (by decide +kernel)
    have hfirst : FirstCommon clientKex longServerKex a.kex.1 := hs.first.kex
    rw [ha] at hfirst
    exact absurd hfirst (by decide +kernel)
  · intro h
    obtain ⟨a, b, hb, hs, ha⟩ := h.client_part (fun a => a.recorded.strict) (x := false) (by decide +kernel)
    have hserver : (firstExchange.runServer anyTables (proposal strictClientKex) (proposal shortServerKex)).toOption.map
        (fun b => b.recorded.strict) = some true := by decide +kernel
    rw [hb] at hserver
    have hstrict : b.recorded.strict = true := Option.some.inj hserver
    rw [← hs.strict, ha] at hstrict
    cases hstrict

end OpenSSHServerPN.Kex
