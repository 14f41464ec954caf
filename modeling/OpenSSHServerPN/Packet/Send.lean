/-
The send side of a connection: queueing during key exchanges and sealing (`packet.c`, `kex.c`).

Model: a message is a type, the length of its packet and the length it is sealed with (after compression and padding, which
the environment fixes). `send2Wrapped` seals one packet with the send key and the sequence number of the moment, counts it,
and installs the next key after `NEWKEYS`. `send2` is `ssh_packet_send2` with its queue; the key exchange enters by
`kexStartRekex`, `kexSendKexinit` and the events of the peer. An error, or a call that does not return, sets `ended`, and
an ended session does nothing more. Every derivation of keys has its own number.

Two ledgers are kept: `wire`, the messages sealed, and `seals`, the key and the sequence number of each.

If the sequence number wraps during the initial key exchange, `ssh_packet_send2_wrapped` calls `ssh_packet_disconnect`,
which seals one more packet: with the sequence number 0.
-/
import OpenSSHServerPN.Packet.State

namespace OpenSSHServerPN.PacketSend

open Runs Packet

/-! ## Messages -/

structure Msg where
  type : UInt8
  /-- the length of `outgoing_packet`: five bytes of header, the type and the rest of the payload -/
  len : UInt32
  /-- the length of the packet as it is sealed -/
  size : UInt32
deriving DecidableEq, Repr

def SSH2_MSG_DISCONNECT : UInt8 := 1
def SSH2_MSG_IGNORE : UInt8 := 2
def SSH2_MSG_SERVICE_REQUEST : UInt8 := 5
def SSH2_MSG_SERVICE_ACCEPT : UInt8 := 6
def SSH2_MSG_EXT_INFO : UInt8 := 7
def SSH2_MSG_KEXINIT : UInt8 := 20
def SSH2_MSG_NEWKEYS : UInt8 := 21
def SSH2_MSG_USERAUTH_SUCCESS : UInt8 := 52
def SSH2_MSG_TRANSPORT_MIN : UInt8 := 1
def SSH2_MSG_TRANSPORT_MAX : UInt8 := 49

/-- `ssh_packet_type_is_kex` -/
def typeIsKex (type : UInt8) : Bool :=
  SSH2_MSG_TRANSPORT_MIN ≤ type && type ≤ SSH2_MSG_TRANSPORT_MAX && type ≠ SSH2_MSG_SERVICE_REQUEST &&
    type ≠ SSH2_MSG_SERVICE_ACCEPT && type ≠ SSH2_MSG_EXT_INFO

def Msg.nonTransport (m : Msg) : Bool := !typeIsKex m.type

/-! ## State -/

/-- a send key: the number of its derivation and the block size of its cipher -/
structure SendKey where
  id : ℕ
  block : UInt32
deriving DecidableEq, Repr

structure Config where
  rekeyLimit : UInt64
  rekeyInterval : UInt32
  serverSide : Bool
  /-- the length of the local `KEXINIT` and of a `DISCONNECT` -/
  kexinitSize : UInt32
  disconnectSize : UInt32
deriving DecidableEq, Repr

structure State where
  /-- `state->newkeys[MODE_OUT]` -/
  key : Option SendKey
  /-- `kex->newkeys[MODE_OUT]` -/
  pending : Option SendKey
  /-- the block sizes of `state->newkeys[MODE_IN]` and of `kex->newkeys[MODE_IN]` -/
  blockIn : Option UInt32
  pendingIn : Option UInt32
  pSend : Counters
  pRead : Counters
  hardMaxBlocksIn : ℕ
  hardMaxBlocksOut : ℕ
  maxBlocksIn : ℕ
  maxBlocksOut : ℕ
  rekeyTime : ℕ
  afterAuthentication : Bool
  rekeying : Bool
  /-- `kex->flags`: `KEX_INITIAL`, `KEX_INIT_SENT`, `KEX_INIT_RECVD` -/
  initial : Bool
  initSent : Bool
  initRecvd : Bool
  /-- `kex->done` -/
  done : Bool
  /-- `kex->kex_strict` -/
  strict : Bool
  /-- `state->outgoing` -/
  outgoing : List Msg
  /-- the number of the next derivation -/
  nextKey : ℕ
  wire : List Msg
  seals : List (Option ℕ × UInt32)
  ended : Bool
deriving DecidableEq, Repr

/-- a connection before its first key exchange -/
def start : State where
  key := none
  pending := none
  blockIn := none
  pendingIn := none
  pSend := ⟨0, 0, 0, 0⟩
  pRead := ⟨0, 0, 0, 0⟩
  hardMaxBlocksIn := 0
  hardMaxBlocksOut := 0
  maxBlocksIn := 0
  maxBlocksOut := 0
  rekeyTime := 0
  afterAuthentication := false
  rekeying := true
  initial := true
  initSent := false
  initRecvd := false
  done := false
  strict := false
  outgoing := []
  nextKey := 0
  wire := []
  seals := []
  ended := false

def State.fail (s : State) : State := { s with ended := true }

/-! ## Limits -/

/-- `ssh_packet_check_rekey_blocklimit`; without a send key only the number of packets counts -/
def checkBlocklimit (s : State) (len : UInt32) (hard : Bool) : Bool :=
  let maxIn := if hard then s.hardMaxBlocksIn else s.maxBlocksIn
  let maxOut := if hard then s.hardMaxBlocksOut else s.maxBlocksOut
  s.pSend.packets > MAX_PACKETS || s.pRead.packets > MAX_PACKETS ||
    match s.key with
    | none => false
    | some k =>
      (maxOut ≠ 0 && s.pSend.blocks.toNat + ((len + (k.block - 1)) / k.block * k.block).toNat > maxOut) ||
        (maxIn ≠ 0 && s.pRead.blocks.toNat > maxIn)

/-- `ssh_packet_is_rekeying` -/
def State.isRekeying (s : State) : Bool := s.rekeying || !s.done

/-- `ssh_packet_need_rekeying` -/
def needRekeying (cfg : Config) (s : State) (now : ℕ) (len : UInt32) : Bool :=
  s.afterAuthentication && !s.isRekeying && !(s.pSend.packets = 0 && s.pRead.packets = 0) &&
    ((cfg.rekeyInterval ≠ 0 && s.rekeyTime + cfg.rekeyInterval.toNat ≤ now) || checkBlocklimit s len false)

/-- `ssh_packet_check_rekey_preauth` finds a hard limit exceeded -/
def preauthExceeded (s : State) : Bool := !s.afterAuthentication && checkBlocklimit s 0 true

/-! ## Sealing -/

/-- the packet is sealed with the key and the sequence number of the moment, which then counts up -/
def sealPacket (s : State) (m : Msg) : State :=
  { s with
    wire := s.wire ++ [m]
    seals := s.seals ++ [(s.key.map (·.id), s.pSend.seqnr)]
    pSend := { s.pSend with seqnr := s.pSend.seqnr + 1 } }

/-- `ssh_packet_disconnect`: one more packet, and the session is over -/
def disconnect (cfg : Config) (s : State) : State := (sealPacket s ⟨SSH2_MSG_DISCONNECT, 6, cfg.disconnectSize⟩).fail

/-- `ssh_set_newkeys` for `MODE_OUT` -/
def setNewkeysOut (cfg : Config) (s : State) : State :=
  match s.pending with
  | none => { s with pSend := s.pSend.renew, ended := true }
  | some k =>
    { s with
      pSend := s.pSend.renew
      key := some k
      pending := none
      hardMaxBlocksOut := hardMaxBlocks k.block
      maxBlocksOut := maxBlocks cfg.rekeyLimit k.block }

/-- the strict key exchange starts every key with the sequence number 0 -/
def resetSeqnr (s : State) : State := { s with pSend := { s.pSend with seqnr := if s.strict then 0 else s.pSend.seqnr } }

/-- what follows a packet that has been counted -/
def afterPacket (cfg : Config) (s : State) (type : UInt8) : State :=
  if type = SSH2_MSG_NEWKEYS then setNewkeysOut cfg (resetSeqnr s)
  else if type = SSH2_MSG_USERAUTH_SUCCESS ∧ cfg.serverSide then { s with afterAuthentication := true }
  else s

/-- the packet is counted; a count that wraps is an error -/
def countPacket (s : State) (size : UInt32) : State :=
  { s with
    pSend := { s.pSend with
      packets := s.pSend.packets + 1
      blocks := s.pSend.blocks + (size / ((s.key.map (·.block)).getD 8)).toUInt64
      bytes := s.pSend.bytes + size.toUInt64 } }

/-- `ssh_packet_send2_wrapped` -/
def send2Wrapped (cfg : Config) (s : State) (m : Msg) : State :=
  let s := sealPacket s m
  if s.pSend.seqnr = 0 ∧ s.initial then disconnect cfg s
  else if s.pSend.packets + 1 = 0 then { s with pSend := { s.pSend with packets := 0 }, ended := true }
  else afterPacket cfg (countPacket s m.size) m.type

/-! ## The key exchange and the queue -/

def Config.kexinit (cfg : Config) : Msg := ⟨SSH2_MSG_KEXINIT, cfg.kexinitSize, cfg.kexinitSize⟩

/-- `kex_send_kexinit`; its `ssh_packet_send2` sets `rekeying` and seals the message -/
def kexSendKexinit (cfg : Config) (s : State) : State :=
  if s.initSent then s
  else
    let s := send2Wrapped cfg { s with done := false, rekeying := true } cfg.kexinit
    if s.ended then s else { s with initSent := true }

/-- `kex_start_rekex` -/
def kexStartRekex (cfg : Config) (s : State) : State :=
  if s.done then kexSendKexinit cfg { s with done := false } else s.fail

/-- the queue after `NEWKEYS`; a packet that needs a rekey leaves the rest for the next time -/
def drain (cfg : Config) (now : ℕ) : List Msg → State → State
  | [], s => { s with outgoing := [] }
  | p :: rest, s =>
    if needRekeying cfg s now p.len then kexStartRekex cfg { s with outgoing := p :: rest }
    else
      let s := send2Wrapped cfg { s with outgoing := rest } p
      if s.ended then s else drain cfg now rest s

/-- `ssh_packet_send2` -/
def send2 (cfg : Config) (s : State) (m : Msg) (now : ℕ) : State :=
  if m.len < 6 then s.fail
  else if m.nonTransport then
    if !s.rekeying && preauthExceeded s then s.fail
    else if needRekeying cfg s now m.len then kexStartRekex cfg { s with outgoing := s.outgoing ++ [m] }
    else if s.rekeying then { s with outgoing := s.outgoing ++ [m] }
    else send2Wrapped cfg s m
  else
    let s := send2Wrapped cfg (if m.type = SSH2_MSG_KEXINIT then { s with rekeying := true } else s) m
    if s.ended then s
    else if m.type = SSH2_MSG_NEWKEYS then drain cfg now s.outgoing { s with rekeying := false, rekeyTime := now }
    else s

/-! ## Events -/

inductive Event where
  | send (m : Msg) (now : ℕ)
  /-- a rekey is asked for -/
  | startRekex
  /-- a packet of the given type and size has been read -/
  | received (type : UInt8) (size : UInt32) (now : ℕ)
  /-- the handler of `KEXINIT`, the packet `seq`; `strict` says whether the peer offers the strict key exchange -/
  | kexinitReceived (strict : Bool) (seq : UInt32)
  /-- keys for both directions are derived -/
  | derived (blockOut blockIn : UInt32)
  /-- the handler of `NEWKEYS` -/
  | newkeysReceived
  /-- the client has seen the success, or the server's monitor has -/
  | authenticated
deriving DecidableEq, Repr

/-- the counters of the read side after a packet; strict `NEWKEYS` resets the sequence number -/
def readCounters (s : State) (type : UInt8) (size : UInt32) : Counters where
  seqnr := if type = SSH2_MSG_NEWKEYS ∧ s.strict then 0 else s.pRead.seqnr + 1
  packets := s.pRead.packets + 1
  blocks := s.pRead.blocks + (size / s.blockIn.getD 8).toUInt64
  bytes := s.pRead.bytes + size.toUInt64

/-- the end of `ssh_packet_read_poll2`: the packet is counted and the limits are checked -/
def received (cfg : Config) (s : State) (type : UInt8) (size : UInt32) (now : ℕ) : State :=
  let s' := { s with pRead := readCounters s type size }
  if s.pRead.seqnr + 1 = 0 ∧ s.initial then disconnect cfg s'
  else if s.pRead.packets + 1 = 0 then s'.fail
  else if preauthExceeded s' then s'.fail
  else if needRekeying cfg s' now 0 then kexStartRekex cfg s'
  else s'

/-- `kex_choose_conf`, as far as the strict key exchange goes -/
def chooseStrict (cfg : Config) (s : State) (strict : Bool) (seq : UInt32) : State :=
  if s.initial then
    let s := { s with strict := strict }
    if strict ∧ seq ≠ 0 then disconnect cfg s else s
  else s

/-- `kex_input_kexinit` -/
def kexInputKexinit (cfg : Config) (s : State) (strict : Bool) (seq : UInt32) : State :=
  if s.initRecvd then disconnect cfg s
  else
    let s := kexSendKexinit cfg { s with initRecvd := true }
    if s.ended then s else chooseStrict cfg s strict seq

/-- `kex_input_newkeys` with `ssh_set_newkeys` for `MODE_IN` -/
def kexInputNewkeys (cfg : Config) (s : State) : State :=
  match s.pendingIn with
  | none => s.fail
  | some block =>
    { s with
      pRead := s.pRead.renew
      blockIn := some block
      pendingIn := none
      hardMaxBlocksIn := hardMaxBlocks block
      maxBlocksIn := maxBlocks cfg.rekeyLimit block
      done := true
      initial := false
      initSent := false
      initRecvd := false }

def step (cfg : Config) (s : State) (e : Event) : State :=
  if s.ended then s
  else
    match e with
    | .send m now => send2 cfg s m now
    | .startRekex => kexStartRekex cfg s
    | .received type size now => received cfg s type size now
    | .kexinitReceived strict seq => kexInputKexinit cfg s strict seq
    | .derived blockOut blockIn =>
      { s with pending := some ⟨s.nextKey, blockOut⟩, pendingIn := some blockIn, nextKey := s.nextKey + 1 }
    | .newkeysReceived => kexInputNewkeys cfg s
    | .authenticated => { s with afterAuthentication := true }

/-! ## What a packet can do -/

/-- a change of the send key by `NEWKEYS` -/
def rekeyed (cfg : Config) (s : State) (k : SendKey) : State :=
  { s with
    pSend := { s.pSend with seqnr := if s.strict then 0 else s.pSend.seqnr, packets := 0, blocks := 0 }
    key := some k
    pending := none
    hardMaxBlocksOut := hardMaxBlocks k.block
    maxBlocksOut := maxBlocks cfg.rekeyLimit k.block }

section
variable (cfg : Config)
include cfg

/-- a counted packet ends the session, changes the key, or leaves everything but the authentication -/
theorem afterPacket_cases (s : State) (type : UInt8) :
    (type = SSH2_MSG_NEWKEYS ∧ s.pending = none ∧ ∃ p, afterPacket cfg s type = { s with pSend := p, ended := true }) ∨
    (type = SSH2_MSG_NEWKEYS ∧ ∃ k, s.pending = some k ∧ afterPacket cfg s type = rekeyed cfg s k) ∨
    (type ≠ SSH2_MSG_NEWKEYS ∧ ∃ b, afterPacket cfg s type = { s with afterAuthentication := b }) := by
  unfold afterPacket
  by_cases hn : type = SSH2_MSG_NEWKEYS
  · rw [if_pos hn, setNewkeysOut]
    cases hp : s.pending with
    | none => exact .inl ⟨hn, rfl, (resetSeqnr s).pSend.renew, by rw [show (resetSeqnr s).pending = none from hp]; rfl⟩
    | some k =>
      exact .inr (.inl ⟨hn, k, rfl, by rw [show (resetSeqnr s).pending = some k from hp]; rfl⟩)
  · rw [if_neg hn]
    split
    · exact .inr (.inr ⟨hn, true, rfl⟩)
    · exact .inr (.inr ⟨hn, s.afterAuthentication, rfl⟩)

/-- a packet is sealed; then the session is disconnected by a wrap, ended by the count, or goes on -/
theorem send2Wrapped_cases (s : State) (m : Msg) :
    (s.pSend.seqnr + 1 = 0 ∧ s.initial = true ∧ send2Wrapped cfg s m = disconnect cfg (sealPacket s m)) ∨
    (¬(s.pSend.seqnr + 1 = 0 ∧ s.initial = true) ∧ s.pSend.packets + 1 = 0 ∧
      ∃ p, send2Wrapped cfg s m = { sealPacket s m with pSend := p, ended := true }) ∨
    (¬(s.pSend.seqnr + 1 = 0 ∧ s.initial = true) ∧ s.pSend.packets + 1 ≠ 0 ∧
      send2Wrapped cfg s m = afterPacket cfg (countPacket (sealPacket s m) m.size) m.type) := by
  by_cases h1 : s.pSend.seqnr + 1 = 0 ∧ s.initial = true
  · exact .inl ⟨h1.1, h1.2, if_pos h1⟩
  · right
    by_cases h2 : s.pSend.packets + 1 = 0
    · exact .inl ⟨h1, h2, _, (if_neg h1).trans (if_pos h2)⟩
    · exact .inr ⟨h1, h2, (if_neg h1).trans (if_neg h2)⟩

/-- a packet that is read changes the counters of the read side, and may end the session or start a rekey -/
theorem received_cases (s : State) (type : UInt8) (size : UInt32) (now : ℕ) :
    ∃ p, received cfg s type size now = disconnect cfg { s with pRead := p } ∨
      received cfg s type size now = State.fail { s with pRead := p } ∨
      received cfg s type size now = kexStartRekex cfg { s with pRead := p } ∨
      received cfg s type size now = { s with pRead := p } := by
  refine ⟨readCounters s type size, ?_⟩
  unfold received
  dsimp only
  split_ifs
  · exact .inl rfl
  · exact .inr (.inl rfl)
  · exact .inr (.inl rfl)
  · exact .inr (.inr (.inl rfl))
  · exact .inr (.inr (.inr rfl))

/-- a `KEXINIT` of the peer is answered, unless it is the second or comes too late -/
theorem kexInputKexinit_cases (s : State) (strict : Bool) (seq : UInt32) :
    kexInputKexinit cfg s strict seq = disconnect cfg s ∨
    ((kexSendKexinit cfg { s with initRecvd := true }).ended = true ∧
      kexInputKexinit cfg s strict seq = kexSendKexinit cfg { s with initRecvd := true }) ∨
    ((kexSendKexinit cfg { s with initRecvd := true }).ended = false ∧ ∃ b,
      (kexInputKexinit cfg s strict seq = disconnect cfg { kexSendKexinit cfg { s with initRecvd := true } with strict := b } ∨
        kexInputKexinit cfg s strict seq = { kexSendKexinit cfg { s with initRecvd := true } with strict := b })) := by
  unfold kexInputKexinit chooseStrict
  split
  · exact .inl rfl
  right
  dsimp only
  split
  · next he => exact .inl ⟨he, rfl⟩
  next he =>
  refine .inr ⟨by simpa using he, ?_⟩
  split
  · refine ⟨strict, ?_⟩
    split
    · exact .inl rfl
    · exact .inr rfl
  · exact ⟨_, .inr rfl⟩

end

/-- the fields a packet does not change -/
structure SameQueue (s s' : State) : Prop where
  outgoing : s'.outgoing = s.outgoing
  rekeying : s'.rekeying = s.rekeying
  done : s'.done = s.done
  initSent : s'.initSent = s.initSent
  initial : s'.initial = s.initial

/-- a packet that ends no session is the last on the wire, and the queue is as before -/
theorem send2Wrapped_frame {cfg : Config} {s : State} {m : Msg} (h : (send2Wrapped cfg s m).ended = false) :
    (send2Wrapped cfg s m).wire = s.wire ++ [m] ∧ SameQueue s (send2Wrapped cfg s m) := by
  obtain ⟨-, -, hw⟩ | ⟨-, -, p, hw⟩ | ⟨-, -, hw⟩ := send2Wrapped_cases cfg s m
  · rw [hw] at h
    cases h
  · rw [hw] at h
    cases h
  rw [hw] at h ⊢
  obtain ⟨-, -, p, ha⟩ | ⟨-, k, -, ha⟩ | ⟨-, b, ha⟩ := afterPacket_cases cfg (countPacket (sealPacket s m) m.size) m.type
  · rw [ha] at h
    cases h
  · rw [ha]
    exact ⟨rfl, rfl, rfl, rfl, rfl, rfl⟩
  · rw [ha]
    exact ⟨rfl, rfl, rfl, rfl, rfl, rfl⟩

end OpenSSHServerPN.PacketSend
