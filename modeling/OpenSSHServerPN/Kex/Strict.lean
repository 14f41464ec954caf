/-
The first key exchange of a connection, from the packets a side is given (`dispatch.c`, `kex.c`, `kexgen.c`, `kexgexs.c`,
`kexgexc.c`, `ssh_packet_read_poll_seqnr` in `packet.c`).

Model: the packet layer is `PacketSend`; over it stand the dispatch table, the packets to be skipped, and the handlers of
the key exchange. A packet is a type and a body, chosen by whoever controls the network. The environment fixes the side's
role, its proposal, the algorithms of the build and, for each handler, whether it succeeds on a packet after the packets
before it; a handler that fails ends the connection. The loop of `ssh_dispatch_run` stops when `kex->done` is set, and so
does the model.

Ledgers: `accepted`, the packets that the side has consumed without ending the connection, by a handler or otherwise; and
`sentNewkeys`, the sequence number of the send side right after each `NEWKEYS`.

In a strict exchange every packet goes to the dispatch table, and the table has one entry besides `kex_protocol_error`: the
message that comes next. A proposal that announces a wrong guess is the exception. The packet after it is skipped whatever
its type is, with the check for the strict exchange not made.

What is claimed of a state is `PrefixSafe`.
-/
import OpenSSHServerPN.Kex.Choose
import OpenSSHServerPN.Packet.Send

namespace OpenSSHServerPN.StrictKex

open Runs Wire Packet Kex
open PacketSend (typeIsKex SSH2_MSG_DISCONNECT SSH2_MSG_IGNORE SSH2_MSG_EXT_INFO SSH2_MSG_KEXINIT SSH2_MSG_NEWKEYS
  SSH2_MSG_TRANSPORT_MIN SSH2_MSG_TRANSPORT_MAX)

/-! ## The proposal in a packet -/

def SSH2_MSG_UNIMPLEMENTED : UInt8 := 3
def SSH2_MSG_DEBUG : UInt8 := 4
def SSH2_MSG_KEX_ECDH_INIT : UInt8 := 30
def SSH2_MSG_KEX_ECDH_REPLY : UInt8 := 31
def SSH2_MSG_KEX_DH_GEX_GROUP : UInt8 := 31
def SSH2_MSG_KEX_DH_GEX_INIT : UInt8 := 32
def SSH2_MSG_KEX_DH_GEX_REPLY : UInt8 := 33
def SSH2_MSG_KEX_DH_GEX_REQUEST : UInt8 := 34
def SSH2_MSG_PING : UInt8 := 192
def SSH2_MSG_PONG : UInt8 := 193

def KEX_COOKIE_LEN : ℕ := 16

def getText : Get Text := (fun bs => bs.map fun b => Char.ofNat b.toNat) <$> getCstring

/-- the body of `KEXINIT`: the cookie, ten lists (the last two are the languages), the guess and a reserved number -/
def kexBuf2prop : Get Proposal := do
  let _ ← getBytes KEX_COOKIE_LEN
  let kexAlgs ← getText
  let serverHostKeyAlgs ← getText
  let encAlgsCtos ← getText
  let encAlgsStoc ← getText
  let macAlgsCtos ← getText
  let macAlgsStoc ← getText
  let compAlgsCtos ← getText
  let compAlgsStoc ← getText
  let _ ← getText
  let _ ← getText
  let firstKexFollows ← getU8
  let _ ← getU32
  pure
    { prop := fun
        | .kexAlgs => kexAlgs
        | .serverHostKeyAlgs => serverHostKeyAlgs
        | .encAlgsCtos => encAlgsCtos
        | .encAlgsStoc => encAlgsStoc
        | .macAlgsCtos => macAlgsCtos
        | .macAlgsStoc => macAlgsStoc
        | .compAlgsCtos => compAlgsCtos
        | .compAlgsStoc => compAlgsStoc
      firstKexFollows := firstKexFollows ≠ 0 }

/-- `kex_strict`, from the peer's proposal -/
def peerStrict (server : Bool) (peer : Proposal) : Bool := (recordPeer server true .empty peer).strict

/-! ## State -/

/-- a packet as it is delivered -/
structure Delivered where
  type : UInt8
  /-- the payload after the type -/
  body : Bytes
  /-- the length of the packet on the wire -/
  size : UInt32
  now : ℕ
deriving DecidableEq, Repr

/-- the functions that stand in the dispatch table -/
inductive Handler where
  | kexProtocolError
  | kexInputKexinit
  | kexInputNewkeys
  | kexInputExtInfo
  | inputKexGenInit
  | inputKexGenReply
  | inputKexDhGexRequest
  | inputKexDhGexInit
  | inputKexDhGexGroup
  | inputKexDhGexReply
deriving DecidableEq, Repr

/-- the methods that share their messages: the group is fixed, or the server is asked for one -/
inductive Family where
  | gen
  | gex
deriving DecidableEq, Repr

/-- the function registered for `kex_type`: the types from 1 up to `KEX_MAX`, with 6 and 7 the group exchange -/
def family (kexType : ℕ) : Option Family :=
  if kexType = 0 ∨ 13 ≤ kexType then none
  else if kexType = 6 ∨ kexType = 7 then some .gex
  else some .gen

structure Env where
  cfg : PacketSend.Config
  tables : Tables
  my : Proposal
  /-- whether the handler of a packet succeeds, after the packets accepted before it -/
  succeeds : List Delivered → Delivered → Bool
  /-- the length of a message that is sent -/
  len : UInt8 → UInt32

def Env.server (env : Env) : Bool := env.cfg.serverSide

structure State where
  net : PacketSend.State
  dispatch : UInt8 → Option Handler
  dispatchSkipPackets : ℕ
  chosen : Option Chosen
  accepted : List Delivered
  sentNewkeys : List UInt32

def State.fail (s : State) : State := { s with net := s.net.fail }

def State.disconnect (env : Env) (s : State) : State := { s with net := PacketSend.disconnect env.cfg s.net }

/-- what follows an action that may have ended the connection -/
def State.next (s : State) (f : State → State) : State := if s.net.ended then s else f s

/-- `ssh_dispatch_set` -/
def State.dispatchSet (s : State) (type : UInt8) (h : Handler) : State :=
  { s with dispatch := Function.update s.dispatch type (some h) }

/-- `kex_reset_dispatch` -/
def resetDispatch (d : UInt8 → Option Handler) (type : UInt8) : Option Handler :=
  if SSH2_MSG_TRANSPORT_MIN ≤ type ∧ type ≤ SSH2_MSG_TRANSPORT_MAX then some .kexProtocolError else d type

/-- the table in which no message is expected -/
def base : UInt8 → Option Handler := resetDispatch fun _ => none

/-- a connection after `kex_setup` -/
def start (env : Env) : State where
  net := PacketSend.kexSendKexinit env.cfg PacketSend.start
  dispatch := Function.update base SSH2_MSG_KEXINIT (some .kexInputKexinit)
  dispatchSkipPackets := 0
  chosen := none
  accepted := []
  sentNewkeys := []

/-! ## Handlers -/

def send (env : Env) (s : State) (type : UInt8) (now : ℕ) : State :=
  { s with net := PacketSend.send2 env.cfg s.net ⟨type, env.len type, env.len type⟩ now }

/-- `kex_protocol_error` -/
def kexProtocolError (env : Env) (s : State) (p : Delivered) : State :=
  if s.net.initial && s.net.strict then s.disconnect env else send env s SSH2_MSG_UNIMPLEMENTED p.now

/-- `kex_maybe_send_ext_info` -/
def kexMaybeSendExtInfo (env : Env) (s : State) (now : ℕ) : State :=
  if s.net.initial && (s.chosen.map (·.recorded.extInfo)).getD false then send env s SSH2_MSG_EXT_INFO now else s

/-- `kex_send_newkeys` -/
def kexSendNewkeys (env : Env) (s : State) (now : ℕ) : State :=
  (send env { s with dispatch := resetDispatch s.dispatch } SSH2_MSG_NEWKEYS now).next fun s =>
    let s := { s with sentNewkeys := s.sentNewkeys ++ [s.net.pSend.seqnr] }
    kexMaybeSendExtInfo env (s.dispatchSet SSH2_MSG_NEWKEYS .kexInputNewkeys) now

/-- `kex_derive_keys`, with the block sizes of the chosen ciphers -/
def kexDeriveKeys (s : State) : State :=
  let blockOut := (s.chosen.map (·.modeOut.enc.2.blockSize)).getD 0
  let blockIn := (s.chosen.map (·.modeIn.enc.2.blockSize)).getD 0
  { s with net :=
    { s.net with
      pending := some ⟨s.net.nextKey, UInt32.ofNat blockOut⟩
      pendingIn := some (UInt32.ofNat blockIn)
      nextKey := s.net.nextKey + 1 } }

/-- the handler of a message of the method: the message is not expected again, its contents are checked, a reply may be
sent, and `finish` is what comes then -/
def inputMethod (env : Env) (s : State) (p : Delivered) (type : UInt8) (reply : Option UInt8) (finish : State → State) :
    State :=
  let s := s.dispatchSet type .kexProtocolError
  if env.succeeds s.accepted p then
    match reply with
    | none => finish s
    | some r => (send env s r p.now).next finish
  else s.fail

/-- the end of the last handler of a method -/
def deriveAndSendNewkeys (env : Env) (now : ℕ) (s : State) : State := kexSendNewkeys env (kexDeriveKeys s) now

def inputKexGenInit (env : Env) (s : State) (p : Delivered) : State :=
  inputMethod env s p SSH2_MSG_KEX_ECDH_INIT (some SSH2_MSG_KEX_ECDH_REPLY) (deriveAndSendNewkeys env p.now)

def inputKexGenReply (env : Env) (s : State) (p : Delivered) : State :=
  inputMethod env s p SSH2_MSG_KEX_ECDH_REPLY none (deriveAndSendNewkeys env p.now)

def inputKexDhGexRequest (env : Env) (s : State) (p : Delivered) : State :=
  inputMethod env s p SSH2_MSG_KEX_DH_GEX_REQUEST (some SSH2_MSG_KEX_DH_GEX_GROUP)
    (·.dispatchSet SSH2_MSG_KEX_DH_GEX_INIT .inputKexDhGexInit)

def inputKexDhGexInit (env : Env) (s : State) (p : Delivered) : State :=
  inputMethod env s p SSH2_MSG_KEX_DH_GEX_INIT (some SSH2_MSG_KEX_DH_GEX_REPLY) (deriveAndSendNewkeys env p.now)

def inputKexDhGexGroup (env : Env) (s : State) (p : Delivered) : State :=
  inputMethod env s p SSH2_MSG_KEX_DH_GEX_GROUP (some SSH2_MSG_KEX_DH_GEX_INIT)
    (·.dispatchSet SSH2_MSG_KEX_DH_GEX_REPLY .inputKexDhGexReply)

def inputKexDhGexReply (env : Env) (s : State) (p : Delivered) : State :=
  inputMethod env s p SSH2_MSG_KEX_DH_GEX_REPLY none (deriveAndSendNewkeys env p.now)

/-- `kex->kex[kex_type]`: `kex_gen_server`, `kex_gen_client`, `kexgex_server` or `kexgex_client` -/
def startMethod (env : Env) (s : State) (kexType : ℕ) (now : ℕ) : State :=
  match family kexType, env.server with
  | none, _ => s.fail
  | some .gen, true => s.dispatchSet SSH2_MSG_KEX_ECDH_INIT .inputKexGenInit
  | some .gen, false =>
    (send env s SSH2_MSG_KEX_ECDH_INIT now).next (·.dispatchSet SSH2_MSG_KEX_ECDH_REPLY .inputKexGenReply)
  | some .gex, true => s.dispatchSet SSH2_MSG_KEX_DH_GEX_REQUEST .inputKexDhGexRequest
  | some .gex, false =>
    (send env s SSH2_MSG_KEX_DH_GEX_REQUEST now).next (·.dispatchSet SSH2_MSG_KEX_DH_GEX_GROUP .inputKexDhGexGroup)

/-- the end of `kex_input_kexinit`, once the algorithms are chosen -/
def withChoice (env : Env) (s : State) (p : Delivered) (c : Chosen) : State :=
  let s := { s with chosen := some c, dispatchSkipPackets := if c.skipPacket then 1 else s.dispatchSkipPackets }
  if env.succeeds s.accepted p then startMethod env s c.kex.2.type p.now else s.fail

/-- `kex_input_kexinit`, for the packet `seq` -/
def kexInputKexinit (env : Env) (s : State) (p : Delivered) (seq : UInt32) : State :=
  if s.net.initRecvd then s.disconnect env
  else
    match whole kexBuf2prop p.body with
    | none => s.fail
    | some peer =>
      let s := s.dispatchSet SSH2_MSG_KEXINIT .kexProtocolError
      let s := { s with net := PacketSend.kexInputKexinit env.cfg s.net (peerStrict env.server peer) seq }
      s.next fun s =>
        match chooseConf env.tables env.server true seq.toNat .empty env.my peer with
        | .error _ => s.fail
        | .ok c => withChoice env s p c

/-- `kex_input_newkeys` -/
def kexInputNewkeys (env : Env) (s : State) (p : Delivered) : State :=
  let s := if env.server && (s.chosen.map (·.recorded.extInfo)).getD false && s.net.initial then
    s.dispatchSet SSH2_MSG_EXT_INFO .kexInputExtInfo else s
  let s := (s.dispatchSet SSH2_MSG_NEWKEYS .kexProtocolError).dispatchSet SSH2_MSG_KEXINIT .kexInputKexinit
  if p.body = [] then { s with net := PacketSend.kexInputNewkeys env.cfg s.net } else s.fail

/-- `kex_input_ext_info`: once -/
def kexInputExtInfo (env : Env) (s : State) (p : Delivered) : State :=
  let s := s.dispatchSet SSH2_MSG_EXT_INFO .kexProtocolError
  if env.succeeds s.accepted p then s else s.fail

def invoke (env : Env) (s : State) (p : Delivered) (seq : UInt32) : Handler → State
  | .kexProtocolError => kexProtocolError env s p
  | .kexInputKexinit => kexInputKexinit env s p seq
  | .kexInputNewkeys => kexInputNewkeys env s p
  | .kexInputExtInfo => kexInputExtInfo env s p
  | .inputKexGenInit => inputKexGenInit env s p
  | .inputKexGenReply => inputKexGenReply env s p
  | .inputKexDhGexRequest => inputKexDhGexRequest env s p
  | .inputKexDhGexInit => inputKexDhGexInit env s p
  | .inputKexDhGexGroup => inputKexDhGexGroup env s p
  | .inputKexDhGexReply => inputKexDhGexReply env s p

/-! ## The loop -/

def DISPATCH_MAX : UInt8 := 255

/-- the body of the loop of `ssh_dispatch_run` -/
def dispatchPacket (env : Env) (s : State) (p : Delivered) (seq : UInt32) : State :=
  if p.type < DISPATCH_MAX then
    match s.dispatch p.type with
    | none => s.disconnect env
    | some h =>
      if s.dispatchSkipPackets ≠ 0 then { s with dispatchSkipPackets := s.dispatchSkipPackets - 1 }
      else invoke env s p seq h
  else s.disconnect env

/-- a part of the body is read; what follows it is not looked at -/
def State.reads {α : Type} (s : State) (g : Get α) (body : Bytes) : State := if (g body).isSome then s else s.fail

/-- `ssh_packet_read_poll_seqnr` after a packet has been read -/
def readPollSeqnr (env : Env) (s : State) (p : Delivered) (seq : UInt32) : State :=
  if p.type = SSH2_MSG_DISCONNECT then s.fail
  else if s.net.initial && s.net.strict then dispatchPacket env s p seq
  else if p.type = SSH2_MSG_IGNORE then s
  else if p.type = SSH2_MSG_DEBUG then
    s.reads (do
      let _ ← getU8
      let _ ← getStr
      getStr) p.body
  else if p.type = SSH2_MSG_UNIMPLEMENTED then s.reads getU32 p.body
  else if p.type = SSH2_MSG_PING then
    (s.reads getStr p.body).next fun s =>
      if s.net.afterAuthentication && !s.net.isRekeying then send env s SSH2_MSG_PONG p.now else s
  else if p.type = SSH2_MSG_PONG then s.reads getStr p.body
  else if s.net.initRecvd && !typeIsKex p.type then s.fail
  else dispatchPacket env s p seq

/-- a packet is counted by `ssh_packet_read_poll2`, which refuses the type 0, and handled -/
def handle (env : Env) (s : State) (p : Delivered) : State :=
  State.next { s with net := PacketSend.received env.cfg s.net p.type p.size p.now } fun s' =>
    if p.type = 0 then s'.disconnect env else readPollSeqnr env s' p s.net.pRead.seqnr

/-- a packet is accepted if the connection has not ended with it -/
def accept (p : Delivered) (s : State) : State := s.next fun s => { s with accepted := s.accepted ++ [p] }

def step (env : Env) (s : State) (p : Delivered) : State :=
  if s.net.ended || s.net.done then s else accept p (handle env s p)

/-! ## What is claimed -/

/-- the messages of a method that a side waits for -/
def messages (server : Bool) : Family → List UInt8
  | .gen => if server then [SSH2_MSG_KEX_ECDH_INIT] else [SSH2_MSG_KEX_ECDH_REPLY]
  | .gex =>
    if server then [SSH2_MSG_KEX_DH_GEX_REQUEST, SSH2_MSG_KEX_DH_GEX_INIT]
    else [SSH2_MSG_KEX_DH_GEX_GROUP, SSH2_MSG_KEX_DH_GEX_REPLY]

/-- the packets of the peer in a strict exchange -/
def expected (server : Bool) (f : Family) : List UInt8 := SSH2_MSG_KEXINIT :: (messages server f ++ [SSH2_MSG_NEWKEYS])

def State.types (s : State) : List UInt8 := s.accepted.map (·.type)

/-- **Prefix safety**: in a strict exchange the connection has ended, or the packets accepted are the expected ones up to
now, all of them once `NEWKEYS` is processed, with the sequence numbers 0 right after `NEWKEYS` in either direction -/
def PrefixSafe (env : Env) (s : State) : Prop :=
  s.net.ended = false → s.net.strict = true →
    ∃ c f, s.chosen = some c ∧ family c.kex.2.type = some f ∧ s.types <+: expected env.server f ∧
      (∀ n ∈ s.sentNewkeys, n = 0) ∧
      (s.net.done = true → s.types = expected env.server f ∧ s.net.pRead.seqnr = 0 ∧ s.sentNewkeys = [0])

/-- the packet is not a proposal with a wrong guess -/
def rightGuess (env : Env) (p : Delivered) : Bool :=
  p.type != SSH2_MSG_KEXINIT ||
    match whole kexBuf2prop p.body with
    | none => true
    | some peer => !(peer.firstKexFollows && !proposalsMatch env.my peer)

end OpenSSHServerPN.StrictKex
