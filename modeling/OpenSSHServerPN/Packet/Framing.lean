/-
Framing of packets, from the payload to the bytes on the wire and back (`ssh_packet_send2_wrapped`,
`ssh_packet_read_poll2`, `ssh_packet_process_incoming`, `ssh_set_newkeys` in `packet.c`).

Model: one direction of a connection. The ciphers, the codes of authentication and the compression are those of
`Lib/Sealing`; a cipher is stateful and, unless it authenticates, does not look at the sequence number. No keys are in use
at the start; after that there are a cipher with a code over the plain text, a cipher with a code over the encrypted text
(EtM), or an authenticated cipher. The keys of the exchanges to come are a list, the same on both sides, and each `NEWKEYS`
takes one. `kex_strict` is fixed. The answer of `ssh_packet_check_rekey`, which depends on the other direction as well, is
left to the environment.

The receiver is given chunks of the stream. After each one it polls until no packet is ready, and the handler of `NEWKEYS`
installs the next keys before the next poll. Between two polls a packet may be read in part: its length is known, and
without EtM its first block has left the input.

Ledgers: `sent` and `got`, the payloads with the sequence number they are sealed and read with; `lengths`, the values of
the length fields.
-/
import OpenSSHServerPN.Lib.Sealing
import OpenSSHServerPN.Packet.Send

namespace OpenSSHServerPN.PacketFraming

open Wire Sealing Packet
open PacketSend (SSH2_MSG_NEWKEYS SSH2_MSG_USERAUTH_SUCCESS)

variable {σ κ : Type}

/-! ## Keys -/

/-- what the packets are protected with -/
inductive Suite (σ : Type) (block : ℕ) where
  | mac (cipher : BlockMode σ block) (mac : Mac) (etm : Bool)
  | aead (cipher : Aead σ)

/-- the keys of one exchange, for one direction -/
structure Keys (σ : Type) where
  block : ℕ
  /-- the block sizes of the table of ciphers -/
  block_ok : block = 8 ∨ block = 16
  suite : Suite σ block
  context : σ
  /-- the compression is `COMP_DELAYED`, otherwise there is none -/
  delayed : Bool

/-- keys in use, with the state of the cipher and of a compression that is enabled -/
structure Active (σ κ : Type) where
  keys : Keys σ
  context : σ
  comp : Option κ

def blockSize : Option (Active σ κ) → ℕ
  | none => 8
  | some a => a.keys.block

/-- the length of the part that is authenticated but not encrypted with the rest -/
def aadlen : Option (Active σ κ) → ℕ
  | none => 0
  | some a =>
    match a.keys.suite with
    | .mac _ _ etm => if etm then 4 else 0
    | .aead _ => 4

/-- the length of what follows the encrypted part, `authlen + maclen` -/
def taglen : Option (Active σ κ) → ℕ
  | none => 0
  | some a =>
    match a.keys.suite with
    | .mac _ m _ => m.len
    | .aead c => c.tagLen

/-! ## One direction -/

structure Direction (σ κ : Type) where
  active : Option (Active σ κ)
  /-- the keys of the exchanges to come -/
  supply : List (Keys σ)
  counters : Counters
  /-- `kex->kex_strict` -/
  strict : Bool
  afterAuthentication : Bool

/-- a packet of `len` bytes is counted -/
def Direction.count (d : Direction σ κ) (len : ℕ) : Direction σ κ :=
  { d with counters :=
    { seqnr := d.counters.seqnr + 1
      packets := d.counters.packets + 1
      blocks := d.counters.blocks + UInt64.ofNat (len / blockSize d.active)
      bytes := d.counters.bytes + UInt64.ofNat len } }

/-- strict `NEWKEYS` resets the sequence number -/
def Direction.resetSeqnr (d : Direction σ κ) (type : UInt8) : Direction σ κ :=
  if type = SSH2_MSG_NEWKEYS ∧ d.strict then { d with counters := { d.counters with seqnr := 0 } } else d

/-- `ssh_set_newkeys` -/
def Direction.setNewkeys (codec : Codec κ) (d : Direction σ κ) : Option (Direction σ κ) :=
  match d.supply with
  | [] => none
  | k :: rest =>
    some { d with
      active := some ⟨k, k.context, if k.delayed && d.afterAuthentication then some codec.start else none⟩
      supply := rest
      counters := d.counters.renew }

/-- `ssh_packet_enable_delayed_compress` -/
def Direction.enableDelayedCompress (codec : Codec κ) (d : Direction σ κ) : Direction σ κ :=
  { d with
    afterAuthentication := true
    active := d.active.map fun a =>
      if a.comp.isNone && a.keys.delayed then { a with comp := some codec.start } else a }

/-! ## Sending -/

structure Message where
  type : UInt8
  body : Bytes
  /-- `state->extra_pad` -/
  extraPad : UInt8
  /-- the random bytes for the padding -/
  fill : ℕ → UInt8

def Message.payload (m : Message) : Bytes := m.type :: m.body

structure Sender (σ κ : Type) where
  dir : Direction σ κ
  /-- `KEX_INITIAL` -/
  initial : Bool
  server : Bool
  output : Bytes
  sent : List (Bytes × UInt32)
  lengths : List ℕ

inductive SendError where
  | invalidArgument
  /-- the sequence number wrapped during the first key exchange -/
  | wrapped
  | needRekey
  | internalError
deriving DecidableEq, Repr

def compress (codec : Codec κ) : Option (Active σ κ) → Bytes → Option (Active σ κ) × Bytes
  | none, p => (none, p)
  | some a, p =>
    match a.comp with
    | none => (some a, p)
    | some k => (some { a with comp := some (codec.pack k p).1 }, (codec.pack k p).2)

def roundup (x y : ℕ) : ℕ := (x + (y - 1)) / y * y

/-- the length of the padding behind `len` bytes that are encrypted; the variables of the source are bytes -/
def paddingLength (block len extraPad : ℕ) : Option ℕ :=
  let padlen := block - len % block
  let padlen := if padlen < 4 then padlen + block else padlen
  if extraPad = 0 then some padlen
  else
    let extra := roundup extraPad block % 256
    if extra < extraPad then none
    else
      let tmp := (len + padlen) % extra
      if extra < tmp then none
      else
        let total := (padlen + (extra - tmp)) % 256
        if total < padlen then none else some total

/-- the packet before it is encrypted: length, length of the padding, payload, padding -/
def packetBytes (payload : Bytes) (padlen : ℕ) (padding : ℕ → UInt8) : Bytes :=
  be 4 (1 + payload.length + padlen) ++ (UInt8.ofNat padlen :: (payload ++ (List.range padlen).map padding))

/-- encryption and authentication of a packet -/
def sealPacket : Option (Active σ κ) → UInt32 → Bytes → Option (Active σ κ) × Bytes
  | none, _, packet => (none, packet)
  | some a, seq, packet =>
    match a.keys.suite with
    | .mac cipher mac false =>
      let e := cipher.enc a.context packet
      (some { a with context := e.1 }, e.2 ++ mac.tag seq packet)
    | .mac cipher mac true =>
      let e := cipher.enc a.context (packet.drop 4)
      (some { a with context := e.1 }, (packet.take 4 ++ e.2) ++ mac.tag seq (packet.take 4 ++ e.2))
    | .aead cipher =>
      let e := cipher.enc a.context seq (packet.take 4) (packet.drop 4)
      (some { a with context := e.1 }, cipher.header a.context seq (packet.take 4) ++ (e.2.1 ++ e.2.2))

/-- what follows a packet that has been counted -/
def afterPacket (codec : Codec κ) (server : Bool) (d : Direction σ κ) (type : UInt8) : Option (Direction σ κ) :=
  if type = SSH2_MSG_NEWKEYS then (d.resetSeqnr type).setNewkeys codec
  else if type = SSH2_MSG_USERAUTH_SUCCESS ∧ server then some (d.enableDelayedCompress codec)
  else some d

/-- the end of `ssh_packet_send2_wrapped`, once the packet of `len` bytes is in the output -/
def countSent (codec : Codec κ) (s : Sender σ κ) (type : UInt8) (len : ℕ) : Except SendError (Sender σ κ) :=
  if s.dir.counters.seqnr + 1 = 0 ∧ s.initial then .error .wrapped
  else if s.dir.counters.packets + 1 = 0 then .error .needRekey
  else
    match afterPacket codec s.server (s.dir.count len) type with
    | none => .error .internalError
    | some d => .ok { s with dir := d }

/-- `ssh_packet_send2_wrapped` -/
def send2Wrapped (codec : Codec κ) (s : Sender σ κ) (m : Message) : Except SendError (Sender σ κ) :=
  let c := compress codec s.dir.active m.payload
  match paddingLength (blockSize c.1) (5 + c.2.length - aadlen c.1) m.extraPad.toNat with
  | none => .error .invalidArgument
  | some padlen =>
    let packet := packetBytes c.2 padlen fun i => if c.1.isSome then m.fill i else 0
    let e := sealPacket c.1 s.dir.counters.seqnr packet
    countSent codec
      { s with
        dir := { s.dir with active := e.1 }
        output := s.output ++ e.2
        sent := s.sent ++ [(m.payload, s.dir.counters.seqnr)]
        lengths := s.lengths ++ [packet.length - 4] } m.type packet.length

inductive Action where
  | send (m : Message)
  /-- `KEX_INITIAL` is cleared, by the handler of the peer's `NEWKEYS` -/
  | settled

/-- messages are sent one after another, until one cannot be sent -/
def sendAll (codec : Codec κ) (s : Sender σ κ) : List Action → Except SendError (Sender σ κ)
  | [] => .ok s
  | .settled :: rest => sendAll codec { s with initial := false } rest
  | .send m :: rest =>
    match send2Wrapped codec s m with
    | .error e => .error e
    | .ok s => sendAll codec s rest

/-! ## Receiving -/

def PACKET_MAX_SIZE : ℕ := 256 * 1024

structure Receiver (σ κ : Type) where
  dir : Direction σ κ
  initial : Bool
  server : Bool
  input : Bytes
  /-- 0 if no packet has been begun -/
  packlen : ℕ
  incoming : Bytes
  got : List (Bytes × UInt32)

inductive PollError where
  | badLength
  | badPadding
  | macInvalid
  | wrapped
  | needRekey
  | badPadlen
  | invalidFormat
  | badType
  | checkRekey
  | internalError
deriving DecidableEq, Repr

structure Env (κ : Type) where
  codec : Codec κ
  /-- whether `ssh_packet_check_rekey` succeeds, after the packets read so far -/
  checkRekey : List (Bytes × UInt32) → Bool

/-- the bytes that are needed for the length of a packet -/
def headerLen (active : Option (Active σ κ)) : ℕ := if aadlen active = 0 then blockSize active else 4

/-- what the first bytes of a packet give -/
structure HeaderRead (σ κ : Type) where
  active : Option (Active σ κ)
  /-- the bytes that leave the input -/
  consumed : ℕ
  incoming : Bytes
  packlen : ℕ

/-- without EtM the first block is decrypted, otherwise `cipher_get_length` reads the length alone -/
def readHeader (active : Option (Active σ κ)) (seq : UInt32) (bytes : Bytes) : HeaderRead σ κ :=
  match active with
  | none => ⟨none, bytes.length, bytes, ofBe (bytes.take 4)⟩
  | some a =>
    match a.keys.suite with
    | .mac cipher _ false =>
      let e := cipher.dec a.context bytes
      ⟨some { a with context := e.1 }, bytes.length, e.2, ofBe (e.2.take 4)⟩
    | .mac _ _ true => ⟨some a, 0, [], ofBe bytes⟩
    | .aead cipher => ⟨some a, 0, [], ofBe (cipher.unheader a.context seq bytes)⟩

/-- the first part of `ssh_packet_read_poll2`: `none` if the length cannot be read yet -/
def beginPacket (r : Receiver σ κ) : Except PollError (Option (Receiver σ κ)) :=
  if r.packlen ≠ 0 then .ok (some r)
  else if r.input.length < headerLen r.dir.active then .ok none
  else
    let h := readHeader r.dir.active r.dir.counters.seqnr (r.input.take (headerLen r.dir.active))
    if h.packlen < 5 ∨ PACKET_MAX_SIZE < h.packlen then .error .badLength
    else
      .ok (some { r with
        dir := { r.dir with active := h.active }
        input := r.input.drop h.consumed
        incoming := h.incoming
        packlen := h.packlen })

/-- the number of encrypted bytes still to come, an unsigned number of 32 bits -/
def need (r : Receiver σ κ) : ℕ :=
  if aadlen r.dir.active = 0 then (2 ^ 32 + 4 + r.packlen - blockSize r.dir.active) % 2 ^ 32 else r.packlen

/-- authentication and decryption of the rest of a packet, `need` encrypted bytes with what stands around them -/
def openRest (active : Option (Active σ κ)) (seq : UInt32) (incoming : Bytes) (need : ℕ) (bytes : Bytes) :
    Option (Option (Active σ κ) × Bytes) :=
  match active with
  | none => some (none, incoming ++ bytes)
  | some a =>
    match a.keys.suite with
    | .mac cipher mac false =>
      let e := cipher.dec a.context (bytes.take need)
      if mac.tag seq (incoming ++ e.2) = bytes.drop need then some (some { a with context := e.1 }, incoming ++ e.2)
      else none
    | .mac cipher mac true =>
      if mac.tag seq (bytes.take (4 + need)) = bytes.drop (4 + need) then
        let e := cipher.dec a.context ((bytes.take (4 + need)).drop 4)
        some (some { a with context := e.1 }, incoming ++ (bytes.take 4 ++ e.2))
      else none
    | .aead cipher =>
      (cipher.dec a.context seq (bytes.take 4) ((bytes.drop 4).take need) (bytes.drop (4 + need))).map fun e =>
        (some { a with context := e.1 }, incoming ++ (cipher.unheader a.context seq (bytes.take 4) ++ e.2))

def uncompress (codec : Codec κ) : Option (Active σ κ) → Bytes → Option (Option (Active σ κ) × Bytes)
  | none, p => some (none, p)
  | some a, p =>
    match a.comp with
    | none => some (some a, p)
    | some k => (codec.unpack k p).map fun u => (some { a with comp := some u.1 }, u.2)

/-- the payload is taken out of the packet in `incoming`, whose padding has `padlen` bytes -/
def takePayload (env : Env κ) (r : Receiver σ κ) (seq : UInt32) (padlen : ℕ) :
    Except PollError (Receiver σ κ × Option UInt8) :=
  let rest := r.incoming.drop 5
  if padlen < 4 then .error .badPadlen
  else if rest.length < padlen then .error .invalidFormat
  else
    match uncompress env.codec r.dir.active (rest.take (rest.length - padlen)) with
    | none => .error .invalidFormat
    | some (_, []) => .error .invalidFormat
    | some (active, type :: body) =>
      if type = 0 then .error .badType
      else
        let d := { r.dir with active := active }
        let d := if type = SSH2_MSG_USERAUTH_SUCCESS ∧ !r.server then d.enableDelayedCompress env.codec else d
        let r := { r with
          dir := d.resetSeqnr type
          packlen := 0
          incoming := body
          got := r.got ++ [(type :: body, seq)] }
        if env.checkRekey r.got then .ok (r, some type) else .error .checkRekey

/-- a packet that is there in full is counted, and its payload taken out -/
def countRead (env : Env κ) (r : Receiver σ κ) : Except PollError (Receiver σ κ × Option UInt8) :=
  if r.dir.counters.seqnr + 1 = 0 ∧ r.initial then .error .wrapped
  else if r.dir.counters.packets + 1 = 0 then .error .needRekey
  else
    takePayload env { r with dir := r.dir.count (r.packlen + 4) } r.dir.counters.seqnr (r.incoming.getD 4 0).toNat

/-- the second part of `ssh_packet_read_poll2`, with the length known -/
def endPacket (env : Env κ) (r : Receiver σ κ) : Except PollError (Receiver σ κ × Option UInt8) :=
  let total := aadlen r.dir.active + need r + taglen r.dir.active
  if need r % blockSize r.dir.active ≠ 0 then .error .badPadding
  else if r.input.length < total then .ok (r, none)
  else
    match openRest r.dir.active r.dir.counters.seqnr r.incoming (need r) (r.input.take total) with
    | none => .error .macInvalid
    | some (active, packet) =>
      countRead env
        { r with dir := { r.dir with active := active }, input := r.input.drop total, incoming := packet }

/-- `ssh_packet_read_poll2`: the type of a packet, or `none` if none is ready -/
def readPoll2 (env : Env κ) (r : Receiver σ κ) : Except PollError (Receiver σ κ × Option UInt8) :=
  match beginPacket r with
  | .error e => .error e
  | .ok none => .ok (r, none)
  | .ok (some r) => endPacket env r

/-- the handler of `NEWKEYS` -/
def kexInputNewkeys (env : Env κ) (r : Receiver σ κ) : Except PollError (Receiver σ κ) :=
  match r.dir.setNewkeys env.codec with
  | none => .error .internalError
  | some d => .ok { r with dir := d, initial := false }

/-- polls and handlers, until no packet is ready -/
def pollAll (env : Env κ) : ℕ → Receiver σ κ → Except PollError (Receiver σ κ)
  | 0, r => .ok r
  | n + 1, r =>
    match readPoll2 env r with
    | .error e => .error e
    | .ok (r, none) => .ok r
    | .ok (r, some type) =>
      if type = SSH2_MSG_NEWKEYS then
        match kexInputNewkeys env r with
        | .error e => .error e
        | .ok r => pollAll env n r
      else pollAll env n r

/-- `ssh_packet_process_incoming` -/
def processIncoming (r : Receiver σ κ) (chunk : Bytes) : Receiver σ κ := { r with input := r.input ++ chunk }

/-- as many polls as there are bytes, and one more -/
def polls (r : Receiver σ κ) : ℕ := r.input.length + r.incoming.length + 1

/-- chunks are taken in one after another -/
def receive (env : Env κ) : List Bytes → Receiver σ κ → Except PollError (Receiver σ κ)
  | [], r => .ok r
  | chunk :: chunks, r =>
    match pollAll env (polls (processIncoming r chunk)) (processIncoming r chunk) with
    | .error e => .error e
    | .ok r => receive env chunks r

/-! ## The two ends of a new connection -/

def Direction.start (strict : Bool) (supply : List (Keys σ)) : Direction σ κ := ⟨none, supply, ⟨0, 0, 0, 0⟩, strict, false⟩

/-- the sender, which is the server or the client -/
def Sender.start (strict server : Bool) (supply : List (Keys σ)) : Sender σ κ :=
  ⟨.start strict supply, true, server, [], [], []⟩

/-- the receiver is the other side -/
def Receiver.start (strict server : Bool) (supply : List (Keys σ)) : Receiver σ κ :=
  ⟨.start strict supply, true, !server, [], 0, [], []⟩

end OpenSSHServerPN.PacketFraming
