/-
One channel of a connection (`nchan.c`, and the parts of `channels.c` that read, write, send and receive for one channel).

A channel has two halves: `istate` is what is read from the descriptor and sent to the peer, `ostate` what comes from the peer
and is written. The functions `chan_*` move the halves and send `EOF` and `CLOSE`; `channel_output_poll` sends what was read;
`channel_post_open` reads, writes and gives window back; the handlers of `DATA`, `EXTENDED_DATA`, `WINDOW_ADJUST`, `EOF` and
`CLOSE` take what the peer sent.

The model:
- descriptors are open or closed; what the system answers to `read` and `write` is part of an event;
- `u_int` counters are numbers below `2 ^ 32`, with `u32` where the code adds; the buffers have no limit but the one of `input`
  (the others hold at most a window, or two);
- `fatal` and `ssh_packet_disconnect` end the process (`Status.died`); `channel_free` is `Status.freed`;
- filters (`input_filter`, `output_filter`) and `SSH2_MSG_IGNORE` are left out;
- `detach_user` is a callback of the owner, of which only one effect on the channel matters: it removes itself or not;
- the trace of a channel is what it sent, received, read, wrote and logged, in order.

`Event` is what can happen to a channel: something here (`Local`), or a message of the peer.
-/
import OpenSSHServerPN.Lib.Wire

namespace OpenSSHServerPN.Channels

open Wire

/-! ## Constants -/

/-- read buffer size -/
def CHAN_RBUF : ℕ := 16 * 1024

/-- maximum size for direct reads to buffers -/
def CHANNEL_MAX_READ : ℕ := 32 * 1024

/-- maximum channel input buffer size -/
def CHAN_INPUT_MAX : ℕ := 16 * 1024 * 1024

def SSH2_EXTENDED_DATA_STDERR : ℕ := 1

/-- the longest string that is read from a buffer: `SSHBUF_SIZE_MAX - 4` -/
def maxString : ℕ := 0x8000000 - 4

/-- a `u_int` -/
def u32 (n : ℕ) : ℕ := n % 2 ^ 32

/-! ## State -/

/-- `c->type`; `opened` is `SSH_CHANNEL_OPEN` -/
inductive ChanType where
  | x11Listener | portListener | opening | opened | closed | authSocket | x11Open | larval | rportListener | connecting
  | dynamic | zombie | muxListener | muxClient | abandoned | unixListener | runixListener | muxProxy | rdynamicOpen
  | rdynamicFinish
  deriving DecidableEq, Repr

/-- `c->istate` -/
inductive IState where
  | inOpen | waitDrain | waitOclose | closed
  deriving DecidableEq, Repr

/-- `c->ostate` -/
inductive OState where
  | outOpen | waitDrain | waitIeof | closed
  deriving DecidableEq, Repr

def IState.rank : IState → ℕ
  | .inOpen => 0
  | .waitDrain => 1
  | .waitOclose => 2
  | .closed => 3

def OState.rank : OState → ℕ
  | .outOpen => 0
  | .waitDrain => 1
  | .waitIeof => 2
  | .closed => 3

/-- `c->extended_usage` -/
inductive Usage where
  | ignore | read | write
  deriving DecidableEq, Repr

/-- messages about a channel; `eow` is the request `eow@openssh.com` -/
inductive Msg where
  | data (bytes : List UInt8)
  | extendedData (tcode : ℕ) (bytes : List UInt8)
  | windowAdjust (n : ℕ)
  | eof
  | close
  | eow
  deriving DecidableEq, Repr

/-- lines of the log about received data -/
inductive LogLine where
  | bigPacket | tooMuchData | tooMuchExtendedData | badExtData | extDataForNonOpen
  deriving DecidableEq, Repr

/-- what a channel did -/
inductive Act where
  | sent (m : Msg)
  | rcvd (m : Msg)
  | readRfd (bytes : List UInt8)
  | readEfd (bytes : List UInt8)
  | wroteWfd (bytes : List UInt8)
  | wroteEfd (bytes : List UInt8)
  | logit (line : LogLine)
  deriving DecidableEq, Repr

inductive Status where
  | live | freed | died
  deriving DecidableEq, Repr

/-- `ssh->compat`: the two bits that matter here -/
structure Compat where
  newOpenssh : Bool
  bugExteof : Bool

structure Channel where
  type : ChanType
  ctype : List Char
  haveRemoteId : Bool
  istate : IState
  ostate : OState
  closeSent : Bool
  closeRcvd : Bool
  eofSent : Bool
  eofRcvd : Bool
  chanLocal : Bool
  rfd : Bool
  wfd : Bool
  sock : Bool
  efd : Bool
  isatty : Bool
  forceDrain : Bool
  datagram : Bool
  input : List UInt8
  output : List UInt8
  extended : List UInt8
  extendedUsage : Usage
  remoteWindow : ℕ
  remoteMaxpacket : ℕ
  localWindow : ℕ
  localWindowExceeded : ℕ
  localWindowMax : ℕ
  localConsumed : ℕ
  localMaxpacket : ℕ
  detachUser : Bool
  detachClose : Bool
  status : Status
  trace : List Act
  deriving DecidableEq

/-- what `channel_new` and its callers choose -/
structure Params where
  type : ChanType
  ctype : List Char
  haveRemoteId : Bool
  rfd : Bool
  wfd : Bool
  sock : Bool
  efd : Bool
  isatty : Bool
  forceDrain : Bool
  datagram : Bool
  extendedUsage : Usage
  remoteWindow : UInt32
  remoteMaxpacket : UInt32
  window : UInt32
  maxpack : UInt32
  detachUser : Bool
  detachClose : Bool

/-- `channel_new`; only a client of the multiplexer is `CHAN_LOCAL` (`channel_post_mux_listener`) -/
def channelNew (p : Params) : Channel where
  type := p.type
  ctype := p.ctype
  haveRemoteId := p.haveRemoteId
  istate := .inOpen
  ostate := .outOpen
  closeSent := false
  closeRcvd := false
  eofSent := false
  eofRcvd := false
  chanLocal := p.type == .muxClient
  rfd := p.rfd
  wfd := p.wfd
  sock := p.sock
  efd := p.efd
  isatty := p.isatty
  forceDrain := p.forceDrain
  datagram := p.datagram
  input := []
  output := []
  extended := []
  extendedUsage := p.extendedUsage
  remoteWindow := p.remoteWindow.toNat
  remoteMaxpacket := p.remoteMaxpacket.toNat
  localWindow := p.window.toNat
  localWindowExceeded := 0
  localWindowMax := p.window.toNat
  localConsumed := 0
  localMaxpacket := p.maxpack.toNat
  detachUser := p.detachUser
  detachClose := p.detachClose
  status := .live
  trace := []

def Channel.record (c : Channel) (a : Act) : Channel := { c with trace := c.trace ++ [a] }

def Channel.fatal (c : Channel) : Channel := { c with status := .died }

/-- `CHANNEL_EFD_INPUT_ACTIVE` -/
def efdInputActive (c : Channel) : Prop := c.extendedUsage = .read ∧ (c.efd = true ∨ c.extended ≠ [])

/-- `CHANNEL_EFD_OUTPUT_ACTIVE` -/
def efdOutputActive (c : Channel) : Prop :=
  c.extendedUsage = .write ∧ c.efd = true ∧ (¬(c.eofRcvd = true ∨ c.closeRcvd = true) ∨ c.extended ≠ [])

instance (c : Channel) : Decidable (efdInputActive c) := inferInstanceAs (Decidable (_ ∧ _))
instance (c : Channel) : Decidable (efdOutputActive c) := inferInstanceAs (Decidable (_ ∧ _))

/-! ## The halves (`nchan.c`) -/

/-- `chan_set_istate` -/
def chanSetIstate (next : IState) (c : Channel) : Channel := { c with istate := next }

/-- `chan_set_ostate` -/
def chanSetOstate (next : OState) (c : Channel) : Channel := { c with ostate := next }

/-- `chan_shutdown_write` -/
def chanShutdownWrite (c : Channel) : Channel :=
  let c := { c with output := [] }
  if c.type = .larval then c
  else if c.sock then c
  else { c with wfd := false }

/-- `chan_shutdown_read` -/
def chanShutdownRead (c : Channel) : Channel :=
  if c.type = .larval then c
  else if c.sock then c
  else { c with rfd := false }

/-- `chan_shutdown_extended_read` -/
def chanShutdownExtendedRead (c : Channel) : Channel :=
  if c.type = .larval ∨ c.efd = false then c
  else if c.extendedUsage ≠ .read ∧ c.extendedUsage ≠ .ignore then c
  else { c with efd := false }

/-- `chan_send_eof2` -/
def chanSendEof2 (c : Channel) : Channel :=
  if c.istate = .waitDrain then
    if c.haveRemoteId then { c with trace := c.trace ++ [.sent .eof], eofSent := true } else c.fatal
  else c

/-- `chan_send_close2` -/
def chanSendClose2 (c : Channel) : Channel :=
  if c.ostate ≠ .closed ∨ c.istate ≠ .closed then c
  else if c.closeSent then c
  else if c.haveRemoteId then { c with trace := c.trace ++ [.sent .close], closeSent := true }
  else c.fatal

/-- `chan_send_eow2` -/
def chanSendEow2 (k : Compat) (c : Channel) : Channel :=
  if c.ostate = .closed then c
  else if k.newOpenssh = false then c
  else if c.haveRemoteId then c.record (.sent .eow)
  else c.fatal

/-- `chan_read_failed` -/
def chanReadFailed (c : Channel) : Channel :=
  if c.istate = .inOpen then chanSetIstate .waitDrain (chanShutdownRead c) else c

/-- `chan_ibuf_empty` -/
def chanIbufEmpty (c : Channel) : Channel :=
  if c.input ≠ [] then c
  else if c.istate = .waitDrain then
    chanSetIstate .closed (if c.closeSent ∨ c.chanLocal then c else chanSendEof2 c)
  else c

/-- `chan_obuf_empty` -/
def chanObufEmpty (c : Channel) : Channel :=
  if c.output ≠ [] then c
  else if c.ostate = .waitDrain then chanSetOstate .closed (chanShutdownWrite c)
  else c

/-- `chan_rcvd_eow` -/
def chanRcvdEow (c : Channel) : Channel :=
  let c := c.record (.rcvd .eow)
  if c.istate = .inOpen then chanSetIstate .closed (chanShutdownRead c) else c

/-- the output starts to drain -/
def startDrain (c : Channel) : Channel := if c.ostate = .outOpen then chanSetOstate .waitDrain c else c

/-- `chan_rcvd_ieof` -/
def chanRcvdIeof (c : Channel) : Channel :=
  let c := startDrain { c with trace := c.trace ++ [.rcvd .eof], eofRcvd := true }
  if c.ostate = .waitDrain ∧ c.output = [] ∧ ¬efdOutputActive c then chanObufEmpty c else c

/-- `chan_rcvd_oclose` -/
def chanRcvdOclose (c : Channel) : Channel :=
  let c := c.record (.rcvd .close)
  let c := if c.chanLocal then c else { c with closeRcvd := true }
  if c.type = .larval then chanSetIstate .closed (chanSetOstate .closed c)
  else
    let c := startDrain c
    if c.istate = .inOpen then chanSetIstate .closed (chanShutdownExtendedRead (chanShutdownRead c))
    else if c.istate = .waitDrain then
      chanSetIstate .closed (chanShutdownExtendedRead (if c.chanLocal then c else chanSendEof2 c))
    else c

/-- `chan_write_failed` -/
def chanWriteFailed (k : Compat) (c : Channel) : Channel :=
  if c.ostate = .outOpen ∨ c.ostate = .waitDrain then
    let c := chanShutdownWrite c
    chanSetOstate .closed (if c.ctype = "session".toList then chanSendEow2 k c else c)
  else c

/-- `chan_mark_dead` -/
def chanMarkDead (c : Channel) : Channel := { c with type := .zombie }

/-- `chan_is_dead` -/
def chanIsDead (k : Compat) (c : Channel) (doSend : Bool) : Channel × Bool :=
  if c.type = .zombie then (c, true)
  else if c.istate ≠ .closed ∨ c.ostate ≠ .closed then (c, false)
  else if k.bugExteof ∧ c.extendedUsage = .write ∧ c.efd = true ∧ c.extended ≠ [] then (c, false)
  else if c.chanLocal then (c, true)
  -- the channel would be dead if we sent a close
  else if c.closeSent = false ∧ doSend = false ∧ c.closeRcvd = true then (c, true)
  else
    let c := if c.closeSent = false ∧ doSend = true then chanSendClose2 c else c
    (c, c.closeSent && c.closeRcvd)

/-! ## Closing and collecting (`channels.c`) -/

/-- `detach_user`; `channel_cancel_cleanup` if the callback removes itself -/
def detach (cleared : Bool) (c : Channel) : Channel :=
  if c.detachUser ∧ cleared then { c with detachUser := false, detachClose := false } else c

/-- `channel_force_close` -/
def channelForceClose (k : Compat) (abandon cleared : Bool) (c : Channel) : Channel :=
  let c := if c.istate = .inOpen then chanReadFailed c else c
  let c := if c.istate = .waitDrain then chanIbufEmpty { c with input := [] } else c
  let c := if c.ostate = .outOpen ∨ c.ostate = .waitDrain then chanWriteFailed k { c with output := [] } else c
  let c := detach cleared c
  let c := { c with efd := false }
  if abandon then { c with type := .abandoned } else c

/-- `channel_free` -/
def channelFree (c : Channel) : Channel := { c with status := .freed }

/-- the end of `channel_garbage_collect`: no callback is left -/
def collect (k : Compat) (c : Channel) : Channel :=
  let r := chanIsDead k c true
  if r.2 then channelFree r.1 else r.1

/-- `channel_garbage_collect` -/
def channelGarbageCollect (k : Compat) (cleared : Bool) (c : Channel) : Channel :=
  if c.detachUser then
    let r := chanIsDead k c c.detachClose
    if r.2 = false then r.1
    else
      let c := detach cleared r.1
      if c.detachUser then c else collect k c
  else collect k c

/-! ## Sending what was read -/

/-- `channel_output_poll_input_open` -/
def channelOutputPollInputOpen (c : Channel) : Channel :=
  if c.input = [] then
    if c.istate = .waitDrain ∧ ¬efdInputActive c then chanIbufEmpty c else c
  else if c.haveRemoteId = false then c.fatal
  else if c.datagram then
    match getString maxString c.input with
    | none => c.fatal
    | some (pkt, rest) =>
      if pkt.length > c.remoteWindow ∨ pkt.length > c.remoteMaxpacket then { c with input := rest }
      else { c with trace := c.trace ++ [.sent (.data pkt)], input := rest, remoteWindow := c.remoteWindow - pkt.length }
  else
    let len := min (min c.input.length c.remoteWindow) c.remoteMaxpacket
    if len = 0 then c
    else { c with
      trace := c.trace ++ [.sent (.data (c.input.take len))]
      input := c.input.drop len
      remoteWindow := c.remoteWindow - len }

/-- `channel_output_poll_extended_read` -/
def channelOutputPollExtendedRead (c : Channel) : Channel :=
  let len := min (min c.extended.length c.remoteWindow) c.remoteMaxpacket
  if len = 0 then c
  else if c.haveRemoteId = false then c.fatal
  else { c with
    trace := c.trace ++ [.sent (.extendedData SSH2_EXTENDED_DATA_STDERR (c.extended.take len))]
    extended := c.extended.drop len
    remoteWindow := c.remoteWindow - len }

/-- `channel_output_poll`, for this channel -/
def channelOutputPoll (c : Channel) : Channel :=
  if c.type ≠ .opened then c
  else if c.closeSent ∨ c.closeRcvd then c
  else
    let c := if c.istate = .inOpen ∨ c.istate = .waitDrain then channelOutputPollInputOpen c else c
    if c.status = .live ∧ c.eofSent = false ∧ c.extendedUsage = .read then channelOutputPollExtendedRead c else c

/-! ## Descriptors -/

/-- an answer of `read`; no bytes is the end of the file -/
inductive Read where
  | intr | again | fail | got (bytes : List UInt8)
  deriving DecidableEq, Repr

/-- an answer of `write` -/
inductive Write where
  | again | fail | wrote (n : ℕ)
  deriving DecidableEq, Repr

/-- the part of `channel_pre_open` that changes the channel -/
def channelPreOpen (c : Channel) : Channel :=
  if c.ostate = .waitDrain ∧ c.output = [] ∧ ¬efdOutputActive c then chanObufEmpty c else c

/-- the label `rfail` of `channel_handle_rfd` -/
def readFail (c : Channel) : Channel := if c.type ≠ .opened then chanMarkDead c else chanReadFailed c

/-- how much `channel_handle_rfd` reads at once; none if it does not read -/
def readLimit (c : Channel) : ℕ :=
  let avail := CHAN_INPUT_MAX - c.input.length
  if c.datagram then if avail = 0 then 0 else CHAN_RBUF
  else if c.type = .opened then min (min CHANNEL_MAX_READ (c.remoteWindow - c.input.length)) avail
  else min CHANNEL_MAX_READ avail

/-- bytes that were read; a datagram is kept with its length -/
def putInput (bytes : List UInt8) (c : Channel) : Channel :=
  if c.datagram then
    if c.input.length + (putString bytes).length > CHAN_INPUT_MAX then c.fatal
    else { c with trace := c.trace ++ [.readRfd bytes], input := c.input ++ putString bytes }
  else { c with trace := c.trace ++ [.readRfd bytes], input := c.input ++ bytes }

/-- `channel_handle_rfd` -/
def channelHandleRfd (ready : Bool) (answer : Read) (c : Channel) : Channel :=
  let force := c.isatty && c.detachClose && c.istate != .closed
  if force = false ∧ (ready && c.rfd) = false then c
  else if readLimit c = 0 then c
  else
    match if c.rfd then answer else .fail with
    | .intr => c
    | .again => if force then readFail c else c
    | .fail => readFail c
    | .got bytes => if bytes = [] then readFail c else putInput (bytes.take (readLimit c)) c

/-- the label `write_fail` of `channel_handle_wfd` -/
def writeFail (k : Compat) (c : Channel) : Channel := if c.type ≠ .opened then chanMarkDead c else chanWriteFailed k c

/-- `channel_handle_wfd` -/
def channelHandleWfd (k : Compat) (ready : Bool) (answer : Write) (c : Channel) : Channel :=
  if (ready && c.wfd) = false then c
  else if c.output = [] then c
  else if c.datagram then
    match getString maxString c.output with
    | none => c.fatal
    | some (pkt, rest) =>
      match answer with
      -- the datagram is lost
      | .again => { c with output := rest }
      | .fail => writeFail k { c with output := rest }
      | .wrote 0 => writeFail k { c with output := rest }
      | .wrote (n + 1) =>
        { c with
          trace := c.trace ++ [.wroteWfd (pkt.take (n + 1))]
          output := rest
          localConsumed := u32 (c.localConsumed + (c.output.length - rest.length)) }
  else
    match answer with
    | .again => c
    | .fail => writeFail k c
    | .wrote 0 => writeFail k c
    | .wrote (n + 1) =>
      { c with
        trace := c.trace ++ [.wroteWfd (c.output.take (n + 1))]
        output := c.output.drop (n + 1)
        localConsumed := u32 (c.localConsumed + (c.output.length - (c.output.drop (n + 1)).length)) }

/-- `channel_handle_efd_write` -/
def channelHandleEfdWrite (ready : Bool) (answer : Write) (c : Channel) : Channel :=
  if ready = false then c
  else if c.extended = [] then c
  else
    match answer with
    | .again => c
    | .fail => { c with efd := false }
    | .wrote 0 => { c with efd := false }
    | .wrote (n + 1) =>
      { c with
        trace := c.trace ++ [.wroteEfd (c.extended.take (n + 1))]
        extended := c.extended.drop (n + 1)
        localConsumed := u32 (c.localConsumed + min (n + 1) c.extended.length) }

/-- `channel_handle_efd_read` -/
def channelHandleEfdRead (ready : Bool) (answer : Read) (c : Channel) : Channel :=
  let force := c.isatty && c.detachClose && c.istate != .closed
  if force = false ∧ ready = false then c
  else
    match answer with
    | .intr => c
    | .again => if force then { c with efd := false } else c
    | .fail => { c with efd := false }
    | .got bytes =>
      if bytes = [] then { c with efd := false }
      else if c.extendedUsage = .ignore then c
      else { c with trace := c.trace ++ [.readEfd (bytes.take CHAN_RBUF)], extended := c.extended ++ bytes.take CHAN_RBUF }

/-- `channel_handle_efd` -/
def channelHandleEfd (ready : Bool) (answer : Read) (answer' : Write) (c : Channel) : Channel :=
  if c.efd = false then c
  else if c.extendedUsage = .write then channelHandleEfdWrite ready answer' c
  else channelHandleEfdRead ready answer c

/-- the condition of `channel_check_window` -/
def windowLow (c : Channel) : Prop :=
  c.type = .opened ∧ ¬(c.closeSent = true ∨ c.closeRcvd = true) ∧
    (u32 (c.localWindowMax + 2 ^ 32 - c.localWindow) > u32 (c.localMaxpacket * 3) ∨ c.localWindow < c.localWindowMax / 2) ∧
    c.localConsumed > 0

instance (c : Channel) : Decidable (windowLow c) := inferInstanceAs (Decidable (_ ∧ _))

/-- `channel_check_window` -/
def channelCheckWindow (c : Channel) : Channel :=
  if windowLow c then
    if c.haveRemoteId = false then c.fatal
    else { c with
      trace := c.trace ++ [.sent (.windowAdjust c.localConsumed)]
      localWindow := u32 (c.localWindow + c.localConsumed)
      localConsumed := 0 }
  else c

/-! ## Messages of the peer -/

/-- the types for which `channel_input_data` takes data -/
def takesData (t : ChanType) : Prop := t = .opened ∨ t = .rdynamicOpen ∨ t = .rdynamicFinish ∨ t = .x11Open

instance (t : ChanType) : Decidable (takesData t) := inferInstanceAs (Decidable (_ ∨ _))

/-- what data costs of the window -/
def winLen (c : Channel) (data : List UInt8) : ℕ := if c.datagram then data.length + 4 else data.length

/-- data goes to the output buffer; a datagram with its length -/
def putOutput (data : List UInt8) (c : Channel) : Channel :=
  { c with output := c.output ++ if c.datagram then putString data else data }

/-- data beyond the window is logged -/
def overrun (data : List UInt8) (c : Channel) : Channel :=
  { c with
    trace := c.trace ++ [.logit .tooMuchData]
    localWindowExceeded := u32 (c.localWindowExceeded + (winLen c data - c.localWindow))
    localWindow := 0 }

/-- `channel_input_data` -/
def channelInputData (data : List UInt8) (c : Channel) : Channel :=
  let c := c.record (.rcvd (.data data))
  if ¬takesData c.type then c
  -- the data is dropped, and the window is given back
  else if c.ostate ≠ .outOpen then
    { c with localWindow := c.localWindow - winLen c data, localConsumed := u32 (c.localConsumed + winLen c data) }
  else if winLen c data > c.localMaxpacket then c.record (.logit .bigPacket)
  else if winLen c data > c.localWindow then
    let c := overrun data c
    if c.localWindowExceeded > c.localWindowMax / 10 then c.fatal else putOutput data c
  else putOutput data { c with localWindow := c.localWindow - winLen c data, localWindowExceeded := 0 }

/-- `channel_input_extended_data` -/
def channelInputExtendedData (k : Compat) (tcode : ℕ) (data : List UInt8) (c : Channel) : Channel :=
  let c := c.record (.rcvd (.extendedData tcode data))
  if c.type ≠ .opened then c.record (.logit .extDataForNonOpen)
  else if c.eofRcvd = true ∧ k.bugExteof = false then c.fatal
  else if c.efd = false ∨ c.extendedUsage ≠ .write ∨ tcode ≠ SSH2_EXTENDED_DATA_STDERR then c.record (.logit .badExtData)
  else if data.length > c.localWindow then c.record (.logit .tooMuchExtendedData)
  else { c with extended := c.extended ++ data, localWindow := c.localWindow - data.length }

/-- `channel_input_ieof` -/
def channelInputIeof (c : Channel) : Channel :=
  let c := chanRcvdIeof c
  if c.forceDrain = true ∧ c.istate = .inOpen then
    let c := chanSetIstate .waitDrain c
    if c.input = [] then chanIbufEmpty c else c
  else c

/-- `channel_input_window_adjust` -/
def channelInputWindowAdjust (adjust : ℕ) (c : Channel) : Channel :=
  let c := c.record (.rcvd (.windowAdjust adjust))
  if u32 (c.remoteWindow + adjust) < c.remoteWindow then c.fatal
  else { c with remoteWindow := u32 (c.remoteWindow + adjust) }

/-- a message of the peer; `channel_input_oclose` is `chan_rcvd_oclose` -/
def channelInput (k : Compat) (m : Msg) (c : Channel) : Channel :=
  match m with
  | .data bytes => channelInputData bytes c
  | .extendedData tcode bytes => channelInputExtendedData k tcode bytes c
  | .windowAdjust n => channelInputWindowAdjust n c
  | .eof => channelInputIeof c
  | .close => chanRcvdOclose c
  | .eow => chanRcvdEow c

/-! ## Events -/

/-- what happens on this side -/
inductive Local where
  | readFailed
  | ibufEmpty
  | obufEmpty
  | writeFailed
  | markDead
  | forceClose (abandon cleared : Bool)
  | garbageCollect (cleared : Bool)
  | outputPoll
  | preOpen
  | handleRfd (ready : Bool) (answer : Read)
  | handleWfd (ready : Bool) (answer : Write)
  | handleEfd (ready : Bool) (answer : Read) (answer' : Write)
  | checkWindow
  deriving DecidableEq, Repr

inductive Event where
  | here (l : Local)
  | arrives (m : Msg)
  deriving DecidableEq, Repr

/-- `channel_post_open` is the handler of these types -/
def hasPostOpen (t : ChanType) : Prop := t = .opened ∨ t = .dynamic

instance (t : ChanType) : Decidable (hasPostOpen t) := inferInstanceAs (Decidable (_ ∨ _))

/-- the four parts of `channel_post_open` run one after the other; here each is an event of its own -/
def Local.apply (k : Compat) (c : Channel) : Local → Channel
  | .readFailed => chanReadFailed c
  | .ibufEmpty => chanIbufEmpty c
  | .obufEmpty => chanObufEmpty c
  | .writeFailed => chanWriteFailed k c
  | .markDead => chanMarkDead c
  | .forceClose abandon cleared => channelForceClose k abandon cleared c
  | .garbageCollect cleared => channelGarbageCollect k cleared c
  | .outputPoll => channelOutputPoll c
  | .preOpen => if c.type = .opened then channelPreOpen c else c
  | .handleRfd ready answer => if hasPostOpen c.type then channelHandleRfd ready answer c else c
  | .handleWfd ready answer => if hasPostOpen c.type then channelHandleWfd k ready answer c else c
  | .handleEfd ready answer answer' => if hasPostOpen c.type then channelHandleEfd ready answer answer' c else c
  | .checkWindow => if hasPostOpen c.type then channelCheckWindow c else c

/-- a channel that is freed, or whose process has ended, does nothing -/
def step (k : Compat) (c : Channel) (e : Event) : Channel :=
  if c.status ≠ .live then c
  else
    match e with
    | .here l => l.apply k c
    | .arrives m => channelInput k m c

end OpenSSHServerPN.Channels
