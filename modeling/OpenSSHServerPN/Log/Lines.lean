/-
Log lines of `sshd` on Windows about a client that has not logged in (`log.c`, `w32log.c`, `monitor.c`, `auth.c`,
`packet.c`, `kex.c`, `openbsd-compat/vis.c`).

Model: a log statement is a `Call`: the process that writes it, whether a user name is known, a level and a format. A
format is any list of pieces: sshd's own texts, the connection's address and port, numbers, fingerprints and the client's
texts, cut to their precision. The session process logs at once; the unprivileged authentication process sends its message
to the session process, which logs `user: <name>: <message> [preauth]` with the whole user name, or `(null)` while no name
is known. `do_log` puts the level in front, cuts the text to its 1024-byte buffer, encodes it with `strnvis` into another
one, and the event log receives the UTF-16 text; the `%.500s` of the `syslog` call has no effect in the port. A user name
has no `:`, since `input_userauth_request` cuts it there. The name of the function that `error_f` and the like put in
front, the tag of `LogVerbose` and the text of an error at the end are sshd's own texts. `statements` lists log statements
of the source.
-/
import OpenSSHServerPN.Match.Pattern

namespace OpenSSHServerPN.Log

open List

/-! ## The connection and the client's texts -/

/-- `[0-9a-f.:]`, for a character in lower case -/
def isAddrChar (c : Char) : Bool := c.isDigit || ('a' ≤ c && c ≤ 'f') || c == '.' || c == ':'

/-- `[0-9a-z._-]`, for a character in lower case -/
def isZoneChar (c : Char) : Bool := c.isDigit || ('a' ≤ c && c ≤ 'z') || c == '.' || c == '_' || c == '-'

def isAscii (c : Char) : Bool := c.toNat < 128

/-- a numeric address as `getnameinfo` writes it -/
structure Address where
  host : Text
  zone : Option Text
  host_ne : host ≠ []
  host_chars : ∀ c ∈ host, isAscii c = true ∧ isAddrChar c.toLower = true
  zone_chars : ∀ z ∈ zone, z ≠ [] ∧ ∀ c ∈ z, isAscii c = true ∧ isZoneChar c.toLower = true
  short : host.length + (zone.getD []).length ≤ 60
  /-- only `::` ends an address in a colon -/
  host_end : host.getLast? = some ':' → host.dropLast.getLast? = some ':'

/-- the zone of a link-local address -/
def Address.zoneText (a : Address) : Text :=
  match a.zone with
  | none => []
  | some z => '%' :: z

def Address.text (a : Address) : Text := a.host ++ a.zoneText

structure Conn where
  /-- `none`: the socket has no address, the text is `UNKNOWN` -/
  remote : Option Address
  /-- the port in decimal -/
  port : Text
  port_ne : port ≠ []
  port_digits : ∀ c ∈ port, c.isDigit = true
  port_short : port.length ≤ 5

/-- `ssh_remote_ipaddr` -/
def Conn.ipaddr (c : Conn) : Text :=
  match c.remote with
  | some a => a.text
  | none => "UNKNOWN"

/-- a text in a format that the client chooses before it is authenticated -/
inductive Field where
  | user
  /-- text of a disconnect message -/
  | reason
  | version
  | offer
  | keyId
  /-- the name the client's address resolves to -/
  | hostname
  /-- any other: service, algorithm, style, ... -/
  | other (i : ℕ)
deriving DecidableEq, Repr

structure Client where
  text : Field → Text
  no_colon : ':' ∉ text .user
  /-- code of a disconnect message, serial of a certificate, ... -/
  number : ℕ → UInt64
  /-- hashes of its keys in base64 -/
  hash : ℕ → Text
  hash_ne : ∀ i, hash i ≠ []
  hash_word : ∀ i, ∀ c ∈ hash i, 33 ≤ c.toNat ∧ c.toNat ≤ 126 ∧ c ≠ '\\' ∧ c ≠ ':'
  hash_short : ∀ i, (hash i).length ≤ 93

/-- `%u` or `%llu` -/
def Client.decimal (cl : Client) (i : ℕ) : Text := Nat.toDigits 10 (cl.number i).toNat

def hashName : Text := "SHA256:"

/-- `sshkey_fingerprint` of a key -/
def Client.fingerprint (cl : Client) (i : ℕ) : Text := hashName ++ cl.hash i

/-! ## Log statements -/

inductive Piece where
  | lit (t : Text)
  /-- `%s`, or `%.ns` -/
  | text (f : Field) (precision : Option ℕ)
  | addr
  | port
  | number (i : ℕ)
  | fingerprint (i : ℕ)
deriving DecidableEq, Repr

/-- the process that writes the message -/
inductive Writer where
  | session
  | auth
deriving DecidableEq, Repr

inductive Level where
  | fatal
  | error
  | info
  | verbose
  | debug1
  | debug2
  | debug3
deriving DecidableEq, Repr

structure Call where
  writer : Writer
  /-- a user name has been given -/
  userKnown : Bool
  level : Level
  pieces : List Piece
deriving DecidableEq, Repr

/-! ## Writing a line -/

def Piece.render (cl : Client) (co : Conn) : Piece → Text
  | .lit t => t
  | .text f none => cl.text f
  | .text f (some n) => (cl.text f).take n
  | .addr => co.ipaddr
  | .port => co.port
  | .number i => cl.decimal i
  | .fingerprint i => cl.fingerprint i

def Call.message (c : Call) (cl : Client) (co : Conn) : Text := c.pieces.flatMap (Piece.render cl co)

/-- `MSGBUFSIZ` without the terminating NUL -/
def msgbufLen : ℕ := 1023

def Level.text : Level → Text
  | .fatal => "fatal: "
  | .error => "error: "
  | .info | .verbose => []
  | .debug1 => "debug1: "
  | .debug2 => "debug2: "
  | .debug3 => "debug3: "

/-- what reaches `do_log` of the session process -/
def Call.body (c : Call) (cl : Client) (co : Conn) : Text :=
  match c.writer with
  | .session => c.message cl co
  | .auth =>
    "user: " ++ (if c.userKnown then cl.text .user else "(null)") ++ ": " ++ (c.message cl co).take msgbufLen ++ " [preauth]"

/-- `vis` with the flags of the event log: bytes outside ASCII and other control characters stay -/
def visChar (c : Char) : Text :=
  if c = '\\' then ['\\', '\\']
  else if 32 ≤ c.toNat ∧ c.toNat ≤ 126 then [c]
  else
    match c.toNat with
    | 10 => ['\\', 'n']
    | 13 => ['\\', 'r']
    | 8 => ['\\', 'b']
    | 7 => ['\\', 'a']
    | 11 => ['\\', 'v']
    | 9 => ['\\', 't']
    | 12 => ['\\', 'f']
    | _ => [c]

/-- `strnvis` into a buffer with `n` places: stops at the first character that does not fit -/
def strnvis : ℕ → Text → Text
  | _, [] => []
  | n, c :: s => if (visChar c).length ≤ n then visChar c ++ strnvis (n - (visChar c).length) s else []

/-- the bytes `do_log` gives to the event log -/
def Call.logged (c : Call) (cl : Client) (co : Conn) : Text :=
  strnvis msgbufLen ((c.level.text ++ c.body cl co).take msgbufLen)

/-- a character `vis` leaves alone -/
def visible (c : Char) : Bool := 32 ≤ c.toNat && c.toNat ≤ 126 && c != '\\'

/-- bound on what a piece has of sshd's -/
def Piece.own : Piece → ℕ
  | .lit t => t.length
  | .text _ _ => 0
  | .addr => 61
  | .port => 5
  | .number _ => 20
  | .fingerprint _ => 100

/-- bound on a piece, if it has one -/
def Piece.width : Piece → Option ℕ
  | .text _ n => n
  | p => some p.own

/-- the client's text in a piece -/
def Piece.field : Piece → Option Field
  | .text f _ => some f
  | _ => none

/-- statements of the session process, and of the authentication process before and after a user name is known -/
def session (level : Level) (pieces : List Piece) : Call := ⟨.session, true, level, pieces⟩

def auth (userKnown : Bool) (level : Level) (pieces : List Piece) : Call := ⟨.auth, userKnown, level, pieces⟩

def keyTypes : List String := ["RSA", "ECDSA", "ED25519"]

/-- `user_cert_trusted_ca`; the authority has signed the key id -/
def certCalls : List Call :=
  keyTypes.flatMap fun ca =>
    [session .error [.lit "Refusing certificate ID \"", .text .keyId none, .lit "\" serial=", .number 0,
        .lit " signed by ", .lit ca.toList, .lit " CA ", .fingerprint 1, .lit ": Refused by certificate principals options"],
      session .verbose [.lit "Accepted certificate ID \"", .text .keyId none, .lit "\" (serial ", .number 0,
        .lit ") signed by ", .lit ca.toList, .lit " CA ", .fingerprint 1, .lit " via ", .lit "__PROGRAMDATA__/ssh/ca.pub"]]

end OpenSSHServerPN.Log
