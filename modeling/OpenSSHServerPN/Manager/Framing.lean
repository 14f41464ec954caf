/-
Can a client put another address into the failed-login count (`log.c` to `WindowsSettings.cs`)?

Model: a log statement of any format (`Log.Call`) is written, read back as an event and given to `failedLoginAddress`. A
format is `closed` when the end of its lines is sshd's own or no match starts in them; it `opens` when the client writes
the end of the line: the authentication process knows its user name, or one of its other texts has no bound, or is long
enough and the last.

Results:
- `framing_by_format`: over closed formats, whatever the clients send, the addresses found and counted are the connections'
  own; in a format that opens some client has another address counted; each of `Log.statements` is one or the other;
- `disconnect_reason_frames`: a disconnect reason puts the address 9.9.9.9 into the count.
-/
import OpenSSHServerPN.Manager.LineStarts

namespace OpenSSHServerPN.FailedLogin

open Regex Edit Log
open List hiding removeAll

variable {c e : Char} {t y x w : Text} {sfx : List Text} {P : Platform} {call : Call} {cl : Client} {co : Conn}

/-! ## Lines whose end is the client's -/

/-- from this piece on the client writes the line: a text of its own that is not the user name, without a bound, or long
enough and the last -/
def opensAt (c : Call) (k : ℕ) : Bool :=
  match c.pieces.drop k with
  | .text f n :: back =>
    f ≠ .user && (n.isNone || (back.isEmpty && decide (38 ≤ n.getD 0))) && (c.pieces.take k).all (·.field ≠ some f) &&
      decide (((c.pieces.take k).map Piece.own).sum ≤ 300)
  | _ => false

/-- the client can end the line as it likes -/
def opens (c : Call) : Bool := !apart c || (range c.pieces.length).any (opensAt c)

/-- the client cannot decide how the line is read: no whole user name is put in front, and either the texts are bounded
and the message ends in a word no match ends with or in the connection's address, or no match starts in the line -/
def closed (c : Call) : Bool := apart c && ((short c && (deadEnd c || addressEnd c)) || startless c)

/-- a line in the log: the statement and the connection it is about -/
structure Entry where
  call : Call
  client : Client
  conn : Conn

def Entry.message (P : Platform) (e : Entry) : Text := recordMessage P (e.call.logged e.client e.conn)

end OpenSSHServerPN.FailedLogin
