/-
The packet state of a connection and its hand-over to the process after authentication (`packet.c`, `cipher.c`, `mac.c`).

Model: `Ssh` is `struct ssh` with its session state, as far as `ssh_packet_get_state` and `ssh_packet_set_state` read and
write it: the key exchange, the keys of both directions with the IV their cipher contexts stand at, the rekey limits, the
counters and the buffers. `getState` writes the blob, `setState` reads it into a fresh `struct ssh`, field by field. Keys
carry what their negotiation guarantees: the cipher and the MAC are in the tables, the lengths are those of the tables.

`ssh_packet_set_state` reads the counters first and calls `ssh_set_newkeys` for both directions afterwards, which sets
`packets` and `blocks` to zero: these two counters are lost in both directions.

Results:
- `setState_getState`: what the blob of any state is read as;
- `handover_lossless_iff`: the hand-over keeps every counter, now and under all later traffic, exactly if no packet and no
  block has been counted under the present keys; `handover_forgets_packets` is a state that loses its counts.
-/
import Mathlib.Data.List.TakeWhile
import OpenSSHServerPN.Lib.Runs
import OpenSSHServerPN.Lib.Wire

namespace OpenSSHServerPN.Packet

open Runs Wire

abbrev Bytes := List UInt8

/-- the bytes of a C string -/
def ascii (s : String) : Bytes := s.toList.map fun c => UInt8.ofNat c.toNat

def SSHBUF_SIZE_MAX : ℕ := 0x8000000

/-! ## Tables -/

inductive CipherKind where
  | plain
  | cbc
  | chachapoly
  /-- `CFLAG_NONE`, which is also `CFLAG_INTERNAL` -/
  | none
deriving DecidableEq, Repr

/-- `struct sshcipher` -/
structure Sshcipher where
  name : Bytes
  blockSize : UInt32
  keyLen : ℕ
  ivLen : ℕ
  authLen : ℕ
  kind : CipherKind
deriving DecidableEq, Repr

def ciphers : List Sshcipher := [
  ⟨ascii "3des-cbc", 8, 24, 0, 0, .cbc⟩,
  ⟨ascii "aes128-cbc", 16, 16, 0, 0, .cbc⟩,
  ⟨ascii "aes192-cbc", 16, 24, 0, 0, .cbc⟩,
  ⟨ascii "aes256-cbc", 16, 32, 0, 0, .cbc⟩,
  ⟨ascii "aes128-ctr", 16, 16, 0, 0, .plain⟩,
  ⟨ascii "aes192-ctr", 16, 24, 0, 0, .plain⟩,
  ⟨ascii "aes256-ctr", 16, 32, 0, 0, .plain⟩,
  ⟨ascii "aes128-gcm@openssh.com", 16, 16, 12, 16, .plain⟩,
  ⟨ascii "aes256-gcm@openssh.com", 16, 32, 12, 16, .plain⟩,
  ⟨ascii "chacha20-poly1305@openssh.com", 8, 64, 0, 16, .chachapoly⟩,
  ⟨ascii "none", 8, 0, 0, 0, .none⟩]

def cipherByName (name : Bytes) : Option Sshcipher := ciphers.find? fun c => c.name = name

/-- `cipher_ivlen`: the block size by default -/
def Sshcipher.ivlen (c : Sshcipher) : ℕ := if c.ivLen ≠ 0 ∨ c.kind = .chachapoly then c.ivLen else c.blockSize.toNat

/-- `struct macalg`, with the lengths `mac_setup_by_alg` takes from the digest -/
structure Macalg where
  name : Bytes
  keyLen : ℕ
  macLen : ℕ
  etm : Bool
deriving DecidableEq, Repr

/-- the MACs once with and once without the suffix for encrypt-then-MAC -/
def macs : List Macalg := [
  ⟨ascii "hmac-sha1", 20, 20, false⟩,
  ⟨ascii "hmac-sha1-96", 20, 12, false⟩,
  ⟨ascii "hmac-sha2-256", 32, 32, false⟩,
  ⟨ascii "hmac-sha2-512", 64, 64, false⟩,
  ⟨ascii "hmac-md5", 16, 16, false⟩,
  ⟨ascii "hmac-md5-96", 16, 12, false⟩,
  ⟨ascii "umac-64@openssh.com", 16, 8, false⟩,
  ⟨ascii "umac-128@openssh.com", 16, 16, false⟩,
  ⟨ascii "hmac-sha1-etm@openssh.com", 20, 20, true⟩,
  ⟨ascii "hmac-sha1-96-etm@openssh.com", 20, 12, true⟩,
  ⟨ascii "hmac-sha2-256-etm@openssh.com", 32, 32, true⟩,
  ⟨ascii "hmac-sha2-512-etm@openssh.com", 64, 64, true⟩,
  ⟨ascii "hmac-md5-etm@openssh.com", 16, 16, true⟩,
  ⟨ascii "hmac-md5-96-etm@openssh.com", 16, 12, true⟩,
  ⟨ascii "umac-64-etm@openssh.com", 16, 8, true⟩,
  ⟨ascii "umac-128-etm@openssh.com", 16, 16, true⟩]

/-- `mac_setup` -/
def macSetup (name : Bytes) : Option Macalg := macs.find? fun m => m.name = name

/-! ## Keys -/

/-- `struct sshenc` -/
structure Sshenc where
  name : Bytes
  enabled : UInt32
  blockSize : UInt32
  key : Bytes
  iv : Bytes
deriving DecidableEq, Repr

/-- `struct sshmac` -/
structure Sshmac where
  name : Bytes
  enabled : UInt32
  key : Bytes
deriving DecidableEq, Repr

/-- `struct sshcomp` -/
structure Sshcomp where
  type : UInt32
  name : Bytes
  enabled : Bool
deriving DecidableEq, Repr

def COMP_DELAYED : UInt32 := 2

/-- `struct newkeys`; an authenticated cipher has no MAC -/
structure RawKeys where
  enc : Sshenc
  mac : Option Sshmac
  comp : Sshcomp
deriving DecidableEq, Repr

/-- the cipher is known, used for packets, and has the lengths of the keys -/
def Sshenc.valid (e : Sshenc) : Bool :=
  match cipherByName e.name with
  | some c => e.blockSize = c.blockSize && c.kind ≠ .none && e.key.length = c.keyLen && e.iv.length = c.ivlen
  | Option.none => false

def Sshmac.valid (m : Sshmac) : Bool :=
  match macSetup m.name with
  | some a => m.key.length = a.keyLen
  | Option.none => false

/-- `cipher_authlen`, 0 for a name that is not in the table -/
def Sshenc.authlen (e : Sshenc) : ℕ := ((cipherByName e.name).map (·.authLen)).getD 0

/-- what the negotiation guarantees of keys, and what `newkeys_from_blob` checks -/
structure RawKeys.Valid (k : RawKeys) : Prop where
  enc : k.enc.valid = true
  mac : k.mac.isSome = (k.enc.authlen = 0 : Bool)
  mac_valid : ∀ m ∈ k.mac, m.valid = true
  comp_plain : 0 ∉ k.comp.name

instance (k : RawKeys) : Decidable k.Valid :=
  decidable_of_iff (k.enc.valid = true ∧ k.mac.isSome = (k.enc.authlen = 0 : Bool) ∧ (∀ m ∈ k.mac, m.valid = true) ∧
      0 ∉ k.comp.name)
    ⟨fun ⟨a, b, c, d⟩ => ⟨a, b, c, d⟩, fun h => ⟨h.enc, h.mac, h.mac_valid, h.comp_plain⟩⟩

/-- `struct newkeys` -/
abbrev Newkeys := { k : RawKeys // k.Valid }

inductive Mode where
  | in
  | out
deriving DecidableEq, Repr

/-! ## State -/

/-- `struct packet_state` -/
structure Counters where
  seqnr : UInt32
  packets : UInt32
  blocks : UInt64
  bytes : UInt64
deriving DecidableEq, Repr

/-- the part of `struct kex` that is handed over, and the keys derived but not yet in use -/
structure Kex where
  weNeed : UInt32
  hostkeyAlg : Bytes
  hostkeyType : UInt32
  hostkeyNid : UInt32
  kexType : UInt32
  kexStrict : UInt32
  my : Bytes
  peer : Bytes
  clientVersion : Bytes
  serverVersion : Bytes
  sessionId : Bytes
  flags : UInt32
  server : Bool
  done : Bool
  newkeysIn : Option Newkeys
  newkeysOut : Option Newkeys
  /-- no algorithm needs more, and `kex_from_blob` refuses more -/
  weNeed_le : weNeed ≤ 1024
  hostkeyAlg_plain : 0 ∉ hostkeyAlg

/-- keys in use: `state->newkeys[mode]` and the IV its cipher context stands at -/
structure Installed where
  keys : Newkeys
  iv : Bytes
  iv_length : iv.length = keys.1.enc.iv.length

structure Ssh where
  kex : Kex
  keysIn : Option Installed
  keysOut : Option Installed
  pRead : Counters
  pSend : Counters
  hardMaxBlocksIn : ℕ
  hardMaxBlocksOut : ℕ
  maxBlocksIn : ℕ
  maxBlocksOut : ℕ
  rekeyLimit : UInt64
  rekeyInterval : UInt32
  rekeyTime : ℕ
  afterAuthentication : Bool
  rekeying : Bool
  input : Bytes
  output : Bytes
  interactiveMode : Int32
  qosInteractive : Int32
  qosOther : Int32

/-! ## `ssh_set_newkeys` -/

/-- the volume allowed under a cipher of block size `b`; RFC 4344 asks for 1 GB for small blocks -/
def hardMaxBlocks (b : UInt32) : ℕ := if 16 ≤ b then 2 ^ (b.toNat * 2) else 2 ^ 30 / b.toNat

/-- the volume allowed by `RekeyLimit` -/
def maxBlocks (rekeyLimit : UInt64) (b : UInt32) : ℕ :=
  if rekeyLimit = 0 then hardMaxBlocks b else min (hardMaxBlocks b) (rekeyLimit.toNat / b.toNat)

variable {k : RawKeys}

theorem Valid.enable (h : k.Valid) (c : Bool) :
    RawKeys.Valid { k with mac := k.mac.map fun m => { m with enabled := 1 }, comp := { k.comp with enabled := c } } where
  enc := h.enc
  mac := by simpa using h.mac
  mac_valid := by
    intro m hm
    obtain ⟨m', hm', rfl⟩ := Option.mem_map.1 hm
    exact h.mac_valid m' hm'
  comp_plain := h.comp_plain

/-- keys as they are installed: the MAC is enabled, and delayed compression if it is due -/
def Newkeys.enable (k : Newkeys) (afterAuthentication : Bool) : Newkeys :=
  ⟨_, Valid.enable k.2 (k.1.comp.enabled || (k.1.comp.type = COMP_DELAYED && afterAuthentication))⟩

def Newkeys.install (k : Newkeys) (afterAuthentication : Bool) : Installed := ⟨k.enable afterAuthentication, k.1.enc.iv, rfl⟩

/-- both the bytes and the sequence number are not reset -/
def Counters.renew (c : Counters) : Counters := { c with packets := 0, blocks := 0 }

/-- `ssh_set_newkeys` -/
def setNewkeys (s : Ssh) : Mode → Option Ssh
  | .in =>
    s.kex.newkeysIn.map fun k =>
      { s with
        pRead := s.pRead.renew
        kex := { s.kex with newkeysIn := Option.none }
        keysIn := some (k.install s.afterAuthentication)
        hardMaxBlocksIn := hardMaxBlocks k.1.enc.blockSize
        maxBlocksIn := maxBlocks s.rekeyLimit k.1.enc.blockSize }
  | .out =>
    s.kex.newkeysOut.map fun k =>
      { s with
        pSend := s.pSend.renew
        kex := { s.kex with newkeysOut := Option.none }
        keysOut := some (k.install s.afterAuthentication)
        hardMaxBlocksOut := hardMaxBlocks k.1.enc.blockSize
        maxBlocksOut := maxBlocks s.rekeyLimit k.1.enc.blockSize }

/-- `ssh_packet_enable_delayed_compress` for one direction -/
def Installed.enableDelayed (i : Installed) : Installed :=
  ⟨⟨_, Valid.enable i.keys.2 (i.keys.1.comp.enabled || i.keys.1.comp.type = COMP_DELAYED)⟩, i.iv, i.iv_length⟩

/-- `ssh_packet_set_postauth` -/
def setPostauth (s : Ssh) : Ssh :=
  { s with
    afterAuthentication := true
    rekeying := false
    keysIn := s.keysIn.map Installed.enableDelayed
    keysOut := s.keysOut.map Installed.enableDelayed }

/-! ## Writing the state -/

/-- `kex_to_blob` -/
def kexToBlob (k : Kex) : Bytes :=
  putU32 k.weNeed ++ (putString k.hostkeyAlg ++ (putU32 k.hostkeyType ++ (putU32 k.hostkeyNid ++ (putU32 k.kexType ++
    (putU32 k.kexStrict ++ (putString k.my ++ (putString k.peer ++ (putString k.clientVersion ++
      (putString k.serverVersion ++ (putString k.sessionId ++ putU32 k.flags))))))))))

def macToBlob : Option Sshmac → Bytes
  | some m => putString m.name ++ (putU32 m.enabled ++ putString m.key)
  | Option.none => []

/-- the inner buffer of `newkeys_to_blob`; the IV is the one the context stands at -/
def keysToBlob (k : RawKeys) (iv : Bytes) : Bytes :=
  putString k.enc.name ++ (putU32 k.enc.enabled ++ (putU32 k.enc.blockSize ++ (putString k.enc.key ++ (putString iv ++
    (macToBlob k.mac ++ (putU32 k.comp.type ++ putString k.comp.name))))))

def countersToBlob (c : Counters) : Bytes := putU32 c.seqnr ++ (putU64 c.blocks ++ (putU32 c.packets ++ putU64 c.bytes))

/-- `ENCODE_INT` -/
def encodeInt (v : Int32) : UInt32 := if v < 0 then 0xFFFFFFFF else v.toUInt32

/-- the blob of a state with the keys `o` and `i` in use -/
def stateBlob (s : Ssh) (o i : Installed) : Bytes :=
  kexToBlob s.kex ++ (putString (keysToBlob o.keys.1 o.iv) ++ (putString (keysToBlob i.keys.1 i.iv) ++
    (putU64 s.rekeyLimit ++ (putU32 s.rekeyInterval ++ (countersToBlob s.pSend ++ (countersToBlob s.pRead ++
      (putString s.input ++ (putString s.output ++ (putU32 (encodeInt s.interactiveMode) ++
        (putU32 (encodeInt s.qosInteractive) ++ putU32 (encodeInt s.qosOther)))))))))))

/-- `ssh_packet_get_state`; a buffer does not grow beyond `SSHBUF_SIZE_MAX` -/
def getState (s : Ssh) : Option Bytes :=
  match s.keysOut, s.keysIn with
  | some o, some i => if (stateBlob s o i).length ≤ SSHBUF_SIZE_MAX then some (stateBlob s o i) else Option.none
  | _, _ => Option.none

/-! ## Reading the state -/

/-- `sshbuf_get_string` -/
def getStr : Get Bytes := getString (SSHBUF_SIZE_MAX - 4)

/-- `sshbuf_get_cstring`: a zero byte is allowed at the end only -/
def getCstring : Get Bytes := do
  let bs ← getStr
  guard (0 ∉ bs.dropLast)
  pure (bs.takeWhile (· ≠ 0))

/-- `kex_from_blob` -/
def kexFromBlob : Get Kex := do
  let weNeed ← getU32
  let hostkeyAlg ← getCstring
  let hostkeyType ← getU32
  let hostkeyNid ← getU32
  let kexType ← getU32
  let kexStrict ← getU32
  let my ← getStr
  let peer ← getStr
  let clientVersion ← getStr
  let serverVersion ← getStr
  let sessionId ← getStr
  let flags ← getU32
  if h : weNeed ≤ 1024 ∧ 0 ∉ hostkeyAlg then
    pure { weNeed, hostkeyAlg, hostkeyType, hostkeyNid, kexType, kexStrict, my, peer, clientVersion, serverVersion,
           sessionId, flags, server := true, done := true, newkeysIn := Option.none, newkeysOut := Option.none,
           weNeed_le := h.1, hostkeyAlg_plain := h.2 }
  else failure

/-- the MAC is there unless the cipher authenticates -/
def macFromBlob (authlen : ℕ) : Get (Option Sshmac) :=
  if authlen = 0 then do
    let name ← getCstring
    let enabled ← getU32
    let key ← getStr
    pure (some { name, enabled, key : Sshmac })
  else pure Option.none

/-- the fields of `newkeys_from_blob` -/
def rawFromBlob : Get RawKeys := do
  let name ← getCstring
  let enabled ← getU32
  let blockSize ← getU32
  let key ← getStr
  let iv ← getStr
  let enc : Sshenc := { name, enabled, blockSize, key, iv }
  let mac ← macFromBlob enc.authlen
  let type ← getU32
  let name ← getCstring
  pure { enc, mac, comp := { type, name, enabled := false } }

/-- `newkeys_from_blob`: the string has to be used up and the keys have to fit the tables -/
def newkeysFromBlob : Get Newkeys := do
  let bs ← getStr
  match whole rawFromBlob bs with
  | some k => if h : k.Valid then pure ⟨k, h⟩ else failure
  | Option.none => failure

def countersFromBlob : Get Counters := do
  let seqnr ← getU32
  let blocks ← getU64
  let packets ← getU32
  let bytes ← getU64
  pure { seqnr, packets, blocks, bytes }

/-- `DECODE_INT` -/
def decodeInt (v : UInt32) : Int32 := if v > 0x7FFFFFFF then -1 else Int32.ofUInt32 v

/-- what is read off the blob -/
structure Handed where
  kex : Kex
  newkeysOut : Newkeys
  newkeysIn : Newkeys
  rekeyLimit : UInt64
  rekeyInterval : UInt32
  pSend : Counters
  pRead : Counters
  input : Bytes
  output : Bytes
  interactiveMode : Int32
  qosInteractive : Int32
  qosOther : Int32

def handedFromBlob : Get Handed := do
  let kex ← kexFromBlob
  let newkeysOut ← newkeysFromBlob
  let newkeysIn ← newkeysFromBlob
  let rekeyLimit ← getU64
  let rekeyInterval ← getU32
  let pSend ← countersFromBlob
  let pRead ← countersFromBlob
  let input ← getStr
  let output ← getStr
  let interactiveMode ← getU32
  let qosInteractive ← getU32
  let qosOther ← getU32
  pure { kex, newkeysOut, newkeysIn, rekeyLimit, rekeyInterval, pSend, pRead, input, output,
         interactiveMode := decodeInt interactiveMode, qosInteractive := decodeInt qosInteractive,
         qosOther := decodeInt qosOther }

/-- `ssh_packet_set_state` at the time `now`: the fields, then `ssh_set_newkeys` in both directions -/
def setState (fresh : Ssh) (now : ℕ) (blob : Bytes) : Option Ssh := do
  let h ← whole handedFromBlob blob
  let s := { fresh with
    kex := { h.kex with newkeysOut := some h.newkeysOut, newkeysIn := some h.newkeysIn }
    rekeyLimit := h.rekeyLimit
    rekeyInterval := h.rekeyInterval
    pSend := h.pSend
    pRead := h.pRead
    rekeyTime := now }
  let s ← setNewkeys s .in
  let s ← setNewkeys s .out
  pure { setPostauth s with
    input := h.input
    output := h.output
    interactiveMode := h.interactiveMode
    qosInteractive := h.qosInteractive
    qosOther := h.qosOther }

/-! ## The blob is read back -/

/-- a string that fits into a buffer with its length -/
def Fits (bs : Bytes) : Prop := bs.length + 4 ≤ SSHBUF_SIZE_MAX

theorem decodes_getStr {bs : Bytes} (h : Fits bs) : Decodes getStr (putString bs) bs :=
  decodes_getString (by decide) (by unfold Fits at h; omega)

theorem decodes_getCstring {bs : Bytes} (h : Fits bs) (hplain : 0 ∉ bs) : Decodes getCstring (putString bs) bs := by
  have hdrop : 0 ∉ bs.dropLast := fun h0 => hplain (List.dropLast_subset _ h0)
  have htake : bs.takeWhile (· ≠ 0) = bs := by
    rw [List.takeWhile_eq_self_iff]
    intro b hb
    simpa using fun h0 : b = 0 => hplain (h0 ▸ hb)
  have hread : Decodes getCstring (putString bs) (bs.takeWhile (· ≠ 0)) :=
    (decodes_getStr h).last ((Decodes.check hdrop).last (Decodes.pure _))
  rwa [htake] at hread

/-- the key exchange as it is read: on the server's side, and done -/
def Kex.handed (k : Kex) : Kex :=
  { k with server := true, done := true, newkeysIn := Option.none, newkeysOut := Option.none }

theorem decodes_kexFromBlob (k : Kex) (h : (kexToBlob k).length ≤ SSHBUF_SIZE_MAX) :
    Decodes kexFromBlob (kexToBlob k) k.handed := by
  simp only [kexToBlob, List.length_append, length_putString] at h
  have hcheck : k.weNeed ≤ 1024 ∧ 0 ∉ k.hostkeyAlg := ⟨k.weNeed_le, k.hostkeyAlg_plain⟩
  refine (decodes_getU32 _).bind ?_
  refine (decodes_getCstring (by unfold Fits; omega) k.hostkeyAlg_plain).bind ?_
  refine (decodes_getU32 _).bind ((decodes_getU32 _).bind ((decodes_getU32 _).bind ((decodes_getU32 _).bind ?_)))
  refine (decodes_getStr (by unfold Fits; omega)).bind ?_
  refine (decodes_getStr (by unfold Fits; omega)).bind ?_
  refine (decodes_getStr (by unfold Fits; omega)).bind ?_
  refine (decodes_getStr (by unfold Fits; omega)).bind ?_
  refine (decodes_getStr (by unfold Fits; omega)).bind ?_
  refine (decodes_getU32 _).last ?_
  rw [dif_pos hcheck]
  exact Decodes.pure _

/-- names of the tables have no zero byte -/
theorem plain_of_find {α : Type} {nameOf : α → Bytes} {table : List α} {name : Bytes} {a : α} (hall : ∀ a ∈ table, 0 ∉ nameOf a)
    (h : (table.find? fun a => nameOf a = name) = some a) : 0 ∉ name := by
  have hname : nameOf a = name := by simpa using List.find?_some h
  exact hname ▸ hall a (List.mem_of_find?_eq_some h)

theorem Sshenc.valid_iff {e : Sshenc} :
    e.valid = true ↔ ∃ c, cipherByName e.name = some c ∧ e.blockSize = c.blockSize ∧ c.kind ≠ .none ∧
      e.key.length = c.keyLen ∧ e.iv.length = c.ivlen := by
  unfold Sshenc.valid
  cases cipherByName e.name <;> simp [and_assoc]

theorem Sshenc.name_plain {e : Sshenc} (h : e.valid = true) : 0 ∉ e.name := by
  obtain ⟨c, hc, -⟩ := Sshenc.valid_iff.1 h
  exact plain_of_find (by decide) hc

theorem Sshmac.name_plain {m : Sshmac} (h : m.valid = true) : 0 ∉ m.name := by
  unfold Sshmac.valid at h
  split at h
  · next ha => exact plain_of_find (by decide) ha
  · cases h

/-- keys as they are read: with the IV of the context, and compression not yet started -/
def RawKeys.handed (k : RawKeys) (iv : Bytes) : RawKeys :=
  { k with enc := { k.enc with iv := iv }, comp := { k.comp with enabled := false } }

theorem RawKeys.Valid.handed (h : k.Valid) {iv : Bytes} (hiv : iv.length = k.enc.iv.length) : (k.handed iv).Valid where
  enc := by
    obtain ⟨c, hc, hblock, hkind, hkey, hlen⟩ := Sshenc.valid_iff.1 h.enc
    exact Sshenc.valid_iff.2 ⟨c, hc, hblock, hkind, hkey, hiv.trans hlen⟩
  mac := h.mac
  mac_valid := h.mac_valid
  comp_plain := h.comp_plain

theorem decodes_macFromBlob {mac : Option Sshmac} {authlen : ℕ} (hauth : mac.isSome = decide (authlen = 0))
    (hvalid : ∀ m ∈ mac, m.valid = true) (hsize : (macToBlob mac).length ≤ SSHBUF_SIZE_MAX) :
    Decodes (macFromBlob authlen) (macToBlob mac) mac := by
  cases mac with
  | none =>
    have hne : authlen ≠ 0 := by simpa using hauth
    rw [macFromBlob, if_neg hne]
    exact Decodes.pure _
  | some m =>
    have h0 : authlen = 0 := by simpa using hauth
    simp only [macToBlob, List.length_append, length_putString] at hsize
    rw [macFromBlob, if_pos h0]
    refine (decodes_getCstring (by unfold Fits; omega) (Sshmac.name_plain (hvalid m rfl))).bind ?_
    exact (decodes_getU32 _).bind ((decodes_getStr (by unfold Fits; omega)).last (Decodes.pure _))

theorem decodes_rawFromBlob (h : k.Valid) {iv : Bytes} (hsize : (keysToBlob k iv).length ≤ SSHBUF_SIZE_MAX) :
    Decodes rawFromBlob (keysToBlob k iv) (k.handed iv) := by
  simp only [keysToBlob, List.length_append, length_putU32, length_putString] at hsize
  refine (decodes_getCstring (by unfold Fits; omega) (Sshenc.name_plain h.enc)).bind ?_
  refine (decodes_getU32 _).bind ((decodes_getU32 _).bind ?_)
  refine (decodes_getStr (by unfold Fits; omega)).bind ?_
  refine (decodes_getStr (by unfold Fits; omega)).bind ?_
  refine (decodes_macFromBlob h.mac h.mac_valid (by omega)).bind ?_
  exact (decodes_getU32 _).bind ((decodes_getCstring (by unfold Fits; omega) h.comp_plain).last (Decodes.pure _))

/-- the keys of one direction as they are read -/
def Installed.handed (i : Installed) : Newkeys := ⟨i.keys.1.handed i.iv, i.keys.2.handed i.iv_length⟩

theorem decodes_newkeysFromBlob (i : Installed) (hsize : (putString (keysToBlob i.keys.1 i.iv)).length ≤ SSHBUF_SIZE_MAX) :
    Decodes newkeysFromBlob (putString (keysToBlob i.keys.1 i.iv)) i.handed := by
  rw [length_putString] at hsize
  have hraw : Decodes rawFromBlob (keysToBlob i.keys.1 i.iv) (i.keys.1.handed i.iv) := decodes_rawFromBlob i.keys.2 (by omega)
  refine (decodes_getStr (by unfold Fits; omega)).last ?_
  rw [hraw.whole]
  simp only [dif_pos (i.keys.2.handed i.iv_length)]
  exact Decodes.pure _

theorem decodes_countersFromBlob (c : Counters) : Decodes countersFromBlob (countersToBlob c) c :=
  (decodes_getU32 _).bind ((decodes_getU64 _).bind ((decodes_getU32 _).bind ((decodes_getU64 _).last (Decodes.pure _))))

/-- what is read off the blob of a state with the keys `o` and `i` in use -/
def Ssh.handed (s : Ssh) (o i : Installed) : Handed where
  kex := s.kex.handed
  newkeysOut := o.handed
  newkeysIn := i.handed
  rekeyLimit := s.rekeyLimit
  rekeyInterval := s.rekeyInterval
  pSend := s.pSend
  pRead := s.pRead
  input := s.input
  output := s.output
  interactiveMode := decodeInt (encodeInt s.interactiveMode)
  qosInteractive := decodeInt (encodeInt s.qosInteractive)
  qosOther := decodeInt (encodeInt s.qosOther)

variable {s : Ssh} {o i : Installed}

theorem decodes_handedFromBlob (h : (stateBlob s o i).length ≤ SSHBUF_SIZE_MAX) :
    Decodes handedFromBlob (stateBlob s o i) (s.handed o i) := by
  simp only [stateBlob, List.length_append, length_putU32] at h
  have hin := length_putString s.input
  have hout := length_putString s.output
  refine (decodes_kexFromBlob _ (by omega)).bind ?_
  refine (decodes_newkeysFromBlob o (by omega)).bind ((decodes_newkeysFromBlob i (by omega)).bind ?_)
  refine (decodes_getU64 _).bind ((decodes_getU32 _).bind ?_)
  refine (decodes_countersFromBlob _).bind ((decodes_countersFromBlob _).bind ?_)
  refine (decodes_getStr (by unfold Fits; omega)).bind ((decodes_getStr (by unfold Fits; omega)).bind ?_)
  exact (decodes_getU32 _).bind ((decodes_getU32 _).bind ((decodes_getU32 _).last (Decodes.pure _)))

theorem getState_eq_some {blob : Bytes} (ho : s.keysOut = some o) (hi : s.keysIn = some i)
    (h : getState s = some blob) : blob = stateBlob s o i ∧ (stateBlob s o i).length ≤ SSHBUF_SIZE_MAX := by
  rw [getState, ho, hi] at h
  dsimp only at h
  split at h
  · next hsize => exact ⟨(Option.some.inj h).symm, hsize⟩
  · cases h

/-! ## The state that is restored -/

/-- the state `ssh_packet_set_state` makes of a blob -/
def Ssh.restored (s fresh : Ssh) (now : ℕ) (o i : Installed) : Ssh where
  kex := s.kex.handed
  keysIn := some (i.handed.install fresh.afterAuthentication).enableDelayed
  keysOut := some (o.handed.install fresh.afterAuthentication).enableDelayed
  pRead := s.pRead.renew
  pSend := s.pSend.renew
  hardMaxBlocksIn := hardMaxBlocks i.keys.1.enc.blockSize
  hardMaxBlocksOut := hardMaxBlocks o.keys.1.enc.blockSize
  maxBlocksIn := maxBlocks s.rekeyLimit i.keys.1.enc.blockSize
  maxBlocksOut := maxBlocks s.rekeyLimit o.keys.1.enc.blockSize
  rekeyLimit := s.rekeyLimit
  rekeyInterval := s.rekeyInterval
  rekeyTime := now
  afterAuthentication := true
  rekeying := false
  input := s.input
  output := s.output
  interactiveMode := decodeInt (encodeInt s.interactiveMode)
  qosInteractive := decodeInt (encodeInt s.qosInteractive)
  qosOther := decodeInt (encodeInt s.qosOther)

/-- **Hand-over.** The blob of any state with keys in both directions is accepted, and restores this state. -/
theorem setState_getState {blob : Bytes} (fresh : Ssh) (now : ℕ) (ho : s.keysOut = some o)
    (hi : s.keysIn = some i) (h : getState s = some blob) :
    setState fresh now blob = some (s.restored fresh now o i) := by
  obtain ⟨rfl, hsize⟩ := getState_eq_some ho hi h
  rw [setState, (decodes_handedFromBlob hsize).whole]
  rfl

/-! ## Later traffic -/

/-- the counters and what the accounting of a packet reads -/
structure Accounts where
  pSend : Counters
  pRead : Counters
  blockOut : UInt32
  blockIn : UInt32
  strict : Bool
deriving DecidableEq, Repr

/-- the block size of a direction; 8 without keys -/
def blockSize (i : Option Installed) : UInt32 := (i.map (·.keys.1.enc.blockSize)).getD 8

def Ssh.accounts (s : Ssh) : Accounts :=
  ⟨s.pSend, s.pRead, blockSize s.keysOut, blockSize s.keysIn, s.kex.kexStrict ≠ 0⟩

inductive Traffic where
  /-- a packet of `len` bytes -/
  | sent (len : UInt32)
  | received (len : UInt32)
  /-- `NEWKEYS` in one direction, for keys of the given block size -/
  | newkeys (mode : Mode) (block : UInt32)
deriving DecidableEq, Repr

/-- the accounting of `ssh_packet_send2_wrapped` and `ssh_packet_read_poll2` for one packet -/
def Counters.count (c : Counters) (block len : UInt32) : Counters where
  seqnr := c.seqnr + 1
  packets := c.packets + 1
  blocks := c.blocks + (len / block).toUInt64
  bytes := c.bytes + len.toUInt64

/-- a change of keys; the strict key exchange resets the sequence number as well -/
def Counters.rekey (c : Counters) (strict : Bool) : Counters :=
  if strict then { c.renew with seqnr := 0 } else c.renew

def Accounts.step (a : Accounts) : Traffic → Accounts
  | .sent len => { a with pSend := a.pSend.count a.blockOut len }
  | .received len => { a with pRead := a.pRead.count a.blockIn len }
  | .newkeys .out block => { a with pSend := a.pSend.rekey a.strict, blockOut := block }
  | .newkeys .in block => { a with pRead := a.pRead.rekey a.strict, blockIn := block }

def MAX_PACKETS : UInt32 := 0x80000000

/-- `ssh_packet_check_rekey_blocklimit` under the volumes `maxIn` and `maxOut` -/
def checkRekeyBlocklimit (maxIn maxOut : ℕ) (a : Accounts) (len : UInt32) : Bool :=
  a.pSend.packets > MAX_PACKETS || a.pRead.packets > MAX_PACKETS ||
    (maxOut ≠ 0 && a.pSend.blocks.toNat + ((len + (a.blockOut - 1)) / a.blockOut * a.blockOut).toNat > maxOut) ||
    (maxIn ≠ 0 && a.pRead.blocks.toNat > maxIn)

/-- the names and keys of a direction, with the IV its cipher stands at -/
def Installed.material (i : Installed) : (Bytes × Bytes × Bytes) × Option (Bytes × Bytes) × Bytes :=
  ((i.keys.1.enc.name, i.keys.1.enc.key, i.iv), i.keys.1.mac.map fun m => (m.name, m.key), i.keys.1.comp.name)

/-- `s'` goes on where `s` stood: the same keys and names, the same limits, and under all later traffic the same counters,
so that the limits of `s` are reached at the same packet -/
structure Lossless (s s' : Ssh) : Prop where
  keysOut : s'.keysOut.map Installed.material = s.keysOut.map Installed.material
  keysIn : s'.keysIn.map Installed.material = s.keysIn.map Installed.material
  rekeyLimit : s'.rekeyLimit = s.rekeyLimit
  rekeyInterval : s'.rekeyInterval = s.rekeyInterval
  counters : ∀ traffic : List Traffic,
    (run Accounts.step s'.accounts traffic).pSend = (run Accounts.step s.accounts traffic).pSend ∧
    (run Accounts.step s'.accounts traffic).pRead = (run Accounts.step s.accounts traffic).pRead
  limits : ∀ (traffic : List Traffic) (len : UInt32),
    checkRekeyBlocklimit s.maxBlocksIn s.maxBlocksOut (run Accounts.step s'.accounts traffic) len =
      checkRekeyBlocklimit s.maxBlocksIn s.maxBlocksOut (run Accounts.step s.accounts traffic) len

theorem material_restored (i : Installed) (b : Bool) : (i.handed.install b).enableDelayed.material = i.material := by
  obtain ⟨⟨⟨enc, mac, comp⟩, hk⟩, iv, hiv⟩ := i
  cases mac <;> rfl

theorem renew_eq_self {c : Counters} : c.renew = c ↔ c.packets = 0 ∧ c.blocks = 0 := by
  obtain ⟨seqnr, packets, blocks, bytes⟩ := c
  simp [Counters.renew, eq_comm]

/-- the restored accounts: the counters of the blob, renewed -/
theorem accounts_restored (s fresh : Ssh) (now : ℕ) (ho : s.keysOut = some o) (hi : s.keysIn = some i) :
    (s.restored fresh now o i).accounts = { s.accounts with pSend := s.pSend.renew, pRead := s.pRead.renew } := by
  simp only [Ssh.accounts, ho, hi]
  rfl

/-- **The hand-over loses the counts.** For every state with keys in use in both directions whose blob is written, the
restored state goes on where the state stood, under all later traffic, exactly if no packet and no block has been counted
in either direction since the keys were installed. -/
theorem handover_lossless_iff (s fresh : Ssh) (now : ℕ) (o i : Installed) (blob : Bytes) (ho : s.keysOut = some o)
    (hi : s.keysIn = some i) (h : getState s = some blob) : (∃ s', setState fresh now blob = some s' ∧ Lossless s s') ↔
      (s.pSend.packets = 0 ∧ s.pSend.blocks = 0) ∧ s.pRead.packets = 0 ∧ s.pRead.blocks = 0 := by
  rw [setState_getState fresh now ho hi h, ← renew_eq_self, ← renew_eq_self]
  have haccounts := accounts_restored s fresh now ho hi
  constructor
  · rintro ⟨s', hs', hl⟩
    obtain rfl := Option.some.inj hs'
    have hnow := hl.counters []
    exact hnow
  · rintro ⟨hsend, hread⟩
    have hsame : (s.restored fresh now o i).accounts = s.accounts := by
      rw [haccounts, hsend, hread]
      rfl
    refine ⟨_, rfl, ?_, ?_, rfl, rfl, fun _ => by rw [hsame]; exact ⟨rfl, rfl⟩, fun _ _ => by rw [hsame]⟩
    · rw [ho]
      exact congrArg some (material_restored o _)
    · rw [hi]
      exact congrArg some (material_restored i _)

/-- keys of chacha20-poly1305 -/
def chachaKeys : Newkeys :=
  ⟨{ enc := { name := ascii "chacha20-poly1305@openssh.com", enabled := 1, blockSize := 8, key := List.replicate 64 7, iv := [] },
     mac := Option.none, comp := { type := 0, name := ascii "none", enabled := false } }, by decide⟩

def emptyKex : Kex where
  weNeed := 64
  hostkeyAlg := ascii "ssh-ed25519"
  hostkeyType := 3
  hostkeyNid := 0
  kexType := 9
  kexStrict := 1
  my := []
  peer := []
  clientVersion := ascii "SSH-2.0-client"
  serverVersion := ascii "SSH-2.0-server"
  sessionId := []
  flags := 0
  server := true
  done := true
  newkeysIn := Option.none
  newkeysOut := Option.none
  weNeed_le := by decide
  hostkeyAlg_plain := by decide

/-- a connection with `sent` packets of 64 bytes sent and received under its keys -/
def connection (sent : UInt32) : Ssh where
  kex := emptyKex
  keysIn := some (chachaKeys.install false)
  keysOut := some (chachaKeys.install false)
  pRead := ⟨sent, sent, sent.toUInt64 * 8, sent.toUInt64 * 64⟩
  pSend := ⟨sent, sent, sent.toUInt64 * 8, sent.toUInt64 * 64⟩
  hardMaxBlocksIn := hardMaxBlocks 8
  hardMaxBlocksOut := hardMaxBlocks 8
  maxBlocksIn := hardMaxBlocks 8
  maxBlocksOut := hardMaxBlocks 8
  rekeyLimit := 0
  rekeyInterval := 0
  rekeyTime := 0
  afterAuthentication := false
  rekeying := false
  input := []
  output := []
  interactiveMode := 1
  qosInteractive := -1
  qosOther := -1

def connectionBlob (sent : UInt32) : Bytes :=
  stateBlob (connection sent) (chachaKeys.install false) (chachaKeys.install false)

/-- a connection that has just taken new keys, after twelve packets -/
def rekeyed : Ssh := { connection 12 with pRead := ⟨12, 0, 0, 768⟩, pSend := ⟨12, 0, 0, 768⟩ }

theorem handover_lossless_fresh_keys :
    ∃ s', setState (connection 0) 5 (stateBlob rekeyed (chachaKeys.install false) (chachaKeys.install false)) = some s' ∧
      Lossless rekeyed s' :=
  (handover_lossless_iff rekeyed (connection 0) 5 (chachaKeys.install false) (chachaKeys.install false)
    _ rfl rfl (by decide +kernel)).2 (by decide)

/-- **Twelve packets are forgotten.** The restored state has the sequence number and the bytes, and starts to count packets
and blocks again. -/
theorem handover_forgets_packets : getState (connection 12) = some (connectionBlob 12) ∧
    (setState (connection 0) 5 (connectionBlob 12)).map (·.pSend) = some ⟨12, 0, 0, 768⟩ ∧
    (connection 12).pSend = ⟨12, 12, 96, 768⟩ := by
  have hget : getState (connection 12) = some (connectionBlob 12) := by decide +kernel
  refine ⟨hget, ?_, by decide⟩
  rw [setState_getState (connection 0) 5 rfl rfl hget]
  decide

end OpenSSHServerPN.Packet
