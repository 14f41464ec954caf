/-
Round trip of the packet framing.

A receiver is compared with the sender at the boundaries of packets (`Synced`): the same keys, states and counters. Between
two boundaries the receiver has read some bytes of the next packet, and may have begun it. `Begun b r` relates a receiver `r`
in this state to the receiver `b` that has not begun: the poll of `r` is the poll of `b` (`Begun.poll`), and more input keeps
the relation (`Begun.feed`). So only receivers at a boundary have to be looked at: with a whole packet in the input
(`poll_whole`), or with a part of one (`poll_part`).

Results:
- `open_seal`: in each mode a sealed packet is opened again, its length read first;
- `pollAll_spec`: the polls after a chunk take the whole packets out of the input;
- `framing_round_trip`: every way of cutting the stream into chunks gives the payloads back, in order and with their
  sequence numbers;
- `type_zero_refused`: a message of type 0 is sent and refused.
-/
import OpenSSHServerPN.Packet.Framing

namespace OpenSSHServerPN.PacketFraming

open Wire Sealing Packet List
open PacketSend (SSH2_MSG_NEWKEYS SSH2_MSG_USERAUTH_SUCCESS)

variable {σ κ : Type}

/-! ## Padding -/

variable {padlen : ℕ} {payload : Bytes} {m : Message}

/-- the padding fills the last block, and its length fits into a byte -/
theorem paddingLength_spec {block len extraPad : ℕ} (hb : block = 8 ∨ block = 16)
    (h : paddingLength block len extraPad = some padlen) : 4 ≤ padlen ∧ padlen < 256 ∧ block ∣ len + padlen := by
  unfold paddingLength at h
  dsimp only at h
  -- the padding without `extra_pad`
  obtain ⟨p, hp, h4, h24, hdvd⟩ : ∃ p, (if block - len % block < 4 then block - len % block + block
      else block - len % block) = p ∧ 4 ≤ p ∧ p ≤ 24 ∧ block ∣ len + p := by
    refine ⟨_, rfl, ?_, ?_, ?_⟩
    all_goals obtain rfl | rfl := hb <;> split <;> omega
  rw [hp] at h
  split at h
  · cases h
    exact ⟨h4, by omega, hdvd⟩
  next he =>
  split at h
  · cases h
  next hlt =>
  generalize hx : roundup extraPad block % 256 = extra at h hlt
  have hxb : block ∣ extra := by
    rw [← hx]
    unfold roundup at *
    obtain rfl | rfl := hb <;> omega
  split at h
  · cases h
  split at h
  · cases h
  next hov =>
  cases h
  have hpos : 0 < extra := by omega
  have hmod : (len + p) % extra < extra := Nat.mod_lt _ hpos
  have hsum : (p + (extra - (len + p) % extra)) % 256 = p + (extra - (len + p) % extra) := by omega
  have hall : extra ∣ len + (p + (extra - (len + p) % extra)) := by
    have hdm := Nat.div_add_mod (len + p) extra
    refine ⟨(len + p) / extra + 1, ?_⟩
    rw [Nat.mul_add]
    omega
  rw [hsum]
  exact ⟨by omega, by omega, hxb.trans hall⟩

theorem blockSize_ok (a : Option (Active σ κ)) : blockSize a = 8 ∨ blockSize a = 16 := by
  cases a with
  | none => exact .inl rfl
  | some a => exact a.keys.block_ok

/-- keys in use, from their parts -/
abbrev inUse {block : ℕ} (hb : block = 8 ∨ block = 16) (suite : Suite σ block) (start : σ) (delayed : Bool) (context : σ)
    (comp : Option κ) : Option (Active σ κ) :=
  some ⟨⟨block, hb, suite, start, delayed⟩, context, comp⟩

/-- no keys, a code over the plain or the encrypted text, or an authenticated cipher -/
theorem modes {P : Option (Active σ κ) → Prop} (none : P none)
    (mac : ∀ b hb cipher mac start delayed context comp,
      P (@inUse σ κ b hb (.mac cipher mac false) start delayed context comp))
    (etm : ∀ b hb cipher mac start delayed context comp,
      P (@inUse σ κ b hb (.mac cipher mac true) start delayed context comp))
    (aead : ∀ b hb cipher start delayed context comp, P (@inUse σ κ b hb (.aead cipher) start delayed context comp))
    (a : Option (Active σ κ)) : P a := by
  obtain _ | ⟨⟨b, hb, (⟨c, m, _ | _⟩ | c), start, delayed⟩, context, comp⟩ := a
  · exact none
  · exact mac b hb c m start delayed context comp
  · exact etm b hb c m start delayed context comp
  · exact aead b hb c start delayed context comp

theorem aadlen_cases (a : Option (Active σ κ)) : aadlen a = 0 ∨ aadlen a = 4 := by
  induction a using modes with
  | none | mac => exact .inl rfl
  | etm | aead => exact .inr rfl

/-! ## Packets -/

/-- a packet with the length field `n` -/
structure IsPacket (a : Option (Active σ κ)) (n : ℕ) (packet : Bytes) : Prop where
  length : packet.length = n + 4
  field : ofBe (packet.take 4) = n
  low : 5 ≤ n
  high : n ≤ PACKET_MAX_SIZE
  blocks : blockSize a ∣ packet.length - aadlen a

/-- the number of encrypted bytes after the length has been read -/
def encLen (a : Option (Active σ κ)) (n : ℕ) : ℕ := if aadlen a = 0 then n + 4 - blockSize a else n

/-- the header of a sealed packet has been read right -/
structure HeaderOk (a : Option (Active σ κ)) (seq : UInt32) (n : ℕ) (packet : Bytes) (h : HeaderRead σ κ) : Prop where
  packlen : h.packlen = n
  blockSize : blockSize h.active = blockSize a
  aadlen : aadlen h.active = aadlen a
  taglen : taglen h.active = taglen a
  length : (sealPacket a seq packet).2.length = h.consumed + (PacketFraming.aadlen a + encLen a n + PacketFraming.taglen a)
  opened : openRest h.active seq h.incoming (encLen a n) ((sealPacket a seq packet).2.drop h.consumed) =
    some ((sealPacket a seq packet).1, packet)

/-- a sealed packet is opened again, its header read first -/
def Opens (a : Option (Active σ κ)) (seq : UInt32) (n : ℕ) (packet : Bytes) : Prop :=
  headerLen a ≤ (sealPacket a seq packet).2.length ∧
    HeaderOk a seq n packet (readHeader a seq ((sealPacket a seq packet).2.take (headerLen a)))

variable {a : Option (Active σ κ)} {n : ℕ} {packet : Bytes}

theorem IsPacket.block_le (hp : IsPacket a n packet) (ha : aadlen a = 0) : blockSize a ≤ packet.length := by
  have hdvd := hp.blocks
  rw [ha] at hdvd
  exact Nat.le_of_dvd (by rw [hp.length]; omega) hdvd

variable (seq : UInt32)

/-- without keys nothing is encrypted: the first eight bytes are read, and then the rest -/
theorem open_seal_none (hp : IsPacket (none : Option (Active σ κ)) n packet) : Opens (none : Option (Active σ κ)) seq n packet := by
  have hl := hp.length
  have h8 : 8 ≤ packet.length := hp.block_le rfl
  refine ⟨h8, ?_, rfl, rfl, rfl, ?_, ?_⟩
  · show ofBe ((packet.take 8).take 4) = n
    rw [take_take]
    exact hp.field
  · show packet.length = (packet.take 8).length + (0 + (n + 4 - 8) + 0)
    rw [length_take]
    omega
  · show some (none, packet.take 8 ++ packet.drop (packet.take 8).length) = some (none, packet)
    rw [length_take, Nat.min_eq_left h8, take_append_drop]

section Modes

variable {block : ℕ} {n : ℕ} {packet : Bytes}

variable {hb : block = 8 ∨ block = 16} {start context : σ} {delayed : Bool} {comp : Option κ} {cipher : BlockMode σ block}

/-- with a code over the plain text the first block is decrypted before the rest -/
theorem open_seal_mac {mac : Mac}
    (hp : IsPacket (inUse hb (.mac cipher mac false) start delayed context comp) n packet) :
    Opens (inUse hb (.mac cipher mac false) start delayed context comp) seq n packet := by
  show block ≤ ((cipher.enc context packet).2 ++ mac.tag seq packet).length ∧
    HeaderOk _ seq n packet (readHeader _ seq (((cipher.enc context packet).2 ++ mac.tag seq packet).take block))
  have hle : block ≤ packet.length := hp.block_le rfl
  have hdvd : block ∣ packet.length := hp.blocks
  have hl := hp.length
  have hfield := hp.field
  obtain ⟨p, q, rfl, hpl⟩ : ∃ p q, packet = p ++ q ∧ p.length = block :=
    ⟨packet.take block, packet.drop block, (take_append_drop _ _).symm, by simpa using hle⟩
  have hpd : block ∣ p.length := hpl ▸ dvd_rfl
  have hqd : block ∣ q.length := by
    rw [length_append] at hdvd
    exact (Nat.dvd_add_right hpd).1 hdvd
  rw [length_append, hpl] at hl
  obtain ⟨hd₁, hd₂⟩ := cipher.dec_split context hpd hqd
  generalize hE : cipher.enc context (p ++ q) = E at hd₁ hd₂ ⊢
  have hEl : E.2.length = block + q.length := by rw [← hE, cipher.length_enc, length_append, hpl]
  rw [hpl] at hd₁ hd₂
  -- the first block and the rest of the encrypted bytes
  have htake : (E.2 ++ mac.tag seq (p ++ q)).take block = E.2.take block := take_append_of_le_length (by omega)
  have hdrop : (E.2 ++ mac.tag seq (p ++ q)).drop block = E.2.drop block ++ mac.tag seq (p ++ q) :=
    drop_append_of_le_length (by omega)
  have htl : (E.2.take block).length = block := by
    rw [length_take]
    omega
  have hrl : (E.2.drop block).length = n + 4 - block := by
    rw [length_drop, hEl]
    omega
  have h4 : (p ++ q).take 4 = p.take 4 := take_append_of_le_length (by omega)
  refine ⟨by rw [length_append]; omega, ?_⟩
  rw [htake]
  unfold readHeader
  dsimp only
  rw [hd₁, htl]
  refine ⟨?_, rfl, rfl, rfl, ?_, ?_⟩
  · show ofBe (p.take 4) = n
    rw [← h4]
    exact hfield
  · show ((cipher.enc context (p ++ q)).2 ++ mac.tag seq (p ++ q)).length = block + (0 + (n + 4 - block) + mac.len)
    rw [length_append, hE, hEl, mac.length_tag]
    omega
  show openRest _ seq p (n + 4 - block) (((cipher.enc context (p ++ q)).2 ++ mac.tag seq (p ++ q)).drop block) =
    some (some ⟨_, (cipher.enc context (p ++ q)).1, comp⟩, p ++ q)
  rw [hE, hdrop]
  unfold openRest
  dsimp only
  rw [← hrl, take_left, drop_left, hd₂, if_pos rfl]

theorem IsPacket.split (hp : IsPacket a n packet) :
    ∃ p q, packet = p ++ q ∧ p.length = 4 ∧ q.length = n ∧ ofBe p = n := by
  have hl := hp.length
  refine ⟨packet.take 4, packet.drop 4, (take_append_drop _ _).symm, ?_, ?_, hp.field⟩
  · rw [length_take]
    omega
  · rw [length_drop]
    omega

/-- modes in which the length is read on its own: `H` stands for it, and stays in the input -/
theorem opens_of_clear {a' : Option (Active σ κ)} {H body : Bytes} (haad : aadlen a = 4)
    (hout : sealPacket a seq packet = (a', H ++ body)) (hH : H.length = 4) (hlen : body.length = n + taglen a)
    (hread : readHeader a seq H = ⟨a, 0, [], n⟩) (hopen : openRest a seq [] n (H ++ body) = some (a', packet)) :
    Opens a seq n packet := by
  have henc : encLen a n = n := if_neg (by omega)
  have hhead : headerLen a = H.length := by rw [headerLen, if_neg (by omega), hH]
  unfold Opens
  rw [hout, hhead, take_left, hread]
  refine ⟨by simp, rfl, rfl, rfl, rfl, ?_, ?_⟩
  · show _ = 0 + _
    rw [hout, length_append]
    omega
  · rw [hout, henc]
    exact hopen

/-- with a code over the encrypted text the length is not encrypted -/
theorem open_seal_etm {mac : Mac}
    (hp : IsPacket (inUse hb (.mac cipher mac true) start delayed context comp) n packet) :
    Opens (inUse hb (.mac cipher mac true) start delayed context comp) seq n packet := by
  obtain ⟨p, q, rfl, hpl, hql, hfield⟩ := hp.split
  have hdvd : block ∣ q.length := by
    have := hp.blocks
    rwa [length_append, hpl, show aadlen (inUse hb (.mac cipher mac true) start delayed context comp) = 4 from rfl,
      Nat.add_sub_cancel_left] at this
  obtain ⟨E, hE, hd, hel⟩ : ∃ E, cipher.enc context q = E ∧ cipher.dec context E.2 = (E.1, q) ∧ E.2.length = n :=
    ⟨_, rfl, cipher.dec_enc context q hdvd, by rw [cipher.length_enc, hql]⟩
  have hout : sealPacket (inUse hb (.mac cipher mac true) start delayed context comp) seq (p ++ q) =
      (inUse hb (.mac cipher mac true) start delayed E.1 comp, p ++ (E.2 ++ mac.tag seq (p ++ E.2))) := by
    unfold sealPacket
    dsimp only
    rw [← hpl, drop_left, take_left, hE, append_assoc]
  have hwl : (p ++ E.2).length = 4 + n := by rw [length_append, hpl, hel]
  refine opens_of_clear seq rfl hout hpl ?_ ?_ ?_
  · rw [length_append, hel, mac.length_tag]
    rfl
  · show HeaderRead.mk _ 0 [] (ofBe p) = _
    rw [hfield]
  · unfold openRest
    dsimp only
    rw [← append_assoc, ← hwl, take_left, drop_left, if_pos rfl, append_assoc, ← hpl, take_left, drop_left, hd]
    rfl

/-- an authenticated cipher reads the length on its own -/
theorem open_seal_aead {cipher : Aead σ} (hp : IsPacket (inUse hb (.aead cipher) start delayed context comp) n packet) :
    Opens (inUse hb (.aead cipher) start delayed context comp) seq n packet := by
  obtain ⟨p, q, rfl, hpl, hql, hfield⟩ := hp.split
  obtain ⟨H, hH, hHl, hHd⟩ : ∃ H, cipher.header context seq p = H ∧ H.length = 4 ∧ cipher.unheader context seq H = p :=
    ⟨_, rfl, by rw [cipher.length_header, hpl], cipher.unheader_header context seq p⟩
  obtain ⟨E, hE, hd, hel, htl⟩ : ∃ E, cipher.enc context seq p q = E ∧
      cipher.dec context seq H E.2.1 E.2.2 = some (E.1, q) ∧ E.2.1.length = n ∧ E.2.2.length = cipher.tagLen :=
    ⟨_, rfl, hH ▸ cipher.dec_enc context seq p q, by rw [cipher.length_enc, hql], cipher.length_tag context seq p q⟩
  have hout : sealPacket (inUse hb (.aead cipher) start delayed context comp) seq (p ++ q) =
      (inUse hb (.aead cipher) start delayed E.1 comp, H ++ (E.2.1 ++ E.2.2)) := by
    unfold sealPacket
    dsimp only
    rw [← hpl, drop_left, take_left, hE, hH]
  have hwl : (H ++ E.2.1).length = 4 + n := by rw [length_append, hHl, hel]
  refine opens_of_clear seq rfl hout hHl ?_ ?_ ?_
  · rw [length_append, hel, htl]
    rfl
  · show HeaderRead.mk _ 0 [] (ofBe (cipher.unheader context seq H)) = _
    rw [hHd, hfield]
  · have htag : (H ++ (E.2.1 ++ E.2.2)).drop (4 + n) = E.2.2 := by rw [← append_assoc, ← hwl, drop_left]
    unfold openRest
    dsimp only
    rw [htag, ← hHl, take_left, drop_left, ← hel, take_left, hd, hHd]
    rfl

end Modes

/-- **A sealed packet is opened again**, in every mode. -/
theorem open_seal (hp : IsPacket a n packet) : Opens a seq n packet := by
  induction a using modes with
  | none => exact open_seal_none seq hp
  | mac => exact open_seal_mac seq hp
  | etm => exact open_seal_etm seq hp
  | aead => exact open_seal_aead seq hp

/-! ## What is sent -/

theorem compress_same (codec : Codec κ) (a : Option (Active σ κ)) (p : Bytes) :
    blockSize (compress codec a p).1 = blockSize a ∧ aadlen (compress codec a p).1 = aadlen a := by
  obtain _ | ⟨⟨_, _, suite, _, _⟩, _, comp⟩ := a
  · exact ⟨rfl, rfl⟩
  · cases suite <;> cases comp <;> exact ⟨rfl, rfl⟩

/-- a compression changes neither the sealed bytes nor the state of the cipher, and is undone after the packet is opened -/
theorem seal_compress (codec : Codec κ) (a : Option (Active σ κ)) (p : Bytes) (seq : UInt32) (packet : Bytes) :
    (sealPacket (compress codec a p).1 seq packet).2 = (sealPacket a seq packet).2 ∧
      blockSize (sealPacket (compress codec a p).1 seq packet).1 = blockSize (sealPacket a seq packet).1 ∧
      uncompress codec (sealPacket a seq packet).1 (compress codec a p).2 =
        some ((sealPacket (compress codec a p).1 seq packet).1, p) := by
  induction a using modes with
  | none => exact ⟨rfl, rfl, rfl⟩
  | mac _ _ _ _ _ _ _ comp | etm _ _ _ _ _ _ _ comp | aead _ _ _ _ _ _ comp =>
    cases comp with
    | none => exact ⟨rfl, rfl, rfl⟩
    | some k => exact ⟨rfl, rfl, by simp only [sealPacket, compress, uncompress, codec.unpack_pack k p, Option.map_some]⟩

theorem length_packetBytes (payload : Bytes) (padlen : ℕ) (padding : ℕ → UInt8) :
    (packetBytes payload padlen padding).length = 1 + payload.length + padlen + 4 := by
  simp [packetBytes]
  omega

variable {padding : ℕ → UInt8}

/-- the packets that are sealed -/
theorem isPacket_packetBytes {extraPad : ℕ}
    (h : paddingLength (blockSize a) (5 + payload.length - aadlen a) extraPad = some padlen)
    (hmax : 1 + payload.length + padlen ≤ PACKET_MAX_SIZE) :
    IsPacket a (1 + payload.length + padlen) (packetBytes payload padlen padding) := by
  obtain ⟨h4, -, hdvd⟩ := paddingLength_spec (blockSize_ok a) h
  have hlt : 1 + payload.length + padlen < 256 ^ 4 := lt_of_le_of_lt hmax (by norm_num [PACKET_MAX_SIZE])
  refine ⟨length_packetBytes payload padlen padding, ?_, by omega, hmax, ?_⟩
  · rw [packetBytes, take_append_of_le_length (by simp), take_of_length_le (by simp), ofBe_be hlt]
  · rw [length_packetBytes]
    have haad : aadlen a ≤ 4 := by
      obtain h | h := aadlen_cases a <;> omega
    rwa [show 1 + payload.length + padlen + 4 - aadlen a = 5 + payload.length - aadlen a + padlen by omega]

/-- what a message that is sent does -/
structure Sent (codec : Codec κ) (s : Sender σ κ) (m : Message) (s' : Sender σ κ) (payload : Bytes) (padlen : ℕ)
    (packet : Bytes) : Prop where
  payload_eq : payload = (compress codec s.dir.active m.payload).2
  pad : paddingLength (blockSize s.dir.active) (5 + payload.length - aadlen s.dir.active) m.extraPad.toNat = some padlen
  packet_eq : ∃ padding, packet = packetBytes payload padlen padding
  seqnr : ¬(s.dir.counters.seqnr + 1 = 0 ∧ s.initial = true)
  packets : s.dir.counters.packets + 1 ≠ 0
  dir : afterPacket codec s.server
    (Direction.count { s.dir with
      active := (sealPacket (compress codec s.dir.active m.payload).1 s.dir.counters.seqnr packet).1 } packet.length)
      m.type = some s'.dir
  server : s'.server = s.server
  initial : s'.initial = s.initial
  output : s'.output = s.output ++ (sealPacket s.dir.active s.dir.counters.seqnr packet).2
  sent : s'.sent = s.sent ++ [(m.payload, s.dir.counters.seqnr)]
  lengths : s'.lengths = s.lengths ++ [packet.length - 4]

variable {codec : Codec κ} {s s' : Sender σ κ}

theorem send2Wrapped_sent (h : send2Wrapped codec s m = .ok s') :
    ∃ payload padlen packet, Sent codec s m s' payload padlen packet := by
  obtain ⟨hb, ha⟩ := compress_same codec s.dir.active m.payload
  unfold send2Wrapped at h
  dsimp only at h
  rw [hb, ha] at h
  split at h
  · cases h
  next padlen hpad =>
  unfold countSent at h
  dsimp only at h
  split at h
  · cases h
  next hseq =>
  split at h
  · cases h
  next hpk =>
  split at h
  · cases h
  · next d hd =>
    cases h
    exact ⟨_, padlen, _, rfl, hpad, ⟨_, rfl⟩, hseq, hpk, hd, rfl, rfl,
      congrArg (s.output ++ ·) (seal_compress codec _ _ _ _).1, rfl, rfl⟩

/-! ## Receivers between packets -/

/-- `r` is the receiver `b`, or `b` after it has begun the next packet -/
def Begun (b r : Receiver σ κ) : Prop := r = b ∨ beginPacket b = .ok (some r)

/-- the bytes that leave the input are in it, and go to `incoming` -/
theorem readHeader_consumed (a : Option (Active σ κ)) (seq : UInt32) (bytes : Bytes) :
    (readHeader a seq bytes).consumed ≤ bytes.length ∧
      (readHeader a seq bytes).consumed ≤ (readHeader a seq bytes).incoming.length := by
  induction a using modes with
  | none => exact ⟨le_rfl, le_rfl⟩
  | mac _ _ cipher _ _ _ context => exact ⟨le_rfl, (cipher.length_dec context bytes).ge⟩
  | etm | aead => exact ⟨Nat.zero_le _, Nat.zero_le _⟩

/-- the receiver that has begun the packet at the front of its input -/
def begin (b : Receiver σ κ) (h : HeaderRead σ κ) : Receiver σ κ :=
  { b with
    dir := { b.dir with active := h.active }
    input := b.input.drop h.consumed
    incoming := h.incoming
    packlen := h.packlen }

variable {b r : Receiver σ κ}

theorem beginPacket_cases (h0 : b.packlen = 0) (h : beginPacket b = .ok (some r)) :
    headerLen b.dir.active ≤ b.input.length ∧
      r = begin b (readHeader b.dir.active b.dir.counters.seqnr (b.input.take (headerLen b.dir.active))) ∧
      5 ≤ r.packlen ∧ r.packlen ≤ PACKET_MAX_SIZE := by
  unfold beginPacket at h
  rw [if_neg (not_not.2 h0)] at h
  split at h
  · cases h
  dsimp only at h
  split at h
  · cases h
  · next hr =>
    cases h
    exact ⟨by omega, rfl, Nat.le_of_not_lt fun h => hr (.inl h), Nat.le_of_not_lt fun h => hr (.inr h)⟩

variable {h : HeaderRead σ κ}

theorem beginPacket_eq (h0 : b.packlen = 0) (hlen : headerLen b.dir.active ≤ b.input.length)
    (hh : readHeader b.dir.active b.dir.counters.seqnr (b.input.take (headerLen b.dir.active)) = h)
    (hlow : 5 ≤ h.packlen) (hhigh : h.packlen ≤ PACKET_MAX_SIZE) : beginPacket b = .ok (some (begin b h)) := by
  unfold beginPacket
  rw [if_neg (not_not.2 h0), if_neg (not_lt.2 hlen), hh]
  exact if_neg (by omega)

variable {env : Env κ}

theorem Begun.poll (h0 : b.packlen = 0) (h : Begun b r) : readPoll2 env r = readPoll2 env b := by
  obtain rfl | h := h
  · rfl
  · obtain ⟨-, -, hlow, -⟩ := beginPacket_cases h0 h
    have hr : beginPacket r = .ok (some r) := if_pos (by omega)
    rw [readPoll2, readPoll2, h, hr]

theorem Begun.feed (h0 : b.packlen = 0) (h : Begun b r) (chunk : Bytes) :
    Begun (processIncoming b chunk) (processIncoming r chunk) := by
  obtain rfl | h := h
  · exact .inl rfl
  right
  obtain ⟨hlen, rfl, hlow, hhigh⟩ := beginPacket_cases h0 h
  have htake : (b.input ++ chunk).take (headerLen b.dir.active) = b.input.take (headerLen b.dir.active) :=
    take_append_of_le_length hlen
  have hc := (readHeader_consumed b.dir.active b.dir.counters.seqnr (b.input.take (headerLen b.dir.active))).1.trans
    (length_take_le' _ _)
  have hb := beginPacket_eq (b := processIncoming b chunk) h0 (by simp [processIncoming]; omega) (congrArg _ htake) hlow hhigh
  rw [hb]
  unfold begin processIncoming
  rw [drop_append_of_le_length hc]

/-! ## Polls -/

theorem encLen_dvd (hp : IsPacket a n packet) : encLen a n % blockSize a = 0 := by
  have hdvd := hp.blocks
  have hl := hp.length
  unfold encLen
  split
  · next ha =>
    rw [ha, hl] at hdvd
    exact Nat.mod_eq_zero_of_dvd (Nat.dvd_sub hdvd dvd_rfl)
  · next ha =>
    have h4 : aadlen a = 4 := (aadlen_cases a).resolve_left ha
    rw [h4, hl] at hdvd
    exact Nat.mod_eq_zero_of_dvd hdvd

/-- what a receiver that has begun a packet waits for -/
theorem begin_sizes {seq : UInt32}
    (hp : IsPacket b.dir.active n packet) (hh : HeaderOk b.dir.active seq n packet h) :
    need (begin b h) = encLen b.dir.active n ∧ need (begin b h) % blockSize (begin b h).dir.active = 0 ∧
      aadlen (begin b h).dir.active + need (begin b h) + taglen (begin b h).dir.active =
        aadlen b.dir.active + encLen b.dir.active n + taglen b.dir.active := by
  have hneed : need (begin b h) = encLen b.dir.active n := by
    show (if aadlen h.active = 0 then (2 ^ 32 + 4 + h.packlen - blockSize h.active) % 2 ^ 32 else h.packlen) = _
    rw [hh.aadlen, hh.packlen, hh.blockSize]
    unfold encLen
    split
    · next ha =>
      have hle := hp.block_le ha
      have hl := hp.length
      have hmax : n ≤ 256 * 1024 := hp.high
      omega
    · rfl
  rw [hneed]
  refine ⟨rfl, ?_, ?_⟩
  · show encLen b.dir.active n % blockSize h.active = 0
    rw [hh.blockSize]
    exact encLen_dvd hp
  · show aadlen h.active + encLen b.dir.active n + taglen h.active = _
    rw [hh.aadlen, hh.taglen]

theorem poll_whole (env : Env κ) {rest : Bytes} (h0 : b.packlen = 0) (hp : IsPacket b.dir.active n packet)
    (hin : b.input = (sealPacket b.dir.active b.dir.counters.seqnr packet).2 ++ rest) : readPoll2 env b = countRead env
      { b with
        dir := { b.dir with active := (sealPacket b.dir.active b.dir.counters.seqnr packet).1 }
        input := rest
        incoming := packet
        packlen := n } := by
  obtain ⟨hle, hh⟩ := open_seal b.dir.counters.seqnr hp
  obtain ⟨hneed, hmod, htotal⟩ := begin_sizes hp hh
  have hlen := hh.length
  have hopen := hh.opened
  generalize hs : sealPacket b.dir.active b.dir.counters.seqnr packet = e at *
  generalize hr : readHeader b.dir.active b.dir.counters.seqnr (e.2.take (headerLen b.dir.active)) = h at *
  have hbegin : beginPacket b = .ok (some (begin b h)) := by
    refine beginPacket_eq h0 (by rw [hin, length_append]; omega) ?_ (hh.packlen ▸ hp.low) (hh.packlen ▸ hp.high)
    rw [hin, take_append_of_le_length hle, hr]
  have hinput : (begin b h).input = e.2.drop h.consumed ++ rest := by
    show b.input.drop h.consumed = _
    rw [hin, drop_append_of_le_length (by omega)]
  have hrest : (e.2.drop h.consumed).length = aadlen b.dir.active + encLen b.dir.active n + taglen b.dir.active := by
    rw [length_drop, hlen, Nat.add_sub_cancel_left]
  rw [readPoll2, hbegin]
  show endPacket env (begin b h) = _
  unfold endPacket
  dsimp only
  rw [if_neg (not_not.2 hmod), htotal, ← hrest, hinput, if_neg (by rw [length_append]; omega), take_left, drop_left, hneed]
  rw [show openRest (begin b h).dir.active (begin b h).dir.counters.seqnr (begin b h).incoming _ _ = _ from hopen]
  show countRead env { begin b h with dir := _, input := rest, incoming := packet } = _
  unfold begin
  rw [hh.packlen]

theorem poll_part (env : Env κ) (h0 : b.packlen = 0) (hp : IsPacket b.dir.active n packet)
    (hin : b.input <+: (sealPacket b.dir.active b.dir.counters.seqnr packet).2)
    (hlt : b.input.length < (sealPacket b.dir.active b.dir.counters.seqnr packet).2.length) :
    ∃ r, readPoll2 env b = .ok (r, none) ∧ Begun b r := by
  obtain ⟨hle, hh⟩ := open_seal b.dir.counters.seqnr hp
  have hlen := hh.length
  generalize hs : sealPacket b.dir.active b.dir.counters.seqnr packet = e at *
  by_cases hshort : b.input.length < headerLen b.dir.active
  · have hbegin : beginPacket b = .ok none := by
      unfold beginPacket
      rw [if_neg (not_not.2 h0), if_pos hshort]
    exact ⟨b, by rw [readPoll2, hbegin], .inl rfl⟩
  · have htake : b.input.take (headerLen b.dir.active) = e.2.take (headerLen b.dir.active) := by
      obtain ⟨x, hx⟩ := hin
      rw [← hx, take_append_of_le_length (by omega)]
    rw [← htake] at hh hlen
    have hc := (readHeader_consumed b.dir.active b.dir.counters.seqnr (b.input.take (headerLen b.dir.active))).1
    rw [length_take] at hc
    generalize hr : readHeader b.dir.active b.dir.counters.seqnr (b.input.take (headerLen b.dir.active)) = h at *
    have hbegin : beginPacket b = .ok (some (begin b h)) :=
      beginPacket_eq h0 (by omega) hr (hh.packlen ▸ hp.low) (hh.packlen ▸ hp.high)
    refine ⟨begin b h, ?_, .inr hbegin⟩
    obtain ⟨-, hmod, htotal⟩ := begin_sizes hp hh
    have hinput : (begin b h).input.length < aadlen b.dir.active + encLen b.dir.active n + taglen b.dir.active := by
      show (b.input.drop h.consumed).length < _
      rw [length_drop]
      omega
    rw [readPoll2, hbegin]
    show endPacket env (begin b h) = _
    unfold endPacket
    dsimp only
    rw [if_neg (not_not.2 hmod), htotal, if_pos hinput]

/-! ## Sender and receiver -/

/-- the receiver is where the sender is -/
structure Synced (s : Sender σ κ) (b : Receiver σ κ) : Prop where
  dir : b.dir = s.dir
  server : b.server = !s.server
  packlen : b.packlen = 0
  got : b.got = s.sent
  /-- until the first `NEWKEYS` the two counters agree, so the first of them does not wrap alone -/
  initial : b.initial = true → b.dir.counters.seqnr = b.dir.counters.packets

theorem packetBytes_payload (payload : Bytes) (padding : ℕ → UInt8) (hpad : padlen < 256) :
    ((packetBytes payload padlen padding).getD 4 0).toNat = padlen ∧
      ((packetBytes payload padlen padding).drop 5).length = payload.length + padlen ∧
      ((packetBytes payload padlen padding).drop 5).take payload.length = payload := by
  have hdrop : (packetBytes payload padlen padding).drop 5 = payload ++ (range padlen).map padding := by
    unfold packetBytes
    rw [drop_append]
    simp [drop_eq_nil_of_le]
  refine ⟨?_, ?_, ?_⟩
  · show (UInt8.ofNat padlen).toNat = padlen
    rw [UInt8.toNat_ofNat', Nat.mod_eq_of_lt hpad]
  · rw [hdrop]
    simp
  · rw [hdrop, take_left]

/-- a direction after a packet, on the side of the receiver -/
def afterRead (codec : Codec κ) (server : Bool) (d : Direction σ κ) (type : UInt8) : Direction σ κ :=
  (if type = SSH2_MSG_USERAUTH_SUCCESS ∧ !server then d.enableDelayedCompress codec else d).resetSeqnr type

theorem takePayload_sent {seq : UInt32}
    (active : Option (Active σ κ)) (h4 : 4 ≤ padlen) (hpad : padlen < 256)
    (hin : r.incoming = packetBytes payload padlen padding)
    (hun : uncompress env.codec r.dir.active payload = some (active, m.payload)) (htype : m.type ≠ 0)
    (hcheck : env.checkRekey (r.got ++ [(m.payload, seq)]) = true) : takePayload env r seq (r.incoming.getD 4 0).toNat =
      .ok ({ r with
        dir := afterRead env.codec r.server { r.dir with active := active } m.type
        packlen := 0
        incoming := m.body
        got := r.got ++ [(m.payload, seq)] }, some m.type) := by
  obtain ⟨hlen, hrest, htake⟩ := packetBytes_payload payload padding hpad
  rw [hin, hlen]
  unfold takePayload
  rw [if_neg (by omega), hin, hrest, if_neg (by omega), Nat.add_sub_cancel, htake, hun]
  show (if m.type = 0 then _ else _) = _
  rw [if_neg htype]
  exact if_pos hcheck

/-- both sides go on alike after a packet: the receiver at once, or with the handler of `NEWKEYS` -/
theorem afterRead_eq {server : Bool} {d d' : Direction σ κ} {type : UInt8}
    (h : afterPacket codec server d type = some d') :
    if type = SSH2_MSG_NEWKEYS then (afterRead codec (!server) d type).setNewkeys codec = some d'
    else afterRead codec (!server) d type = d' ∧ d'.counters = d.counters := by
  unfold afterPacket at h
  unfold afterRead
  rw [Bool.not_not]
  split
  · next hn =>
    rw [if_pos hn] at h
    rwa [if_neg fun hc => absurd (hn.symm.trans hc.1) (by decide)]
  next hn =>
  rw [if_neg hn] at h
  -- the sequence number is reset with `NEWKEYS` alone
  have hreset (d : Direction σ κ) : d.resetSeqnr type = d := if_neg fun hc => hn hc.1
  rw [hreset]
  split at h
  · next hs =>
    cases h
    rw [if_pos hs]
    exact ⟨rfl, rfl⟩
  · next hs =>
    cases h
    rw [if_neg hs]
    exact ⟨rfl, rfl⟩

theorem headerLen_pos (a : Option (Active σ κ)) : 0 < headerLen a := by
  unfold headerLen
  obtain h | h := blockSize_ok a
  · split <;> omega
  · split <;> omega

/-- every message that is sent adds to the output -/
theorem Sent.output_pos (hs : Sent codec s m s' payload padlen packet) (hmax : packet.length - 4 ≤ PACKET_MAX_SIZE) :
    IsPacket s.dir.active (1 + payload.length + padlen) packet ∧
      0 < (sealPacket s.dir.active s.dir.counters.seqnr packet).2.length := by
  obtain ⟨padding, hpacket⟩ := hs.packet_eq
  have hp : IsPacket s.dir.active (1 + payload.length + padlen) packet := by
    rw [hpacket, length_packetBytes] at hmax
    rw [hpacket]
    exact isPacket_packetBytes hs.pad (by omega)
  exact ⟨hp, lt_of_lt_of_le (headerLen_pos _) (open_seal _ hp).1⟩

/-- **One packet.** The receiver polls the message out of its input, and is where the sender is after it. -/
theorem poll_sent {rest : Bytes} (hs : Sent env.codec s m s' payload padlen packet) (hb : Synced s b) (htype : m.type ≠ 0)
    (hmax : packet.length - 4 ≤ PACKET_MAX_SIZE) (hcheck : env.checkRekey s'.sent = true)
    (hin : b.input = (sealPacket s.dir.active s.dir.counters.seqnr packet).2 ++ rest) :
    ∃ r b', readPoll2 env b = .ok (r, some m.type) ∧
      (if m.type = SSH2_MSG_NEWKEYS then kexInputNewkeys env r = .ok b' else b' = r) ∧ Synced s' b' ∧ b'.input = rest := by
  obtain ⟨h4, h256, -⟩ := paddingLength_spec (blockSize_ok _) hs.pad
  obtain ⟨padding, hpacket⟩ := hs.packet_eq
  have hlen : packet.length = 1 + payload.length + padlen + 4 := by rw [hpacket, length_packetBytes]
  obtain ⟨hp, -⟩ := hs.output_pos hmax
  obtain ⟨-, hblock, hun⟩ := seal_compress env.codec s.dir.active m.payload s.dir.counters.seqnr packet
  have hpoll := poll_whole env hb.packlen (hb.dir ▸ hp) (by rw [hb.dir]; exact hin)
  rw [hb.dir] at hpoll
  -- the counters of the receiver do not wrap
  have hwrap : ¬(s.dir.counters.seqnr + 1 = 0 ∧ b.initial = true) := by
    rintro ⟨hz, hi⟩
    have heq := hb.initial hi
    rw [hb.dir] at heq
    exact hs.packets (heq ▸ hz)
  unfold countRead at hpoll
  rw [if_neg hwrap, if_neg hs.packets] at hpoll
  have hafter := afterRead_eq hs.dir
  generalize (sealPacket (compress env.codec s.dir.active m.payload).1 s.dir.counters.seqnr packet).1 = active
    at hblock hun hafter
  rw [takePayload_sent active h4 h256 hpacket (hs.payload_eq ▸ hun) htype (by rw [hb.got, ← hs.sent]; exact hcheck)] at hpoll
  -- the two directions are the same before what follows the packet
  have hdir : { Direction.count { s.dir with active := (sealPacket s.dir.active s.dir.counters.seqnr packet).1 }
        (1 + payload.length + padlen + 4) with active := active } =
      Direction.count { s.dir with active := active } packet.length := by
    unfold Direction.count
    rw [hlen, hblock]
  obtain ⟨hseqnr, hpackets⟩ : (Direction.count { s.dir with active := active } packet.length).counters.seqnr =
      s.dir.counters.seqnr + 1 ∧ (Direction.count { s.dir with active := active } packet.length).counters.packets =
      s.dir.counters.packets + 1 := ⟨rfl, rfl⟩
  generalize Direction.count { s.dir with active := active } packet.length = d at hdir hafter hseqnr hpackets
  have hread : readPoll2 env b = .ok ({ b with
      dir := afterRead env.codec (!s.server) d m.type
      input := rest
      packlen := 0
      incoming := m.body
      got := s'.sent }, some m.type) := by
    rw [hpoll, ← hdir, ← hb.server, hs.sent, hb.got]
  by_cases hn : m.type = SSH2_MSG_NEWKEYS
  · rw [if_pos hn] at hafter
    refine ⟨_, { b with dir := s'.dir, initial := false, input := rest, packlen := 0, incoming := m.body, got := s'.sent },
      hread, ?_, ⟨rfl, ?_, rfl, rfl, fun hi => by cases hi⟩, rfl⟩
    · rw [if_pos hn]
      unfold kexInputNewkeys
      rw [hafter]
    · rw [hs.server]
      exact hb.server
  · rw [if_neg hn] at hafter
    refine ⟨_, { b with
        dir := afterRead env.codec (!s.server) d m.type, input := rest, packlen := 0, incoming := m.body, got := s'.sent },
      hread, by rw [if_neg hn], ⟨hafter.1, ?_, rfl, rfl, fun hi => ?_⟩, rfl⟩
    · rw [hs.server]
      exact hb.server
    · have heq := hb.initial hi
      rw [hb.dir] at heq
      rw [hafter.1, hafter.2, hseqnr, hpackets, heq]

/-! ## Runs -/

variable {acts : List Action}

theorem sendAll_cons (h : sendAll codec s (.send m :: acts) = .ok s') :
    ∃ s₁ payload padlen packet, Sent codec s m s₁ payload padlen packet ∧ sendAll codec s₁ acts = .ok s' := by
  unfold sendAll at h
  split at h
  · cases h
  · next s₁ hs₁ =>
    obtain ⟨payload, padlen, packet, hs⟩ := send2Wrapped_sent hs₁
    exact ⟨s₁, payload, padlen, packet, hs, h⟩

theorem sendAll_grows (acts : List Action) : ∀ {s : Sender σ κ}, sendAll codec s acts = .ok s' →
      s.output <+: s'.output ∧ s.sent <+: s'.sent ∧ s.lengths <+: s'.lengths := by
  induction acts with
  | nil =>
    intro s h
    cases h
    exact ⟨prefix_rfl, prefix_rfl, prefix_rfl⟩
  | cons act acts ih =>
    intro s h
    cases act with
    | settled => exact ih (s := { s with initial := false }) h
    | send m =>
      obtain ⟨s₁, payload, padlen, packet, hs, h⟩ := sendAll_cons h
      obtain ⟨ho, hsent, hl⟩ := ih h
      rw [hs.output] at ho
      rw [hs.sent] at hsent
      rw [hs.lengths] at hl
      exact ⟨(prefix_append _ _).trans ho, (prefix_append _ _).trans hsent, (prefix_append _ _).trans hl⟩

/-- what is asked of the messages that are sent, and of the limits of the receiver -/
structure Readable (env : Env κ) (s : Sender σ κ) : Prop where
  types : ∀ x ∈ s.sent, x.1.head? ≠ some 0
  lengths : ∀ n ∈ s.lengths, n ≤ PACKET_MAX_SIZE
  limits : ∀ l, l <+: s.sent → env.checkRekey l = true

theorem Readable.first {s₁ : Sender σ κ}
    (hr : Readable env s') (hs : Sent env.codec s m s₁ payload padlen packet)
    (hrest : sendAll env.codec s₁ acts = .ok s') :
    m.type ≠ 0 ∧ packet.length - 4 ≤ PACKET_MAX_SIZE ∧ env.checkRekey s₁.sent = true := by
  obtain ⟨-, hsent, hl⟩ := sendAll_grows acts hrest
  refine ⟨fun h0 => ?_, hr.lengths _ (hl.subset (by simp [hs.lengths])), hr.limits _ hsent⟩
  refine hr.types (m.payload, s.dir.counters.seqnr) (hsent.subset (by simp [hs.sent])) ?_
  rw [Message.payload, h0]
  rfl

theorem sendAll_silent (hr : Readable env s') (acts : List Action) :
    ∀ {s : Sender σ κ}, sendAll env.codec s acts = .ok s' → s'.output = s.output →
      s'.dir = s.dir ∧ s'.sent = s.sent := by
  induction acts with
  | nil =>
    intro s h _
    cases h
    exact ⟨rfl, rfl⟩
  | cons act acts ih =>
    intro s h hout
    cases act with
    | settled => exact ih (s := { s with initial := false }) h hout
    | send m =>
      obtain ⟨s₁, payload, padlen, packet, hs, h⟩ := sendAll_cons h
      have hpos := (hs.output_pos (hr.first hs h).2.1).2
      have hle := (sendAll_grows acts h).1.length_le
      rw [hout, hs.output, length_append] at hle
      omega

theorem Begun.pollAll (h0 : b.packlen = 0) (h : Begun b r) (fuel : ℕ) :
    PacketFraming.pollAll env (fuel + 1) r = PacketFraming.pollAll env (fuel + 1) b := by
  unfold PacketFraming.pollAll
  rw [h.poll h0]

theorem pollAll_next {b' : Receiver σ κ} {type : UInt8} (hpoll : readPoll2 env b = .ok (r, some type))
    (hhandler : if type = SSH2_MSG_NEWKEYS then kexInputNewkeys env r = .ok b' else b' = r) :
    pollAll env (n + 1) b = pollAll env n b' := by
  rw [pollAll, hpoll]
  dsimp only
  by_cases hn : type = SSH2_MSG_NEWKEYS
  · rw [if_pos hn] at hhandler ⊢
    rw [hhandler]
  · rw [if_neg hn] at hhandler ⊢
    rw [hhandler]

/-- **The polls after a chunk.** The packets that are there in full are taken out of the input; the receiver is then where
the sender was after these messages. -/
theorem pollAll_spec (hr : Readable env s') (future : Bytes) (acts : List Action) :
    ∀ {s : Sender σ κ} {b : Receiver σ κ} {fuel : ℕ}, sendAll env.codec s acts = .ok s' → Synced s b →
      s'.output = s.output ++ (b.input ++ future) → b.input.length < fuel →
      ∃ r' b' s₁ acts', pollAll env fuel b = .ok r' ∧ Begun b' r' ∧ Synced s₁ b' ∧ sendAll env.codec s₁ acts' = .ok s' ∧
        s'.output = s₁.output ++ (b'.input ++ future) ∧
        (future = [] → b'.input = [] ∧ s'.dir = s₁.dir ∧ s'.sent = s₁.sent) := by
  induction acts with
  | nil =>
    intro s b fuel hsend hb hout hfuel
    cases hsend
    have hnil : b.input = [] ∧ future = [] := by
      have := congrArg length hout
      simp only [length_append] at this
      exact ⟨length_eq_zero_iff.1 (by omega), length_eq_zero_iff.1 (by omega)⟩
    obtain ⟨n, rfl⟩ : ∃ n, fuel = n + 1 := ⟨fuel - 1, by omega⟩
    have hbegin : beginPacket b = .ok none := by
      unfold beginPacket
      rw [if_neg (not_not.2 hb.packlen), if_pos (by rw [hnil.1]; exact headerLen_pos _)]
    refine ⟨b, b, s', [], ?_, .inl rfl, hb, rfl, hout, fun _ => ⟨hnil.1, rfl, rfl⟩⟩
    unfold pollAll readPoll2
    rw [hbegin]
  | cons act acts ih =>
    intro s b fuel hsend hb hout hfuel
    cases act with
    | settled => exact ih (s := { s with initial := false }) hsend { hb with } hout hfuel
    | send m =>
      obtain ⟨s₁, payload, padlen, packet, hs, hsend₁⟩ := sendAll_cons hsend
      obtain ⟨htype, hmax, hcheck⟩ := hr.first hs hsend₁
      obtain ⟨hp, hpos⟩ := hs.output_pos hmax
      obtain ⟨n, rfl⟩ : ∃ n, fuel = n + 1 := ⟨fuel - 1, by omega⟩
      obtain ⟨x, hx⟩ := (sendAll_grows acts hsend₁).1
      -- the stream from here on, seen from the sender and from the receiver
      have hstream : (sealPacket s.dir.active s.dir.counters.seqnr packet).2 ++ x = b.input ++ future := by
        rw [← hx, hs.output, append_assoc] at hout
        exact append_cancel_left hout
      by_cases hlt : b.input.length < (sealPacket s.dir.active s.dir.counters.seqnr packet).2.length
      · have hpre : b.input <+: (sealPacket s.dir.active s.dir.counters.seqnr packet).2 :=
          prefix_of_prefix_length_le (prefix_append _ _) (hstream ▸ prefix_append _ _) hlt.le
        obtain ⟨r, hpoll, hbegun⟩ := poll_part env hb.packlen (hb.dir ▸ hp) (by rw [hb.dir]; exact hpre)
          (by rw [hb.dir]; exact hlt)
        refine ⟨r, b, s, _, ?_, hbegun, hb, hsend, hout, fun hnil => ?_⟩
        · unfold pollAll
          rw [hpoll]
        · have := congrArg length hstream
          rw [hnil, length_append, append_nil] at this
          omega
      · obtain ⟨rest, hrest⟩ : ∃ rest, b.input = (sealPacket s.dir.active s.dir.counters.seqnr packet).2 ++ rest := by
          obtain ⟨rest, h⟩ := prefix_of_prefix_length_le (prefix_append _ x)
            (hstream ▸ prefix_append b.input future) (not_lt.1 hlt)
          exact ⟨rest, h.symm⟩
        obtain ⟨r, b', hpoll, hhandler, hb', hin⟩ := poll_sent hs hb htype hmax hcheck hrest
        rw [pollAll_next hpoll hhandler]
        refine ih hsend₁ hb' ?_ ?_
        · rw [hout, hs.output, hin, hrest]
          simp
        · rw [hrest, length_append] at hfuel
          rw [hin]
          omega

theorem Begun.input_lt (h0 : b.packlen = 0) (h : Begun b r) : b.input.length < polls r := by
  unfold polls
  obtain rfl | h := h
  · omega
  · obtain ⟨-, rfl, -, -⟩ := beginPacket_cases h0 h
    have hc := (readHeader_consumed b.dir.active b.dir.counters.seqnr (b.input.take (headerLen b.dir.active))).2
    show b.input.length < (b.input.drop _).length + (HeaderRead.incoming _).length + 1
    rw [length_drop]
    omega

theorem receive_spec (hr : Readable env s') (chunks : List Bytes) :
    ∀ {s : Sender σ κ} {b r : Receiver σ κ} {acts : List Action}, sendAll env.codec s acts = .ok s' → Synced s b →
      Begun b r → s'.output = s.output ++ (b.input ++ chunks.flatten) →
      (chunks.flatten = [] → b.input = [] ∧ s'.dir = s.dir ∧ s'.sent = s.sent) →
      ∃ r', receive env chunks r = .ok r' ∧ r'.got = s'.sent ∧ r'.dir = s'.dir := by
  induction chunks with
  | nil =>
    intro s b r acts _ hb hbegun _ hdone
    obtain ⟨hin, hdir, hsent⟩ := hdone rfl
    obtain rfl | hx := hbegun
    · exact ⟨r, rfl, hb.got.trans hsent.symm, hb.dir.trans hdir.symm⟩
    · -- no packet can have been begun
      have hle := (beginPacket_cases hb.packlen hx).1
      have hpos := headerLen_pos b.dir.active
      rw [hin, length_nil] at hle
      omega
  | cons chunk chunks ih =>
    intro s b r acts hsend hb hbegun hout _
    have hfeed := hbegun.feed hb.packlen chunk
    have hb₁ : Synced s (processIncoming b chunk) := { hb with }
    obtain ⟨r', b', s₁, acts', hpoll, hbegun', hb', hsend', hout', hdone⟩ :=
      pollAll_spec hr chunks.flatten acts hsend hb₁ (by rw [hout]; simp [processIncoming])
        (hfeed.input_lt hb₁.packlen)
    obtain ⟨r₂, hrec, hgot, hdir⟩ := ih hsend' hb' hbegun' hout' hdone
    refine ⟨r₂, ?_, hgot, hdir⟩
    have hstart : pollAll env (polls (processIncoming r chunk)) (processIncoming r chunk) = .ok r' :=
      (hfeed.pollAll hb₁.packlen _).trans hpoll
    unfold receive
    rw [hstart]
    exact hrec

/-- **Round trip of the framing.** The messages of a new connection that are sent without an error, that have a type, and
whose packets are not longer than `PACKET_MAX_SIZE`: however the stream is cut into chunks, the receiver gets the payloads,
in order and with the sequence numbers they were sealed with, and no poll fails as long as the limits for rekeying are not
exceeded. -/
theorem framing_round_trip (env : Env κ) (strict server : Bool) (supply : List (Keys σ)) (acts : List Action)
    (s : Sender σ κ) (hsend : sendAll env.codec (.start strict server supply) acts = .ok s) (hr : Readable env s)
    (chunks : List Bytes) (hchunks : chunks.flatten = s.output) :
    ∃ r, receive env chunks (.start strict server supply) = .ok r ∧ r.got = s.sent ∧
      r.dir.counters.seqnr = s.dir.counters.seqnr := by
  have hb : Synced (.start strict server supply : Sender σ κ) (.start strict server supply) :=
    ⟨rfl, rfl, rfl, rfl, fun _ => rfl⟩
  obtain ⟨r, hrec, hgot, hdir⟩ := receive_spec hr chunks hsend hb (.inl rfl) hchunks.symm fun hnil =>
    ⟨rfl, sendAll_silent hr acts hsend (hchunks.symm.trans hnil)⟩
  exact ⟨r, hrec, hgot, by rw [hdir]⟩

/-! ## Two connections -/

/-- no compression, no limits -/
def plainEnv : Env Unit := ⟨⟨(), fun k p => (k, p), fun k p => some (k, p), fun _ _ => rfl⟩, fun _ => true⟩

/-- a cipher that adds 1 to each byte -/
def shifted : BlockMode Unit 16 where
  enc := fun _ a => ((), a.map (· + 1))
  dec := fun _ a => ((), a.map (· - 1))
  length_enc := fun _ a => List.length_map ..
  length_dec := fun _ a => List.length_map ..
  enc_append := fun _ a b _ => by rw [List.map_append]
  dec_enc := fun _ a _ => by simp [Function.comp_def]

/-- a code that knows the number and the length -/
def checksum : Mac := ⟨4, fun n a => be 4 (n.toNat + a.length), fun _ _ => length_be ..⟩

def firstKeys : Keys Unit := ⟨16, Or.inr rfl, .mac shifted checksum false, (), false⟩

def plainMessage (type : UInt8) (body : Bytes) : Action := .send ⟨type, body, 0, fun _ => 7⟩

/-- a message, the change of keys and a message with the keys -/
def exchange : List Action :=
  [plainMessage PacketSend.SSH2_MSG_KEXINIT [1, 2, 3], plainMessage SSH2_MSG_NEWKEYS [], .settled, plainMessage 5 [4, 5]]

theorem framing_round_trip_strict :
    ∃ s : Sender Unit Unit, sendAll plainEnv.codec (.start true true [firstKeys]) exchange = .ok s ∧ Readable plainEnv s ∧
      s.sent.map Prod.snd = [0, 1, 0] ∧
      ∃ r, receive plainEnv [s.output.take 21, s.output.drop 21] (.start true true [firstKeys]) = .ok r ∧ r.got = s.sent ∧
        r.dir.counters.seqnr = s.dir.counters.seqnr := by
  have hrun : (sendAll plainEnv.codec (.start true true [firstKeys] : Sender Unit Unit) exchange).toOption.map
      (fun s => (s.sent, s.lengths)) =
      some ([([20, 1, 2, 3], 0), ([21], 1), ([5, 4, 5], 0)], [12, 12, 12]) := by decide +kernel
  cases hs : sendAll plainEnv.codec (.start true true [firstKeys] : Sender Unit Unit) exchange with
  | error e =>
    rw [hs] at hrun
    cases hrun
  | ok s =>
    rw [hs] at hrun
    obtain ⟨hsent, hlengths⟩ := Prod.mk.inj (Option.some.inj hrun)
    have hr : Readable plainEnv s := by
      refine ⟨?_, ?_, fun _ _ => rfl⟩
      · rw [hsent]
        decide
      · rw [hlengths]
        decide
    refine ⟨s, rfl, hr, by rw [hsent]; rfl, ?_⟩
    exact framing_round_trip plainEnv true true [firstKeys] exchange s hs hr _ (by simp)

/-- **A message of type 0** is sent, and the receiver fails. -/
theorem type_zero_refused :
    ∃ s : Sender Unit Unit, sendAll plainEnv.codec (.start true true [firstKeys]) [plainMessage 0 []] = .ok s ∧
      s.sent = [([0], 0)] ∧ ∀ r, receive plainEnv [s.output] (.start true true [firstKeys]) ≠ .ok r := by
  have hrun : (sendAll plainEnv.codec (.start true true [firstKeys] : Sender Unit Unit) [plainMessage 0 []]).toOption.map
      (fun s => (s.sent, (receive plainEnv [s.output] (.start true true [firstKeys] : Receiver Unit Unit)).toOption.isNone)) =
      some ([([0], 0)], true) := by decide +kernel
  cases hs : sendAll plainEnv.codec (.start true true [firstKeys] : Sender Unit Unit) [plainMessage 0 []] with
  | error e =>
    rw [hs] at hrun
    cases hrun
  | ok s =>
    rw [hs] at hrun
    obtain ⟨hsent, hnone⟩ := Prod.mk.inj (Option.some.inj hrun)
    refine ⟨s, rfl, hsent, fun r hrec => ?_⟩
    rw [hrec] at hnone
    cases hnone

end OpenSSHServerPN.PacketFraming
