/-
No sequence number twice under one key.

The packets sealed under the present key are numbered `base, base + 1, ...` in the 32 bits of the counter, and there are as
many as `p_send.packets` says. That count is an error as soon as it wraps, so that at most 2^32 packets are sealed under a
key, and their numbers differ; and every derivation of keys is new. The exception is the end of a session whose sequence
number wraps during the initial key exchange: the packet that says so is sealed with the number 0, and with the strict key
exchange the first packet under the first key had the number 0 as well.

Results:
- `Ledger`: the invariant of a session that goes on; `send2Wrapped_ledger`, `drain_ledger`: one packet, and the queue;
- `sealed_once`: every run whose sequence number stays below the wrap while the initial key exchange lasts;
- `disconnect_reuses_zero`: the run with the wrap.
-/
import OpenSSHServerPN.Packet.Send

namespace OpenSSHServerPN.PacketSend

open Runs Packet List

/-! ## Numbers under one key -/

/-- `n` packets under the key `k`, from `base` on -/
def numbered (k : Option ℕ) (base : UInt32) (n : ℕ) : List (Option ℕ × UInt32) :=
  (List.range n).map fun i => (k, base + UInt32.ofNat i)

theorem numbered_succ (k : Option ℕ) (base : UInt32) (n : ℕ) :
    numbered k base (n + 1) = numbered k base n ++ [(k, base + UInt32.ofNat n)] := by
  simp [numbered, range_succ]

variable {n : ℕ} {s : State} {cfg : Config}

theorem key_of_mem_numbered {k : Option ℕ} {base : UInt32} {x : Option ℕ × UInt32} (h : x ∈ numbered k base n) :
    x.1 = k := by
  obtain ⟨i, -, rfl⟩ := mem_map.1 h
  rfl

/-- up to 2^32 numbers differ -/
theorem numbered_nodup (k : Option ℕ) (base : UInt32) (hn : n ≤ 2 ^ 32) : (numbered k base n).Nodup := by
  refine List.Nodup.map_on ?_ nodup_range
  intro i hi j hj he
  have hi : i < 2 ^ 32 := by have := mem_range.1 hi; omega
  have hj : j < 2 ^ 32 := by have := mem_range.1 hj; omega
  have hsum : UInt32.ofNat i = UInt32.ofNat j := UInt32.add_right_inj base |>.1 (Prod.mk.inj he).2
  have hnat := congrArg UInt32.toNat hsum
  rwa [UInt32.toNat_ofNat_of_lt' hi, UInt32.toNat_ofNat_of_lt' hj] at hnat

/-! ## The invariant -/

def State.keyId (s : State) : Option ℕ := s.key.map (·.id)

/-- the packets of the present key are the last of the ledger, and are numbered -/
def Chain (s : State) : Prop :=
  ∃ old base, s.seals = old ++ numbered s.keyId base s.pSend.packets.toNat ∧ old.Nodup ∧ (∀ x ∈ old, x.1 ≠ s.keyId) ∧
    s.pSend.seqnr = base + UInt32.ofNat s.pSend.packets.toNat

structure Ledger (s : State) : Prop where
  chain : Chain s
  used : ∀ x ∈ s.seals, ∀ id ∈ x.1, id < s.nextKey
  key : ∀ id ∈ s.keyId, id < s.nextKey
  /-- keys that are derived but not in use have sealed nothing -/
  pending : ∀ k ∈ s.pending, k.id < s.nextKey ∧ s.keyId ≠ some k.id ∧ ∀ x ∈ s.seals, x.1 ≠ some k.id

/-- nothing twice so far; and the invariant, unless the session is over -/
def Good (s : State) : Prop := s.seals.Nodup ∧ (s.ended = false → Ledger s)

section
variable (h : Ledger s)
include h

theorem Ledger.seal_nodup (m : Msg) : (sealPacket s m).seals.Nodup := by
  obtain ⟨old, base, hseals, hold, hkeys, hseq⟩ := h.chain
  have hlast : (sealPacket s m).seals = old ++ numbered s.keyId base (s.pSend.packets.toNat + 1) := by
    rw [numbered_succ, ← append_assoc, ← hseals, ← hseq]
    rfl
  rw [hlast, nodup_append]
  refine ⟨hold, numbered_nodup _ _ (by have := s.pSend.packets.toNat_lt; omega), ?_⟩
  intro x hx y hy hxy
  rw [hxy] at hx
  exact hkeys y hx (key_of_mem_numbered hy)

theorem Ledger.nodup : s.seals.Nodup := by
  have := h.seal_nodup ⟨0, 0, 0⟩
  exact (nodup_append.1 this).1

/-- the invariant reads five fields only -/
theorem Ledger.same {t : State} (hseals : t.seals = s.seals) (hkey : t.key = s.key)
    (hpending : t.pending = s.pending) (hnext : t.nextKey = s.nextKey) (hsend : t.pSend = s.pSend) : Ledger t := by
  have hid : t.keyId = s.keyId := by rw [State.keyId, State.keyId, hkey]
  constructor
  · unfold Chain
    rw [hseals, hid, hsend]
    exact h.chain
  · rw [hseals, hnext]
    exact h.used
  · rw [hid, hnext]
    exact h.key
  · rw [hpending, hnext, hid, hseals]
    exact h.pending

theorem Ledger.good : Good s := ⟨h.nodup, fun _ => h⟩

theorem Ledger.disconnect : Good (disconnect cfg s) :=
  ⟨h.seal_nodup ⟨SSH2_MSG_DISCONNECT, 6, cfg.disconnectSize⟩, nofun⟩

end

theorem toNat_add_one {x : UInt32} (h : x + 1 ≠ 0) : (x + 1).toNat = x.toNat + 1 := by
  have hlt := x.toNat_lt
  by_cases hx : x.toNat + 1 = 2 ^ 32
  · refine absurd (UInt32.toNat_inj.1 ?_) h
    simp [hx]
  · exact Nat.mod_eq_of_lt (by simp; omega)

theorem Ledger.count (h : Ledger s) (m : Msg) (hp : s.pSend.packets + 1 ≠ 0) :
    Ledger (countPacket (sealPacket s m) m.size) where
  chain := by
    obtain ⟨old, base, hseals, hold, hkeys, hseq⟩ := h.chain
    refine ⟨old, base, ?_, hold, hkeys, ?_⟩
    · show s.seals ++ [(s.keyId, s.pSend.seqnr)] = old ++ numbered s.keyId base (s.pSend.packets + 1).toNat
      rw [toNat_add_one hp, numbered_succ, ← append_assoc, ← hseals, ← hseq]
    · show s.pSend.seqnr + 1 = base + UInt32.ofNat (s.pSend.packets + 1).toNat
      rw [toNat_add_one hp, UInt32.ofNat_add, ← UInt32.add_assoc, ← hseq]
      rfl
  used := by
    intro x hx id hid
    rcases mem_append.1 hx with hx | hx
    · exact h.used x hx id hid
    · rw [mem_singleton.1 hx] at hid
      exact h.key id hid
  key := h.key
  pending := by
    intro k hk
    obtain ⟨hlt, hne, hnot⟩ := h.pending k hk
    refine ⟨hlt, hne, fun x hx => ?_⟩
    rcases mem_append.1 hx with hx | hx
    · exact hnot x hx
    · rw [mem_singleton.1 hx]
      exact hne

theorem Ledger.rekeyed {k : SendKey} (h : Ledger s) (hk : s.pending = some k) : Ledger (rekeyed cfg s k) where
  chain := by
    obtain ⟨-, -, hnot⟩ := h.pending k hk
    refine ⟨s.seals, if s.strict then 0 else s.pSend.seqnr, ?_, h.nodup, hnot, ?_⟩
    · exact (append_nil _).symm
    · exact (UInt32.add_zero _).symm
  used := h.used
  key := by
    intro id hid
    obtain rfl := Option.some.inj hid
    exact (h.pending k hk).1
  pending := nofun

/-- one packet, where the sequence number does not wrap during the initial key exchange -/
theorem send2Wrapped_ledger {m : Msg} (h : Ledger s)
    (hwrap : s.initial = true → s.pSend.seqnr.toNat + 1 < 2 ^ 32) : Good (send2Wrapped cfg s m) := by
  obtain ⟨h0, hi, -⟩ | ⟨-, -, p, hw⟩ | ⟨-, hp, hw⟩ := send2Wrapped_cases cfg s m
  · have hlt := hwrap hi
    have hz := congrArg UInt32.toNat h0
    simp at hz
    omega
  · rw [hw]
    exact ⟨h.seal_nodup m, nofun⟩
  · rw [hw]
    have hc := h.count m hp
    obtain ⟨-, -, p, ha⟩ | ⟨-, k, hk, ha⟩ | ⟨-, b, ha⟩ := afterPacket_cases cfg (countPacket (sealPacket s m) m.size) m.type
    · rw [ha]
      exact ⟨hc.nodup, nofun⟩
    · rw [ha]
      exact (hc.rekeyed hk).good
    · rw [ha]
      exact Ledger.good (hc.same rfl rfl rfl rfl rfl)

/-! ## Room below the wrap -/

/-- `j` more packets do not wrap the sequence number during the initial key exchange -/
def Room (s : State) (j : ℕ) : Prop := s.initial = true → s.pSend.seqnr.toNat + j < 2 ^ 32

theorem toNat_add_one_le (x : UInt32) : (x + 1).toNat ≤ x.toNat + 1 := by
  exact Nat.mod_le _ _

theorem send2Wrapped_room {m : Msg} {j : ℕ} (h : Room s (j + 1))
    (hend : (send2Wrapped cfg s m).ended = false) : Room (send2Wrapped cfg s m) j := by
  intro hi
  rw [(send2Wrapped_frame hend).2.initial] at hi
  have hroom := h hi
  have hle := toNat_add_one_le s.pSend.seqnr
  obtain ⟨-, -, hw⟩ | ⟨-, -, p, hw⟩ | ⟨-, -, hw⟩ := send2Wrapped_cases cfg s m <;> rw [hw] at hend ⊢
  · cases hend
  · cases hend
  obtain ⟨-, -, p, ha⟩ | ⟨-, k, -, ha⟩ | ⟨-, b, ha⟩ :=
    afterPacket_cases cfg (countPacket (sealPacket s m) m.size) m.type <;> rw [ha] at hend ⊢
  · cases hend
  · show (if s.strict then 0 else s.pSend.seqnr + 1 : UInt32).toNat + j < 2 ^ 32
    split
    · simp
      omega
    · omega
  · show (s.pSend.seqnr + 1).toNat + j < 2 ^ 32
    omega

theorem kexSendKexinit_ledger (h : Ledger s) (hroom : Room s 1) : Good (kexSendKexinit cfg s) := by
  unfold kexSendKexinit
  split
  · exact h.good
  dsimp only
  have hgood : Good (send2Wrapped cfg { s with done := false, rekeying := true } cfg.kexinit) :=
    send2Wrapped_ledger (h.same rfl rfl rfl rfl rfl) hroom
  split
  · exact hgood
  · next he => exact Ledger.good ((hgood.2 (by simpa using he)).same rfl rfl rfl rfl rfl)

theorem kexStartRekex_ledger (h : Ledger s) (hroom : Room s 1) : Good (kexStartRekex cfg s) := by
  unfold kexStartRekex
  split
  · exact kexSendKexinit_ledger (h.same rfl rfl rfl rfl rfl) hroom
  · exact ⟨h.nodup, nofun⟩

/-- the queue, with one number for each packet and one for a `KEXINIT` -/
theorem drain_ledger {now : ℕ} {queue : List Msg} (h : Ledger s)
    (hroom : Room s (queue.length + 1)) : Good (drain cfg now queue s) := by
  induction queue generalizing s with
  | nil => exact Ledger.good (h.same rfl rfl rfl rfl rfl)
  | cons p rest ih =>
    have hone : Room s 1 := fun hi => by
      have := hroom hi
      omega
    unfold drain
    split
    · exact kexStartRekex_ledger (h.same rfl rfl rfl rfl rfl) hone
    dsimp only
    have hgood : Good (send2Wrapped cfg { s with outgoing := rest } p) :=
      send2Wrapped_ledger (h.same rfl rfl rfl rfl rfl) hone
    split
    · exact hgood
    · next he =>
      have he : (send2Wrapped cfg { s with outgoing := rest } p).ended = false := by simpa using he
      have hrest : Room { s with outgoing := rest } (rest.length + 1 + 1) := hroom
      exact ih (hgood.2 he) (send2Wrapped_room hrest he)

/-! ## Steps and runs -/

theorem send2_ledger {m : Msg} {now : ℕ} (h : Ledger s) (hroom : Room s (s.outgoing.length + 2)) :
    Good (send2 cfg s m now) := by
  have hone : Room s 1 := fun hi => by have := hroom hi; omega
  unfold send2
  split
  · exact ⟨h.nodup, nofun⟩
  split
  · -- the message is queued, sealed, or refused
    split
    · exact ⟨h.nodup, nofun⟩
    · split
      · exact kexStartRekex_ledger (h.same rfl rfl rfl rfl rfl) hone
      · split
        · exact Ledger.good (h.same rfl rfl rfl rfl rfl)
        · exact send2Wrapped_ledger (h.same rfl rfl rfl rfl rfl) hone
  · dsimp only
    set t := if m.type = SSH2_MSG_KEXINIT then { s with rekeying := true } else s with ht
    have hledger : Ledger t := by
      rw [ht]
      split
      · exact h.same rfl rfl rfl rfl rfl
      · exact h
    have hsame : t.initial = s.initial ∧ t.pSend = s.pSend ∧ t.outgoing = s.outgoing := by
      rw [ht]
      split <;> exact ⟨rfl, rfl, rfl⟩
    have hroom' : Room t (s.outgoing.length + 1 + 1) := by
      unfold Room
      rw [hsame.1, hsame.2.1]
      exact hroom
    have hgood : Good (send2Wrapped cfg t m) := send2Wrapped_ledger hledger fun hi => by
      have := hroom' hi
      omega
    split
    · exact hgood
    next he =>
    have he : (send2Wrapped cfg t m).ended = false := by simpa using he
    split
    · refine drain_ledger ((hgood.2 he).same rfl rfl rfl rfl rfl) ?_
      have hout := (send2Wrapped_frame he).2.outgoing.trans hsame.2.2
      rw [hout]
      exact send2Wrapped_room hroom' he
    · exact hgood

/-- the sequence number stays below the wrap while the initial key exchange lasts, the queue included -/
def belowWrap (s : State) : Prop := s.initial = true → s.pSend.seqnr.toNat + s.outgoing.length + 2 < 2 ^ 32

/-- **Step.** An event below the wrap seals nothing twice. -/
theorem step_ledger {e : Event} (h : Good s) (hwrap : belowWrap s) : Good (step cfg s e) := by
  unfold step
  split
  · exact h
  next he =>
  have hl := h.2 (by simpa using he)
  have hone : Room s 1 := fun hi => by
    have := hwrap hi
    omega
  cases e with
  | send m now => exact send2_ledger hl fun hi => by have := hwrap hi; omega
  | startRekex => exact kexStartRekex_ledger hl hone
  | received type size now =>
    have hread : ∀ p, Ledger { s with pRead := p } := fun _ => hl.same rfl rfl rfl rfl rfl
    obtain ⟨p, hr | hr | hr | hr⟩ := received_cases cfg s type size now <;> dsimp only <;> rw [hr]
    · exact (hread p).disconnect
    · exact ⟨hl.nodup, nofun⟩
    · exact kexStartRekex_ledger (hread p) hone
    · exact (hread p).good
  | kexinitReceived strict seq =>
    have hgood : Good (kexSendKexinit cfg { s with initRecvd := true }) :=
      kexSendKexinit_ledger (hl.same rfl rfl rfl rfl rfl) hone
    obtain hk | ⟨-, hk⟩ | ⟨he, b, hk | hk⟩ := kexInputKexinit_cases cfg s strict seq <;> dsimp only <;> rw [hk]
    · exact hl.disconnect
    · exact hgood
    · exact Ledger.disconnect ((hgood.2 he).same rfl rfl rfl rfl rfl)
    · exact Ledger.good ((hgood.2 he).same rfl rfl rfl rfl rfl)
  | derived blockOut blockIn =>
    refine Ledger.good ⟨hl.chain, ?_, ?_, ?_⟩
    · exact fun x hx id hid => Nat.lt_succ_of_lt (hl.used x hx id hid)
    · exact fun id hid => Nat.lt_succ_of_lt (hl.key id hid)
    · intro k hk
      obtain rfl := Option.some.inj hk
      refine ⟨Nat.lt_succ_self _, fun hc => ?_, fun x hx hc => ?_⟩
      · exact absurd (hl.key s.nextKey hc) (lt_irrefl _)
      · exact absurd (hl.used x hx s.nextKey hc) (lt_irrefl _)
  | newkeysReceived =>
    dsimp only [kexInputNewkeys]
    split
    · exact ⟨hl.nodup, nofun⟩
    · exact Ledger.good (hl.same rfl rfl rfl rfl rfl)
  | authenticated => exact Ledger.good (hl.same rfl rfl rfl rfl rfl)

theorem good_start : Good start :=
  Ledger.good ⟨⟨[], 0, rfl, nodup_nil, nofun, rfl⟩, nofun, nofun, nofun⟩

/-- **Sealed once.** In every run in which the sequence number stays below the wrap as long as the initial key exchange
lasts, no two packets are sealed with the same key and the same sequence number. -/
theorem sealed_once (cfg : Config) (es : List Event) (h : Always (step cfg) (fun s _ => belowWrap s) start es) :
    (run (step cfg) start es).seals.Nodup :=
  (run_inv (I := Good) (P := fun s _ => belowWrap s) (fun _ _ hs hp => step_ledger hs hp) es good_start h).1

instance (s : State) : Decidable (belowWrap s) := inferInstanceAs (Decidable (_ → _))

def plainConfig : Config where
  rekeyLimit := 0
  rekeyInterval := 0
  serverSide := true
  kexinitSize := 64
  disconnectSize := 32

/-- the first key exchange of a strict session up to the local `NEWKEYS`; the peer's has not been read yet -/
def strictKex : List Event := [.kexinitReceived true 0, .derived 8 8, .send ⟨SSH2_MSG_NEWKEYS, 6, 16⟩ 0]

def ignoreMsg : Msg := ⟨SSH2_MSG_IGNORE, 6, 16⟩

def ignore : Event := .send ignoreMsg 0

theorem sealed_once_strict : (run (step plainConfig) start (strictKex ++ [ignore, ignore])).seals.Nodup ∧
    (run (step plainConfig) start (strictKex ++ [ignore, ignore])).seals = [(none, 0), (none, 1), (some 0, 0), (some 0, 1)] :=
  ⟨sealed_once plainConfig (strictKex ++ [ignore, ignore]) (by decide +kernel), by decide +kernel⟩

/-! ## The wrap -/

/-- `IGNORE` is of the transport layer, so that it is sealed at once -/
theorem step_ignore (hend : s.ended = false) : step plainConfig s ignore = send2Wrapped plainConfig s ignoreMsg := by
  have hsend : step plainConfig s ignore = if (send2Wrapped plainConfig s ignoreMsg).ended then
      send2Wrapped plainConfig s ignoreMsg else send2Wrapped plainConfig s ignoreMsg := by
    unfold step
    rw [if_neg (by simp [hend])]
    rfl
  rw [hsend, ite_self]

/-- `n` packets of the first key of a strict session, whose initial key exchange is not over -/
structure Flooded (n : ℕ) (s : State) : Prop where
  ended : s.ended = false
  initial : s.initial = true
  key : s.keyId = some 0
  seqnr : s.pSend.seqnr = UInt32.ofNat n
  packets : s.pSend.packets = UInt32.ofNat n
  first : 0 < n → (some 0, 0) ∈ s.seals

theorem ofNat_succ_ne_zero (h : n + 1 < 2 ^ 32) : UInt32.ofNat n + 1 ≠ 0 := by
  intro hz
  have hnat : (UInt32.ofNat (n + 1)).toNat = (0 : UInt32).toNat := congrArg UInt32.toNat (by rw [UInt32.ofNat_add]; exact hz)
  rw [UInt32.toNat_ofNat_of_lt' h] at hnat
  simp at hnat

theorem Flooded.next (h : Flooded n s) (hn : n + 1 < 2 ^ 32) : Flooded (n + 1) (step plainConfig s ignore) := by
  have hne := ofNat_succ_ne_zero hn
  rw [step_ignore h.ended]
  obtain ⟨h0, -, -⟩ | ⟨-, h0, -⟩ | ⟨-, -, hw⟩ := send2Wrapped_cases plainConfig s ignoreMsg
  · exact absurd (h.seqnr ▸ h0) hne
  · exact absurd (h.packets ▸ h0) hne
  rw [hw]
  refine ⟨h.ended, h.initial, h.key, ?_, ?_, fun _ => ?_⟩
  · show s.pSend.seqnr + 1 = _
    rw [h.seqnr, UInt32.ofNat_add]
    rfl
  · show s.pSend.packets + 1 = _
    rw [h.packets, UInt32.ofNat_add]
    rfl
  · show (some 0, 0) ∈ s.seals ++ [(s.keyId, s.pSend.seqnr)]
    rcases Nat.eq_zero_or_pos n with rfl | hpos
    · rw [h.key, h.seqnr]
      exact mem_append_right _ (by simp)
    · exact mem_append_left _ (h.first hpos)

theorem flooded_run (h : Flooded 0 s) (hn : n < 2 ^ 32) :
    Flooded n (run (step plainConfig) s (List.replicate n ignore)) := by
  induction n with
  | zero => exact h
  | succ n ih =>
    rw [replicate_succ', run_append]
    exact (ih (by omega)).next hn

/-- the packet that wraps the number brings the disconnect, which takes the number 0 -/
theorem Flooded.wrap (h : Flooded n s) (hn : n + 1 = 2 ^ 32) : ¬(step plainConfig s ignore).seals.Nodup := by
  rw [step_ignore h.ended]
  have hwrap : s.pSend.seqnr + 1 = 0 := by
    have hsucc : UInt32.ofNat n + 1 = UInt32.ofNat (n + 1) := (UInt32.ofNat_add n 1).symm
    rw [h.seqnr, hsucc, hn]
    decide
  obtain ⟨-, -, hw⟩ | ⟨hno, -⟩ | ⟨hno, -⟩ := send2Wrapped_cases plainConfig s ignoreMsg
  · have hseals : (send2Wrapped plainConfig s ignoreMsg).seals =
        (s.seals ++ [(s.keyId, s.pSend.seqnr)]) ++ [(s.keyId, s.pSend.seqnr + 1)] := by rw [hw]; rfl
    rw [hseals, hwrap, h.key]
    intro hnodup
    have hmem : (some 0, 0) ∈ s.seals ++ [(some 0, s.pSend.seqnr)] := mem_append_left _ (h.first (by omega))
    exact (nodup_append.1 hnodup).2.2 _ hmem _ (by simp) rfl
  · exact absurd ⟨hwrap, h.initial⟩ hno
  · exact absurd ⟨hwrap, h.initial⟩ hno

theorem flood_wraps (hn : n + 1 = 2 ^ 32) :
    ¬(run (step plainConfig) start (strictKex ++ List.replicate (n + 1) ignore)).seals.Nodup := by
  rw [run_append, replicate_succ', run_append]
  exact (flooded_run ⟨by decide +kernel, by decide +kernel, by decide +kernel, by decide +kernel, by decide +kernel,
    by simp⟩ (by omega)).wrap hn

/-- **The disconnect reuses the number 0.** After the local `NEWKEYS` of a strict session, 2^32 packets of the transport
layer wrap the sequence number before the peer's `NEWKEYS` arrives. -/
theorem disconnect_reuses_zero :
    ¬(run (step plainConfig) start (strictKex ++ List.replicate 4294967296 ignore)).seals.Nodup :=
  flood_wraps (by norm_num)

end OpenSSHServerPN.PacketSend
