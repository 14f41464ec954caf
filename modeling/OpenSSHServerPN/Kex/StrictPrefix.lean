/-
Prefix safety of the strict key exchange.

The states of a run without a wrong guess are of five kinds: ended; waiting for the proposal of the peer; in an exchange
that is not strict; in a strict exchange, expecting one message; done. `Expecting` describes the dispatch table of a strict
exchange from the messages accepted so far: besides `kex_protocol_error` it has the handler of the next message and no other
one. In a state that waits for the proposal the sequence number 0 means that nothing has been accepted, because the number
does not wrap during the first exchange.

Results:
- `step_inv`, `inv_run`: every state of the run is of one of the five kinds;
- `strict_prefix`: prefix safety, for runs in which no proposal announces a wrong guess;
- `wrong_guess_skips_ignore`: a strict exchange that accepts `IGNORE` after the proposal, and ends well.
-/
import OpenSSHServerPN.Kex.Strict

namespace OpenSSHServerPN.StrictKex

open Runs Wire Packet Kex List
open PacketSend (typeIsKex SSH2_MSG_DISCONNECT SSH2_MSG_IGNORE SSH2_MSG_EXT_INFO SSH2_MSG_KEXINIT SSH2_MSG_NEWKEYS
  SSH2_MSG_TRANSPORT_MIN SSH2_MSG_TRANSPORT_MAX)

/-! ## The packet layer -/

/-- what a packet that is sent leaves alone -/
structure Kept (s s' : PacketSend.State) : Prop where
  outgoing : s'.outgoing = s.outgoing
  initial : s'.initial = s.initial
  initSent : s'.initSent = s.initSent
  initRecvd : s'.initRecvd = s.initRecvd
  strict : s'.strict = s.strict
  done : s'.done = s.done
  pRead : s'.pRead = s.pRead

theorem Kept.refl (s : PacketSend.State) : Kept s s := ⟨rfl, rfl, rfl, rfl, rfl, rfl, rfl⟩

variable {s t u : PacketSend.State}

theorem Kept.trans (h : Kept s t) (h' : Kept t u) : Kept s u :=
  ⟨h'.outgoing.trans h.outgoing, h'.initial.trans h.initial, h'.initSent.trans h.initSent,
    h'.initRecvd.trans h.initRecvd, h'.strict.trans h.strict, h'.done.trans h.done, h'.pRead.trans h.pRead⟩

variable {type : UInt8}

section Net

variable {cfg : PacketSend.Config} {s : PacketSend.State} {m : PacketSend.Msg} {now : ℕ}

open PacketSend

theorem send2Wrapped_kept (h : (send2Wrapped cfg s m).ended = false) :
    Kept s (send2Wrapped cfg s m) ∧ (send2Wrapped cfg s m).rekeying = s.rekeying ∧
      (m.type = SSH2_MSG_NEWKEYS → s.strict = true → (send2Wrapped cfg s m).pSend.seqnr = 0) := by
  obtain ⟨-, -, hw⟩ | ⟨-, -, p, hw⟩ | ⟨-, -, hw⟩ := send2Wrapped_cases cfg s m
  · rw [hw] at h
    cases h
  · rw [hw] at h
    cases h
  rw [hw] at h ⊢
  obtain ⟨-, -, p, ha⟩ | ⟨-, k, -, ha⟩ | ⟨hn, b, ha⟩ := afterPacket_cases cfg (countPacket (sealPacket s m) m.size) m.type
  · rw [ha] at h
    cases h
  · rw [ha]
    exact ⟨⟨rfl, rfl, rfl, rfl, rfl, rfl, rfl⟩, rfl, fun _ hs => if_pos hs⟩
  · rw [ha]
    exact ⟨⟨rfl, rfl, rfl, rfl, rfl, rfl, rfl⟩, rfl, fun hm => absurd hm hn⟩

/-- a message of the transport layer that does not concern the keys is sent at once -/
theorem send2_transport (hk : typeIsKex m.type = true) (hi : m.type ≠ SSH2_MSG_KEXINIT) (hn : m.type ≠ SSH2_MSG_NEWKEYS)
    (h : (send2 cfg s m now).ended = false) : Kept s (send2 cfg s m now) := by
  have hnt : m.nonTransport = false := by simp [Msg.nonTransport, hk]
  unfold send2 at h ⊢
  simp only [hnt, Bool.false_eq_true, if_false, if_neg hi, if_neg hn] at h ⊢
  split_ifs at h ⊢ with hl he
  · cases h
  · rw [he] at h
    cases h
  · exact (send2Wrapped_kept h).1

/-- with nothing in the queue `NEWKEYS` is the last packet sent -/
theorem send2_newkeys (hm : m.type = SSH2_MSG_NEWKEYS) (ho : s.outgoing = []) (h : (send2 cfg s m now).ended = false) :
    Kept s (send2 cfg s m now) ∧ (send2 cfg s m now).rekeying = false ∧
      (s.strict = true → (send2 cfg s m now).pSend.seqnr = 0) := by
  have hnt : m.nonTransport = false := by
    rw [Msg.nonTransport, hm]
    rfl
  have hi : m.type ≠ SSH2_MSG_KEXINIT := by
    rw [hm]
    decide
  unfold send2 at h ⊢
  simp only [hnt, Bool.false_eq_true, if_false, if_pos hm] at h ⊢
  split_ifs at h ⊢ with hl he
  · cases h
  · rw [he] at h
    cases h
  · obtain ⟨hk, -, hs⟩ := send2Wrapped_kept (by simpa using he)
    rw [hk.outgoing, ho]
    exact ⟨{ hk with outgoing := ho.symm }, rfl, hs hm⟩

theorem needRekeying_of_not_done (hd : s.done = false) (len : UInt32) : needRekeying cfg s now len = false := by
  simp [needRekeying, State.isRekeying, hd]

/-- `EXT_INFO` is not held back once `NEWKEYS` is sent -/
theorem send2_extInfo (hm : m.type = SSH2_MSG_EXT_INFO) (hr : s.rekeying = false) (hd : s.done = false)
    (h : (send2 cfg s m now).ended = false) : Kept s (send2 cfg s m now) := by
  have hnt : m.nonTransport = true := by
    rw [Msg.nonTransport, hm]
    rfl
  unfold send2 at h ⊢
  simp only [hnt, if_true, needRekeying_of_not_done hd, hr, Bool.false_eq_true, if_false] at h ⊢
  split_ifs at h ⊢
  · cases h
  · cases h
  · exact { (send2Wrapped_kept h).1 with }

/-- a packet that is read during the first key exchange is counted, and the count has not wrapped -/
theorem received_running {size : UInt32} (hd : s.done = false) (hi : s.initial = true)
    (h : (received cfg s type size now).ended = false) :
    received cfg s type size now = { s with pRead := readCounters s type size } ∧ s.pRead.seqnr + 1 ≠ 0 := by
  have hrk : needRekeying cfg { s with pRead := readCounters s type size } now 0 = false :=
    needRekeying_of_not_done (s := { s with pRead := readCounters s type size }) hd 0
  unfold received at h ⊢
  simp only [hrk, Bool.false_eq_true, if_false] at h ⊢
  split_ifs at h ⊢ with hw
  · cases h
  · cases h
  · cases h
  · exact ⟨rfl, fun he => hw ⟨he, hi⟩⟩

/-- the first proposal of the peer is recorded; a strict one is the packet 0 -/
theorem kexInputKexinit_first {strict : Bool} {seq : UInt32} (hr : s.initRecvd = false) (hs : s.initSent = true)
    (hi : s.initial = true) (h : (PacketSend.kexInputKexinit cfg s strict seq).ended = false) :
    PacketSend.kexInputKexinit cfg s strict seq = { s with initRecvd := true, strict := strict } ∧
      (strict = true → seq = 0) := by
  have hk : PacketSend.kexInputKexinit cfg s strict seq =
      if s.ended then { s with initRecvd := true } else chooseStrict cfg { s with initRecvd := true } strict seq := by
    have hsent : kexSendKexinit cfg { s with initRecvd := true } = { s with initRecvd := true } := if_pos hs
    unfold PacketSend.kexInputKexinit
    rw [if_neg (by simp [hr]), hsent]
  rw [hk] at h ⊢
  unfold chooseStrict at h ⊢
  rw [if_pos hi]
  split_ifs at h ⊢ with he hv
  · exact absurd (he.symm.trans h) (by decide)
  · cases h
  · refine ⟨rfl, fun hst => ?_⟩
    by_contra hq
    exact hv ⟨hst, hq⟩

theorem kexInputNewkeys_done (h : (PacketSend.kexInputNewkeys cfg s).ended = false) :
    (PacketSend.kexInputNewkeys cfg s).done = true ∧ (PacketSend.kexInputNewkeys cfg s).strict = s.strict ∧
      (PacketSend.kexInputNewkeys cfg s).pRead.seqnr = s.pRead.seqnr := by
  unfold PacketSend.kexInputNewkeys at h ⊢
  cases hp : s.pendingIn with
  | none =>
    rw [hp] at h
    cases h
  | some b => exact ⟨rfl, rfl, rfl⟩

/-! ### The flags that no packet sent can change -/

/-- `kex_strict` and `KEX_INIT_RECVD` are as before -/
def SameFlags (s s' : PacketSend.State) : Prop := s'.strict = s.strict ∧ s'.initRecvd = s.initRecvd

theorem SameFlags.trans (h : SameFlags s t) (h' : SameFlags t u) : SameFlags s u :=
  ⟨h'.1.trans h.1, h'.2.trans h.2⟩

variable (cfg : PacketSend.Config)

theorem send2Wrapped_flags (s : PacketSend.State) (m : PacketSend.Msg) : SameFlags s (send2Wrapped cfg s m) := by
  obtain ⟨-, -, hw⟩ | ⟨-, -, p, hw⟩ | ⟨-, -, hw⟩ := send2Wrapped_cases cfg s m
  · rw [hw]
    exact ⟨rfl, rfl⟩
  · rw [hw]
    exact ⟨rfl, rfl⟩
  · rw [hw]
    obtain ⟨-, -, p, ha⟩ | ⟨-, k, -, ha⟩ | ⟨-, b, ha⟩ := afterPacket_cases cfg (countPacket (sealPacket s m) m.size) m.type
    all_goals
      rw [ha]
      exact ⟨rfl, rfl⟩

theorem kexSendKexinit_flags (s : PacketSend.State) : SameFlags s (kexSendKexinit cfg s) := by
  have hw : SameFlags s (send2Wrapped cfg { s with done := false, rekeying := true } cfg.kexinit) := send2Wrapped_flags _ _ _
  unfold kexSendKexinit
  split
  · exact ⟨rfl, rfl⟩
  · dsimp only
    split
    · exact hw
    · exact ⟨hw.1, hw.2⟩

theorem kexStartRekex_flags (s : PacketSend.State) : SameFlags s (kexStartRekex cfg s) := by
  unfold kexStartRekex
  split
  · exact kexSendKexinit_flags cfg { s with done := false }
  · exact ⟨rfl, rfl⟩

theorem drain_flags (now : ℕ) (queue : List PacketSend.Msg) (s : PacketSend.State) :
    SameFlags s (drain cfg now queue s) := by
  induction queue generalizing s with
  | nil => exact ⟨rfl, rfl⟩
  | cons p rest ih =>
    have hw : SameFlags s (send2Wrapped cfg { s with outgoing := rest } p) := send2Wrapped_flags _ _ _
    unfold drain
    split
    · exact kexStartRekex_flags cfg { s with outgoing := p :: rest }
    · dsimp only
      split
      · exact hw
      · exact hw.trans (ih _)

theorem send2_flags (s : PacketSend.State) (m : PacketSend.Msg) (now : ℕ) : SameFlags s (send2 cfg s m now) := by
  unfold send2
  split
  · exact ⟨rfl, rfl⟩
  split
  · split
    · exact ⟨rfl, rfl⟩
    split
    · exact kexStartRekex_flags cfg { s with outgoing := s.outgoing ++ [m] }
    split
    · exact ⟨rfl, rfl⟩
    · exact send2Wrapped_flags cfg s m
  · have hw : SameFlags s
        (send2Wrapped cfg (if m.type = SSH2_MSG_KEXINIT then { s with rekeying := true } else s) m) := by
      split
      · exact send2Wrapped_flags cfg { s with rekeying := true } m
      · exact send2Wrapped_flags cfg s m
    dsimp only
    generalize send2Wrapped cfg (if m.type = SSH2_MSG_KEXINIT then { s with rekeying := true } else s) m = w at hw
    split
    · exact hw
    split
    · exact hw.trans (drain_flags cfg now w.outgoing { w with rekeying := false, rekeyTime := now })
    · exact hw

theorem received_flags (s : PacketSend.State) (type : UInt8) (size : UInt32) (now : ℕ) :
    SameFlags s (received cfg s type size now) := by
  obtain ⟨p, hr | hr | hr | hr⟩ := received_cases cfg s type size now
  · rw [hr]
    exact ⟨rfl, rfl⟩
  · rw [hr]
    exact ⟨rfl, rfl⟩
  · rw [hr]
    exact kexStartRekex_flags cfg { s with pRead := p }
  · rw [hr]
    exact ⟨rfl, rfl⟩

end Net

/-! ## Handlers -/

variable {env : Env} {s s₀ : State} {p : Delivered}

theorem next_running {f : State → State} (h : (s.next f).net.ended = false) :
    s.net.ended = false ∧ s.next f = f s ∧ (f s).net.ended = false := by
  unfold State.next at h
  split at h
  · next he => exact absurd (he.symm.trans h) (by decide)
  · next he => exact ⟨by simpa using he, if_neg he, h⟩

/-- the messages that a handler of a method sends -/
def Quiet (type : UInt8) : Prop := typeIsKex type = true ∧ type ≠ SSH2_MSG_KEXINIT ∧ type ≠ SSH2_MSG_NEWKEYS

instance (type : UInt8) : Decidable (Quiet type) := inferInstanceAs (Decidable (_ ∧ _))

variable {now : ℕ}

theorem send_running (hq : Quiet type) (h : (send env s type now).net.ended = false) :
    Kept s.net (send env s type now).net :=
  send2_transport hq.1 hq.2.1 hq.2.2 h

variable {reply : Option UInt8}

theorem inputMethod_running {finish : State → State}
    (hr : ∀ r ∈ reply, Quiet r) (h : (inputMethod env s p type reply finish).net.ended = false) :
    ∃ n, Kept s.net n ∧ inputMethod env s p type reply finish =
        finish { s with net := n, dispatch := Function.update s.dispatch type (some .kexProtocolError) } := by
  unfold inputMethod at h ⊢
  dsimp only at h
  split at h
  · next hs =>
    rw [if_pos hs]
    cases reply with
    | none => exact ⟨s.net, Kept.refl _, rfl⟩
    | some r =>
      obtain ⟨he, hn, -⟩ := next_running h
      exact ⟨_, send_running (hr r rfl) he, hn⟩
  · cases h

/-- after its `NEWKEYS` a side expects the peer's -/
theorem kexSendNewkeys_running (ho : s.net.outgoing = []) (hd : s.net.done = false) (hs : s.net.strict = true)
    (h : (kexSendNewkeys env s now).net.ended = false) : ∃ n, Kept s.net n ∧ kexSendNewkeys env s now = { s with
          net := n
          dispatch := Function.update (resetDispatch s.dispatch) SSH2_MSG_NEWKEYS (some .kexInputNewkeys)
          sentNewkeys := s.sentNewkeys ++ [0] } := by
  unfold kexSendNewkeys
  obtain ⟨he, hn, hx⟩ := next_running h
  rw [hn]
  obtain ⟨hk, hr, hz⟩ := send2_newkeys rfl ho he
  unfold kexMaybeSendExtInfo at hx ⊢
  dsimp only at hx
  rw [show (send env { s with dispatch := resetDispatch s.dispatch } SSH2_MSG_NEWKEYS now).net.pSend.seqnr = 0 from hz hs]
    at hx ⊢
  split at hx
  · next hc =>
    rw [if_pos hc]
    exact ⟨_, hk.trans (send2_extInfo rfl hr (hk.done.trans hd) hx), rfl⟩
  · next hc =>
    rw [if_neg hc]
    exact ⟨_, hk, rfl⟩

/-! ## The stages of a method -/

/-- the messages of a method with their handlers, and `NEWKEYS` -/
def stages (server : Bool) : Family → List (UInt8 × Handler)
  | .gen =>
    if server then [(SSH2_MSG_KEX_ECDH_INIT, .inputKexGenInit), (SSH2_MSG_NEWKEYS, .kexInputNewkeys)]
    else [(SSH2_MSG_KEX_ECDH_REPLY, .inputKexGenReply), (SSH2_MSG_NEWKEYS, .kexInputNewkeys)]
  | .gex =>
    if server then [(SSH2_MSG_KEX_DH_GEX_REQUEST, .inputKexDhGexRequest), (SSH2_MSG_KEX_DH_GEX_INIT, .inputKexDhGexInit),
      (SSH2_MSG_NEWKEYS, .kexInputNewkeys)]
    else [(SSH2_MSG_KEX_DH_GEX_GROUP, .inputKexDhGexGroup), (SSH2_MSG_KEX_DH_GEX_REPLY, .inputKexDhGexReply),
      (SSH2_MSG_NEWKEYS, .kexInputNewkeys)]

theorem expected_eq (server : Bool) (f : Family) :
    expected server f = SSH2_MSG_KEXINIT :: (stages server f).map Prod.fst := by
  cases f <;> cases server <;> rfl

/-- a type for which `kex_reset_dispatch` makes an entry -/
def IsTransport (type : UInt8) : Prop := SSH2_MSG_TRANSPORT_MIN ≤ type ∧ type ≤ SSH2_MSG_TRANSPORT_MAX

instance (type : UInt8) : Decidable (IsTransport type) := inferInstanceAs (Decidable (_ ∧ _))

variable {α : Type}

theorem stages_cons {a x : α} {l pre rest : List α} (h : a :: l = pre ++ x :: rest) :
    (x = a ∧ rest = l) ∨ ∃ pre', l = pre' ++ x :: rest := by
  rcases cons_eq_append_iff.1 h with ⟨-, h⟩ | ⟨pre', -, h⟩
  · exact .inl (cons.inj h)
  · exact .inr ⟨pre', h⟩

theorem stages_two {a b x : α} {pre rest : List α} (h : [a, b] = pre ++ x :: rest) :
    (x = a ∧ rest = [b]) ∨ (x = b ∧ rest = []) := by
  rcases stages_cons h with hx | ⟨_, h⟩
  · exact .inl hx
  · exact .inr ((stages_cons h).resolve_right (by simp))

variable {t : UInt8}

/-- the handler at a stage is the handler of `NEWKEYS`, the last of the method, or one that registers the next stage -/
theorem stage_cases {server : Bool} {f : Family} {pre rest : List (UInt8 × Handler)} {h : Handler}
    (hst : stages server f = pre ++ (t, h) :: rest) : IsTransport t ∧
      ((rest = [] ∧ t = SSH2_MSG_NEWKEYS ∧ h = .kexInputNewkeys) ∨
        ∃ reply, (∀ r ∈ reply, Quiet r) ∧ ∃ t' h' rest', rest = (t', h') :: rest' ∧
          ((rest' = [] ∧ t' = SSH2_MSG_NEWKEYS ∧ h' = .kexInputNewkeys ∧ ∀ env s p seq,
              invoke env s p seq h = inputMethod env s p t reply (deriveAndSendNewkeys env p.now)) ∨
            (rest' ≠ [] ∧ ∀ env s p seq, invoke env s p seq h = inputMethod env s p t reply (·.dispatchSet t' h')))) := by
  have quiet {r : UInt8} (hr : Quiet r) : ∀ r' ∈ some r, Quiet r' := by simpa using hr
  cases f with
  | gen =>
    cases server with
    | true =>
      obtain ⟨hx, rfl⟩ | ⟨hx, rfl⟩ := stages_two hst <;> cases hx
      · exact ⟨by decide, .inr ⟨some SSH2_MSG_KEX_ECDH_REPLY, quiet (by decide), _, _, [], rfl,
          .inl ⟨rfl, rfl, rfl, fun _ _ _ _ => rfl⟩⟩⟩
      · exact ⟨by decide, .inl ⟨rfl, rfl, rfl⟩⟩
    | false =>
      obtain ⟨hx, rfl⟩ | ⟨hx, rfl⟩ := stages_two hst <;> cases hx
      · exact ⟨by decide, .inr ⟨none, by simp, _, _, [], rfl, .inl ⟨rfl, rfl, rfl, fun _ _ _ _ => rfl⟩⟩⟩
      · exact ⟨by decide, .inl ⟨rfl, rfl, rfl⟩⟩
  | gex =>
    cases server with
    | true =>
      obtain ⟨hx, rfl⟩ | ⟨hx, rfl⟩ | ⟨hx, rfl⟩ := (stages_cons hst).imp_right (Exists.elim · fun _ => stages_two) <;> cases hx
      · exact ⟨by decide, .inr ⟨some SSH2_MSG_KEX_DH_GEX_GROUP, quiet (by decide), _, _, _, rfl,
          .inr ⟨cons_ne_nil _ _, fun _ _ _ _ => rfl⟩⟩⟩
      · exact ⟨by decide, .inr ⟨some SSH2_MSG_KEX_DH_GEX_REPLY, quiet (by decide), _, _, [], rfl,
          .inl ⟨rfl, rfl, rfl, fun _ _ _ _ => rfl⟩⟩⟩
      · exact ⟨by decide, .inl ⟨rfl, rfl, rfl⟩⟩
    | false =>
      obtain ⟨hx, rfl⟩ | ⟨hx, rfl⟩ | ⟨hx, rfl⟩ := (stages_cons hst).imp_right (Exists.elim · fun _ => stages_two) <;> cases hx
      · exact ⟨by decide, .inr ⟨some SSH2_MSG_KEX_DH_GEX_INIT, quiet (by decide), _, _, _, rfl,
          .inr ⟨cons_ne_nil _ _, fun _ _ _ _ => rfl⟩⟩⟩
      · exact ⟨by decide, .inr ⟨none, by simp, _, _, [], rfl, .inl ⟨rfl, rfl, rfl, fun _ _ _ _ => rfl⟩⟩⟩
      · exact ⟨by decide, .inl ⟨rfl, rfl, rfl⟩⟩

/-- the first stage is registered when the algorithms are chosen -/
theorem startMethod_running {kexType : ℕ} (h : (startMethod env s kexType now).net.ended = false) :
    ∃ f t h rest n, family kexType = some f ∧ stages env.server f = (t, h) :: rest ∧ rest ≠ [] ∧ Kept s.net n ∧
      startMethod env s kexType now = { s with net := n, dispatch := Function.update s.dispatch t (some h) } := by
  unfold startMethod at h ⊢
  cases hf : family kexType with
  | none =>
    rw [hf] at h
    cases h
  | some f =>
    rw [hf] at h
    cases f with
    | gen | gex =>
      cases hs : env.server with
      | true => exact ⟨_, _, _, _, s.net, rfl, rfl, cons_ne_nil _ _, Kept.refl _, rfl⟩
      | false =>
        rw [hs] at h
        obtain ⟨he, hn, -⟩ := next_running h
        exact ⟨_, _, _, _, _, rfl, rfl, cons_ne_nil _ _, send_running (by decide) he, hn⟩

/-! ## The dispatch table -/

theorem base_some {h : Handler} (hb : base t = some h) : h = .kexProtocolError := by
  unfold base resetDispatch at hb
  split_ifs at hb
  exact (Option.some.inj hb).symm

theorem base_again (ht : IsTransport t) (h : Handler) :
    Function.update (Function.update base t (some h)) t (some .kexProtocolError) = base := by
  rw [Function.update_idem, ← show base t = some .kexProtocolError from if_pos ht, Function.update_eq_self]

theorem resetDispatch_base : resetDispatch base = base := by
  funext t
  unfold base resetDispatch
  split <;> rfl

/-! ## The states of a run -/

/-- nothing but packets without effect has come -/
structure Waiting (s : State) : Prop where
  strict : s.net.strict = false
  initRecvd : s.net.initRecvd = false
  initSent : s.net.initSent = true
  initial : s.net.initial = true
  done : s.net.done = false
  outgoing : s.net.outgoing = []
  skip : s.dispatchSkipPackets = 0
  table : s.dispatch = Function.update base SSH2_MSG_KEXINIT (some .kexInputKexinit)
  sent : s.sentNewkeys = []

/-- the exchange is not strict -/
def Loose (s : State) : Prop := s.net.strict = false ∧ (s.net.initRecvd = true ∨ s.net.done = true)

/-- a strict exchange in which the message `t` comes next -/
structure Expecting (env : Env) (f : Family) (pre : List (UInt8 × Handler)) (t : UInt8) (h : Handler)
    (rest : List (UInt8 × Handler)) (s : State) : Prop where
  stage : stages env.server f = pre ++ (t, h) :: rest
  strict : s.net.strict = true
  initial : s.net.initial = true
  done : s.net.done = false
  outgoing : s.net.outgoing = []
  skip : s.dispatchSkipPackets = 0
  table : s.dispatch = Function.update base t (some h)
  chosen : ∃ c, s.chosen = some c ∧ family c.kex.2.type = some f
  sent : s.sentNewkeys = if rest = [] then [0] else []

/-- a strict exchange that is done -/
structure Finished (f : Family) (s : State) : Prop where
  strict : s.net.strict = true
  done : s.net.done = true
  chosen : ∃ c, s.chosen = some c ∧ family c.kex.2.type = some f
  sent : s.sentNewkeys = [0]
  seqnr : s.net.pRead.seqnr = 0

inductive Inv (env : Env) (s : State) : Prop where
  | ended (h : s.net.ended = true)
  | waiting (h : Waiting s) (first : s.net.pRead.seqnr = 0 → s.accepted = [])
  | loose (h : Loose s)
  | expecting {f : Family} {pre : List (UInt8 × Handler)} {t : UInt8} {h : Handler} {rest : List (UInt8 × Handler)}
      (he : Expecting env f pre t h rest s) (types : s.types = SSH2_MSG_KEXINIT :: pre.map Prod.fst)
  | finished {f : Family} (h : Finished f s) (types : s.types = expected env.server f)

/-! ### A strict exchange -/

variable {f : Family} {pre rest : List (UInt8 × Handler)} {t : UInt8} {h : Handler} {seq : UInt32}

/-- a packet that is dispatched goes to a handler, unless it is skipped -/
theorem dispatchPacket_running (hend : (dispatchPacket env s p seq).net.ended = false) :
    ∃ h, s.dispatch p.type = some h ∧ dispatchPacket env s p seq =
      if s.dispatchSkipPackets ≠ 0 then { s with dispatchSkipPackets := s.dispatchSkipPackets - 1 }
      else invoke env s p seq h := by
  unfold dispatchPacket at hend ⊢
  split at hend
  · next hlt =>
    rw [if_pos hlt]
    cases hd : s.dispatch p.type with
    | none =>
      rw [hd] at hend
      cases hend
    | some h => exact ⟨h, rfl, rfl⟩
  · cases hend

/-- the packet that is expected goes to its handler, any other one ends the connection -/
theorem Expecting.dispatch (he : Expecting env f pre t h rest s) (hend : (dispatchPacket env s p seq).net.ended = false) :
    p.type = t ∧ dispatchPacket env s p seq = invoke env s p seq h := by
  obtain ⟨h', htab, hd⟩ := dispatchPacket_running hend
  rw [if_neg (not_not.2 he.skip)] at hd
  rw [he.table] at htab
  by_cases hp : p.type = t
  · rw [hp, Function.update_self] at htab
    cases htab
    exact ⟨hp, hd⟩
  · rw [Function.update_of_ne hp] at htab
    rw [hd, base_some htab] at hend
    have hfail : kexProtocolError env s p = s.disconnect env := if_pos (by rw [he.initial, he.strict]; rfl)
    rw [show invoke env s p seq .kexProtocolError = _ from hfail] at hend
    cases hend

theorem Expecting.advance {t' : UInt8} {h' : Handler} (he : Expecting env f pre t h ((t', h') :: rest) s)
    (hend : (invoke env s p seq h).net.ended = false) :
    Expecting env f (pre ++ [(t, h)]) t' h' rest (invoke env s p seq h) ∧
      (invoke env s p seq h).accepted = s.accepted := by
  have hst : stages env.server f = (pre ++ [(t, h)]) ++ (t', h') :: rest := by simp [he.stage]
  obtain ⟨ht, ⟨hr, -⟩ | ⟨reply, hq, t₂, h₂, rest₂, heq, hcase⟩⟩ := stage_cases he.stage
  · cases hr
  cases heq
  have hsent : s.sentNewkeys = [] := by rw [he.sent, if_neg (cons_ne_nil _ _)]
  obtain ⟨rfl, rfl, rfl, hi⟩ | ⟨hne, hi⟩ := hcase
  · rw [hi] at hend ⊢
    obtain ⟨n, hk, hn⟩ := inputMethod_running hq hend
    rw [hn] at hend ⊢
    rw [he.table, base_again ht] at hend ⊢
    obtain ⟨n', hk', hn'⟩ := kexSendNewkeys_running (hk.outgoing.trans he.outgoing) (hk.done.trans he.done)
      (hk.strict.trans he.strict) hend
    have hkk : Kept s.net n' := hk.trans ⟨hk'.outgoing, hk'.initial, hk'.initSent, hk'.initRecvd, hk'.strict, hk'.done, hk'.pRead⟩
    rw [deriveAndSendNewkeys, hn']
    refine ⟨⟨hst, hkk.strict.trans he.strict, hkk.initial.trans he.initial, hkk.done.trans he.done,
      hkk.outgoing.trans he.outgoing, he.skip, ?_, he.chosen, ?_⟩, rfl⟩
    · exact congrArg (fun d => Function.update d SSH2_MSG_NEWKEYS (some Handler.kexInputNewkeys)) resetDispatch_base
    · rw [hsent]
      rfl
  · rw [hi] at hend ⊢
    obtain ⟨n, hk, hn⟩ := inputMethod_running hq hend
    rw [hn]
    refine ⟨⟨hst, hk.strict.trans he.strict, hk.initial.trans he.initial, hk.done.trans he.done,
      hk.outgoing.trans he.outgoing, he.skip, ?_, he.chosen, ?_⟩, rfl⟩
    · show Function.update (Function.update s.dispatch t (some .kexProtocolError)) t' (some h') = _
      rw [he.table, base_again ht]
    · rw [if_neg hne]
      exact hsent

/-- the handler of `NEWKEYS` installs the keys, and changes the table -/
theorem inputNewkeys_running (hend : (invoke env s p seq .kexInputNewkeys).net.ended = false) :
    ∃ n d, invoke env s p seq .kexInputNewkeys = { s with net := n, dispatch := d } ∧ n.done = true ∧
      n.strict = s.net.strict ∧ n.pRead.seqnr = s.net.pRead.seqnr := by
  unfold invoke kexInputNewkeys at hend ⊢
  dsimp only
  split_ifs at hend ⊢
  · exact ⟨_, _, rfl, kexInputNewkeys_done hend⟩
  · exact ⟨_, _, rfl, kexInputNewkeys_done hend⟩
  · cases hend
  · cases hend

theorem Expecting.finish (he : Expecting env f pre t h [] s) (hz : s.net.pRead.seqnr = 0)
    (hend : (invoke env s p seq h).net.ended = false) :
    Finished f (invoke env s p seq h) ∧ (invoke env s p seq h).accepted = s.accepted := by
  obtain ⟨-, ⟨-, -, rfl⟩ | ⟨reply, -, t₂, h₂, rest₂, heq, -⟩⟩ := stage_cases he.stage
  · obtain ⟨n, d, hn, hd, hs, hq⟩ := inputNewkeys_running hend
    rw [hn]
    exact ⟨⟨hs.trans he.strict, hd, he.chosen, he.sent, hq.trans hz⟩, rfl⟩
  · cases heq

/-- a step that does not end the connection: the packet is counted, handled and accepted -/
theorem step_running (hs : s.net.ended = false) (hd : s.net.done = false) (h : (step env s p).net.ended = false) :
    (PacketSend.received env.cfg s.net p.type p.size p.now).ended = false ∧
      ∃ s' r, s' = { s with net := PacketSend.received env.cfg s.net p.type p.size p.now } ∧
        r = readPollSeqnr env s' p s.net.pRead.seqnr ∧ r.net.ended = false ∧
        step env s p = { r with accepted := r.accepted ++ [p] } := by
  rw [step, if_neg (by simp [hs, hd])] at h ⊢
  obtain ⟨hh, hn, -⟩ := next_running h
  obtain ⟨hr, hn', hp⟩ := next_running hh
  rw [accept, hn, handle, hn']
  split_ifs at hp ⊢
  · cases hp
  · exact ⟨hr, _, _, rfl, rfl, hp, rfl⟩

theorem step_expecting (hs : s.net.ended = false) (hend : (step env s p).net.ended = false)
    (he : Expecting env f pre t h rest s) (types : s.types = SSH2_MSG_KEXINIT :: pre.map Prod.fst) :
    Inv env (step env s p) := by
  obtain ⟨hr, s', r, hs', hpoll, hrun, heq⟩ := step_running hs he.done hend
  rw [(received_running he.done he.initial hr).1] at hs'
  have he' : Expecting env f pre t h rest s' := by
    rw [hs']
    exact { he with }
  simp only [readPollSeqnr, he'.initial, he'.strict, Bool.and_self, if_true] at hpoll
  split_ifs at hpoll
  · rw [hpoll] at hrun
    cases hrun
  rw [hpoll] at hrun heq
  obtain ⟨hp, hinv⟩ := he'.dispatch hrun
  rw [hinv] at hrun heq
  have hacc : s'.accepted = s.accepted := by rw [hs']
  -- what is accepted grows by the message of the stage
  have htypes (s₂ : State) (h₂ : s₂.accepted = s'.accepted) :
      State.types { s₂ with accepted := s₂.accepted ++ [p] } = SSH2_MSG_KEXINIT :: (pre ++ [(t, h)]).map Prod.fst := by
    show (s₂.accepted ++ [p]).map (·.type) = _
    rw [map_append, h₂, hacc, show s.accepted.map (·.type) = _ from types]
    simp [hp]
  rcases rest with _ | ⟨⟨t', h'⟩, rest⟩
  · have hz : s'.net.pRead.seqnr = 0 := by
      obtain ⟨-, ⟨-, ht, -⟩ | ⟨_, -, _, _, _, hr, -⟩⟩ := stage_cases he.stage
      · rw [hs']
        exact if_pos ⟨hp.trans ht, he.strict⟩
      · cases hr
    obtain ⟨hf, ha⟩ := he'.finish hz hrun
    rw [heq]
    refine .finished { hf with } ?_
    rw [htypes _ ha, expected_eq, he.stage]
  · obtain ⟨hx, ha⟩ := he'.advance hrun
    rw [heq]
    exact .expecting { hx with }
      (htypes _ ha)

/-! ### An exchange that is not strict -/

theorem send_flags (env : Env) (s : State) (type : UInt8) (now : ℕ) : SameFlags s.net (send env s type now).net :=
  send2_flags _ _ _ _

theorem next_flags {g : State → State} (hs : SameFlags s₀.net s.net) (hg : ∀ s, SameFlags s.net (g s).net) :
    SameFlags s₀.net (s.next g).net := by
  unfold State.next
  split
  · exact hs
  · exact hs.trans (hg s)

theorem kexMaybeSendExtInfo_flags (env : Env) (s : State) (now : ℕ) :
    SameFlags s.net (kexMaybeSendExtInfo env s now).net := by
  unfold kexMaybeSendExtInfo
  split
  · exact send_flags _ _ _ _
  · exact ⟨rfl, rfl⟩

theorem deriveAndSendNewkeys_flags (env : Env) (now : ℕ) (s : State) :
    SameFlags s.net (deriveAndSendNewkeys env now s).net := by
  unfold deriveAndSendNewkeys
  refine next_flags (send_flags env { kexDeriveKeys s with dispatch := _ } _ _) fun s => ?_
  exact kexMaybeSendExtInfo_flags env (State.dispatchSet { s with sentNewkeys := _ } _ _) now

theorem inputMethod_flags {finish : State → State}
    (hf : ∀ s, SameFlags s.net (finish s).net) : SameFlags s.net (inputMethod env s p type reply finish).net := by
  unfold inputMethod
  dsimp only
  split
  · cases reply with
    | none => exact hf (s.dispatchSet type .kexProtocolError)
    | some r => exact next_flags (send_flags env (s.dispatchSet type .kexProtocolError) r p.now) hf
  · exact ⟨rfl, rfl⟩

theorem dispatchSet_flags (type : UInt8) (h : Handler) (s : State) : SameFlags s.net (s.dispatchSet type h).net := ⟨rfl, rfl⟩

theorem invoke_loose (hs : s.net.strict = false) (hr : s.net.initRecvd = true)
    (hend : (invoke env s p seq h).net.ended = false) : Loose (invoke env s p seq h) := by
  have keep {s' : State} (hf : SameFlags s.net s'.net) : Loose s' := ⟨hf.1.trans hs, .inl (hf.2.trans hr)⟩
  cases h with
  | kexProtocolError =>
    have hc : ¬(s.net.initial && s.net.strict) = true := by simp [hs]
    refine keep ?_
    show SameFlags s.net (kexProtocolError env s p).net
    rw [kexProtocolError, if_neg hc]
    exact send_flags _ _ _ _
  | kexInputKexinit =>
    -- a second proposal ends the connection
    have hd : kexInputKexinit env s p seq = s.disconnect env := if_pos hr
    rw [show invoke env s p seq .kexInputKexinit = s.disconnect env from hd] at hend
    cases hend
  | kexInputNewkeys =>
    obtain ⟨n, d, hn, hd, hst, -⟩ := inputNewkeys_running hend
    rw [hn]
    exact ⟨hst.trans hs, .inr hd⟩
  | kexInputExtInfo =>
    refine keep ?_
    show SameFlags s.net (kexInputExtInfo env s p).net
    unfold kexInputExtInfo
    dsimp only
    split
    · exact ⟨rfl, rfl⟩
    · exact ⟨rfl, rfl⟩
  | inputKexGenInit | inputKexGenReply | inputKexDhGexInit | inputKexDhGexReply =>
    exact keep (inputMethod_flags (deriveAndSendNewkeys_flags env p.now))
  | inputKexDhGexRequest | inputKexDhGexGroup => exact keep (inputMethod_flags (dispatchSet_flags _ _))

theorem dispatchPacket_loose (hs : s.net.strict = false) (hr : s.net.initRecvd = true)
    (hend : (dispatchPacket env s p seq).net.ended = false) : Loose (dispatchPacket env s p seq) := by
  obtain ⟨h, -, hd⟩ := dispatchPacket_running hend
  rw [hd] at hend ⊢
  split_ifs at hend ⊢
  · exact ⟨hs, .inl hr⟩
  · exact invoke_loose hs hr hend

theorem reads_running {g : Get α} {body : Bytes} (h : (s.reads g body).net.ended = false) : s.reads g body = s := by
  unfold State.reads at h
  split at h
  · next hg => exact if_pos hg
  · cases h

/-- a packet that ends no connection has no effect, is answered, or goes to the table -/
theorem readPollSeqnr_cases (hs : s.net.strict = false) (hend : (readPollSeqnr env s p seq).net.ended = false) :
    readPollSeqnr env s p seq = s ∨
      (s.net.isRekeying = false ∧ readPollSeqnr env s p seq = send env s SSH2_MSG_PONG p.now) ∨
      readPollSeqnr env s p seq = dispatchPacket env s p seq := by
  unfold readPollSeqnr at hend ⊢
  split_ifs at hend ⊢ with hdis hst hi hd hu hping hpong hk
  · cases hend
  · simp [hs] at hst
  · exact .inl rfl
  · exact .inl (reads_running hend)
  · exact .inl (reads_running hend)
  · obtain ⟨hr, hn, hx⟩ := next_running hend
    rw [hn]
    rw [reads_running hr] at hx ⊢
    split_ifs at hx ⊢ with ha
    · exact .inr (.inl ⟨by simpa using (Bool.and_eq_true_iff.1 ha).2, rfl⟩)
    · exact .inl rfl
  · exact .inl (reads_running hend)
  · cases hend
  · exact .inr (.inr rfl)

theorem step_loose (hs : s.net.ended = false) (hend : (step env s p).net.ended = false) (hl : Loose s) :
    Inv env (step env s p) := by
  by_cases hd : s.net.done = true
  · rw [step, if_pos (by simp [hd])]
    exact .loose hl
  have hr : s.net.initRecvd = true := hl.2.resolve_right hd
  obtain ⟨-, s', r, hs', rfl, hp, heq⟩ := step_running hs (by simpa using hd) hend
  rw [heq]
  suffices hx : Loose (readPollSeqnr env s' p s.net.pRead.seqnr) from .loose hx
  have hf : SameFlags s.net s'.net := by
    rw [hs']
    exact received_flags _ _ _ _ _
  obtain hc | ⟨-, hc⟩ | hc := readPollSeqnr_cases (hf.1.trans hl.1) hp
  · rw [hc]
    exact ⟨hf.1.trans hl.1, .inl (hf.2.trans hr)⟩
  · have hf' := hf.trans (send_flags env s' SSH2_MSG_PONG p.now)
    rw [hc]
    exact ⟨hf'.1.trans hl.1, .inl (hf'.2.trans hr)⟩
  · rw [hc] at hp ⊢
    exact dispatchPacket_loose (hf.1.trans hl.1) (hf.2.trans hr) hp

/-! ### Before the proposal of the peer -/

theorem startMethod_flags (env : Env) (s : State) (kexType now : ℕ) :
    SameFlags s.net (startMethod env s kexType now).net := by
  unfold startMethod
  split
  · exact ⟨rfl, rfl⟩
  · exact ⟨rfl, rfl⟩
  · exact next_flags (send_flags _ _ _ _) (dispatchSet_flags _ _)
  · exact ⟨rfl, rfl⟩
  · exact next_flags (send_flags _ _ _ _) (dispatchSet_flags _ _)

theorem chooseConf_skipPacket {t : Tables} {server initial : Bool} {n : ℕ} {prior : Recorded} {my peer : Proposal}
    {c : Chosen} (h : chooseConf t server initial n prior my peer = .ok c) :
    c.skipPacket = (peer.firstKexFollows && !proposalsMatch my peer) := by
  have hc := chooseConf_eq t server initial n prior my peer
  rw [h] at hc
  split at hc
  · cases hc
  · obtain ⟨m, -, hm⟩ := Option.map_eq_some_iff.1 hc.symm
    rw [← hm]
    rfl

/-- the first proposal is read and recorded, and the algorithms are chosen -/
theorem kexInputKexinit_running (hw : Waiting s) (hend : (kexInputKexinit env s p seq).net.ended = false) :
    ∃ peer c, whole kexBuf2prop p.body = some peer ∧
      chooseConf env.tables env.server true seq.toNat .empty env.my peer = .ok c ∧
      (peerStrict env.server peer = true → seq = 0) ∧ kexInputKexinit env s p seq = withChoice env { s with
            net := { s.net with initRecvd := true, strict := peerStrict env.server peer }
            dispatch := base } p c := by
  have ht : Function.update s.dispatch SSH2_MSG_KEXINIT (some .kexProtocolError) = base := by
    rw [hw.table, base_again (by decide)]
  unfold kexInputKexinit at hend ⊢
  rw [if_neg (by simp [hw.initRecvd])] at hend ⊢
  cases hp : whole kexBuf2prop p.body with
  | none =>
    rw [hp] at hend
    cases hend
  | some peer =>
    rw [hp] at hend
    dsimp only
    obtain ⟨he, hn, hx⟩ := next_running hend
    obtain ⟨hk, hseq⟩ := kexInputKexinit_first hw.initRecvd hw.initSent hw.initial he
    rw [hn]
    cases hc : chooseConf env.tables env.server true seq.toNat .empty env.my peer with
    | error e =>
      rw [hc] at hx
      cases hx
    | ok c =>
      refine ⟨peer, c, rfl, hc, hseq, ?_⟩
      unfold State.dispatchSet
      rw [ht, hk]

/-- the proposal of the peer begins a strict exchange or another one -/
theorem Waiting.proposal (hw : Waiting s) (hfirst : seq = 0 → s.accepted = []) (hg : rightGuess env p = true)
    (htype : p.type = SSH2_MSG_KEXINIT) (hend : (kexInputKexinit env s p seq).net.ended = false) :
    Loose (kexInputKexinit env s p seq) ∨ ((kexInputKexinit env s p seq).accepted = [] ∧
        ∃ f t h rest, Expecting env f [] t h rest (kexInputKexinit env s p seq)) := by
  obtain ⟨peer, c, hp, hc, hseq, hk⟩ := kexInputKexinit_running hw hend
  have hskip : c.skipPacket = false := by
    rw [rightGuess, hp, htype] at hg
    rw [chooseConf_skipPacket hc]
    simpa only [bne_self_eq_false, Bool.false_or, Bool.not_eq_true'] using hg
  rw [hk] at hend ⊢
  unfold withChoice at hend ⊢
  simp only [hskip, Bool.false_eq_true] at hend ⊢
  split at hend
  · next hok =>
    rw [if_pos hok]
    cases hst : peerStrict env.server peer with
    | false =>
      have hf := startMethod_flags env
        { s with
          net := { s.net with initRecvd := true, strict := false }
          dispatch := base
          chosen := some c } c.kex.2.type p.now
      exact .inl ⟨hf.1, .inl hf.2⟩
    | true =>
      rw [hst] at hend
      obtain ⟨f, t, h, rest, n, hfam, hstage, hne, hkept, hn⟩ := startMethod_running hend
      rw [hn]
      refine .inr ⟨hfirst (hseq hst), f, t, h, rest, hstage, hkept.strict, hkept.initial.trans hw.initial,
        hkept.done.trans hw.done, hkept.outgoing.trans hw.outgoing, hw.skip, rfl, ⟨c, rfl, hfam⟩, ?_⟩
      rw [if_neg hne]
      exact hw.sent
  · cases hend

/-- what else the table does before the proposal leaves it there -/
theorem Waiting.dispatch (hw : Waiting s) (hfirst : seq = 0 → s.accepted = []) (hg : rightGuess env p = true)
    (hend : (dispatchPacket env s p seq).net.ended = false) :
    (Waiting (dispatchPacket env s p seq) ∧ (dispatchPacket env s p seq).net.pRead = s.net.pRead) ∨
      Loose (dispatchPacket env s p seq) ∨ (p.type = SSH2_MSG_KEXINIT ∧ (dispatchPacket env s p seq).accepted = [] ∧
        ∃ f t h rest, Expecting env f [] t h rest (dispatchPacket env s p seq)) := by
  obtain ⟨h, htab, hd⟩ := dispatchPacket_running hend
  rw [if_neg (not_not.2 hw.skip)] at hd
  rw [hd] at hend ⊢
  rw [hw.table] at htab
  by_cases hk : p.type = SSH2_MSG_KEXINIT
  · rw [hk] at htab
    cases htab
    obtain hl | hx := hw.proposal hfirst hg hk hend
    · exact .inr (.inl hl)
    · exact .inr (.inr ⟨hk, hx⟩)
  · rw [Function.update_of_ne hk] at htab
    have hsend : kexProtocolError env s p = send env s SSH2_MSG_UNIMPLEMENTED p.now := if_neg (by simp [hw.strict])
    rw [base_some htab, show invoke env s p seq .kexProtocolError = _ from hsend] at hend ⊢
    have hkept := send_running (by decide) hend
    exact .inl ⟨⟨hkept.strict.trans hw.strict, hkept.initRecvd.trans hw.initRecvd, hkept.initSent.trans hw.initSent,
      hkept.initial.trans hw.initial, hkept.done.trans hw.done, hkept.outgoing.trans hw.outgoing, hw.skip, hw.table,
      hw.sent⟩, hkept.pRead⟩

theorem step_waiting (hs : s.net.ended = false) (hend : (step env s p).net.ended = false) (hw : Waiting s)
    (hfirst : s.net.pRead.seqnr = 0 → s.accepted = []) (hg : rightGuess env p = true) : Inv env (step env s p) := by
  obtain ⟨hr, s', r, hs', rfl, hrun, heq⟩ := step_running hs hw.done hend
  obtain ⟨hrec, hwrap⟩ := received_running hw.done hw.initial hr
  rw [hrec] at hs'
  have hw' : Waiting s' := by
    rw [hs']
    exact { hw with }
  -- the number has not wrapped, so from now on it tells that something was accepted
  have hseq : s'.net.pRead.seqnr ≠ 0 := by
    rw [hs']
    show (if p.type = SSH2_MSG_NEWKEYS ∧ s.net.strict = true then 0 else s.net.pRead.seqnr + 1) ≠ 0
    rwa [if_neg (by simp [hw.strict])]
  have hacc : s'.accepted = s.accepted := by rw [hs']
  have stay (s₂ : State) (h₂ : Waiting s₂) (hr : s₂.net.pRead = s'.net.pRead) :
      Inv env { s₂ with accepted := s₂.accepted ++ [p] } :=
    .waiting { h₂ with }
      fun h0 => absurd ((congrArg Counters.seqnr hr).symm.trans h0) hseq
  rw [heq]
  obtain hc | ⟨hre, -⟩ | hc := readPollSeqnr_cases hw'.strict hrun
  · rw [hc]
    exact stay s' hw' rfl
  · simp [PacketSend.State.isRekeying, hw'.done] at hre
  rw [hc] at hrun ⊢
  obtain ⟨hx, hr⟩ | hl | ⟨hk, ha, f, t, h, rest, he⟩ := hw'.dispatch (fun h0 => hacc.trans (hfirst h0)) hg hrun
  · exact stay _ hx hr
  · exact .loose hl
  · refine .expecting { he with } ?_
    show (map _ (_ ++ [p])) = _
    rw [ha]
    simp [hk]

/-! ## Runs -/

/-- **Step lemma.** -/
theorem step_inv (hg : rightGuess env p = true) (hi : Inv env s) : Inv env (step env s p) := by
  by_cases hend : (step env s p).net.ended = true
  · exact .ended hend
  by_cases hs : s.net.ended = true
  · exact .ended (by rwa [step, if_pos (by simp [hs])])
  rw [Bool.not_eq_true] at hend hs
  cases hi with
  | ended h => exact absurd (h.symm.trans hs) (by decide)
  | waiting h first => exact step_waiting hs hend h first hg
  | loose h => exact step_loose hs hend h
  | expecting he types => exact step_expecting hs hend he types
  | finished h types =>
    rw [step, if_pos (by simp [h.done])]
    exact .finished h types

theorem inv_start (env : Env) : Inv env (start env) := by
  have hnet : (start env).net = PacketSend.kexSendKexinit env.cfg PacketSend.start := rfl
  by_cases he : (PacketSend.send2Wrapped env.cfg PacketSend.start env.cfg.kexinit).ended = true
  · exact .ended (by rw [hnet]; exact (congrArg _ (if_pos he)).trans he)
  have hk := (send2Wrapped_kept (Bool.not_eq_true _ ▸ he)).1
  have hs : (start env).net =
      { PacketSend.send2Wrapped env.cfg PacketSend.start env.cfg.kexinit with initSent := true } := by
    rw [hnet]
    exact if_neg he
  refine .waiting ⟨?_, ?_, ?_, ?_, ?_, ?_, rfl, rfl, rfl⟩ fun _ => rfl
  all_goals rw [hs]
  exacts [hk.strict, hk.initRecvd, hk.initial, hk.done, hk.outgoing]

/-- **Run lemma.** -/
theorem inv_run (env : Env) (packets : List Delivered) (hg : ∀ p ∈ packets, rightGuess env p = true) :
    Inv env (run (step env) (start env) packets) := by
  induction packets using reverseRecOn with
  | nil => exact inv_start env
  | append_singleton packets p ih =>
    rw [run_append]
    exact step_inv (hg p (by simp)) (ih fun q hq => hg q (by simp [hq]))

/-- **Prefix safety of the strict key exchange.** Whatever packets a side is given, as long as no proposal among them
announces a wrong guess. -/
theorem strict_prefix (env : Env) (packets : List Delivered) (hg : ∀ p ∈ packets, rightGuess env p = true) :
    PrefixSafe env (run (step env) (start env) packets) := by
  intro hend hstrict
  cases inv_run env packets hg with
  | ended h => exact absurd (h.symm.trans hend) (by decide)
  | waiting h _ => exact absurd (h.strict.symm.trans hstrict) (by decide)
  | loose h => exact absurd (h.1.symm.trans hstrict) (by decide)
  | @expecting f pre t h rest he types =>
    obtain ⟨c, hc, hf⟩ := he.chosen
    refine ⟨c, f, hc, hf, ?_, ?_, fun hd => absurd (he.done.symm.trans hd) (by decide)⟩
    · rw [types, expected_eq, he.stage, map_append]
      exact prefix_append (SSH2_MSG_KEXINIT :: pre.map Prod.fst) _
    · intro n hn
      rw [he.sent] at hn
      split at hn
      · exact mem_singleton.1 hn
      · cases hn
  | finished h types =>
    obtain ⟨c, hc, hf⟩ := h.chosen
    refine ⟨c, _, hc, hf, by rw [types], fun n hn => ?_, fun _ => ⟨types, h.seqnr, h.sent⟩⟩
    rw [h.sent] at hn
    exact mem_singleton.1 hn

/-! ## Two exchanges -/

/-- a server with one algorithm of each kind -/
def smallServer : Env where
  cfg := ⟨0, 0, true, 1000, 64⟩
  tables :=
    { kexAlgByName := fun name => if name = "curve25519-sha256" then some ⟨9, 2, 0⟩ else none
      hostkeyType := fun name => if name = "ssh-ed25519" then some 3 else none
      cipherByName := fun name => if name = "aes128-ctr" then some ⟨16, 16, 16, 0, 16⟩ else none
      macSetup := fun name => if name = "hmac-sha2-256" then some ⟨32⟩ else none }
  my :=
    { prop := fun
        | .kexAlgs => "curve25519-sha256,ext-info-s,kex-strict-s-v00@openssh.com"
        | .serverHostKeyAlgs => "ssh-ed25519"
        | .encAlgsCtos | .encAlgsStoc => "aes128-ctr"
        | .macAlgsCtos | .macAlgsStoc => "hmac-sha2-256"
        | .compAlgsCtos | .compAlgsStoc => "none"
      firstKexFollows := false }
  succeeds := fun _ _ => true
  len := fun _ => 100

/-- the proposal of a client -/
def clientKexinit (kexAlgs : String) (firstKexFollows : UInt8) : Delivered where
  type := SSH2_MSG_KEXINIT
  body := List.replicate KEX_COOKIE_LEN 0 ++ putString (ascii kexAlgs) ++ putString (ascii "ssh-ed25519") ++
    putString (ascii "aes128-ctr") ++ putString (ascii "aes128-ctr") ++ putString (ascii "hmac-sha2-256") ++
    putString (ascii "hmac-sha2-256") ++ putString (ascii "none") ++ putString (ascii "none") ++ putString [] ++
    putString [] ++ putU8 firstKexFollows ++ putU32 0
  size := 1000
  now := 0

def message (type : UInt8) : Delivered := ⟨type, [], 48, 0⟩

/-- a client without a guess -/
def honest : List Delivered :=
  [clientKexinit "curve25519-sha256,ext-info-c,kex-strict-c-v00@openssh.com" 0, message SSH2_MSG_KEX_ECDH_INIT,
    message SSH2_MSG_NEWKEYS]

theorem strict_prefix_honest :
    (∀ p ∈ honest, rightGuess smallServer p = true) ∧ (run (step smallServer) (start smallServer) honest).net.done = true ∧
      PrefixSafe smallServer (run (step smallServer) (start smallServer) honest) :=
  ⟨by decide +kernel, by decide +kernel, strict_prefix smallServer honest (by decide +kernel)⟩

/-- the client guesses another method, and a packet is put in where the guess would come -/
def guessed : List Delivered :=
  [clientKexinit "ecdh-sha2-nistp256,curve25519-sha256,kex-strict-c-v00@openssh.com" 1, message SSH2_MSG_IGNORE,
    message SSH2_MSG_KEX_ECDH_INIT, message SSH2_MSG_NEWKEYS]

/-- **The packet after a wrong guess.** The strict exchange is done, with `IGNORE` after the proposal. -/
theorem wrong_guess_skips_ignore : (run (step smallServer) (start smallServer) guessed).net.done = true ∧
      (run (step smallServer) (start smallServer) guessed).types =
        [SSH2_MSG_KEXINIT, SSH2_MSG_IGNORE, SSH2_MSG_KEX_ECDH_INIT, SSH2_MSG_NEWKEYS] ∧
      ¬PrefixSafe smallServer (run (step smallServer) (start smallServer) guessed) := by
  have htypes : (run (step smallServer) (start smallServer) guessed).types =
      [SSH2_MSG_KEXINIT, SSH2_MSG_IGNORE, SSH2_MSG_KEX_ECDH_INIT, SSH2_MSG_NEWKEYS] := by decide +kernel
  refine ⟨by decide +kernel, htypes, fun h => ?_⟩
  obtain ⟨c, f, -, -, hpre, -⟩ := h (by decide +kernel) (by decide +kernel)
  rw [htypes] at hpre
  revert hpre
  cases f <;> decide

end OpenSSHServerPN.StrictKex
