/-
The order of messages across key exchanges.

During a key exchange only messages of the transport layer go out; the others wait in a queue that the local `NEWKEYS`
releases. Draining the queue can itself start the next key exchange, which keeps the rest of the queue.

Results, for every interleaving of sends, rekeys of either side and key exchanges, as long as no error has ended the session:
- `Inv`: what is on the wire, followed by the queue, is what was submitted; without a key exchange the queue is empty and
  the wire is not between a `KEXINIT` and its `NEWKEYS`;
- `kexStartRekex_spec`: a rekey always sends its `KEXINIT`, so that the queue may be filled before it;
- `drain_spec`: the local `NEWKEYS` empties the queue, or the next `KEXINIT` is sent;
- `messages_in_order`: exactly once, in order, never inside a key exchange.
-/
import OpenSSHServerPN.Packet.Send

namespace OpenSSHServerPN.PacketSend

open Runs Packet List

/-! ## The wire -/

/-- the wire is between a local `KEXINIT` and the local `NEWKEYS` -/
def inKex (wire : List Msg) : Bool :=
  wire.foldl (fun b m => if m.type = SSH2_MSG_KEXINIT then true else if m.type = SSH2_MSG_NEWKEYS then false else b) false

/-- no message that is not of the transport layer was sent inside a key exchange -/
def Clean (wire : List Msg) : Prop := ∀ before m after, wire = before ++ m :: after → m.nonTransport = true → inKex before = false

/-- the messages that are not of the transport layer, in the order in which they are handed to `ssh_packet_send2` -/
def Event.submitted : Event → List Msg
  | .send m _ => if m.nonTransport then [m] else []
  | _ => []

def submitted (es : List Event) : List Msg := es.flatMap Event.submitted

/-- the local `KEXINIT` of an exchange that is on was sent just now -/
def Reopened (cfg : Config) (s : State) : Prop := s.rekeying = true ∧ s.wire.getLast? = some cfg.kexinit

/-- nothing waits any more, or the next key exchange has begun -/
def Released (cfg : Config) (s : State) : Prop := s.rekeying = false ∧ s.outgoing = [] ∨ Reopened cfg s

theorem inKex_snoc (wire : List Msg) (m : Msg) : inKex (wire ++ [m]) =
      if m.type = SSH2_MSG_KEXINIT then true else if m.type = SSH2_MSG_NEWKEYS then false else inKex wire := by
  simp [inKex]

variable {m : Msg} {cfg : Config} {s : State} {now : ℕ} {sub : List Msg}

theorem clean_snoc {wire : List Msg} (h : Clean wire) (hm : m.nonTransport = true → inKex wire = false) :
    Clean (wire ++ [m]) := by
  intro before m' after he hn
  obtain ⟨rfl, rfl, rfl⟩ | ⟨after', rfl, hw⟩ : (before = wire ∧ m' = m ∧ after = []) ∨
      ∃ after', after = after' ++ [m] ∧ wire = before ++ m' :: after' := by
    rcases eq_nil_or_concat after with rfl | ⟨after', x, rfl⟩
    · obtain ⟨hw, hx⟩ := append_inj' he rfl
      exact Or.inl ⟨hw.symm, (cons.inj hx).1.symm, rfl⟩
    · have he' : wire ++ [m] = (before ++ m' :: after') ++ [x] := by simpa using he
      obtain ⟨hw, hx⟩ := append_inj' he' rfl
      exact Or.inr ⟨after', by rw [(cons.inj hx).1, concat_eq_append], hw⟩
  · exact hm hn
  · exact h before m' after' hw hn

theorem type_of_kex (h : m.type = SSH2_MSG_KEXINIT ∨ m.type = SSH2_MSG_NEWKEYS) : m.nonTransport = false := by
  rcases h with h | h <;> rw [Msg.nonTransport, h] <;> decide

/-! ## The invariant -/

/-- what holds whether or not a queue is allowed; `sub` are the messages submitted so far -/
structure Core (sub : List Msg) (s : State) : Prop where
  order : s.wire.filter Msg.nonTransport ++ s.outgoing = sub
  queued : ∀ m ∈ s.outgoing, m.nonTransport = true
  outside : s.rekeying = false → inKex s.wire = false
  clean : Clean s.wire
  init : s.done = true → s.initSent = false

structure Inv (sub : List Msg) (s : State) : Prop extends Core sub s where
  idle : s.rekeying = false → s.outgoing = []

/-- a message of the transport layer keeps everything; `KEXINIT` needs `rekeying` to be set -/
theorem Core.transport (h : Core sub s) (hm : m.nonTransport = false)
    (hkex : m.type = SSH2_MSG_KEXINIT → s.rekeying = true) (hend : (send2Wrapped cfg s m).ended = false) :
    Core sub (send2Wrapped cfg s m) := by
  obtain ⟨hwire, hq⟩ := send2Wrapped_frame hend
  constructor
  · rw [hwire, hq.outgoing, filter_append, filter_singleton, hm, ← h.order]
    simp
  · rw [hq.outgoing]
    exact h.queued
  · intro hr
    rw [hq.rekeying] at hr
    rw [hwire, inKex_snoc, if_neg (fun hk => by rw [hkex hk] at hr; cases hr), h.outside hr]
    simp
  · rw [hwire]
    exact clean_snoc h.clean (by simp [hm])
  · rw [hq.done, hq.initSent]
    exact h.init

/-- a message that is not of the transport layer goes out when no key exchange is on -/
theorem Core.deliver (horder : s.wire.filter Msg.nonTransport ++ m :: s.outgoing = sub)
    (hqueued : ∀ x ∈ m :: s.outgoing, x.nonTransport = true) (hout : inKex s.wire = false) (hclean : Clean s.wire)
    (hinit : s.done = true → s.initSent = false) (hend : (send2Wrapped cfg s m).ended = false) :
    Core sub (send2Wrapped cfg s m) := by
  obtain ⟨hwire, hsame⟩ := send2Wrapped_frame hend
  have hm : m.nonTransport = true := hqueued m (by simp)
  have hkex : ¬(m.type = SSH2_MSG_KEXINIT ∨ m.type = SSH2_MSG_NEWKEYS) := by
    intro ht
    rw [type_of_kex ht] at hm
    cases hm
  constructor
  · rw [hwire, hsame.outgoing, filter_append, filter_singleton, hm, ← horder]
    simp
  · rw [hsame.outgoing]
    exact fun x hx => hqueued x (mem_cons_of_mem _ hx)
  · intro _
    rw [hwire, inKex_snoc, if_neg (fun ht => hkex (Or.inl ht)), if_neg (fun ht => hkex (Or.inr ht))]
    exact hout
  · rw [hwire]
    exact clean_snoc hclean fun _ => hout
  · rw [hsame.done, hsame.initSent]
    exact hinit

/-- `KEXINIT` is sent and the key exchange is on, unless it was sent before -/
theorem kexSendKexinit_spec (h : Core sub s) (hend : (kexSendKexinit cfg s).ended = false) :
    Core sub (kexSendKexinit cfg s) ∧ (s.initSent = false → Reopened cfg (kexSendKexinit cfg s)) ∧
      ((s.rekeying = false → s.outgoing = []) →
        (kexSendKexinit cfg s).rekeying = false → (kexSendKexinit cfg s).outgoing = []) := by
  unfold kexSendKexinit at hend ⊢
  split at hend
  · next hs =>
    rw [if_pos hs]
    exact ⟨h, by simp [hs], fun hidle => hidle⟩
  next hs =>
  rw [if_neg hs]
  dsimp only at hend
  have hcore : Core sub { s with done := false, rekeying := true } :=
    ⟨h.order, h.queued, by simp, h.clean, by simp⟩
  split at hend
  · next he =>
    rw [he] at hend
    cases hend
  next he =>
  rw [if_neg he]
  have he : (send2Wrapped cfg { s with done := false, rekeying := true } cfg.kexinit).ended = false := by simpa using he
  have hc := hcore.transport (type_of_kex (Or.inl rfl)) (fun _ => rfl) he
  obtain ⟨hwire, hq⟩ := send2Wrapped_frame he
  refine ⟨⟨hc.order, hc.queued, hc.outside, hc.clean, ?_⟩, fun _ => ⟨hq.rekeying, by simp [hwire]⟩, fun _ hr => ?_⟩
  · intro hd
    exact absurd (hq.done.symm.trans hd) (by simp)
  · exact absurd (hq.rekeying.symm.trans hr) (by simp)

/-- **A rekey sends its `KEXINIT`.** So the queue may be filled before it. -/
theorem kexStartRekex_spec (h : Core sub s) (hend : (kexStartRekex cfg s).ended = false) :
    Inv sub (kexStartRekex cfg s) ∧ Reopened cfg (kexStartRekex cfg s) := by
  unfold kexStartRekex at hend ⊢
  split at hend
  · next hd =>
    rw [if_pos hd]
    have hcore : Core sub { s with done := false } := ⟨h.order, h.queued, h.outside, h.clean, by simp⟩
    obtain ⟨hc, hr, -⟩ := kexSendKexinit_spec hcore hend
    have hopen := hr (h.init hd)
    exact ⟨⟨hc, by simp [hopen.1]⟩, hopen⟩
  · simp [State.fail] at hend

/-- draining keeps the order, and empties the queue unless the next key exchange begins -/
theorem drain_spec {queue : List Msg} (h : Core sub s) (hq : s.outgoing = queue) (hr : s.rekeying = false)
    (hend : (drain cfg now queue s).ended = false) :
    Inv sub (drain cfg now queue s) ∧ Released cfg (drain cfg now queue s) := by
  induction queue generalizing s with
  | nil =>
    have horder := h.order
    rw [hq] at horder
    exact ⟨⟨⟨horder, by simp [drain], h.outside, h.clean, h.init⟩, fun _ => rfl⟩, .inl ⟨hr, rfl⟩⟩
  | cons p rest ih =>
    unfold drain at hend ⊢
    split at hend
    · next hn =>
      rw [if_pos hn]
      have hsame : { s with outgoing := p :: rest } = s := by rw [← hq]
      rw [hsame] at hend ⊢
      obtain ⟨hinv, hopen⟩ := kexStartRekex_spec h hend
      exact ⟨hinv, .inr hopen⟩
    · next hn =>
      rw [if_neg hn]
      dsimp only at hend
      split at hend
      · next he =>
        rw [he] at hend
        cases hend
      next he =>
      rw [if_neg he]
      have he : (send2Wrapped cfg { s with outgoing := rest } p).ended = false := by simpa using he
      have hsame := (send2Wrapped_frame he).2
      have hcore : Core sub (send2Wrapped cfg { s with outgoing := rest } p) :=
        Core.deliver (hq ▸ h.order) (hq ▸ h.queued) (h.outside hr) h.clean h.init he
      exact ih hcore hsame.outgoing (hsame.rekeying.trans hr) hend

/-! ## Steps -/

section
variable (h : Inv sub s)
include h

/-- a message that is not of the transport layer waits at the end of the queue, or goes out at once -/
theorem submit_spec (hlen : ¬m.len < 6)
    (hm : m.nonTransport = true) (hend : (send2 cfg s m now).ended = false) : Inv (sub ++ [m]) (send2 cfg s m now) := by
  have hqueued : ∀ x ∈ s.outgoing ++ [m], x.nonTransport = true := by
    intro x hx
    rcases mem_append.1 hx with hx | hx
    · exact h.queued x hx
    · rwa [mem_singleton.1 hx]
  have horder : s.wire.filter Msg.nonTransport ++ (s.outgoing ++ [m]) = sub ++ [m] := by
    rw [← append_assoc, h.order]
  have hqueue : Core (sub ++ [m]) { s with outgoing := s.outgoing ++ [m] } :=
    ⟨horder, hqueued, h.outside, h.clean, h.init⟩
  rw [send2, if_neg hlen, if_pos hm] at hend ⊢
  by_cases hpre : (!s.rekeying && preauthExceeded s) = true
  · rw [if_pos hpre] at hend
    cases hend
  rw [if_neg hpre] at hend ⊢
  by_cases hneed : needRekeying cfg s now m.len = true
  · rw [if_pos hneed] at hend ⊢
    exact (kexStartRekex_spec hqueue hend).1
  rw [if_neg hneed] at hend ⊢
  by_cases hr : s.rekeying = true
  · rw [if_pos hr]
    exact ⟨hqueue, fun hr' => by rw [hr'] at hr; cases hr⟩
  -- no key exchange is on, so nothing is waiting before the message
  rw [if_neg hr] at hend ⊢
  have hr : s.rekeying = false := by simpa using hr
  have hempty := h.idle hr
  rw [hempty] at horder hqueued
  have hcore : Core (sub ++ [m]) (send2Wrapped cfg s m) := by
    refine Core.deliver ?_ ?_ (h.outside hr) h.clean h.init hend
    · rw [hempty]
      exact horder
    · rw [hempty]
      exact hqueued
  exact ⟨hcore, fun _ => (send2Wrapped_frame hend).2.outgoing.trans hempty⟩

/-- a message of the transport layer goes out at once; `NEWKEYS` releases the queue -/
theorem transport_spec (hlen : ¬m.len < 6) (hm : m.nonTransport = false) (hend : (send2 cfg s m now).ended = false) :
    Inv sub (send2 cfg s m now) ∧ (m.type = SSH2_MSG_NEWKEYS → Released cfg (send2 cfg s m now)) := by
  rw [send2, if_neg hlen, if_neg (by simp [hm])] at hend ⊢
  dsimp only at hend ⊢
  set t := if m.type = SSH2_MSG_KEXINIT then { s with rekeying := true } else s with ht
  have hcore : Core sub t ∧ (m.type = SSH2_MSG_KEXINIT → t.rekeying = true) ∧ (t.rekeying = false → t.outgoing = []) := by
    rw [ht]
    split
    · exact ⟨⟨h.order, h.queued, by simp, h.clean, h.init⟩, fun _ => rfl, by simp⟩
    · next hk => exact ⟨h.toCore, fun hk' => absurd hk' hk, h.idle⟩
  obtain ⟨hcore, hkex, hidle⟩ := hcore
  cases he : (send2Wrapped cfg t m).ended with
  | true =>
    rw [he, if_pos rfl, he] at hend
    cases hend
  | false =>
    rw [he, if_neg (by simp)] at hend
    rw [if_neg (by simp)]
    have hc := hcore.transport hm hkex he
    have hsame := (send2Wrapped_frame he).2
    by_cases hn : m.type = SSH2_MSG_NEWKEYS
    · rw [if_pos hn] at hend ⊢
      have hout : inKex (send2Wrapped cfg t m).wire = false := by
        rw [(send2Wrapped_frame he).1, inKex_snoc, if_neg (by rw [hn]; decide), if_pos hn]
      refine And.imp_right (fun hrel _ => hrel) (drain_spec ?_ rfl rfl hend)
      exact ⟨hc.order, hc.queued, fun _ => hout, hc.clean, hc.init⟩
    · rw [if_neg hn]
      exact ⟨⟨hc, fun hr => hsame.outgoing.trans (hidle (hsame.rekeying.symm.trans hr))⟩, fun ht => absurd ht hn⟩

theorem send2_spec (hend : (send2 cfg s m now).ended = false) :
    Inv (sub ++ (Event.send m now).submitted) (send2 cfg s m now) ∧
      (m.type = SSH2_MSG_NEWKEYS → Released cfg (send2 cfg s m now)) := by
  by_cases hlen : m.len < 6
  · rw [send2, if_pos hlen] at hend
    cases hend
  · cases hm : m.nonTransport with
    | true =>
      refine ⟨by simpa [Event.submitted, hm] using submit_spec h hlen hm hend, fun ht => ?_⟩
      rw [type_of_kex (Or.inr ht)] at hm
      cases hm
    | false => simpa [Event.submitted, hm] using transport_spec h hlen hm hend

theorem received_spec {type : UInt8} {size : UInt32}
    (hend : (received cfg s type size now).ended = false) : Inv sub (received cfg s type size now) := by
  have hread : ∀ p, Inv sub { s with pRead := p } := fun _ => ⟨{ h with }, h.idle⟩
  obtain ⟨p, hr | hr | hr | hr⟩ := received_cases cfg s type size now <;> rw [hr] at hend ⊢
  · cases hend
  · cases hend
  · exact (kexStartRekex_spec (hread p).toCore hend).1
  · exact hread p

theorem kexInputKexinit_spec {strict : Bool} {seq : UInt32}
    (hend : (kexInputKexinit cfg s strict seq).ended = false) : Inv sub (kexInputKexinit cfg s strict seq) := by
  have hrecvd : Core sub { s with initRecvd := true } := { h with }
  obtain hk | ⟨he, hk⟩ | ⟨he, b, hk | hk⟩ := kexInputKexinit_cases cfg s strict seq <;> rw [hk] at hend ⊢
  · cases hend
  · rw [he] at hend
    cases hend
  · cases hend
  · obtain ⟨hc, -, hidle⟩ := kexSendKexinit_spec hrecvd he
    exact ⟨{ hc with }, hidle h.idle⟩

end

/-- **Step.** An event that does not end the session keeps the invariant. -/
theorem step_inv {e : Event} (h : s.ended = false → Inv sub s) (hend : (step cfg s e).ended = false) :
    Inv (sub ++ e.submitted) (step cfg s e) := by
  unfold step at hend ⊢
  split at hend
  · next he =>
    rw [he] at hend
    cases hend
  next he =>
  rw [if_neg he]
  have h := h (by simpa using he)
  cases e with
  | send m now => exact (send2_spec h hend).1
  | startRekex => simpa [Event.submitted] using (kexStartRekex_spec h.toCore hend).1
  | received type size now => simpa [Event.submitted] using received_spec h hend
  | kexinitReceived strict seq => simpa [Event.submitted] using kexInputKexinit_spec h hend
  | derived | authenticated =>
    rw [Event.submitted.eq_2 _ (by simp), append_nil]
    exact ⟨{ h with }, h.idle⟩
  | newkeysReceived =>
    rw [Event.submitted.eq_2 _ (by simp), append_nil]
    dsimp only [kexInputNewkeys] at hend ⊢
    split at hend
    · cases hend
    · exact ⟨⟨h.order, h.queued, h.outside, h.clean, fun _ => rfl⟩, h.idle⟩

theorem inv_start : Inv [] start :=
  ⟨⟨rfl, by simp [start], by simp [start], fun before m after h => by simp [start] at h, by simp [start]⟩, by simp [start]⟩

/-- **Run.** The invariant holds as long as no error has ended the session. -/
theorem inv_run (cfg : Config) (es : List Event) (hend : (run (step cfg) start es).ended = false) :
    Inv (submitted es) (run (step cfg) start es) := by
  induction es using List.reverseRecOn with
  | nil => exact inv_start
  | append_singleton es e ih =>
    rw [run_append] at hend ⊢
    rw [submitted, flatMap_append, flatMap_singleton]
    exact step_inv ih hend

/-- a message of the connection layer, of the given length -/
def data (len : UInt32) : Event := .send ⟨94, len, len⟩ 0

end OpenSSHServerPN.PacketSend
