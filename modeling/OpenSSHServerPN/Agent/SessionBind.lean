/-
Session binds of the agent (`ssh-agent.c`: `process_ext_session_bind`).

Model: a socket records the session ids bound to it, each with its host key. A message is the rest of the request behind the
name of the extension. Keys are a parameter: reading them, `sshkey_equal` and `sshkey_verify`. `r` is the status variable of
the source, which the common exit turns into the result.

Result: `session_bind_truthful_iff`.
-/
import OpenSSHServerPN.Lib.Wire

namespace OpenSSHServerPN.SessionBind

open Wire List

abbrev Bytes := List UInt8

def AGENT_MAX_SESSION_IDS : ℕ := 16
def AGENT_MAX_SID_LEN : ℕ := 128
/-- `SSHBUF_SIZE_MAX - 4` -/
def SIZE_MAX : ℕ := 0x8000000 - 4

/-! ## Model -/

/-- host keys as the agent uses them -/
structure KeyFormat (Key : Type) where
  /-- `sshkey_froms` -/
  froms : Get Key
  /-- `sshkey_equal` -/
  equal : Key → Key → Bool
  equal_self : ∀ k, equal k k = true
  /-- `sshkey_verify` of a signature over data -/
  verify : Key → Bytes → Bytes → Bool

structure SessionId (Key : Type) where
  key : Key
  sid : Bytes
  forwarded : Bool

/-- what `SocketEntry` has for session binds -/
structure Socket (Key : Type) where
  sessionBindAttempted : Bool
  sessionIds : List (SessionId Key)
  count_le : sessionIds.length ≤ AGENT_MAX_SESSION_IDS
  sid_le : ∀ x ∈ sessionIds, x.sid.length ≤ AGENT_MAX_SID_LEN

structure Bind (Key : Type) where
  key : Key
  sid : Bytes
  sig : Bytes
  fwd : UInt8

variable {Key : Type} (F : KeyFormat Key)

/-- the fields of a message -/
def parse : Get (Bind Key) := do
  let key ← F.froms
  let sid ← getString SIZE_MAX
  let sig ← getString SIZE_MAX
  let fwd ← getU8
  pure ⟨key, sid, sig, fwd⟩

/-- the loop over the recorded ids: the status with which it leaves the function -/
def recorded (b : Bind Key) : List (SessionId Key) → Option ℤ
  | [] => none
  | x :: xs =>
    if !x.forwarded then some (-1)
    else if b.sid = x.sid ∧ F.equal b.key x.key then some 0
    else if b.sid = x.sid then some (-1)
    else recorded b xs

/-- `process_ext_session_bind`: the status `r` and the socket -/
def sessionBind (e : Socket Key) (request : Bytes) : ℤ × Socket Key :=
  let e := { e with sessionBindAttempted := true }
  match parse F request with
  | none => (-1, e)
  | some (b, _) =>
    -- `r` is still the 0 of the last field that was read
    if hlen : AGENT_MAX_SID_LEN < b.sid.length then (0, e)
    else if !F.verify b.key b.sig b.sid then (-1, e)
    else
      match recorded F b e.sessionIds with
      | some r => (r, e)
      | none =>
        if hroom : AGENT_MAX_SESSION_IDS ≤ e.sessionIds.length then (-1, e)
        else
          (0, { e with
            sessionIds := e.sessionIds ++ [⟨b.key, b.sid, b.fwd != 0⟩]
            count_le := by
              rw [length_append]
              exact Nat.lt_of_not_le hroom
            sid_le := by
              simp only [mem_append, mem_singleton]
              rintro x (hx | rfl)
              · exact e.sid_le x hx
              · exact not_lt.1 hlen })

/-- the result of `process_ext_session_bind` -/
def succeeds (e : Socket Key) (request : Bytes) : Bool := (sessionBind F e request).1 == 0

/-! ## Replies -/

/-- the socket records the session id with the key -/
def Records (e : Socket Key) (b : Bind Key) : Prop := ∃ x ∈ e.sessionIds, x.sid = b.sid ∧ F.equal b.key x.key = true

variable {F} {b : Bind Key}

theorem recorded_zero {xs : List (SessionId Key)} (h : recorded F b xs = some 0) :
    ∃ x ∈ xs, x.sid = b.sid ∧ F.equal b.key x.key = true := by
  induction xs with
  | nil => cases h
  | cons x xs ih =>
    rw [recorded] at h
    split_ifs at h with hf hboth
    · cases h
    · exact ⟨x, mem_cons_self, hboth.1.symm, hboth.2⟩
    · cases h
    · obtain ⟨y, hy, hmatch⟩ := ih h
      exact ⟨y, mem_cons_of_mem x hy, hmatch⟩

/-- **Session binds are answered truthfully exactly for short session ids.** The reply is a success only for a signature that
verifies and an id that is then recorded with the key, and a failure leaves the list as it was, if and only if the message is
not one with a session id above `AGENT_MAX_SID_LEN`. -/
theorem session_bind_truthful_iff (F : KeyFormat Key) (e : Socket Key) (request : Bytes) :
    ((succeeds F e request = true → ∃ b rest, parse F request = some (b, rest) ∧ F.verify b.key b.sig b.sid = true ∧
        Records F (sessionBind F e request).2 b) ∧
      (succeeds F e request = false → (sessionBind F e request).2.sessionIds = e.sessionIds)) ↔
    ∀ b rest, parse F request = some (b, rest) → b.sid.length ≤ AGENT_MAX_SID_LEN := by
  unfold succeeds sessionBind
  dsimp only
  cases hp : parse F request with
  | none => simp
  | some p =>
    obtain ⟨b, rest⟩ := p
    dsimp only
    by_cases hlen : AGENT_MAX_SID_LEN < b.sid.length
    · rw [dif_pos hlen]
      refine iff_of_false (fun h => ?_) fun h => absurd (h b rest rfl) (not_le.2 hlen)
      -- a recorded id is short
      obtain ⟨b', rest', he, -, x, hx, hsid, -⟩ := h.1 rfl
      cases he
      exact absurd (e.sid_le x hx) (hsid ▸ not_le.2 hlen)
    · rw [dif_neg hlen]
      refine iff_of_true ?_ fun b' rest' he => by
        cases he
        exact not_lt.1 hlen
      by_cases hv : F.verify b.key b.sig b.sid = true
      · rw [if_neg (by simp [hv])]
        cases hr : recorded F b e.sessionIds with
        | some r =>
          refine ⟨fun h => ⟨b, rest, rfl, hv, recorded_zero ?_⟩, fun _ => rfl⟩
          rw [hr]
          exact congrArg some (by simpa using h)
        | none =>
          by_cases hroom : AGENT_MAX_SESSION_IDS ≤ e.sessionIds.length
          · rw [dif_pos hroom]
            exact ⟨fun h => by simp at h, fun _ => rfl⟩
          · rw [dif_neg hroom]
            exact ⟨fun _ => ⟨b, rest, rfl, hv, _, mem_append_right _ (mem_singleton_self _), rfl, F.equal_self _⟩,
              fun h => by simp at h⟩
      · rw [if_pos (by simpa using hv)]
        exact ⟨fun h => by simp at h, fun _ => rfl⟩

/-- keys of one byte, for which no signature verifies -/
def noSignature : KeyFormat UInt8 := ⟨getU8, fun a b => a == b, by simp, fun _ _ _ => false⟩

/-- **A session id of 129 bytes** is answered with success: no signature was checked, and nothing is recorded. -/
theorem session_bind_long :
    succeeds noSignature ⟨false, [], by decide, by simp⟩ (7 :: putString (replicate 129 0) ++ putString [] ++ [0]) = true := by
  decide +kernel

end OpenSSHServerPN.SessionBind
