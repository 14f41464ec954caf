/-
The lists of `AuthenticationMethods` (`auth2.c`, `auth2-methods.c`).

Model: a list is the text of the configuration, method names with an optional `:submethod`, separated by commas.
`listStartsWith`, `removeMethod` and `updateMethodsLists` are the functions of the source on texts. The entries of a text
are its parts between commas. `methodsValid` is `auth2_methods_valid`: every entry names a known method, which is enabled;
what follows the colon is not looked at.

Results:
- `removeMethod_entries`: a removal takes the first entry off, which spells the method that succeeded;
- `headName_of_startsWith`: a list starts with a method only if its first entry names it;
- `removeMethod_other`: the success of one method leaves the lists alone that start with another;
- `updateMethodsLists_spec`, `updateMethodsLists_notFound`: what an update does to each list, and when it is fatal.
-/
import Mathlib.Data.List.Forall2
import OpenSSHServerPN.Lib.Scan
import OpenSSHServerPN.Match.Pattern

namespace OpenSSHServerPN.Userauth

open Scan

/-! ## Methods -/

/-- the authentication methods, in the order of the tables -/
inductive Method where
  | none
  | publickey
  | gssapiWithMic
  | password
  | keyboardInteractive
  | hostbased
deriving DecidableEq, Repr

def Method.name : Method → Text
  | .none => "none"
  | .publickey => "publickey"
  | .gssapiWithMic => "gssapi-with-mic"
  | .password => "password"
  | .keyboardInteractive => "keyboard-interactive"
  | .hostbased => "hostbased"

def Method.synonym : Method → Option Text
  | .publickey => some "publickey-hostbound-v00@openssh.com"
  | _ => Option.none

def methods : List Method := [.none, .publickey, .gssapiWithMic, .password, .keyboardInteractive, .hostbased]

/-- `authmethod_byname` -/
def authmethodByname (name : Text) : Option Method := methods.find? fun m => name = m.name || m.synonym = some name

theorem Method.name_injective : ∀ m m' : Method, m.name = m'.name → m = m' := by
  intro m m'
  cases m <;> cases m' <;> first | (intro; rfl) | (intro h; exact absurd h (by decide))

theorem Method.name_plain (m : Method) : m.name ≠ [] ∧ ',' ∉ m.name ∧ ':' ∉ m.name := by
  cases m <;> decide

/-! ## Lists -/

inductive Matched where
  | none
  /-- the method matches, no submethod is given in the list -/
  | method
  | both
  /-- the method matches, the submethod cannot be checked -/
  | partially
deriving DecidableEq, Repr

/-- `*p == ',' || *p == '\0'` -/
def endsEntry : Text → Bool
  | [] => true
  | c :: _ => c = ','

/-- `list_starts_with` -/
def listStartsWith (list method : Text) (submethod : Option Text) : Matched :=
  match after method list with
  | Option.none => .none
  | some (':' :: p) =>
    match submethod with
    | Option.none => .partially
    | some s =>
      match after s p with
      | Option.none => .none
      | some r => if endsEntry r then .both else .none
  | some p => if endsEntry p then .method else .none

def skipComma : Text → Text
  | ',' :: t => t
  | t => t

/-- `remove_method`: the rest of the list -/
def removeMethod (list method : Text) (submethod : Option Text) : Option Text :=
  match listStartsWith list method submethod with
  | .method => some (skipComma (list.drop method.length))
  | .both => some (skipComma (list.drop (method.length + (1 + (submethod.getD []).length))))
  | _ => Option.none

/-- how `auth2_update_methods_lists` ends -/
inductive Update where
  /-- a list is complete -/
  | complete
  /-- a list has become shorter -/
  | partially
  /-- `method not in AuthenticationMethods` -/
  | notFound
deriving DecidableEq, Repr

/-- `auth2_update_methods_lists`, with the lists afterwards -/
def updateMethodsLists (method : Text) (submethod : Option Text) : List Text → Bool → Update × List Text
  | [], found => (if found then .partially else .notFound, [])
  | list :: lists, found =>
    match removeMethod list method submethod with
    | Option.none =>
      let rest := updateMethodsLists method submethod lists found
      (rest.1, list :: rest.2)
    | some [] => (.complete, [] :: lists)
    | some (c :: t) =>
      let rest := updateMethodsLists method submethod lists true
      (rest.1, (c :: t) :: rest.2)

/-- the method an entry names -/
def entryMethod (entry : Text) : Option Method := methods.find? fun m => entry.takeWhile (fun c => c ≠ ':') = m.name

/-- `auth2_methods_valid` with `need_enable` -/
def methodsValid (enabled : Method → Bool) (list : Text) : Bool :=
  list ≠ [] && (list.splitOn ',').all fun entry => ((entryMethod entry).map enabled).getD false

/-! ## Entries -/

/-- the entries of a list that is still to be worked off -/
def entries (list : Text) : List Text := if list = [] then [] else list.splitOn ','

/-- an entry is spelled by a method that succeeded: by its name, or with its submethod -/
def Spells (entry : Text) (s : Method × Option Text) : Prop :=
  entry = s.1.name ∨ ∃ sub, s.2 = some sub ∧ entry = s.1.name ++ ':' :: sub

variable {x list : Text} {sub : Option Text} {m : Method}

theorem entries_head {r : Text} (hx : ',' ∉ x) (hne : x ≠ []) (hr : endsEntry r = true) (hempty : [] ∉ entries (x ++ r)) :
    entries (x ++ r) = x :: entries (skipComma r) := by
  have hxr : x ++ r ≠ [] := by simp [hne]
  cases r with
  | nil => rw [entries, if_neg hxr, List.append_nil, List.splitOn_eq_singleton hx]; rfl
  | cons c t =>
    have hc : c = ',' := by simpa [endsEntry] using hr
    subst hc
    rw [entries, if_neg hxr, List.splitOn_append_cons_self_of_not_mem hx] at hempty ⊢
    have ht : t ≠ [] := by
      rintro rfl
      exact hempty (by simp)
    rw [show skipComma (',' :: t) = t from rfl, entries, if_neg ht]

/-- what the result of `list_starts_with` says about the text -/
theorem listStartsWith_cases {method : Text} (h : listStartsWith list method sub ≠ .none) :
    (∃ r, list = method ++ r ∧ endsEntry r = true ∧ listStartsWith list method sub = .method) ∨
    (∃ s r, sub = some s ∧ list = method ++ ':' :: (s ++ r) ∧ endsEntry r = true ∧
      listStartsWith list method sub = .both) ∨
    (∃ r, sub = Option.none ∧ list = method ++ ':' :: r ∧ listStartsWith list method sub = .partially) := by
  unfold listStartsWith at h ⊢
  cases ha : after method list with
  | none => simp [ha] at h
  | some p =>
    have hlist := after_eq_some.1 ha
    rw [ha] at h
    by_cases hp : ∃ q, p = ':' :: q
    · obtain ⟨q, rfl⟩ := hp
      cases sub with
      | none => exact .inr (.inr ⟨q, rfl, hlist, rfl⟩)
      | some s =>
        cases hs : after s q with
        | none => simp [hs] at h
        | some r =>
          have hr : endsEntry r = true := by
            by_contra hr
            simp [hs, hr] at h
          exact .inr (.inl ⟨s, r, rfl, by rw [hlist, after_eq_some.1 hs], hr, by simp [hs, hr]⟩)
    · have hp' : ∀ q, p = ':' :: q → False := fun q hq => hp ⟨q, hq⟩
      have hr : endsEntry p = true := by
        by_contra hr
        simp [hr] at h
      exact .inl ⟨p, hlist, hr, by simp [hr]⟩

/-- a removal takes the first entry off, and the method that succeeded spells it -/
theorem removeMethod_entries {rest : Text} (hsub : ∀ s ∈ sub, ',' ∉ s)
    (hempty : [] ∉ entries list) (h : removeMethod list m.name sub = some rest) :
    ∃ e, entries list = e :: entries rest ∧ Spells e (m, sub) := by
  obtain ⟨hne, hcomma, -⟩ := m.name_plain
  have hmatch : listStartsWith list m.name sub ≠ .none := by
    intro hn
    simp [removeMethod, hn] at h
  obtain ⟨r, rfl, hr, hw⟩ | ⟨s, r, rfl, rfl, hr, hw⟩ | ⟨r, -, -, hw⟩ := listStartsWith_cases hmatch
  · have hrest : skipComma r = rest := by simpa [removeMethod, hw] using h
    exact ⟨m.name, hrest ▸ entries_head hcomma hne hr hempty, .inl rfl⟩
  · have hshape : m.name ++ ':' :: (s ++ r) = (m.name ++ ':' :: s) ++ r := by simp
    have hdrop : (m.name ++ ':' :: (s ++ r)).drop (m.name.length + (1 + s.length)) = r := by
      rw [hshape]
      exact List.drop_left' (by simp; omega)
    have hrest : skipComma r = rest := by
      rw [removeMethod, hw] at h
      simpa [hdrop] using h
    have hx : ',' ∉ m.name ++ ':' :: s := by simp [hcomma, hsub s rfl]
    rw [hshape] at hempty ⊢
    exact ⟨m.name ++ ':' :: s, hrest ▸ entries_head hx (by simp) hr hempty, .inr ⟨s, rfl, rfl⟩⟩
  · simp [removeMethod, hw] at h

/-! ## The first entry -/

/-- the name at the front of a list -/
def headName (list : Text) : Text := list.takeWhile fun c => c ≠ ',' && c ≠ ':'

theorem takeWhile_name {r : Text} (hr : endsEntry r = true ∨ ∃ q, r = ':' :: q) : headName (m.name ++ r) = m.name := by
  obtain ⟨-, hcomma, hcolon⟩ := m.name_plain
  have hr : r.takeWhile (fun c => c ≠ ',' && c ≠ ':') = [] := by
    obtain hr | ⟨q, rfl⟩ := hr
    · cases r with
      | nil => rfl
      | cons c t =>
        have hc : c = ',' := by simpa [endsEntry] using hr
        simp [hc]
    · simp
  rw [headName, List.takeWhile_append_of_pos, hr, List.append_nil]
  intro c hc
  have h1 : c ≠ ',' := fun h => hcomma (h ▸ hc)
  have h2 : c ≠ ':' := fun h => hcolon (h ▸ hc)
  simp [h1, h2]

/-- a list starts with a method only if its first entry names the method -/
theorem headName_of_startsWith (h : listStartsWith list m.name sub ≠ .none) : headName list = m.name := by
  obtain ⟨r, rfl, hr, -⟩ | ⟨s, r, -, rfl, -, -⟩ | ⟨r, -, rfl, -⟩ := listStartsWith_cases h
  · exact takeWhile_name (.inl hr)
  · exact takeWhile_name (.inr ⟨_, rfl⟩)
  · exact takeWhile_name (.inr ⟨_, rfl⟩)

theorem removeMethod_other {m' : Method} {sub' : Option Text} (hm : m' ≠ m)
    (h : listStartsWith list m.name sub ≠ .none) : removeMethod list m'.name sub' = Option.none := by
  have hnone : listStartsWith list m'.name sub' = .none := by
    by_contra h'
    exact hm (Method.name_injective _ _ ((headName_of_startsWith h').symm.trans (headName_of_startsWith h)))
  simp [removeMethod, hnone]

/-! ## Updates -/

/-- what an update makes of one list -/
def Updated (m : Text) (sub : Option Text) (before after : Text) : Prop :=
  after = before ∨ removeMethod before m sub = some after

theorem updateMethodsLists_spec (m : Text) (sub : Option Text) (lists : List Text) (found : Bool) :
    List.Forall₂ (Updated m sub) lists (updateMethodsLists m sub lists found).2 := by
  induction lists generalizing found with
  | nil => exact .nil
  | cons list lists ih =>
    rw [updateMethodsLists]
    split
    · exact .cons (.inl rfl) (ih found)
    · next h => exact .cons (.inr h) (List.forall₂_same.2 fun _ _ => .inl rfl)
    · next h => exact .cons (.inr h) (ih true)

variable {m : Text} {lists : List Text} {found : Bool}

theorem updateMethodsLists_complete
    (h : (updateMethodsLists m sub lists found).1 = .complete) : ∃ list ∈ lists, removeMethod list m sub = some [] := by
  induction lists generalizing found with
  | nil => cases found <;> simp [updateMethodsLists] at h
  | cons list lists ih =>
    rw [updateMethodsLists] at h
    split at h
    · obtain ⟨l, hl, hr⟩ := ih h
      exact ⟨l, by simp [hl], hr⟩
    · next hr => exact ⟨list, by simp, hr⟩
    · obtain ⟨l, hl, hr⟩ := ih h
      exact ⟨l, by simp [hl], hr⟩

/-- the fatal error comes exactly when no list has the method to remove -/
theorem updateMethodsLists_notFound : (updateMethodsLists m sub lists found).1 = .notFound ↔
      found = false ∧ ∀ list ∈ lists, removeMethod list m sub = Option.none := by
  induction lists generalizing found with
  | nil => cases found <;> simp [updateMethodsLists]
  | cons list lists ih =>
    rw [updateMethodsLists]
    split
    · next hr => simp [ih, hr]
    · next hr => simp [hr]
    · next hr => simp [ih, hr]

theorem mem_updateMethodsLists (hlist : list ∈ lists) (h : removeMethod list m sub = Option.none) :
    list ∈ (updateMethodsLists m sub lists found).2 := by
  induction lists generalizing found with
  | nil => simp at hlist
  | cons l lists ih =>
    rw [updateMethodsLists]
    obtain rfl | hlist := List.mem_cons.1 hlist
    · simp [h]
    · split
      · exact List.mem_cons_of_mem _ (ih hlist)
      · exact List.mem_cons_of_mem _ hlist
      · exact List.mem_cons_of_mem _ (ih hlist)

end OpenSSHServerPN.Userauth
