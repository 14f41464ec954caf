/-
Commit-confirmed recovery of the manager (`ConfigurationRecovery.cs`: `ConfigurationRecoveryTransaction`; the snapshots of
`ConfigurationDependencies.cs`).

Model: the durable objects are the journal (`pending.ini`, one record), the rollback copy (`previous.config`), the live
`sshd_config` and its backups. Every call runs under the configuration lock, so calls are taken one after the other; within a
call each file write and each host call is an effect of `Faulty`, which can fail or be the point where the process ends.
`AtomicBytes` replaces a file as a whole. A record is the journal's dictionary: a key that not every record has is an `Option`.

Outside the model, as parameters: the hash, the comparison of paths without case, the scan for `Include` lines
(`Platform.capture`) and the included files (`Includes`). An unreadable journal (`SetAsideDamaged`) and the retries of
`RestoreNow` while the lock is taken are left out: neither writes a record. `log` is history: no program reads it.
-/
import OpenSSHServerPN.Lib.Runs
import OpenSSHServerPN.Lib.Faulty
import OpenSSHServerPN.Match.Pattern

namespace OpenSSHServerPN.Recovery

open Match Faulty

/-! ## Included files -/

/-- the included files as the calls find them: what a selector expands to (`none`: an exception) and the hash of a file -/
structure Includes where
  expand : Text → Option (List Text)
  hash : Text → Text

/-- `ConfigurationDependencies` without an error -/
structure Deps where
  files : List (Text × Text)
  selectors : List (Text × List Text)
deriving DecidableEq, Repr

/-- `RequireUnchanged` -/
def Deps.unchanged (fold : Text → Text) (inc : Includes) (d : Deps) : Bool :=
  d.selectors.all (fun p => (inc.expand p.1).map (·.map fold) == some (p.2.map fold)) &&
    d.files.all (fun p => inc.hash p.1 == p.2)

/-- the entries of the first list whose key the second one does not have, and the second list -/
def override {β : Type} (fold : Text → Text) (a b : List (Text × β)) : List (Text × β) :=
  a.filter (fun p => !b.any fun q => fold q.1 == fold p.1) ++ b

/-- `Union` -/
def Deps.union (fold : Text → Text) (a b : Deps) : Deps :=
  ⟨override fold a.files b.files, override fold a.selectors b.selectors⟩

/-- what the calls rely on -/
structure Platform where
  /-- `ConfigurationDependencies.Hash` -/
  hash : Text → Text
  hash_injective : Function.Injective hash
  hash_ne_nil : ∀ c, hash c ≠ []
  /-- a full path, for a comparison without case -/
  fold : Text → Text
  /-- `Capture` of the lines of a file; `none` if the scan raised an exception -/
  capture : Includes → Text → Option Deps
  capture_unchanged : ∀ inc c d, capture inc c = some d → d.unchanged fold inc = true

variable (P : Platform)

/-- `SshdConfig.FileHash`: the empty text for a file that is not there -/
def Platform.fileHash : Option Text → Text
  | none => []
  | some c => P.hash c

/-- `Capture` of a file that may not be there -/
def Platform.captureFile (inc : Includes) : Option Text → Option Deps
  | none => some ⟨[], []⟩
  | some c => P.capture inc c

/-! ## Records and states -/

inductive Status where
  | prepared
  | pending
  | confirmed
  | restored
  | abandoned
deriving DecidableEq, Repr

/-- the record is settled -/
def Status.terminal : Status → Bool
  | .prepared | .pending => false
  | .confirmed | .restored | .abandoned => true

inductive Phase where
  | applied
  | configurationRestored
  | firewallRestored
deriving DecidableEq, Repr

structure Record where
  id : ℕ
  status : Status
  phase : Phase
  backupPath : Option Text
  applied : Text
  previous : Bool
  before : Option Text
  server : Option Text
  firewall : Option Text
  deadline : Option ℕ
  deps : Deps
  error : Text
deriving DecidableEq, Repr

/-- `PreparedSave` -/
structure PreparedSave where
  previous : Option Record
  id : ℕ
  continued : Bool
deriving DecidableEq, Repr

/-- what happened, in order -/
inductive Event where
  /-- a record was written while `sshd_config` had this content -/
  | wrote (r : Record) (live : Option Text)
  /-- the record with this id continues an earlier one -/
  | continued (id : ℕ) (r : Record)
  /-- recovery for this record replaced or deleted this content of `sshd_config` -/
  | replaced (r : Record) (old : Option Text)
  | firewall (id : ℕ) (rule : Text)
  /-- sshd was restarted for this record -/
  | restart (r : Record)
deriving DecidableEq, Repr

structure State where
  journal : Option Record
  /-- `previous.config` -/
  saved : Option Text
  /-- `sshd_config` -/
  live : Option Text
  backups : Text → Option Text
  includes : Includes
  /-- identity of the running sshd, empty if none runs -/
  server : Text
  /-- `ChangedSinceStart` -/
  changed : Bool
  /-- the next identifier that was not drawn yet -/
  next : ℕ
  /-- what `Prepare` calls returned -/
  tokens : List PreparedSave
  log : List Event

/-- a journal with one record replaces the one before -/
def State.write (s : State) (r : Record) : State :=
  { s with journal := some r, next := max s.next (r.id + 1), log := s.log ++ [.wrote r s.live] }

/-- an unsettled change -/
def State.pending (s : State) : Bool :=
  match s.journal with
  | some r => r.status == .pending
  | none => false

/-- `ServerIdentity` -/
def State.serverIdentity (s : State) (requireLiveLoaded : Bool) : Text :=
  if requireLiveLoaded && s.changed then [] else s.server

abbrev M := Prog State Text

/-- `Write` -/
def write (r : Record) : M Unit := effect "The journal could not be written." (·.write r)

/-- a call of the host that changes nothing the model has -/
def hostCall (message : String) : M Unit := effect message.toList id

/-! ## Save-only changes -/

/-- `RequireNotPending` -/
def requireNotPending (s : State) : M Unit :=
  require (!s.pending) "Another configuration change is waiting to be kept or restored"

/-- `RecordValues` -/
def recordValues (id : ℕ) (backup : Option Text) (applied : Text) (previous : Bool) : Record where
  id := id
  status := .prepared
  phase := .applied
  backupPath := backup
  applied := applied
  previous := previous
  before := none
  server := none
  firewall := none
  deadline := none
  deps := ⟨[], []⟩
  error := []

/-- `ContinuedRecord`: the new record and the snapshot that is kept -/
def continuedRecord (s : State) (backup : Option Text) (applied : Text) : Option (Record × Deps) :=
  match s.journal with
  | none => none
  | some r =>
    match r.server with
    | none => none
    | some server =>
      if r.status ≠ .prepared ∨ server = [] ∨ server ≠ s.serverIdentity false then none
      else if r.applied ≠ P.fileHash s.live then none
      else if r.previous = true ∧ r.before ≠ some (P.fileHash s.saved) then none
      else if r.deps.unchanged P.fold s.includes = false then none
      else
        some ({ recordValues s.next backup applied r.previous with
          before := if r.previous then r.before else none, server := some server }, r.deps)

/-- `NewRecord`: the backup becomes the rollback copy before any record names it -/
def newRecord (backup : Option Text) (applied : Text) : M Record := do
  let s ← get
  match backup with
  | none => pure (recordValues s.next none applied false)
  | some path =>
    match s.backups path with
    | none => throw "Could not find the backup."
    | some bytes =>
      effect "The rollback copy could not be written." (fun s => { s with saved := some bytes })
      let s ← get
      pure { recordValues s.next backup applied true with before := some (P.fileHash s.saved) }

/-- the snapshot of a call, or its error (`Store`) -/
def stored (deps : Option Deps) : M Deps :=
  match deps with
  | some d => pure d
  | none => throw "The included configuration could not be captured."

/-- `Write` of a record that continues another one; the log keeps which -/
def writeContinued (r old : Record) : M Unit :=
  effect "The journal could not be written."
    (fun s => { s.write r with log := s.log ++ [.continued r.id old, .wrote r s.live] })

/-- a `Prepare` that returns -/
def issue (t : PreparedSave) : M PreparedSave := do
  modify (fun s => { s with tokens := s.tokens ++ [t] })
  pure t

/-- `Prepare`; `deps` is `none` for a snapshot with an error -/
def prepare (backup : Option Text) (bytes : Text) (deps : Option Deps) : M PreparedSave := do
  let s ← get
  requireNotPending s
  match s.journal, continuedRecord P s backup (P.hash bytes) with
  | some old, some (r, kept) =>
    let d ← stored deps
    writeContinued { r with deps := kept.union P.fold d } old
    issue ⟨s.journal, r.id, true⟩
  | _, _ =>
    let r ← newRecord P backup (P.hash bytes)
    let d ← stored deps
    write { r with server := some (if backup.isNone then [] else s.serverIdentity true), deps := d }
    issue ⟨s.journal, r.id, false⟩

/-- `Unprepare` -/
def unprepare (t : PreparedSave) : M Unit := do
  let s ← get
  match s.journal, t.previous with
  | some r, some old => if t.continued = true ∧ r.id = t.id ∧ r.status = .prepared then write old else pure ()
  | _, _ => pure ()

/-! ## Arming, keeping and giving up -/

/-- `Combine` of the snapshots of the live file and of the backup -/
def captureBoth (s : State) (backup : Option Text) : Option Deps :=
  match backup with
  | none => P.captureFile s.includes s.live
  | some path =>
    match P.captureFile s.includes s.live, P.captureFile s.includes (s.backups path) with
    | some a, some b => some (a.union P.fold b)
    | _, _ => none

/-- a new record for this backup, with the snapshot of both files -/
def freshRecord (backup : Option Text) : M Record := do
  let s ← get
  let r ← newRecord P backup (P.fileHash s.live)
  let d ← stored (captureBoth P s backup)
  pure { r with deps := d }

/-- the record that is armed: the prepared one, or a new one for this backup -/
def armedRecord (backup : Option Text) (usePrepared : Bool) : M Record := do
  let s ← get
  match s.journal with
  | some r =>
    if usePrepared = true ∧ r.status = .prepared then
      require (r.backupPath.map P.fold == backup.map P.fold)
        "A different configuration was saved before this restart was requested. Reload before restarting."
      require (P.fileHash s.live == r.applied)
        ("The saved configuration changed before recovery could be armed. No firewall or service changes were made.").toList
      pure r
    else freshRecord P backup
  | none => freshRecord P backup

/-- `RequireUnchanged` on the snapshot of a record -/
def requireUnchanged (r : Record) : M Unit := do
  let s ← get
  require (r.deps.unchanged P.fold s.includes) "An included configuration changed."

/-- the task exists before the record becomes pending -/
def schedule (r : Record) : M ℕ := do
  attempt
    (do hostCall "The recovery task could not be registered."
        write { r with status := .pending })
    (fun e => do
        write { r with status := .prepared, error := e }
        throw e)
  pure r.id

/-- `ArmRecord` (`Arm` with `usePrepared`, `ArmFresh` without) -/
def arm (backup : Option Text) (firewall : Option Text) (due : ℕ) (usePrepared : Bool) : M ℕ := do
  let s ← get
  requireNotPending s
  let r ← armedRecord P backup usePrepared
  requireUnchanged P r
  let r := { r with deadline := some due, firewall := firewall }
  write r
  schedule r

/-- `DisarmInactive` -/
def disarmInactive : M Unit := attempt (hostCall "The recovery task could not be removed.") (fun _ => pure ())

/-- the pending record with this identifier -/
def pendingRecord (id : ℕ) (message : String) : M Record := do
  let s ← get
  match s.journal with
  | some r => if r.status = .pending ∧ r.id = id then pure r else throw message.toList
  | none => throw message.toList

/-- the deadline of a record has not passed; a record without one raises an exception -/
def requireInTime (r : Record) (now : ℕ) : M Unit :=
  require (match r.deadline with | some due => decide (now < due) | none => false) "The confirmation deadline has passed."

/-- `sshd_config` is the one the record was made for -/
def requireApplied (r : Record) : M Unit := do
  let s ← get
  require (P.fileHash s.live == r.applied) "The configuration changed during confirmation; it was not committed."

/-- `Confirm` -/
def confirm (id now : ℕ) : M Unit := do
  let r ← pendingRecord id "This configuration is no longer awaiting confirmation. Reload the server state."
  requireApplied P r
  requireUnchanged P r
  requireInTime r now
  write { r with status := .confirmed }
  disarmInactive

/-- `ConfirmAsync`: while `keep` runs, `sshd_config` and the included files can change; `keep` may fail -/
def confirmAsync (id now : ℕ) (keep : Bool) (edit : State → Option Text × Includes) : M Unit := do
  let r ← pendingRecord id "This configuration is no longer awaiting confirmation."
  requireInTime r now
  requireApplied P r
  requireUnchanged P r
  modify (fun s => { s with live := (edit s).1, includes := (edit s).2 })
  require keep "The final firewall update failed."
  requireApplied P r
  requireUnchanged P r
  write { r with status := .confirmed }
  disarmInactive

/-- `SetDeadline` -/
def setDeadline (id now due : ℕ) : M Unit := do
  let r ← pendingRecord id "The pending settings were already restored."
  requireInTime r now
  hostCall "The recovery task could not be registered."
  write { r with deadline := some due }

/-- `Abandon` -/
def abandon (id : ℕ) (reason : Text) : M Unit := do
  let r ← pendingRecord id "This recovery is no longer pending. Reload the server state."
  write { r with status := .abandoned, error := reason }
  disarmInactive

/-- `ReportFailure` -/
def reportFailure (error : Text) : M Unit := do
  let s ← get
  match s.journal with
  | some r => if r.status = .pending ∧ r.error ≠ error then write { r with error := error } else pure ()
  | none => pure ()

/-! ## Recovery -/

/-- the hash the live file has to get; an exception if the record has none -/
def beforeHash (r : Record) : Option Text := if r.previous then r.before else some []

/-- the previous content comes back, or the file is deleted -/
def restoreLive (r : Record) (before : Text) : M Unit := do
  let s ← get
  if P.fileHash s.live = before then pure ()
  else if r.previous then
    require (P.fileHash s.saved == before) "The recovery backup failed its integrity check."
    effect "sshd_config could not be replaced."
      (fun s => { s with live := s.saved, changed := true, log := s.log ++ [.replaced r s.live] })
  else
    effect "sshd_config could not be deleted."
      (fun s => { s with live := none, changed := true, log := s.log ++ [.replaced r s.live] })

/-- an exception in a recovery step: the record as it was left in memory is written with the message -/
def orReport (r : Record) (m : M Unit) : M Unit :=
  attempt m fun e => do
    write { r with error := e }
    throw e

/-- the steps after the live file, from the phase the record has reached -/
def restartServer (r : Record) : M Unit := do
  orReport r (effect "sshd could not be restarted." (fun s => { s with log := s.log ++ [.restart r] }))
  let r := { r with status := .restored, error := [] }
  orReport r (write r)

/-- `RestoreFirewall` of the host, for a record with a rule -/
def restoreRule (r : Record) : M Unit :=
  match r.firewall with
  | some rule => effect "The firewall could not be restored." (fun s => { s with log := s.log ++ [.firewall r.id rule] })
  | none => pure ()

def restoreFirewall (r : Record) : M Record := do
  if r.phase = .configurationRestored then
    orReport r (restoreRule r)
    let r := { r with phase := .firewallRestored }
    orReport r (write r)
    pure r
  else pure r

def restoreConfiguration (r : Record) (before : Text) : M Record := do
  orReport r (requireUnchanged P r)
  orReport r (restoreLive P r before)
  if r.phase = .applied then
    let r := { r with phase := .configurationRestored }
    orReport r (write r)
    pure r
  else pure r

def changedOutside : Text :=
  "The configuration changed outside the pending transaction. Recovery will not overwrite that change."

/-- recovery is asked for, or the deadline has passed; an exception if the record has none -/
def dueNow (r : Record) (now : ℕ) (force : Bool) : Option Bool :=
  if force then some true else r.deadline.map fun due => decide (due ≤ now)

/-- `RecoverPending` (`Recover`, and `RestoreNow` with `force` and an identifier) -/
def recoverPending (now : ℕ) (force : Bool) (id : Option ℕ) : M Bool := do
  let s ← get
  match s.journal with
  | none => pure false
  | some r =>
    if r.status ≠ .pending ∨ (∃ i, id = some i ∧ r.id ≠ i) then pure false
    else
      match dueNow r now force, beforeHash r with
      | none, _ => throw "The deadline is missing."
      | some false, _ => pure false
      | some true, none => throw "The record has no hash of the previous file."
      | some true, some before =>
        if P.fileHash s.live ≠ r.applied ∧ P.fileHash s.live ≠ before then
          write { r with error := changedOutside }
          throw changedOutside
        else
          let r ← restoreConfiguration P r before
          let r ← restoreFirewall r
          restartServer r
          disarmInactive
          pure true

end OpenSSHServerPN.Recovery
