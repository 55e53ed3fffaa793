import Mathlib
import TecTac.Lib.Machine

/-!
# Backup codes

The codes of one user, `mfa_backup.py`: `generate_backup_codes`, `consume_backup_code` and `invalidate_backup_codes` in any number of processes, and changes
of the TOTP key. A call reads the key with the user, before its transaction. Each statement of a transaction is a step, or one step for each row that it
locks: a statement sees the rows that were committed when it began, waits for a row that another transaction has locked, and passes over a row that is gone
or no longer fits. What a transaction wrote is seen when it commits. A fingerprint stands for its key and a hash for its code.
-/

namespace TecTac

namespace MfaBackup

abbrev Code := String
abbrev Key := String

def backupCodeCount : Nat := 10
def backupCodeLength : Nat := 10

/-- What the loop of `generate_backup_codes` draws. -/
structure CodeSet where
  codes : List Code
  count : codes.length = backupCodeCount
  distinct : codes.Nodup
  sized : ∀ code ∈ codes, code.length = backupCodeLength

/-- A row of `TecTacMfaBackupCode`. -/
structure Row where
  id : Nat
  code : Code
  fingerprint : Key
  used : Bool
  createdAt : Nat
  deriving DecidableEq

/-- What is called; a code is consumed as `_normalize_code` gives it. -/
inductive Kind where
  | generate (set : CodeSet)
  | invalidate
  | consume (code : Code)

/-- Where a call stands: before the count of the rows to delete, before the delete, in it (with the rows that it saw and has not come to), before the select,
in it, before the insert, before its commit, or at its end. -/
inductive Stage where
  | idle
  | counting
  | looking
  | deleting (rest : List Nat)
  | selecting
  | locking (rest taken : List Nat)
  | inserting
  | committing (createdAt : Nat)
  | ended (accepted : Bool)
  deriving DecidableEq

/-- A call with the key that it read and the rows that its transaction deletes. `seen` is history: the code of the call was live when its select began. -/
structure Call where
  kind : Kind
  key : Key
  stage : Stage
  deletes : List Nat
  seen : Bool

/-- The user: the TOTP key (the empty text is none), the committed rows, the locks (of a row, by a call), the calls. The rest is history: the keys that were
set, the codes that were drawn, those that were committed and those that were accepted, and `live`, the unused codes of the set that was generated last,
unless it was invalidated or made stale. -/
structure Account where
  sso : Bool
  key : Key
  rows : List Row
  nextId : Nat
  clock : Nat
  locks : List (Nat × Nat)
  calls : Nat → Call
  keys : List Key
  drawn : List Code
  committed : List Code
  accepted : List Code
  live : List Code

inductive Event where
  | changeKey (key : Key)
  | call (c : Nat) (kind : Kind)
  | advance (c : Nat)
  | fail (c : Nat)

namespace Account

def fresh (sso : Bool) (key : Key) : Account := ⟨sso, key, [], 0, 0, [], fun _ => ⟨.invalidate, "", .idle, [], false⟩, [key], [], [], [], []⟩

def setCall (s : Account) (c : Nat) (call : Call) : Account := { s with calls := Function.update s.calls c call }

def goTo (s : Account) (c : Nat) (stage : Stage) : Account := s.setCall c { s.calls c with stage := stage }

/-- The transaction of a call ends. -/
def finish (s : Account) (c : Nat) (accepted : Bool) : Account := { s with locks := s.locks.filter fun lock => lock.2 != c }.goTo c (.ended accepted)

/-- A call begins: it has read the key. -/
def begin (s : Account) (c : Nat) (kind : Kind) : Account :=
  match kind with
  | .generate set =>
    if s.sso ∨ s.key = "" then s.setCall c ⟨kind, s.key, .ended false, [], false⟩
    else { s with drawn := set.codes ++ s.drawn }.setCall c ⟨kind, s.key, .looking, [], false⟩
  | .invalidate | .consume _ => s.setCall c ⟨kind, s.key, .counting, [], false⟩

/-- The rows that the call deletes: all of them, or those of another fingerprint. -/
def doomed (call : Call) (row : Row) : Bool :=
  match call.kind with
  | .generate _ | .invalidate => true
  | .consume _ => row.fingerprint != call.key

/-- The stage after the delete. -/
def afterDelete (call : Call) : Stage :=
  match call.kind with
  | .generate _ => .inserting
  | .invalidate => .committing 0
  | .consume _ => .selecting

/-- `count()`: with nothing to delete there is no delete. -/
def count (s : Account) (c : Nat) : Account :=
  s.goTo c (if s.rows.any (doomed (s.calls c)) then .looking else afterDelete (s.calls c))

/-- `delete()` begins. -/
def look (s : Account) (c : Nat) : Account := s.goTo c (.deleting ((s.rows.filter (doomed (s.calls c))).map Row.id))

def row? (s : Account) (id : Nat) : Option Row := s.rows.find? fun row => row.id = id

/-- Another transaction has locked the row. -/
def blocked (s : Account) (c id : Nat) : Bool := s.locks.any fun lock => lock.1 == id && lock.2 != c

/-- `delete()`, one row. -/
def deleteNext (s : Account) (c : Nat) : List Nat → Account
  | [] => s.goTo c (afterDelete (s.calls c))
  | id :: rest =>
    if s.blocked c id then s
    else if (s.row? id).any (doomed (s.calls c)) then
      { s with locks := (id, c) :: s.locks }.setCall c { s.calls c with stage := .deleting rest, deletes := id :: (s.calls c).deletes }
    else s.goTo c (.deleting rest)

/-- The rows that `consume_backup_code` selects. -/
def usable (key : Key) (row : Row) : Bool := !row.used && row.fingerprint == key

/-- The select begins; without a key there is none. -/
def select (s : Account) (c : Nat) : Account :=
  match (s.calls c).kind with
  | .consume code =>
    let found := if (s.calls c).key = "" then []
      else ((s.rows.filter (usable (s.calls c).key)).insertionSort fun a b => a.createdAt < b.createdAt ∨ a.createdAt = b.createdAt ∧ a.id ≤ b.id).map Row.id
    s.setCall c { s.calls c with stage := .locking found [], seen := s.live.contains code && (s.calls c).key == s.key }
  | _ => s

/-- The transaction commits: rows are deleted, one is marked as used, rows are added. -/
def commitRows (s : Account) (deletes : List Nat) (matched : Option Nat) (new : List Row) : List Row :=
  (s.rows.filter fun row => !deletes.contains row.id).map (fun row => if some row.id = matched then { row with used := true } else row) ++ new

/-- `consume_backup_code`, after the select: the first candidate that has the code is used up. -/
def decide (s : Account) (c : Nat) (code : Code) (taken : List Nat) : Account :=
  let deletes := (s.calls c).deletes
  match taken.find? fun id => (s.row? id).any (·.code == code) && code.length == backupCodeLength with
  | some id =>
    { s with rows := s.commitRows deletes (some id) [], accepted := code :: s.accepted, live := s.live.erase code }.finish c true
  | none => { s with rows := s.commitRows deletes none [] }.finish c false

/-- The select, one row; it ends with `BACKUP_CODE_COUNT` rows. -/
def lockNext (s : Account) (c : Nat) (rest taken : List Nat) : Account :=
  match (s.calls c).kind with
  | .consume code =>
    if taken.length = backupCodeCount then s.decide c code taken
    else
      match rest with
      | [] => s.decide c code taken
      | id :: rest =>
        if s.blocked c id then s
        else if (s.row? id).any (usable (s.calls c).key) then
          { s with locks := (id, c) :: s.locks }.goTo c (.locking rest (taken ++ [id]))
        else s.goTo c (.locking rest taken)
  | _ => s

/-- `bulk_create`. -/
def insert (s : Account) (c : Nat) : Account := { s with clock := s.clock + 1 }.goTo c (.committing s.clock)

/-- The rows of a new set. -/
def newRows (key : Key) (createdAt : Nat) : Nat → List Code → List Row
  | _, [] => []
  | id, code :: codes => ⟨id, code, key, false, createdAt⟩ :: newRows key createdAt (id + 1) codes

/-- `generate_backup_codes` and `invalidate_backup_codes` commit. -/
def commit (s : Account) (c createdAt : Nat) : Account :=
  let call := s.calls c
  match call.kind with
  | .generate set =>
    { s with
      rows := s.commitRows call.deletes none (newRows call.key createdAt s.nextId set.codes)
      nextId := s.nextId + backupCodeCount
      committed := set.codes ++ s.committed
      live := if call.key = s.key then set.codes else [] }.finish c false
  | .invalidate => { s with rows := s.commitRows call.deletes none [], live := [] }.finish c false
  | .consume _ => s

/-- The next statement of a call, or the next row of it. -/
def advance (s : Account) (c : Nat) : Account :=
  match (s.calls c).stage with
  | .counting => s.count c
  | .looking => s.look c
  | .deleting rest => s.deleteNext c rest
  | .selecting => s.select c
  | .locking rest taken => s.lockNext c rest taken
  | .inserting => s.insert c
  | .committing createdAt => s.commit c createdAt
  | .idle | .ended _ => s

def changeKey (s : Account) (key : Key) : Account :=
  if key = s.key then s else { s with key := key, keys := key :: s.keys, live := [] }

/-- A failure rolls the transaction back. -/
def step (s : Account) : Event → Account
  | .changeKey key => s.changeKey key
  | .call c kind =>
    match (s.calls c).stage with
    | .idle => s.begin c kind
    | _ => s
  | .advance c => s.advance c
  | .fail c =>
    match (s.calls c).stage with
    | .idle | .ended _ => s
    | _ => s.finish c false

end Account

end MfaBackup

end TecTac
