import Mathlib
import TecTac.Lib.RollingCap
import TecTac.Lib.Text

/-!
# Priority 1 emails

The email step of `sweep_failed_jobs` and `send_p1_email` of `module_failure_notices.py`, with the ledger of `notices.py`. The scheduler runs one sweep at a
time. Times are whole seconds. A sweep may end anywhere: `writes` counts how many ledger writes and sends its process still makes. What the database, the mail
server and the host check answer is part of the sweep. The notice step before it, the texts and the audit row are left out; `noticesDone` says that it ended
without an error. Only ledger rows of the kind `email` are kept here.
-/

namespace TecTac

namespace FailureEmails

structure Row where
  key : String
  user : Int
  createdAt : Int
deriving DecidableEq

structure User where
  pk : Int
  email : String

structure Job where
  id : String
  status : String
  action : String
  finishedAt : Option Int

/-- The ledger and the old marker rows; `tried` is every try of a send, the last one first. -/
structure State where
  ledger : List Row
  markers : List Row
  tried : List Row

def noticeWindow : Int := 7 * 24 * 3600

def emailWindow : Int := 3600

def ledgerRetention : Int := 14 * 24 * 3600

def hourlyCap : Nat := 20

def maxRecipients : Nat := 20

def maxJobsPerTick : Nat := 200

/-! ## The jobs and the audience -/

/-- `_JOB_ID_RE`, by `fullmatch`. -/
def jobIdRe (id : String) : Bool := decide (1 ≤ id.length ∧ id.length ≤ 40) && id.toList.all fun c => c.isAlphanum || decide (c = '-')

/-- The job id of `notice_for_job`, for a job that owes a notice. -/
def noticeFor (job : Job) : Option String :=
  if job.status = "failed" ∧ job.action ∈ ["enable", "disable", "install", "bundle_install", "batch_install"] ∧ jobIdRe job.id then some job.id else none

/-- A failed job inside the window, with the time it finished. -/
def recentFailure (now : Int) (job : Job) : Option (Int × Job) :=
  match job.finishedAt with
  | none => none
  | some finished => if job.status = "failed" ∧ now - noticeWindow ≤ finished then some (finished, job) else none

/-- `_bounded_failed_jobs`. -/
def boundedFailedJobs (jobs : List Job) (now : Int) : List Job :=
  (((jobs.filterMap (recentFailure now)).mergeSort fun a b => decide (b.1 ≤ a.1)).map Prod.snd).take maxJobsPerTick

/-- One person of `_email_audience`: the addresses that were seen, and the audience so far. -/
def addPerson (s : List String × List User) (user : User) : List String × List User :=
  let address := (stripText user.email).toLower
  if s.2.length ≥ maxRecipients ∨ address ≠ "" ∧ address ∈ s.1 then s
  else (if address = "" then s.1 else address :: s.1, s.2 ++ [user])

/-- `_email_audience`. -/
def emailAudience (users : List User) : List User := (users.foldl addPerson ([], [])).2

/-- `clean_address`. -/
def cleanAddress (value : String) : Option String :=
  let text := stripText value
  let printable := text.toList.all fun c => decide (0x21 ≤ c.toNat ∧ c.toNat ≤ 0x7e) && !decide (c ∈ [',', ';', '<', '>', '\'', '"'])
  if text = "" ∨ 254 < text.length ∨ !printable then none
  else
    match text.toList.splitOn '@' with
    | [name, domain] => if name = [] ∨ domain = [] then none else some text
    | _ => none

/-! ## The ledger -/

/-- `ledger_have` and `_default_email_have`: who is taken to have had the email of a job. -/
def ledgerHave (rows : List Row) (key : String) (user : Int) : Bool := rows.any fun r => decide (r.key = key ∧ r.user = user)

/-- `ledger_add` for one user: `get_or_create`. -/
def ledgerAdd (rows : List Row) (row : Row) : List Row := if ledgerHave rows row.key row.user then rows else rows ++ [row]

/-- `ledger_count_since`. -/
def ledgerCountSince (rows : List Row) (since : Int) : Nat := (rows.filter fun r => decide (since ≤ r.createdAt)).length

/-- `ledger_prune`. -/
def ledgerPrune (rows : List Row) (now : Int) : List Row := rows.filter fun r => decide (now - ledgerRetention ≤ r.createdAt)

/-! ## A sweep -/

/-- What one sweep meets. `time key user` is when the try of one email is recorded, and the administrators are the
rows of a query, so no one is there twice. -/
structure Sweep where
  now : Int
  ends : Int
  jobs : List Job
  administrators : List User
  prunes : Bool
  noticesDone : Bool
  configured : Bool
  countReads : Bool
  haveReads : String → Bool
  copies : String → Bool
  hostRefused : String → Bool
  marks : String → Int → Bool
  sends : String → Int → Bool
  time : String → Int → Int
  writes : Nat
  inTime : ∀ key user, now ≤ time key user ∧ time key user ≤ ends
  distinct : (administrators.map User.pk).Nodup

/-- The state of the loops of one sweep. -/
structure Loop where
  ledger : List Row
  tried : List Row
  writes : Nat
  budget : Int
  stopped : Bool

variable (w : Sweep)

/-- `_mark`: the next state, and whether the try was recorded. A process that has ended records nothing. -/
def mark (key : String) (user : Int) (s : Loop) : Loop × Bool :=
  match s.writes with
  | 0 => (s, false)
  | n + 1 =>
    if w.marks key user then ({ s with ledger := ledgerAdd s.ledger ⟨key, user, w.time key user⟩, writes := n }, true) else ({ s with writes := n }, false)

/-- `send_one`. -/
def sendOne (key : String) (user : Int) (s : Loop) : Loop × Bool :=
  match s.writes with
  | 0 => (s, false)
  | n + 1 => ({ s with tried := ⟨key, user, w.time key user⟩ :: s.tried, writes := n }, w.sends key user)

/-- One pending person of `send_p1_email`. -/
def tryUser (key : String) (s : Loop) (user : User) : Loop :=
  if (cleanAddress user.email).isNone then s
  else if s.stopped then { (mark w key user.pk s).1 with budget := s.budget - 1 }
  else if s.budget ≤ 0 then s
  else
    let s := { s with budget := s.budget - 1 }
    if w.hostRefused key then { (mark w key user.pk s).1 with stopped := true }
    else
      let marked := mark w key user.pk s
      if marked.2 then
        let sent := sendOne w key user.pk marked.1
        { sent.1 with stopped := !sent.2 }
      else { marked.1 with stopped := true }

/-- The old markers of a job that the ledger does not hold, copied with the time of the marker. -/
def copyMarkers (markers : List Row) (key : String) (s : Loop) : Loop :=
  match s.writes with
  | 0 => s
  | n + 1 => if w.copies key then { s with ledger := (markers.filter fun r => decide (r.key = key)).foldl ledgerAdd s.ledger, writes := n } else s

/-- `send_p1_email` within a sweep. -/
def sendP1Email (markers : List Row) (audience : List User) (s : Loop) (key : String) : Loop :=
  if w.haveReads key then
    let pending := audience.filter fun user => !(ledgerHave markers key user.pk || ledgerHave s.ledger key user.pk)
    pending.foldl (tryUser w key) { copyMarkers w markers key s with stopped := false }
  else s

/-- The email step of `sweep_failed_jobs`. -/
def sweep (s : State) : State :=
  let ledger := if w.prunes then ledgerPrune s.ledger w.now else s.ledger
  let notices := (boundedFailedJobs w.jobs w.now).filterMap noticeFor
  if w.noticesDone && w.configured && w.countReads then
    let budget := hourlyCap - ledgerCountSince ledger (w.now - emailWindow)
    let final := notices.foldl (sendP1Email w s.markers (emailAudience w.administrators)) ⟨ledger, s.tried, w.writes, budget, false⟩
    { s with ledger := final.ledger, tried := final.tried }
  else { s with ledger := ledger }

/-! ## Runs -/

/-- A sweep, or a person who clears the notices that were read: the old marker rows may go with them. -/
inductive Event where
  | sweep (w : Sweep)
  | clearRead (keep : Row → Bool)

def step (s : State) : Event → State
  | .sweep w => sweep w s
  | .clearRead keep => { s with markers := s.markers.filter keep }

def run (s : State) (events : List Event) : State := events.foldl step s

/-- The sweeps follow each other in time, and a job has one time at which it finished, which is not after a sweep that sees it. -/
def InOrder (finished : String → Int) : Int → List Event → Prop
  | _, [] => True
  | start, .clearRead _ :: events => InOrder finished start events
  | start, .sweep w :: events =>
    start ≤ w.now ∧ (∀ job ∈ w.jobs, ∀ f, job.finishedAt = some f → f = finished job.id ∧ f ≤ w.now) ∧ w.now ≤ w.ends ∧ InOrder finished w.ends events

end FailureEmails

end TecTac
