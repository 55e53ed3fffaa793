import Mathlib
import TecTac.Lib.Text

/-!
# Session security

The trust rows of `session_security.py`, which bind every credential that Tactical accepts to a row with its limits, and the
operations on them: the check of a request, the heartbeat, the check of a terminal, the revocations, the sweep and the clean-up of
the history. A moment is its microseconds. A keyed hash stands for the text it is the hash of, so a fingerprint is what it was made
from: the credential, or the bare bearer token of a Knox credential, as old releases wrote it. A Knox credential is its digest.

An operation answers what it returns or raises, together with the state it leaves, and `atomic` takes back what a body wrote when it
raises. The tables of Tactical are part of the state: Tec-Tac only deletes Knox tokens from them.
-/

namespace TecTac

namespace Sessions

/-- A minute and a day. -/
def minute : Int := 60000000
def day : Int := 86400000000

/-! ## Credentials -/

/-- What a request authenticated with. -/
inductive Credential where
  | knox (digest : String)
  | apiKey (id : Nat)
  | djangoSession (key : String)
  deriving DecidableEq

/-- `request_knox_digest`. -/
def Credential.digest : Credential → Option String
  | knox digest => some digest
  | _ => none

/-- A token fingerprint: of the identity of a credential, or of the bearer token of a Knox credential. -/
inductive Fingerprint where
  | identity (credential : Credential)
  | bearer (digest : String)
  deriving DecidableEq

/-- `_legacy_knox_fingerprint`. -/
def Credential.legacyFingerprint : Credential → Option Fingerprint
  | knox digest => some (.bearer digest)
  | _ => none

/-- A Knox token of Tactical, with the name of its user. -/
structure Token where
  digest : String
  userId : Nat
  username : String
  expiry : Option Int
  deriving DecidableEq

/-- The token has not expired. -/
def Token.isLive (now : Int) (token : Token) : Bool := token.expiry.all fun expiry => decide (now < expiry)

/-- What Tactical authenticates with: Knox tokens, API keys, and Django sessions with their expiry. -/
structure Tactical where
  tokens : List Token
  apiKeys : List Nat
  sessions : List (String × Int)

/-- A credential authenticates. -/
def Tactical.authenticates (tactical : Tactical) (now : Int) : Credential → Bool
  | .knox digest => tactical.tokens.any fun token => token.digest == digest && token.isLive now
  | .apiKey id => tactical.apiKeys.contains id
  | .djangoSession key => tactical.sessions.any fun session => session.1 == key && decide (now < session.2)

/-! ## Rows -/

/-- What happens when the address of a session changes. -/
inductive IpChangePolicy where
  | off
  | audit
  | reauthenticate
  | terminate
  deriving DecidableEq

/-- The policy in force. -/
structure Policy where
  idleTimeoutMinutes : Int
  absoluteLifetimeMinutes : Int
  ipChangePolicy : IpChangePolicy
  sessionAuditEnabled : Bool
  historyRetentionDays : Int
  deriving DecidableEq

/-- A row of `TecTacSessionTrust`. -/
structure Trust where
  id : Nat
  tokenFingerprint : Fingerprint
  knoxDigest : Option String
  userId : Nat
  username : String
  createdAt : Int
  updatedAt : Int
  lastActivityAt : Int
  lastSeenAt : Int
  initialIp : String
  lastIp : String
  userAgentHash : String
  absoluteExpiresAt : Int
  idleExpiresAt : Int
  revoked : Bool
  revokedAt : Option Int
  revokedBy : String
  revocationReason : String
  deriving DecidableEq

/-- A row of `TecTacSessionAudit`. -/
structure AuditEvent where
  session : Option Nat
  username : String
  eventType : String
  previousIp : String
  newIp : String
  reason : String
  requestedBy : String
  createdAt : Int
  deriving DecidableEq

structure State where
  trusts : List Trust
  tactical : Tactical
  audits : List AuditEvent
  policy : Policy
  nextId : Nat

/-- What a request brings. -/
structure Request where
  credential : Credential
  userId : Nat
  username : String
  clientIp : String
  userAgentHash : String
  deriving DecidableEq

/-- What is raised. -/
inductive Denied where
  | sessionRevoked
  | noSession
  | bindingMismatch
  | userMismatch
  | absoluteTimeout
  | idleTimeout
  | ipChange
  | doesNotExist
  | sessionSecurityError (text : String)
  | permissionError
  | auditFailed
  deriving DecidableEq

/-- The code of a `SessionSecurityDenied`. -/
def Denied.code : Denied → Option String
  | sessionRevoked => some "session_revoked"
  | noSession | bindingMismatch | userMismatch => some "session_invalid_state"
  | absoluteTimeout => some "session_absolute_timeout"
  | idleTimeout => some "session_idle_timeout"
  | ipChange => some "session_ip_change"
  | _ => none

/-- What an operation answers, and the state it leaves. -/
abbrev Outcome (α : Type) := Except Denied α × State

/-- `transaction.atomic()`: what a body wrote is taken back when it raises. -/
def atomic {α : Type} (body : State → Outcome α) (s : State) : Outcome α :=
  match body s with
  | (.ok a, s') => (.ok a, s')
  | (.error e, _) => (.error e, s)

/-- `text[:length]`. -/
def cut (length : Nat) (s : String) : String := String.ofList (s.toList.take length)

namespace State

/-- The stored row with an id is changed. -/
def modify (s : State) (id : Nat) (f : Trust → Trust) : State := { s with trusts := s.trusts.map fun t => if t.id = id then f t else t }

/-- `row.save()`. -/
def put (s : State) (row : Trust) : State := s.modify row.id fun _ => row

/-- `AuthToken.objects.filter(...).delete()`. -/
def dropTokens (s : State) (p : Token → Bool) : State :=
  { s with tactical := { s.tactical with tokens := s.tactical.tokens.filter fun token => !p token } }

/-- Rows are deleted; their audit events stay, without the row. -/
def dropTrusts (s : State) (p : Trust → Bool) : State :=
  { s with
    trusts := s.trusts.filter fun t => !p t
    audits := s.audits.map fun event =>
      if s.trusts.any (fun t => p t && decide (event.session = some t.id)) then { event with session := none } else event }

/-- `_audit`, with an event whose texts are cut to their columns. -/
def audit (s : State) (force : Bool) (event : AuditEvent) : State :=
  if force || s.policy.sessionAuditEnabled then
    { s with
      audits := s.audits ++ [{ event with
        username := cut 150 event.username
        eventType := cut 64 event.eventType
        previousIp := cut 64 event.previousIp
        newIp := cut 64 event.newIp
        reason := cut 255 event.reason
        requestedBy := cut 150 event.requestedBy }] }
  else s

end State

/-- `_refresh_expiry`. -/
def refreshExpiry (policy : Policy) (row : Trust) : Trust :=
  { row with
    absoluteExpiresAt := row.createdAt + policy.absoluteLifetimeMinutes * minute
    idleExpiresAt := row.lastActivityAt + policy.idleTimeoutMinutes * minute }

/-- `username.strip()`. -/
def nameOf (username : String) : String := String.ofList (strip username.toList)

/-- `_invalidate_knox_for_session`. -/
def invalidateKnoxForSession (row : Trust) (s : State) : State :=
  match row.knoxDigest with
  | some digest => s.dropTokens fun token => token.digest == digest
  | none => if nameOf row.username = "" then s else s.dropTokens fun token => token.username == nameOf row.username

/-- The event that a revocation writes. -/
def revocationEvent (row : Trust) (reason requestedBy eventType : String) (now : Int) : AuditEvent :=
  ⟨some row.id, row.username, eventType, "", "", reason, requestedBy, now⟩

/-- A row, revoked. -/
def revokedRow (row : Trust) (reason requestedBy : String) (now : Int) : Trust :=
  { row with
    revoked := true
    revokedAt := some now
    revokedBy := cut 150 requestedBy
    revocationReason := cut 255 (if reason = "" then "revoked" else reason)
    updatedAt := now }

/-- `_revoke_locked`. -/
def revokeLocked (row : Trust) (reason requestedBy eventType : String) (invalidateKnox : Bool) (now : Int) (s : State) : State :=
  if row.revoked then s
  else
    let s := s.modify row.id fun stored => revokedRow stored reason requestedBy now
    let s := if invalidateKnox then invalidateKnoxForSession row s else s
    s.audit false (revocationEvent row reason requestedBy eventType now)

/-! ## The row of a credential -/

/-- The newer of two rows, by when they were last seen and then by when they were created. -/
def newer (a b : Trust) : Trust :=
  if a.lastSeenAt < b.lastSeenAt ∨ a.lastSeenAt = b.lastSeenAt ∧ a.createdAt < b.createdAt then b else a

/-- The newest of some rows. -/
def newest : List Trust → Option Trust
  | [] => none
  | row :: rows => some (rows.foldl newer row)

/-- The rows that are bound to the digest of a credential. -/
def digestRows (credential : Credential) (s : State) : List Trust :=
  match credential.digest with
  | some digest => s.trusts.filter fun t => t.knoxDigest == some digest
  | none => []

/-- The row with a fingerprint. -/
def rowWith (fingerprint : Fingerprint) (s : State) : Option Trust := s.trusts.find? fun t => t.tokenFingerprint == fingerprint

/-- `_bind_knox_digest`: the row with the digest bound, when it was not. -/
def bindKnoxDigest (row : Trust) : Option String → Except Denied (Option Trust)
  | none => .ok none
  | some digest =>
    match row.knoxDigest with
    | some bound => if bound = digest then .ok none else .error .bindingMismatch
    | none => .ok (some { row with knoxDigest := some digest })

/-- The row that an old release wrote for a credential, which is bound to the digest now. -/
def legacySession (credential : Credential) (now : Int) (s : State) : Outcome (Option Trust) :=
  match credential.legacyFingerprint.bind fun fingerprint => rowWith fingerprint s with
  | none => (.ok none, s)
  | some row =>
    match bindKnoxDigest row credential.digest with
    | .error e => (.error e, s)
    | .ok none => (.ok (some row), s)
    | .ok (some bound) => (.ok (some { bound with updatedAt := now }), s.put { bound with updatedAt := now })

/-- `_existing_session_for_credential`. -/
def existingSessionForCredential (credential : Credential) (now : Int) (s : State) : Outcome (Option Trust) :=
  match newest ((digestRows credential s).filter Trust.revoked) with
  | some row => (.ok (some row), s)
  | none =>
    match rowWith (.identity credential) s with
    | some row => (.ok (some row), s)
    | none =>
      match newest (digestRows credential s) with
      | some row => (.ok (some row), s)
      | none => legacySession credential now s

/-! ## The check of a request -/

/-- The row of a credential that is seen for the first time. -/
def newSession (request : Request) (now : Int) (s : State) : Trust where
  id := s.nextId
  tokenFingerprint := .identity request.credential
  knoxDigest := request.credential.digest
  userId := request.userId
  username := request.username
  createdAt := now
  updatedAt := now
  lastActivityAt := now
  lastSeenAt := now
  initialIp := request.clientIp
  lastIp := request.clientIp
  userAgentHash := request.userAgentHash
  absoluteExpiresAt := now + s.policy.absoluteLifetimeMinutes * minute
  idleExpiresAt := now + s.policy.idleTimeoutMinutes * minute
  revoked := false
  revokedAt := none
  revokedBy := ""
  revocationReason := ""

/-- The row is stored, with its event. -/
def createSession (request : Request) (now : Int) (s : State) : State :=
  let row := newSession request now s
  State.audit { s with trusts := s.trusts ++ [row], nextId := s.nextId + 1 } false
    ⟨some row.id, row.username, "session_created", "", request.clientIp, "", "", now⟩

/-- The request comes from another address than the last one. -/
def hasMoved (request : Request) (row : Trust) : Bool :=
  request.clientIp != "" && row.lastIp != "" && request.clientIp != row.lastIp

/-- The event of a changed address; its reason is the policy. -/
def ipEvent (request : Request) (row : Trust) (mode : String) (now : Int) : AuditEvent :=
  ⟨some row.id, row.username, "session_ip_changed", row.lastIp, request.clientIp, mode, "", now⟩

/-- An accepted request: the row is seen now, at the address of the request, and bound to its digest. -/
def acceptSession (request : Request) (now : Int) (row : Trust) (s : State) : Outcome Trust :=
  let row := { row with lastSeenAt := now }
  match bindKnoxDigest row request.credential.digest with
  | .error e => (.error e, s)
  | .ok bound =>
    let row := { refreshExpiry s.policy (bound.getD row) with updatedAt := now }
    (.ok row, s.put row)

/-- The address of a request against the policy. -/
def checkAddress (request : Request) (now : Int) (row : Trust) (s : State) : Outcome Trust :=
  if hasMoved request row then
    match s.policy.ipChangePolicy with
    | .off => acceptSession request now { row with lastIp := request.clientIp } s
    | .audit => acceptSession request now { row with lastIp := request.clientIp } (s.audit false (ipEvent request row "audit" now))
    | .reauthenticate =>
      (.error .ipChange, revokeLocked row "ip-change-reauthenticate" "" "session_reauthentication_required" true now
        (s.audit false (ipEvent request row "reauthenticate" now)))
    | .terminate =>
      (.error .ipChange, revokeLocked row "ip-change-terminate" "" "session_revoked" true now
        (s.audit false (ipEvent request row "terminate" now)))
  else acceptSession request now row s

/-- The checks on the row of a request. -/
def checkSession (request : Request) (now : Int) (row : Trust) (s : State) : Outcome Trust :=
  if row.revoked then (.error .sessionRevoked, s)
  else if row.userId ≠ request.userId ∨ row.username ≠ request.username then
    (.error .userMismatch, revokeLocked row "credential-user-mismatch" "" "session_revoked" true now s)
  else
    let row := refreshExpiry s.policy row
    if row.absoluteExpiresAt ≤ now then
      (.error .absoluteTimeout, revokeLocked row "absolute-timeout" "" "session_absolute_timeout" true now s)
    else if row.idleExpiresAt ≤ now then
      (.error .idleTimeout, revokeLocked row "idle-timeout" "" "session_idle_timeout" true now s)
    else checkAddress request now row s

/-- `ensure_request_session`. -/
def ensureRequestSession (request : Request) (now : Int) (create : Bool) : State → Outcome Trust :=
  atomic fun s =>
    match existingSessionForCredential request.credential now s with
    | (.error e, s) => (.error e, s)
    | (.ok (some row), s) => checkSession request now row s
    | (.ok none, s) =>
      if create then checkSession request now (newSession request now s) (createSession request now s) else (.error .noSession, s)

/-- The second transaction of `record_activity`, on the row that the first one answered. -/
def recordSeen (id : Nat) (now : Int) : State → Outcome Trust :=
  atomic fun s =>
    match s.trusts.find? fun t => t.id == id with
    | none => (.error .doesNotExist, s)
    | some row =>
      if row.revoked then (.error .sessionRevoked, s)
      else
        let row := refreshExpiry s.policy row
        if row.absoluteExpiresAt ≤ now then
          (.error .absoluteTimeout, revokeLocked row "absolute-timeout" "" "session_absolute_timeout" true now s)
        else if row.idleExpiresAt ≤ now then
          (.error .idleTimeout, revokeLocked row "idle-timeout" "" "session_idle_timeout" true now s)
        else
          let row := { refreshExpiry s.policy { row with lastActivityAt := now, lastSeenAt := now } with updatedAt := now }
          (.ok row, s.put row)

/-- `record_activity`; the second transaction reads the clock again. -/
def recordActivity (request : Request) (now later : Int) (s : State) : Outcome Trust :=
  match ensureRequestSession request now true s with
  | (.error e, s) => (.error e, s)
  | (.ok row, s) => recordSeen row.id later s

/-- The idle limit of a terminal, after the input that was counted. -/
def checkIdle (now : Int) (row : Trust) (s : State) : Option String × State :=
  if row.idleExpiresAt ≤ now then (some "session_idle_timeout", revokeLocked row "idle-timeout" "" "session_idle_timeout" true now s)
  else (none, s)

/-- `record_terminal_activity`: the reason why the sign-in does not hold, when it does not. -/
def recordTerminalActivity (trustId userId : Nat) (digest : Option String) (activityAt : Option Int) (now : Int) (s : State) :
    Option String × State :=
  match s.trusts.find? fun t => t.id == trustId with
  | none => (some "session_revoked", s)
  | some row =>
    if row.revoked ∨ row.userId ≠ userId then (some "session_revoked", s)
    else if row.knoxDigest = none ∨ digest ≠ row.knoxDigest then (some "credential_unavailable", s)
    else
      let row := refreshExpiry s.policy row
      if row.absoluteExpiresAt ≤ now then
        (some "session_expired", revokeLocked row "absolute-timeout" "" "session_absolute_timeout" true now s)
      else
        match activityAt with
        | none => checkIdle now row s
        | some activity =>
          let input := min activity now
          if row.idleExpiresAt ≤ input then
            (some "session_idle_timeout", revokeLocked row "idle-timeout" "" "session_idle_timeout" true now s)
          else if row.lastActivityAt < input then
            let row := { refreshExpiry s.policy { row with lastActivityAt := input, lastSeenAt := max input row.lastSeenAt } with updatedAt := now }
            checkIdle now row (s.put row)
          else checkIdle now row s

/-! ## Policy -/

/-- What `_update_global_policy` is asked to change. -/
structure PolicyChange where
  idleTimeoutMinutes : Option Int
  absoluteLifetimeMinutes : Option Int
  ipChangePolicy : Option IpChangePolicy
  sessionAuditEnabled : Option Bool
  historyRetentionDays : Option Int

/-- Nothing is to change. -/
def PolicyChange.isEmpty (change : PolicyChange) : Bool :=
  change.idleTimeoutMinutes.isNone && change.absoluteLifetimeMinutes.isNone && change.ipChangePolicy.isNone &&
    change.sessionAuditEnabled.isNone && change.historyRetentionDays.isNone

/-- A new value within its limits, or none. -/
def within (low high : Int) (value : Option Int) : Bool := value.all fun v => decide (low ≤ v ∧ v ≤ high)

/-- `_update_global_policy`. -/
def updateGlobalPolicy (change : PolicyChange) (requestedBy : String) (now : Int) (s : State) : Outcome Unit :=
  if !within 1 1440 change.idleTimeoutMinutes then
    (.error (.sessionSecurityError "idle_timeout_minutes must be between 1 and 1440."), s)
  else if !within 1 10080 change.absoluteLifetimeMinutes then
    (.error (.sessionSecurityError "absolute_lifetime_minutes must be between 1 and 10080."), s)
  else if !within 1 3650 change.historyRetentionDays then
    (.error (.sessionSecurityError "history_retention_days must be between 1 and 3650."), s)
  else if change.isEmpty then (.ok (), s)
  else
    let policy : Policy :=
      { idleTimeoutMinutes := change.idleTimeoutMinutes.getD s.policy.idleTimeoutMinutes
        absoluteLifetimeMinutes := change.absoluteLifetimeMinutes.getD s.policy.absoluteLifetimeMinutes
        ipChangePolicy := change.ipChangePolicy.getD s.policy.ipChangePolicy
        sessionAuditEnabled := change.sessionAuditEnabled.getD s.policy.sessionAuditEnabled
        historyRetentionDays := change.historyRetentionDays.getD s.policy.historyRetentionDays }
    (.ok (), { s with policy := policy }.audit true
      ⟨none, "", "session_policy_changed", "", "", "global-session-policy-update", requestedBy, now⟩)

/-! ## Revocations -/

/-- The rows are revoked one after the other. -/
def revokeEach (rows : List Trust) (reason requestedBy eventType : String) (invalidateKnox : Bool) (now : Int) (s : State) : State :=
  rows.foldl (fun s row => revokeLocked row reason requestedBy eventType invalidateKnox now s) s

/-- `revoke_session`. -/
def revokeSession (id : Nat) (reason requestedBy : String) (now : Int) (s : State) : Outcome Unit :=
  match s.trusts.find? fun t => t.id == id with
  | none => (.error .doesNotExist, s)
  | some row => (.ok (), revokeLocked row reason requestedBy "session_revoked" true now s)

/-- `revoke_user_sessions`. -/
def revokeUserSessions (username : String) (except_ : Option Nat) (reason requestedBy : String) (now : Int) (s : State) : Outcome Unit :=
  let name := nameOf username
  if name = "" then (.error (.sessionSecurityError "username is required."), s)
  else
    let open_ := s.trusts.filter fun t => t.username == name && !t.revoked
    let current := open_.find? fun t => decide (except_ = some t.id)
    let preserved := current.bind Trust.knoxDigest
    let rows := open_.filter fun t => !decide (except_ = some t.id)
    let s := revokeEach rows reason requestedBy "session_revoked" false now s
    let s := s.dropTokens fun token => token.username == name && !decide (preserved = some token.digest)
    (.ok (), if rows.isEmpty then s else s.audit false ⟨none, name, "user_sessions_revoked", "", "", reason, requestedBy, now⟩)

/-- A token that `_active_knox_tokens` lists. -/
def Token.isActive (now : Int) (token : Token) : Bool := token.expiry.any fun expiry => decide (now < expiry)

/-- `revoke_active_login_session`, on the token that the reference stands for. -/
def revokeActiveLoginSession (digest : String) (permitted : Bool) (reason requestedBy : String) (now : Int) (s : State) : Outcome Unit :=
  match s.tactical.tokens.find? fun token => token.digest == digest && token.isActive now with
  | none => (.error (.sessionSecurityError "Active login session was not found."), s)
  | some token =>
    if !permitted then (.error .permissionError, s)
    else
      let rows := s.trusts.filter fun t => t.knoxDigest == some digest && !t.revoked
      let s := revokeEach rows reason requestedBy "session_revoked" true now s
      let s := s.dropTokens fun other => other.digest == digest
      (.ok (), s.audit false ⟨none, token.username, "tactical_login_session_revoked", "", "", reason, requestedBy, now⟩)

/-- `revoke_user_login_sessions`. -/
def revokeUserLoginSessions (userId : Nat) (permitted : Bool) (reason requestedBy : String) (now : Int) (s : State) : Outcome Unit :=
  if !permitted then (.error .permissionError, s)
  else
    let tokens := s.tactical.tokens.filter fun token => token.userId == userId && token.isActive now
    match tokens with
    | [] => (.ok (), s)
    | token :: _ =>
      let digests := tokens.map Token.digest
      let rows := s.trusts.filter fun t => (t.knoxDigest.any fun digest => digests.contains digest) && !t.revoked
      let s := revokeEach rows reason requestedBy "session_revoked" true now s
      let s := s.dropTokens fun other => digests.contains other.digest
      (.ok (), s.audit false ⟨none, token.username, "tactical_user_sessions_revoked", "", "", reason, requestedBy, now⟩)

/-- `revoke_all_login_sessions`; `keep` is the digest of the caller's token and the id of the caller's row, when these are kept, and
`recorded` is whether the Core audit row was written. -/
def revokeAllLoginSessions (superuser : Bool) (keep : Option (String × Option Nat)) (recorded : Bool) (reason requestedBy : String) (now : Int)
    (s : State) : Outcome Unit :=
  if !superuser then (.error .permissionError, s)
  else
    atomic (fun s =>
      let reason := cut 255 (if reason = "" then "administrator-request" else reason)
      let spared := fun t : Trust => keep.any fun k => decide (t.knoxDigest = some k.1) || decide (k.2 = some t.id)
      let rows := s.trusts.filter fun t => !t.revoked && !spared t
      let s := revokeEach rows reason requestedBy "session_revoked" false now s
      let s := s.dropTokens fun token => !keep.any fun k => decide (token.digest = k.1)
      let s := s.audit true ⟨none, "", "all_login_sessions_revoked", "", "", reason, requestedBy, now⟩
      if recorded then (.ok (), s) else (.error .auditFailed, s)) s

/-! ## The sweep -/

/-- `_expiry_verdict`. -/
def expiryVerdict (policy : Policy) (now : Int) (row : Trust) : Option (String × String) :=
  if row.createdAt + policy.absoluteLifetimeMinutes * minute ≤ now then some ("absolute-timeout", "session_absolute_timeout")
  else if row.lastActivityAt + policy.idleTimeoutMinutes * minute ≤ now then some ("idle-timeout", "session_idle_timeout")
  else none

/-- One row of the sweep, in its own transaction; a row that a request holds, or that fails, is skipped. -/
def sweepRow (now : Int) (skipped : List Nat) (s : State) (id : Nat) : State :=
  match s.trusts.find? fun t => t.id == id && !t.revoked with
  | none => s
  | some row =>
    if skipped.contains id || row.knoxDigest.isNone then s
    else
      match expiryVerdict s.policy now row with
      | none => s
      | some (reason, eventType) => revokeLocked row reason "tec-tac-scheduler" eventType true now s

/-- `sweep_expired_sessions`. -/
def sweepExpiredSessions (now : Int) (limit : Nat) (skipped : List Nat) (s : State) : State :=
  let limit := max 1 limit
  let expired := s.trusts.filter fun t => !t.revoked && t.knoxDigest.isSome && (expiryVerdict s.policy now t).isSome
  let candidates := ((expired.insertionSort fun a b => a.createdAt ≤ b.createdAt).map Trust.id).take limit
  let s := candidates.foldl (sweepRow now skipped) s
  -- a token that is still there although its row is revoked
  let orphans := ((s.tactical.tokens.map Token.digest).filter fun digest =>
    s.trusts.any fun t => t.revoked && decide (t.knoxDigest = some digest)).take limit
  s.dropTokens fun token => orphans.contains token.digest

/-! ## The clean-up -/

/-- `_active_non_knox_credential_fingerprints`. -/
def activeNonKnox (tactical : Tactical) (now : Int) : List Fingerprint :=
  (tactical.apiKeys.map fun id => Fingerprint.identity (.apiKey id)) ++
    (tactical.sessions.filter fun session => decide (now < session.2)).map fun session => Fingerprint.identity (.djangoSession session.1)

/-- `_revoked_tombstone_is_live`; `tokensRead` is whether the tokens can be read, and `active` is nothing when the API keys or the
Django sessions cannot. -/
def revokedTombstoneIsLive (tactical : Tactical) (now : Int) (tokensRead : Bool) (active : Option (List Fingerprint)) (row : Trust) : Bool :=
  match row.knoxDigest with
  | some digest => !tokensRead || tactical.tokens.any fun token => token.digest == digest && token.isLive now
  | none =>
    if nameOf row.username != "" &&
        (!tokensRead || tactical.tokens.any fun token => token.username == nameOf row.username && token.isLive now) then true
    else
      match active with
      | none => true
      | some fingerprints => fingerprints.contains row.tokenFingerprint

/-- `cleanup_session_history`. -/
def cleanupSessionHistory (retentionDays : Option Int) (tokensRead othersRead : Bool) (now : Int) (s : State) : Outcome Unit :=
  let days := retentionDays.getD s.policy.historyRetentionDays
  if days < 1 ∨ 3650 < days then (.error (.sessionSecurityError "retention_days must be between 1 and 3650."), s)
  else
    let cutoff := now - days * day
    let stale := fun t : Trust => !t.revoked && (decide (t.absoluteExpiresAt < cutoff) || decide (t.idleExpiresAt < cutoff))
    let digests := (s.trusts.filter stale).filterMap Trust.knoxDigest
    let s := s.dropTokens fun token => digests.contains token.digest
    let s := s.dropTrusts stale
    let active := if othersRead then some (activeNonKnox s.tactical now) else none
    let old := fun t : Trust => t.revoked && decide (t.revokedAt.getD t.updatedAt < cutoff)
    let s := s.dropTrusts fun t => old t && !revokedTombstoneIsLive s.tactical now tokensRead active t
    (.ok (), { s with audits := s.audits.filter fun event => !decide (event.createdAt < cutoff) })

/-! ## Runs -/

/-- What happens to the state. -/
inductive Event where
  | request (request : Request) (now : Int)
  | heartbeat (request : Request) (now later : Int)
  | terminal (trustId userId : Nat) (digest : Option String) (activityAt : Option Int) (now : Int)
  | policy (change : PolicyChange) (requestedBy : String) (now : Int)
  | revokeSession (id : Nat) (reason requestedBy : String) (now : Int)
  | revokeUserSessions (username : String) (except_ : Option Nat) (reason requestedBy : String) (now : Int)
  | revokeActiveLoginSession (digest : String) (permitted : Bool) (reason requestedBy : String) (now : Int)
  | revokeUserLoginSessions (userId : Nat) (permitted : Bool) (reason requestedBy : String) (now : Int)
  | revokeAllLoginSessions (superuser : Bool) (keep : Option (String × Option Nat)) (recorded : Bool) (reason requestedBy : String) (now : Int)
  | sweep (limit : Nat) (skipped : List Nat) (now : Int)
  | cleanup (retentionDays : Option Int) (tokensRead othersRead : Bool) (now : Int)
  | tactical (tables : Tactical) (now : Int)

/-- When an event happens; a heartbeat is over when its second transaction is. -/
def Event.now : Event → Int
  | request _ now | terminal _ _ _ _ now | policy _ _ now | revokeSession _ _ _ now | revokeUserSessions _ _ _ _ now
  | revokeActiveLoginSession _ _ _ _ now | revokeUserLoginSessions _ _ _ _ now | revokeAllLoginSessions _ _ _ _ _ now | sweep _ _ now
  | cleanup _ _ _ now | tactical _ now => now
  | heartbeat _ _ later => later

/-- The state after an event. -/
def step (s : State) : Event → State
  | .request request now => (ensureRequestSession request now true s).2
  | .heartbeat request now later => (recordActivity request now later s).2
  | .terminal trustId userId digest activityAt now => (recordTerminalActivity trustId userId digest activityAt now s).2
  | .policy change requestedBy now => (updateGlobalPolicy change requestedBy now s).2
  | .revokeSession id reason requestedBy now => (revokeSession id reason requestedBy now s).2
  | .revokeUserSessions username except_ reason requestedBy now => (revokeUserSessions username except_ reason requestedBy now s).2
  | .revokeActiveLoginSession digest permitted reason requestedBy now => (revokeActiveLoginSession digest permitted reason requestedBy now s).2
  | .revokeUserLoginSessions userId permitted reason requestedBy now => (revokeUserLoginSessions userId permitted reason requestedBy now s).2
  | .revokeAllLoginSessions superuser keep recorded reason requestedBy now =>
    (revokeAllLoginSessions superuser keep recorded reason requestedBy now s).2
  | .sweep limit skipped now => sweepExpiredSessions now limit skipped s
  | .cleanup retentionDays tokensRead othersRead now => (cleanupSessionHistory retentionDays tokensRead othersRead now s).2
  | .tactical tables _ => { s with tactical := tables }

/-- The state after a run of events. -/
def run (s : State) (events : List Event) : State := events.foldl step s

end Sessions

end TecTac
