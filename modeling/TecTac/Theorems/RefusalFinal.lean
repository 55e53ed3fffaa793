import TecTac.Lemmas.SessionSecurity
import TecTac.Lib.Machine

/-!
# A refusal of a session

A refusal for a limit, a changed address or another user is meant to be final: the row is revoked, its Knox token is deleted and the
event is stored. `ensure_request_session` and `record_activity` write all this inside the transaction that they leave with the
refusal itself, so the transaction takes it back. A run keeps the promise exactly when no request and no heartbeat of it is refused so:
every refusal leaves the row as it was, and a later request with a wider policy or from the old address is accepted.
-/

namespace TecTac

namespace Sessions

/-- The refusals that are meant to be final. -/
def Denied.isRefusal : Denied → Bool
  | absoluteTimeout | idleTimeout | ipChange | userMismatch => true
  | _ => false

/-- The reasons that the event of a refusal may name. -/
def Denied.reasons : Denied → List String
  | absoluteTimeout => ["absolute-timeout"]
  | idleTimeout => ["idle-timeout"]
  | ipChange => ["ip-change-reauthenticate", "ip-change-terminate"]
  | userMismatch => ["credential-user-mismatch"]
  | _ => []

/-- The credential of a request or a heartbeat. -/
def Event.credential : Event → Option Credential
  | .request r _ => some r.credential
  | .heartbeat r _ _ => some r.credential
  | _ => none

/-- The row that a request is refused with, and the refusal. -/
def requestRefusal (s : State) (request : Request) (now : Int) : Option (Trust × Denied) :=
  match (ensureRequestSession request now true s).1 with
  | .ok _ => none
  | .error d => if d.isRefusal then (checkedRow request now s).map fun row => (row, d) else none

/-- The row that an event is refused with, and the refusal. -/
def refusal (s : State) : Event → Option (Trust × Denied)
  | .request request now => requestRefusal s request now
  | .heartbeat request now later =>
    match ensureRequestSession request now true s with
    | (.error _, _) => requestRefusal s request now
    | (.ok row, s') =>
      match (recordSeen row.id later s').1 with
      | .ok _ => none
      | .error d => if d.isRefusal then some (row, d) else none
  | _ => none

/-- The session has ended for good: the row is revoked, its token is gone and the event is stored. -/
structure Ended (row : Trust) (d : Denied) (s : State) : Prop where
  revoked : ∃ t ∈ s.trusts, t.id = row.id ∧ t.revoked = true
  token : ∀ token ∈ s.tactical.tokens, row.knoxDigest ≠ some token.digest
  audit : ∃ event ∈ s.audits, event.session = some row.id ∧ event.reason ∈ d.reasons

/-- The event is no accepted request with the credential. -/
def NotAccepted (credential : Credential) (s : State) : Event → Prop
  | .request request now | .heartbeat request now _ =>
    request.credential = credential → ∀ row, (ensureRequestSession request now true s).1 ≠ .ok row
  | _ => True

/-- Every refusal of a run is final. -/
def RefusalsFinal : State → List Event → Prop
  | _, [] => True
  | s, e :: events =>
    (∀ row d credential, refusal s e = some (row, d) → e.credential = some credential →
      Ended row d (step s e) ∧ Machine.Along step (NotAccepted credential) (step s e) events) ∧ RefusalsFinal (step s e) events

/-- A limit of the row has passed. -/
def PastLimit (policy : Policy) (now : Int) (row : Trust) : Prop :=
  row.createdAt + policy.absoluteLifetimeMinutes * minute ≤ now ∨ row.lastActivityAt + policy.idleTimeoutMinutes * minute ≤ now

/-- A row that is not revoked and that a request is refused with. -/
def Refusable (policy : Policy) (request : Request) (now : Int) (row : Trust) : Prop :=
  row.revoked = false ∧ (row.userId ≠ request.userId ∨ row.username ≠ request.username ∨ PastLimit policy now row ∨
    hasMoved request row = true ∧ (policy.ipChangePolicy = .reauthenticate ∨ policy.ipChangePolicy = .terminate))

/-- A request or a heartbeat finds such a row. -/
def FindsRefusable (s : State) : Event → Prop
  | .request request now => ∃ row, checkedRow request now s = some row ∧ Refusable s.policy request now row
  | .heartbeat request now later => ∃ row, checkedRow request now s = some row ∧
    (Refusable s.policy request now row ∨ row.revoked = false ∧ PastLimit s.policy later row)
  | _ => False

namespace RefusalFinalAux

/-! ## The checks -/

theorem bindKnoxDigest_ok {row : Trust} {digest : Option String} (h : ∀ bound d, row.knoxDigest = some bound → digest = some d → bound = d) :
    ∃ b, bindKnoxDigest row digest = .ok b := by
  unfold bindKnoxDigest
  split
  · exact ⟨none, rfl⟩
  · rename_i d
    split
    · rename_i bound hbound
      rw [if_pos (h bound d hbound rfl)]
      exact ⟨none, rfl⟩
    · exact ⟨_, rfl⟩

theorem bindKnoxDigest_error {row : Trust} {digest : Option String} {e : Denied} (h : bindKnoxDigest row digest = .error e) :
    e = .bindingMismatch := by
  unfold bindKnoxDigest at h
  split at h
  · cases h
  · split at h
    · split at h
      · cases h
      · cases h
        rfl
    · cases h

theorem acceptSession_not_refusal {request : Request} {now : Int} {row : Trust} {s left : State} {d : Denied}
    (h : acceptSession request now row s = (.error d, left)) : d.isRefusal = false := by
  unfold acceptSession at h
  simp only at h
  split at h
  · rename_i hbind
    cases h
    rw [bindKnoxDigest_error hbind]
    rfl
  · cases h

/-- A check refuses exactly the rows that can be refused. -/
theorem checkSession_refused_iff {request : Request} {now : Int} {row : Trust} {s : State} :
    (∃ d left, checkSession request now row s = (.error d, left) ∧ d.isRefusal = true) ↔ Refusable s.policy request now row := by
  unfold checkSession Refusable PastLimit
  split
  · rename_i hrevoked
    constructor
    · rintro ⟨d, left, h, hrefusal⟩
      cases h
      cases hrefusal
    · rintro ⟨hlive, -⟩
      cases hlive.symm.trans hrevoked
  · rename_i hrevoked
    have hlive : row.revoked = false := by simpa using hrevoked
    split
    · rename_i huser
      refine ⟨fun _ => ⟨hlive, ?_⟩, fun _ => ⟨_, _, rfl, rfl⟩⟩
      rcases huser with h | h
      · exact .inl h
      · exact .inr (.inl h)
    · rename_i huser
      rw [not_or, not_not, not_not] at huser
      simp only
      split
      · rename_i habsolute
        exact ⟨fun _ => ⟨hlive, .inr (.inr (.inl (.inl habsolute)))⟩, fun _ => ⟨_, _, rfl, rfl⟩⟩
      · rename_i habsolute
        have habsolute : ¬ row.createdAt + s.policy.absoluteLifetimeMinutes * minute ≤ now := habsolute
        split
        · rename_i hidle
          exact ⟨fun _ => ⟨hlive, .inr (.inr (.inl (.inr hidle)))⟩, fun _ => ⟨_, _, rfl, rfl⟩⟩
        · rename_i hidle
          have hidle : ¬ row.lastActivityAt + s.policy.idleTimeoutMinutes * minute ≤ now := hidle
          have haddress : (row.userId ≠ request.userId ∨ row.username ≠ request.username ∨
              (row.createdAt + s.policy.absoluteLifetimeMinutes * minute ≤ now ∨
                row.lastActivityAt + s.policy.idleTimeoutMinutes * minute ≤ now) ∨
              hasMoved request row = true ∧ (s.policy.ipChangePolicy = .reauthenticate ∨ s.policy.ipChangePolicy = .terminate)) ↔
              hasMoved request row = true ∧ (s.policy.ipChangePolicy = .reauthenticate ∨ s.policy.ipChangePolicy = .terminate) := by
            simp [huser, habsolute, hidle]
          rw [haddress]
          unfold checkAddress
          have hno : ∀ (row' : Trust) (s' : State),
              ¬ ∃ d left, acceptSession request now row' s' = (.error d, left) ∧ d.isRefusal = true := by
            rintro row' s' ⟨d, left, h, hrefusal⟩
            rw [acceptSession_not_refusal h] at hrefusal
            cases hrefusal
          split
          · rename_i hm
            have hm : hasMoved request row = true := hm
            have hnever : ∀ {P : Prop}, ¬ P → (s.policy.ipChangePolicy ≠ .reauthenticate ∧ s.policy.ipChangePolicy ≠ .terminate) →
                (P ↔ row.revoked = false ∧ hasMoved request row = true ∧
                  (s.policy.ipChangePolicy = .reauthenticate ∨ s.policy.ipChangePolicy = .terminate)) := by
              intro P hp hmode
              exact ⟨fun h => absurd h hp, fun h => (h.2.2.elim hmode.1 hmode.2).elim⟩
            split
            · rename_i hpolicy
              exact hnever (hno _ _) (by rw [hpolicy]; decide)
            · rename_i hpolicy
              exact hnever (hno _ _) (by rw [hpolicy]; decide)
            · rename_i hpolicy
              exact ⟨fun _ => ⟨hlive, hm, .inl hpolicy⟩, fun _ => ⟨_, _, rfl, rfl⟩⟩
            · rename_i hpolicy
              exact ⟨fun _ => ⟨hlive, hm, .inr hpolicy⟩, fun _ => ⟨_, _, rfl, rfl⟩⟩
          · rename_i hm
            have hm : ¬ hasMoved request row = true := hm
            exact ⟨fun h => absurd h (hno _ _), fun h => absurd h.2.1 hm⟩

/-- A row that is live and is not refused is accepted, unless it is bound to another digest. -/
theorem checkSession_accepts {request : Request} {now : Int} {row : Trust} {s : State} (hlive : row.revoked = false)
    (hnot : ¬ Refusable s.policy request now row)
    (hbind : ∀ bound d, row.knoxDigest = some bound → request.credential.digest = some d → bound = d) :
    ∃ row' left, checkSession request now row s = (.ok row', left) := by
  rcases hcheck : checkSession request now row s with ⟨outcome, left⟩
  cases outcome with
  | ok row' => exact ⟨row', left, rfl⟩
  | error d =>
    exfalso
    have hrefusal : d.isRefusal = false := by
      by_contra h
      exact hnot (checkSession_refused_iff.1 ⟨d, left, hcheck, by simpa using h⟩)
    have haccept : ∀ (row' : Trust) (s' : State), row'.knoxDigest = row.knoxDigest →
        ∃ row'' left, acceptSession request now row' s' = (.ok row'', left) := by
      intro row' s' hdigest
      have hbound : ∃ b, bindKnoxDigest { row' with lastSeenAt := now } request.credential.digest = .ok b :=
        bindKnoxDigest_ok fun bound d hbound hd => hbind bound d (hdigest ▸ hbound) hd
      obtain ⟨b, hb⟩ := hbound
      simp only [acceptSession, hb]
      exact ⟨_, _, rfl⟩
    unfold checkSession at hcheck
    rw [if_neg (by simpa using hlive)] at hcheck
    split at hcheck
    · cases hcheck
      cases hrefusal
    · simp only at hcheck
      split at hcheck
      · cases hcheck
        cases hrefusal
      · split at hcheck
        · cases hcheck
          cases hrefusal
        · unfold checkAddress at hcheck
          split at hcheck
          · split at hcheck
            · obtain ⟨_, _, hok⟩ := haccept { refreshExpiry s.policy row with lastIp := request.clientIp } s rfl
              cases hok.symm.trans hcheck
            · obtain ⟨_, _, hok⟩ := haccept { refreshExpiry s.policy row with lastIp := request.clientIp } _ rfl
              cases hok.symm.trans hcheck
            · cases hcheck
              cases hrefusal
            · cases hcheck
              cases hrefusal
          · obtain ⟨_, _, hok⟩ := haccept (refreshExpiry s.policy row) s rfl
            cases hok.symm.trans hcheck

/-! ## The row of a request -/

/-- A row is bound to no digest but the one of the credential that it was found for. -/
theorem bound_eq {s : State} (hvalid : ValidTable s.table) {row : Trust} {credential : Credential} (hmem : row ∈ s.trusts)
    (hfor : row.knoxDigest = credential.digest ∨ (∀ digest, credential.digest = some digest → row.Owns digest)) :
    ∀ bound d, row.knoxDigest = some bound → credential.digest = some d → bound = d := by
  intro bound d hbound hd
  rcases hfor with h | h
  · exact Option.some.inj (hbound.symm.trans (h.trans hd))
  · have howns := hvalid.bound row hmem bound hbound
    rcases h d hd with h | h <;> rcases howns with h' | h'
    · exact (Credential.knox.inj (Fingerprint.identity.inj (h.symm.trans h'))).symm
    · cases h.symm.trans h'
    · cases h.symm.trans h'
    · exact (Fingerprint.bearer.inj (h.symm.trans h')).symm

/-- What is known of the live row that a request is checked against, in the state `s'` of its transaction. -/
structure Checked (request : Request) (now : Int) (s s' : State) (row : Trust) : Prop where
  body : ∀ outcome left, checkSession request now row s' = (outcome, left) → (ensureRequestSession request now true s).1 = outcome
  policy : s'.policy = s.policy
  unrevoked : ∀ t ∈ s.trusts, t.id = row.id → t.revoked = false
  bind : ∀ bound d, row.knoxDigest = some bound → request.credential.digest = some d → bound = d

theorem checked_of_live {s : State} {request : Request} {now : Int} {row : Trust} (hvalid : ValidTable s.table)
    (h : checkedRow request now s = some row) (hlive : row.revoked = false) : ∃ s', Checked request now s s' row := by
  unfold checkedRow at h
  split at h
  · rename_i found s' hfound
    cases h
    have hspec := existing_some hvalid hfound
    have hvalid' := writes_valid (hspec.writes hlive) hvalid
    refine ⟨s', ?_, hspec.policy, ?_, bound_eq hvalid' hspec.mem hspec.owner⟩
    · intro outcome left hcheck
      simp only [ensureRequestSession, atomic, hfound, hcheck]
      cases outcome <;> rfl
    · intro t ht hid
      by_contra hrevoked
      have hrevoked : t.revoked = true := by simpa using hrevoked
      have hmem := writes_revoked (hspec.writes hlive) hvalid ht hrevoked
      rw [eq_of_id hvalid'.ids hmem hspec.mem hid, hlive] at hrevoked
      cases hrevoked
  · rename_i s' hfound
    cases h
    obtain ⟨rfl, hnew⟩ := existing_none hfound
    refine ⟨createSession request now s', ?_, audit_policy _ _ _, ?_, ?_⟩
    · intro outcome left hcheck
      simp only [ensureRequestSession, atomic, hfound, if_true, hcheck]
      cases outcome <;> rfl
    · intro t ht hid
      have hfresh : t.id < s'.nextId := hvalid.fresh t ht
      rw [hid] at hfresh
      exact absurd hfresh (Nat.lt_irrefl _)
    · intro bound d hbound hd
      exact Option.some.inj (hbound.symm.trans hd)
  · cases h

/-! ## Refusals -/

theorem requestRefusal_some {s : State} {request : Request} {now : Int} {row : Trust} {d : Denied}
    (h : requestRefusal s request now = some (row, d)) :
    checkedRow request now s = some row ∧ (ensureRequestSession request now true s).1 = .error d ∧ d.isRefusal = true := by
  unfold requestRefusal at h
  split at h
  · cases h
  · rename_i d' hensure
    split at h
    · rename_i hrefusal
      obtain ⟨found, hfound, heq⟩ := Option.map_eq_some_iff.1 h
      cases heq
      exact ⟨hfound, hensure, hrefusal⟩
    · cases h

/-- A refused request finds a live row that can be refused. -/
theorem refusable_of_refused {s : State} {request : Request} {now : Int} {row : Trust} {d : Denied} (hvalid : ValidTable s.table)
    (hrow : checkedRow request now s = some row) (hensure : (ensureRequestSession request now true s).1 = .error d) (hrefusal : d.isRefusal = true) :
    Refusable s.policy request now row := by
  have hlive : row.revoked = false := by
    by_contra hrevoked
    have hrevoked : row.revoked = true := by simpa using hrevoked
    have hsession : d = .sessionRevoked := by
      unfold checkedRow at hrow
      split at hrow
      · rename_i found s' hfound
        cases hrow
        simp only [ensureRequestSession, atomic, hfound, checkSession, hrevoked, if_true] at hensure
        exact (Except.error.inj hensure).symm
      · cases hrow
        cases hrevoked
      · cases hrow
    rw [hsession] at hrefusal
    cases hrefusal
  obtain ⟨s', hchecked⟩ := checked_of_live hvalid hrow hlive
  rcases hcheck : checkSession request now row s' with ⟨outcome, left⟩
  have houtcome : outcome = .error d := (hchecked.body outcome left hcheck).symm.trans hensure
  rw [houtcome] at hcheck
  rw [← hchecked.policy]
  exact checkSession_refused_iff.1 ⟨d, left, hcheck, hrefusal⟩

theorem requestRefusal_iff {s : State} {request : Request} {now : Int} (hvalid : ValidTable s.table) :
    (∃ row d, requestRefusal s request now = some (row, d)) ↔
      ∃ row, checkedRow request now s = some row ∧ Refusable s.policy request now row := by
  constructor
  · rintro ⟨row, d, h⟩
    obtain ⟨hrow, hensure, hrefusal⟩ := requestRefusal_some h
    exact ⟨row, hrow, refusable_of_refused hvalid hrow hensure hrefusal⟩
  · rintro ⟨row, hrow, hrefusable⟩
    obtain ⟨s', hchecked⟩ := checked_of_live hvalid hrow hrefusable.1
    rw [← hchecked.policy] at hrefusable
    obtain ⟨d, left, hcheck, hrefusal⟩ := checkSession_refused_iff.2 hrefusable
    refine ⟨row, d, ?_⟩
    simp [requestRefusal, hchecked.body _ left hcheck, hrefusal, hrow]

/-- The second transaction of a heartbeat refuses a live row exactly when a limit of it has passed. -/
theorem recordSeen_refused_iff {s : State} {row : Trust} {now : Int} (hvalid : ValidTable s.table) (hmem : row ∈ s.trusts)
    (hlive : row.revoked = false) :
    (∃ d, (recordSeen row.id now s).1 = .error d ∧ d.isRefusal = true) ↔ PastLimit s.policy now row := by
  have hfind : (s.trusts.find? fun t => t.id == row.id) = some row := by
    cases h : s.trusts.find? fun t => t.id == row.id with
    | none => simpa using List.find?_eq_none.1 h row hmem
    | some other =>
      have hid : other.id = row.id := by simpa using List.find?_some h
      rw [eq_of_id hvalid.ids (List.mem_of_find?_eq_some h) hmem hid]
  unfold PastLimit recordSeen atomic
  simp only [hfind, hlive, Bool.false_eq_true, if_false, refreshExpiry]
  by_cases habsolute : row.createdAt + s.policy.absoluteLifetimeMinutes * minute ≤ now
  · simp [habsolute, Denied.isRefusal]
  · by_cases hidle : row.lastActivityAt + s.policy.idleTimeoutMinutes * minute ≤ now
    · simp [habsolute, hidle, Denied.isRefusal]
    · simp [habsolute, hidle]

/-- What leaves a row that is not revoked has not ended the session. -/
theorem not_ended {row : Trust} {d : Denied} {s : State} (h : ∀ t ∈ s.trusts, t.id = row.id → t.revoked = false) : ¬ Ended row d s := by
  intro hended
  obtain ⟨t, ht, hid, hrevoked⟩ := hended.revoked
  cases (h t ht hid).symm.trans hrevoked

/-- A refused request has not ended the session. -/
theorem not_ended_of_refused {s : State} {request : Request} {now : Int} {row : Trust} {d : Denied} (hvalid : ValidTable s.table)
    (h : requestRefusal s request now = some (row, d)) : ¬ Ended row d (ensureRequestSession request now true s).2 := by
  obtain ⟨hrow, hensure, hrefusal⟩ := requestRefusal_some h
  have hlive := (refusable_of_refused hvalid hrow hensure hrefusal).1
  obtain ⟨s', hchecked⟩ := checked_of_live hvalid hrow hlive
  rcases hpair : ensureRequestSession request now true s with ⟨outcome, left⟩
  rw [hpair] at hensure
  cases hensure
  obtain ⟨rfl, -⟩ := atomic_error hpair
  exact not_ended hchecked.unrevoked

/-- A heartbeat whose first transaction accepts the row is refused in the second, or not at all. -/
theorem refusal_heartbeat {s s' : State} {request : Request} {now later : Int} {checked row : Trust} (hvalid : ValidTable s.table)
    (hensure : ensureRequestSession request now true s = (.ok row, s')) (haccepted : Accepted checked row s s') :
    (∃ found d, refusal s (.heartbeat request now later) = some (found, d)) ↔ PastLimit s.policy later checked := by
  have hlimit : PastLimit s.policy later checked ↔ PastLimit s'.policy later row := by
    unfold PastLimit
    rw [haccepted.policy, haccepted.createdAt, haccepted.lastActivityAt]
  rw [hlimit, ← recordSeen_refused_iff (writes_valid haccepted.writes hvalid) haccepted.mem haccepted.revoked]
  simp only [refusal, hensure]
  constructor
  · rintro ⟨found, d, h⟩
    split at h
    · cases h
    · rename_i d' hseen
      split at h
      · rename_i hrefusal
        exact ⟨d', hseen, hrefusal⟩
      · cases h
  · rintro ⟨d, hseen, hrefusal⟩
    exact ⟨row, d, by simp [hseen, hrefusal]⟩

/-- An event is refused exactly when it finds a row that can be refused. -/
theorem refusal_iff {s : State} {e : Event} (hvalid : ValidTable s.table) : (∃ row d, refusal s e = some (row, d)) ↔ FindsRefusable s e := by
  cases e with
  | request request now => exact requestRefusal_iff hvalid
  | heartbeat request now later =>
    rcases hensure : ensureRequestSession request now true s with ⟨outcome, s'⟩
    cases outcome with
    | ok row =>
      obtain ⟨checked, hrow, haccepted⟩ := ensure_ok hvalid hensure
      have hnot : ¬ Refusable s.policy request now checked := by
        intro hrefusable
        obtain ⟨found, d, h⟩ := (requestRefusal_iff hvalid).2 ⟨checked, hrow, hrefusable⟩
        cases (congrArg Prod.fst hensure).symm.trans (requestRefusal_some h).2.1
      rw [refusal_heartbeat hvalid hensure haccepted]
      constructor
      · exact fun h => ⟨checked, hrow, .inr ⟨haccepted.live, h⟩⟩
      · rintro ⟨found, hfound, h⟩
        cases Option.some.inj (hrow.symm.trans hfound)
        exact (h.resolve_left hnot).2
    | error d =>
      have hsame : refusal s (.heartbeat request now later) = requestRefusal s request now := by simp only [refusal, hensure]
      rw [hsame, requestRefusal_iff hvalid]
      constructor
      · rintro ⟨row, hrow, hrefusable⟩
        exact ⟨row, hrow, .inl hrefusable⟩
      · rintro ⟨row, hrow, hrefusable | ⟨hlive, -⟩⟩
        · exact ⟨row, hrow, hrefusable⟩
        · -- a live row that is not refused is accepted, so the first transaction did not fail
          refine ⟨row, hrow, ?_⟩
          by_contra hnot
          obtain ⟨s', hchecked⟩ := checked_of_live hvalid hrow hlive
          rw [← hchecked.policy] at hnot
          obtain ⟨row', left, hok⟩ := checkSession_accepts hlive hnot hchecked.bind
          cases (hchecked.body _ left hok).symm.trans (congrArg Prod.fst hensure)
  | _ => exact ⟨fun ⟨_, _, h⟩ => absurd h nofun, False.elim⟩

/-- No refusal ends the session. -/
theorem refusal_not_final {s : State} {e : Event} {row : Trust} {d : Denied} (hvalid : ValidTable s.table) (h : refusal s e = some (row, d)) :
    ¬ Ended row d (step s e) := by
  cases e with
  | request request now => exact not_ended_of_refused hvalid h
  | heartbeat request now later =>
    rcases hensure : ensureRequestSession request now true s with ⟨outcome, s'⟩
    cases outcome with
    | ok accepted =>
      obtain ⟨checked, hrow, haccepted⟩ := ensure_ok hvalid hensure
      rcases hseen : recordSeen accepted.id later s' with ⟨outcome, s''⟩
      simp only [refusal, hensure, hseen] at h
      cases outcome with
      | ok _ => cases h
      | error d' =>
        have hrow : row = accepted := by
          simp only at h
          split at h
          · exact (congrArg Prod.fst (Option.some.inj h)).symm
          · cases h
        obtain ⟨rfl, -⟩ := atomic_error hseen
        simp only [step, recordActivity, hensure, hseen]
        rw [hrow]
        apply not_ended
        intro t ht hid
        rw [eq_of_id (writes_valid haccepted.writes hvalid).ids ht haccepted.mem hid]
        exact haccepted.revoked
    | error d' =>
      simp only [refusal, hensure] at h
      have hended := not_ended_of_refused hvalid h
      simp only [step, recordActivity, hensure]
      rw [hensure] at hended
      exact hended
  | _ => cases h

theorem credential_of_refusal {s : State} {e : Event} {row : Trust} {d : Denied} (h : refusal s e = some (row, d)) :
    ∃ credential, e.credential = some credential := by
  cases e with
  | request request now => exact ⟨_, rfl⟩
  | heartbeat request now later => exact ⟨_, rfl⟩
  | _ => cases h

end RefusalFinalAux

open RefusalFinalAux in
/-- The refusals of a run are final exactly when there are none: when no request and no heartbeat of it finds a live row past a limit, at
another address under the policies that end a session for it, or with another user. -/
theorem refusals_final_iff (s : State) (hvalid : ValidTable s.table) (events : List Event) :
    RefusalsFinal s events ↔ Machine.Along step (fun s e => ¬ FindsRefusable s e) s events := by
  induction events generalizing s with
  | nil => exact Iff.rfl
  | cons e events ih =>
    refine and_congr ?_ (ih (step s e) (step_valid hvalid))
    beta_reduce
    rw [← refusal_iff hvalid]
    constructor
    · rintro h ⟨row, d, hrefusal⟩
      obtain ⟨credential, hcredential⟩ := credential_of_refusal hrefusal
      exact refusal_not_final hvalid hrefusal (h row d credential hrefusal hcredential).1
    · intro h row d credential hrefusal
      exact absurd ⟨row, d, hrefusal⟩ h

/-! ## An idle session -/

/-- A session of a Knox token, under the default policy. -/
def idleState : State where
  trusts := [{
    id := 0, tokenFingerprint := .identity (.knox "d"), knoxDigest := some "d", userId := 1, username := "ada", createdAt := 0, updatedAt := 0,
    lastActivityAt := 0, lastSeenAt := 0, initialIp := "10.0.0.1", lastIp := "10.0.0.1", userAgentHash := "", absoluteExpiresAt := 480 * minute,
    idleExpiresAt := 30 * minute, revoked := false, revokedAt := none, revokedBy := "", revocationReason := "" }]
  tactical := ⟨[⟨"d", 1, "ada", none⟩], [], []⟩
  audits := []
  policy := ⟨30, 480, .reauthenticate, true, 30⟩
  nextId := 1

/-- A request with the token. -/
def idleRequest (now : Int) : Event := .request ⟨.knox "d", 1, "ada", "10.0.0.1", ""⟩ now

/-- A wider idle limit. -/
def widerIdle (now : Int) : Event := .policy ⟨some 60, none, none, none, none⟩ "root" now

theorem idleState_valid : ValidTable idleState.table := by
  refine ⟨by decide, ?_, by decide, ?_⟩
  · intro row hrow
    cases List.mem_singleton.1 hrow
    decide
  · intro row hrow digest hbound
    cases List.mem_singleton.1 hrow
    cases hbound
    exact .inl rfl

/-- Requests within the limits, and a change of the policy between them. -/
theorem requests_in_time_final : RefusalsFinal idleState [idleRequest minute, widerIdle (2 * minute), idleRequest (40 * minute)] := by
  rw [refusals_final_iff idleState idleState_valid]
  refine ⟨?_, not_false, ?_, trivial⟩
  · rintro ⟨row, hrow, -, h⟩
    cases hrow
    revert h
    simp [PastLimit]
    decide
  · rintro ⟨row, hrow, -, h⟩
    cases hrow
    revert h
    simp [PastLimit]
    decide

/-- A request after the idle limit is refused; after the limit is widened, the same token is accepted. -/
theorem idle_refusal_is_undone :
    (ensureRequestSession ⟨.knox "d", 1, "ada", "10.0.0.1", ""⟩ (40 * minute) true idleState).1 = .error .idleTimeout ∧
      (∃ row, (ensureRequestSession ⟨.knox "d", 1, "ada", "10.0.0.1", ""⟩ (42 * minute) true
        (run idleState [idleRequest (40 * minute), widerIdle (41 * minute)])).1 = .ok row) ∧
      ¬ RefusalsFinal idleState [idleRequest (40 * minute), widerIdle (41 * minute), idleRequest (42 * minute)] := by
  refine ⟨rfl, ⟨_, rfl⟩, ?_⟩
  rintro ⟨h, -⟩
  obtain ⟨-, -, haccepted, -⟩ := h _ _ (.knox "d") rfl rfl
  exact haccepted rfl _ rfl

end Sessions

end TecTac
