import TecTac.Lemmas.SessionSecurity
import TecTac.Lib.Machine

/-!
# A revoked credential does not come back

As long as a credential authenticates in Tactical, a revoked row that was ever stored for it stays, and a request with it is refused.
This holds along every run from a table in which no row that an old release left without a digest stands beside another row of its
credential, when every clean-up finds the unbound revoked rows under the names that the users of their tokens have. Without the first,
the unbound row is shadowed by the other one (`shadowed_row_is_ignored`); without the second, a clean-up takes the token of the row
for gone.
-/

namespace TecTac

namespace Sessions

/-- The unbound revoked rows whose Knox token still lives are written under the name that the user of the token has. -/
def NamesMatch (s : State) (now : Int) : Prop :=
  ∀ row ∈ s.trusts, row.revoked = true → row.knoxDigest = none → ∀ digest, row.Owns digest → ∀ token ∈ s.tactical.tokens,
    token.digest = digest → token.isLive now = true → nameOf row.username ≠ "" ∧ token.username = nameOf row.username

/-- A clean-up finds the names as they are. -/
def CleanupSafe (s : State) : Event → Prop
  | .cleanup _ _ _ now => NamesMatch s now
  | _ => True

/-- A revoked row is stored for a credential. -/
def HasRevoked (credential : Credential) (s : State) : Prop := ∃ row ∈ s.trusts, row.IsFor credential ∧ row.revoked = true

/-- The credential authenticates after the event. -/
def StillAuthenticates (credential : Credential) (s : State) (e : Event) : Prop :=
  (step s e).tactical.authenticates e.now credential = true

namespace RevokedStaysAux

/-- A row that is bound to a digest belongs to no other credential. -/
theorem eq_knox_of_bound {table : Table} {row : Trust} {credential : Credential} {digest : String} (hvalid : ValidTable table)
    (hrow : row ∈ table.1) (hbound : row.knoxDigest = some digest) (hfor : row.IsFor credential) : credential = .knox digest := by
  have howns := hvalid.bound row hrow digest hbound
  rcases hfor with h | ⟨d, rfl, h | h⟩
  · rcases howns with howns | howns
    · exact Fingerprint.identity.inj (h.symm.trans howns)
    · cases h.symm.trans howns
  · rw [Option.some.inj (hbound.symm.trans h)]
  · rcases howns with howns | howns
    · cases h.symm.trans howns
    · rw [Fingerprint.bearer.inj (h.symm.trans howns)]

theorem eq_of_fingerprint {table : Table} (hvalid : ValidTable table) {a b : Trust} (ha : a ∈ table.1) (hb : b ∈ table.1)
    (h : a.tokenFingerprint = b.tokenFingerprint) : a = b := List.inj_on_of_nodup_map hvalid.fingerprints ha hb h

theorem rowWith_eq {s : State} (hvalid : ValidTable s.table) {row : Trust} (hrow : row ∈ s.trusts) :
    rowWith row.tokenFingerprint s = some row := by
  cases hfind : rowWith row.tokenFingerprint s with
  | none => exact absurd rfl (rowWith_none hfind row hrow)
  | some other =>
    obtain ⟨hother, hfingerprint⟩ := rowWith_some hfind
    rw [eq_of_fingerprint hvalid hother hrow hfingerprint]

/-- Where a credential has a revoked row, the row that is found for it is revoked. -/
theorem existing_revoked {s : State} {credential : Credential} (now : Int) (hvalid : ValidTable s.table) (halone : LegacyAlone s.table)
    (h : HasRevoked credential s) : ∃ row s', existingSessionForCredential credential now s = (.ok (some row), s') ∧ row.revoked = true := by
  obtain ⟨row, hrow, hfor, hrevoked⟩ := h
  unfold existingSessionForCredential
  cases hnewest : newest ((digestRows credential s).filter Trust.revoked) with
  | some found => exact ⟨found, s, rfl, (List.mem_filter.1 (mem_of_newest hnewest)).2⟩
  | none =>
    have hunbound : ∀ digest, credential = .knox digest → row.knoxDigest ≠ some digest := by
      intro digest hcredential hbound
      have hmem : row ∈ (digestRows credential s).filter Trust.revoked :=
        List.mem_filter.2 ⟨mem_digestRows.2 ⟨hrow, digest, hcredential, hbound⟩, hrevoked⟩
      rw [newest_eq_none.1 hnewest] at hmem
      cases hmem
    rcases hfor with hcurrent | ⟨digest, rfl, hbound | hbearer⟩
    · have hfind := rowWith_eq hvalid hrow
      rw [hcurrent] at hfind
      simp only [hfind]
      exact ⟨row, s, rfl, hrevoked⟩
    · exact absurd hbound (hunbound digest rfl)
    · -- the row of an old release, unbound, is the only row of the credential
      have hnone : row.knoxDigest = none := by
        cases hd : row.knoxDigest with
        | none => rfl
        | some d =>
          have heq := eq_knox_of_bound hvalid hrow hd (.inr ⟨digest, rfl, .inr hbearer⟩)
          cases heq
          exact absurd hd (hunbound digest rfl)
      have honly := halone row hrow digest hbearer hnone
      have hcurrent : rowWith (.identity (.knox digest)) s = none := by
        cases hfind : rowWith (.identity (.knox digest)) s with
        | none => rfl
        | some other =>
          obtain ⟨hother, hfingerprint⟩ := rowWith_some hfind
          rw [honly other hother (.inl hfingerprint), hbearer] at hfingerprint
          cases hfingerprint
      have hdigest : newest (digestRows (.knox digest) s) = none := by
        rw [newest_eq_none, List.eq_nil_iff_forall_not_mem]
        intro other hother
        obtain ⟨hmem, d, hd, hbound⟩ := mem_digestRows.1 hother
        cases hd
        rw [honly other hmem (.inr ⟨digest, rfl, .inl hbound⟩), hnone] at hbound
        cases hbound
      have hfind := rowWith_eq hvalid hrow
      rw [hbearer] at hfind
      simp only [hcurrent, hdigest, legacySession, Credential.legacyFingerprint, Option.bind_some, hfind, bindKnoxDigest, Credential.digest, hnone]
      exact ⟨_, _, rfl, hrevoked⟩

/-- A request with a credential that has a revoked row is refused. -/
theorem refused_of_hasRevoked {s : State} {request : Request} (now : Int) (hvalid : ValidTable s.table) (halone : LegacyAlone s.table)
    (h : HasRevoked request.credential s) : ensureRequestSession request now true s = (.error .sessionRevoked, s) := by
  obtain ⟨row, s', hexisting, hrevoked⟩ := existing_revoked now hvalid halone h
  simp only [ensureRequestSession, atomic, hexisting, checkSession, hrevoked, if_true]

/-- The tombstone of a credential that authenticates is live. -/
theorem tombstone_live {s : State} {tactical : Tactical} {row : Trust} {credential : Credential} {now : Int} {tokensRead othersRead : Bool}
    (hvalid : ValidTable s.table) (hnames : NamesMatch s now) (htokens : ∀ token ∈ tactical.tokens, token ∈ s.tactical.tokens)
    (hrow : row ∈ s.trusts) (hfor : row.IsFor credential) (hrevoked : row.revoked = true) (hlive : tactical.authenticates now credential = true) :
    revokedTombstoneIsLive tactical now tokensRead (if othersRead then some (activeNonKnox tactical now) else none) row = true := by
  unfold revokedTombstoneIsLive
  cases hdigest : row.knoxDigest with
  | some digest =>
    rw [eq_knox_of_bound hvalid hrow hdigest hfor] at hlive
    simp only [Tactical.authenticates] at hlive
    simp [hlive]
  | none =>
    simp only
    split
    · rfl
    · rename_i hname
      have hcredential : ∀ digest, credential ≠ .knox digest := by
        rintro digest rfl
        have howns : row.Owns digest := by
          rcases hfor with h | ⟨d, hd, h | h⟩
          · exact .inl h
          · cases hdigest.symm.trans h
          · cases hd
            exact .inr h
        simp only [Tactical.authenticates, List.any_eq_true, Bool.and_eq_true, beq_iff_eq] at hlive
        obtain ⟨token, htoken, heq, htokenLive⟩ := hlive
        obtain ⟨hfilled, husername⟩ := hnames row hrow hrevoked hdigest digest howns token (htokens token htoken) heq htokenLive
        apply hname
        have hany : (tactical.tokens.any fun token => token.username == nameOf row.username && token.isLive now) = true :=
          List.any_eq_true.2 ⟨token, htoken, by simp [husername, htokenLive]⟩
        simp [hfilled, hany]
      have hfingerprint : row.tokenFingerprint = .identity credential := by
        rcases hfor with h | ⟨d, hd, _⟩
        · exact h
        · exact absurd hd (hcredential d)
      cases othersRead with
      | false => rfl
      | true =>
        simp only [if_true, hfingerprint]
        cases credential with
        | knox digest => exact absurd rfl (hcredential digest)
        | apiKey id =>
          simp only [Tactical.authenticates, List.contains_iff_mem] at hlive
          simp [activeNonKnox, hlive]
        | djangoSession key =>
          simp only [Tactical.authenticates, List.any_eq_true, Bool.and_eq_true, beq_iff_eq, decide_eq_true_eq] at hlive
          obtain ⟨⟨key', expiry⟩, hmem, rfl, hexpiry⟩ := hlive
          simp only [activeNonKnox, List.contains_iff_mem, List.mem_append, List.mem_map, List.mem_filter]
          exact .inr ⟨(key', expiry), ⟨hmem, by simpa using hexpiry⟩, rfl⟩

theorem mem_dropTrusts {s : State} {p : Trust → Bool} {row : Trust} : row ∈ (s.dropTrusts p).trusts ↔ row ∈ s.trusts ∧ p row = false := by
  simp [State.dropTrusts]

theorem and_not_eq_false {a b : Bool} (h : b = true) : (a && !b) = false := by simp [h]

theorem cleanup_keeps {s : State} {retentionDays : Option Int} {tokensRead othersRead : Bool} {now : Int} {row : Trust} {credential : Credential}
    (hvalid : ValidTable s.table) (hnames : NamesMatch s now) (hrow : row ∈ s.trusts) (hfor : row.IsFor credential) (hrevoked : row.revoked = true)
    (hlive : (cleanupSessionHistory retentionDays tokensRead othersRead now s).2.tactical.authenticates now credential = true) :
    row ∈ (cleanupSessionHistory retentionDays tokensRead othersRead now s).2.trusts := by
  unfold cleanupSessionHistory at hlive ⊢
  simp only at hlive ⊢
  split
  · exact hrow
  · rename_i hdays
    rw [if_neg hdays] at hlive
    refine mem_dropTrusts.2 ⟨mem_dropTrusts.2 ⟨hrow, by simp [hrevoked]⟩, ?_⟩
    refine and_not_eq_false ?_
    exact tombstone_live hvalid hnames (fun token htoken => List.mem_of_mem_filter htoken) hrow hfor hrevoked hlive

/-- A revoked row of a credential that authenticates stays. -/
theorem step_hasRevoked {s : State} {e : Event} {credential : Credential} (hvalid : ValidTable s.table) (hsafe : CleanupSafe s e)
    (hlive : StillAuthenticates credential s e) (h : HasRevoked credential s) : HasRevoked credential (step s e) := by
  obtain ⟨row, hrow, hfor, hrevoked⟩ := h
  rcases step_cases e hvalid with ⟨retentionDays, tokensRead, othersRead, now, rfl⟩ | hwrites
  · exact ⟨row, cleanup_keeps hvalid hsafe hrow hfor hrevoked hlive, hfor, hrevoked⟩
  · exact ⟨row, writes_revoked hwrites hvalid hrow hrevoked, hfor, hrevoked⟩

end RevokedStaysAux

open RevokedStaysAux in
/-- In every run from a valid table in which the rows that old releases left unbound stand alone, when each clean-up finds the names as
they are: a credential for which a revoked row was stored at any point of the run, and which authenticates all along the rest of it,
still has a revoked row, and every request with it is refused. -/
theorem revoked_never_returns (s : State) (hvalid : ValidTable s.table) (halone : LegacyAlone s.table) (before after : List Event)
    (credential : Credential) (hsafe : Machine.Along step CleanupSafe s (before ++ after)) (hrevoked : HasRevoked credential (run s before))
    (hlive : Machine.Along step (StillAuthenticates credential) (run s before) after) :
    HasRevoked credential (run s (before ++ after)) ∧
      ∀ request now, request.credential = credential → (ensureRequestSession request now true (run s (before ++ after))).1 = .error .sessionRevoked := by
  have hsound : ∀ (s : State) (e : Event), ValidTable s.table ∧ LegacyAlone s.table → ValidTable (step s e).table ∧ LegacyAlone (step s e).table :=
    fun s e h => ⟨step_valid h.1, step_alone h.1 h.2⟩
  have hstart : ValidTable (run s before).table ∧ LegacyAlone (run s before).table := Machine.keeps_of_forall hsound ⟨hvalid, halone⟩ before
  have hend : ValidTable (run s (before ++ after)).table ∧ LegacyAlone (run s (before ++ after)).table :=
    Machine.keeps_of_forall hsound ⟨hvalid, halone⟩ (before ++ after)
  have hsafe := (Machine.along_append.1 hsafe).2
  have hkept : HasRevoked credential (run s (before ++ after)) := by
    unfold run
    rw [List.foldl_append]
    have hboth : Machine.Along step (fun s e => CleanupSafe s e ∧ StillAuthenticates credential s e) (run s before) after :=
      Machine.along_and.2 ⟨hsafe, hlive⟩
    refine (Machine.keeps (I := fun s => ValidTable s.table ∧ HasRevoked credential s) ?_ ⟨hstart.1, hrevoked⟩ hboth).2
    intro s e h hstep
    exact ⟨step_valid h.1, step_hasRevoked h.1 hstep.1 hstep.2 h.2⟩
  refine ⟨hkept, ?_⟩
  rintro request now rfl
  rw [refused_of_hasRevoked now hend.1 hend.2 hkept]

/-! ## Two rows of one credential -/

/-- A row of a user with the default limits. -/
def adaRow (id : Nat) (fingerprint : Fingerprint) (digest : Option String) : Trust where
  id := id
  tokenFingerprint := fingerprint
  knoxDigest := digest
  userId := 1
  username := "ada"
  createdAt := 0
  updatedAt := 0
  lastActivityAt := 0
  lastSeenAt := 0
  initialIp := "10.0.0.1"
  lastIp := "10.0.0.1"
  userAgentHash := ""
  absoluteExpiresAt := 480 * minute
  idleExpiresAt := 30 * minute
  revoked := false
  revokedAt := none
  revokedBy := ""
  revocationReason := ""

/-- Some rows, under the default policy. -/
def adaState (rows : List Trust) (tactical : Tactical) : State where
  trusts := rows
  tactical := tactical
  audits := []
  policy := ⟨30, 480, .reauthenticate, true, 30⟩
  nextId := 2

/-- An API key is revoked, and its row outlives a clean-up long after the retention. -/
theorem api_key_stays_revoked :
    HasRevoked (.apiKey 7) (run (adaState [adaRow 0 (.identity (.apiKey 7)) none] ⟨[], [7], []⟩)
      [.revokeSession 0 "administrator-request" "root" 0, .cleanup (some 1) true true (10 * day)]) ∧
    ∀ request now, request.credential = .apiKey 7 → (ensureRequestSession request now true
      (run (adaState [adaRow 0 (.identity (.apiKey 7)) none] ⟨[], [7], []⟩)
        [.revokeSession 0 "administrator-request" "root" 0, .cleanup (some 1) true true (10 * day)])).1 = .error .sessionRevoked := by
  refine revoked_never_returns (adaState [adaRow 0 (.identity (.apiKey 7)) none] ⟨[], [7], []⟩) ?_ ?_
    [.revokeSession 0 "administrator-request" "root" 0] [.cleanup (some 1) true true (10 * day)] (.apiKey 7) ?_ ?_ ?_
  · refine ⟨by decide, ?_, by decide, ?_⟩
    · intro row hrow
      cases List.mem_singleton.1 hrow
      decide
    · intro row hrow digest hbound
      cases List.mem_singleton.1 hrow
      cases hbound
  · intro row hrow digest hbearer
    cases List.mem_singleton.1 hrow
    cases hbearer
  · refine ⟨trivial, ?_, trivial⟩
    intro row _ _ _ digest _ token htoken
    cases htoken
  · exact ⟨_, List.mem_singleton_self _, .inl rfl, rfl⟩
  · refine ⟨?_, trivial⟩
    unfold StillAuthenticates
    decide

/-- The rows of a credential that an old release and a later one wrote: the first without a digest, the second in use. -/
def shadowedState : State := adaState [adaRow 0 (.bearer "d") none, adaRow 1 (.identity (.knox "d")) (some "d")] ⟨[⟨"d", 1, "ada", none⟩], [], []⟩

/-- The person ends all other sessions: the first row is revoked, the token is kept, and the next request with it is accepted. -/
theorem shadowed_row_is_ignored :
    HasRevoked (.knox "d") (run shadowedState [.revokeUserSessions "ada" (some 1) "administrator-request" "ada" 0]) ∧
      (run shadowedState [.revokeUserSessions "ada" (some 1) "administrator-request" "ada" 0]).tactical.authenticates minute (.knox "d") = true ∧
      ∃ row, (ensureRequestSession ⟨.knox "d", 1, "ada", "10.0.0.1", ""⟩ minute true
        (run shadowedState [.revokeUserSessions "ada" (some 1) "administrator-request" "ada" 0])).1 = .ok row :=
  ⟨⟨_, List.mem_cons_self, .inr ⟨"d", rfl, .inr rfl⟩, rfl⟩, by decide, _, rfl⟩

end Sessions

end TecTac
