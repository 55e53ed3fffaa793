import Mathlib
import TecTac.SessionSecurity
import TecTac.Lib.Entries

/-!
# What the operations write to the trust rows

Every operation but the clean-up writes to the table of rows by single writes: a row that is not revoked is changed in place, or a row
is inserted for a credential that has none (`Write`). What every write keeps, the operations keep: the primary keys and the
fingerprints stay unique, a row is bound to no digest but its own, a revoked row stays as it is, and a row that an old release left
unbound stays the only row of its credential.
-/

namespace TecTac

namespace Sessions

/-! ## Tables -/

/-- The rows, and the next primary key. -/
abbrev Table := List Trust × Nat

def State.table (s : State) : Table := (s.trusts, s.nextId)

/-- A row belongs to a credential, by one of the three identifiers. -/
def Trust.IsFor (row : Trust) (credential : Credential) : Prop :=
  row.tokenFingerprint = .identity credential ∨
    ∃ digest, credential = .knox digest ∧ (row.knoxDigest = some digest ∨ row.tokenFingerprint = .bearer digest)

/-- A digest is the one of the credential that the fingerprint was made from. -/
def Trust.Owns (row : Trust) (digest : String) : Prop :=
  row.tokenFingerprint = .identity (.knox digest) ∨ row.tokenFingerprint = .bearer digest

/-- Primary keys and fingerprints are unique, and a row is bound to no digest but its own. -/
structure ValidTable (table : Table) : Prop where
  ids : (table.1.map Trust.id).Nodup
  fresh : ∀ row ∈ table.1, row.id < table.2
  fingerprints : (table.1.map Trust.tokenFingerprint).Nodup
  bound : ∀ row ∈ table.1, ∀ digest, row.knoxDigest = some digest → row.Owns digest

/-- A row that an old release left without a digest is the only row of its credential. -/
def LegacyAlone (table : Table) : Prop :=
  ∀ row ∈ table.1, ∀ digest, row.tokenFingerprint = .bearer digest → row.knoxDigest = none → ∀ other ∈ table.1, other.IsFor (.knox digest) →
    other = row

/-- One write to the table. -/
inductive Write : Table → Table → Prop where
  | change {rows : List Trust} {next : Nat} {row row' : Trust} (hmem : row ∈ rows) (hlive : row.revoked = false) (hid : row'.id = row.id)
    (hfingerprint : row'.tokenFingerprint = row.tokenFingerprint)
    (hbound : row'.knoxDigest = row.knoxDigest ∨ ∃ digest, row'.knoxDigest = some digest ∧ row.Owns digest) :
    Write (rows, next) (rows.map fun t => if t.id = row.id then row' else t, next)
  | insert {rows : List Trust} {next : Nat} {row : Trust} {credential : Credential} (hid : row.id = next)
    (hfingerprint : row.tokenFingerprint = .identity credential) (hdigest : row.knoxDigest = credential.digest)
    (hnew : ∀ t ∈ rows, ¬ t.IsFor credential) : Write (rows, next) (rows ++ [row], next + 1)

/-- Some writes, one after the other. -/
abbrev Writes : Table → Table → Prop := Relation.ReflTransGen Write

theorem eq_of_id {rows : List Trust} (h : (rows.map Trust.id).Nodup) {a b : Trust} (ha : a ∈ rows) (hb : b ∈ rows) (hid : a.id = b.id) : a = b :=
  List.inj_on_of_nodup_map h ha hb hid

theorem map_change {rows : List Trust} {row row' : Trust} {β : Type} (f : Trust → β) (hids : (rows.map Trust.id).Nodup) (hmem : row ∈ rows)
    (hf : f row' = f row) : (rows.map fun t => if t.id = row.id then row' else t).map f = rows.map f := by
  rw [List.map_map]
  apply List.map_congr_left
  intro t ht
  simp only [Function.comp]
  split
  · rename_i hid
    rw [eq_of_id hids ht hmem hid, hf]
  · rfl

/-- A row of the table after a change is the new row, or another row of the table before. -/
theorem mem_change {rows : List Trust} {row row' t : Trust} (h : t ∈ rows.map fun t => if t.id = row.id then row' else t) :
    t = row' ∨ t ∈ rows ∧ t.id ≠ row.id := by
  obtain ⟨t₀, ht₀, heq⟩ := List.mem_map.1 h
  split at heq
  · exact .inl heq.symm
  · rename_i hid
    cases heq
    exact .inr ⟨ht₀, hid⟩

theorem Trust.Owns.isFor {row : Trust} {digest : String} (h : row.Owns digest) : row.IsFor (.knox digest) := by
  rcases h with h | h
  · exact .inl h
  · exact .inr ⟨digest, rfl, .inr h⟩

/-- What a row is for is not changed by a write to it, but for the digest that it is bound to, which is its own. -/
theorem isFor_of_change {row row' : Trust} {credential : Credential} (hfingerprint : row'.tokenFingerprint = row.tokenFingerprint)
    (hbound : row'.knoxDigest = row.knoxDigest ∨ ∃ digest, row'.knoxDigest = some digest ∧ row.Owns digest) (h : row'.IsFor credential) :
    row.IsFor credential := by
  rcases h with h | ⟨digest, rfl, h | h⟩
  · exact .inl (hfingerprint ▸ h)
  · rcases hbound with hsame | ⟨bound, hbound, howns⟩
    · exact .inr ⟨digest, rfl, .inl (hsame ▸ h)⟩
    · cases Option.some.inj (hbound.symm.trans h)
      exact howns.isFor
  · exact .inr ⟨digest, rfl, .inr (hfingerprint ▸ h)⟩

theorem write_valid {a b : Table} (h : Write a b) (ha : ValidTable a) : ValidTable b := by
  cases h with
  | change hmem hlive hid hfingerprint hbound =>
    refine ⟨?_, ?_, ?_, ?_⟩
    · rw [map_change Trust.id ha.ids hmem hid]
      exact ha.ids
    · intro t ht
      rcases mem_change ht with rfl | ⟨ht, -⟩
      · rw [hid]
        exact ha.fresh _ hmem
      · exact ha.fresh t ht
    · rw [map_change Trust.tokenFingerprint ha.ids hmem hfingerprint]
      exact ha.fingerprints
    · intro t ht digest hdigest
      rcases mem_change ht with rfl | ⟨ht, -⟩
      · unfold Trust.Owns
        rw [hfingerprint]
        rcases hbound with hsame | ⟨bound, hbound, howns⟩
        · exact ha.bound _ hmem digest (hsame ▸ hdigest)
        · cases Option.some.inj (hbound.symm.trans hdigest)
          exact howns
      · exact ha.bound t ht digest hdigest
  | @insert rows next row credential hid hfingerprint hdigest hnew =>
    refine ⟨?_, ?_, ?_, ?_⟩
    · refine Entries.nodup_map_concat ha.ids ?_
      intro hmem
      obtain ⟨t, ht, heq⟩ := List.mem_map.1 hmem
      have := ha.fresh t ht
      omega
    · intro t ht
      rcases List.mem_append.1 ht with ht | ht
      · exact Nat.lt_succ_of_lt (ha.fresh t ht)
      · cases List.mem_singleton.1 ht
        simp only
        omega
    · refine Entries.nodup_map_concat ha.fingerprints ?_
      intro hmem
      obtain ⟨t, ht, heq⟩ := List.mem_map.1 hmem
      exact hnew t ht (.inl (heq.trans hfingerprint))
    · intro t ht digest hbound
      rcases List.mem_append.1 ht with ht | ht
      · exact ha.bound t ht digest hbound
      · cases List.mem_singleton.1 ht
        cases credential with
        | knox d =>
          cases Option.some.inj (hdigest.symm.trans hbound)
          exact .inl hfingerprint
        | _ => cases hdigest.symm.trans hbound

/-- A revoked row stays as it is. -/
theorem write_revoked {a b : Table} (h : Write a b) (ha : ValidTable a) {t : Trust} (ht : t ∈ a.1) (hrevoked : t.revoked = true) : t ∈ b.1 := by
  cases h with
  | @change rows next row row' hmem hlive hid hfingerprint hbound =>
    have hne : t.id ≠ row.id := by
      intro heq
      rw [eq_of_id ha.ids ht hmem heq, hlive] at hrevoked
      cases hrevoked
    exact List.mem_map.2 ⟨t, ht, if_neg hne⟩
  | insert => exact List.mem_append_left _ ht

theorem write_alone {a b : Table} (h : Write a b) (halone : LegacyAlone a) : LegacyAlone b := by
  cases h with
  | @change rows next row row' hmem hlive hid hfingerprint hbound =>
    intro t ht digest hbearer hnone other hother hfor
    rcases mem_change ht with rfl | ⟨ht₀, hne⟩
    · -- the changed row is the unbound one, and it was before
      have hnone₀ : row.knoxDigest = none := by
        rcases hbound with hsame | ⟨bound, hbound, -⟩
        · exact hsame ▸ hnone
        · cases hbound.symm.trans hnone
      rcases mem_change hother with rfl | ⟨hother, hne⟩
      · rfl
      · have := halone row hmem digest (hfingerprint ▸ hbearer) hnone₀ other hother hfor
        exact absurd (congrArg Trust.id this) hne
    · rcases mem_change hother with rfl | ⟨hother, _⟩
      · have heq := halone t ht₀ digest hbearer hnone row hmem (isFor_of_change hfingerprint hbound hfor)
        exact absurd (congrArg Trust.id heq.symm) hne
      · exact halone t ht₀ digest hbearer hnone other hother hfor
  | @insert rows next row credential hid hfingerprint hdigest hnew =>
    intro t ht digest hbearer hnone other hother hfor
    rcases List.mem_append.1 ht with ht | ht
    · rcases List.mem_append.1 hother with hother | hother
      · exact halone t ht digest hbearer hnone other hother hfor
      · cases List.mem_singleton.1 hother
        have hcredential : credential = .knox digest := by
          rcases hfor with h | ⟨d, hd, h | h⟩
          · exact Fingerprint.identity.inj (hfingerprint.symm.trans h)
          · cases hd
            cases credential with
            | knox d => exact congrArg Credential.knox (Option.some.inj (hdigest.symm.trans h))
            | _ => cases hdigest.symm.trans h
          · cases hfingerprint.symm.trans h
        exact absurd (.inr ⟨digest, hcredential, .inr hbearer⟩) (hnew t ht)
    · cases List.mem_singleton.1 ht
      cases hfingerprint.symm.trans hbearer

theorem writes_valid {a b : Table} (h : Writes a b) (ha : ValidTable a) : ValidTable b := by
  induction h with
  | refl => exact ha
  | tail _ hwrite ih => exact write_valid hwrite ih

theorem writes_revoked {a b : Table} (h : Writes a b) (ha : ValidTable a) {t : Trust} (ht : t ∈ a.1) (hrevoked : t.revoked = true) : t ∈ b.1 := by
  induction h with
  | refl => exact ht
  | tail hwrites hwrite ih => exact write_revoked hwrite (writes_valid hwrites ha) ih hrevoked

theorem writes_alone {a b : Table} (h : Writes a b) (halone : LegacyAlone a) : LegacyAlone b := by
  induction h with
  | refl => exact halone
  | tail _ hwrite ih => exact write_alone hwrite ih

/-! ## Revocations -/

@[simp] theorem audit_table (s : State) (force : Bool) (event : AuditEvent) : (s.audit force event).table = s.table := by
  unfold State.audit
  split <;> rfl

@[simp] theorem dropTokens_table (s : State) (p : Token → Bool) : (s.dropTokens p).table = s.table := rfl

@[simp] theorem invalidateKnoxForSession_table (row : Trust) (s : State) : (invalidateKnoxForSession row s).table = s.table := by
  unfold invalidateKnoxForSession
  split
  · rfl
  · split <;> rfl

/-- A row that is not revoked is changed to a row of the same credential. -/
theorem writes_modify {s : State} {row : Trust} {f : Trust → Trust} (hvalid : ValidTable s.table) (hmem : row ∈ s.trusts)
    (hlive : row.revoked = false) (hid : (f row).id = row.id) (hfingerprint : (f row).tokenFingerprint = row.tokenFingerprint)
    (hbound : (f row).knoxDigest = row.knoxDigest ∨ ∃ digest, (f row).knoxDigest = some digest ∧ row.Owns digest) :
    Writes s.table (s.modify row.id f).table := by
  have hsame : (s.modify row.id f).table = (s.trusts.map fun t => if t.id = row.id then f row else t, s.nextId) := by
    unfold State.modify State.table
    congr 1
    apply List.map_congr_left
    intro t ht
    split
    · rename_i heq
      rw [eq_of_id hvalid.ids ht hmem heq]
    · rfl
  rw [hsame]
  exact .single (.change hmem hlive hid hfingerprint hbound)

/-- A row that is not revoked is saved as a row of the same credential, and is found as saved. -/
theorem writes_put {s : State} {row : Trust} (row' : Trust) (hvalid : ValidTable s.table) (hmem : row ∈ s.trusts) (hlive : row.revoked = false)
    (hid : row'.id = row.id) (hfingerprint : row'.tokenFingerprint = row.tokenFingerprint)
    (hbound : row'.knoxDigest = row.knoxDigest ∨ ∃ digest, row'.knoxDigest = some digest ∧ row.Owns digest) :
    Writes s.table (s.put row').table ∧ row' ∈ (s.put row').trusts := by
  unfold State.put
  rw [hid]
  exact ⟨writes_modify hvalid hmem hlive hid hfingerprint hbound, List.mem_map.2 ⟨row, hmem, if_pos rfl⟩⟩

theorem revokeLocked_writes {s : State} {row stored : Trust} {reason requestedBy eventType : String} {invalidateKnox : Bool} {now : Int}
    (hvalid : ValidTable s.table) (hmem : stored ∈ s.trusts) (hid : row.id = stored.id) (hrevoked : row.revoked = stored.revoked) :
    Writes s.table (revokeLocked row reason requestedBy eventType invalidateKnox now s).table := by
  unfold revokeLocked
  split
  · exact .refl
  · rename_i hlive
    rw [audit_table]
    have hwrites : Writes s.table (s.modify row.id fun t => revokedRow t reason requestedBy now).table := by
      rw [hid]
      refine writes_modify hvalid hmem ?_ rfl rfl (.inl rfl)
      rw [← hrevoked]
      simpa using hlive
    split
    · rw [invalidateKnoxForSession_table]
      exact hwrites
    · exact hwrites

/-- A row with another key is not touched by a revocation. -/
theorem mem_revokeLocked {s : State} {row t : Trust} {reason requestedBy eventType : String} {invalidateKnox : Bool} {now : Int}
    (ht : t ∈ s.trusts) (hne : t.id ≠ row.id) : t ∈ (revokeLocked row reason requestedBy eventType invalidateKnox now s).trusts := by
  unfold revokeLocked
  split
  · exact ht
  · have hmodify : t ∈ (s.modify row.id fun t => revokedRow t reason requestedBy now).trusts := List.mem_map.2 ⟨t, ht, if_neg hne⟩
    have htrusts : ∀ s' : State, s'.table = (s.modify row.id fun t => revokedRow t reason requestedBy now).table → t ∈ s'.trusts := by
      intro s' heq
      have : s'.trusts = (s.modify row.id fun t => revokedRow t reason requestedBy now).trusts := congrArg Prod.fst heq
      exact this ▸ hmodify
    apply htrusts
    rw [audit_table]
    split
    · rw [invalidateKnoxForSession_table]
    · rfl

theorem revokeEach_writes {rows : List Trust} {reason requestedBy eventType : String} {invalidateKnox : Bool} {now : Int} {s : State}
    (hvalid : ValidTable s.table) (hmem : ∀ row ∈ rows, row ∈ s.trusts) (hnodup : (rows.map Trust.id).Nodup) :
    Writes s.table (revokeEach rows reason requestedBy eventType invalidateKnox now s).table := by
  induction rows generalizing s with
  | nil => exact .refl
  | cons row rows ih =>
    rw [List.map_cons, List.nodup_cons] at hnodup
    have hfirst : Writes s.table (revokeLocked row reason requestedBy eventType invalidateKnox now s).table :=
      revokeLocked_writes hvalid (hmem row List.mem_cons_self) rfl rfl
    refine hfirst.trans (ih (writes_valid hfirst hvalid) ?_ hnodup.2)
    intro t ht
    refine mem_revokeLocked (hmem t (List.mem_cons_of_mem _ ht)) ?_
    intro heq
    exact hnodup.1 (heq ▸ List.mem_map_of_mem ht)

theorem nodup_filter_ids {s : State} (hvalid : ValidTable s.table) (p : Trust → Bool) : ((s.trusts.filter p).map Trust.id).Nodup :=
  (List.filter_sublist.map _).nodup hvalid.ids

/-- Some of the rows are revoked. -/
theorem revokeSome_writes {s : State} (hvalid : ValidTable s.table) (p : Trust → Bool) (reason requestedBy eventType : String)
    (invalidateKnox : Bool) (now : Int) : Writes s.table (revokeEach (s.trusts.filter p) reason requestedBy eventType invalidateKnox now s).table :=
  revokeEach_writes hvalid (fun _ h => List.mem_of_mem_filter h) (nodup_filter_ids hvalid p)

theorem sweepRow_writes {now : Int} {skipped : List Nat} {s : State} {id : Nat} (hvalid : ValidTable s.table) :
    Writes s.table (sweepRow now skipped s id).table := by
  unfold sweepRow
  split
  · exact .refl
  · rename_i row hfind
    split
    · exact .refl
    · split
      · exact .refl
      · exact revokeLocked_writes hvalid (List.mem_of_find?_eq_some hfind) rfl rfl

theorem sweep_writes {now : Int} {limit : Nat} {skipped : List Nat} {s : State} (hvalid : ValidTable s.table) :
    Writes s.table (sweepExpiredSessions now limit skipped s).table := by
  have hfold : ∀ (ids : List Nat) (s : State), ValidTable s.table → Writes s.table (ids.foldl (sweepRow now skipped) s).table := by
    intro ids
    induction ids with
    | nil => exact fun s _ => .refl
    | cons id ids ih =>
      intro s hvalid
      have hfirst : Writes s.table (sweepRow now skipped s id).table := sweepRow_writes hvalid
      exact hfirst.trans (ih _ (writes_valid hfirst hvalid))
  exact hfold _ s hvalid

theorem terminal_writes {trustId userId : Nat} {digest : Option String} {activityAt : Option Int} {now : Int} {s : State}
    (hvalid : ValidTable s.table) : Writes s.table (recordTerminalActivity trustId userId digest activityAt now s).2.table := by
  unfold recordTerminalActivity
  split
  · exact .refl
  · rename_i row hfind
    have hmem := List.mem_of_find?_eq_some hfind
    split
    · exact .refl
    · rename_i hlive
      split
      · exact .refl
      · -- the checks are made on the row with its limits worked out anew
        have hidle : ∀ t s', Writes s.table s'.table → (∃ stored ∈ State.trusts s', t.id = stored.id ∧ t.revoked = stored.revoked) →
            Writes s.table (checkIdle now t s').2.table := by
          rintro t s' hwrites ⟨stored, hstored, hid, hrevoked⟩
          unfold checkIdle
          split
          · exact hwrites.trans (revokeLocked_writes (writes_valid hwrites hvalid) hstored hid hrevoked)
          · exact hwrites
        simp only
        split
        · exact revokeLocked_writes hvalid hmem rfl rfl
        · split
          · exact hidle _ _ .refl ⟨row, hmem, rfl, rfl⟩
          · rename_i activity
            split
            · exact revokeLocked_writes hvalid hmem rfl rfl
            · split
              · have hunrevoked : row.revoked = false := by
                  rw [not_or] at hlive
                  simpa using hlive.1
                obtain ⟨hwrites, hput⟩ := writes_put { refreshExpiry s.policy { refreshExpiry s.policy row with
                  lastActivityAt := min activity now, lastSeenAt := max (min activity now) row.lastSeenAt } with updatedAt := now }
                  hvalid hmem hunrevoked rfl rfl (.inl rfl)
                exact hidle _ _ hwrites ⟨_, hput, rfl, rfl⟩
              · exact hidle _ _ .refl ⟨row, hmem, rfl, rfl⟩

/-! ## The check of a request -/

theorem foldl_newer_mem (rows : List Trust) (row : Trust) : rows.foldl newer row = row ∨ rows.foldl newer row ∈ rows := by
  induction rows generalizing row with
  | nil => exact .inl rfl
  | cons next rows ih =>
    rw [List.foldl_cons]
    rcases ih (newer row next) with h | h
    · rw [h]
      unfold newer
      split
      · exact .inr List.mem_cons_self
      · exact .inl rfl
    · exact .inr (List.mem_cons_of_mem _ h)

theorem mem_of_newest {rows : List Trust} {row : Trust} (h : newest rows = some row) : row ∈ rows := by
  cases rows with
  | nil => cases h
  | cons first rows =>
    cases h
    rcases foldl_newer_mem rows first with h | h
    · rw [h]
      exact List.mem_cons_self
    · exact List.mem_cons_of_mem _ h

theorem newest_eq_none {rows : List Trust} : newest rows = none ↔ rows = [] := by
  cases rows <;> simp [newest]

theorem mem_digestRows {credential : Credential} {s : State} {row : Trust} :
    row ∈ digestRows credential s ↔ row ∈ s.trusts ∧ ∃ digest, credential = .knox digest ∧ row.knoxDigest = some digest := by
  unfold digestRows Credential.digest
  cases credential <;> simp [List.mem_filter]

theorem rowWith_some {fingerprint : Fingerprint} {s : State} {row : Trust} (h : rowWith fingerprint s = some row) :
    row ∈ s.trusts ∧ row.tokenFingerprint = fingerprint := by
  unfold rowWith at h
  exact ⟨List.mem_of_find?_eq_some h, by simpa using List.find?_some h⟩

theorem rowWith_none {fingerprint : Fingerprint} {s : State} (h : rowWith fingerprint s = none) :
    ∀ row ∈ s.trusts, row.tokenFingerprint ≠ fingerprint := by
  unfold rowWith at h
  rw [List.find?_eq_none] at h
  intro row hrow heq
  exact h row hrow (by simpa using heq)

/-- What is known of the row that is found for a credential: it is in the table, it was bound to the digest or is the row of a
fingerprint of the credential, and the only write is to bind it. -/
structure Found (credential : Credential) (s s' : State) (row : Trust) : Prop where
  mem : row ∈ s'.trusts
  writes : row.revoked = false → Writes s.table s'.table
  owner : row.knoxDigest = credential.digest ∨ (∀ digest, credential.digest = some digest → row.Owns digest)
  policy : s'.policy = s.policy
  isFor : row.IsFor credential

theorem legacySession_some {credential : Credential} {now : Int} {s s' : State} {row : Trust} (hvalid : ValidTable s.table)
    (h : legacySession credential now s = (.ok (some row), s')) : Found credential s s' row := by
  cases credential with
  | knox digest =>
    simp only [legacySession, Credential.legacyFingerprint, Option.bind_some] at h
    split at h
    · cases h
    · rename_i stored hfind
      obtain ⟨hmem, hfingerprint⟩ := rowWith_some hfind
      split at h
      · cases h
      · rename_i hbind
        cases h
        exact ⟨hmem, fun _ => .refl, .inr fun d hd => by cases hd; exact .inr hfingerprint, rfl, .inr ⟨digest, rfl, .inr hfingerprint⟩⟩
      · rename_i bound hbind
        cases h
        have hbound : bound = { stored with knoxDigest := some digest } := by
          simp only [bindKnoxDigest, Credential.digest] at hbind
          split at hbind
          · split at hbind
            · cases hbind
            · cases hbind
          · cases hbind
            rfl
        subst hbound
        refine ⟨List.mem_map.2 ⟨stored, hmem, if_pos rfl⟩, ?_, .inl rfl, rfl, .inr ⟨digest, rfl, .inl rfl⟩⟩
        intro hlive
        exact (writes_put { stored with knoxDigest := some digest, updatedAt := now } hvalid hmem hlive rfl rfl
          (.inr ⟨digest, rfl, .inr hfingerprint⟩)).1
  | _ => cases h

theorem existing_some {credential : Credential} {now : Int} {s s' : State} {row : Trust} (hvalid : ValidTable s.table)
    (h : existingSessionForCredential credential now s = (.ok (some row), s')) : Found credential s s' row := by
  have hdigest : ∀ row ∈ digestRows credential s, Found credential s s row := by
    intro row hrow
    obtain ⟨hmem, digest, rfl, hbound⟩ := mem_digestRows.1 hrow
    exact ⟨hmem, fun _ => .refl, .inl hbound, rfl, .inr ⟨digest, rfl, .inl hbound⟩⟩
  unfold existingSessionForCredential at h
  split at h
  · rename_i hnewest
    cases h
    exact hdigest row (List.mem_of_mem_filter (mem_of_newest hnewest))
  · split at h
    · rename_i hcurrent
      cases h
      obtain ⟨hmem, hfingerprint⟩ := rowWith_some hcurrent
      refine ⟨hmem, fun _ => .refl, .inr ?_, rfl, .inl hfingerprint⟩
      intro digest hd
      cases credential with
      | knox d =>
        cases hd
        exact .inl hfingerprint
      | _ => cases hd
    · split at h
      · rename_i hnewest
        cases h
        exact hdigest row (mem_of_newest hnewest)
      · exact legacySession_some hvalid h

/-- When nothing is found, the credential has no row. -/
theorem existing_none {credential : Credential} {now : Int} {s s' : State}
    (h : existingSessionForCredential credential now s = (.ok none, s')) : s' = s ∧ ∀ row ∈ s.trusts, ¬ row.IsFor credential := by
  unfold existingSessionForCredential at h
  split at h
  · cases h
  · split at h
    · cases h
    · rename_i hcurrent
      split at h
      · cases h
      · rename_i hnewest
        have hnone : digestRows credential s = [] := newest_eq_none.1 hnewest
        have hdigest : ∀ row ∈ s.trusts, ∀ digest, credential = .knox digest → row.knoxDigest ≠ some digest := by
          intro row hrow digest hcredential hbound
          have : row ∈ digestRows credential s := mem_digestRows.2 ⟨hrow, digest, hcredential, hbound⟩
          rw [hnone] at this
          cases this
        have hlegacy : s' = s ∧ ∀ row ∈ s.trusts, ∀ digest, credential = .knox digest → row.tokenFingerprint ≠ .bearer digest := by
          unfold legacySession at h
          split at h
          · rename_i hfind
            cases h
            refine ⟨rfl, ?_⟩
            rintro row hrow digest rfl
            exact rowWith_none hfind row hrow
          · split at h
            · cases h
            · cases h
            · cases h
        refine ⟨hlegacy.1, ?_⟩
        rintro row hrow (hfor | ⟨digest, hcredential, hfor | hfor⟩)
        · exact rowWith_none hcurrent row hrow hfor
        · exact hdigest row hrow digest hcredential hfor
        · exact hlegacy.2 row hrow digest hcredential hfor

/-- The row that an accepted request leaves: the row that was checked, with when and where it was seen and its digest. -/
structure Accepted (checked row : Trust) (s s' : State) : Prop where
  live : checked.revoked = false
  revoked : row.revoked = false
  id : row.id = checked.id
  createdAt : row.createdAt = checked.createdAt
  lastActivityAt : row.lastActivityAt = checked.lastActivityAt
  writes : Writes s.table s'.table
  mem : row ∈ s'.trusts
  policy : s'.policy = s.policy

theorem bindKnoxDigest_some {row bound : Trust} {digest : Option String} (h : bindKnoxDigest row digest = .ok (some bound)) :
    ∃ d, digest = some d ∧ row.knoxDigest = none ∧ bound = { row with knoxDigest := some d } := by
  unfold bindKnoxDigest at h
  split at h
  · cases h
  · split at h
    · split at h
      · cases h
      · cases h
    · rename_i hnone
      cases h
      exact ⟨_, rfl, hnone, rfl⟩

theorem audit_trusts (s : State) (force : Bool) (event : AuditEvent) : (s.audit force event).trusts = s.trusts :=
  congrArg Prod.fst (audit_table s force event)

theorem audit_policy (s : State) (force : Bool) (event : AuditEvent) : (s.audit force event).policy = s.policy := by
  unfold State.audit
  split <;> rfl

/-- Accepting a row that differs from the stored one only in its limits and its address. -/
theorem acceptSession_ok {request : Request} {now : Int} {stored row row' : Trust} {s s' : State} (hvalid : ValidTable s.table)
    (hmem : stored ∈ s.trusts) (hlive : stored.revoked = false)
    (hsame : row = { stored with absoluteExpiresAt := row.absoluteExpiresAt, idleExpiresAt := row.idleExpiresAt, lastIp := row.lastIp })
    (howner : stored.knoxDigest = request.credential.digest ∨ (∀ digest, request.credential.digest = some digest → stored.Owns digest))
    (h : acceptSession request now row s = (.ok row', s')) : Accepted stored row' s s' := by
  unfold acceptSession at h
  simp only at h
  split at h
  · cases h
  · rename_i bound hbind
    cases h
    cases bound with
    | none =>
      rw [hsame]
      obtain ⟨hwrites, hput⟩ := writes_put { refreshExpiry s.policy { stored with
          absoluteExpiresAt := row.absoluteExpiresAt, idleExpiresAt := row.idleExpiresAt, lastIp := row.lastIp, lastSeenAt := now } with
          updatedAt := now } hvalid hmem hlive rfl rfl (.inl rfl)
      exact ⟨hlive, hlive, rfl, rfl, rfl, hwrites, hput, rfl⟩
    | some bound =>
      obtain ⟨digest, hdigest, hnone, rfl⟩ := bindKnoxDigest_some hbind
      have hnone : stored.knoxDigest = none := by
        rw [hsame] at hnone
        exact hnone
      have howns : stored.Owns digest := by
        rcases howner with hbound | howns
        · cases hnone.symm.trans (hbound.trans hdigest)
        · exact howns digest hdigest
      rw [hsame]
      obtain ⟨hwrites, hput⟩ := writes_put { refreshExpiry s.policy { stored with
          absoluteExpiresAt := row.absoluteExpiresAt, idleExpiresAt := row.idleExpiresAt, lastIp := row.lastIp, lastSeenAt := now,
          knoxDigest := some digest } with updatedAt := now } hvalid hmem hlive rfl rfl (.inr ⟨digest, rfl, howns⟩)
      exact ⟨hlive, hlive, rfl, rfl, rfl, hwrites, hput, rfl⟩

theorem checkSession_ok {request : Request} {now : Int} {row row' : Trust} {s s' : State} (hvalid : ValidTable s.table)
    (hmem : row ∈ s.trusts) (howner : row.knoxDigest = request.credential.digest ∨ (∀ digest, request.credential.digest = some digest → row.Owns digest))
    (h : checkSession request now row s = (.ok row', s')) : Accepted row row' s s' := by
  unfold checkSession at h
  split at h
  · cases h
  · rename_i hlive
    have hlive : row.revoked = false := by simpa using hlive
    split at h
    · cases h
    · simp only at h
      split at h
      · cases h
      · split at h
        · cases h
        · unfold checkAddress at h
          split at h
          · split at h
            · exact acceptSession_ok hvalid hmem hlive rfl howner h
            · have hok := acceptSession_ok (by rw [audit_table]; exact hvalid) (by rw [audit_trusts]; exact hmem) hlive rfl howner h
              exact { hok with
                writes := by rw [← audit_table s false]; exact hok.writes
                policy := hok.policy.trans (audit_policy _ _ _) }
            · cases h
            · cases h
          · exact acceptSession_ok hvalid hmem hlive rfl howner h

theorem atomic_ok {α : Type} {body : State → Outcome α} {s s' : State} {a : α} (h : atomic body s = (.ok a, s')) : body s = (.ok a, s') := by
  unfold atomic at h
  split at h
  · rename_i heq
    rw [heq, h]
  · cases h

theorem atomic_error {α : Type} {body : State → Outcome α} {s s' : State} {e : Denied} (h : atomic body s = (.error e, s')) :
    s' = s ∧ ∃ left, body s = (.error e, left) := by
  unfold atomic at h
  split at h
  · cases h
  · rename_i e' left heq
    cases h
    exact ⟨rfl, left, heq⟩

/-- The row that a request is checked against: the one that is found, or a new one. -/
def checkedRow (request : Request) (now : Int) (s : State) : Option Trust :=
  match existingSessionForCredential request.credential now s with
  | (.ok (some row), _) => some row
  | (.ok none, _) => some (newSession request now s)
  | (.error _, _) => none

/-- A new row is inserted for a credential that has none. -/
theorem createSession_writes {request : Request} (now : Int) {s : State} (hnew : ∀ row ∈ s.trusts, ¬ row.IsFor request.credential) :
    Writes s.table (createSession request now s).table ∧ newSession request now s ∈ (createSession request now s).trusts := by
  unfold createSession
  simp only
  rw [audit_table, audit_trusts]
  exact ⟨.single (.insert rfl rfl rfl hnew), List.mem_append_right _ (List.mem_singleton_self _)⟩

theorem ensure_ok {request : Request} {now : Int} {row : Trust} {s s' : State} (hvalid : ValidTable s.table)
    (h : ensureRequestSession request now true s = (.ok row, s')) :
    ∃ checked, checkedRow request now s = some checked ∧ Accepted checked row s s' := by
  replace h := atomic_ok h
  unfold checkedRow
  simp only at h
  split at h
  · cases h
  · rename_i found s₁ hfound
    rw [hfound]
    have hspec := existing_some hvalid hfound
    by_cases hlive : found.revoked = false
    · have haccepted := checkSession_ok (writes_valid (hspec.writes hlive) hvalid) hspec.mem hspec.owner h
      refine ⟨found, rfl, { haccepted with writes := (hspec.writes hlive).trans haccepted.writes, policy := haccepted.policy.trans hspec.policy }⟩
    · unfold checkSession at h
      rw [if_pos (by simpa using hlive)] at h
      cases h
  · rename_i s₁ hfound
    rw [hfound]
    obtain ⟨rfl, hnew⟩ := existing_none hfound
    rw [if_pos trivial] at h
    obtain ⟨hwrites, hmem⟩ := createSession_writes now hnew
    have haccepted := checkSession_ok (writes_valid hwrites hvalid) hmem (.inl rfl) h
    refine ⟨newSession request now s₁, rfl, { haccepted with writes := hwrites.trans haccepted.writes, policy := ?_ }⟩
    rw [haccepted.policy]
    exact audit_policy _ _ _

theorem ensure_writes (request : Request) (now : Int) {s : State} (hvalid : ValidTable s.table) :
    Writes s.table (ensureRequestSession request now true s).2.table := by
  rcases hensure : ensureRequestSession request now true s with ⟨outcome, s'⟩
  cases outcome with
  | ok row =>
    obtain ⟨_, -, haccepted⟩ := ensure_ok hvalid hensure
    exact haccepted.writes
  | error e =>
    obtain ⟨rfl, -⟩ := atomic_error hensure
    exact .refl

theorem recordSeen_writes {id : Nat} {now : Int} {s : State} (hvalid : ValidTable s.table) : Writes s.table (recordSeen id now s).2.table := by
  rcases hseen : recordSeen id now s with ⟨outcome, s'⟩
  cases outcome with
  | error e =>
    obtain ⟨rfl, -⟩ := atomic_error hseen
    exact .refl
  | ok row =>
    have h := atomic_ok hseen
    simp only at h
    split at h
    · cases h
    · rename_i stored hfind
      split at h
      · cases h
      · rename_i hlive
        split at h
        · cases h
        · split at h
          · cases h
          · cases h
            exact (writes_put { refreshExpiry s.policy { refreshExpiry s.policy stored with lastActivityAt := now, lastSeenAt := now } with
              updatedAt := now } hvalid (List.mem_of_find?_eq_some hfind) (by simpa using hlive) rfl rfl (.inl rfl)).1

/-- Every event but a clean-up writes to the table by single writes. -/
theorem step_writes {s : State} {e : Event} (hvalid : ValidTable s.table)
    (hcleanup : ∀ retentionDays tokensRead othersRead now, e ≠ .cleanup retentionDays tokensRead othersRead now) :
    Writes s.table (step s e).table := by
  cases e with
  | request request now => exact ensure_writes request now hvalid
  | heartbeat request now later =>
    simp only [step, recordActivity]
    rcases hensure : ensureRequestSession request now true s with ⟨outcome, s'⟩
    have hwrites : Writes s.table s'.table := by
      have hfirst := ensure_writes request now hvalid
      rw [hensure] at hfirst
      exact hfirst
    cases outcome with
    | ok row => exact hwrites.trans (recordSeen_writes (writes_valid hwrites hvalid))
    | error e => exact hwrites
  | terminal trustId userId digest activityAt now => exact terminal_writes hvalid
  | policy change requestedBy now =>
    simp only [step, updateGlobalPolicy]
    split
    · exact .refl
    · split
      · exact .refl
      · split
        · exact .refl
        · split
          · exact .refl
          · rw [audit_table]
            exact .refl
  | revokeSession id reason requestedBy now =>
    simp only [step, revokeSession]
    split
    · exact .refl
    · rename_i row hfind
      exact revokeLocked_writes hvalid (List.mem_of_find?_eq_some hfind) rfl rfl
  | revokeUserSessions username except_ reason requestedBy now =>
    simp only [step, revokeUserSessions]
    split
    · exact .refl
    · rw [List.filter_filter]
      split
      · rw [dropTokens_table]
        exact revokeSome_writes hvalid _ _ _ _ _ _
      · rw [audit_table, dropTokens_table]
        exact revokeSome_writes hvalid _ _ _ _ _ _
  | revokeActiveLoginSession digest permitted reason requestedBy now =>
    simp only [step, revokeActiveLoginSession]
    split
    · exact .refl
    · split
      · exact .refl
      · rw [audit_table, dropTokens_table]
        exact revokeSome_writes hvalid _ _ _ _ _ _
  | revokeUserLoginSessions userId permitted reason requestedBy now =>
    simp only [step, revokeUserLoginSessions]
    split
    · exact .refl
    · split
      · exact .refl
      · rw [audit_table, dropTokens_table]
        exact revokeSome_writes hvalid _ _ _ _ _ _
  | revokeAllLoginSessions superuser keep recorded reason requestedBy now =>
    simp only [step, revokeAllLoginSessions]
    split
    · exact .refl
    · cases recorded with
      | false => exact .refl
      | true =>
        simp only [atomic, if_true]
        rw [audit_table, dropTokens_table]
        exact revokeSome_writes hvalid _ _ _ _ _ _
  | sweep limit skipped now => exact sweep_writes hvalid
  | cleanup retentionDays tokensRead othersRead now => exact absurd rfl (hcleanup _ _ _ _)
  | tactical tables now => exact .refl

/-! ## The clean-up -/

theorem valid_of_sublist {rows rows' : List Trust} {next : Nat} (h : rows'.Sublist rows) (hvalid : ValidTable (rows, next)) :
    ValidTable (rows', next) where
  ids := (h.map _).nodup hvalid.ids
  fresh row hrow := hvalid.fresh row (h.subset hrow)
  fingerprints := (h.map _).nodup hvalid.fingerprints
  bound row hrow := hvalid.bound row (h.subset hrow)

theorem alone_of_sublist {rows rows' : List Trust} {next : Nat} (h : rows'.Sublist rows) (halone : LegacyAlone (rows, next)) :
    LegacyAlone (rows', next) :=
  fun row hrow digest hbearer hnone other hother => halone row (h.subset hrow) digest hbearer hnone other (h.subset hother)

/-- A clean-up only deletes rows. -/
theorem cleanup_sublist (retentionDays : Option Int) (tokensRead othersRead : Bool) (now : Int) (s : State) :
    (cleanupSessionHistory retentionDays tokensRead othersRead now s).2.trusts.Sublist s.trusts ∧
      (cleanupSessionHistory retentionDays tokensRead othersRead now s).2.nextId = s.nextId := by
  unfold cleanupSessionHistory
  simp only
  split
  · exact ⟨.refl _, rfl⟩
  · exact ⟨List.filter_sublist.trans List.filter_sublist, rfl⟩

/-- Every other step writes rows. -/
theorem step_cases {s : State} (e : Event) (hvalid : ValidTable s.table) :
    (∃ retentionDays tokensRead othersRead now, e = .cleanup retentionDays tokensRead othersRead now) ∨ Writes s.table (step s e).table :=
  or_iff_not_imp_left.2 fun hcleanup => step_writes hvalid fun _ _ _ _ heq => hcleanup ⟨_, _, _, _, heq⟩

theorem step_valid {s : State} {e : Event} (hvalid : ValidTable s.table) : ValidTable (step s e).table := by
  rcases step_cases e hvalid with ⟨retentionDays, tokensRead, othersRead, now, rfl⟩ | hwrites
  · obtain ⟨hsub, hnext⟩ := cleanup_sublist retentionDays tokensRead othersRead now s
    have := valid_of_sublist hsub hvalid
    rwa [← hnext] at this
  · exact writes_valid hwrites hvalid

theorem step_alone {s : State} {e : Event} (hvalid : ValidTable s.table) (halone : LegacyAlone s.table) : LegacyAlone (step s e).table := by
  rcases step_cases e hvalid with ⟨retentionDays, tokensRead, othersRead, now, rfl⟩ | hwrites
  · obtain ⟨hsub, hnext⟩ := cleanup_sublist retentionDays tokensRead othersRead now s
    have := alone_of_sublist hsub halone
    rwa [← hnext] at this
  · exact writes_alone hwrites halone

end Sessions

end TecTac
