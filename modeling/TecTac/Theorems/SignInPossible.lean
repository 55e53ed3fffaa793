import TecTac.SsoGuard

/-!
# Sign-in stays possible

A settings save is checked on what Tactical stored, and a delete on what it would leave; both roll back or refuse. So no sequence of guarded writes blocks local
sign-in while there is no provider, and none changes the tables without an audit row.
-/

namespace TecTac

namespace SsoGuard

variable {P : Type} {db : Db P} {r : Request P}

namespace SignInPossibleAux

/-- The end of a transaction: nothing is kept, the tables are left as they are, or a success is kept, with the row that it asks for. -/
theorem commit_cases (h : Answers db.tables r) (row : Tables P → Option (AuditRow P)) :
    (commit db r row).tables = db.tables ∧ (commit db r row).audit = db.audit ∨ ∃ after, r.tactical = some (true, after) ∧
      (commit db r row).tables = after ∧ (commit db r row).audit = db.audit ++ (row after).toList := by
  unfold commit
  split
  · exact Or.inl ⟨rfl, rfl⟩
  · rename_i after hanswer
    exact Or.inl ⟨h false after hanswer, rfl⟩
  · rename_i after hanswer
    split
    · rename_i hrow
      exact Or.inr ⟨after, hanswer, rfl, by rw [hrow]; exact (List.append_nil _).symm⟩
    · rename_i written hrow
      split
      · exact Or.inr ⟨after, hanswer, rfl, by rw [hrow]; rfl⟩
      · exact Or.inl ⟨rfl, rfl⟩

theorem not_lockedOut {tables : Tables P} (h : locksOut (storedState tables) tables.providers.length = false) : ¬LockedOut tables := by
  rintro ⟨hblocked, hnone⟩
  rw [locksOut, hblocked, hnone] at h
  cases h

theorem lockedOut_of_same {before after : Tables P} (hsettings : after.settings = before.settings) (hproviders : after.providers = [] → before.providers = [])
    (h : ¬LockedOut before) : ¬LockedOut after := by
  rintro ⟨hblocked, hnone⟩
  refine h ⟨?_, hproviders hnone⟩
  rwa [storedState, hsettings] at hblocked

/-- What one write keeps: a way to sign in, and an audit row for every change. -/
structure Held (db : Db P) (r : Request P) (db' : Db P) : Prop where
  signIn : ¬LockedOut db.tables → ¬LockedOut db'.tables
  rows : ∃ rows : List (AuditRow P), db'.audit = db.audit ++ rows ∧ rows.length ≤ (if r.superuser then 1 else 0) ∧ (rows = [] → db'.tables = db.tables)

theorem held_refl (db : Db P) (r : Request P) : Held db r db := ⟨id, [], (List.append_nil _).symm, Nat.zero_le _, fun _ => rfl⟩

/-- A handler that keeps the way to sign in, and whose success is recorded or changes nothing. -/
theorem held_commit (h : Answers db.tables r) (hactor : r.superuser = true) (row : Tables P → Option (AuditRow P))
    (hrow : ∀ after, r.tactical = some (true, after) → (¬LockedOut db.tables → ¬LockedOut after) ∧ (row after = none → after = db.tables)) :
    Held db r (commit db r row) := by
  rcases commit_cases h row with ⟨htables, haudit⟩ | ⟨after, hanswer, htables, haudit⟩
  · exact ⟨fun hopen => htables ▸ hopen, [], by rw [haudit, List.append_nil], Nat.zero_le _, fun _ => htables⟩
  · obtain ⟨hsafe, hsame⟩ := hrow after hanswer
    refine ⟨fun hopen => htables ▸ hsafe hopen, _, haudit, ?_, fun hnone => htables.trans (hsame (by simpa using hnone))⟩
    rw [hactor]
    cases row after <;> simp

theorem held_step (h : Answers db.tables r) : Held db r (step db r) := by
  unfold step
  split
  · exact held_refl db r
  · rename_i hactor
    rw [Bool.not_eq_false] at hactor
    have hcommit := held_commit h hactor
    have hanswers := fun after (hanswer : r.tactical = some (true, after)) => h true after hanswer
    cases hwrite : r.write with
    | addProvider =>
      refine hcommit _ fun after hanswer => ?_
      have hafter := hanswers after hanswer
      simp only [hwrite, if_true] at hafter
      refine ⟨lockedOut_of_same hafter.1 fun hnone => List.eq_nil_iff_forall_not_mem.2 fun p hp => ?_, fun hrow => by cases hrow⟩
      have := hafter.2 p hp
      rw [hnone] at this
      cases this
    | editProvider pk =>
      refine hcommit _ fun after hanswer => ?_
      have hafter := hanswers after hanswer
      simp only [hwrite, if_true] at hafter
      refine ⟨lockedOut_of_same hafter.1 fun hnone => ?_, fun hrow => hafter.2.2 ?_⟩
      · have hkeys := hafter.2.1
        rw [hnone] at hkeys
        simpa using hkeys.symm
      · by_contra hfound
        rw [Bool.not_eq_false] at hfound
        rw [hfound] at hrow
        cases hrow
    | deleteProvider pk =>
      have hafter : ∀ after, r.tactical = some (true, after) → after.settings = db.tables.settings ∧
          after.providers = db.tables.providers.filter fun p => decide (p.1 ≠ pk) := by
        intro after hanswer
        have hafter := hanswers after hanswer
        simpa only [hwrite, if_true] using hafter
      dsimp only
      split
      · rename_i hmissing
        refine hcommit _ fun after hanswer => ?_
        obtain ⟨hsettings, hproviders⟩ := hafter after hanswer
        have hsame : after = db.tables := by
          obtain ⟨settings, providers⟩ := after
          rw [show settings = db.tables.settings from hsettings, show providers = _ from hproviders]
          congr 1
          refine List.filter_eq_self.2 fun p hp => decide_eq_true fun hpk => ?_
          have : provider? db.tables pk = true := List.any_eq_true.2 ⟨p, hp, decide_eq_true hpk⟩
          rw [hmissing] at this
          cases this
        exact ⟨fun hopen => hsame ▸ hopen, fun _ => hsame⟩
      · split
        · exact held_refl db r
        · rename_i hallowed
          refine hcommit _ fun after hanswer => ⟨fun _ => ?_, fun hrow => by cases hrow⟩
          obtain ⟨hsettings, hproviders⟩ := hafter after hanswer
          rintro ⟨hblocked, hnone⟩
          rw [storedState, hsettings] at hblocked
          rw [hproviders] at hnone
          refine hallowed ?_
          rw [countWithout, hnone]
          simpa [storedState] using hblocked
    | saveSettings data =>
      dsimp only
      split
      · exact held_refl db r
      · split
        · rename_i after hanswer
          split
          · exact held_refl db r
          · rename_i hopen
            refine hcommit _ fun after' hanswer' => ⟨fun _ => ?_, fun hrow => by cases hrow⟩
            obtain rfl := (Prod.mk.inj (Option.some.inj (hanswer'.symm.trans hanswer))).2
            exact not_lockedOut (by simpa using hopen)
        · rename_i hother
          exact hcommit _ fun after hanswer => absurd hanswer (hother after)
    | disconnect found =>
      refine hcommit _ fun after hanswer => ?_
      have hafter := hanswers after hanswer
      simp only [hwrite, if_true] at hafter
      exact ⟨fun hopen => hafter ▸ hopen, fun _ => hafter⟩

end SignInPossibleAux

open SignInPossibleAux

/-- Whatever guarded writes persons make, in any order and with any answers of Tactical: local sign-in is never blocked while there is no provider. -/
theorem sign_in_stays_possible {requests : List (Request P)} (h : AllAnswer db requests) (hopen : ¬LockedOut db.tables) :
    ¬LockedOut (run db requests).tables := by
  induction requests generalizing db with
  | nil => exact hopen
  | cons r requests ih => exact ih h.2 ((held_step h.1).signIn hopen)

def sampleDb : Db Unit := ⟨⟨some (true, false), [(3, ())]⟩, []⟩

/-- The block is set while there is a provider, and then its delete is tried. -/
def sampleRequests : List (Request Unit) :=
  [⟨true, .saveSettings (some (true, true)), some (true, ⟨some (true, true), [(3, ())]⟩), true⟩,
    ⟨true, .deleteProvider 3, some (true, ⟨some (true, true), []⟩), true⟩]

theorem sample_allAnswer : AllAnswer sampleDb sampleRequests := by
  refine ⟨?_, ?_, trivial⟩
  · intro ok after hanswer
    obtain ⟨rfl, rfl⟩ := Prod.mk.inj (Option.some.inj hanswer)
    exact rfl
  · intro ok after hanswer
    obtain ⟨rfl, rfl⟩ := Prod.mk.inj (Option.some.inj hanswer)
    exact ⟨rfl, rfl⟩

theorem sample_sign_in_stays_possible : (run sampleDb sampleRequests).tables = ⟨some (true, true), [(3, ())]⟩ ∧ ¬LockedOut (run sampleDb sampleRequests).tables :=
  ⟨rfl, sign_in_stays_possible sample_allAnswer fun h => by cases h.1⟩

/-- The audit log only grows, by at most one row for each write of an effective superuser, and as long as it does not grow the tables stay as they were. -/
theorem sso_changes_are_audited {requests : List (Request P)} (h : AllAnswer db requests) :
    ∃ rows, (run db requests).audit = db.audit ++ rows ∧ rows.length ≤ (requests.filter (·.superuser)).length ∧
      (rows = [] → (run db requests).tables = db.tables) := by
  induction requests generalizing db with
  | nil => exact ⟨[], (List.append_nil _).symm, le_refl 0, fun _ => rfl⟩
  | cons r requests ih =>
    obtain ⟨first, hfirst, hone, hsame⟩ := (held_step h.1).rows
    obtain ⟨rows, hrows, hlength, hrest⟩ := ih h.2
    refine ⟨first ++ rows, ?_, ?_, fun hnone => ?_⟩
    · rw [← List.append_assoc, ← hfirst]
      exact hrows
    · rw [List.length_append, List.filter_cons]
      split at hone
      · rename_i hactor
        rw [if_pos hactor, List.length_cons]
        omega
      · rename_i hactor
        rw [if_neg hactor]
        omega
    · obtain ⟨hfirst, hlast⟩ := List.append_eq_nil_iff.1 hnone
      exact (hrest hlast).trans (hsame hfirst)

theorem sample_sso_changes_are_audited :
    ∃ rows, (run sampleDb sampleRequests).audit = sampleDb.audit ++ rows ∧ rows.length ≤ (sampleRequests.filter (·.superuser)).length ∧
      (rows = [] → (run sampleDb sampleRequests).tables = sampleDb.tables) :=
  sso_changes_are_audited sample_allAnswer

end SsoGuard

end TecTac
