import TecTac.AccountGuard

/-!
# No privilege escalation

A superuser role gets its flag, and an account a superuser role, only in a step of an effective superuser; that is a property of one step, and a run keeps
it. With the protection on, the steps of the others also leave the superuser accounts and their API keys.
-/

namespace TecTac

namespace AccountGuard

section

variable {Raw D : Type} {reads : Reads Raw} {db db' : Db D} {act : Act Raw}

/-- What a protected account keeps: its columns, its standing and its API keys. -/
structure Kept (db db' : Db D) (id : Int) : Prop where
  columns : ∀ user, db.users id = some user → ∃ role, db'.users id = some { user with role := role }
  superuser : Superuser db' id
  keys : ∀ k key, key.owner = id → (db'.keys k = some key ↔ db.keys k = some key)

namespace NoEscalationAux

theorem effect_of_step (h : Step reads db act db') : db' = db ∨ refused reads db act = false ∧ Effect reads db act db' := by
  unfold Step at h
  split at h
  · exact Or.inl h
  · rename_i hnot
    exact Or.inr ⟨by simpa using hnot, h⟩

theorem superuser_iff {id : Int} :
    Superuser db id ↔ ∃ user, db.users id = some user ∧ (user.isSuperuser = true ∨ ∃ r role, user.role = some r ∧ db.roles r = some role ∧ role.isSuperuser = true) := by
  unfold Superuser isSuperuserAccount
  refine exists_congr fun user => and_congr_right fun _ => ?_
  rw [Bool.or_eq_true]
  refine or_congr_right ?_
  cases user.role with
  | none => simp
  | some r => cases hr : db.roles r <;> simp [hr]

/-- A role that is a superuser role after the step of someone else was one before. -/
theorem role_was_superuser (heffect : Effect reads db act db') (hnot : refused reads db act = false) (hact : act.superuser = false) {r : Int} {role' : Role D}
    (hrole : db'.roles r = some role') (hsuper : role'.isSuperuser = true) : ∃ role, db.roles r = some role ∧ role.isSuperuser = true := by
  rcases heffect.role r with hsame | ⟨data, role, hrequest, -, hnew, hflag⟩ | ⟨data, role, role₂, hrequest, hold, hnew, hflag⟩ | ⟨-, hgone⟩
  · exact ⟨role', hsame ▸ hrole, hsuper⟩
  · obtain rfl := Option.some.inj (hnew.symm.trans hrole)
    simp only [refused, hrequest, roleCreateViolation, hact] at hnot
    cases hdata : data "is_superuser" with
    | none =>
      simp only [SavedFlag, hdata, or_self] at hflag
      rw [hsuper] at hflag
      cases hflag
    | some raw =>
      simp only [SavedFlag, hdata, hsuper] at hflag
      simp [hdata, hflag] at hnot
  · obtain rfl := Option.some.inj (hnew.symm.trans hrole)
    refine ⟨role, hold, ?_⟩
    simp only [refused, hrequest, roleUpdateViolation, hold, hact] at hnot
    cases hdata : data "is_superuser" with
    | none =>
      simp only [SavedFlag, hdata, hsuper] at hflag
      rcases hflag with hfalse | htrue
      · cases hfalse
      · exact htrue.symm
    | some raw =>
      simp only [SavedFlag, hdata, hsuper] at hflag
      simpa [hdata, hflag] using hnot
  · rw [hgone] at hrole
    cases hrole

/-- A superuser role stays one through the step of someone else. -/
theorem role_stays_superuser (heffect : Effect reads db act db') (hnot : refused reads db act = false) (hact : act.superuser = false) {r : Int} {role : Role D}
    (hrole : db.roles r = some role) (hsuper : role.isSuperuser = true) : ∃ role', db'.roles r = some role' ∧ role'.isSuperuser = true := by
  rcases heffect.role r with hsame | ⟨_, _, -, hnone, -⟩ | ⟨data, old, new, hrequest, hold, hnew, hflag⟩ | ⟨hrequest, -⟩
  · exact ⟨role, hsame.trans hrole, hsuper⟩
  · rw [hrole] at hnone
    cases hnone
  · obtain rfl := Option.some.inj (hold.symm.trans hrole)
    refine ⟨new, hnew, ?_⟩
    simp only [refused, hrequest, roleUpdateViolation, hold, hact, hsuper] at hnot
    cases hdata : data "is_superuser" with
    | none => simp [hdata] at hnot
    | some raw =>
      simp only [SavedFlag, hdata] at hflag
      simpa [hdata, hflag] using hnot
  · simp [refused, hrequest, roleDeleteViolation, hrole, hsuper, hact] at hnot

/-- A step of someone who is no effective superuser makes no account one. -/
theorem superuser_was (heffect : Effect reads db act db') (hnot : refused reads db act = false) (hact : act.superuser = false) {id : Int}
    (h : Superuser db' id) : Superuser db id := by
  obtain ⟨user', huser', hpower⟩ := superuser_iff.1 h
  -- a role that carries the power now carried it before
  have hbefore : user'.isSuperuser = true ∨ ∃ r role, user'.role = some r ∧ db.roles r = some role ∧ role.isSuperuser = true := by
    rcases hpower with hflag | ⟨r, role', hr, hrole', hsuper⟩
    · exact Or.inl hflag
    · obtain ⟨role, hrole, hold⟩ := role_was_superuser heffect hnot hact hrole' hsuper
      exact Or.inr ⟨r, role, hr, hrole, hold⟩
  rw [superuser_iff]
  rcases heffect.user id with hsame | ⟨data, user, hrequest, -, hnew, hflag, hassigned⟩ | ⟨data, user, user₂, hrequest, hold, hnew, hflag, hassigned⟩ |
    ⟨-, hgone⟩ | ⟨_, user, rest, -, -, hold, hnew⟩ | ⟨user, rest, -, -, hold, hnew⟩ | ⟨_, user, -, hold, -, hnew⟩
  · exact ⟨user', hsame ▸ huser', hbefore⟩
  · obtain rfl := Option.some.inj (hnew.symm.trans huser')
    rcases hbefore with htrue | ⟨r, role, hr, hrole, hsuper⟩
    · rw [hflag] at htrue
      cases htrue
    · rcases hassigned with hnone | hasked
      · rw [hnone] at hr
        cases hr
      · rw [hr] at hasked
        simp [refused, hrequest, roleFromPayload, ← hasked, hrole, userCreateViolation, hsuper, hact] at hnot
  · obtain rfl := Option.some.inj (hnew.symm.trans huser')
    refine ⟨user, hold, ?_⟩
    rcases hbefore with htrue | ⟨r, role, hr, hrole, hsuper⟩
    · exact Or.inl (hflag ▸ htrue)
    · rcases hassigned with hsame | hnone | hasked
      · exact Or.inr ⟨r, role, hsame ▸ hr, hrole, hsuper⟩
      · rw [hnone] at hr
        cases hr
      · rw [hr] at hasked
        simp only [refused, hrequest, userUpdateViolation, hold, roleFromPayload, ← hasked, Option.bind_some, hrole, Option.map_some, hsuper, hact,
          Bool.or_eq_false_iff] at hnot
        exact Or.inr ⟨r, role, by simpa using hnot.2, hrole, hsuper⟩
  · rw [hgone] at huser'
    cases huser'
  · obtain rfl := Option.some.inj (hnew.symm.trans huser')
    exact ⟨user, hold, hbefore⟩
  · obtain rfl := Option.some.inj (hnew.symm.trans huser')
    exact ⟨user, hold, hbefore⟩
  · obtain rfl := Option.some.inj (hnew.symm.trans huser')
    rcases hbefore with htrue | ⟨r, role, hr, -⟩
    · exact ⟨user, hold, Or.inl htrue⟩
    · cases hr

theorem superuser_of_step (h : Step reads db act db') {id : Int} (hafter : Superuser db' id) (hbefore : ¬Superuser db id) : act.superuser = true := by
  rcases effect_of_step h with rfl | ⟨hnot, heffect⟩
  · exact absurd hafter hbefore
  · by_contra hact
    exact hbefore (superuser_was heffect hnot (by simpa using hact) hafter)

/-! ### Protection -/

theorem violation_of_superuser {target : Option (User D)} {user : User D} (htarget : target = some user) (hsuper : isSuperuserAccount db user = true)
    (hact : act.superuser = false) (hprotection : act.protection = true) : protectedViolation db act target = true := by
  simp [protectedViolation, htarget, hsuper, hact, hprotection]

/-- Someone else changes a protected account only by deleting its role. -/
theorem user_of_effect (heffect : Effect reads db act db') (hnot : refused reads db act = false) {id : Int} {user : User D}
    (huser : db.users id = some user) (hviolation : ∀ {target : Option (User D)}, target = some user → protectedViolation db act target = true) :
    db'.users id = some user ∨
      ∃ pk, act.request = .roleDelete pk ∧ user.role = some pk ∧ db'.users id = some { user with role := none } := by
  rcases heffect.user id with hsame | ⟨_, _, -, hnone, -⟩ | ⟨data, old, _, hrequest, -, -, -, -⟩ | ⟨hrequest, -⟩ | ⟨data, _, _, hrequest, hid, -, -⟩ |
    ⟨_, _, hrequest, hself, -, -⟩ | ⟨pk, old, hrequest, hold, hpk, hnew⟩
  · exact Or.inl (hsame.trans huser)
  · rw [huser] at hnone
    cases hnone
  · simp [refused, hrequest, userUpdateViolation, hviolation huser] at hnot
  · simp [refused, hrequest, hviolation huser] at hnot
  · simp [refused, hrequest, hid, hviolation huser] at hnot
  · subst hself
    simp [refused, hrequest, hviolation huser] at hnot
  · obtain rfl := Option.some.inj (hold.symm.trans huser)
    exact Or.inr ⟨pk, hrequest, hpk, hnew⟩

/-- A step of someone else leaves a protected account. -/
theorem kept_of_effect (heffect : Effect reads db act db') (hnot : refused reads db act = false) (hact : act.superuser = false)
    (hprotection : act.protection = true) {id : Int} (h : Superuser db id) : Kept db db' id := by
  obtain ⟨user, huser, hsuper⟩ := h
  have hviolation : ∀ {target : Option (User D)}, target = some user → protectedViolation db act target = true :=
    fun htarget => violation_of_superuser htarget hsuper hact hprotection
  have hafter := user_of_effect heffect hnot huser hviolation
  refine ⟨?_, ?_, ?_⟩
  · intro user₁ huser₁
    obtain rfl := Option.some.inj (huser₁.symm.trans huser)
    rcases hafter with hsame | ⟨_, -, -, hnew⟩
    · exact ⟨user₁.role, hsame⟩
    · exact ⟨none, hnew⟩
  · obtain ⟨user₁, huser₁, hpower⟩ := superuser_iff.1 ⟨user, huser, hsuper⟩
    obtain rfl := Option.some.inj (huser₁.symm.trans huser)
    rw [superuser_iff]
    rcases hafter with hsame | ⟨pk, hrequest, hpk, hnew⟩
    · refine ⟨user₁, hsame, ?_⟩
      rcases hpower with hflag | ⟨r, role, hr, hrole, hrsuper⟩
      · exact Or.inl hflag
      · obtain ⟨role', hrole', hstays⟩ := role_stays_superuser heffect hnot hact hrole hrsuper
        exact Or.inr ⟨r, role', hr, hrole', hstays⟩
    · -- the role that is deleted is no superuser role, so the account has its own flag
      rcases hpower with hflag | ⟨r, role, hr, hrole, hrsuper⟩
      · exact ⟨_, hnew, Or.inl hflag⟩
      · obtain rfl := Option.some.inj (hr.symm.trans hpk)
        simp [refused, hrequest, roleDeleteViolation, hrole, hrsuper, hact] at hnot
  · intro k key howner
    subst howner
    rcases heffect.key k with hsame | ⟨data, new, hrequest, hnone, hnew, hasked⟩ | ⟨data, old, new, hrequest, hold, hnew, hmoved⟩ | ⟨hrequest, hgone⟩ |
      ⟨pk, old, hrequest, hold, hpk, -⟩
    · rw [hsame]
    · refine iff_of_false (fun h => ?_) (by rw [hnone]; exact fun h => by cases h)
      obtain rfl := Option.some.inj (hnew.symm.trans h)
      simp [refused, hrequest, hasked, hviolation huser] at hnot
    · simp only [refused, hrequest, hold, Option.bind_some, Bool.or_eq_false_iff] at hnot
      constructor
      · intro h
        obtain rfl := Option.some.inj (hnew.symm.trans h)
        rcases hmoved with hsame | hasked
        · rw [hviolation (hsame ▸ huser)] at hnot
          cases hnot.1.1
        · have hrequested : requestedOwner reads db (some old) data = some user := by
            rw [requestedOwner, hasked]
            exact huser
          rw [hviolation hrequested] at hnot
          cases hnot.2
      · intro h
        obtain rfl := Option.some.inj (hold.symm.trans h)
        rw [hviolation huser] at hnot
        cases hnot.1.1
    · refine iff_of_false (by rw [hgone]; exact fun h => by cases h) fun h => ?_
      simp [refused, hrequest, h, hviolation huser] at hnot
    · constructor
      · intro h
        rcases heffect.key k with hsame | ⟨_, _, hother, -⟩ | ⟨_, _, _, hother, -⟩ | ⟨hother, -⟩ | ⟨_, _, -, -, -, hgone⟩
        · rwa [hsame] at h
        · rw [hrequest] at hother
          cases hother
        · rw [hrequest] at hother
          cases hother
        · rw [hrequest] at hother
          cases hother
        · rw [hgone] at h
          cases h
      · intro h
        obtain rfl := Option.some.inj (hold.symm.trans h)
        subst hpk
        simp [refused, hrequest, hviolation huser] at hnot

theorem kept_refl {id : Int} (h : Superuser db id) : Kept db db id := ⟨fun user huser => ⟨user.role, huser⟩, h, fun _ _ _ => Iff.rfl⟩

theorem kept_trans {mid : Db D} {id : Int} (h : Kept db mid id) (hrest : Kept mid db' id) : Kept db db' id := by
  refine ⟨fun user huser => ?_, hrest.superuser, fun k key howner => (hrest.keys k key howner).trans (h.keys k key howner)⟩
  obtain ⟨role, hmid⟩ := h.columns user huser
  obtain ⟨role', hlast⟩ := hrest.columns _ hmid
  exact ⟨role', hlast⟩

/-- A run in which no effective superuser acts makes no account one. -/
theorem superuser_was_of_run {acts : List (Act Raw)} (h : Run reads db acts db') (hacts : ∀ act ∈ acts, act.superuser = false) {id : Int}
    (hafter : Superuser db' id) : Superuser db id := by
  induction h with
  | nil db => exact hafter
  | @cons db mid db' act acts hstep hrest ih =>
    by_contra hbefore
    have hmid := ih (fun a ha => hacts a (List.mem_cons_of_mem _ ha)) hafter
    have hwho := superuser_of_step hstep hmid hbefore
    rw [hacts act List.mem_cons_self] at hwho
    cases hwho

end NoEscalationAux

open NoEscalationAux

/-- An account that is an effective superuser at the end and was none at the start became one in a step of someone whom Core took for an effective
superuser. -/
theorem superusers_come_from_superusers {acts : List (Act Raw)} (h : Run reads db acts db') {id : Int} (hafter : Superuser db' id)
    (hbefore : ¬Superuser db id) :
    ∃ front act back mid mid', acts = front ++ act :: back ∧ Run reads db front mid ∧ Step reads mid act mid' ∧ Run reads mid' back db' ∧
      act.superuser = true ∧ ¬Superuser mid id ∧ Superuser mid' id := by
  induction h with
  | nil db => exact absurd hafter hbefore
  | @cons db mid db' act acts hstep hrest ih =>
    by_cases hmid : Superuser mid id
    · exact ⟨[], act, acts, db, mid, rfl, .nil db, hstep, hrest, superuser_of_step hstep hmid hbefore, hbefore, hmid⟩
    · obtain ⟨front, act', back, m, m', rfl, hfront, hact, hback, hwho, hno, hyes⟩ := ih hafter hmid
      exact ⟨act :: front, act', back, m, m', rfl, .cons hstep hfront, hact, hback, hwho, hno, hyes⟩

def sampleReads : Reads Int := { validatedBool := fun _ => none, toInt := some, blank := fun _ => false }

/-- Account 1 is a superuser, account 2 an ordinary person with the API key 5, and role 7 is a superuser role. -/
def sampleDb (role : Option Int) : Db Unit where
  users := fun id => if id = 1 then some ⟨true, none, ()⟩ else if id = 2 then some ⟨false, role, ()⟩ else none
  roles := fun id => if id = 7 then some ⟨true, ()⟩ else none
  keys := fun id => if id = 5 then some ⟨2, ()⟩ else none

/-- Account `actor` gives account 2 the superuser role. -/
def promotion (actor : Int) (superuser : Bool) : Act Int where
  actor := actor
  superuser := superuser
  protection := true
  request := .userUpdate 2 fun field => if field = "role" then some 7 else none

theorem sample_promoted : Run sampleReads (sampleDb none) [promotion 1 true] (sampleDb (some 7)) := by
  have heffect : Effect sampleReads (sampleDb none) (promotion 1 true) (sampleDb (some 7)) := by
    refine ⟨fun _ => Or.inl rfl, fun id => ?_, fun _ => Or.inl rfl⟩
    by_cases hid : id = 2
    · subst hid
      exact Or.inr (Or.inr (Or.inl ⟨_, _, _, rfl, rfl, rfl, rfl, Or.inr (Or.inr rfl)⟩))
    · exact Or.inl (by simp [sampleDb, hid])
  exact .cons heffect (.nil _)

theorem sample_superusers_come_from_superusers :
    ∃ front act back mid mid', [promotion 1 true] = front ++ act :: back ∧ Run sampleReads (sampleDb none) front mid ∧ Step sampleReads mid act mid' ∧
      Run sampleReads mid' back (sampleDb (some 7)) ∧ act.superuser = true ∧ ¬Superuser mid 2 ∧ Superuser mid' 2 := by
  refine superusers_come_from_superusers sample_promoted ⟨_, rfl, rfl⟩ ?_
  rintro ⟨user, huser, hsuper⟩
  obtain rfl := Option.some.inj huser
  cases hsuper

theorem sample_refused : Run sampleReads (sampleDb none) [promotion 2 false] (sampleDb none) := .cons rfl (.nil _)

end

end AccountGuard

end TecTac
