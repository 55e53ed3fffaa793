import Mathlib

/-!
# The account guard

The wrappers of `tactical_account_guard.py` around Tactical's role, user and API key handlers. A wrapper decides in a transaction that holds the rows it
reads, so a guarded request is one step. What Core takes the acting person for (`is_effective_superuser`, which may ask a cached role) comes with the
request. Tactical's own handlers are not part of the repository: `Effect` says what a handler may do to the tables, and a handler that refuses or fails
leaves them. The deny rows and the other audit rows are left out.
-/

namespace TecTac

namespace AccountGuard

section

variable {Raw D : Type}

/-- A role; `rest` has its other columns. -/
structure Role (D : Type) where
  isSuperuser : Bool
  rest : D

/-- A user; `rest` has the password, the second factor, the e-mail address and the other columns. -/
structure User (D : Type) where
  isSuperuser : Bool
  role : Option Int
  rest : D

structure ApiKey (D : Type) where
  owner : Int
  rest : D

structure Db (D : Type) where
  users : Int → Option (User D)
  roles : Int → Option (Role D)
  keys : Int → Option (ApiKey D)

/-- `request.data`: a field that is there has a value. -/
abbrev Payload (Raw : Type) := String → Option Raw

/-- How a value is read: `_validated_bool`, `int`, and `raw in (None, "")`. -/
structure Reads (Raw : Type) where
  validatedBool : Raw → Option Bool
  toInt : Raw → Option Int
  blank : Raw → Bool

inductive Request (Raw : Type) where
  | roleCreate (data : Payload Raw)
  | roleUpdate (pk : Int) (data : Payload Raw)
  | roleDelete (pk : Int)
  | userCreate (data : Payload Raw)
  | userUpdate (pk : Int) (data : Payload Raw)
  | userDelete (pk : Int)
  | userAction (data : Payload Raw)
  | selfAction
  | keyCreate (data : Payload Raw)
  | keyUpdate (pk : Int) (data : Payload Raw)
  | keyDelete (pk : Int)

/-- A request as the guard meets it: who acts, whether Core takes that person for an effective superuser, and whether superuser accounts are protected. -/
structure Act (Raw : Type) where
  actor : Int
  superuser : Bool
  protection : Bool
  request : Request Raw

/-! ## The guard -/

/-- `_is_superuser_account`, on the stored rows. -/
def isSuperuserAccount (db : Db D) (user : User D) : Bool := user.isSuperuser || ((user.role.bind db.roles).map Role.isSuperuser).getD false

variable (reads : Reads Raw)

/-- The role that a payload names. -/
def roleId (data : Payload Raw) : Option Int := (data "role").bind fun raw => if reads.blank raw then none else reads.toInt raw

/-- `_role_from_payload`. -/
def roleFromPayload (db : Db D) (data : Payload Raw) : Option (Int × Role D) :=
  (roleId reads data).bind fun id => (db.roles id).map fun role => (id, role)

/-- `_protected_account_violation`. -/
def protectedViolation (db : Db D) (act : Act Raw) (target : Option (User D)) : Bool :=
  match target with
  | none => false
  | some user => act.protection && isSuperuserAccount db user && !act.superuser

/-- `_role_create_violation`. -/
def roleCreateViolation (act : Act Raw) (data : Payload Raw) : Bool :=
  match data "is_superuser" with
  | none => false
  | some raw => decide (reads.validatedBool raw = some true) && !act.superuser

/-- `_role_update_violation`. -/
def roleUpdateViolation (act : Act Raw) (role : Option (Role D)) (data : Payload Raw) : Bool :=
  match role with
  | none => false
  | some role =>
    match data "is_superuser" with
    | none => role.isSuperuser && !act.superuser
    | some raw =>
      match reads.validatedBool raw with
      | none => false
      | some requested => decide (requested ≠ role.isSuperuser) && !act.superuser

/-- `_role_delete_violation`. -/
def roleDeleteViolation (act : Act Raw) (role : Option (Role D)) : Bool :=
  match role with
  | none => false
  | some role => role.isSuperuser && !act.superuser

/-- `_user_create_violation`, for the role that the payload names. -/
def userCreateViolation (act : Act Raw) (role : Option (Int × Role D)) : Bool :=
  match role with
  | none => false
  | some (_, role) => role.isSuperuser && !act.superuser

/-- `_user_update_violation`. -/
def userUpdateViolation (db : Db D) (act : Act Raw) (user : Option (User D)) (role : Option (Int × Role D)) : Bool :=
  protectedViolation db act user ||
    match user, role with
    | some user, some (id, role) => role.isSuperuser && decide (user.role ≠ some id) && !act.superuser
    | _, _ => false

/-- `_user_id_from_payload`, and the id that `_api_key_user_id_from_payload` reads. -/
def idFromPayload (field : String) (data : Payload Raw) : Option Int := (data field).bind reads.toInt

/-- A `user` that is there and is no number is denied. -/
def invalidOwner (data : Payload Raw) : Bool := (data "user").isSome && (idFromPayload reads "user" data).isNone

/-- `_api_key_target` of an edit: the owner that is asked for, or the one that is stored. -/
def requestedOwner (db : Db D) (key : Option (ApiKey D)) (data : Payload Raw) : Option (User D) :=
  match idFromPayload reads "user" data with
  | some id => db.users id
  | none => key.bind fun key => db.users key.owner

/-- What the wrapper of a handler refuses. -/
def refused (db : Db D) (act : Act Raw) : Bool :=
  match act.request with
  | .roleCreate data => roleCreateViolation reads act data
  | .roleUpdate pk data => roleUpdateViolation reads act (db.roles pk) data
  | .roleDelete pk => roleDeleteViolation act (db.roles pk)
  | .userCreate data => userCreateViolation act (roleFromPayload reads db data)
  | .userUpdate pk data => userUpdateViolation db act (db.users pk) (roleFromPayload reads db data)
  | .userDelete pk => protectedViolation db act (db.users pk)
  | .userAction data => protectedViolation db act ((idFromPayload reads "id" data).bind db.users)
  | .selfAction => protectedViolation db act (db.users act.actor)
  | .keyCreate data => invalidOwner reads data || protectedViolation db act ((idFromPayload reads "user" data).bind db.users)
  | .keyUpdate pk data =>
    protectedViolation db act ((db.keys pk).bind fun key => db.users key.owner) || invalidOwner reads data ||
      protectedViolation db act (requestedOwner reads db (db.keys pk) data)
  | .keyDelete pk => protectedViolation db act ((db.keys pk).bind fun key => db.users key.owner)

/-! ## Tactical's handlers -/

/-- The flag a role gets from a save of the whole form: a flag that is there is validated, and one that is missing reads as false or is left. -/
def SavedFlag (data : Payload Raw) (before after : Bool) : Prop :=
  match data "is_superuser" with
  | some raw => reads.validatedBool raw = some after
  | none => after = false ∨ after = before

/-- What a handler of Tactical may do to one user, one role and one key. A handler never sets the superuser flag of a user, it takes the role of a user
from the payload, and the owner of a key from the payload. -/
structure Effect (db : Db D) (act : Act Raw) (db' : Db D) : Prop where
  role : ∀ id, db'.roles id = db.roles id ∨
    (∃ data role, act.request = .roleCreate data ∧ db.roles id = none ∧ db'.roles id = some role ∧ SavedFlag reads data false role.isSuperuser) ∨
    (∃ data role role', act.request = .roleUpdate id data ∧ db.roles id = some role ∧ db'.roles id = some role' ∧
      SavedFlag reads data role.isSuperuser role'.isSuperuser) ∨
    (act.request = .roleDelete id ∧ db'.roles id = none)
  user : ∀ id, db'.users id = db.users id ∨
    (∃ data user, act.request = .userCreate data ∧ db.users id = none ∧ db'.users id = some user ∧ user.isSuperuser = false ∧
      (user.role = none ∨ user.role = roleId reads data)) ∨
    (∃ data user user', act.request = .userUpdate id data ∧ db.users id = some user ∧ db'.users id = some user' ∧
      user'.isSuperuser = user.isSuperuser ∧ (user'.role = user.role ∨ user'.role = none ∨ user'.role = roleId reads data)) ∨
    (act.request = .userDelete id ∧ db'.users id = none) ∨
    (∃ data user rest, act.request = .userAction data ∧ idFromPayload reads "id" data = some id ∧ db.users id = some user ∧
      db'.users id = some { user with rest := rest }) ∨
    (∃ user rest, act.request = .selfAction ∧ act.actor = id ∧ db.users id = some user ∧ db'.users id = some { user with rest := rest }) ∨
    (∃ pk user, act.request = .roleDelete pk ∧ db.users id = some user ∧ user.role = some pk ∧ db'.users id = some { user with role := none })
  key : ∀ id, db'.keys id = db.keys id ∨
    (∃ data key, act.request = .keyCreate data ∧ db.keys id = none ∧ db'.keys id = some key ∧ idFromPayload reads "user" data = some key.owner) ∨
    (∃ data key key', act.request = .keyUpdate id data ∧ db.keys id = some key ∧ db'.keys id = some key' ∧
      (key'.owner = key.owner ∨ idFromPayload reads "user" data = some key'.owner)) ∨
    (act.request = .keyDelete id ∧ db'.keys id = none) ∨
    (∃ pk key, act.request = .userDelete pk ∧ db.keys id = some key ∧ key.owner = pk ∧ db'.keys id = none)

/-- A guarded request: refused, and nothing is done, or handed to Tactical. -/
def Step (db : Db D) (act : Act Raw) (db' : Db D) : Prop := if refused reads db act then db' = db else Effect reads db act db'

/-- A run of guarded requests by any persons. -/
inductive Run : Db D → List (Act Raw) → Db D → Prop where
  | nil (db : Db D) : Run db [] db
  | cons {db mid db' : Db D} {act : Act Raw} {acts : List (Act Raw)} (h : Step reads db act mid) (hrest : Run mid acts db') : Run db (act :: acts) db'

/-- The account is an effective superuser. -/
def Superuser (db : Db D) (id : Int) : Prop := ∃ user, db.users id = some user ∧ isSuperuserAccount db user = true

end

end AccountGuard

end TecTac
