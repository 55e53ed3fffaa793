import Mathlib

/-!
# The SSO guard

The wrappers of `tactical_account_guard.py` around Tactical's SSO handlers. Each of them locks the settings row first and works in one transaction, so a request
is one step. Tactical's handler is not part of the repository: a request comes with what the handler would answer there, and `Answers` says what each handler
may do. A transaction that raises keeps nothing. `P` is what is stored of a provider. The deny rows are left out.
-/

namespace TecTac

namespace SsoGuard

variable {P : Type}

/-- The settings row, when there is one, and the providers by their keys. -/
structure Tables (P : Type) where
  settings : Option (Bool × Bool)
  providers : List (Int × P)

/-- A strict audit row: the object id, and the state before and after where the row has one. -/
inductive AuditRow (P : Type) where
  | provider (action : String) (id : Option Int)
  | settings (before after : Bool × Bool)
  | account

structure Db (P : Type) where
  tables : Tables P
  audit : List (AuditRow P)

/-- What the body of a settings save asks for: two real booleans, or anything else. -/
abbrev Requested := Option (Bool × Bool)

inductive Write where
  | addProvider
  | editProvider (pk : Int)
  | deleteProvider (pk : Int)
  | saveSettings (data : Requested)
  | disconnect (found : Bool)

/-- What Tactical's handler does: it raises, or it answers, with success or not, and leaves the tables in a state. -/
abbrev Answer (P : Type) := Option (Bool × Tables P)

/-- A request: whether the person is an effective superuser, what is written, what Tactical answers, and whether the strict audit row can be written. -/
structure Request (P : Type) where
  superuser : Bool
  write : Write
  tactical : Answer P
  audited : Bool

/-- `_stored_sso_state`. -/
def storedState (tables : Tables P) : Bool × Bool := tables.settings.getD (false, false)

/-- `_locks_out`. -/
def locksOut (state : Bool × Bool) (providers : Nat) : Bool := state.2 && decide (providers = 0)

/-- `_requested_sso_state`: Tactical keeps the block only with SSO on. -/
def requestedState (data : Requested) : Option (Bool × Bool) := data.map fun d => (d.1, d.2 && d.1)

def provider? (tables : Tables P) (pk : Int) : Bool := tables.providers.any fun p => decide (p.1 = pk)

/-- `_provider_count` without one provider. -/
def countWithout (tables : Tables P) (pk : Int) : Nat := (tables.providers.filter fun p => decide (p.1 ≠ pk)).length

/-- `_created_provider`, by the keys before and after. -/
def createdProvider (before after : Tables P) : Option Int :=
  match (after.providers.map Prod.fst).filter fun pk => !provider? before pk with
  | [pk] => some pk
  | _ => none

/-- The end of a guarded transaction: an answer without success is kept as it is, and a success with its audit row or not at all. -/
def commit (db : Db P) (r : Request P) (row : Tables P → Option (AuditRow P)) : Db P :=
  match r.tactical with
  | none => db
  | some (false, after) => { db with tables := after }
  | some (true, after) =>
    match row after with
    | none => { db with tables := after }
    | some row => if r.audited then ⟨after, db.audit ++ [row]⟩ else db

/-- A guarded SSO write. -/
def step (db : Db P) (r : Request P) : Db P :=
  if r.superuser = false then db
  else
    match r.write with
    | .addProvider => commit db r fun after => some (.provider "add" (createdProvider db.tables after))
    | .editProvider pk => commit db r fun _ => if provider? db.tables pk then some (.provider "modify" (some pk)) else none
    | .deleteProvider pk =>
      if provider? db.tables pk = false then commit db r fun _ => none
      else if (storedState db.tables).2 && decide (countWithout db.tables pk = 0) then db
      else commit db r fun _ => some (.provider "delete" (some pk))
    | .saveSettings data =>
      if (requestedState data).any (locksOut · db.tables.providers.length) then db
      else
        match r.tactical with
        | some (true, after) => if locksOut (storedState after) after.providers.length then db else commit db r fun after => some (.settings (storedState db.tables) (storedState after))
        | _ => commit db r fun _ => none
    | .disconnect found => commit db r fun _ => if found then some .account else none

def run (db : Db P) (requests : List (Request P)) : Db P := requests.foldl step db

/-- What Tactical's handler may do to the tables: without success nothing, and otherwise what its route is for. -/
def Answers (before : Tables P) (r : Request P) : Prop :=
  ∀ ok after, r.tactical = some (ok, after) →
    if ok then
      match r.write with
      | .addProvider => after.settings = before.settings ∧ ∀ p ∈ before.providers, p ∈ after.providers
      | .editProvider pk => after.settings = before.settings ∧ after.providers.map Prod.fst = before.providers.map Prod.fst ∧
          (provider? before pk = false → after = before)
      | .deleteProvider pk => after.settings = before.settings ∧ after.providers = before.providers.filter fun p => decide (p.1 ≠ pk)
      | .saveSettings _ => after.providers = before.providers
      | .disconnect _ => after = before
    else after = before

/-- Tactical answers every request of a run in the state that the request finds. -/
def AllAnswer : Db P → List (Request P) → Prop
  | _, [] => True
  | db, r :: rest => Answers db.tables r ∧ AllAnswer (step db r) rest

/-- Local sign-in is blocked and there is no provider to sign in through. -/
def LockedOut (tables : Tables P) : Prop := (storedState tables).2 = true ∧ tables.providers = []

end SsoGuard

end TecTac
