import TecTac.Reconcile
import TecTac.Lib.Timeline

/-!
# The table of schedules and its writers

The rows of `TecTacSchedule`, and the three ways by which a person or a module writes one: `POST` and `PATCH` of the
views, and `reconcile_schedule`. Each call comes with the registries and the permissions of its moment. A call that
raises leaves the table: its transaction is rolled back, or it has not saved anything.
-/

namespace TecTac

/-- One call of a writer. -/
inductive WriteAct where
  | post (env : Env) (user : Person) (payload : Payload) (confirmationId : Option Value) (id : String)
      (fault : Option Raised)
  | patch (env : Env) (user : Person) (id : String) (payload : Payload) (confirmationId : Option Value)
      (fault : Option Raised)
  | reconcile (env : Env) (args : ReconcileArgs) (request : Option (Except Raised Person)) (removed : Bool) (id : String)
      (fault : Option Raised)

namespace ScheduleTable

/-- The row of an id. -/
def byId (id : String) (rows : List ScheduleRow) : Option ScheduleRow := rows.find? fun row => row.id == id

/-- The row of an owner and a key. -/
def owned (o : Owned) (rows : List ScheduleRow) : Option ScheduleRow :=
  rows.find? fun row => row.ownerModule == o.module && row.ownerKey == o.key

/-- Write a row in the place of the row with its id. -/
def replace (row : ScheduleRow) (rows : List ScheduleRow) : List ScheduleRow :=
  rows.map fun r => if r.id = row.id then row else r

/-- Write the row a call saved, if it saved one: in the place of the existing one, or as a new row. The id is the primary
key, so a new row whose id is taken is not inserted. -/
def write (existing : Option ScheduleRow) (saved : Option ScheduleRow) (rows : List ScheduleRow) : List ScheduleRow :=
  match saved, existing with
  | none, _ => rows
  | some row, none => if row.id ∈ rows.map (·.id) then rows else rows ++ [row]
  | some row, some _ => replace row rows

/-- What a call does. -/
def step (now : Int) (a : WriteAct) (rows : List ScheduleRow) : List ScheduleRow :=
  match a with
  | .post env user payload confirmationId id fault =>
    write none (post env now user payload confirmationId id fault).toOption rows
  | .patch env user id payload confirmationId fault =>
    match byId id rows with
    | none => rows
    | some row => write (some row) (patch env now user row payload confirmationId fault).toOption rows
  | .reconcile env args request removed id fault =>
    match reconcileOwner env args with
    | .error _ => rows
    | .ok o =>
      write (owned o rows) (reconcileRow env now fault args o request removed id (owned o rows)).saved rows

/-- What holds of every row and of the row a call saved holds of every row afterwards. -/
theorem forall_write {P : ScheduleRow → Prop} {existing saved : Option ScheduleRow} {rows : List ScheduleRow}
    (h : ∀ row ∈ rows, P row) (hsaved : ∀ row, saved = some row → P row) : ∀ row ∈ write existing saved rows, P row := by
  intro row hrow
  unfold write at hrow
  split at hrow
  · exact h row hrow
  · split at hrow
    · exact h row hrow
    · rcases List.mem_append.1 hrow with hrow | hrow
      · exact h row hrow
      · rw [List.mem_singleton.1 hrow]
        exact hsaved _ rfl
  · obtain ⟨r, hr, heq⟩ := List.mem_map.1 hrow
    split at heq
    · exact heq ▸ hsaved _ rfl
    · exact heq ▸ h r hr

end ScheduleTable

end TecTac
