import TecTac.BackupJob

/-!
# The gate of the backup jobs

A stored job is let through exactly when its request has the shape of its action, except where a branch reads the local name `request` that it does not bind: none of the four actions of
registered destinations has a request that is accepted.
-/

namespace TecTac

namespace BackupJob

open Raise

variable (repr : Doc → String)

/-! ## The declared requests -/

/-- The shape of a restore request: the overrides may be left out. -/
def restoreShape (overridesOk : Doc → Bool) (request : Fields) : Bool :=
  (keysAre restoreKeys request || keysAre (restoreKeys ++ ["overrides"]) request && overridesOk (Doc.field "overrides" request)) && destinationOk request && modeOk repr request

def registeredShape (overridesOk : Doc → Bool) (request : Fields) : Bool :=
  keysAre registeredKeys request && destinationIdOk repr request && modeOk repr request && overridesOk (Doc.field "overrides" request)

/-- The shape that is listed for the requests of an action. -/
def shape (request : Fields) : Action → Bool
  | .validateDestination => keysAre ["destination"] request && isDict (Doc.field "destination" request)
  | .validateRestore => restoreShape repr isTextList request
  | .restoreBackup => restoreShape repr isTextDict request
  | .getStatus => keysAre ["destinations"] request && (Doc.field "destinations" request).items.any fun items => items.all isDict
  | .listRegisteredDestinations => request.isEmpty
  | .listRegisteredBackups => keysAre ["destination_ids"] request && isIdList (Doc.field "destination_ids" request)
  | .validateRegisteredRestore => registeredShape repr isTextList request
  | .restoreRegisteredBackup => registeredShape repr isTextDict request
  | _ => true

/-- The job with the default that its action fills in. -/
def completed (job : Fields) : Action → Fields
  | .validateRestore => withOverrides (.arr []) job
  | .restoreBackup => withOverrides (.obj []) job
  | _ => job

/-- The action that a job names. -/
def namedAction (job : Fields) : Option Action :=
  match Doc.field "action" job with
  | .str s => Action.ofText s
  | _ => none

def hasObjects (job : Fields) : Bool := isDict (Doc.field "request" job) && isDict (Doc.field "context" job)

/-- The job of a declared request. -/
def declared (jobId : String) : JobFile → Option Fields
  | .document (.obj job) =>
    match namedAction job with
    | none => none
    | some action =>
      if isJobId jobId && (Doc.field "id" job).isText jobId && hasObjects job && shape repr (requestOf job) action then some (completed job action) else none
  | _ => none

/-- A declared request is returned, and every other one ends with `SystemExit`. -/
def Gated (jobId : String) (file : JobFile) : Prop :=
  match declared repr jobId file with
  | some job => loadJob repr jobId file = .ok job
  | none => ∃ text, loadJob repr jobId file = .error (.exit text)

/-! ## Where the gate holds -/

/-- The actions whose branches read a name that they do not bind. -/
def registeredActions : List Action := [.listRegisteredDestinations, .listRegisteredBackups, .validateRegisteredRestore, .restoreRegisteredBackup]

/-- A value that has a hash. -/
def hashable : Doc → Bool
  | .arr _ => false
  | .obj _ => false
  | _ => true

/-- The reader reads the document; the action of a job with the right identifier has a hash, and is none of the four unless the job has no request and context. -/
def OutsideDefect (jobId : String) (file : JobFile) : Prop :=
  isJobId jobId = true → file ≠ .beyondReader ∧ ∀ job, file = .document (.obj job) → (Doc.field "id" job).isText jobId = true →
    hashable (Doc.field "action" job) = true ∧ ∀ action, namedAction job = some action → action ∈ registeredActions → hasObjects job = false

namespace GateAux

/-! ## Checks in a row -/

/-- A computation that answers when a condition holds, and ends with `SystemExit` otherwise. -/
def Decides {α : Type} (b : Bool) (x : Except Failure α) (a : α) : Prop := if b then x = .ok a else ∃ text, x = .error (.exit text)

variable {α : Type} {b c : Bool} {a : α}

theorem decides_pure (a : α) : Decides true (pure a : Except Failure α) a := rfl

theorem decides_require {text : String} {f : Unit → Except Failure α} (h : c = true → Decides b (f ()) a) : Decides (c && b) (require c (.exit text) >>= f) a := by
  cases c with
  | true => exact h rfl
  | false => exact ⟨text, rfl⟩

theorem Decides.congr {x : Except Failure α} (h : Decides b x a) (hbc : b = c) : Decides c x a := hbc ▸ h

/-! ## The branches -/

theorem requestOf_set (request : Fields) (job : Fields) : requestOf (Dict.set "request" (.obj request) job) = request := by
  rw [requestOf, Doc.field, Dict.get_set_self]
  rfl

theorem field_set_of_ne {key key' : String} (h : key' ≠ key) (value : Doc) (fields : Fields) : Doc.field key (Dict.set key' value fields) = Doc.field key fields := by
  rw [Doc.field, Dict.get_set_of_ne h, ← Doc.field]

theorem keysAre_iff {names : List String} {fields : Fields} :
    keysAre names fields = true ↔ (∀ field ∈ fields, field.1 ∈ names) ∧ ∀ name ∈ names, (Dict.get name fields).isSome = true := by
  simp only [keysAre, Bool.and_eq_true, List.all_eq_true, List.contains_eq_mem, decide_eq_true_eq]

/-- A key that is added to a dictionary with exactly these keys is one more of them. -/
theorem keysAre_set {names : List String} {key : String} {value : Doc} {fields : Fields} (h : keysAre names fields = true) :
    keysAre (names ++ [key]) (Dict.set key value fields) = true := by
  obtain ⟨hkeys, hnames⟩ := keysAre_iff.1 h
  refine keysAre_iff.2 ⟨fun field hfield => ?_, fun name hname => ?_⟩
  · rw [List.mem_append, List.mem_singleton]
    rcases Dict.mem_set hfield with rfl | hold
    · exact .inr rfl
    · exact .inl (hkeys field hold)
  · by_cases heq : key = name
    · rw [heq, Dict.get_set_self]
      rfl
    · rw [Dict.get_set_of_ne heq]
      rw [List.mem_append, List.mem_singleton] at hname
      exact hnames name (hname.resolve_right fun h => heq h.symm)

/-- The branch of an action, with the job that it leaves. -/
def branch (f : Frame) : Action → Except Failure Frame
  | .validateDestination => checkDestination f
  | .validateRestore => checkValidateRestore repr f
  | .restoreBackup => checkRestoreBackup repr f
  | .getStatus => checkGetStatus f
  | .listRegisteredDestinations => checkListRegisteredDestinations f
  | .listRegisteredBackups => checkListRegisteredBackups f
  | .validateRegisteredRestore => checkValidateRegistered repr f
  | .restoreRegisteredBackup => checkRestoreRegistered repr f
  | _ => .ok f

theorem loadJob_document {jobId : String} {job : Fields} {action : Action} (hid : isJobId jobId = true) (hjob : (Doc.field "id" job).isText jobId = true)
    (haction : actionOf job = .ok action) (hobjects : hasObjects job = true) :
    loadJob repr jobId (.document (.obj job)) = (branch repr ⟨job, none⟩ action >>= fun f => .ok f.job) := by
  rw [hasObjects] at hobjects
  rw [loadJob, hid, readJob, require_true, ok_bind, ok_bind, hjob, haction, require_true, ok_bind, ok_bind, hobjects]
  cases action <;> simp [branch, pure, Except.pure]

theorem checkRestore_decides (name : String) {default : Doc} {overridesOk : Doc → Bool} (hdefault : overridesOk default = true) (job : Fields) :
    Decides (restoreShape repr overridesOk (requestOf job)) (checkRestore repr name default overridesOk ⟨job, none⟩ >>= fun f => .ok f.job) (withOverrides default job) := by
  have hchecks : Decides (keysAre (restoreKeys ++ ["overrides"]) (requestOf (withOverrides default job)) && (destinationOk (requestOf (withOverrides default job)) &&
      (modeOk repr (requestOf (withOverrides default job)) && (overridesOk (Doc.field "overrides" (requestOf (withOverrides default job))) && true))))
      (checkRestore repr name default overridesOk ⟨job, none⟩ >>= fun f => .ok f.job) (withOverrides default job) := by
    simp only [checkRestore, bind_assoc]
    exact decides_require fun _ => decides_require fun _ => decides_require fun _ => decides_require fun _ => decides_pure _
  refine hchecks.congr ?_
  rw [Bool.and_true, restoreShape]
  by_cases hshort : keysAre restoreKeys (requestOf job) = true
  · have hrequest : requestOf (withOverrides default job) = Dict.set "overrides" default (requestOf job) := by
      rw [withOverrides, if_pos hshort, requestOf_set]
    have hdestination : destinationOk (Dict.set "overrides" default (requestOf job)) = destinationOk (requestOf job) := by
      rw [destinationOk, field_set_of_ne (by decide), ← destinationOk]
    have hmode : modeOk repr (Dict.set "overrides" default (requestOf job)) = modeOk repr (requestOf job) := by
      rw [modeOk, Doc.textField, field_set_of_ne (by decide), ← Doc.textField, ← modeOk]
    have hoverrides : Doc.field "overrides" (Dict.set "overrides" default (requestOf job)) = default := by
      rw [Doc.field, Dict.get_set_self]
      rfl
    rw [hrequest, keysAre_set hshort, hshort, hdestination, hmode, hoverrides, hdefault]
    simp
  · have hrequest : withOverrides default job = job := by rw [withOverrides, if_neg hshort]
    have hlong : keysAre restoreKeys (requestOf job) = false := Bool.eq_false_iff.2 hshort
    rw [hrequest, hlong, Bool.false_or, Bool.and_assoc, Bool.and_assoc]
    cases keysAre (restoreKeys ++ ["overrides"]) (requestOf job) <;> simp [Bool.and_comm, Bool.and_left_comm]

/-- A branch that binds the name it reads decides by the shape of its action. -/
theorem branch_decides (job : Fields) {action : Action} (haction : action ∉ registeredActions) :
    Decides (shape repr (requestOf job) action) (branch repr ⟨job, none⟩ action >>= fun f => .ok f.job) (completed job action) := by
  cases action with
  | validateDestination =>
    refine Decides.congr (b := (keysAre ["destination"] (requestOf job) && isDict (Doc.field "destination" (requestOf job))) && true) ?_ (Bool.and_true _)
    simp only [branch, checkDestination, bind_assoc]
    exact decides_require fun _ => decides_pure _
  | validateRestore => exact checkRestore_decides repr "validate_restore" rfl job
  | restoreBackup => exact checkRestore_decides repr "restore_backup" rfl job
  | getStatus =>
    have hchecks : Decides ((keysAre ["destinations"] (requestOf job) && (Doc.field "destinations" (requestOf job)).items.isSome) &&
        ((Doc.field "destinations" (requestOf job)).items.any (fun items => items.all isDict) && true)) (branch repr ⟨job, none⟩ .getStatus >>= fun f => .ok f.job) job := by
      simp only [branch, checkGetStatus, bind_assoc]
      exact decides_require fun _ => decides_require fun _ => decides_pure _
    refine hchecks.congr ?_
    rw [Bool.and_true, Bool.and_assoc, shape]
    cases (Doc.field "destinations" (requestOf job)).items <;> simp
  | listRegisteredDestinations => exact absurd (by decide) haction
  | listRegisteredBackups => exact absurd (by decide) haction
  | validateRegisteredRestore => exact absurd (by decide) haction
  | restoreRegisteredBackup => exact absurd (by decide) haction
  | _ => exact decides_pure job

/-- A branch that reads the name without binding it raises. -/
theorem branch_unbound (job : Fields) {action : Action} (haction : action ∈ registeredActions) :
    (branch repr ⟨job, none⟩ action >>= fun f => .ok f.job) = .error .unboundLocal := by
  simp only [registeredActions, List.mem_cons, List.not_mem_nil, or_false] at haction
  rcases haction with rfl | rfl | rfl | rfl <;> rfl

/-! ## The gate -/

theorem actionOf_cases (job : Fields) :
    (hashable (Doc.field "action" job) = false ∧ namedAction job = none ∧ actionOf job = .error .typeError) ∨
      (hashable (Doc.field "action" job) = true ∧ namedAction job = none ∧ actionOf job = .error (.exit "invalid server-backup job")) ∨
      ∃ action, hashable (Doc.field "action" job) = true ∧ namedAction job = some action ∧ actionOf job = .ok action := by
  unfold namedAction actionOf
  cases Doc.field "action" job with
  | arr xs => exact .inl ⟨rfl, rfl, rfl⟩
  | obj kvs => exact .inl ⟨rfl, rfl, rfl⟩
  | str s =>
    simp only
    cases Action.ofText s with
    | none => exact .inr (.inl ⟨rfl, rfl, rfl⟩)
    | some action => exact .inr (.inr ⟨action, rfl, rfl, rfl⟩)
  | _ => exact .inr (.inl ⟨rfl, rfl, rfl⟩)

theorem gated_of_exit {jobId text : String} {file : JobFile} (hdeclared : declared repr jobId file = none) (h : loadJob repr jobId file = .error (.exit text)) : Gated repr jobId file := by
  rw [Gated, hdeclared]
  exact ⟨text, h⟩

/-- What ends with another exception is not gated. -/
theorem not_gated {jobId : String} {file : JobFile} {failure : Failure} (h : loadJob repr jobId file = .error failure) (hfailure : ∀ text, failure ≠ .exit text) :
    ¬ Gated repr jobId file := by
  rw [Gated, h]
  split
  · nofun
  · rintro ⟨text, heq⟩
    exact hfailure text (Except.error.inj heq)

theorem declared_eq_none {jobId : String} {job : Fields}
    (h : ∀ action, namedAction job = some action → isJobId jobId = true → (Doc.field "id" job).isText jobId = true → hasObjects job = true → False) :
    declared repr jobId (.document (.obj job)) = none := by
  simp only [declared]
  split
  · rfl
  · rename_i action haction
    refine if_neg fun hall => ?_
    simp only [Bool.and_eq_true] at hall
    exact h action haction hall.1.1.1 hall.1.1.2 hall.1.2

theorem declared_eq {jobId : String} {job : Fields} {action : Action} (hid : isJobId jobId = true) (hjob : (Doc.field "id" job).isText jobId = true)
    (haction : namedAction job = some action) (hobjects : hasObjects job = true) :
    declared repr jobId (.document (.obj job)) = if shape repr (requestOf job) action then some (completed job action) else none := by
  simp only [declared, haction, hid, hjob, hobjects, Bool.true_and]

/-- The gate on a job with the right identifier. -/
theorem gated_job_iff {jobId : String} {job : Fields} (hid : isJobId jobId = true) (hjob : (Doc.field "id" job).isText jobId = true) :
    Gated repr jobId (.document (.obj job)) ↔
      hashable (Doc.field "action" job) = true ∧ ∀ action, namedAction job = some action → action ∈ registeredActions → hasObjects job = false := by
  rcases actionOf_cases job with ⟨hhash, hnamed, hof⟩ | ⟨hhash, hnamed, hof⟩ | ⟨action, hhash, hnamed, hof⟩
  · have hraises : loadJob repr jobId (.document (.obj job)) = .error .typeError := by
      rw [loadJob, hid, readJob, require_true, ok_bind, ok_bind, hjob, hof]
      rfl
    exact iff_of_false (not_gated repr hraises nofun) fun h => by
      rw [hhash] at h
      cases h.1
  · have hexits : loadJob repr jobId (.document (.obj job)) = .error (.exit "invalid server-backup job") := by
      rw [loadJob, hid, readJob, require_true, ok_bind, ok_bind, hjob, hof]
      rfl
    refine iff_of_true (gated_of_exit repr (declared_eq_none repr ?_) hexits) ⟨hhash, ?_⟩
    · rw [hnamed]
      nofun
    · rw [hnamed]
      nofun
  · cases hobjects : hasObjects job with
    | false =>
      have hexits : loadJob repr jobId (.document (.obj job)) = .error (.exit "invalid server-backup job schema") := by
        rw [hasObjects] at hobjects
        rw [loadJob, hid, readJob, require_true, ok_bind, ok_bind, hjob, hof, require_true, ok_bind, ok_bind, hobjects]
        rfl
      refine iff_of_true (gated_of_exit repr (declared_eq_none repr fun _ _ _ _ h => ?_) hexits) ⟨hhash, fun _ _ _ => rfl⟩
      rw [hobjects] at h
      cases h
    | true =>
      have hload := loadJob_document repr hid hjob hof hobjects
      by_cases hregistered : action ∈ registeredActions
      · rw [branch_unbound repr job hregistered] at hload
        exact iff_of_false (not_gated repr hload nofun) fun h => by cases h.2 action hnamed hregistered
      · refine iff_of_true ?_ ⟨hhash, fun action' haction' hmem => ?_⟩
        · have hdecides := branch_decides repr job hregistered
          rw [← hload] at hdecides
          rw [Gated, declared_eq repr hid hjob hnamed hobjects]
          unfold Decides at hdecides
          cases hshape : shape repr (requestOf job) action with
          | true => rwa [hshape, if_pos rfl] at hdecides
          | false => rwa [hshape, if_neg Bool.false_ne_true] at hdecides
        · rw [hnamed] at haction'
          exact absurd (Option.some.inj haction' ▸ hmem) hregistered

/-! ## What an accepted job is -/

theorem namedAction_completed (job : Fields) (action : Action) : namedAction (completed job action) = namedAction job := by
  have hkept : ∀ default, namedAction (withOverrides default job) = namedAction job := by
    intro default
    rw [withOverrides]
    split
    · rw [namedAction, field_set_of_ne (by decide), ← namedAction]
    · rfl
  cases action with
  | validateRestore => exact hkept _
  | restoreBackup => exact hkept _
  | _ => rfl

theorem of_loadJob {jobId : String} {file : JobFile} {job : Fields} (h : loadJob repr jobId file = .ok job) :
    ∃ stored action, file = .document (.obj stored) ∧ namedAction stored = some action ∧ action ∉ registeredActions ∧ job = completed stored action := by
  have hread := h
  rw [loadJob] at hread
  obtain ⟨_, hid, hread⟩ := bind_ok hread
  obtain ⟨stored, hstored, hread⟩ := bind_ok hread
  obtain ⟨_, hjob, hread⟩ := bind_ok hread
  obtain ⟨action, haction, hread⟩ := bind_ok hread
  obtain ⟨_, hobjects, -⟩ := bind_ok hread
  have hfile : file = .document (.obj stored) := by
    unfold readJob at hstored
    split at hstored <;> cases hstored
    rfl
  have hnamed : namedAction stored = some action := by
    rcases actionOf_cases stored with ⟨-, -, hof⟩ | ⟨-, -, hof⟩ | ⟨action', -, hnamed, hof⟩
    · cases hof.symm.trans haction
    · cases hof.symm.trans haction
    · cases hof.symm.trans haction
      exact hnamed
  rw [hfile, loadJob_document repr (of_require hid) (of_require hjob) haction (of_require hobjects)] at h
  have hnot : action ∉ registeredActions := fun hmem => by
    rw [branch_unbound repr stored hmem] at h
    cases h
  refine ⟨stored, action, hfile, hnamed, hnot, ?_⟩
  have hdecides := branch_decides repr stored hnot
  rw [h] at hdecides
  unfold Decides at hdecides
  split at hdecides
  · exact Except.ok.inj hdecides
  · obtain ⟨text, heq⟩ := hdecides
    cases heq

/-! ## A request for each action -/

def sampleId : String := "00000000-0000-0000-0000-000000000000"

/-- A request that has the shape of its action. -/
def sampleRequest : Action → Fields
  | .validateDestination => [("destination", .obj [])]
  | .validateRestore => [("backup_ref", .null), ("destination", .null), ("restore_mode", .str "full")]
  | .restoreBackup => [("backup_ref", .null), ("destination", .null), ("restore_mode", .str "full")]
  | .getStatus => [("destinations", .arr [])]
  | _ => []

def sampleJob (action : Action) : Fields := [("id", .str sampleId), ("action", .str action.text), ("request", .obj (sampleRequest action)), ("context", .obj [])]

theorem ofText_text (action : Action) : Action.ofText action.text = some action := by cases action <;> decide

theorem modeOk_full {request : Fields} (h : Dict.get "restore_mode" request = some (.str "full")) : modeOk repr request = true := by
  rw [modeOk, Doc.textField_str h]
  decide_cbv

theorem shape_sample {action : Action} (h : action ∉ registeredActions) : shape repr (sampleRequest action) action = true := by
  have hrestore : ∀ overridesOk : Doc → Bool, restoreShape repr overridesOk (sampleRequest .restoreBackup) = true := by
    intro overridesOk
    rw [restoreShape, modeOk_full repr rfl, Bool.and_true]
    rfl
  cases action with
  | validateRestore => exact hrestore isTextList
  | restoreBackup => exact hrestore isTextDict
  | listRegisteredDestinations => exact absurd (by decide) h
  | listRegisteredBackups => exact absurd (by decide) h
  | validateRegisteredRestore => exact absurd (by decide) h
  | restoreRegisteredBackup => exact absurd (by decide) h
  | _ => rfl

theorem loadJob_sampleJob (action : Action) :
    loadJob repr sampleId (.document (.obj (sampleJob action))) = (branch repr ⟨sampleJob action, none⟩ action >>= fun f => .ok f.job) := by
  have hid : isJobId sampleId = true := by decide_cbv
  have haction : actionOf (sampleJob action) = .ok action := by
    have hfield : Doc.field "action" (sampleJob action) = .str action.text := rfl
    simp only [actionOf, hfield, ofText_text]
  exact loadJob_document repr hid (by rfl) haction (by rfl)

theorem loadJob_sample {action : Action} (h : action ∉ registeredActions) :
    loadJob repr sampleId (.document (.obj (sampleJob action))) = .ok (completed (sampleJob action) action) := by
  have hdecides := branch_decides repr (sampleJob action) h
  have hshape : shape repr (requestOf (sampleJob action)) action = true := shape_sample repr h
  rw [← loadJob_sampleJob, hshape] at hdecides
  exact hdecides

theorem sample_not_gated {action : Action} (h : action ∈ registeredActions) : ¬ Gated repr sampleId (.document (.obj (sampleJob action))) := by
  have hraises := loadJob_sampleJob repr action
  rw [branch_unbound repr _ h] at hraises
  exact not_gated repr hraises nofun

end GateAux

open GateAux

/-- The gate of one stored job. -/
theorem gated_iff (jobId : String) (file : JobFile) : Gated repr jobId file ↔ OutsideDefect jobId file := by
  cases hid : isJobId jobId with
  | false =>
    have hexits : loadJob repr jobId file = .error (.exit "invalid job id") := by
      rw [loadJob, hid]
      rfl
    refine iff_of_true (gated_of_exit repr ?_ hexits) fun h => absurd (hid.symm.trans h) Bool.false_ne_true
    cases file with
    | document value =>
      cases value with
      | obj job =>
        refine declared_eq_none repr fun _ _ h _ _ => ?_
        rw [hid] at h
        cases h
      | _ => rfl
    | _ => rfl
  | true =>
    cases file with
    | absent => exact iff_of_true (gated_of_exit repr rfl (by rw [loadJob, hid]; rfl)) fun _ => ⟨nofun, nofun⟩
    | refused text => exact iff_of_true (gated_of_exit repr rfl (by rw [loadJob, hid]; rfl)) fun _ => ⟨nofun, nofun⟩
    | beyondReader =>
      have hraises : loadJob repr jobId .beyondReader = .error .reader := by
        rw [loadJob, hid]
        rfl
      exact iff_of_false (not_gated repr hraises nofun) fun h => (h hid).1 rfl
    | document value =>
      cases value with
      | obj job =>
        cases hjob : (Doc.field "id" job).isText jobId with
        | false =>
          have hexits : loadJob repr jobId (.document (.obj job)) = .error (.exit "invalid server-backup job") := by
            rw [loadJob, hid, readJob, require_true, ok_bind, ok_bind, hjob]
            rfl
          refine iff_of_true (gated_of_exit repr (declared_eq_none repr fun _ _ _ h _ => ?_) hexits) fun _ => ⟨nofun, fun job' heq h => ?_⟩
          · rw [hjob] at h
            cases h
          · cases heq
            rw [hjob] at h
            cases h
        | true =>
          rw [gated_job_iff repr hid hjob]
          constructor
          · rintro h -
            refine ⟨nofun, fun job' heq _ => ?_⟩
            cases heq
            exact h
          · intro h
            exact (h hid).2 job rfl hjob
      | _ => exact iff_of_true (gated_of_exit repr rfl (by rw [loadJob, hid]; rfl)) fun _ => ⟨nofun, nofun⟩

/-- An action has a request that is accepted exactly when its branch does not read the name that it does not bind. -/
theorem accepted_iff (action : Action) : (∃ jobId file job, loadJob repr jobId file = .ok job ∧ namedAction job = some action) ↔ action ∉ registeredActions := by
  constructor
  · rintro ⟨jobId, file, job, hload, hnamed⟩
    obtain ⟨stored, action', -, hstored, hnot, rfl⟩ := of_loadJob repr hload
    rw [namedAction_completed, hstored] at hnamed
    exact Option.some.inj hnamed ▸ hnot
  · intro h
    refine ⟨sampleId, .document (.obj (sampleJob action)), completed (sampleJob action) action, loadJob_sample repr h, ?_⟩
    rw [namedAction_completed]
    exact ofText_text action

/-- Every stored job is accepted or refused as declared exactly outside the defect, and the actions that accept some request are those that bind the name they read. -/
theorem jobs_gated :
    (∀ jobId file, Gated repr jobId file ↔ OutsideDefect jobId file) ∧
      ∀ action, (∃ jobId file job, loadJob repr jobId file = .ok job ∧ namedAction job = some action) ↔ action ∉ registeredActions :=
  ⟨gated_iff repr, accepted_iff repr⟩

/-- The request that lists the registered destinations has the declared shape, and ends with an exception that is no `SystemExit`. -/
theorem listing_raises :
    ¬ ((∀ repr jobId file, Gated repr jobId file) ∧ ∀ repr action, ∃ jobId file job, loadJob repr jobId file = .ok job ∧ namedAction job = some action) := by
  rintro ⟨hgated, -⟩
  exact sample_not_gated (fun _ => "") (List.mem_cons_self : Action.listRegisteredDestinations ∈ registeredActions) (hgated _ _ _)

end BackupJob

end TecTac
