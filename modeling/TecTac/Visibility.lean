import TecTac.Schedule

/-!
# What the module state says about a schedule

`ScheduleVisibility` of `scheduler.py`: the module state and the module registry, read once, and what they make of a
schedule: an ordinary one, one of a disabled module, or one whose owner module is not installed. The pause writes
`paused_reason` and nothing else.
-/

namespace TecTac

/-- `CORE_OWN_MODULE_IDS`. -/
def coreOwnModuleIds : List String := ["tec-tac", "core"]

/-- `PAUSED_MODULE_DISABLED`. -/
def pausedModuleDisabled : String := "paused: module disabled"

/-- `PAUSED_OWNER_NOT_INSTALLED`. -/
def pausedOwnerNotInstalled : String := "paused: owner module not installed"

/-- `CORE_REASONS`. -/
def coreReasons : List String := [pausedModuleDisabled, pausedOwnerNotInstalled]

/-- What `ScheduleVisibility.kind` answers. -/
inductive VisibilityKind where
  | ordinary | disabled | orphaned
  deriving DecidableEq, Repr

/-- `ScheduleVisibility`. `installed` is `none` when the registry cannot be read; `disabledModules` are the modules
whose record in the module state says they are not enabled. -/
structure ScheduleVisibility where
  unreadable : Bool := false
  installed : Option (List String) := none
  legacy : List String := []
  disabledModules : List String := []
  deriving DecidableEq

namespace ScheduleVisibility

/-- `bound_ids`: the modules a schedule is bound to, each once. -/
def boundIds (v : ScheduleVisibility) (moduleId ownerModule : String) : List String :=
  (if ownerModule = moduleId then [moduleId] else [moduleId, ownerModule]).filter fun m =>
    m != "" && !coreOwnModuleIds.contains m && !v.legacy.contains m

/-- `orphan_module_of`: the owner module when it is not installed, blank otherwise. -/
def orphanModuleOf (v : ScheduleVisibility) (moduleId ownerModule : String) (ownerType : OwnerType) : String :=
  match v.installed with
  | none => ""
  | some ids =>
    let owner := if ownerType = .module then ownerModule else moduleId
    if owner = "" ∨ owner ∈ coreOwnModuleIds ∨ owner ∈ v.legacy ∨ owner ∈ ids then "" else owner

/-- `disabled_module_of`: the first bound module that is disabled, blank when none; the first bound module when the
state cannot be read. -/
def disabledModuleOf (v : ScheduleVisibility) (moduleId ownerModule : String) : String :=
  let ids := v.boundIds moduleId ownerModule
  if v.unreadable then ids.headD ""
  else (ids.find? fun m =>
    (match v.installed with
      | none => true
      | some known => known.contains m) && v.disabledModules.contains m).getD ""

/-- `kind_of`. -/
def kindOf (v : ScheduleVisibility) (moduleId ownerModule : String) (ownerType : OwnerType) : VisibilityKind :=
  if v.orphanModuleOf moduleId ownerModule ownerType ≠ "" then .orphaned
  else if v.disabledModuleOf moduleId ownerModule ≠ "" then .disabled
  else .ordinary

/-- `kind`. -/
def kind (v : ScheduleVisibility) (s : Schedule) : VisibilityKind := v.kindOf s.moduleId s.ownerModule s.ownerType

end ScheduleVisibility

/-- `run_blocked_reason`: why a run must not start now, blank when it may. -/
def runBlockedReason (v : ScheduleVisibility) (moduleId ownerModule : String) (ownerType : OwnerType) : String :=
  match v.kindOf moduleId ownerModule ownerType with
  | .orphaned => "This schedule was not run because the module that owns it is not installed."
  | .disabled =>
    if v.unreadable then "This schedule was not run because the module state could not be read."
    else "This schedule was not run because its module is disabled."
  | .ordinary => ""

/-- `_apply_module_pause`: whether the schedule must wait this tick, and the row after the pause or the resume. -/
def applyModulePause (v : ScheduleVisibility) (s : Schedule) : Bool × Schedule :=
  match v.kind s with
  | .orphaned => (true, { s with pausedReason := pausedOwnerNotInstalled })
  | .disabled => (true, if v.unreadable then s else { s with pausedReason := pausedModuleDisabled })
  | .ordinary => (false, if s.pausedReason ∈ coreReasons then { s with pausedReason := "" } else s)

/-- `sync_module_schedule_state` for one schedule: the same reasons, set only on an enabled schedule and cleared on any.
-/
def syncModuleScheduleState (v : ScheduleVisibility) (s : Schedule) : Schedule :=
  let kind := v.kind s
  if kind = .disabled ∧ v.unreadable then s
  else
    let wanted := match kind with
      | .orphaned => pausedOwnerNotInstalled
      | .disabled => pausedModuleDisabled
      | .ordinary => ""
    if wanted ≠ "" then
      if s.enabled ∧ s.pausedReason ≠ wanted then { s with pausedReason := wanted } else s
    else if s.pausedReason ∈ coreReasons ∧ ¬(v.unreadable ∧ s.pausedReason = pausedModuleDisabled) then
      { s with pausedReason := "" }
    else s

end TecTac
