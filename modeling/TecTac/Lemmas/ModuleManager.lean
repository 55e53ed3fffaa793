import TecTac.ModuleManager
import TecTac.Lemmas.JobHelper

/-!
# What Core reads of the installed modules

The catalogue, the live model and the flags. Where no installed module replaces another, the replacement rules ask for nothing
and disable nothing: a job switches the modules it lists and no other, in the model of the pending jobs and in the state file.
-/

namespace TecTac

open Raise

/-! ## The catalogue and the live model -/

/-- The rows of the catalogue are those of the installed modules. -/
theorem catalog_eq {site : Site} {file : Helper.StateFile} {catalog : List CatalogRow}
    (h : installedCatalogV2 site file = .ok catalog) :
    catalog = site.installed.map (Installed.row file) := by
  obtain ⟨_, _, h⟩ := bind_ok h
  cases h
  rfl

/-- The node of an installed module. -/
theorem get_liveModel {site : Site} {file : Helper.StateFile} {m : Installed} (hm : m ∈ site.installed)
    (hlegacy : m.legacy = false) :
    Dict.get m.id (liveModel site file) = some ⟨m.id, m.category, isEnabled file m.id, m.replaces, m.capabilities⟩ := by
  refine Dict.get_of_mem ?_ ?_
  · have hkeys : (liveModel site file).map Prod.fst = (site.installed.filter fun m => !m.legacy).map (·.id) := by
      simp [liveModel, Function.comp_def]
    rw [hkeys]
    exact (List.filter_sublist.map _).nodup site.nodup
  · exact List.mem_map.2 ⟨m, by simp [hm, hlegacy], rfl⟩

@[simp] theorem refuse_ok {α : Type} (a : α) : refuse (.ok a) = .ok a := rfl

/-- An answer passed through `refuse`. -/
theorem of_refuse {α : Type} {x : Except String α} {a : α} (h : refuse x = .ok a) : x = .ok a := by
  cases x with
  | error e => cases h
  | ok b =>
    cases h
    rfl

/-! ## The flags that Core reads -/

/-- What writing a flag leaves of the flags. -/
theorem coreFlag_setFlags {enabled : Bool} {ids : List String} {modules modules' : Helper.Records}
    (h : Helper.setFlags enabled ids modules = .ok modules') (id : String) :
    coreFlag modules' id = if id ∈ ids then enabled else coreFlag modules id := by
  induction ids generalizing modules with
  | nil =>
    cases h
    simp
  | cons first ids ih =>
    obtain ⟨written, hwritten, h⟩ := bind_ok h
    obtain ⟨fields, _, hwritten⟩ := bind_ok hwritten
    cases hwritten
    rw [ih h]
    by_cases hrest : id ∈ ids
    · simp [hrest]
    · by_cases hfirst : id = first
      · simp [hfirst, coreFlag, Helper.flag_set]
      · have hne : first ≠ id := fun heq => hfirst heq.symm
        simp [hrest, hfirst, coreFlag, Dict.get_set_of_ne hne]

/-- Cleaning the sources leaves every flag. -/
theorem coreFlag_scrub (urlsplit : String → Option Helper.UrlParts) (modules : Helper.Records) (id : String) :
    coreFlag (modules.map fun p => (p.1, Helper.scrubRecord urlsplit p.2)) id = coreFlag modules id := by
  have hget := Dict.get_mapValues (Helper.scrubRecord urlsplit) id modules
  unfold Dict.mapValues at hget
  unfold coreFlag
  rw [hget]
  cases Dict.get id modules with
  | none => rfl
  | some j =>
    cases j with
    | obj fields =>
      obtain ⟨fields', heq, _, hflag⟩ := Helper.get_scrubRecord urlsplit fields
      simp only [Option.map_some, heq, Helper.flag, hflag]
    | _ => rfl

/-- A write that answers leaves the flags of the records it wrote. -/
theorem isEnabled_mutate {α : Type} {urlsplit : String → Option Helper.UrlParts} {fault : Option String}
    {callback : Helper.Records → Except String (α × Helper.Records)} {file file' : Helper.StateFile} {answer : α}
    (h : Helper.mutateModuleState urlsplit fault callback file = (.ok answer, file')) :
    ∃ modules modules', callback modules = .ok (answer, modules') ∧
      ∀ id, isEnabled file id = coreFlag modules id ∧ isEnabled file' id = coreFlag modules' id := by
  obtain ⟨s, modules, s', hs, hcallback, _, hs', hkeys, hmodules, hsound⟩ := Helper.mutate_ok h
  refine ⟨s.modules, modules, hcallback, ?_⟩
  intro id
  have hsound' : ((Dict.get "_corrupt" s').getD .null).truthy = false := by
    rw [hkeys "_corrupt" (by decide)]
    exact hsound
  constructor
  · simp [isEnabled, hs, hsound]
  · rw [← coreFlag_scrub urlsplit, ← hmodules]
    simp [isEnabled, hs', hsound']

/-! ## Models that replace nothing -/

/-- No module of the model replaces another. -/
def Model.Plain (model : Model) : Prop := ∀ p ∈ model, p.2.replaces = ""

theorem get_switched (out : Model) (first id : String) (enabled : Bool) :
    Dict.get id (match Dict.get first out with
      | none => out
      | some node => if node.enabled ≠ enabled then Dict.set first { node with enabled := enabled } out else out) =
      (Dict.get id out).map fun node => if id = first then { node with enabled := enabled } else node := by
  cases hfirst : Dict.get first out with
  | none =>
    by_cases heq : id = first
    · simp [heq, hfirst]
    · simp [heq]
  | some node =>
    by_cases hsame : node.enabled = enabled
    · by_cases heq : id = first
      · subst heq hsame
        simp [hfirst]
      · simp [hsame, heq]
    · by_cases heq : id = first
      · simp [hsame, heq, hfirst]
      · have hne : first ≠ id := fun h => heq h.symm
        simp [hsame, heq, Dict.get_set_of_ne hne]

/-- What switching modules leaves of a node. -/
theorem get_withEnabled (model : Model) (ids : List String) (enabled : Bool) (id : String) :
    Dict.get id (withEnabled model (ids.map fun id => (id, enabled))) =
      (Dict.get id model).map fun node => if id ∈ ids then { node with enabled := enabled } else node := by
  induction ids generalizing model with
  | nil => simp [withEnabled]
  | cons first ids ih =>
    refine ((ih _).trans (congrArg _ (get_switched model first id enabled))).trans ?_
    cases Dict.get id model with
    | none => rfl
    | some node =>
      by_cases hmem : id ∈ ids
      · by_cases heq : id = first <;> simp [hmem, heq]
      · simp [hmem]

/-- Switching modules keeps a plain model. -/
theorem plain_withEnabled {model : Model} (h : model.Plain) (changes : List (String × Bool)) :
    (withEnabled model changes).Plain := by
  induction changes generalizing model with
  | nil => exact h
  | cons change changes ih =>
    refine ih ?_
    dsimp only
    split
    · exact h
    · rename_i node hnode
      split
      · intro p hp
        rcases Dict.mem_set hp with rfl | hp
        · have hold := h _ (Dict.mem_of_get hnode)
          exact hold
        · exact h p hp
      · exact h

theorem plain_pending {model : Model} (h : model.Plain) (pending : List QueuedJob) :
    (modelWithPendingJobs model pending).Plain := by
  induction pending generalizing model with
  | nil => exact h
  | cons job pending ih =>
    refine ih ?_
    refine plain_withEnabled (plain_withEnabled ?_ _) _
    split
    · exact plain_withEnabled h _
    · exact plain_withEnabled h _
    · exact h

theorem plain_get {model : Model} (h : model.Plain) {id : String} {node : Node} (hget : Dict.get id model = some node) :
    node.replaces = "" := h _ (Dict.mem_of_get hget)

/-- Nothing stands in for a module. -/
theorem plain_satisfiesDependency {model : Model} (h : model.Plain) (development : Bool) (dep : String) :
    satisfiesDependency development model dep = none := by
  unfold satisfiesDependency
  rw [Option.map_eq_none_iff, List.find?_eq_none]
  intro node _ hnode
  simp only [Bool.and_eq_true, Option.isNone_iff_eq_none] at hnode
  unfold check at hnode
  split at hnode
  · exact absurd hnode.2 (by simp)
  · rename_i target hget
    rw [if_pos (plain_get h hget)] at hnode
    exact absurd hnode.2 (by simp)

/-- Nothing is disabled for a module. -/
theorem plain_disablePlan {model : Model} (h : model.Plain) (development : Bool) {id : String} (hid : id ≠ "") :
    disablePlan development model id = [] := by
  unfold disablePlan
  split
  · rfl
  · rename_i node hget
    split
    · rfl
    · rw [if_pos (plain_get h hget)]
      unfold replacementsOf
      split
      · rfl
      · split
        · rfl
        · have hnone : ((model.map Prod.snd).filter fun other => other.enabled && other.replaces == id && other.id != id) = [] := by
            rw [List.filter_eq_nil_iff]
            intro other hother
            obtain ⟨p, hp, rfl⟩ := List.mem_map.1 hother
            simp [h p hp, hid.symm]
          rw [hnone]
          rfl

/-- Nothing is handed back. -/
theorem plain_handBackPlan {model : Model} (h : model.Plain) (id : String) : handBackPlan model id = [] := by
  unfold handBackPlan
  split
  · rfl
  · rename_i node hget
    simp [plain_get h hget]

theorem plain_handBackWanted {model : Model} (h : model.Plain) (affected : List String) :
    handBackWanted model affected = [] := by
  unfold handBackWanted
  have hplan : ∀ id changes, handBackPlan (withEnabled model changes) id = [] :=
    fun id changes => plain_handBackPlan (plain_withEnabled h changes) id
  simp only [hplan, List.foldl_nil]
  exact List.foldl_fixed _

/-! ## The jobs -/

/-- A job that only switches the modules it lists. -/
structure QueuedJob.Plain (job : QueuedJob) : Prop where
  action : job.action ≠ .install
  disables : job.disableModules = []
  enables : job.enableModules = []
  ids : ∀ id ∈ job.affected, id ≠ ""

/-- The flag that a job leaves a module with. -/
def QueuedJob.leaves (job : QueuedJob) (id : String) (enabled : Bool) : Bool :=
  if id ∈ job.affected then decide (job.action = .enable) else enabled

/-- The flag of a module when the pending jobs are applied. -/
def flagAfter (pending : List QueuedJob) (id : String) (enabled : Bool) : Bool :=
  pending.foldl (fun enabled job => job.leaves id enabled) enabled

theorem flagAfter_append (pending : List QueuedJob) (job : QueuedJob) (id : String) (enabled : Bool) :
    flagAfter (pending ++ [job]) id enabled = job.leaves id (flagAfter pending id enabled) := by
  simp [flagAfter]

/-- What a pending job leaves of a node. -/
theorem get_applyPending {job : QueuedJob} (hjob : job.Plain) (model : Model) (id : String) :
    Dict.get id (applyPending model job) = (Dict.get id model).map fun node => { node with enabled := job.leaves id node.enabled } := by
  have hnode : ∀ (b : Bool) (node : Node), (if id ∈ job.affected then { node with enabled := b } else node) =
      { node with enabled := if id ∈ job.affected then b else node.enabled } := by
    intro b node
    split
    · rfl
    · rfl
  unfold applyPending QueuedJob.leaves
  rw [hjob.disables, hjob.enables]
  cases haction : job.action with
  | enable => simp only [List.map_nil, withEnabled, List.foldl_nil, decide_true, ← hnode, ← get_withEnabled]
  | disable =>
    simp only [List.map_nil, withEnabled, List.foldl_nil, reduceCtorEq, decide_false, ← hnode, ← get_withEnabled]
  | install => exact absurd haction hjob.action

/-- What the pending jobs leave of a node. -/
theorem get_pending {pending : List QueuedJob} (hpending : ∀ job ∈ pending, job.Plain) (model : Model) (id : String) :
    Dict.get id (modelWithPendingJobs model pending) =
      (Dict.get id model).map fun node => { node with enabled := flagAfter pending id node.enabled } := by
  induction pending generalizing model with
  | nil => simp [modelWithPendingJobs, flagAfter]
  | cons job pending ih =>
    have hrest := ih (fun job hjob => hpending job (List.mem_cons_of_mem _ hjob)) (applyPending model job)
    rw [get_applyPending (hpending job List.mem_cons_self)] at hrest
    refine Eq.trans hrest ?_
    rw [Option.map_map]
    rfl

/-! ## The worker -/

/-- Manifests of modules that replace nothing. -/
def Helper.Manifests.Plain (manifests : Helper.Manifests) : Prop := ∀ p ∈ manifests, p.2.replaces = ""

theorem plain_replacementModel {manifests : Helper.Manifests} (h : manifests.Plain) {modules : Helper.Records}
    {model : Helper.HelperModel}
    (hmodel : Helper.replacementModel manifests modules = .ok model) : ∀ p ∈ model, p.2.replaces = "" := by
  intro p hp
  obtain ⟨q, hq, hread⟩ := mem_of_mapM_ok hmodel hp
  obtain ⟨fields, _, hread⟩ := bind_ok hread
  cases hread
  exact h q hq

/-- An enable job of plain modules disables nothing. -/
theorem plain_planEnableDisables {development : Bool} {model : Helper.HelperModel} (h : ∀ p ∈ model, p.2.replaces = "")
    {ids : List String} (hids : ∀ id ∈ ids, id ≠ "") {replacementConfirmed : Bool} {disables : List String}
    (hplan : Helper.planEnableDisables development model ids [] replacementConfirmed = .ok disables) : disables = [] := by
  obtain ⟨planned, hplanned, hplan⟩ := bind_ok hplan
  obtain ⟨_, _, hplan⟩ := bind_ok hplan
  obtain ⟨_, _, hplan⟩ := bind_ok hplan
  have hone : ∀ acc id acc', id ≠ "" → Helper.planOne development model ids [] acc id = .ok acc' → acc'.1 = acc.1 := by
    intro acc id acc' hid hacc
    unfold Helper.planOne at hacc
    split at hacc
    · cases hacc
      rfl
    · rename_i node hget
      have hnode : node.replaces = "" := h _ (Dict.mem_of_get hget)
      obtain ⟨replaced, hreplaced, hacc⟩ := bind_ok hacc
      obtain ⟨replacements, hreplacements, hacc⟩ := bind_ok hacc
      cases hacc
      rw [Helper.planReplaced, if_pos hnode] at hreplaced
      cases hreplaced
      have hothers : (model.sorted.filter fun other => other.enabled && other.replaces == id) = [] := by
        rw [List.filter_eq_nil_iff]
        intro other hother
        have hmem : other ∈ model.map Prod.snd := (List.mem_insertionSort _).1 hother
        obtain ⟨p, hp, rfl⟩ := List.mem_map.1 hmem
        simp [h p hp, hid.symm]
      unfold Helper.planReplacements at hreplacements
      split at hreplacements
      · dsimp only at hreplacements
        rw [hothers] at hreplacements
        cases hreplacements
        simp
      · cases hreplacements
        simp
  have hfold : ∀ (l : List String) (acc acc' : List String × Bool), (∀ id ∈ l, id ≠ "") →
      l.foldlM (Helper.planOne development model ids []) acc = .ok acc' → acc'.1 = acc.1 := by
    intro l
    induction l with
    | nil =>
      intro acc acc' _ hacc
      cases hacc
      rfl
    | cons id l ih =>
      intro acc acc' hl hacc
      obtain ⟨middle, hmiddle, hacc⟩ := bind_ok hacc
      rw [ih middle acc' (fun id hid => hl id (List.mem_cons_of_mem _ hid)) hacc]
      exact hone acc id middle (hl id List.mem_cons_self) hmiddle
  have hnone := hfold ids ([], false) planned hids hplanned
  cases hplan
  rw [hnone]
  rfl

/-- No plain module is next to one that it replaces. -/
theorem plain_conflicted {model : Helper.HelperModel} (h : ∀ p ∈ model, p.2.replaces = "") :
    Helper.conflictedReplacementIds model = [] := by
  have hnone : ((model.map Prod.snd).filter fun node => node.replaces != "" && node.enabled &&
      (Dict.get node.replaces model).any fun target => target.enabled && target.category.replaceable) = [] := by
    rw [List.filter_eq_nil_iff]
    intro node hnode
    obtain ⟨p, hp, rfl⟩ := List.mem_map.1 hnode
    simp [h p hp]
  unfold Helper.conflictedReplacementIds
  rw [hnone]
  rfl

/-- A plain job that is applied switches the modules it lists and leaves the others. -/
theorem isEnabled_apply {worker : RootWorker} (hworker : worker.manifests.Plain) {job : QueuedJob} (hjob : job.Plain)
    {file file' : Helper.StateFile} (h : worker.apply job file = .ok file') (id : String) :
    isEnabled file' id = job.leaves id (isEnabled file id) := by
  unfold RootWorker.apply at h
  unfold QueuedJob.leaves
  cases haction : job.action with
  | enable =>
    simp only [haction] at h
    split at h
    · rename_i result written hwrite
      cases h
      obtain ⟨modules, modules', hcallback, hflags⟩ := isEnabled_mutate hwrite
      obtain ⟨done, hdone, heq⟩ : ∃ done, Helper.applyEnableJob worker.development worker.manifests job.affected job.disableModules
          job.replacementConfirmed modules = .ok done ∧ done.modules = modules' := by
        cases hjobs : Helper.applyEnableJob worker.development worker.manifests job.affected job.disableModules
            job.replacementConfirmed modules with
        | error e => simp [hjobs, Except.map] at hcallback
        | ok done =>
          simp only [hjobs, Except.map, Except.ok.injEq, Prod.mk.injEq] at hcallback
          exact ⟨done, rfl, hcallback.2⟩
      rw [hjob.disables] at hdone
      obtain ⟨model, hmodel, hdone⟩ := bind_ok hdone
      obtain ⟨disables, hdisables, hdone⟩ := bind_ok hdone
      obtain ⟨previous, _, hdone⟩ := bind_ok hdone
      obtain ⟨on, hon, hdone⟩ := bind_ok hdone
      obtain ⟨off, hoff, hdone⟩ := bind_ok hdone
      obtain ⟨after, hafter, hdone⟩ := bind_ok hdone
      obtain ⟨settled, hsettled, hdone⟩ := bind_ok hdone
      cases hdone
      obtain rfl := plain_planEnableDisables (plain_replacementModel hworker hmodel) hjob.ids hdisables
      rw [plain_conflicted (plain_replacementModel hworker hafter)] at hsettled
      cases hoff
      cases hsettled
      rw [(hflags id).1, (hflags id).2, ← heq, coreFlag_setFlags hon]
      simp
    · cases h
  | disable =>
    simp only [haction] at h
    split at h
    · rename_i result written hwrite
      cases h
      obtain ⟨modules, modules', hcallback, hflags⟩ := isEnabled_mutate hwrite
      obtain ⟨done, hdone, heq⟩ : ∃ done, Helper.applyDisableJob worker.manifests job.affected job.enableModules modules = .ok done ∧
          done.modules = modules' := by
        cases hjobs : Helper.applyDisableJob worker.manifests job.affected job.enableModules modules with
        | error e => simp [hjobs, Except.map] at hcallback
        | ok done =>
          simp only [hjobs, Except.map, Except.ok.injEq, Prod.mk.injEq] at hcallback
          exact ⟨done, rfl, hcallback.2⟩
      rw [hjob.enables] at hdone
      obtain ⟨enables, henables, hdone⟩ := bind_ok hdone
      cases henables
      obtain ⟨previous, _, hdone⟩ := bind_ok hdone
      obtain ⟨off, hoff, hdone⟩ := bind_ok hdone
      obtain ⟨on, hon, hdone⟩ := bind_ok hdone
      cases hdone
      cases hon
      rw [(hflags id).1, (hflags id).2, ← heq, coreFlag_setFlags hoff]
      simp
    · cases h
  | install => exact absurd haction hjob.action

end TecTac
