import TecTac.Lemmas.ModuleManager

/-!
# Dependencies stay enabled

A module is enabled only next to its dependencies, and disabled only with its dependants. Core checks this on the state file
as it is when the request comes, and the jobs in flight change it afterwards. The theorem says for which jobs in flight the
dependencies are enabled when all jobs are applied.
-/

namespace TecTac

open Raise

/-- No installed module replaces another. -/
def Site.Plain (site : Site) : Prop := ∀ m ∈ site.installed, m.replaces = ""

/-- Every enabled module has its dependencies installed and enabled, for the flags as they are given. -/
def DependenciesEnabled (site : Site) (flags : String → Bool) : Prop :=
  ∀ m ∈ site.installed, m.legacy = false → flags m.id = true →
    ∀ d ∈ m.dependencies, ∃ dep ∈ site.installed, dep.id = d.1 ∧ (dep.legacy = true ∨ flags dep.id = true)

/-- The flag of a module when the jobs in flight are applied, as `_model_with_pending_jobs` works it out. -/
def pendingEnabled (site : Site) (q : JobQueue) (id : String) : Bool :=
  (Dict.get id (modelWithPendingJobs (liveModel site q.file) q.pending)).any (·.enabled)

/-- The jobs in flight do not disturb a job: they switch off no dependency of a module that it enables, and they switch on no
module outside it that depends on a module that it disables. -/
def Undisturbed (site : Site) (q : JobQueue) (job : QueuedJob) : Prop :=
  ∀ m ∈ site.installed, m.legacy = false →
    match job.action with
    | .enable => m.id = job.pluginId → ∀ dep ∈ site.installed, dep.legacy = false → dep.id ≠ m.id →
        (Dict.get dep.id m.dependencies).isSome → isEnabled q.file dep.id = true → pendingEnabled site q dep.id = true
    | .disable => m.id ∉ job.affected → (∃ id ∈ job.affected, (Dict.get id m.dependencies).isSome) →
        pendingEnabled site q m.id = true → isEnabled q.file m.id = true
    | .install => True

namespace DependencyClosureAux

variable {site : Site} {file : Helper.StateFile}

/-! ## The live model -/

theorem plain_liveModel (h : site.Plain) : (liveModel site file).Plain := by
  intro p hp
  obtain ⟨m, hm, rfl⟩ := List.mem_map.1 hp
  exact h m (List.mem_filter.1 hm).1

/-- For an installed module, what `_model_with_pending_jobs` works out is its flag after the pending jobs. -/
theorem pendingEnabled_eq {q : JobQueue} (hpending : ∀ job ∈ q.pending, job.Plain) {m : Installed} (hm : m ∈ site.installed)
    (hlegacy : m.legacy = false) : pendingEnabled site q m.id = flagAfter q.pending m.id (isEnabled q.file m.id) := by
  simp [pendingEnabled, get_pending hpending, get_liveModel hm hlegacy]

/-- A module is installed once. -/
theorem eq_of_id {m m' : Installed} (hm : m ∈ site.installed) (hm' : m' ∈ site.installed) (h : m.id = m'.id) : m = m' :=
  List.inj_on_of_nodup_map site.nodup hm hm' h

/-! ## The catalogue -/

/-- A row that is found is that of an installed module. -/
theorem row_of_catalog {id : String} {row : CatalogRow}
    (h : catalogRow (site.installed.map (Installed.row file)) id = some row) :
    ∃ m ∈ site.installed, m.id = id ∧ row = m.row file := by
  have hmem := List.mem_of_find?_eq_some h
  have hid := List.find?_some h
  obtain ⟨m, hm, rfl⟩ := List.mem_map.1 hmem
  exact ⟨m, hm, of_decide_eq_true hid, rfl⟩

/-! ## An accepted enable -/

/-- A module that may be enabled has its dependencies installed and enabled. -/
theorem dependencies_of_enable {model : Model} (hmodel : model.Plain) {m : Installed} (hlegacy : m.legacy = false)
    (h : moduleEnableProblems site (site.installed.map (Installed.row file)) model (m.row file) false = .ok []) :
    ∀ d ∈ m.dependencies, ∃ dep ∈ site.installed, dep.id = d.1 ∧ (dep.legacy = true ∨ isEnabled file dep.id = true) := by
  obtain ⟨problems, hproblems, h⟩ := bind_ok h
  have hnone : problems.flatten = [] := by
    have hall := Except.ok.inj h
    simp only [List.append_eq_nil_iff] at hall
    exact hall.1.1
  intro d hd
  have hrow : (m.row file).dependencies = m.dependencies := by simp [Installed.row, hlegacy]
  rw [hrow] at hproblems
  have hfound := ok_nil_of_mapM hproblems hnone hd
  unfold dependencyProblems at hfound
  split at hfound
  · cases hfound
  · rename_i row hget
    obtain ⟨dep, hdep, hid, rfl⟩ := row_of_catalog hget
    obtain ⟨satisfied, _, hfound⟩ := bind_ok hfound
    have hlist := Except.ok.inj hfound
    have hflag : dependencyEnabled model false (dep.row file) = (dep.row file).enabled := by
      unfold dependencyEnabled
      split
      · rfl
      · rfl
    rw [plain_satisfiesDependency hmodel, hflag] at hlist
    have hon : (dep.row file).enabled = true := by
      by_contra hoff
      simp [hoff] at hlist
    refine ⟨dep, hdep, hid, ?_⟩
    simpa [Installed.row] using hon

/-- What an accepted enable queues, and what it found. -/
theorem enable_accepted {model : Model} (hmodel : model.Plain) {m : Installed} (hlegacy : m.legacy = false)
    {request : SetEnabled} {job : QueuedJob}
    (h : queueEnable site model (site.installed.map (Installed.row file)) (m.row file) request = .ok job) :
    job.Plain ∧ job.action = .enable ∧ job.pluginId = m.id ∧ job.affected = [m.id] ∧
      ∀ d ∈ m.dependencies, ∃ dep ∈ site.installed, dep.id = d.1 ∧ (dep.legacy = true ∨ isEnabled file dep.id = true) := by
  obtain ⟨_, _, h⟩ := bind_ok h
  obtain ⟨problems, hproblems, h⟩ := bind_ok h
  obtain ⟨_, _, h⟩ := bind_ok h
  obtain ⟨_, hnone, h⟩ := bind_ok h
  obtain ⟨disables, hdisables, h⟩ := bind_ok h
  obtain ⟨_, _, h⟩ := bind_ok h
  cases h
  have hdisables' : disables = [] := by
    have hid : (m.row file).id ≠ "" := m.id_ne
    simp only [plain_disablePlan hmodel site.development hid, confirmedDisables, sortedIds] at hdisables
    cases hdisables
    rfl
  have hproblems' := of_refuse hproblems
  rw [List.isEmpty_iff.1 (of_require hnone)] at hproblems'
  refine ⟨⟨nofun, hdisables', rfl, ?_⟩, rfl, rfl, rfl, dependencies_of_enable hmodel hlegacy hproblems'⟩
  intro id hid
  rw [List.mem_singleton.1 hid]
  exact m.id_ne

/-! ## An accepted disable -/

/-- An enabled module that depends on another is among its dependants. -/
theorem mem_enabledDependants {m : Installed} (hm : m ∈ site.installed) (hlegacy : m.legacy = false)
    (hon : isEnabled file m.id = true) {id : String} (hne : m.id ≠ id) (hdep : (Dict.get id m.dependencies).isSome) :
    m.id ∈ (enabledDependants site file (site.installed.map (Installed.row file)) id).map (·.id) := by
  obtain ⟨c, hc⟩ := Option.isSome_iff_exists.1 hdep
  have hcne : c ≠ "" := m.constraint_ne _ (Dict.mem_of_get hc)
  have hrow : m.row file ∈ (site.installed.map (Installed.row file)).filter fun row =>
      !row.legacy && isEnabled file row.id && row.id != id := by
    refine List.mem_filter.2 ⟨List.mem_map_of_mem hm, ?_⟩
    simp [Installed.row, hlegacy, hon, hne]
  have hdeps : (m.row file).dependencies = m.dependencies := by simp [Installed.row, hlegacy]
  unfold enabledDependants
  refine List.mem_map.2 ⟨⟨m.id, c, none⟩, List.mem_filterMap.2 ⟨m.row file, hrow, ?_⟩, rfl⟩
  have hwatched : ∀ replaced, watchedConstraint (m.row file) id replaced = some (c, none) := by
    intro replaced
    simp [watchedConstraint, hdeps, hc, Option.filter, hcne]
  rw [hwatched]
  rfl

/-- A dependant is an installed module. -/
theorem dependant_installed {id : String} {d : Dependant}
    (h : d ∈ enabledDependants site file (site.installed.map (Installed.row file)) id) :
    ∃ m ∈ site.installed, m.id = d.id := by
  obtain ⟨row, hrow, hsome⟩ := List.mem_filterMap.1 h
  obtain ⟨m, hm, rfl⟩ := List.mem_map.1 (List.mem_filter.1 hrow).1
  obtain ⟨found, _, rfl⟩ := Option.map_eq_some_iff.1 hsome
  exact ⟨m, hm, rfl⟩

/-- The modules that a disable lists: all of them installed, the module itself among them, and every dependant of each of them. -/
theorem affected_closed {dependantsOf : String → List String}
    (hinstalled : ∀ id, ∀ d ∈ dependantsOf id, ∃ m ∈ site.installed, m.id = d)
    {target : Installed} (htarget : target ∈ site.installed) {cascade : Bool}
    (hcascade : ((dependantsOf target.id).isEmpty || cascade) = true) {affected : List String}
    (haffected : affected = if cascade then
      ((DepthFirst.visit dependantsOf (site.installed.length + 1) target.id ⟨[], [target.id]⟩).finished.filter (· ≠ target.id)) ++ [target.id]
      else [target.id]) :
    target.id ∈ affected ∧ (∀ id ∈ affected, ∃ m ∈ site.installed, m.id = id) ∧
      ∀ id ∈ affected, ∀ d ∈ dependantsOf id, d ∈ affected := by
  cases cascade with
  | false =>
    rw [Bool.or_false, List.isEmpty_iff] at hcascade
    simp only [Bool.false_eq_true, if_false] at haffected
    subst haffected
    refine ⟨List.mem_singleton_self _, ?_, ?_⟩
    · intro id hid
      exact ⟨target, htarget, (List.mem_singleton.1 hid).symm⟩
    · intro id hid d hd
      rw [List.mem_singleton.1 hid, hcascade] at hd
      cases hd
  | true =>
    have hplaces : ∀ id, ∀ d ∈ dependantsOf id, d ∈ site.installed.map (·.id) := by
      intro id d hd
      obtain ⟨m, hm, rfl⟩ := hinstalled id d hd
      exact List.mem_map_of_mem hm
    have hfuel : DepthFirst.unseen (site.installed.map (·.id)) ⟨[], [target.id]⟩ < site.installed.length + 1 := by
      have hle := List.length_filter_le (fun y => decide (y ∉ ([] : List String))) (site.installed.map (·.id))
      rw [List.length_map] at hle
      exact Nat.lt_succ_of_le hle
    obtain ⟨hgrown, hnext⟩ := DepthFirst.visit_grown hplaces (site.installed.length + 1) target.id ⟨[], [target.id]⟩ hfuel
    simp only [if_true] at haffected
    generalize DepthFirst.visit dependantsOf (site.installed.length + 1) target.id ⟨[], [target.id]⟩ = walk at hgrown hnext haffected
    have hmem : ∀ id, id ∈ affected ↔ id = target.id ∨ id ∈ walk.seen := by
      intro id
      have hfinished := hgrown.finished id
      simp only [List.mem_singleton, List.not_mem_nil, not_false_eq_true, and_true] at hfinished
      rw [haffected, List.mem_append, List.mem_filter, hfinished, List.mem_singleton, decide_eq_true_eq]
      by_cases heq : id = target.id
      · simp [heq]
      · simp [heq]
    refine ⟨(hmem _).2 (Or.inl rfl), ?_, ?_⟩
    · intro id hid
      rcases (hmem id).1 hid with rfl | hseen
      · exact ⟨target, htarget, rfl⟩
      · obtain ⟨m, hm, heq⟩ := List.mem_map.1 (hgrown.inside id hseen List.not_mem_nil)
        exact ⟨m, hm, heq⟩
    · intro id hid d hd
      rcases (hmem id).1 hid with rfl | hseen
      · exact (hmem d).2 (Or.inr (hnext d hd))
      · exact (hmem d).2 (Or.inr (hgrown.closed id hseen List.not_mem_nil d hd))

/-- What an accepted disable queues, and what it found. -/
theorem disable_accepted {live : Model} (hlive : live.Plain) {target : Installed} (htarget : target ∈ site.installed)
    {request : SetEnabled} {job : QueuedJob}
    (h : queueDisable site file live (site.installed.map (Installed.row file)) (target.row file) request = .ok job) :
    job.Plain ∧ job.action = .disable ∧
      ∀ m ∈ site.installed, m.legacy = false → isEnabled file m.id = true → m.id ∉ job.affected →
        ∀ id ∈ job.affected, Dict.get id m.dependencies = none := by
  obtain ⟨comingBack, hback, h⟩ := bind_ok h
  rw [plain_handBackPlan hlive] at hback
  cases hback
  obtain ⟨_, hcascade, h⟩ := bind_ok h
  have hcascade := of_require hcascade
  obtain ⟨split, hsplit, h⟩ := bind_ok h
  rw [plain_handBackWanted hlive] at hsplit
  cases hsplit
  obtain ⟨_, _, h⟩ := bind_ok h
  simp only [List.isEmpty_nil, Bool.not_true, Bool.false_and, Bool.not_false, List.filter_true, List.length_map] at hcascade h
  have hinstalled : ∀ id, ∀ d ∈ (enabledDependants site file (site.installed.map (Installed.row file)) id).map (·.id),
      ∃ m ∈ site.installed, m.id = d := by
    intro id d hd
    obtain ⟨dependant, hdependant, rfl⟩ := List.mem_map.1 hd
    exact dependant_installed hdependant
  have hfields : job.action = .disable ∧ job.disableModules = [] ∧ job.enableModules = [] ∧
      job.affectedModules = if request.cascade then
        ((DepthFirst.visit (fun id => (enabledDependants site file (site.installed.map (Installed.row file)) id).map (·.id))
          (site.installed.length + 1) target.id ⟨[], [target.id]⟩).finished.filter (· ≠ target.id)) ++ [target.id]
        else [target.id] := by
    cases h
    exact ⟨rfl, rfl, rfl, rfl⟩
  obtain ⟨haction, hdisables, henables, haffected⟩ := hfields
  obtain ⟨hself, hids, hclosed⟩ := affected_closed hinstalled htarget hcascade haffected
  have hsame : job.affected = job.affectedModules := by
    unfold QueuedJob.affected
    rw [if_neg]
    intro hempty
    rw [List.isEmpty_iff.1 hempty] at hself
    cases hself
  rw [← hsame] at hids hclosed
  refine ⟨⟨by simp [haction], hdisables, henables, ?_⟩, haction, ?_⟩
  · intro id hid
    obtain ⟨m, _, rfl⟩ := hids id hid
    exact m.id_ne
  · intro m hm hlegacy hon hout id hid
    by_contra hdep
    have hne : m.id ≠ id := fun heq => hout (heq ▸ hid)
    have hmem := mem_enabledDependants hm hlegacy hon hne (Option.isSome_iff_ne_none.2 hdep)
    exact hout (hclosed id hid m.id hmem)

/-! ## The run -/

/-- The dependencies are enabled when the jobs in flight are applied, and these jobs switch what they list. -/
structure Settled (site : Site) (q : JobQueue) : Prop where
  plain : ∀ job ∈ q.pending, job.Plain
  enabled : DependenciesEnabled site fun id => flagAfter q.pending id (isEnabled q.file id)

/-- One more job that switches what it lists. -/
theorem plain_accept {q : JobQueue} (hq : Settled site q) {added : QueuedJob} (hadded : added.Plain) :
    ∀ job ∈ q.pending ++ [added], job.Plain := by
  intro job hjob
  rcases List.mem_append.1 hjob with hjob | hjob
  · exact hq.plain job hjob
  · exact List.mem_singleton.1 hjob ▸ hadded

/-- A dependency is found under its own id. -/
theorem get_dependency {m dep : Installed} {d : String × String} (hd : d ∈ m.dependencies) (hid : dep.id = d.1) :
    (Dict.get dep.id m.dependencies).isSome := by
  rw [hid]
  exact Dict.get_isSome_of_mem hd

/-- An enable that is not disturbed leaves the dependencies enabled: those of the module it enables were found enabled, and the
jobs in flight leave them so. -/
theorem enabled_after_enable {q : JobQueue} (hq : Settled site q) {job : QueuedJob} {target : Installed} (htarget : target ∈ site.installed)
    (haction : job.action = .enable) (hplugin : job.pluginId = target.id) (haffected : job.affected = [target.id])
    (hdeps : ∀ d ∈ target.dependencies, ∃ dep ∈ site.installed, dep.id = d.1 ∧ (dep.legacy = true ∨ isEnabled q.file dep.id = true))
    (hcalm : Undisturbed site q job) :
    DependenciesEnabled site fun id => flagAfter (q.pending ++ [job]) id (isEnabled q.file id) := by
  intro m hm hlegacy hon d hd
  simp only [flagAfter_append, QueuedJob.leaves, haffected, List.mem_singleton, haction, decide_true] at hon ⊢
  by_cases hself : m.id = target.id
  · obtain rfl := eq_of_id hm htarget hself
    obtain ⟨dep, hdep, hid, hflag⟩ := hdeps d hd
    refine ⟨dep, hdep, hid, ?_⟩
    cases hdlegacy : dep.legacy with
    | true => exact Or.inl rfl
    | false =>
      right
      split
      · rfl
      · rename_i hne
        have hnow : isEnabled q.file dep.id = true := hflag.resolve_left (by rw [hdlegacy]; nofun)
        have hstays := hcalm m hm hlegacy
        simp only [haction] at hstays
        have hpending := hstays hplugin.symm dep hdep hdlegacy hne (get_dependency hd hid) hnow
        rw [pendingEnabled_eq hq.plain hdep hdlegacy] at hpending
        exact hpending
  · rw [if_neg hself] at hon
    obtain ⟨dep, hdep, hid, hflag⟩ := hq.enabled m hm hlegacy hon d hd
    refine ⟨dep, hdep, hid, ?_⟩
    rcases hflag with hflag | hflag
    · exact Or.inl hflag
    · right
      split
      · rfl
      · exact hflag

/-- A disable that is not disturbed leaves the dependencies enabled: no module that is enabled when the jobs in flight are applied
depends on a module it disables. -/
theorem enabled_after_disable {q : JobQueue} (hq : Settled site q) {job : QueuedJob} (haction : job.action = .disable)
    (hnone : ∀ m ∈ site.installed, m.legacy = false → isEnabled q.file m.id = true → m.id ∉ job.affected →
      ∀ id ∈ job.affected, Dict.get id m.dependencies = none)
    (hcalm : Undisturbed site q job) :
    DependenciesEnabled site fun id => flagAfter (q.pending ++ [job]) id (isEnabled q.file id) := by
  intro m hm hlegacy hon d hd
  simp only [flagAfter_append, QueuedJob.leaves, haction, reduceCtorEq, decide_false] at hon ⊢
  by_cases hout : m.id ∈ job.affected
  · rw [if_pos hout] at hon
    cases hon
  · rw [if_neg hout] at hon
    obtain ⟨dep, hdep, hid, hflag⟩ := hq.enabled m hm hlegacy hon d hd
    refine ⟨dep, hdep, hid, ?_⟩
    rcases hflag with hflag | hflag
    · exact Or.inl hflag
    · right
      have hkept : dep.id ∉ job.affected := by
        intro hin
        have hsome := get_dependency hd hid
        have hstays := hcalm m hm hlegacy
        simp only [haction] at hstays
        have hnow := hstays hout ⟨dep.id, hin, hsome⟩ (by rw [pendingEnabled_eq hq.plain hm hlegacy]; exact hon)
        rw [hnone m hm hlegacy hnow hout dep.id hin] at hsome
        cases hsome
      rw [if_neg hkept]
      exact hflag

/-- An accepted request: a plain job for an installed module, found fit by the checks of its kind. -/
theorem settled_accept (hsite : site.Plain) {q : JobQueue} (hq : Settled site q) {request : SetEnabled} {job : QueuedJob}
    (h : queueSetEnabled site q.file q.pending request = .ok job) (hcalm : Undisturbed site q job) :
    Settled site { q with pending := q.pending ++ [job] } := by
  obtain ⟨catalog, hcatalog, h⟩ := bind_ok h
  obtain rfl := catalog_eq (of_refuse hcatalog)
  split at h
  · cases h
  · rename_i row hrow
    obtain ⟨target, htarget, _, rfl⟩ := row_of_catalog hrow
    obtain ⟨_, hmanaged, h⟩ := bind_ok h
    have hlegacy : target.legacy = false := by
      have hboth := of_require hmanaged
      simp only [Installed.row, Bool.and_eq_true, Bool.not_eq_true'] at hboth
      exact hboth.2
    have hmodel : (modelWithPendingJobs (liveModel site q.file) q.pending).Plain :=
      plain_pending (plain_liveModel hsite) q.pending
    dsimp only at h
    split at h
    · obtain ⟨hjob, haction, hplugin, haffected, hdeps⟩ := enable_accepted hmodel hlegacy h
      exact ⟨plain_accept hq hjob, enabled_after_enable hq htarget haction hplugin haffected hdeps hcalm⟩
    · obtain ⟨hjob, haction, hnone⟩ := disable_accepted hmodel htarget h
      exact ⟨plain_accept hq hjob, enabled_after_disable hq haction hnone hcalm⟩

/-- Applying the oldest job changes nothing of what the jobs in flight come to. -/
theorem settled_apply {worker : RootWorker} (hworker : worker.manifests.Plain) {file file' : Helper.StateFile} {job : QueuedJob}
    {pending : List QueuedJob} (hq : Settled site ⟨file, job :: pending⟩) (h : worker.apply job file = .ok file') :
    Settled site ⟨file', pending⟩ := by
  have hjob := hq.plain job List.mem_cons_self
  refine ⟨fun job hjob => hq.plain job (List.mem_cons_of_mem _ hjob), ?_⟩
  have hflags : (fun id => flagAfter pending id (isEnabled file' id)) = fun id => flagAfter (job :: pending) id (isEnabled file id) := by
    funext id
    rw [isEnabled_apply hworker hjob h]
    rfl
  rw [hflags]
  exact hq.enabled

end DependencyClosureAux

open DependencyClosureAux in
/-- In every run from a state in which every enabled module has its dependencies enabled, whose accepted requests are not
disturbed by the jobs in flight, every enabled module has its dependencies enabled again when all jobs are applied. -/
theorem dependencies_enabled_after_jobs (site : Site) (worker : RootWorker) (hsite : site.Plain) (hworker : worker.manifests.Plain)
    (file : Helper.StateFile) (hstart : DependenciesEnabled site (isEnabled file)) (q : JobQueue)
    (hrun : QueueRun site worker (Undisturbed site) ⟨file, []⟩ q) (hdone : q.pending = []) :
    DependenciesEnabled site (isEnabled q.file) := by
  have hsettled : Settled site q := by
    clear hdone
    induction hrun with
    | start => exact ⟨fun job hjob => (by cases hjob), hstart⟩
    | step hrun hstep hqueued ih =>
      cases hstep with
      | accept q request job h => exact settled_accept hsite ih h (hqueued job rfl)
      | apply file file' job pending h => exact settled_apply hworker ih h
  have henabled := hsettled.enabled
  rw [hdone] at henabled
  exact henabled

/-! ## Two modules -/

/-- A module, and one that depends on it. -/
def reportSite : Site where
  development := false
  versionSatisfies := fun _ _ => .ok true
  installed := [{ id := "base", id_ne := base_named, constraint_ne := no_constraints }, { id := "report", dependencies := [("base", "*")] }]
  nodup := by decide

/-- The state of the two modules. -/
def reportState (base report : Bool) : Helper.StateFile :=
  .json (.obj [("schema", .num 1),
    ("modules", .obj [("report", .obj [("enabled", .bool report)]), ("base", .obj [("enabled", .bool base)])])])

/-- The worker reads the manifests of the two modules. -/
def reportWorker : RootWorker where
  urlsplit := fun _ => none
  development := false
  manifests := [("base", ⟨"base", .unset, "", none⟩), ("report", ⟨"report", .unset, "", none⟩)]

/-- The job that enables the dependent module. -/
def enableReport : QueuedJob := ⟨.enable, "report", false, ["report"], [], [], false, []⟩

/-- The job that disables the other. -/
def disableBase : QueuedJob := ⟨.disable, "base", false, ["base"], [], [], false, []⟩

theorem reportSite_plain : reportSite.Plain := by
  intro m hm
  simp only [reportSite, List.mem_cons, List.not_mem_nil, or_false] at hm
  rcases hm with rfl | rfl
  · rfl
  · rfl

theorem reportWorker_plain : reportWorker.manifests.Plain := by
  intro p hp
  simp only [reportWorker, List.mem_cons, List.not_mem_nil, or_false] at hp
  rcases hp with rfl | rfl
  · rfl
  · rfl

theorem reportSite_enabled {flags : String → Bool} (h : flags "report" = true → flags "base" = true) :
    DependenciesEnabled reportSite flags := by
  intro m hm _ hon d hd
  simp only [reportSite, List.mem_cons, List.not_mem_nil, or_false] at hm
  rcases hm with rfl | rfl
  · cases hd
  · rw [List.mem_singleton.1 hd]
    exact ⟨{ id := "base" }, by simp [reportSite], rfl, Or.inr (h hon)⟩

/-- The dependent module is enabled while no other job is in flight. -/
theorem dependencies_enabled_after_enable :
    QueueRun reportSite reportWorker (Undisturbed reportSite) ⟨reportState true false, []⟩ ⟨reportState true true, []⟩ ∧
      DependenciesEnabled reportSite (isEnabled (reportState true true)) := by
  have hrun : QueueRun reportSite reportWorker (Undisturbed reportSite) ⟨reportState true false, []⟩ ⟨reportState true true, []⟩ := by
    have haccept : queueSetEnabled reportSite (reportState true false) [] { moduleId := "report", enabled := true } =
        .ok enableReport := rfl
    have happly : reportWorker.apply enableReport (reportState true false) = .ok (reportState true true) := rfl
    refine .step (.step .start (.accept _ _ _ haccept) ?_) (.apply _ _ _ _ happly) (fun job hjob => by cases hjob)
    intro job hjob
    cases hjob
    intro m _ _ _ dep hdep _ hne _ hon
    simp only [reportSite, List.mem_cons, List.not_mem_nil, or_false] at hdep
    rcases hdep with rfl | rfl
    · rfl
    · cases hon
  exact ⟨hrun, dependencies_enabled_after_jobs reportSite reportWorker reportSite_plain reportWorker_plain (reportState true false)
    (reportSite_enabled (by decide)) _ hrun rfl⟩

/-- The other module is disabled while the job that enables its dependant is in flight: the dependant ends up enabled alone. -/
theorem disable_overtakes_enable :
    DependenciesEnabled reportSite (isEnabled (reportState true false)) ∧
      QueueRun reportSite reportWorker (fun _ _ => True) ⟨reportState true false, []⟩ ⟨reportState false true, []⟩ ∧
      ¬ DependenciesEnabled reportSite (isEnabled (reportState false true)) := by
  refine ⟨reportSite_enabled (by decide), ?_, ?_⟩
  · have henable : queueSetEnabled reportSite (reportState true false) [] { moduleId := "report", enabled := true } =
        .ok enableReport := rfl
    have hdisable : queueSetEnabled reportSite (reportState true false) [enableReport] { moduleId := "base", enabled := false } =
        .ok disableBase := rfl
    have hfirst : reportWorker.apply enableReport (reportState true false) = .ok (reportState true true) := rfl
    have hsecond : reportWorker.apply disableBase (reportState true true) = .ok (reportState false true) := rfl
    exact .step (.step (.step (.step .start (.accept _ _ _ henable) (fun _ _ => trivial))
      (.accept _ _ _ hdisable) (fun _ _ => trivial)) (.apply _ _ _ _ hfirst) nofun) (.apply _ _ _ _ hsecond) nofun
  · intro henabled
    obtain ⟨dep, hdep, hid, hflag⟩ := henabled { id := "report", dependencies := [("base", "*")] }
      (by simp [reportSite]) rfl (by decide) ("base", "*") (by simp)
    simp only [reportSite, List.mem_cons, List.not_mem_nil, or_false] at hdep
    rcases hdep with rfl | rfl
    · exact absurd hflag (by decide)
    · exact absurd hid (by decide)

end TecTac
