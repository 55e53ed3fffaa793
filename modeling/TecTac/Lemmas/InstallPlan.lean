import TecTac.InstallPlan
import TecTac.Lemmas.ModuleManager

/-!
# What a valid plan was found from

The parts of `resolve_install_plan`: which candidates are renames, the catalogue after the install, the model after the
install, and the order. A plan that is valid has none of the problems, and each part says what that means.
-/

namespace TecTac

open Raise

/-! ## The installed modules of a plan -/

/-- The ids of the installed modules that a plan looks at. -/
def siteIds (site : Site) : List String := (site.installed.filter fun m => !m.legacy).map (·.id)

/-- The rows that a plan reads of the installed modules. -/
def siteRows (site : Site) (file : Helper.StateFile) : PlanRows := planRows (site.installed.map (Installed.row file))

theorem siteIds_nodup (site : Site) : (siteIds site).Nodup := (List.filter_sublist.map _).nodup site.nodup

/-- The rows, module by module. -/
theorem siteRows_eq (site : Site) (file : Helper.StateFile) :
    siteRows site file = (site.installed.filter fun m => !m.legacy).map fun m =>
      (m.id, ⟨m.id, m.extensionVersion, isEnabled file m.id, m.dependencies⟩) := by
  unfold siteRows planRows
  rw [List.filter_map, List.map_map]
  refine List.map_congr_left fun m hm => ?_
  have hlegacy : m.legacy = false := by
    have hrow := (List.mem_filter.1 hm).2
    simpa [Installed.row] using hrow
  simp [Installed.row, hlegacy]

@[simp] theorem siteRows_keys (site : Site) (file : Helper.StateFile) : (siteRows site file).map Prod.fst = siteIds site := by
  rw [siteRows_eq, List.map_map]
  rfl

/-! ## Renames -/

/-- The installed module that a candidate is the new name of. -/
def renamedFrom (site : Site) (c : Candidate) :
    Option String := c.migration.previousModuleIds.find? fun id => decide (id ∈ siteIds site)

theorem renamedFrom_of_ok {site : Site} {c : Candidate} {source : Option String}
    (h : installedRenameSource (siteIds site) c = .ok source) : source = renamedFrom site c := by
  unfold installedRenameSource at h
  dsimp only at h
  split at h
  · cases h
  · rw [← Except.ok.inj h, List.head?_filter]
    rfl

/-- The module that is renamed was installed. -/
theorem mem_of_renamedFrom {site : Site} {c : Candidate} {old : String} (h : renamedFrom site c = some old) :
    old ∈ siteIds site := by
  have hfound := List.find?_some h
  exact of_decide_eq_true hfound

/-- No candidate takes the place of an installed module while its own id is installed. -/
def FreshNames (site : Site) (candidates : List Candidate) : Prop :=
  ∀ c ∈ candidates, ∀ old, renamedFrom site c = some old → c.id ∉ siteIds site

/-- Over the candidates, from any problems and renames found before. -/
theorem renameSources_loop {site : Site} {sources : List (String × String)} :
    ∀ (cs : List Candidate) (acc : List PlanProblem × List (String × String)),
      (cs.foldlM (fun acc c => do
        match ← installedRenameSource (siteIds site) c with
        | none => return acc
        | some old =>
          if c.id ∈ siteIds site then return (acc.1 ++ [PlanProblem.renameDestinationExists c.id old], acc.2)
          else return (acc.1, acc.2 ++ [(c.id, old)])) acc) = (.ok ([], sources) : Except String _) →
      acc.1 = [] ∧ FreshNames site cs ∧ sources = acc.2 ++ cs.filterMap fun c => (renamedFrom site c).map fun old => (c.id, old) := by
  intro cs
  induction cs with
  | nil =>
    intro acc hacc
    cases hacc
    exact ⟨rfl, fun c hc => (by cases hc), by simp⟩
  | cons c cs ih =>
    intro acc hacc
    rw [List.foldlM_cons] at hacc
    obtain ⟨acc', hstep, hacc⟩ := bind_ok hacc
    obtain ⟨source, hsource, hstep⟩ := bind_ok hstep
    obtain ⟨hproblems, hfresh, hsources⟩ := ih acc' hacc
    have hfrom := renamedFrom_of_ok hsource
    cases hcase : renamedFrom site c with
    | none =>
      rw [hfrom, hcase] at hstep
      cases hstep
      refine ⟨hproblems, ?_, by simpa [hcase] using hsources⟩
      intro c' hc' old hold
      rcases List.mem_cons.1 hc' with rfl | hmem
      · rw [hcase] at hold
        cases hold
      · exact hfresh c' hmem old hold
    | some old =>
      rw [hfrom, hcase] at hstep
      dsimp only at hstep
      split at hstep
      · cases hstep
        simp at hproblems
      · rename_i hnot
        cases hstep
        refine ⟨hproblems, ?_, by simpa [hcase] using hsources⟩
        intro c' hc' old' hold
        rcases List.mem_cons.1 hc' with rfl | hmem
        · exact hnot
        · exact hfresh c' hmem old' hold

/-- When there is no destination that exists, the renames are those of the candidates that have one. -/
theorem renameSources_ok {site : Site} {candidates : List Candidate} {sources : List (String × String)}
    (h : renameSources (siteIds site) candidates = .ok ([], sources)) :
    FreshNames site candidates ∧ sources = candidates.filterMap fun c => (renamedFrom site c).map fun old => (c.id, old) := by
  obtain ⟨_, hfresh, hsources⟩ := renameSources_loop candidates ([], []) h
  exact ⟨hfresh, by simpa using hsources⟩

/-- The rename of a candidate, as the plan looks it up. -/
theorem get_sources (site : Site) {candidates : List Candidate} (hnodup : (candidates.map (·.id)).Nodup) {c : Candidate}
    (hc : c ∈ candidates) :
    Dict.get c.id (candidates.filterMap fun c => (renamedFrom site c).map fun old => (c.id, old)) = renamedFrom site c := by
  induction candidates with
  | nil => cases hc
  | cons first rest ih =>
    rw [List.map_cons, List.nodup_cons] at hnodup
    rcases List.mem_cons.1 hc with rfl | hmem
    · cases hcase : renamedFrom site c with
      | some old => simp [hcase, Dict.get_cons]
      | none =>
        rw [List.filterMap_cons_none (by simp [hcase])]
        cases hget : Dict.get c.id (rest.filterMap fun c => (renamedFrom site c).map fun old => (c.id, old)) with
        | none => rfl
        | some old =>
          obtain ⟨c', hc', heq⟩ := List.mem_filterMap.1 (Dict.mem_of_get hget)
          obtain ⟨_, _, hpair⟩ := Option.map_eq_some_iff.1 heq
          have hid : c'.id = c.id := congrArg Prod.fst hpair
          exact absurd (hid ▸ List.mem_map_of_mem hc') hnodup.1
    · have hne : first.id ≠ c.id := fun heq => hnodup.1 (heq ▸ List.mem_map_of_mem hmem)
      rw [← ih hnodup.2 hmem]
      cases hcase : renamedFrom site first with
      | none => rw [List.filterMap_cons_none (by simp [hcase])]
      | some old =>
        rw [List.filterMap_cons_some (by simp [hcase]; rfl), Dict.get_cons, if_neg hne]

/-! ## The catalogue after the install -/

/-- The row of a candidate in the catalogue after the install: every candidate counts as enabled. -/
def Candidate.row (c : Candidate) : PlanRow := ⟨c.id, c.extensionVersion, true, c.dependencies⟩

/-- What a candidate does to the catalogue. -/
def Candidate.rowMove (site : Site) (c : Candidate) : Dict.Move String PlanRow := ⟨c.id, c.row, renamedFrom site c⟩

/-- The catalogue after the install. -/
def planFuture (site : Site) (file : Helper.StateFile) (candidates : List Candidate) : PlanRows :=
  (candidates.map (Candidate.rowMove site)).foldl Dict.move (siteRows site file)

theorem futureCatalog_eq {site : Site} {file : Helper.StateFile} {candidates : List Candidate} {future : PlanRows}
    (hfresh : FreshNames site candidates) (h : futureCatalog (siteRows site file) candidates = .ok future) :
    future = planFuture site file candidates := by
  unfold futureCatalog at h
  rw [siteRows_keys] at h
  unfold planFuture
  generalize siteRows site file = current at h ⊢
  induction candidates generalizing current with
  | nil => exact (Except.ok.inj h).symm
  | cons c cs ih =>
    rw [List.foldlM_cons] at h
    obtain ⟨current', hstep, h⟩ := bind_ok h
    obtain ⟨source, hsource, hstep⟩ := bind_ok hstep
    have hfrom := renamedFrom_of_ok hsource
    have hmove : current' = Dict.move current (c.rowMove site) := by
      unfold Dict.move Candidate.rowMove
      cases hcase : renamedFrom site c with
      | none =>
        rw [hfrom, hcase] at hstep
        exact (Except.ok.inj hstep).symm
      | some old =>
        rw [hfrom, hcase] at hstep
        dsimp only at hstep
        rw [if_neg (hfresh c List.mem_cons_self old hcase)] at hstep
        exact (Except.ok.inj hstep).symm
    rw [List.map_cons, List.foldl_cons, ← hmove]
    exact ih (fun c' hc' => hfresh c' (List.mem_cons_of_mem _ hc')) current' h

/-- A row of the catalogue after the install is that of a candidate, or that of an installed module which is no candidate and is
not renamed. -/
theorem future_cases {site : Site} {file : Helper.StateFile} {candidates : List Candidate} {id : String} {row : PlanRow}
    (h : Dict.get id (planFuture site file candidates) = some row) :
    (∃ c ∈ candidates, c.id = id ∧ row = c.row) ∨
      (Dict.get id (siteRows site file) = some row ∧ ∀ c ∈ candidates, c.id ≠ id ∧ renamedFrom site c ≠ some id) := by
  rcases Dict.get_moves_cases h with ⟨m, hm, hkey, hvalue⟩ | ⟨hget, huntouched⟩
  · obtain ⟨c, hc, rfl⟩ := List.mem_map.1 hm
    exact Or.inl ⟨c, hc, hkey, hvalue.symm⟩
  · exact Or.inr ⟨hget, fun c hc => huntouched _ (List.mem_map_of_mem hc)⟩

/-! ## The model after the install -/

/-- The node of a candidate. -/
def Candidate.node (c : Candidate) (enabled : Bool) : Node := ⟨c.id, c.category, enabled, c.replaces, c.capabilities⟩

/-- The flag of a module that may be installed; one that is not counts as enabled. -/
def flagOr (was : Option Node) : Bool := (was.map (·.enabled)).getD true

/-- The node of a module once the candidates are merged in. -/
theorem get_replacementInstallModel {candidates : List Candidate} (hnodup : (candidates.map (·.id)).Nodup) (model : Model)
    (id : String) :
    Dict.get id (replacementInstallModel model candidates) =
      match candidates.find? (·.id = id) with
      | some c => some (c.node (flagOr (Dict.get id model)))
      | none => Dict.get id model := by
  induction candidates generalizing model with
  | nil => rfl
  | cons c cs ih =>
    rw [List.map_cons, List.nodup_cons] at hnodup
    have hmerge : replacementInstallModel model (c :: cs) =
        replacementInstallModel (Dict.set c.id (c.node (flagOr (Dict.get c.id model))) model) cs := by
      unfold replacementInstallModel
      rw [List.foldl_cons]
      cases Dict.get c.id model <;> rfl
    rw [hmerge, ih hnodup.2]
    by_cases hid : c.id = id
    · have hrest : cs.find? (·.id = id) = none := by
        rw [List.find?_eq_none]
        intro c' hc' heq
        have heq : c'.id = id := of_decide_eq_true heq
        exact hnodup.1 (hid ▸ heq ▸ List.mem_map_of_mem hc')
      rw [hrest, List.find?_cons_of_pos (by simp [hid])]
      simp [hid]
    · rw [List.find?_cons_of_neg (by simp [hid]), Dict.get_set_of_ne hid]

/-- A check with no reason: the replacement is enabled, or taken as enabled, and may replace a module; that module is installed,
off, of a category that can be replaced and declares its capabilities, which are covered; and no other module competes. -/
theorem check_none_iff {development assumeEnabled : Bool} {model : Model} {id : String} :
    (check development model id assumeEnabled).1 = none ↔
      ∃ node target, Dict.get id model = some node ∧ node.replaces ≠ "" ∧ (node.enabled = true ∨ assumeEnabled = true) ∧
        replacementCategoryOk development node.category = true ∧ Dict.get node.replaces model = some target ∧
        target.category.replaceable = true ∧ target.enabled = false ∧ model.competing id node.replaces = false ∧
        target.capabilities.isNone = false ∧ (parity target node).1 = none := by
  constructor
  · intro h
    unfold check at h
    split at h
    · cases h
    · rename_i node hnode
      split at h
      · cases h
      · rename_i hreplaces
        split at h
        · cases h
        · rename_i hon
          split at h
          · cases h
          · rename_i hcategory
            split at h
            · cases h
            · rename_i target htarget
              refine ⟨node, target, hnode, hreplaces, by simpa [or_iff_not_imp_left] using hon, by simpa using hcategory, htarget, ?_⟩
              grind -ring -linarith
  · rintro ⟨node, target, hnode, hreplaces, hon, hcategory, htarget, hreplaceable, hoff, hcompeting, hdeclared, hparity⟩
    have hstays : (!node.enabled && !assumeEnabled) = false := by
      rcases hon with hon | hassume
      · simp [hon]
      · simp [hassume]
    simp [check, hnode, hreplaces, hstays, hcategory, htarget, hreplaceable, hoff, hcompeting, hdeclared, hparity]

/-- A replacement that would be honoured in one model is honoured in another, when it is the same module there and enabled, the
module it replaces is the same, and no rival is new. -/
theorem check_of_agree {development : Bool} {model model' : Model} {id : String} {node : Node}
    (h : (check development model id true).1 = none) (hnode : Dict.get id model = some node) (hnode' : Dict.get id model' = some node)
    (hon : node.enabled = true) (htarget : Dict.get node.replaces model' = Dict.get node.replaces model)
    (hrival : model'.competing id node.replaces = true → model.competing id node.replaces = true) :
    (check development model' id).1 = none := by
  obtain ⟨found, target, hfound, hne, _, hcategory, hget, hreplaceable, hoff, hcompeting, hdeclared, hparity⟩ := check_none_iff.1 h
  obtain rfl : found = node := Option.some.inj (hfound.symm.trans hnode)
  refine check_none_iff.2
    ⟨found, target, hnode', hne, Or.inl hon, hcategory, htarget.trans hget, hreplaceable, hoff, ?_, hdeclared, hparity⟩
  by_contra hnew
  rw [hrival (by simpa using hnew)] at hcompeting
  cases hcompeting

/-- An honoured replacement satisfies the dependency. -/
theorem satisfiesDependency_of_check {development : Bool} {model : Model} {id dep : String} {node : Node}
    (hnode : Dict.get id model = some node) (hid : node.id = id) (hreplaces : node.replaces = dep) (hon : node.enabled = true)
    (h : (check development model id).1 = none) : (satisfiesDependency development model dep).isSome = true := by
  unfold satisfiesDependency
  rw [Option.isSome_map, List.find?_isSome]
  refine ⟨node, ?_, by simp [hreplaces, hon, hid, h]⟩
  exact (List.mem_insertionSort _).2 (List.mem_map_of_mem (Dict.mem_of_get hnode))

/-- What a candidate disables: the one module it replaces, which is installed, enabled, of a category that can be replaced and no
candidate itself. The candidate is fresh, and honoured once that module is off. -/
theorem of_mem_installDisables {development : Bool} {model : Model} {candidates installed : List String}
    {p : String × List String}
    (h : p ∈ installDisables development model candidates installed) :
    p.1 ∈ candidates ∧ p.1 ∉ installed ∧
      ∃ node target, Dict.get p.1 model = some node ∧ node.replaces ≠ "" ∧ Dict.get node.replaces model = some target ∧
        target.category.replaceable = true ∧ target.id ∉ candidates ∧ p.2 = [target.id] ∧
        (check development (withEnabled model [(target.id, false)]) p.1 true).1 = none := by
  obtain ⟨id, hid, hp⟩ := List.mem_filterMap.1 h
  rw [sortedIds, List.mem_insertionSort, List.mem_filter, List.mem_dedup, decide_eq_true_eq] at hid
  split at hp
  · cases hp
  · rename_i node hnode
    split at hp
    · cases hp
    · rename_i hreplaces
      dsimp only at hp
      split at hp
      · rename_i hplan
        have hp := (Option.some.inj hp).symm
        subst hp
        unfold hypothetical at hplan ⊢
        cases htarget : Dict.get node.replaces model with
        | none => simp [htarget] at hplan
        | some target =>
          rw [htarget] at hplan
          dsimp only at hplan ⊢
          split at hplan
          · simp at hplan
          · rename_i hopen
            rw [if_neg hopen]
            simp only [Bool.not_true, Bool.false_or, Bool.or_eq_true, Bool.not_eq_true', decide_eq_true_eq, not_or,
              Bool.not_eq_false] at hopen
            simp only [List.isEmpty_cons, Bool.not_false, Bool.true_and, Option.isNone_iff_eq_none] at hplan
            exact ⟨hid.1, hid.2, node, target, hnode, hreplaces, htarget, hopen.1.1, hopen.2, rfl, hplan⟩
      · cases hp

/-! ## The order -/

/-- One turn of the loop: it is done, or it takes some of the packages that are left and goes on with the others. -/
theorem orderLoop_turn {fuel : Nat} {remaining : List (String × List String)} {taken order : List String}
    (h : orderLoop (fuel + 1) remaining taken = (order, none)) :
    (remaining = [] ∧ order = taken) ∨
      ∃ ready rest, orderLoop fuel rest (taken ++ ready) = (order, none) ∧
        (∀ id, id ∈ remaining.map Prod.fst ↔ id ∈ ready ∨ id ∈ rest.map Prod.fst) ∧
        ((remaining.map Prod.fst).Nodup → (ready ++ rest.map Prod.fst).Nodup) := by
  unfold orderLoop at h
  split at h
  · rename_i hempty
    cases h
    exact Or.inl ⟨List.isEmpty_iff.1 hempty, rfl⟩
  · dsimp only at h
    split at h
    · cases h
    · refine Or.inr ⟨_, _, h, ?_⟩
      have hsub : List.Sublist ((remaining.filter fun p => p.2.isEmpty).map Prod.fst) (remaining.map Prod.fst) :=
        List.filter_sublist.map Prod.fst
      generalize (remaining.filter fun p => p.2.isEmpty).map Prod.fst = ready at hsub ⊢
      have hrest : ((remaining.filter fun p => decide (p.1 ∉ ready)).map fun p => (p.1, p.2.filter fun id => decide (id ∉ ready))).map
          Prod.fst = (remaining.map Prod.fst).filter fun id => decide (id ∉ ready) := by
        rw [List.map_map, List.filter_map]
        rfl
      rw [hrest]
      constructor
      · intro id
        by_cases hready : id ∈ ready
        · simp [hready, hsub.subset hready]
        · simp [hready]
      · intro hnodup
        refine List.nodup_append.2 ⟨hsub.nodup hnodup, hnodup.filter _, ?_⟩
        intro x hx y hy heq
        exact of_decide_eq_true (List.mem_filter.1 hy).2 (heq ▸ hx)

/-- The loop takes the packages that are left, each of them. -/
theorem mem_orderLoop {fuel : Nat} {remaining : List (String × List String)} {taken order : List String}
    (h : orderLoop fuel remaining taken = (order, none)) (id : String) : id ∈ order ↔ id ∈ taken ∨ id ∈ remaining.map Prod.fst := by
  induction fuel generalizing remaining taken with
  | zero =>
    unfold orderLoop at h
    split at h
    · rename_i hempty
      cases h
      simp [List.isEmpty_iff.1 hempty]
    · cases h
  | succ fuel ih =>
    rcases orderLoop_turn h with ⟨rfl, rfl⟩ | ⟨ready, rest, hloop, hmem, _⟩
    · simp
    · rw [ih hloop, hmem, List.mem_append, or_assoc]

/-- It takes each of them once. -/
theorem nodup_orderLoop {fuel : Nat} {remaining : List (String × List String)} {taken order : List String}
    (h : orderLoop fuel remaining taken = (order, none)) (hnodup : (taken ++ remaining.map Prod.fst).Nodup) : order.Nodup := by
  induction fuel generalizing remaining taken with
  | zero =>
    unfold orderLoop at h
    split at h
    · cases h
      exact (List.nodup_append.1 hnodup).1
    · cases h
  | succ fuel ih =>
    rcases orderLoop_turn h with ⟨rfl, rfl⟩ | ⟨ready, rest, hloop, hmem, hrest⟩
    · simpa using hnodup
    · obtain ⟨htaken, hkeys, hapart⟩ := List.nodup_append.1 hnodup
      refine ih hloop ?_
      rw [List.append_assoc]
      refine List.nodup_append.2 ⟨htaken, hrest hkeys, ?_⟩
      intro x hx y hy
      exact hapart x hx y ((hmem y).2 (List.mem_append.1 hy))

/-! ## A valid plan -/

/-- The order in which the candidates are installed. -/
def installOrder (candidates : List Candidate) : List String := (orderLoop (candidates.length + 1) (orderGraph candidates) []).1

/-- The model of the plan, with the candidates merged in. -/
def planModel (site : Site) (file : Helper.StateFile) (candidates : List Candidate) : Model :=
  replacementInstallModel (liveModel site file) candidates

/-- What the candidates disable. -/
def planDisables (site : Site) (file : Helper.StateFile) (candidates : List Candidate) : List (String × List String) :=
  installDisables site.development (planModel site file candidates) (candidates.map (·.id)) (siteIds site)

/-- The model as it will be after the install. -/
def planFutureModel (site : Site) (file : Helper.StateFile) (candidates : List Candidate) : Model :=
  withEnabled (planModel site file candidates) ((planDisables site file candidates).flatMap fun p => p.2.map fun id => (id, false))

/-- The action of a candidate. -/
def candidateAction (site : Site) (file : Helper.StateFile) (candidates : List Candidate) (c : Candidate) : PlanAction :=
  planAction (siteRows site file) (candidates.filterMap fun c => (renamedFrom site c).map fun old => (c.id, old))
    (planDisables site file candidates) c

/-- What is known of a valid plan. -/
structure ValidPlan (site : Site) (file : Helper.StateFile) (candidates : List Candidate) (plan : Plan) : Prop where
  nodup : (candidates.map (·.id)).Nodup
  freshNames : FreshNames site candidates
  unbroken : renameBreaks (siteRows site file) candidates
    (candidates.filterMap fun c => (renamedFrom site c).map fun old => (c.id, old)) = []
  met : ∀ c ∈ candidates, candidateProblems site (planFuture site file candidates) (planFutureModel site file candidates) c = .ok []
  suits : breaksDependants site (planFuture site file candidates) candidates = .ok []
  order : plan.order = installOrder candidates
  mem_order : ∀ id, id ∈ plan.order ↔ id ∈ candidates.map (·.id)
  order_nodup : plan.order.Nodup
  actions : plan.actions = plan.order.filterMap fun id => (candidates.find? (·.id = id)).map (candidateAction site file candidates)
  willDisable : plan.willDisable = sortedIds ((planDisables site file candidates).flatMap (·.2)).dedup

theorem orderGraph_keys (candidates : List Candidate) : (orderGraph candidates).map Prod.fst = candidates.map (·.id) := by
  simp [orderGraph, Function.comp_def]

/-- A plan that was resolved and is valid. -/
theorem validPlan_of_resolve {site : Site} {preflight : Preflight} {file : Helper.StateFile} {candidates : List Candidate}
    {plan : Plan}
    (h : resolveInstallPlan site preflight file candidates = .ok plan) (hvalid : plan.valid = true) :
    ValidPlan site file candidates plan := by
  obtain ⟨_, _, h⟩ := bind_ok h
  obtain ⟨_, hnodup, h⟩ := bind_ok h
  obtain ⟨catalog, hcatalog, h⟩ := bind_ok h
  have hnodup : (candidates.map (·.id)).Nodup := of_decide_eq_true (of_require hnodup)
  have hrows : planRows catalog = siteRows site file := by rw [catalog_eq hcatalog, siteRows]
  dsimp only at h
  rw [hrows, siteRows_keys] at h
  obtain ⟨future, hfuture, h⟩ := bind_ok h
  obtain ⟨⟨destinations, sources⟩, hsources, h⟩ := bind_ok h
  obtain ⟨dependencies, hdependencies, h⟩ := bind_ok h
  obtain ⟨optional, _, h⟩ := bind_ok h
  obtain ⟨breaks, hbreaks, h⟩ := bind_ok h
  cases horder : orderLoop (candidates.length + 1) (orderGraph candidates) [] with
  | mk order cycle =>
    simp only [horder] at h
    cases h
    simp only [Plan.valid, List.isEmpty_iff, List.append_eq_nil_iff] at hvalid
    obtain ⟨⟨⟨⟨⟨⟨⟨hdestinations, hunbroken⟩, _⟩, hmet⟩, _⟩, _⟩, hsuits⟩, hcycle⟩ := hvalid
    subst hdestinations hsuits
    have hcycle : cycle = none := by
      cases cycle with
      | none => rfl
      | some modules => cases hcycle
    subst hcycle
    obtain ⟨hfresh, rfl⟩ := renameSources_ok hsources
    have hfuture := futureCatalog_eq hfresh hfuture
    subst hfuture
    have hkeys := orderGraph_keys candidates
    refine ⟨hnodup, hfresh, hunbroken, ?_, hbreaks, ?_, ?_, ?_, rfl, rfl⟩
    · intro c hc
      exact ok_nil_of_mapM hdependencies hmet hc
    · rw [installOrder, horder]
    · intro id
      rw [mem_orderLoop horder, hkeys]
      simp
    · refine nodup_orderLoop horder ?_
      rw [hkeys]
      simpa using hnodup

end TecTac
