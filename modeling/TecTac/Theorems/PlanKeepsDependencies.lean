import TecTac.Lemmas.PlanOutcome

/-!
# A valid plan keeps dependencies met

The plan counts every candidate as enabled and judges replacements before any rename. The theorem says of which dependencies
this is right, so that a valid plan leaves every enabled candidate, and every other enabled module that had its dependencies
met, with them met.
-/

namespace TecTac

open Raise

/-- What a plan must keep: every enabled candidate has its hard dependencies met afterwards, and so has every other enabled module
whose dependencies were met before. -/
structure KeepsDependencies (site : Site) (file : Helper.StateFile) (candidates : List Candidate) (plan : Plan) : Prop where
  ofCandidate : ∀ c ∈ candidates, Enabled (afterPlan site file candidates plan) c.id →
    ∀ d ∈ c.dependencies, Met site (afterPlan site file candidates plan) d
  ofOther : ∀ id m, Dict.get id (deployment site file) = some m → id ∉ candidates.map (·.id) →
    Enabled (afterPlan site file candidates plan) id → (∀ d ∈ m.dependencies, Met site (deployment site file) d) →
    ∀ d ∈ m.dependencies, Met site (afterPlan site file candidates plan) d

/-- A module that somebody relies on afterwards: a hard dependency of an enabled candidate, or of another enabled module whose
dependencies were met before. -/
def ReliedOn (site : Site) (file : Helper.StateFile) (candidates : List Candidate) (after : Deployment) (dep : String) : Prop :=
  (∃ c ∈ candidates, Enabled after c.id ∧ dep ∈ c.dependencies.map Prod.fst) ∨
    ∃ id m, Dict.get id (deployment site file) = some m ∧ id ∉ candidates.map (·.id) ∧ Enabled after id ∧
      (∀ d ∈ m.dependencies, Met site (deployment site file) d) ∧ dep ∈ m.dependencies.map Prod.fst

/-- The module was off before the plan, under the id it then had. -/
def WasOff (site : Site) (file : Helper.StateFile) (candidates : List Candidate) (id : String) : Prop :=
  storedFlag (deployment site file) (((candidates.find? (·.id = id)).map (Candidate.was site)).getD id) = false

/-- What the plan does not look at, for a module that is relied on: when it is a candidate, no later candidate takes its place;
and when it was off before, or is disabled for a module that was off before, it has an honoured replacement afterwards. -/
structure Secured (site : Site) (file : Helper.StateFile) (candidates : List Candidate) (after : Deployment) (dep : String) :
    Prop where
  stays : dep ∈ candidates.map (·.id) → ∀ c ∈ candidates, renamedFrom site c = some dep →
    ¬ (installOrder candidates).idxOf dep < (installOrder candidates).idxOf c.id
  standIn : (WasOff site file candidates dep ∨
      ∃ p ∈ planDisables site file candidates, dep ∈ p.2 ∧ WasOff site file candidates p.1) →
    (satisfiesDependency site.development after.model dep).isSome = true

namespace PlanKeepsDependenciesAux

variable {site : Site} {file : Helper.StateFile} {candidates : List Candidate} {plan : Plan}

/-! ## The model afterwards -/

theorem get_model (now : Deployment) (id : String) : Dict.get id now.model = (Dict.get id now).map Deployed.node :=
  Dict.get_mapValues Deployed.node id now

theorem wasOff_of_candidate (h : ValidPlan site file candidates plan) {c : Candidate} (hc : c ∈ candidates) :
    WasOff site file candidates c.id ↔ storedFlag (deployment site file) (c.was site) = false := by
  rw [WasOff, find_candidate h.nodup hc]
  rfl

theorem find_none {id : String} (h : ∀ c ∈ candidates, c.id ≠ id) : candidates.find? (·.id = id) = none := by
  rw [List.find?_eq_none]
  intro c hc heq
  exact h c hc (of_decide_eq_true heq)

theorem wasOff_of_other {id : String} (h : ∀ c ∈ candidates, c.id ≠ id) :
    WasOff site file candidates id ↔ storedFlag (deployment site file) id = false := by
  rw [WasOff, find_none h]
  rfl

/-- The flag of the model is the flag that is stored. -/
theorem flagOr_live (id : String) : flagOr (Dict.get id (liveModel site file)) = storedFlag (deployment site file) id := by
  rw [liveModel_eq, get_model, flagOr, storedFlag, Option.map_map]
  rfl

/-- The node of a candidate in the model of the plan. -/
theorem get_planModel_candidate (h : ValidPlan site file candidates plan) {c : Candidate} (hc : c ∈ candidates) :
    Dict.get c.id (planModel site file candidates) = some (c.node (storedFlag (deployment site file) c.id)) := by
  rw [planModel, get_replacementInstallModel h.nodup, find_candidate h.nodup hc, flagOr_live]

/-- The node of another module in the model of the plan. -/
theorem get_planModel_other (h : ValidPlan site file candidates plan) {id : String} (hnot : ∀ c ∈ candidates, c.id ≠ id) :
    Dict.get id (planModel site file candidates) = (Dict.get id (deployment site file)).map Deployed.node := by
  rw [planModel, get_replacementInstallModel h.nodup, find_none hnot, liveModel_eq, get_model]

/-- The nodes of the model of the plan have their own ids. -/
theorem id_of_planModel (h : ValidPlan site file candidates plan) {id : String} {node : Node}
    (hget : Dict.get id (planModel site file candidates) = some node) : node.id = id := by
  by_cases hin : ∃ c ∈ candidates, c.id = id
  · obtain ⟨c, hc, rfl⟩ := hin
    rw [get_planModel_candidate h hc] at hget
    rw [← Option.some.inj hget]
    rfl
  · have hnot : ∀ c ∈ candidates, c.id ≠ id := fun c hc heq => hin ⟨c, hc, heq⟩
    rw [get_planModel_other h hnot] at hget
    obtain ⟨m, hm, rfl⟩ := Option.map_eq_some_iff.1 hget
    exact id_of_deployment hm

/-- A fresh module counts as enabled. -/
theorem storedFlag_fresh {id : String} (h : id ∉ siteIds site) : storedFlag (deployment site file) id = true := by
  cases hget : Dict.get id (deployment site file) with
  | none => rw [storedFlag, hget]; rfl
  | some m => exact absurd (mem_siteIds_iff.2 (by rw [hget]; rfl)) h

/-- A module that is enabled afterwards is enabled in the model of the plan. -/
theorem planModel_of_enabled (h : ValidPlan site file candidates plan) {id : String} {m : Deployed}
    (hget : Dict.get id (afterPlan site file candidates plan) = some m) (hon : m.node.enabled = true) :
    Dict.get id (planModel site file candidates) = some m.node := by
  rcases after_cases h hget with ⟨c, hc, rfl, rfl⟩ | ⟨m', hm', rfl, huntouched⟩
  · rw [get_planModel_candidate h hc]
    have hflag : storedFlag (deployment site file) (c.was site) = true := hon
    cases hrename : renamedFrom site c with
    | none =>
      have hwas : c.was site = c.id := by rw [Candidate.was, hrename]; rfl
      rw [Candidate.deployed, hwas]
    | some old =>
      rw [storedFlag_fresh (h.freshNames c hc old hrename), Candidate.deployed, hflag]
  · rw [get_planModel_other h fun c hc => (huntouched c hc).1, hm', Option.map_some]
    rw [Deployed.switched, if_neg (enabled_of_switched hon).1]

theorem afterPlan_nodup (h : ValidPlan site file candidates plan) :
    ((afterPlan site file candidates plan).map Prod.fst).Nodup := by
  rw [afterPlan_eq h, settled, switchedOff, List.map_map]
  exact Dict.nodup_moves (deployment_nodup site file)

/-- An enabled module afterwards that replaces another does so in the model of the plan too, once that other is off. -/
theorem competing_after (h : ValidPlan site file candidates plan) {id target : String} {m : Deployed}
    (htarget : Dict.get target (afterPlan site file candidates plan) = some m) (hoff : m.node.enabled = false)
    (hcompeting : (afterPlan site file candidates plan).model.competing id target = true) :
    (withEnabled (planModel site file candidates) [(target, false)]).competing id target = true := by
  unfold Model.competing at hcompeting ⊢
  rw [List.any_eq_true] at hcompeting ⊢
  obtain ⟨q, hq, hrival⟩ := hcompeting
  obtain ⟨⟨key, rival⟩, hmem, rfl⟩ := List.mem_map.1 hq
  have hget := Dict.get_of_mem (afterPlan_nodup h) hmem
  simp only [Bool.and_eq_true, bne_iff_ne, beq_iff_eq] at hrival
  have hmodel := planModel_of_enabled h hget hrival.1.2
  have hne : key ≠ target := by
    intro heq
    rw [heq, htarget] at hget
    rw [← Option.some.inj hget, hoff] at hrival
    cases hrival.1.2
  have hkept : Dict.get key (withEnabled (planModel site file candidates) [(target, false)]) = some rival.node := by
    have hswitched := get_withEnabled (planModel site file candidates) [target] false key
    rw [hmodel, Option.map_some, if_neg (by simpa using hne)] at hswitched
    exact hswitched
  exact ⟨(key, rival.node), Dict.mem_of_get hkept, by simpa using hrival⟩

/-- A module that is disabled for a candidate has that candidate as its replacement, when the candidate is enabled. -/
theorem replacement_honoured (h : ValidPlan site file candidates plan) {p : String × List String}
    (hp : p ∈ planDisables site file candidates) {dep : String} (hdep : dep ∈ p.2) {m : Deployed}
    (hget : Dict.get dep (afterPlan site file candidates plan) = some m) (hon : ¬ WasOff site file candidates p.1) :
    (satisfiesDependency site.development (afterPlan site file candidates plan).model dep).isSome = true := by
  obtain ⟨hid, hfresh, node, target, hnode, _, htarget, _, hother, hnames, hcheck⟩ := of_mem_installDisables hp
  obtain ⟨c, hc, hcid⟩ := List.mem_map.1 hid
  have hreplaces : node.replaces = dep := by
    rw [hnames, List.mem_singleton] at hdep
    rw [hdep, id_of_planModel h htarget]
  have htid : target.id = dep := (id_of_planModel h htarget).trans hreplaces
  rw [hreplaces] at htarget
  rw [htid] at hother hcheck
  have hnot : ∀ c' ∈ candidates, c'.id ≠ dep := fun c' hc' heq => hother (heq ▸ List.mem_map_of_mem hc')
  -- the candidate afterwards has the node that the plan looked at
  have hflag : storedFlag (deployment site file) (c.was site) = true := by
    rw [← hcid, wasOff_of_candidate h hc] at hon
    simpa using hon
  have hown : Dict.get p.1 (afterPlan site file candidates plan).model = some node := by
    rw [← hcid] at hfresh hnode ⊢
    rw [get_planModel_candidate h hc, storedFlag_fresh hfresh] at hnode
    rw [get_model, after_fresh h hc hfresh, Option.map_some, Candidate.deployed, hflag, ← hnode]
  have henabled : node.enabled = true := by
    rw [← hcid, get_planModel_candidate h hc, storedFlag_fresh (hcid ▸ hfresh)] at hnode
    rw [← Option.some.inj hnode]
    rfl
  -- the module that it replaces is as it was, and off
  have hwill : dep ∈ plan.willDisable := (mem_willDisable h).2 ⟨p, hp, hdep⟩
  have hoff : m.node = { target with enabled := false } := by
    rcases after_cases h hget with ⟨c', hc', heq, _⟩ | ⟨m', hm', rfl, _⟩
    · exact absurd heq (hnot c' hc')
    · rw [get_planModel_other h hnot, hm', Option.map_some] at htarget
      rw [Deployed.switched, if_pos hwill, ← Option.some.inj htarget]
  -- so the two are as in the model that the plan checked
  have hswitched := get_withEnabled (planModel site file candidates) [dep] false
  have hnode' : Dict.get p.1 (withEnabled (planModel site file candidates) [(dep, false)]) = some node := by
    have hne : p.1 ≠ dep := fun heq => hother (heq ▸ hid)
    have hkeep := hswitched p.1
    rw [hnode, Option.map_some, if_neg (by simpa using hne)] at hkeep
    exact hkeep
  have hsame : Dict.get dep (afterPlan site file candidates plan).model =
      Dict.get dep (withEnabled (planModel site file candidates) [(dep, false)]) := by
    have hkeep := hswitched dep
    rw [htarget, Option.map_some, if_pos (List.mem_singleton_self dep)] at hkeep
    rw [get_model, hget, Option.map_some, hoff]
    exact hkeep.symm
  refine satisfiesDependency_of_check hown (id_of_planModel h hnode) hreplaces henabled ?_
  subst hreplaces
  exact check_of_agree hcheck hnode' hown henabled hsame (competing_after h hget (by rw [hoff]))

/-- A module that is installed afterwards and is secured is enabled or has an honoured replacement. -/
theorem stands_of_secured (h : ValidPlan site file candidates plan) {dep : String} {m : Deployed}
    (hget : Dict.get dep (afterPlan site file candidates plan) = some m)
    (hsecured : Secured site file candidates (afterPlan site file candidates plan) dep) :
    m.node.enabled = true ∨ (satisfiesDependency site.development (afterPlan site file candidates plan).model dep).isSome = true := by
  cases hon : m.node.enabled with
  | true => exact Or.inl rfl
  | false =>
    right
    rcases after_cases h hget with ⟨c, hc, rfl, rfl⟩ | ⟨m', hm', rfl, huntouched⟩
    · exact hsecured.standIn (Or.inl ((wasOff_of_candidate h hc).2 hon))
    · by_cases hwill : dep ∈ plan.willDisable
      · obtain ⟨p, hp, hdep⟩ := (mem_willDisable h).1 hwill
        by_cases hwas : WasOff site file candidates p.1
        · exact hsecured.standIn (Or.inr ⟨p, hp, hdep, hwas⟩)
        · exact replacement_honoured h hp hdep hget hwas
      · rw [Deployed.switched, if_neg hwill] at hon
        refine hsecured.standIn (Or.inl ((wasOff_of_other fun c hc => (huntouched c hc).1).2 ?_))
        rw [storedFlag, hm', Option.map_some, hon]
        rfl

/-! ## What the plan checked -/

/-- Every hard dependency of a candidate is in the catalogue after the install, in a version that suits. -/
theorem dependency_in_future (h : ValidPlan site file candidates plan) {c : Candidate} (hc : c ∈ candidates)
    {d : String × String}
    (hd : d ∈ c.dependencies) :
    ∃ row, Dict.get d.1 (planFuture site file candidates) = some row ∧
      site.versionSatisfies (orZero row.extensionVersion) d.2 = .ok true := by
  obtain ⟨problems, hproblems, hnone⟩ := bind_ok (h.met c hc)
  have hflatten := (List.append_eq_nil_iff.1 (Except.ok.inj hnone)).2
  have hfound := ok_nil_of_mapM hproblems hflatten hd
  unfold candidateDependency at hfound
  split at hfound
  · cases hfound
  · rename_i row hrow
    split at hfound
    · cases hfound
    · obtain ⟨satisfied, hsatisfied, hfound⟩ := bind_ok hfound
      cases satisfied with
      | false => cases hfound
      | true => exact ⟨row, hrow, hsatisfied⟩

/-- A module that another enabled module depends on is not renamed. -/
theorem not_renamed (h : ValidPlan site file candidates plan) {id : String} {m : Deployed}
    (hget : Dict.get id (deployment site file) = some m) (hnot : id ∉ candidates.map (·.id)) (hon : m.node.enabled = true)
    {d : String × String} (hd : d ∈ m.dependencies) : ∀ c ∈ candidates, renamedFrom site c ≠ some d.1 := by
  intro c hc hold
  have hrow : (id, m.row id) ∈ siteRows site file := by
    refine Dict.mem_of_get ?_
    rw [get_siteRows, hget, Option.map_some]
  have hbreaks := h.unbroken
  unfold renameBreaks at hbreaks
  rw [List.flatMap_eq_nil_iff] at hbreaks
  have hsource : (c.id, d.1) ∈ candidates.filterMap fun c => (renamedFrom site c).map fun old => (c.id, old) :=
    List.mem_filterMap.2 ⟨c, hc, by rw [hold]; rfl⟩
  have hnone := List.filterMap_eq_nil_iff.1 (hbreaks _ hsource) _ hrow
  obtain ⟨constraint, hconstraint⟩ := Option.isSome_iff_exists.1 (Dict.get_isSome_of_mem hd)
  have hlive : ¬ (id ∈ candidates.map (·.id) ∨ (m.row id).enabled = false) := by
    rintro (hin | hoff)
    · exact hnot hin
    · rw [Deployed.row, hon] at hoff
      cases hoff
  have hdeps : (m.row id).dependencies = m.dependencies := rfl
  rw [if_neg hlive, hdeps, hconstraint] at hnone
  cases hnone

/-- A candidate that another enabled module depends on has a version that suits it. -/
theorem candidate_suits (h : ValidPlan site file candidates plan) {id : String} {m : Deployed}
    (hget : Dict.get id (deployment site file) = some m) (huntouched : ∀ c ∈ candidates, c.id ≠ id ∧ renamedFrom site c ≠ some id)
    (hon : m.node.enabled = true) {d : String × String} (hd : d ∈ m.dependencies) {c : Candidate} (hc : c ∈ candidates)
    (hid : c.id = d.1) : site.versionSatisfies (orZero c.extensionVersion) d.2 = .ok true := by
  have hkept : Dict.get id (planFuture site file candidates) = some (m.row id) := by
    rw [planFuture, Dict.get_moves_of_untouched, get_siteRows, hget, Option.map_some]
    intro move hmove
    obtain ⟨c', hc', rfl⟩ := List.mem_map.1 hmove
    exact huntouched c' hc'
  have hrow : (id, m.row id) ∈ (planFuture site file candidates).filter fun p =>
      decide (p.1 ∉ candidates.map (·.id)) && p.2.enabled := by
    refine List.mem_filter.2 ⟨Dict.mem_of_get hkept, ?_⟩
    have hnot : id ∉ candidates.map (·.id) := by
      intro hin
      obtain ⟨c', hc', heq⟩ := List.mem_map.1 hin
      exact (huntouched c' hc').1 heq
    rw [Bool.and_eq_true]
    exact ⟨decide_eq_true hnot, hon⟩
  obtain ⟨problems, hproblems, hnone⟩ := bind_ok h.suits
  obtain ⟨each, heach, hempty⟩ := bind_ok (ok_nil_of_mapM hproblems (Except.ok.inj hnone) hrow)
  have hbreaks := ok_nil_of_mapM heach (Except.ok.inj hempty) hd
  unfold breaksOne at hbreaks
  rw [if_neg (by simpa using ⟨c, hc, hid⟩)] at hbreaks
  split at hbreaks
  · cases hbreaks
  · rename_i dep hdep
    have hdep' : dep.extensionVersion = c.extensionVersion := by
      rcases future_cases hdep with ⟨c', hc', hid', rfl⟩ | ⟨_, hno⟩
      · rw [List.inj_on_of_nodup_map h.nodup hc' hc (hid'.trans hid.symm)]
        rfl
      · exact absurd hid (hno c hc).1
    obtain ⟨satisfied, hsatisfied, hbreaks⟩ := bind_ok hbreaks
    rw [hdep'] at hsatisfied
    cases satisfied with
    | false => cases hbreaks
    | true => exact hsatisfied

/-! ## Secured dependencies are met -/

/-- A secured dependency of an enabled candidate is met. -/
theorem met_of_candidate (h : ValidPlan site file candidates plan) {c : Candidate} (hc : c ∈ candidates) {d : String × String}
    (hd : d ∈ c.dependencies) (hsecured : Secured site file candidates (afterPlan site file candidates plan) d.1) :
    Met site (afterPlan site file candidates plan) d := by
  obtain ⟨row, hrow, hversion⟩ := dependency_in_future h hc hd
  rcases future_cases hrow with ⟨c', hc', hid, rfl⟩ | ⟨hold, huntouched⟩
  · have hget : Dict.get d.1 (afterPlan site file candidates plan) = some (c'.deployed site file) := by
      rw [← hid]
      exact after_candidate h hc' fun c'' hc'' hold => hid ▸ hsecured.stays (hid ▸ List.mem_map_of_mem hc') c'' hc'' (hid ▸ hold)
    exact ⟨_, hget, stands_of_secured h hget hsecured, hversion⟩
  · rw [get_siteRows] at hold
    obtain ⟨m, hm, rfl⟩ := Option.map_eq_some_iff.1 hold
    have hget := after_untouched h hm huntouched
    exact ⟨_, hget, stands_of_secured h hget hsecured, by rw [Deployed.switched_extensionVersion]; exact hversion⟩

/-- A secured dependency of another enabled module, which was met before, is met. -/
theorem met_of_other (h : ValidPlan site file candidates plan) {id : String} {m : Deployed}
    (hget : Dict.get id (deployment site file) = some m) (hnot : id ∉ candidates.map (·.id))
    (hon : Enabled (afterPlan site file candidates plan) id) {d : String × String} (hd : d ∈ m.dependencies)
    (hbefore : Met site (deployment site file) d)
    (hsecured : Secured site file candidates (afterPlan site file candidates plan) d.1) :
    Met site (afterPlan site file candidates plan) d := by
  obtain ⟨m', hm', hon⟩ := hon
  rcases after_cases h hm' with ⟨c, hc, rfl, _⟩ | ⟨old, hold, rfl, huntouched⟩
  · exact absurd (List.mem_map_of_mem hc) hnot
  · obtain rfl := Option.some.inj (hget.symm.trans hold)
    have hlive := (enabled_of_switched hon).2
    have hstays := not_renamed h hget hnot hlive hd
    obtain ⟨dep, hdep, _, hversion⟩ := hbefore
    by_cases hcandidate : ∃ c ∈ candidates, c.id = d.1
    · obtain ⟨c, hc, hid⟩ := hcandidate
      have hafter : Dict.get d.1 (afterPlan site file candidates plan) = some (c.deployed site file) := by
        rw [← hid]
        exact after_candidate h hc fun c' hc' hold' _ => hstays c' hc' (hid ▸ hold')
      exact ⟨_, hafter, stands_of_secured h hafter hsecured, candidate_suits h hget huntouched hlive hd hc hid⟩
    · have hafter := after_untouched h hdep fun c hc => ⟨fun heq => hcandidate ⟨c, hc, heq⟩, hstays c hc⟩
      exact ⟨_, hafter, stands_of_secured h hafter hsecured, by rw [Deployed.switched_extensionVersion]; exact hversion⟩

/-- A dependency that is met is secured. -/
theorem secured_of_met (h : ValidPlan site file candidates plan) {d : String × String}
    (hmet : Met site (afterPlan site file candidates plan) d) :
    Secured site file candidates (afterPlan site file candidates plan) d.1 := by
  obtain ⟨m, hget, hstands, _⟩ := hmet
  constructor
  · intro hin c hc hold hlt
    obtain ⟨c', hc', hid⟩ := List.mem_map.1 hin
    rw [← hid] at hold hlt hget
    rw [after_renamed h hc' hc hold hlt] at hget
    cases hget
  · intro hoff
    rcases hstands with hon | hstands
    · exfalso
      rcases after_cases h hget with ⟨c, hc, hid, rfl⟩ | ⟨m', hm', rfl, huntouched⟩
      · rcases hoff with hwas | ⟨p, hp, hdep, _⟩
        · rw [← hid, wasOff_of_candidate h hc] at hwas
          exact Bool.false_ne_true (hwas.symm.trans hon)
        · obtain ⟨_, _, _, _, _, _, _, _, hother, hnames, _⟩ := of_mem_installDisables hp
          rw [hnames, List.mem_singleton] at hdep
          exact hother (hdep ▸ hid ▸ List.mem_map_of_mem hc)
      · obtain ⟨hkept, hlive⟩ := enabled_of_switched hon
        rcases hoff with hwas | ⟨p, hp, hdep, _⟩
        · rw [wasOff_of_other fun c hc => (huntouched c hc).1, storedFlag, hm', Option.map_some, hlive] at hwas
          cases hwas
        · exact hkept ((mem_willDisable h).2 ⟨p, hp, hdep⟩)
    · exact hstands

end PlanKeepsDependenciesAux

open PlanKeepsDependenciesAux in
/-- A valid plan keeps the dependencies met exactly when every module that is relied on afterwards is secured: no later candidate
takes its place, and when it was off before, or is disabled for a module that was off before, it has an honoured replacement. -/
theorem plan_keeps_dependencies_iff (site : Site) (preflight : Preflight) (file : Helper.StateFile)
    (candidates : List Candidate)
    (plan : Plan) (h : resolveInstallPlan site preflight file candidates = .ok plan) (hvalid : plan.valid = true) :
    KeepsDependencies site file candidates plan ↔
      ∀ dep, ReliedOn site file candidates (settled site file candidates) dep →
        Secured site file candidates (settled site file candidates) dep := by
  have hplan := validPlan_of_resolve h hvalid
  rw [← afterPlan_eq hplan]
  constructor
  · intro hkeeps dep hrelied
    rcases hrelied with ⟨c, hc, hon, hdep⟩ | ⟨id, m, hget, hnot, hon, hbefore, hdep⟩
    · obtain ⟨d, hd, rfl⟩ := List.mem_map.1 hdep
      exact secured_of_met hplan (hkeeps.ofCandidate c hc hon d hd)
    · obtain ⟨d, hd, rfl⟩ := List.mem_map.1 hdep
      exact secured_of_met hplan (hkeeps.ofOther id m hget hnot hon hbefore d hd)
  · intro hsecured
    constructor
    · intro c hc hon d hd
      exact met_of_candidate hplan hc hd (hsecured d.1 (Or.inl ⟨c, hc, hon, List.mem_map_of_mem hd⟩))
    · intro id m hget hnot hon hbefore d hd
      exact met_of_other hplan hget hnot hon hd (hbefore d hd)
        (hsecured d.1 (Or.inr ⟨id, m, hget, hnot, hon, hbefore, List.mem_map_of_mem hd⟩))

/-! ## Two plans -/

/-- A server with one module. -/
def baseSite : Site where
  development := false
  versionSatisfies := fun _ _ => .ok true
  installed := [{ id := "base", extensionVersion := "1.0.0", category := .premium, id_ne := base_named, constraint_ne := no_constraints }]
  nodup := by decide

/-- The state of the module. -/
def baseState (enabled : Bool) : Helper.StateFile :=
  .json (.obj [("schema", .num 1), ("modules", .obj [("base", .obj [("enabled", .bool enabled)])])])

/-- The next version of the module, and a module that depends on it. -/
def basePackages : List Candidate :=
  [{ id := "base", extensionVersion := "2.0.0", category := .premium },
   { id := "report", extensionVersion := "1.0.0", category := .premium, dependencies := [("base", ">=2.0.0")] }]

/-- The plan for the two. -/
def basePlan : Plan where
  problems := []
  optionalDependencies := []
  order := ["base", "report"]
  actions := [⟨"base", "2.0.0", .replace, none, some "1.0.0", [], {}, []⟩,
    ⟨"report", "1.0.0", .install, none, none, [("base", ">=2.0.0")], {}, []⟩]
  willDisable := []

/-- With the installed module enabled the plan keeps the dependency. -/
theorem plan_keeps_enabled_dependency :
    resolveInstallPlan baseSite (fun _ _ _ => none) (baseState true) basePackages = .ok basePlan ∧ basePlan.valid = true ∧
      KeepsDependencies baseSite (baseState true) basePackages basePlan := by
  refine ⟨rfl, rfl, (plan_keeps_dependencies_iff baseSite (fun _ _ _ => none) (baseState true) basePackages basePlan rfl rfl).2 ?_⟩
  intro dep hrelied
  have hdep : dep = "base" := by
    rcases hrelied with ⟨c, hc, _, hdep⟩ | ⟨id, m, hget, hnot, _⟩
    · simp only [basePackages, List.mem_cons, List.not_mem_nil, or_false] at hc
      rcases hc with rfl | rfl
      · cases hdep
      · simpa using hdep
    · obtain ⟨m', hm', heq⟩ := List.mem_map.1 (Dict.mem_of_get hget)
      have hbase : m'.id = "base" := by
        have hin := (List.mem_filter.1 hm').1
        rw [List.mem_singleton.1 hin]
      have hid : id = "base" := (congrArg Prod.fst heq).symm.trans hbase
      exact absurd (by rw [hid]; decide) hnot
  subst hdep
  constructor
  · intro _ c hc hrename
    simp only [basePackages, List.mem_cons, List.not_mem_nil, or_false] at hc
    rcases hc with rfl | rfl
    · cases hrename
    · cases hrename
  · rintro (hoff | ⟨p, hp, _⟩)
    · cases hoff
    · cases hp

/-- With the installed module disabled the plan is the same and valid, and leaves the fresh module enabled without it. -/
theorem upgrade_of_disabled_dependency :
    resolveInstallPlan baseSite (fun _ _ _ => none) (baseState false) basePackages = .ok basePlan ∧ basePlan.valid = true ∧
      ¬ KeepsDependencies baseSite (baseState false) basePackages basePlan := by
  refine ⟨rfl, rfl, ?_⟩
  intro hkeeps
  have hreport : ({ id := "report", extensionVersion := "1.0.0", category := .premium, dependencies := [("base", ">=2.0.0")] } :
      Candidate) ∈ basePackages := by decide
  obtain ⟨m, hget, hstands, _⟩ := hkeeps.ofCandidate _ hreport ⟨_, rfl, rfl⟩ ("base", ">=2.0.0") List.mem_cons_self
  cases hget
  rcases hstands with hon | hstands
  · cases hon
  · cases hstands

end TecTac
