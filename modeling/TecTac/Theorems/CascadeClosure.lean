import TecTac.Lemmas.InstallPlan

/-!
# What a cascade disables

A disable with a cascade walks down the dependants of the module that was asked for. The walk sees what relies on the module, directly or not, and finishes each
module once. The module itself is treated differently from those below it: when the module it stands in for can come back, what relies on it only through that
module stays enabled.
-/

namespace TecTac

open Raise

section
variable (site : Site) (file : Helper.StateFile)

/-- An enabled module has a hard dependency on another id. -/
def HardDependency (x y : String) : Prop :=
  ∃ i ∈ site.installed, i.id = x ∧ i.legacy = false ∧ isEnabled file x = true ∧ (Dict.get y i.dependencies).isSome

/-- A module stands in for another one right now. -/
def StandsInFor (y r : String) : Prop := honouredReplacement site.development (liveModel site file) y = some r

/-- An enabled module relies on another: it has a hard dependency on it or on the module it stands in for. What `m` stands in for does not count when it comes
back. -/
def ReliesOn (m : String) (comesBack : Prop) (x y : String) : Prop :=
  x ≠ y ∧ (HardDependency site file x y ∨ ¬ (comesBack ∧ y = m) ∧ ∃ r, StandsInFor site file y r ∧ HardDependency site file x r)

/-- `dependants_of` in the disable branch. -/
def dependantsBelow (m : String) (back : List String) (id : String) : List String :=
  ((enabledDependants site file (site.installed.map (Installed.row file)) id).filter fun d => !(!back.isEmpty && id == m && d.via.isSome)).map (·.id)

end

namespace CascadeAux

variable {site : Site} {file : Helper.StateFile}

theorem watched_cases {i : Installed} (hlegacy : i.legacy = false) (y : String) (replaced : Option String) :
    (∃ c, Dict.get y i.dependencies = some c ∧ watchedConstraint (i.row file) y replaced = some (c, none)) ∨
      (Dict.get y i.dependencies = none ∧
        watchedConstraint (i.row file) y replaced = replaced.bind fun r => (Dict.get r i.dependencies).map fun c => (c, some r)) := by
  have hdeps : (i.row file).dependencies = i.dependencies := by simp [Installed.row, hlegacy]
  have hfilter : ∀ id, (Dict.get id i.dependencies).filter (· ≠ "") = Dict.get id i.dependencies := by
    intro id
    cases hget : Dict.get id i.dependencies with
    | none => rfl
    | some c =>
      have hne := i.constraint_ne _ (Dict.mem_of_get hget)
      simp [Option.filter, hne]
  unfold watchedConstraint
  simp only [hdeps, hfilter]
  cases hget : Dict.get y i.dependencies with
  | none => exact .inr ⟨rfl, rfl⟩
  | some c => exact .inl ⟨c, rfl, rfl⟩

/-- The dependants that the walk goes down to are the modules that rely on a module. -/
theorem mem_dependantsBelow {m : String} {back : List String} {x y : String} :
    x ∈ dependantsBelow site file m back y ↔ ReliesOn site file m (back ≠ []) x y := by
  unfold dependantsBelow enabledDependants ReliesOn
  simp only [List.mem_map, List.mem_filter, List.mem_filterMap]
  constructor
  · rintro ⟨d, ⟨⟨row, ⟨⟨i, hi, rfl⟩, hrow⟩, hsome⟩, hkeep⟩, rfl⟩
    obtain ⟨found, hfound, rfl⟩ := Option.map_eq_some_iff.1 hsome
    simp only [Bool.and_eq_true, Bool.not_eq_true', bne_iff_ne, ne_eq] at hrow
    have hlegacy : i.legacy = false := hrow.1.1
    refine ⟨hrow.2, ?_⟩
    rcases watched_cases hlegacy y (honouredReplacement site.development (liveModel site file) y) with ⟨c, hget, hwatched⟩ | ⟨-, hwatched⟩
    · exact .inl ⟨i, hi, rfl, hlegacy, hrow.1.2, by simp [hget]⟩
    · rw [hwatched] at hfound
      obtain ⟨r, hr, hfound⟩ := Option.bind_eq_some_iff.1 hfound
      obtain ⟨c, hc, rfl⟩ := Option.map_eq_some_iff.1 hfound
      refine .inr ⟨?_, r, hr, i, hi, rfl, hlegacy, hrow.1.2, by simp [hc]⟩
      rintro ⟨hback, heq⟩
      simp [hback, heq] at hkeep
  · rintro ⟨hne, hcase⟩
    have hrowOf : ∀ {i : Installed} {z : String}, i ∈ site.installed → i.id = x → i.legacy = false → isEnabled file x = true →
        (∃ a ∈ site.installed, Installed.row file a = i.row file) ∧ (!(i.row file).legacy && isEnabled file (i.row file).id && (i.row file).id != y) = true := by
      intro i _ hi hid hlegacy hon
      refine ⟨⟨i, hi, rfl⟩, ?_⟩
      simp [Installed.row, hlegacy, hid, hon, hne]
    rcases hcase with ⟨i, hi, hid, hlegacy, hon, hsome⟩ | ⟨hcount, r, hr, i, hi, hid, hlegacy, hon, hsome⟩
    · obtain ⟨hmem, hkeep⟩ := hrowOf (z := y) hi hid hlegacy hon
      rcases watched_cases hlegacy y (honouredReplacement site.development (liveModel site file) y) with ⟨c, hget, hwatched⟩ | ⟨hnone, -⟩
      · refine ⟨⟨i.id, c, none⟩, ⟨⟨i.row file, ⟨hmem, hkeep⟩, by rw [hwatched]; rfl⟩, by simp⟩, hid⟩
      · rw [hnone] at hsome
        cases hsome
    · obtain ⟨hmem, hkeep⟩ := hrowOf (z := y) hi hid hlegacy hon
      obtain ⟨c, hc⟩ := Option.isSome_iff_exists.1 hsome
      rcases watched_cases hlegacy y (honouredReplacement site.development (liveModel site file) y) with ⟨c', hget, hwatched⟩ | ⟨-, hwatched⟩
      · refine ⟨⟨i.id, c', none⟩, ⟨⟨i.row file, ⟨hmem, hkeep⟩, by rw [hwatched]; rfl⟩, by simp⟩, hid⟩
      · have hr' : honouredReplacement site.development (liveModel site file) y = some r := hr
        refine ⟨⟨i.id, c, some r⟩, ⟨⟨i.row file, ⟨hmem, hkeep⟩, by rw [hwatched, hr', Option.bind_some, hc]; rfl⟩, ?_⟩, hid⟩
        simp only [Bool.not_eq_true', Bool.eq_false_iff, ne_eq, Bool.and_eq_true, List.isEmpty_iff, beq_iff_eq, not_and]
        rintro ⟨hback, heq⟩
        exact absurd ⟨hback, heq⟩ hcount

theorem relies_installed {m : String} {back : Prop} {x y : String} (h : ReliesOn site file m back x y) : x ∈ site.installed.map (·.id) := by
  rcases h.2 with ⟨i, hi, rfl, -⟩ | ⟨-, r, -, i, hi, rfl, -⟩
  · exact List.mem_map_of_mem hi
  · exact List.mem_map_of_mem hi

/-- The walk of a cascade. -/
def cascadeWalk (site : Site) (file : Helper.StateFile) (m : String) (back : List String) (fuel : Nat) : DepthFirst.Walk String :=
  DepthFirst.visit (dependantsBelow site file m back) fuel m ⟨[], [m]⟩

theorem below_installed {m : String} {back : List String} : ∀ x, ∀ y ∈ dependantsBelow site file m back x, y ∈ site.installed.map (·.id) :=
  fun _ _ hy => relies_installed (mem_dependantsBelow.1 hy)

theorem cascade_fuel (m : String) : DepthFirst.unseen (site.installed.map (·.id)) ⟨[], [m]⟩ < site.installed.length + 1 := by
  have hle := List.length_filter_le (fun y => decide (y ∉ ([] : List String))) (site.installed.map (·.id))
  rw [List.length_map] at hle
  exact Nat.lt_succ_of_le hle

/-- The modules of the walk: those that reach the module, each once. -/
theorem mem_cascadeWalk (m : String) (back : List String) (x : String) :
    x ∈ (cascadeWalk site file m back (site.installed.length + 1)).seen ↔ Relation.TransGen (ReliesOn site file m (back ≠ [])) x m := by
  obtain ⟨hgrown, hnext⟩ := DepthFirst.visit_grown below_installed (site.installed.length + 1) m ⟨[], [m]⟩ (cascade_fuel m)
  have hclosed : ∀ y ∈ (cascadeWalk site file m back (site.installed.length + 1)).seen, ∀ z ∈ dependantsBelow site file m back y,
      z ∈ (cascadeWalk site file m back (site.installed.length + 1)).seen := fun y hy => hgrown.closed y hy List.not_mem_nil
  have hswap : (fun a b => b ∈ dependantsBelow site file m back a) = Function.swap (ReliesOn site file m (back ≠ [])) := by
    funext a b
    exact propext mem_dependantsBelow
  constructor
  · intro hx
    rcases DepthFirst.follows_of_seen _ _ _ hx with hold | hfollows
    · cases hold
    · rw [hswap] at hfollows
      exact Relation.transGen_swap.1 hfollows
  · intro hreach
    induction hreach using Relation.TransGen.head_induction_on with
    | single hstep => exact hnext _ (mem_dependantsBelow.2 hstep)
    | head hstep _ ih => exact hclosed _ ih _ (mem_dependantsBelow.2 hstep)

/-! ## What is handed back -/

/-- A node keeps everything but its flag while jobs are pending. -/
def SameButFlag (model model' : Model) : Prop :=
  ∀ id, (Dict.get id model').map (fun node => { node with enabled := false }) = (Dict.get id model).map fun node => { node with enabled := false }

theorem same_withEnabled (model : Model) (ids : List String) (enabled : Bool) :
    SameButFlag model (withEnabled model (ids.map fun id => (id, enabled))) := by
  intro id
  rw [get_withEnabled, Option.map_map]
  congr 1
  funext node
  by_cases hmem : id ∈ ids
  · simp [hmem]
  · simp [hmem]

theorem SameButFlag.trans {model model' model'' : Model} (h : SameButFlag model model') (h' : SameButFlag model' model'') :
    SameButFlag model model'' := fun id => (h' id).trans (h id)

theorem same_pending (model : Model) (pending : List QueuedJob) : SameButFlag model (modelWithPendingJobs model pending) := by
  induction pending generalizing model with
  | nil => exact fun _ => rfl
  | cons job pending ih =>
    refine SameButFlag.trans ?_ (ih (applyPending model job))
    refine SameButFlag.trans (SameButFlag.trans ?_ (same_withEnabled _ job.disableModules false)) (same_withEnabled _ job.enableModules true)
    cases job.action with
    | enable => exact same_withEnabled _ _ _
    | disable => exact same_withEnabled _ _ _
    | install => exact fun _ => rfl

/-- In the model of a request every node is under its own id. -/
theorem pending_id {pending : List QueuedJob} {id : String} {node : Node}
    (h : Dict.get id (modelWithPendingJobs (liveModel site file) pending) = some node) : node.id = id := by
  have hsame := same_pending (liveModel site file) pending id
  rw [h, Option.map_some] at hsame
  obtain ⟨live, hlive, heq⟩ := Option.map_eq_some_iff.1 hsame.symm
  obtain ⟨m, hm, hpair⟩ := List.mem_map.1 (Dict.mem_of_get hlive)
  have hkey := congrArg (fun p : String × Node => p.1) hpair
  have hnode := congrArg (fun p : String × Node => p.2.id) hpair
  have hid := congrArg Node.id heq
  simp only at hkey hnode hid
  rw [← hid, ← hnode, hkey]

theorem mem_handBackPlan {model : Model} {id r : String} :
    r ∈ handBackPlan model id ↔ ∃ node target, Dict.get id model = some node ∧ node.replaces ≠ "" ∧ node.enabled = true ∧
      Dict.get node.replaces model = some target ∧ target.category.replaceable = true ∧ target.enabled = false ∧
      model.competing id node.replaces = false ∧ r = target.id := by
  unfold handBackPlan
  constructor
  · intro h
    split at h
    · cases h
    · rename_i node hnode
      split at h
      · cases h
      · rename_i hready
        split at h
        · cases h
        · rename_i target htarget
          refine ⟨node, target, hnode, ?_⟩
          grind -ring -linarith
  · rintro ⟨node, target, hnode, hreplaces, hon, htarget, hreplaceable, hoff, hcompeting, rfl⟩
    simp [hnode, hreplaces, hon, htarget, hreplaceable, hoff, hcompeting]

theorem mem_switchedOff (model : Model) (first : String) :
    ∀ q ∈ (match Dict.get first model with
      | none => model
      | some node => if node.enabled ≠ false then Dict.set first { node with enabled := false } model else model),
      q ∈ model ∨ q.2.enabled = false := by
  intro q hq
  split at hq
  · exact .inl hq
  · split at hq
    · rcases Dict.mem_set hq with rfl | hold
      · exact .inr rfl
      · exact .inl hold
    · exact .inl hq

theorem mem_withEnabled_off {model : Model} {ids : List String} {p : String × Node}
    (hp : p ∈ withEnabled model (ids.map fun id => (id, false))) : p ∈ model ∨ p.2.enabled = false := by
  induction ids generalizing model with
  | nil => exact .inl hp
  | cons first ids ih =>
    rcases ih hp with hold | hoff
    · exact mem_switchedOff model first p hold
    · exact .inr hoff

/-- Switching other modules off leaves what a replacement hands back. -/
theorem handBackPlan_off {model : Model} {ids : List String} {m r : String} (h : r ∈ handBackPlan model m) (hm : m ∉ ids) :
    r ∈ handBackPlan (withEnabled model (ids.map fun id => (id, false))) m := by
  obtain ⟨node, target, hnode, hreplaces, hon, htarget, hreplaceable, hoff, hcompeting, rfl⟩ := mem_handBackPlan.1 h
  have hsame : (if node.replaces ∈ ids then { target with enabled := false } else target) = target := by
    split
    · rw [← hoff]
    · rfl
  refine mem_handBackPlan.2 ⟨node, target, ?_, hreplaces, hon, ?_, hreplaceable, hoff, ?_, rfl⟩
  · rw [get_withEnabled, hnode, Option.map_some, if_neg hm]
  · rw [get_withEnabled, htarget, Option.map_some, hsame]
  · by_contra hrival
    rw [Bool.not_eq_false, Model.competing, List.any_eq_true] at hrival
    obtain ⟨p, hp, hall⟩ := hrival
    rcases mem_withEnabled_off hp with hold | hdown
    · have hnew : model.competing m node.replaces = true := List.any_eq_true.2 ⟨p, hold, hall⟩
      rw [hcompeting] at hnew
      cases hnew
    · simp [hdown] at hall

/-- What a disabled replacement hands back is wanted, unless it is switched off itself. -/
theorem mem_handBackWanted {model : Model} {affected : List String} {m r : String} (h : r ∈ handBackPlan model m) (hm : m ∈ affected)
    (hr : r ∉ affected) : r ∈ handBackWanted model affected := by
  have hplan : r ∈ handBackPlan (withEnabled model ((affected.dedup.filter (· ≠ m)).map fun mid => (mid, false))) m :=
    handBackPlan_off h (by simp)
  have hkeep : ∀ (plan wanted : List String), r ∈ wanted ∨ r ∈ plan →
      r ∈ plan.foldl (fun wanted back => if back ∉ wanted ∧ back ∉ affected.dedup then wanted ++ [back] else wanted) wanted := by
    intro plan
    induction plan with
    | nil => simp
    | cons back plan ih =>
      rintro wanted (hold | hnew)
      · refine ih _ (.inl ?_)
        dsimp only
        by_cases hadd : back ∉ wanted ∧ back ∉ affected.dedup
        · rw [if_pos hadd]
          exact List.mem_append_left _ hold
        · rw [if_neg hadd]
          exact hold
      · rcases List.mem_cons.1 hnew with rfl | hnew
        · refine ih _ (.inl ?_)
          by_cases hin : r ∈ wanted
          · simp [hin]
          · simp [hin, hr]
        · exact ih _ (.inr hnew)
  have hfold : ∀ (ids wanted : List String), r ∈ wanted ∨ m ∈ ids →
      r ∈ ids.foldl (fun wanted id =>
        (handBackPlan (withEnabled model ((affected.dedup.filter (· ≠ id)).map fun mid => (mid, false))) id).foldl
          (fun wanted back => if back ∉ wanted ∧ back ∉ affected.dedup then wanted ++ [back] else wanted) wanted) wanted := by
    intro ids
    induction ids with
    | nil => simp
    | cons id ids ih =>
      rintro wanted (hold | hin)
      · exact ih _ (.inl (hkeep _ _ (.inl hold)))
      · rcases List.mem_cons.1 hin with rfl | hin
        · exact ih _ (.inl (hkeep _ _ (.inr hplan)))
        · exact ih _ (.inr hin)
  exact hfold _ [] (.inr (List.mem_dedup.2 hm))

theorem handBackLoop_covers {catalog : List CatalogRow} {model : Model} {off : List String} (r : String) :
    ∀ (ids : List String) (acc out : List String × List Unavailable),
      ids.foldlM (m := Except String)
        (fun acc back => do
          let inner ←
            match catalogRow catalog back with
            | none => .ok [EnableProblem.notManageable back]
            | some item =>
              if item.isProtected || !item.managed then .ok [EnableProblem.notManageable back]
              else moduleEnableProblems site catalog (withEnabled model (off.map fun id => (id, false))) item true
          if inner.isEmpty then return (acc.1 ++ [back], acc.2)
          else return (acc.1, acc.2 ++ [⟨back, inner.map (·.text), sortedIds (inner.filterMap (·.dependency)).dedup⟩])) acc = .ok out →
      ((r ∈ out.1 ∨ r ∈ out.2.map (·.module)) ↔ (r ∈ acc.1 ∨ r ∈ acc.2.map (·.module)) ∨ r ∈ ids) := by
  intro ids
  induction ids with
  | nil =>
    intro acc out hout
    cases hout
    simp
  | cons back ids ih =>
    intro acc out hout
    rw [List.foldlM_cons] at hout
    obtain ⟨mid, hmid, hout⟩ := bind_ok hout
    have hplaced : mid = (acc.1 ++ [back], acc.2) ∨ ∃ row : Unavailable, row.module = back ∧ mid = (acc.1, acc.2 ++ [row]) := by
      have hend : ∀ inner : List EnableProblem,
          (if inner.isEmpty then pure (acc.1 ++ [back], acc.2)
            else pure (acc.1, acc.2 ++ [⟨back, inner.map (·.text), sortedIds (inner.filterMap (·.dependency)).dedup⟩]) :
              Except String (List String × List Unavailable)) = .ok mid →
          mid = (acc.1 ++ [back], acc.2) ∨ ∃ row : Unavailable, row.module = back ∧ mid = (acc.1, acc.2 ++ [row]) := by
        intro inner hinner
        cases hempty : inner.isEmpty with
        | true =>
          rw [hempty, if_pos rfl] at hinner
          exact .inl (Except.ok.inj hinner).symm
        | false =>
          rw [hempty, if_neg Bool.false_ne_true] at hinner
          exact .inr ⟨_, rfl, (Except.ok.inj hinner).symm⟩
      dsimp only at hmid
      split at hmid
      · obtain ⟨inner, -, hmid⟩ := bind_ok hmid
        exact hend inner hmid
      · split at hmid
        · obtain ⟨inner, -, hmid⟩ := bind_ok hmid
          exact hend inner hmid
        · obtain ⟨inner, -, hmid⟩ := bind_ok hmid
          exact hend inner hmid
    rw [ih mid out hout]
    rcases hplaced with rfl | ⟨row, rfl, rfl⟩
    · simp only [List.mem_append, List.mem_cons]
      tauto
    · simp only [List.map_append, List.map_cons, List.map_nil, List.mem_append, List.mem_cons]
      tauto

/-- A split sorts every module it is given into one of its two lists. -/
theorem handBackSplit_covers {catalog : List CatalogRow} {model : Model} {willEnable off : List String} {can : List String}
    {cannot : List Unavailable} (h : handBackSplit site catalog model willEnable off = .ok (can, cannot)) (r : String) :
    r ∈ willEnable ↔ r ∈ can ∨ r ∈ cannot.map (·.module) := by
  simpa using (handBackLoop_covers r willEnable ([], []) (can, cannot) h).symm

/-- The modules of the list: the module itself, and what the walk saw. -/
theorem mem_affected {m : String} {back affected : List String}
    (haffected : affected = ((cascadeWalk site file m back (site.installed.length + 1)).finished.filter (· ≠ m)) ++ [m]) (x : String) :
    x ∈ affected ↔ x = m ∨ Relation.TransGen (ReliesOn site file m (back ≠ [])) x m := by
  have hgrown : DepthFirst.Grown (dependantsBelow site file m back) (site.installed.map (·.id)) ⟨[], [m]⟩
      (cascadeWalk site file m back (site.installed.length + 1)) :=
    (DepthFirst.visit_grown below_installed (site.installed.length + 1) m ⟨[], [m]⟩ (cascade_fuel m)).1
  have hfinished := hgrown.finished x
  have hseen : x ∈ (cascadeWalk site file m back (site.installed.length + 1)).finished ↔
      x = m ∨ x ∈ (cascadeWalk site file m back (site.installed.length + 1)).seen := by
    simpa using hfinished
  rw [haffected, List.mem_append, List.mem_filter, hseen, mem_cascadeWalk, List.mem_singleton, decide_eq_true_eq]
  by_cases heq : x = m
  · simp [heq]
  · simp [heq]

/-- What a module stands in for, when it comes back, is the one module that does. -/
theorem comes_back {pending : List QueuedJob} {m d : String} {back : List String} {cannot : List Unavailable} (hstands : StandsInFor site file m d)
    (hback : handBackSplit site (site.installed.map (Installed.row file)) (modelWithPendingJobs (liveModel site file) pending)
      (handBackPlan (modelWithPendingJobs (liveModel site file) pending) m) [m] = .ok (back, cannot))
    (hcomes : back ≠ []) : d ∈ handBackPlan (modelWithPendingJobs (liveModel site file) pending) m ∧ d ∈ back := by
  have hone : ∀ r ∈ back, r = d ∧ r ∈ handBackPlan (modelWithPendingJobs (liveModel site file) pending) m := by
    intro r hr
    have hplan := (handBackSplit_covers hback r).2 (.inl hr)
    refine ⟨?_, hplan⟩
    obtain ⟨node, target, hnode, -, -, htarget, -, -, -, rfl⟩ := mem_handBackPlan.1 hplan
    have hsame := same_pending (liveModel site file) pending m
    unfold StandsInFor honouredReplacement at hstands
    split at hstands
    · cases hstands
    rename_i live hlive
    rw [hnode, hlive, Option.map_some, Option.map_some] at hsame
    have hreplaces : node.replaces = live.replaces := by simpa using congrArg (fun found => found.map Node.replaces) hsame
    rw [pending_id htarget, hreplaces]
    grind -ring -linarith
  obtain ⟨r, hr⟩ := List.exists_mem_of_ne_nil back hcomes
  obtain ⟨rfl, hplan⟩ := hone r hr
  exact ⟨hplan, hr⟩

/-- The row of an id is that of the installed module. -/
theorem row_of_catalogRow {id : String} {row : CatalogRow} (h : catalogRow (site.installed.map (Installed.row file)) id = some row) :
    ∃ i ∈ site.installed, i.id = id ∧ row = i.row file := by
  obtain ⟨i, hi, rfl⟩ := List.mem_map.1 (List.mem_of_find?_eq_some h)
  have hid := List.find?_some h
  exact ⟨i, hi, of_decide_eq_true hid, rfl⟩

/-- What the disable branch puts into the job. -/
theorem disable_fields {live : Model} {target : CatalogRow} {request : SetEnabled} {job : QueuedJob} (hcascade : request.cascade = true)
    (h : queueDisable site file live (site.installed.map (Installed.row file)) target request = .ok job) :
    ∃ back cannot can skipped,
      handBackSplit site (site.installed.map (Installed.row file)) live (handBackPlan live target.id) [target.id] = .ok (back, cannot) ∧
      job.affectedModules = ((cascadeWalk site file target.id back (site.installed.length + 1)).finished.filter (· ≠ target.id)) ++ [target.id] ∧
      handBackSplit site (site.installed.map (Installed.row file)) live (handBackWanted live job.affectedModules) job.affectedModules =
        .ok (can, skipped) ∧
      job.enableModules = can ∧ job.handBackSkipped = sortedIds (skipped.map (·.module)) ∧
      (skipped ≠ [] → request.confirmWithoutHandBack = true) := by
  obtain ⟨comingBack, hback, h⟩ := bind_ok h
  obtain ⟨_, _, h⟩ := bind_ok h
  obtain ⟨split, hsplit, h⟩ := bind_ok h
  obtain ⟨_, hconfirm, h⟩ := bind_ok h
  simp only [hcascade, if_true, List.length_map] at hsplit h
  cases h
  refine ⟨comingBack.1, comingBack.2, split.1, split.2, of_refuse hback, rfl, of_refuse hsplit, rfl, rfl, ?_⟩
  intro hne
  have hor := of_require hconfirm
  simpa [hne] using hor

end CascadeAux

open CascadeAux

/-- Two modules that depend on each other, one of them also on a third. -/
def ringSite : Site where
  development := false
  versionSatisfies := fun _ _ => .ok true
  installed := [{ id := "base" }, { id := "left", dependencies := [("right", "*"), ("base", "*")] }, { id := "right", dependencies := [("left", "*")] }]
  nodup := by decide

/-- All three are enabled. -/
def ringState : Helper.StateFile :=
  .json (.obj [("schema", .num 1), ("modules", .obj [("base", .obj [("enabled", .bool true)]), ("left", .obj [("enabled", .bool true)]),
    ("right", .obj [("enabled", .bool true)])])])

/-- The job that disables the third with its dependants. -/
def disableRing : QueuedJob := ⟨.disable, "base", true, ["right", "left", "base"], [], [], false, []⟩

/-- A core module that is off, a module that stands in for it, and a module that depends on the core module. -/
def standInSite : Site where
  development := false
  versionSatisfies := fun _ _ => .ok true
  installed := [{ id := "reports", category := .core, capabilities := some [] },
    { id := "reports-plus", category := .premium, replaces := "reports", capabilities := some [] },
    { id := "dashboard", dependencies := [("reports", "*")] }]
  nodup := by decide

/-- The core module is off, the others are enabled. -/
def standInState : Helper.StateFile :=
  .json (.obj [("schema", .num 1), ("modules", .obj [("reports", .obj [("enabled", .bool false)]),
    ("reports-plus", .obj [("enabled", .bool true)]), ("dashboard", .obj [("enabled", .bool true)])])])

/-- The job that disables the module that stands in: the core module comes back. -/
def disableStandIn : QueuedJob := ⟨.disable, "reports-plus", true, ["reports-plus"], [], ["reports"], false, []⟩

end TecTac
