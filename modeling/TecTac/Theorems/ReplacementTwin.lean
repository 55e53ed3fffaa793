import TecTac.JobHelper

/-!
# The root helper's twin of the replacement rules

Core and the root helper have the replacement rules twice, over nodes of different shapes. For every model that the
manifest rules allow they agree: on the reason code of the check, on what enabling a module disables and whether it is
refused, and on the hand-back of a disable.
-/

namespace TecTac

open Raise

/-- A node as the helper has it. -/
def Node.toHelper (n : Node) : Helper.HelperNode := ⟨⟨n.id, n.category, n.replaces, n.capabilities⟩, n.enabled⟩

@[simp] theorem Node.toHelper_id (n : Node) : n.toHelper.id = n.id := rfl

@[simp] theorem Node.toHelper_category (n : Node) : n.toHelper.category = n.category := rfl

@[simp] theorem Node.toHelper_replaces (n : Node) : n.toHelper.replaces = n.replaces := rfl

@[simp] theorem Node.toHelper_capabilities (n : Node) : n.toHelper.capabilities = n.capabilities := rfl

@[simp] theorem Node.toHelper_enabled (n : Node) : n.toHelper.enabled = n.enabled := rfl

/-- A model as the helper has it. -/
def Model.toHelper (model : Model) : Helper.HelperModel := Dict.mapValues Node.toHelper model

/-- The manifest rules allow the model: every module once, under its own id, with a manifest that keeps its rules. -/
structure Model.Allowed (model : Model) : Prop where
  keys : (model.map Prod.fst).Nodup
  ids : ∀ p ∈ model, p.2.id = p.1
  manifests : ∀ p ∈ model, p.2.toHelper.toManifestNode.Allowed

namespace TwinAux

variable {development : Bool} {model : Model} {id : String} {node : Node}

/-! ### The check -/

theorem categoryOk_eq (c : Category) : Helper.replacementCategoryOk development c = replacementCategoryOk development c := by
  cases c <;> rfl

theorem versionWithinDeclared_eq (want have_ : CapVersion) :
    Helper.versionWithinDeclared want have_ = (versionWithinDeclared want have_).map Reason.code := by
  unfold Helper.versionWithinDeclared versionWithinDeclared
  split
  · rfl
  · split <;> rfl

/-- The two loops over the capabilities end with the same reason. -/
theorem capabilitiesReason_eq (replaced replacement : Node) :
    Helper.capabilitiesReason (replaced.capabilities.getD []) (replacement.capabilities.getD []) =
      (parity replaced replacement).1.map Reason.code := by
  unfold Helper.capabilitiesReason parity
  let reasonOf := fun acc : Option Reason × List CapFailure => acc.1.map Reason.code
  show List.foldl _ (reasonOf (none, [])) _ = reasonOf (List.foldl _ (none, []) _)
  refine List.foldl_hom reasonOf ?_
  intro acc cap
  dsimp only [reasonOf]
  cases hwant : Dict.get cap (replaced.capabilities.getD []) with
  | none => rfl
  | some want =>
    cases hhave : Dict.get cap (replacement.capabilities.getD []) with
    | none => cases acc.1 <;> rfl
    | some have_ =>
      simp only [capReason, versionWithinDeclared_eq]
      cases versionWithinDeclared want have_ with
      | none => cases acc.1 <;> rfl
      | some code => cases acc.1 <;> rfl

theorem any_toHelper (model : Model) (p : Helper.HelperNode → Bool) :
    (model.toHelper.any fun q => p q.2) = model.any fun q => p q.2.toHelper := by
  unfold Model.toHelper Dict.mapValues
  rw [List.any_map]
  rfl

theorem get_toHelper (model : Model) (id : String) : Dict.get id model.toHelper = (Dict.get id model).map Node.toHelper :=
  Dict.get_mapValues Node.toHelper id model

/-- The two checks answer with the same reason. -/
theorem replacementCheck_eq (model : Model) (id : String) (assumeEnabled : Bool) :
    Helper.replacementCheck development model.toHelper id assumeEnabled =
      (check development model id assumeEnabled).1.map Reason.code := by
  unfold Helper.replacementCheck check Model.competing
  rw [get_toHelper]
  cases Dict.get id model with
  | none => rfl
  | some node =>
    simp only [Option.map_some, get_toHelper, Node.toHelper_replaces, Node.toHelper_enabled, Node.toHelper_category,
      Node.toHelper_capabilities, categoryOk_eq]
    split
    · rfl
    · split
      · rfl
      · split
        · rfl
        · cases Dict.get node.replaces model with
          | none => rfl
          | some target =>
            have hany := any_toHelper model fun q => q.id != id && q.enabled && q.replaces == node.replaces
            simp only [Option.map_some, Node.toHelper_category, Node.toHelper_enabled, Node.toHelper_id, Node.toHelper_replaces,
              Node.toHelper_capabilities] at hany ⊢
            simp only [hany]
            split
            · rfl
            · split
              · rfl
              · split
                · rfl
                · have hloop := capabilitiesReason_eq target node
                  cases hcaps : target.capabilities with
                  | none => rfl
                  | some caps =>
                    rw [hcaps] at hloop
                    exact hloop

/-! ### What enabling disables -/

/-- A module of the model has the id it is found under. -/
theorem id_of_get (h : model.Allowed) (hget : Dict.get id model = some node) : node.id = id :=
  h.ids (id, node) (Dict.mem_of_get hget)

/-- The manifest of a module keeps the rules. -/
theorem manifest_of_get (h : model.Allowed) (hget : Dict.get id model = some node) :
    node.toHelper.toManifestNode.Allowed := h.manifests (id, node) (Dict.mem_of_get hget)

/-- A module that replaces another is no core or server module. -/
theorem not_replaceable (h : model.Allowed) (hget : Dict.get id model = some node) (hreplaces : node.replaces ≠ "") :
    node.category.replaceable = false := by
  rcases (manifest_of_get h hget).replaces_category hreplaces with hcat | hcat
  · have hcat : node.category = .unset := hcat
    rw [hcat]
    rfl
  · have hcat : node.category = .premium := hcat
    rw [hcat]
    rfl

theorem hypothetical_false (model : Model) (node : Node) : hypothetical model node false = (model, []) := by
  unfold hypothetical
  split
  · rfl
  · simp

/-- The two hypothetical models are the same. -/
theorem hypotheticalDisable_eq (h : model.Allowed) (node : Node) :
    Helper.hypotheticalDisable model.toHelper node.toHelper =
      ((hypothetical model node true).1.toHelper, (hypothetical model node true).2) := by
  unfold Helper.hypotheticalDisable hypothetical
  rw [get_toHelper, Node.toHelper_replaces]
  cases htarget : Dict.get node.replaces model with
  | none => rfl
  | some target =>
    simp only [Option.map_some, Node.toHelper_category, Node.toHelper_enabled, Node.toHelper_id, Bool.not_true, Bool.false_or,
      List.not_mem_nil, decide_false, Bool.or_false]
    by_cases hcond : (!target.category.replaceable || !target.enabled) = true
    · simp only [hcond, if_true]
    · have hon : target.enabled = true := by
        cases hen : target.enabled with
        | true => rfl
        | false => simp [hen] at hcond
      have hid := id_of_get h htarget
      have hwith : withEnabled model [(target.id, false)] = Dict.set target.id { target with enabled := false } model := by
        simp [withEnabled, hid, htarget, hon]
      simp only [hcond, if_false, hwith, Model.toHelper, Dict.mapValues_set, Bool.false_eq_true]
      rfl

/-- What a module that replaces another disables, in the helper and in Core. -/
theorem planReplaced_eq (development : Bool) (id : String) (h : model.Allowed) (hreplaces : node.replaces ≠ "") :
    Helper.planReplaced development model.toHelper id node.toHelper =
      match (check development (hypothetical model node (!node.enabled)).1 id true).1 with
      | some reason => .error ("module replacement rule refuses enabling " ++ id ++ ": " ++ reason.code)
      | none => .ok (hypothetical model node (!node.enabled)).2 := by
  unfold Helper.planReplaced
  rw [Node.toHelper_replaces, if_neg hreplaces, Node.toHelper_enabled]
  have hplan : (if node.enabled = true then (model.toHelper, []) else Helper.hypotheticalDisable model.toHelper node.toHelper) =
      ((hypothetical model node (!node.enabled)).1.toHelper, (hypothetical model node (!node.enabled)).2) := by
    cases node.enabled with
    | true => simp only [if_true, Bool.not_true, hypothetical_false]
    | false => simp only [Bool.false_eq_true, if_false, Bool.not_false, hypotheticalDisable_eq h]
  simp only [hplan, replacementCheck_eq]
  cases (check development (hypothetical model node (!node.enabled)).1 id true).1 with
  | none => rfl
  | some reason => rfl

/-! ### Sorted lists of ids -/

theorem sortedIds_perm {l l' : List String} (h : l.Perm l') : sortedIds l = sortedIds l' := by
  refine List.Perm.eq_of_sortedLE List.sortedLE_insertionSort List.sortedLE_insertionSort ?_
  exact ((List.perm_insertionSort _ l).trans h).trans (List.perm_insertionSort _ l').symm

theorem sortedMinus_self (l : List String) : Helper.sortedMinus l l = [] := by
  have hnone : (l.filter fun id => decide (id ∉ l)) = [] := by
    rw [List.filter_eq_nil_iff]
    intro x hx
    simp [hx]
  unfold Helper.sortedMinus
  rw [hnone]
  rfl

/-- With nothing to leave out and every id once, only the order changes. -/
theorem sortedMinus_of_not_mem {l others : List String} (hnodup : l.Nodup) (h : ∀ x ∈ l, x ∉ others) :
    Helper.sortedMinus l others = sortedIds l := by
  have hall : (l.filter fun id => decide (id ∉ others)) = l := by
    rw [List.filter_eq_self]
    intro x hx
    simpa using h x hx
  unfold Helper.sortedMinus
  rw [hall, List.dedup_eq_self.2 hnodup]

/-- The enabled modules that replace a module, in the order of the model. -/
def replacing (model : Model) (id : String) : List String :=
  ((model.map Prod.snd).filter fun other => other.enabled && other.replaces == id).map (·.id)

/-- No module replaces itself. -/
theorem ne_of_mem_replacing (h : model.Allowed) {x : String} (hx : x ∈ replacing model id) : x ≠ id := by
  obtain ⟨other, hother, hid⟩ := List.mem_map.1 hx
  obtain ⟨hmem, hcond⟩ := List.mem_filter.1 hother
  obtain ⟨p, hp, rfl⟩ := List.mem_map.1 hmem
  simp only [Bool.and_eq_true, beq_iff_eq] at hcond
  have hself : p.2.replaces ≠ p.2.id := (h.manifests p hp).replaces_ne
  intro heq
  exact hself (hcond.2.trans (heq.symm.trans hid.symm))

theorem replacing_nodup (h : model.Allowed) : (replacing model id).Nodup := by
  have hids : ((model.map Prod.snd).map (·.id)) = model.map Prod.fst := by
    rw [List.map_map]
    exact List.map_congr_left h.ids
  have hnodup : ((model.map Prod.snd).map (·.id)).Nodup := hids ▸ h.keys
  exact hnodup.sublist (List.filter_sublist.map _)

/-- `replacements_of`, for an installed core or server module. -/
theorem replacementsOf_eq (h : model.Allowed) (hget : Dict.get id model = some node) (hcat : node.category.replaceable = true) :
    replacementsOf model id = sortedIds (replacing model id) := by
  unfold replacementsOf replacing
  simp only [hget, hcat, Bool.not_true, Bool.false_eq_true, if_false]
  congr 2
  refine List.filter_congr ?_
  intro other hother
  obtain ⟨p, hp, rfl⟩ := List.mem_map.1 hother
  have hself : p.2.replaces ≠ p.2.id := (h.manifests p hp).replaces_ne
  by_cases hreplaces : p.2.replaces = id
  · have hne : p.2.id ≠ id := fun heq => hself (hreplaces.trans heq.symm)
    simp [hreplaces, hne]
  · simp [hreplaces]

/-- The helper finds the same replacements, in the order of their ids. -/
theorem sorted_filter_perm (model : Model) (id : String) :
    ((model.toHelper.sorted.filter fun other => other.enabled && other.replaces == id).map (·.id)).Perm (replacing model id) := by
  have hsorted : model.toHelper.sorted.Perm ((model.map Prod.snd).map Node.toHelper) := by
    refine (List.perm_insertionSort _ _).trans ?_
    unfold Model.toHelper Dict.mapValues
    rw [List.map_map, List.map_map]
    exact List.Perm.refl _
  refine ((hsorted.filter _).map _).trans ?_
  unfold replacing
  rw [List.filter_map, List.map_map]
  exact List.Perm.refl _

/-- What enabling a disabled core or server module disables, in the helper: a permutation of its replacements, and the
refusal does not apply. -/
theorem planReplacements_eq (id : String) (h : model.Allowed) (hcat : node.category.replaceable = true)
    (hoff : node.enabled = false) :
    ∃ names, Helper.planReplacements model.toHelper [id] id node.toHelper = .ok names ∧ names.Perm (replacing model id) := by
  have hperm := sorted_filter_perm model id
  refine ⟨_, ?_, hperm⟩
  unfold Helper.planReplacements
  simp only [Node.toHelper_category, Node.toHelper_enabled, hcat, hoff, Bool.not_false, Bool.and_self, if_true]
  have hnone : (model.toHelper.sorted.filter fun other => other.enabled && other.replaces == id).find?
      (fun other => decide (other.id ∈ [id])) = none := by
    rw [List.find?_eq_none]
    intro other hother
    have hx : other.id ∈ replacing model id := hperm.mem_iff.1 (List.mem_map_of_mem hother)
    simpa using ne_of_mem_replacing h hx
  rw [hnone]

/-! ### The job that enables one module -/

/-- An enable job of one module whose plan is the confirmed list goes through. -/
theorem plan_single {m : Helper.HelperModel} (names : List String) (switched : Bool) {confirmed : List String}
    {replacementConfirmed : Bool}
    (hplanned : Helper.planOne development m [id] confirmed ([], false) id = .ok (names, switched))
    (hsorted : Helper.sortedMinus names [id] = confirmed) (hswitched : switched = true → replacementConfirmed = true) :
    Helper.planEnableDisables development m [id] confirmed replacementConfirmed = .ok confirmed := by
  have hswitch : (!switched || replacementConfirmed) = true := by
    cases switched with
    | false => rfl
    | true => simpa using hswitched rfl
  unfold Helper.planEnableDisables
  simp only [List.foldlM_cons, List.foldlM_nil, hplanned, pure_bind, hsorted, sortedMinus_self, hswitch, require_true, ok_bind,
    List.isEmpty_nil]
  rfl

/-- An enable job of one module that its rules refuse is refused. -/
theorem plan_single_error {m : Helper.HelperModel} {confirmed : List String} {replacementConfirmed : Bool} {e : String}
    (h : Helper.planOne development m [id] confirmed ([], false) id = .error e) :
    Helper.planEnableDisables development m [id] confirmed replacementConfirmed = .error e := by
  unfold Helper.planEnableDisables
  simp only [List.foldlM_cons, h, error_bind]

/-- Enabling a module that is not installed does nothing, in both. -/
theorem plan_missing (hget : Dict.get id model = none) :
    Helper.planEnableDisables development model.toHelper [id] (disablePlan development model id) (switchesReplacement model id) =
        .ok (disablePlan development model id) ∧ enableProblems development model id = [] := by
  have hplan : disablePlan development model id = [] := by simp [disablePlan, hget]
  refine ⟨?_, by simp [enableProblems, hget]⟩
  rw [hplan]
  refine plan_single [] false ?_ rfl (fun h => by cases h)
  simp [Helper.planOne, get_toHelper, hget]

/-- Enabling a module that replaces nothing goes through in both. -/
theorem plan_plain (h : model.Allowed) (hget : Dict.get id model = some node) (hreplaces : node.replaces = "") :
    Helper.planEnableDisables development model.toHelper [id] (disablePlan development model id) (switchesReplacement model id) =
        .ok (disablePlan development model id) ∧ enableProblems development model id = [] := by
  refine ⟨?_, by simp [enableProblems, hget, hreplaces]⟩
  have hplan : disablePlan development model id = if node.enabled then [] else replacementsOf model id := by
    simp [disablePlan, hget, hreplaces]
  have hreplaced : Helper.planReplaced development model.toHelper id node.toHelper = .ok [] := by
    simp [Helper.planReplaced, hreplaces]
  by_cases hsplit : node.category.replaceable = true ∧ node.enabled = false
  · obtain ⟨hcat, hoff⟩ := hsplit
    obtain ⟨names, hnames, hperm⟩ := planReplacements_eq id h hcat hoff
    have hsorted : Helper.sortedMinus names [id] = sortedIds (replacing model id) := by
      rw [sortedMinus_of_not_mem (hperm.nodup_iff.2 (replacing_nodup h)) ?_, sortedIds_perm hperm]
      intro x hx
      simpa using ne_of_mem_replacing h (hperm.mem_iff.1 hx)
    have hconfirmed : disablePlan development model id = sortedIds (replacing model id) := by
      rw [hplan, hoff, replacementsOf_eq h hget hcat]
      rfl
    rw [hconfirmed]
    refine plan_single names (!names.isEmpty) ?_ hsorted ?_
    · simp [Helper.planOne, get_toHelper, hget, hreplaced, hnames]
    · intro hswitched
      have hne : sortedIds (replacing model id) ≠ [] := by
        intro hnil
        have hlen := (hperm.trans (List.perm_insertionSort _ _).symm : names.Perm (sortedIds (replacing model id))).length_eq
        rw [hnil, List.length_nil] at hlen
        rw [List.length_eq_zero_iff.1 hlen] at hswitched
        cases hswitched
      simp [switchesReplacement, hget, hoff, replacementsOf_eq h hget hcat, hne]
  · have hnil : disablePlan development model id = [] := by
      rw [hplan]
      cases hon : node.enabled with
      | true => rfl
      | false =>
        have hcat : node.category.replaceable = false := by
          cases hcat : node.category.replaceable with
          | false => rfl
          | true => exact absurd ⟨hcat, hon⟩ hsplit
        simp [replacementsOf, hget, hcat]
    have hnone : Helper.planReplacements model.toHelper [id] id node.toHelper = .ok [] := by
      unfold Helper.planReplacements
      rw [if_neg]
      simpa [Bool.and_eq_true] using hsplit
    rw [hnil]
    refine plan_single [] false ?_ rfl (fun h => by cases h)
    simp [Helper.planOne, get_toHelper, hget, hreplaced, hnone]

/-- Enabling a module that replaces another: both refuse it, or both let it through with one plan. -/
theorem plan_replacement (development : Bool) (h : model.Allowed) (hget : Dict.get id model = some node)
    (hreplaces : node.replaces ≠ "") :
    (∃ reason, (check development (hypothetical model node (!node.enabled)).1 id true).1 = some reason ∧
        (∃ e, Helper.planEnableDisables development model.toHelper [id] (disablePlan development model id)
          (switchesReplacement model id) = .error e) ∧ enableProblems development model id ≠ []) ∨
      (Helper.planEnableDisables development model.toHelper [id] (disablePlan development model id)
          (switchesReplacement model id) = .ok (disablePlan development model id) ∧ enableProblems development model id = []) := by
  have hcat := not_replaceable h hget hreplaces
  have hnone : Helper.planReplacements model.toHelper [id] id node.toHelper = .ok [] := by
    simp [Helper.planReplacements, hcat]
  have hreplaced := planReplaced_eq development id h hreplaces
  have hproblems : enableProblems development model id =
      checkProblem id node.replaces (check development (hypothetical model node (!node.enabled)).1 id true) := by
    simp [enableProblems, hget, hreplaces]
  cases hreason : (check development (hypothetical model node (!node.enabled)).1 id true).1 with
  | some reason =>
    rw [hreason] at hreplaced
    refine Or.inl ⟨reason, rfl, ⟨"module replacement rule refuses enabling " ++ id ++ ": " ++ reason.code, plan_single_error ?_⟩, ?_⟩
    · simp [Helper.planOne, get_toHelper, hget, hreplaced]
    · simp [hproblems, checkProblem, hreason]
  | none =>
    rw [hreason] at hreplaced
    refine Or.inr ⟨?_, by simp [hproblems, checkProblem, hreason]⟩
    have hplan : disablePlan development model id = (hypothetical model node (!node.enabled)).2 := by
      cases hon : node.enabled with
      | true => simp [disablePlan, hget, hon, hypothetical_false]
      | false =>
        rw [hon] at hreason
        simp only [Bool.not_false] at hreason ⊢
        simp only [disablePlan, hget, hon, hreplaces, Bool.false_eq_true, if_false, hreason, Option.isSome_none]
        split
        · rename_i hempty
          exact (List.isEmpty_iff.1 hempty).symm
        · rfl
    have hsorted : Helper.sortedMinus (hypothetical model node (!node.enabled)).2 [id] =
        (hypothetical model node (!node.enabled)).2 := by
      have hself : node.replaces ≠ node.id := (manifest_of_get h hget).replaces_ne
      rw [id_of_get h hget] at hself
      unfold hypothetical
      split
      · rfl
      · rename_i target htarget
        split
        · rfl
        · have hid := id_of_get h htarget
          rw [sortedMinus_of_not_mem (by simp) (by simpa [hid] using hself)]
          rfl
    rw [← hplan] at hsorted hreplaced
    refine plan_single (disablePlan development model id) false ?_ hsorted (fun h => by cases h)
    simp [Helper.planOne, get_toHelper, hget, hreplaced, hnone]

/-! ### The hand-back -/

/-- The helper accepts the hand-back that Core plans. -/
theorem planHandBack_eq (h : model.Allowed) :
    Helper.planHandBack model.toHelper [id] (handBackPlan model id) = .ok (handBackPlan model id) := by
  unfold handBackPlan
  cases hget : Dict.get id model with
  | none => rfl
  | some node =>
    dsimp only
    split
    · rfl
    · rename_i hnode
      simp only [Bool.or_eq_true, decide_eq_true_eq, Bool.not_eq_true', not_or, Bool.not_eq_false] at hnode
      cases htarget : Dict.get node.replaces model with
      | none => rfl
      | some target =>
        dsimp only
        split
        · rfl
        · rename_i hcat
          simp only [Bool.or_eq_true, Bool.not_eq_true', not_or, Bool.not_eq_false, Bool.not_eq_true] at hcat
          split
          · rfl
          · rename_i hcompeting
            have hid := id_of_get h htarget
            have hleaving : ([id].filter fun mid => (Dict.get mid model.toHelper).any fun n => n.replaces == target.id && n.enabled) =
                [id] := by
              simp [get_toHelper, hget, hid, hnode.2]
            have hrivals : ((model.toHelper.map Prod.snd).filter fun other =>
                other.enabled && other.replaces == target.id && decide (other.id ∉ [id])) = [] := by
              rw [List.filter_eq_nil_iff]
              intro other hother
              unfold Model.toHelper Dict.mapValues at hother
              rw [List.map_map] at hother
              obtain ⟨p, hp, rfl⟩ := List.mem_map.1 hother
              simp only [Model.competing, List.any_eq_true, not_exists, not_and, Bool.not_eq_true] at hcompeting
              have hp' := hcompeting p hp
              simp only [Function.comp, Node.toHelper_enabled, Node.toHelper_replaces, Node.toHelper_id, hid]
              by_cases hself : p.2.id = id
              · simp [hself]
              · simp_all
            have hone : Helper.handBackOne model.toHelper [id] target.id = .ok () := by
              unfold Helper.handBackOne
              rw [get_toHelper, hid, htarget]
              rw [hid] at hleaving hrivals
              simp only [Option.map_some, Node.toHelper_category, Node.toHelper_enabled, hcat.1, hcat.2, Bool.not_false, require_true,
                ok_bind, hleaving, hrivals, List.isEmpty_cons, List.isEmpty_nil]
            simp [Helper.planHandBack, sortedIds, hone]

end TwinAux

/-- The root helper's twin agrees with Core: for every model that the manifest rules allow and every module id, the check
answers with Core's reason code, an enable job of the module with Core's plan confirmed goes through exactly when Core sees
no problem and then disables what Core's plan says, and the hand-back that Core plans is accepted. -/
theorem helper_twin_agrees (development : Bool) (model : Model) (h : model.Allowed) (id : String) :
    (∀ assumeEnabled, Helper.replacementCheck development model.toHelper id assumeEnabled =
        (check development model id assumeEnabled).1.map Reason.code) ∧
      ((∃ plan, Helper.planEnableDisables development model.toHelper [id] (disablePlan development model id)
        (switchesReplacement model id) = .ok plan) ↔ enableProblems development model id = []) ∧
      (∀ plan, Helper.planEnableDisables development model.toHelper [id] (disablePlan development model id)
        (switchesReplacement model id) = .ok plan → plan = disablePlan development model id) ∧
      Helper.planHandBack model.toHelper [id] (handBackPlan model id) = .ok (handBackPlan model id) := by
  refine ⟨fun assumeEnabled => TwinAux.replacementCheck_eq model id assumeEnabled, ?_⟩
  rw [← and_assoc]
  refine ⟨?_, TwinAux.planHandBack_eq h⟩
  have hgood : ∀ {r : Except String (List String)} {plan : List String} {problems : List ReplacementProblem},
      r = .ok plan ∧ problems = [] → ((∃ plan, r = .ok plan) ↔ problems = []) ∧ ∀ plan', r = .ok plan' → plan' = plan := by
    rintro r plan problems ⟨rfl, rfl⟩
    exact ⟨⟨fun _ => rfl, fun _ => ⟨plan, rfl⟩⟩, fun plan' hplan' => (Except.ok.inj hplan').symm⟩
  cases hget : Dict.get id model with
  | none => exact hgood (TwinAux.plan_missing hget)
  | some node =>
    by_cases hreplaces : node.replaces = ""
    · exact hgood (TwinAux.plan_plain h hget hreplaces)
    · rcases TwinAux.plan_replacement development h hget hreplaces with ⟨_, _, ⟨e, he⟩, hne⟩ | hboth
      · rw [he]
        refine ⟨⟨?_, fun hnil => absurd hnil hne⟩, ?_⟩
        · rintro ⟨plan, hplan⟩
          cases hplan
        · intro plan hplan
          cases hplan
      · exact hgood hboth

/-- The contract `patching.windows` at version 1.`minor`.0. -/
def samplePatching (minor : Nat) (h : minor < 1000000) : List (String × CapVersion) :=
  [("patching.windows", ⟨1, minor, 0, by decide, h, by decide⟩)]

/-- A core module with one contract, enabled, and a premium module that replaces it, disabled. -/
def sampleModel : Model :=
  [("patching", ⟨"patching", .core, true, "", some (samplePatching 2 (by decide))⟩),
    ("patching-plus", ⟨"patching-plus", .premium, false, "patching", some (samplePatching 3 (by decide))⟩)]

theorem sampleModel_allowed : sampleModel.Allowed where
  keys := by decide
  ids := by decide
  manifests := by
    intro p hp
    simp only [sampleModel, List.mem_cons, List.not_mem_nil, or_false] at hp
    rcases hp with rfl | rfl
    · exact ⟨by decide, by decide, fun h => absurd rfl h, by decide⟩
    · exact ⟨by decide, by decide, fun _ => Or.inr rfl, fun h => by cases h⟩

theorem helper_twin_agrees_sample :
    disablePlan false sampleModel "patching-plus" = ["patching"] ∧
      (∀ plan, Helper.planEnableDisables false sampleModel.toHelper ["patching-plus"]
        (disablePlan false sampleModel "patching-plus") (switchesReplacement sampleModel "patching-plus") = .ok plan →
        plan = disablePlan false sampleModel "patching-plus") :=
  ⟨by decide, (helper_twin_agrees false sampleModel sampleModel_allowed "patching-plus").2.2.1⟩

end TecTac
