import TecTac.Lemmas.JobHelper

/-!
# Never both enabled

An enable job of the root helper leaves no replacement enabled next to the module it replaces, unless its list holds the
two together. A disable job settles no pair it finds: a pair that is both enabled after it was so before, and the job did
not touch it. Whatever an enable job switches off beyond its list and the pairs it settles was confirmed, and a job that
raises leaves the file.
-/

namespace TecTac

open Raise

namespace Helper

/-- The module `a` replaces the installed core or server module `b`. -/
def Replaces (manifests : Manifests) (a b : String) : Prop :=
  ∃ node target, Dict.get a manifests = some node ∧ node.replaces = b ∧ Dict.get b manifests = some target ∧
    target.category.replaceable = true

/-- The module `a` and the core or server module `b` it replaces are both enabled. -/
structure BothEnabled (manifests : Manifests) (enabled : String → Option Bool) (a b : String) : Prop where
  pair : Replaces manifests a b
  replacement : enabled a = some true
  replaced : enabled b = some true

/-- The list holds a module together with the core or server module it replaces. -/
def HoldsPair (manifests : Manifests) (ids : List String) : Prop := ∃ a ∈ ids, ∃ b ∈ ids, Replaces manifests a b

namespace NeverBothAux

variable {development : Bool} {manifests : Manifests} {model : HelperModel} {moduleIds confirmed : List String}
  {replacementConfirmed : Bool} {modules : Records}

/-! ### The plan of an enable job -/

/-- What the plan of an enable job says of one module of its list. -/
structure PlannedOne (development : Bool) (model : HelperModel) (moduleIds names : List String) (id : String) (node : HelperNode) :
    Prop where
  replaced : ∃ plan, planReplaced development model id node = .ok plan ∧ ∀ x ∈ plan, x ∈ names
  replacements : ∃ plan, planReplacements model moduleIds id node = .ok plan ∧ ∀ x ∈ plan, x ∈ names

/-- The loop of the plan goes through every module of the list, and keeps what it named. -/
theorem planned_of_fold {ids : List String} {acc planned : List String × Bool}
    (h : ids.foldlM (planOne development model moduleIds confirmed) acc = .ok planned) :
    (∀ x ∈ acc.1, x ∈ planned.1) ∧
      ∀ id ∈ ids, ∀ node, Dict.get id model = some node → PlannedOne development model moduleIds planned.1 id node := by
  induction ids generalizing acc with
  | nil =>
    cases h
    exact ⟨fun _ hx => hx, fun _ hid => by cases hid⟩
  | cons first ids ih =>
    rw [List.foldlM_cons] at h
    obtain ⟨next, hnext, h⟩ := bind_ok h
    obtain ⟨hkept, hrest⟩ := ih h
    unfold planOne at hnext
    cases hget : Dict.get first model with
    | none =>
      rw [hget] at hnext
      dsimp only at hnext
      split at hnext
      · cases hnext
        refine ⟨hkept, fun id hid node hnode => ?_⟩
        rcases List.mem_cons.1 hid with rfl | hid
        · cases hget.symm.trans hnode
        · exact hrest id hid node hnode
      · cases hnext
    | some found =>
      rw [hget] at hnext
      obtain ⟨replaced, hreplaced, hnext⟩ := bind_ok hnext
      obtain ⟨replacements, hreplacements, hnext⟩ := bind_ok hnext
      cases hnext
      dsimp only at hkept
      refine ⟨fun x hx => hkept x (by simp [hx]), fun id hid node hnode => ?_⟩
      rcases List.mem_cons.1 hid with rfl | hid
      · have hsame : found = node := Option.some.inj (hget.symm.trans hnode)
        subst hsame
        exact ⟨⟨replaced, hreplaced, fun x hx => hkept x (by simp [hx])⟩,
          ⟨replacements, hreplacements, fun x hx => hkept x (by simp [hx])⟩⟩
      · exact hrest id hid node hnode

theorem mem_sortedMinus {ids others : List String} {x : String} : x ∈ sortedMinus ids others ↔ x ∈ ids ∧ x ∉ others := by
  unfold sortedMinus sortedIds
  rw [List.mem_insertionSort, List.mem_dedup, List.mem_filter]
  simp

/-- What a plan that is not refused says: the disables are confirmed and not in the list, and every module of the list went
through the rules with what it names disabled or in the list. -/
theorem planned_of_ok {disables : List String}
    (h : planEnableDisables development model moduleIds confirmed replacementConfirmed = .ok disables) :
    (∀ x ∈ disables, x ∈ confirmed ∧ x ∉ moduleIds) ∧ ∃ names, (∀ x ∈ names, x ∈ disables ∨ x ∈ moduleIds) ∧
      ∀ id ∈ moduleIds, ∀ node, Dict.get id model = some node → PlannedOne development model moduleIds names id node := by
  unfold planEnableDisables at h
  obtain ⟨planned, hplanned, h⟩ := bind_ok h
  obtain ⟨_, hconfirmed, h⟩ := bind_ok h
  obtain ⟨_, _, h⟩ := bind_ok h
  cases h
  have hempty := List.isEmpty_iff.1 (of_require hconfirmed)
  refine ⟨fun x hx => ⟨?_, (mem_sortedMinus.1 hx).2⟩, planned.1, fun x hx => ?_, (planned_of_fold hplanned).2⟩
  · by_contra hnot
    have hmem : x ∈ sortedMinus (sortedMinus planned.1 moduleIds) confirmed := mem_sortedMinus.2 ⟨hx, hnot⟩
    rw [hempty] at hmem
    cases hmem
  · by_cases hin : x ∈ moduleIds
    · exact Or.inr hin
    · exact Or.inl (mem_sortedMinus.2 ⟨hx, hin⟩)

/-- A replacement that may be enabled has its target disabled already, or names it. -/
theorem target_of_planReplaced {id : String} {node target : HelperNode} {plan : List String}
    (h : planReplaced development model id node = .ok plan) (hget : Dict.get id model = some node)
    (hreplaces : node.replaces ≠ "") (htarget : Dict.get node.replaces model = some target)
    (hcat : target.category.replaceable = true) (hon : target.enabled = true) : target.id ∈ plan := by
  unfold planReplaced at h
  rw [if_neg hreplaces] at h
  cases henabled : node.enabled with
  | true =>
    -- the check sees the target enabled, so it refuses
    exfalso
    have hrefused : ∃ reason, replacementCheck development model id true = some reason := by
      unfold replacementCheck
      simp only [hget, hreplaces, if_false, Bool.not_true, Bool.and_false, Bool.false_eq_true, htarget, hcat, hon, if_true]
      split
      · exact ⟨_, rfl⟩
      · exact ⟨_, rfl⟩
    obtain ⟨reason, hreason⟩ := hrefused
    simp [henabled, hreason] at h
  | false =>
    have hplan : hypotheticalDisable model node = (Dict.set target.id { target with enabled := false } model, [target.id]) := by
      simp [hypotheticalDisable, htarget, hcat, hon]
    simp only [henabled, Bool.false_eq_true, if_false, hplan] at h
    split at h
    · cases h
    · cases h
      exact List.mem_singleton.2 rfl

/-! ### The flags after an enable job -/

theorem get_manifest (htrusted : manifests.Trusted) {id : String} {node : ManifestNode}
    (hget : Dict.get id manifests = some node) :
    node.id = id ∧ node.Allowed :=
  ⟨htrusted.ids (id, node) (Dict.mem_of_get hget), htrusted.rules (id, node) (Dict.mem_of_get hget)⟩

/-- A module that is replaced has a name. -/
theorem replaces_ne (htrusted : manifests.Trusted) {b : String} {target : ManifestNode}
    (htarget : Dict.get b manifests = some target) :
    b ≠ "" := by
  obtain ⟨hid, hrules⟩ := get_manifest htrusted htarget
  rw [← hid]
  exact hrules.id_ne

/-- A replacement that is enabled next to the module it replaces is found. -/
theorem mem_conflicted (htrusted : manifests.Trusted) {after : HelperModel}
    (hafter : replacementModel manifests modules = .ok after)
    {a b : String} (h : BothEnabled manifests (enabledIn modules) a b) : a ∈ conflictedReplacementIds after := by
  obtain ⟨node, target, hnode, hreplaces, htarget, hcat⟩ := h.pair
  obtain ⟨on, hon, hget⟩ := get_replacementModel hafter hnode
  obtain ⟨on', hon', hget'⟩ := get_replacementModel hafter htarget
  have hon : on = true := Option.some.inj (hon.symm.trans h.replacement)
  have hon' : on' = true := Option.some.inj (hon'.symm.trans h.replaced)
  subst hon hon'
  have hne : b ≠ "" := replaces_ne htrusted htarget
  unfold conflictedReplacementIds sortedIds
  rw [List.mem_insertionSort, List.mem_map]
  refine ⟨{ node with enabled := true }, ?_, (get_manifest htrusted hnode).1⟩
  rw [List.mem_filter]
  refine ⟨List.mem_map.2 ⟨(a, { node with enabled := true }), Dict.mem_of_get hget, rfl⟩, ?_⟩
  simp [hne, hreplaces, hget', hcat]

/-- The keys of the model are those of the manifests. -/
theorem mem_of_mem_model {after : HelperModel} (hafter : replacementModel manifests modules = .ok after)
    {p : String × HelperNode}
    (hp : p ∈ after) : ∃ q ∈ manifests, q.1 = p.1 ∧ p.2.toManifestNode = q.2 ∧ enabledIn modules p.1 = some p.2.enabled := by
  unfold replacementModel at hafter
  induction manifests generalizing after with
  | nil =>
    cases hafter
    cases hp
  | cons first manifests ih =>
    rw [List.mapM_cons] at hafter
    obtain ⟨q, hq, hafter⟩ := bind_ok hafter
    obtain ⟨rest, hrest, hafter⟩ := bind_ok hafter
    cases hafter
    rcases List.mem_cons.1 hp with rfl | hp
    · obtain ⟨fields, hfields, hq⟩ := bind_ok hq
      cases hq
      exact ⟨first, List.mem_cons_self, rfl, rfl, by simp [enabledIn, hfields, Except.toOption]⟩
    · obtain ⟨q', hq', h⟩ := ih hrest hp
      exact ⟨q', List.mem_cons_of_mem _ hq', h⟩

/-- What is found is a replacement next to an enabled module that it replaces. -/
theorem of_mem_conflicted (htrusted : manifests.Trusted) {after : HelperModel}
    (hafter : replacementModel manifests modules = .ok after)
    {a : String} (h : a ∈ conflictedReplacementIds after) : ∃ b, BothEnabled manifests (enabledIn modules) a b := by
  unfold conflictedReplacementIds sortedIds at h
  rw [List.mem_insertionSort, List.mem_map] at h
  obtain ⟨node, hnode, hid⟩ := h
  obtain ⟨hmem, hcond⟩ := List.mem_filter.1 hnode
  obtain ⟨p, hp, rfl⟩ := List.mem_map.1 hmem
  obtain ⟨q, hq, hkey, hmanifest, henabled⟩ := mem_of_mem_model hafter hp
  simp only [Bool.and_eq_true, bne_iff_ne, ne_eq, Option.any_eq_true] at hcond
  obtain ⟨⟨_, hon⟩, target, htarget, htargetOn, hcat⟩ := hcond
  obtain ⟨q', hq', hkey', hmanifest', henabled'⟩ := mem_of_mem_model hafter (Dict.mem_of_get htarget)
  have hself : q.2.id = a := by
    rw [← hmanifest]
    exact hid
  have hqa : q.1 = a := (htrusted.ids q hq).symm.trans hself
  have hpa : p.1 = a := hkey.symm.trans hqa
  refine ⟨p.2.replaces, ⟨q.2, q'.2, ?_, by rw [← hmanifest], ?_, by rw [← hmanifest']; exact hcat⟩, ?_, ?_⟩
  · rw [← hqa]
    exact Dict.get_of_mem htrusted.keys hq
  · have hkey' : q'.1 = p.2.replaces := hkey'
    rw [← hkey']
    exact Dict.get_of_mem htrusted.keys hq'
  · rw [hpa, hon] at henabled
    exact henabled
  · rw [henabled', htargetOn]

/-- What an enable job does to the flags. -/
structure EnableFlags (development : Bool) (manifests : Manifests) (moduleIds confirmed : List String) (modules : Records)
    (r : EnableResult) (model after : HelperModel) (written : Records) : Prop where
  model_eq : replacementModel manifests modules = .ok model
  after_eq : replacementModel manifests written = .ok after
  disabled : ∀ x ∈ r.disabled, x ∈ confirmed ∧ x ∉ moduleIds
  planned : ∃ names, (∀ x ∈ names, x ∈ r.disabled ∨ x ∈ moduleIds) ∧
    ∀ id ∈ moduleIds, ∀ node, Dict.get id model = some node → PlannedOne development model moduleIds names id node
  written_flags : ∀ id, enabledIn written id = if id ∈ r.disabled then some false else if id ∈ moduleIds then some true
    else enabledIn modules id
  reconciled : ∀ id, id ∈ r.reconciled ↔ id ∈ conflictedReplacementIds after ∧ id ∉ moduleIds
  final_flags : ∀ id, enabledIn r.modules id = if id ∈ r.reconciled then some false else enabledIn written id

theorem enableFlags_of_ok {r : EnableResult}
    (h : applyEnableJob development manifests moduleIds confirmed replacementConfirmed modules = .ok r) :
    ∃ model after written, EnableFlags development manifests moduleIds confirmed modules r model after written := by
  unfold applyEnableJob at h
  obtain ⟨model, hmodel, h⟩ := bind_ok h
  obtain ⟨disables, hdisables, h⟩ := bind_ok h
  obtain ⟨_, _, h⟩ := bind_ok h
  obtain ⟨enabled, henabled, h⟩ := bind_ok h
  obtain ⟨written, hwritten, h⟩ := bind_ok h
  obtain ⟨after, hafter, h⟩ := bind_ok h
  obtain ⟨final, hfinal, h⟩ := bind_ok h
  cases h
  obtain ⟨hconfirmed, hplanned⟩ := planned_of_ok hdisables
  refine ⟨model, after, written, hmodel, hafter, hconfirmed, hplanned, fun id => ?_, fun id => ?_, enabledIn_setFlags hfinal⟩
  · rw [enabledIn_setFlags hwritten, enabledIn_setFlags henabled]
  · rw [List.mem_filter]
    simp

/-- After an enable job whose list holds no pair, no pair is both enabled. -/
theorem not_both_after_enable (htrusted : manifests.Trusted) {r : EnableResult}
    (h : applyEnableJob development manifests moduleIds confirmed replacementConfirmed modules = .ok r)
    (hpair : ¬ HoldsPair manifests moduleIds) (a b : String) : ¬ BothEnabled manifests (enabledIn r.modules) a b := by
  intro hboth
  obtain ⟨model, after, written, hf⟩ := enableFlags_of_ok h
  have hwritten : ∀ id, enabledIn r.modules id = some true → enabledIn written id = some true ∧ id ∉ r.reconciled := by
    intro id hid
    rw [hf.final_flags] at hid
    split at hid
    · cases hid
    · exact ⟨hid, by assumption⟩
  obtain ⟨ha, hnot⟩ := hwritten a hboth.replacement
  obtain ⟨hb, _⟩ := hwritten b hboth.replaced
  obtain ⟨node, target, hnode, hreplaces, htarget, hcat⟩ := hboth.pair
  -- the pair was both enabled when the job looked for such pairs, so the replacement is in the list
  have hconflict := mem_conflicted htrusted hf.after_eq ⟨hboth.pair, ha, hb⟩
  have hlist : a ∈ moduleIds := by
    by_contra hout
    exact hnot ((hf.reconciled a).2 ⟨hconflict, hout⟩)
  have hout : b ∉ moduleIds := fun hin => hpair ⟨a, hlist, b, hin, hboth.pair⟩
  -- so its target is not, was enabled before, and is not among the disables
  have hbefore : b ∉ r.disabled ∧ enabledIn modules b = some true := by
    rw [hf.written_flags] at hb
    split at hb
    · cases hb
    · exact ⟨by assumption, hb⟩
  obtain ⟨on, _, hget⟩ := get_replacementModel hf.model_eq hnode
  obtain ⟨on', hon', hget'⟩ := get_replacementModel hf.model_eq htarget
  have hon' : on' = true := Option.some.inj (hon'.symm.trans hbefore.2)
  subst hon'
  obtain ⟨names, hnames, hplanned⟩ := hf.planned
  obtain ⟨plan, hplan, hsub⟩ := (hplanned a hlist _ hget).replaced
  have hne : node.replaces ≠ "" := by
    rw [hreplaces]
    exact replaces_ne htrusted htarget
  have hmem := target_of_planReplaced hplan hget hne (hreplaces ▸ hget') hcat rfl
  have hid : target.id = b := (get_manifest htrusted htarget).1
  rcases hnames _ (hsub _ hmem) with hin | hin
  · exact hbefore.1 (hid ▸ hin)
  · exact hout (hid ▸ hin)

/-- What an enable job switches off was in its list, confirmed, or a replacement next to an enabled module. -/
theorem switched_off (htrusted : manifests.Trusted) {r : EnableResult}
    (h : applyEnableJob development manifests moduleIds confirmed replacementConfirmed modules = .ok r) (id : String)
    (hon : enabledIn modules id = some true) (hoff : enabledIn r.modules id = some false) :
    id ∈ confirmed ∨ (id ∈ r.reconciled ∧ ∃ b, Replaces manifests id b ∧ enabledIn r.modules b = some true) := by
  obtain ⟨model, after, written, hf⟩ := enableFlags_of_ok h
  rw [hf.final_flags] at hoff
  split at hoff
  · rename_i hin
    refine Or.inr ⟨hin, ?_⟩
    obtain ⟨b, hboth⟩ := of_mem_conflicted htrusted hf.after_eq ((hf.reconciled id).1 hin).1
    obtain ⟨_, target, _, _, htarget, hcat⟩ := hboth.pair
    -- the module it replaces is a core or server module, so it replaces nothing and is not settled itself
    have hkept : b ∉ r.reconciled := by
      intro hb
      obtain ⟨c, hboth'⟩ := of_mem_conflicted htrusted hf.after_eq ((hf.reconciled b).1 hb).1
      obtain ⟨node, _, hnode, hreplaces, hc, _⟩ := hboth'.pair
      have hsame : target = node := Option.some.inj (htarget.symm.trans hnode)
      subst hsame
      have hne : target.replaces ≠ "" := by
        rw [hreplaces]
        exact replaces_ne htrusted hc
      rcases (get_manifest htrusted htarget).2.replaces_category hne with hcat' | hcat'
      · rw [hcat'] at hcat
        cases hcat
      · rw [hcat'] at hcat
        cases hcat
    refine ⟨b, hboth.pair, ?_⟩
    rw [hf.final_flags, if_neg hkept]
    exact hboth.replaced
  · rw [hf.written_flags] at hoff
    split at hoff
    · exact Or.inl (hf.disabled id (by assumption)).1
    · split at hoff
      · cases hoff
      · rw [hon] at hoff
        cases hoff

/-! ### The flags after a disable job -/

/-- The flags after a disable job: the modules of its list are off, and the modules it switches back on, each of which passed
its check, are on. -/
theorem disableFlags_of_ok {confirmedEnable : List String} {r : DisableResult}
    (h : applyDisableJob manifests moduleIds confirmedEnable modules = .ok r) :
    ∃ enables : List String,
      (∀ id ∈ enables, ∃ model, replacementModel manifests modules = .ok model ∧ handBackOne model moduleIds id = .ok ()) ∧
      ∀ id, enabledIn r.modules id =
        if id ∈ enables then some true else if id ∈ moduleIds then some false else enabledIn modules id := by
  obtain ⟨enables, henables, h⟩ := bind_ok h
  obtain ⟨_, _, h⟩ := bind_ok h
  obtain ⟨disabled, hdisabled, h⟩ := bind_ok h
  obtain ⟨final, hfinal, h⟩ := bind_ok h
  cases h
  refine ⟨enables, ?_, ?_⟩
  · intro id hid
    unfold handBack at henables
    split at henables
    · cases henables
      cases hid
    · obtain ⟨model, hmodel, henables⟩ := bind_ok henables
      obtain ⟨_, hall, henables⟩ := bind_ok henables
      cases henables
      exact ⟨model, hmodel, forM_ok_iff.1 hall id hid⟩
  · intro id
    rw [enabledIn_setFlags hfinal, enabledIn_setFlags hdisabled]

/-- A module that may be handed back is a core or server module, and no other enabled module that stays replaces it. -/
theorem handBackOne_ok {id : String} {target : HelperNode} (h : handBackOne model moduleIds id = .ok ())
    (hget : Dict.get id model = some target) :
    target.category.replaceable = true ∧
      ∀ key other, Dict.get key model = some other → other.enabled = true → other.replaces = id → other.id ∈ moduleIds := by
  unfold handBackOne at h
  rw [hget] at h
  obtain ⟨_, hreplaceable, h⟩ := bind_ok h
  obtain ⟨_, _, h⟩ := bind_ok h
  obtain ⟨_, _, hrivals⟩ := bind_ok h
  refine ⟨of_require hreplaceable, ?_⟩
  intro key other hother hon hreplaces
  have hnone := List.filter_eq_nil_iff.1 (List.isEmpty_iff.1 (of_require hrivals))
  have hmem := hnone other (List.mem_map.2 ⟨(key, other), Dict.mem_of_get hother, rfl⟩)
  simpa [hon, hreplaces] using hmem

/-- A replacement is never handed back: it is no core or server module. -/
theorem replacement_not_handed_back (htrusted : manifests.Trusted) {model : HelperModel}
    (hmodel : replacementModel manifests modules = .ok model) {a : String} {node : ManifestNode}
    (hnode : Dict.get a manifests = some node) (hne : node.replaces ≠ "") : handBackOne model moduleIds a ≠ .ok () := by
  intro hone
  obtain ⟨on, _, hget⟩ := get_replacementModel hmodel hnode
  have hreplaceable : node.category.replaceable = true := (handBackOne_ok hone hget).1
  rcases (get_manifest htrusted hnode).2.replaces_category hne with hcat | hcat
  · rw [hcat] at hreplaceable
    cases hreplaceable
  · rw [hcat] at hreplaceable
    cases hreplaceable

/-- A pair that is both enabled after a disable job was so before, and the job did not touch it. -/
theorem both_before_disable (htrusted : manifests.Trusted) {confirmedEnable : List String} {r : DisableResult}
    (h : applyDisableJob manifests moduleIds confirmedEnable modules = .ok r) {a b : String}
    (hboth : BothEnabled manifests (enabledIn r.modules) a b) :
    BothEnabled manifests (enabledIn modules) a b ∧ a ∉ moduleIds ∧ b ∉ moduleIds := by
  obtain ⟨enables, hchecked, hflags⟩ := disableFlags_of_ok h
  obtain ⟨node, target, hnode, hreplaces, htarget, hcat⟩ := hboth.pair
  have hkept : ∀ id, enabledIn r.modules id = some true → id ∉ enables → id ∉ moduleIds ∧ enabledIn modules id = some true := by
    intro id hon hnot
    rw [hflags, if_neg hnot] at hon
    split at hon
    · cases hon
    · exact ⟨by assumption, hon⟩
  have ha : a ∉ moduleIds ∧ enabledIn modules a = some true := by
    refine hkept a hboth.replacement ?_
    intro hin
    obtain ⟨model, hmodel, hone⟩ := hchecked a hin
    have hne : node.replaces ≠ "" := by
      rw [hreplaces]
      exact replaces_ne htrusted htarget
    exact replacement_not_handed_back htrusted hmodel hnode hne hone
  have hb : b ∉ moduleIds ∧ enabledIn modules b = some true := by
    refine hkept b hboth.replaced ?_
    -- the replacement stays enabled, so the hand-back of the module it replaces would have been refused
    intro hin
    obtain ⟨model, hmodel, hone⟩ := hchecked b hin
    obtain ⟨on, hon, hget⟩ := get_replacementModel hmodel hnode
    obtain ⟨_, _, hget'⟩ := get_replacementModel hmodel htarget
    have hon : on = true := Option.some.inj (hon.symm.trans ha.2)
    have hrival := (handBackOne_ok hone hget').2 a _ hget hon hreplaces
    have hself : node.id = a := (get_manifest htrusted hnode).1
    exact ha.1 (hself ▸ hrival)
  exact ⟨⟨hboth.pair, ha.2, hb.2⟩, ha.1, hb.1⟩

/-- A disable job switches off the modules of its list only. -/
theorem switched_off_disable {confirmedEnable : List String} {r : DisableResult}
    (h : applyDisableJob manifests moduleIds confirmedEnable modules = .ok r) (id : String)
    (hon : enabledIn modules id = some true) (hoff : enabledIn r.modules id = some false) : id ∈ moduleIds := by
  obtain ⟨enables, _, hflags⟩ := disableFlags_of_ok h
  rw [hflags] at hoff
  split at hoff
  · cases hoff
  · split at hoff
    · assumption
    · rw [hon] at hoff
      cases hoff

/-! ### The file -/

theorem ok_of_map {α β : Type} {f : α → β} {x : Except String α} {b : β} (h : x.map f = .ok b) : ∃ a, x = .ok a ∧ f a = b := by
  cases x with
  | error e => cases h
  | ok a => exact ⟨a, rfl, Except.ok.inj h⟩

/-- A job that raises leaves the file. -/
theorem file_of_error {α : Type} {urlsplit : String → Option UrlParts} {fault : Option String}
    {callback : Records → Except String (α × Records)} {file file' : StateFile} {e : String}
    (h : mutateModuleState urlsplit fault callback file = (.error e, file')) : file' = file := by
  unfold mutateModuleState at h
  dsimp only at h
  split at h
  · cases h
  · cases h
    rfl

end NeverBothAux

/-- Never both enabled. After an enable job that the helper accepts and whose list does not hold a module together with the
core or server module it replaces, no enabled module replaces an enabled core or server module. After a disable job, two
that are both enabled were so before and the job did not touch them. What a job switched off besides its list was
confirmed, or was a replacement that was settled because the module it replaces is enabled. A job that raises leaves the
file. -/
theorem never_both_enabled (urlsplit : String → Option UrlParts) (fault : Option String) (development : Bool)
    (manifests : Manifests) (htrusted : manifests.Trusted) (moduleIds confirmed confirmedEnable : List String)
    (replacementConfirmed : Bool) (file : StateFile) :
    (∀ r file', enableJob urlsplit fault development manifests moduleIds confirmed replacementConfirmed file = (.ok r, file') →
      (¬ HoldsPair manifests moduleIds → ∀ a b, ¬ BothEnabled manifests (fileEnabled file') a b) ∧
      ∀ id, fileEnabled file id = some true → fileEnabled file' id = some false → id ∈ confirmed ∨
        (id ∈ r.reconciled ∧ ∃ b, Replaces manifests id b ∧ fileEnabled file' b = some true)) ∧
    (∀ r file', disableJob urlsplit fault manifests moduleIds confirmedEnable file = (.ok r, file') →
      (∀ a b, BothEnabled manifests (fileEnabled file') a b →
        BothEnabled manifests (fileEnabled file) a b ∧ a ∉ moduleIds ∧ b ∉ moduleIds) ∧
      ∀ id, fileEnabled file id = some true → fileEnabled file' id = some false → id ∈ moduleIds) ∧
    (∀ e file', enableJob urlsplit fault development manifests moduleIds confirmed replacementConfirmed file = (.error e, file') →
      file' = file) ∧
    ∀ e file', disableJob urlsplit fault manifests moduleIds confirmedEnable file = (.error e, file') → file' = file := by
  have hbefore : ∀ {s : State}, loadModuleState file = .ok s → fileEnabled file = enabledIn s.modules := by
    intro s hs
    funext id
    unfold fileEnabled
    rw [hs]
  refine ⟨?_, ?_, ?_, ?_⟩
  · intro r file' h
    obtain ⟨s, modules, hs, hcallback, hfile⟩ := fileEnabled_mutate h
    obtain ⟨r', hr, hpair⟩ := NeverBothAux.ok_of_map hcallback
    cases hpair
    have hfile : fileEnabled file' = enabledIn r.modules := funext hfile
    rw [hbefore hs, hfile]
    exact ⟨fun hno a b => NeverBothAux.not_both_after_enable htrusted hr hno a b, NeverBothAux.switched_off htrusted hr⟩
  · intro r file' h
    obtain ⟨s, modules, hs, hcallback, hfile⟩ := fileEnabled_mutate h
    obtain ⟨r', hr, hpair⟩ := NeverBothAux.ok_of_map hcallback
    cases hpair
    have hfile : fileEnabled file' = enabledIn r.modules := funext hfile
    rw [hbefore hs, hfile]
    exact ⟨fun a b => NeverBothAux.both_before_disable htrusted hr, NeverBothAux.switched_off_disable hr⟩
  · intro e file' h
    exact NeverBothAux.file_of_error h
  · intro e file' h
    exact NeverBothAux.file_of_error h

/-- A core module, a premium module that replaces it, and a third one. -/
def sampleManifests : Manifests :=
  [("patching", ⟨"patching", .core, "", some []⟩), ("patching-plus", ⟨"patching-plus", .premium, "patching", some []⟩),
    ("notes", ⟨"notes", .premium, "", none⟩)]

theorem sampleManifests_trusted : sampleManifests.Trusted where
  keys := by decide
  ids := by decide
  rules := by
    intro p hp
    simp only [sampleManifests, List.mem_cons, List.not_mem_nil, or_false] at hp
    rcases hp with rfl | rfl | rfl
    · exact ⟨by decide, by decide, fun h => absurd rfl h, by decide⟩
    · exact ⟨by decide, by decide, fun _ => Or.inr rfl, fun h => by cases h⟩
    · exact ⟨by decide, by decide, fun h => absurd rfl h, fun h => by cases h⟩

/-- The state in which the replacement is off and the other two are on. -/
def sampleState : StateFile :=
  .json (.obj [("schema", .num 1), ("modules", .obj [("patching-plus", .obj [("enabled", .bool false)])])])

theorem never_both_enabled_sample :
    (enableJob (fun _ => none) none false sampleManifests ["patching-plus"] ["patching"] false sampleState).1.toOption.map
        (·.disabled) = some ["patching"] ∧
      ∀ a b, ¬ BothEnabled sampleManifests (fileEnabled
        (enableJob (fun _ => none) none false sampleManifests ["patching-plus"] ["patching"] false sampleState).2) a b := by
  refine ⟨by decide +kernel, ?_⟩
  obtain ⟨r, hr⟩ : ∃ r, (enableJob (fun _ => none) none false sampleManifests ["patching-plus"] ["patching"] false sampleState).1 =
      .ok r := ⟨_, rfl⟩
  refine ((never_both_enabled (fun _ => none) none false sampleManifests sampleManifests_trusted ["patching-plus"] ["patching"] []
    false sampleState).1 r _ (Prod.ext hr rfl)).1 ?_
  rintro ⟨a, ha, b, hb, node, _, hnode, hreplaces, _⟩
  rw [List.mem_singleton] at ha hb
  subst ha hb
  have hsame : node.replaces = "patching" := by
    have hfound : Dict.get "patching-plus" sampleManifests = some ⟨"patching-plus", .premium, "patching", some []⟩ := rfl
    rw [Option.some.inj (hnode.symm.trans hfound)]
  rw [hsame] at hreplaces
  exact absurd hreplaces (by decide)

/-- With no state file every module is enabled. A job that disables a third module is accepted, and the core module and its
replacement are both enabled after it. -/
theorem disable_job_leaves_pair :
    ∃ r file', disableJob (fun _ => none) none sampleManifests ["notes"] [] .absent = (.ok r, file') ∧
      BothEnabled sampleManifests (fileEnabled file') "patching-plus" "patching" :=
  ⟨_, _, rfl, ⟨_, _, rfl, rfl, rfl, rfl⟩, by decide_cbv, by decide_cbv⟩

end Helper

end TecTac
