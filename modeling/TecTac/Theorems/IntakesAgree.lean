import TecTac.Intake
import TecTac.Lemmas.InstallPlan

/-!
# The intake paths agree

A package can be offered alone, in a bundle or in a batch. The three paths have their gates and their plan from three pieces
of code. The theorem says for which candidates they accept alike, refuse what must be refused, and queue the plan that was
resolved.
-/

namespace TecTac

open Raise

/-- What one of the paths queued for the candidates. -/
def QueuedBy (i : Intake) (bundleId : String) (candidates : List Candidate) (job : QueuedInstall) : Prop :=
  queueBundle i bundleId candidates = .ok job ∨ queueBatch i candidates = .ok job ∨
    ∃ c, candidates = [c] ∧ queueSingle i c = .ok job

/-- A path accepts. -/
def Accepts (queued : Except Refusal QueuedInstall) : Prop := ∃ job, queued = .ok job

/-- The paths agree. They accept alike; what is queued has no disabled installed module, a plan that can be satisfied and
disables that are confirmed; and the plan of a v2 job is the resolved one, in the order that was asked for. -/
structure IntakesAgree (i : Intake) (bundleId : String) (candidates : List Candidate) : Prop where
  bundle : Accepts (queueBundle i bundleId candidates) ↔ Accepts (queueBatch i candidates)
  single : ∀ c, candidates = [c] → (Accepts (queueSingle i c) ↔ Accepts (queueBatch i candidates))
  gates : ∀ job, QueuedBy i bundleId candidates job →
    (∀ c ∈ candidates, c.id ∈ i.site.installed.map (·.id) → storedDisabled i.file c.id = false) ∧
      ∃ plan, resolveInstallPlan i.site i.preflight i.file candidates = .ok plan ∧ plan.valid = true ∧
        ∃ disables, confirmedDisables plan.willDisable i.disableReplaced "" = .ok disables
  plan : ∀ action plan disables, QueuedBy i bundleId candidates (.v2 action plan disables) →
    ∃ resolved planned, resolveInstallPlan i.site i.preflight i.file candidates = .ok resolved ∧
      planWithRequestedOrder resolved i.requestedOrder = .ok planned ∧ plan.order = planned.order ∧ plan.actions = planned.actions

/-- The gates that all paths have: the files are trusted, the candidates licensed, the plan resolves and is valid, the order
can be taken, and the disables are confirmed. -/
structure Cleared (i : Intake) (candidates : List Candidate) (resolved plan : Plan) (disables : List String) : Prop where
  trust : i.trust = .ok ()
  license : ∀ c ∈ candidates, i.license c = .ok ()
  resolves : resolveInstallPlan i.site i.preflight i.file candidates = .ok resolved
  valid : resolved.valid = true
  ordered : planWithRequestedOrder resolved i.requestedOrder = .ok plan
  confirmed : confirmedDisables resolved.willDisable i.disableReplaced "" = .ok disables

/-- When the paths agree: of candidates that pass the common gates none is disabled in the state, and one that is alone is
installable and renames nothing, and when it comes from a repository or disables a module, it is not installed and declares
no migration. -/
def PathsMeet (i : Intake) (candidates : List Candidate) : Prop :=
  (∃ resolved plan disables, Cleared i candidates resolved plan disables) →
    (∀ c ∈ candidates, storedDisabled i.file c.id = false) ∧
      ∀ c, candidates = [c] →
        installBlockReason i.site.development c = none ∧ renamedFrom i.site c = none ∧
          (i.source = true ∨ planDisables i.site i.file [c] ≠ [] → c.id ∉ i.site.installed.map (·.id) ∧ c.migration = {})

namespace IntakesAgreeAux

variable {i : Intake} {candidates : List Candidate}

/-! ## The gates -/

/-- What the operator confirms does not depend on the words of the refusal. -/
theorem confirmedDisables_subject (willDisable : List String) (given : Option (List String)) (subject subject' : String)
    (disables : List String) :
    confirmedDisables willDisable given subject = .ok disables ↔ confirmedDisables willDisable given subject' = .ok disables := by
  unfold confirmedDisables
  dsimp only
  split
  · rfl
  · split
    · rfl
    · constructor
      · intro h
        cases h
      · intro h
        cases h

/-- Another order changes the order and the actions only. -/
theorem planWithRequestedOrder_keeps {plan planned : Plan} {requested : RequestedOrder}
    (h : planWithRequestedOrder plan requested = .ok planned) :
    planned.willDisable = plan.willDisable ∧ planned.problems = plan.problems := by
  unfold planWithRequestedOrder at h
  split at h
  · cases h
    exact ⟨rfl, rfl⟩
  · cases h
    exact ⟨rfl, rfl⟩
  · cases h
  · obtain ⟨_, _, h⟩ := bind_ok h
    obtain ⟨_, _, h⟩ := bind_ok h
    split at h
    · cases h
    · cases h
      exact ⟨rfl, rfl⟩

theorem refuseDisabledInstall_ok_iff (c : Candidate) :
    refuseDisabledInstall i c = .ok () ↔ storedDisabled i.file c.id = false := by
  unfold refuseDisabledInstall disabledInstallRefusal
  cases hstored : storedDisabled i.file c.id with
  | false => simp
  | true =>
    cases replacedBy i.site.development (liveModel i.site i.file) c.id with
    | none => simp
    | some replacement => simp

/-- What a bundle is accepted for. -/
theorem queueBundle_ok_iff (bundleId : String) (job : QueuedInstall) :
    queueBundle i bundleId candidates = .ok job ↔
      ∃ resolved plan disables, Cleared i candidates resolved plan disables ∧ job = .v2 "bundle_install" plan disables := by
  constructor
  · intro h
    obtain ⟨_, hlicense, h⟩ := bind_ok h
    obtain ⟨resolved, hresolved, h⟩ := bind_ok h
    obtain ⟨_, htrust, h⟩ := bind_ok h
    obtain ⟨_, hvalid, h⟩ := bind_ok h
    obtain ⟨plan, hplan, h⟩ := bind_ok h
    obtain ⟨disables, hdisables, h⟩ := bind_ok h
    cases h
    have hplan := of_refuse hplan
    refine ⟨resolved, plan, disables, ⟨of_refuse htrust, ?_, of_refuse hresolved, of_require hvalid, hplan, ?_⟩, rfl⟩
    · intro c hc
      exact of_refuse (forM_ok_iff.1 hlicense c hc)
    · rw [← (planWithRequestedOrder_keeps hplan).1]
      exact (confirmedDisables_subject _ _ _ _ _).1 hdisables
  · rintro ⟨resolved, plan, disables, hclear, rfl⟩
    have hlicense : (candidates.forM fun c => refuse (i.license c)) = .ok () :=
      forM_ok_iff.2 fun c hc => by rw [hclear.license c hc, refuse_ok]
    have hconfirmed : confirmedDisables plan.willDisable i.disableReplaced ("Bundle '" ++ bundleId ++ "'") = .ok disables := by
      rw [(planWithRequestedOrder_keeps hclear.ordered).1]
      exact (confirmedDisables_subject _ _ _ _ _).1 hclear.confirmed
    simp only [queueBundle, hlicense, hclear.resolves, hclear.trust, hclear.valid, hclear.ordered, hconfirmed, refuse_ok, require_true,
      ok_bind]
    rfl

/-- What a batch is accepted for. -/
theorem queueBatch_ok_iff (job : QueuedInstall) :
    queueBatch i candidates = .ok job ↔
      ∃ resolved plan disables, Cleared i candidates resolved plan disables ∧ (∀ c ∈ candidates, storedDisabled i.file c.id = false) ∧
        job = .v2 "batch_install" plan disables := by
  constructor
  · intro h
    obtain ⟨_, hgates, h⟩ := bind_ok h
    obtain ⟨resolved, hresolved, h⟩ := bind_ok h
    obtain ⟨_, hvalid, h⟩ := bind_ok h
    obtain ⟨plan, hplan, h⟩ := bind_ok h
    obtain ⟨disables, hdisables, h⟩ := bind_ok h
    cases h
    have hplan := of_refuse hplan
    have hgate : ∀ c ∈ candidates, storedDisabled i.file c.id = false ∧ i.trust = .ok () ∧ i.license c = .ok () := by
      intro c hc
      obtain ⟨_, hdisabled, hrest⟩ := bind_ok (forM_ok_iff.1 hgates c hc)
      obtain ⟨_, htrust, hlicense⟩ := bind_ok hrest
      exact ⟨(refuseDisabledInstall_ok_iff c).1 hdisabled, of_refuse htrust, of_refuse hlicense⟩
    have htrust : i.trust = .ok () := by
      cases candidates with
      | nil => cases hresolved
      | cons c cs => exact (hgate c List.mem_cons_self).2.1
    refine ⟨resolved, plan, disables, ⟨htrust, fun c hc => (hgate c hc).2.2, of_refuse hresolved, of_require hvalid, hplan, ?_⟩,
      fun c hc => (hgate c hc).1, rfl⟩
    rw [← (planWithRequestedOrder_keeps hplan).1]
    exact (confirmedDisables_subject _ _ _ _ _).1 hdisables
  · rintro ⟨resolved, plan, disables, hclear, henabled, rfl⟩
    have hgates : (candidates.forM fun c => do
        refuseDisabledInstall i c
        refuse i.trust
        refuse (i.license c)) = .ok () := by
      refine forM_ok_iff.2 fun c hc => ?_
      rw [(refuseDisabledInstall_ok_iff c).2 (henabled c hc), hclear.trust, hclear.license c hc]
      rfl
    have hconfirmed : confirmedDisables plan.willDisable i.disableReplaced "This install" = .ok disables := by
      rw [(planWithRequestedOrder_keeps hclear.ordered).1]
      exact (confirmedDisables_subject _ _ _ _ _).1 hclear.confirmed
    simp only [queueBatch, hgates, hclear.resolves, hclear.valid, hclear.ordered, hconfirmed, refuse_ok, require_true, ok_bind]
    rfl

/-- The job of a single package. -/
def singleJob (i : Intake) (c : Candidate) (plan : Plan) (disables : List String) : QueuedInstall :=
  let replace := decide (c.id ∈ i.site.installed.map (·.id))
  if i.source || (plan.actions.any fun a => a.action = .rename) || !disables.isEmpty then
    .v2 "batch_install" { plan with actions := [singleAction c replace disables] } disables
  else .v1 c.id replace

/-- What a single package is accepted for. -/
theorem queueSingle_ok_iff (c : Candidate) (job : QueuedInstall) :
    queueSingle i c = .ok job ↔
      ∃ resolved plan disables, Cleared i [c] resolved plan disables ∧ storedDisabled i.file c.id = false ∧
        installBlockReason i.site.development c = none ∧ job = singleJob i c plan disables := by
  constructor
  · intro h
    obtain ⟨_, hdisabled, h⟩ := bind_ok h
    obtain ⟨_, htrust, h⟩ := bind_ok h
    obtain ⟨_, hlicense, h⟩ := bind_ok h
    obtain ⟨resolved, hresolved, h⟩ := bind_ok h
    obtain ⟨plan, hplan, h⟩ := bind_ok h
    obtain ⟨_, hfits, h⟩ := bind_ok h
    obtain ⟨disables, hdisables, h⟩ := bind_ok h
    have hplan := of_refuse hplan
    have hfits := of_require hfits
    obtain ⟨hwill, hproblems⟩ := planWithRequestedOrder_keeps hplan
    rw [Bool.and_eq_true, Option.isNone_iff_eq_none] at hfits
    refine ⟨resolved, plan, disables, ⟨of_refuse htrust, ?_, of_refuse hresolved, ?_, hplan, ?_⟩,
      (refuseDisabledInstall_ok_iff c).1 hdisabled, hfits.1, ?_⟩
    · intro c' hc'
      rw [List.mem_singleton.1 hc']
      exact of_refuse hlicense
    · have hvalid := hfits.2
      unfold Plan.valid at hvalid ⊢
      rwa [hproblems] at hvalid
    · rw [← hwill]
      exact (confirmedDisables_subject _ _ _ _ _).1 hdisables
    · unfold singleJob
      dsimp only at h ⊢
      split at h
      · rename_i hv2
        cases h
        rw [if_pos hv2]
      · rename_i hv1
        cases h
        rw [if_neg hv1]
  · rintro ⟨resolved, plan, disables, hclear, henabled, hblock, rfl⟩
    obtain ⟨hwill, hproblems⟩ := planWithRequestedOrder_keeps hclear.ordered
    have hconfirmed : confirmedDisables plan.willDisable i.disableReplaced ("Module '" ++ c.id ++ "'") = .ok disables := by
      rw [hwill]
      exact (confirmedDisables_subject _ _ _ _ _).1 hclear.confirmed
    have hvalid : plan.valid = true := by
      have hold := hclear.valid
      unfold Plan.valid at hold ⊢
      rw [hproblems]
      exact hold
    simp only [queueSingle, (refuseDisabledInstall_ok_iff c).2 henabled, hclear.trust, hclear.license c (List.mem_singleton_self c),
      hclear.resolves, hclear.ordered, hblock, hvalid, hconfirmed, refuse_ok, Option.isNone_none, Bool.true_and, require_true, ok_bind]
    unfold singleJob
    dsimp only
    split
    · rfl
    · rfl

/-! ## One candidate -/

/-- One candidate disables one module at most. -/
theorem planDisables_single (site : Site) (file : Helper.StateFile) (c : Candidate) :
    planDisables site file [c] = [] ∨ ∃ replaced, planDisables site file [c] = [(c.id, [replaced])] := by
  cases hlist : planDisables site file [c] with
  | nil => exact Or.inl rfl
  | cons p rest =>
    right
    have hmem : p ∈ planDisables site file [c] := by
      rw [hlist]
      exact List.mem_cons_self
    obtain ⟨hid, hfresh, _, target, _, _, _, _, _, hnames, _⟩ := of_mem_installDisables hmem
    have hid : p.1 = c.id := by simpa using hid
    have hlen : (planDisables site file [c]).length ≤ 1 := by
      refine Nat.le_trans (List.length_filterMap_le _ _) ?_
      have hids : sortedIds ((List.map (·.id) [c]).dedup.filter fun id => decide (id ∉ siteIds site)) = [c.id] := by
        simp [sortedIds, hid ▸ hfresh]
      rw [hids]
      exact Nat.le_refl 1
    have hrest : rest = [] := by
      rw [hlist, List.length_cons] at hlen
      exact List.eq_nil_of_length_eq_zero (by omega)
    exact ⟨target.id, by rw [hrest, ← hid, ← hnames]⟩

/-- What one candidate disables, once the operator confirms it. -/
theorem confirmed_single {site : Site} {file : Helper.StateFile} {c : Candidate} {plan : Plan} {given : Option (List String)}
    {subject : String} {disables : List String} (hplan : ValidPlan site file [c] plan)
    (h : confirmedDisables plan.willDisable given subject = .ok disables) :
    disables = (Dict.get c.id (planDisables site file [c])).getD [] := by
  have hneeded : disables = sortedIds plan.willDisable.dedup := by
    unfold confirmedDisables at h
    dsimp only at h
    split at h
    · rename_i hempty
      rw [List.isEmpty_iff.1 hempty]
      exact (Except.ok.inj h).symm
    · split at h
      · exact (Except.ok.inj h).symm
      · cases h
  rw [hneeded, hplan.willDisable]
  rcases planDisables_single site file c with hnone | ⟨replaced, hone⟩
  · simp [hnone, sortedIds]
  · simp [hone, sortedIds, Dict.get_cons]

/-- The plan of one candidate. -/
theorem plan_single {site : Site} {file : Helper.StateFile} {c : Candidate} {plan : Plan}
    (hplan : ValidPlan site file [c] plan) :
    plan.order = [c.id] ∧ plan.actions = [candidateAction site file [c] c] := by
  have horder : plan.order = [c.id] := by
    refine List.perm_singleton.1 ((List.perm_ext_iff_of_nodup hplan.order_nodup (List.nodup_singleton _)).2 ?_)
    intro id
    rw [hplan.mem_order]
    rfl
  refine ⟨horder, ?_⟩
  rw [hplan.actions, horder]
  simp

/-- Asking for an order leaves the action of one candidate. -/
theorem ordered_single {plan planned : Plan} {requested : RequestedOrder} {a : PlanAction} (horder : plan.order = [a.id])
    (hactions : plan.actions = [a]) (h : planWithRequestedOrder plan requested = .ok planned) : planned.actions = [a] := by
  unfold planWithRequestedOrder at h
  split at h
  · cases h
    exact hactions
  · cases h
    exact hactions
  · cases h
  · obtain ⟨_, _, h⟩ := bind_ok h
    obtain ⟨_, hsame, h⟩ := bind_ok h
    have hsame := of_decide_eq_true (of_require hsame)
    split at h
    · cases h
    · cases h
      rw [horder] at hsame
      obtain ⟨id, hid⟩ := List.length_eq_one_iff.1 hsame.1
      have hmem := (hsame.2 a.id (List.mem_append_right _ List.mem_cons_self)).1
      rw [hid, List.mem_singleton] at hmem
      rw [hid, hactions, ← hmem]
      simp

theorem get_source_single (site : Site) (c : Candidate) :
    Dict.get c.id ([c].filterMap fun c => (renamedFrom site c).map fun old => (c.id, old)) = renamedFrom site c :=
  get_sources site (by simp) (List.mem_singleton_self c)

/-- The action that is written by hand for a package is the one of the plan when the package is fresh, renames nothing and has no
migration. -/
theorem singleAction_eq_iff {site : Site} {file : Helper.StateFile} (c : Candidate) :
    singleAction c (decide (c.id ∈ site.installed.map (·.id))) ((Dict.get c.id (planDisables site file [c])).getD []) =
        candidateAction site file [c] c ↔
      renamedFrom site c = none ∧ c.id ∉ site.installed.map (·.id) ∧ c.migration = {} := by
  have hsource := get_source_single site c
  have hrow : c.id ∉ site.installed.map (·.id) → Dict.get c.id (siteRows site file) = none := by
    intro hnot
    cases hget : Dict.get c.id (siteRows site file) with
    | none => rfl
    | some row =>
      have hkey : c.id ∈ (siteRows site file).map Prod.fst := List.mem_map_of_mem (Dict.mem_of_get hget)
      rw [siteRows_keys] at hkey
      exact absurd ((List.filter_sublist.map _).subset hkey) hnot
  unfold singleAction candidateAction planAction
  rw [hsource]
  constructor
  · intro h
    injection h with _ _ haction hprevious hversion _ hmigration _
    rw [← hprevious] at haction hversion
    refine ⟨hprevious.symm, ?_, hmigration.symm⟩
    have hnone : Dict.get c.id (siteRows site file) = none := by simpa using hversion.symm
    intro hin
    simp [hin, hnone] at haction
  · rintro ⟨hrename, hnot, hmigration⟩
    simp [hrename, hnot, hmigration, hrow hnot]

/-- The plan that a single package is queued with for the v2 worker. -/
theorem plan_of_singleJob {c : Candidate} {plan queued : Plan} {disables switched : List String} {action : String}
    (h : singleJob i c plan disables = .v2 action queued switched) :
    (i.source || (plan.actions.any fun a => a.action = .rename) || !disables.isEmpty) = true ∧
      queued = { plan with actions := [singleAction c (decide (c.id ∈ i.site.installed.map (·.id))) disables] } := by
  unfold singleJob at h
  dsimp only at h
  split at h
  · rename_i hv2
    injection h with _ hplan _
    exact ⟨hv2, hplan.symm⟩
  · cases h

/-- What is known of the plan of one candidate that is cleared. -/
theorem single_of_cleared {c : Candidate} {resolved plan : Plan} {disables : List String}
    (h : Cleared i [c] resolved plan disables) :
    plan.actions = [candidateAction i.site i.file [c] c] ∧
      disables = (Dict.get c.id (planDisables i.site i.file [c])).getD [] := by
  have hplan := validPlan_of_resolve h.resolves h.valid
  obtain ⟨horder, hactions⟩ := plan_single hplan
  exact ⟨ordered_single horder hactions h.ordered, confirmed_single hplan h.confirmed⟩

/-- When the v2 worker is used for a single package. -/
theorem usesV2_iff {c : Candidate} {resolved plan : Plan} {disables : List String} (h : Cleared i [c] resolved plan disables) :
    (i.source || (plan.actions.any fun a => a.action = .rename) || !disables.isEmpty) = true ↔
      i.source = true ∨ renamedFrom i.site c ≠ none ∨ planDisables i.site i.file [c] ≠ [] := by
  obtain ⟨hactions, hdisables⟩ := single_of_cleared h
  have hrename : (plan.actions.any fun a => a.action = .rename) = (renamedFrom i.site c).isSome := by
    have hsource := get_source_single i.site c
    rw [hactions]
    unfold candidateAction planAction
    rw [hsource]
    cases renamedFrom i.site c with
    | some old => simp
    | none => by_cases hrow : (Dict.get c.id (siteRows i.site i.file)).isSome = true <;> simp [hrow]
  have hempty : disables.isEmpty = (planDisables i.site i.file [c]).isEmpty := by
    rw [hdisables]
    rcases planDisables_single i.site i.file c with hnone | ⟨replaced, hone⟩
    · simp [hnone]
    · simp [hone, Dict.get_cons]
  rw [hrename, hempty]
  simp [or_assoc, Option.isSome_iff_ne_none]

/-- Whatever is queued went through the common gates. -/
theorem cleared_of_queued {bundleId : String} {job : QueuedInstall} (h : QueuedBy i bundleId candidates job) :
    ∃ resolved plan disables, Cleared i candidates resolved plan disables := by
  rcases h with hbundle | hbatch | ⟨c, rfl, hsingle⟩
  · obtain ⟨resolved, plan, disables, hclear, _⟩ := (queueBundle_ok_iff bundleId job).1 hbundle
    exact ⟨resolved, plan, disables, hclear⟩
  · obtain ⟨resolved, plan, disables, hclear, _⟩ := (queueBatch_ok_iff job).1 hbatch
    exact ⟨resolved, plan, disables, hclear⟩
  · obtain ⟨resolved, plan, disables, hclear, _⟩ := (queueSingle_ok_iff c job).1 hsingle
    exact ⟨resolved, plan, disables, hclear⟩

/-- Paths that agree meet. -/
theorem meet_of_agree {bundleId : String} (h : IntakesAgree i bundleId candidates) : PathsMeet i candidates := by
  rintro ⟨resolved, plan, disables, hclear⟩
  obtain ⟨job, hjob⟩ := h.bundle.1 ⟨_, (queueBundle_ok_iff bundleId _).2 ⟨resolved, plan, disables, hclear, rfl⟩⟩
  obtain ⟨_, _, _, _, henabled, _⟩ := (queueBatch_ok_iff job).1 hjob
  refine ⟨henabled, ?_⟩
  rintro c rfl
  obtain ⟨single, hsingle⟩ := (h.single c rfl).2 ⟨job, hjob⟩
  obtain ⟨resolved, plan, disables, hclear, _, hblock, rfl⟩ := (queueSingle_ok_iff c single).1 hsingle
  obtain ⟨hactions, hdisables⟩ := single_of_cleared hclear
  -- whenever the v2 worker is used, the action by hand is the resolved one
  have hfresh : i.source = true ∨ renamedFrom i.site c ≠ none ∨ planDisables i.site i.file [c] ≠ [] →
      renamedFrom i.site c = none ∧ c.id ∉ i.site.installed.map (·.id) ∧ c.migration = {} := by
    intro hv2
    have hqueued := h.plan "batch_install"
      { plan with actions := [singleAction c (decide (c.id ∈ i.site.installed.map (·.id))) disables] } disables
      (Or.inr (Or.inr ⟨c, rfl, by rw [hsingle, singleJob, if_pos ((usesV2_iff hclear).2 hv2)]⟩))
    obtain ⟨resolved', planned, hresolved, hplanned, _, hsame⟩ := hqueued
    have hres : resolved' = resolved := Except.ok.inj (hresolved.symm.trans hclear.resolves)
    subst hres
    have hplan : planned = plan := Except.ok.inj (hplanned.symm.trans hclear.ordered)
    subst hplan
    rw [hactions, hdisables] at hsame
    exact (singleAction_eq_iff c).1 (List.cons.inj hsame).1
  refine ⟨hblock, ?_, ?_⟩
  · by_contra hrename
    exact hrename (hfresh (Or.inr (Or.inl hrename))).1
  · rintro (hsource | hswitch)
    · exact (hfresh (Or.inl hsource)).2
    · exact (hfresh (Or.inr (Or.inr hswitch))).2

end IntakesAgreeAux

open IntakesAgreeAux in
/-- The three paths agree exactly when of the candidates that pass the common gates none is disabled in the state, and a candidate
that is alone is installable, renames nothing, and is fresh and without a migration when it comes from a repository or disables
a module. -/
theorem intakes_agree_iff (i : Intake) (bundleId : String) (candidates : List Candidate) :
    IntakesAgree i bundleId candidates ↔ PathsMeet i candidates := by
  refine ⟨meet_of_agree, ?_⟩
  intro hmeet
  refine ⟨⟨?_, ?_⟩, ?_, ?_, ?_⟩
  · rintro ⟨job, hjob⟩
    obtain ⟨resolved, plan, disables, hclear, _⟩ := (queueBundle_ok_iff bundleId job).1 hjob
    exact ⟨_, (queueBatch_ok_iff _).2 ⟨resolved, plan, disables, hclear, (hmeet ⟨_, _, _, hclear⟩).1, rfl⟩⟩
  · rintro ⟨job, hjob⟩
    obtain ⟨resolved, plan, disables, hclear, _⟩ := (queueBatch_ok_iff job).1 hjob
    exact ⟨_, (queueBundle_ok_iff bundleId _).2 ⟨resolved, plan, disables, hclear, rfl⟩⟩
  · rintro c rfl
    constructor
    · rintro ⟨job, hjob⟩
      obtain ⟨resolved, plan, disables, hclear, henabled, _⟩ := (queueSingle_ok_iff c job).1 hjob
      refine ⟨_, (queueBatch_ok_iff _).2 ⟨resolved, plan, disables, hclear, ?_, rfl⟩⟩
      intro c' hc'
      rw [List.mem_singleton.1 hc']
      exact henabled
    · rintro ⟨job, hjob⟩
      obtain ⟨resolved, plan, disables, hclear, henabled, _⟩ := (queueBatch_ok_iff job).1 hjob
      have hblock := ((hmeet ⟨_, _, _, hclear⟩).2 c rfl).1
      exact ⟨_, (queueSingle_ok_iff c _).2 ⟨resolved, plan, disables, hclear, henabled c (List.mem_singleton_self c), hblock, rfl⟩⟩
  · intro job hjob
    obtain ⟨resolved, plan, disables, hclear⟩ := cleared_of_queued hjob
    exact ⟨fun c hc _ => (hmeet ⟨_, _, _, hclear⟩).1 c hc, resolved, hclear.resolves, hclear.valid, disables, hclear.confirmed⟩
  · intro action queued switched hjob
    rcases hjob with hbundle | hbatch | ⟨c, rfl, hsingle⟩
    · obtain ⟨resolved, plan, disables, hclear, heq⟩ := (queueBundle_ok_iff bundleId _).1 hbundle
      injection heq with _ hplan _
      exact ⟨resolved, plan, hclear.resolves, hclear.ordered, by rw [hplan], by rw [hplan]⟩
    · obtain ⟨resolved, plan, disables, hclear, _, heq⟩ := (queueBatch_ok_iff _).1 hbatch
      injection heq with _ hplan _
      exact ⟨resolved, plan, hclear.resolves, hclear.ordered, by rw [hplan], by rw [hplan]⟩
    · obtain ⟨resolved, plan, disables, hclear, _, _, heq⟩ := (queueSingle_ok_iff c _).1 hsingle
      obtain ⟨hv2, hplan⟩ := plan_of_singleJob heq.symm
      obtain ⟨_, hrename, hfresh⟩ := (hmeet ⟨_, _, _, hclear⟩).2 c rfl
      obtain ⟨hactions, hdisables⟩ := single_of_cleared hclear
      refine ⟨resolved, plan, hclear.resolves, hclear.ordered, by rw [hplan], ?_⟩
      have hreason : i.source = true ∨ planDisables i.site i.file [c] ≠ [] := by
        rcases (usesV2_iff hclear).1 hv2 with hsource | hrenames | hswitch
        · exact Or.inl hsource
        · exact absurd hrename hrenames
        · exact Or.inr hswitch
      obtain ⟨hnot, hmigration⟩ := hfresh hreason
      rw [hplan, hactions, hdisables]
      exact congrArg (fun a => [a]) ((singleAction_eq_iff c).2 ⟨hrename, hnot, hmigration⟩)

/-! ## Paths that do not agree -/

/-- A server with one module. -/
def probeSite : Site where
  development := false
  versionSatisfies := fun _ _ => .ok true
  installed := [{ id := "probe", extensionVersion := "1.0.0", category := .premium, constraint_ne := no_constraints }]
  nodup := by decide

/-- A request for that server, in a state with a record for its module. -/
def probeIntake (enabled : Bool) : Intake where
  site := probeSite
  preflight := fun _ _ _ => none
  file := .json (.obj [("schema", .num 1), ("modules", .obj [("probe", .obj [("enabled", .bool enabled)])])])
  trust := .ok ()
  license := fun _ => .ok ()
  source := false
  requestedOrder := .unset
  disableReplaced := none

/-- The next version of the module. -/
def probeUpgrade : Candidate := { id := "probe", extensionVersion := "2.0.0", category := .premium }

/-- The next version of the module, under a new id. -/
def sondeUpgrade : Candidate :=
  { id := "sonde", extensionVersion := "2.0.0", category := .premium, migration := { previousModuleIds := ["probe"] } }

/-- A bundle brings the next version of a disabled module, which the other paths refuse. A package that renames a module is
queued by itself as a plain install, which the other paths queue as the rename. -/
theorem bundle_takes_disabled_module :
    ¬ IntakesAgree (probeIntake false) "tools" [probeUpgrade] ∧ ¬ IntakesAgree (probeIntake true) "tools" [sondeUpgrade] := by
  constructor
  · intro h
    obtain ⟨job, hjob⟩ := h.bundle.1 ⟨_, (rfl : queueBundle (probeIntake false) "tools" [probeUpgrade] =
      .ok (.v2 "bundle_install" ⟨[], [], ["probe"],
        [⟨"probe", "2.0.0", .replace, none, some "1.0.0", [], {}, []⟩], []⟩ []))⟩
    cases hjob
  · intro h
    obtain ⟨resolved, planned, hresolved, hplanned, _, hactions⟩ := h.plan "batch_install"
      ⟨[], [], ["sonde"], [⟨"sonde", "2.0.0", .install, none, none, [], {}, []⟩], []⟩ []
      (Or.inr (Or.inr ⟨sondeUpgrade, rfl, rfl⟩))
    cases hresolved
    cases hplanned
    cases hactions

end TecTac
