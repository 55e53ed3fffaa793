import TecTac.SystemActions
import TecTac.Lib.Entries

/-!
# What the marks of a run hold

The marks and the log of a run stay sound (`Sound`) through every step of every call, however the step ends: the plans of an action have no
endpoint in common, every group mark belongs to a plan, a group that was handed over has a mark that is not aborted, and a mark is `sent` only
when its group was handed over. A group is claimed only when it has no mark or an aborted one, so a group that is about to be handed over was
not handed over before.
-/

namespace TecTac

namespace SystemActions

/-- The mark of the plan for sorted endpoints. -/
def planMark (actionId : String) (ids : List Int) : Mark :=
  ⟨actionId, planDigest actionId ids, .plan, some ⟨rangesOf ids, (groupsOf ids).map (groupDigest actionId), maxAgentsPerGroup⟩, 0, ""⟩

/-- Every group was claimed and audited before it was handed over. -/
def Ordered (log : List Act) : Prop :=
  ∀ front actionId group back, log = front ++ Act.handed actionId group :: back →
    .claimed (groupDigest actionId group) ∈ front ∧ ∃ row, .audited row ∈ front ∧ row.targetsDigest = groupDigest actionId group

/-- What holds of the marks and the log of a run. -/
structure Sound (marks : List Mark) (log : List Act) : Prop where
  digests : (marks.map Mark.targetsDigest).Nodup
  plan : ∀ mark ∈ marks, mark.plan ≠ none → ∃ ids, mark = planMark mark.actionId ids ∧ ids.Pairwise (· < ·)
  disjoint : ∀ actionId ids ids', planMark actionId ids ∈ marks → planMark actionId ids' ∈ marks → ids = ids' ∨ ids.Disjoint ids'
  group : ∀ mark ∈ marks, mark.plan = none → ∃ ids group, planMark mark.actionId ids ∈ marks ∧ group ∈ groupsOf ids ∧
    mark.targetsDigest = groupDigest mark.actionId group
  handed : ∀ actionId, ∀ group ∈ handedIn actionId log, ∃ mark ∈ marks, mark.targetsDigest = groupDigest actionId group ∧ mark.state ≠ .aborted
  once : ∀ actionId, (handedIn actionId log).Nodup
  sent : ∀ mark ∈ marks, mark.state = .sent → ∃ group ∈ handedIn mark.actionId log, mark.targetsDigest = groupDigest mark.actionId group
  ordered : Ordered log

theorem sound_nil : Sound [] [] where
  digests := .nil
  plan := nofun
  disjoint := nofun
  group := nofun
  handed := nofun
  once _ := .nil
  sent := nofun
  ordered front _ _ _ h := by simp at h

/-! ## Marks -/

variable {marks : List Mark} {log : List Act}

/-- A digest names the action of its mark. -/
theorem Sound.actionId_eq (h : Sound marks log) {mark : Mark} (hmem : mark ∈ marks) : mark.targetsDigest.actionId = mark.actionId := by
  cases hplan : mark.plan with
  | none =>
    obtain ⟨ids, group, -, -, hdigest⟩ := h.group mark hmem hplan
    rw [hdigest]
    rfl
  | some plan =>
    obtain ⟨ids, heq, -⟩ := h.plan mark hmem (by simp [hplan])
    rw [heq]
    rfl

theorem Sound.plan_eq_none (h : Sound marks log) {mark : Mark} (hmem : mark ∈ marks) {actionId : String} {group : List Int}
    (hdigest : mark.targetsDigest = groupDigest actionId group) : mark.plan = none := by
  by_contra hplan
  obtain ⟨ids, heq, -⟩ := h.plan mark hmem hplan
  rw [heq] at hdigest
  exact absurd (congrArg Digest.isPlan hdigest) (by simp [planMark, planDigest, groupDigest])

theorem Sound.isFor_iff (h : Sound marks log) {mark : Mark} (hmem : mark ∈ marks) {actionId : String} {group : List Int} :
    mark.isFor actionId (groupDigest actionId group) = true ↔ mark.targetsDigest = groupDigest actionId group := by
  have hid := h.actionId_eq hmem
  simp only [Mark.isFor, Bool.and_eq_true, decide_eq_true_eq, and_iff_right_iff_imp]
  intro hdigest
  rw [← hid, hdigest]
  rfl

theorem Sound.eq_of_digest (h : Sound marks log) {a b : Mark} (ha : a ∈ marks) (hb : b ∈ marks) (heq : a.targetsDigest = b.targetsDigest) : a = b :=
  List.inj_on_of_nodup_map h.digests ha hb heq

/-- The mark that is changed is the only one of its digest. -/
theorem changeFirst_eq_map (hnodup : (marks.map Mark.targetsDigest).Nodup) (actionId : String) (digest : Digest) (f : Mark → Mark) :
    changeFirst actionId digest f marks = marks.map fun mark => if mark.isFor actionId digest then f mark else mark := by
  induction marks with
  | nil => rfl
  | cons mark marks ih =>
    rw [List.map_cons, List.nodup_cons] at hnodup
    rw [changeFirst, List.map_cons]
    split
    · rename_i hfor
      congr 1
      have hrest : (marks.map fun mark => if mark.isFor actionId digest then f mark else mark) = marks.map id := by
        apply List.map_congr_left
        intro other hother
        refine if_neg fun hother' => ?_
        simp only [Mark.isFor, Bool.and_eq_true, decide_eq_true_eq] at hfor hother'
        apply hnodup.1
        rw [hfor.2, ← hother'.2]
        exact List.mem_map_of_mem hother
      rw [hrest, List.map_id]
    · rw [ih hnodup.2]

/-- Changing the state of the mark of a group: it is aborted only when the group was not handed over, and sent only when it was. -/
theorem Sound.change (h : Sound marks log) {actionId : String} {group : List Int} (f : Mark → Mark)
    (hsame : ∀ mark, (f mark).actionId = mark.actionId ∧ (f mark).targetsDigest = mark.targetsDigest ∧ (f mark).plan = mark.plan)
    (haborted : ∀ mark, (f mark).state = .aborted → group ∉ handedIn actionId log)
    (hsent : ∀ mark, (f mark).state = .sent → group ∈ handedIn actionId log) :
    Sound (changeFirst actionId (groupDigest actionId group) f marks) log ∧
      (∀ other ids, planMark other ids ∈ marks → planMark other ids ∈ changeFirst actionId (groupDigest actionId group) f marks) ∧
      (∀ mark ∈ marks, mark.targetsDigest = groupDigest actionId group → f mark ∈ changeFirst actionId (groupDigest actionId group) f marks) := by
  rw [changeFirst_eq_map h.digests]
  have hplan : ∀ other ids, planMark other ids ∈ marks → planMark other ids ∈
      marks.map fun mark => if mark.isFor actionId (groupDigest actionId group) then f mark else mark := by
    intro other ids hmem
    refine List.mem_map.2 ⟨_, hmem, if_neg ?_⟩
    rw [h.isFor_iff hmem]
    exact fun heq => absurd (congrArg Digest.isPlan heq) (by simp [planMark, planDigest, groupDigest])
  have hchanged : ∀ mark ∈ marks, mark.targetsDigest = groupDigest actionId group → f mark ∈
      marks.map fun mark => if mark.isFor actionId (groupDigest actionId group) then f mark else mark :=
    fun mark hmem hdigest => List.mem_map.2 ⟨mark, hmem, if_pos ((h.isFor_iff hmem).2 hdigest)⟩
  -- a mark after the change: the changed mark of the group, or a mark from before
  have hcases : ∀ mark' ∈ marks.map (fun mark => if mark.isFor actionId (groupDigest actionId group) then f mark else mark),
      ∃ mark ∈ marks, (mark' = f mark ∧ mark.targetsDigest = groupDigest actionId group) ∨ mark' = mark := by
    intro mark' hmark'
    obtain ⟨mark, hmem, heq⟩ := List.mem_map.1 hmark'
    split at heq
    · rename_i hfor
      exact ⟨mark, hmem, .inl ⟨heq.symm, (h.isFor_iff hmem).1 hfor⟩⟩
    · exact ⟨mark, hmem, .inr heq.symm⟩
  refine ⟨⟨?_, ?_, ?_, ?_, ?_, h.once, ?_, h.ordered⟩, hplan, hchanged⟩
  · have hdigests : (marks.map fun mark => if mark.isFor actionId (groupDigest actionId group) then f mark else mark).map Mark.targetsDigest =
        marks.map Mark.targetsDigest := by
      rw [List.map_map]
      apply List.map_congr_left
      intro mark _
      simp only [Function.comp]
      split
      · exact (hsame mark).2.1
      · rfl
    rw [hdigests]
    exact h.digests
  · intro mark' hmark' hsome
    obtain ⟨mark, hmem, ⟨rfl, hdigest⟩ | rfl⟩ := hcases mark' hmark'
    · rw [(hsame mark).2.2] at hsome
      exact absurd (h.plan_eq_none hmem hdigest) hsome
    · exact h.plan _ hmem hsome
  · intro other ids ids' hids hids'
    have hold : ∀ ids, planMark other ids ∈ marks.map (fun mark => if mark.isFor actionId (groupDigest actionId group) then f mark else mark) →
        planMark other ids ∈ marks := by
      intro ids hids
      obtain ⟨mark, hmem, ⟨heq, hdigest⟩ | heq⟩ := hcases _ hids
      · have hnone := h.plan_eq_none hmem hdigest
        rw [← (hsame mark).2.2, ← heq] at hnone
        cases hnone
      · exact heq ▸ hmem
    exact h.disjoint other ids ids' (hold ids hids) (hold ids' hids')
  · intro mark' hmark' hnone
    obtain ⟨mark, hmem, ⟨rfl, hdigest⟩ | rfl⟩ := hcases mark' hmark'
    · rw [(hsame mark).2.2] at hnone
      obtain ⟨ids, group', hids, hgroup, hdigest'⟩ := h.group mark hmem hnone
      rw [(hsame mark).1, (hsame mark).2.1]
      exact ⟨ids, group', hplan _ ids hids, hgroup, hdigest'⟩
    · obtain ⟨ids, group', hids, hgroup, hdigest'⟩ := h.group _ hmem hnone
      exact ⟨ids, group', hplan _ ids hids, hgroup, hdigest'⟩
  · intro other group' hhanded
    obtain ⟨mark, hmem, hdigest, hstate⟩ := h.handed other group' hhanded
    by_cases hfor : mark.isFor actionId (groupDigest actionId group) = true
    · have heq := hdigest.symm.trans ((h.isFor_iff hmem).1 hfor)
      cases heq
      refine ⟨f mark, List.mem_map.2 ⟨mark, hmem, if_pos hfor⟩, (hsame mark).2.1.trans hdigest, ?_⟩
      exact fun hab => haborted mark hab hhanded
    · exact ⟨mark, List.mem_map.2 ⟨mark, hmem, if_neg hfor⟩, hdigest, hstate⟩
  · intro mark' hmark' hstate
    obtain ⟨mark, hmem, ⟨rfl, hdigest⟩ | rfl⟩ := hcases mark' hmark'
    · have hid := h.actionId_eq hmem
      rw [hdigest] at hid
      rw [(hsame mark).1, (hsame mark).2.1, ← hid]
      exact ⟨group, hsent mark hstate, hdigest⟩
    · exact h.sent _ hmem hstate

/-- A first mark for a group of a plan. -/
theorem Sound.insert (h : Sound marks log) {actionId : String} {ids group : List Int} (hplan : planMark actionId ids ∈ marks)
    (hgroup : group ∈ groupsOf ids) (hnew : ∀ mark ∈ marks, mark.targetsDigest ≠ groupDigest actionId group) (agents : Nat) :
    Sound (marks ++ [⟨actionId, groupDigest actionId group, .claiming, none, agents, ""⟩]) log := by
  have hold : ∀ other ids, planMark other ids ∈ marks ++ [⟨actionId, groupDigest actionId group, .claiming, none, agents, ""⟩] →
      planMark other ids ∈ marks := by
    intro other ids hmem
    rcases List.mem_append.1 hmem with hmem | hmem
    · exact hmem
    · exact absurd (congrArg Mark.plan (List.mem_singleton.1 hmem)) (by simp [planMark])
  refine ⟨?_, ?_, ?_, ?_, ?_, h.once, ?_, h.ordered⟩
  · refine Entries.nodup_map_concat h.digests ?_
    intro hmem
    obtain ⟨mark, hmark, heq⟩ := List.mem_map.1 hmem
    exact hnew mark hmark heq
  · intro mark hmark hsome
    rcases List.mem_append.1 hmark with hmark | hmark
    · exact h.plan mark hmark hsome
    · cases List.mem_singleton.1 hmark
      exact absurd rfl hsome
  · exact fun other ids ids' hids hids' => h.disjoint other ids ids' (hold _ _ hids) (hold _ _ hids')
  · intro mark hmark hnone
    rcases List.mem_append.1 hmark with hmark | hmark
    · obtain ⟨ids', group', hids', hgroup', hdigest⟩ := h.group mark hmark hnone
      exact ⟨ids', group', List.mem_append_left _ hids', hgroup', hdigest⟩
    · cases List.mem_singleton.1 hmark
      exact ⟨ids, group, List.mem_append_left _ hplan, hgroup, rfl⟩
  · intro other group' hhanded
    obtain ⟨mark, hmem, hdigest, hstate⟩ := h.handed other group' hhanded
    exact ⟨mark, List.mem_append_left _ hmem, hdigest, hstate⟩
  · intro mark hmark hstate
    rcases List.mem_append.1 hmark with hmark | hmark
    · exact h.sent mark hmark hstate
    · cases List.mem_singleton.1 hmark
      cases hstate

/-! ## The log -/

theorem handedIn_concat (actionId : String) (log : List Act) (act : Act) :
    handedIn actionId (log ++ [act]) = handedIn actionId log ++ handedIn actionId [act] := List.filterMap_append

/-- An entry that hands nothing over. -/
theorem Sound.note (h : Sound marks log) {act : Act} (hact : ∀ actionId group, act ≠ .handed actionId group) : Sound marks (log ++ [act]) := by
  have hsame : ∀ actionId, handedIn actionId (log ++ [act]) = handedIn actionId log := by
    intro actionId
    rw [handedIn_concat]
    cases act with
    | handed other group => exact absurd rfl (hact other group)
    | _ => exact List.append_nil _
  refine ⟨h.digests, h.plan, h.disjoint, h.group, ?_, ?_, ?_, ?_⟩
  · intro actionId
    rw [hsame]
    exact h.handed actionId
  · intro actionId
    rw [hsame]
    exact h.once actionId
  · intro mark hmark hstate
    rw [hsame]
    exact h.sent mark hmark hstate
  · intro front actionId group back heq
    rcases List.eq_nil_or_concat back with rfl | ⟨back', last, rfl⟩
    · have hlast := (List.append_inj_right' heq rfl)
      exact absurd (List.cons.inj hlast).1 (hact actionId group)
    · rw [List.concat_eq_append, ← List.cons_append, ← List.append_assoc] at heq
      exact h.ordered front actionId group back' (List.append_inj_left' heq rfl)

/-- A group with a mark that is not aborted, claimed and audited, is handed over for the first time. -/
theorem Sound.hand (h : Sound marks log) {actionId : String} {group : List Int}
    (hmark : ∃ mark ∈ marks, mark.targetsDigest = groupDigest actionId group ∧ mark.state ≠ .aborted) (hnew : group ∉ handedIn actionId log)
    (hclaimed : .claimed (groupDigest actionId group) ∈ log)
    (haudited : ∃ row, .audited row ∈ log ∧ row.targetsDigest = groupDigest actionId group) : Sound marks (log ++ [.handed actionId group]) := by
  have hhanded : ∀ other, handedIn other (log ++ [.handed actionId group]) =
      handedIn other log ++ if actionId = other then [group] else [] := by
    intro other
    rw [handedIn_concat]
    congr 1
    by_cases heq : actionId = other
    · simp [handedIn, heq]
    · simp [handedIn, heq]
  refine ⟨h.digests, h.plan, h.disjoint, h.group, ?_, ?_, ?_, ?_⟩
  · intro other group' hgroup'
    rw [hhanded, List.mem_append] at hgroup'
    rcases hgroup' with hgroup' | hgroup'
    · exact h.handed other group' hgroup'
    · split at hgroup'
      · rename_i heq
        cases List.mem_singleton.1 hgroup'
        exact heq ▸ hmark
      · cases hgroup'
  · intro other
    rw [hhanded]
    split
    · rename_i heq
      rw [← heq, ← List.concat_eq_append]
      exact (h.once actionId).concat hnew
    · rw [List.append_nil]
      exact h.once other
  · intro mark hmem hstate
    obtain ⟨group', hgroup', hdigest⟩ := h.sent mark hmem hstate
    refine ⟨group', ?_, hdigest⟩
    rw [hhanded]
    exact List.mem_append_left _ hgroup'
  · intro front other group' back heq
    rcases List.eq_nil_or_concat back with rfl | ⟨back', last, rfl⟩
    · cases List.append_inj_right' heq rfl
      cases List.append_inj_left' heq rfl
      exact ⟨hclaimed, haudited⟩
    · rw [List.concat_eq_append, ← List.cons_append, ← List.append_assoc] at heq
      exact h.ordered front other group' back' (List.append_inj_left' heq rfl)

/-! ## Plans -/

/-- The plans that a call finds are those of the marks of its action. -/
theorem Sound.mem_plans (h : Sound marks log) {actionId : String} {entry : Digest × Plan} (hentry : entry ∈ marks.filterMap (Mark.planOf actionId)) :
    ∃ ids, planMark actionId ids ∈ marks ∧ ids.Pairwise (· < ·) ∧ entry.1 = planDigest actionId ids ∧
      entry.2 = ⟨rangesOf ids, (groupsOf ids).map (groupDigest actionId), maxAgentsPerGroup⟩ := by
  obtain ⟨mark, hmem, hplan⟩ := List.mem_filterMap.1 hentry
  unfold Mark.planOf at hplan
  split at hplan
  · rename_i hid
    obtain ⟨plan, hsome, rfl⟩ := Option.map_eq_some_iff.1 hplan
    obtain ⟨ids, heq, hsorted⟩ := h.plan mark hmem (by simp [hsome])
    rw [hid] at heq
    subst heq
    cases hsome
    exact ⟨ids, hmem, hsorted, rfl, rfl⟩
  · cases hplan

theorem mem_plans_of_planMark {actionId : String} {ids : List Int} (h : planMark actionId ids ∈ marks) :
    (planDigest actionId ids, (⟨rangesOf ids, (groupsOf ids).map (groupDigest actionId), maxAgentsPerGroup⟩ : Plan)) ∈
      marks.filterMap (Mark.planOf actionId) :=
  List.mem_filterMap.2 ⟨_, h, by simp [Mark.planOf, planMark]⟩

/-- The marks that stay when the plans that overlap are replaced. -/
def keptMarks (actionId : String) (overlapping : List (Digest × Plan)) (marks : List Mark) : List Mark :=
  marks.filter fun mark =>
    !(decide (mark.actionId = actionId) && decide (mark.targetsDigest ∈ overlapping.flatMap fun plan => plan.1 :: plan.2.groupDigests))

theorem mem_keptMarks {actionId : String} {overlapping : List (Digest × Plan)} {mark : Mark} :
    mark ∈ keptMarks actionId overlapping marks ↔
      mark ∈ marks ∧ (mark.actionId = actionId → ∀ entry ∈ overlapping, mark.targetsDigest ≠ entry.1 ∧ mark.targetsDigest ∉ entry.2.groupDigests) := by
  simp only [keptMarks, List.mem_filter, Bool.not_eq_true', Bool.and_eq_false_iff, decide_eq_false_iff_not, List.mem_flatMap, List.mem_cons,
    not_exists, not_and, not_or, imp_iff_not_or]

section

variable {actionId : String} {ids : List Int} {overlapping : List (Digest × Plan)}

/-- The plan that is replaced goes with all its group marks, so a group mark that stays keeps its plan. -/
theorem Sound.keep_plan (h : Sound marks log) (hmem : ∀ entry ∈ overlapping, entry ∈ marks.filterMap (Mark.planOf actionId)) {mark : Mark}
    (hkept : mark ∈ keptMarks actionId overlapping marks) (hnone : mark.plan = none) :
    ∃ ids group, planMark mark.actionId ids ∈ keptMarks actionId overlapping marks ∧ group ∈ groupsOf ids ∧
      mark.targetsDigest = groupDigest mark.actionId group := by
  obtain ⟨hmark, hstay⟩ := mem_keptMarks.1 hkept
  obtain ⟨ids', group, hplan, hgroup, hdigest⟩ := h.group mark hmark hnone
  refine ⟨ids', group, mem_keptMarks.2 ⟨hplan, ?_⟩, hgroup, hdigest⟩
  intro hid entry hentry
  have hid : mark.actionId = actionId := hid
  obtain ⟨ids'', -, -, hfirst, hsecond⟩ := h.mem_plans (hmem entry hentry)
  obtain ⟨-, hout⟩ := hstay hid entry hentry
  rw [hfirst, hsecond]
  constructor
  · intro heq
    have hsame : ids' = ids'' := congrArg Digest.ids heq
    apply hout
    rw [hsecond, hdigest, hid, ← hsame]
    exact List.mem_map_of_mem hgroup
  · intro hin
    obtain ⟨_, _, heq⟩ := List.mem_map.1 hin
    exact absurd (congrArg Digest.isPlan heq) (by simp [planMark, planDigest, groupDigest])

/-- The mark of a group that was handed over stays, since no plan that is replaced has a group that was started. -/
theorem Sound.keep_handed (h : Sound marks log) (hmem : ∀ entry ∈ overlapping, entry ∈ marks.filterMap (Mark.planOf actionId))
    (hidle : ∀ entry ∈ overlapping, ∀ mark ∈ marks, mark.isStarted actionId entry.2 = false) {mark : Mark} {other : String} {group : List Int}
    (hmark : mark ∈ marks) (hdigest : mark.targetsDigest = groupDigest other group) (hstate : mark.state ≠ .aborted) :
    mark ∈ keptMarks actionId overlapping marks := by
  refine mem_keptMarks.2 ⟨hmark, ?_⟩
  intro hid entry hentry
  obtain ⟨ids', -, -, hfirst, -⟩ := h.mem_plans (hmem entry hentry)
  constructor
  · rw [hdigest, hfirst]
    exact fun heq => absurd (congrArg Digest.isPlan heq) (by simp [planDigest, groupDigest])
  · intro hin
    have hstarted : mark.isStarted actionId entry.2 = true := by
      simp [Mark.isStarted, h.plan_eq_none hmark hdigest, hid, hin, hstate]
    cases hstarted.symm.trans (hidle entry hentry mark hmark)

/-- Plans of which no group was started are replaced. -/
theorem Sound.replan (h : Sound marks log) (hsorted : ids.Pairwise (· < ·))
    (hnew : ∀ entry ∈ marks.filterMap (Mark.planOf actionId), entry.1 ≠ planDigest actionId ids)
    (hoverlapping : overlapping = (marks.filterMap (Mark.planOf actionId)).filter fun plan => rangesOverlap (rangesOf ids) plan.2.ids)
    (hidle : ∀ entry ∈ overlapping, ∀ mark ∈ marks, mark.isStarted actionId entry.2 = false) :
    Sound (keptMarks actionId overlapping marks ++ [planMark actionId ids]) log := by
  have hmem : ∀ entry ∈ overlapping, entry ∈ marks.filterMap (Mark.planOf actionId) := by
    intro entry hentry
    rw [hoverlapping] at hentry
    exact List.mem_of_mem_filter hentry
  have hsub : (keptMarks actionId overlapping marks).Sublist marks := List.filter_sublist
  have hdisjoint : ∀ ids', planMark actionId ids' ∈ keptMarks actionId overlapping marks → ids.Disjoint ids' := by
    intro ids' hids'
    obtain ⟨hold, hstay⟩ := mem_keptMarks.1 hids'
    obtain ⟨ids'', heq, hsorted'⟩ := h.plan _ hold (by simp [planMark])
    have hids : ids' = ids'' := congrArg (fun mark => mark.targetsDigest.ids) heq
    refine Ranges.disjoint_of_not_overlap hsorted (hids ▸ hsorted') ?_
    by_contra hmeet
    have hentry : (planDigest actionId ids', (⟨rangesOf ids', (groupsOf ids').map (groupDigest actionId), maxAgentsPerGroup⟩ : Plan)) ∈ overlapping := by
      rw [hoverlapping, List.mem_filter]
      exact ⟨mem_plans_of_planMark hold, by simpa [rangesOverlap, rangesOf] using hmeet⟩
    exact (hstay rfl _ hentry).1 rfl
  have hcases : ∀ mark ∈ keptMarks actionId overlapping marks ++ [planMark actionId ids],
      mark ∈ keptMarks actionId overlapping marks ∨ mark = planMark actionId ids := by simp
  refine ⟨?_, ?_, ?_, ?_, ?_, h.once, ?_, h.ordered⟩
  · refine Entries.nodup_map_concat ((hsub.map _).nodup h.digests) ?_
    intro hin
    obtain ⟨mark, hmark, heq⟩ := List.mem_map.1 hin
    have heq : mark.targetsDigest = planDigest actionId ids := heq
    have hmark := hsub.subset hmark
    have hid := h.actionId_eq hmark
    rw [heq] at hid
    cases hplan : mark.plan with
    | none =>
      obtain ⟨_, group, -, -, hdigest⟩ := h.group mark hmark hplan
      exact absurd (congrArg Digest.isPlan (hdigest.symm.trans heq)) (by simp [planDigest, groupDigest])
    | some plan =>
      refine hnew (mark.targetsDigest, plan) (List.mem_filterMap.2 ⟨mark, hmark, ?_⟩) heq
      simp [Mark.planOf, hplan, ← hid, planDigest]
  · intro mark hmark hsome
    rcases hcases mark hmark with hmark | rfl
    · exact h.plan mark (hsub.subset hmark) hsome
    · exact ⟨ids, rfl, hsorted⟩
  · intro other xs ys hxs hys
    rcases hcases _ hxs with hxs | hxs <;> rcases hcases _ hys with hys | hys
    · exact h.disjoint other xs ys (hsub.subset hxs) (hsub.subset hys)
    · cases hys
      exact .inr (hdisjoint xs hxs).symm
    · cases hxs
      exact .inr (hdisjoint ys hys)
    · cases hxs
      cases hys
      exact .inl rfl
  · intro mark hmark hnone
    rcases hcases mark hmark with hmark | rfl
    · obtain ⟨ids', group, hplan, hgroup, hdigest⟩ := h.keep_plan hmem hmark hnone
      exact ⟨ids', group, List.mem_append_left _ hplan, hgroup, hdigest⟩
    · cases hnone
  · intro other group hhanded
    obtain ⟨mark, hmark, hdigest, hstate⟩ := h.handed other group hhanded
    exact ⟨mark, List.mem_append_left _ (h.keep_handed hmem hidle hmark hdigest hstate), hdigest, hstate⟩
  · intro mark hmark hstate
    rcases hcases mark hmark with hmark | rfl
    · exact h.sent mark (hsub.subset hmark) hstate
    · cases hstate

/-- What a claim of a plan leaves; when the call goes on, it goes on with the plan of its endpoints. -/
theorem claimPlan_spec {s s' : RunState} {claim : PlanClaim} (h : Sound s.marks s.log) (hsorted : ids.Pairwise (· < ·))
    (hclaim : claimPlan actionId ids ((groupsOf ids).map (groupDigest actionId)) s = (claim, s')) :
    Sound s'.marks s'.log ∧ s'.log = s.log ∧ ∀ plan, claim = .new plan ∨ claim = .same plan →
      planMark actionId ids ∈ s'.marks ∧ plan = ⟨rangesOf ids, (groupsOf ids).map (groupDigest actionId), maxAgentsPerGroup⟩ := by
  unfold claimPlan at hclaim
  split at hclaim
  · cases hclaim
    exact ⟨h, rfl, by simp⟩
  · simp only at hclaim
    split at hclaim
    · rename_i entry hfind
      cases hclaim
      refine ⟨h, rfl, ?_⟩
      intro plan hplan
      obtain ⟨ids', hmem, -, hfirst, hsecond⟩ := h.mem_plans (List.mem_of_find?_eq_some hfind)
      have hdigest : entry.1 = planDigest actionId ids := by simpa using List.find?_some hfind
      have hids : ids' = ids := congrArg Digest.ids (hfirst.symm.trans hdigest)
      cases hids
      refine ⟨hmem, ?_⟩
      rcases hplan with hplan | hplan
      · cases hplan
      · cases hplan
        exact hsecond
    · rename_i hfind
      split at hclaim
      · cases hclaim
        exact ⟨h, rfl, by simp⟩
      · rename_i hidle
        split at hclaim
        · cases hclaim
          exact ⟨h, rfl, by simp⟩
        · cases hclaim
          refine ⟨h.replan hsorted ?_ rfl ?_, rfl, ?_⟩
          · intro entry hentry
            simpa using List.find?_eq_none.1 hfind entry hentry
          · intro entry hentry mark hmark
            by_contra hstarted
            refine hidle (List.any_eq_true.2 ⟨entry, hentry, List.any_eq_true.2 ⟨mark, hmark, by simpa using hstarted⟩⟩)
          · intro plan hplan
            rcases hplan with hplan | hplan
            · cases hplan
              exact ⟨List.mem_append_right _ (List.mem_singleton_self _), rfl⟩
            · cases hplan

end

/-! ## Groups -/

/-- What every step of a call keeps: the marks stay sound, the plan of the call stays, and the log only grows. -/
structure Goes (actionId : String) (ids : List Int) (s s' : RunState) : Prop where
  sound : Sound s'.marks s'.log
  plan : planMark actionId ids ∈ s'.marks
  grows : s.log <+: s'.log

/-- A group that is claimed and not handed over. -/
structure Ready (actionId : String) (group : List Int) (s : RunState) : Prop where
  mark : ∃ mark ∈ s.marks, mark.targetsDigest = groupDigest actionId group ∧ mark.state = .claiming
  new : group ∉ handedIn actionId s.log
  claimed : .claimed (groupDigest actionId group) ∈ s.log

section

variable {actionId : String} {ids group : List Int} {s s' s'' : RunState}

theorem Goes.trans (h : Goes actionId ids s s') (h' : Goes actionId ids s' s'') : Goes actionId ids s s'' := ⟨h'.sound, h'.plan, h.grows.trans h'.grows⟩

theorem handedIn_mono {log log' : List Act} (h : log <+: log') : handedIn actionId log <+: handedIn actionId log' := h.filterMap _

/-- A group without a mark, or with an aborted one, was not handed over. -/
theorem Sound.not_handed (h : Sound s.marks s.log)
    (hmark : ∀ mark ∈ s.marks, mark.targetsDigest = groupDigest actionId group → mark.state = .aborted) : group ∉ handedIn actionId s.log := by
  intro hhanded
  obtain ⟨mark, hmem, hdigest, hstate⟩ := h.handed actionId group hhanded
  exact hstate (hmark mark hmem hdigest)

theorem claimMark_spec {claim : MarkClaim} (agents : Nat) (h : Sound s.marks s.log) (hplan : planMark actionId ids ∈ s.marks)
    (hgroup : group ∈ groupsOf ids) (hclaim : claimMark actionId (groupDigest actionId group) agents s = (claim, s')) :
    Goes actionId ids s s' ∧ (claim = .claimed → Ready actionId group s') ∧ (claim = .sent → group ∈ handedIn actionId s'.log) := by
  have hstay : Goes actionId ids s s := ⟨h, hplan, List.prefix_refl _⟩
  unfold claimMark at hclaim
  split at hclaim
  · cases hclaim
    exact ⟨hstay, nofun, nofun⟩
  · split at hclaim
    · rename_i mark hfind
      have hmem := List.mem_of_find?_eq_some hfind
      have hdigest := (h.isFor_iff hmem).1 (List.find?_some hfind)
      split at hclaim
      · rename_i hsent
        cases hclaim
        refine ⟨hstay, nofun, fun _ => ?_⟩
        obtain ⟨group', hgroup', hdigest'⟩ := h.sent mark hmem hsent
        cases hdigest.symm.trans hdigest'
        exact hgroup'
      · rename_i haborted
        have hnew : group ∉ handedIn actionId s.log := by
          apply h.not_handed
          intro other hother heq
          rw [h.eq_of_digest hother hmem (heq.trans hdigest.symm)]
          exact haborted
        cases hclaim
        obtain ⟨hsound, hplans, hchanged⟩ := h.change (fun mark => { mark with state := .claiming }) (fun _ => ⟨rfl, rfl, rfl⟩)
          (fun _ => nofun) (fun _ => nofun)
        have hnote : ∀ other group', Act.claimed (groupDigest actionId group) ≠ .handed other group' := nofun
        refine ⟨⟨hsound.note hnote, hplans _ _ hplan, List.prefix_append _ _⟩, fun _ => ⟨⟨_, hchanged mark hmem hdigest, hdigest, rfl⟩, ?_, ?_⟩, nofun⟩
        · simpa [handedIn] using hnew
        · simp
      · cases hclaim
        exact ⟨hstay, nofun, nofun⟩
    · rename_i hfind
      split at hclaim
      · cases hclaim
        exact ⟨hstay, nofun, nofun⟩
      · have hnone : ∀ mark ∈ s.marks, mark.targetsDigest ≠ groupDigest actionId group := by
          intro mark hmem heq
          exact List.find?_eq_none.1 hfind mark hmem ((h.isFor_iff hmem).2 heq)
        have hnew : group ∉ handedIn actionId s.log := h.not_handed fun mark hmem heq => absurd heq (hnone mark hmem)
        cases hclaim
        have hnote : ∀ other group', Act.claimed (groupDigest actionId group) ≠ .handed other group' := nofun
        refine ⟨⟨(h.insert hplan hgroup hnone agents).note hnote, List.mem_append_left _ hplan, List.prefix_append _ _⟩,
          fun _ => ⟨⟨_, List.mem_append_right _ (List.mem_singleton_self _), rfl, rfl⟩, ?_, ?_⟩, nofun⟩
        · simpa [handedIn] using hnew
        · simp

/-- The mark of a group moves on: it is aborted only when the group was not handed over, and sent only when it was. -/
theorem moveMark_goes {state : MarkState} (taskId : String) (h : Sound s.marks s.log) (hplan : planMark actionId ids ∈ s.marks)
    (haborted : state = .aborted → group ∉ handedIn actionId s.log) (hsent : state = .sent → group ∈ handedIn actionId s.log) :
    Goes actionId ids s (moveMark actionId (groupDigest actionId group) state taskId s).2 := by
  obtain ⟨hsound, hplans, -⟩ := h.change
    (fun mark => { mark with state := state, taskId := if taskId = "" then mark.taskId else taskId }) (fun _ => ⟨rfl, rfl, rfl⟩)
    (fun _ => haborted) (fun _ => hsent)
  exact ⟨hsound, hplans _ _ hplan, List.prefix_refl _⟩

/-! ## Steps -/

theorem take_ok {α : Type} {step : Step} {f : RunState → α × RunState} {a : α} (h : step.take f s = (.ok a, s')) :
    ∃ status, f { s with status := status } = (a, s') := by
  refine ⟨step.status.getD s.status, ?_⟩
  simp only [Step.take] at h
  split at h
  · cases h
    rfl
  · cases h
  · cases h

theorem take_error {α : Type} {step : Step} {f : RunState → α × RunState} {halt : Halt} (h : step.take f s = (.error halt, s')) :
    ∃ status, s' = { s with status := status } ∨ s' = (f { s with status := status }).2 := by
  refine ⟨step.status.getD s.status, ?_⟩
  simp only [Step.take] at h
  split at h
  · cases h
  all_goals
    rename_i written hfate
    cases written with
    | false => exact .inl (congrArg Prod.snd h).symm
    | true => exact .inr (congrArg Prod.snd h).symm

/-- A step goes where it leads when it is written and where it is not. -/
theorem take_goes {α : Type} {step : Step} {f : RunState → α × RunState} {outcome : Except Halt α} (h : Sound s.marks s.log)
    (hplan : planMark actionId ids ∈ s.marks) (hf : ∀ status, Goes actionId ids s (f { s with status := status }).2)
    (htake : step.take f s = (outcome, s')) : Goes actionId ids s s' := by
  cases outcome with
  | ok a =>
    obtain ⟨status, heq⟩ := take_ok htake
    have := hf status
    rw [heq] at this
    exact this
  | error halt =>
    obtain ⟨status, rfl | rfl⟩ := take_error htake
    · exact ⟨h, hplan, List.prefix_refl _⟩
    · exact hf status

theorem setMark_goes {step : Step} {state : MarkState} {taskId : String} {written : Option Bool} (h : Sound s.marks s.log)
    (hplan : planMark actionId ids ∈ s.marks) (hset : setMark step actionId (groupDigest actionId group) state taskId s = (written, s'))
    (haborted : state = .aborted → group ∉ handedIn actionId s.log) (hsent : state = .sent → group ∈ handedIn actionId s.log) :
    Goes actionId ids s s' := by
  rcases htake : step.take (moveMark actionId (groupDigest actionId group) state taskId) s with ⟨outcome, left⟩
  have hgoes : Goes actionId ids s left := by
    refine take_goes h hplan ?_ htake
    intro status
    have hmove := moveMark_goes (s := { s with status := status }) taskId h hplan haborted hsent
    exact ⟨hmove.sound, hmove.plan, hmove.grows⟩
  have hleft : s' = left := by
    unfold setMark at hset
    rw [htake] at hset
    split at hset <;> exact (congrArg Prod.snd hset).symm.trans (by rename_i heq; exact (congrArg Prod.snd heq).symm)
  exact hleft ▸ hgoes

/-- Ending the run leaves the marks and the log. -/
theorem endRun_spec {α : Type} {step : Step} {status : RunStatus} {stop : Stop} {outcome : Except Stop α}
    (hend : endRun step status stop s = (outcome, s')) :
    s'.marks = s.marks ∧ s'.log = s.log ∧ (outcome = .error stop ∨ outcome = .error .died) := by
  rcases htake : step.take (closeRun status) s with ⟨taken, left⟩
  have hclose : ∀ s : RunState, (closeRun status s).2.marks = s.marks ∧ (closeRun status s).2.log = s.log := by
    intro s
    unfold closeRun
    split <;> exact ⟨rfl, rfl⟩
  have hsame : left.marks = s.marks ∧ left.log = s.log := by
    cases taken with
    | ok a =>
      obtain ⟨other, heq⟩ := take_ok htake
      have hleft := hclose { s with status := other }
      rw [heq] at hleft
      exact hleft
    | error halt =>
      obtain ⟨other, rfl | rfl⟩ := take_error htake
      · exact ⟨rfl, rfl⟩
      · exact hclose _
  unfold endRun at hend
  rw [htake] at hend
  split at hend
  · rename_i heq
    cases hend
    cases heq
    exact ⟨hsame.1, hsame.2, .inr rfl⟩
  · rename_i heq
    cases hend
    cases heq
    exact ⟨hsame.1, hsame.2, .inl rfl⟩

theorem endRun_goes {α : Type} {step : Step} {status : RunStatus} {stop : Stop} {outcome : Except Stop α} (h : Sound s.marks s.log)
    (hplan : planMark actionId ids ∈ s.marks) (hend : endRun step status stop s = (outcome, s')) : Goes actionId ids s s' := by
  obtain ⟨hmarks, hlog, -⟩ := endRun_spec hend
  refine ⟨?_, ?_, ?_⟩
  · rw [hmarks, hlog]
    exact h
  · rw [hmarks]
    exact hplan
  · exact ⟨[], by rw [List.append_nil, hlog]⟩

/-! ## Calls -/

/-- What one group does: when it is sent, or was before, it is handed over; it is never refused. -/
structure GroupDone (actionId : String) (ids group : List Int) (s s' : RunState) (outcome : Except Stop Bool) : Prop where
  goes : Goes actionId ids s s'
  handed : ∀ isNow, outcome = .ok isNow → group ∈ handedIn actionId s'.log
  admitted : ∀ reason, outcome ≠ .error (.refused reason)

/-- A group that ends with an unknown outcome. -/
theorem unknown_done {step : Step} {text : String} {outcome : Except Stop Bool} {s₀ : RunState} (hgoes : Goes actionId ids s₀ s)
    (h : unknown step text s = (outcome, s')) : GroupDone actionId ids group s₀ s' outcome := by
  obtain ⟨-, -, houtcome⟩ := endRun_spec h
  refine ⟨hgoes.trans (endRun_goes hgoes.sound hgoes.plan h), ?_, ?_⟩
  · rintro isNow rfl
    rcases houtcome with h | h <;> cases h
  · rintro reason rfl
    rcases houtcome with h | h <;> cases h

/-- A group that ends with an error of its own. -/
theorem stop_done {stop : Stop} (hgoes : Goes actionId ids s s') (hstop : ∀ reason, stop ≠ .refused reason) :
    GroupDone actionId ids group s s' (.error stop) :=
  ⟨hgoes, nofun, fun reason heq => hstop reason (Except.error.inj heq)⟩

/-- The audit row of a group that is ready: it stays ready, and the row is there when the write answers. -/
theorem audit_ready {step : Step} {outcome : Except Halt Unit} {row : AuditRow} (h : Sound s.marks s.log) (hplan : planMark actionId ids ∈ s.marks)
    (hready : Ready actionId group s)
    (htake : step.take (fun s => ((), { s with log := s.log ++ [.audited row] })) s = (outcome, s')) :
    Goes actionId ids s s' ∧ Ready actionId group s' ∧ (outcome = .ok () → .audited row ∈ s'.log) := by
  have hnote : ∀ other group', Act.audited row ≠ .handed other group' := nofun
  have hsame : handedIn actionId (s.log ++ [.audited row]) = handedIn actionId s.log := by simp [handedIn]
  have hwritten : Ready actionId group { s with log := s.log ++ [.audited row] } :=
    ⟨hready.mark, by rw [hsame]; exact hready.new, List.mem_append_left _ hready.claimed⟩
  refine ⟨take_goes h hplan (fun _ => ⟨h.note hnote, hplan, List.prefix_append _ _⟩) htake, ?_⟩
  cases outcome with
  | ok a =>
    obtain ⟨status, heq⟩ := take_ok htake
    cases heq
    exact ⟨⟨hwritten.mark, hwritten.new, hwritten.claimed⟩, fun _ => List.mem_append_right _ (List.mem_singleton_self _)⟩
  | error halt =>
    obtain ⟨status, rfl | rfl⟩ := take_error htake
    · exact ⟨⟨hready.mark, hready.new, hready.claimed⟩, nofun⟩
    · exact ⟨⟨hwritten.mark, hwritten.new, hwritten.claimed⟩, nofun⟩

/-- The send of a group whose audit row was written. -/
theorem hand_goes {step : Step} {outcome : Except Halt Unit} (h : Sound s.marks s.log) (hplan : planMark actionId ids ∈ s.marks)
    (hready : Ready actionId group s) (haudited : ∃ row, .audited row ∈ s.log ∧ row.targetsDigest = groupDigest actionId group)
    (htake : step.take (fun s => ((), { s with log := s.log ++ [.handed actionId group] })) s = (outcome, s')) :
    Goes actionId ids s s' := by
  refine take_goes h hplan (fun status => ⟨?_, hplan, List.prefix_append _ _⟩) htake
  obtain ⟨mark, hmem, hdigest, hstate⟩ := hready.mark
  exact h.hand ⟨mark, hmem, hdigest, by rw [hstate]; decide⟩ hready.new hready.claimed haudited

/-- What the steps after the claim of a group do. -/
theorem sendGroup_done {fates : GroupFates} {total groups index sent : Nat} {outcome : Except Stop Bool} (h : Sound s.marks s.log)
    (hplan : planMark actionId ids ∈ s.marks) (hgroup : group ∈ groupsOf ids)
    (hsend : sendGroup actionId fates total groups index sent group (groupDigest actionId group) s = (outcome, s')) :
    GroupDone actionId ids group s s' outcome := by
  unfold sendGroup at hsend
  simp only at hsend
  rcases hclaim : fates.claim.take (claimMark actionId (groupDigest actionId group) group.length) s with ⟨claimed, s₁⟩
  have hgoes₁ : Goes actionId ids s s₁ := by
    refine take_goes h hplan (fun status => ?_) hclaim
    have := (claimMark_spec (s := { s with status := status }) group.length h hplan hgroup rfl).1
    exact ⟨this.sound, this.plan, this.grows⟩
  rw [hclaim] at hsend
  cases claimed with
  | error halt =>
    cases halt with
    | raised =>
      cases hsend
      exact stop_done hgoes₁ nofun
    | died =>
      cases hsend
      exact stop_done hgoes₁ nofun
  | ok claim =>
    obtain ⟨status, hclaim⟩ := take_ok hclaim
    obtain ⟨-, hready, hsent⟩ := claimMark_spec (s := { s with status := status }) _ h hplan hgroup hclaim
    cases claim with
    | gone =>
      cases hsend
      exact stop_done hgoes₁ nofun
    | full => exact unknown_done hgoes₁ hsend
    | unknown => exact unknown_done hgoes₁ hsend
    | sent =>
      cases hsend
      exact ⟨hgoes₁, fun _ _ => hsent rfl, nofun⟩
    | claimed =>
      have hready := hready rfl
      simp only at hsend
      rcases haudit : fates.audit.take (fun s => ((), { s with log := s.log ++ [.audited ⟨actionId, group.length, total, index, groups,
        groupDigest actionId group⟩] })) s₁ with ⟨audited, s₂⟩
      obtain ⟨hgoes₂, hready, hrow⟩ := audit_ready hgoes₁.sound hgoes₁.plan hready haudit
      replace hgoes₂ := hgoes₁.trans hgoes₂
      rw [haudit] at hsend
      cases audited with
      | error halt =>
        cases halt with
        | died =>
          cases hsend
          exact stop_done hgoes₂ nofun
        | raised =>
          simp only at hsend
          rcases hset : setMark fates.mark actionId (groupDigest actionId group) .aborted "" s₂ with ⟨written, s₃⟩
          have hgoes₃ := hgoes₂.trans (setMark_goes hgoes₂.sound hgoes₂.plan hset (fun _ => hready.new) nofun)
          rw [hset] at hsend
          cases written <;> cases hsend <;> exact stop_done hgoes₃ nofun
      | ok _ =>
        simp only at hsend
        rcases hhand : fates.send.take (fun s => ((), { s with log := s.log ++ [.handed actionId group] })) s₂ with ⟨handed, s₃⟩
        have hgoes₃ := hgoes₂.trans (hand_goes hgoes₂.sound hgoes₂.plan hready ⟨_, hrow rfl, rfl⟩ hhand)
        rw [hhand] at hsend
        cases handed with
        | error halt =>
          cases halt with
          | died =>
            cases hsend
            exact stop_done hgoes₃ nofun
          | raised => exact unknown_done hgoes₃ hsend
        | ok _ =>
          obtain ⟨status, hhand⟩ := take_ok hhand
          have hin : group ∈ handedIn actionId s₃.log := by
            cases hhand
            simp [handedIn]
          simp only at hsend
          rcases hset : setMark fates.mark actionId (groupDigest actionId group) .sent (String.ofList (fates.taskId.toList.take 80)) s₃ with ⟨written, s₄⟩
          have hgoes₄ := setMark_goes hgoes₃.sound hgoes₃.plan hset nofun (fun _ => hin)
          rw [hset] at hsend
          cases written with
          | none =>
            cases hsend
            exact stop_done (hgoes₃.trans hgoes₄) nofun
          | some written =>
            cases hsend
            exact ⟨hgoes₃.trans hgoes₄, fun _ _ => (handedIn_mono hgoes₄.grows).subset hin, nofun⟩

/-- The groups of a plan: each is handed over when the call answers, and none of them is refused. -/
theorem sendGroups_done {fates : Nat → GroupFates} {total groups : Nat} {parts : List (List Int)} {index sent now : Nat}
    {outcome : Except Stop (Nat × Nat)} (h : Sound s.marks s.log) (hplan : planMark actionId ids ∈ s.marks) (hparts : ∀ group ∈ parts, group ∈ groupsOf ids)
    (hsend : sendGroups actionId fates total groups (parts.map fun group => (group, groupDigest actionId group)) index sent now s = (outcome, s')) :
    Goes actionId ids s s' ∧ (∀ counts, outcome = .ok counts → ∀ group ∈ parts, group ∈ handedIn actionId s'.log) ∧
      ∀ reason, outcome ≠ .error (.refused reason) := by
  induction parts generalizing index sent now s with
  | nil =>
    cases hsend
    exact ⟨⟨h, hplan, List.prefix_refl _⟩, fun _ _ => nofun, nofun⟩
  | cons group parts ih =>
    rw [List.map_cons, sendGroups] at hsend
    rcases hfirst : sendGroup actionId (fates index) total groups index sent group (groupDigest actionId group) s with ⟨first, s₁⟩
    have hdone := sendGroup_done h hplan (hparts group List.mem_cons_self) hfirst
    rw [hfirst] at hsend
    cases first with
    | error stop =>
      cases hsend
      exact ⟨hdone.goes, nofun, fun reason heq => hdone.admitted reason (congrArg Except.error (Except.error.inj heq))⟩
    | ok isNow =>
      obtain ⟨hgoes, hall, hadmitted⟩ := ih hdone.goes.sound hdone.goes.plan (fun group hgroup => hparts group (List.mem_cons_of_mem _ hgroup)) hsend
      refine ⟨hdone.goes.trans hgoes, ?_, hadmitted⟩
      intro counts hok part hpart
      rcases List.mem_cons.1 hpart with rfl | hpart
      · exact (handedIn_mono hgoes.grows).subset (hdone.handed isNow rfl)
      · exact hall counts hok part hpart

end

end SystemActions

end TecTac
