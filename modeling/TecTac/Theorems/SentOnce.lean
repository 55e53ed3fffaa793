import TecTac.Lemmas.SystemActions
import TecTac.Lib.Machine

/-!
# A system action is sent at most once

Over all attempts of a run, whatever endpoints their calls name and wherever a step fails or the worker dies: no endpoint is handed to the task of
an action twice, every group was claimed and audited before it was handed over, a refused call hands over nothing, and the endpoints of a call
that answered are each handed over once.
-/

namespace TecTac

namespace SystemActions

namespace SentOnceAux

/-- The endpoints of a call, sorted and without duplicates. -/
theorem agentIds_ok {arg : AgentIds} {ids : List Int} (h : agentIds arg = .ok ids) :
    ids.Pairwise (· < ·) ∧ ∀ values, arg = .items values → ∀ n, some n ∈ values → n ∈ ids := by
  unfold agentIds at h
  split at h
  · cases h
  · rename_i values
    split at h
    · cases h
    · split at h
      · cases h
        constructor
        · have hle := List.pairwise_insertionSort (· ≤ ·) (values.filterMap id).dedup
          have hnodup : ((values.filterMap id).dedup.insertionSort (· ≤ ·)).Nodup :=
            (List.perm_insertionSort _ _).nodup_iff.2 (List.nodup_dedup _)
          exact hle.imp₂ (fun a b hab hne => lt_of_le_of_ne hab hne) hnodup
        · rintro values' heq n hn
          cases heq
          simpa using hn
      · cases h

/-- What a call leaves: sound marks and a log that only grows, by nothing when the call is refused; when it answers, each of its endpoints is in
a group that was handed over. -/
structure CallDone (call : Call) (s s' : RunState) (outcome : Except Stop Queued) : Prop where
  sound : Sound s'.marks s'.log
  grows : s.log <+: s'.log
  refused : ∀ reason, outcome = .error (.refused reason) → s'.log = s.log
  queued : ∀ queued, outcome = .ok queued → ∀ values, call.agentIds = .items values → ∀ n, some n ∈ values →
    ∃ group ∈ handedIn call.actionId s'.log, n ∈ group

variable {call : Call} {s s' : RunState} {ids : List Int} {outcome : Except Stop Queued}

/-- A call that ends its run and answers nothing. -/
theorem endRun_done {step : Step} {status : RunStatus} {stop : Stop} (h : Sound s.marks s.log) (hend : endRun step status stop s = (outcome, s')) :
    CallDone call s s' outcome := by
  obtain ⟨hmarks, hlog, houtcome⟩ := endRun_spec hend
  refine ⟨by rw [hmarks, hlog]; exact h, ⟨[], by rw [List.append_nil, hlog]⟩, fun _ _ => hlog, ?_⟩
  rintro queued rfl
  rcases houtcome with h | h <;> cases h

theorem refuse_done {step : Step} {runFound : Bool} {reason : String} (h : Sound s.marks s.log)
    (hrefuse : refuse step runFound reason s = (outcome, s')) : CallDone call s s' outcome := by
  unfold refuse at hrefuse
  split at hrefuse
  · exact endRun_done h hrefuse
  · cases hrefuse
    exact ⟨h, List.prefix_refl _, fun _ _ => rfl, nofun⟩

/-- The groups are those of the endpoints, with their own digests. -/
theorem sendPlan_done (h : Sound s.marks s.log) (hplan : planMark call.actionId ids ∈ s.marks) (hids : agentIds call.agentIds = .ok ids)
    (hsend : sendPlan call ids ⟨rangesOf ids, (groupsOf ids).map (groupDigest call.actionId), maxAgentsPerGroup⟩ s = (outcome, s')) :
    CallDone call s s' outcome := by
  have hgroups : Ranges.cut (if maxAgentsPerGroup = 0 then maxAgentsPerGroup else maxAgentsPerGroup) ids = groupsOf ids := rfl
  have hdigests : (if (groupsOf ids).map (groupDigest call.actionId) = [] then (groupsOf ids).map (groupDigest call.actionId)
      else (groupsOf ids).map (groupDigest call.actionId)) = (groupsOf ids).map (groupDigest call.actionId) := ite_self _
  unfold sendPlan at hsend
  simp only [hgroups, hdigests] at hsend
  rw [if_neg (by simp), ← List.map_prod_left_eq_zip] at hsend
  rcases hall : sendGroups call.actionId call.group ids.length (groupsOf ids).length
    ((groupsOf ids).map fun group => (group, groupDigest call.actionId group)) 1 0 0 s with ⟨answer, left⟩
  obtain ⟨hgoes, hhanded, hadmitted⟩ := sendGroups_done h hplan (fun _ hgroup => hgroup) hall
  rw [hall] at hsend
  cases answer with
  | error stop =>
    cases hsend
    refine ⟨hgoes.sound, hgoes.grows, ?_, nofun⟩
    intro reason heq
    cases heq
    exact absurd rfl (hadmitted reason)
  | ok counts =>
    cases hsend
    refine ⟨hgoes.sound, hgoes.grows, nofun, ?_⟩
    intro queued _ values hvalues n hn
    have hmem : n ∈ ids := (agentIds_ok hids).2 values hvalues n hn
    rw [← Ranges.flatten_cut (by decide : 0 < maxAgentsPerGroup) ids] at hmem
    obtain ⟨group, hgroup, hn⟩ := List.mem_flatten.1 hmem
    exact ⟨group, hhanded counts rfl group hgroup, hn⟩

theorem sendAll_done (h : Sound s.marks s.log) (hids : agentIds call.agentIds = .ok ids) (hsend : sendAll call ids s = (outcome, s')) :
    CallDone call s s' outcome := by
  unfold sendAll at hsend
  simp only at hsend
  split at hsend
  · exact refuse_done h hsend
  · rcases hclaim : call.plan.take (claimPlan call.actionId ids ((groupsOf ids).map (groupDigest call.actionId))) s with ⟨claimed, left⟩
    have hsorted := (agentIds_ok hids).1
    rw [hclaim] at hsend
    cases claimed with
    | error halt =>
      have hleft : Sound left.marks left.log ∧ left.log = s.log := by
        obtain ⟨status, rfl | rfl⟩ := take_error hclaim
        · exact ⟨h, rfl⟩
        · obtain ⟨hsound, hlog, -⟩ := claimPlan_spec (s := { s with status := status }) h hsorted rfl
          exact ⟨hsound, hlog⟩
      cases halt <;> cases hsend <;> exact ⟨hleft.1, ⟨[], by rw [List.append_nil, hleft.2]⟩, fun _ _ => hleft.2, nofun⟩
    | ok claim =>
      obtain ⟨status, hclaim⟩ := take_ok hclaim
      obtain ⟨hsound, hlog, hplan⟩ := claimPlan_spec (s := { s with status := status }) h hsorted hclaim
      have hlog : left.log = s.log := hlog
      have hdone : CallDone call left s' outcome → CallDone call s s' outcome := by
        intro hdone
        exact ⟨hdone.sound, hlog ▸ hdone.grows, fun reason heq => (hdone.refused reason heq).trans hlog, hdone.queued⟩
      apply hdone
      cases claim with
      | gone =>
        cases hsend
        exact ⟨hsound, List.prefix_refl _, nofun, nofun⟩
      | full => exact refuse_done hsound hsend
      | changed => exact endRun_done hsound hsend
      | new plan =>
        obtain ⟨hmem, rfl⟩ := hplan plan (.inl rfl)
        exact sendPlan_done hsound hmem hids hsend
      | same plan =>
        obtain ⟨hmem, rfl⟩ := hplan plan (.inr rfl)
        exact sendPlan_done hsound hmem hids hsend

theorem call_done (call : Call) (h : Sound s.marks s.log) : CallDone call s (runSystemAction call s).2 (runSystemAction call s).1 := by
  rcases hcall : runSystemAction call s with ⟨outcome, s'⟩
  unfold runSystemAction at hcall
  split at hcall
  · exact refuse_done h hcall
  · split at hcall
    · exact refuse_done h hcall
    · rename_i ids hids
      split at hcall
      · exact refuse_done h hcall
      · exact sendAll_done h hids hcall

theorem step_sound {s : RunState} {e : Event} (h : Sound s.marks s.log) : Sound (step s e).marks (step s e).log ∧ s.log <+: (step s e).log := by
  cases e with
  | status status => exact ⟨h, List.prefix_refl _⟩
  | call call =>
    have hdone := call_done call h
    exact ⟨hdone.sound, hdone.grows⟩

theorem run_sound {s : RunState} (h : Sound s.marks s.log) (events : List Event) :
    Sound (run s events).marks (run s events).log ∧ s.log <+: (run s events).log := by
  induction events generalizing s with
  | nil => exact ⟨h, List.prefix_refl _⟩
  | cons e events ih =>
    obtain ⟨hsound, hgrows⟩ := step_sound (e := e) h
    obtain ⟨hend, hrest⟩ := ih hsound
    exact ⟨hend, hgrows.trans hrest⟩

/-- A group that was handed over is a group of a plan. -/
theorem planned_of_handed {marks : List Mark} {log : List Act} (h : Sound marks log) {actionId : String} {group : List Int}
    (hgroup : group ∈ handedIn actionId log) : ∃ ids, planMark actionId ids ∈ marks ∧ ids.Nodup ∧ group ∈ groupsOf ids := by
  obtain ⟨mark, hmem, hdigest, -⟩ := h.handed actionId group hgroup
  obtain ⟨ids, group', hplan, hgroup', hdigest'⟩ := h.group mark hmem (h.plan_eq_none hmem hdigest)
  have heq := hdigest.symm.trans hdigest'
  have hid : mark.actionId = actionId := (congrArg Digest.actionId heq).symm
  have hsame : group' = group := (congrArg Digest.ids heq).symm
  rw [hid] at hplan
  obtain ⟨ids', hids', hsorted⟩ := h.plan _ hplan (by simp [planMark])
  have hids : ids = ids' := congrArg (fun mark => mark.targetsDigest.ids) hids'
  exact ⟨ids, hplan, hids ▸ hsorted.imp fun hlt => ne_of_lt hlt, hsame ▸ hgroup'⟩

/-- No endpoint is in two of the groups that were handed over, or twice in one of them. -/
theorem nodup_handed {marks : List Mark} {log : List Act} (h : Sound marks log) (actionId : String) : (handedIn actionId log).flatten.Nodup := by
  have hsize : 0 < maxAgentsPerGroup := by decide
  rw [List.nodup_flatten]
  constructor
  · intro group hgroup
    obtain ⟨ids, -, hnodup, hcut⟩ := planned_of_handed h hgroup
    rw [← Ranges.flatten_cut hsize ids, List.nodup_flatten] at hnodup
    exact hnodup.1 group hcut
  · refine (h.once actionId).pairwise_of_forall_ne fun a ha b hb hne => ?_
    obtain ⟨ids, hplan, hnodup, hcut⟩ := planned_of_handed h ha
    obtain ⟨ids', hplan', -, hcut'⟩ := planned_of_handed h hb
    rcases h.disjoint actionId ids ids' hplan hplan' with rfl | hdisjoint
    · exact Ranges.disjoint_of_mem_cut hsize hnodup hcut hcut' hne
    · exact fun n hn hn' => hdisjoint (Ranges.subset_of_mem_cut hsize hcut hn) (Ranges.subset_of_mem_cut hsize hcut' hn')

end SentOnceAux

open SentOnceAux in
/-- In every run, from a run to which nothing was sent yet: no endpoint is handed to the task of an action twice; every group was claimed and audited
before it was handed over; a call that is refused hands over nothing; and every endpoint of a call that answers is handed over exactly once. -/
theorem sends_at_most_once (status : RunStatus) (events : List Event) (actionId : String) :
    (handed actionId (run (fresh status) events)).flatten.Nodup ∧
    (∀ front group back, (run (fresh status) events).log = front ++ .handed actionId group :: back →
      .claimed (groupDigest actionId group) ∈ front ∧ ∃ row, .audited row ∈ front ∧ row.targetsDigest = groupDigest actionId group) ∧
    (∀ front call back reason, events = front ++ .call call :: back →
      (runSystemAction call (run (fresh status) front)).1 = .error (.refused reason) →
      handed actionId (run (fresh status) (front ++ [.call call])) = handed actionId (run (fresh status) front)) ∧
    (∀ front call back queued values n, events = front ++ .call call :: back → call.actionId = actionId →
      (runSystemAction call (run (fresh status) front)).1 = .ok queued → call.agentIds = .items values → some n ∈ values →
      (handed actionId (run (fresh status) events)).flatten.count n = 1) := by
  have hrun : ∀ events, Sound (run (fresh status) events).marks (run (fresh status) events).log := fun events => (run_sound sound_nil events).1
  refine ⟨nodup_handed (hrun events) actionId, fun front group back heq => (hrun events).ordered front actionId group back heq, ?_, ?_⟩
  · intro front call back reason _ hrefused
    have hlog := (call_done call (hrun front)).refused reason hrefused
    unfold run handed
    rw [List.foldl_append]
    exact congrArg (handedIn actionId) hlog
  · rintro front call back queued values n rfl rfl hqueued hvalues hn
    obtain ⟨group, hgroup, hin⟩ := (call_done call (hrun front)).queued queued hqueued values hvalues n hn
    -- what the call handed over stays in the log to the end of the run
    have hgrows : (runSystemAction call (run (fresh status) front)).2.log <+: (run (fresh status) (front ++ .call call :: back)).log := by
      unfold run
      rw [List.foldl_append]
      exact (run_sound (call_done call (hrun front)).sound back).2
    apply List.count_eq_one_of_mem (nodup_handed (hrun _) call.actionId)
    exact List.mem_flatten_of_mem ((handedIn_mono hgrows).subset hgroup) hin

/-- A step that is done. -/
def steady : Step := ⟨none, .done⟩

/-- A call for three endpoints, one of them named twice, whose audit rows end as given. -/
def scanCall (audit : Fate) : Call where
  actionId := "patching.scan"
  runFound := true
  before := none
  agentIds := .items [some 3, some 1, some 2, some 3]
  after := none
  plan := steady
  group _ := ⟨steady, ⟨none, audit⟩, steady, steady, steady, "task"⟩
  ending := steady

/-- The audit row of the first attempt is lost, and the second attempt sends. -/
theorem retry_sends_once :
    (handed "patching.scan" (run (fresh .running) [.call (scanCall (.failed true)), .call (scanCall .done)])).flatten.count 3 = 1 :=
  (sends_at_most_once .running [.call (scanCall (.failed true)), .call (scanCall .done)] "patching.scan").2.2.2
    [.call (scanCall (.failed true))] (scanCall .done) [] ⟨3, ⟨1, 1, 0, 0⟩, false⟩ _ 3 rfl rfl (by decide) rfl (by decide)

end SystemActions

end TecTac
