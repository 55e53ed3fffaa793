import TecTac.Intake
import TecTac.Lemmas.InstallPlan
import TecTac.Lib.Layers

/-!
# The order of an install

After `k` turns the loop has taken exactly the packages that begin no chain of `k` dependencies, so that a turn takes one layer of the graph, in the order of
the upload. When a turn takes nothing, every package that is left needs another one that is left.
-/

namespace TecTac

open Layers Raise

/-- A package of the batch has a hard dependency on another one of it, or on itself. -/
def Needs (candidates : List Candidate) (x d : String) : Prop :=
  ∃ c ∈ candidates, c.id = x ∧ d ∈ c.dependencies.map Prod.fst ∧ d ∈ candidates.map (·.id)

namespace OrderAux

/-- What is left of the graph when some packages were taken. -/
def left (graph : List (String × List String)) (order : List String) : List (String × List String) :=
  (graph.filter fun p => decide (p.1 ∉ order)).map fun p => (p.1, p.2.filter fun id => decide (id ∉ order))

/-- The packages of which everything they need was taken. -/
def ready (graph : List (String × List String)) (order : List String) : List String :=
  ((left graph order).filter fun p => p.2.isEmpty).map Prod.fst

/-- What was taken after some turns. -/
def stage (graph : List (String × List String)) : Nat → List String
  | 0 => []
  | k + 1 => stage graph k ++ ready graph (stage graph k)

variable {graph : List (String × List String)} {order : List String}

theorem left_nil (graph : List (String × List String)) : left graph [] = graph := by simp [left]

theorem keys_left (graph : List (String × List String)) (order : List String) :
    (left graph order).map Prod.fst = (graph.map Prod.fst).filter fun id => decide (id ∉ order) := by
  rw [left, List.map_map, List.filter_map]
  rfl

/-- The turn of the loop: the packages that were taken leave the graph. -/
theorem left_append (graph : List (String × List String)) (order more : List String) :
    left graph (order ++ more) =
      ((left graph order).filter fun p => decide (p.1 ∉ more)).map fun p => (p.1, p.2.filter fun id => decide (id ∉ more)) := by
  unfold left
  rw [List.filter_map, List.map_map, List.filter_filter]
  have hkeep : (fun p : String × List String => decide (p.1 ∉ order ++ more)) =
      fun p => decide (p.1 ∉ more) && decide (p.1 ∉ order) := by
    funext p
    simp [List.mem_append, not_or, Bool.and_comm]
  have hdeps : (fun id : String => decide (id ∉ order ++ more)) = fun id => decide (id ∉ more) && decide (id ∉ order) := by
    funext id
    simp [List.mem_append, not_or, Bool.and_comm]
  rw [hkeep]
  refine List.map_congr_left fun p _ => ?_
  simp only [Function.comp_apply, hdeps, List.filter_filter]

theorem mem_ready {x : String} : x ∈ ready graph order ↔ ∃ p ∈ graph, p.1 = x ∧ x ∉ order ∧ ∀ d ∈ p.2, d ∈ order := by
  simp only [ready, left, List.mem_map, List.mem_filter, decide_eq_true_eq]
  constructor
  · rintro ⟨q, ⟨⟨p, ⟨hp, hnot⟩, rfl⟩, hempty⟩, rfl⟩
    refine ⟨p, hp, rfl, hnot, ?_⟩
    intro d hd
    by_contra hout
    rw [List.isEmpty_iff, List.filter_eq_nil_iff] at hempty
    exact hempty d hd (by simpa using hout)
  · rintro ⟨p, hp, rfl, hnot, hall⟩
    refine ⟨_, ⟨⟨p, ⟨hp, hnot⟩, rfl⟩, ?_⟩, rfl⟩
    rw [List.isEmpty_iff, List.filter_eq_nil_iff]
    intro d hd
    simpa using hall d hd

theorem ready_sublist (graph : List (String × List String)) (order : List String) : List.Sublist (ready graph order) (graph.map Prod.fst) := by
  refine (List.filter_sublist.map Prod.fst).trans ?_
  rw [keys_left]
  exact List.filter_sublist

theorem nodup_stage (hkeys : (graph.map Prod.fst).Nodup) (k : Nat) : (stage graph k).Nodup := by
  induction k with
  | zero => exact List.nodup_nil
  | succ k ih =>
    refine List.nodup_append.2 ⟨ih, (ready_sublist graph _).nodup hkeys, ?_⟩
    intro x hx y hy heq
    obtain ⟨_, _, _, hnot, _⟩ := mem_ready.1 hy
    exact hnot (heq ▸ hx)

/-- One turn of the loop. -/
theorem loop_turn (fuel : Nat) (graph : List (String × List String)) (order : List String) :
    orderLoop (fuel + 1) (left graph order) order =
      if (left graph order).isEmpty then (order, none)
      else if (ready graph order).isEmpty then (order, some (sortedIds ((left graph order).map Prod.fst)))
      else orderLoop fuel (left graph (order ++ ready graph order)) (order ++ ready graph order) := by
  rw [left_append]
  rfl

/-- A turn that takes something leaves less. -/
theorem left_shorter (h : ready graph order ≠ []) : (left graph (order ++ ready graph order)).length < (left graph order).length := by
  obtain ⟨x, hx⟩ := List.exists_mem_of_ne_nil _ h
  obtain ⟨p, hp, hpx⟩ := List.mem_map.1 hx
  rw [left_append, List.length_map]
  refine List.length_filter_lt_length_iff_exists.2 ⟨p, (List.mem_filter.1 hp).1, ?_⟩
  rw [hpx]
  simpa using hx

/-- Where the loop ends: at a stage after which nothing is ready, with what is left as the cycle. -/
theorem loop_ends (graph : List (String × List String)) (fuel k : Nat) (hfuel : (left graph (stage graph k)).length < fuel) :
    ∃ n, ready graph (stage graph n) = [] ∧ orderLoop fuel (left graph (stage graph k)) (stage graph k) =
      (stage graph n, if left graph (stage graph n) = [] then none else some (sortedIds ((left graph (stage graph n)).map Prod.fst))) := by
  induction fuel generalizing k with
  | zero => exact absurd hfuel (Nat.not_lt_zero _)
  | succ fuel ih =>
    rw [loop_turn]
    by_cases hempty : left graph (stage graph k) = []
    · refine ⟨k, by rw [ready, hempty]; rfl, ?_⟩
      rw [if_pos (List.isEmpty_iff.2 hempty), if_pos hempty]
    · rw [if_neg (fun h => hempty (List.isEmpty_iff.1 h))]
      by_cases hready : ready graph (stage graph k) = []
      · refine ⟨k, hready, ?_⟩
        rw [if_pos (List.isEmpty_iff.2 hready), if_neg hempty]
      · rw [if_neg (fun h => hready (List.isEmpty_iff.1 h))]
        have hshorter := left_shorter hready
        exact ih (k + 1) (by rw [stage]; omega)

/-! ## The layers -/

variable {needs : String → String → Prop}

/-- The graph lists what each of its members needs, and lists no other names. -/
structure Lists (graph : List (String × List String)) (needs : String → String → Prop) : Prop where
  keys : (graph.map Prod.fst).Nodup
  needs_iff : ∀ x d, needs x d ↔ ∃ p ∈ graph, p.1 = x ∧ d ∈ p.2
  inside : ∀ x d, needs x d → d ∈ graph.map Prod.fst

/-- After some turns exactly the members are taken that begin no chain of that length. -/
theorem mem_stage (h : Lists graph needs) (k : Nat) (x : String) : x ∈ stage graph k ↔ x ∈ graph.map Prod.fst ∧ ¬ Chain needs k x := by
  induction k generalizing x with
  | zero => simp [stage, Chain]
  | succ k ih =>
    have hchain : ¬ Chain needs (k + 1) x ↔ ∀ d, needs x d → ¬ Chain needs k d := by simp [Chain]
    rw [stage, List.mem_append, mem_ready, hchain]
    constructor
    · rintro (hold | ⟨p, hp, rfl, -, hall⟩)
      · obtain ⟨hkey, hnot⟩ := (ih x).1 hold
        exact ⟨hkey, hchain.1 fun hlong => hnot hlong.shorter⟩
      · refine ⟨List.mem_map_of_mem hp, ?_⟩
        intro d hd
        obtain ⟨q, hq, hqp, hd⟩ := (h.needs_iff p.1 d).1 hd
        have heq : q = p := List.inj_on_of_nodup_map h.keys hq hp hqp
        exact ((ih d).1 (hall d (heq ▸ hd))).2
    · rintro ⟨hkey, hall⟩
      by_cases hold : x ∈ stage graph k
      · exact .inl hold
      · obtain ⟨p, hp, rfl⟩ := List.mem_map.1 hkey
        refine .inr ⟨p, hp, rfl, hold, ?_⟩
        intro d hd
        have hneeds := (h.needs_iff p.1 d).2 ⟨p, hp, rfl, hd⟩
        exact (ih d).2 ⟨h.inside p.1 d hneeds, hall d hneeds⟩

/-- What is needed stands before what needs it. -/
theorem before_stage (h : Lists graph needs) (k : Nat) {x d : String} (hneeds : needs x d) (hx : x ∈ stage graph k) : List.Sublist [d, x] (stage graph k) := by
  induction k with
  | zero => cases hx
  | succ k ih =>
    rw [stage] at hx ⊢
    by_cases hold : x ∈ stage graph k
    · exact (ih hold).trans (List.sublist_append_left _ _)
    · have hnew : x ∈ ready graph (stage graph k) := (List.mem_append.1 hx).resolve_left hold
      obtain ⟨p, hp, hpx, -, hall⟩ := mem_ready.1 hnew
      obtain ⟨q, hq, hqx, hd⟩ := (h.needs_iff x d).1 hneeds
      have heq : q = p := List.inj_on_of_nodup_map h.keys hq hp (hqx.trans hpx.symm)
      exact List.Sublist.append (List.singleton_sublist.2 (hall d (heq ▸ hd))) (List.singleton_sublist.2 hnew)

/-- A later stage begins with an earlier one. -/
theorem stage_front (graph : List (String × List String)) {m n : Nat} (hle : m ≤ n) : stage graph m <+: stage graph n := by
  induction hle with
  | refl => exact List.prefix_refl _
  | step _ ih => exact ih.trans (List.prefix_append _ _)

/-- Two members of one layer stand in the order of the graph. -/
theorem layer_keeps_order (h : Lists graph needs) {n k : Nat} {x y : String} (hx : AtDepth needs n x) (hy : AtDepth needs n y)
    (hxy : List.Sublist [x, y] (graph.map Prod.fst)) (hk : x ∈ stage graph k) : List.Sublist [x, y] (stage graph k) := by
  have hin : ∀ z, z ∈ graph.map Prod.fst → AtDepth needs n z → z ∈ ready graph (stage graph n) := by
    intro z hz hdepth
    have hmem : z ∈ stage graph n ++ ready graph (stage graph n) := (mem_stage h (n + 1) z).2 ⟨hz, hdepth.2⟩
    exact (List.mem_append.1 hmem).resolve_left fun hold => ((mem_stage h n z).1 hold).2 hdepth.1
  have hlt : n < k := by
    by_contra hle
    exact ((mem_stage h k x).1 hk).2 (hx.1.mono (by omega))
  have hlayer := sublist_of_part h.keys (ready_sublist graph (stage graph n)) hxy (hin x (hxy.subset (by simp)) hx) (hin y (hxy.subset (by simp)) hy)
  exact (hlayer.trans (List.sublist_append_right _ _)).trans (stage_front graph hlt).sublist

/-! ## The graph of a batch -/

variable {candidates : List Candidate}

theorem lists_orderGraph (hids : (candidates.map (·.id)).Nodup) : Lists (orderGraph candidates) (Needs candidates) where
  keys := by rwa [orderGraph_keys]
  needs_iff x d := by
    constructor
    · rintro ⟨c, hc, rfl, hd, hin⟩
      exact ⟨_, List.mem_map_of_mem hc, rfl, List.mem_filter.2 ⟨hd, decide_eq_true hin⟩⟩
    · rintro ⟨p, hp, rfl, hd⟩
      obtain ⟨c, hc, rfl⟩ := List.mem_map.1 hp
      obtain ⟨hd, hin⟩ := List.mem_filter.1 hd
      exact ⟨c, hc, rfl, hd, of_decide_eq_true hin⟩
  inside x d := by
    rintro ⟨_, _, _, _, hin⟩
    rwa [orderGraph_keys]

/-- What the loop answers for a batch. -/
structure Ordered (candidates : List Candidate) (answer : List String × Option (List String)) : Prop where
  nodup : answer.1.Nodup
  mem_iff : ∀ x, x ∈ answer.1 ↔ x ∈ candidates.map (·.id) ∧ ¬ ReachesCycle (Needs candidates) x
  before : ∀ x d, Needs candidates x d → x ∈ answer.1 → List.Sublist [d, x] answer.1
  layers : ∀ x y n, AtDepth (Needs candidates) n x → AtDepth (Needs candidates) n y → List.Sublist [x, y] (candidates.map (·.id)) → x ∈ answer.1 →
    List.Sublist [x, y] answer.1
  cycle : ∀ modules, answer.2 = some modules → modules.Nodup ∧ ∀ x, x ∈ modules ↔ x ∈ candidates.map (·.id) ∧ ReachesCycle (Needs candidates) x
  cycle_isSome : answer.2.isSome = true ↔ ∃ x ∈ candidates.map (·.id), ReachesCycle (Needs candidates) x

/-- When nothing is ready, what is left is what reaches a cycle. -/
theorem reaches_iff_left (hids : (candidates.map (·.id)).Nodup) {n : Nat} (hready : ready (orderGraph candidates) (stage (orderGraph candidates) n) = [])
    (x : String) (hx : x ∈ candidates.map (·.id)) : x ∈ stage (orderGraph candidates) n ↔ ¬ ReachesCycle (Needs candidates) x := by
  have hlists := lists_orderGraph hids
  rw [mem_stage hlists, orderGraph_keys]
  constructor
  · rintro ⟨-, hnot⟩ hreaches
    exact hnot (hreaches.chain n)
  · intro hnot
    refine ⟨hx, fun hchain => hnot ?_⟩
    set rest := (candidates.map (·.id)).filter fun id => decide (id ∉ stage (orderGraph candidates) n)
    refine (reachesCycle_of_closed (?_ : ∀ y ∈ rest, ∃ d ∈ rest, _) ?_)
    · intro y hy
      obtain ⟨hykey, hyleft⟩ := List.mem_filter.1 hy
      have hyleft := of_decide_eq_true hyleft
      -- a member that is left and needs nothing that is left would be ready
      by_contra hnone
      have hall : y ∈ ready (orderGraph candidates) (stage (orderGraph candidates) n) := by
        rw [← orderGraph_keys] at hykey
        obtain ⟨p, hp, rfl⟩ := List.mem_map.1 hykey
        refine mem_ready.2 ⟨p, hp, rfl, hyleft, ?_⟩
        intro d hd
        by_contra hout
        have hneeds := (hlists.needs_iff p.1 d).2 ⟨p, hp, rfl, hd⟩
        have hin := hlists.inside _ _ hneeds
        rw [orderGraph_keys] at hin
        exact hnone ⟨d, List.mem_filter.2 ⟨hin, decide_eq_true hout⟩, hneeds⟩
      rw [hready] at hall
      cases hall
    · refine List.mem_filter.2 ⟨hx, decide_eq_true fun hin => ?_⟩
      exact ((mem_stage hlists n x).1 hin).2 hchain

/-- With as many turns as there are packages, and one more, or with more turns, the loop orders the batch. -/
theorem ordered_loop (hids : (candidates.map (·.id)).Nodup) (more : Nat) :
    Ordered candidates (orderLoop (candidates.length + 1 + more) (orderGraph candidates) []) ∧
      orderLoop (candidates.length + 1 + more) (orderGraph candidates) [] = orderLoop (candidates.length + 1) (orderGraph candidates) [] := by
  have hlists := lists_orderGraph hids
  have hlength : (left (orderGraph candidates) (stage (orderGraph candidates) 0)).length = candidates.length := by
    rw [stage, left_nil, orderGraph, List.length_map]
  have hstart := left_nil (orderGraph candidates)
  obtain ⟨n, hready, hloop⟩ := loop_ends (orderGraph candidates) (candidates.length + 1 + more) 0 (by omega)
  obtain ⟨m, hready', hloop'⟩ := loop_ends (orderGraph candidates) (candidates.length + 1) 0 (by omega)
  rw [stage, hstart] at hloop hloop'
  have hsame : stage (orderGraph candidates) m = stage (orderGraph candidates) n := by
    have hstep : ∀ k, ready (orderGraph candidates) (stage (orderGraph candidates) k) = [] →
        ∀ j, k ≤ j → stage (orderGraph candidates) j = stage (orderGraph candidates) k := by
      intro k hk j hle
      induction hle with
      | refl => rfl
      | step _ ih => rw [stage, ih, hk, List.append_nil]
    rcases Nat.le_total m n with hle | hle
    · exact (hstep m hready' n hle).symm
    · exact hstep n hready m hle
  refine ⟨?_, by rw [hloop, hloop', hsame]⟩
  rw [hloop]
  have hleft : ∀ x, x ∈ (left (orderGraph candidates) (stage (orderGraph candidates) n)).map Prod.fst ↔
      x ∈ candidates.map (·.id) ∧ ReachesCycle (Needs candidates) x := by
    intro x
    rw [keys_left, orderGraph_keys, List.mem_filter, decide_eq_true_eq]
    refine and_congr_right fun hx => ?_
    rw [reaches_iff_left hids hready x hx, not_not]
  refine ⟨nodup_stage hlists.keys n, ?_, fun x d hneeds hx => before_stage hlists n hneeds hx, ?_, ?_, ?_⟩
  · intro x
    constructor
    · intro hx
      have hkey := ((mem_stage hlists n x).1 hx).1
      rw [orderGraph_keys] at hkey
      exact ⟨hkey, (reaches_iff_left hids hready x hkey).1 hx⟩
    · rintro ⟨hkey, hnot⟩
      exact (reaches_iff_left hids hready x hkey).2 hnot
  · intro x y k hx hy hxy hin
    rw [← orderGraph_keys] at hxy
    exact layer_keeps_order hlists hx hy hxy hin
  · intro modules hmodules
    dsimp only at hmodules
    split at hmodules
    · cases hmodules
    · obtain rfl := Option.some.inj hmodules
      have hperm := List.perm_insertionSort (· ≤ ·) ((left (orderGraph candidates) (stage (orderGraph candidates) n)).map Prod.fst)
      refine ⟨?_, fun x => by rw [sortedIds, hperm.mem_iff, hleft]⟩
      refine hperm.nodup_iff.2 ?_
      rw [keys_left, orderGraph_keys]
      exact hids.filter _
  · dsimp only
    constructor
    · intro hsome
      split at hsome
      · cases hsome
      · rename_i hne
        obtain ⟨p, hp⟩ := List.exists_mem_of_ne_nil _ hne
        exact ⟨p.1, (hleft p.1).1 (List.mem_map_of_mem hp)⟩
    · rintro ⟨x, hx⟩
      rw [if_neg]
      · rfl
      · intro hnil
        have := (hleft x).2 hx
        rw [hnil] at this
        cases this

/-! ## The plan -/

/-- A problem that names a cycle. -/
def IsCycle : PlanProblem → Prop
  | .dependencyCycle _ => True
  | _ => False

theorem renameSources_plain {installed : List String} {acc : List PlanProblem × List (String × String)}
    (h : renameSources installed candidates = .ok acc) : ∀ p ∈ acc.1, ¬ IsCycle p := by
  refine foldlM_keeps (P := fun acc => ∀ p ∈ acc.1, ¬ IsCycle p) h ?_ (fun p hp => by cases hp)
  intro acc c acc' hstep hacc
  obtain ⟨source, _, hstep⟩ := bind_ok hstep
  cases source with
  | none =>
    cases hstep
    exact hacc
  | some old =>
    dsimp only at hstep
    split at hstep
    · cases hstep
      intro p hp
      rcases List.mem_append.1 hp with hp | hp
      · exact hacc p hp
      · rw [List.mem_singleton.1 hp]
        exact fun h => h
    · cases hstep
      exact hacc

theorem candidateDependency_plain {site : Site} {future : PlanRows} {model : Model} {c : Candidate} {d : String × String} {ps : List PlanProblem}
    (h : candidateDependency site future model c d = .ok ps) : ∀ p ∈ ps, ¬ IsCycle p := by
  unfold candidateDependency at h
  split at h
  · cases h
    simp [IsCycle]
  · split at h
    · cases h
      simp [IsCycle]
    · obtain ⟨satisfied, _, h⟩ := bind_ok h
      cases h
      split <;> simp [IsCycle]

theorem candidateProblems_plain {site : Site} {future : PlanRows} {model : Model} {c : Candidate} {ps : List PlanProblem}
    (h : candidateProblems site future model c = .ok ps) : ∀ p ∈ ps, ¬ IsCycle p := by
  obtain ⟨found, hfound, h⟩ := bind_ok h
  cases h
  intro p hp
  rcases List.mem_append.1 hp with hp | hp
  · obtain ⟨check, _, rfl⟩ := List.mem_map.1 hp
    exact fun h => h
  · obtain ⟨ps, hps, hp⟩ := List.mem_flatten.1 hp
    obtain ⟨d, _, hd⟩ := mem_of_mapM_ok hfound hps
    exact candidateDependency_plain hd p hp

theorem breaksDependants_plain {site : Site} {future : PlanRows} {ps : List PlanProblem}
    (h : breaksDependants site future candidates = .ok ps) : ∀ p ∈ ps, ¬ IsCycle p := by
  obtain ⟨found, hfound, h⟩ := bind_ok h
  cases h
  intro p hp
  obtain ⟨qs, hqs, hp⟩ := List.mem_flatten.1 hp
  obtain ⟨row, _, hrow⟩ := mem_of_mapM_ok hfound hqs
  obtain ⟨inner, hinner, hrow⟩ := bind_ok hrow
  cases hrow
  obtain ⟨rs, hrs, hp⟩ := List.mem_flatten.1 hp
  obtain ⟨d, _, hd⟩ := mem_of_mapM_ok hinner hrs
  unfold breaksOne at hd
  split at hd
  · cases hd
    cases hp
  · split at hd
    · cases hd
    · obtain ⟨satisfied, _, hd⟩ := bind_ok hd
      cases hd
      split at hp
      · cases hp
      · rw [List.mem_singleton.1 hp]
        exact fun h => h

/-- The dependencies of the action of a module. -/
def dependenciesOf (plan : Plan) (id : String) : List String :=
  match plan.actions.find? (·.id = id) with
  | some action => action.dependencies.map Prod.fst
  | none => []

/-- What a plan says of the order. -/
structure PlanOrder (candidates : List Candidate) (plan : Plan) : Prop where
  nodup : (candidates.map (·.id)).Nodup
  order : plan.order = (orderLoop (candidates.length + 1) (orderGraph candidates) []).1
  cycle : ∀ modules, .dependencyCycle modules ∈ plan.problems ↔ (orderLoop (candidates.length + 1) (orderGraph candidates) []).2 = some modules
  dependencies : ∀ c ∈ candidates, c.id ∈ plan.order → dependenciesOf plan c.id = c.dependencies.map Prod.fst

/-- The action of a module of the order is made from its candidate. -/
theorem find_action {f : Candidate → PlanAction} (hf : ∀ c, (f c).id = c.id) (hids : (candidates.map (·.id)).Nodup) {order : List String} {c : Candidate}
    (hc : c ∈ candidates) (hin : c.id ∈ order) :
    (order.filterMap fun id => (candidates.find? (·.id = id)).map f).find? (·.id = c.id) = some (f c) := by
  have hfind : candidates.find? (·.id = c.id) = some c := by
    have hisSome : (candidates.find? (·.id = c.id)).isSome := List.find?_isSome.2 ⟨c, hc, by simp⟩
    obtain ⟨c', hc'⟩ := Option.isSome_iff_exists.1 hisSome
    have hid := List.find?_some hc'
    rw [hc', List.inj_on_of_nodup_map hids (List.mem_of_find?_eq_some hc') hc (by simpa using hid)]
  induction order with
  | nil => cases hin
  | cons first rest ih =>
    rw [List.filterMap_cons]
    by_cases hfirst : first = c.id
    · rw [hfirst, hfind]
      simp [hf]
    · have hrest := ih ((List.mem_cons.1 hin).resolve_left (Ne.symm hfirst))
      cases hother : candidates.find? (·.id = first) with
      | none => exact hrest
      | some other =>
        have hid := List.find?_some hother
        have hne : (f other).id ≠ c.id := by
          rw [hf]
          intro heq
          exact hfirst ((by simpa using hid : other.id = first).symm.trans heq)
        simp only [Option.map_some]
        rw [List.find?_cons_of_neg (by simpa using hne)]
        exact hrest

theorem planOrder_of_resolve {site : Site} {preflight : Preflight} {file : Helper.StateFile} {plan : Plan}
    (h : resolveInstallPlan site preflight file candidates = .ok plan) : PlanOrder candidates plan := by
  obtain ⟨_, _, h⟩ := bind_ok h
  obtain ⟨_, hnodup, h⟩ := bind_ok h
  obtain ⟨catalog, _, h⟩ := bind_ok h
  obtain ⟨future, _, h⟩ := bind_ok h
  obtain ⟨⟨destinations, sources⟩, hsources, h⟩ := bind_ok h
  obtain ⟨dependencies, hdependencies, h⟩ := bind_ok h
  obtain ⟨optional, _, h⟩ := bind_ok h
  obtain ⟨breaks, hbreaks, h⟩ := bind_ok h
  have hids : (candidates.map (·.id)).Nodup := of_decide_eq_true (of_require hnodup)
  cases horder : orderLoop (candidates.length + 1) (orderGraph candidates) [] with
  | mk order cycle =>
    simp only [horder] at h
    cases h
    refine ⟨hids, by rw [horder], ?_, ?_⟩
    · intro modules
      rw [horder]
      constructor
      · intro hmem
        have hcycle : IsCycle (.dependencyCycle modules) := trivial
        simp only [List.mem_append] at hmem
        rcases hmem with ((((((hmem | hmem) | hmem) | hmem) | hmem) | hmem) | hmem) | hmem
        · exact absurd hcycle (renameSources_plain hsources _ hmem)
        · obtain ⟨source, _, hmem⟩ := List.mem_flatMap.1 hmem
          obtain ⟨row, _, hrow⟩ := List.mem_filterMap.1 hmem
          split at hrow
          · cases hrow
          · obtain ⟨_, _, hrow⟩ := Option.map_eq_some_iff.1 hrow
            cases hrow
        · obtain ⟨source, _, hmem⟩ := List.mem_filterMap.1 hmem
          obtain ⟨_, _, hmem⟩ := Option.bind_eq_some_iff.1 hmem
          obtain ⟨_, _, hmem⟩ := Option.map_eq_some_iff.1 hmem
          cases hmem
        · obtain ⟨ps, hps, hmem⟩ := List.mem_flatten.1 hmem
          obtain ⟨c, _, hc⟩ := mem_of_mapM_ok hdependencies hps
          exact absurd hcycle (candidateProblems_plain hc _ hmem)
        · obtain ⟨c, _, hmem⟩ := List.mem_flatMap.1 hmem
          unfold categoryProblem at hmem
          split at hmem
          · cases List.mem_singleton.1 hmem
          · cases hmem
        · obtain ⟨_, _, hmem⟩ := List.mem_map.1 hmem
          cases hmem
        · exact absurd hcycle (breaksDependants_plain hbreaks _ hmem)
        · obtain ⟨modules', hmodules, heq⟩ := List.mem_map.1 hmem
          cases heq
          exact Option.mem_toList.1 hmodules
      · intro hsome
        refine List.mem_append_right _ (List.mem_map.2 ⟨modules, ?_, rfl⟩)
        exact Option.mem_toList.2 hsome
    · intro c hc hin
      unfold dependenciesOf
      rw [find_action (f := planAction _ _ _) (fun _ => rfl) hids hc hin]
      rfl

/-! ## An order that was asked for -/

/-- No package of an order stands before what its action needs. -/
theorem misplaced_none_iff {plan : Plan} {order : List String} :
    misplaced plan order = none ↔ ∀ x ∈ order, ∀ d ∈ dependenciesOf plan x, d ∈ order → order.idxOf d ≤ order.idxOf x := by
  unfold misplaced
  rw [List.findSome?_eq_none_iff]
  refine forall_congr' fun x => imp_congr_right fun _ => ?_
  unfold dependenciesOf
  cases plan.actions.find? (·.id = x) with
  | none => simp
  | some action =>
    rw [Option.bind_some, Option.map_eq_none_iff, List.find?_eq_none]
    simp only [decide_eq_true_eq, not_and, not_lt, List.mem_map]
    constructor
    · rintro h _ ⟨d, hd, rfl⟩
      exact h d hd
    · intro h d hd
      exact h d.1 ⟨d, hd, rfl⟩

theorem ordered_plan {plan : Plan} (hplan : PlanOrder candidates plan) :
    Ordered candidates (plan.order, (orderLoop (candidates.length + 1) (orderGraph candidates) []).2) := by
  rw [hplan.order]
  exact (ordered_loop hplan.nodup 0).1

/-- What a package of the order needs is in the order, and is no part of a cycle. -/
theorem needed_in_order {plan : Plan} (hplan : PlanOrder candidates plan) {x d : String} (hneeds : Needs candidates x d) (hx : x ∈ plan.order) :
    d ∈ plan.order ∧ d ≠ x := by
  have hordered := ordered_plan hplan
  have hbefore := hordered.before x d hneeds hx
  refine ⟨hbefore.subset (by simp), ?_⟩
  rintro rfl
  exact absurd (idxOf_lt_of_sublist hordered.nodup hbefore) (lt_irrefl _)

/-- Which texts are accepted as an order of the plan. -/
theorem accepts_texts_iff {plan : Plan} (hplan : PlanOrder candidates plan) {texts : List String} (hne : texts ≠ []) :
    (∃ plan', planWithRequestedOrder plan (.ids texts) = .ok plan') ↔
      "" ∉ texts.map stripText ∧ (texts.map stripText).Perm plan.order ∧
        ∀ x d, Needs candidates x d → x ∈ plan.order → List.Sublist [d, x] (texts.map stripText) := by
  have hordered := ordered_plan hplan
  obtain ⟨text, rest, rfl⟩ := List.exists_cons_of_ne_nil hne
  unfold planWithRequestedOrder
  dsimp only
  rw [show (fun id : String => String.ofList (strip id.toList)) = stripText from rfl]
  generalize (text :: rest).map stripText = order
  constructor
  · rintro ⟨plan', h⟩
    obtain ⟨_, hblank, h⟩ := bind_ok h
    obtain ⟨_, hsame, h⟩ := bind_ok h
    have hblank := of_decide_eq_true (of_require hblank)
    have hsame := of_decide_eq_true (of_require hsame)
    have hcheck : misplaced plan order = none := by
      cases hmisplaced : misplaced plan order with
      | none => rfl
      | some found =>
        rw [hmisplaced] at h
        cases h
    have hperm : order.Perm plan.order := (List.perm_ext_iff_of_nodup hblank.2 hordered.nodup).2 fun x =>
      ⟨fun hx => (hsame.2 x (List.mem_append_left _ hx)).2, fun hx => (hsame.2 x (List.mem_append_right _ hx)).1⟩
    refine ⟨hblank.1, hperm, ?_⟩
    intro x d hneeds hx
    obtain ⟨hd, hdx⟩ := needed_in_order hplan hneeds hx
    obtain ⟨c, hc, rfl, hdep, -⟩ := hneeds
    have hle := misplaced_none_iff.1 hcheck c.id (hperm.mem_iff.2 hx) d (by rwa [hplan.dependencies c hc hx]) (hperm.mem_iff.2 hd)
    have hdiffer : order.idxOf d ≠ order.idxOf c.id := fun heq => hdx ((List.idxOf_inj (hperm.mem_iff.2 hd)).1 heq)
    exact sublist_of_idxOf_lt (hperm.mem_iff.2 hx) (by omega)
  · rintro ⟨hblank, hperm, hbefore⟩
    have hnodup : order.Nodup := hperm.nodup_iff.2 hordered.nodup
    have hsame : ∀ id, id ∈ order ++ plan.order → id ∈ order ∧ id ∈ plan.order := by
      intro id hid
      rcases List.mem_append.1 hid with hid | hid
      · exact ⟨hid, hperm.mem_iff.1 hid⟩
      · exact ⟨hperm.mem_iff.2 hid, hid⟩
    have hcheck : misplaced plan order = none := by
      refine misplaced_none_iff.2 fun x hx d hd hin => ?_
      have hxplan := hperm.mem_iff.1 hx
      obtain ⟨c, hc, rfl⟩ := List.mem_map.1 ((hordered.mem_iff x).1 hxplan).1
      rw [hplan.dependencies c hc hxplan] at hd
      have hneeds : Needs candidates c.id d := ⟨c, hc, rfl, hd, ((hordered.mem_iff d).1 (hperm.mem_iff.1 hin)).1⟩
      exact (idxOf_lt_of_sublist hnodup (hbefore c.id d hneeds hxplan)).le
    rw [decide_eq_true (p := _ ∧ _) ⟨hblank, hnodup⟩, require_true, ok_bind, decide_eq_true (p := _ ∧ _) ⟨hperm.length_eq, hsame⟩, require_true, ok_bind]
    simp only [hcheck]
    exact ⟨_, rfl⟩

end OrderAux

open OrderAux

/-- For packages of different ids the loop ends, and it orders them all, each after what it needs, exactly when nothing needs itself; otherwise the plan names what
reaches a cycle. Packages of one depth keep the order of the upload. An order that was asked for is accepted exactly when there is none, or its texts, with the
blanks around them taken off, are the plan's order in another order in which nothing stands before what it needs. -/
theorem install_order (candidates : List Candidate) (hids : (candidates.map (·.id)).Nodup) :
    (∀ more, orderLoop (candidates.length + 1 + more) (orderGraph candidates) [] = orderLoop (candidates.length + 1) (orderGraph candidates) []) ∧
      ∀ site preflight file plan, resolveInstallPlan site preflight file candidates = .ok plan →
        ((plan.order.Perm (candidates.map (·.id)) ∧ ∀ x d, Needs candidates x d → List.Sublist [d, x] plan.order) ↔ Acyclic (Needs candidates)) ∧
        (¬ Acyclic (Needs candidates) → ∃ modules, .dependencyCycle modules ∈ plan.problems) ∧
        (∀ modules, .dependencyCycle modules ∈ plan.problems →
          modules.Nodup ∧ ∀ x, x ∈ modules ↔ x ∈ candidates.map (·.id) ∧ ReachesCycle (Needs candidates) x) ∧
        (∀ x y n, x ∈ plan.order → AtDepth (Needs candidates) n x → AtDepth (Needs candidates) n y → List.Sublist [x, y] (candidates.map (·.id)) →
          List.Sublist [x, y] plan.order) ∧
        ∀ requested, (∃ plan', planWithRequestedOrder plan requested = .ok plan') ↔
          requested = .unset ∨ requested = .ids [] ∨ ∃ texts, requested = .ids texts ∧ "" ∉ texts.map stripText ∧
            (texts.map stripText).Perm plan.order ∧ ∀ x d, Needs candidates x d → x ∈ plan.order → List.Sublist [d, x] (texts.map stripText) := by
  refine ⟨fun more => (ordered_loop hids more).2, ?_⟩
  intro site preflight file plan h
  have hplan := planOrder_of_resolve h
  have hordered := ordered_plan hplan
  have hkey : ∀ {x}, Relation.TransGen (Needs candidates) x x → x ∈ candidates.map (·.id) := by
    intro x hx
    obtain ⟨d, ⟨c, hc, rfl, -, -⟩, -⟩ := Relation.TransGen.head'_iff.1 hx
    exact List.mem_map_of_mem hc
  refine ⟨⟨?_, ?_⟩, ?_, ?_, ?_, ?_⟩
  · rintro ⟨hperm, hbefore⟩
    exact acyclic_of_before hordered.nodup hbefore
  · intro hacyclic
    have hmem : ∀ x, x ∈ plan.order ↔ x ∈ candidates.map (·.id) := fun x =>
      (hordered.mem_iff x).trans (and_iff_left (hacyclic.not_reachesCycle x))
    refine ⟨(List.perm_ext_iff_of_nodup hordered.nodup hids).2 hmem, ?_⟩
    rintro x d hneeds
    obtain ⟨c, hc, rfl, -, -⟩ := id hneeds
    exact hordered.before c.id d hneeds ((hmem c.id).2 (List.mem_map_of_mem hc))
  · intro hcyclic
    simp only [Acyclic, not_forall, not_not] at hcyclic
    obtain ⟨x, hx⟩ := hcyclic
    obtain ⟨modules, hmodules⟩ := Option.isSome_iff_exists.1 (hordered.cycle_isSome.2 ⟨x, hkey hx, reachesCycle_of_transGen hx⟩)
    exact ⟨modules, (hplan.cycle modules).2 hmodules⟩
  · intro modules hmodules
    exact hordered.cycle modules ((hplan.cycle modules).1 hmodules)
  · intro x y n hin hx hy hxy
    exact hordered.layers x y n hx hy hxy hin
  · intro requested
    constructor
    · rintro ⟨plan', h⟩
      cases requested with
      | unset => exact .inl rfl
      | malformed => cases h
      | ids texts =>
        by_cases hne : texts = []
        · exact .inr (.inl (by rw [hne]))
        · exact .inr (.inr ⟨texts, rfl, (accepts_texts_iff hplan hne).1 ⟨plan', h⟩⟩)
    · rintro (rfl | rfl | ⟨texts, rfl, htexts⟩)
      · exact ⟨plan, rfl⟩
      · exact ⟨plan, rfl⟩
      · by_cases hne : texts = []
        · subst hne
          exact ⟨plan, rfl⟩
        · exact (accepts_texts_iff hplan hne).2 htexts

/-- Two packages of which the second needs the first. -/
def orderedPackages : List Candidate := [{ id := "base" }, { id := "report", dependencies := [("base", "")] }]

/-- A development server without modules. -/
def emptySite : Site where
  development := true
  versionSatisfies := fun _ _ => .ok true
  installed := []
  nodup := by decide

/-- The plan of the two packages. -/
def orderedPlan : Plan where
  problems := []
  optionalDependencies := []
  order := ["base", "report"]
  actions := [⟨"base", "", .install, none, none, [], {}, []⟩, ⟨"report", "", .install, none, none, [("base", "")], {}, []⟩]
  willDisable := []

/-- The two packages are ordered, since neither needs itself. -/
theorem ordered_packages_acyclic :
    resolveInstallPlan emptySite (fun _ _ _ => none) .absent orderedPackages = .ok orderedPlan ∧ Acyclic (Needs orderedPackages) := by
  refine ⟨rfl, ((install_order orderedPackages (by decide)).2 emptySite (fun _ _ _ => none) .absent orderedPlan rfl).1.1 ⟨by decide, ?_⟩⟩
  rintro x d ⟨c, hc, rfl, hd, -⟩
  simp only [orderedPackages, List.mem_cons, List.not_mem_nil, or_false] at hc
  rcases hc with rfl | rfl
  · cases hd
  · rw [List.mem_singleton.1 hd]
    decide

/-- An empty list is accepted for this plan, and it is not the plan's order in another order. -/
theorem empty_order_is_accepted :
    resolveInstallPlan emptySite (fun _ _ _ => none) .absent orderedPackages = .ok orderedPlan ∧
      planWithRequestedOrder orderedPlan (.ids []) = .ok orderedPlan ∧ ¬ ([] : List String).Perm orderedPlan.order := by
  refine ⟨rfl, rfl, ?_⟩
  decide

end TecTac
