import TecTac.PlanOutcome
import TecTac.Lemmas.InstallPlan

/-!
# The outcome of a valid plan

Each candidate is one move of the installed modules, and the moves are made in the order of the plan. The rules here say which
module is found afterwards, with which flag, and which modules are gone.
-/

namespace TecTac

variable {site : Site} {file : Helper.StateFile} {candidates : List Candidate} {plan : Plan}

/-! ## The installed modules -/

theorem deployment_keys (site : Site) (file : Helper.StateFile) : (deployment site file).map Prod.fst = siteIds site := by
  rw [deployment, List.map_map]
  rfl

theorem deployment_nodup (site : Site) (file : Helper.StateFile) : ((deployment site file).map Prod.fst).Nodup := by
  rw [deployment_keys]
  exact siteIds_nodup site

theorem mem_siteIds_iff {id : String} : id ∈ siteIds site ↔ (Dict.get id (deployment site file)).isSome = true := by
  rw [← deployment_keys site file]
  constructor
  · intro h
    obtain ⟨p, hp, rfl⟩ := List.mem_map.1 h
    exact Dict.get_isSome_of_mem hp
  · intro h
    obtain ⟨m, hm⟩ := Option.isSome_iff_exists.1 h
    exact List.mem_map_of_mem (Dict.mem_of_get hm)

/-- The live model is that of the installed modules. -/
theorem liveModel_eq : liveModel site file = (deployment site file).model := by
  unfold liveModel Deployment.model Dict.mapValues deployment
  rw [List.map_map]
  rfl

/-- The row of an installed module. -/
def Deployed.row (id : String) (m : Deployed) : PlanRow := ⟨id, m.extensionVersion, m.node.enabled, m.dependencies⟩

theorem get_siteRows (id : String) :
    Dict.get id (siteRows site file) = (Dict.get id (deployment site file)).map (Deployed.row id) := by
  rw [siteRows_eq]
  unfold deployment
  induction site.installed.filter fun m => !m.legacy with
  | nil => rfl
  | cons m ms ih =>
    rw [List.map_cons, List.map_cons, Dict.get_cons, Dict.get_cons]
    split
    · rename_i heq
      simp [Deployed.row, heq]
    · exact ih

/-- A module is installed under its own id. -/
theorem id_of_deployment {id : String} {m : Deployed} (h : Dict.get id (deployment site file) = some m) : m.node.id = id := by
  obtain ⟨m', _, heq⟩ := List.mem_map.1 (Dict.mem_of_get h)
  cases heq
  rfl

/-! ## The outcome, move by move -/

/-- The id a candidate is installed under before the plan. -/
def Candidate.was (site : Site) (c : Candidate) : String := (renamedFrom site c).getD c.id

/-- What a candidate is installed as. -/
def Candidate.deployed (site : Site) (file : Helper.StateFile) (c : Candidate) : Deployed :=
  ⟨c.node (storedFlag (deployment site file) (c.was site)), c.extensionVersion, c.dependencies⟩

/-- What a candidate does to the installed modules. -/
def Candidate.deployMove (site : Site) (file : Helper.StateFile) (c : Candidate) : Dict.Move String Deployed :=
  ⟨c.id, c.deployed site file, renamedFrom site c⟩

/-- The candidates in the order of the plan. -/
def inOrder (candidates : List Candidate) : List Candidate :=
  (installOrder candidates).filterMap fun id => candidates.find? (·.id = id)

theorem find_candidate (hnodup : (candidates.map (·.id)).Nodup) {c : Candidate} (hc : c ∈ candidates) :
    candidates.find? (·.id = c.id) = some c := by
  cases hfind : candidates.find? (·.id = c.id) with
  | none => simpa using List.find?_eq_none.1 hfind c hc
  | some c' =>
    have hid : c'.id = c.id := by simpa using List.find?_some hfind
    rw [List.inj_on_of_nodup_map hnodup (List.mem_of_find?_eq_some hfind) hc hid]

theorem mem_inOrder (h : ValidPlan site file candidates plan) {c : Candidate} : c ∈ inOrder candidates ↔ c ∈ candidates := by
  unfold inOrder
  rw [List.mem_filterMap]
  constructor
  · rintro ⟨id, _, hfind⟩
    exact List.mem_of_find?_eq_some hfind
  · intro hc
    refine ⟨c.id, ?_, find_candidate h.nodup hc⟩
    rw [← h.order, h.mem_order]
    exact List.mem_map_of_mem hc

/-- The modules once the candidates are moved in, in the order of the install, and the modules they replace are off. -/
def settled (site : Site) (file : Helper.StateFile) (candidates : List Candidate) : Deployment :=
  switchedOff (sortedIds ((planDisables site file candidates).flatMap (·.2)).dedup)
    (((inOrder candidates).map (Candidate.deployMove site file)).foldl Dict.move (deployment site file))

/-- The actions of a valid plan move the candidates in. -/
theorem afterPlan_eq (h : ValidPlan site file candidates plan) :
    afterPlan site file candidates plan = settled site file candidates := by
  have hactions : plan.actions = (inOrder candidates).map (candidateAction site file candidates) := by
    rw [h.actions, h.order, inOrder, List.map_filterMap]
  have hcarry : ∀ c ∈ candidates, ∀ now, carryOut (deployment site file) candidates now (candidateAction site file candidates c) =
      Dict.move now (c.deployMove site file) := by
    intro c hc now
    have hsource := get_sources site h.nodup hc
    have hfind := find_candidate h.nodup hc
    unfold carryOut candidateAction planAction
    rw [hsource]
    dsimp only
    rw [hfind]
    rfl
  unfold afterPlan settled
  rw [hactions, h.willDisable, List.foldl_map, List.foldl_map]
  congr 1
  exact List.foldl_ext _ _ _ fun now c hc => hcarry c ((mem_inOrder h).1 hc) now

/-- The candidates in order have the ids of the order. -/
theorem inOrder_ids (h : ValidPlan site file candidates plan) : (inOrder candidates).map (·.id) = installOrder candidates := by
  unfold inOrder
  rw [List.map_filterMap]
  have hall : ∀ id ∈ installOrder candidates, (candidates.find? (·.id = id)).map (·.id) = some id := by
    intro id hid
    rw [← h.order, h.mem_order] at hid
    obtain ⟨c, hc, rfl⟩ := List.mem_map.1 hid
    rw [find_candidate h.nodup hc, Option.map_some]
  rw [List.filterMap_congr hall, List.filterMap_some]

/-- The candidates around one: the ids of those that come later have a later place in the order. -/
theorem inOrder_split (h : ValidPlan site file candidates plan) {c : Candidate} (hc : c ∈ candidates) :
    ∃ before later, inOrder candidates = before ++ c :: later ∧ (∀ c' ∈ later, c'.id ≠ c.id) ∧
      ∀ c' ∈ candidates, c' ∈ later ↔ (installOrder candidates).idxOf c.id < (installOrder candidates).idxOf c'.id := by
  obtain ⟨before, later, hsplit⟩ := List.append_of_mem ((mem_inOrder h).2 hc)
  have hids := inOrder_ids h
  have hnodup : (installOrder candidates).Nodup := h.order ▸ h.order_nodup
  rw [hsplit, List.map_append, List.map_cons] at hids
  rw [← hids] at hnodup ⊢
  obtain ⟨_, hrest, hapart⟩ := List.nodup_append.1 hnodup
  rw [List.nodup_cons] at hrest
  have hown : (before.map (·.id) ++ c.id :: later.map (·.id)).idxOf c.id = before.length := by
    rw [List.idxOf_append_of_notMem fun hmem => hapart _ hmem _ List.mem_cons_self rfl]
    simp
  refine ⟨before, later, hsplit, ?_, ?_⟩
  · intro c' hc' heq
    exact hrest.1 (heq ▸ List.mem_map_of_mem hc')
  · intro c' hc'
    rw [hown]
    constructor
    · intro hlater
      have hmem : c'.id ∈ later.map (·.id) := List.mem_map_of_mem hlater
      have hne : c.id ≠ c'.id := fun heq => hrest.1 (heq ▸ hmem)
      rw [List.idxOf_append_of_notMem fun hbefore => hapart _ hbefore _ (List.mem_cons_of_mem _ hmem) rfl,
        List.idxOf_cons_ne _ hne]
      simp only [List.length_map]
      omega
    · intro hlt
      have hin : c' ∈ before ++ c :: later := hsplit ▸ (mem_inOrder h).2 hc'
      rcases List.mem_append.1 hin with hbefore | hrest'
      · have hmem : c'.id ∈ before.map (·.id) := List.mem_map_of_mem hbefore
        rw [List.idxOf_append_of_mem hmem] at hlt
        have hbound := List.idxOf_lt_length_of_mem hmem
        rw [List.length_map] at hbound
        omega
      · rcases List.mem_cons.1 hrest' with rfl | hlater
        · rw [hown] at hlt
          exact absurd hlt (Nat.lt_irrefl _)
        · exact hlater

/-! ## What is found afterwards -/

/-- A module, switched off when it is one of those. -/
def Deployed.switched (ids : List String) (id : String) (m : Deployed) : Deployed :=
  if id ∈ ids then { m with node := { m.node with enabled := false } } else m

theorem get_switchedOff (ids : List String) (now : Deployment) (id : String) :
    Dict.get id (switchedOff ids now) = (Dict.get id now).map (Deployed.switched ids id) := by
  induction now with
  | nil => rfl
  | cons p now ih =>
    unfold switchedOff at ih ⊢
    rw [List.map_cons, Dict.get_cons, Dict.get_cons, ih]
    split
    · rename_i heq
      rw [Option.map_some, Deployed.switched, heq]
    · rfl

@[simp] theorem Deployed.switched_extensionVersion (ids : List String) (id : String) (m : Deployed) :
    (m.switched ids id).extensionVersion = m.extensionVersion := by
  unfold Deployed.switched
  split <;> rfl

/-- A module that is still enabled was enabled and is not switched off. -/
theorem enabled_of_switched {ids : List String} {id : String} {m : Deployed} (h : (m.switched ids id).node.enabled = true) :
    id ∉ ids ∧ m.node.enabled = true := by
  unfold Deployed.switched at h
  split at h
  · cases h
  · rename_i hnot
    exact ⟨hnot, h⟩

/-- The modules that a plan disables. -/
theorem mem_willDisable (h : ValidPlan site file candidates plan) {dep : String} :
    dep ∈ plan.willDisable ↔ ∃ p ∈ planDisables site file candidates, dep ∈ p.2 := by
  rw [h.willDisable, sortedIds, List.mem_insertionSort, List.mem_dedup, List.mem_flatMap]

/-- A plan disables no candidate. -/
theorem not_mem_willDisable (h : ValidPlan site file candidates plan) {c : Candidate} (hc : c ∈ candidates) :
    c.id ∉ plan.willDisable := by
  intro hmem
  obtain ⟨p, hp, hid⟩ := (mem_willDisable h).1 hmem
  obtain ⟨_, _, _, target, _, _, _, _, hnot, hnames, _⟩ := of_mem_installDisables hp
  rw [hnames, List.mem_singleton] at hid
  exact hnot (hid ▸ List.mem_map_of_mem hc)

/-- A module that is installed afterwards is a candidate, or was installed and is no candidate and not renamed. -/
theorem after_cases (h : ValidPlan site file candidates plan) {id : String} {m : Deployed}
    (hget : Dict.get id (afterPlan site file candidates plan) = some m) :
    (∃ c ∈ candidates, c.id = id ∧ m = c.deployed site file) ∨
      ∃ m', Dict.get id (deployment site file) = some m' ∧ m = m'.switched plan.willDisable id ∧
        ∀ c ∈ candidates, c.id ≠ id ∧ renamedFrom site c ≠ some id := by
  rw [afterPlan_eq h, settled, ← h.willDisable, get_switchedOff] at hget
  obtain ⟨m', hmoved, rfl⟩ := Option.map_eq_some_iff.1 hget
  rcases Dict.get_moves_cases hmoved with ⟨move, hmove, hkey, hvalue⟩ | ⟨hold, huntouched⟩
  · obtain ⟨c, hc, rfl⟩ := List.mem_map.1 hmove
    have hc := (mem_inOrder h).1 hc
    have hon : c.id ∉ plan.willDisable := not_mem_willDisable h hc
    refine Or.inl ⟨c, hc, hkey, ?_⟩
    rw [Deployed.switched, ← hkey, ← hvalue]
    exact if_neg hon
  · exact Or.inr ⟨m', hold, rfl, fun c hc => huntouched _ (List.mem_map_of_mem ((mem_inOrder h).2 hc))⟩

/-- An installed module that is no candidate and not renamed stays. -/
theorem after_untouched (h : ValidPlan site file candidates plan) {id : String} {m : Deployed}
    (hget : Dict.get id (deployment site file) = some m)
    (huntouched : ∀ c ∈ candidates, c.id ≠ id ∧ renamedFrom site c ≠ some id) :
    Dict.get id (afterPlan site file candidates plan) = some (m.switched plan.willDisable id) := by
  rw [afterPlan_eq h, settled, ← h.willDisable, get_switchedOff, Dict.get_moves_of_untouched, hget, Option.map_some]
  intro move hmove
  obtain ⟨c, hc, rfl⟩ := List.mem_map.1 hmove
  exact huntouched c ((mem_inOrder h).1 hc)

/-- A candidate that no later candidate takes the place of is installed. -/
theorem after_candidate (h : ValidPlan site file candidates plan) {c : Candidate} (hc : c ∈ candidates)
    (hstays : ∀ c' ∈ candidates, renamedFrom site c' = some c.id →
      ¬ (installOrder candidates).idxOf c.id < (installOrder candidates).idxOf c'.id) :
    Dict.get c.id (afterPlan site file candidates plan) = some (c.deployed site file) := by
  obtain ⟨before, later, hsplit, hids, hlater⟩ := inOrder_split h hc
  have huntouched : ∀ move ∈ later.map (Candidate.deployMove site file), move.key ≠ c.id ∧ move.old ≠ some c.id := by
    intro move hmove
    obtain ⟨c', hc', rfl⟩ := List.mem_map.1 hmove
    have hin : c' ∈ candidates := by
      rw [← mem_inOrder h, hsplit]
      exact List.mem_append_right _ (List.mem_cons_of_mem _ hc')
    exact ⟨hids c' hc', fun hold => hstays c' hin hold ((hlater c' hin).1 hc')⟩
  have hlast : Dict.get c.id ((before.map (Candidate.deployMove site file) ++ c.deployMove site file ::
      later.map (Candidate.deployMove site file)).foldl Dict.move (deployment site file)) = some (c.deployed site file) :=
    Dict.get_moves_of_last (show (c.deployMove site file).key = c.id from rfl) huntouched _
  rw [afterPlan_eq h, settled, ← h.willDisable, get_switchedOff, hsplit, List.map_append, List.map_cons, hlast, Option.map_some,
    Deployed.switched, if_neg (not_mem_willDisable h hc)]

/-- A candidate that a later candidate takes the place of is gone. -/
theorem after_renamed (h : ValidPlan site file candidates plan) {c c' : Candidate} (hc : c ∈ candidates) (hc' : c' ∈ candidates)
    (hold : renamedFrom site c' = some c.id)
    (hlt : (installOrder candidates).idxOf c.id < (installOrder candidates).idxOf c'.id) :
    Dict.get c.id (afterPlan site file candidates plan) = none := by
  obtain ⟨before, later, hsplit, hids, hlater⟩ := inOrder_split h hc
  have hkeys : ∀ move ∈ later.map (Candidate.deployMove site file), move.key ≠ c.id := by
    intro move hmove
    obtain ⟨c'', hc'', rfl⟩ := List.mem_map.1 hmove
    exact hids c'' hc''
  have hmove : c'.deployMove site file ∈ later.map (Candidate.deployMove site file) := List.mem_map_of_mem ((hlater c' hc').2 hlt)
  rw [afterPlan_eq h, settled, ← h.willDisable, get_switchedOff, hsplit, List.map_append, List.map_cons, List.foldl_append,
    List.foldl_cons, Dict.get_moves_of_removed hkeys hmove hold, Option.map_none]

/-- A fresh candidate is installed: no candidate takes its place. -/
theorem after_fresh (h : ValidPlan site file candidates plan) {c : Candidate} (hc : c ∈ candidates)
    (hfresh : c.id ∉ siteIds site) :
    Dict.get c.id (afterPlan site file candidates plan) = some (c.deployed site file) :=
  after_candidate h hc fun _ _ hold _ => hfresh (mem_of_renamedFrom hold)

end TecTac
