import TecTac.DelegationTargets
import TecTac.DelegationLedger
import TecTac.Lemmas.Delegation
import TecTac.Theorems.OneRun

/-!
# What is covered can be started

`resolve_targets` reads all endpoints of the grant and looks the numbers up; `start` reads the rows of the numbers it is given. Both come down to one condition on a
number: the grant's targets name it, and an endpoint with it exists inside the stored scope. They part when the grant has more endpoints than one call may carry.
-/

namespace TecTac

namespace Delegation

open Raise

/-- An endpoint of the grant: its targets name the number, and an endpoint with it is inside the stored scope. -/
def InGrant (d : Directory) (resolved : List Int) (snapshot : RoleScope) (n : Int) : Prop :=
  n ∈ resolved ∧ ∃ a ∈ d.agents, a.pk = n ∧ snapshot.reaches a = true

/-- The ticket is valid, and its grant, the stored scope and the targets can be read. -/
structure Opens (mac : Mac) (clock : Int) (c : ResolveCall) (grants : List Grant) (body : List (String × Json)) (g : Grant) (action : Action)
    (snapshot : RoleScope) (resolved : List Int) : Prop where
  caller : c.env.caller ≠ ""
  opened : openToken mac .ticket c.ticket = some body
  checked : checkedTicket clock c.env body c.actionId grants = .ok (g, action)
  scope : snapshotOf g.creationScope = some snapshot
  targets : c.env.targetPks g.targets g.ownerModule = some resolved
  agentRows : c.env.agentRows = true

/-- The grant behind the ticket has more endpoints inside the stored scope than one call may carry. -/
def Wide (mac : Mac) (clock : Int) (c : ResolveCall) (grants : List Grant) : Prop :=
  ∃ body g action snapshot resolved, Opens mac clock c grants body g action snapshot resolved ∧
    SystemActions.maxAgents < (c.env.directory.agentRowsInScope resolved snapshot).length

namespace ResolveAux

variable {mac : Mac} {clock : Int} {c : ResolveCall} {grants : List Grant} {d : Directory} {resolved : List Int} {snapshot : RoleScope}

theorem mem_rows_iff {ids : List Int} {row : Agent} :
    row ∈ d.agentRowsInScope ids snapshot ↔ row ∈ d.agents ∧ snapshot.reaches row = true ∧ row.pk ∈ ids := by
  rw [Directory.agentRowsInScope, List.mem_insertionSort, List.mem_filter, Directory.within, List.mem_filter, and_assoc]
  simp

/-- The numbers that are found among the endpoints of the grant. -/
theorem exists_row_iff {n : Int} : (∃ row ∈ d.agentRowsInScope resolved snapshot, row.pk = n) ↔ InGrant d resolved snapshot n := by
  constructor
  · rintro ⟨row, hrow, rfl⟩
    obtain ⟨hmem, hreaches, hpk⟩ := mem_rows_iff.1 hrow
    exact ⟨hpk, row, hmem, rfl, hreaches⟩
  · rintro ⟨hpk, row, hmem, rfl, hreaches⟩
    exact ⟨row, mem_rows_iff.2 ⟨hmem, hreaches, hpk⟩, rfl⟩

/-! ## What is covered -/

theorem mem_keys_foldl {rows : List Agent} {covered : List (Int × Agent)} {n : Int} :
    n ∈ (rows.foldl (fun covered row => Dict.set row.pk row covered) covered).map Prod.fst ↔ n ∈ covered.map Prod.fst ∨ ∃ row ∈ rows, row.pk = n := by
  induction rows generalizing covered with
  | nil => simp
  | cons row rows ih =>
    rw [List.foldl_cons, ih, Dict.mem_keys_set]
    simp only [List.mem_cons, exists_eq_or_imp]
    rw [or_comm (a := n = row.pk), or_assoc, eq_comm (a := n)]

theorem nodup_keys_foldl {rows : List Agent} {covered : List (Int × Agent)} (h : (covered.map Prod.fst).Nodup) :
    ((rows.foldl (fun covered row => Dict.set row.pk row covered) covered).map Prod.fst).Nodup := by
  induction rows generalizing covered with
  | nil => exact h
  | cons row rows ih => exact ih (Dict.nodup_set h)

/-- The numbers of the answer are those of the references that name a row, each once. -/
theorem coverage_numbers (rows : List Agent) {refs : List EndpointRef} (hrefs : ∀ ref ∈ refs, ∃ n, ref = .number n) :
    ((coverage rows refs).agents.map Prod.snd).Nodup ∧
      ∀ n, n ∈ (coverage rows refs).agents.map Prod.snd ↔ .number n ∈ refs ∧ ∃ row ∈ rows, row.pk = n := by
  unfold coverage
  dsimp only
  generalize hcovered : (refs.filterMap (lookUp rows)).foldl (fun covered row => Dict.set row.pk row covered) [] = covered
  have hkeys : ((covered.insertionSort fun a b => a.1 ≤ b.1).map fun p => (p.2.agentId, p.1)).map Prod.snd =
      (covered.insertionSort fun a b => a.1 ≤ b.1).map Prod.fst := by
    rw [List.map_map]
    rfl
  have hperm := (List.perm_insertionSort (fun a b : Int × Agent => a.1 ≤ b.1) covered).map Prod.fst
  rw [hkeys]
  constructor
  · rw [hperm.nodup_iff, ← hcovered]
    exact nodup_keys_foldl List.nodup_nil
  · intro n
    rw [hperm.mem_iff, ← hcovered, mem_keys_foldl]
    simp only [List.map_nil, List.not_mem_nil, false_or, List.mem_filterMap]
    constructor
    · rintro ⟨row, ⟨ref, href, hfound⟩, rfl⟩
      obtain ⟨m, rfl⟩ := hrefs ref href
      have hrow : row ∈ rows := List.mem_reverse.1 (List.mem_of_find?_eq_some hfound)
      have hpk : row.pk = m := by simpa using List.find?_some hfound
      exact ⟨hpk ▸ href, row, hrow, rfl⟩
    · rintro ⟨href, row, hrow, hpk⟩
      have hsome : (lookUp rows (.number n)).isSome := by
        rw [lookUp, List.find?_isSome]
        exact ⟨row, List.mem_reverse.2 hrow, by simp [hpk]⟩
      obtain ⟨found, hfound⟩ := Option.isSome_iff_exists.1 hsome
      exact ⟨found, ⟨_, href, hfound⟩, by simpa using List.find?_some hfound⟩

/-- The references of a list of numbers. -/
theorem endpointRefs_numbers {printable : String → Bool} {numbers : List Int} {refs : List EndpointRef}
    (h : endpointRefs printable (.items (numbers.map fun n => some (.number n))) = .ok refs) :
    (∀ ref ∈ refs, ∃ n, ref = .number n) ∧ (∀ n, .number n ∈ refs ↔ n ∈ numbers) ∧ ∀ n ∈ numbers, 0 < n ∧ n < 2 ^ 63 := by
  unfold endpointRefs at h
  dsimp only at h
  split at h
  · cases h
  · split at h
    · rename_i hall
      cases h
      have hid : (numbers.map fun n => some (EndpointRef.number n)).filterMap id = numbers.map EndpointRef.number := by
        rw [List.filterMap_map]
        exact congrFun List.filterMap_eq_map numbers
      rw [hid]
      have hmem : ∀ ref, ref ∈ ((numbers.map EndpointRef.number).dedup.insertionSort fun a b => a.le b) ↔ ref ∈ numbers.map EndpointRef.number :=
        fun ref => (List.mem_insertionSort _).trans List.mem_dedup
      refine ⟨?_, ?_, ?_⟩
      · intro ref href
        obtain ⟨n, -, rfl⟩ := List.mem_map.1 ((hmem ref).1 href)
        exact ⟨n, rfl⟩
      · intro n
        rw [hmem]
        simp
      · intro n hn
        have hone := List.all_eq_true.1 hall (some (.number n)) (List.mem_map.2 ⟨n, hn, rfl⟩)
        simpa [EndpointRef.wellFormed] using hone
    · cases h

/-- A list of numbers is taken when it has as many as a call may carry, all of them in range. -/
theorem endpointRefs_ok (printable : String → Bool) {numbers : List Int} (hne : numbers ≠ []) (hcount : numbers.length ≤ SystemActions.maxAgents)
    (hrange : ∀ n ∈ numbers, 0 < n ∧ n < 2 ^ 63) : ∃ refs, endpointRefs printable (.items (numbers.map fun n => some (.number n))) = .ok refs := by
  unfold endpointRefs
  dsimp only
  rw [if_neg, if_pos]
  · exact ⟨_, rfl⟩
  · rw [List.all_eq_true]
    intro value hvalue
    obtain ⟨n, hn, rfl⟩ := List.mem_map.1 hvalue
    simpa [EndpointRef.wellFormed] using hrange n hn
  · simp [hne, hcount]

/-! ## Both calls -/

/-- What a call that answers has read. -/
theorem resolve_ok_iff {answer : Coverage} :
    c.resolveTargets mac clock grants = .ok answer ↔ ∃ body g action snapshot resolved refs, Opens mac clock c grants body g action snapshot resolved ∧
      endpointRefs c.printable c.endpointIds = .ok refs ∧ (c.env.directory.agentRowsInScope resolved snapshot).length ≤ SystemActions.maxAgents ∧
      answer = coverage (c.env.directory.agentRowsInScope resolved snapshot) refs := by
  have hgeneric : ∀ {x : Except Error (Grant × Action)} {a}, generic x = .ok a ↔ x = .ok a := by
    intro x a
    cases x with
    | ok b => exact ⟨id, id⟩
    | error e => exact ⟨nofun, nofun⟩
  have htake : ∀ rows : List Agent, (rows.take (SystemActions.maxAgents + 1)).length ≤ SystemActions.maxAgents ↔ rows.length ≤ SystemActions.maxAgents := by
    intro rows
    rw [List.length_take]
    omega
  unfold ResolveCall.resolveTargets deny
  rw [bind_ok_iff]
  simp only [require_ok_iff]
  constructor
  · rintro ⟨_, hcaller, h⟩
    split at h
    · cases h
    rename_i body hopened
    obtain ⟨⟨g, action⟩, hchecked, h⟩ := bind_ok h
    obtain ⟨refs, hrefs, h⟩ := bind_ok h
    split at h
    · cases h
    rename_i snapshot hscope
    split at h
    · cases h
    rename_i resolved htargets
    obtain ⟨_, hrows, h⟩ := bind_ok h
    obtain ⟨_, hlimit, h⟩ := bind_ok h
    have hlimit := (htake _).1 (of_decide_eq_true (of_require hlimit))
    refine ⟨body, g, action, snapshot, resolved, refs, ⟨by simpa using hcaller, hopened, hgeneric.1 hchecked, hscope, htargets, of_require hrows⟩, hrefs, hlimit, ?_⟩
    rw [← Except.ok.inj h, List.take_of_length_le (Nat.le_succ_of_le hlimit)]
  · rintro ⟨body, g, action, snapshot, resolved, refs, hopens, hrefs, hlimit, rfl⟩
    refine ⟨(), by simpa using hopens.caller, ?_⟩
    rw [hopens.opened]
    dsimp only
    rw [hgeneric.2 hopens.checked, ok_bind]
    dsimp only
    rw [hrefs, ok_bind, hopens.scope]
    dsimp only
    rw [hopens.targets]
    dsimp only
    rw [hopens.agentRows, require_true, ok_bind, decide_eq_true ((htake _).2 hlimit), require_true, ok_bind,
      List.take_of_length_le (Nat.le_succ_of_le hlimit)]
    rfl

/-- A grant with more endpoints than one call may carry: the call is refused. -/
theorem resolve_wide {body : List (String × Json)} {g : Grant} {action : Action} {refs : List EndpointRef}
    (h : Opens mac clock c grants body g action snapshot resolved) (hrefs : endpointRefs c.printable c.endpointIds = .ok refs)
    (hwide : SystemActions.maxAgents < (c.env.directory.agentRowsInScope resolved snapshot).length) :
    c.resolveTargets mac clock grants = .error (.refused .ticketInvalid) := by
  have hcaller : (c.env.caller != "") = true := by simpa using h.caller
  have hmore : ¬ ((c.env.directory.agentRowsInScope resolved snapshot).take (SystemActions.maxAgents + 1)).length ≤ SystemActions.maxAgents := by
    rw [List.length_take]
    omega
  unfold ResolveCall.resolveTargets deny
  rw [hcaller, require_true, ok_bind, h.opened]
  dsimp only
  rw [h.checked]
  dsimp only [generic, Except.mapError]
  rw [ok_bind]
  dsimp only
  rw [hrefs, ok_bind, h.scope]
  dsimp only
  rw [h.targets]
  dsimp only
  rw [h.agentRows, require_true, ok_bind, decide_eq_false hmore]
  rfl

/-- The numbers of a start. -/
theorem agentIds_ok_iff {ids ids' : List Int} :
    Delegation.agentIds (.items (ids.map some)) = .ok ids' ↔ ids ≠ [] ∧ ids.length ≤ SystemActions.maxAgents ∧ (∀ n ∈ ids, 0 < n ∧ n < 2 ^ 63) ∧
      ids' = ids.dedup.insertionSort (· ≤ ·) := by
  have hid : (ids.map some).filterMap id = ids := by
    rw [List.filterMap_map]
    exact List.filterMap_some
  unfold Delegation.agentIds SystemActions.agentIds
  dsimp only
  rw [List.length_map, hid]
  by_cases hcount : ids.length = 0 ∨ SystemActions.maxAgents < ids.length
  · rw [if_pos hcount]
    refine ⟨nofun, ?_⟩
    rintro ⟨hne, hle, -, -⟩
    rcases hcount with hzero | hmore
    · exact absurd (List.length_eq_zero_iff.1 hzero) hne
    · omega
  · rw [if_neg hcount]
    have hfits : ids ≠ [] ∧ ids.length ≤ SystemActions.maxAgents := by
      refine ⟨fun hnil => hcount (.inl (by rw [hnil]; rfl)), by omega⟩
    have hall : ((ids.map some).all fun value => value.any fun n => decide (0 < n ∧ n < 2 ^ 63)) = true ↔ ∀ n ∈ ids, 0 < n ∧ n < 2 ^ 63 := by
      rw [List.all_map, List.all_eq_true]
      simp
    by_cases hrange : ∀ n ∈ ids, 0 < n ∧ n < 2 ^ 63
    · rw [if_pos (hall.2 hrange)]
      constructor
      · intro h
        exact ⟨hfits.1, hfits.2, hrange, (Except.ok.inj h).symm⟩
      · rintro ⟨-, -, -, rfl⟩
        rfl
    · rw [if_neg fun h => hrange (hall.1 h)]
      exact ⟨nofun, fun h => absurd h.2.2.1 hrange⟩

/-- A start with a ticket that opens comes down to its numbers. -/
theorem prepare_of_opens {body : List (String × Json)} {g : Grant} {action : Action} (h : Opens mac clock c grants body g action snapshot resolved)
    (ids : List Int) (name : Option String) :
    (c.startWith ids name).prepare mac clock grants = (do
      let ids ← Delegation.agentIds (.items (ids.map some))
      deny (ids.all fun pk => resolved.contains pk) .outsideGrant
      let rows := c.env.directory.agentRowsInScope ids snapshot
      deny (ids.all fun pk => rows.any fun row => row.pk == pk) .outsideGrant
      return ⟨c.env.caller, body, g, action, rows, name⟩) := by
  have hcaller : (c.env.caller != "") = true := by simpa using h.caller
  unfold StartCall.prepare deny
  simp only [ResolveCall.startWith]
  rw [hcaller, require_true, ok_bind, h.opened]
  dsimp only
  rw [h.checked, ok_bind]
  dsimp only
  rw [h.scope]
  dsimp only
  rw [h.targets]
  dsimp only
  rw [h.agentRows]
  rfl

/-- Such a start raises nothing but refusals. -/
theorem prepare_refuses {body : List (String × Json)} {g : Grant} {action : Action} (h : Opens mac clock c grants body g action snapshot resolved)
    {ids : List Int} {name : Option String} {e : Error} (he : (c.startWith ids name).prepare mac clock grants = .error e) : ∃ reason, e = .refused reason := by
  have hids : RaisesOnly (fun e : Error => ∃ reason, e = .refused reason) (Delegation.agentIds (.items (ids.map some))) := by
    unfold Delegation.agentIds
    split
    · exact raisesOnly_ok _
    · exact raisesOnly_error ⟨_, rfl⟩
  rw [prepare_of_opens h] at he
  refine RaisesOnly.bind hids (fun ids' => ?_) _ he
  refine RaisesOnly.bind (raisesOnly_require ⟨_, rfl⟩) fun _ => ?_
  exact RaisesOnly.bind (raisesOnly_require ⟨_, rfl⟩) fun _ => raisesOnly_pure _

/-- What a start with some numbers has read. -/
theorem prepare_ok_iff {ids : List Int} {name : Option String} {o : Order} :
    (c.startWith ids name).prepare mac clock grants = .ok o ↔ ∃ body g action snapshot resolved, Opens mac clock c grants body g action snapshot resolved ∧
      ids ≠ [] ∧ ids.length ≤ SystemActions.maxAgents ∧ (∀ n ∈ ids, 0 < n ∧ n < 2 ^ 63) ∧ (∀ n ∈ ids, InGrant c.env.directory resolved snapshot n) ∧
      o = ⟨c.env.caller, body, g, action, c.env.directory.agentRowsInScope (ids.dedup.insertionSort (· ≤ ·)) snapshot, name⟩ := by
  have hids : ∀ n, n ∈ ids.dedup.insertionSort (· ≤ ·) ↔ n ∈ ids := fun n => (List.mem_insertionSort _).trans List.mem_dedup
  constructor
  · intro h
    unfold StartCall.prepare deny at h
    obtain ⟨_, hcaller, h⟩ := bind_ok h
    have hcaller := of_require hcaller
    split at h
    · cases h
    rename_i body hopened
    obtain ⟨⟨g, action⟩, hchecked, h⟩ := bind_ok h
    obtain ⟨ids', htaken, h⟩ := bind_ok h
    obtain ⟨hne, hcount, hrange, rfl⟩ := agentIds_ok_iff.1 htaken
    split at h
    · cases h
    rename_i snapshot hscope
    split at h
    · cases h
    rename_i resolved htargets
    obtain ⟨_, hinside, h⟩ := bind_ok h
    obtain ⟨_, hrows, h⟩ := bind_ok h
    obtain ⟨_, hall, h⟩ := bind_ok h
    have hinside := List.all_eq_true.1 (of_require hinside)
    have hall := List.all_eq_true.1 (of_require hall)
    refine ⟨body, g, action, snapshot, resolved, ⟨by simpa [ResolveCall.startWith] using hcaller, hopened, hchecked, hscope, htargets, of_require hrows⟩, hne, hcount,
      hrange, ?_,
      (Except.ok.inj h).symm⟩
    intro n hn
    obtain ⟨row, hrow, hpk⟩ := List.any_eq_true.1 (hall n ((hids n).2 hn))
    obtain ⟨hmem, hreaches, -⟩ := mem_rows_iff.1 hrow
    exact ⟨by simpa using hinside n ((hids n).2 hn), row, hmem, by simpa using hpk, hreaches⟩
  · rintro ⟨body, g, action, snapshot, resolved, hopens, hne, hcount, hrange, hgrant, rfl⟩
    have hinside : ((ids.dedup.insertionSort (· ≤ ·)).all fun pk => resolved.contains pk) = true := by
      rw [List.all_eq_true]
      intro n hn
      simpa using (hgrant n ((hids n).1 hn)).1
    have hall : ((ids.dedup.insertionSort (· ≤ ·)).all fun pk =>
        (c.env.directory.agentRowsInScope (ids.dedup.insertionSort (· ≤ ·)) snapshot).any fun row => row.pk == pk) = true := by
      rw [List.all_eq_true]
      intro n hn
      obtain ⟨-, row, hmem, hpk, hreaches⟩ := hgrant n ((hids n).1 hn)
      exact List.any_eq_true.2 ⟨row, mem_rows_iff.2 ⟨hmem, hreaches, hpk ▸ hn⟩, by simp [hpk]⟩
    rw [prepare_of_opens hopens, agentIds_ok_iff.2 ⟨hne, hcount, hrange, rfl⟩, ok_bind]
    simp only [deny, hinside, hall, require_true, ok_bind]
    rfl

/-- A ticket opens in one way. -/
theorem opens_unique {body body' : List (String × Json)} {g g' : Grant} {action action' : Action} {snapshot' : RoleScope} {resolved' : List Int}
    (h : Opens mac clock c grants body g action snapshot resolved) (h' : Opens mac clock c grants body' g' action' snapshot' resolved') :
    snapshot' = snapshot ∧ resolved' = resolved := by
  obtain rfl : body' = body := Option.some.inj (h'.opened.symm.trans h.opened)
  have hgrant := Except.ok.inj (h'.checked.symm.trans h.checked)
  obtain ⟨rfl, -⟩ := Prod.mk.inj hgrant
  exact ⟨Option.some.inj (h'.scope.symm.trans h.scope), Option.some.inj (h'.targets.symm.trans h.targets)⟩

/-- The rows of endpoints that exist have exactly the numbers that were asked for. -/
theorem rows_numbers {ids : List Int} (h : ∀ n ∈ ids, InGrant d resolved snapshot n) (n : Int) :
    n ∈ (d.agentRowsInScope (ids.dedup.insertionSort (· ≤ ·)) snapshot).map Agent.pk ↔ n ∈ ids := by
  have hids : n ∈ ids.dedup.insertionSort (· ≤ ·) ↔ n ∈ ids := (List.mem_insertionSort _).trans List.mem_dedup
  constructor
  · intro hn
    obtain ⟨row, hrow, rfl⟩ := List.mem_map.1 hn
    exact (hids.1 (mem_rows_iff.1 hrow).2.2)
  · intro hn
    obtain ⟨-, row, hmem, rfl, hreaches⟩ := h n hn
    exact List.mem_map_of_mem (mem_rows_iff.2 ⟨hmem, hreaches, hids.2 hn⟩)

/-- A start that makes a run makes it for the rows of the call. -/
theorem create_runs (core : Core) (clock : Int) (o : Order) (fate : StartFate) (s : Ledger) (hqueued : fate.queued = true) :
    ∃ r : DelegatedRun, (s.create core clock o fate).runs = s.runs ++ [r] ∧ r.sys.row.targetsSnapshot = o.targets := by
  refine ⟨_, rfl, ?_⟩
  rw [if_pos hqueued]
  rfl

end ResolveAux

open ResolveAux

/-- What `resolve_targets` answers for endpoint numbers is what a start with the same ticket accepts of them. The numbers it reports are numbers of the call; a start
with any of them, at most as many as a call may carry, goes on with exactly these endpoints, and makes their run when the ticket has none yet; a start with another
number of the call is refused. When it does not answer, no number of the call can be started either, unless the grant has more endpoints inside the stored scope than
one call may carry: then it refuses. -/
theorem resolve_tells_start (core : Core) (clock : Int) (c : ResolveCall) (numbers : List Int) (s : Ledger)
    (hids : c.endpointIds = .items (numbers.map fun n => some (.number n))) :
    (∀ answer, c.resolveTargets core.mac clock s.grants = .ok answer →
      (answer.agents.map Prod.snd).Nodup ∧ (∀ n ∈ answer.agents.map Prod.snd, n ∈ numbers) ∧
      (∀ ids name, ids ≠ [] → ids.length ≤ SystemActions.maxAgents → (∀ n ∈ ids, n ∈ answer.agents.map Prod.snd) →
        ∃ o, (c.startWith ids name).prepare core.mac clock s.grants = .ok o ∧ (∀ n, n ∈ o.rows.map Agent.pk ↔ n ∈ ids) ∧
          ∀ fate, s.findSchedule o.caller (o.ownerKey core.uuid) = none → fate.audit = true → fate.queued = true → fate.scheduleId ∉ s.given →
            ∃ r : DelegatedRun, (s.start core clock (c.startWith ids name) fate).runs = s.runs ++ [r] ∧ r.sys.row.targetsSnapshot = o.targets) ∧
      ∀ ids name fate, (∃ n ∈ ids, n ∈ numbers ∧ n ∉ answer.agents.map Prod.snd) →
        (∃ reason, (c.startWith ids name).prepare core.mac clock s.grants = .error (.refused reason)) ∧ s.start core clock (c.startWith ids name) fate = s) ∧
    (numbers ≠ [] → numbers.length ≤ SystemActions.maxAgents → (∀ n ∈ numbers, 0 < n ∧ n < 2 ^ 63) →
      (Wide core.mac clock c s.grants → c.resolveTargets core.mac clock s.grants = .error (.refused .ticketInvalid)) ∧
      ∀ e, c.resolveTargets core.mac clock s.grants = .error e → ¬ Wide core.mac clock c s.grants →
        ∀ ids name, (∀ n ∈ ids, n ∈ numbers) → ∃ e', (c.startWith ids name).prepare core.mac clock s.grants = .error e') := by
  constructor
  · intro answer hanswer
    obtain ⟨body, g, action, snapshot, resolved, refs, hopens, hrefs, -, rfl⟩ := resolve_ok_iff.1 hanswer
    rw [hids] at hrefs
    obtain ⟨hnumbers, hmem, hrange⟩ := endpointRefs_numbers hrefs
    obtain ⟨hnodup, hcovered⟩ := coverage_numbers (c.env.directory.agentRowsInScope resolved snapshot) hnumbers
    simp only [hmem, exists_row_iff] at hcovered
    refine ⟨hnodup, fun n hn => ((hcovered n).1 hn).1, ?_, ?_⟩
    · intro ids name hne hcount hall
      have hgrant : ∀ n ∈ ids, InGrant c.env.directory resolved snapshot n := fun n hn => ((hcovered n).1 (hall n hn)).2
      have hprepare : (c.startWith ids name).prepare core.mac clock s.grants = .ok _ := prepare_ok_iff.2 ⟨body, g, action, snapshot, resolved, hopens, hne, hcount,
        fun n hn => hrange n ((hcovered n).1 (hall n hn)).1, hgrant, rfl⟩
      refine ⟨_, hprepare, rows_numbers hgrant, ?_⟩
      intro fate hnone haudit hqueued hfresh
      obtain ⟨r, hruns, htargets⟩ := create_runs core clock _ fate s hqueued
      refine ⟨r, ?_, htargets⟩
      unfold Ledger.start
      rw [hprepare]
      dsimp only
      rw [hnone]
      dsimp only
      rw [if_pos, hruns]
      simpa [haudit] using hfresh
    · rintro ids name fate ⟨n, hn, hnumber, hout⟩
      have hnot : ∀ o, (c.startWith ids name).prepare core.mac clock s.grants ≠ .ok o := by
        intro o ho
        obtain ⟨_, _, _, snapshot', resolved', hopens', _, _, _, hgrant, _⟩ := prepare_ok_iff.1 ho
        obtain ⟨rfl, rfl⟩ := opens_unique hopens hopens'
        exact hout ((hcovered n).2 ⟨hnumber, hgrant n hn⟩)
      cases hprepare : (c.startWith ids name).prepare core.mac clock s.grants with
      | ok o => exact absurd hprepare (hnot o)
      | error e =>
        obtain ⟨reason, rfl⟩ := prepare_refuses hopens hprepare
        refine ⟨⟨reason, rfl⟩, ?_⟩
        rw [Ledger.start, hprepare]
  · intro hne hcount hrange
    obtain ⟨refs, hrefs⟩ := endpointRefs_ok c.printable hne hcount hrange
    rw [← hids] at hrefs
    constructor
    · rintro ⟨body, g, action, snapshot, resolved, hopens, hwide⟩
      exact resolve_wide hopens hrefs hwide
    · intro e he hnarrow ids name _
      cases hprepare : (c.startWith ids name).prepare core.mac clock s.grants with
      | error e' => exact ⟨e', rfl⟩
      | ok o =>
        obtain ⟨body, g, action, snapshot, resolved, hopens, -⟩ := prepare_ok_iff.1 hprepare
        have hanswer := resolve_ok_iff.2 ⟨body, g, action, snapshot, resolved, refs, hopens, hrefs,
          Nat.le_of_not_lt fun hwide => hnarrow ⟨body, g, action, snapshot, resolved, hopens, hwide⟩, rfl⟩
        rw [he] at hanswer
        cases hanswer

namespace ResolveAux

open OneRunAux

/-- The provider asks about two endpoints. -/
def sampleResolve : ResolveCall :=
  ⟨actingEnv "apm", .token (sign sampleCore.mac .ticket (.obj sampleTicket)), "apm.install", .items [some (.number 1), some (.number 2)], fun _ => true⟩

/-- An endpoint of a client with one site. -/
def officeAgent (i : Nat) : Agent := ⟨(i : Int) + 1, "agent-" ++ toString (i + 1), 1, 1⟩

/-- A client with as many endpoints as that. -/
def officeDirectory (count : Nat) : Directory where
  clients := [1]
  sites := [(1, 1)]
  agents := (List.range count).map officeAgent
  pks_nodup := by
    rw [List.map_map]
    refine List.Nodup.map ?_ List.nodup_range
    intro i j h
    simpa [officeAgent] using h
  site_of_agent := by
    intro a ha
    obtain ⟨i, -, rfl⟩ := List.mem_map.1 ha
    rfl

theorem no_resolver (m : String) (targets : Json) (h : false = true) : (some (.client [1]) : Option ScopeRef) = some .module := by
  cases h

theorem no_answer (m : String) (targets : Json) (h : false = false) : (none : Option (List Int)) = none := rfl

/-- The provider asks for a grant that is for the whole client. -/
def officeResolve (count : Nat) : ResolveCall :=
  { sampleResolve with
    env := { actingEnv "apm" with
      directory := officeDirectory count
      scopeRef := fun _ => some (.client [1])
      hasResolver := fun _ _ => false
      resolveAgentPks := fun _ _ => none
      resolver_type := no_resolver
      resolver_asked := no_answer } }

/-- The numbers of the client. -/
def officePks (count : Nat) : List Int :=
  ((officeDirectory count).agents.filter fun a => [1].contains a.clientId && (officeDirectory count).clients.contains a.clientId).map Agent.pk

theorem mem_officePks {count : Nat} {a : Agent} (ha : a ∈ (officeDirectory count).agents) : a.pk ∈ officePks count := by
  refine List.mem_map_of_mem (List.mem_filter.2 ⟨ha, ?_⟩)
  obtain ⟨i, -, rfl⟩ := List.mem_map.1 ha
  rfl

theorem office_opens (count : Nat) : ∃ action,
    Opens sampleCore.mac 0 (officeResolve count) [sampleGrant] sampleTicket sampleGrant action ⟨true, [], []⟩ (officePks count) := by
  have hopened : openToken sampleCore.mac .ticket (.token (sign sampleCore.mac .ticket (.obj sampleTicket))) = some sampleTicket := by decide_cbv
  have hchecked : ∃ action, checkedTicket 0 (actingEnv "apm") sampleTicket "apm.install" [sampleGrant] = .ok (sampleGrant, action) := ⟨_, rfl⟩
  obtain ⟨action, hchecked⟩ := hchecked
  exact ⟨action, by simp [officeResolve, actingEnv], hopened, hchecked, by decide_cbv, rfl, rfl⟩

/-- All endpoints of the client are rows of the grant. -/
theorem office_rows (count : Nat) : ((officeDirectory count).agentRowsInScope (officePks count) ⟨true, [], []⟩).length = count := by
  have hwithin : (officeDirectory count).within ⟨true, [], []⟩ = (officeDirectory count).agents := List.filter_eq_self.2 fun _ _ => rfl
  have hall : ((officeDirectory count).agents.filter fun a => (officePks count).contains a.pk) = (officeDirectory count).agents := by
    refine List.filter_eq_self.2 fun a ha => ?_
    simpa using mem_officePks ha
  rw [Directory.agentRowsInScope, List.length_insertionSort, hwithin, hall]
  simp [officeDirectory]

/-- The first endpoint of the client can be started. -/
theorem office_starts {count : Nat} (hcount : 0 < count) :
    ∃ o, ((officeResolve count).startWith [1] none).prepare sampleCore.mac 0 [sampleGrant] = .ok o := by
  obtain ⟨action, hopens⟩ := office_opens count
  have hfirst : officeAgent 0 ∈ (officeDirectory count).agents := List.mem_map_of_mem (List.mem_range.2 hcount)
  refine ⟨_, prepare_ok_iff.2 ⟨_, _, _, _, _, hopens, by decide, by decide, by decide, ?_, rfl⟩⟩
  intro n hn
  obtain rfl := List.mem_singleton.1 hn
  exact ⟨mem_officePks hfirst, _, hfirst, rfl, rfl⟩

end ResolveAux

open OneRunAux

/-- One of two endpoints is covered: a start with it goes on, and a start with both is refused. -/
theorem covered_endpoint_starts :
    sampleResolve.resolveTargets sampleCore.mac 0 [sampleGrant] = .ok ⟨[("agent-1", 1)], 1, 1⟩ ∧
      (∃ o, (sampleResolve.startWith [1] none).prepare sampleCore.mac 0 [sampleGrant] = .ok o ∧ ∀ n, n ∈ o.rows.map Agent.pk ↔ n ∈ [1]) ∧
      ∃ reason, (sampleResolve.startWith [1, 2] none).prepare sampleCore.mac 0 [sampleGrant] = .error (.refused reason) := by
  have hanswer : sampleResolve.resolveTargets sampleCore.mac 0 [sampleGrant] = .ok ⟨[("agent-1", 1)], 1, 1⟩ := by decide +kernel
  obtain ⟨-, -, hcovered, hother⟩ :=
    (resolve_tells_start sampleCore 0 sampleResolve [1, 2] { Ledger.fresh with grants := [sampleGrant] } rfl).1 _ hanswer
  obtain ⟨o, hprepare, hrows, -⟩ := hcovered [1] none (by decide) (by decide) (by decide)
  exact ⟨hanswer, ⟨o, hprepare, hrows⟩, (hother [1, 2] none ⟨"a", "a", true, true, "", ⟨.other, "", ""⟩⟩ ⟨2, by decide⟩).1⟩

/-- A grant for a client with one endpoint more than a call may carry: the answer is a refusal, and a start with one of the endpoints goes on. -/
theorem wide_grant_starts :
    (officeResolve (SystemActions.maxAgents + 1)).resolveTargets sampleCore.mac 0 [sampleGrant] = .error (.refused .ticketInvalid) ∧
      ∃ o, ((officeResolve (SystemActions.maxAgents + 1)).startWith [1] none).prepare sampleCore.mac 0 [sampleGrant] = .ok o := by
  obtain ⟨action, hopens⟩ := office_opens (SystemActions.maxAgents + 1)
  refine ⟨resolve_wide hopens rfl ?_, office_starts (Nat.succ_pos _)⟩
  exact (Nat.lt_succ_self _).trans_eq (office_rows (SystemActions.maxAgents + 1)).symm

end Delegation

end TecTac
