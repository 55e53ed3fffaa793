import TecTac.DelegationSystem
import TecTac.Lemmas.Run

/-!
# What delegation reads and keeps

What a call of `start` has checked when it goes on (`prepare_spec`), what a digest of a grant determines, and what no step of a worker changes of a
run.
-/

namespace TecTac

/-! ## Runs -/

/-- The columns of a run that no worker writes. -/
def RunRow.identity (row : RunRow) : Option String × OwnerType × String × String × Json × Json :=
  (row.schedule, row.ownerType, row.ownerModule, row.ownerKey, row.targetsSnapshot, row.parametersSnapshot)

namespace RunRow

variable (clock : Int) (row : RunRow)

@[simp] theorem identity_claim (v : ScheduleVisibility) (retries : Nat) : (row.claim clock v retries).1.identity = row.identity := by
  unfold claim
  split
  · rfl
  · simp only
    split <;> rfl

@[simp] theorem identity_skipUnauthorizedOneOff (reason : String) : (row.skipUnauthorizedOneOff clock reason).identity = row.identity := by
  unfold skipUnauthorizedOneOff
  split <;> rfl

@[simp] theorem identity_finishSuccess (result : Json) : (row.finishSuccess clock result).1.identity = row.identity := by
  unfold finishSuccess
  split <;> rfl

@[simp] theorem identity_finishFailure (retry : Nat) (e : Exc) : (row.finishFailure clock retry e).1.identity = row.identity := by
  unfold finishFailure
  split
  · rfl
  · simp only
    split <;> rfl

@[simp] theorem identity_parkPendingRun (ref : CompletionRef) (refusal : Option String) :
    (row.parkPendingRun clock ref refusal).1.identity = row.identity := by
  unfold parkPendingRun
  split
  · rfl
  · split <;> rfl

@[simp] theorem identity_recoverQueued (configured : Nat) : (row.recoverQueued clock configured).identity = row.identity := by
  unfold recoverQueued
  simp only
  split <;> rfl

@[simp] theorem identity_recoverRunning (timeouts : String → Option Nat) (revoked : Bool) :
    (row.recoverRunning timeouts clock revoked).identity = row.identity := by
  unfold recoverRunning
  split
  · rfl
  · simp only
    split
    · rfl
    · split <;> rfl

@[simp] theorem identity_applyOutcome (c : OutcomeCall) : (row.applyOutcome clock c).2.1.identity = row.identity := by
  unfold applyOutcome
  split <;> rfl

end RunRow

namespace RunSys

variable (timeouts : String → Option Nat) (clock : Int)

/-- No step of a run but the forced delete changes what the run is of. -/
theorem identity_act {a : RunAct} (ha : a ≠ .forceDelete) (r : RunSys) : (r.act timeouts clock a).1.row.identity = r.row.identity := by
  cases a with
  | forceDelete => exact absurd rfl ha
  | complete c =>
    simp only [act]
    split
    · rfl
    · simp [offer]
  | settle listed lag read =>
    simp only [act]
    split
    · split
      · simp [offer]
      · rfl
    · rfl
  | recoverRunning candidate revoked =>
    simp only [act]
    split
    · split
      · simp
      · rfl
    · rfl
  | recoverList lag =>
    simp only [act]
    split
    · split <;> rfl
    · rfl
  | recoverQueued lag configured => simp [act]
  | lose worker => rfl
  | _ =>
    simp only [act]
    split <;> first | rfl | simp [finish]

/-- A run that nobody will execute: no worker has it, and it is over or no message names it. -/
structure Dead (r : RunSys) : Prop where
  idle : r.dispatch = .idle
  workers : r.workers = []
  invoked : r.invoked = []
  stays : r.row.status.terminal = true ∨ r.messages = []

theorem dispatch_act {a : RunAct} {r : RunSys} (h : r.dispatch = .idle) : (r.act timeouts clock a).1.dispatch = .idle := by
  cases a <;> simp only [act, offer, finish] <;> (repeat' split) <;> simp_all

/-- Messages come from the dispatcher and from a worker that tries again. -/
theorem messages_act {a : RunAct} {r : RunSys} (hidle : r.dispatch = .idle) (hworkers : r.workers = []) :
    (r.act timeouts clock a).1.messages = r.messages := by
  cases a <;> simp only [act, offer, hidle, hworkers, List.getElem?_nil] <;> (repeat' split) <;> simp_all

theorem Dead.act {r : RunSys} (h : Dead r) (a : RunAct) : Dead (r.act timeouts clock a).1 := by
  have hmove := act_move timeouts clock a r
  have hnone : ∀ (i : Nat) (w : Worker), r.workers[i]? ≠ some w := by
    intro i w hw
    rw [h.workers] at hw
    cases hw
  have hstays : (r.act timeouts clock a).1.row.status.terminal = true ∨ (r.act timeouts clock a).1.messages = [] := by
    rcases h.stays with hterm | hnil
    · exact .inl (hmove.terminal hterm)
    · exact .inr ((messages_act timeouts clock h.idle h.workers).trans hnil)
  refine ⟨dispatch_act timeouts clock h.idle, ?_, ?_, hstays⟩
  all_goals
    cases hmove with
    | claimed message retries v _ hmessage hqueued =>
      rcases h.stays with hterm | hnil
      · rw [hqueued] at hterm
        cases hterm
      · rw [hnil] at hmessage
        cases hmessage
    | invoked i n hw => exact absurd hw (hnone i _)
    | requeued i w e hw => exact absurd hw (hnone i w)
    | parked i w ref hw => exact absurd hw (hnone i w)
    | quiet _ hsub hinvoked _ => first | exact Entries.eq_nil_of_sublist hsub h.workers | exact hinvoked.trans h.invoked
    | ended _ _ hsub hinvoked _ => first | exact Entries.eq_nil_of_sublist hsub h.workers | exact hinvoked.trans h.invoked
    | applied c _ _ hworkers hinvoked _ => first | exact hworkers.trans h.workers | exact hinvoked.trans h.invoked
    | dispatchFailed e _ _ _ hworkers hinvoked _ => first | exact hworkers.trans h.workers | exact hinvoked.trans h.invoked

end RunSys

namespace Delegation

open Raise

/-! ## Digests -/

/-- The field of an object. -/
def field (key : String) : Json → Option Json
  | .obj kvs => Dict.get key kvs
  | _ => none

/-- The fields of a digest of a grant that its value shows. -/
theorem field_grantDigest (g : Grant) :
    field "a" (grantDigest g) = some (.str g.actionId) ∧ field "w" (grantDigest g) = some (.num g.updatedAt) := by
  constructor <;>
    (simp only [field, grantDigest, digest, Json.canonical, Json.get_canonicalPairs]
     rfl)

theorem updatedAt_eq_of_grantDigest {g g' : Grant} (h : grantDigest g = grantDigest g') : g.updatedAt = g'.updatedAt := by
  have hfield := congrArg (field "w") h
  rw [(field_grantDigest g).2, (field_grantDigest g').2] at hfield
  simpa using hfield

theorem grantOf_eq_some {body : List (String × Json)} {grants : List Grant} {g : Grant} (h : grantOf body grants = some g) :
    g ∈ grants ∧ Dict.get "g" body = some (.str g.pk) :=
  ⟨List.mem_of_find?_eq_some h, by simpa using List.find?_some h⟩

/-! ## A start that goes on -/

/-- What `start` has checked and read when it looks for an earlier run. -/
structure Prepared (mac : Mac) (clock : Int) (c : StartCall) (grants : List Grant) (o : Order) : Prop where
  opened : openToken mac .ticket c.ticket = some o.body
  caller : o.caller = c.env.caller
  unexpired : (expiry o.body).any (fun x => decide (second clock ≤ x)) = true
  grant : grantOf o.body grants = some o.grant
  digest : Dict.get "d" o.body = some (grantDigest o.grant)
  provider : Dict.get "p" o.body = some (.str o.grant.providerModule)
  module : o.grant.providerModule = o.caller
  action : o.grant.actionId = c.actionId
  rows : ∀ row ∈ o.rows, row ∈ c.env.directory.agents
  scope : ∃ snapshot, snapshotOf o.grant.creationScope = some snapshot ∧ ∀ row ∈ o.rows, snapshot.reaches row = true
  targets : ∃ resolved, c.env.targetPks o.grant.targets o.grant.ownerModule = some resolved ∧ ∀ row ∈ o.rows, row.pk ∈ resolved

theorem of_deny {c : Bool} {reason : Reason} {u : Unit} (h : deny c reason = .ok u) : c = true := of_require h

theorem checkedTicket_ok {clock : Int} {env : Env} {body : List (String × Json)} {actionId : String} {grants : List Grant} {g : Grant}
    {action : Action} (h : checkedTicket clock env body actionId grants = .ok (g, action)) :
    (expiry body).any (fun x => decide (second clock ≤ x)) = true ∧ grantOf body grants = some g ∧ Dict.get "d" body = some (grantDigest g) ∧
      Dict.get "p" body = some (.str g.providerModule) ∧ g.providerModule = env.caller ∧ g.actionId = actionId := by
  unfold checkedTicket at h
  split at h
  · cases h
  · rename_i x hx
    obtain ⟨u, hvalid, h⟩ := bind_ok h
    split at h
    · cases h
    · rename_i g' hg
      obtain ⟨u, -, h⟩ := bind_ok h
      obtain ⟨u, hsame, h⟩ := bind_ok h
      obtain ⟨u, hmodule, h⟩ := bind_ok h
      obtain ⟨u, haction, h⟩ := bind_ok h
      obtain ⟨a, -, h⟩ := bind_ok h
      cases h
      have hfields := of_decide_eq_true (of_deny hsame)
      refine ⟨?_, hg, hfields.1, hfields.2.2, by simpa using of_deny hmodule, by simpa using of_deny haction⟩
      simpa [hx] using of_deny hvalid

theorem mem_agentRowsInScope {d : Directory} {pks : List Int} {snapshot : RoleScope} {row : Agent} (h : row ∈ d.agentRowsInScope pks snapshot) :
    row ∈ d.agents ∧ snapshot.reaches row = true ∧ row.pk ∈ pks := by
  rw [Directory.agentRowsInScope, List.mem_insertionSort, List.mem_filter, Directory.within, List.mem_filter] at h
  exact ⟨h.1.1, h.1.2, by simpa using h.2⟩

theorem prepare_spec {mac : Mac} {clock : Int} {c : StartCall} {grants : List Grant} {o : Order} (h : c.prepare mac clock grants = .ok o) :
    Prepared mac clock c grants o := by
  unfold StartCall.prepare at h
  obtain ⟨u, -, h⟩ := bind_ok h
  split at h
  · cases h
  · rename_i body hopen
    obtain ⟨⟨g, action⟩, hchecked, h⟩ := bind_ok h
    obtain ⟨ids, -, h⟩ := bind_ok h
    split at h
    · cases h
    · rename_i snapshot hsnapshot
      split at h
      · cases h
      · rename_i resolved hresolved
        obtain ⟨u, hinside, h⟩ := bind_ok h
        obtain ⟨u, -, h⟩ := bind_ok h
        obtain ⟨u, -, h⟩ := bind_ok h
        cases h
        obtain ⟨hvalid, hgrant, hdigest, hprovider, hmodule, haction⟩ := checkedTicket_ok hchecked
        have hids : ∀ pk ∈ ids, pk ∈ resolved := by simpa [List.all_eq_true] using of_deny hinside
        exact {
          opened := hopen
          caller := rfl
          unexpired := hvalid
          grant := hgrant
          digest := hdigest
          provider := hprovider
          module := hmodule
          action := haction
          rows := fun row hrow => (mem_agentRowsInScope hrow).1
          scope := ⟨snapshot, hsnapshot, fun row hrow => (mem_agentRowsInScope hrow).2.1⟩
          targets := ⟨resolved, hresolved, fun row hrow => hids _ (mem_agentRowsInScope hrow).2.2⟩ }

/-- The owner module and the owner key of the runs of a ticket, read from its body. -/
def ticketKey (uuid : Json → String) (body : List (String × Json)) : String × String :=
  let d := (Dict.get "d" body).getD .null
  (match Dict.get "p" body with
    | some (.str p) => p
    | _ => "",
    "one-off:" ++ uuid (digest (.obj [("r", (Dict.get "r" body).getD .null), ("g", (Dict.get "g" body).getD .null), ("d", d),
      ("a", (field "a" d).getD .null)])))

/-- The key of a call depends on its ticket alone. -/
theorem Prepared.key {mac : Mac} {clock : Int} {c : StartCall} {grants : List Grant} {o : Order} (h : Prepared mac clock c grants o)
    (uuid : Json → String) : (o.caller, o.ownerKey uuid) = ticketKey uuid o.body := by
  have hpk := (grantOf_eq_some h.grant).2
  simp only [ticketKey, h.digest, h.provider, hpk, h.module, Option.getD_some, (field_grantDigest o.grant).1]
  rfl

/-! ## A grant that is registered -/

theorem providerAction_module {r : Registry} {ownerModule providerModule actionId : String} {action : Action}
    (h : r.providerAction ownerModule providerModule actionId = .ok action) : action.moduleId = providerModule := by
  unfold Registry.providerAction at h
  split at h
  · obtain ⟨u, -, h⟩ := bind_ok h
    obtain ⟨u, hmodule, h⟩ := bind_ok h
    obtain ⟨u, -, h⟩ := bind_ok h
    split at h
    · cases h
    · obtain ⟨u, -, h⟩ := bind_ok h
      obtain ⟨u, -, h⟩ := bind_ok h
      obtain ⟨u, -, h⟩ := bind_ok h
      obtain ⟨u, -, h⟩ := bind_ok h
      cases h
      simpa using of_deny hmodule
  · cases h

theorem lift_ok {α : Type} {x : Except Raised α} {a : α} (h : lift x = .ok a) : x = .ok a := by
  cases x with
  | ok b => exact congrArg Except.ok (Except.ok.inj h)
  | error e => cases h

/-- What `register` has checked and read when it saves a grant: the confirmation is for this person, these modules, this action, these targets and these
parameters. -/
structure Registered (mac : Mac) (clock : Int) (c : RegisterCall) (grants : List Grant) (person : Person) (g : Grant) : Prop where
  asker : c.person = some person
  confirmed : ∃ body wanted, openToken mac .confirmation c.confirmationId = some body ∧ c.toAsked.confirmationBody person = .ok wanted ∧
    ∀ kv ∈ wanted, Dict.get kv.1 body = some kv.2
  saved : ∃ action normalized canonical base, c.env.registry.providerAction c.ownerModule c.providerModule c.actionId = .ok action ∧
    c.env.normalizeTargets c.targets = .ok normalized ∧ c.env.canonicalForUser person normalized = .ok canonical ∧
    c.claimed person action canonical grants = .ok base ∧ g = c.written clock person canonical base

theorem register_spec {mac : Mac} {clock : Int} {c : RegisterCall} {grants : List Grant} {g : Grant} (h : c.register mac clock grants = .ok g) :
    ∃ person, Registered mac clock c grants person g := by
  unfold RegisterCall.register at h
  obtain ⟨⟨person, action⟩, hcheck, h⟩ := bind_ok h
  obtain ⟨u, -, h⟩ := bind_ok h
  obtain ⟨ok, hconfirmed, h⟩ := bind_ok h
  obtain ⟨u, hok, h⟩ := bind_ok h
  obtain ⟨normalized, hnormalized, h⟩ := bind_ok h
  obtain ⟨canonical, hcanonical, h⟩ := bind_ok h
  obtain ⟨base, hclaimed, h⟩ := bind_ok h
  obtain ⟨u, -, h⟩ := bind_ok h
  cases h
  have hperson : c.person = some person ∧ c.env.registry.providerAction c.ownerModule c.providerModule c.actionId = .ok action := by
    unfold Asked.check at hcheck
    obtain ⟨u, -, hcheck⟩ := bind_ok hcheck
    obtain ⟨u, -, hcheck⟩ := bind_ok hcheck
    obtain ⟨u, -, hcheck⟩ := bind_ok hcheck
    split at hcheck
    · cases hcheck
    · rename_i p hp
      obtain ⟨a, haction, hcheck⟩ := bind_ok hcheck
      obtain ⟨u, -, hcheck⟩ := bind_ok hcheck
      cases hcheck
      exact ⟨hp, haction⟩
  refine ⟨person, hperson.1, ?_, action, normalized, canonical, base, hperson.2, lift_ok hnormalized, lift_ok hcanonical, hclaimed, rfl⟩
  obtain rfl := of_deny hok
  unfold Asked.confirmationOk at hconfirmed
  split at hconfirmed
  · cases hconfirmed
  · rename_i body hbody
    obtain ⟨wanted, hwanted, hall⟩ := bind_ok hconfirmed
    have htrue := (Bool.and_eq_true_iff.mp (Except.ok.inj hall)).1
    exact ⟨body, wanted, hbody, hwanted, fun kv hkv => of_decide_eq_true (List.all_eq_true.mp htrue kv hkv)⟩

theorem findGrant_eq_some {ownerModule grantKey : String} {grants : List Grant} {g : Grant} (h : findGrant ownerModule grantKey grants = some g) :
    g ∈ grants ∧ g.ownerModule = ownerModule ∧ g.grantKey = grantKey :=
  ⟨List.mem_of_find?_eq_some h, by simpa using List.find?_some h⟩

theorem findGrant_eq_none {ownerModule grantKey : String} {grants : List Grant} (h : findGrant ownerModule grantKey grants = none) {g : Grant}
    (hg : g ∈ grants) (hmodule : g.ownerModule = ownerModule) : g.grantKey ≠ grantKey := by
  intro hkey
  have := List.find?_eq_none.mp h g hg
  simp [hmodule, hkey] at this

/-- What `register` keeps of the row: the key and the place of the stored grant, or a new key. -/
theorem claimed_cases {c : RegisterCall} {person : Person} {action : Action} {canonical : Json} {grants : List Grant} {base : Grant}
    (h : c.claimed person action canonical grants = .ok base) : base.ownerModule = c.ownerModule ∧ base.grantKey = c.grantKey ∧
      (findGrant c.ownerModule c.grantKey grants = none ∧ base.pk = c.newPk ∨
        ∃ g, findGrant c.ownerModule c.grantKey grants = some g ∧ base.pk = g.pk ∧
          (base = g ∨ base = { g with createdById := some person.id, createdByUsername := person.name } ∧
            takeoverCovered c.env person c.ownerModule action canonical = true)) := by
  unfold RegisterCall.claimed at h
  split at h
  · rename_i hnone
    obtain ⟨u, -, h⟩ := bind_ok h
    cases h
    exact ⟨rfl, rfl, .inl ⟨hnone, rfl⟩⟩
  · rename_i g hsome
    obtain ⟨-, hmodule, hkey⟩ := findGrant_eq_some hsome
    split at h
    · obtain ⟨u, hcovered, h⟩ := bind_ok h
      cases h
      exact ⟨hmodule, hkey, .inr ⟨_, hsome, rfl, .inr ⟨rfl, of_deny hcovered⟩⟩⟩
    · cases h
      exact ⟨hmodule, hkey, .inr ⟨_, hsome, rfl, .inl rfl⟩⟩

/-! ## A takeover -/

/-- Every endpoint that targets name is inside the scope: as the owner module reads them, and as the provider does where the owner has no resolver. -/
def CoversTargets (env : Env) (scope : RoleScope) (ownerModule providerModule : String) (targets : Json) : Prop :=
  ∀ m, m = ownerModule ∨ m = providerModule ∧ env.hasResolver ownerModule targets = false → ∀ pks, env.targetPks targets m = some pks →
    ∀ a ∈ env.directory.agents, a.pk ∈ pks → scope.reaches a = true

theorem mem_within {d : Directory} {scope : RoleScope} {a b : Agent} (ha : a ∈ d.agents) (hb : b ∈ d.within scope) (hpk : b.pk = a.pk) :
    scope.reaches a = true := by
  obtain ⟨hmem, hreaches⟩ := List.mem_filter.mp hb
  rwa [← List.inj_on_of_nodup_map d.pks_nodup hmem ha hpk]

theorem covers_of_resolver {env : Env} {scope : RoleScope} {m : String} {targets : Json} (hresolver : env.hasResolver m targets = true)
    (h : env.resolverScopeCheck scope m targets = some true) {pks : List Int} (hpks : env.targetPks targets m = some pks) {a : Agent}
    (ha : a ∈ env.directory.agents) (hmem : a.pk ∈ pks) : scope.reaches a = true := by
  have hresolved : env.resolveAgentPks m targets = some pks := by
    simpa [Env.targetPks, env.resolver_type m targets hresolver] using hpks
  simp only [Env.resolverScopeCheck, hresolver, hresolved, Bool.not_true, Bool.false_eq_true, if_false] at h
  split at h
  · cases h
  · cases h
  · rename_i found _ heq
    cases heq
    obtain ⟨b, hb, hpk⟩ := List.any_eq_true.mp (List.all_eq_true.mp (Option.some.inj h) a.pk hmem)
    exact mem_within ha hb (by simpa using hpk)

theorem mem_named {token : String} {agents : List Agent} {m : Int × String} :
    m ∈ Directory.named token agents ↔ ∃ a ∈ agents, (a.agentId = token ∨ toString a.pk = token) ∧ (a.pk, a.agentId) = m := by
  simp only [Directory.named, List.mem_dedup, List.mem_map, List.mem_filter, Bool.or_eq_true, beq_iff_eq, and_assoc]

theorem eq_of_length_le_one {α : Type} {xs : List α} (h : xs.length ≤ 1) {x y : α} (hx : x ∈ xs) (hy : y ∈ xs) : x = y := by
  match xs, h with
  | [z], _ => rw [List.mem_singleton.mp hx, List.mem_singleton.mp hy]

/-- A text that names an endpoint inside the scope, and only one endpoint, names that one. -/
theorem covers_of_endpoint {d : Directory} {scope : RoleScope} {ids allowed : List String} {pks : List Int} (hpks : d.endpointPks ids = some pks)
    (hallowed : d.identifiersInScope scope ids = some allowed) (hall : ∀ id ∈ ids, id ∈ allowed) {a : Agent} (ha : a ∈ d.agents) (hmem : a.pk ∈ pks) :
    scope.reaches a = true := by
  simp only [Directory.endpointPks, Option.ite_none_right_eq_some, Option.some.injEq] at hpks
  obtain ⟨hone, rfl⟩ := hpks
  simp only [Directory.identifiersInScope, Option.ite_none_right_eq_some, Option.some.injEq] at hallowed
  obtain ⟨-, rfl⟩ := hallowed
  obtain ⟨token, htoken, hnamed⟩ := List.mem_flatMap.mp hmem
  obtain ⟨m, hm, hpk⟩ := List.mem_map.mp hnamed
  have honly : (Directory.named token d.agents).length ≤ 1 := by simpa using List.all_eq_true.mp hone token htoken
  obtain ⟨id, hid, rfl⟩ := List.mem_map.mp (List.mem_dedup.mp htoken)
  obtain ⟨hin, hne⟩ := List.mem_filter.mp (hall id hid)
  -- the text was stripped before, so that it is the one that names the endpoint
  have hstripped : Directory.stripped id = id := by
    obtain ⟨id', -, rfl⟩ := List.mem_map.mp hin
    simp [Directory.stripped]
  rw [hstripped] at hm honly
  obtain ⟨m', hm'⟩ := List.exists_mem_of_ne_nil _ (by simpa using hne)
  obtain ⟨b, hb, hnames, rfl⟩ := mem_named.1 hm'
  have hb' : (b.pk, b.agentId) ∈ Directory.named id d.agents := mem_named.2 ⟨b, (List.mem_filter.mp hb).1, hnames, rfl⟩
  have heq : (b.pk, b.agentId) = m := eq_of_length_le_one honly hb' hm
  exact mem_within ha hb (by rw [← hpk, ← heq])

theorem covers_of_client {d : Directory} {scope : RoleScope} {ids : List Int}
    (h : (ids.all fun id => decide (0 < id) && if scope.unrestricted then d.clients.contains id else scope.wholeClientIds.contains id) = true) {a : Agent}
    (ha : a ∈ d.agents) (hmem : a.pk ∈ (d.agents.filter fun a => ids.contains a.clientId && d.clients.contains a.clientId).map Agent.pk) :
    scope.reaches a = true := by
  obtain ⟨b, hb, hpk⟩ := List.mem_map.mp hmem
  obtain ⟨hb, hnamed⟩ := List.mem_filter.mp hb
  obtain rfl := List.inj_on_of_nodup_map d.pks_nodup hb ha hpk
  simp only [Bool.and_eq_true, List.contains_eq_mem, decide_eq_true_eq] at hnamed
  have hid := List.all_eq_true.mp h b.clientId hnamed.1
  cases hfree : scope.unrestricted with
  | true => simp [RoleScope.reaches, RoleScope.covers, hfree]
  | false => simp_all [RoleScope.reaches, RoleScope.covers]

theorem covers_of_site {d : Directory} {scope : RoleScope} {ids : List Int}
    (h : (ids.all fun id => decide (0 < id) && (Dict.get id d.sites).any fun client => scope.covers client id) = true) {a : Agent}
    (ha : a ∈ d.agents) (hmem : a.pk ∈ (d.agents.filter fun a => ids.contains a.siteId).map Agent.pk) : scope.reaches a = true := by
  obtain ⟨b, hb, hpk⟩ := List.mem_map.mp hmem
  obtain ⟨hb, hnamed⟩ := List.mem_filter.mp hb
  obtain rfl := List.inj_on_of_nodup_map d.pks_nodup hb ha hpk
  have hid := List.all_eq_true.mp h b.siteId (by simpa using hnamed)
  rw [d.site_of_agent b hb] at hid
  exact (Bool.and_eq_true_iff.mp hid).2

/-- A person who takes a grant over covers every endpoint of it. -/
theorem covers_of_takeover {env : Env} {person : Person} {ownerModule : String} {action : Action} {targets : Json}
    (h : takeoverCovered env person ownerModule action targets = true) :
    CoversTargets env (env.scope person) ownerModule action.moduleId targets := by
  intro m hm pks hpks a ha hmem
  have hjudged : ∀ m', env.hasResolver m' targets = true → env.resolverScopeCheck (env.scope person) m' targets = some true → m = m' →
      (env.scope person).reaches a = true := by
    rintro m' hresolver hcheck rfl
    exact covers_of_resolver hresolver hcheck hpks ha hmem
  have hnone : ∀ m', env.hasResolver m' targets = false → env.resolverScopeCheck (env.scope person) m' targets = none := by
    intro m' hresolver
    simp [Env.resolverScopeCheck, hresolver]
  have hsome : ∀ m', env.hasResolver m' targets = true → ∃ b, env.resolverScopeCheck (env.scope person) m' targets = some b := by
    intro m' hresolver
    simp only [Env.resolverScopeCheck, hresolver, Bool.not_true, Bool.false_eq_true, if_false]
    split <;> exact ⟨_, rfl⟩
  unfold takeoverCovered at h
  cases howner : env.hasResolver ownerModule targets with
  | true =>
    obtain ⟨b, hb⟩ := hsome ownerModule howner
    rw [hb, Option.getD_some] at h
    refine hjudged ownerModule howner (h ▸ hb) ?_
    rcases hm with rfl | ⟨-, hfalse⟩
    · rfl
    · rw [howner] at hfalse
      cases hfalse
  | false =>
    rw [hnone ownerModule howner, Option.getD_none, Env.personCoversTargets] at h
    cases hprovider : env.hasResolver action.moduleId targets with
    | true =>
      obtain ⟨b, hb⟩ := hsome action.moduleId hprovider
      rw [hb, Option.getD_some] at h
      refine hjudged action.moduleId hprovider (h ▸ hb) ?_
      rcases hm with rfl | ⟨rfl, -⟩
      · -- the owner has no resolver for a type that is a module's
        simp [Env.targetPks, env.resolver_type action.moduleId targets hprovider, env.resolver_asked m targets howner] at hpks
      · rfl
    | false =>
      rw [hnone action.moduleId hprovider, Option.getD_none] at h
      unfold Env.canAccessTargetScope at h
      unfold Env.targetPks at hpks
      split at h
      · cases h
      · simp [RoleScope.reaches, RoleScope.covers, h]
      · simp [RoleScope.reaches, RoleScope.covers, h]
      · rename_i ids heq
        rw [heq] at hpks
        obtain rfl := Option.some.inj hpks
        exact covers_of_client (Bool.and_eq_true_iff.mp h).2 ha hmem
      · rename_i ids heq
        rw [heq] at hpks
        obtain rfl := Option.some.inj hpks
        exact covers_of_site (Bool.and_eq_true_iff.mp h).2 ha hmem
      · rename_i ids heq
        rw [heq] at hpks
        obtain ⟨allowed, hallowed, hall⟩ := (Option.any_eq_true _ _).mp (Bool.and_eq_true_iff.mp h).2
        exact covers_of_endpoint hpks hallowed (by simpa using hall) ha hmem

end Delegation

end TecTac
