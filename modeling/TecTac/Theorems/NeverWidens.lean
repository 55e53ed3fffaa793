import TecTac.DelegationLedger
import TecTac.Lib.History
import TecTac.Lemmas.Delegation
import TecTac.Theorems.OneRun

/-!
# Delegation never widens, and every edit revokes

A run that `start` creates stays inside what was stored when its grant was last confirmed, because the ticket names the grant by a digest of all of it
and of the moment of its last save. A later save has another moment and a removed grant never comes back under its key, so an earlier ticket or marker
no longer fits.
-/

namespace TecTac

namespace Delegation

open Timeline Raise

/-! ## What is assumed and what is said of a step -/

/-- What is assumed of a step: a signature that is right is one that Core made, and the moment of a save is not that of the save before it. -/
structure Fair (core : Core) (clock : Int) (e : Step) (s : Ledger) : Prop where
  genuine : ∀ (p : Purpose) (t : Token), e.presents = .token t → t.signature = core.mac p.bytes t.payload → (p.bytes, t.payload) ∈ s.signed
  stamped : ∀ c, e = .register c → ∀ g ∈ s.grants, g.ownerModule = c.ownerModule → g.grantKey = c.grantKey → g.updatedAt ≠ clock

/-- The grant is the one that its last registration confirmed and stored. -/
structure Confirmed (s : Ledger) (c : RegisterCall) (person : Person) (g : Grant) : Prop where
  last : History.LastOf (Entry.edits g.ownerModule g.grantKey) s.log (.registered c person g)
  asker : c.person = some person
  signed : ∃ body normalized, (Purpose.confirmation.bytes, .obj body) ∈ s.signed ∧
    Dict.get "u" body = some (.str (toString person.id)) ∧ Dict.get "o" body = some (.str g.ownerModule) ∧
    Dict.get "p" body = some (.str g.providerModule) ∧ Dict.get "a" body = some (.str g.actionId) ∧
    Dict.get "q" body = some (digest (parametersOf c.parameters)) ∧
    c.env.normalizeTargets c.targets = .ok normalized ∧ Dict.get "t" body = some (digest normalized) ∧
    c.env.canonicalForUser person normalized = .ok g.targets
  parameters : g.parameters = .obj (dictOf c.parameters)
  scope : g.creationScope = c.env.captureScope person

/-- The run is for endpoints that the grant's targets name and its stored scope reaches, has the grant's parameters and a marker, and its schedule is the
grant's owner's. -/
structure Inside (mac : Mac) (env : Env) (g : Grant) (r : DelegatedRun) (schedule : ScheduleRow) : Prop where
  endpoints : ∃ rows : List Agent, ∃ resolved snapshot,
    r.sys.row.targetsSnapshot = .obj [("type", .str "endpoint"), ("ids", .arr (rows.map fun row => .str row.agentId))] ∧
    env.targetPks g.targets g.ownerModule = some resolved ∧ snapshotOf g.creationScope = some snapshot ∧
    ∀ row ∈ rows, row ∈ env.directory.agents ∧ row.pk ∈ resolved ∧ snapshot.reaches row = true
  parameters : r.sys.row.parametersSnapshot =
    .obj (Dict.set markerKey (Order.tokenJson (sign mac .marker (.obj (Order.markerBody r.snapshotId g)))) (dictOf g.parameters))
  scheduled : schedule.id = r.snapshotId
  owner : schedule.createdById = g.createdById ∧ schedule.createdBy = g.createdByUsername

/-- What no step does: it starts no run outside its grant or with a ticket from before an edit, takes no token for one of another purpose, and gives a grant
to nobody whose own scope does not cover its targets. -/
structure NeverWidens (core : Core) (clock : Int) (e : Step) (s : Ledger) : Prop where
  inside : ∀ c fate, e = .start c fate → ∀ r, (s.start core clock c fate).runs = s.runs ++ [r] → ∃ g ∈ s.grants, ∃ call person schedule,
    Confirmed s call person g ∧ Inside core.mac c.env g r schedule ∧
    (s.start core clock c fate).log = s.log ++ [.started g s.runs.length schedule]
  revoked : ∀ c fate, e = .start c fate → ∀ t g body y, c.ticket = .token t → t.payload = .obj body → History.Before s.log (.ticketed g body) y →
    y.edits g.ownerModule g.grantKey → s.start core clock c fate = s
  onePurpose : ∀ (p p' : Purpose) (t : Token), e.presents = .token t → (p.bytes, t.payload) ∈ s.signed → p' ≠ p → openToken core.mac p' (.token t) = none
  takeover : ∀ g ∈ s.grants, ∀ g' ∈ (s.step core clock e).grants, g'.pk = g.pk →
    (g'.createdById, g'.createdByUsername) ≠ (g.createdById, g.createdByUsername) → ∃ c person, e = .register c ∧ c.person = some person ∧
      g'.createdById = some person.id ∧ CoversTargets c.env (c.env.scope person) g'.ownerModule g'.providerModule g'.targets

/-- No run from before an edit of its grant is a delegated one any more. -/
def RunsRevoked (core : Core) (s : Ledger) : Prop :=
  ∀ g i schedule y, History.Before s.log (.started g i schedule) y → y.edits g.ownerModule g.grantKey → ∀ r, s.runs[i]? = some r →
    runIsValidlyDelegated core.mac s.grants r = false

namespace NeverWidensAux

/-! ## Tokens -/

theorem openToken_eq_some {mac : Mac} {p : Purpose} {x : Presented} {body : List (String × Json)} (h : openToken mac p x = some body) :
    ∃ t, x = .token t ∧ t.payload = .obj body ∧ t.signature = mac p.bytes t.payload := by
  unfold openToken at h
  split at h
  · split at h
    · rename_i hsignature
      split at h
      · cases h
        exact ⟨_, rfl, rfl, hsignature⟩
      · cases h
    · cases h
  · cases h

/-- The fields of the bodies that Core signs. -/
def fieldsOf : Purpose → List String
  | .confirmation => ["a", "o", "p", "q", "t", "u", "x"]
  | .ticket => ["d", "g", "o", "p", "r", "x"]
  | .marker => ["d", "g", "s"]

theorem fieldsOf_injective {p p' : Purpose} (h : fieldsOf p = fieldsOf p') : p = p' := by
  revert h
  cases p <;> cases p' <;> decide

def Shaped (p : Purpose) (payload : Json) : Prop := ∃ body, payload = .obj body ∧ body.map Prod.fst = fieldsOf p

theorem confirmationBody_ok {a : Asked} {person : Person} {body : List (String × Json)} (h : a.confirmationBody person = .ok body) :
    ∃ normalized, a.env.normalizeTargets a.targets = .ok normalized ∧
      body = [("a", .str a.actionId), ("o", .str a.ownerModule), ("p", .str a.providerModule), ("q", digest (parametersOf a.parameters)),
        ("t", digest normalized), ("u", .str (toString person.id))] := by
  unfold Asked.confirmationBody at h
  obtain ⟨normalized, hnormalized, h⟩ := bind_ok h
  exact ⟨normalized, lift_ok hnormalized, (Except.ok.inj h).symm⟩

theorem shaped_describe {a : Asked} {clock : Int} {body : List (String × Json)} (h : a.describe clock = .ok body) :
    Shaped .confirmation (.obj body) := by
  unfold Asked.describe at h
  obtain ⟨⟨person, action⟩, -, h⟩ := bind_ok h
  obtain ⟨body', hbody, h⟩ := bind_ok h
  obtain ⟨normalized, -, rfl⟩ := confirmationBody_ok hbody
  cases h
  exact ⟨_, rfl, rfl⟩

/-! ## What every state keeps -/

/-- What a run's parameters have under the key of the marker. -/
def markerOf (r : DelegatedRun) : Option Json := Dict.get markerKey (dictOf r.sys.row.parametersSnapshot)

/-- The invariant of the ledger. -/
structure Sound (core : Core) (clock : Int) (s : Ledger) : Prop where
  pks : ∀ g ∈ s.grants, ∀ g' ∈ s.grants, g.pk = g'.pk → g = g'
  keys : ∀ g ∈ s.grants, ∀ g' ∈ s.grants, g.ownerModule = g'.ownerModule → g.grantKey = g'.grantKey → g = g'
  past : ∀ g ∈ s.grants, g.updatedAt ≤ clock
  given : ∀ x ∈ s.log, x.grant.pk ∈ s.given
  shape : ∀ p payload, (Purpose.bytes p, payload) ∈ s.signed → Shaped p payload
  stored : ∀ g ∈ s.grants, ∃ c person, Confirmed s c person g
  known : ∀ x ∈ s.log, ∀ g ∈ s.grants, g.pk = x.grant.pk →
    g.ownerModule = x.grant.ownerModule ∧ g.grantKey = x.grant.grantKey ∧ x.grant.updatedAt ≤ g.updatedAt
  revoked : ∀ x y, History.Before s.log x y → y.edits x.grant.ownerModule x.grant.grantKey → ∀ g ∈ s.grants, g.pk = x.grant.pk →
    x.grant.updatedAt < g.updatedAt
  tickets : ∀ g body, .ticketed g body ∈ s.log → Dict.get "d" body = some (grantDigest g) ∧ Dict.get "g" body = some (.str g.pk)
  marked : ∀ g i schedule, .started g i schedule ∈ s.log → ∃ r, s.runs[i]? = some r ∧
    markerOf r = some (Order.tokenJson (sign core.mac .marker (.obj (Order.markerBody r.snapshotId g))))

variable {core : Core} {clock : Int} {s : Ledger}

theorem sound_fresh (core : Core) (clock : Int) : Sound core clock Ledger.fresh := by
  constructor <;> simp [Ledger.fresh, History.Before]

theorem Sound.later (h : Sound core clock s) (w : Nat) : Sound core (clock + w) s :=
  { h with past := fun g hg => by have := h.past g hg; omega }

/-- What is stored of a confirmation stays when the log and the signed texts only grow. -/
theorem confirmed_grow {s s' : Ledger} {c : RegisterCall} {person : Person} {g : Grant} (h : Confirmed s c person g)
    (hlast : History.LastOf (Entry.edits g.ownerModule g.grantKey) s'.log (.registered c person g)) (hsigned : s.signed ⊆ s'.signed) :
    Confirmed s' c person g := by
  obtain ⟨body, normalized, hbody, hfields⟩ := h.signed
  exact { h with last := hlast, signed := ⟨body, normalized, hsigned hbody, hfields⟩ }

theorem Sound.given_of_mem (h : Sound core clock s) {g : Grant} (hg : g ∈ s.grants) : g.pk ∈ s.given := by
  obtain ⟨c, person, hc⟩ := h.stored g hg
  exact h.given _ hc.last.mem

/-- A step that changes no grant and adds nothing to the log. -/
theorem Sound.frame (h : Sound core clock s) {s' : Ledger} (hgrants : s'.grants = s.grants) (hlog : s'.log = s.log) (hgiven : s.given ⊆ s'.given)
    (hsigned : s.signed ⊆ s'.signed) (hshape : ∀ p payload, (Purpose.bytes p, payload) ∈ s'.signed → Shaped p payload)
    (hruns : ∀ (i : Nat) (r : DelegatedRun), s.runs[i]? = some r → ∃ r', s'.runs[i]? = some r' ∧ r'.snapshotId = r.snapshotId ∧ markerOf r' = markerOf r) :
    Sound core clock s' where
  pks := by rw [hgrants]; exact h.pks
  keys := by rw [hgrants]; exact h.keys
  past := by rw [hgrants]; exact h.past
  given := by rw [hlog]; exact fun x hx => hgiven (h.given x hx)
  shape := hshape
  stored := by
    rw [hgrants]
    intro g hg
    obtain ⟨c, person, hc⟩ := h.stored g hg
    exact ⟨c, person, confirmed_grow hc (by rw [hlog]; exact hc.last) hsigned⟩
  known := by rw [hgrants, hlog]; exact h.known
  revoked := by rw [hgrants, hlog]; exact h.revoked
  tickets := by rw [hlog]; exact h.tickets
  marked := by
    rw [hlog]
    intro g i schedule hx
    obtain ⟨r, hr, hmarker⟩ := h.marked g i schedule hx
    obtain ⟨r', hr', hid, hsame⟩ := hruns i r hr
    exact ⟨r', hr', by rw [hsame, hid, hmarker]⟩

theorem Sound.signed (h : Sound core clock s) {p : Purpose} {body : List (String × Json)} (hbody : Shaped p (.obj body)) :
    Sound core clock (s.sign p body) := by
  refine h.frame rfl rfl (List.Subset.refl _) (List.subset_append_left _ _) ?_ fun i r hr => ⟨r, hr, rfl, rfl⟩
  intro p' payload hmem
  rcases List.mem_append.mp hmem with hmem | hmem
  · exact h.shape p' payload hmem
  · obtain ⟨hp, rfl⟩ := Prod.mk.inj (List.mem_singleton.mp hmem)
    rwa [Purpose.bytes_injective hp]

/-- An entry that is no edit, of a grant as it is stored. -/
theorem Sound.noted (h : Sound core clock s) {x : Entry} (hx : ∀ m k, ¬ x.edits m k) (hg : x.grant ∈ s.grants) (hgiven : x.grant.pk ∈ s.given)
    (hticket : ∀ g body, x = .ticketed g body → Dict.get "d" body = some (grantDigest g) ∧ Dict.get "g" body = some (.str g.pk))
    (hstarted : ∀ g i schedule, x = .started g i schedule → ∃ r, s.runs[i]? = some r ∧
      markerOf r = some (Order.tokenJson (sign core.mac .marker (.obj (Order.markerBody r.snapshotId g))))) :
    Sound core clock (s.note x) where
  pks := h.pks
  keys := h.keys
  past := h.past
  given := by
    intro y hy
    rcases List.mem_append.mp hy with hy | hy
    · exact h.given y hy
    · rwa [List.mem_singleton.mp hy]
  shape := h.shape
  stored := by
    intro g hg
    obtain ⟨c, person, hc⟩ := h.stored g hg
    exact ⟨c, person, confirmed_grow hc (hc.last.concat (hx _ _)) (List.Subset.refl _)⟩
  known := by
    intro y hy g hmem hpk
    rcases List.mem_append.mp hy with hy | hy
    · exact h.known y hy g hmem hpk
    · rw [List.mem_singleton.mp hy] at hpk ⊢
      rw [h.pks g hmem _ hg hpk]
      exact ⟨rfl, rfl, le_refl _⟩
  revoked := by
    intro y z hbefore hedits g hmem hpk
    rcases History.before_concat hbefore with hbefore | ⟨-, rfl⟩
    · exact h.revoked y z hbefore hedits g hmem hpk
    · exact absurd hedits (hx _ _)
  tickets := by
    intro g body hmem
    rcases List.mem_append.mp hmem with hmem | hmem
    · exact h.tickets g body hmem
    · exact hticket g body (List.mem_singleton.mp hmem).symm
  marked := by
    intro g i schedule hmem
    rcases List.mem_append.mp hmem with hmem | hmem
    · exact h.marked g i schedule hmem
    · exact hstarted g i schedule (List.mem_singleton.mp hmem).symm

/-! ## The steps that edit a grant -/

theorem mem_saveGrant {g x : Grant} {grants : List Grant} (h : x ∈ saveGrant g grants) : x = g ∨ x ∈ grants ∧ x.pk ≠ g.pk := by
  unfold saveGrant at h
  split at h
  · obtain ⟨old, hold, rfl⟩ := List.mem_map.mp h
    split
    · exact .inl rfl
    · rename_i hne
      exact .inr ⟨hold, hne⟩
  · rename_i hany
    have hnone : ∀ x ∈ grants, x.pk ≠ g.pk := by simpa using hany
    rcases List.mem_append.mp h with hmem | hmem
    · exact .inr ⟨hmem, hnone x hmem⟩
    · exact .inl (List.mem_singleton.mp hmem)

/-- The row that a registration writes: where it stands, and what it keeps of the row that was there. -/
structure Placed (s : Ledger) (c : RegisterCall) (clock : Int) (g : Grant) : Prop where
  module : g.ownerModule = c.ownerModule
  key : g.grantKey = c.grantKey
  moment : g.updatedAt = clock
  place : (∀ g' ∈ s.grants, g'.ownerModule = c.ownerModule → g'.grantKey ≠ c.grantKey) ∧ g.pk ∉ s.given ∨
    ∃ old ∈ s.grants, old.ownerModule = c.ownerModule ∧ old.grantKey = c.grantKey ∧ g.pk = old.pk

theorem register_cases (core : Core) (clock : Int) (c : RegisterCall) (s : Ledger) :
    s.register core clock c = s ∨ ∃ person g, Registered core.mac clock c s.grants person g ∧ Placed s c clock g ∧
      s.register core clock c = { s with grants := saveGrant g s.grants, given := g.pk :: s.given }.note (.registered c person g) := by
  unfold Ledger.register
  split
  · rename_i person g hperson hregister
    split
    · exact .inl rfl
    · rename_i hfresh
      obtain ⟨person', hregistered⟩ := register_spec hregister
      obtain rfl : person' = person := Option.some.inj (hregistered.asker.symm.trans hperson)
      refine .inr ⟨person', g, hregistered, ?_, rfl⟩
      obtain ⟨action, normalized, canonical, base, -, -, -, hclaimed, rfl⟩ := hregistered.saved
      obtain ⟨hmodule, hkey, ⟨hnone, hpk⟩ | ⟨old, hsome, hpk, -⟩⟩ := claimed_cases hclaimed
      · refine ⟨hmodule, hkey, rfl, .inl ⟨fun g' hg' hm => findGrant_eq_none hnone hg' hm, ?_⟩⟩
        change base.pk ∉ s.given
        rw [hpk]
        simpa [hnone] using hfresh
      · obtain ⟨hold, hm, hk⟩ := findGrant_eq_some hsome
        exact ⟨hmodule, hkey, rfl, .inr ⟨old, hold, hm, hk, hpk⟩⟩
  · exact .inl rfl

/-- A grant beside the one that is written has another key. -/
theorem Placed.other {c : RegisterCall} {g g' : Grant} (h : Placed s c clock g) (hs : Sound core clock s) (hg' : g' ∈ s.grants) (hpk : g'.pk ≠ g.pk) :
    ¬ (g'.ownerModule = g.ownerModule ∧ g'.grantKey = g.grantKey) := by
  rintro ⟨hm, hk⟩
  rw [h.module] at hm
  rw [h.key] at hk
  rcases h.place with ⟨hnone, -⟩ | ⟨old, hold, hm', hk', hpk'⟩
  · exact hnone g' hg' hm hk
  · rw [hs.keys g' hg' old hold (hm.trans hm'.symm) (hk.trans hk'.symm)] at hpk
    exact hpk hpk'.symm

/-- What a registration stores is what the person confirmed. -/
theorem confirmed_of_registered {c : RegisterCall} {person : Person} {g : Grant} (hfair : Fair core clock (.register c) s)
    (h : Registered core.mac clock c s.grants person g) {s' : Ledger}
    (hlast : History.LastOf (Entry.edits g.ownerModule g.grantKey) s'.log (.registered c person g)) (hsigned : s.signed ⊆ s'.signed) :
    Confirmed s' c person g := by
  obtain ⟨body, wanted, hopen, hwanted, hall⟩ := h.confirmed
  obtain ⟨normalized, hnormalized, rfl⟩ := confirmationBody_ok hwanted
  obtain ⟨action, normalized', canonical, base, -, hnormalized', hcanonical, hclaimed, rfl⟩ := h.saved
  obtain rfl : normalized = normalized' := Except.ok.inj (hnormalized.symm.trans hnormalized')
  obtain ⟨hmodule, -, -⟩ := claimed_cases hclaimed
  obtain ⟨t, htoken, hpayload, hsignature⟩ := openToken_eq_some hopen
  have hmem := hfair.genuine .confirmation t htoken hsignature
  rw [hpayload] at hmem
  simp only [List.forall_mem_cons] at hall
  obtain ⟨ha, ho, hp, hq, ht, hu, -⟩ := hall
  refine ⟨hlast, h.asker, ⟨body, normalized, hsigned hmem, hu, ?_, hp, ha, hq, hnormalized, ht, hcanonical⟩, rfl, rfl⟩
  rw [ho]
  exact congrArg (fun m => some (Json.str m)) hmodule.symm

/-- Every earlier entry of the row that is written is of an earlier moment. -/
theorem before_of_placed {c : RegisterCall} {g : Grant} (h : Sound core clock s) (hfair : Fair core clock (.register c) s) (hplaced : Placed s c clock g)
    {x : Entry} (hx : x ∈ s.log) (hpk : g.pk = x.grant.pk) :
    g.ownerModule = x.grant.ownerModule ∧ g.grantKey = x.grant.grantKey ∧ x.grant.updatedAt < g.updatedAt := by
  rcases hplaced.place with ⟨-, hnew⟩ | ⟨old, hold, hm, hk, hpk'⟩
  · exact absurd (hpk ▸ h.given x hx) hnew
  · obtain ⟨hm', hk', hle⟩ := h.known x hx old hold (hpk'.symm.trans hpk)
    have hpast := h.past old hold
    have hne := hfair.stamped c rfl old hold hm hk
    have hmoment := hplaced.moment
    exact ⟨hplaced.module.trans (hm.symm.trans hm'), hplaced.key.trans (hk.symm.trans hk'), by omega⟩

theorem Sound.registered (h : Sound core clock s) {c : RegisterCall} {person : Person} {g : Grant} (hfair : Fair core clock (.register c) s)
    (hregistered : Registered core.mac clock c s.grants person g) (hplaced : Placed s c clock g) :
    Sound core clock ({ s with grants := saveGrant g s.grants, given := g.pk :: s.given }.note (.registered c person g)) where
  pks := by
    intro a ha b hb hpk
    rcases mem_saveGrant ha with ha' | ⟨ha', hane⟩ <;> rcases mem_saveGrant hb with hb' | ⟨hb', hbne⟩
    · rw [ha', hb']
    · exact absurd (hpk.symm.trans (congrArg Grant.pk ha')) hbne
    · exact absurd (hpk.trans (congrArg Grant.pk hb')) hane
    · exact h.pks a ha' b hb' hpk
  keys := by
    intro a ha b hb hm hk
    rcases mem_saveGrant ha with ha' | ⟨ha', hane⟩ <;> rcases mem_saveGrant hb with hb' | ⟨hb', hbne⟩
    · rw [ha', hb']
    · exact absurd ⟨hm.symm.trans (congrArg Grant.ownerModule ha'), hk.symm.trans (congrArg Grant.grantKey ha')⟩ (hplaced.other h hb' hbne)
    · exact absurd ⟨hm.trans (congrArg Grant.ownerModule hb'), hk.trans (congrArg Grant.grantKey hb')⟩ (hplaced.other h ha' hane)
    · exact h.keys a ha' b hb' hm hk
  past := by
    intro a ha
    rcases mem_saveGrant ha with rfl | ⟨ha, -⟩
    · exact le_of_eq hplaced.moment
    · exact h.past a ha
  given := by
    intro x hx
    rcases List.mem_append.mp hx with hx | hx
    · exact List.mem_cons_of_mem _ (h.given x hx)
    · rw [List.mem_singleton.mp hx]
      exact List.mem_cons_self
  shape := h.shape
  stored := by
    intro a ha
    rcases mem_saveGrant ha with rfl | ⟨ha, hane⟩
    · exact ⟨c, person, confirmed_of_registered hfair hregistered History.lastOf_concat_self (List.Subset.refl _)⟩
    · obtain ⟨c', person', hc⟩ := h.stored a ha
      refine ⟨c', person', confirmed_grow hc (hc.last.concat ?_) (List.Subset.refl _)⟩
      rintro ⟨hm, hk⟩
      exact hplaced.other h ha hane ⟨hm.symm, hk.symm⟩
  known := by
    intro x hx a ha hpk
    rcases List.mem_append.mp hx with hx | hx
    · rcases mem_saveGrant ha with rfl | ⟨ha, -⟩
      · obtain ⟨hm, hk, hlt⟩ := before_of_placed h hfair hplaced hx hpk
        exact ⟨hm, hk, le_of_lt hlt⟩
      · exact h.known x hx a ha hpk
    · rw [List.mem_singleton.mp hx] at hpk ⊢
      rcases mem_saveGrant ha with rfl | ⟨-, hane⟩
      · exact ⟨rfl, rfl, le_refl _⟩
      · exact absurd hpk hane
  revoked := by
    intro x y hbefore hedits a ha hpk
    rcases History.before_concat hbefore with hbefore | ⟨hx, rfl⟩
    · rcases mem_saveGrant ha with rfl | ⟨ha, -⟩
      · exact (before_of_placed h hfair hplaced hbefore.mem hpk).2.2
      · exact h.revoked x y hbefore hedits a ha hpk
    · rcases mem_saveGrant ha with rfl | ⟨ha, hane⟩
      · exact (before_of_placed h hfair hplaced hx hpk).2.2
      · obtain ⟨hm, hk, -⟩ := h.known x hx a ha hpk
        exact absurd ⟨hm.trans hedits.1.symm, hk.trans hedits.2.symm⟩ (hplaced.other h ha hane)
  tickets := by
    intro g' body hmem
    rcases List.mem_append.mp hmem with hmem | hmem
    · exact h.tickets g' body hmem
    · cases List.mem_singleton.mp hmem
  marked := by
    intro g' i schedule hmem
    rcases List.mem_append.mp hmem with hmem | hmem
    · exact h.marked g' i schedule hmem
    · cases List.mem_singleton.mp hmem

theorem remove_cases (env : Env) (ownerModule grantKey : String) (s : Ledger) :
    s.remove env ownerModule grantKey = s ∨ ∃ g ∈ s.grants,
      s.remove env ownerModule grantKey = { s with grants := s.grants.filter fun old => old.pk != g.pk }.note (.removed g) := by
  unfold Ledger.remove
  split
  · rename_i g hremove
    refine .inr ⟨g, ?_, rfl⟩
    unfold Delegation.remove at hremove
    obtain ⟨u, -, hremove⟩ := bind_ok hremove
    obtain ⟨u, -, hremove⟩ := bind_ok hremove
    obtain ⟨u, -, hremove⟩ := bind_ok hremove
    split at hremove
    · cases hremove
    · rename_i g' hfound
      obtain ⟨u, -, hremove⟩ := bind_ok hremove
      cases hremove
      exact (findGrant_eq_some hfound).1
  · exact .inl rfl

theorem Sound.removed (h : Sound core clock s) {g : Grant} (hg : g ∈ s.grants) :
    Sound core clock ({ s with grants := s.grants.filter fun old => old.pk != g.pk }.note (.removed g)) := by
  have hkept : ∀ a ∈ s.grants.filter fun old => old.pk != g.pk, a ∈ s.grants ∧ a.pk ≠ g.pk := by
    intro a ha
    simpa using ha
  have hother : ∀ a ∈ s.grants, a.pk ≠ g.pk → ¬ (g.ownerModule = a.ownerModule ∧ g.grantKey = a.grantKey) := by
    rintro a ha hne ⟨hm, hk⟩
    exact hne (congrArg Grant.pk (h.keys a ha g hg hm.symm hk.symm))
  exact {
    pks := fun a ha b hb => h.pks a (hkept a ha).1 b (hkept b hb).1
    keys := fun a ha b hb => h.keys a (hkept a ha).1 b (hkept b hb).1
    past := fun a ha => h.past a (hkept a ha).1
    given := by
      intro x hx
      rcases List.mem_append.mp hx with hx | hx
      · exact h.given x hx
      · rw [List.mem_singleton.mp hx]
        exact h.given_of_mem hg
    shape := h.shape
    stored := by
      intro a ha
      obtain ⟨ha, hne⟩ := hkept a ha
      obtain ⟨c, person, hc⟩ := h.stored a ha
      exact ⟨c, person, confirmed_grow hc (hc.last.concat (hother a ha hne)) (List.Subset.refl _)⟩
    known := by
      intro x hx a ha hpk
      obtain ⟨ha, hne⟩ := hkept a ha
      rcases List.mem_append.mp hx with hx | hx
      · exact h.known x hx a ha hpk
      · rw [List.mem_singleton.mp hx] at hpk
        exact absurd hpk hne
    revoked := by
      intro x y hbefore hedits a ha hpk
      obtain ⟨ha, hne⟩ := hkept a ha
      rcases History.before_concat hbefore with hbefore | ⟨hx, rfl⟩
      · exact h.revoked x y hbefore hedits a ha hpk
      · obtain ⟨hm, hk, -⟩ := h.known x hx a ha hpk
        exact absurd ⟨hedits.1.trans hm.symm, hedits.2.trans hk.symm⟩ (hother a ha hne)
    tickets := by
      intro g' body hmem
      rcases List.mem_append.mp hmem with hmem | hmem
      · exact h.tickets g' body hmem
      · cases List.mem_singleton.mp hmem
    marked := by
      intro g' i schedule hmem
      rcases List.mem_append.mp hmem with hmem | hmem
      · exact h.marked g' i schedule hmem
      · cases List.mem_singleton.mp hmem }

/-! ## Tickets and runs -/

theorem Sound.issued (h : Sound core clock s) (env : Env) (run : Option (String × String)) (grantKey : String) :
    Sound core clock (s.issueTicket clock env run grantKey) := by
  unfold Ledger.issueTicket
  split
  · rename_i g body hissued
    obtain ⟨runId, m, hg, rfl⟩ : ∃ runId m, g ∈ s.grants ∧ body = ticketBody runId g m clock := by
      unfold Delegation.issueTicket at hissued
      split at hissued
      · cases hissued
      · obtain ⟨u, -, hissued⟩ := bind_ok hissued
        obtain ⟨u, -, hissued⟩ := bind_ok hissued
        split at hissued
        · cases hissued
        · rename_i g' hfound
          obtain ⟨u, -, hissued⟩ := bind_ok hissued
          cases hissued
          exact ⟨_, _, (findGrant_eq_some hfound).1, rfl⟩
    have hsigned : Sound core clock (s.sign .ticket (ticketBody runId g m clock)) := h.signed ⟨_, rfl, rfl⟩
    refine hsigned.noted (fun _ _ hedits => hedits) hg (h.given_of_mem hg) ?_ ?_
    · intro g' body' heq
      obtain ⟨rfl, rfl⟩ := Entry.ticketed.inj heq
      exact ⟨rfl, rfl⟩
    · intro g' i schedule heq
      exact absurd heq (by simp)
  · exact h

/-- What `create` adds: the run, its marker and its entry. -/
theorem create_eq (core : Core) (clock : Int) (o : Order) (fate : StartFate) (s : Ledger) :
    ∃ r : DelegatedRun, r.snapshotId = fate.scheduleId ∧ r.sys.row.targetsSnapshot = o.targets ∧
      r.sys.row.parametersSnapshot = o.parameters core.mac fate.scheduleId ∧ ∃ schedules,
      s.create core clock o fate = ({ s with schedules, runs := s.runs ++ [r], given := fate.scheduleId :: s.given }.sign .marker
        (Order.markerBody fate.scheduleId o.grant)).note (.started o.grant s.runs.length (o.schedule core.mac core.uuid fate.scheduleId clock)) := by
  refine ⟨_, rfl, ?_, ?_, _, rfl⟩
  · split <;> rfl
  · split <;> rfl

theorem markerOf_parameters {mac : Mac} {id : String} {o : Order} {r : DelegatedRun} (h : r.sys.row.parametersSnapshot = o.parameters mac id) :
    markerOf r = some (Order.tokenJson (sign mac .marker (.obj (Order.markerBody id o.grant)))) := by
  rw [markerOf, h, Order.parameters, dictOf, Dict.get_set_self]

theorem Sound.created (h : Sound core clock s) {o : Order} (ho : o.grant ∈ s.grants) (fate : StartFate) :
    Sound core clock (s.create core clock o fate) := by
  obtain ⟨r, hid, -, hparameters, schedules, heq⟩ := create_eq core clock o fate s
  rw [heq]
  have hframe : Sound core clock { s with schedules, runs := s.runs ++ [r], given := fate.scheduleId :: s.given } :=
    h.frame rfl rfl (List.subset_cons_self _ _) (List.Subset.refl _) h.shape fun i r' hr' => by
      refine ⟨r', ?_, rfl, rfl⟩
      exact List.getElem?_append_left (List.getElem?_eq_some_iff.mp hr').1 ▸ hr'
  have hshape : Shaped .marker (.obj (Order.markerBody fate.scheduleId o.grant)) := ⟨_, rfl, rfl⟩
  have hsigned := hframe.signed hshape
  refine hsigned.noted (fun _ _ hedits => hedits) ho (List.mem_cons_of_mem _ (h.given_of_mem ho)) ?_ ?_
  · intro g body heq
    exact absurd heq (by simp)
  · intro g i schedule heq
    obtain ⟨rfl, rfl, -⟩ := Entry.started.inj heq
    exact ⟨r, by simp [Ledger.sign], by rw [hid]; exact markerOf_parameters hparameters⟩

/-- Steps of the workers write no run's marker. -/
theorem Sound.setRun (h : Sound core clock s) (i : Nat) {f : RunSys → RunSys} (hf : ∀ r, (f r).row.parametersSnapshot = r.row.parametersSnapshot) :
    Sound core clock (s.setRun i f) := by
  refine h.frame rfl rfl (List.Subset.refl _) (List.Subset.refl _) h.shape fun j r hr => ?_
  by_cases hij : i = j
  · subst hij
    exact ⟨{ r with sys := f r.sys }, by simp [Ledger.setRun, hr], rfl, by simp [markerOf, hf]⟩
  · exact ⟨r, by simp [Ledger.setRun, hij, hr], rfl, rfl⟩

theorem Sound.started (h : Sound core clock s) (c : StartCall) (fate : StartFate) : Sound core clock (s.start core clock c fate) := by
  unfold Ledger.start
  split
  · exact h
  · rename_i o hprepare
    split
    · unfold Ledger.answer
      split
      · exact h
      · split
        · exact h
        · refine h.setRun _ fun r => ?_
          split
          · split <;> rfl
          · rfl
    · split
      · exact h.created (grantOf_eq_some (prepare_spec hprepare).grant).1 fate
      · exact h

theorem Sound.step (h : Sound core clock s) {e : Step} (hfair : Fair core clock e s) : Sound core clock (s.step core clock e) := by
  cases e with
  | describe a =>
    simp only [Ledger.step]
    split
    · rename_i body hbody
      exact h.signed (shaped_describe hbody)
    · exact h
  | register c =>
    rcases register_cases core clock c s with heq | ⟨person, g, hregistered, hplaced, heq⟩
    · simpa only [Ledger.step, heq] using h
    · simpa only [Ledger.step, heq] using h.registered hfair hregistered hplaced
  | remove env m k =>
    rcases remove_cases env m k s with heq | ⟨g, hg, heq⟩
    · simpa only [Ledger.step, heq] using h
    · simpa only [Ledger.step, heq] using h.removed hg
  | issueTicket env run k => exact h.issued env run k
  | start c fate => exact h.started c fate
  | run i a =>
    have hact : ∀ a : RunAct, a ≠ .forceDelete → Sound core clock (s.setRun i fun r => (r.act core.timeouts clock a).1) := by
      intro a ha
      refine h.setRun i fun r => ?_
      have := RunSys.identity_act core.timeouts clock ha r
      simp only [RunRow.identity, Prod.mk.injEq] at this
      exact this.2.2.2.2.2
    cases a with
    | forceDelete => exact h
    | _ => exact hact _ (by simp)
  | judge r => exact h
  | delete id =>
    refine h.frame rfl rfl (List.Subset.refl _) (List.Subset.refl _) h.shape fun j r hr => ?_
    refine ⟨_, by simp only [Ledger.step, List.getElem?_map, hr, Option.map_some]; rfl, ?_, ?_⟩
    · split <;> rfl
    · split <;> rfl

/-! ## What follows from it -/

theorem runsRevoked (h : Sound core clock s) : RunsRevoked core s := by
  intro g i schedule y hbefore hedits r hr
  obtain ⟨r', hr', hmarker⟩ := h.marked g i schedule hbefore.mem
  obtain rfl : r' = r := Option.some.inj (hr'.symm.trans hr)
  have hopen : openToken core.mac .marker (Order.presented ((Dict.get markerKey (dictOf r'.sys.row.parametersSnapshot)).getD .null)) =
      some (Order.markerBody r'.snapshotId g) := by
    rw [markerOf] at hmarker
    rw [hmarker]
    exact if_pos rfl
  simp only [runIsValidlyDelegated, hopen]
  rw [Bool.and_eq_false_iff]
  right
  split
  · rfl
  · rename_i g' hg'
    obtain ⟨hmem, hpk⟩ := grantOf_eq_some hg'
    have hpk : g'.pk = g.pk := by simpa [Order.markerBody, Dict.get] using hpk.symm
    have hlt := h.revoked _ y hbefore hedits g' hmem hpk
    -- the digest of the marker shows the moment at which the grant was saved
    have hdigest : Dict.get "d" (Order.markerBody r'.snapshotId g) ≠ some (grantDigest g') := by
      intro heq
      have := updatedAt_eq_of_grantDigest (Option.some.inj heq)
      simp only [Entry.grant] at hlt
      omega
    simp [hdigest]

theorem start_runs (core : Core) (clock : Int) (c : StartCall) (fate : StartFate) (s : Ledger) :
    (s.start core clock c fate).runs.length = s.runs.length ∨
      ∃ o, c.prepare core.mac clock s.grants = .ok o ∧ s.start core clock c fate = s.create core clock o fate := by
  unfold Ledger.start
  split
  · exact .inl rfl
  · rename_i o hprepare
    split
    · unfold Ledger.answer
      split
      · exact .inl rfl
      · split
        · exact .inl rfl
        · exact .inl (by simp [Ledger.setRun])
    · split
      · exact .inr ⟨o, hprepare, rfl⟩
      · exact .inl rfl

theorem inside_start (h : Sound core clock s) {c : StartCall} {fate : StartFate} {r : DelegatedRun}
    (hr : (s.start core clock c fate).runs = s.runs ++ [r]) : ∃ g ∈ s.grants, ∃ call person schedule,
      Confirmed s call person g ∧ Inside core.mac c.env g r schedule ∧
      (s.start core clock c fate).log = s.log ++ [.started g s.runs.length schedule] := by
  rcases start_runs core clock c fate s with hlength | ⟨o, hprepare, heq⟩
  · rw [hr] at hlength
    simp at hlength
  · have hp := prepare_spec hprepare
    obtain ⟨r', hid, htargets, hparameters, schedules, hcreate⟩ := create_eq core clock o fate s
    have hmem := (grantOf_eq_some hp.grant).1
    obtain ⟨call, person, hconfirmed⟩ := h.stored o.grant hmem
    obtain ⟨snapshot, hsnapshot, hreaches⟩ := hp.scope
    obtain ⟨resolved, hresolved, hpks⟩ := hp.targets
    rw [heq, hcreate] at hr ⊢
    obtain rfl : r' = r := List.singleton_inj.mp (List.append_cancel_left hr)
    refine ⟨o.grant, hmem, call, person, _, hconfirmed, ⟨?_, ?_, hid.symm, rfl, rfl⟩, rfl⟩
    · exact ⟨o.rows, resolved, snapshot, htargets, hresolved, hsnapshot, fun row hrow => ⟨hp.rows row hrow, hpks row hrow, hreaches row hrow⟩⟩
    · rw [hparameters, hid]
      rfl

theorem revoked_start (h : Sound core clock s) {c : StartCall} (fate : StartFate) {t : Token} {g : Grant} {body : List (String × Json)} {y : Entry}
    (hticket : c.ticket = .token t) (hpayload : t.payload = .obj body) (hbefore : History.Before s.log (.ticketed g body) y)
    (hedits : y.edits g.ownerModule g.grantKey) : s.start core clock c fate = s := by
  unfold Ledger.start
  split
  · rfl
  · rename_i o hprepare
    have hp := prepare_spec hprepare
    obtain ⟨t', ht', hbody, -⟩ := openToken_eq_some hp.opened
    obtain rfl : t = t' := Presented.token.inj (hticket.symm.trans ht')
    obtain rfl : body = o.body := Json.obj.inj (hpayload.symm.trans hbody)
    obtain ⟨hd, hg⟩ := h.tickets g o.body hbefore.mem
    obtain ⟨hmem, hpk⟩ := grantOf_eq_some hp.grant
    have hpk : o.grant.pk = g.pk := by simpa [hg] using hpk.symm
    have hlt := h.revoked _ y hbefore hedits o.grant hmem hpk
    have := updatedAt_eq_of_grantDigest (Option.some.inj (hd.symm.trans hp.digest))
    simp only [Entry.grant] at hlt
    omega

theorem one_purpose (h : Sound core clock s) {e : Step} (hfair : Fair core clock e s) {p p' : Purpose} {t : Token} (ht : e.presents = .token t)
    (hsigned : (p.bytes, t.payload) ∈ s.signed) (hne : p' ≠ p) : openToken core.mac p' (.token t) = none := by
  rcases hopen : openToken core.mac p' (.token t) with - | body
  · rfl
  · obtain ⟨t', ht', -, hsignature⟩ := openToken_eq_some hopen
    cases ht'
    obtain ⟨body, hbody, hfields⟩ := h.shape p _ hsigned
    obtain ⟨body', hbody', hfields'⟩ := h.shape p' _ (hfair.genuine p' t ht hsignature)
    obtain rfl := Json.obj.inj (hbody.symm.trans hbody')
    exact absurd (fieldsOf_injective (hfields'.symm.trans hfields)) hne

theorem grants_step (core : Core) (clock : Int) {e : Step} (he : ∀ c, e ≠ .register c) (s : Ledger) : (s.step core clock e).grants ⊆ s.grants := by
  cases e with
  | register c => exact absurd rfl (he c)
  | describe a =>
    simp only [Ledger.step]
    split <;> exact List.Subset.refl _
  | remove env m k =>
    rcases remove_cases env m k s with heq | ⟨g, -, heq⟩
    · simp only [Ledger.step, heq]
      exact List.Subset.refl _
    · simp only [Ledger.step, heq]
      exact List.filter_sublist.subset
  | issueTicket env run k =>
    simp only [Ledger.step, Ledger.issueTicket]
    split <;> exact List.Subset.refl _
  | start c fate =>
    simp only [Ledger.step, Ledger.start]
    split
    · exact List.Subset.refl _
    · split
      · unfold Ledger.answer
        split
        · exact List.Subset.refl _
        · split <;> exact List.Subset.refl _
      · split <;> exact List.Subset.refl _
  | run i a => cases a <;> exact List.Subset.refl _
  | judge r => exact List.Subset.refl _
  | delete id => exact List.Subset.refl _

theorem takeover_covered (h : Sound core clock s) {e : Step} {g g' : Grant} (hg : g ∈ s.grants)
    (hg' : g' ∈ (s.step core clock e).grants) (hpk : g'.pk = g.pk)
    (howner : (g'.createdById, g'.createdByUsername) ≠ (g.createdById, g.createdByUsername)) :
    ∃ c person, e = .register c ∧ c.person = some person ∧ g'.createdById = some person.id ∧
      CoversTargets c.env (c.env.scope person) g'.ownerModule g'.providerModule g'.targets := by
  have hold : g' ∉ s.grants := by
    intro hmem
    rw [h.pks g' hmem g hg hpk] at howner
    exact howner rfl
  by_cases he : ∃ c, e = .register c
  · obtain ⟨c, rfl⟩ := he
    rcases register_cases core clock c s with heq | ⟨person, new, hregistered, hplaced, heq⟩
    · rw [Ledger.step, heq] at hg'
      exact absurd hg' hold
    · rw [Ledger.step, heq] at hg'
      rcases mem_saveGrant hg' with rfl | ⟨hmem, -⟩
      · obtain ⟨action, normalized, canonical, base, haction, -, -, hclaimed, rfl⟩ := hregistered.saved
        obtain ⟨hmodule, -, ⟨hnone, hnew⟩ | ⟨old, hsome, hbase, rfl | ⟨rfl, hcovered⟩⟩⟩ := claimed_cases hclaimed
        · rcases hplaced.place with ⟨-, hfresh⟩ | ⟨old, hmem, hm, hk, -⟩
          · exact absurd (hpk ▸ h.given_of_mem hg) hfresh
          · exact absurd hk (findGrant_eq_none hnone hmem hm)
        · rw [h.pks base (findGrant_eq_some hsome).1 g hg hpk] at howner
          exact absurd rfl howner
        · refine ⟨c, person, rfl, hregistered.asker, rfl, ?_⟩
          have hcovers := covers_of_takeover hcovered
          rw [providerAction_module haction] at hcovers
          change CoversTargets c.env (c.env.scope person) old.ownerModule c.providerModule canonical
          rwa [show old.ownerModule = c.ownerModule from hmodule]
      · exact absurd hmem hold
  · exact absurd (grants_step core clock (fun c hc => he ⟨c, hc⟩) s hg') hold

theorem neverWidens (h : Sound core clock s) {e : Step} (hfair : Fair core clock e s) : NeverWidens core clock e s where
  inside := fun _ _ _ _ hr => inside_start h hr
  revoked := fun _ fate _ _ _ _ _ hticket hpayload hbefore hedits => revoked_start h fate hticket hpayload hbefore hedits
  onePurpose := fun _ _ _ ht hsigned hne => one_purpose h hfair ht hsigned hne
  takeover := fun _ hg _ hg' hpk howner => takeover_covered h hg hg' hpk howner

end NeverWidensAux

open NeverWidensAux OneRunAux

namespace NeverWidensAux

open OneRunAux

/-- The assumptions on a step, as a check. -/
def fairNow (core : Core) (clock : Int) (e : Step) (s : Ledger) : Bool :=
  (match e.presents with
    | .token t => [Purpose.confirmation, .ticket, .marker].all fun p =>
      decide (t.signature ≠ core.mac p.bytes t.payload) || decide ((p.bytes, t.payload) ∈ s.signed)
    | _ => true) &&
  match e with
  | .register c => s.grants.all fun g => decide (g.ownerModule = c.ownerModule → g.grantKey = c.grantKey → g.updatedAt ≠ clock)
  | _ => true

theorem fair_of_fairNow {core : Core} {clock : Int} {e : Step} {s : Ledger} (h : fairNow core clock e s = true) : Fair core clock e s := by
  obtain ⟨htoken, hsave⟩ := Bool.and_eq_true_iff.mp h
  constructor
  · intro p t ht hsignature
    rw [ht] at htoken
    have := List.all_eq_true.mp htoken p (by cases p <;> simp)
    simpa [hsignature] using this
  · rintro c rfl g hg
    exact of_decide_eq_true (List.all_eq_true.mp hsave g hg)

def sampleAsked : Asked := ⟨actingEnv "maintenance", some ⟨7, "jane"⟩, "maintenance", "apm", "apm.install", sampleTargets, .empty⟩

/-- The text that the person was shown is for this body. -/
def sampleConfirmation : List (String × Json) := (sampleAsked.describe 0).toOption.getD []

def sampleRegister : RegisterCall :=
  { sampleAsked with grantKey := "profile:1", confirmationId := .token (sign sampleCore.mac .confirmation (.obj sampleConfirmation)), newPk := "grant" }

/-- The ticket for the grant as it was registered. -/
def registeredTicket : List (String × Json) :=
  ticketBody "run" { sampleGrant with parametersDigest := digest .null } "maintenance" 0

def presentTicket (schedule : String) : Step :=
  .start ⟨actingEnv "apm", .token (sign sampleCore.mac .ticket (.obj registeredTicket)), "apm.install", .items [some 1], none⟩
    { scheduleId := schedule, runId := schedule }

/-- A person confirms a grant, a run of the owner module gets a ticket, and the provider starts a run with it. -/
def usedGrant : List (Event Step) :=
  [⟨0, .describe sampleAsked⟩, ⟨0, .register sampleRegister⟩, ⟨0, .issueTicket (actingEnv "maintenance") (some ("run", "maintenance")) "profile:1"⟩,
    ⟨0, presentTicket "a"⟩]

/-- The grant is removed, and the ticket is used once more. -/
def removedGrant : List (Event Step) :=
  usedGrant ++ [⟨0, .remove (actingEnv "maintenance") "maintenance" "profile:1"⟩, ⟨0, presentTicket "b"⟩]

def ledgerAfter (events : List (Event Step)) : Ledger := (exec (Ledger.step sampleCore) ⟨0, Ledger.fresh⟩ events).state

end NeverWidensAux

end Delegation

end TecTac
