import TecTac.FailureEmails

/-!
# Each email once, and twenty an hour

A try is recorded before the send, and a ledger row outlives the window in which its job is looked at. So no person is sent the email of one job twice,
wherever a sweep ends and whatever fails; and the tries of an hour are counted by the rows that they left.
-/

namespace TecTac

namespace FailureEmails

namespace EmailsOnceAux

def pair (r : Row) : String × Int := (r.key, r.user)

theorem have_iff {rows : List Row} {key : String} {user : Int} : ledgerHave rows key user = true ↔ (key, user) ∈ rows.map pair := by
  simp only [ledgerHave, List.any_eq_true, decide_eq_true_eq, List.mem_map, pair, Prod.mk.injEq]

theorem have_false_iff {rows : List Row} {key : String} {user : Int} : ledgerHave rows key user = false ↔ (key, user) ∉ rows.map pair := by
  rw [← have_iff, Bool.not_eq_true]

theorem mem_ledgerAdd {rows : List Row} {row r : Row} (h : r ∈ rows) : r ∈ ledgerAdd rows row := by
  unfold ledgerAdd
  split
  · exact h
  · exact List.mem_append_left _ h

theorem pair_of_ledgerAdd {rows : List Row} {row : Row} {p : String × Int} (h : p ∈ (ledgerAdd rows row).map pair) : p ∈ rows.map pair ∨ p = pair row := by
  unfold ledgerAdd at h
  split at h
  · exact Or.inl h
  · simpa using h

variable {w : Sweep}

/-! ### The audience -/

theorem audience_sublist (users : List User) (s : List String × List User) :
    ∃ more, (users.foldl addPerson s).2 = s.2 ++ more ∧ more.Sublist users := by
  induction users generalizing s with
  | nil => exact ⟨[], (List.append_nil s.2).symm, .slnil⟩
  | cons user users ih =>
    obtain ⟨more, hmore, hsub⟩ := ih (addPerson s user)
    rw [List.foldl_cons, hmore]
    have hone : (addPerson s user).2 = s.2 ∨ (addPerson s user).2 = s.2 ++ [user] := by
      unfold addPerson
      dsimp only
      split
      · exact Or.inl rfl
      · exact Or.inr rfl
    rcases hone with hsame | hadd
    · exact ⟨more, by rw [hsame], hsub.cons user⟩
    · exact ⟨user :: more, by rw [hadd, List.append_assoc, List.singleton_append], hsub.cons_cons user⟩

theorem audience_nodup (w : Sweep) : ((emailAudience w.administrators).map User.pk).Nodup := by
  obtain ⟨more, hmore, hsub⟩ := audience_sublist w.administrators ([], [])
  rw [emailAudience, hmore, List.nil_append]
  exact w.distinct.sublist (hsub.map User.pk)

/-! ### One person -/

/-- What a try of one person may do. -/
structure Tried (w : Sweep) (key : String) (user : Int) (s s' : Loop) : Prop where
  budget : s'.budget ≤ s.budget
  ledger : (∀ r ∈ s.ledger, r ∈ s'.ledger) ∧ ∀ p ∈ s'.ledger.map pair, p ∈ s.ledger.map pair ∨ p = (key, user)
  tried : s'.tried = s.tried ∨ s'.tried = ⟨key, user, w.time key user⟩ :: s.tried ∧ ⟨key, user, w.time key user⟩ ∈ s'.ledger ∧ 0 < s.budget ∧
    s'.budget = s.budget - 1

theorem mark_spec (w : Sweep) (key : String) (user : Int) (s : Loop) :
    (mark w key user s).1.tried = s.tried ∧ (mark w key user s).1.budget = s.budget ∧
      ((mark w key user s).2 = false ∧ (mark w key user s).1.ledger = s.ledger ∨
        (mark w key user s).1.ledger = ledgerAdd s.ledger ⟨key, user, w.time key user⟩) := by
  unfold mark
  split
  · exact ⟨rfl, rfl, Or.inl ⟨rfl, rfl⟩⟩
  · split
    · exact ⟨rfl, rfl, Or.inr rfl⟩
    · exact ⟨rfl, rfl, Or.inl ⟨rfl, rfl⟩⟩

theorem mark_ledger (w : Sweep) (key : String) (user : Int) (s : Loop) :
    (∀ r ∈ s.ledger, r ∈ (mark w key user s).1.ledger) ∧
      ∀ p ∈ (mark w key user s).1.ledger.map pair, p ∈ s.ledger.map pair ∨ p = (key, user) := by
  rcases (mark_spec w key user s).2.2 with ⟨-, hsame⟩ | hadd
  · rw [hsame]
    exact ⟨fun _ hr => hr, fun _ hp => Or.inl hp⟩
  · rw [hadd]
    exact ⟨fun _ hr => mem_ledgerAdd hr, fun _ hp => pair_of_ledgerAdd hp⟩

theorem sendOne_spec (w : Sweep) (key : String) (user : Int) (s : Loop) :
    (sendOne w key user s).1.ledger = s.ledger ∧ (sendOne w key user s).1.budget = s.budget ∧
      ((sendOne w key user s).1.tried = s.tried ∨ (sendOne w key user s).1.tried = ⟨key, user, w.time key user⟩ :: s.tried) := by
  unfold sendOne
  split
  · exact ⟨rfl, rfl, Or.inl rfl⟩
  · exact ⟨rfl, rfl, Or.inr rfl⟩

theorem tryUser_spec (w : Sweep) {key : String} (user : User) {s : Loop} (hnew : ledgerHave s.ledger key user.pk = false) :
    Tried w key user.pk s (tryUser w key s user) := by
  unfold tryUser
  split
  · exact ⟨le_refl _, ⟨fun _ hr => hr, fun _ hp => Or.inl hp⟩, Or.inl rfl⟩
  · split
    · exact ⟨by simp, mark_ledger w key user.pk s, Or.inl (mark_spec w key user.pk s).1⟩
    · split
      · exact ⟨le_refl _, ⟨fun _ hr => hr, fun _ hp => Or.inl hp⟩, Or.inl rfl⟩
      · rename_i hbudget
        dsimp only
        have hmark := mark_spec w key user.pk { s with budget := s.budget - 1 }
        have hledger := mark_ledger w key user.pk { s with budget := s.budget - 1 }
        split
        · exact ⟨by rw [hmark.2.1]; simp, hledger, Or.inl hmark.1⟩
        · split
          · rename_i hmarked
            have hsend := sendOne_spec w key user.pk (mark w key user.pk { s with budget := s.budget - 1 }).1
            have hadded : (mark w key user.pk { s with budget := s.budget - 1 }).1.ledger = ledgerAdd s.ledger ⟨key, user.pk, w.time key user.pk⟩ := by
              rcases hmark.2.2 with ⟨hfalse, -⟩ | hadd
              · rw [hfalse] at hmarked
                cases hmarked
              · exact hadd
            refine ⟨by rw [hsend.2.1, hmark.2.1]; simp, by rw [hsend.1]; exact hledger, ?_⟩
            rcases hsend.2.2 with hsame | hsent
            · exact Or.inl (hsame.trans hmark.1)
            · refine Or.inr ⟨by rw [hsent, hmark.1], ?_, by omega, by rw [hsend.2.1, hmark.2.1]⟩
              rw [hsend.1, hadded, ledgerAdd, hnew, if_neg Bool.false_ne_true]
              exact List.mem_append_right _ (List.mem_singleton.2 rfl)
          · exact ⟨by rw [hmark.2.1]; simp, hledger, Or.inl hmark.1⟩

/-! ### The loops of a sweep -/

variable {finished : String → Int}

/-- What a sweep has done so far: the tries it added are in the ledger and within the budget, and no pair was tried twice. -/
structure Good (w : Sweep) (finished : String → Int) (start s : Loop) (new : List Row) : Prop where
  tried : s.tried = new ++ start.tried
  budget : (new.length : Int) + max s.budget 0 ≤ max start.budget 0
  added : ∀ r ∈ new, r ∈ s.ledger ∧ w.now ≤ r.createdAt ∧ r.createdAt ≤ w.ends ∧ finished r.key ≤ w.now
  ledger : ∀ r ∈ start.ledger, r ∈ s.ledger
  once : (s.tried.map pair).Nodup

theorem good_start {start : Loop} (h : (start.tried.map pair).Nodup) : Good w finished start start [] :=
  { tried := rfl
    budget := by simp
    added := fun r hr => by cases hr
    ledger := fun _ hr => hr
    once := h }

theorem good_tryUser {start s : Loop} {new : List Row} (h : Good w finished start s new) {key : String} {user : User}
    (hnew : ledgerHave s.ledger key user.pk = false) (hpair : (key, user.pk) ∉ s.tried.map pair) (hfinished : finished key ≤ w.now) :
    ∃ new', Good w finished start (tryUser w key s user) new' := by
  obtain ⟨hbudget, ⟨hkeep, -⟩, htried⟩ := tryUser_spec w user hnew
  have hold : ∀ r ∈ new, r ∈ (tryUser w key s user).ledger ∧ w.now ≤ r.createdAt ∧ r.createdAt ≤ w.ends ∧ finished r.key ≤ w.now :=
    fun r hr => ⟨hkeep r (h.added r hr).1, (h.added r hr).2⟩
  have hledger : ∀ r ∈ start.ledger, r ∈ (tryUser w key s user).ledger := fun r hr => hkeep r (h.ledger r hr)
  have hb := h.budget
  rcases htried with hsame | ⟨hadd, hmem, hpositive, hspent⟩
  · exact ⟨new, hsame.trans h.tried, by omega, hold, hledger, by rw [hsame]; exact h.once⟩
  · refine ⟨⟨key, user.pk, w.time key user.pk⟩ :: new, by rw [hadd, h.tried, List.cons_append], ?_, ?_, hledger, ?_⟩
    · rw [List.length_cons, hspent]
      push_cast
      omega
    · intro r hr
      rcases List.mem_cons.1 hr with rfl | hr
      · exact ⟨hmem, (w.inTime key user.pk).1, (w.inTime key user.pk).2, hfinished⟩
      · exact hold r hr
    · rw [hadd, List.map_cons]
      exact List.nodup_cons.2 ⟨hpair, h.once⟩

/-- The people of one job, each of them new to the ledger and to the tries. -/
theorem good_users {start : Loop} {key : String} (hfinished : finished key ≤ w.now) {pending : List User} (hnodup : (pending.map User.pk).Nodup) {s : Loop}
    {new : List Row} (h : Good w finished start s new)
    (hnew : ∀ user ∈ pending, ledgerHave s.ledger key user.pk = false ∧ (key, user.pk) ∉ s.tried.map pair) :
    ∃ new', Good w finished start (pending.foldl (tryUser w key) s) new' := by
  induction pending generalizing s new with
  | nil => exact ⟨new, h⟩
  | cons user pending ih =>
    obtain ⟨hfree, hpair⟩ := hnew user List.mem_cons_self
    obtain ⟨new', h'⟩ := good_tryUser h hfree hpair hfinished
    obtain ⟨hnot, hrest⟩ := List.nodup_cons.1 hnodup
    refine ih hrest h' fun other hother => ?_
    have hne : other.pk ≠ user.pk := fun heq => hnot (heq ▸ List.mem_map_of_mem hother)
    obtain ⟨hotherFree, hotherPair⟩ := hnew other (List.mem_cons_of_mem user hother)
    obtain ⟨-, ⟨-, hrows⟩, htried⟩ := tryUser_spec w user hfree
    constructor
    · rw [have_false_iff] at hotherFree ⊢
      intro hmem
      rcases hrows _ hmem with hold | heq
      · exact hotherFree hold
      · exact hne (Prod.mk.inj heq).2
    · rcases htried with hsame | ⟨hadd, -⟩
      · rwa [hsame]
      · rw [hadd, List.map_cons, List.mem_cons, not_or]
        exact ⟨fun heq => hne (Prod.mk.inj heq).2, hotherPair⟩

theorem copyMarkers_spec (w : Sweep) (markers : List Row) (key : String) (s : Loop) :
    (copyMarkers w markers key s).tried = s.tried ∧ (copyMarkers w markers key s).budget = s.budget ∧
      (∀ r ∈ s.ledger, r ∈ (copyMarkers w markers key s).ledger) ∧
      ∀ p ∈ (copyMarkers w markers key s).ledger.map pair, p ∈ s.ledger.map pair ∨ p ∈ markers.map pair := by
  have hloop : ∀ (rows ledger : List Row), (∀ r ∈ ledger, r ∈ rows.foldl ledgerAdd ledger) ∧
      ∀ p ∈ (rows.foldl ledgerAdd ledger).map pair, p ∈ ledger.map pair ∨ p ∈ rows.map pair := by
    intro rows
    induction rows with
    | nil => exact fun ledger => ⟨fun _ hr => hr, fun _ hp => Or.inl hp⟩
    | cons row rows ih =>
      intro ledger
      refine ⟨fun r hr => (ih _).1 r (mem_ledgerAdd hr), fun p hp => ?_⟩
      rcases (ih _).2 p hp with hold | hlater
      · rcases pair_of_ledgerAdd hold with hold | rfl
        · exact Or.inl hold
        · exact Or.inr List.mem_cons_self
      · exact Or.inr (List.mem_cons_of_mem _ hlater)
  unfold copyMarkers
  split
  · exact ⟨rfl, rfl, fun _ hr => hr, fun _ hp => Or.inl hp⟩
  · split
    · refine ⟨rfl, rfl, (hloop _ s.ledger).1, fun p hp => ?_⟩
      rcases (hloop _ s.ledger).2 p hp with hold | hcopied
      · exact Or.inl hold
      · exact Or.inr ((List.filter_sublist.map pair).subset hcopied)
    · exact ⟨rfl, rfl, fun _ hr => hr, fun _ hp => Or.inl hp⟩

/-- Before a sweep: a try is in the ledger, or so old that its row was pruned; and its job had finished. -/
def Recorded (w : Sweep) (finished : String → Int) (start : Loop) : Prop :=
  ∀ r ∈ start.tried, (r ∈ start.ledger ∨ r.createdAt + ledgerRetention < w.now) ∧ finished r.key ≤ r.createdAt

theorem good_job {start s : Loop} {new : List Row} (hstart : Recorded w finished start) (h : Good w finished start s new) {key : String}
    (hwindow : w.now - noticeWindow ≤ finished key ∧ finished key ≤ w.now) (markers : List Row) :
    ∃ new', Good w finished start (sendP1Email w markers (emailAudience w.administrators) s key) new' := by
  -- a pair of this job that was tried is in the ledger: its row outlives the window
  have htried : ∀ user, (key, user) ∈ s.tried.map pair → ledgerHave s.ledger key user = true := by
    intro user hmem
    obtain ⟨r, hr, hpair⟩ := List.mem_map.1 hmem
    obtain ⟨hkey, -⟩ := Prod.mk.inj hpair
    rw [have_iff, ← hpair]
    rw [h.tried, List.mem_append] at hr
    rcases hr with hr | hr
    · exact List.mem_map_of_mem (h.added r hr).1
    · obtain ⟨hrow | hpruned, hfinished⟩ := hstart r hr
      · exact List.mem_map_of_mem (h.ledger r hrow)
      · rw [hkey] at hfinished
        simp only [ledgerRetention, noticeWindow] at hpruned hwindow
        omega
  unfold sendP1Email
  split
  · obtain ⟨hsame, hbudget, hkeep, hrows⟩ := copyMarkers_spec w markers key s
    have hcopied : Good w finished start { copyMarkers w markers key s with stopped := false } new :=
      { tried := hsame.trans h.tried
        budget := by rw [show (copyMarkers w markers key s).budget = s.budget from hbudget]; exact h.budget
        added := fun r hr => ⟨hkeep r (h.added r hr).1, (h.added r hr).2⟩
        ledger := fun r hr => hkeep r (h.ledger r hr)
        once := by rw [hsame]; exact h.once }
    refine good_users hwindow.2 ((audience_nodup w).sublist (List.filter_sublist.map User.pk)) hcopied fun user huser => ?_
    have hpending := (List.mem_filter.1 huser).2
    simp only [Bool.not_eq_true', Bool.or_eq_false_iff] at hpending
    constructor
    · rw [have_false_iff]
      intro hmem
      rcases hrows _ hmem with hold | hmarker
      · exact have_false_iff.1 hpending.2 hold
      · exact have_false_iff.1 hpending.1 hmarker
    · rw [hsame]
      intro hmem
      rw [htried user.pk hmem] at hpending
      cases hpending.2
  · exact ⟨new, h⟩

theorem good_jobs {start : Loop} (hstart : Recorded w finished start) (markers : List Row) {keys : List String}
    (hkeys : ∀ key ∈ keys, w.now - noticeWindow ≤ finished key ∧ finished key ≤ w.now) {s : Loop} {new : List Row} (h : Good w finished start s new) :
    ∃ new', Good w finished start (keys.foldl (sendP1Email w markers (emailAudience w.administrators)) s) new' := by
  induction keys generalizing s new with
  | nil => exact ⟨new, h⟩
  | cons key keys ih =>
    obtain ⟨new', h'⟩ := good_job hstart h (hkeys key List.mem_cons_self) markers
    exact ih (fun k hk => hkeys k (List.mem_cons_of_mem key hk)) h'

/-! ### Runs -/

/-- What holds at a time between the sweeps. -/
structure Inv (finished : String → Int) (now : Int) (s : State) : Prop where
  once : (s.tried.map pair).Nodup
  kept : ∀ r ∈ s.tried, (r ∈ s.ledger ∨ r.createdAt + ledgerRetention < now) ∧ finished r.key ≤ r.createdAt
  capped : RollingCap.Capped emailWindow hourlyCap (s.tried.map Row.createdAt)

theorem mem_boundedFailedJobs {jobs : List Job} {now : Int} {job : Job} (h : job ∈ boundedFailedJobs jobs now) :
    job ∈ jobs ∧ ∃ f, job.finishedAt = some f ∧ now - noticeWindow ≤ f := by
  obtain ⟨entry, hentry, rfl⟩ := List.mem_map.1 (List.mem_of_mem_take h)
  obtain ⟨job, hjob, hrecent⟩ := List.mem_filterMap.1 ((List.mem_mergeSort ..).1 hentry)
  unfold recentFailure at hrecent
  split at hrecent
  · cases hrecent
  · rename_i f hf
    split at hrecent
    · rename_i hfailed
      cases hrecent
      exact ⟨hjob, f, hf, hfailed.2⟩
    · cases hrecent

theorem keys_in_window {jobs : List Job} {now : Int} (hjobs : ∀ job ∈ jobs, ∀ f, job.finishedAt = some f → f = finished job.id ∧ f ≤ now) :
    ∀ key ∈ (boundedFailedJobs jobs now).filterMap noticeFor, now - noticeWindow ≤ finished key ∧ finished key ≤ now := by
  intro key hkey
  obtain ⟨job, hjob, hnotice⟩ := List.mem_filterMap.1 hkey
  obtain ⟨hmem, f, hf, hwindow⟩ := mem_boundedFailedJobs hjob
  obtain ⟨hfinished, hle⟩ := hjobs job hmem f hf
  unfold noticeFor at hnotice
  split at hnotice
  · cases hnotice
    omega
  · cases hnotice

/-- The rows that the prune of a sweep leaves have the tries that are not too old. -/
theorem recorded_after_prune {s : State} {now : Int} (h : Inv finished now s) (hnow : now ≤ w.now) :
    ∀ r ∈ s.tried, (r ∈ (if w.prunes then ledgerPrune s.ledger w.now else s.ledger) ∨ r.createdAt + ledgerRetention < w.now) ∧ finished r.key ≤ r.createdAt := by
  intro r hr
  obtain ⟨hrow, hfinished⟩ := h.kept r hr
  refine ⟨?_, hfinished⟩
  by_cases hold : r.createdAt + ledgerRetention < w.now
  · exact Or.inr hold
  · rcases hrow with hrow | hpruned
    · refine Or.inl ?_
      split
      · refine List.mem_filter.2 ⟨hrow, ?_⟩
        rw [decide_eq_true_eq]
        omega
      · exact hrow
    · omega

/-- The tries of the last hour each left a row that is counted. -/
theorem tries_counted {tried ledger : List Row} (now : Int) (honce : (tried.map pair).Nodup)
    (hrows : ∀ r ∈ tried, r ∈ ledger ∨ r.createdAt + ledgerRetention < now) :
    ((tried.map Row.createdAt).filter fun a => decide (now - emailWindow ≤ a)).length ≤ ledgerCountSince ledger (now - emailWindow) := by
  rw [List.filter_map, List.length_map]
  unfold ledgerCountSince
  refine (List.subperm_of_subset ((honce.of_map pair).filter _) fun r hr => ?_).length_le
  obtain ⟨hmem, hrecent⟩ := List.mem_filter.1 hr
  simp only [Function.comp_apply, decide_eq_true_eq] at hrecent
  refine List.mem_filter.2 ⟨?_, by simpa using hrecent⟩
  rcases hrows r hmem with hrow | hpruned
  · exact hrow
  · simp only [ledgerRetention, emailWindow] at hpruned hrecent
    omega

theorem inv_later {s : State} {now later : Int} (h : Inv finished now s) (hle : now ≤ later) : Inv finished later s :=
  ⟨h.once, fun r hr => ⟨(h.kept r hr).1.imp_right fun hpruned => lt_of_lt_of_le hpruned hle, (h.kept r hr).2⟩, h.capped⟩

theorem inv_sweep {s : State} {now : Int} (h : Inv finished now s) (hnow : now ≤ w.now)
    (hjobs : ∀ job ∈ w.jobs, ∀ f, job.finishedAt = some f → f = finished job.id ∧ f ≤ w.now) : Inv finished w.now (sweep w s) := by
  have hrows := recorded_after_prune (w := w) h hnow
  unfold sweep
  generalize (if w.prunes then ledgerPrune s.ledger w.now else s.ledger) = ledger at hrows ⊢
  dsimp only
  split
  · generalize hstart : (⟨ledger, s.tried, w.writes, ↑(hourlyCap - ledgerCountSince ledger (w.now - emailWindow)), false⟩ : Loop) = start
    have hrecorded : Recorded w finished start := by
      rw [← hstart]
      exact hrows
    have htried : start.tried = s.tried := by rw [← hstart]
    obtain ⟨new, hgood⟩ := good_jobs hrecorded s.markers (keys_in_window hjobs) (good_start (by rw [htried]; exact h.once))
    subst hstart
    refine ⟨hgood.once, fun r hr => ?_, ?_⟩
    · rw [hgood.tried, List.mem_append] at hr
      rcases hr with hr | hr
      · obtain ⟨hrow, hafter, -, hfinished⟩ := hgood.added r hr
        exact ⟨Or.inl hrow, le_trans hfinished hafter⟩
      · exact ⟨(hrows r hr).1.imp_left fun hrow => hgood.ledger r hrow, (hrows r hr).2⟩
    · rw [hgood.tried, List.map_append]
      refine RollingCap.capped_append w.now h.capped (fun a ha => ?_) fun hne => ?_
      · obtain ⟨r, hr, rfl⟩ := List.mem_map.1 ha
        exact (hgood.added r hr).2.1
      · have hcounted := tries_counted w.now h.once fun r hr => (hrows r hr).1
        have hbudget := hgood.budget
        have hlength : 0 < new.length := by simpa [List.length_pos_iff] using hne
        rw [List.length_map]
        simp only [hourlyCap] at hbudget ⊢
        omega
  · exact ⟨h.once, hrows, h.capped⟩

theorem inv_run {events : List Event} {s : State} {now : Int} (h : Inv finished now s) (horder : InOrder finished now events) :
    ∃ last, Inv finished last (run s events) := by
  induction events generalizing s now with
  | nil => exact ⟨now, h⟩
  | cons e events ih =>
    cases e with
    | sweep w =>
      obtain ⟨hnow, hjobs, hends, hrest⟩ := horder
      exact ih (inv_later (inv_sweep h hnow hjobs) hends) hrest
    | clearRead keep => exact ih (s := { s with markers := s.markers.filter keep }) ⟨h.once, h.kept, h.capped⟩ horder

theorem inv_start {s : State} (h : s.tried = []) (now : Int) : Inv finished now s := by
  refine ⟨?_, ?_, ?_⟩ <;> rw [h]
  · exact List.nodup_nil
  · exact fun r hr => by cases hr
  · exact RollingCap.capped_nil _ _

end EmailsOnceAux

open EmailsOnceAux

/-- Whatever the database and the mail server answer, wherever a sweep ends and whatever notices people clear: no person is sent the email of one job twice. -/
theorem each_email_is_tried_once {s : State} (h : s.tried = []) {finished : String → Int} {start : Int} {events : List Event}
    (horder : InOrder finished start events) : ((run s events).tried.map fun r => (r.key, r.user)).Nodup := by
  obtain ⟨_, hinv⟩ := inv_run (inv_start h start) horder
  exact hinv.once

/-- A sweep in which everything works, of one failed job and one administrator. -/
def sampleSweep (now : Int) : Sweep where
  now := now
  ends := now
  jobs := [⟨"job-1", "failed", "enable", some 50⟩]
  administrators := [⟨7, "admin@example.net"⟩]
  prunes := true
  noticesDone := true
  configured := true
  countReads := true
  haveReads := fun _ => true
  copies := fun _ => true
  hostRefused := fun _ => false
  marks := fun _ _ => true
  sends := fun _ _ => true
  time := fun _ _ => now
  writes := 10
  inTime := fun _ _ => ⟨le_refl now, le_refl now⟩
  distinct := List.nodup_singleton _

def sampleEvents : List Event := [.sweep (sampleSweep 100), .clearRead fun _ => false, .sweep (sampleSweep 160)]

theorem sample_inOrder : InOrder (fun _ => 50) 0 sampleEvents := by
  have hjobs : ∀ now : Int, 50 ≤ now → ∀ job ∈ (sampleSweep now).jobs, ∀ f, job.finishedAt = some f → f = 50 ∧ f ≤ (sampleSweep now).now := by
    intro now hnow job hjob f hf
    obtain rfl := List.mem_singleton.1 hjob
    obtain rfl := Option.some.inj hf
    exact ⟨rfl, hnow⟩
  exact ⟨by decide, hjobs 100 (by decide), le_refl _, by decide, hjobs 160 (by decide), le_refl _, trivial⟩

theorem sample_each_email_is_tried_once :
    (run ⟨[], [], []⟩ sampleEvents).tried = [⟨"job-1", 7, 100⟩] ∧ ((run ⟨[], [], []⟩ sampleEvents).tried.map fun r => (r.key, r.user)).Nodup :=
  ⟨by decide +kernel, each_email_is_tried_once rfl sample_inOrder⟩

/-- No hour, wherever it begins, has more than twenty tries, over all jobs and people. -/
theorem no_hour_has_more_than_twenty {s : State} (h : s.tried = []) {finished : String → Int} {start : Int} {events : List Event}
    (horder : InOrder finished start events) (t : Int) :
    ((run s events).tried.filter fun r => decide (t ≤ r.createdAt ∧ r.createdAt ≤ t + 3600)).length ≤ 20 := by
  obtain ⟨_, hinv⟩ := inv_run (inv_start h start) horder
  have hcapped := hinv.capped (t + 3600)
  rw [List.filter_map, List.length_map] at hcapped
  refine le_trans (le_of_eq ?_) hcapped
  congr 2
  funext r
  simp [RollingCap.inWindow, emailWindow]

theorem sample_no_hour_has_more_than_twenty :
    ((run ⟨[], [], []⟩ sampleEvents).tried.filter fun r => decide (100 ≤ r.createdAt ∧ r.createdAt ≤ 100 + 3600)).length ≤ 20 :=
  no_hour_has_more_than_twenty rfl sample_inOrder 100

end FailureEmails

end TecTac
