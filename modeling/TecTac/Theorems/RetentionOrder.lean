import Mathlib
import TecTac.Retention
import TecTac.Lib.Raise

/-!
# What retention deletes

Archives are ordered by the text of their timestamps, and what was done is told only when no policy ends the operation. Retention deletes what is older, and every archive is kept, deleted or reported,
for all values to be kept, exactly where the texts of each class have the order of the instants and no deletion can fail before a policy that is refused.
-/

namespace TecTac

namespace Retention

section

variable (lang : Language) {Instant : Type} [LinearOrder Instant] (instant : String → Instant)

/-- The archives that were to be deleted, and could or could not be. -/
def Done.chosen (done : Done) : List Row := done.deleted.map Prod.snd ++ done.failures.map Prod.fst

/-- What was done for a policy is right: each archive that was listed is kept, deleted or reported as a failure; none whose metadata cannot be read is chosen; of each class as many are kept as are to
be kept, and none of these is older than one that was chosen; and a policy without `keep_unclassified` spares up to 10000 unclassified archives. -/
def RightFor (told : Bool) (raw : Fields) (done : Done) : Prop :=
  ∃ kept, done.rows.Perm (kept ++ done.chosen) ∧ (told = false → done.failures = []) ∧ (∀ row ∈ done.chosen, row.sidecarStatus ≠ .unreadable) ∧
    (∀ cls, (grouped kept cls).length = min (keepOf done.keep cls) (grouped done.rows cls).length ∧
      ∀ a ∈ grouped kept cls, ∀ b ∈ grouped done.chosen cls, instant (sortKey lang b) ≤ instant (sortKey lang a)) ∧
    (Dict.get "keep_unclassified" raw = none → (grouped done.rows .unclassified).length ≤ 10000 → grouped done.chosen .unclassified = [])

/-- What is done for these policies is right. -/
def Right (raws : List Fields) (cases : List Case) : Prop :=
  ∀ p ∈ raws.zip (applyRetention lang (raws.zip cases)).1, RightFor lang instant (applyRetention lang (raws.zip cases)).2.isNone p.1 p.2

/-- What is done is right whatever is to be kept. -/
def AlwaysRight (cases : List Case) : Prop := ∀ raws : List Fields, raws.length = cases.length → (∀ raw ∈ raws, ∃ keep, keeps lang raw = .ok keep) → Right lang instant raws cases

/-! ## The condition -/

def Case.isListed : Case → Bool
  | .listed _ _ => true
  | .refused _ => false

/-- The policies before the first that is refused. -/
def before (cases : List Case) : List Case := cases.takeWhile Case.isListed

/-- Of the 10000 archives of each class that come first by their texts, none is older than one behind it. -/
def TextsTell (rows : List Row) : Prop :=
  ∀ cls front a back, newestFirst lang (grouped rows cls) = front ++ a :: back → front.length < 10000 → ∀ b ∈ back, instant (sortKey lang b) ≤ instant (sortKey lang a)

/-- The texts tell the order of the instants, and where a policy is refused, no deletion before it can fail. -/
structure Telling (cases : List Case) : Prop where
  texts : ∀ rows delete, .listed rows delete ∈ before cases → TextsTell lang instant rows
  deletions : before cases ≠ cases → ∀ rows delete, .listed rows delete ∈ before cases → ∀ row ∈ rows, row.sidecarStatus ≠ .unreadable → delete row = none

end

namespace RetentionAux

section

variable {lang : Language}

theorem mem_grouped {rows : List Row} {cls : Class} {row : Row} : row ∈ grouped rows cls ↔ row ∈ rows ∧ row.sidecarStatus ≠ .unreadable ∧ row.cls = cls := by
  simp [grouped]

theorem grouped_perm {rows rows' : List Row} (h : rows.Perm rows') (cls : Class) : (grouped rows cls).Perm (grouped rows' cls) := h.filter _

theorem grouped_append (rows rows' : List Row) (cls : Class) : grouped (rows ++ rows') cls = grouped rows cls ++ grouped rows' cls := List.filter_append _ _

/-- Archives of one class whose metadata could be read. -/
theorem grouped_of_class {rows : List Row} {cls : Class} (h : ∀ row ∈ rows, row.sidecarStatus ≠ .unreadable ∧ row.cls = cls) (other : Class) :
    grouped rows other = if other = cls then rows else [] := by
  split
  · rename_i heq
    subst heq
    exact List.filter_eq_self.2 fun row hrow => by simpa using h row hrow
  · rename_i hne
    refine List.filter_eq_nil_iff.2 fun row hrow => ?_
    rw [(h row hrow).2]
    simp [Ne.symm hne]

/-- The archives whose metadata could be read, by classes. -/
theorem readable_perm (rows : List Row) : (rows.filter fun row => decide (row.sidecarStatus ≠ .unreadable)).Perm (classes.flatMap (grouped rows)) := by
  induction rows with
  | nil => exact List.Perm.refl _
  | cons row rows ih =>
    by_cases hread : row.sidecarStatus = .unreadable
    · have hgrouped (cls : Class) : grouped (row :: rows) cls = grouped rows cls := List.filter_cons_of_neg (by simp [hread])
      rw [List.filter_cons_of_neg (by simp [hread]), show classes.flatMap (grouped (row :: rows)) = classes.flatMap (grouped rows) from by simp [classes, hgrouped]]
      exact ih
    · have hgrouped (cls : Class) : grouped (row :: rows) cls = if row.cls = cls then row :: grouped rows cls else grouped rows cls := by
        unfold grouped
        rw [List.filter_cons]
        by_cases hcls : row.cls = cls
        · simp [hread, hcls]
        · simp [hcls]
      rw [List.filter_cons_of_pos (by simp [hread])]
      refine (ih.cons row).trans ?_
      simp only [classes, List.flatMap_cons, List.flatMap_nil, List.append_nil, hgrouped]
      cases hcls : row.cls
      · simp
      · simpa using (List.perm_middle (a := row)).symm
      · simpa using (@List.perm_middle _ row (grouped rows .daily ++ grouped rows .weekly) (grouped rows .monthly ++ grouped rows .unclassified)).symm
      · simpa [← List.append_assoc] using (List.perm_middle (a := row)).symm

/-- What is taken class by class, of one class. -/
theorem grouped_flatMap {f : Class → List Row} (h : ∀ cls, ∀ row ∈ f cls, row.sidecarStatus ≠ .unreadable ∧ row.cls = cls) (cls : Class) : grouped (classes.flatMap f) cls = f cls := by
  simp only [classes, List.flatMap_cons, List.flatMap_nil, List.append_nil, grouped_append, grouped_of_class (h _)]
  cases cls <;> simp

theorem mem_newestFirst {items : List Row} {row : Row} : row ∈ newestFirst lang items ↔ row ∈ items := (List.mergeSort_perm items _).mem_iff

theorem of_mem_newest {rows : List Row} {cls : Class} {row : Row} (h : row ∈ newestFirst lang (grouped rows cls)) : row ∈ rows ∧ row.sidecarStatus ≠ .unreadable ∧ row.cls = cls :=
  mem_grouped.1 (mem_newestFirst.1 h)

/-- One of the first and one of the rest of a list. -/
theorem split_of_take_drop {l : List Row} {k : Nat} {a b : Row} (ha : a ∈ l.take k) (hb : b ∈ l.drop k) : ∃ front back, l = front ++ a :: back ∧ front.length < k ∧ b ∈ back := by
  obtain ⟨front, middle, heq⟩ := List.append_of_mem ha
  refine ⟨front, middle ++ l.drop k, ?_, ?_, List.mem_append_right _ hb⟩
  · rw [← List.cons_append, ← List.append_assoc, ← heq, List.take_append_drop]
  · have hlength := List.length_take_le k l
    rw [heq, List.length_append, List.length_cons] at hlength
    omega

/-- Each attempt is a deletion or a failure. -/
theorem attempts_perm (delete : Row → Option String) (attempts : List (Class × Row)) :
    ((attempts.filter fun attempt => delete attempt.2 == none).map Prod.snd ++ (attempts.filterMap fun attempt => (delete attempt.2).map fun reason => (attempt.2, reason)).map Prod.fst).Perm
      (attempts.map Prod.snd) := by
  induction attempts with
  | nil => exact List.Perm.refl _
  | cons attempt attempts ih =>
    cases hdelete : delete attempt.2 with
    | none =>
      rw [List.filter_cons_of_pos (by simp [hdelete]), List.filterMap_cons_none (by simp [hdelete]), List.map_cons, List.map_cons, List.cons_append]
      exact ih.cons _
    | some reason =>
      rw [List.filter_cons_of_neg (by simp [hdelete]), List.filterMap_cons_some (by rw [hdelete]; rfl), List.map_cons, List.map_cons]
      exact List.perm_middle.trans (ih.cons _)

theorem chosen_perm (lang : Language) (keep : List (Class × Nat)) (rows : List Row) (delete : Row → Option String) : (retain lang keep rows delete).chosen.Perm (classes.flatMap (beyond lang keep rows)) := by
  have hattempts : (classes.flatMap fun cls => (beyond lang keep rows cls).map fun row => (cls, row)).map Prod.snd = classes.flatMap (beyond lang keep rows) := by
    simp [List.map_flatMap, Function.comp_def]
  exact hattempts ▸ attempts_perm delete _

theorem beyond_class {keep : List (Class × Nat)} {rows : List Row} (cls : Class) : ∀ row ∈ beyond lang keep rows cls, row.sidecarStatus ≠ .unreadable ∧ row.cls = cls :=
  fun _ hrow => (of_mem_newest (List.mem_of_mem_drop hrow)).2

/-- The archives of a class that are chosen are those beyond what is kept. -/
theorem grouped_chosen (lang : Language) (keep : List (Class × Nat)) (rows : List Row) (delete : Row → Option String) (cls : Class) :
    (grouped (retain lang keep rows delete).chosen cls).Perm (beyond lang keep rows cls) := by
  have hperm := grouped_perm (chosen_perm lang keep rows delete) cls
  rwa [grouped_flatMap beyond_class] at hperm

/-- A listing is what is kept and what is chosen. -/
theorem rows_perm (keep : List (Class × Nat)) (rows : List Row) (delete : Row → Option String) :
    rows.Perm ((rows.filter fun row => decide (row.sidecarStatus = .unreadable)) ++ (classes.flatMap fun cls => (newestFirst lang (grouped rows cls)).take (keepOf keep cls)) ++
      (retain lang keep rows delete).chosen) := by
  have hsplit : rows.Perm ((rows.filter fun row => decide (row.sidecarStatus = .unreadable)) ++ rows.filter fun row => decide (row.sidecarStatus ≠ .unreadable)) := by
    have hfilter := (List.filter_append_perm (fun row : Row => decide (row.sidecarStatus = .unreadable)) rows).symm
    simpa only [decide_not] using hfilter
  have hsorted : (classes.flatMap (grouped rows)).Perm (classes.flatMap fun cls => (newestFirst lang (grouped rows cls)).take (keepOf keep cls) ++ beyond lang keep rows cls) := by
    refine List.Perm.flatMap_left _ fun cls _ => ?_
    rw [beyond, List.take_append_drop]
    exact (List.mergeSort_perm _ _).symm
  have hparts := (hsorted.trans (List.flatMap_append_perm classes _ _).symm).trans ((chosen_perm lang keep rows delete).symm.append_left _)
  rw [List.append_assoc]
  exact hsplit.trans (((readable_perm rows).trans hparts).append_left _)

end

/-! ## One policy -/

section

variable {lang : Language} {Instant : Type} [LinearOrder Instant] {instant : String → Instant}

/-- The values that are kept are those of the policy. -/
theorem of_keeps {raw : Fields} {keep : List (Class × Nat)} (h : keeps lang raw = .ok keep) (cls : Class) : keepValue lang raw cls = .ok (keepOf keep cls) := by
  unfold keeps at h
  have hkeys : keep.map Prod.fst = classes.map id := Raise.map_eq_of_mapM h fun cls p hp => by
    obtain ⟨n, -, hp⟩ := Raise.bind_ok hp
    exact congrArg Prod.fst (Except.ok.inj hp).symm
  obtain ⟨p, hp, heq⟩ := Raise.mapM_ok_of_mem h (show cls ∈ classes by cases cls <;> decide)
  obtain ⟨n, hn, heq⟩ := Raise.bind_ok heq
  obtain rfl := Except.ok.inj heq
  have hget : Dict.get cls keep = some n := Dict.get_of_mem (by rw [hkeys]; decide) hp
  rw [hn, keepOf, hget]
  rfl

theorem keepValue_le {raw : Fields} {cls : Class} {n : Nat} (h : keepValue lang raw cls = .ok n) : n ≤ 10000 := by
  unfold keepValue at h
  split at h
  · have hn := Except.ok.inj h
    omega
  · split at h
    · cases h
    · split at h
      · cases h
      · rename_i hrange
        have hn := Except.ok.inj h
        omega

/-- Where the texts tell the order, what is done for a policy is right. -/
theorem retain_right {raw : Fields} {keep : List (Class × Nat)} {rows : List Row} {delete : Row → Option String} {told : Bool} (hkeep : keeps lang raw = .ok keep)
    (htexts : TextsTell lang instant rows) (hdelete : told = false → ∀ row ∈ rows, row.sidecarStatus ≠ .unreadable → delete row = none) :
    RightFor lang instant told raw (retain lang keep rows delete) := by
  have hchosen (row : Row) (hrow : row ∈ (retain lang keep rows delete).chosen) : row ∈ rows ∧ row.sidecarStatus ≠ .unreadable := by
    obtain ⟨cls, -, hmem⟩ := List.mem_flatMap.1 ((chosen_perm lang keep rows delete).mem_iff.1 hrow)
    have hnewest := of_mem_newest (List.mem_of_mem_drop hmem)
    exact ⟨hnewest.1, hnewest.2.1⟩
  have htake (cls : Class) : ∀ row ∈ (newestFirst lang (grouped rows cls)).take (keepOf keep cls), row.sidecarStatus ≠ .unreadable ∧ row.cls = cls :=
    fun _ hrow => (of_mem_newest (List.mem_of_mem_take hrow)).2
  have hkept (cls : Class) : grouped ((rows.filter fun row => decide (row.sidecarStatus = .unreadable)) ++
      classes.flatMap fun cls => (newestFirst lang (grouped rows cls)).take (keepOf keep cls)) cls = (newestFirst lang (grouped rows cls)).take (keepOf keep cls) := by
    have hnone : grouped (rows.filter fun row => decide (row.sidecarStatus = .unreadable)) cls = [] :=
      List.filter_eq_nil_iff.2 fun row hrow => by simp [of_decide_eq_true (List.mem_filter.1 hrow).2]
    rw [grouped_append, hnone, List.nil_append, grouped_flatMap htake]
  have hlength (cls : Class) : (newestFirst lang (grouped rows cls)).length = (grouped rows cls).length := (List.mergeSort_perm _ _).length_eq
  refine ⟨_, rows_perm keep rows delete, fun htold => ?_, fun row hrow => (hchosen row hrow).2, fun cls => ⟨?_, fun a ha b hb => ?_⟩, fun hlegacy hfew => ?_⟩
  · refine List.filterMap_eq_nil_iff.2 fun attempt hattempt => ?_
    obtain ⟨cls, -, hmem⟩ := List.mem_flatMap.1 hattempt
    obtain ⟨row, hrow, rfl⟩ := List.mem_map.1 hmem
    have hnewest := of_mem_newest (List.mem_of_mem_drop hrow)
    rw [hdelete htold row hnewest.1 hnewest.2.1]
    rfl
  · rw [hkept, List.length_take, hlength]
    rfl
  · rw [hkept] at ha
    obtain ⟨front, back, hsplit, hfront, hback⟩ := split_of_take_drop ha ((grouped_chosen lang keep rows delete cls).mem_iff.1 hb)
    exact htexts cls front a back hsplit (Nat.lt_of_lt_of_le hfront (keepValue_le (of_keeps hkeep cls))) b hback
  · have hvalue : keepValue lang raw .unclassified = .ok 10000 := if_pos ⟨rfl, hlegacy⟩
    have hall : keepOf keep .unclassified = 10000 := Except.ok.inj ((of_keeps hkeep .unclassified).symm.trans hvalue)
    have hbeyond : beyond lang keep rows .unclassified = [] := by
      rw [beyond, hall, List.drop_eq_nil_iff, hlength]
      exact hfew
    exact List.perm_nil.1 (hbeyond ▸ grouped_chosen lang keep rows delete .unclassified)

/-- What is right for a policy tells the archives of a class by age. -/
theorem right_pair {told : Bool} {raw : Fields} {keep : List (Class × Nat)} {rows : List Row} {delete : Row → Option String} (h : RightFor lang instant told raw (retain lang keep rows delete))
    {cls : Class} {a b : Row} (ha : a ∈ (newestFirst lang (grouped rows cls)).take (keepOf keep cls)) (hb : b ∈ beyond lang keep rows cls) :
    instant (sortKey lang b) ≤ instant (sortKey lang a) := by
  obtain ⟨kept, hperm, -, -, hclasses, -⟩ := h
  have hgrouped := grouped_perm hperm cls
  rw [grouped_append] at hgrouped
  have hsorted : (grouped rows cls).Perm ((newestFirst lang (grouped rows cls)).take (keepOf keep cls) ++ beyond lang keep rows cls) := by
    rw [beyond, List.take_append_drop]
    exact (List.mergeSort_perm _ _).symm
  have hchosen := grouped_chosen lang keep rows delete cls
  have hkept : (grouped kept cls).Perm ((newestFirst lang (grouped rows cls)).take (keepOf keep cls)) :=
    (List.perm_append_right_iff _).1 ((hgrouped.symm.trans hsorted).trans (hchosen.symm.append_left _))
  exact (hclasses cls).2 a (hkept.mem_iff.2 ha) b (hchosen.mem_iff.2 hb)

/-! ## All policies -/

theorem applyRetention_listed {raw : Fields} {keep : List (Class × Nat)} (hkeep : keeps lang raw = .ok keep) (rows : List Row) (delete : Row → Option String) (policies : List (Fields × Case)) :
    applyRetention lang ((raw, .listed rows delete) :: policies) = (retain lang keep rows delete :: (applyRetention lang policies).1, (applyRetention lang policies).2) := by
  simp only [applyRetention, hkeep]

/-- What is done for policies that can be read: what `retain` does for each before the first that is refused, told exactly where none is. -/
theorem applied {raws : List Fields} {cases : List Case} (hlength : raws.length = cases.length) (hread : ∀ raw ∈ raws, ∃ keep, keeps lang raw = .ok keep) :
    (∀ p ∈ raws.zip (applyRetention lang (raws.zip cases)).1, ∃ keep rows delete, keeps lang p.1 = .ok keep ∧ .listed rows delete ∈ before cases ∧ p.2 = retain lang keep rows delete) ∧
      ((applyRetention lang (raws.zip cases)).2.isNone = true ↔ before cases = cases) := by
  induction cases generalizing raws with
  | nil =>
    obtain rfl := List.length_eq_zero_iff.1 hlength
    exact ⟨nofun, iff_of_true rfl rfl⟩
  | cons case cases ih =>
    cases raws with
    | nil => cases hlength
    | cons raw raws =>
      obtain ⟨keep, hkeep⟩ := hread raw List.mem_cons_self
      obtain ⟨hdone, htold⟩ := ih (Nat.succ.inj hlength) fun other hother => hread other (List.mem_cons_of_mem _ hother)
      cases case with
      | refused reason => exact ⟨nofun, iff_of_false nofun nofun⟩
      | listed rows delete =>
        have hbefore : before (.listed rows delete :: cases) = .listed rows delete :: before cases := rfl
        rw [List.zip_cons_cons, applyRetention_listed hkeep, hbefore]
        refine ⟨fun p hp => ?_, htold.trans ⟨fun h => by rw [h], fun h => (List.cons.inj h).2⟩⟩
        rcases List.mem_cons.1 hp with rfl | hp
        · exact ⟨keep, rows, delete, hkeep, List.mem_cons_self, rfl⟩
        · obtain ⟨keep', rows', delete', hkeep', hmem, heq⟩ := hdone p hp
          exact ⟨keep', rows', delete', hkeep', List.mem_cons_of_mem _ hmem, heq⟩

/-- The policy that keeps as many of each class. -/
def uniform (k : Nat) : Fields := [("keep_daily", .num k), ("keep_weekly", .num k), ("keep_monthly", .num k), ("keep_unclassified", .num k)]

theorem keeps_uniform {k : Nat} (h : k ≤ 10000) : keeps lang (uniform k) = .ok (classes.map fun cls => (cls, k)) := by
  have hvalue (cls : Class) : keepValue lang (uniform k) cls = .ok k := by
    have hget : Dict.get ("keep_" ++ cls.text) (uniform k) = some (.num k) := by cases cls <;> rfl
    have hsome : ¬ (cls = .unclassified ∧ Dict.get "keep_unclassified" (uniform k) = none) := fun h => by cases h.2
    have hrange : ¬ ((k : Int) < 0 ∨ 10000 < (k : Int)) := by omega
    rw [keepValue, if_neg hsome, hget]
    exact if_neg hrange
  unfold keeps
  simp only [hvalue]
  rfl

theorem applied_uniform {k : Nat} (h : k ≤ 10000) {cases : List Case} {rows : List Row} {delete : Row → Option String} (hmem : .listed rows delete ∈ before cases) :
    (uniform k, retain lang (classes.map fun cls => (cls, k)) rows delete) ∈
      (List.replicate cases.length (uniform k)).zip (applyRetention lang ((List.replicate cases.length (uniform k)).zip cases)).1 := by
  induction cases with
  | nil => cases hmem
  | cons case cases ih =>
    cases case with
    | refused reason => cases hmem
    | listed rows' delete' =>
      rw [List.length_cons, List.replicate_succ, List.zip_cons_cons, applyRetention_listed (keeps_uniform h)]
      rcases List.mem_cons.1 hmem with heq | hmem
      · obtain ⟨rfl, rfl⟩ := Case.listed.inj heq
        exact List.mem_cons_self
      · exact List.mem_cons_of_mem _ (ih hmem)

theorem keepOf_uniform (k : Nat) (cls : Class) : keepOf (classes.map fun cls => (cls, k)) cls = k := by cases cls <;> rfl

end

end RetentionAux

open RetentionAux

/-- A language in which a text stands for itself and is no number. -/
def sampleLanguage : Language := ⟨fun | .str s => s | _ => "", fun _ => .error "ValueError", fun _ => .error "ValueError"⟩

/-- The minutes of a day in UTC at which the clocks are set back. -/
def sampleInstant (text : String) : Int := if text = "2026-10-25T02:15:00+01:00" then 75 else if text = "2026-10-25T02:30:00+02:00" then 30 else 0

/-- The last archive before the clocks are set back, and the first after it. -/
def sampleRows : List Row :=
  [⟨"summer.tgz", "daily", .str "2026-10-25T02:30:00+02:00", .null, .missing⟩, ⟨"winter.tgz", "daily", .str "2026-10-25T02:15:00+01:00", .null, .missing⟩]

end Retention

end TecTac
