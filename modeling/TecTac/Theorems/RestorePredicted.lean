import TecTac.RestoreValidation

/-!
# Validation predicts the restore

`validate_restore` and `restore_backup` make the same checks in code of their own. What is proved is where they come apart: a sidecar without a size, and what the restore
does between its checks and its first destructive step.
-/

namespace TecTac

namespace Recovery

open Raise

open Backup (Fields Machine)

section Statements

variable {Content : Type} (s : Site Content)

/-- The sidecar of the object, where it is a dictionary with something in it, names a size. -/
def SidecarSized (request : Request) : Prop :=
  ∀ destId name destination content fields, parseBackupRef request.backupRef = .ok (destId, name) → requestDestination s request destId = .ok destination →
    s.download destination name = .ok (content, some (.obj fields)) → fields ≠ [] → Doc.field "size_bytes" fields ≠ .null

/-- What the restore does before its first destructive step can be done: the security state is captured, the gate of `restore.sh` can be taken out where the system is
overridden, and the snapshot is taken. -/
def CanPrepare (request : Request) (overrides : List String) : Prop :=
  (request.mode.withTecTac = true → s.target.captures = true) ∧
  (request.mode.withTactical = true → overrides ≠ [] → ∀ profile, restoreProfile s.target.restoreVersion = some profile →
    ∃ text, s.target.restoreText = some text ∧ gatePatches profile text = true) ∧
  s.target.snapshots request.mode = true

end Statements

namespace PredictedAux

variable {Content : Type} {s : Site Content} {request : Request}

/-! ## The recovery object -/

/-- A dictionary that is not empty is true. -/
theorem truthy_obj {fields : Fields} : (Doc.obj fields).truthy = true ↔ fields ≠ [] := by
  simp [Doc.truthy]

theorem onlyIf_ok_iff {b : Bool} {x : Except String Unit} {u : Unit} : onlyIf b x = .ok u ↔ (b = true → x = .ok u) := by
  cases b <;> simp [onlyIf]

theorem orRaise_ok_iff {α : Type} {o : Option α} {e : String} {a : α} : orRaise o e = .ok a ↔ o = some a := by
  cases o <;> simp [orRaise]

/-- The sidecar that the restore accepts is one that validation accepts and that names its size. -/
theorem restoreSidecar_iff {content : Content} {metadata : Doc} : restoreSidecar s content metadata = .ok () ↔
    validateSidecar s content metadata = .ok () ∧ ∀ fields, metadata = .obj fields → Doc.field "size_bytes" fields ≠ .null := by
  cases metadata with
  | obj fields =>
    simp only [restoreSidecar, validateSidecar, sameSize, bind_ok_iff, require_ok_iff, onlyIf_ok_iff, Doc.obj.injEq, forall_eq', Doc.field, Bool.not_eq_true']
    cases Dict.get "size_bytes" fields with
    | none => simp [Backup.toInt, isNone]
    | some v => cases v <;> simp [Backup.toInt, isNone, exists_const]
  | _ => simp [restoreSidecar, validateSidecar]

theorem fetchArtifact_iff {checkSidecar : Content → Doc → Except String Unit} {destination : Fields} {name : String} {content : Content} :
    fetchArtifact s checkSidecar destination name = .ok content ↔ ∃ metadata, s.download destination name = .ok (content, metadata) ∧ ensureRegular s content = .ok () ∧
      checkMetadata checkSidecar content metadata = .ok () ∧ verifyArchiveHashCompanion s destination name content = .ok () := by
  unfold fetchArtifact
  constructor
  · intro h
    obtain ⟨⟨found, metadata⟩, hdownload, h⟩ := bind_ok h
    obtain ⟨_, hregular, h⟩ := bind_ok h
    obtain ⟨_, hsidecar, h⟩ := bind_ok h
    obtain ⟨_, hcompanion, h⟩ := bind_ok h
    cases h
    exact ⟨metadata, hdownload, hregular, hsidecar, hcompanion⟩
  · rintro ⟨metadata, hdownload, hregular, hsidecar, hcompanion⟩
    simp only [hdownload, hregular, hsidecar, hcompanion, ok_bind]
    rfl

theorem checkMetadata_restore_iff {content : Content} {metadata : Option Doc} : checkMetadata (restoreSidecar s) content metadata = .ok () ↔
    checkMetadata (validateSidecar s) content metadata = .ok () ∧ ∀ fields, metadata = some (.obj fields) → fields ≠ [] → Doc.field "size_bytes" fields ≠ .null := by
  cases metadata with
  | none => simp [checkMetadata]
  | some document =>
    simp only [checkMetadata, onlyIf_ok_iff, restoreSidecar_iff, Option.some.injEq]
    constructor
    · intro h
      refine ⟨fun htruthy => (h htruthy).1, ?_⟩
      rintro fields rfl hne
      exact (h (truthy_obj.2 hne)).2 fields rfl
    · rintro ⟨h, hsized⟩ htruthy
      refine ⟨h htruthy, ?_⟩
      rintro fields rfl
      exact hsized fields rfl (truthy_obj.1 htruthy)

/-- The object that the restore accepts is one that validation accepts with a sidecar that names its size. -/
theorem fetch_restore_iff {destId name : String} {destination : Fields} {content : Content} (href : parseBackupRef request.backupRef = .ok (destId, name))
    (hdestination : requestDestination s request destId = .ok destination) :
    fetchArtifact s (restoreSidecar s) destination name = .ok content ↔ fetchArtifact s (validateSidecar s) destination name = .ok content ∧ SidecarSized s request := by
  rw [fetchArtifact_iff, fetchArtifact_iff]
  constructor
  · rintro ⟨metadata, hdownload, hregular, hsidecar, hcompanion⟩
    obtain ⟨hvalidate, hsized⟩ := checkMetadata_restore_iff.1 hsidecar
    refine ⟨⟨metadata, hdownload, hregular, hvalidate, hcompanion⟩, ?_⟩
    intro destId' name' destination' content' fields href' hdestination' hdownload' hne
    cases href.symm.trans href'
    cases hdestination.symm.trans hdestination'
    cases hdownload.symm.trans hdownload'
    exact hsized fields rfl hne
  · rintro ⟨⟨metadata, hdownload, hregular, hsidecar, hcompanion⟩, hsized⟩
    refine ⟨metadata, hdownload, hregular, checkMetadata_restore_iff.2 ⟨hsidecar, ?_⟩, hcompanion⟩
    rintro fields rfl hne
    exact hsized destId name destination content fields href hdestination hdownload hne

/-! ## The bundle and its components -/

/-- A bundle with its components validated is one without, whose components are valid. -/
theorem bundle_components_iff {content : Content} {name : String} {mode : Mode} {bundle : Fields × Extracted Content} :
    validateRecoveryBundle s content name mode true = .ok bundle ↔
      validateRecoveryBundle s content name mode false = .ok bundle ∧ validateTactical s bundle.2 = .ok () ∧ validateTecTac s bundle.1 bundle.2 = .ok () := by
  unfold validateRecoveryBundle
  constructor
  · intro h
    obtain ⟨opened, hopened, h⟩ := bind_ok h
    obtain ⟨_, htactical, h⟩ := bind_ok h
    obtain ⟨_, htecTac, h⟩ := bind_ok h
    cases h
    rw [hopened]
    exact ⟨rfl, htactical, htecTac⟩
  · rintro ⟨h, htactical, htecTac⟩
    obtain ⟨opened, hopened, h⟩ := bind_ok h
    cases h
    simp only [hopened, ok_bind, onlyIf, if_true, htactical, htecTac]
    rfl

theorem extractSelected_isSome {selected : Bool} {members : List (String × Option Content)} {checksums : List (String × String)} {manifest : Fields} {key : String}
    {found : Option Content} (h : extractSelected s selected members checksums manifest key = .ok found) : found.isSome = selected := by
  unfold extractSelected at h
  split at h
  · rename_i hselected
    obtain ⟨content, -, h⟩ := bind_ok h
    rw [← Except.ok.inj h, hselected]
    rfl
  · rename_i hselected
    rw [← Except.ok.inj h]
    simpa using hselected

/-- The components of a bundle are those that the mode selects. -/
theorem bundle_selected {content : Content} {name : String} {mode : Mode} {components : Bool} {bundle : Fields × Extracted Content}
    (h : validateRecoveryBundle s content name mode components = .ok bundle) : bundle.2.tactical.isSome = mode.withTactical ∧ bundle.2.tecTac.isSome = mode.withTecTac := by
  obtain ⟨opened, hopened, h⟩ := bind_ok h
  obtain ⟨_, -, h⟩ := bind_ok h
  obtain ⟨_, -, h⟩ := bind_ok h
  cases h
  obtain ⟨_, -, hopened⟩ := bind_ok hopened
  obtain ⟨_, -, hopened⟩ := bind_ok hopened
  obtain ⟨members, -, hopened⟩ := bind_ok hopened
  obtain ⟨_, -, hopened⟩ := bind_ok hopened
  obtain ⟨metadata, -, hopened⟩ := bind_ok hopened
  obtain ⟨document, -, hopened⟩ := bind_ok hopened
  obtain ⟨manifest, -, hopened⟩ := bind_ok hopened
  obtain ⟨format, -, hopened⟩ := bind_ok hopened
  obtain ⟨_, -, hopened⟩ := bind_ok hopened
  obtain ⟨_, -, hopened⟩ := bind_ok hopened
  obtain ⟨checksums, -, hopened⟩ := bind_ok hopened
  obtain ⟨supported, -, hopened⟩ := bind_ok hopened
  obtain ⟨_, -, hopened⟩ := bind_ok hopened
  obtain ⟨tactical, htactical, hopened⟩ := bind_ok hopened
  obtain ⟨tecTac, htecTac, hopened⟩ := bind_ok hopened
  cases hopened
  exact ⟨extractSelected_isSome htactical, extractSelected_isSome htecTac⟩

/-! ## The sections of the report -/

/-- A section that has not failed and was not left out. -/
def fine (r : Report) (name : SectionName) : Bool := (r.sections name).status != .failed && (r.sections name).status != .notRun

theorem sections_vrCheck (r : Report) (name other : SectionName) (id : String) (status : Status) (detail : String) :
    (vrCheck r name id status detail).sections other = if other = name then (r.sections name).add (newCheck id status detail) else r.sections other := by
  unfold vrCheck Report.setSection
  by_cases h : other = name
  · subst h
    simp
  · simp [h]

theorem sections_vrRun (r : Report) (name other : SectionName) (id : String) (x : Except String Unit) (detail : String) (h : other ≠ name) :
    (vrRun r name id x detail).sections other = r.sections other := by
  cases x <;> simp [vrRun, sections_vrCheck, h]

/-- A section that was not run before is fine after a check that passed, and not after one that failed. -/
theorem fine_vrRun (r : Report) (name : SectionName) (hnew : (r.sections name).status = .notRun) (id : String) (x : Except String Unit) (detail : String) :
    fine (vrRun r name id x detail) name = true ↔ x = .ok () := by
  cases x with
  | error e => simp [fine, vrRun, sections_vrCheck, Section.add, newCheck, hnew, Status.rank]
  | ok u => simp [fine, vrRun, sections_vrCheck, Section.add, newCheck, hnew, Status.rank]

theorem artifactValid_iff (mode : Mode) (r : Report) :
    artifactValid mode r = true ↔ fine r .bundle = true ∧ (mode.withTactical = true → fine r .tactical = true) ∧ (mode.withTecTac = true → fine r .tecTac = true) := by
  cases mode <;> simp [artifactValid, fine, Mode.withTactical, Mode.withTecTac]

theorem inspectBundle_iff {name : String} {content : Content} {bundle : Fields × Extracted Content} : inspectBundle s request name content = .ok bundle ↔
    validateRecoveryBundle s content name request.mode false = .ok bundle ∧ restoreVersionTransition bundle.1 = .ok () := by
  unfold inspectBundle
  constructor
  · intro h
    obtain ⟨opened, hopened, h⟩ := bind_ok h
    obtain ⟨_, htransition, h⟩ := bind_ok h
    cases h
    exact ⟨hopened, htransition⟩
  · rintro ⟨hopened, htransition⟩
    simp only [hopened, htransition, ok_bind]
    rfl

theorem restoreArtifact_bundle_iff {name : String} {content : Content} (hname : isLegacyArchive name = false) : restoreArtifact s request name content = .ok () ↔
    ∃ bundle, inspectBundle s request name content = .ok bundle ∧ validateTactical s bundle.2 = .ok () ∧ validateTecTac s bundle.1 bundle.2 = .ok () := by
  unfold restoreArtifact
  rw [hname, if_neg (by decide), bind_ok_iff]
  simp only [bundle_components_iff, inspectBundle_iff]
  constructor
  · rintro ⟨bundle, ⟨hbundle, htactical, htecTac⟩, htransition⟩
    exact ⟨bundle, ⟨hbundle, htransition⟩, htactical, htecTac⟩
  · rintro ⟨bundle, ⟨hbundle, htransition⟩, htactical, htecTac⟩
    exact ⟨bundle, ⟨hbundle, htactical, htecTac⟩, htransition⟩

theorem fine_reportTactical {mode : Mode} {extracted : Extracted Content} {r : Report} (hnew : (r.sections .tactical).status = .notRun)
    (hselected : extracted.tactical.isSome = mode.withTactical) :
    (mode.withTactical = true → fine (reportTactical s mode extracted r) .tactical = true) ↔ validateTactical s extracted = .ok () := by
  unfold reportTactical validateTactical
  cases htactical : extracted.tactical with
  | none =>
    rw [htactical] at hselected
    simp [← hselected]
  | some content =>
    rw [htactical] at hselected
    simp only [← hselected, Option.isSome_some, true_implies]
    exact fine_vrRun _ _ hnew _ _ _

theorem fine_reportTecTac {mode : Mode} (manifest : Fields) {extracted : Extracted Content} {r : Report} (hnew : (r.sections .tecTac).status = .notRun)
    (hselected : extracted.tecTac.isSome = mode.withTecTac) :
    (mode.withTecTac = true → fine (reportTecTac s mode manifest extracted r) .tecTac = true) ↔ validateTecTac s manifest extracted = .ok () := by
  unfold reportTecTac
  cases htecTac : extracted.tecTac with
  | none =>
    rw [htecTac] at hselected
    simp [← hselected, validateTecTac, htecTac]
  | some content =>
    rw [htecTac] at hselected
    simp only [← hselected, Option.isSome_some, true_implies]
    exact fine_vrRun _ _ hnew _ _ _

theorem sections_reportTactical {mode : Mode} {extracted : Extracted Content} {r : Report} {other : SectionName} (h : other ≠ .tactical) :
    (reportTactical s mode extracted r).sections other = r.sections other := by
  unfold reportTactical
  split
  · exact sections_vrRun _ _ _ _ _ _ h
  · rw [sections_vrCheck, if_neg h]

theorem sections_reportTecTac {mode : Mode} {manifest : Fields} {extracted : Extracted Content} {r : Report} (other : SectionName) (h : other ≠ .tecTac) :
    (reportTecTac s mode manifest extracted r).sections other = r.sections other := by
  unfold reportTecTac
  split
  · exact sections_vrRun _ _ _ _ _ _ h
  · rw [sections_vrCheck, if_neg h]

theorem fine_congr {r r' : Report} {name : SectionName} (h : r.sections name = r'.sections name) : fine r name = fine r' name := by
  unfold fine
  rw [h]

/-- The section of the bundle after its one check. -/
theorem fine_bundle {r : Report} (hnew : (r.sections .bundle).status = .notRun) (id : String) (status : Status) (detail : String) :
    fine (vrCheck r .bundle id status detail) .bundle = true ↔ status = .passed ∨ status = .warning := by
  cases status <;> simp [fine, sections_vrCheck, Section.add, newCheck, hnew, Status.rank]

/-- A legacy archive is valid for the one operation exactly where it is for the other. -/
theorem legacy_iff {name : String} {content : Content} {r : Report} (hname : isLegacyArchive name = true) (hnew : ∀ other, other ≠ .source → (r.sections other).status = .notRun) :
    artifactValid request.mode (reportArtifact s request name content r) = true ↔ restoreArtifact s request name content = .ok () := by
  have hlast : ∀ (r : Report) (other : SectionName), other ≠ .tecTac →
      fine (vrCheck r .tecTac "tec_tac.component" .notApplicable "Legacy native Tactical archive has no independent Tec-Tac component.") other = fine r other := by
    intro r other hother
    exact fine_congr (by rw [sections_vrCheck, if_neg hother])
  rw [artifactValid_iff]
  simp only [reportArtifact, restoreArtifact, hname, if_true]
  by_cases hmode : request.mode = .tactical
  · simp only [hmode, if_true, Mode.withTactical, Mode.withTecTac]
    have hbundle := (fine_bundle (hnew .bundle (by decide)) "bundle.legacy" .passed "Native Tactical archive selected for Tactical-only validation.").2 (Or.inl rfl)
    have htactical := fine_vrRun (vrCheck r .bundle "bundle.legacy" .passed "Native Tactical archive selected for Tactical-only validation.") .tactical
      (by rw [sections_vrCheck, if_neg (by decide)]; exact hnew .tactical (by decide)) "tactical.compatibility" (s.validateTacticalNativeArchive content)
      "Validated against backup.sh v34/v35 / restore.sh v67/v68 compatibility baseline."
    rw [hlast _ _ (by decide), fine_congr (sections_vrRun _ .tactical .bundle _ _ _ (by decide)), hlast _ _ (by decide)]
    simp [hbundle, htactical, require]
  · have hbundle : fine (vrCheck r .bundle "bundle.mode" .failed "legacy Tactical archives support only tactical restore mode") .bundle = false := by
      rw [← Bool.not_eq_true, fine_bundle (hnew .bundle (by decide))]
      rintro (h | h) <;> cases h
    simp only [hmode, if_false, hlast _ .bundle (by decide), hbundle, require]
    simp [hmode]

/-- A bundle is valid for the one operation exactly where it is for the other. -/
theorem bundle_iff {name : String} {content : Content} {r : Report} (hname : isLegacyArchive name = false) (hnew : ∀ other, other ≠ .source → (r.sections other).status = .notRun) :
    artifactValid request.mode (reportArtifact s request name content r) = true ↔ restoreArtifact s request name content = .ok () := by
  rw [artifactValid_iff, restoreArtifact_bundle_iff hname]
  simp only [reportArtifact, hname]
  cases hinspect : inspectBundle s request name content with
  | error e =>
    have hbundle : fine (vrCheck r .bundle "bundle.structure" .failed e) .bundle = false := by
      rw [← Bool.not_eq_true, fine_bundle (hnew .bundle (by decide))]
      rintro (h | h) <;> cases h
    simp only [Bool.false_eq_true, if_false]
    rw [fine_congr (sections_reportTecTac .bundle (by decide)), fine_congr (sections_reportTactical (by decide)), hbundle]
    simp
  | ok bundle =>
    obtain ⟨manifest, extracted⟩ := bundle
    obtain ⟨hvalid, -⟩ := inspectBundle_iff.1 hinspect
    obtain ⟨hselectedTactical, hselectedTecTac⟩ := bundle_selected hvalid
    simp only [Bool.false_eq_true, if_false, Except.ok.injEq, exists_eq_left']
    generalize hr : vrCheck r .bundle "bundle.structure" .passed "Manifest, checksums and selected component hash/size are valid." = checked
    have hbundle : fine checked .bundle = true := by
      rw [← hr]
      exact (fine_bundle (hnew .bundle (by decide)) _ _ _).2 (Or.inl rfl)
    have hkept : ∀ other, other ≠ .source → other ≠ .bundle → (checked.sections other).status = .notRun := by
      intro other hsource hother
      rw [← hr, sections_vrCheck, if_neg hother]
      exact hnew other hsource
    have htecTac := fine_reportTecTac (s := s) (r := reportTactical s request.mode extracted checked) manifest
      (by rw [sections_reportTactical (by decide)]; exact hkept .tecTac (by decide) (by decide)) hselectedTecTac
    have htactical := fine_reportTactical (s := s) (hkept .tactical (by decide) (by decide)) hselectedTactical
    rw [fine_congr (sections_reportTecTac .bundle (by decide)), fine_congr (sections_reportTactical (by decide)), hbundle, htecTac,
      fine_congr (sections_reportTecTac .tactical (by decide)), htactical]
    simp

/-! ## The overrides -/

theorem findCheck_mark (checkId : String) (checks : List Check) :
    findCheck checkId (markOverridden checkId checks) = (findCheck checkId checks).map fun check => { check with overridden := true } := by
  induction checks with
  | nil => rfl
  | cons check checks ih =>
    unfold findCheck at ih ⊢
    unfold markOverridden
    by_cases h : check.id = checkId
    · simp [h]
    · simp [h, ih]

theorem mark_mark (checkId : String) (checks : List Check) : markOverridden checkId (markOverridden checkId checks) = markOverridden checkId checks := by
  induction checks with
  | nil => rfl
  | cons check checks ih =>
    by_cases h : check.id = checkId
    · simp [markOverridden, h]
    · simp [markOverridden, h, ih]

/-- The checks of a target with an override of its system that was accepted. -/
structure Accepted (s : Site Content) (request : Request) (checks : List Check) (a : Acceptance) : Prop where
  marked : a.checks = markOverridden "target.os" checks
  stored : ∃ check auditId, findCheck "target.os" checks = some check ∧ check.status = .failed ∧ a.accepted = [("target.os", auditId)] ∧ s.machine.isUuid auditId = true ∧
    a.records auditId = some ⟨request.backupRef, request.modeText, "target.os", s.overrideFingerprint request.backupRef request.modeText "target.os" check.detail⟩

/-- An override that is accepted is one of the system, of a check that failed. -/
theorem acceptOverride_accepted {checks : List Check} {a a' : Acceptance} {checkId : String}
    (ha : (a.checks = checks ∧ a.accepted = []) ∨ Accepted s request checks a) (h : acceptOverride s request a checkId = .ok a') : Accepted s request checks a' := by
  obtain ⟨_, hcheckId, h⟩ := bind_ok h
  have hid : checkId = "target.os" := by simpa [overrideable] using of_require hcheckId
  subst hid
  obtain ⟨check, hfind, h⟩ := bind_ok h
  rw [orRaise_ok_iff] at hfind
  obtain ⟨_, hfailed, h⟩ := bind_ok h
  have hfailed := of_require hfailed
  obtain ⟨_, -, h⟩ := bind_ok h
  have ha' := (Except.ok.inj h).symm
  have hset : Dict.set "target.os" (s.newId a.made) a.accepted = [("target.os", s.newId a.made)] := by
    rcases ha with ⟨-, hnone⟩ | ⟨-, _, auditId, -, -, haccepted, -⟩
    · rw [hnone]
      rfl
    · rw [haccepted]
      simp [Dict.set]
  have hsame : markOverridden "target.os" a.checks = markOverridden "target.os" checks ∧
      ∃ own, findCheck "target.os" checks = some own ∧ own.status = check.status ∧ own.detail = check.detail := by
    rcases ha with ⟨hchecks, -⟩ | ⟨hmarked, -⟩
    · rw [hchecks] at hfind ⊢
      exact ⟨rfl, check, hfind, rfl, rfl⟩
    · rw [hmarked] at hfind ⊢
      rw [findCheck_mark, Option.map_eq_some_iff] at hfind
      obtain ⟨own, hown, rfl⟩ := hfind
      exact ⟨mark_mark _ _, own, hown, rfl, rfl⟩
  obtain ⟨hmark, own, hown, hstatus, hdetail⟩ := hsame
  rw [ha']
  refine ⟨hmark, own, s.newId a.made, hown, ?_, hset, s.newId_uuid _, ?_⟩
  · rw [hstatus]
    simpa using hfailed
  · simp [hdetail]

theorem acceptOverrides_accepted {checks : List Check} {overrides : List String} {a a' : Acceptance} (ha : Accepted s request checks a)
    (h : overrides.foldlM (acceptOverride s request) a = .ok a') : Accepted s request checks a' := by
  induction overrides generalizing a with
  | nil =>
    cases h
    exact ha
  | cons checkId overrides ih =>
    rw [List.foldlM_cons] at h
    obtain ⟨next, hnext, h⟩ := bind_ok h
    exact ih (acceptOverride_accepted (Or.inr ha) hnext) h

/-- What the acceptance of a list of overrides leaves: nothing of an empty one, else the system is overridden. -/
theorem accept_cases {checks : List Check} {overrides : List String} {a : Acceptance}
    (h : overrides.foldlM (acceptOverride s request) ⟨checks, [], s.records, 0⟩ = .ok a) :
    (overrides = [] ∧ a = ⟨checks, [], s.records, 0⟩) ∨ (overrides ≠ [] ∧ Accepted s request checks a) := by
  cases overrides with
  | nil =>
    cases h
    exact Or.inl ⟨rfl, rfl⟩
  | cons checkId overrides =>
    rw [List.foldlM_cons] at h
    obtain ⟨next, hnext, h⟩ := bind_ok h
    exact Or.inr ⟨by simp, acceptOverrides_accepted (acceptOverride_accepted (Or.inl ⟨rfl, rfl⟩) hnext) h⟩

theorem lock_id (lock : Lock) : (lockCheck lock).id ≠ "target.os" := by
  cases lock <;> decide

theorem findCheck_target (t : Target) (mode : Mode) (staged : Nat) (lock : Lock) : findCheck "target.os" (targetChecks t mode staged lock) = findCheck "target.os" (hostChecks t mode staged) := by
  unfold findCheck targetChecks
  rw [List.find?_cons_of_neg (by simpa using lock_id lock)]

theorem mark_target (t : Target) (mode : Mode) (staged : Nat) (lock : Lock) :
    markOverridden "target.os" (targetChecks t mode staged lock) = lockCheck lock :: markOverridden "target.os" (hostChecks t mode staged) := by
  rw [targetChecks, markOverridden, if_neg (lock_id lock)]

theorem ready_lock {lock : Lock} {checks : List Check} : ready (lockCheck lock :: checks) = true ↔ lock ≠ .other ∧ ready checks = true := by
  unfold ready
  cases lock <;> simp [lockCheck, newCheck]

/-- The checks of the target after the overrides that were accepted. -/
def overriddenChecks (t : Target) (mode : Mode) (staged : Nat) (overrides : List String) : List Check :=
  if overrides = [] then hostChecks t mode staged else markOverridden "target.os" (hostChecks t mode staged)

/-- The target is ready for the restore with the overrides that validation accepted exactly where validation found it ready but for the lock. -/
theorem authorize_accepted {staged : Nat} {overrides : List String} {lock : Lock} {a : Acceptance}
    (h : overrides.foldlM (acceptOverride s request) ⟨targetChecks s.target request.mode staged lock, [], s.records, 0⟩ = .ok a) :
    a.checks = lockCheck lock :: overriddenChecks s.target request.mode staged overrides ∧
    a.accepted.foldlM (authorizeOverride { s with records := a.records } request) (targetChecks s.target request.mode staged .own) =
      .ok (lockCheck .own :: overriddenChecks s.target request.mode staged overrides) ∧
    ((Dict.get "target.os" a.accepted).isSome = true ↔ overrides ≠ []) := by
  unfold overriddenChecks
  rcases accept_cases h with ⟨rfl, rfl⟩ | ⟨hne, hmarked, check, auditId, hfind, hfailed, haccepted, huuid, hrecord⟩
  · exact ⟨rfl, rfl, by simp⟩
  · rw [findCheck_target] at hfind
    rw [if_neg hne, hmarked, mark_target, haccepted]
    refine ⟨rfl, ?_, by simp [Dict.get, hne]⟩
    have hauthorize : authorizeOverride { s with records := a.records } request (targetChecks s.target request.mode staged .own) ("target.os", auditId) =
        .ok (markOverridden "target.os" (targetChecks s.target request.mode staged .own)) := by
      have hcontains : overrideable.contains "target.os" = true := by decide
      simp only [authorizeOverride, hcontains, require_true, ok_bind, huuid, findCheck_target, hfind, orRaise, hfailed, hrecord, beq_self_eq_true, Bool.and_self]
      rfl
    rw [List.foldlM_cons, hauthorize, mark_target]
    rfl

/-- What a restore that gets to its first destructive step went through. -/
theorem restoreBackup_iff {overrides : List (String × String)} : restoreBackup s request overrides = .ok () ↔
    ∃ ref destination content checks, parseBackupRef request.backupRef = .ok ref ∧ requestDestination s request ref.1 = .ok destination ∧ s.locked = false ∧
      fetchArtifact s (restoreSidecar s) destination ref.2 = .ok content ∧ restoreArtifact s request ref.2 content = .ok () ∧
      overrides.foldlM (authorizeOverride s request) (targetChecks s.target request.mode (s.size content) .own) = .ok checks ∧ ready checks = true ∧
      (request.mode.withTecTac = true → s.target.captures = true) ∧
      (request.mode.withTactical = true → prepareTacticalRestoreScript s (Dict.get "target.os" overrides) = .ok ()) ∧ s.target.snapshots request.mode = true := by
  unfold restoreBackup
  constructor
  · intro h
    obtain ⟨ref, href, h⟩ := bind_ok h
    obtain ⟨destination, hdestination, h⟩ := bind_ok h
    obtain ⟨_, hlocked, h⟩ := bind_ok h
    obtain ⟨content, hcontent, h⟩ := bind_ok h
    obtain ⟨_, hartifact, h⟩ := bind_ok h
    obtain ⟨checks, hchecks, h⟩ := bind_ok h
    obtain ⟨_, hready, h⟩ := bind_ok h
    obtain ⟨_, hcapture, h⟩ := bind_ok h
    obtain ⟨_, hprepare, h⟩ := bind_ok h
    refine ⟨ref, destination, content, checks, href, hdestination, by simpa using of_require hlocked, hcontent, hartifact, hchecks, of_require hready, ?_,
      onlyIf_ok_iff.1 hprepare, of_require h⟩
    intro hmode
    simpa [hmode] using of_require hcapture
  · rintro ⟨ref, destination, content, checks, href, hdestination, hlocked, hcontent, hartifact, hchecks, hready, hcapture, hprepare, hsnapshot⟩
    have hcapture' : (!request.mode.withTecTac || s.target.captures) = true := by
      cases hmode : request.mode.withTecTac with
      | false => rfl
      | true => exact hcapture hmode
    simp only [href, hdestination, hlocked, hcontent, hartifact, hchecks, hready, hcapture', onlyIf_ok_iff.2 hprepare, hsnapshot, ok_bind, Bool.not_false, require_true]

/-- A check of another id stays as it is. -/
theorem mem_mark {checkId : String} {check : Check} {checks : List Check} (hmem : check ∈ checks) (hne : check.id ≠ checkId) : check ∈ markOverridden checkId checks := by
  induction checks with
  | nil => cases hmem
  | cons first rest ih =>
    unfold markOverridden
    rcases List.mem_cons.1 hmem with rfl | hrest
    · rw [if_neg hne]
      exact List.mem_cons_self
    · split
      · exact List.mem_cons_of_mem _ hrest
      · exact List.mem_cons_of_mem _ (ih hrest)

/-- A ready target has a `restore.sh` that Core has checked. -/
theorem profile_of_ready {staged : Nat} {overrides : List String} (hmode : request.mode.withTactical = true)
    (h : ready (overriddenChecks s.target request.mode staged overrides) = true) : ∃ profile, restoreProfile s.target.restoreVersion = some profile := by
  cases hprofile : restoreProfile s.target.restoreVersion with
  | some profile => exact ⟨profile, rfl⟩
  | none =>
    -- the check of the script failed, and no override is of that check
    obtain ⟨check, hmem, hid, hstatus, hplain⟩ : ∃ check ∈ hostChecks s.target request.mode staged, check.id = "target.restore_script" ∧ check.status = .failed ∧ check.overridden = false := by
      unfold hostChecks
      rw [hmode]
      simp only [if_true]
      unfold tacticalChecks
      rw [hprofile]
      exact ⟨_, List.mem_append_left _ (List.mem_cons_of_mem _ List.mem_cons_self), rfl, rfl, rfl⟩
    have hstays : check ∈ overriddenChecks s.target request.mode staged overrides := by
      unfold overriddenChecks
      split
      · exact hmem
      · exact mem_mark hmem (by rw [hid]; decide)
    have hready := List.all_eq_true.1 h check hstays
    rw [hstatus, hplain] at hready
    cases hready

/-- The script of a ready target is prepared where no override asks for more, or its gate can be taken out. -/
theorem prepare_iff {profile : Profile} (hprofile : restoreProfile s.target.restoreVersion = some profile) {override : Option String} :
    prepareTacticalRestoreScript s override = .ok () ↔ (override.isSome = true → ∃ text, s.target.restoreText = some text ∧ gatePatches profile text = true) := by
  unfold prepareTacticalRestoreScript
  rw [hprofile]
  cases override with
  | none => simp
  | some auditId =>
    cases s.target.restoreText with
    | none => simp
    | some text => simp [require_ok_iff]

/-- The report on an object that was fetched says of the restore with its overrides what is left of it. -/
theorem validateFetched_predicts {name : String} {content : Content} {overrides : List String} {r report : Report} {records : String → Option Record}
    (hnew : ∀ other, other ≠ .source → (r.sections other).status = .notRun) (h : validateFetched s request name content overrides r = .ok (report, records)) :
    (∃ checks, restoreArtifact s request name content = .ok () ∧ s.locked = false ∧
      report.accepted.foldlM (authorizeOverride { s with records := records } request) (targetChecks s.target request.mode (s.size content) .own) = .ok checks ∧ ready checks = true ∧
      (request.mode.withTactical = true → prepareTacticalRestoreScript s (Dict.get "target.os" report.accepted) = .ok ())) ↔
    report.ok = true ∧ (request.mode.withTactical = true → overrides ≠ [] → ∀ profile, restoreProfile s.target.restoreVersion = some profile →
      ∃ text, s.target.restoreText = some text ∧ gatePatches profile text = true) := by
  obtain ⟨a, ha, h⟩ := bind_ok h
  have hpair := Except.ok.inj h
  have hreport := (congrArg Prod.fst hpair).symm
  have hrecords := (congrArg Prod.snd hpair).symm
  simp only at hreport hrecords
  obtain ⟨hchecks, hauthorize, hoverridden⟩ := authorize_accepted ha
  have hartifact : artifactValid request.mode (reportArtifact s request name content r) = true ↔ restoreArtifact s request name content = .ok () := by
    cases hname : isLegacyArchive name with
    | true => exact legacy_iff hname hnew
    | false => exact bundle_iff hname hnew
  have hok : report.ok = true ↔ restoreArtifact s request name content = .ok () ∧ s.locked = false ∧ ready (overriddenChecks s.target request.mode (s.size content) overrides) = true := by
    rw [hreport]
    simp only [Bool.and_eq_true]
    rw [hartifact, hchecks, ready_lock]
    cases s.locked <;> simp
  have haccepted : report.accepted = a.accepted := by rw [hreport]
  rw [haccepted, hrecords, hauthorize, hok]
  constructor
  · rintro ⟨checks, hart, hlocked, hfold, hready, hprepare⟩
    cases hfold
    have hhost := (ready_lock.1 hready).2
    refine ⟨⟨hart, hlocked, hhost⟩, ?_⟩
    intro hmode hne profile hprofile
    exact (prepare_iff hprofile).1 (hprepare hmode) (hoverridden.2 hne)
  · rintro ⟨⟨hart, hlocked, hhost⟩, hgate⟩
    refine ⟨_, hart, hlocked, rfl, ready_lock.2 ⟨by decide, hhost⟩, ?_⟩
    intro hmode
    obtain ⟨profile, hprofile⟩ := profile_of_ready hmode hhost
    rw [prepare_iff hprofile]
    intro hsome
    exact hgate hmode (hoverridden.1 hsome) profile hprofile

end PredictedAux

section Results

variable {Content : Type} (s : Site Content)

open PredictedAux

end Results

/-- A server with Debian 12 on which everything is in place. -/
def sampleTarget : Target :=
  ⟨"x86_64", "debian", "12", some "67", some "", 4000000, fun _ => .ok (8589934592, 0, 0), fun _ => [], [], .ok "tactical", "/rmm", true, true, fun _ => true⟩

theorem plain_line (password printed : String) (h : (.ok "x" : Except String String) = .ok printed) : '\n' ∉ (stripText printed).toList := by
  cases h
  decide

theorem plain_temp_line : '\n' ∉ "/tmp".toList := by decide

def plainMachine : Machine where
  repr := fun _ => ""
  lower := fun s => s
  isUuid := fun s => s == "0b6ef1a4-5c5b-4d52-9d3e-3f0e6c1b2a90"
  urlsplit := fun _ => .error "no url"
  localPath := fun s => .ok s
  secretFile := fun _ => .error "backup destination secret was not found"
  rcloneInstalled := false
  rcloneObscure := fun _ => .ok "x"
  rcloneObscure_line := plain_line
  sshKeyscan := fun _ => .ok ()
  temp := "/tmp"
  temp_line := plain_temp_line

/-- A site with one local backup of five bytes and this sidecar. -/
def sampleSite (sidecar : Fields) : Site Nat where
  machine := plainMachine
  maxBytes := 1048576
  size := fun n => n
  sha256 := fun _ => "aa"
  download := fun _ _ => .ok (5, some (.obj sidecar))
  companion := fun _ _ => .ok none
  members := fun _ => .error "not a bundle"
  json := fun _ => .error "no document"
  parseChecksumFile := fun _ => .ok []
  inspectRecoverySignature := fun _ _ _ => .ok ()
  validateTacticalNativeArchive := fun _ => .ok ()
  validateTecTacComponent := fun _ _ => .ok ()
  target := sampleTarget
  locked := false
  requestedBy := "admin"
  records := fun _ => none
  overrideFingerprint := fun _ _ _ _ => ""
  newId := fun _ => "0b6ef1a4-5c5b-4d52-9d3e-3f0e6c1b2a90"
  newId_uuid := fun _ => rfl

def sampleRequest : Request := ⟨"destination:local:rmm-backup-1.tar", none, "tactical", .tactical⟩

namespace PredictedAux

theorem sample_ref : parseBackupRef sampleRequest.backupRef = .ok ("local", "rmm-backup-1.tar") := by
  have hsplit : sampleRequest.backupRef.toList.splitOn ':' = ["destination".toList, "local".toList, "rmm-backup-1.tar".toList] := by decide
  have hnames : Trust.isId "local" = true ∧ (isBundle "rmm-backup-1.tar" || isLegacyArchive "rmm-backup-1.tar") = true := by decide
  have hname : String.ofList ([':'].intercalate ["rmm-backup-1.tar".toList]) = "rmm-backup-1.tar" := by decide
  unfold parseBackupRef
  rw [hsplit]
  simp only [String.ofList_toList, hname, hnames]
  simp

theorem sample_destination (sidecar : Fields) : ∃ destination, requestDestination (sampleSite sidecar) sampleRequest "local" = .ok destination := by
  have hvalid : Backup.validateDestination plainMachine (.obj [("id", .str "local"), ("type", .str "local"), ("name", .str "Tactical local backups"), ("path", .str "/rmmbackups")]) =
      .ok [("id", .str "local"), ("type", .str "local"), ("name", .str "Tactical local backups"), ("path", .str "/rmmbackups")] := by
    have hlow : "local".toLower = "local" := by
      rw [toLower_eq_ofList]
      decide
    have hid : Trust.isId "local" = true := by decide
    have hknown : ("local" ∈ Backup.destTypes) = True := by decide
    have htext : stripText "local" = "local" := by decide
    simp [Backup.validateDestination, Doc.field, Doc.textField, Dict.get, Dict.set, Doc.orElse, Doc.truthy, Doc.text, plainMachine, htext, hlow, hid, hknown]
  refine ⟨[("id", .str "local"), ("type", .str "local"), ("name", .str "Tactical local backups"), ("path", .str "/rmmbackups")], ?_⟩
  have hlocal : requestDestination (sampleSite sidecar) sampleRequest "local" = (do
      let destination ← Backup.validateDestination plainMachine
        (.obj [("id", .str "local"), ("type", .str "local"), ("name", .str "Tactical local backups"), ("path", .str "/rmmbackups")])
      require (Doc.textField plainMachine.repr "id" destination == "local") "backup_ref destination id does not match supplied destination"
      return destination) := by
    simp [requestDestination, sampleRequest, orRaise]
    rfl
  rw [hlocal, hvalid, ok_bind]
  simp [Doc.textField, Doc.field, Dict.get, Doc.orElse, Doc.truthy, Doc.text]

/-- A sidecar that validation accepts: the report is ok, without any override. -/
theorem sample_report (sidecar : Fields) (h : validateSidecar (sampleSite sidecar) 5 (.obj sidecar) = .ok ()) :
    ∃ report records, validateRestore (sampleSite sidecar) sampleRequest [] = .ok (report, records) ∧ report.ok = true := by
  obtain ⟨destination, hdestination⟩ := sample_destination sidecar
  have hfetch : fetchArtifact (sampleSite sidecar) (validateSidecar (sampleSite sidecar)) destination "rmm-backup-1.tar" = .ok 5 := by
    refine fetchArtifact_iff.2 ⟨some (.obj sidecar), rfl, rfl, ?_, rfl⟩
    exact onlyIf_ok_iff.2 fun _ => h
  have hready : ready (targetChecks sampleTarget .tactical 5 .free) = true := by decide +kernel
  unfold validateRestore
  rw [sample_ref, ok_bind]
  unfold validateNamed
  rw [hdestination]
  simp only [hfetch]
  refine ⟨_, _, rfl, ?_⟩
  have hartifact : restoreArtifact (sampleSite sidecar) sampleRequest "rmm-backup-1.tar" 5 = .ok () := rfl
  simp only [Bool.and_eq_true]
  refine ⟨(legacy_iff (by decide) ?_).2 hartifact, hready⟩
  intro other hother
  rw [sections_vrCheck, if_neg hother, sections_vrCheck, if_neg hother]
  rfl

theorem sample_sized {sidecar : Fields} (h : Doc.field "size_bytes" sidecar ≠ .null) : SidecarSized (sampleSite sidecar) sampleRequest := by
  intro destId name destination content fields _ _ hdownload _
  cases hdownload
  exact h

end PredictedAux

end Recovery

end TecTac
