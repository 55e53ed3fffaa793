import TecTac.HotfixInspection
import TecTac.Lemmas.Hotfix

/-!
# Core's inspection and root's reading

Where Core accepts a hotfix, root accepts it with the same identity, targets and hashes and does no less after the write, exactly where the archive and the module are
plain: the module has a reportset, no name of the payload has a backslash, no field that root reads as it is has blanks or capitals that Core takes off, and what
follows the write does not rest on a spelling that only Core knows. What root replaces is in a module root; it is a manifest, a migration or a lifecycle file only
where a link inside the module leads to one.
-/

namespace TecTac

namespace Hotfix

open Raise

variable {Content : Type}

/-- Root reads what Core shows, and does at least what Core computed. -/
structure Agrees (core root : Reading) : Prop where
  moduleId : root.moduleId = core.moduleId
  hotfixId : root.hotfixId = core.hotfixId
  baseVersion : root.baseVersion = core.baseVersion
  rows : root.rows = core.rows
  reload : core.effective.reload = true → root.effective.reload = true
  uiSync : core.effective.uiSync = true → root.effective.uiSync = true
  pythonCompile : core.effective.pythonCompile = true → root.effective.pythonCompile = true
  djangoCheck : core.effective.djangoCheck = true → root.effective.djangoCheck = true

/-- The names of a manifest, a migration or a lifecycle file below a module root. -/
def isProtected (rel : List (List Char)) : Bool :=
  rel.getLast? == some "tec_tac.json".toList || rel.getLast? == some "tec_tac_ui.json".toList || rel.contains "migrations".toList || rel.contains "lifecycle".toList

/-- Where the file of a target is. -/
def Installed.realOf (installed : Installed Content) (target : Target) : List (List Char) := installed.real target.component (PosixPath.names target.path)

/-- No link is followed on the way to the target. -/
def Installed.unlinked (installed : Installed Content) (target : Target) : Bool :=
  installed.realOf target == installed.root target.component ++ PosixPath.names target.path

/-- The file of a target is below the root of its component, and is none of those that only a release may change. -/
def Replaceable (installed : Installed Content) (target : Target) : Prop :=
  installed.root target.component <+: installed.realOf target ∧
    isProtected ((installed.realOf target).drop (installed.root target.component).length) = false

section Plain

variable (repr : Doc → String)

def plainText (key : String) (fields : List (String × Doc)) : Bool := stripText (Doc.textField repr key fields) == Doc.textField repr key fields

/-- A row that has nothing for Core to take off. -/
def plainRow : Doc → Bool
  | .obj fields =>
    (stripText (Doc.textField repr "component" fields)).toLower == Doc.textField repr "component" fields && plainText repr "sha256_before" fields && plainText repr "sha256_after" fields
  | _ => false

/-- The path of a row, where it is safe. -/
def rowPath : Doc → Option (List Char)
  | .obj fields => (safeRelative (Doc.textField repr "path" fields).toList).toOption
  | _ => none

def rowIsExtension : Doc → Bool
  | .obj fields => Doc.textField repr "component" fields == "extension"
  | _ => false

/-- `reload` asks for a reload only as root understands it, or one of the targets does. -/
def plainReload (fields : List (String × Doc)) (targets : List Doc) : Bool :=
  (stripText (((Doc.field "reload" fields).orElse (.str "none")).text repr)).toLower != "django" || Doc.isText "django" (Doc.field "reload" fields) ||
    targets.any fun row => (rowPath repr row).any fun path => ".py".toList.isSuffixOf path

/-- No target is the file `ui` itself, or the sync is asked for besides. -/
def plainUi (fields : List (String × Doc)) (targets : List Doc) : Bool :=
  !(targets.any fun row => rowIsExtension repr row && rowPath repr row == some "ui".toList) || (Doc.field "ui_sync" fields).truthy ||
    targets.any fun row => rowIsExtension repr row && (rowPath repr row).any fun path => "ui/".toList.isPrefixOf path

/-- A manifest of an installed component that both read alike. -/
def plainStored : Stored → Bool
  | .doc (.obj fields) => (Doc.field "id" fields matches .str _) && plainText repr "version" fields
  | _ => false

/-- The archive and the module give Core nothing to take off, and the module has a reportset. -/
def plainHotfix (parse : Content → Option Doc) (archive : Archive Content) (installed : Installed Content) : Bool :=
  match archive.members with
  | none => false
  | some members =>
    match findManifest parse members with
    | .error _ => false
    | .ok (base, fields) =>
      let targets := (Doc.field "targets" fields).items.getD []
      plainStored repr (installed.manifest .extension) && plainStored repr (installed.manifest .reportset) &&
        (["id", "module_id", "base_version"].all fun key => plainText repr key fields) && targets.all (plainRow repr) &&
        plainReload repr fields targets && plainUi repr fields targets &&
        (payloadMembers base members).all fun m => !m.filename.contains '\\'

end Plain

namespace InspectionAux

open HotfixAux

variable {repr : Doc → String} {parse : Content → Option Doc} {sha256 : Content → String} {archive : Archive Content} {installed : Installed Content}

/-! ### Rows -/

theorem componentOf_plain {s : String} {c : Component} (h : componentOf s = .ok c) : (stripText s).toLower = s ∧ (c = .extension ↔ s = "extension") := by
  unfold componentOf at h
  split at h
  · rename_i hs
    cases h
    rw [hs, toLower_eq_ofList]
    decide
  · split at h
    · rename_i hs
      cases h
      rw [hs, toLower_eq_ofList]
      decide
    · cases h

theorem stripText_of_sha256 {d : String} (h : isSha256 d.toLower = true) : stripText d = d := stripText_of_hex (Bool.and_eq_true_iff.1 h).2

/-- A row that Core accepts and that is plain is the row that root reads. -/
theorem normalizeRow_of_core {doc : Doc} {row : Row} (h : normalizeRowCore repr doc = .ok row) (hplain : plainRow repr doc = true) :
    ∃ raw, manifestRow repr doc = some raw ∧ normalizeRow raw = .ok row := by
  cases doc with
  | obj fields =>
    simp only [plainRow, plainText, Bool.and_eq_true, beq_iff_eq] at hplain
    obtain ⟨⟨hcomponent, hbefore⟩, hafter⟩ := hplain
    refine ⟨_, rfl, ?_⟩
    unfold normalizeRowCore at h
    obtain ⟨⟨⟩, -, h⟩ := bind_ok h
    rw [hcomponent, hbefore, hafter] at h
    exact h
  | _ => cases h

/-- A row that root accepts has nothing to take off. -/
theorem plainRow_of_root {doc : Doc} {raw : ManifestRow} {row : Row} (hraw : manifestRow repr doc = some raw) (h : normalizeRow raw = .ok row) :
    plainRow repr doc = true := by
  cases doc with
  | obj fields =>
    cases hraw
    unfold normalizeRow at h
    obtain ⟨component, hcomponent, h⟩ := bind_ok h
    obtain ⟨rel, -, h⟩ := bind_ok h
    obtain ⟨⟨⟩, hhash, -⟩ := bind_ok h
    have hhash := Bool.and_eq_true_iff.1 (of_require hhash)
    simp only [plainRow, plainText, Bool.and_eq_true, beq_iff_eq]
    exact ⟨⟨(componentOf_plain hcomponent).1, stripText_of_sha256 hhash.1⟩, stripText_of_sha256 hhash.2⟩
  | _ => cases hraw

theorem normalizeRows_of_core {seen : List Target} {docs : List Doc} {rows : List Row} (h : normalizeRowsCore repr seen docs = .ok rows)
    (hplain : docs.all (plainRow repr) = true) : normalizeRows seen (docs.map (manifestRow repr)) = .ok rows := by
  induction docs generalizing seen rows with
  | nil => exact h
  | cons doc docs ih =>
    rw [List.all_cons, Bool.and_eq_true] at hplain
    unfold normalizeRowsCore at h
    obtain ⟨row, hrow, h⟩ := bind_ok h
    obtain ⟨⟨⟩, hseen, h⟩ := bind_ok h
    obtain ⟨rest, hrest, h⟩ := bind_ok h
    cases h
    obtain ⟨raw, hraw, hrow⟩ := normalizeRow_of_core hrow hplain.1
    rw [List.map_cons, hraw, normalizeRows, hrow, ok_bind, hseen, ok_bind, ih hrest hplain.2]
    rfl

theorem plainRows_of_root {seen : List Target} {docs : List Doc} {rows : List Row} (h : normalizeRows seen (docs.map (manifestRow repr)) = .ok rows) :
    docs.all (plainRow repr) = true := by
  induction docs generalizing seen rows with
  | nil => rfl
  | cons doc docs ih =>
    rw [List.map_cons] at h
    cases hraw : manifestRow repr doc with
    | none =>
      rw [hraw] at h
      cases h
    | some raw =>
      rw [hraw] at h
      unfold normalizeRows at h
      obtain ⟨row, hrow, h⟩ := bind_ok h
      obtain ⟨⟨⟩, -, h⟩ := bind_ok h
      obtain ⟨rest, hrest, -⟩ := bind_ok h
      rw [List.all_cons, plainRow_of_root hraw hrow, ih hrest]
      rfl

/-- The rows that root reads, one for each row of the manifest: its path is the safe one, and its component is as it is written. -/
theorem forall₂_of_root {seen : List Target} {docs : List Doc} {rows : List Row} (h : normalizeRows seen (docs.map (manifestRow repr)) = .ok rows) :
    List.Forall₂ (fun doc row => rowPath repr doc = some row.target.path ∧ (rowIsExtension repr doc = true ↔ row.target.component = .extension)) docs rows := by
  induction docs generalizing seen rows with
  | nil =>
    cases h
    exact .nil
  | cons doc docs ih =>
    rw [List.map_cons] at h
    cases doc with
    | obj fields =>
      unfold manifestRow normalizeRows at h
      obtain ⟨row, hrow, h⟩ := bind_ok h
      obtain ⟨⟨⟩, -, h⟩ := bind_ok h
      obtain ⟨rest, hrest, h⟩ := bind_ok h
      cases h
      refine .cons ?_ (ih hrest)
      unfold normalizeRow at hrow
      obtain ⟨component, hcomponent, hrow⟩ := bind_ok hrow
      obtain ⟨rel, hrel, hrow⟩ := bind_ok hrow
      obtain ⟨⟨⟩, -, hrow⟩ := bind_ok hrow
      cases hrow
      refine ⟨?_, ?_⟩
      · change (safeRelative _).toOption = _
        rw [hrel]
        rfl
      · simpa [rowIsExtension] using (componentOf_plain hcomponent).2.symm
    | _ => cases h

/-! ### Names of members -/

theorem slashes_slashes (path : List Char) : slashes (slashes path) = slashes path := by
  simp only [slashes, List.map_map]
  refine List.map_congr_left fun c _ => ?_
  by_cases hc : c = '\\' <;> simp [hc]

theorem slashes_eq_self_iff {path : List Char} : slashes path = path ↔ '\\' ∉ path := by
  induction path with
  | nil => simp [slashes]
  | cons c path ih =>
    have hcons : slashes (c :: path) = (if c = '\\' then '/' else c) :: slashes path := rfl
    rw [hcons, List.cons.injEq, ih, List.mem_cons, not_or]
    refine and_congr_left fun _ => ?_
    by_cases hc : c = '\\'
    · simp [hc]
    · simp [hc, Ne.symm hc]

/-- The pieces between the slashes that hold no backslash are pieces also when the backslashes are slashes. -/
theorem splitOn_slashes (path : List Char) : ∃ first rest first' rest', path.splitOn '/' = first :: rest ∧ (slashes path).splitOn '/' = first' :: rest' ∧
    ('\\' ∉ first → first' = first) ∧ ∀ name ∈ rest, '\\' ∉ name → name ∈ rest' := by
  induction path with
  | nil => exact ⟨[], [], [], [], rfl, rfl, fun _ => rfl, fun name hname => by cases hname⟩
  | cons c path ih =>
    obtain ⟨first, rest, first', rest', hpath, hslashes, hfirst, hrest⟩ := ih
    have hcons : slashes (c :: path) = (if c = '\\' then '/' else c) :: slashes path := rfl
    rw [List.splitOn] at hpath hslashes
    rw [hcons, List.splitOn, List.splitOn, List.splitOnP_cons_eq_if_modifyHead, List.splitOnP_cons_eq_if_modifyHead, hpath, hslashes]
    by_cases hslash : c = '/'
    · refine ⟨[], first :: rest, [], first' :: rest', by simp [hslash], by simp [hslash], fun _ => rfl, fun name hname hback => ?_⟩
      rcases List.mem_cons.1 hname with rfl | hname
      · rw [hfirst hback]
        exact List.mem_cons_self
      · exact List.mem_cons_of_mem _ (hrest name hname hback)
    · by_cases hback : c = '\\'
      · refine ⟨c :: first, rest, [], first' :: rest', by simp [hslash], by simp [hback], fun hnot => ?_, fun name hname hnot => ?_⟩
        · exact absurd (hback ▸ List.mem_cons_self) hnot
        · exact List.mem_cons_of_mem _ (hrest name hname hnot)
      · refine ⟨c :: first, rest, c :: first', rest', by simp [hslash], by simp [hslash, hback], fun hnot => ?_, hrest⟩
        rw [hfirst fun hmem => hnot (List.mem_cons_of_mem _ hmem)]

/-- A name that is safe with slashes is safe as it is. -/
theorem unsafeName_of_slashes {name : List Char} (h : unsafeName (slashes name) = false) : unsafeName name = false := by
  rw [unsafeName, Bool.or_eq_false_iff] at h ⊢
  refine ⟨?_, ?_⟩
  · cases name with
    | nil => rfl
    | cons c name =>
      have habsolute := h.1
      simp only [PosixPath.isAbsolute, slashes, List.map_cons, List.head?_cons, beq_eq_false_iff_ne, ne_eq, Option.some.injEq] at habsolute ⊢
      intro hc
      exact habsolute (by simp [hc])
  · have hdots := h.2
    simp only [List.contains_eq_mem, decide_eq_false_iff_not, PosixPath.names, List.mem_filter, not_and] at hdots ⊢
    intro hmem
    obtain ⟨first, rest, first', rest', hname, hslashes, hfirst, hrest⟩ := splitOn_slashes name
    refine hdots ?_
    rw [hname] at hmem
    rw [hslashes]
    rcases List.mem_cons.1 hmem with heq | hmem
    · rw [hfirst (by rw [← heq]; decide), ← heq]
      exact List.mem_cons_self
    · exact List.mem_cons_of_mem _ (hrest _ hmem (by decide))

/-! ### Members -/

theorem dataOf_ok {name : Member Content → List Char} {wanted : List Char} {members : List (Member Content)} {data : Content} (h : dataOf name wanted members = .ok data) :
    ∃ m ∈ members, name m = wanted ∧ m.data = some data := by
  unfold dataOf at h
  split at h
  · cases h
  · rename_i m hm
    split at h
    · cases h
    · rename_i data' hdata
      cases h
      have hmem := List.mem_filter.1 (List.mem_of_getLast? hm)
      exact ⟨m, hmem.1, by simpa using hmem.2, hdata⟩

/-- The member is found where it is the only one of the name. -/
theorem dataOf_of_unique {name : Member Content → List Char} {wanted : List Char} {members : List (Member Content)} {data : Content} {m : Member Content}
    (hm : m ∈ members) (hname : name m = wanted) (hdata : m.data = some data) (hunique : ∀ m' ∈ members, name m' = wanted → m' = m) :
    dataOf name wanted members = .ok data := by
  have hmem : m ∈ members.filter fun m => name m == wanted := List.mem_filter.2 ⟨hm, by simpa using hname⟩
  obtain ⟨last, hlast⟩ : ∃ last, (members.filter fun m => name m == wanted).getLast? = some last :=
    ⟨_, List.getLast?_eq_some_getLast (List.ne_nil_of_mem hmem)⟩
  have hfound := List.mem_filter.1 (List.mem_of_getLast? hlast)
  unfold dataOf
  rw [hlast, hunique last hfound.1 (by simpa using hfound.2)]
  simp only [hdata]

theorem checkPayload_ok {name : Member Content → List Char} {members : List (Member Content)} {row : Row × List Char} (h : checkPayload sha256 name members row = .ok ()) :
    ∃ m ∈ members, name m = row.2 ∧ ∃ data, m.data = some data ∧ (sha256 data == row.1.sha256After) = true := by
  unfold checkPayload at h
  obtain ⟨data, hdata, h⟩ := bind_ok h
  obtain ⟨m, hm, hname, hdata⟩ := dataOf_ok hdata
  exact ⟨m, hm, hname, data, hdata, of_require h⟩

/-- Where Core finds the payload of a row under a name without a backslash, root finds it too. -/
theorem checkPayload_root {base : List Char} {members : List (Member Content)} {row : Row × List Char} (hnodup : (members.map fun m => slashes m.filename).Nodup)
    (hplain : ∀ m ∈ payloadMembers base members, '\\' ∉ m.filename) (h : checkPayload sha256 (fun m => slashes m.filename) (payloadMembers base members) row = .ok ()) :
    checkPayload sha256 Member.filename (members.filter fun m => !m.isDir) row = .ok () := by
  obtain ⟨m, hm, hname, data, hdata, hsha⟩ := checkPayload_ok h
  have hself : slashes m.filename = m.filename := slashes_eq_self_iff.2 (hplain m hm)
  obtain ⟨hmem, hkind⟩ := List.mem_filter.1 hm
  rw [Bool.and_eq_true] at hkind
  have hfound : dataOf Member.filename row.2 (members.filter fun m => !m.isDir) = .ok data := by
    refine dataOf_of_unique (List.mem_filter.2 ⟨hmem, hkind.1⟩) (hself ▸ hname) hdata fun m' hm' hname' => ?_
    refine List.inj_on_of_nodup_map hnodup (List.mem_filter.1 hm').1 hmem ?_
    rw [hname', ← hname, slashes_slashes]
  rw [checkPayload, hfound, ok_bind, hsha]
  rfl

/-- Where both find the payload of every row, no name of the payload has a backslash. -/
theorem plainNames_of_root {base : List Char} {members : List (Member Content)} {rows : List (Row × List Char)} (hnodup : (members.map fun m => slashes m.filename).Nodup)
    (hdeclared : ∀ m ∈ payloadMembers base members, slashes m.filename ∈ rows.map Prod.snd)
    (hroot : ∀ row ∈ rows, checkPayload sha256 Member.filename (members.filter fun m => !m.isDir) row = .ok ()) : ∀ m ∈ payloadMembers base members, '\\' ∉ m.filename := by
  intro m hm
  obtain ⟨row, hrow, hname⟩ := List.mem_map.1 (hdeclared m hm)
  obtain ⟨m', hm', hname', -⟩ := checkPayload_ok (hroot row hrow)
  have heq : m' = m := by
    refine List.inj_on_of_nodup_map hnodup (List.mem_filter.1 hm').1 (List.mem_filter.1 hm).1 ?_
    rw [hname', hname, slashes_slashes]
  rw [← slashes_eq_self_iff, ← hname, ← hname', heq]

/-! ### What the two readers went through -/

theorem validationOf_ok {fields validation : List (String × Doc)} (h : validationOf fields = .ok validation) :
    (Doc.field "validation" fields).pairs.getD [] = validation := by
  unfold validationOf Doc.orElse at h
  cases htruthy : (Doc.field "validation" fields).truthy with
  | true =>
    rw [if_pos htruthy] at h
    split at h
    · rename_i v hv
      split at h
      · cases h
        rw [hv]
        rfl
      · cases h
    · cases h
  | false =>
    rw [if_neg (by simp [htruthy])] at h
    cases h
    generalize Doc.field "validation" fields = v at htruthy
    cases v with
    | obj kvs => simpa [Doc.truthy, Doc.pairs] using htruthy
    | _ => rfl

/-- The manifest of an archive that Core accepts. -/
structure CoreManifest (repr : Doc → String) (base : List Char) (fields : List (String × Doc)) (core : Reading) (targets : List Doc) (rows : List Row) : Prop where
  supported : (Doc.isText "tec-tac-hotfix" (Doc.field "type" fields) && isSchemaOne (Doc.field "schema" fields)) = true
  moduleId : core.moduleId = stripText (Doc.textField repr "module_id" fields)
  hotfixId : core.hotfixId = stripText (Doc.textField repr "id" fields)
  baseVersion : core.baseVersion = stripText (Doc.textField repr "base_version" fields)
  identity : (isHotfixId core.hotfixId && isModuleId core.moduleId && core.baseVersion != "") = true
  isArr : Doc.field "targets" fields = .arr targets
  count : (!targets.isEmpty && decide (targets.length ≤ 64)) = true
  normalized : normalizeRowsCore repr [] targets = .ok rows
  readRows : core.rows = rows.map fun row => (row, payloadMember base row.target)
  reload : core.effective.reload = (anyPython rows || (stripText (((Doc.field "reload" fields).orElse (.str "none")).text repr)).toLower == "django")
  uiSync : core.effective.uiSync = ((Doc.field "ui_sync" fields).truthy ||
    rows.any fun row => row.target.component == .extension && (row.target.path == "ui".toList || "ui/".toList.isPrefixOf row.target.path))
  pythonCompile : core.effective.pythonCompile = ((Doc.field "python_compile" ((Doc.field "validation" fields).pairs.getD [])).truthy || anyPython rows)
  djangoCheck : core.effective.djangoCheck = ((Doc.field "django_check" ((Doc.field "validation" fields).pairs.getD [])).truthy || anyPython rows)

theorem normalizeManifest_ok {base : List Char} {fields : List (String × Doc)} {core : Reading} (h : normalizeManifest repr base fields = .ok core) :
    ∃ targets rows, CoreManifest repr base fields core targets rows := by
  unfold normalizeManifest at h
  obtain ⟨⟨⟩, -, h⟩ := bind_ok h
  obtain ⟨⟨⟩, hsupported, h⟩ := bind_ok h
  obtain ⟨⟨⟩, hidentity, h⟩ := bind_ok h
  obtain ⟨⟨⟩, -, h⟩ := bind_ok h
  obtain ⟨validation, hvalidation, h⟩ := bind_ok h
  split at h
  · rename_i targets htargets
    obtain ⟨⟨⟩, hcount, h⟩ := bind_ok h
    obtain ⟨rows, hrows, h⟩ := bind_ok h
    obtain rfl := Except.ok.inj h
    rw [← validationOf_ok hvalidation]
    exact ⟨targets, rows, of_require hsupported, rfl, rfl, rfl, of_require hidentity, htargets, of_require hcount, hrows, rfl, rfl, rfl, rfl, rfl⟩
  · cases h

/-- An archive that Core accepts. -/
structure CoreAccepts (repr : Doc → String) (parse : Content → Option Doc) (sha256 : Content → String) (archive : Archive Content) (installed : Installed Content)
    (core : Reading) (members : List (Member Content)) (base : List Char) (fields : List (String × Doc)) : Prop where
  isZip : archive.members = some members
  safe : ∀ m ∈ members, unsafeName (slashes m.filename) = false ∧ m.link = false
  nodup : (members.map fun m => slashes m.filename).Nodup
  found : findManifest parse members = .ok (base, fields)
  version : installedVersion repr core.moduleId installed = .ok core.baseVersion
  declared : ∀ m ∈ payloadMembers base members, slashes m.filename ∈ core.rows.map Prod.snd
  payload : ∀ row ∈ core.rows, checkPayload sha256 (fun m => slashes m.filename) (payloadMembers base members) row = .ok ()
  target : ∀ row ∈ core.rows, checkTarget sha256 installed row.1 = .ok ()

theorem inspect_ok {core : Reading} (h : inspectHotfixArchive repr parse sha256 archive installed = .ok core) :
    ∃ members base fields, CoreAccepts repr parse sha256 archive installed core members base fields ∧ normalizeManifest repr base fields = .ok core := by
  unfold inspectHotfixArchive at h
  obtain ⟨⟨⟩, -, h⟩ := bind_ok h
  split at h
  · cases h
  · rename_i members hmembers
    obtain ⟨⟨⟩, hvalid, h⟩ := bind_ok h
    obtain ⟨⟨base, fields⟩, hfound, h⟩ := bind_ok h
    obtain ⟨reading, hreading, h⟩ := bind_ok h
    obtain ⟨⟨⟩, -, h⟩ := bind_ok h
    obtain ⟨version, hversion, h⟩ := bind_ok h
    obtain ⟨⟨⟩, hbase, h⟩ := bind_ok h
    obtain ⟨⟨⟩, hdeclared, h⟩ := bind_ok h
    obtain ⟨units, hrows, h⟩ := bind_ok h
    obtain ⟨⟨⟩, -, h⟩ := bind_ok h
    cases h
    unfold validateArchiveMembers at hvalid
    obtain ⟨⟨⟩, hsafe, hvalid⟩ := bind_ok hvalid
    obtain ⟨⟨⟩, hnodup, -⟩ := bind_ok hvalid
    have hrow : ∀ row ∈ core.rows, checkPayload sha256 (fun m => slashes m.filename) (payloadMembers base members) row = .ok () ∧ checkTarget sha256 installed row.1 = .ok () := by
      intro row hmem
      obtain ⟨⟨⟩, -, hrow⟩ := mapM_ok_of_mem hrows hmem
      obtain ⟨⟨⟩, hpayload, htarget⟩ := bind_ok hrow
      exact ⟨hpayload, htarget⟩
    refine ⟨members, base, fields, ⟨hmembers, fun m hm => ?_, by simpa using of_require hnodup, hfound, ?_, fun m hm => ?_, fun row hmem => (hrow row hmem).1,
      fun row hmem => (hrow row hmem).2⟩, hreading⟩
    · simpa using List.all_eq_true.1 (of_require hsafe) m hm
    · rw [hversion, beq_iff_eq.1 (of_require hbase)]
    · simpa using List.all_eq_true.1 (of_require hdeclared) m hm

/-- An archive that root accepts. -/
structure RootAccepts (repr : Doc → String) (parse : Content → Option Doc) (sha256 : Content → String) (archive : Archive Content) (installed : Installed Content)
    (root : Reading) (members : List (Member Content)) (base : List Char) (fields : List (String × Doc)) (rows : List Row) : Prop where
  isZip : archive.members = some members
  loaded : loadArchiveManifest parse members = .ok (base, fields)
  normalized : normalizeTargets (manifestOf repr fields) = .ok (rows, root.effective)
  moduleId : root.moduleId = Doc.textField repr "module_id" fields
  hotfixId : root.hotfixId = Doc.textField repr "id" fields
  baseVersion : root.baseVersion = Doc.textField repr "base_version" fields
  readRows : root.rows = rows.map fun row => (row, payloadMember base row.target)
  version : ∀ c, moduleVersion repr root.moduleId (installed.manifest c) = .ok root.baseVersion
  payload : ∀ row ∈ root.rows, checkPayload sha256 Member.filename (members.filter fun m => !m.isDir) row = .ok ()
  target : ∀ row ∈ root.rows, checkTarget sha256 installed row.1 = .ok ()

theorem rootReading_ok {root : Reading} (h : rootReading repr parse sha256 archive installed = .ok root) :
    ∃ members base fields rows, RootAccepts repr parse sha256 archive installed root members base fields rows := by
  unfold rootReading at h
  split at h
  · cases h
  · rename_i members hmembers
    obtain ⟨⟨base, fields⟩, hloaded, h⟩ := bind_ok h
    obtain ⟨⟨rows, effective⟩, hnormalized, h⟩ := bind_ok h
    obtain ⟨extension, hextension, h⟩ := bind_ok h
    obtain ⟨reportset, hreportset, h⟩ := bind_ok h
    obtain ⟨⟨⟩, hversion, h⟩ := bind_ok h
    obtain ⟨units, hpayload, h⟩ := bind_ok h
    obtain ⟨units', htarget, h⟩ := bind_ok h
    cases h
    have hversion := of_require hversion
    rw [Bool.and_eq_true, beq_iff_eq, beq_iff_eq] at hversion
    refine ⟨members, base, fields, rows, hmembers, hloaded, hnormalized, rfl, rfl, rfl, rfl, fun c => ?_, fun row hrow => ?_, fun row hrow => ?_⟩
    · cases c with
      | extension => exact hversion.2 ▸ hextension
      | reportset => exact hversion.2 ▸ hversion.1 ▸ hreportset
    · obtain ⟨⟨⟩, -, hrow⟩ := mapM_ok_of_mem hpayload hrow
      exact hrow
    · obtain ⟨⟨⟩, -, hrow⟩ := mapM_ok_of_mem htarget hrow
      exact hrow

/-! ### From one reader to the other -/

theorem any_of_forall₂ {α β : Type} {R : α → β → Prop} {f : α → Bool} {g : β → Bool} {xs : List α} {ys : List β} (h : List.Forall₂ R xs ys)
    (hfg : ∀ x y, R x y → f x = g y) : xs.any f = ys.any g := by
  induction h with
  | nil => rfl
  | cons hxy _ ih => rw [List.any_cons, List.any_cons, hfg _ _ hxy, ih]

/-- What is computed from the rows of the manifest and from the rows that root reads. -/
structure Paths (repr : Doc → String) (targets : List Doc) (rows : List Row) : Prop where
  python : (targets.any fun row => (rowPath repr row).any fun path => ".py".toList.isSuffixOf path) = anyPython rows
  ui : (targets.any fun row => rowIsExtension repr row && rowPath repr row == some "ui".toList) =
    rows.any fun row => row.target.component == .extension && row.target.path == "ui".toList
  below : (targets.any fun row => rowIsExtension repr row && (rowPath repr row).any fun path => "ui/".toList.isPrefixOf path) =
    rows.any fun row => row.target.component == .extension && "ui/".toList.isPrefixOf row.target.path

theorem paths_of_root {targets : List Doc} {rows : List Row} (h : normalizeRows [] (targets.map (manifestRow repr)) = .ok rows) : Paths repr targets rows := by
  have hall := forall₂_of_root h
  have hext : ∀ (doc : Doc) (row : Row), (rowIsExtension repr doc = true ↔ row.target.component = .extension) →
      rowIsExtension repr doc = (row.target.component == .extension) := by
    intro doc row hiff
    rw [Bool.eq_iff_iff, hiff, beq_iff_eq]
  refine ⟨any_of_forall₂ hall ?_, any_of_forall₂ hall ?_, any_of_forall₂ hall ?_⟩
  · rintro doc row ⟨hpath, -⟩
    rw [hpath]
    rfl
  · rintro doc row ⟨hpath, hiff⟩
    rw [hext doc row hiff, hpath]
    rfl
  · rintro doc row ⟨hpath, hiff⟩
    rw [hext doc row hiff, hpath]
    rfl

theorem any_ui (rows : List Row) :
    (rows.any fun row => row.target.component == .extension && (row.target.path == "ui".toList || "ui/".toList.isPrefixOf row.target.path)) =
      ((rows.any fun row => row.target.component == .extension && row.target.path == "ui".toList) ||
        rows.any fun row => row.target.component == .extension && "ui/".toList.isPrefixOf row.target.path) := by
  induction rows with
  | nil => rfl
  | cons row rows ih =>
    rw [List.any_cons, ih, List.any_cons, List.any_cons, Bool.and_or_distrib_left]
    ac_rfl

/-- What root does after the files are written. -/
def rootEffective (fields : List (String × Doc)) (rows : List Row) : Effective :=
  ⟨anyPython rows || Doc.isText "django" (Doc.field "reload" fields),
    (Doc.field "ui_sync" fields).truthy || rows.any fun row => row.target.component == .extension && "ui/".toList.isPrefixOf row.target.path,
    (Doc.field "python_compile" ((Doc.field "validation" fields).pairs.getD [])).truthy || anyPython rows,
    (Doc.field "django_check" ((Doc.field "validation" fields).pairs.getD [])).truthy || anyPython rows⟩

theorem reload_iff {base : List Char} {fields : List (String × Doc)} {core : Reading} {targets : List Doc} {rows : List Row} (hm : CoreManifest repr base fields core targets rows)
    (hpaths : Paths repr targets rows) : (core.effective.reload = true → (rootEffective fields rows).reload = true) ↔ plainReload repr fields targets = true := by
  simp only [hm.reload, plainReload, hpaths.python, rootEffective]
  cases anyPython rows <;> cases Doc.isText "django" (Doc.field "reload" fields) <;> simp

theorem uiSync_iff {base : List Char} {fields : List (String × Doc)} {core : Reading} {targets : List Doc} {rows : List Row} (hm : CoreManifest repr base fields core targets rows)
    (hpaths : Paths repr targets rows) : (core.effective.uiSync = true → (rootEffective fields rows).uiSync = true) ↔ plainUi repr fields targets = true := by
  rw [hm.uiSync, any_ui]
  simp only [plainUi, hpaths.ui, hpaths.below, rootEffective]
  generalize (rows.any fun row => row.target.component == .extension && row.target.path == "ui".toList) = ui
  generalize (rows.any fun row => row.target.component == .extension && "ui/".toList.isPrefixOf row.target.path) = below
  cases (Doc.field "ui_sync" fields).truthy <;> cases ui <;> cases below <;> simp

/-- What `normalize_targets` answers for the manifest, given its rows. -/
theorem normalizeTargets_eq {fields : List (String × Doc)} {targets : List Doc} {rows : List Row} {effective : Effective} (htargets : Doc.field "targets" fields = .arr targets) :
    normalizeTargets (manifestOf repr fields) = .ok (rows, effective) ↔
      (isModuleId (Doc.textField repr "module_id" fields) && isHotfixId (Doc.textField repr "id" fields) && Doc.textField repr "base_version" fields != "") = true ∧
      (!targets.isEmpty && decide (targets.length ≤ 64)) = true ∧ normalizeRows [] (targets.map (manifestRow repr)) = .ok rows ∧
      effective = rootEffective fields rows := by
  have hitems : (manifestOf repr fields).targets = some (targets.map (manifestRow repr)) := by simp [manifestOf, htargets, Doc.items]
  unfold normalizeTargets
  rw [hitems]
  simp only [List.isEmpty_map, List.length_map]
  constructor
  · intro h
    obtain ⟨⟨⟩, hidentity, h⟩ := bind_ok h
    obtain ⟨⟨⟩, hcount, h⟩ := bind_ok h
    obtain ⟨rows', hrows, h⟩ := bind_ok h
    cases h
    exact ⟨of_require hidentity, of_require hcount, hrows, rfl⟩
  · rintro ⟨hidentity, hcount, hrows, rfl⟩
    simp only [manifestOf] at hidentity ⊢
    rw [hidentity, hcount, hrows]
    rfl

theorem moduleVersion_of_core {stored : Stored} {moduleId version : String} (h : manifestVersion repr moduleId stored = .ok version) (hplain : plainStored repr stored = true) :
    moduleVersion repr moduleId stored = .ok version := by
  unfold manifestVersion at h
  split at h
  · rename_i fields
    obtain ⟨⟨⟩, hid, h⟩ := bind_ok h
    obtain ⟨⟨⟩, hversion, h⟩ := bind_ok h
    simp only [plainStored, Bool.and_eq_true, plainText, beq_iff_eq] at hplain
    rw [hplain.2] at h hversion
    have hid : Doc.isText moduleId (Doc.field "id" fields) = true := by
      have hid := of_require hid
      have hstr := hplain.1
      unfold Doc.textField Doc.orElse at hid
      generalize Doc.field "id" fields = v at hid hstr
      cases v with
      | str t =>
        split at hid
        · exact hid
        · rename_i hempty
          simp only [Doc.truthy, bne_iff_ne, ne_eq, Decidable.not_not] at hempty
          subst hempty
          exact hid
      | _ => cases hstr
    rw [moduleVersion, hid, require_true, ok_bind]
    simp only [hversion]
    exact h
  · cases h

theorem plainStored_of_root {stored : Stored} {moduleId version : String} (h : moduleVersion repr moduleId stored = .ok version) (hversion : stripText version = version) :
    plainStored repr stored = true := by
  unfold moduleVersion at h
  split at h
  · rename_i fields
    obtain ⟨⟨⟩, hid, h⟩ := bind_ok h
    obtain ⟨⟨⟩, -, h⟩ := bind_ok h
    cases h
    simp only [plainStored, Bool.and_eq_true, plainText, beq_iff_eq]
    refine ⟨?_, hversion⟩
    have hid := of_require hid
    generalize Doc.field "id" fields = v at hid
    cases v with
    | str t => rfl
    | _ => cases hid
  · cases h

theorem installedVersion_root {moduleId version : String} (h : installedVersion repr moduleId installed = .ok version) (hextension : plainStored repr (installed.manifest .extension) = true)
    (hreportset : plainStored repr (installed.manifest .reportset) = true) (c : Component) : moduleVersion repr moduleId (installed.manifest c) = .ok version := by
  unfold installedVersion at h
  obtain ⟨version', hversion', h⟩ := bind_ok h
  split at h
  · rename_i habsent
    rw [habsent] at hreportset
    cases hreportset
  · rename_i stored _
    obtain ⟨reportset, hrep, h⟩ := bind_ok h
    obtain ⟨⟨⟩, hsame, h⟩ := bind_ok h
    cases h
    cases c with
    | extension => exact moduleVersion_of_core hversion' hextension
    | reportset =>
      rw [beq_iff_eq.1 (of_require hsame)]
      exact moduleVersion_of_core hrep hreportset

/-- Root loads the manifest that Core found. -/
theorem loadArchiveManifest_of_core {members : List (Member Content)} {base : List Char} {fields : List (String × Doc)}
    (hsafe : ∀ m ∈ members, unsafeName (slashes m.filename) = false ∧ m.link = false) (hfound : findManifest parse members = .ok (base, fields))
    (hsupported : (Doc.isText "tec-tac-hotfix" (Doc.field "type" fields) && isSchemaOne (Doc.field "schema" fields)) = true) :
    loadArchiveManifest parse members = .ok (base, fields) := by
  have hall : (members.all fun m => !unsafeName m.filename && !m.link) = true := by
    refine List.all_eq_true.2 fun m hm => ?_
    rw [unsafeName_of_slashes (hsafe m hm).1, (hsafe m hm).2]
    rfl
  rw [loadArchiveManifest, hall, require_true, ok_bind, hfound, ok_bind]
  simp only [hsupported]
  rfl

theorem mapM_units {α : Type} {f : α → Except Refusal Unit} {xs : List α} (h : ∀ x ∈ xs, f x = .ok ()) : ∃ units, xs.mapM f = .ok units :=
  mapM_ok fun x hx => ⟨(), h x hx⟩

/-- Where Core accepts and all is plain, root accepts with the same answer, and does what Core computed. -/
theorem root_of_plain {core : Reading} (hcore : inspectHotfixArchive repr parse sha256 archive installed = .ok core) (hplain : plainHotfix repr parse archive installed = true) :
    ∃ root, rootReading repr parse sha256 archive installed = .ok root ∧ Agrees core root := by
  obtain ⟨members, base, fields, hok, hmanifest⟩ := inspect_ok hcore
  obtain ⟨targets, rows, hm⟩ := normalizeManifest_ok hmanifest
  simp only [plainHotfix, hok.isZip, hok.found, hm.isArr, Doc.items, Option.getD_some, Bool.and_eq_true, List.all_cons, List.all_nil, plainText, beq_iff_eq] at hplain
  obtain ⟨⟨⟨⟨⟨⟨hextension, hreportset⟩, hid, hmodule, hbase, -⟩, hrows⟩, hreload⟩, hui⟩, hnames⟩ := hplain
  have hnormal := normalizeRows_of_core hm.normalized hrows
  have hpaths := paths_of_root hnormal
  have hidentity := hm.identity
  rw [hm.hotfixId, hm.moduleId, hm.baseVersion, hid, hmodule, hbase] at hidentity
  have hmoduleId := hm.moduleId.trans hmodule
  have hbaseVersion := hm.baseVersion.trans hbase
  have htargets := (normalizeTargets_eq hm.isArr).2 ⟨by rw [Bool.and_comm (isModuleId _)]; exact hidentity, hm.count, hnormal, rfl⟩
  have hversion := installedVersion_root hok.version hextension hreportset
  rw [hmoduleId, hbaseVersion] at hversion
  obtain ⟨units, hpayload⟩ := mapM_units fun row hrow => checkPayload_root hok.nodup (fun m hmem => by simpa using List.all_eq_true.1 hnames m hmem) (hok.payload row hrow)
  obtain ⟨units', htarget⟩ := mapM_units hok.target
  rw [hm.readRows] at hpayload htarget
  refine ⟨⟨Doc.textField repr "module_id" fields, Doc.textField repr "id" fields, Doc.textField repr "base_version" fields, _, rootEffective fields rows⟩, ?_,
    hmoduleId.symm, (hm.hotfixId.trans hid).symm, hbaseVersion.symm, hm.readRows.symm, (reload_iff hm hpaths).2 hreload, (uiSync_iff hm hpaths).2 hui,
    hm.pythonCompile.symm.trans, hm.djangoCheck.symm.trans⟩
  rw [rootReading, hok.isZip]
  simp only [loadArchiveManifest_of_core hok.safe hok.found hm.supported, ok_bind, htargets]
  simp only [manifestOf, hversion, ok_bind, beq_self_eq_true, Bool.and_self, require_true, hpayload, htarget]
  rfl

/-- Where both accept and agree, all is plain. -/
theorem plain_of_agrees {core root : Reading} (hcore : inspectHotfixArchive repr parse sha256 archive installed = .ok core)
    (hroot : rootReading repr parse sha256 archive installed = .ok root) (hagrees : Agrees core root) : plainHotfix repr parse archive installed = true := by
  obtain ⟨members, base, fields, hok, hmanifest⟩ := inspect_ok hcore
  obtain ⟨targets, rows, hm⟩ := normalizeManifest_ok hmanifest
  obtain ⟨members', base', fields', rows', hr⟩ := rootReading_ok hroot
  obtain rfl : members = members' := Option.some.inj (hok.isZip.symm.trans hr.isZip)
  obtain ⟨rfl, rfl⟩ : base = base' ∧ fields = fields' := by
    have hloaded := hr.loaded
    unfold loadArchiveManifest at hloaded
    obtain ⟨⟨⟩, -, hloaded⟩ := bind_ok hloaded
    obtain ⟨⟨b, f⟩, hfound, hloaded⟩ := bind_ok hloaded
    obtain ⟨⟨⟩, -, hloaded⟩ := bind_ok hloaded
    cases hloaded
    simpa using hok.found.symm.trans hfound
  obtain ⟨-, -, hrows', heffective⟩ := (normalizeTargets_eq hm.isArr).1 hr.normalized
  have hrows := plainRows_of_root hrows'
  obtain rfl : rows = rows' := Except.ok.inj ((normalizeRows_of_core hm.normalized hrows).symm.trans hrows')
  have hpaths := paths_of_root hrows'
  have hreload := hagrees.reload
  have hui := hagrees.uiSync
  rw [heffective] at hreload hui
  have hid : stripText (Doc.textField repr "id" fields) = Doc.textField repr "id" fields := by rw [← hm.hotfixId, ← hagrees.hotfixId, hr.hotfixId]
  have hmodule : stripText (Doc.textField repr "module_id" fields) = Doc.textField repr "module_id" fields := by rw [← hm.moduleId, ← hagrees.moduleId, hr.moduleId]
  have hbase : stripText (Doc.textField repr "base_version" fields) = Doc.textField repr "base_version" fields := by
    rw [← hm.baseVersion, ← hagrees.baseVersion, hr.baseVersion]
  have hversion : stripText root.baseVersion = root.baseVersion := hr.baseVersion ▸ hbase
  have hnames := plainNames_of_root hok.nodup hok.declared fun row hrow => hr.payload row (hagrees.rows ▸ hrow)
  simp only [plainHotfix, hok.isZip, hok.found, hm.isArr, Doc.items, Option.getD_some, Bool.and_eq_true, List.all_cons, List.all_nil, plainText, beq_iff_eq]
  refine ⟨⟨⟨⟨⟨⟨plainStored_of_root (hr.version .extension) hversion, plainStored_of_root (hr.version .reportset) hversion⟩, hid, hmodule, hbase, trivial⟩, hrows⟩,
    (reload_iff hm hpaths).1 hreload⟩, (uiSync_iff hm hpaths).1 hui⟩, List.all_eq_true.2 fun m hmem => ?_⟩
  simpa using hnames m hmem

/-- What root replaces is below a module root, and without a link on the way it is no file that only a release may change. -/
theorem replaceable_of_root {root : Reading} (hroot : rootReading repr parse sha256 archive installed = .ok root) {row : Row × List Char} (hrow : row ∈ root.rows) :
    installed.root row.1.target.component <+: installed.realOf row.1.target ∧ (installed.unlinked row.1.target = true → Replaceable installed row.1.target) := by
  obtain ⟨members, base, fields, rows, hr⟩ := rootReading_ok hroot
  have hbelow : installed.root row.1.target.component <+: installed.realOf row.1.target := by
    have htarget := hr.target row hrow
    unfold checkTarget at htarget
    obtain ⟨⟨⟩, hbelow, -⟩ := bind_ok htarget
    exact List.isPrefixOf_iff_prefix.1 (of_require hbelow)
  refine ⟨hbelow, fun hunlinked => ⟨hbelow, ?_⟩⟩
  rw [hr.readRows] at hrow
  obtain ⟨row, hmem, rfl⟩ := List.mem_map.1 hrow
  obtain ⟨value, hvalue⟩ := (normalizeTargets_ok hr.normalized).2 row hmem
  obtain ⟨-, -, hjson, hui, hmigrations, hlifecycle⟩ := safeRelative_ok hvalue
  rw [beq_iff_eq.1 hunlinked, List.drop_left]
  simp only [isProtected, Bool.or_eq_false_iff, beq_eq_false_iff_ne, List.contains_eq_mem, decide_eq_false_iff_not]
  exact ⟨⟨⟨hjson, hui⟩, hmigrations⟩, hlifecycle⟩

end InspectionAux

/-- Core's inspection foretells what root does exactly where the archive and the module are plain, and root replaces nothing but what a hotfix may replace
exactly where no link inside the module leads from a target to a file that only a release may change. -/
theorem inspection_agrees_iff_plain (repr : Doc → String) (parse : Content → Option Doc) (sha256 : Content → String) (archive : Archive Content) (installed : Installed Content) :
    ((∀ core, inspectHotfixArchive repr parse sha256 archive installed = .ok core → ∃ root, rootReading repr parse sha256 archive installed = .ok root ∧ Agrees core root) ∧
      ∀ root, rootReading repr parse sha256 archive installed = .ok root → ∀ row ∈ root.rows, Replaceable installed row.1.target) ↔
    ((∀ core, inspectHotfixArchive repr parse sha256 archive installed = .ok core → plainHotfix repr parse archive installed = true) ∧
      ∀ root, rootReading repr parse sha256 archive installed = .ok root → ∀ row ∈ root.rows, installed.unlinked row.1.target = false →
        isProtected ((installed.realOf row.1.target).drop (installed.root row.1.target.component).length) = false) := by
  refine and_congr ⟨fun h core hcore => ?_, fun h core hcore => ?_⟩ ⟨fun h root hroot row hrow _ => (h root hroot row hrow).2, fun h root hroot row hrow => ?_⟩
  · obtain ⟨root, hroot, hagrees⟩ := h core hcore
    exact InspectionAux.plain_of_agrees hcore hroot hagrees
  · exact InspectionAux.root_of_plain hcore (h core hcore)
  · obtain ⟨hbelow, hplain⟩ := InspectionAux.replaceable_of_root hroot hrow
    cases hunlinked : installed.unlinked row.1.target with
    | true => exact hplain hunlinked
    | false => exact ⟨hbelow, h root hroot row hrow hunlinked⟩

namespace InspectionAux

def sampleRepr (_ : Doc) : String := ""

def sampleSha (n : Nat) : String := String.ofList (List.replicate 64 (if n = 1 then '1' else '2'))

def sampleRow : Doc :=
  .obj [("component", .str "extension"), ("path", .str "a.txt"), ("sha256_before", .str (sampleSha 1)), ("sha256_after", .str (sampleSha 2))]

def sampleFields : List (String × Doc) :=
  [("type", .str "tec-tac-hotfix"), ("schema", .num 1), ("id", .str "fix"), ("module_id", .str "mod"), ("base_version", .str "1"), ("targets", .arr [sampleRow])]

def sampleParse (n : Nat) : Option Doc := if n = 0 then some (.obj sampleFields) else none

/-- A hotfix of one file: the content `0` is the manifest, `1` the file as it is installed and `2` the file that replaces it. -/
def sampleMembers : List (Member Nat) := [⟨"tec_tac_hotfix.json".toList, false, 10, some 0⟩, ⟨"payload/extension/a.txt".toList, false, 10, some 2⟩]

def sampleArchive : Archive Nat := ⟨100, some sampleMembers⟩

/-- The module that it is for, with what is found of the reportset. -/
def sampleInstalled (reportset : Stored) : Installed Nat where
  root _ := [['m']]
  real _ path := ['m'] :: path
  file path := if path = [['m'], "a.txt".toList] then some 1 else none
  manifest
    | .extension => .doc (.obj [("id", .str "mod"), ("version", .str "1")])
    | .reportset => reportset
  applied := false

def sampleReading : Reading :=
  ⟨"mod", "fix", "1", [(⟨⟨.extension, "a.txt".toList⟩, sampleSha 1, sampleSha 2⟩, "payload/extension/a.txt".toList)], ⟨false, false, false, false⟩⟩

theorem sample_row : normalizeRowsCore sampleRepr [] [sampleRow] = .ok [⟨⟨.extension, "a.txt".toList⟩, sampleSha 1, sampleSha 2⟩] := by
  have hone : normalizeRowCore sampleRepr sampleRow = .ok ⟨⟨.extension, "a.txt".toList⟩, sampleSha 1, sampleSha 2⟩ := by
    simp only [normalizeRowCore, sampleRow, toLower_eq_ofList]
    decide_cbv
  rw [normalizeRowsCore, hone]
  rfl

theorem sample_manifest : normalizeManifest sampleRepr [] sampleFields = .ok sampleReading := by
  have hrows := sample_row
  have htargets : Doc.field "targets" sampleFields = .arr [sampleRow] := rfl
  simp only [normalizeManifest, htargets, hrows, toLower_eq_ofList]
  rfl

theorem inspect_of {Content : Type} {repr : Doc → String} {parse : Content → Option Doc} {sha256 : Content → String} {archive : Archive Content}
    {installed : Installed Content} {members : List (Member Content)} {base : List Char} {fields : List (String × Doc)} {core : Reading} {done : List Unit}
    (hsize : archive.size ≤ maxHotfixBytes) (hmembers : archive.members = some members) (hvalid : validateArchiveMembers members = .ok ())
    (hfound : findManifest parse members = .ok (base, fields)) (hreading : normalizeManifest repr base fields = .ok core)
    (hbelow : ((payloadMembers base members).all fun m => (base ++ "payload/".toList).isPrefixOf (slashes m.filename)) = true)
    (hversion : installedVersion repr core.moduleId installed = .ok core.baseVersion)
    (hdeclared : ((payloadMembers base members).all fun m => (core.rows.map Prod.snd).contains (slashes m.filename)) = true)
    (hrows : (core.rows.mapM fun row => do
      checkPayload sha256 (fun m => slashes m.filename) (payloadMembers base members) row
      checkTarget sha256 installed row.1) = .ok done) (happlied : installed.applied = false) :
    inspectHotfixArchive repr parse sha256 archive installed = .ok core := by
  unfold inspectHotfixArchive
  rw [decide_eq_true hsize, require_true, ok_bind, hmembers]
  dsimp only
  rw [hvalid, ok_bind, hfound, ok_bind]
  dsimp only
  rw [hreading, ok_bind, hbelow, require_true, ok_bind, hversion, ok_bind, beq_self_eq_true, require_true, ok_bind, hdeclared, require_true, ok_bind, hrows, ok_bind, happlied]
  rfl

theorem sample_accepted (reportset : Stored) (h : installedVersion sampleRepr "mod" (sampleInstalled reportset) = .ok "1") :
    inspectHotfixArchive sampleRepr sampleParse sampleSha sampleArchive (sampleInstalled reportset) = .ok sampleReading := by
  have hvalid : validateArchiveMembers sampleMembers = .ok () := by decide_cbv
  have hfound : findManifest sampleParse sampleMembers = .ok ([], sampleFields) := rfl
  have hbelow : ((payloadMembers [] sampleMembers).all fun m => ([] ++ "payload/".toList).isPrefixOf (slashes m.filename)) = true := by decide_cbv
  have hdeclared : ((payloadMembers [] sampleMembers).all fun m => (sampleReading.rows.map Prod.snd).contains (slashes m.filename)) = true := by decide_cbv
  have hrows : (sampleReading.rows.mapM fun row => do
      checkPayload sampleSha (fun m => slashes m.filename) (payloadMembers [] sampleMembers) row
      checkTarget sampleSha (sampleInstalled reportset) row.1) = .ok [()] := by
    change (sampleReading.rows.mapM fun row => do
      checkPayload sampleSha (fun m => slashes m.filename) (payloadMembers [] sampleMembers) row
      checkTarget sampleSha (sampleInstalled .absent) row.1) = .ok [()]
    decide_cbv
  exact inspect_of (by decide) rfl hvalid hfound sample_manifest hbelow h hdeclared hrows rfl

theorem sample_plain : plainHotfix sampleRepr sampleParse sampleArchive (sampleInstalled ((sampleInstalled .absent).manifest .extension)) = true := by
  decide +kernel

end InspectionAux

open InspectionAux in
/-- A hotfix of one file for a module with a reportset: root accepts what Core shows. -/
theorem plain_hotfix_is_accepted :
    inspectHotfixArchive sampleRepr sampleParse sampleSha sampleArchive (sampleInstalled ((sampleInstalled .absent).manifest .extension)) = .ok sampleReading ∧
      ∃ root, rootReading sampleRepr sampleParse sampleSha sampleArchive (sampleInstalled ((sampleInstalled .absent).manifest .extension)) = .ok root ∧
        Agrees sampleReading root := by
  have hcore := sample_accepted ((sampleInstalled .absent).manifest .extension) (by decide_cbv)
  refine ⟨hcore, ((inspection_agrees_iff_plain _ _ _ _ _).2 ⟨fun _ _ => sample_plain, fun root _ row _ hlinked => ?_⟩).1 _ hcore⟩
  have hunlinked : (sampleInstalled ((sampleInstalled .absent).manifest .extension)).unlinked row.1.target = true := beq_self_eq_true _
  rw [hunlinked] at hlinked
  cases hlinked

open InspectionAux in
/-- The same hotfix for a module that has no reportset: Core shows it as installable, and root refuses it. -/
theorem hotfix_without_reportset_is_refused :
    inspectHotfixArchive sampleRepr sampleParse sampleSha sampleArchive (sampleInstalled .absent) = .ok sampleReading ∧
      ∀ root, rootReading sampleRepr sampleParse sampleSha sampleArchive (sampleInstalled .absent) ≠ .ok root := by
  refine ⟨sample_accepted .absent (by decide_cbv), fun root hroot => ?_⟩
  obtain ⟨members, base, fields, rows, hr⟩ := rootReading_ok hroot
  cases hr.version .reportset

end Hotfix

end TecTac
