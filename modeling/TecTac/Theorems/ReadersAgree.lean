import Mathlib
import TecTac.ReleaseTree

/-!
# The readers of the signed manifest

A tree that `verify_release_tree` accepts can be staged, and the copy and the tree pass the other checks, exactly where its manifest is plain: UTF-8, fields without blanks
at their ends, the algorithm spelled as the other readers spell it, and digests without blanks. `verify_release_tree` strips and ignores case, the others do not. In the other
direction nothing is lost: what one of them finds missing, extra or changed, `verify_release_tree` refuses.
-/

namespace TecTac

namespace ReleaseTree

open Raise

namespace ReaderAux

variable {repr : Doc → String} {sha256 : Bytes → String} {reader : Reader} {server : Server}

/-! ### Rows -/

/-- A digest has no blanks to take off. -/
theorem stripText_of_digest {d : String} (h : isDigest d.toLower = true) : stripText d = d := stripText_of_hex (Bool.and_eq_true_iff.1 h).2

theorem readEntry_congr {clean clean' : String → String} {fields : List (String × Doc)}
    (h : clean (Doc.textField repr "sha256" fields) = clean' (Doc.textField repr "sha256" fields)) :
    readEntry repr clean (.obj fields) = readEntry repr clean' (.obj fields) := by
  simp only [readEntry, h]

/-- The reader that takes nothing off a digest reads what the others read. -/
theorem readEntry_strip {entry : Doc} {row : Row} (h : readEntry repr id entry = .ok row) : readEntry repr stripText entry = .ok row := by
  cases entry with
  | obj fields =>
    have hdigest : isDigest (Doc.textField repr "sha256" fields).toLower = true := by
      unfold readEntry at h
      obtain ⟨⟨⟩, -, h⟩ := bind_ok h
      obtain ⟨rel, -, h⟩ := bind_ok h
      obtain ⟨size, -, h⟩ := bind_ok h
      obtain ⟨⟨⟩, hdigest, -⟩ := bind_ok h
      exact of_require hdigest
    rw [readEntry_congr (stripText_of_digest hdigest : stripText _ = id _)]
    exact h
  | _ => cases h

theorem declaredFrom_mapM {previous : Option (List Char)} {entries : List Doc} {rows : List Row} (h : declaredFrom repr previous entries = .ok rows) :
    entries.mapM (readEntry repr stripText) = .ok rows := by
  induction entries generalizing previous rows with
  | nil => exact h
  | cons entry entries ih =>
    unfold declaredFrom at h
    obtain ⟨row, hrow, h⟩ := bind_ok h
    obtain ⟨⟨⟩, -, h⟩ := bind_ok h
    obtain ⟨⟨⟩, -, h⟩ := bind_ok h
    obtain ⟨rest, hrest, h⟩ := bind_ok h
    cases h
    rw [List.mapM_cons, hrow, ok_bind, ih hrest]
    rfl

theorem entriesFrom_mapM {seen : List (List Char)} {entries : List Doc} {rows : List Row} (h : entriesFrom repr seen entries = .ok rows) :
    entries.mapM (readEntry repr stripText) = .ok rows := by
  induction entries generalizing seen rows with
  | nil => exact h
  | cons entry entries ih =>
    unfold entriesFrom at h
    obtain ⟨row, hrow, h⟩ := bind_ok h
    obtain ⟨⟨⟩, -, h⟩ := bind_ok h
    obtain ⟨rest, hrest, h⟩ := bind_ok h
    cases h
    rw [List.mapM_cons, readEntry_strip hrow, ok_bind, ih hrest]
    rfl

/-- The declared paths are in strict order, after the one before them. -/
theorem declaredFrom_sorted {previous : Option (List Char)} {entries : List Doc} {rows : List Row} (h : declaredFrom repr previous entries = .ok rows) :
    rows.Pairwise (fun a b => a.1 < b.1) ∧ ∀ path ∈ previous, ∀ row ∈ rows, path < row.1 := by
  induction entries generalizing previous rows with
  | nil =>
    cases h
    simp
  | cons entry entries ih =>
    unfold declaredFrom at h
    obtain ⟨row, hrow, h⟩ := bind_ok h
    obtain ⟨⟨⟩, hle, h⟩ := bind_ok h
    obtain ⟨⟨⟩, hne, h⟩ := bind_ok h
    obtain ⟨rest, hrest, h⟩ := bind_ok h
    cases h
    obtain ⟨hsorted, hafter⟩ := ih hrest
    have hrow : ∀ later ∈ rest, row.1 < later.1 := hafter row.1 rfl
    have hprevious : ∀ path ∈ previous, path < row.1 := by
      rintro path ⟨⟩
      have hle := of_require hle
      have hne := of_require hne
      simp only [Option.any_some, Bool.not_eq_true', decide_eq_false_iff_not] at hle
      simp only [bne_iff_ne, ne_eq, Option.some.injEq] at hne
      exact lt_of_le_of_ne (not_lt.1 hle) hne
    refine ⟨List.pairwise_cons.2 ⟨hrow, hsorted⟩, fun path hpath later hlater => ?_⟩
    rcases List.mem_cons.1 hlater with rfl | hlater
    · exact hprevious path hpath
    · exact (hprevious path hpath).trans (hrow later hlater)

/-- Plain digests are read by all readers alike, and paths in strict order come once. -/
theorem entriesFrom_of_declared {seen : List (List Char)} {previous : Option (List Char)} {entries : List Doc} {rows : List Row}
    (h : declaredFrom repr previous entries = .ok rows) (hplain : ∀ entry ∈ entries, ∀ row, readEntry repr stripText entry = .ok row → readEntry repr id entry = .ok row)
    (hseen : ∀ row ∈ rows, row.1 ∉ seen) : entriesFrom repr seen entries = .ok rows := by
  induction entries generalizing previous seen rows with
  | nil => exact h
  | cons entry entries ih =>
    have hsorted := (declaredFrom_sorted h).1
    unfold declaredFrom at h
    obtain ⟨row, hrow, h⟩ := bind_ok h
    obtain ⟨⟨⟩, -, h⟩ := bind_ok h
    obtain ⟨⟨⟩, -, h⟩ := bind_ok h
    obtain ⟨rest, hrest, h⟩ := bind_ok h
    cases h
    have hlater := (List.pairwise_cons.1 hsorted).1
    have hmore : entriesFrom repr (row.1 :: seen) entries = .ok rest := by
      refine ih hrest (fun entry hentry => hplain entry (List.mem_cons_of_mem _ hentry)) fun later hmem hin => ?_
      rcases List.mem_cons.1 hin with heq | hin
      · exact (hlater later hmem).ne' heq
      · exact hseen later (List.mem_cons_of_mem _ hmem) hin
    unfold entriesFrom
    rw [hplain entry List.mem_cons_self row hrow, ok_bind, List.contains_eq_mem, decide_eq_false (hseen row List.mem_cons_self)]
    simp only [Bool.not_false, require_true, ok_bind, hmore]
    rfl

/-! ### The manifest -/

/-- What `verify_release_tree` found in a manifest that it accepts. -/
structure Passed (repr : Doc → String) (reader : Reader) (server : Server) (expected : Option String) (raw signature : Bytes) (versionFile : Option String)
    (manifest : List (String × Doc)) (key : PublisherKey) (files : List Doc) (declared : List Row) : Prop where
  loads : reader.loads raw = some (.obj manifest)
  keys : hasExactly manifestFields manifest = true
  schema : isSchema (Doc.field "schema" manifest) = true
  algorithm : ((Doc.textField repr "algorithm" manifest).toLower == "ed25519") = true
  component : (stripText (Doc.textField repr "component" manifest) == "framework" || stripText (Doc.textField repr "component" manifest) == "ui") = true
  expected : (!expected.any fun name => name != "" && stripText (Doc.textField repr "component" manifest) != name) = true
  version : isVersion (stripText (Doc.textField repr "version" manifest)) = true
  versionFile : (versionFile == some (stripText (Doc.textField repr "version" manifest))) = true
  publisher : server.publisher (stripText (Doc.textField repr "publisher_id" manifest)) (stripText (Doc.textField repr "key_id" manifest)) = some key
  environment : (key.environment == server.environment) = true
  granted : server.required.all key.granted.contains = true
  signature : key.verify signature raw = true
  listed : fileList (Doc.field "files" manifest) = .ok files
  ordered : declaredFrom repr none files = .ok declared

def trustOf (repr : Doc → String) (sha256 : Bytes → String) (raw signature : Bytes) (manifest : List (String × Doc)) (key : PublisherKey) (count : Nat) : SignedTrust :=
  ⟨stripText (Doc.textField repr "component" manifest), stripText (Doc.textField repr "version" manifest), stripText (Doc.textField repr "publisher_id" manifest),
    key.displayName, stripText (Doc.textField repr "key_id" manifest), count, sha256 raw, sha256 signature, key.granted, key.environment, key.assurance⟩

theorem component_trustOf (repr : Doc → String) (sha256 : Bytes → String) (raw signature : Bytes) (manifest : List (String × Doc)) (key : PublisherKey) (count : Nat) :
    (trustOf repr sha256 raw signature manifest key count).component = stripText (Doc.textField repr "component" manifest) := rfl

variable {expected : Option String} {raw signature : Bytes} {versionFile : Option String} {actual : Except Refusal (List Row)} {trust : SignedTrust}
  {manifest : List (String × Doc)} {key : PublisherKey} {files : List Doc} {declared rows : List Row}

theorem verifySigned_ok (h : verifySigned repr sha256 reader server expected raw signature versionFile actual = .ok trust) :
    ∃ manifest key files declared rows, Passed repr reader server expected raw signature versionFile manifest key files declared ∧ actual = .ok rows ∧
      sameRows declared rows = true ∧ trust = trustOf repr sha256 raw signature manifest key rows.length := by
  unfold verifySigned at h
  split at h
  · rename_i manifest hloads
    obtain ⟨⟨⟩, hkeys, h⟩ := bind_ok h
    obtain ⟨⟨⟩, hschema, h⟩ := bind_ok h
    obtain ⟨⟨⟩, halgorithm, h⟩ := bind_ok h
    obtain ⟨⟨⟩, hcomponent, h⟩ := bind_ok h
    obtain ⟨⟨⟩, hexpected, h⟩ := bind_ok h
    obtain ⟨⟨⟩, hversion, h⟩ := bind_ok h
    obtain ⟨⟨⟩, hfile, h⟩ := bind_ok h
    dsimp only at h
    split at h
    · cases h
    · rename_i key hkey
      obtain ⟨⟨⟩, henvironment, h⟩ := bind_ok h
      obtain ⟨⟨⟩, hgranted, h⟩ := bind_ok h
      obtain ⟨⟨⟩, hsignature, h⟩ := bind_ok h
      obtain ⟨files, hfiles, h⟩ := bind_ok h
      obtain ⟨declared, hdeclared, h⟩ := bind_ok h
      obtain ⟨rows, hrows, h⟩ := bind_ok h
      obtain ⟨⟨⟩, hsame, h⟩ := bind_ok h
      obtain rfl := Except.ok.inj h
      exact ⟨manifest, key, files, declared, rows, ⟨hloads, of_require hkeys, of_require hschema, of_require halgorithm, of_require hcomponent, of_require hexpected,
        of_require hversion, of_require hfile, hkey, of_require henvironment, of_require hgranted, of_require hsignature, hfiles, hdeclared⟩, hrows, of_require hsame, rfl⟩
  · cases h

theorem Passed.verifySigned (h : Passed repr reader server expected raw signature versionFile manifest key files declared) (hsame : sameRows declared rows = true) :
    verifySigned repr sha256 reader server expected raw signature versionFile (.ok rows) = .ok (trustOf repr sha256 raw signature manifest key rows.length) := by
  unfold ReleaseTree.verifySigned
  simp only [h.loads, h.keys, h.schema, h.algorithm, h.component, h.expected, h.version, h.versionFile, h.publisher, h.environment, h.granted, h.signature, h.listed, h.ordered,
    hsame, require_true, ok_bind]
  rfl

/-- `verify_release_tree` accepts a tree as signed. -/
theorem verifyReleaseTree_ok {t : Tree} (h : verifyReleaseTree repr sha256 reader server expected t = .ok (.signed trust)) :
    ∃ m s manifest key files declared rows, t.view manifestPath = .file m ∧ t.view signaturePath = .file s ∧ m.data.length ≤ maxTreeManifestBytes ∧ s.data.length ≤ 256 ∧
      Passed repr reader server expected m.data s.data (versionText t.view) manifest key files declared ∧ actualReleaseTree sha256 t = .ok rows ∧
      sameRows declared rows = true ∧ trust = trustOf repr sha256 m.data s.data manifest key rows.length := by
  unfold verifyReleaseTree at h
  split at h
  · cases h
  · split at h
    · cases h
    · split at h
      · rename_i m s hm hs
        split at h
        · cases h
        · rename_i hsize
          rw [not_or, not_lt, not_lt] at hsize
          cases hverify : verifySigned repr sha256 reader server expected m.data s.data (versionText t.view) (actualReleaseTree sha256 t) with
          | error e => simp [hverify, Except.map] at h
          | ok trust' =>
            simp only [hverify, Except.map, Except.ok.injEq, Trust.signed.injEq] at h
            subst h
            obtain ⟨manifest, key, files, declared, rows, hpassed, hrows, hsame, htrust⟩ := verifySigned_ok hverify
            exact ⟨m, s, manifest, key, files, declared, rows, hm, hs, hsize.1, hsize.2, hpassed, hrows, hsame, htrust⟩
      · cases h

theorem verifyReleaseTree_of {t : Tree} {m s : File} (hm : t.view manifestPath = .file m) (hs : t.view signaturePath = .file s) (hmanifest : m.data.length ≤ maxTreeManifestBytes)
    (hsignature : s.data.length ≤ 256) (hpassed : Passed repr reader server expected m.data s.data (versionText t.view) manifest key files declared)
    (hrows : actualReleaseTree sha256 t = .ok rows) (hsame : sameRows declared rows = true) :
    verifyReleaseTree repr sha256 reader server expected t = .ok (.signed (trustOf repr sha256 m.data s.data manifest key rows.length)) := by
  unfold verifyReleaseTree
  have hsize : ¬ (maxTreeManifestBytes < m.data.length ∨ 256 < s.data.length) := by omega
  simp only [hm, hs, Found.present, hrows, hpassed.verifySigned hsame, if_neg hsize]
  rfl

/-- The snapshot passes where the fields are as the verification gave them. -/
theorem snapshot_of {t : Tree} {m s : File} (hm : t.view manifestPath = .file m) (hs : t.view signaturePath = .file s)
    (hpassed : Passed repr reader server expected m.data s.data versionFile manifest key files declared) (hrows : actualReleaseTree sha256 t = .ok rows)
    (hsame : sameRows declared rows = true) (hplain : ∀ field ∈ ["component", "version", "publisher_id", "key_id"], stripText (Doc.textField repr field manifest) = Doc.textField repr field manifest)
    (halgorithm : Doc.textField repr "algorithm" manifest = "Ed25519") {count : Nat} (hcount : rows.length = count) :
    let trust := trustOf repr sha256 m.data s.data manifest key count
    verifySignedTreeSnapshot repr sha256 reader t trust.component trust.version (.signed trust) = .ok count := by
  have hcomponent := hplain "component" (by simp)
  have hversion := hplain "version" (by simp)
  have hpublisher := hplain "publisher_id" (by simp)
  have hkey := hplain "key_id" (by simp)
  subst hcount
  unfold verifySignedTreeSnapshot
  simp only [trustOf, hm, hs, beq_self_eq_true, require_true, ok_bind, hpassed.loads, hpassed.schema, hcomponent, hversion, hpublisher, hkey, halgorithm, hpassed.listed,
    hpassed.ordered, hrows, hsame]
  rfl

/-! ### The tree -/

theorem isName_of_isPath {path : Path} (h : isPath path = true) : ∀ name ∈ path, PosixPath.isName name = true ∧ '/' ∉ name := by
  intro name hname
  have := List.all_eq_true.1 (Bool.and_eq_true_iff.1 h).2 name hname
  simp only [Bool.and_eq_true, Bool.not_eq_true', List.contains_eq_mem, decide_eq_false_iff_not] at this
  exact ⟨this.1.1, this.2⟩

/-- The text of a path is split into its names again. -/
theorem splitOn_join {path : Path} (h : isPath path = true) : (PosixPath.join path).splitOn '/' = path := by
  refine List.splitOn_intercalate '/' (fun name hname => (isName_of_isPath h name hname).2) ?_
  rintro rfl
  simp [isPath] at h

theorem join_splitOn (path : List Char) : PosixPath.join (path.splitOn '/') = path := List.intercalate_splitOn '/'

theorem view_of_mem {t : Tree} {path : Path} {f : File} (h : (path, f) ∈ t.files) : t.view path = .file f := by
  simp [Tree.view, Dict.get_of_mem t.nodup h]

theorem mem_of_view {t : Tree} {path : Path} {f : File} (h : t.view path = .file f) : (path, f) ∈ t.files := by
  unfold Tree.view at h
  split at h
  · rename_i hget
    cases h
    exact Dict.mem_of_get hget
  · cases h
  · split at h <;> cases h

/-- The files that a listing is about. -/
theorem actualReleaseTree_ok {t : Tree} (h : actualReleaseTree sha256 t = .ok rows) :
    rows = (t.files.filter fun p => covered p.1).map (fun p => (PosixPath.join p.1, p.2.data.length, sha256 p.2.data)) ∧
      (∀ p ∈ t.files, covered p.1 = true → relOk p.1 = true) ∧ rows.length ≤ maxTreeFiles := by
  unfold actualReleaseTree at h
  obtain ⟨⟨⟩, hpaths, h⟩ := bind_ok h
  obtain ⟨⟨⟩, -, h⟩ := bind_ok h
  obtain ⟨⟨⟩, hcount, h⟩ := bind_ok h
  cases h
  refine ⟨rfl, fun p hp hcovered => ?_, by simpa using of_require hcount⟩
  refine List.all_eq_true.1 (of_require hpaths) p.1 ?_
  exact List.mem_append_left _ (List.mem_append_left _ (List.mem_map.2 ⟨p, List.mem_filter.2 ⟨hp, hcovered⟩, rfl⟩))

/-- A row of the listing is of one file. -/
theorem file_of_row {t : Tree} (h : actualReleaseTree sha256 t = .ok rows) {row : Row} (hrow : row ∈ rows) :
    ∃ p ∈ t.files, covered p.1 = true ∧ row = (PosixPath.join p.1, p.2.data.length, sha256 p.2.data) := by
  rw [(actualReleaseTree_ok h).1] at hrow
  obtain ⟨p, hp, rfl⟩ := List.mem_map.1 hrow
  exact ⟨p, (List.mem_filter.1 hp).1, (List.mem_filter.1 hp).2, rfl⟩

theorem nodup_declared (h : declaredFrom repr none files = .ok declared) : (declared.map Prod.fst).Nodup :=
  List.pairwise_map.2 ((declaredFrom_sorted h).1.imp fun hlt => hlt.ne)

/-- Two lists of rows that are the same as dictionaries have the same members. -/
theorem mem_iff_of_sameRows (h : sameRows declared rows = true) (hdeclared : (declared.map Prod.fst).Nodup) {row : Row} : row ∈ declared ↔ row ∈ rows := by
  simp only [sameRows, Bool.and_eq_true, beq_iff_eq, List.all_eq_true] at h
  have hsubset : declared ⊆ rows := fun row hrow => Dict.mem_of_get (h.2 row hrow)
  have hperm := (List.subperm_of_subset (List.Nodup.of_map Prod.fst hdeclared) hsubset).perm_of_length_le h.1.ge
  exact hperm.mem_iff

theorem sameRows_self (h : (declared.map Prod.fst).Nodup) : sameRows declared declared = true := by
  simp only [sameRows, beq_self_eq_true, Bool.true_and, List.all_eq_true, beq_iff_eq]
  exact fun row hrow => Dict.get_of_mem h hrow

/-- A declared file of an accepted tree is copied. -/
theorem copyFileAt_of_row {t : Tree} (h : actualReleaseTree sha256 t = .ok rows) {row : Row} (hrow : row ∈ rows) :
    ∃ p ∈ t.files, covered p.1 = true ∧ copyFileAt sha256 t.view row = .ok p := by
  obtain ⟨p, hp, hcovered, rfl⟩ := file_of_row h hrow
  refine ⟨p, hp, hcovered, ?_⟩
  unfold copyFileAt
  rw [splitOn_join (t.named p hp), view_of_mem hp]
  simp

theorem copyFileAt_ok {view : View} {row : Row} {p : Path × File} (h : copyFileAt sha256 view row = .ok p) :
    p.1 = row.1.splitOn '/' ∧ (PosixPath.join p.1, p.2.data.length, sha256 p.2.data) = row := by
  unfold copyFileAt at h
  split at h
  · cases h
  · cases h
  · cases h
  · split at h
    · rename_i f _ heq
      cases h
      exact ⟨rfl, Prod.ext (join_splitOn row.1) heq⟩
    · cases h

/-! ### The staged copy -/

/-- The files of a copy of an accepted tree make a tree. -/
theorem exists_staged {t : Tree} {m s : File} {copied : List (Path × File)} (hm : t.view manifestPath = .file m) (hs : t.view signaturePath = .file s)
    (hcopied : ∀ p ∈ copied, p ∈ t.files ∧ covered p.1 = true) (hnodup : (copied.map Prod.fst).Nodup) :
    ∃ staged, Tree.ofFiles (copied ++ [(manifestPath, ⟨m.data, false⟩), (signaturePath, ⟨s.data, false⟩)]) = some staged ∧
      staged.files = copied ++ [(manifestPath, ⟨m.data, false⟩), (signaturePath, ⟨s.data, false⟩)] ∧ staged.dirs = [] ∧ staged.specials = [] := by
  have hin : ∀ p ∈ copied ++ [(manifestPath, ⟨m.data, false⟩), (signaturePath, ⟨s.data, false⟩)], ∃ f, (p.1, f) ∈ t.files := by
    intro p hp
    rcases List.mem_append.1 hp with hp | hp
    · exact ⟨p.2, (hcopied p hp).1⟩
    · rcases List.mem_cons.1 hp with rfl | hp
      · exact ⟨m, mem_of_view hm⟩
      · rw [List.mem_singleton.1 hp]
        exact ⟨s, mem_of_view hs⟩
  have hfree : ∀ path ∈ copied.map Prod.fst, path ≠ manifestPath ∧ path ≠ signaturePath := by
    intro path hpath
    obtain ⟨p, hp, rfl⟩ := List.mem_map.1 hpath
    have hcovered := (hcopied p hp).2
    refine ⟨fun heq => ?_, fun heq => ?_⟩
    · rw [heq] at hcovered
      cases hcovered
    · rw [heq] at hcovered
      cases hcovered
  have hok : ((copied ++ [(manifestPath, (⟨m.data, false⟩ : File)), (signaturePath, ⟨s.data, false⟩)]).map Prod.fst).Nodup ∧
      (∀ p ∈ copied ++ [(manifestPath, (⟨m.data, false⟩ : File)), (signaturePath, ⟨s.data, false⟩)],
        ∀ q ∈ copied ++ [(manifestPath, (⟨m.data, false⟩ : File)), (signaturePath, ⟨s.data, false⟩)], p.1 <+: q.1 → p.1 = q.1) ∧
      ∀ p ∈ copied ++ [(manifestPath, (⟨m.data, false⟩ : File)), (signaturePath, ⟨s.data, false⟩)], isPath p.1 = true := by
    refine ⟨?_, fun p hp q hq => ?_, fun p hp => ?_⟩
    · rw [List.map_append, List.nodup_append]
      refine ⟨hnodup, (by decide : [manifestPath, signaturePath].Nodup), fun path hpath path' hpath' heq => ?_⟩
      subst heq
      simp only [List.map_cons, List.map_nil, List.mem_cons, List.not_mem_nil, or_false] at hpath'
      rcases hpath' with heq | heq
      · exact (hfree path hpath).1 heq
      · exact (hfree path hpath).2 heq
    · obtain ⟨f, hf⟩ := hin p hp
      obtain ⟨g, hg⟩ := hin q hq
      exact t.apart (p.1, f) hf (q.1, g) hg
    · obtain ⟨f, hf⟩ := hin p hp
      exact t.named (p.1, f) hf
  refine ⟨⟨_, [], [], hok.1, hok.2.1, hok.2.2⟩, ?_, rfl, rfl, rfl⟩
  rw [Tree.ofFiles, dif_pos hok]

/-- The copy of an accepted tree by the rows of its manifest: its signing files, its `VERSION` and its listing. -/
theorem staged_of_accepted {t : Tree} {m s : File} (hm : t.view manifestPath = .file m) (hs : t.view signaturePath = .file s)
    (hrows : actualReleaseTree sha256 t = .ok rows) (hdeclared : (declared.map Prod.fst).Nodup) (hsame : sameRows declared rows = true)
    (hversion : (versionText t.view).isSome) :
    ∃ copied staged, declared.mapM (copyFileAt sha256 t.view) = .ok copied ∧
      Tree.ofFiles (copied ++ [(manifestPath, ⟨m.data, false⟩), (signaturePath, ⟨s.data, false⟩)]) = some staged ∧ staged.view manifestPath = .file ⟨m.data, false⟩ ∧
      staged.view signaturePath = .file ⟨s.data, false⟩ ∧ versionText staged.view = versionText t.view ∧ actualReleaseTree sha256 staged = .ok declared := by
  have hmem : ∀ row, row ∈ declared ↔ row ∈ rows := fun row => mem_iff_of_sameRows hsame hdeclared
  obtain ⟨copied, hcopied⟩ := mapM_ok fun row hrow => (copyFileAt_of_row hrows ((hmem row).1 hrow)).imp fun p hp => hp.2.2
  have hof : ∀ p ∈ copied, p ∈ t.files ∧ covered p.1 = true := by
    intro p hp
    obtain ⟨row, hrow, hcopy⟩ := mem_of_mapM_ok hcopied hp
    obtain ⟨q, hq, hcovered, heq⟩ := copyFileAt_of_row hrows ((hmem row).1 hrow)
    obtain rfl : q = p := Except.ok.inj (heq.symm.trans hcopy)
    exact ⟨hq, hcovered⟩
  have hlist : copied.map (fun p => (PosixPath.join p.1, p.2.data.length, sha256 p.2.data)) = declared :=
    (map_eq_of_mapM hcopied fun row p hp => (copyFileAt_ok hp).2).trans (List.map_id declared)
  have hnodup : (copied.map Prod.fst).Nodup := by
    have hjoin : ((copied.map Prod.fst).map PosixPath.join).Nodup := by
      rw [← hlist, List.map_map] at hdeclared
      rwa [List.map_map]
    exact List.Nodup.of_map _ hjoin
  obtain ⟨staged, hstaged, hfiles, hdirs, hspecials⟩ := exists_staged hm hs hof hnodup
  refine ⟨copied, staged, hcopied, hstaged, view_of_mem (by simp [hfiles]), view_of_mem (by simp [hfiles]), ?_, ?_⟩
  · -- the version file is covered, so it is declared and copied
    obtain ⟨f, hf⟩ : ∃ f, t.view ["VERSION".toList] = .file f := by
      unfold versionText at hversion
      split at hversion
      · exact ⟨_, ‹_›⟩
      · cases hversion
    have hrow : (PosixPath.join ["VERSION".toList], f.data.length, sha256 f.data) ∈ declared := by
      rw [hmem, (actualReleaseTree_ok hrows).1]
      exact List.mem_map.2 ⟨(["VERSION".toList], f), List.mem_filter.2 ⟨mem_of_view hf, (by decide : covered ["VERSION".toList] = true)⟩, rfl⟩
    obtain ⟨p, hp, hcopy⟩ := mapM_ok_of_mem hcopied hrow
    have hpath : p.1 = ["VERSION".toList] := (copyFileAt_ok hcopy).1.trans (splitOn_join (by decide))
    have hp' : (["VERSION".toList], p.2) ∈ t.files := hpath ▸ (hof p hp).1
    have hsamefile : p.2 = f := by
      have := (view_of_mem hp').symm.trans hf
      cases this
      rfl
    have hcopy : staged.view ["VERSION".toList] = .file f := by
      refine view_of_mem ?_
      rw [hfiles, ← hsamefile, ← hpath]
      exact List.mem_append_left _ hp
    simp only [versionText, hcopy, hf]
  · have hfilter : (staged.files.filter fun p => covered p.1) = copied := by
      rw [hfiles, List.filter_append, List.filter_eq_self.2 fun p hp => (hof p hp).2]
      exact List.append_nil copied
    have hlength : copied.length = rows.length := by
      have hlength := congrArg List.length hlist
      rw [List.length_map] at hlength
      simp only [sameRows, Bool.and_eq_true, beq_iff_eq] at hsame
      exact hlength.trans hsame.1
    obtain ⟨-, hrel, hcount⟩ := actualReleaseTree_ok hrows
    have hall : (copied.map Prod.fst).all relOk = true := by
      rw [List.all_eq_true]
      intro path hpath
      obtain ⟨p, hp, rfl⟩ := List.mem_map.1 hpath
      exact hrel p (hof p hp).1 (hof p hp).2
    unfold actualReleaseTree
    simp only [hfilter, hdirs, hspecials, List.filter_nil, List.map_nil, List.append_nil, hall, List.any_nil, Bool.not_false, hlength, hcount, decide_true, require_true, ok_bind, hlist]
    rfl

end ReaderAux

/-- The digests of a file list have no blanks at their ends. -/
def plainDigests (repr : Doc → String) : Doc → Bool
  | .arr entries => entries.all fun entry =>
    match entry with
    | .obj fields => stripText (Doc.textField repr "sha256" fields) == Doc.textField repr "sha256" fields
    | _ => true
  | _ => true

def plainText : Doc → Bool
  | .str s => stripText s == s
  | _ => false

/-- A plain manifest: an object in UTF-8, whose fields and digests have no blanks at their ends and whose algorithm is spelled `Ed25519`. -/
def plainManifest (repr : Doc → String) (reader : Reader) (raw : Bytes) : Bool :=
  match (Bytes.decodeUtf8 raw).bind reader.parse with
  | some (.obj manifest) =>
    plainText (Doc.field "component" manifest) &&
      (["version", "publisher_id", "key_id"].all fun field => stripText (Doc.textField repr field manifest) == Doc.textField repr field manifest) &&
      Doc.textField repr "algorithm" manifest == "Ed25519" && plainDigests repr (Doc.field "files" manifest)
  | _ => false

/-- A refusal that finds a file missing, extra or changed. -/
def Refusal.isMismatch : Refusal → Bool
  | .fileMissing | .fileDiffers | .fileUnreadable | .treeMismatch => true
  | _ => false

/-- What `verify_release_tree` accepted can be staged, is accepted again as the same release, and both pass the snapshot check. -/
def Agrees (repr : Doc → String) (sha256 : Bytes → String) (reader : Reader) (server : Server) (expected : Option String) (t : Tree) (trust : SignedTrust) : Prop :=
  ∃ staged trust', stageReleaseTree repr sha256 reader t.view trust.component none = .ok staged ∧
    verifyReleaseTree repr sha256 reader server expected staged = .ok (.signed trust') ∧
    trust'.manifestSha256 = trust.manifestSha256 ∧ trust'.version = trust.version ∧ trust'.fileCount = trust.fileCount ∧
    verifySignedTreeSnapshot repr sha256 reader t trust.component trust.version (.signed trust) = .ok trust.fileCount ∧
    verifySignedTreeSnapshot repr sha256 reader staged trust.component trust.version (.signed trust) = .ok trust.fileCount

namespace ReaderAux

variable {repr : Doc → String} {sha256 : Bytes → String} {reader : Reader} {server : Server} {expected : Option String} {trust : SignedTrust}

theorem get_of_field {fields : List (String × Doc)} {field c : String} (h : Doc.field field fields = .str c) : Dict.get field fields = some (.str c) := by
  unfold Doc.field at h
  cases hget : Dict.get field fields with
  | none => simp [hget] at h
  | some v => rw [hget, Option.getD_some] at h; rw [h]

theorem fileList_ok {v : Doc} {files : List Doc} (h : fileList v = .ok files) : v = .arr files := by
  cases v with
  | arr entries =>
    simp only [fileList] at h
    split at h
    · cases h
    · rw [Except.ok.inj h]
  | _ => cases h

/-- A plain manifest is read by the stager as the verification read it. -/
theorem signedFileEntries_of_plain {raw signature : Bytes} {versionFile : Option String} {manifest : List (String × Doc)} {key : PublisherKey} {files : List Doc}
    {declared : List Row} (hpassed : Passed repr reader server expected raw signature versionFile manifest key files declared) (hplain : plainManifest repr reader raw = true) :
    signedFileEntries repr reader raw (stripText (Doc.textField repr "component" manifest)) = .ok declared ∧
      (∀ field ∈ ["component", "version", "publisher_id", "key_id"], stripText (Doc.textField repr field manifest) = Doc.textField repr field manifest) ∧
      Doc.textField repr "algorithm" manifest = "Ed25519" := by
  unfold plainManifest at hplain
  cases hbind : (Bytes.decodeUtf8 raw).bind reader.parse with
  | none => simp [hbind] at hplain
  | some v =>
    cases v with
    | obj fields =>
      obtain ⟨text, htext, hparse⟩ := Option.bind_eq_some_iff.1 hbind
      obtain rfl : fields = manifest := by
        have := (reader.utf8 htext hparse).symm.trans hpassed.loads
        simpa using this
      simp only [hbind, Bool.and_eq_true, beq_iff_eq] at hplain
      obtain ⟨⟨⟨hcomponent, hfields⟩, halgorithm⟩, hdigests⟩ := hplain
      obtain ⟨c, hc⟩ : ∃ c, Doc.field "component" fields = .str c := by
        unfold plainText at hcomponent
        split at hcomponent
        · rename_i c hc
          exact ⟨c, hc⟩
        · cases hcomponent
      have htextc : Doc.textField repr "component" fields = c := Doc.textField_str (get_of_field hc)
      have hstrip : stripText c = c := by simpa [hc, plainText] using hcomponent
      have hlist := fileList_ok hpassed.listed
      have hentries : entriesFrom repr [] files = .ok declared := by
        refine entriesFrom_of_declared hpassed.ordered (fun entry hentry row hrow => ?_) (by simp)
        cases entry with
        | obj entryFields =>
          rw [hlist, plainDigests, List.all_eq_true] at hdigests
          have hdigest := beq_iff_eq.1 (hdigests _ hentry)
          rwa [← readEntry_congr (hdigest : stripText _ = id _)]
        | _ => cases hrow
      refine ⟨?_, fun field hfield => ?_, halgorithm⟩
      · unfold signedFileEntries
        simp only [hbind, hpassed.schema, htextc, hstrip, hc, Doc.isText, beq_self_eq_true, Bool.and_self, require_true, ok_bind, hpassed.listed, hentries]
      · rcases List.mem_cons.1 hfield with rfl | hfield
        · rw [htextc, hstrip]
        · exact beq_iff_eq.1 (List.all_eq_true.1 hfields field hfield)
    | _ => simp [hbind] at hplain

/-- Staging an accepted tree stands or falls with the rows of its manifest. -/
theorem stage_eq {t : Tree} {m s : File} {component : String} (hm : t.view manifestPath = .file m) (hs : t.view signaturePath = .file s)
    (hmsize : m.data.length ≤ maxTreeManifestBytes) (hssize : s.data.length ≤ 256) :
    stageReleaseTree repr sha256 reader t.view component none = (do
      let rows ← signedFileEntries repr reader m.data component
      let files ← rows.mapM (copyFileAt sha256 t.view)
      match Tree.ofFiles (files ++ [(manifestPath, ⟨m.data, false⟩), (signaturePath, ⟨s.data, false⟩)]) with
      | none => .error .cannotWrite
      | some t => .ok t) := by
  unfold stageReleaseTree readSmallAt
  have hm8 : ¬ stageManifestMax < m.data.length := by
    simp only [stageManifestMax, maxTreeManifestBytes] at hmsize ⊢
    omega
  have hs8 : ¬ stageSignatureMax < s.data.length := by
    simp only [stageSignatureMax]
    omega
  simp only [hm, hs, if_neg hm8, if_neg hs8]
  rfl

theorem stage_of_entries {t : Tree} {m s : File} {component : String} {e : Refusal} (hm : t.view manifestPath = .file m) (hs : t.view signaturePath = .file s)
    (hmsize : m.data.length ≤ maxTreeManifestBytes) (hssize : s.data.length ≤ 256) (h : signedFileEntries repr reader m.data component = .error e) :
    stageReleaseTree repr sha256 reader t.view component none = .error e := by
  rw [stage_eq hm hs hmsize hssize, h]
  rfl

/-- Where the manifest is plain, the readers agree. -/
theorem agrees_of_plain {t : Tree} {m : File} (h : verifyReleaseTree repr sha256 reader server expected t = .ok (.signed trust)) (hm : t.view manifestPath = .file m)
    (hplain : plainManifest repr reader m.data = true) : Agrees repr sha256 reader server expected t trust := by
  obtain ⟨m', s, manifest, key, files, declared, rows, hm', hs, hmsize, hssize, hpassed, hrows, hsame, rfl⟩ := verifyReleaseTree_ok h
  obtain rfl : m' = m := by
    rw [hm'] at hm
    cases hm
    rfl
  obtain ⟨hentries, hfields, halgorithm⟩ := signedFileEntries_of_plain hpassed hplain
  have hnodup := nodup_declared hpassed.ordered
  have hversion : (versionText t.view).isSome := by rw [beq_iff_eq.1 hpassed.versionFile]; rfl
  obtain ⟨copied, staged, hcopied, hstaged, hsm, hss, hsversion, hsrows⟩ := staged_of_accepted hm hs hrows hnodup hsame hversion
  have hlength : declared.length = rows.length := by
    simp only [sameRows, Bool.and_eq_true, beq_iff_eq] at hsame
    exact hsame.1
  have hpassed' : Passed repr reader server expected m'.data s.data (versionText staged.view) manifest key files declared := hsversion ▸ hpassed
  have hself := sameRows_self hnodup
  refine ⟨staged, _, ?_, verifyReleaseTree_of hsm hss hmsize hssize hpassed' hsrows hself, rfl, rfl, hlength, ?_, ?_⟩
  · rw [stage_eq hm hs hmsize hssize]
    simp only [trustOf, hentries, ok_bind, hcopied, hstaged]
  · exact snapshot_of hm hs hpassed hrows hsame hfields halgorithm rfl
  · exact snapshot_of hsm hss hpassed' hsrows hself hfields halgorithm hlength

/-- The rows that the stager reads are those of the manifest that was verified. -/
theorem signedFileEntries_ok {raw signature : Bytes} {versionFile : Option String} {manifest : List (String × Doc)} {key : PublisherKey} {files : List Doc}
    {declared rows : List Row} {component : String} (hpassed : Passed repr reader server expected raw signature versionFile manifest key files declared)
    (h : signedFileEntries repr reader raw component = .ok rows) :
    (Bytes.decodeUtf8 raw).bind reader.parse = some (.obj manifest) ∧ Doc.field "component" manifest = .str component ∧ entriesFrom repr [] files = .ok rows ∧ rows = declared := by
  unfold signedFileEntries at h
  cases hbind : (Bytes.decodeUtf8 raw).bind reader.parse with
  | none => simp [hbind] at h
  | some v =>
    cases v with
    | obj fields =>
      obtain ⟨text, htext, hparse⟩ := Option.bind_eq_some_iff.1 hbind
      obtain rfl : fields = manifest := by
        have := (reader.utf8 htext hparse).symm.trans hpassed.loads
        simpa using this
      simp only [hbind] at h
      obtain ⟨⟨⟩, hcomponent, h⟩ := bind_ok h
      obtain ⟨files', hfiles, h⟩ := bind_ok h
      obtain rfl : files' = files := Except.ok.inj (hfiles.symm.trans hpassed.listed)
      have hcomponent := (Bool.and_eq_true_iff.1 (of_require hcomponent)).2
      refine ⟨rfl, ?_, h, Except.ok.inj ((entriesFrom_mapM h).symm.trans (declaredFrom_mapM hpassed.ordered))⟩
      unfold Doc.isText at hcomponent
      split at hcomponent
      · rename_i heq
        rw [heq, beq_iff_eq.1 hcomponent]
      · cases hcomponent
    | _ => simp [hbind] at h

/-- A manifest whose tree is staged has plain digests. -/
theorem plainDigests_of_entries {seen : List (List Char)} {files : List Doc} {rows : List Row} (h : entriesFrom repr seen files = .ok rows) : plainDigests repr (.arr files) = true := by
  rw [plainDigests, List.all_eq_true]
  induction files generalizing seen rows with
  | nil => simp
  | cons first files ih =>
    unfold entriesFrom at h
    obtain ⟨row, hrow, h⟩ := bind_ok h
    obtain ⟨⟨⟩, -, h⟩ := bind_ok h
    obtain ⟨rest, hrest, -⟩ := bind_ok h
    intro entry hentry
    rcases List.mem_cons.1 hentry with rfl | hentry
    · cases entry with
      | obj fields =>
        unfold readEntry at hrow
        obtain ⟨⟨⟩, -, hrow⟩ := bind_ok hrow
        obtain ⟨rel, -, hrow⟩ := bind_ok hrow
        obtain ⟨size, -, hrow⟩ := bind_ok hrow
        obtain ⟨⟨⟩, hdigest, -⟩ := bind_ok hrow
        exact beq_iff_eq.2 (stripText_of_digest (of_require hdigest))
      | _ => rfl
    · exact ih hrest entry hentry

/-- Where the readers agree, the manifest is plain. -/
theorem plain_of_agrees {t : Tree} (h : verifyReleaseTree repr sha256 reader server expected t = .ok (.signed trust)) (hagrees : Agrees repr sha256 reader server expected t trust) :
    ∃ m, t.view manifestPath = .file m ∧ plainManifest repr reader m.data = true := by
  obtain ⟨m, s, manifest, key, files, declared, rows, hm, hs, hmsize, hssize, hpassed, hrows, hsame, rfl⟩ := verifyReleaseTree_ok h
  obtain ⟨staged, -, hstage, -, -, -, -, hsnapshot, -⟩ := hagrees
  rw [stage_eq hm hs hmsize hssize] at hstage
  obtain ⟨rows', hentries, -⟩ := bind_ok hstage
  obtain ⟨hbind, hcomponent, hfrom, -⟩ := signedFileEntries_ok hpassed hentries
  unfold verifySignedTreeSnapshot at hsnapshot
  simp only [hm, hs, trustOf, beq_self_eq_true, require_true, ok_bind, hpassed.loads, hpassed.schema] at hsnapshot
  obtain ⟨⟨⟩, -, hsnapshot⟩ := bind_ok hsnapshot
  obtain ⟨⟨⟩, hversion, hsnapshot⟩ := bind_ok hsnapshot
  obtain ⟨⟨⟩, hpublisher, hsnapshot⟩ := bind_ok hsnapshot
  obtain ⟨⟨⟩, hkey, hsnapshot⟩ := bind_ok hsnapshot
  obtain ⟨⟨⟩, halgorithm, -⟩ := bind_ok hsnapshot
  have htext : Doc.textField repr "component" manifest = stripText (Doc.textField repr "component" manifest) := Doc.textField_str (get_of_field hcomponent)
  refine ⟨m, hm, ?_⟩
  unfold plainManifest
  simp only [hbind, hcomponent, plainText, trustOf, fileList_ok hpassed.listed, plainDigests_of_entries hfrom, of_require halgorithm, Bool.and_true, Bool.and_eq_true,
    List.all_cons, List.all_nil]
  refine ⟨by rw [← htext]; simpa using htext.symm, ?_, ?_, ?_⟩
  · exact beq_iff_eq.2 (beq_iff_eq.1 (of_require hversion)).symm
  · exact beq_iff_eq.2 (beq_iff_eq.1 (of_require hpublisher)).symm
  · exact beq_iff_eq.2 (beq_iff_eq.1 (of_require hkey)).symm

/-! ### Mismatches -/

/-- Not one of the refusals that find a file missing, extra or changed. -/
def Formal (e : Refusal) : Prop := e.isMismatch = false

theorem formal_require {c : Bool} (e : Refusal) (h : Formal e) : RaisesOnly Formal (require c e) := raisesOnly_require h

theorem formal_error {α : Type} (e : Refusal) (h : Formal e) : RaisesOnly Formal (.error e : Except Refusal α) := raisesOnly_error h

theorem formal_treeRelativePath (value : List Char) : RaisesOnly Formal (treeRelativePath value) := by
  unfold treeRelativePath
  exact (formal_require .pathInvalid rfl).bind fun _ => (formal_require .pathInvalid rfl).bind fun _ => (formal_require .pathInvalid rfl).bind fun _ =>
    (formal_require .pathInvalid rfl).bind fun _ => raisesOnly_pure _

theorem formal_pathOf (v : Doc) : RaisesOnly Formal (pathOf v) := by
  cases v with
  | str s => exact formal_treeRelativePath s.toList
  | _ => exact formal_error .pathInvalid rfl

theorem formal_sizeOf (v : Doc) : RaisesOnly Formal (sizeOf v) := by
  cases v with
  | num n =>
    simp only [sizeOf]
    split
    · exact raisesOnly_ok _
    · exact formal_error .manifestInvalid rfl
  | _ => exact formal_error .manifestInvalid rfl

theorem formal_readEntry (clean : String → String) (entry : Doc) : RaisesOnly Formal (readEntry repr clean entry) := by
  cases entry with
  | obj fields =>
    unfold readEntry
    exact (formal_require .manifestInvalid rfl).bind fun _ => (formal_pathOf _).bind fun _ => (formal_sizeOf _).bind fun _ =>
      (formal_require .manifestInvalid rfl).bind fun _ => raisesOnly_pure _
  | _ => exact formal_error .manifestInvalid rfl

theorem formal_entriesFrom (seen : List (List Char)) (entries : List Doc) : RaisesOnly Formal (entriesFrom repr seen entries) := by
  induction entries generalizing seen with
  | nil => exact raisesOnly_ok _
  | cons entry entries ih =>
    unfold entriesFrom
    exact (formal_readEntry id entry).bind fun row => (formal_require .duplicatePath rfl).bind fun _ => (ih _).bind fun _ => raisesOnly_pure _

theorem formal_fileList (v : Doc) : RaisesOnly Formal (fileList v) := by
  cases v with
  | arr entries =>
    simp only [fileList]
    split
    · exact formal_error .fileCountInvalid rfl
    · exact raisesOnly_ok _
  | _ => exact formal_error .fileCountInvalid rfl

theorem formal_signedFileEntries (raw : Bytes) (component : String) : RaisesOnly Formal (signedFileEntries repr reader raw component) := by
  unfold signedFileEntries
  split
  · exact (formal_require .manifestInvalid rfl).bind fun _ => (formal_fileList _).bind fun _ => formal_entriesFrom _ _
  · exact formal_error .manifestInvalid rfl

/-- The stager finds no file of an accepted tree missing or changed. -/
theorem stage_formal {t : Tree} {component : String} (h : verifyReleaseTree repr sha256 reader server expected t = .ok (.signed trust)) :
    RaisesOnly Formal (stageReleaseTree repr sha256 reader t.view component none) := by
  obtain ⟨m, s, manifest, key, files, declared, rows, hm, hs, hmsize, hssize, hpassed, hrows, hsame, rfl⟩ := verifyReleaseTree_ok h
  have hversion : (versionText t.view).isSome := by rw [beq_iff_eq.1 hpassed.versionFile]; rfl
  obtain ⟨copied, staged, hcopied, hstaged, -⟩ := staged_of_accepted hm hs hrows (nodup_declared hpassed.ordered) hsame hversion
  rw [stage_eq hm hs hmsize hssize]
  intro e he
  rcases bind_error_iff.1 he with he | ⟨rows', hrows', he⟩
  · exact formal_signedFileEntries _ _ e he
  · obtain ⟨-, -, -, rfl⟩ := signedFileEntries_ok hpassed hrows'
    simp [hcopied, hstaged] at he

/-- The snapshot check finds no file of an accepted tree missing, extra or changed. -/
theorem snapshot_formal {t : Tree} {component version : String} {context : Trust} (h : verifyReleaseTree repr sha256 reader server expected t = .ok (.signed trust)) :
    RaisesOnly Formal (verifySignedTreeSnapshot repr sha256 reader t component version context) := by
  obtain ⟨m, s, manifest, key, files, declared, rows, hm, hs, -, -, hpassed, hrows, hsame, rfl⟩ := verifyReleaseTree_ok h
  cases context with
  | unsigned => exact formal_error .noContext rfl
  | signed trust =>
    unfold verifySignedTreeSnapshot
    simp only [hm, hs, hpassed.loads, hpassed.listed, hpassed.ordered, hrows, hsame, ok_bind, require_true]
    exact (formal_require .manifestDiffers rfl).bind fun _ => (formal_require .signatureDiffers rfl).bind fun _ => (formal_require .manifestInvalid rfl).bind fun _ =>
      (formal_require .fieldMismatch rfl).bind fun _ => (formal_require .fieldMismatch rfl).bind fun _ => (formal_require .fieldMismatch rfl).bind fun _ =>
      (formal_require .fieldMismatch rfl).bind fun _ => (formal_require .fieldMismatch rfl).bind fun _ => (formal_require .countDiffers rfl).bind fun _ => raisesOnly_pure _

end ReaderAux

/-- The readers of the signed manifest agree on a tree exactly where, if it is accepted as signed, its manifest is plain. A tree on which the stager or the snapshot check finds a
file missing, extra or changed is never accepted. -/
theorem readers_agree_iff_plain (repr : Doc → String) (sha256 : Bytes → String) (reader : Reader) (server : Server) (expected : Option String) (t : Tree) :
    ((∀ trust, verifyReleaseTree repr sha256 reader server expected t = .ok (.signed trust) → Agrees repr sha256 reader server expected t trust) ↔
      ∀ trust, verifyReleaseTree repr sha256 reader server expected t = .ok (.signed trust) → ∃ m, t.view manifestPath = .file m ∧ plainManifest repr reader m.data = true) ∧
    (∀ component e, stageReleaseTree repr sha256 reader t.view component none = .error e → e.isMismatch = true →
      ∀ trust, verifyReleaseTree repr sha256 reader server expected t ≠ .ok (.signed trust)) ∧
    ∀ component version context e, verifySignedTreeSnapshot repr sha256 reader t component version context = .error e → e.isMismatch = true →
      ∀ trust, verifyReleaseTree repr sha256 reader server expected t ≠ .ok (.signed trust) := by
  refine ⟨⟨fun hagree trust htrust => ?_, fun hplain trust htrust => ?_⟩, fun component e he hmismatch trust htrust => ?_,
    fun component version context e he hmismatch trust htrust => ?_⟩
  · exact ReaderAux.plain_of_agrees htrust (hagree trust htrust)
  · obtain ⟨m, hm, hplain⟩ := hplain trust htrust
    exact ReaderAux.agrees_of_plain htrust hm hplain
  · exact Bool.false_ne_true ((ReaderAux.stage_formal htrust e he).symm.trans hmismatch)
  · exact Bool.false_ne_true ((ReaderAux.snapshot_formal htrust e he).symm.trans hmismatch)

namespace ReaderAux

/-- The digest of the text `1`. -/
def oneDigest : String := "6b86b273ff34fce19d6b804eff5a3f5747ada4eaa22f1d49c01e52ddb7875b4b"

def sampleHead : String :=
  "\x7b\"schema\":2,\"component\":\"framework\",\"version\":\"1\",\"publisher_id\":\"acme\",\"key_id\":\"k1\",\"algorithm\":\"Ed25519\",\"files\":[\x7b\"path\":\"VERSION\",\"size\":1,\"sha256\":\""

/-- A manifest for a tree with the file `VERSION` only, which holds `1`. -/
def sampleText (digest : String) : String := sampleHead ++ digest ++ "\"\x7d]\x7d"

def sampleFields (digest : String) : List (String × Doc) :=
  [("schema", .num 2), ("component", .str "framework"), ("version", .str "1"), ("publisher_id", .str "acme"), ("key_id", .str "k1"), ("algorithm", .str "Ed25519"),
    ("files", .arr [.obj [("path", .str "VERSION"), ("size", .num 1), ("sha256", .str digest)]])]

def sampleSignature : Bytes := Bytes.utf8 "ed25519:c2lnbmVk"

def sampleSha : Bytes → String := fun data =>
  (Dict.get data [(Bytes.utf8 "1", oneDigest), (sampleSignature, "c4b51a85d29f1bac870b0c4081102f688fae104aa47253f4cfe509a53d6f58f9"),
    (Bytes.utf8 (sampleText oneDigest), "1b46756333224a4800fc8ab412be870062cc435c994e14c3405b6e1cc9f1ecfc"),
    (Bytes.utf8 (sampleText (oneDigest ++ " ")), "ae892b8ef39e2a635f1a649c241f69da7f569c643ae9e7ff905a7bcb2f8d5943")]).getD ""

def sampleReader (digest : String) : Reader where
  parse := fun text => if text = sampleText digest then some (.obj (sampleFields digest)) else none
  loads := fun raw => (Bytes.decodeUtf8 raw).bind fun text => if text = sampleText digest then some (.obj (sampleFields digest)) else none
  utf8 := fun htext hparse => by rw [htext]; exact hparse

theorem sample_parse (digest : String) : (sampleReader digest).parse (sampleText digest) = some (.obj (sampleFields digest)) := by
  unfold sampleReader
  dsimp only
  rw [if_pos rfl]

/-- What the stager and the plainness of a manifest read of one that is an object. -/
theorem signedFileEntries_of {repr : Doc → String} {reader : Reader} {raw : Bytes} {component : String} {manifest : List (String × Doc)}
    (h : (Bytes.decodeUtf8 raw).bind reader.parse = some (.obj manifest)) :
    signedFileEntries repr reader raw component = (do
      require (isSchema (Doc.field "schema" manifest) && Doc.isText component (Doc.field "component" manifest)) .manifestInvalid
      let files ← fileList (Doc.field "files" manifest)
      entriesFrom repr [] files) := by
  rw [signedFileEntries, h]

theorem plainManifest_of {repr : Doc → String} {reader : Reader} {raw : Bytes} {manifest : List (String × Doc)}
    (h : (Bytes.decodeUtf8 raw).bind reader.parse = some (.obj manifest)) :
    plainManifest repr reader raw = (plainText (Doc.field "component" manifest) &&
      (["version", "publisher_id", "key_id"].all fun field => stripText (Doc.textField repr field manifest) == Doc.textField repr field manifest) &&
      Doc.textField repr "algorithm" manifest == "Ed25519" && plainDigests repr (Doc.field "files" manifest)) := by
  rw [plainManifest, h]

theorem sample_manifest_parsed (digest : String) :
    (Bytes.decodeUtf8 (Bytes.utf8 (sampleText digest))).bind (sampleReader digest).parse = some (.obj (sampleFields digest)) := by
  rw [Bytes.decodeUtf8_utf8, Option.bind_some, sample_parse]

theorem sample_loads (digest : String) : (sampleReader digest).loads (Bytes.utf8 (sampleText digest)) = some (.obj (sampleFields digest)) := by
  unfold sampleReader
  dsimp only
  rw [Bytes.decodeUtf8_utf8, Option.bind_some, if_pos rfl]

def sampleKey (digest : String) : PublisherKey :=
  ⟨"Acme", "production", ["framework.update"], "standard", fun signature message => signature == sampleSignature && message == Bytes.utf8 (sampleText digest)⟩

def sampleServer (digest : String) : Server :=
  ⟨"production", ["framework.update"], fun publisher key => if publisher = "acme" ∧ key = "k1" then some (sampleKey digest) else none⟩

def sampleTree (digest : String) : Tree where
  files := [(["VERSION".toList], ⟨Bytes.utf8 "1", false⟩), (manifestPath, ⟨Bytes.utf8 (sampleText digest), false⟩), (signaturePath, ⟨sampleSignature, false⟩)]
  dirs := []
  specials := []
  nodup := (by decide : [["VERSION".toList], manifestPath, signaturePath].Nodup)
  apart := fun p hp q hq => (by decide : ∀ p ∈ [["VERSION".toList], manifestPath, signaturePath], ∀ q ∈ [["VERSION".toList], manifestPath, signaturePath], p <+: q → p = q)
    p.1 (List.mem_map_of_mem hp) q.1 (List.mem_map_of_mem hq)
  named := fun p hp => (by decide : ∀ p ∈ [["VERSION".toList], manifestPath, signaturePath], isPath p = true) p.1 (List.mem_map_of_mem hp)

/-- What stands for the `str` of values that are neither texts nor numbers; the manifest has none. -/
def sampleRepr : Doc → String := fun _ => ""

/-- The letters of the digest. -/
def oneLetters : List Char :=
  ['6', 'b', '8', '6', 'b', '2', '7', '3', 'f', 'f', '3', '4', 'f', 'c', 'e', '1', '9', 'd', '6', 'b', '8', '0', '4', 'e', 'f', 'f', '5', 'a', '3', 'f', '5', '7',
    '4', '7', 'a', 'd', 'a', '4', 'e', 'a', 'a', '2', '2', 'f', '1', 'd', '4', '9', 'c', '0', '1', 'e', '5', '2', 'd', 'd', 'b', '7', '8', '7', '5', 'b', '4', 'b']

theorem toList_one : oneDigest.toList = oneLetters := String.toList_ofList

theorem toList_blank : (oneDigest ++ " ").toList = oneLetters ++ [' '] := by
  rw [String.toList_append, toList_one]
  rfl

theorem lower_one : oneDigest.toLower = oneDigest := by
  have hletters : oneLetters.map Char.toLower = oneLetters := by decide
  rw [toLower_eq_ofList, toList_one, hletters, ← toList_one, String.ofList_toList]

theorem isDigest_one : isDigest oneDigest = true := by
  rw [isDigest, ← String.length_toList, toList_one]
  decide

theorem strip_one : stripText oneDigest = oneDigest := stripText_of_digest (by rw [lower_one]; exact isDigest_one)

theorem strip_blank : stripText (oneDigest ++ " ") = oneDigest := by
  have hletters : strip (oneLetters ++ [' ']) = oneLetters := by decide_cbv
  rw [stripText, toList_blank, hletters, ← toList_one, String.ofList_toList]

theorem notDigest_blank : isDigest (oneDigest ++ " ").toLower = false := by
  have hlength : (oneDigest ++ " ").toLower.length = 65 := by
    rw [String.toLower, String.length_map, ← String.length_toList, toList_blank]
    rfl
  simp [isDigest, hlength]

def sampleEntry (digest : String) : List (String × Doc) := [("path", .str "VERSION"), ("size", .num 1), ("sha256", .str digest)]

theorem text_entry (digest : String) : Doc.textField sampleRepr "sha256" (sampleEntry digest) = digest := Doc.textField_str rfl

theorem sample_entry {clean : String → String} {digest : String} (hclean : clean digest = oneDigest) :
    readEntry sampleRepr clean (.obj (sampleEntry digest)) = .ok ("VERSION".toList, 1, oneDigest) := by
  have hkeys : ∀ digest, hasExactly ["path", "size", "sha256"] (sampleEntry digest) = true := fun _ => rfl
  have hpath : pathOf (.str "VERSION") = .ok "VERSION".toList := by decide_cbv
  have hpath' : Doc.field "path" (sampleEntry digest) = .str "VERSION" := rfl
  have hsize : sizeOf (Doc.field "size" (sampleEntry digest)) = .ok 1 := rfl
  unfold readEntry
  simp only [hkeys, hpath', hpath, hsize, text_entry, hclean, lower_one, isDigest_one, require_true, ok_bind]
  rfl

/-- The stager takes nothing off the digest. -/
theorem sample_refused : readEntry sampleRepr id (.obj (sampleEntry (oneDigest ++ " "))) = .error .manifestInvalid := by
  have hpath : pathOf (Doc.field "path" (sampleEntry (oneDigest ++ " "))) = .ok "VERSION".toList := by decide_cbv
  have hkeys : hasExactly ["path", "size", "sha256"] (sampleEntry (oneDigest ++ " ")) = true := rfl
  have hsize : sizeOf (Doc.field "size" (sampleEntry (oneDigest ++ " "))) = .ok 1 := rfl
  unfold readEntry
  simp only [hkeys, hpath, hsize, text_entry, id, notDigest_blank, require_true, ok_bind]
  rfl

theorem sample_declared {digest : String} (hdigest : digest = oneDigest ∨ digest = oneDigest ++ " ") :
    declaredFrom sampleRepr none [.obj (sampleEntry digest)] = .ok [("VERSION".toList, 1, oneDigest)] := by
  have hclean : stripText digest = oneDigest := by
    rcases hdigest with rfl | rfl
    · exact strip_one
    · exact strip_blank
  unfold declaredFrom
  rw [sample_entry hclean]
  rfl

theorem sample_manifest (digest : String) : (sampleTree digest).view manifestPath = .file ⟨Bytes.utf8 (sampleText digest), false⟩ :=
  view_of_mem (List.mem_cons_of_mem _ List.mem_cons_self)

theorem sample_signature (digest : String) : (sampleTree digest).view signaturePath = .file ⟨sampleSignature, false⟩ :=
  view_of_mem (List.mem_cons_of_mem _ (List.mem_cons_of_mem _ List.mem_cons_self))

set_option maxRecDepth 2000 in
/-- The text of the manifest is short. -/
theorem sample_size {digest : String} (h : digest = oneDigest ∨ digest = oneDigest ++ " ") : (Bytes.utf8 (sampleText digest)).length ≤ maxTreeManifestBytes := by
  have hle := Bytes.length_utf8_le (sampleText digest)
  have hhead : sampleHead.length ≤ 200 := by
    rw [show sampleHead.length = _ from String.length_ofList]
    decide +kernel
  have hone : oneDigest.length = 64 := by
    rw [← String.length_toList, toList_one]
    rfl
  have hdigest : digest.length ≤ 65 := by
    rcases h with rfl | rfl
    · omega
    · rw [String.length_append, hone]
      rfl
  have hlength : (sampleText digest).length ≤ 300 := by
    have htail : ("\"\x7d]\x7d" : String).length ≤ 10 := by decide +kernel
    rw [sampleText, String.length_append, String.length_append]
    omega
  simp only [maxTreeManifestBytes]
  omega

theorem sample_version (digest : String) : versionText (sampleTree digest).view = some "1" := by
  have hview : (sampleTree digest).view ["VERSION".toList] = .file ⟨Bytes.utf8 "1", false⟩ := view_of_mem List.mem_cons_self
  simp only [versionText, hview, Bytes.decodeUtf8_utf8, Option.map_some]
  decide_cbv

theorem strip_word {word : String} (h : strip word.toList = word.toList) : stripText word = word := by
  rw [stripText, h, String.ofList_toList]

/-- The texts of the manifest, which do not depend on the digest. -/
theorem sample_texts (digest : String) : (Doc.textField sampleRepr "component" (sampleFields digest) = "framework" ∧
      Doc.textField sampleRepr "version" (sampleFields digest) = "1" ∧ Doc.textField sampleRepr "publisher_id" (sampleFields digest) = "acme" ∧
      Doc.textField sampleRepr "key_id" (sampleFields digest) = "k1" ∧ Doc.textField sampleRepr "algorithm" (sampleFields digest) = "Ed25519") ∧
    ∀ word ∈ ["framework", "1", "acme", "k1"], stripText word = word := by
  refine ⟨⟨Doc.textField_str rfl, Doc.textField_str rfl, Doc.textField_str rfl, Doc.textField_str rfl, Doc.textField_str rfl⟩, ?_⟩
  intro word hword
  refine strip_word ?_
  simp only [List.mem_cons, List.not_mem_nil, or_false] at hword
  rcases hword with rfl | rfl | rfl | rfl <;> decide_cbv

theorem sample_passed {digest : String} (hdigest : digest = oneDigest ∨ digest = oneDigest ++ " ") :
    Passed sampleRepr (sampleReader digest) (sampleServer digest) (some "framework") (Bytes.utf8 (sampleText digest)) sampleSignature (versionText (sampleTree digest).view)
      (sampleFields digest) (sampleKey digest) [.obj [("path", .str "VERSION"), ("size", .num 1), ("sha256", .str digest)]] [("VERSION".toList, 1, oneDigest)] := by
  rw [sample_version]
  obtain ⟨⟨hcomponent, hversion, hpublisher, hkey, halgorithm⟩, hstrip⟩ := sample_texts digest
  have hframework := hstrip "framework" (by simp)
  have hone := hstrip "1" (by simp)
  have hacme := hstrip "acme" (by simp)
  have hk := hstrip "k1" (by simp)
  constructor
  case loads => exact sample_loads digest
  case keys => rfl
  case schema => rfl
  case algorithm =>
    rw [halgorithm]
    decide_cbv
  case component => simp [hcomponent, hframework]
  case expected => simp [hcomponent, hframework]
  case version =>
    rw [hversion, hone]
    decide_cbv
  case versionFile => simp [hversion, hone]
  case publisher =>
    rw [hpublisher, hkey, hacme, hk]
    rfl
  case environment => simp [sampleKey, sampleServer]
  case granted => simp [sampleKey, sampleServer]
  case signature => simp [sampleKey]
  case listed => rfl
  case ordered => exact sample_declared hdigest

theorem sample_rows {digest : String} (hdigest : digest = oneDigest ∨ digest = oneDigest ++ " ") :
    actualReleaseTree sampleSha (sampleTree digest) = .ok [("VERSION".toList, 1, oneDigest)] := by
  rcases hdigest with rfl | rfl
  · decide +kernel
  · decide +kernel

/-- The tree is accepted, with and without the blank after the digest. -/
theorem sample_accepted {digest : String} (hdigest : digest = oneDigest ∨ digest = oneDigest ++ " ") :
    verifyReleaseTree sampleRepr sampleSha (sampleReader digest) (sampleServer digest) (some "framework") (sampleTree digest) =
      .ok (.signed (trustOf sampleRepr sampleSha (Bytes.utf8 (sampleText digest)) sampleSignature (sampleFields digest) (sampleKey digest) 1)) := by
  have hsize := sample_size hdigest
  have hsignature : sampleSignature.length ≤ 256 := by decide_cbv
  have hsame : sameRows [("VERSION".toList, 1, oneDigest)] [("VERSION".toList, 1, oneDigest)] = true := by decide_cbv
  have hview := sample_manifest digest
  have hview' := sample_signature digest
  have hpassed := sample_passed hdigest
  have hrows := sample_rows hdigest
  generalize Bytes.utf8 (sampleText digest) = raw at *
  generalize sampleSignature = signature at *
  exact verifyReleaseTree_of hview hview' hsize hsignature hpassed hrows hsame

end ReaderAux

open ReaderAux in
/-- A release whose manifest is plain: the readers agree on it. -/
theorem plain_release_is_staged :
    verifyReleaseTree sampleRepr sampleSha (sampleReader oneDigest) (sampleServer oneDigest) (some "framework") (sampleTree oneDigest) =
      .ok (.signed (trustOf sampleRepr sampleSha (Bytes.utf8 (sampleText oneDigest)) sampleSignature (sampleFields oneDigest) (sampleKey oneDigest) 1)) ∧
    Agrees sampleRepr sampleSha (sampleReader oneDigest) (sampleServer oneDigest) (some "framework") (sampleTree oneDigest)
      (trustOf sampleRepr sampleSha (Bytes.utf8 (sampleText oneDigest)) sampleSignature (sampleFields oneDigest) (sampleKey oneDigest) 1) := by
  refine ⟨sample_accepted (.inl rfl), ?_⟩
  refine (readers_agree_iff_plain sampleRepr sampleSha (sampleReader oneDigest) (sampleServer oneDigest) (some "framework") (sampleTree oneDigest)).1.2 (fun trust _ => ?_) _
    (sample_accepted (.inl rfl))
  refine ⟨⟨Bytes.utf8 (sampleText oneDigest), false⟩, sample_manifest oneDigest, ?_⟩
  have hfields : plainText (Doc.field "component" (sampleFields oneDigest)) = true ∧
      (["version", "publisher_id", "key_id"].all fun field =>
        stripText (Doc.textField sampleRepr field (sampleFields oneDigest)) == Doc.textField sampleRepr field (sampleFields oneDigest)) = true ∧
      (Doc.textField sampleRepr "algorithm" (sampleFields oneDigest) == "Ed25519") = true := by
    obtain ⟨⟨hcomponent, hversion, hpublisher, hkey, halgorithm⟩, hstrip⟩ := sample_texts oneDigest
    refine ⟨rfl, ?_, by simp [halgorithm]⟩
    simp [hversion, hpublisher, hkey, hstrip]
  have hfiles : Doc.field "files" (sampleFields oneDigest) = .arr [.obj (sampleEntry oneDigest)] := rfl
  have hdigests : plainDigests sampleRepr (.arr [.obj (sampleEntry oneDigest)]) = true := by simp [plainDigests, text_entry, strip_one]
  rw [plainManifest_of (sample_manifest_parsed _)]
  simp only [hfields, hfiles, hdigests, Bool.and_self]

open ReaderAux in
/-- A release whose only digest is followed by a blank: it is accepted as signed, and cannot be staged. -/
theorem blank_after_digest_is_not_staged :
    let trust := trustOf sampleRepr sampleSha (Bytes.utf8 (sampleText (oneDigest ++ " "))) sampleSignature (sampleFields (oneDigest ++ " ")) (sampleKey (oneDigest ++ " ")) 1
    verifyReleaseTree sampleRepr sampleSha (sampleReader (oneDigest ++ " ")) (sampleServer (oneDigest ++ " ")) (some "framework") (sampleTree (oneDigest ++ " ")) = .ok (.signed trust) ∧
      stageReleaseTree sampleRepr sampleSha (sampleReader (oneDigest ++ " ")) (sampleTree (oneDigest ++ " ")).view trust.component none = .error .manifestInvalid ∧
      ¬ Agrees sampleRepr sampleSha (sampleReader (oneDigest ++ " ")) (sampleServer (oneDigest ++ " ")) (some "framework") (sampleTree (oneDigest ++ " ")) trust := by
  have hstage : stageReleaseTree sampleRepr sampleSha (sampleReader (oneDigest ++ " ")) (sampleTree (oneDigest ++ " ")).view "framework" none = .error .manifestInvalid := by
    have hentries : signedFileEntries sampleRepr (sampleReader (oneDigest ++ " ")) (Bytes.utf8 (sampleText (oneDigest ++ " "))) "framework" = .error .manifestInvalid := by
      have hfields : (isSchema (Doc.field "schema" (sampleFields (oneDigest ++ " "))) && Doc.isText "framework" (Doc.field "component" (sampleFields (oneDigest ++ " ")))) = true := rfl
      have hfiles : fileList (Doc.field "files" (sampleFields (oneDigest ++ " "))) = .ok [.obj (sampleEntry (oneDigest ++ " "))] := rfl
      rw [signedFileEntries_of (sample_manifest_parsed _)]
      rw [hfields, require_true, ok_bind, hfiles, ok_bind, entriesFrom, sample_refused]
      rfl
    have hview := sample_manifest (oneDigest ++ " ")
    have hview' := sample_signature (oneDigest ++ " ")
    have hsize := sample_size (.inr rfl)
    have hsignature : sampleSignature.length ≤ 256 := by decide_cbv
    generalize Bytes.utf8 (sampleText (oneDigest ++ " ")) = raw at *
    generalize sampleSignature = signature at *
    exact stage_of_entries hview hview' hsize hsignature hentries
  have hrefused : stageReleaseTree sampleRepr sampleSha (sampleReader (oneDigest ++ " ")) (sampleTree (oneDigest ++ " ")).view
      (trustOf sampleRepr sampleSha (Bytes.utf8 (sampleText (oneDigest ++ " "))) sampleSignature (sampleFields (oneDigest ++ " ")) (sampleKey (oneDigest ++ " ")) 1).component
      none = .error .manifestInvalid := by
    obtain ⟨⟨hcomponent, -⟩, hstrip⟩ := sample_texts (oneDigest ++ " ")
    rw [component_trustOf, hcomponent, hstrip "framework" (by simp), hstage]
  refine ⟨sample_accepted (.inr rfl), hrefused, ?_⟩
  rintro ⟨staged, trust', hok, -⟩
  cases hrefused.symm.trans hok

end ReleaseTree

end TecTac
