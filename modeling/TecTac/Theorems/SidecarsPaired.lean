import Mathlib
import TecTac.IntakeSidecars

/-!
# Packages and their companions

The metadata files are a matching of packages with signatures: each names one package, and no package is named twice. Nothing keeps two of them from naming one
signature, and then the signature goes to two packages.
-/

namespace TecTac

open Raise

/-- A metadata file names one uploaded package and one uploaded signature. -/
def Companions (reader : MetadataReader) (uploads signatures : List Upload) (package signature file : Upload) : Prop :=
  ∃ data, readMetadataUpload reader file (file.nameOr "release metadata") = .ok data ∧
    byPackage uploads (metadataName reader "filename" data) = [package] ∧ bySignature signatures (metadataName reader "signature" data) = [signature]

/-- What the pairing promises of its answer: the packages in upload order, each with both companions or none; every metadata file and every signature is used; the
companions of a package are those that the metadata file names, and no other package or signature has that name; and no companion goes to two packages. -/
structure Paired (reader : MetadataReader) (uploads signatures metadataFiles : List Upload) (rows : List (Upload × Option Upload × Option Upload)) : Prop where
  order : rows.map Prod.fst = uploads
  metadataUsed : ∀ file ∈ metadataFiles, ∃ row ∈ rows, row.2.2 = some file
  signaturesUsed : ∀ signature ∈ signatures, ∃ row ∈ rows, row.2.1 = some signature
  companions : ∀ row ∈ rows, (row.2.1 = none ∧ row.2.2 = none) ∨
    ∃ signature file, row.2.1 = some signature ∧ row.2.2 = some file ∧ file ∈ metadataFiles ∧ Companions reader uploads signatures row.1 signature file
  metadataOnce : (rows.filterMap (·.2.2)).Nodup
  signaturesOnce : (rows.filterMap (·.2.1)).Nodup

/-- The name that a metadata file gives to something, and no name where the file cannot be read. -/
def nameIn (reader : MetadataReader) (field : String) (file : Upload) : Option String :=
  match readMetadataUpload reader file (file.nameOr "release metadata") with
  | .ok data => some (metadataName reader field data)
  | .error _ => none

/-- An upload that is not refused: every metadata file can be read, names one package and one signature, no two name the same package, and every signature is named. -/
structure Acceptable (reader : MetadataReader) (uploads signatures metadataFiles : List Upload) : Prop where
  named : ∀ file ∈ metadataFiles, ∃ package signature, Companions reader uploads signatures package signature file
  packages : (metadataFiles.map (nameIn reader "filename")).Nodup
  signatures : ∀ signature ∈ signatures, some (signature.nameOr "") ∈ metadataFiles.map (nameIn reader "signature")

namespace SidecarAux

variable {reader : MetadataReader} {uploads signatures metadataFiles : List Upload}

theorem owner_ok_iff {metaName packageName : String} {found : List Upload} {package : Upload} :
    owner metaName packageName found = .ok package ↔ found = [package] := by
  unfold owner
  constructor
  · intro h
    split at h
    · cases h
    · rw [Except.ok.inj h]
    · cases h
  · rintro rfl
    rfl

theorem namedSignature_ok_iff {metaName signatureName : String} {found : List Upload} {signature : Upload} :
    namedSignature metaName signatureName found = .ok signature ↔ found = [signature] := by
  unfold namedSignature
  constructor
  · intro h
    split at h
    · cases h
    · rw [Except.ok.inj h]
    · cases h
  · rintro rfl
    rfl

/-- One turn of the loop: the file names one package, which has no companions yet, and one signature. -/
theorem pairOne_ok_iff {pairing pairing' : Pairing} {file : Upload} :
    pairOne reader uploads signatures pairing file = .ok pairing' ↔ ∃ package signature, Companions reader uploads signatures package signature file ∧
      Dict.get package pairing.chosen = none ∧ pairing' = ⟨pairing.chosen ++ [(package, signature, file)], pairing.usedSignatures ++ [signature]⟩ := by
  unfold pairOne
  simp only [bind_ok_iff, owner_ok_iff, namedSignature_ok_iff, require_ok_iff, Option.isNone_iff_eq_none]
  constructor
  · rintro ⟨data, hdata, package, hpackage, _, hnew, signature, hsignature, h⟩
    exact ⟨package, signature, ⟨data, hdata, hpackage, hsignature⟩, hnew, (Except.ok.inj h).symm⟩
  · rintro ⟨package, signature, ⟨data, hdata, hpackage, hsignature⟩, hnew, rfl⟩
    exact ⟨data, hdata, package, hpackage, (), hnew, signature, hsignature, rfl⟩

/-- The loop, from what was chosen before. -/
theorem loop_ok_iff {pairing pairing' : Pairing} (hbefore : (pairing.chosen.map Prod.fst).Nodup) :
    metadataFiles.foldlM (pairOne reader uploads signatures) pairing = .ok pairing' ↔
      ∃ rows : List (Upload × Upload × Upload), rows.map (·.2.2) = metadataFiles ∧ (∀ r ∈ rows, Companions reader uploads signatures r.1 r.2.1 r.2.2) ∧
        ((pairing.chosen ++ rows).map Prod.fst).Nodup ∧ pairing' = ⟨pairing.chosen ++ rows, pairing.usedSignatures ++ rows.map (·.2.1)⟩ := by
  induction metadataFiles generalizing pairing with
  | nil =>
    constructor
    · intro h
      refine ⟨[], rfl, nofun, by simpa using hbefore, ?_⟩
      simpa using (Except.ok.inj h).symm
    · rintro ⟨rows, hrows, -, -, rfl⟩
      rw [List.map_eq_nil_iff.1 hrows]
      simp [pure, Except.pure]
  | cons file files ih =>
    rw [List.foldlM_cons, bind_ok_iff]
    constructor
    · rintro ⟨mid, hmid, h⟩
      obtain ⟨package, signature, hcompanions, hnew, rfl⟩ := pairOne_ok_iff.1 hmid
      have hnodup : ((pairing.chosen ++ [(package, signature, file)]).map Prod.fst).Nodup := by
        rw [List.map_append, List.nodup_append]
        refine ⟨hbefore, by simp, ?_⟩
        rintro x hx y hy rfl
        rw [List.mem_singleton.1 hy] at hx
        exact Dict.get_eq_none_iff.1 hnew hx
      obtain ⟨rows, hrows, hall, hkeys, rfl⟩ := (ih hnodup).1 h
      refine ⟨(package, signature, file) :: rows, by simp [hrows], ?_, ?_, ?_⟩
      · intro r hr
        rcases List.mem_cons.1 hr with rfl | hr
        · exact hcompanions
        · exact hall r hr
      · rwa [List.append_assoc] at hkeys
      · simp
    · rintro ⟨rows, hrows, hall, hkeys, rfl⟩
      obtain ⟨⟨package, signature, file'⟩, rest, rfl, hfile, hrest⟩ := List.map_eq_cons_iff.1 hrows
      obtain rfl : file' = file := hfile
      have hsplit : pairing.chosen ++ (package, signature, file') :: rest = (pairing.chosen ++ [(package, signature, file')]) ++ rest := by simp
      rw [hsplit] at hkeys
      have hfirst : ((pairing.chosen ++ [(package, signature, file')]).map Prod.fst).Nodup := by
        rw [List.map_append] at hkeys
        exact (List.nodup_append.1 hkeys).1
      refine ⟨_, pairOne_ok_iff.2 ⟨package, signature, hall _ List.mem_cons_self, ?_, rfl⟩, (ih hfirst).2 ⟨rest, hrest, ?_, hkeys, ?_⟩⟩
      · rw [Dict.get_eq_none_iff]
        intro hin
        rw [List.map_append, List.nodup_append] at hfirst
        exact hfirst.2.2 package hin package (by simp) rfl
      · exact fun r hr => hall r (List.mem_cons_of_mem _ hr)
      · simp

/-- What the pairing answers. -/
theorem pair_ok_iff {rows : List (Upload × Option Upload × Option Upload)} :
    pairIntakeSidecars reader uploads signatures metadataFiles = .ok rows ↔
      ∃ chosen : List (Upload × Upload × Upload), chosen.map (·.2.2) = metadataFiles ∧
        (∀ r ∈ chosen, Companions reader uploads signatures r.1 r.2.1 r.2.2) ∧ (chosen.map Prod.fst).Nodup ∧
        (∀ signature ∈ signatures, signature ∈ chosen.map (·.2.1)) ∧
        rows = uploads.map fun upload => (upload, (Dict.get upload chosen).map Prod.fst, (Dict.get upload chosen).map Prod.snd) := by
  unfold pairIntakeSidecars
  rw [bind_ok_iff]
  constructor
  · rintro ⟨pairing, hloop, h⟩
    obtain ⟨chosen, hfiles, hall, hkeys, rfl⟩ := (loop_ok_iff (by simp)).1 hloop
    obtain ⟨_, hused, h⟩ := bind_ok h
    refine ⟨chosen, hfiles, hall, hkeys, ?_, (Except.ok.inj h).symm⟩
    intro signature hsignature
    have hone := forM_ok_iff.1 hused signature hsignature
    simpa using of_decide_eq_true (of_require hone)
  · rintro ⟨chosen, hfiles, hall, hkeys, hused, rfl⟩
    refine ⟨⟨chosen, chosen.map (·.2.1)⟩, (loop_ok_iff (by simp)).2 ⟨chosen, hfiles, hall, hkeys, rfl⟩, ?_⟩
    have hforM : signatures.forM (requireUsed ⟨chosen, chosen.map (·.2.1)⟩) = .ok () := by
      refine forM_ok_iff.2 fun signature hsignature => ?_
      rw [requireUsed, decide_eq_true (hused signature hsignature), require_true]
    rw [hforM]
    rfl

theorem nameIn_of_companions {package signature file : Upload} (h : Companions reader uploads signatures package signature file) :
    nameIn reader "filename" file = some (package.nameOr "package") ∧ nameIn reader "signature" file = some (signature.nameOr "") := by
  obtain ⟨data, hdata, hpackage, hsignature⟩ := h
  have hp : package ∈ byPackage uploads (metadataName reader "filename" data) := by simp [hpackage]
  have hs : signature ∈ bySignature signatures (metadataName reader "signature" data) := by simp [hsignature]
  have hp := of_decide_eq_true (List.mem_filter.1 hp).2
  have hs := of_decide_eq_true (List.mem_filter.1 hs).2
  simp only [nameIn, hdata, hp, hs, and_self]

/-- The companions of one name are the same. -/
theorem companions_inj {package signature file package' signature' file' : Upload} (h : Companions reader uploads signatures package signature file)
    (h' : Companions reader uploads signatures package' signature' file') :
    (nameIn reader "filename" file = nameIn reader "filename" file' ↔ package = package') ∧
      (nameIn reader "signature" file = nameIn reader "signature" file' ↔ signature = signature') := by
  have hnames := nameIn_of_companions h
  have hnames' := nameIn_of_companions h'
  obtain ⟨data, hdata, hpackage, hsignature⟩ := h
  obtain ⟨data', hdata', hpackage', hsignature'⟩ := h'
  have hread : ∀ field, nameIn reader field file = some (metadataName reader field data) := fun field => by simp [nameIn, hdata]
  have hread' : ∀ field, nameIn reader field file' = some (metadataName reader field data') := fun field => by simp [nameIn, hdata']
  constructor
  · constructor
    · intro heq
      rw [hread, hread', Option.some.injEq] at heq
      rw [heq, hpackage'] at hpackage
      simpa using hpackage.symm
    · rintro rfl
      rw [hnames.1, hnames'.1]
  · constructor
    · intro heq
      rw [hread, hread', Option.some.injEq] at heq
      rw [heq, hsignature'] at hsignature
      simpa using hsignature.symm
    · rintro rfl
      rw [hnames.2, hnames'.2]

/-- A name for each member keeps a list of pairs apart exactly when its members do. -/
theorem nodup_names_iff {chosen : List (Upload × Upload × Upload)} (hall : ∀ r ∈ chosen, Companions reader uploads signatures r.1 r.2.1 r.2.2) :
    (((chosen.map (·.2.2)).map (nameIn reader "filename")).Nodup ↔ (chosen.map Prod.fst).Nodup) ∧
      (((chosen.map (·.2.2)).map (nameIn reader "signature")).Nodup ↔ (chosen.map (·.2.1)).Nodup) := by
  rw [List.map_map, List.map_map]
  have hpair : ∀ {β γ : Type} (f : Upload × Upload × Upload → β) (g : Upload × Upload × Upload → γ),
      (∀ r ∈ chosen, ∀ r' ∈ chosen, f r = f r' ↔ g r = g r') → ((chosen.map f).Nodup ↔ (chosen.map g).Nodup) := by
    intro β γ f g hsame
    rw [List.Nodup, List.Nodup, List.pairwise_map, List.pairwise_map]
    exact List.Pairwise.iff_of_mem fun hr hr' => not_congr (hsame _ hr _ hr')
  exact ⟨hpair _ _ fun r hr r' hr' => (companions_inj (hall r hr) (hall r' hr')).1,
    hpair _ _ fun r hr r' hr' => (companions_inj (hall r hr) (hall r' hr')).2⟩

variable {chosen : List (Upload × Upload × Upload)}

/-- A package that a metadata file names was uploaded once. -/
theorem count_of_companions {package signature file : Upload} (h : Companions reader uploads signatures package signature file) :
    uploads.count package = 1 := by
  obtain ⟨data, -, hpackage, -⟩ := h
  unfold byPackage at hpackage
  generalize metadataName reader "filename" data = name at hpackage
  have hmem : package ∈ uploads.filter fun upload => upload.nameOr "package" = name := by
    rw [hpackage]
    exact List.mem_singleton_self package
  have hname : decide (package.nameOr "package" = name) = true := (List.mem_filter.1 hmem).2
  have hcount : (uploads.filter fun upload => upload.nameOr "package" = name).count package = uploads.count package :=
    List.count_filter (p := fun upload : Upload => decide (upload.nameOr "package" = name)) hname
  rw [← hcount, hpackage, List.count_singleton_self]

/-- The packages that have companions are those that were chosen, in another order. -/
theorem perm_chosen (hkeys : (chosen.map Prod.fst).Nodup) (honce : ∀ package ∈ chosen.map Prod.fst, uploads.count package = 1) :
    (uploads.filterMap fun upload => Dict.get upload chosen).Perm (chosen.map Prod.snd) := by
  have hfilter : (uploads.filterMap fun upload => Dict.get upload chosen) =
      (uploads.filter fun upload => decide (upload ∈ chosen.map Prod.fst)).filterMap fun upload => Dict.get upload chosen := by
    rw [List.filterMap_filter]
    refine List.filterMap_congr fun upload _ => ?_
    by_cases hmem : upload ∈ chosen.map Prod.fst
    · rw [decide_eq_true hmem, if_pos rfl]
    · rw [decide_eq_false hmem, if_neg Bool.false_ne_true, Dict.get_eq_none_iff.2 hmem]
  have hnodup : (uploads.filter fun upload => decide (upload ∈ chosen.map Prod.fst)).Nodup := by
    rw [List.nodup_iff_count_le_one]
    intro upload
    by_cases hmem : upload ∈ chosen.map Prod.fst
    · exact (List.count_filter (p := fun upload => decide (upload ∈ chosen.map Prod.fst)) (decide_eq_true hmem)).trans_le (honce upload hmem).le
    · have hnot : upload ∉ uploads.filter fun upload => decide (upload ∈ chosen.map Prod.fst) :=
        fun hin => hmem (of_decide_eq_true (List.mem_filter.1 hin).2)
      exact (List.count_eq_zero_of_not_mem hnot).trans_le (Nat.zero_le 1)
  have hperm : (uploads.filter fun upload => decide (upload ∈ chosen.map Prod.fst)).Perm (chosen.map Prod.fst) := by
    refine (List.perm_ext_iff_of_nodup hnodup hkeys).2 fun upload => ?_
    rw [List.mem_filter, decide_eq_true_eq]
    refine ⟨fun h => h.2, fun h => ⟨?_, h⟩⟩
    exact List.count_pos_iff.1 (by rw [honce upload h]; exact Nat.one_pos)
  have hvalues : (chosen.map Prod.fst).filterMap (fun upload => Dict.get upload chosen) = chosen.map Prod.snd := by
    rw [List.filterMap_map, ← List.filterMap_eq_map]
    exact List.filterMap_congr fun r hr => Dict.get_of_mem hkeys hr
  rw [hfilter, ← hvalues]
  exact hperm.filterMap _

/-- What is promised of the answer, and the one part of it that rests on the names of the signatures. -/
theorem paired_iff (hall : ∀ r ∈ chosen, Companions reader uploads signatures r.1 r.2.1 r.2.2) (hkeys : (chosen.map Prod.fst).Nodup)
    (hused : ∀ signature ∈ signatures, signature ∈ chosen.map (·.2.1)) :
    Paired reader uploads signatures (chosen.map (·.2.2))
        (uploads.map fun upload => (upload, (Dict.get upload chosen).map Prod.fst, (Dict.get upload chosen).map Prod.snd)) ↔
      (chosen.map (·.2.1)).Nodup := by
  have honce : ∀ package ∈ chosen.map Prod.fst, uploads.count package = 1 := by
    intro package hpackage
    obtain ⟨r, hr, rfl⟩ := List.mem_map.1 hpackage
    exact count_of_companions (hall r hr)
  have hperm := perm_chosen hkeys honce
  have hsignatures : ((uploads.map fun upload => (upload, (Dict.get upload chosen).map Prod.fst, (Dict.get upload chosen).map Prod.snd)).filterMap (·.2.1)).Perm
      (chosen.map (·.2.1)) := by
    have hfirst := hperm.map Prod.fst
    rw [List.map_filterMap, List.map_map] at hfirst
    rw [List.filterMap_map]
    exact hfirst
  have hmetadata : ((uploads.map fun upload => (upload, (Dict.get upload chosen).map Prod.fst, (Dict.get upload chosen).map Prod.snd)).filterMap (·.2.2)).Perm
      (chosen.map (·.2.2)) := by
    have hsecond := hperm.map Prod.snd
    rw [List.map_filterMap, List.map_map] at hsecond
    rw [List.filterMap_map]
    exact hsecond
  -- the row of a package that was chosen
  have hrow : ∀ r ∈ chosen, (r.1, some r.2.1, some r.2.2) ∈
      uploads.map fun upload => (upload, (Dict.get upload chosen).map Prod.fst, (Dict.get upload chosen).map Prod.snd) := by
    intro r hr
    refine List.mem_map.2 ⟨r.1, List.count_pos_iff.1 (by rw [honce r.1 (List.mem_map_of_mem hr)]; exact Nat.one_pos), ?_⟩
    rw [Dict.get_of_mem hkeys hr]
    rfl
  constructor
  · intro h
    exact hsignatures.nodup_iff.1 h.signaturesOnce
  · intro hnodup
    refine ⟨by rw [List.map_map]; exact List.map_id _, ?_, ?_, ?_, ?_, hsignatures.nodup_iff.2 hnodup⟩
    · intro file hfile
      obtain ⟨r, hr, rfl⟩ := List.mem_map.1 hfile
      exact ⟨_, hrow r hr, rfl⟩
    · intro signature hsignature
      obtain ⟨r, hr, rfl⟩ := List.mem_map.1 (hused signature hsignature)
      exact ⟨_, hrow r hr, rfl⟩
    · intro row hrow
      obtain ⟨upload, -, rfl⟩ := List.mem_map.1 hrow
      cases hget : Dict.get upload chosen with
      | none => exact .inl ⟨rfl, rfl⟩
      | some pair =>
        have hmem := Dict.mem_of_get hget
        exact .inr ⟨pair.1, pair.2, rfl, rfl, List.mem_map.2 ⟨_, hmem, rfl⟩, hall _ hmem⟩
    · refine hmetadata.nodup_iff.2 ?_
      -- two packages that are not the same are named by two files
      have hnames := (nodup_names_iff hall).1.2 hkeys
      rw [List.map_map] at hnames
      rw [← List.map_map] at hnames
      exact hnames.of_map _

/-- The upload is accepted exactly when it can be matched. -/
theorem acceptable_iff : Acceptable reader uploads signatures metadataFiles ↔
    ∃ rows, pairIntakeSidecars reader uploads signatures metadataFiles = .ok rows := by
  constructor
  · intro h
    have hchosen : ∀ files : List Upload, (∀ file ∈ files, ∃ package signature, Companions reader uploads signatures package signature file) →
        ∃ chosen : List (Upload × Upload × Upload), chosen.map (·.2.2) = files ∧ ∀ r ∈ chosen, Companions reader uploads signatures r.1 r.2.1 r.2.2 := by
      intro files
      induction files with
      | nil => exact fun _ => ⟨[], rfl, nofun⟩
      | cons file files ih =>
        intro hfiles
        obtain ⟨package, signature, hone⟩ := hfiles file List.mem_cons_self
        obtain ⟨rest, hrest, hall⟩ := ih fun other hother => hfiles other (List.mem_cons_of_mem file hother)
        refine ⟨(package, signature, file) :: rest, by rw [List.map_cons, hrest], ?_⟩
        intro r hr
        rcases List.mem_cons.1 hr with rfl | hr
        · exact hone
        · exact hall r hr
    obtain ⟨chosen, hfiles, hall⟩ := hchosen metadataFiles h.named
    have hpackages := h.packages
    rw [← hfiles] at hpackages
    refine ⟨_, pair_ok_iff.2 ⟨chosen, hfiles, hall, (nodup_names_iff hall).1.1 hpackages, ?_, rfl⟩⟩
    intro signature hsignature
    have hnamed := h.signatures signature hsignature
    rw [← hfiles, List.map_map] at hnamed
    obtain ⟨r, hr, hname⟩ := List.mem_map.1 hnamed
    -- the file names one signature, and this one has the name
    obtain ⟨data, hdata, -, hone⟩ := hall r hr
    have hin : signature ∈ bySignature signatures (metadataName reader "signature" data) := by
      refine List.mem_filter.2 ⟨hsignature, decide_eq_true ?_⟩
      simpa [nameIn, hdata] using hname.symm
    rw [hone, List.mem_singleton] at hin
    exact List.mem_map.2 ⟨r, hr, hin.symm⟩
  · rintro ⟨rows, h⟩
    obtain ⟨chosen, rfl, hall, hkeys, hused, -⟩ := pair_ok_iff.1 h
    refine ⟨?_, (nodup_names_iff hall).1.2 hkeys, ?_⟩
    · intro file hfile
      obtain ⟨r, hr, rfl⟩ := List.mem_map.1 hfile
      exact ⟨r.1, r.2.1, hall r hr⟩
    · intro signature hsignature
      obtain ⟨r, hr, rfl⟩ := List.mem_map.1 (hused signature hsignature)
      rw [List.map_map]
      exact List.mem_map.2 ⟨r, hr, (nameIn_of_companions (hall r hr)).2⟩

end SidecarAux

open SidecarAux

/-- The packages of an upload are paired as promised, or the upload is refused, exactly when no two metadata files of an upload that is not refused name the same
signature. -/
theorem sidecars_paired_iff (reader : MetadataReader) (uploads signatures metadataFiles : List Upload) :
    (∀ rows, pairIntakeSidecars reader uploads signatures metadataFiles = .ok rows → Paired reader uploads signatures metadataFiles rows) ↔
      (Acceptable reader uploads signatures metadataFiles → (metadataFiles.map (nameIn reader "signature")).Nodup) := by
  constructor
  · intro h hacceptable
    obtain ⟨rows, hrows⟩ := acceptable_iff.1 hacceptable
    have hpaired := h rows hrows
    obtain ⟨chosen, rfl, hall, hkeys, hused, rfl⟩ := pair_ok_iff.1 hrows
    exact (nodup_names_iff hall).2.2 ((paired_iff hall hkeys hused).1 hpaired)
  · intro h rows hrows
    have hnames := h (acceptable_iff.2 ⟨rows, hrows⟩)
    obtain ⟨chosen, rfl, hall, hkeys, hused, rfl⟩ := pair_ok_iff.1 hrows
    exact (paired_iff hall hkeys hused).2 ((nodup_names_iff hall).2.1 hnames)

/-! ## Two packages, one signature -/

/-- Two metadata files: each is for a package of its own, and both name the same signature. -/
def sharedReader : MetadataReader where
  loads
    | [1] => some (.obj [("filename", .str "alpha.zip"), ("signature", .str "release.sig")])
    | [2] => some (.obj [("filename", .str "beta.zip"), ("signature", .str "release.sig")])
    | _ => none
  repr := fun _ => ""

def alphaZip : Upload := ⟨0, some "alpha.zip", 10, []⟩

def betaZip : Upload := ⟨1, some "beta.zip", 10, []⟩

def releaseSig : Upload := ⟨2, some "release.sig", 10, []⟩

def alphaRelease : Upload := ⟨3, some "alpha.release.json", 10, [1]⟩

def betaRelease : Upload := ⟨4, some "beta.release.json", 10, [2]⟩

/-- The one signature goes to both packages. -/
theorem one_signature_for_two_packages :
    pairIntakeSidecars sharedReader [alphaZip, betaZip] [releaseSig] [alphaRelease, betaRelease] =
        .ok [(alphaZip, some releaseSig, some alphaRelease), (betaZip, some releaseSig, some betaRelease)] ∧
      ¬ Paired sharedReader [alphaZip, betaZip] [releaseSig] [alphaRelease, betaRelease]
        [(alphaZip, some releaseSig, some alphaRelease), (betaZip, some releaseSig, some betaRelease)] := by
  refine ⟨by decide +kernel, fun h => ?_⟩
  exact absurd h.signaturesOnce (by decide)

end TecTac
