import TecTac.Hotfix

/-!
# What the rows of a hotfix are

A path that `safe_relative` lets through has no backslash, no dots and none of the names that only a release may change; the rows of a manifest are on distinct targets.
-/

namespace TecTac

namespace Hotfix

open Raise

namespace HotfixAux

/-! ### Paths -/

theorem mem_of_mem_strip {s : List Char} {c : Char} (h : c ∈ strip s) : c ∈ s := by
  have hback := (List.dropWhile_suffix isSpace).subset (List.mem_reverse.1 h)
  exact (List.dropWhile_suffix isSpace).subset (List.mem_reverse.1 hback)

/-- The path with slashes for backslashes, stripped, has no backslash left. -/
theorem backslash_notMem (value : List Char) : '\\' ∉ strip (value.map fun c => if c = '\\' then '/' else c) := by
  intro h
  obtain ⟨c, -, hc⟩ := List.mem_map.1 (mem_of_mem_strip h)
  split at hc
  · simp at hc
  · contradiction

/-- What is known of a safe path: no character of it is a backslash, its names do not begin with a dot, and none is one that only a release may change. -/
theorem safeRelative_ok {value path : List Char} (h : safeRelative value = .ok path) :
    '\\' ∉ path ∧ (∀ name ∈ PosixPath.names path, name.head? ≠ some '.') ∧ (PosixPath.names path).getLast? ≠ some "tec_tac.json".toList ∧
      (PosixPath.names path).getLast? ≠ some "tec_tac_ui.json".toList ∧ "migrations".toList ∉ PosixPath.names path ∧ "lifecycle".toList ∉ PosixPath.names path := by
  unfold safeRelative at h
  obtain ⟨⟨⟩, -, h⟩ := bind_ok h
  obtain ⟨⟨⟩, hsupported, h⟩ := bind_ok h
  obtain ⟨⟨⟩, hpermitted, h⟩ := bind_ok h
  have hslash := backslash_notMem value
  generalize strip (value.map fun c => if c = '\\' then '/' else c) = raw at *
  have hpath : PosixPath.asPosix raw = path := Except.ok.inj h
  by_cases hnil : PosixPath.names raw = []
  · rw [← hpath, PosixPath.asPosix, if_pos hnil]
    decide
  · have hnames : PosixPath.names path = PosixPath.names raw := hpath ▸ PosixPath.names_asPosix hnil
    have hjoin : path = PosixPath.join (PosixPath.names raw) := by rw [← hpath, PosixPath.asPosix, if_neg hnil]
    refine ⟨fun hmem => ?_, ?_, ?_⟩
    · rcases PosixPath.mem_join (hjoin ▸ hmem) with heq | ⟨name, hname, hc⟩
      · simp at heq
      · exact hslash (PosixPath.mem_of_mem_names hname hc)
    · intro name hname
      simpa using List.all_eq_true.1 (of_require hsupported) name (hnames ▸ hname)
    · have hpermitted := of_require hpermitted
      rw [hnames]
      simpa [and_assoc] using hpermitted

/-- A safe path that neither begins nor ends with a blank is safe as it is. -/
theorem safeRelative_again {value path : List Char} (h : safeRelative value = .ok path) (hstrip : strip path = path) : safeRelative path = .ok path := by
  have hslash := (safeRelative_ok h).1
  unfold safeRelative at h
  obtain ⟨⟨⟩, hunsafe, h⟩ := bind_ok h
  obtain ⟨⟨⟩, hsupported, h⟩ := bind_ok h
  obtain ⟨⟨⟩, hpermitted, h⟩ := bind_ok h
  generalize strip (value.map fun c => if c = '\\' then '/' else c) = raw at *
  have hpath : PosixPath.asPosix raw = path := Except.ok.inj h
  by_cases hnil : PosixPath.names raw = []
  · -- nothing but dots and slashes
    rw [← hpath, PosixPath.asPosix, if_pos hnil]
    decide
  · obtain ⟨first, rest, hfirst⟩ := List.exists_cons_of_ne_nil hnil
    have hmem : first ∈ PosixPath.names raw := by rw [hfirst]; exact List.mem_cons_self
    have hjoin : path = PosixPath.join (PosixPath.names raw) := by rw [← hpath, PosixPath.asPosix, if_neg hnil]
    have hnames : PosixPath.names path = PosixPath.names raw := hpath ▸ PosixPath.names_asPosix hnil
    have hmap : path.map (fun c => if c = '\\' then '/' else c) = path := by
      refine List.map_congr_left (fun c hc => if_neg ?_) |>.trans (List.map_id path)
      rintro rfl
      exact hslash hc
    have hne : first ≠ [] := by
      rintro rfl
      simpa [PosixPath.isName] using PosixPath.isName_of_mem_names hmem
    have hhead : path.head? = first.head? := by rw [hjoin, hfirst, PosixPath.head?_join hne]
    obtain ⟨c, cs, rfl⟩ := List.exists_cons_of_ne_nil hne
    have hc : c ≠ '/' := fun hc => PosixPath.slash_notMem_of_mem_names hmem (by simp [hc])
    have habsolute : PosixPath.isAbsolute path = false := by simp [PosixPath.isAbsolute, hhead, hc]
    have hempty : path ≠ [] := by
      rintro rfl
      simp at hhead
    have hagain : PosixPath.asPosix path = path := by rw [PosixPath.asPosix, hnames, if_neg hnil, ← hjoin]
    have hdots := of_require hunsafe
    simp only [Bool.and_eq_true] at hdots
    unfold safeRelative
    simp only [hmap, hstrip, hnames, habsolute, hsupported, hpermitted, hagain, hdots.2, bne_iff_ne.2 hempty]
    rfl

/-! ### Rows -/

theorem normalizeRow_safe {raw : ManifestRow} {row : Row} (h : normalizeRow raw = .ok row) : ∃ value, safeRelative value = .ok row.target.path := by
  unfold normalizeRow at h
  obtain ⟨component, -, h⟩ := bind_ok h
  obtain ⟨rel, hrel, h⟩ := bind_ok h
  obtain ⟨⟨⟩, -, h⟩ := bind_ok h
  cases h
  exact ⟨raw.path.toList, hrel⟩

/-- The rows of a manifest are on distinct targets, and their paths are safe. -/
theorem normalizeRows_ok {seen : List Target} {raws : List (Option ManifestRow)} {rows : List Row} (h : normalizeRows seen raws = .ok rows) :
    (rows.map Row.target).Nodup ∧ (∀ row ∈ rows, row.target ∉ seen) ∧ ∀ row ∈ rows, ∃ value, safeRelative value = .ok row.target.path := by
  induction raws generalizing seen rows with
  | nil =>
    cases h
    simp
  | cons raw raws ih =>
    cases raw with
    | none => cases h
    | some raw =>
      unfold normalizeRows at h
      obtain ⟨row, hrow, h⟩ := bind_ok h
      obtain ⟨⟨⟩, hseen, h⟩ := bind_ok h
      obtain ⟨rest, hrest, h⟩ := bind_ok h
      cases h
      obtain ⟨hnodup, hnew, hsafe⟩ := ih hrest
      have hseen := of_require hseen
      simp only [Bool.not_eq_true', List.contains_eq_mem, decide_eq_false_iff_not] at hseen
      refine ⟨List.nodup_cons.2 ⟨fun hmem => ?_, hnodup⟩, fun r hr => ?_, fun r hr => ?_⟩
      · obtain ⟨r, hr, heq⟩ := List.mem_map.1 hmem
        exact hnew r hr (by simp [heq])
      · rcases List.mem_cons.1 hr with rfl | hr
        · exact hseen
        · exact fun hmem => hnew r hr (List.mem_cons_of_mem _ hmem)
      · rcases List.mem_cons.1 hr with rfl | hr
        · exact normalizeRow_safe hrow
        · exact hsafe r hr

theorem normalizeTargets_ok {manifest : Manifest} {rows : List Row} {effective : Effective} (h : normalizeTargets manifest = .ok (rows, effective)) :
    (rows.map Row.target).Nodup ∧ ∀ row ∈ rows, ∃ value, safeRelative value = .ok row.target.path := by
  unfold normalizeTargets at h
  obtain ⟨⟨⟩, -, h⟩ := bind_ok h
  cases htargets : manifest.targets with
  | none => simp [htargets] at h
  | some targets =>
    simp only [htargets] at h
    obtain ⟨⟨⟩, -, h⟩ := bind_ok h
    obtain ⟨rows', hrows, h⟩ := bind_ok h
    cases h
    obtain ⟨hnodup, -, hsafe⟩ := normalizeRows_ok hrows
    exact ⟨hnodup, hsafe⟩

end HotfixAux

end Hotfix

end TecTac
