import TecTac.Lib.Raise
import TecTac.RecoveryPayload

/-!
# A recovery payload and its allow-list

A payload that is accepted writes only where the allow-list says, and holds only the durable files of a state root, as long as its names are plain: what is left of a
name without leading dots and slashes is the resolved path written out. For a name with dots or empty parts in it, or one that begins with dots, the text that is
compared is not the path that is written.
-/

namespace TecTac

namespace RecoveryPayload

open PosixPath

/-- The path is at or below a root of the allow-list, and not in what is kept from every payload. -/
structure Permitted (config : Config) (path : List (List Char)) : Prop where
  allowed : ∃ roots, tecTacRestoreAllowedRoots config = some roots ∧ ∃ root ∈ roots, root <+: path
  tactical : ¬ ["rmm".toList] <+: path
  kept : ∀ kept ∈ forbidden, ¬ kept <+: path

/-- Below a state root there is nothing but the durable files of a state root. -/
def DurableOnly (roots : List (List Char)) (path : List (List Char)) : Prop :=
  ∀ root ∈ roots, resolve root <+: path → ∃ root' ∈ roots, ∃ durable ∈ durableStatePaths, path = resolve root' ++ durable

/-- What is compared of a name is its resolved path, written out. -/
def plainName (name : List Char) : Bool := rstripSlash (lstripDots name) == join (resolve name)

/-- A state root is written out as its path is. -/
def plainRoot (root : List Char) : Bool := root == join (names root)

namespace PayloadAux

/-! ### Texts and paths -/

theorem rstripSlash_concat (text : List Char) : rstripSlash (text ++ ['/']) = rstripSlash text := by simp [rstripSlash]

theorem rstripSlash_concat_of_ne {text : List Char} {c : Char} (h : c ≠ '/') : rstripSlash (text ++ [c]) = text ++ [c] := by simp [rstripSlash, h]

/-- Slashes at the end do not change the names of a path. -/
theorem names_rstripSlash (text : List Char) : names (rstripSlash text) = names text := by
  induction text using List.reverseRecOn with
  | nil => rfl
  | append_singleton text c ih =>
    by_cases hc : c = '/'
    · rw [hc, rstripSlash_concat, ih, names_append]
      simp [names, List.splitOn, isName]
    · rw [rstripSlash_concat_of_ne hc]

/-- A text without its slashes at the end is below what the text is below. -/
theorem textAtOrBelow_of_rstripSlash {path text : List Char} (h : textAtOrBelow path (rstripSlash text) = true) : textAtOrBelow path text = true := by
  induction text using List.reverseRecOn with
  | nil => exact h
  | append_singleton text c ih =>
    by_cases hc : c = '/'
    · rw [hc, rstripSlash_concat] at h
      rw [hc]
      have hbelow := ih h
      rw [textAtOrBelow, Bool.or_eq_true, beq_iff_eq, List.isPrefixOf_iff_prefix] at hbelow ⊢
      rcases hbelow with rfl | hbelow
      · exact .inr (List.prefix_refl _)
      · exact .inr (hbelow.trans (List.prefix_append _ _))
    · rwa [rstripSlash_concat_of_ne hc] at h

theorem join_ne_nil {ns : List (List Char)} (hplain : Plain ns) (h : ns ≠ []) : join ns ≠ [] := by
  intro hnil
  rw [← names_join_of_plain hplain, hnil] at h
  exact h rfl

theorem plain_of_all {ns : List (List Char)} (h : (ns.all fun name => isName name && !name.contains '/') = true) : Plain ns := by
  intro name hname
  have := List.all_eq_true.1 h name hname
  simpa using this

theorem plain_forbidden {path : List (List Char)} (h : path ∈ forbidden) : Plain path ∧ path ≠ [] := by
  have hall : forbidden.all (fun path => path.all (fun name => isName name && !name.contains '/') && path != []) = true := by decide_cbv
  have := List.all_eq_true.1 hall path h
  rw [Bool.and_eq_true, bne_iff_ne] at this
  exact ⟨plain_of_all this.1, this.2⟩

theorem plain_allowedRoots {config : Config} {roots : List (List (List Char))} (h : tecTacRestoreAllowedRoots config = some roots) {root : List (List Char)} (hroot : root ∈ roots) :
    Plain root := by
  obtain ⟨raw, -, hraw⟩ := Raise.mem_of_mapM_some h hroot
  simp only [allowedRoot] at hraw
  split at hraw
  · cases hraw
    exact plain_resolve raw
  · cases hraw

/-! ### Plain names -/

theorem rel_of_plain {name : List Char} (h : plainName name = true) : rstripSlash (lstripDots name) = join (resolve name) := beq_iff_eq.1 h

/-- A plain name that is not that of the root, and was let through, is of a permitted path. -/
theorem permitted_of_plain {config : Config} {member : Member} (htactical : isTactical (lstripDots member.name) = false)
    (hvalid : validateTecTacRestoreMember (lstripDots member.name) config = true) (hplain : plainName member.name = true) (hne : member.target ≠ []) :
    Permitted config member.target := by
  have hrel := rel_of_plain hplain
  have htarget : Plain member.target := plain_resolve member.name
  -- `lstrip` twice is `lstrip` once
  have htwice : lstripDots (lstripDots member.name) = lstripDots member.name := List.dropWhile_idempotent _ _
  simp only [validateTecTacRestoreMember, htwice, hrel, Bool.or_eq_true, decide_eq_true_eq, Bool.and_eq_true, Bool.not_eq_true', List.any_eq_false] at hvalid
  obtain ⟨hkept, hallowed⟩ := hvalid.resolve_left (join_ne_nil htarget hne)
  refine ⟨?_, fun hrmm => ?_, fun path hpath hbelow => ?_⟩
  · cases hroots : tecTacRestoreAllowedRoots config with
    | none =>
      rw [hroots] at hallowed
      cases hallowed
    | some roots =>
      rw [hroots, Option.any_some] at hallowed
      obtain ⟨root, hroot, hbelow⟩ := List.any_eq_true.1 hallowed
      refine ⟨roots, rfl, root, hroot, ?_⟩
      by_cases hnil : root = []
      · rw [hnil]
        exact List.nil_prefix
      · exact (textAtOrBelow_join (plain_allowedRoots hroots hroot) htarget hnil).1 hbelow
  · have hbelow : textAtOrBelow "rmm".toList (lstripDots member.name) = true := by
      refine textAtOrBelow_of_rstripSlash ?_
      rw [hrel]
      exact (textAtOrBelow_join (by exact plain_of_all (by decide_cbv)) htarget (by simp)).2 hrmm
    rw [isTactical, hbelow] at htactical
    cases htactical
  · obtain ⟨hpathPlain, hpathNe⟩ := plain_forbidden hpath
    exact hkept path hpath ((textAtOrBelow_join hpathPlain htarget hpathNe).2 hbelow)

theorem resolve_of_notMem {path : List Char} (h : ['.', '.'] ∉ names path) : resolve path = names path := by
  rw [resolve, foldl_follow_of_notMem h, List.nil_append]

/-- The state roots are neither empty nor lead out of their folder. -/
theorem stateRoots_ok {repr : Doc → String} {component : List (String × Doc)} {roots : List (List Char)} (h : validatedTecTacStateRoots repr component = some roots) :
    ∀ root ∈ roots, root ≠ [] ∧ ['.', '.'] ∉ names root := by
  unfold validatedTecTacStateRoots at h
  split at h
  · simp only at h
    split at h
    · rename_i hok
      cases h
      rw [Bool.and_eq_true, Bool.and_eq_true, bne_iff_ne, Bool.not_eq_true', List.contains_eq_mem, decide_eq_false_iff_not] at hok
      intro root hroot
      rcases List.mem_cons.1 hroot with rfl | hroot
      · decide +kernel
      · rw [List.mem_singleton.1 hroot]
        exact ⟨hok.1.2, hok.2⟩
    · cases h
  · cases h

theorem names_durable {durable : List (List Char)} (h : durable ∈ durableStatePaths) : names (join durable) = durable ∧ ['.', '.'] ∉ durable := by
  have hall : durableStatePaths.all (fun path => path.all (fun name => isName name && !name.contains '/') && !path.contains ['.', '.']) = true := by decide_cbv
  have := List.all_eq_true.1 hall durable h
  rw [Bool.and_eq_true, Bool.not_eq_true', List.contains_eq_mem, decide_eq_false_iff_not] at this
  exact ⟨names_join_of_plain (plain_of_all this.1), this.2⟩

/-- A plain name that was let through is below a plain state root only where it is a durable file. -/
theorem durable_of_plain {repr : Doc → String} {component : List (String × Doc)} {roots : List (List Char)} (hroots : validatedTecTacStateRoots repr component = some roots)
    {member : Member} (hstate : stateOk roots (lstripDots member.name) = true) (hplain : plainName member.name = true) (hplainRoots : roots.all plainRoot = true) :
    DurableOnly roots member.target := by
  intro root hroot hbelow
  obtain ⟨hne, hdots⟩ := stateRoots_ok hroots root hroot
  have hrel := rel_of_plain hplain
  have hwritten : root = join (names root) := beq_iff_eq.1 (List.all_eq_true.1 hplainRoots root hroot)
  have hnames : names root ≠ [] := fun hnil => hne (by rw [hwritten, hnil]; rfl)
  have htext : textAtOrBelow root (lstripDots member.name) = true := by
    refine textAtOrBelow_of_rstripSlash ?_
    rw [hrel, hwritten]
    exact (textAtOrBelow_join (plain_names root) (plain_resolve member.name) hnames).2 (resolve_of_notMem hdots ▸ hbelow)
  have hany : (roots.any fun root => textAtOrBelow root (lstripDots member.name)) = true := List.any_eq_true.2 ⟨root, hroot, htext⟩
  rw [stateOk, hany, Bool.not_true, Bool.false_or, List.contains_eq_mem, decide_eq_true_eq] at hstate
  obtain ⟨root', hroot', hmem⟩ := List.mem_flatMap.1 hstate
  obtain ⟨durable, hdurable, hname⟩ := List.mem_map.1 hmem
  refine ⟨root', hroot', durable, hdurable, ?_⟩
  calc member.target = names (join (resolve member.name)) := (names_join_of_plain (plain_resolve member.name)).symm
    _ = names (lstripDots member.name) := by rw [← hrel, names_rstripSlash]
    _ = names root' ++ durable := by rw [← hname, names_append, (names_durable hdurable).1]
    _ = resolve root' ++ durable := by rw [resolve_of_notMem (stateRoots_ok hroots root' hroot').2]

end PayloadAux

namespace PayloadAux

def sampleConfig : Config :=
  ⟨"/opt/tec-tac".toList, "/opt/tec-tac-src/framework".toList, "/opt/tec-tac-src/ui".toList, "/var/lib/tec-tac".toList, []⟩

def sampleFile (name : String) : Member := ⟨name.toList, .file, []⟩

/-- A payload with a file of the runtime and one of the configuration, and a third file. -/
def samplePayload (name : String) : List Member := [sampleFile "opt/tec-tac/a", sampleFile "./etc/tec-tac/b", sampleFile name]

end PayloadAux

end RecoveryPayload

end TecTac
