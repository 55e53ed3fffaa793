import TecTac.Lib.SplitJoin

/-!
# Paths

A path as `PurePosixPath` reads it: the names between the slashes, without the empty ones and the single dots.
-/

namespace PosixPath

/-- `is_absolute()`. -/
def isAbsolute (path : List Char) : Bool := path.head? == some '/'

/-- A name that is kept. -/
def isName (name : List Char) : Bool := name != [] && name != ['.']

/-- The names of a path; for one that is not absolute these are its `parts`. -/
def names (path : List Char) : List (List Char) := (path.splitOn '/').filter isName

/-- `"/".join(names)`. -/
def join (names : List (List Char)) : List Char := ['/'].intercalate names

/-- `as_posix()` of a path that is not absolute. -/
def asPosix (path : List Char) : List Char := if names path = [] then ['.'] else join (names path)

theorem isName_of_mem_names {path name : List Char} (h : name ∈ names path) : isName name = true := (List.mem_filter.1 h).2

theorem slash_notMem_of_mem_names {path name : List Char} (h : name ∈ names path) : '/' ∉ name := fun hslash =>
  (SplitJoin.of_mem_splitOn '/' path name (List.mem_filter.1 h).1 '/' hslash).2 rfl

theorem mem_of_mem_names {path name : List Char} {c : Char} (h : name ∈ names path) (hc : c ∈ name) : c ∈ path :=
  (SplitJoin.of_mem_splitOn '/' path name (List.mem_filter.1 h).1 c hc).1

theorem mem_join {ns : List (List Char)} {c : Char} (h : c ∈ join ns) : c = '/' ∨ ∃ name ∈ ns, c ∈ name := SplitJoin.mem_intercalate h

/-- Names that are no empty names begin their join. -/
theorem head?_join {first : List Char} {rest : List (List Char)} (h : first ≠ []) : (join (first :: rest)).head? = first.head? := by
  obtain ⟨c, cs, rfl⟩ := List.exists_cons_of_ne_nil h
  cases rest <;> simp [join, List.intercalate, List.intersperse]

/-- Names that were joined are read again. -/
theorem names_join {ns : List (List Char)} (hname : ∀ name ∈ ns, isName name = true) (hslash : ∀ name ∈ ns, '/' ∉ name) :
    names (join ns) = ns := by
  cases ns with
  | nil => simp [names, join, List.intercalate, List.splitOn, isName]
  | cons first rest =>
    unfold names join
    rw [List.splitOn_intercalate '/' hslash (by simp), List.filter_eq_self]
    exact hname

/-- What `as_posix` writes has the names of the path. -/
theorem names_asPosix {path : List Char} (h : names path ≠ []) : names (asPosix path) = names path := by
  rw [asPosix, if_neg h]
  exact names_join (fun name hname => isName_of_mem_names hname) (fun name hname => slash_notMem_of_mem_names hname)

theorem names_append (path path' : List Char) : names (path ++ '/' :: path') = names path ++ names path' := by
  rw [names, List.splitOn_append_cons_self, List.filter_append]
  rfl

theorem join_cons_cons (first second : List Char) (rest : List (List Char)) : join (first :: second :: rest) = first ++ '/' :: join (second :: rest) := by
  simp [join, List.intercalate_cons_cons]

theorem join_append {ns ms : List (List Char)} (hns : ns ≠ []) (hms : ms ≠ []) : join (ns ++ ms) = join ns ++ '/' :: join ms := by
  induction ns with
  | nil => exact absurd rfl hns
  | cons first rest ih =>
    cases rest with
    | nil =>
      obtain ⟨second, ms, rfl⟩ := List.exists_cons_of_ne_nil hms
      rw [List.singleton_append, join_cons_cons]
      simp [join]
    | cons second rest =>
      have hrest := ih (by simp)
      rw [List.cons_append] at hrest
      rw [List.cons_append, List.cons_append, join_cons_cons, hrest, join_cons_cons, List.append_assoc, List.cons_append]

/-- A list of names that a path can be made of. -/
def Plain (ns : List (List Char)) : Prop := ∀ name ∈ ns, isName name = true ∧ '/' ∉ name

theorem names_join_of_plain {ns : List (List Char)} (h : Plain ns) : names (join ns) = ns :=
  names_join (fun name hname => (h name hname).1) fun name hname => (h name hname).2

theorem plain_names (path : List Char) : Plain (names path) := fun _ h => ⟨isName_of_mem_names h, slash_notMem_of_mem_names h⟩

/-- `text == path or text.startswith(path + "/")`. -/
def textAtOrBelow (path text : List Char) : Bool := text == path || (path ++ ['/']).isPrefixOf text

/-- For texts that are written out plainly the comparison of texts is that of paths. -/
theorem textAtOrBelow_join {ns ms : List (List Char)} (hns : Plain ns) (hms : Plain ms) (hne : ns ≠ []) : textAtOrBelow (join ns) (join ms) = true ↔ ns <+: ms := by
  rw [textAtOrBelow, Bool.or_eq_true, beq_iff_eq, List.isPrefixOf_iff_prefix]
  constructor
  · rintro (heq | ⟨rest, hrest⟩)
    · rw [← names_join_of_plain hns, ← names_join_of_plain hms, heq]
    · refine ⟨names rest, ?_⟩
      rw [← names_join_of_plain hms, ← hrest, List.append_assoc, List.singleton_append, names_append, names_join_of_plain hns]
  · rintro ⟨rest, rfl⟩
    by_cases hrest : rest = []
    · exact .inl (by rw [hrest, List.append_nil])
    · exact .inr ⟨join rest, by rw [join_append hne hrest, List.append_assoc, List.singleton_append]⟩

/-- One name of a path from the root: two dots lead one folder up. -/
def follow (done : List (List Char)) (name : List Char) : List (List Char) := if name = ['.', '.'] then done.dropLast else done ++ [name]

/-- A path from the root, with single and double dots resolved. -/
def resolve (path : List Char) : List (List Char) := (names path).foldl follow []

theorem plain_foldl {ns done : List (List Char)} (hns : Plain ns) (hdone : Plain done) : Plain (ns.foldl follow done) := by
  induction ns generalizing done with
  | nil => exact hdone
  | cons name ns ih =>
    rw [List.foldl_cons]
    refine ih (fun n hn => hns n (List.mem_cons_of_mem _ hn)) ?_
    unfold follow
    split
    · exact fun n hn => hdone n (List.mem_of_mem_dropLast hn)
    · intro n hn
      rcases List.mem_append.1 hn with hn | hn
      · exact hdone n hn
      · rw [List.mem_singleton.1 hn]
        exact hns name List.mem_cons_self

theorem plain_resolve (path : List Char) : Plain (resolve path) := plain_foldl (plain_names path) fun _ h => by cases h

theorem foldl_follow_of_notMem {ns : List (List Char)} (h : ['.', '.'] ∉ ns) (done : List (List Char)) : ns.foldl follow done = done ++ ns := by
  induction ns generalizing done with
  | nil => simp
  | cons name ns ih =>
    rw [List.mem_cons, not_or] at h
    rw [List.foldl_cons, follow, if_neg (Ne.symm h.1), ih h.2, List.append_assoc, List.singleton_append]

end PosixPath
