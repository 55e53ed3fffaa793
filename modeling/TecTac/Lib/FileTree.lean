import Mathlib

/-!
# Trees of files

A tree maps a path, as the list of its names, to what stands there: a folder, or something else, which is a file or a link. What is at and below a path can
be put in place of what is at and below another one; removing, moving and copying are cases of that.
-/

namespace FileTree

variable {Name Content : Type}

inductive Entry (Content : Type) where
  | dir
  | leaf (c : Content)
  deriving DecidableEq

abbrev Tree (Name Content : Type) := List Name → Option (Entry Content)

/-- A tree with nothing in it. -/
def Tree.empty : Tree Name Content := fun _ => none

/-- What stands at a path is in a folder, up to the root. -/
def Closed (t : Tree Name Content) : Prop := ∀ (p : List Name) (name : Name), (t (p ++ [name])).isSome → t p = some .dir

/-- What is at and below a path, as a tree of its own. -/
def below (t : Tree Name Content) (p : List Name) : Tree Name Content := fun q => t (p ++ q)

@[simp] theorem below_apply (t : Tree Name Content) (p q : List Name) : below t p q = t (p ++ q) := rfl

/-- Above what exists there are folders. -/
theorem Closed.dir_of_append {t : Tree Name Content} (hclosed : Closed t) {p q : List Name} (hq : q ≠ []) (h : (t (p ++ q)).isSome) : t p = some .dir := by
  induction q using List.reverseRecOn with
  | nil => exact absurd rfl hq
  | append_singleton q name ih =>
    rw [← List.append_assoc] at h
    have hdir := hclosed (p ++ q) name h
    cases q with
    | nil => simpa using hdir
    | cons c q => exact ih (by simp) (by simp [hdir])

/-- Below what does not exist there is nothing. -/
theorem Closed.none_of_append {t : Tree Name Content} (hclosed : Closed t) {p q : List Name} (h : t p = none) : t (p ++ q) = none := by
  by_cases hq : q = []
  · simpa [hq] using h
  · cases hsome : t (p ++ q) with
    | none => rfl
    | some e =>
      rw [hclosed.dir_of_append hq (by simp [hsome])] at h
      cases h

/-- A folder above `done ++ rest`, but not at or above `done`. -/
def IsParent (done rest q : List Name) : Prop := done <+: q ∧ q ≠ done ∧ q <+: done ++ rest ∧ q ≠ done ++ rest

theorem isParent_iff {done rest q : List Name} : IsParent done rest q ↔ ∃ x, q = done ++ x ∧ x ≠ [] ∧ x <+: rest ∧ x ≠ rest := by
  constructor
  · rintro ⟨⟨x, rfl⟩, hne, hunder, hwhole⟩
    refine ⟨x, rfl, by simpa using hne, (List.prefix_append_right_inj done).1 hunder, fun h => hwhole (by rw [h])⟩
  · rintro ⟨x, rfl, hne, hunder, hwhole⟩
    exact ⟨List.prefix_append _ _, by simpa using hne, (List.prefix_append_right_inj done).2 hunder, fun h => hwhole (List.append_cancel_left h)⟩

theorem not_isParent_of_short {done rest q : List Name} (h : rest.length ≤ 1) : ¬ IsParent done rest q := by
  rw [isParent_iff]
  rintro ⟨x, -, hne, hunder, hwhole⟩
  have hlength := hunder.length_le
  have hpos := List.length_pos_iff.2 hne
  exact hwhole (hunder.eq_of_length (by omega))

theorem isParent_cons_cons {done rest q : List Name} {name next : Name} :
    IsParent done (name :: next :: rest) q ↔ q = done ++ [name] ∨ IsParent (done ++ [name]) (next :: rest) q := by
  simp only [isParent_iff]
  constructor
  · rintro ⟨x, rfl, hne, hunder, hwhole⟩
    obtain ⟨c, y, rfl⟩ := List.exists_cons_of_ne_nil hne
    obtain ⟨rfl, htail⟩ := List.cons_prefix_cons.1 hunder
    by_cases hy : y = []
    · exact .inl (by rw [hy])
    · exact .inr ⟨y, by simp, hy, htail, fun h => hwhole (by rw [h])⟩
  · rintro (rfl | ⟨x, rfl, hne, hunder, hwhole⟩)
    · exact ⟨[name], rfl, by simp, List.cons_prefix_cons.2 ⟨rfl, List.nil_prefix⟩, by simp⟩
    · exact ⟨name :: x, by simp, by simp, List.cons_prefix_cons.2 ⟨rfl, hunder⟩, fun h => hwhole (List.cons.inj h).2⟩

section Finite

variable [DecidableEq Name]

/-- The tree of these entries. -/
def ofEntries (entries : List (List Name × Entry Content)) : Tree Name Content := fun q => (entries.find? fun e => e.1 = q).map Prod.snd

/-- A tree of entries is closed where each of them is in a folder. -/
theorem closed_ofEntries {entries : List (List Name × Entry Content)} (h : ∀ e ∈ entries, e.1 ≠ [] → ofEntries entries e.1.dropLast = some .dir) : Closed (ofEntries entries) := by
  intro p name hsome
  rw [ofEntries, Option.isSome_map, List.find?_isSome] at hsome
  obtain ⟨e, he, hpath⟩ := hsome
  have hpath : e.1 = p ++ [name] := by simpa using hpath
  have hdir := h e he (by simp [hpath])
  rwa [hpath, List.dropLast_concat] at hdir

end Finite

section Graft

variable [DecidableEq Name]

/-- The tree with another one in the place of what is at and below a path. -/
def graft (t : Tree Name Content) (p : List Name) (s : Tree Name Content) : Tree Name Content := fun q => if p <+: q then s (q.drop p.length) else t q

/-- `shutil.rmtree` and `unlink`. -/
def remove (t : Tree Name Content) (p : List Name) : Tree Name Content := graft t p .empty

/-- `os.replace` to a path where nothing stands. -/
def move (t : Tree Name Content) (src dst : List Name) : Tree Name Content := graft (remove t src) dst (below t src)

@[simp] theorem graft_append (t : Tree Name Content) (p q : List Name) (s : Tree Name Content) : graft t p s (p ++ q) = s q := by
  simp [graft]

@[simp] theorem graft_self (t : Tree Name Content) (p : List Name) (s : Tree Name Content) : graft t p s p = s [] := by
  simp [graft]

theorem graft_of_under {t s : Tree Name Content} {p q : List Name} (h : p <+: q) : graft t p s q = s (q.drop p.length) := if_pos h

theorem graft_of_apart {t s : Tree Name Content} {p q : List Name} (h : ¬ p <+: q) : graft t p s q = t q := if_neg h

@[simp] theorem below_graft (t : Tree Name Content) (p : List Name) (s : Tree Name Content) : below (graft t p s) p = s := by
  funext q
  simp

/-- A path that is not nested with the one that was written keeps what is below it. -/
theorem below_graft_of_apart {t s : Tree Name Content} {p p' : List Name} (h : ¬ p <+: p') (h' : ¬ p' <+: p) : below (graft t p s) p' = below t p' := by
  funext q
  refine graft_of_apart fun hunder => ?_
  rcases List.prefix_or_prefix_of_prefix hunder (List.prefix_append p' q) with h1 | h1
  · exact h h1
  · exact h' h1

/-- The folders above a path, from one of them on: those that are missing are made, and one that is no folder is refused. -/
def makeParents (t : Tree Name Content) (done : List Name) : List Name → Option (Tree Name Content)
  | name :: next :: rest =>
    match t (done ++ [name]) with
    | some .dir => makeParents t (done ++ [name]) (next :: rest)
    | some (.leaf _) => none
    | none => makeParents (Function.update t (done ++ [name]) (some .dir)) (done ++ [name]) (next :: rest)
  | _ => some t

/-- The same without making any: where one is missing, those below it are missing too. -/
def parentsSafe (t : Tree Name Content) (done : List Name) : List Name → Bool
  | name :: next :: rest =>
    match t (done ++ [name]) with
    | some .dir => parentsSafe t (done ++ [name]) (next :: rest)
    | some (.leaf _) => false
    | none => true
  | _ => true

instance (done rest q : List Name) : Decidable (IsParent done rest q) := inferInstanceAs (Decidable (_ ∧ _ ∧ _ ∧ _))

/-- The tree with the missing folders above a path. -/
def withParents (t : Tree Name Content) (done rest : List Name) : Tree Name Content := fun q => if IsParent done rest q ∧ t q = none then some .dir else t q

theorem withParents_cons_of_dir {t : Tree Name Content} {done rest : List Name} {name next : Name} (h : t (done ++ [name]) = some .dir) :
    withParents t done (name :: next :: rest) = withParents t (done ++ [name]) (next :: rest) := by
  funext q
  by_cases hq : q = done ++ [name]
  · simp [withParents, hq, h]
  · simp only [withParents, isParent_cons_cons, hq, false_or]

theorem withParents_cons_of_none {t : Tree Name Content} {done rest : List Name} {name next : Name} (h : t (done ++ [name]) = none) :
    withParents t done (name :: next :: rest) = withParents (Function.update t (done ++ [name]) (some .dir)) (done ++ [name]) (next :: rest) := by
  funext q
  by_cases hq : q = done ++ [name]
  · simp [withParents, hq, h, isParent_cons_cons]
  · simp only [withParents, isParent_cons_cons, hq, false_or, Function.update_of_ne hq]

/-- The folders above a path are made where none of them is a file or a link, and that is all that changes. -/
theorem makeParents_eq_some {t t' : Tree Name Content} {done rest : List Name} :
    makeParents t done rest = some t' ↔ (∀ q c, IsParent done rest q → t q ≠ some (.leaf c)) ∧ t' = withParents t done rest := by
  have hshort : ∀ (t t' : Tree Name Content) (done rest : List Name), rest.length ≤ 1 →
      (some t = some t' ↔ (∀ q c, IsParent done rest q → t q ≠ some (.leaf c)) ∧ t' = withParents t done rest) := by
    intro t t' done rest hlength
    have hsame : withParents t done rest = t := by
      funext q
      simp [withParents, not_isParent_of_short hlength]
    rw [hsame, Option.some.injEq, eq_comm, and_iff_right fun q c hq => absurd hq (not_isParent_of_short hlength)]
  induction rest generalizing t done with
  | nil => exact hshort t t' done [] (by simp)
  | cons name rest ih =>
    cases rest with
    | nil => exact hshort t t' done [name] (by simp)
    | cons next rest =>
      unfold makeParents
      cases hentry : t (done ++ [name]) with
      | none =>
        simp only [ih, withParents_cons_of_none hentry]
        refine and_congr_left fun _ => forall_congr' fun q => forall_congr' fun c => ?_
        by_cases hq : q = done ++ [name]
        · simp [hq, hentry]
        · simp only [isParent_cons_cons, hq, false_or, Function.update_of_ne hq]
      | some e =>
        cases e with
        | dir =>
          simp only [ih, withParents_cons_of_dir hentry]
          refine and_congr_left fun _ => forall_congr' fun q => forall_congr' fun c => ?_
          by_cases hq : q = done ++ [name]
          · simp [hq, hentry]
          · simp only [isParent_cons_cons, hq, false_or]
        | leaf c =>
          simp only [reduceCtorEq, false_iff, not_and]
          exact fun hsafe => absurd hentry (hsafe _ c (isParent_cons_cons.2 (.inl rfl)))

end Graft

end FileTree
