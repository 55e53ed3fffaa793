import Mathlib

/-!
# Trees with links

A tree of folders, files and symbolic links, and how a path is followed in it: a link is replaced by its target, and two dots lead up from the folder that was really reached. The textual reading of
a path takes off a name for two dots. Where no two dots follow a link in the text, the two readings never come apart, and a path that stays inside in the text stays inside.
-/

namespace LinkTree

variable {Name Content : Type}

/-- One part of a path. -/
inductive Part (Name : Type) where
  | up
  | into (name : Name)
  deriving DecidableEq

inductive Entry (Name Content : Type) where
  | dir
  | file (content : Content)
  | link (absolute : Bool) (target : List (Part Name))

abbrev Tree (Name Content : Type) := List Name → Option (Entry Name Content)

/-- The folder that was reached, and what is left of the path. -/
structure Walk (Name : Type) where
  done : List Name
  todo : List (Part Name)

/-- One part of a path is followed. -/
inductive Step (t : Tree Name Content) : Walk Name → Walk Name → Prop where
  | up {done : List Name} {rest : List (Part Name)} : done ≠ [] → Step t ⟨done, .up :: rest⟩ ⟨done.dropLast, rest⟩
  | into {done : List Name} {name : Name} {rest : List (Part Name)} : t (done ++ [name]) = some .dir → Step t ⟨done, .into name :: rest⟩ ⟨done ++ [name], rest⟩
  | link {done : List Name} {name : Name} {rest target : List (Part Name)} : t (done ++ [name]) = some (.link false target) → Step t ⟨done, .into name :: rest⟩ ⟨done, target ++ rest⟩

/-- A path is followed any number of steps. -/
abbrev Follows (t : Tree Name Content) : Walk Name → Walk Name → Prop := Relation.ReflTransGen (Step t)

/-- The next step leads out of the tree. -/
inductive Leaves (t : Tree Name Content) : Walk Name → Prop where
  | up {rest : List (Part Name)} : Leaves t ⟨[], .up :: rest⟩
  | link {done : List Name} {name : Name} {rest target : List (Part Name)} : t (done ++ [name]) = some (.link true target) → Leaves t ⟨done, .into name :: rest⟩

section

variable [DecidableEq Name]

/-- The tree with another entry at a path. -/
def set (t : Tree Name Content) (q : List Name) (e : Entry Name Content) : Tree Name Content := fun p => if p = q then some e else t p

/-- A step that creates a folder where there is nothing. -/
inductive MakeStep : Tree Name Content × Walk Name → Tree Name Content × Walk Name → Prop where
  | walk {t : Tree Name Content} {w w' : Walk Name} : Step t w w' → MakeStep (t, w) (t, w')
  | make {t : Tree Name Content} {done : List Name} {name : Name} {rest : List (Part Name)} : t (done ++ [name]) = none →
      MakeStep (t, ⟨done, .into name :: rest⟩) (set t (done ++ [name]) .dir, ⟨done ++ [name], rest⟩)

abbrev Makes : Tree Name Content × Walk Name → Tree Name Content × Walk Name → Prop := Relation.ReflTransGen MakeStep

end

/-! ## The textual reading -/

/-- The path that a part leads to in the text. -/
def enter (done : List Name) : Part Name → List Name
  | .up => done.dropLast
  | .into name => done ++ [name]

def textual (done : List Name) (todo : List (Part Name)) : List Name := todo.foldl enter done

section

variable (links : List Name → Prop)

/-- Neither a path nor what it lies below is a link. -/
def Clear (q : List Name) : Prop := ∀ p, p <+: q → ¬ links p

/-- In the text, two dots follow no link and never lead out. -/
def Safe : List Name → List (Part Name) → Prop
  | _, [] => True
  | done, .up :: rest => done ≠ [] ∧ Clear links done ∧ Safe done.dropLast rest
  | done, .into name :: rest => Safe (done ++ [name]) rest

/-- In the text, no link is met. -/
def Open : List Name → List (Part Name) → Prop
  | _, [] => True
  | done, .up :: rest => Open done.dropLast rest
  | done, .into name :: rest => ¬ links (done ++ [name]) ∧ Open (done ++ [name]) rest

/-- The links of a tree are among these, and the target of each is safe from where it stands. -/
def Guarded (t : Tree Name Content) : Prop :=
  ∀ done name absolute target, t (done ++ [name]) = some (.link absolute target) → links (done ++ [name]) ∧ absolute = false ∧ Safe links done target

end

variable {links : List Name → Prop}

/-- Behind a link there are no two dots. -/
theorem up_notMem_of_link {p done : List Name} {todo : List (Part Name)} (hsafe : Safe links done todo) (hlink : links p) (hp : p <+: done) : Part.up ∉ todo := by
  induction todo generalizing done with
  | nil => exact List.not_mem_nil
  | cons part rest ih =>
    cases part with
    | up => exact absurd hlink (hsafe.2.1 p hp)
    | into name =>
      rw [List.mem_cons, not_or]
      exact ⟨nofun, ih hsafe (hp.trans (List.prefix_append done [name]))⟩

theorem safe_of_up_notMem {done : List Name} {todo : List (Part Name)} (h : Part.up ∉ todo) : Safe links done todo := by
  induction todo generalizing done with
  | nil => trivial
  | cons part rest ih =>
    rw [List.mem_cons, not_or] at h
    cases part with
    | up => exact absurd rfl h.1
    | into name => exact ih h.2

theorem safe_append {done : List Name} {todo rest : List (Part Name)} (hsafe : Safe links done todo) (h : Part.up ∉ rest) : Safe links done (todo ++ rest) := by
  induction todo generalizing done with
  | nil => exact safe_of_up_notMem h
  | cons part todo ih =>
    cases part with
    | up => exact ⟨hsafe.1, hsafe.2.1, ih hsafe.2.2⟩
    | into name => exact @ih (done ++ [name]) hsafe

theorem safe_of_prefix {done : List Name} {front todo : List (Part Name)} (hsafe : Safe links done todo) (h : front <+: todo) : Safe links done front := by
  induction front generalizing done todo with
  | nil => trivial
  | cons part front ih =>
    obtain ⟨rest, rfl⟩ := h
    cases part with
    | up => exact ⟨hsafe.1, hsafe.2.1, ih hsafe.2.2 (List.prefix_append front rest)⟩
    | into name => exact @ih (done ++ [name]) _ hsafe (List.prefix_append front rest)

/-- A path that is safe in the text stays so while it is followed. -/
theorem safe_step {t : Tree Name Content} {w w' : Walk Name} (ht : Guarded links t) (hsafe : Safe links w.done w.todo) (h : Step t w w') : Safe links w'.done w'.todo := by
  cases h with
  | up => exact hsafe.2.2
  | into => exact hsafe
  | @link done name rest target hlink =>
    obtain ⟨hlinks, -, htarget⟩ := ht _ _ _ _ hlink
    replace hsafe : Safe links (done ++ [name]) rest := hsafe
    exact safe_append htarget (up_notMem_of_link hsafe hlinks (List.prefix_refl _))

theorem safe_follows {t : Tree Name Content} {w w' : Walk Name} (ht : Guarded links t) (hsafe : Safe links w.done w.todo) (h : Follows t w w') : Safe links w'.done w'.todo := by
  induction h with
  | refl => exact hsafe
  | tail _ hstep ih => exact safe_step ht ih hstep

theorem not_leaves_of_safe {t : Tree Name Content} {w : Walk Name} (ht : Guarded links t) (hsafe : Safe links w.done w.todo) : ¬ Leaves t w := by
  rintro (_ | hlink)
  · exact hsafe.1 rfl
  · cases (ht _ _ _ _ hlink).2.1

/-- A path that is safe in the text never leaves. -/
theorem follows_stays {t : Tree Name Content} {w w' : Walk Name} (ht : Guarded links t) (hsafe : Safe links w.done w.todo) (h : Follows t w w') : ¬ Leaves t w' :=
  not_leaves_of_safe ht (safe_follows ht hsafe h)

/-- A path without two dots only gets longer in the text. -/
theorem prefix_textual {done : List Name} {todo : List (Part Name)} (h : Part.up ∉ todo) : done <+: textual done todo := by
  induction todo generalizing done with
  | nil => exact List.prefix_refl done
  | cons part rest ih =>
    rw [List.mem_cons, not_or] at h
    cases part with
    | up => exact absurd rfl h.1
    | into name => exact (List.prefix_append done [name]).trans (ih h.2)

/-- A safe path that ends behind no link meets none. -/
theorem open_of_safe {done : List Name} {todo : List (Part Name)} (hsafe : Safe links done todo) (hclear : Clear links (textual done todo)) : Open links done todo := by
  induction todo generalizing done with
  | nil => trivial
  | cons part rest ih =>
    cases part with
    | up => exact ih hsafe.2.2 hclear
    | into name =>
      replace hsafe : Safe links (done ++ [name]) rest := hsafe
      replace hclear : Clear links (textual (done ++ [name]) rest) := hclear
      exact ⟨fun hlink => hclear _ (prefix_textual (up_notMem_of_link hsafe hlink (List.prefix_refl _))) hlink, ih hsafe hclear⟩

/-- Where no link is met, the folder that is really reached is that of the text. -/
theorem open_step {t : Tree Name Content} {w w' : Walk Name} (ht : Guarded links t) (hopen : Open links w.done w.todo) (h : Step t w w') :
    Open links w'.done w'.todo ∧ textual w'.done w'.todo = textual w.done w.todo := by
  cases h with
  | up => exact ⟨hopen, rfl⟩
  | into => exact ⟨hopen.2, rfl⟩
  | link hlink => exact absurd (ht _ _ _ _ hlink).1 hopen.1

theorem open_follows {t : Tree Name Content} {w w' : Walk Name} (ht : Guarded links t) (hopen : Open links w.done w.todo) (h : Follows t w w') :
    Open links w'.done w'.todo ∧ textual w'.done w'.todo = textual w.done w.todo := by
  induction h with
  | refl => exact ⟨hopen, rfl⟩
  | tail _ hstep ih =>
    obtain ⟨hopen', htextual⟩ := open_step ht ih.1 hstep
    exact ⟨hopen', htextual.trans ih.2⟩

section

variable [DecidableEq Name]

theorem guarded_set {t : Tree Name Content} {q : List Name} {e : Entry Name Content} (ht : Guarded links t)
    (he : ∀ absolute target, e = .link absolute target → links q ∧ absolute = false ∧ Safe links q.dropLast target) : Guarded links (set t q e) := by
  intro done name absolute target h
  unfold set at h
  split at h
  · rename_i hq
    obtain ⟨hlinks, habsolute, hsafe⟩ := he absolute target (Option.some.inj h)
    subst hq
    rw [List.dropLast_concat] at hsafe
    exact ⟨hlinks, habsolute, hsafe⟩
  · exact ht done name absolute target h

/-- What is kept while a path is followed and folders are created. -/
theorem guarded_makes {p p' : Tree Name Content × Walk Name} (ht : Guarded links p.1) (h : Makes p p') : Guarded links p'.1 := by
  induction h with
  | refl => exact ht
  | tail _ hstep ih =>
    cases hstep with
    | walk => exact ih
    | make => exact guarded_set ih nofun

theorem safe_makes {p p' : Tree Name Content × Walk Name} (ht : Guarded links p.1) (hsafe : Safe links p.2.done p.2.todo) (h : Makes p p') : Safe links p'.2.done p'.2.todo := by
  induction h with
  | refl => exact hsafe
  | tail hbefore hstep ih =>
    cases hstep with
    | walk hstep => exact safe_step (guarded_makes ht hbefore) ih hstep
    | make => exact ih

theorem open_makes {p p' : Tree Name Content × Walk Name} (ht : Guarded links p.1) (hopen : Open links p.2.done p.2.todo) (h : Makes p p') :
    Open links p'.2.done p'.2.todo ∧ textual p'.2.done p'.2.todo = textual p.2.done p.2.todo := by
  induction h with
  | refl => exact ⟨hopen, rfl⟩
  | tail hbefore hstep ih =>
    cases hstep with
    | walk hstep =>
      obtain ⟨hopen', htextual⟩ := open_step (guarded_makes ht hbefore) ih.1 hstep
      exact ⟨hopen', htextual.trans ih.2⟩
    | make => exact ⟨ih.1.2, ih.2⟩

end

end LinkTree
