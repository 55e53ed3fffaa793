import Mathlib
import TecTac.PluginInventory

/-!
# What the inventory of the modules tells

The digest of a folder is fed with paths, kinds and contents one after the other, and nothing says where the contents of a file end. So a folder is told from another one unless the contents of a
file run on into what follows it; and entries that are left out of the digest are not compared. An update is noticed exactly where no folder is mistaken so.
-/

namespace TecTac

namespace PluginInventory

/-! ## What is to be noticed -/

/-- A folder `__pycache__`, what is in one, and a file that ends in `.pyc` or `.pyo`. -/
def Exempt (item : Item) : Prop :=
  (∃ front name back, item.parts = front ++ name :: back ∧ name ∈ volatilePluginDirs ∧ (back ≠ [] ∨ item.isDir = true)) ∨
    item.isFile = true ∧ lower (suffix (item.parts.getLastD [])) ∈ volatilePluginSuffixes

/-- An entry of a folder that is not exempt. -/
def Has (t : PluginTree) (e : Bytes × Entry) : Prop := ∃ item ∈ t.items, ¬ Exempt item ∧ (item.path, item.entry) = e

/-- The two folders have the same paths, the same kind at each, the same contents and targets. -/
def Same (t t' : PluginTree) : Prop := ∀ e, Has t e ↔ Has t' e

/-- Every folder of a module that is not owned by the framework is still there and the same. -/
def Unchanged (before after : Runtime) : Prop :=
  ∀ p ∈ before.plugins, p.1 ∉ frameworkOwnedPluginPaths → ∃ t, Dict.get p.1 after.plugins = some t ∧ Same p.2 t

/-! ## What is mistaken -/

/-- The contents of a file and what follows it are the same bytes as other contents and what follows them. -/
def Spills (l l' : List (Bytes × Entry)) : Prop :=
  ∃ common path contents contents' rest rest', l = common ++ (path, .file contents) :: rest ∧ l' = common ++ (path, .file contents') :: rest' ∧ contents ≠ contents' ∧
    contents ++ stream rest = contents' ++ stream rest'

/-- An entry that is left out although it is not exempt: it has the name `__pycache__` and is no folder. -/
def LeftOut (t : PluginTree) (e : Bytes × Entry) : Prop := ∃ item ∈ t.items, volatilePluginPath item = true ∧ ¬ Exempt item ∧ (item.path, item.entry) = e

/-- The two folders differ in such an entry. -/
def Overlooks (t t' : PluginTree) : Prop := ∃ e, ¬ (LeftOut t e ↔ LeftOut t' e)

section

variable {Digest : Type} (encodes : Bytes → Bool) (sha256 : Bytes → Digest) [DecidableEq Digest]

/-- The update is noticed exactly where it changed something. -/
def Noticed (name : PluginId → String) (before after : Runtime) : Prop :=
  ∀ inventory, snapshotDynamicPlugins encodes sha256 before = .ok inventory → (verifyDynamicPlugins encodes sha256 name after inventory = .ok () ↔ Unchanged before after)

/-- No folder of a module is there with names that can be encoded and the same listing, or one that spills. -/
def AllAlike (before after : Runtime) : Prop :=
  ∀ p ∈ before.plugins, p.1 ∉ frameworkOwnedPluginPaths → (listing p.2).all (encodable encodes) = true ∧
    ∃ t, Dict.get p.1 after.plugins = some t ∧ (listing t).all (encodable encodes) = true ∧ (listing p.2 = listing t ∨ Spills (listing p.2) (listing t))

/-- Of folders that are all alike, none spills and none is overlooked. -/
def NotMistaken (before after : Runtime) : Prop :=
  AllAlike encodes before after → ∀ p ∈ before.plugins, p.1 ∉ frameworkOwnedPluginPaths → ∀ t, Dict.get p.1 after.plugins = some t →
    ¬ Spills (listing p.2) (listing t) ∧ ¬ Overlooks p.2 t

end

namespace InventoryAux

/-! ## The stream -/

/-- What stands before the first zero. -/
theorem append_zero_inj {a b x y : Bytes} (ha : (0 : UInt8) ∉ a) (hb : (0 : UInt8) ∉ b) (h : a ++ 0 :: x = b ++ 0 :: y) : a = b ∧ x = y := by
  induction a generalizing b with
  | nil =>
    cases b with
    | nil => exact ⟨rfl, (List.cons.inj h).2⟩
    | cons c b => exact absurd ((List.cons.inj h).1 ▸ List.mem_cons_self) hb
  | cons c a ih =>
    cases b with
    | nil => exact absurd ((List.cons.inj h).1 ▸ List.mem_cons_self) ha
    | cons d b =>
      obtain ⟨rfl, htail⟩ := List.cons.inj h
      obtain ⟨rfl, hrest⟩ := ih (fun hmem => ha (List.mem_cons_of_mem _ hmem)) (fun hmem => hb (List.mem_cons_of_mem _ hmem)) htail
      exact ⟨rfl, hrest⟩

/-- The paths and the targets have no zero byte. -/
def Clean (e : Bytes × Entry) : Prop := (0 : UInt8) ∉ e.1 ∧ ∀ target, e.2 = .link target → (0 : UInt8) ∉ target

theorem stream_cons (e : Bytes × Entry) (l : List (Bytes × Entry)) : stream (e :: l) = 80 :: 0 :: (e.1 ++ 0 :: (body e.2 ++ stream l)) := by
  simp [stream, record]

/-- What follows an entry is nothing or begins with the mark of a path. -/
def Follows (s : Bytes) : Prop := ∀ b, s.head? = some b → b = 80

theorem follows_stream (l : List (Bytes × Entry)) : Follows (stream l) := by
  intro b hb
  cases l with
  | nil => cases hb
  | cons e l =>
    rw [stream_cons] at hb
    exact (Option.some.inj hb).symm

/-- An entry is told from what follows it, unless both are files. -/
theorem body_append_inj {e e' : Entry} {s s' : Bytes} (he : ∀ target, e = .link target → (0 : UInt8) ∉ target) (he' : ∀ target, e' = .link target → (0 : UInt8) ∉ target)
    (hs : Follows s) (hs' : Follows s') (h : body e ++ s = body e' ++ s') :
    e = e' ∧ s = s' ∨ ∃ contents contents', e = .file contents ∧ e' = .file contents' ∧ contents ≠ contents' ∧ contents ++ s = contents' ++ s' := by
  have hhead : (body e ++ s).head? = (body e' ++ s').head? := by rw [h]
  have hmark {b : UInt8} (hb : b ≠ 80) (hsome : s.head? = some b) : False := hb (hs b hsome)
  have hmark' {b : UInt8} (hb : b ≠ 80) (hsome : s'.head? = some b) : False := hb (hs' b hsome)
  cases e with
  | file contents =>
    cases e' with
    | file contents' =>
      have hrest : contents ++ s = contents' ++ s' := (List.cons.inj (List.cons.inj h).2).2
      by_cases heq : contents = contents'
      · subst heq
        exact Or.inl ⟨rfl, List.append_cancel_left hrest⟩
      · exact Or.inr ⟨contents, contents', rfl, rfl, heq, hrest⟩
    | link target => exact absurd (Option.some.inj hhead) (by decide)
    | dir => exact absurd (Option.some.inj hhead) (by decide)
    | special => exact (hmark' (by decide) hhead.symm).elim
  | link target =>
    cases e' with
    | file contents => exact absurd (Option.some.inj hhead) (by decide)
    | link target' =>
      have hrest : (target ++ [0]) ++ s = (target' ++ [0]) ++ s' := (List.cons.inj (List.cons.inj h).2).2
      rw [List.append_assoc, List.append_assoc, List.singleton_append, List.singleton_append] at hrest
      obtain ⟨rfl, hsame⟩ := append_zero_inj (he target rfl) (he' target' rfl) hrest
      exact Or.inl ⟨rfl, hsame⟩
    | dir => exact absurd (Option.some.inj hhead) (by decide)
    | special => exact (hmark' (by decide) hhead.symm).elim
  | dir =>
    cases e' with
    | file contents => exact absurd (Option.some.inj hhead) (by decide)
    | link target => exact absurd (Option.some.inj hhead) (by decide)
    | dir => exact Or.inl ⟨rfl, (List.cons.inj (List.cons.inj h).2).2⟩
    | special => exact (hmark' (by decide) hhead.symm).elim
  | special =>
    cases e' with
    | file contents => exact (hmark (by decide) hhead).elim
    | link target => exact (hmark (by decide) hhead).elim
    | dir => exact (hmark (by decide) hhead).elim
    | special => exact Or.inl ⟨rfl, h⟩

theorem spills_cons {l l' : List (Bytes × Entry)} (e : Bytes × Entry) (h : Spills l l') : Spills (e :: l) (e :: l') := by
  obtain ⟨common, path, contents, contents', rest, rest', rfl, rfl, hne, heq⟩ := h
  exact ⟨e :: common, path, contents, contents', rest, rest', rfl, rfl, hne, heq⟩

/-- Two listings feed the digest alike exactly where they are the same or one file spills. -/
theorem stream_eq_iff {l l' : List (Bytes × Entry)} (hl : ∀ e ∈ l, Clean e) (hl' : ∀ e ∈ l', Clean e) : stream l = stream l' ↔ l = l' ∨ Spills l l' := by
  constructor
  · intro h
    induction l generalizing l' with
    | nil =>
      cases l' with
      | nil => exact Or.inl rfl
      | cons e l' =>
        rw [stream_cons] at h
        cases h
    | cons e l ih =>
      cases l' with
      | nil =>
        rw [stream_cons] at h
        cases h
      | cons e' l' =>
        have hclean := hl e List.mem_cons_self
        have hclean' := hl' e' List.mem_cons_self
        rw [stream_cons, stream_cons] at h
        obtain ⟨hpath, hbody⟩ := append_zero_inj hclean.1 hclean'.1 (List.cons.inj (List.cons.inj h).2).2
        rcases body_append_inj hclean.2 hclean'.2 (follows_stream l) (follows_stream l') hbody with ⟨hentry, hrest⟩ | ⟨contents, contents', hfile, hfile', hne, hrest⟩
        · have heq : e = e' := Prod.ext hpath hentry
          subst heq
          rcases ih (fun x hx => hl x (List.mem_cons_of_mem _ hx)) (fun x hx => hl' x (List.mem_cons_of_mem _ hx)) hrest with rfl | hspills
          · exact Or.inl rfl
          · exact Or.inr (spills_cons e hspills)
        · refine Or.inr ⟨[], e.1, contents, contents', l, l', ?_, ?_, hne, hrest⟩
          · rw [← hfile, List.nil_append]
          · rw [hpath, ← hfile', List.nil_append]
  · rintro (rfl | ⟨common, path, contents, contents', rest, rest', rfl, rfl, -, heq⟩)
    · rfl
    · have happend (x y : List (Bytes × Entry)) : stream (x ++ y) = stream x ++ stream y := List.flatMap_append
      rw [happend, happend, stream_cons, stream_cons]
      simp only [body, List.cons_append, heq]

/-! ## The listing -/

theorem mem_listing {t : PluginTree} {e : Bytes × Entry} : e ∈ listing t ↔ ∃ item ∈ t.items, volatilePluginPath item = false ∧ (item.path, item.entry) = e := by
  rw [listing, (List.mergeSort_perm _ _).mem_iff, List.mem_map]
  constructor
  · rintro ⟨item, hitem, heq⟩
    obtain ⟨hmem, hvolatile⟩ := List.mem_filter.1 hitem
    exact ⟨item, hmem, by simpa using hvolatile, heq⟩
  · rintro ⟨item, hmem, hvolatile, heq⟩
    exact ⟨item, List.mem_filter.2 ⟨hmem, by simpa using hvolatile⟩, heq⟩

theorem clean_listing (t : PluginTree) : ∀ e ∈ listing t, Clean e := by
  intro e he
  obtain ⟨item, hitem, -, rfl⟩ := mem_listing.1 he
  exact t.clean item hitem

theorem pathLe_trans (a b c : Bytes × Entry) (hab : pathLe a b = true) (hbc : pathLe b c = true) : pathLe a c = true :=
  decide_eq_true (List.le_trans (of_decide_eq_true hab) (of_decide_eq_true hbc))

theorem pathLe_total (a b : Bytes × Entry) : (pathLe a b || pathLe b a) = true := by
  rw [Bool.or_eq_true]
  exact (List.le_total a.1 b.1).imp decide_eq_true decide_eq_true

theorem nodup_paths (t : PluginTree) : ((listing t).map Prod.fst).Nodup := by
  have hperm := (List.mergeSort_perm ((t.items.filter fun item => !volatilePluginPath item).map fun item => (item.path, item.entry)) pathLe).map Prod.fst
  rw [listing, hperm.nodup_iff, List.map_map]
  exact t.nodup.sublist (List.filter_sublist.map Item.path)

/-- A listing is given by its entries. -/
theorem listing_eq_iff {t t' : PluginTree} : listing t = listing t' ↔ ∀ e, e ∈ listing t ↔ e ∈ listing t' := by
  refine ⟨fun h e => by rw [h], fun h => ?_⟩
  have hnodup (t : PluginTree) : (listing t).Nodup := List.Nodup.of_map Prod.fst (nodup_paths t)
  have hperm : (listing t).Perm (listing t') := (List.perm_ext_iff_of_nodup (hnodup t) (hnodup t')).2 h
  have hsorted (t : PluginTree) : (listing t).Pairwise fun a b => pathLe a b = true := List.pairwise_mergeSort pathLe_trans pathLe_total _
  refine hperm.eq_of_pairwise (fun a b ha hb hab hba => ?_) (hsorted t) (hsorted t')
  have hpath : a.1 = b.1 := List.le_antisymm (of_decide_eq_true hab) (of_decide_eq_true hba)
  exact List.inj_on_of_nodup_map (nodup_paths t) ha (hperm.mem_iff.2 hb) hpath

/-! ## Exempt and left out -/

theorem volatile_of_exempt {item : Item} (h : Exempt item) : volatilePluginPath item = true := by
  unfold volatilePluginPath
  rcases h with ⟨front, name, back, hparts, hname, -⟩ | ⟨hfile, hsuffix⟩
  · rw [hparts, Bool.or_eq_true]
    exact Or.inl (List.any_eq_true.2 ⟨name, List.mem_append_right _ List.mem_cons_self, List.contains_iff_mem.2 hname⟩)
  · rw [hfile, List.contains_iff_mem.2 hsuffix, Bool.and_self, Bool.or_true]

/-- What is left out although it is not exempt has the name of a cache folder. -/
theorem named_of_leftOut {item : Item} (hvolatile : volatilePluginPath item = true) (h : ¬ Exempt item) : (item.parts.any volatilePluginDirs.contains) = true := by
  unfold volatilePluginPath at hvolatile
  rcases Bool.or_eq_true_iff.1 hvolatile with hnamed | hcompiled
  · exact hnamed
  · obtain ⟨hfile, hsuffix⟩ := Bool.and_eq_true_iff.1 hcompiled
    exact absurd (Or.inr ⟨hfile, List.contains_iff_mem.1 hsuffix⟩) h

theorem has_iff {t : PluginTree} {e : Bytes × Entry} : Has t e ↔ e ∈ listing t ∨ LeftOut t e := by
  rw [mem_listing]
  constructor
  · rintro ⟨item, hitem, hexempt, heq⟩
    cases hvolatile : volatilePluginPath item with
    | false => exact Or.inl ⟨item, hitem, hvolatile, heq⟩
    | true => exact Or.inr ⟨item, hitem, hvolatile, hexempt, heq⟩
  · rintro (⟨item, hitem, hvolatile, heq⟩ | ⟨item, hitem, -, hexempt, heq⟩)
    · refine ⟨item, hitem, fun hexempt => ?_, heq⟩
      rw [volatile_of_exempt hexempt] at hvolatile
      cases hvolatile
    · exact ⟨item, hitem, hexempt, heq⟩

/-- No entry is listed in one folder and left out of another. -/
theorem not_listed_of_leftOut {t t' : PluginTree} {e : Bytes × Entry} (h : LeftOut t e) : e ∉ listing t' := fun hlisted => by
  obtain ⟨item, -, hvolatile, hexempt, rfl⟩ := h
  obtain ⟨item', -, hvolatile', heq⟩ := mem_listing.1 hlisted
  have hnamed := named_of_leftOut hvolatile hexempt
  have hparts : item'.parts = item.parts := congrArg (List.splitOn 47) (Prod.mk.inj heq).1
  unfold volatilePluginPath at hvolatile'
  rw [hparts, hnamed] at hvolatile'
  cases hvolatile'

/-- Two folders are the same exactly where they are listed alike and none of their entries is overlooked. -/
theorem same_iff {t t' : PluginTree} : Same t t' ↔ listing t = listing t' ∧ ¬ Overlooks t t' := by
  rw [listing_eq_iff, Overlooks, not_exists]
  simp only [not_not, Same, has_iff]
  constructor
  · intro h
    refine ⟨fun e => ⟨fun he => ((h e).1 (Or.inl he)).resolve_right fun hleft => not_listed_of_leftOut hleft he,
      fun he => ((h e).2 (Or.inl he)).resolve_right fun hleft => not_listed_of_leftOut hleft he⟩, fun e => ⟨fun he => ?_, fun he => ?_⟩⟩
    · exact ((h e).1 (Or.inr he)).resolve_left (not_listed_of_leftOut he)
    · exact ((h e).2 (Or.inr he)).resolve_left (not_listed_of_leftOut he)
  · rintro ⟨hlisted, hleft⟩ e
    rw [hlisted e, hleft e]

/-! ## The inventory -/

section

variable {Digest : Type} {encodes : Bytes → Bool} {sha256 : Bytes → Digest}

theorem treeDigest_eq_ok {t : PluginTree} {digest : Digest} : treeDigest encodes sha256 t = .ok digest ↔ (listing t).all (encodable encodes) = true ∧ digest = sha256 (stream (listing t)) := by
  unfold treeDigest
  split
  · rename_i h
    rw [and_iff_right h]
    exact ⟨fun heq => (Except.ok.inj heq).symm, fun heq => heq ▸ rfl⟩
  · rename_i h
    exact iff_of_false (fun heq => by cases heq) fun heq => h heq.1

theorem map_ok {α β : Type} {f : α → β} {x : Except String α} {y : β} (h : x.map f = .ok y) : ∃ a, x = .ok a ∧ f a = y := by
  cases x with
  | error reason => cases h
  | ok a => exact ⟨a, rfl, Except.ok.inj h⟩

/-- An inventory has the digest of each folder that is not owned by the framework, and nothing else. -/
theorem mem_snapshot {target : Runtime} {inventory : List (PluginId × Digest)} (h : snapshotDynamicPlugins encodes sha256 target = .ok inventory) :
    (∀ e ∈ inventory, ∃ t, (e.1, t) ∈ target.plugins ∧ e.1 ∉ frameworkOwnedPluginPaths ∧ treeDigest encodes sha256 t = .ok e.2) ∧
      ∀ p ∈ target.plugins, p.1 ∉ frameworkOwnedPluginPaths → ∃ digest, (p.1, digest) ∈ inventory ∧ treeDigest encodes sha256 p.2 = .ok digest := by
  unfold snapshotDynamicPlugins at h
  constructor
  · intro e he
    obtain ⟨p, hp, heq⟩ := Raise.mem_of_mapM_ok h he
    obtain ⟨hmem, howned⟩ := List.mem_filter.1 hp
    obtain ⟨digest, hdigest, rfl⟩ := map_ok heq
    exact ⟨p.2, hmem, by simpa using howned, hdigest⟩
  · intro p hp howned
    obtain ⟨e, he, heq⟩ := Raise.mapM_ok_of_mem h (List.mem_filter.2 ⟨hp, by simpa using howned⟩)
    obtain ⟨digest, hdigest, rfl⟩ := map_ok heq
    exact ⟨digest, he, hdigest⟩

variable [DecidableEq Digest] {name : PluginId → String}

theorem changedOne_eq_none {target : Runtime} {e : PluginId × Digest} : (Dict.get e.1 target.plugins).isSome = true →
    (changedOne encodes sha256 target e = .ok none ↔ ∃ t, Dict.get e.1 target.plugins = some t ∧ treeDigest encodes sha256 t = .ok e.2) := by
  intro hsome
  obtain ⟨t, ht⟩ := Option.isSome_iff_exists.1 hsome
  unfold changedOne
  rw [ht]
  simp only [Option.some.injEq, exists_eq_left']
  cases hdigest : treeDigest encodes sha256 t with
  | error reason => exact iff_of_false (fun h => by cases h) fun h => by cases h
  | ok digest =>
    have hmap : (Except.map (fun actual => if actual = e.2 then none else some e.1) (Except.ok digest) : Except String (Option PluginId)) =
        .ok (if digest = e.2 then none else some e.1) := rfl
    rw [hmap]
    split
    · rename_i heq
      exact iff_of_true rfl (heq ▸ rfl)
    · rename_i hne
      exact iff_of_false (fun h => by cases Except.ok.inj h) fun h => hne (Except.ok.inj h)

/-- The check succeeds exactly where each folder of the inventory is there with its digest. -/
theorem verify_ok_iff {target : Runtime} {inventory : List (PluginId × Digest)} :
    verifyDynamicPlugins encodes sha256 name target inventory = .ok () ↔
      ∀ e ∈ inventory, ∃ t, Dict.get e.1 target.plugins = some t ∧ treeDigest encodes sha256 t = .ok e.2 := by
  unfold verifyDynamicPlugins
  constructor
  · intro h e he
    cases hmap : inventory.mapM (changedOne encodes sha256 target) with
    | error reason =>
      rw [hmap] at h
      cases h
    | ok answers =>
      rw [hmap] at h
      replace h : (if missing target inventory = [] ∧ answers.filterMap id = [] then (pure () : Except String Unit) else throw _) = .ok () := h
      split at h
      · rename_i hnone
        have hthere : (Dict.get e.1 target.plugins).isSome = true := by
          have hfilter := List.filter_eq_nil_iff.1 (List.map_eq_nil_iff.1 hnone.1) e he
          exact Option.isSome_iff_ne_none.2 (by simpa using hfilter)
        obtain ⟨answer, hanswer, heq⟩ := Raise.mapM_ok_of_mem hmap he
        have hanswer : answer = none := List.filterMap_eq_nil_iff.1 hnone.2 answer hanswer
        rw [hanswer] at heq
        exact (changedOne_eq_none hthere).1 heq
      · cases h
  · intro h
    have hone : ∀ e ∈ inventory, changedOne encodes sha256 target e = .ok none := fun e he => by
      obtain ⟨t, ht, hdigest⟩ := h e he
      exact (changedOne_eq_none (by rw [ht]; rfl)).2 ⟨t, ht, hdigest⟩
    obtain ⟨answers, hmap⟩ := Raise.mapM_ok fun e he => ⟨none, hone e he⟩
    have hmissing : missing target inventory = [] := by
      rw [missing, List.map_eq_nil_iff, List.filter_eq_nil_iff]
      intro e he
      obtain ⟨t, ht, -⟩ := h e he
      rw [ht]
      intro hnone
      cases hnone
    have hchanged : answers.filterMap id = [] := by
      refine List.filterMap_eq_nil_iff.2 fun answer hanswer => ?_
      obtain ⟨e, he, heq⟩ := Raise.mem_of_mapM_ok hmap hanswer
      rw [hone e he] at heq
      exact (Except.ok.inj heq).symm
    rw [hmap]
    show (if missing target inventory = [] ∧ answers.filterMap id = [] then (pure () : Except String Unit) else throw _) = .ok ()
    rw [if_pos ⟨hmissing, hchanged⟩]
    rfl

/-- After a snapshot, the check succeeds exactly where all folders are alike. -/
theorem verify_after_iff (hsha : Function.Injective sha256) {before after : Runtime} {inventory : List (PluginId × Digest)}
    (h : snapshotDynamicPlugins encodes sha256 before = .ok inventory) :
    verifyDynamicPlugins encodes sha256 name after inventory = .ok () ↔ AllAlike encodes before after := by
  obtain ⟨hof, hall⟩ := mem_snapshot h
  rw [verify_ok_iff]
  constructor
  · intro hverify p hp howned
    obtain ⟨digest, he, hdigest⟩ := hall p hp howned
    obtain ⟨t, ht, hactual⟩ := hverify _ he
    obtain ⟨hencodes, rfl⟩ := treeDigest_eq_ok.1 hdigest
    obtain ⟨hencodes', hsame⟩ := treeDigest_eq_ok.1 hactual
    exact ⟨hencodes, t, ht, hencodes', (stream_eq_iff (clean_listing p.2) (clean_listing t)).1 (hsha hsame)⟩
  · intro halike e he
    obtain ⟨t, ht, howned, hdigest⟩ := hof e he
    obtain ⟨-, t', ht', hencodes', hlike⟩ := halike _ ht howned
    refine ⟨t', ht', treeDigest_eq_ok.2 ⟨hencodes', ?_⟩⟩
    rw [(treeDigest_eq_ok.1 hdigest).2, (stream_eq_iff (clean_listing t) (clean_listing t')).2 hlike]

omit [DecidableEq Digest] in
theorem snapshot_ok {target : Runtime} (h : ∀ p ∈ target.plugins, p.1 ∉ frameworkOwnedPluginPaths → (listing p.2).all (encodable encodes) = true) :
    ∃ inventory, snapshotDynamicPlugins encodes sha256 target = .ok inventory := by
  refine Raise.mapM_ok fun p hp => ?_
  obtain ⟨hmem, howned⟩ := List.mem_filter.1 hp
  have hdigest : treeDigest encodes sha256 p.2 = .ok _ := treeDigest_eq_ok.2 ⟨h p hmem (by simpa using howned), rfl⟩
  exact ⟨_, by rw [hdigest]; rfl⟩

end

end InventoryAux

open InventoryAux

/-- With a digest without collisions, every update is noticed exactly where no folders that are all alike spill or differ in an overlooked entry. -/
theorem noticed_iff_notMistaken {Digest : Type} [DecidableEq Digest] (encodes : Bytes → Bool) {sha256 : Bytes → Digest} (hsha : Function.Injective sha256) (name : PluginId → String)
    (before after : Runtime) : Noticed encodes sha256 name before after ↔ NotMistaken encodes before after := by
  constructor
  · intro hnoticed halike p hp howned t ht
    obtain ⟨inventory, hsnapshot⟩ : ∃ inventory, snapshotDynamicPlugins encodes sha256 before = .ok inventory := snapshot_ok fun p hp howned => (halike p hp howned).1
    obtain ⟨t', ht', hsame⟩ := ((hnoticed inventory hsnapshot).1 ((verify_after_iff hsha hsnapshot).2 halike)) p hp howned
    obtain rfl := Option.some.inj (ht.symm.trans ht')
    obtain ⟨hlisted, hnone⟩ := same_iff.1 hsame
    refine ⟨fun hspills => ?_, hnone⟩
    obtain ⟨common, path, contents, contents', rest, rest', hl, hl', hne, -⟩ := hspills
    rw [hlisted, hl'] at hl
    exact hne (Entry.file.inj (Prod.mk.inj (List.cons.inj (List.append_cancel_left hl)).1).2).symm
  · intro hnot inventory hsnapshot
    rw [verify_after_iff hsha hsnapshot]
    constructor
    · intro halike p hp howned
      obtain ⟨-, t, ht, -, hlike⟩ := halike p hp howned
      obtain ⟨hspills, hnone⟩ := hnot halike p hp howned t ht
      exact ⟨t, ht, same_iff.2 ⟨hlike.resolve_right hspills, hnone⟩⟩
    · intro hunchanged p hp howned
      obtain ⟨t, ht, hsame⟩ := hunchanged p hp howned
      obtain ⟨digest, -, hdigest⟩ := (mem_snapshot hsnapshot).2 p hp howned
      have hencodes := (treeDigest_eq_ok.1 hdigest).1
      have hlisted := (same_iff.1 hsame).1
      exact ⟨hencodes, t, ht, hlisted ▸ hencodes, Or.inl hlisted⟩

/-- A runtime tree with one module, whose files are these. -/
def sampleRuntime (items : List Item) (nodup : (items.map Item.path).Nodup)
    (clean : ∀ item ∈ items, (0 : UInt8) ∉ item.path ∧ ∀ target, item.entry = .link target → (0 : UInt8) ∉ target) : Runtime :=
  ⟨[(("extensions", ascii "m"), ⟨items, nodup, clean⟩)], by simp⟩

/-- One file, whose contents are those of the first of two files and all that is fed of the second one. -/
def sampleBefore : Runtime :=
  sampleRuntime [⟨ascii "a", .file (ascii "xP" ++ 0 :: ascii "b" ++ 0 :: ascii "F" ++ 0 :: ascii "y"), .nothing⟩] (by decide) (by simp [ascii])

/-- The two files. -/
def sampleAfter : Runtime := sampleRuntime [⟨ascii "a", .file (ascii "x"), .nothing⟩, ⟨ascii "b", .file (ascii "y"), .nothing⟩] (by decide) (by simp [ascii])

/-- A module that is removed is noticed. -/
theorem removed_module_noticed : Noticed (fun _ => true) id (fun _ => "extensions/m") sampleAfter ⟨[], List.nodup_nil⟩ :=
  (noticed_iff_notMistaken (fun _ => true) Function.injective_id (fun _ => "extensions/m") sampleAfter ⟨[], List.nodup_nil⟩).2 fun halike => by
    obtain ⟨-, t, ht, -⟩ := halike _ List.mem_cons_self (by decide)
    cases ht

/-- A file that is cut in two is not noticed. -/
theorem cut_file_unnoticed : ¬ Noticed (fun _ => true) id (fun _ => "extensions/m") sampleBefore sampleAfter := by
  intro h
  have hbefore : snapshotDynamicPlugins (fun _ => true) id sampleBefore =
      .ok [(("extensions", ascii "m"), stream [(ascii "a", .file (ascii "xP" ++ 0 :: ascii "b" ++ 0 :: ascii "F" ++ 0 :: ascii "y"))])] := by
    decide_cbv
  have hverify : verifyDynamicPlugins (fun _ => true) id (fun _ => "extensions/m") sampleAfter
      [(("extensions", ascii "m"), stream [(ascii "a", .file (ascii "xP" ++ 0 :: ascii "b" ++ 0 :: ascii "F" ++ 0 :: ascii "y"))])] = .ok () := by
    decide_cbv
  obtain ⟨t, ht, hsame⟩ := (h _ hbefore).1 hverify _ List.mem_cons_self (by decide)
  obtain rfl := Option.some.inj ht
  obtain ⟨item, hitem, -, heq⟩ := (hsame (ascii "b", .file (ascii "y"))).2 ⟨⟨ascii "b", .file (ascii "y"), .nothing⟩, by decide, fun hexempt => by
    have hvolatile := volatile_of_exempt hexempt
    revert hvolatile
    decide, rfl⟩
  obtain rfl := List.mem_singleton.1 hitem
  exact absurd (Prod.mk.inj heq).1 (by decide)

end PluginInventory

end TecTac
