import TecTac.LegacyFormula

/-!
# A converted formula means what it meant

What the fold collected holds exactly when the items it has read hold from left to right, and it has their conditions in order. The step that matters
is a further entry in the group the fold made: such a group has entries and is joined by the same word, so that one more entry is one more join.
-/

namespace TecTac

namespace FilterSets

open Raise

namespace LegacyAux

variable {v : Condition → Bool} {words : Words}

/-- Two entries joined. -/
def joined (how : Match) (a b : Bool) : Bool :=
  match how with
  | .all => a && b
  | .any => a || b

theorem allHold_append (xs ys : List Converted) : allHold v (xs ++ ys) = (allHold v xs && allHold v ys) := by
  induction xs with
  | nil => simp [allHold]
  | cons x xs ih => rw [List.cons_append, allHold, ih, allHold, Bool.and_assoc]

theorem anyHolds_append (xs ys : List Converted) : anyHolds v (xs ++ ys) = (anyHolds v xs || anyHolds v ys) := by
  induction xs with
  | nil => simp [anyHolds]
  | cons x xs ih => rw [List.cons_append, anyHolds, ih, anyHolds, Bool.or_assoc]

theorem conditionsOf_append (xs ys : List Converted) : conditionsOf (xs ++ ys) = conditionsOf xs ++ conditionsOf ys := by
  induction xs with
  | nil => rfl
  | cons x xs ih => rw [List.cons_append, conditionsOf, ih, conditionsOf, List.append_assoc]

/-- A group with one entry more holds as the two joined. -/
theorem holds_snoc {how : Match} {rules : List Converted} (hne : rules ≠ []) (node : Converted) :
    (Converted.group how (rules ++ [node])).holds v = joined how ((Converted.group how rules).holds v) (node.holds v) := by
  obtain ⟨first, rest, rfl⟩ := List.exists_cons_of_ne_nil hne
  cases how with
  | all =>
    rw [List.cons_append, Converted.holds, Converted.holds, ← List.cons_append, allHold_append]
    simp [allHold, joined]
  | any =>
    rw [List.cons_append, Converted.holds, Converted.holds, ← List.cons_append, anyHolds_append]
    simp [anyHolds, joined]

theorem holds_pair (how : Match) (first node : Converted) :
    (Converted.group how [first, node]).holds v = joined how (first.holds v) (node.holds v) := by
  cases how <;> simp [Converted.holds, allHold, anyHolds, joined]

/-- A group that the fold made has entries. -/
def Made : Acc → Prop
  | .made _ rules => rules ≠ []
  | _ => True

theorem made_join {acc : Acc} (how : Match) (node : Converted) : Made (acc.join how node) := by
  cases acc with
  | nothing => trivial
  | entry first => exact List.cons_ne_nil _ _
  | made made_ rules =>
    by_cases heq : made_ = how
    · rw [Acc.join, if_pos heq]
      exact List.append_ne_nil_of_right_ne_nil _ (List.cons_ne_nil _ _)
    · rw [Acc.join, if_neg heq]
      exact List.cons_ne_nil _ _

/-- What was collected holds, when something was. -/
def Collects (v : Condition → Bool) (acc : Acc) (b : Bool) (cs : List Condition) : Prop :=
  ∃ node, acc.node = some node ∧ node.holds v = b ∧ node.conditions = cs

theorem collects_join {acc : Acc} {b : Bool} {cs : List Condition} (hmade : Made acc) (h : Collects v acc b cs) (how : Match) (node : Converted) :
    Collects v (acc.join how node) (joined how b (node.holds v)) (cs ++ node.conditions) := by
  obtain ⟨before, hnode, rfl, rfl⟩ := h
  cases acc with
  | nothing => cases hnode
  | entry first =>
    obtain rfl : first = before := Option.some.inj hnode
    exact ⟨_, rfl, holds_pair how first node, by simp [Converted.conditions, conditionsOf]⟩
  | made made_ rules =>
    obtain rfl : Converted.group made_ rules = before := Option.some.inj hnode
    by_cases heq : made_ = how
    · refine ⟨.group made_ (rules ++ [node]), by rw [Acc.join, if_pos heq, Acc.node], ?_, ?_⟩
      · rw [← heq]
        exact holds_snoc hmade node
      · simp [Converted.conditions, conditionsOf_append, conditionsOf]
    · refine ⟨.group how [.group made_ rules, node], by rw [Acc.join, if_neg heq, Acc.node], holds_pair how _ node, ?_⟩
      simp [Converted.conditions, conditionsOf]

/-- The group of what was collected holds as it does. -/
theorem tree_of_collects {acc : Acc} {b : Bool} {cs : List Condition} (h : Collects v acc b cs) :
    acc.tree.node.holds v = b ∧ conditionsOf acc.tree.rules = cs := by
  obtain ⟨node, hnode, rfl, rfl⟩ := h
  cases acc with
  | nothing => cases hnode
  | entry first =>
    obtain rfl : first = node := Option.some.inj hnode
    exact ⟨by simp [Acc.tree, ConvertedTree.node, Converted.holds, allHold], by simp [Acc.tree, conditionsOf]⟩
  | made made_ rules =>
    obtain rfl : Converted.group made_ rules = node := Option.some.inj hnode
    exact ⟨rfl, rfl⟩

/-- A word that was accepted joins as it says. -/
theorem joined_of_readJoin {item : List (String × Doc)} {how : Match} (h : words.readJoin item = .ok how) (a b : Bool) :
    words.joins (.obj item) a b = joined how a b := by
  unfold Words.readJoin at h
  have hpairs : (Doc.obj item).pairs.getD [] = item := rfl
  unfold Words.joins
  rw [hpairs]
  split at h
  · rename_i hand
    cases h
    have hnot : words.read "join" "and" item ≠ "or" := by
      rw [hand]
      decide
    rw [if_neg hnot]
    rfl
  · split at h
    · rename_i hor
      cases h
      rw [if_pos hor]
      rfl
    · cases h

/-- The items that a group is converted from are those that its value is read from. -/
theorem of_readChildren {item : List (String × Doc)} {items : List Doc} (h : readChildren item = .ok items) :
    membersHold v words item = formulaHolds v words (.arr items) ∧ memberConditions words item = listConditions words items := by
  unfold readChildren fieldOr at h
  induction item with
  | nil =>
    cases h
    exact ⟨by rw [membersHold, formulaHolds], by rw [memberConditions, listConditions]⟩
  | cons p rest ih =>
    obtain ⟨key, d⟩ := p
    rw [Dict.get_cons] at h
    rw [membersHold, memberConditions]
    by_cases hkey : key = "items"
    · rw [if_pos hkey] at h
      rw [if_pos hkey, if_pos hkey]
      cases d with
      | arr xs =>
        cases h
        exact ⟨rfl, by rw [formulaConditions]⟩
      | _ => cases h
    · rw [if_neg hkey] at h
      rw [if_neg hkey, if_neg hkey]
      exact ih h

/-- A conversion of lists keeps what they mean. -/
def Keeps (words : Words) (convert : List Doc → Except FilterError ConvertedTree) : Prop :=
  ∀ items tree, convert items = .ok tree →
    (∀ v, tree.node.holds v = formulaHolds v words (.arr items)) ∧ conditionsOf tree.rules = listConditions words items

variable {convert : List Doc → Except FilterError ConvertedTree}

/-- The entry of an item holds as the item does. -/
theorem convertItem_keeps (hconvert : Keeps words convert) {item : List (String × Doc)} {node : Converted}
    (h : words.convertItem convert item = .ok node) :
    node.holds v = itemHolds v words (.obj item) ∧ node.conditions = itemConditions words (.obj item) := by
  unfold Words.convertItem at h
  rw [itemHolds, itemConditions]
  split at h
  · rename_i hgroup
    obtain ⟨children, hchildren, h⟩ := bind_ok h
    obtain ⟨inner, hinner, h⟩ := bind_ok h
    cases h
    obtain ⟨hholds, hconds⟩ := hconvert children inner hinner
    obtain ⟨hmembers, hmemberConds⟩ := of_readChildren (v := v) hchildren
    rw [if_pos hgroup, if_pos hgroup, hmembers, hmemberConds]
    exact ⟨hholds v, hconds⟩
  · rename_i hgroup
    split at h
    · cases h
      rw [if_neg hgroup, if_neg hgroup]
      exact ⟨by rw [Converted.holds], by rw [Converted.conditions]⟩
    · cases h

/-- One step of the fold: the item is an object whose entry is joined to what was collected. -/
theorem foldItem_ok {acc acc' : Acc} {item : Doc} (h : words.foldItem convert acc item = .ok acc') :
    ∃ fields node, item = .obj fields ∧ words.convertItem convert fields = .ok node ∧
      (acc = .nothing ∧ acc' = .entry node ∨ acc ≠ .nothing ∧ ∃ how, words.readJoin fields = .ok how ∧ acc' = acc.join how node) := by
  cases item with
  | obj fields =>
    obtain ⟨node, hnode, h⟩ := bind_ok h
    refine ⟨fields, node, rfl, hnode, ?_⟩
    cases acc with
    | nothing =>
      cases h
      exact .inl ⟨rfl, rfl⟩
    | entry first =>
      obtain ⟨how, hhow, h⟩ := bind_ok h
      cases h
      exact .inr ⟨nofun, how, hhow, rfl⟩
    | made made_ rules =>
      obtain ⟨how, hhow, h⟩ := bind_ok h
      cases h
      exact .inr ⟨nofun, how, hhow, rfl⟩
  | _ => cases h

/-- The rest of a list, folded onto what was collected. -/
theorem fold_keeps (hconvert : Keeps words convert) {items : List Doc} {acc acc' : Acc} {b : Bool} {cs : List Condition}
    (h : items.foldlM (words.foldItem convert) acc = .ok acc') (hmade : Made acc) (hacc : Collects v acc b cs) :
    Collects v acc' (leftToRight v words b items) (cs ++ listConditions words items) := by
  induction items generalizing acc b cs with
  | nil =>
    cases h
    simpa [leftToRight, listConditions] using hacc
  | cons item items ih =>
    rw [List.foldlM_cons] at h
    obtain ⟨next, hstep, h⟩ := bind_ok h
    obtain ⟨fields, node, rfl, hnode, hcase⟩ := foldItem_ok hstep
    rcases hcase with ⟨rfl, -⟩ | ⟨-, how, hhow, rfl⟩
    · obtain ⟨_, hnone, -⟩ := hacc
      cases hnone
    · obtain ⟨hholds, hconds⟩ := convertItem_keeps (v := v) hconvert hnode
      have hjoin := collects_join hmade hacc how node
      rw [hholds, hconds, ← joined_of_readJoin hhow] at hjoin
      have hrest := ih h (made_join how node) hjoin
      rwa [List.append_assoc] at hrest

/-- Converting a list of items keeps what they mean, at every level. -/
theorem convert_keeps (words : Words) (room : Nat) : Keeps words (words.convert room) := by
  induction room with
  | zero =>
    intro items tree h
    cases h
  | succ room ih =>
    intro items tree h
    obtain ⟨acc, hacc, h⟩ := bind_ok h
    cases h
    cases items with
    | nil =>
      cases hacc
      exact ⟨fun v => by rw [formulaHolds]; simp [Acc.tree, ConvertedTree.node, Converted.holds], by simp [Acc.tree, conditionsOf, listConditions]⟩
    | cons item items =>
      rw [List.foldlM_cons] at hacc
      obtain ⟨next, hstep, hacc⟩ := bind_ok hacc
      obtain ⟨fields, node, rfl, hnode, hcase⟩ := foldItem_ok hstep
      rcases hcase with ⟨-, rfl⟩ | ⟨hne, -⟩
      · have hall (v : Condition → Bool) :
            acc.tree.node.holds v = formulaHolds v words (.arr (.obj fields :: items)) ∧
              conditionsOf acc.tree.rules = listConditions words (.obj fields :: items) := by
          obtain ⟨hholds, hconds⟩ := convertItem_keeps (v := v) ih hnode
          have hfirst : Collects v (.entry node) (itemHolds v words (.obj fields)) (itemConditions words (.obj fields)) := ⟨node, rfl, hholds, hconds⟩
          rw [formulaHolds, listConditions]
          exact tree_of_collects (fold_keeps ih hacc trivial hfirst)
        exact ⟨fun v => (hall v).1, (hall fun _ => true).2⟩
      · exact absurd rfl hne

/-! ## What is measured -/

mutual

theorem measureItem_eq (level : Nat) (shape : Shape) (node : Converted) :
    (measureItem level shape node).rules = shape.rules + node.conditions.length ∧ (measureItem level shape node).groups = shape.groups + node.groups ∧
      (0 < node.depth → level + node.depth ≤ (measureItem level shape node).depth) ∧ shape.depth ≤ (measureItem level shape node).depth := by
  cases node with
  | rule c => simp [measureItem, Converted.conditions, Converted.groups, Converted.depth]
  | group how rules =>
    have h := measure_eq (level + 1) { shape with groups := shape.groups + 1, depth := max shape.depth (level + 1) } rules
    rw [measureItem, Converted.conditions, Converted.groups, Converted.depth]
    simp only at h
    refine ⟨h.1, by omega, ?_, by omega⟩
    intro _
    rcases Nat.eq_zero_or_pos (depthOf rules) with hzero | hpos
    · omega
    · have := h.2.2.1 hpos
      omega

/-- What `_measure` counts: the conditions, the groups and the levels. -/
theorem measure_eq (level : Nat) (shape : Shape) (nodes : List Converted) :
    (measure level shape nodes).rules = shape.rules + (conditionsOf nodes).length ∧ (measure level shape nodes).groups = shape.groups + groupsOf nodes ∧
      (0 < depthOf nodes → level + depthOf nodes ≤ (measure level shape nodes).depth) ∧ shape.depth ≤ (measure level shape nodes).depth := by
  cases nodes with
  | nil => simp [measure, conditionsOf, groupsOf, depthOf]
  | cons node nodes =>
    have hfirst := measureItem_eq level shape node
    have hrest := measure_eq level (measureItem level shape node) nodes
    rw [measure, conditionsOf, groupsOf, depthOf, List.length_append]
    refine ⟨by omega, by omega, ?_, by omega⟩
    intro _
    rcases Nat.eq_zero_or_pos node.depth with hzero | hpos
    · have := hrest.2.2.1
      omega
    · have := hfirst.2.2.1 hpos
      rcases Nat.eq_zero_or_pos (depthOf nodes) with hzero' | hpos'
      · omega
      · have := hrest.2.2.1 hpos'
        omega

end

end LegacyAux

open LegacyAux in
/-- The tree of a formula holds exactly when the formula, read from left to right, does, whatever its conditions are; it has the conditions of the
formula in their order, and no more conditions, groups and levels than a filter set may have. -/
theorem legacy_formula_keeps_meaning (words : Words) {formula : Doc} {tree : ConvertedTree} (h : fromLegacyFormula words formula = .ok tree) :
    (∀ v, tree.node.holds v = membersHold v words (formula.pairs.getD [])) ∧ tree.node.conditions = memberConditions words (formula.pairs.getD []) ∧
      tree.node.conditions.length ≤ maxRules ∧ groupsOf tree.rules ≤ maxGroups ∧ depthOf tree.rules ≤ maxDepth := by
  unfold fromLegacyFormula at h
  split at h
  · cases h
  · rename_i items hitems
    obtain ⟨body, hpairs, hread⟩ := Option.bind_eq_some_iff.1 hitems
    obtain ⟨tree', htree, h⟩ := bind_ok h
    obtain ⟨_, hshape, h⟩ := bind_ok h
    cases h
    have hchildren : readChildren body = .ok items := by
      unfold readChildren
      rw [hread]
    obtain ⟨hholds, hconds⟩ := convert_keeps words 8 items tree htree
    have hmeasure := measure_eq 0 ⟨0, 0, 0⟩ tree.rules
    have hlimits := of_decide_eq_true (of_require hshape)
    rw [hpairs, Option.getD_some]
    refine ⟨?_, ?_, ?_, ?_, ?_⟩
    · intro v
      rw [hholds v, (of_readChildren hchildren).1]
    · rw [(of_readChildren (v := fun _ => true) hchildren).2, ← hconds]
      exact Converted.conditions.eq_2 _ _
    · have : tree.node.conditions = conditionsOf tree.rules := Converted.conditions.eq_2 _ _
      rw [this]
      omega
    · omega
    · have := hmeasure.2.2.1
      omega

/-- A formula that mixes both words: `a or b and c` is read as `(a or b) and c`. -/
theorem mixed_formula_keeps_meaning :
    let words : Words := ⟨fun _ => "", id⟩
    let item (join field : String) : Doc := .obj [("kind", .str "condition"), ("join", .str join), ("field", .str field), ("value", .num 1)]
    let formula : Doc := .obj [("items", .arr [item "and" "a", item "or" "b", item "and" "c"])]
    let tree : ConvertedTree := ⟨.all, [.group .any [.rule ⟨"a", "equals", .num 1⟩, .rule ⟨"b", "equals", .num 1⟩], .rule ⟨"c", "equals", .num 1⟩]⟩
    fromLegacyFormula words formula = .ok tree ∧ ∀ v, tree.node.holds v = membersHold v words (formula.pairs.getD []) := by
  intro words item formula tree
  have hread : fromLegacyFormula words formula = .ok tree := by
    have hstrip : ∀ s ∈ ["condition", "and", "or", "a", "b", "c", "equals"], stripText s = s := by decide_cbv
    simp only [List.forall_mem_cons] at hstrip
    simp [fromLegacyFormula, Words.convert, Words.foldItem, Words.convertItem, Words.condition, Words.readJoin, Words.read, fieldOr, Doc.field, Doc.text, Doc.pairs, Doc.items,
      Dict.get, Acc.join, Acc.tree, measure, measureItem, maxRules, maxGroups, maxDepth, formula, item, words, tree, hstrip]
  exact ⟨hread, (legacy_formula_keeps_meaning words hread).1⟩

end FilterSets

end TecTac
