import Mathlib

/-!
# Longest prefixes

A table of patterns with a wildcard, and the longest pattern that a list starts with. A template has a set of values at each of its places; the lists it
stands for are sampled by a few representatives, and every one of them is looked up as its representative is.
-/

namespace LongestPrefix

variable {α : Type} [DecidableEq α]

/-- A list starts with a pattern; the wildcard stands for any one member. -/
def fits (wild : α) (pattern xs : List α) : Bool :=
  decide (pattern.length ≤ xs.length) && (pattern.zip xs).all fun pair => decide (pair.1 = wild) || decide (pair.1 = pair.2)

/-- A pattern takes the place of a shorter one, or of none. -/
def replaces (best : Option (List α)) (pattern : List α) : Bool :=
  match best with
  | none => true
  | some b => decide (b.length < pattern.length)

def pick (accepts : List α → Bool) (best : Option (List α)) (pattern : List α) : Option (List α) :=
  if accepts pattern && replaces best pattern then some pattern else best

/-- The first of the longest patterns that are accepted. -/
def longest (accepts : List α → Bool) (patterns : List (List α)) : Option (List α) := patterns.foldl (pick accepts) none

/-- Every choice of one member of each list, in the order of the lists. -/
def product : List (List α) → List (List α)
  | [] => [[]]
  | options :: rest => options.flatMap fun x => (product rest).map (x :: ·)

omit [DecidableEq α] in
theorem longest_congr {accepts accepts' : List α → Bool} {patterns : List (List α)} (h : ∀ p ∈ patterns, accepts p = accepts' p) :
    longest accepts patterns = longest accepts' patterns := by
  unfold longest
  generalize (none : Option (List α)) = best
  induction patterns generalizing best with
  | nil => rfl
  | cons p patterns ih =>
    rw [List.foldl_cons, List.foldl_cons, pick, pick, h p List.mem_cons_self]
    exact ih (fun q hq => h q (List.mem_cons_of_mem p hq)) _

omit [DecidableEq α] in
theorem mem_product {choice : List α} {options : List (List α)} : choice ∈ product options ↔ List.Forall₂ (· ∈ ·) choice options := by
  induction options generalizing choice with
  | nil => simp [product]
  | cons o options ih =>
    constructor
    · intro h
      obtain ⟨x, hx, hrest⟩ := List.mem_flatMap.1 h
      obtain ⟨others, hothers, rfl⟩ := List.mem_map.1 hrest
      exact .cons hx (ih.1 hothers)
    · intro h
      obtain _ | ⟨hx, hrest⟩ := h
      exact List.mem_flatMap.2 ⟨_, hx, List.mem_map_of_mem (ih.2 hrest)⟩

/-- Two members that a set of words does not tell apart. -/
def Alike (words : α → Prop) (x y : α) : Prop := ∀ w, words w → (w = x ↔ w = y)

/-- Lists that no word of a pattern tells apart are fitted by it alike. -/
theorem fits_congr {wild : α} {pattern xs ys : List α} (hlength : xs.length = ys.length)
    (h : ∀ (i : Nat) (x y : α), xs[i]? = some x → ys[i]? = some y → ∀ w, pattern[i]? = some w → w ≠ wild → (w = x ↔ w = y)) :
    fits wild pattern xs = fits wild pattern ys := by
  unfold fits
  rw [hlength]
  congr 1
  induction pattern generalizing xs ys with
  | nil => simp
  | cons w pattern ih =>
    cases xs with
    | nil =>
      cases ys with
      | nil => rfl
      | cons y ys => cases hlength
    | cons x xs =>
      cases ys with
      | nil => cases hlength
      | cons y ys =>
        have hrest := ih (Nat.succ.inj hlength) fun i a b ha hb => h (i + 1) a b ha hb
        have hfirst := h 0 x y rfl rfl w rfl
        rw [List.zip_cons_cons, List.zip_cons_cons, List.all_cons, List.all_cons, hrest]
        congr 1
        by_cases hw : w = wild
        · simp [hw]
        · simp [hw, hfirst hw]

/-- The words that the patterns have at one place. -/
def wordsAt (wild : α) (patterns : List (List α)) (i : Nat) (w : α) : Prop := w ≠ wild ∧ ∃ pattern ∈ patterns, pattern[i]? = some w

/-- A list of which each member has a representative among the options is looked up as one of the choices of representatives is. -/
theorem longest_mem_choices {wild : α} {patterns : List (List α)} (extra : List α → Nat → Bool) {options : List (List α)} {xs : List α}
    (h : List.Forall₂ (fun x (o : List α × Nat) => ∃ r ∈ o.1, Alike (wordsAt wild patterns o.2) r x) xs options.zipIdx) :
    longest (fun p => extra p xs.length && fits wild p xs) patterns ∈
      (product options).map fun choice => longest (fun p => extra p choice.length && fits wild p choice) patterns := by
  -- a choice of representatives, place by place from the place `k` on
  have hchoice : ∀ (xs : List α) (options : List (List α)) (k : Nat),
      List.Forall₂ (fun x (o : List α × Nat) => ∃ r ∈ o.1, Alike (wordsAt wild patterns o.2) r x) xs (options.zipIdx k) →
        ∃ choice ∈ product options, choice.length = xs.length ∧
          ∀ (i : Nat) (r x : α), choice[i]? = some r → xs[i]? = some x → Alike (wordsAt wild patterns (k + i)) r x := by
    intro xs options
    induction options generalizing xs with
    | nil =>
      intro k h
      cases h
      exact ⟨[], List.mem_singleton.2 rfl, rfl, fun i r x hr => by cases hr⟩
    | cons o options ih =>
      intro k h
      rw [List.zipIdx_cons] at h
      obtain _ | ⟨⟨r, hr, halike⟩, hrest⟩ := h
      rename_i x xs
      obtain ⟨choice, hmem, hlength, hall⟩ := ih xs (k + 1) hrest
      refine ⟨r :: choice, mem_product.2 (.cons hr (mem_product.1 hmem)), congrArg Nat.succ hlength, fun i => ?_⟩
      cases i with
      | zero =>
        intro a b ha hb
        obtain rfl := Option.some.inj ha
        obtain rfl := Option.some.inj hb
        exact halike
      | succ i =>
        intro a b ha hb
        have := hall i a b ha hb
        rwa [show k + 1 + i = k + (i + 1) by omega] at this
  obtain ⟨choice, hmem, hlength, hall⟩ := hchoice xs options 0 h
  refine List.mem_map.2 ⟨choice, hmem, longest_congr fun p hp => ?_⟩
  rw [hlength]
  congr 1
  refine fits_congr hlength fun i r x hr hx w hw hne => ?_
  have := hall i r x hr hx w
  rw [Nat.zero_add] at this
  exact this ⟨hne, p, hp, hw⟩

end LongestPrefix
