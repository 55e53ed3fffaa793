import Mathlib

/-!
# Depth-first walks

A walk visits what follows from a place, each place once, and finishes a place when everything below it is visited. The walk
has fuel; with more fuel than places that are not seen yet it goes all the way down.
-/

namespace DepthFirst

variable {α : Type*} [DecidableEq α]

/-- A walk: the places that were seen, and those that are finished. -/
structure Walk (α : Type*) where
  seen : List α
  finished : List α
  deriving DecidableEq

/-- Go down to a place that was not seen, and finish it. -/
def place (down : α → Walk α → Walk α) (w : Walk α) (y : α) : Walk α :=
  if y ∈ w.seen then w
  else
    let w := down y { w with seen := w.seen ++ [y] }
    { w with finished := w.finished ++ [y] }

/-- Visit what follows from a place. -/
def visit (next : α → List α) : Nat → α → Walk α → Walk α
  | 0, _, w => w
  | fuel + 1, x, w => (next x).foldl (place (visit next fuel)) w

/-- What a visit adds to a walk over some places: it forgets nothing, the new places are among these, everything after a new
place is seen, and the new places are finished. -/
structure Grown (next : α → List α) (places : List α) (w w' : Walk α) : Prop where
  mono : ∀ y ∈ w.seen, y ∈ w'.seen
  inside : ∀ y ∈ w'.seen, y ∉ w.seen → y ∈ places
  closed : ∀ y ∈ w'.seen, y ∉ w.seen → ∀ z ∈ next y, z ∈ w'.seen
  finished : ∀ y, y ∈ w'.finished ↔ y ∈ w.finished ∨ (y ∈ w'.seen ∧ y ∉ w.seen)

variable {next : α → List α} {places : List α} {w w' w'' : Walk α}

omit [DecidableEq α] in
theorem Grown.refl (w : Walk α) : Grown next places w w where
  mono := fun _ hy => hy
  inside := fun y hy hnot => absurd hy hnot
  closed := fun y hy hnot => absurd hy hnot
  finished := by
    intro y
    constructor
    · intro hy
      exact Or.inl hy
    · rintro (hy | ⟨hy, hnot⟩)
      · exact hy
      · exact absurd hy hnot

theorem Grown.trans (h : Grown next places w w') (h' : Grown next places w' w'') : Grown next places w w'' where
  mono := fun y hy => h'.mono y (h.mono y hy)
  inside := by
    intro y hy hnot
    by_cases hmid : y ∈ w'.seen
    · exact h.inside y hmid hnot
    · exact h'.inside y hy hmid
  closed := by
    intro y hy hnot z hz
    by_cases hmid : y ∈ w'.seen
    · exact h'.mono z (h.closed y hmid hnot z hz)
    · exact h'.closed y hy hmid z hz
  finished := by
    intro y
    rw [h'.finished, h.finished]
    constructor
    · rintro ((hy | ⟨hy, hnot⟩) | ⟨hy, hnot⟩)
      · exact Or.inl hy
      · exact Or.inr ⟨h'.mono y hy, hnot⟩
      · exact Or.inr ⟨hy, fun hold => hnot (h.mono y hold)⟩
    · rintro (hy | ⟨hy, hnot⟩)
      · exact Or.inl (Or.inl hy)
      · by_cases hmid : y ∈ w'.seen
        · exact Or.inl (Or.inr ⟨hmid, hnot⟩)
        · exact Or.inr ⟨hy, hmid⟩

/-- One new place: what is below it is visited, and then it is finished. -/
theorem grown_place {y : α} (h : Grown next places { w with seen := w.seen ++ [y] } w') (hplace : y ∈ places) (hy : y ∉ w.seen)
    (hnext : ∀ z ∈ next y, z ∈ w'.seen) : Grown next places w { w' with finished := w'.finished ++ [y] } where
  mono := fun z hz => h.mono z (List.mem_append_left _ hz)
  inside := by
    intro z hz hnot
    by_cases heq : z = y
    · exact heq ▸ hplace
    · refine h.inside z hz ?_
      simp [hnot, heq]
  closed := by
    intro z hz hnot
    by_cases heq : z = y
    · exact heq ▸ hnext
    · refine h.closed z hz ?_
      simp [hnot, heq]
  finished := by
    intro z
    have hfin := h.finished z
    have hseen : y ∈ w'.seen := h.mono y (List.mem_append_right _ (List.mem_singleton_self y))
    simp only [List.mem_append, List.mem_singleton, not_or] at hfin ⊢
    rw [hfin]
    by_cases heq : z = y
    · subst heq
      simp [hseen, hy]
    · simp [heq]

/-- The places of a list that were not seen. -/
def unseen (places : List α) (w : Walk α) : Nat := (places.filter fun y => decide (y ∉ w.seen)).length

theorem unseen_le (places : List α) (h : ∀ y ∈ w.seen, y ∈ w'.seen) : unseen places w' ≤ unseen places w := by
  refine (List.monotone_filter_right places ?_).length_le
  intro y hy
  simp only [decide_eq_true_eq] at hy ⊢
  exact fun hold => hy (h y hold)

/-- Seeing a place leaves fewer. -/
theorem unseen_lt {y : α} (hy : y ∈ places) (hnot : y ∉ w.seen) :
    unseen places { w with seen := w.seen ++ [y] } < unseen places w := by
  have hsub : (places.filter fun z => decide (z ∉ w.seen ++ [y])).Sublist (places.filter fun z => decide (z ∉ w.seen)) := by
    refine List.monotone_filter_right places ?_
    intro z hz
    simp only [decide_eq_true_eq, List.mem_append, not_or] at hz ⊢
    exact hz.1
  refine Nat.lt_of_le_of_ne hsub.length_le ?_
  intro heq
  have hlists := hsub.eq_of_length heq
  have hin : y ∈ places.filter fun z => decide (z ∉ w.seen) := by simp [hy, hnot]
  rw [← hlists] at hin
  simp at hin

/-- When going down sees everything below, so does going down to each place of a list. -/
theorem foldl_grown {down : α → Walk α → Walk α} {fuel : Nat}
    (hdown : ∀ y w, unseen places w < fuel → Grown next places w (down y w) ∧ ∀ z ∈ next y, z ∈ (down y w).seen) (ys : List α)
    (hys : ∀ y ∈ ys, y ∈ places) (w : Walk α) (hw : unseen places w < fuel + 1) :
    Grown next places w (ys.foldl (place down) w) ∧ ∀ y ∈ ys, y ∈ (ys.foldl (place down) w).seen := by
  induction ys generalizing w with
  | nil => exact ⟨Grown.refl w, fun y hy => (by cases hy)⟩
  | cons y ys ih =>
    have hrest := fun z hz => hys z (List.mem_cons_of_mem y hz)
    have hone : Grown next places w (place down w y) ∧ y ∈ (place down w y).seen := by
      unfold place
      by_cases hseen : y ∈ w.seen
      · rw [if_pos hseen]
        exact ⟨Grown.refl w, hseen⟩
      · rw [if_neg hseen]
        have hless := unseen_lt (hys y List.mem_cons_self) hseen
        obtain ⟨hbelow, hnext⟩ := hdown y { w with seen := w.seen ++ [y] } (by omega)
        exact ⟨grown_place hbelow (hys y List.mem_cons_self) hseen hnext,
        hbelow.mono y (List.mem_append_right _ (List.mem_singleton_self y))⟩
    have hmore := unseen_le places hone.1.mono
    obtain ⟨hgrown, hall⟩ := ih hrest (place down w y) (by omega)
    rw [List.foldl_cons]
    refine ⟨hone.1.trans hgrown, ?_⟩
    intro z hz
    rcases List.mem_cons.1 hz with rfl | hz
    · exact hgrown.mono z hone.2
    · exact hall z hz

/-- With more fuel than places that are not seen yet, a visit sees everything below. -/
theorem visit_grown (hplaces : ∀ x, ∀ y ∈ next x, y ∈ places) (fuel : Nat) (x : α) (w : Walk α)
    (hfuel : unseen places w < fuel) : Grown next places w (visit next fuel x w) ∧ ∀ y ∈ next x, y ∈ (visit next fuel x w).seen := by
  induction fuel generalizing x w with
  | zero => cases hfuel
  | succ fuel ih => exact foldl_grown ih (next x) (hplaces x) w hfuel

/-! ## What does not depend on the fuel -/

/-- With more fuel than places that are not seen yet, more fuel changes nothing. -/
theorem visit_fuel (hplaces : ∀ x, ∀ y ∈ next x, y ∈ places) (fuel more : Nat) (x : α) (w : Walk α) (hfuel : unseen places w < fuel) :
    visit next (fuel + more) x w = visit next fuel x w := by
  induction fuel generalizing x w with
  | zero => cases hfuel
  | succ fuel ih =>
    have hfold : ∀ ys : List α, (∀ y ∈ ys, y ∈ places) → ∀ w, unseen places w < fuel + 1 →
        ys.foldl (place (visit next (fuel + more))) w = ys.foldl (place (visit next fuel)) w := by
      intro ys
      induction ys with
      | nil => exact fun _ _ _ => rfl
      | cons y ys ihys =>
        intro hys w hw
        have hplace : place (visit next (fuel + more)) w y = place (visit next fuel) w y := by
          unfold place
          by_cases hseen : y ∈ w.seen
          · rw [if_pos hseen, if_pos hseen]
          · have hless := unseen_lt (hys y List.mem_cons_self) hseen
            rw [if_neg hseen, if_neg hseen, ih y _ (by omega)]
        have hgrown := (foldl_grown (visit_grown hplaces fuel) [y] (by simpa using hys y List.mem_cons_self) w hw).1
        have hmore := unseen_le places hgrown.mono
        rw [List.foldl_cons, List.foldl_cons, hplace]
        exact ihys (fun z hz => hys z (List.mem_cons_of_mem y hz)) _ (Nat.lt_of_le_of_lt hmore hw)
    rw [Nat.succ_add, visit, visit]
    exact hfold (next x) (hplaces x) w hfuel

/-- What a visit sees was seen before or follows from the place. -/
theorem follows_of_seen (fuel : Nat) (x : α) (w : Walk α) {y : α} (hy : y ∈ (visit next fuel x w).seen) :
    y ∈ w.seen ∨ Relation.TransGen (fun a b => b ∈ next a) x y := by
  induction fuel generalizing x w y with
  | zero => exact .inl hy
  | succ fuel ih =>
    have hfold : ∀ ys : List α, (∀ z ∈ ys, z ∈ next x) → ∀ w, y ∈ (ys.foldl (place (visit next fuel)) w).seen →
        y ∈ w.seen ∨ Relation.TransGen (fun a b => b ∈ next a) x y := by
      intro ys
      induction ys with
      | nil => exact fun _ _ h => .inl h
      | cons z ys ihys =>
        intro hys w h
        have hz := hys z List.mem_cons_self
        rcases ihys (fun z' hz' => hys z' (List.mem_cons_of_mem z hz')) _ h with hone | hrest
        · unfold place at hone
          split at hone
          · exact .inl hone
          · rcases ih z _ hone with hold | hbelow
            · rcases List.mem_append.1 hold with hold | hself
              · exact .inl hold
              · rw [List.mem_singleton.1 hself]
                exact .inr (.single hz)
            · exact .inr (Relation.TransGen.head hz hbelow)
        · exact .inr hrest
    rw [visit] at hy
    exact hfold (next x) (fun _ hz => hz) w hy

/-- A walk goes on: it forgets nothing, and finishes places that were not seen, each once. -/
def GoesOn (w w' : Walk α) : Prop :=
  (∀ y ∈ w.seen, y ∈ w'.seen) ∧ ∃ more, w'.finished = w.finished ++ more ∧ more.Nodup ∧ ∀ y ∈ more, y ∉ w.seen ∧ y ∈ w'.seen

omit [DecidableEq α] in
theorem GoesOn.trans (h : GoesOn w w') (h' : GoesOn w' w'') : GoesOn w w'' := by
  obtain ⟨hmono, more, hmore, hnodup, hnew⟩ := h
  obtain ⟨hmono', more', hmore', hnodup', hnew'⟩ := h'
  refine ⟨fun y hy => hmono' y (hmono y hy), more ++ more', by rw [hmore', hmore, List.append_assoc], ?_, ?_⟩
  · refine List.nodup_append.2 ⟨hnodup, hnodup', ?_⟩
    intro y hy z hz heq
    exact (hnew' z hz).1 (heq ▸ (hnew y hy).2)
  · intro y hy
    rcases List.mem_append.1 hy with hy | hy
    · exact ⟨(hnew y hy).1, hmono' y (hnew y hy).2⟩
    · exact ⟨fun hold => (hnew' y hy).1 (hmono y hold), (hnew' y hy).2⟩

/-- A visit finishes each place once. -/
theorem goesOn_visit (fuel : Nat) (x : α) (w : Walk α) : GoesOn w (visit next fuel x w) := by
  have hrefl : ∀ w : Walk α, GoesOn w w := fun w => ⟨fun _ hy => hy, [], by simp, List.nodup_nil, fun y hy => by cases hy⟩
  induction fuel generalizing x w with
  | zero => exact hrefl w
  | succ fuel ih =>
    have hplace : ∀ w z, GoesOn w (place (visit next fuel) w z) := by
      intro w z
      unfold place
      by_cases hseen : z ∈ w.seen
      · rw [if_pos hseen]
        exact hrefl w
      · rw [if_neg hseen]
        obtain ⟨hmono, more, hmore, hnodup, hnew⟩ := ih z { w with seen := w.seen ++ [z] }
        refine ⟨fun y hy => hmono y (List.mem_append_left _ hy), more ++ [z], by simp [hmore], ?_, ?_⟩
        · refine List.nodup_append.2 ⟨hnodup, by simp, ?_⟩
          intro y hy z' hz' heq
          rw [List.mem_singleton.1 hz'] at heq
          exact (hnew y hy).1 (by simp [heq])
        · intro y hy
          rcases List.mem_append.1 hy with hy | hy
          · exact ⟨fun hold => (hnew y hy).1 (List.mem_append_left _ hold), (hnew y hy).2⟩
          · rw [List.mem_singleton.1 hy]
            exact ⟨hseen, hmono z (by simp)⟩
    rw [visit]
    generalize next x = ys
    induction ys generalizing w with
    | nil => exact hrefl w
    | cons z ys ihys => exact (hplace w z).trans (ihys _)

end DepthFirst
