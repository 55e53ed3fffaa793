import Mathlib

/-!
# Computations that may raise

A computation that may raise is an `Except`. The rules here take one apart from its answer: what each part of it
answered, and which conditions it went through.
-/

namespace Raise

variable {ε : Type*} {α β : Type}

/-- Go on only when the condition holds. -/
def require (c : Bool) (e : ε) : Except ε Unit := if c then .ok () else .error e

/-- A sequence that answers: its first part answers, and so does the rest, given that answer. -/
theorem bind_ok {x : Except ε α} {f : α → Except ε β} {b : β} (h : (x >>= f) = .ok b) : ∃ a, x = .ok a ∧ f a = .ok b := by
  cases x with
  | error e => cases h
  | ok a => exact ⟨a, rfl, h⟩

@[simp] theorem ok_bind (a : α) (f : α → Except ε β) : (Except.ok a >>= f) = f a := rfl

@[simp] theorem error_bind (e : ε) (f : α → Except ε β) : (Except.error e >>= f) = .error e := rfl

theorem of_require {c : Bool} {e : ε} {u : Unit} (h : require c e = .ok u) : c = true := by
  unfold require at h
  split at h
  · assumption
  · cases h

theorem bind_ok_iff {x : Except ε α} {f : α → Except ε β} {b : β} : (x >>= f) = .ok b ↔ ∃ a, x = .ok a ∧ f a = .ok b := by
  constructor
  · exact bind_ok
  · rintro ⟨a, rfl, h⟩
    exact h

theorem require_ok_iff {c : Bool} {e : ε} {u : Unit} : require c e = .ok u ↔ c = true := by
  constructor
  · exact of_require
  · rintro rfl
    rfl

@[simp] theorem require_true (e : ε) : require true e = .ok () := rfl

theorem ok_of_toOption {x : Except ε α} {a : α} (h : x.toOption = some a) : x = .ok a := by
  cases x with
  | error e => cases h
  | ok b => exact congrArg Except.ok (Option.some.inj h)

/-- Every answer of a map that answers comes from a member of the list. -/
theorem mem_of_mapM_ok {f : α → Except ε β} {xs : List α} {ys : List β} (h : xs.mapM f = .ok ys) {y : β} (hy : y ∈ ys) :
    ∃ x ∈ xs, f x = .ok y := by
  induction xs generalizing ys with
  | nil =>
    cases h
    cases hy
  | cons x xs ih =>
    rw [List.mapM_cons] at h
    obtain ⟨y', hy', h⟩ := bind_ok h
    obtain ⟨rest, hrest, h⟩ := bind_ok h
    cases h
    rcases List.mem_cons.1 hy with rfl | hmem
    · exact ⟨x, List.mem_cons_self, hy'⟩
    · obtain ⟨x', hx', heq⟩ := ih hrest hmem
      exact ⟨x', List.mem_cons_of_mem _ hx', heq⟩

/-- Every member of the list has its answer among those of a map that answers. -/
theorem mapM_ok_of_mem {f : α → Except ε β} {xs : List α} {ys : List β} (h : xs.mapM f = .ok ys) {x : α} (hx : x ∈ xs) :
    ∃ y ∈ ys, f x = .ok y := by
  induction xs generalizing ys with
  | nil => cases hx
  | cons x' xs ih =>
    rw [List.mapM_cons] at h
    obtain ⟨y, hy, h⟩ := bind_ok h
    obtain ⟨rest, hrest, h⟩ := bind_ok h
    cases h
    rcases List.mem_cons.1 hx with rfl | hmem
    · exact ⟨y, List.mem_cons_self, hy⟩
    · obtain ⟨y', hy', heq⟩ := ih hrest hmem
      exact ⟨y', List.mem_cons_of_mem _ hy', heq⟩

/-- A map answers when each member is answered. -/
theorem mapM_ok {f : α → Except ε β} {xs : List α} (h : ∀ x ∈ xs, ∃ y, f x = .ok y) : ∃ ys, xs.mapM f = .ok ys := by
  induction xs with
  | nil => exact ⟨[], rfl⟩
  | cons x xs ih =>
    obtain ⟨y, hy⟩ := h x List.mem_cons_self
    obtain ⟨ys, hys⟩ := ih fun x hx => h x (List.mem_cons_of_mem _ hx)
    exact ⟨y :: ys, by rw [List.mapM_cons, hy, hys]; rfl⟩

/-- A map that answers keeps a reading of the members. -/
theorem map_eq_of_mapM {γ : Type} {f : α → Except ε β} {xs : List α} {ys : List β} {g : β → γ} {k : α → γ} (h : xs.mapM f = .ok ys)
    (hf : ∀ x y, f x = .ok y → g y = k x) : ys.map g = xs.map k := by
  induction xs generalizing ys with
  | nil =>
    cases h
    rfl
  | cons x xs ih =>
    rw [List.mapM_cons] at h
    obtain ⟨y, hy, h⟩ := bind_ok h
    obtain ⟨rest, hrest, h⟩ := bind_ok h
    cases h
    rw [List.map_cons, List.map_cons, hf x y hy, ih hrest]

/-- A fold that answers keeps what each of its steps keeps. -/
theorem foldlM_keeps {σ : Type} {P : σ → Prop} {f : σ → α → Except ε σ} {xs : List α} {s s' : σ} (h : xs.foldlM f s = .ok s')
    (hf : ∀ s x s', f s x = .ok s' → P s → P s') (hs : P s) : P s' := by
  induction xs generalizing s with
  | nil =>
    cases h
    exact hs
  | cons x xs ih =>
    rw [List.foldlM_cons] at h
    obtain ⟨t, ht, h⟩ := bind_ok h
    exact ih h (hf s x t ht hs)

/-- Two folds over members that each make the same step answer alike. -/
theorem foldlM_congr {σ : Type} {f : σ → α → Except ε σ} {R : α → α → Prop} {xs ys : List α} (h : List.Forall₂ R xs ys)
    (hf : ∀ s x y, R x y → f s x = f s y) (s : σ) : xs.foldlM f s = ys.foldlM f s := by
  induction h generalizing s with
  | nil => rfl
  | cons hxy _ ih =>
    rw [List.foldlM_cons, List.foldlM_cons, hf s _ _ hxy]
    exact bind_congr ih

/-- When the lists that a map answers have nothing in them, each member answered nothing. -/
theorem ok_nil_of_mapM {f : α → Except ε (List β)} {xs : List α} {ys : List (List β)} (h : xs.mapM f = .ok ys)
    (hnil : ys.flatten = []) {x : α} (hx : x ∈ xs) : f x = .ok [] := by
  obtain ⟨y, hy, hfx⟩ := mapM_ok_of_mem h hx
  rw [hfx, List.flatten_eq_nil_iff.1 hnil y hy]

/-- A loop that answers went through for every member. -/
theorem forM_ok_iff {f : α → Except ε Unit} {xs : List α} : xs.forM f = .ok () ↔ ∀ x ∈ xs, f x = .ok () := by
  induction xs with
  | nil => simp [pure, Except.pure]
  | cons x xs ih =>
    change (f x >>= fun _ => xs.forM f) = .ok () ↔ _
    constructor
    · intro h
      obtain ⟨_, hx, h⟩ := bind_ok h
      intro y hy
      rcases List.mem_cons.1 hy with rfl | hy
      · exact hx
      · exact ih.1 h y hy
    · intro h
      rw [h x List.mem_cons_self, ok_bind]
      exact ih.2 fun y hy => h y (List.mem_cons_of_mem _ hy)

/-- Every answer of a map that has one comes from a member of the list. -/
theorem mem_of_mapM_some {f : α → Option β} {xs : List α} {ys : List β} (h : xs.mapM f = some ys) {y : β} (hy : y ∈ ys) : ∃ x ∈ xs, f x = some y := by
  induction xs generalizing ys with
  | nil =>
    cases h
    cases hy
  | cons x xs ih =>
    rw [List.mapM_cons] at h
    obtain ⟨first, hfirst, h⟩ := Option.bind_eq_some_iff.1 h
    obtain ⟨rest, hrest, h⟩ := Option.bind_eq_some_iff.1 h
    cases h
    rcases List.mem_cons.1 hy with rfl | hy
    · exact ⟨x, List.mem_cons_self, hfirst⟩
    · obtain ⟨x', hx', hf⟩ := ih hrest hy
      exact ⟨x', List.mem_cons_of_mem _ hx', hf⟩

/-! ## What a computation raises -/

/-- A sequence raises what its first part raises, or what the rest raises on the first part's answer. -/
theorem bind_error_iff {x : Except ε α} {f : α → Except ε β} {e : ε} :
    (x >>= f) = .error e ↔ x = .error e ∨ ∃ a, x = .ok a ∧ f a = .error e := by
  cases x with
  | error e' => simp
  | ok a => simp

/-- Everything that is raised has the property. -/
def RaisesOnly (P : ε → Prop) (x : Except ε α) : Prop := ∀ e, x = .error e → P e

variable {P : ε → Prop}

theorem raisesOnly_ok (a : α) : RaisesOnly P (.ok a : Except ε α) := fun _ h => by cases h

theorem raisesOnly_pure (a : α) : RaisesOnly P (pure a : Except ε α) := fun _ h => by cases h

theorem raisesOnly_error {e : ε} (h : P e) : RaisesOnly P (.error e : Except ε α) := by
  intro e' he
  cases he
  exact h

theorem raisesOnly_require {c : Bool} {e : ε} (h : P e) : RaisesOnly P (require c e) := by
  unfold require
  split
  · exact raisesOnly_ok ()
  · exact raisesOnly_error h

theorem RaisesOnly.bind {x : Except ε α} {f : α → Except ε β} (hx : RaisesOnly P x) (hf : ∀ a, RaisesOnly P (f a)) :
    RaisesOnly P (x >>= f) := by
  intro e he
  rcases bind_error_iff.1 he with h | ⟨a, -, h⟩
  · exact hx e h
  · exact hf a e h

end Raise
