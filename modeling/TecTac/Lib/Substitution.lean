import TecTac.Lib.Raise

/-!
# Substitution in one pass

A text with placeholders is read from the left: where a placeholder begins it is taken as a whole, and every other member is kept. What comes out is the text again,
cut into pieces, and the substitution puts a value in the place of each placeholder. A value is never read again.
-/

namespace Substitution

variable {α κ ε : Type}

/-- A piece of a text: a member that is kept, or a placeholder. -/
inductive Piece (α κ : Type) where
  | kept (a : α)
  | slot (k : κ)
  deriving DecidableEq

/-- What stands for a piece when each placeholder is written in some way. -/
def fill (write : κ → List α) : Piece α κ → List α
  | .kept a => [a]
  | .slot k => write k

/-- The pieces of a text. `find` finds a placeholder at the beginning of a text, and the text after it. -/
def pieces (find : List α → Option (κ × List α)) : Nat → List α → List (Piece α κ)
  | 0, _ => []
  | _ + 1, [] => []
  | fuel + 1, a :: as =>
    match find (a :: as) with
    | some (k, rest) => .slot k :: pieces find fuel rest
    | none => .kept a :: pieces find fuel as

/-- The placeholders of a text. -/
def slots (ps : List (Piece α κ)) : List κ :=
  ps.filterMap fun p =>
    match p with
    | .kept _ => none
    | .slot k => some k

/-- What a piece becomes, where a placeholder has a value. -/
def place (value : κ → Except ε (List α)) : Piece α κ → Except ε (List α)
  | .kept a => .ok [a]
  | .slot k => value k

/-- The text with a value in the place of each placeholder, where each has one. -/
def substitute (value : κ → Except ε (List α)) (ps : List (Piece α κ)) : Except ε (List α) := do
  let parts ← ps.mapM (place value)
  return parts.flatten

variable {find : List α → Option (κ × List α)} {write : κ → List α} {text : List α} {fuel : Nat}

/-- What is found is a placeholder as it is written, and no placeholder is empty. -/
structure Recognizes (find : List α → Option (κ × List α)) (write : κ → List α) : Prop where
  found : ∀ {text k rest}, find text = some (k, rest) → text = write k ++ rest
  nonempty : ∀ k, write k ≠ []

theorem Recognizes.shorter (h : Recognizes find write) {k : κ} {rest : List α} (hfind : find text = some (k, rest)) : rest.length < text.length := by
  rw [h.found hfind, List.length_append]
  have hpos := List.length_pos_iff.2 (h.nonempty k)
  omega

/-- The pieces are the text. -/
theorem fill_pieces (h : Recognizes find write) (hfuel : text.length ≤ fuel) : (pieces find fuel text).flatMap (fill write) = text := by
  induction fuel generalizing text with
  | zero => rw [List.eq_nil_of_length_eq_zero (Nat.le_zero.1 hfuel)]; rfl
  | succ fuel ih =>
    cases text with
    | nil => rfl
    | cons a as =>
      rw [pieces]
      split
      · rename_i k rest hfind
        have hshorter := h.shorter hfind
        rw [List.flatMap_cons, ih (by omega), h.found hfind]
        rfl
      · rw [List.flatMap_cons, ih (Nat.le_of_succ_le_succ hfuel)]
        rfl

/-- No placeholder begins at a member that is kept. -/
theorem find_of_kept (h : Recognizes find write) (hfuel : text.length ≤ fuel) {before after : List (Piece α κ)} {a : α}
    (hpieces : pieces find fuel text = before ++ .kept a :: after) : find (a :: after.flatMap (fill write)) = none := by
  induction fuel generalizing text before with
  | zero => simp [pieces] at hpieces
  | succ fuel ih =>
    cases text with
    | nil => simp [pieces] at hpieces
    | cons b bs =>
      rw [pieces] at hpieces
      split at hpieces
      · rename_i k rest hfind
        have hshorter := h.shorter hfind
        cases before with
        | nil => cases hpieces
        | cons first before => exact ih (by omega) (List.cons.inj hpieces).2
      · rename_i hfind
        have hbs : bs.length ≤ fuel := Nat.le_of_succ_le_succ hfuel
        cases before with
        | nil =>
          obtain ⟨hkept, hafter⟩ := List.cons.inj hpieces
          obtain rfl := Piece.kept.inj hkept
          rw [← hafter, fill_pieces h hbs]
          exact hfind
        | cons first before => exact ih hbs (List.cons.inj hpieces).2

/-- What a substitution answers: every placeholder has a value, and the values stand in their places. -/
theorem substitute_ok {value : κ → Except ε (List α)} {ps : List (Piece α κ)} {out : List α} (h : substitute value ps = .ok out) {written : κ → List α}
    (hwritten : ∀ k v, value k = .ok v → written k = v) : out = ps.flatMap (fill written) := by
  obtain ⟨parts, hparts, hout⟩ := Raise.bind_ok h
  obtain rfl := Except.ok.inj hout
  clear h hout
  induction ps generalizing parts with
  | nil =>
    cases hparts
    rfl
  | cons p ps ih =>
    rw [List.mapM_cons] at hparts
    obtain ⟨part, hpart, hparts⟩ := Raise.bind_ok hparts
    obtain ⟨rest, hrest, hparts⟩ := Raise.bind_ok hparts
    cases hparts
    rw [List.flatten_cons, List.flatMap_cons, ih rest hrest]
    cases p with
    | kept a =>
      obtain rfl := Except.ok.inj hpart
      rfl
    | slot k => rw [fill, hwritten k part hpart]

end Substitution
