import Mathlib

/-!
# Machines

A machine takes events one after the other, and each of them leads from a state to a state. `Along` says that a property of a state
and the event that comes next holds all along a run; what every step keeps, a run keeps.
-/

namespace Machine

variable {σ ε : Type*} {step : σ → ε → σ}

/-- Every event of a run has the property in the state that it finds. -/
def Along (step : σ → ε → σ) (P : σ → ε → Prop) : σ → List ε → Prop
  | _, [] => True
  | s, e :: events => P s e ∧ Along step P (step s e) events

instance decidableAlong {P : σ → ε → Prop} [∀ s, DecidablePred (P s)] : ∀ (s : σ) (events : List ε), Decidable (Along step P s events)
  | _, [] => isTrue trivial
  | s, e :: events => @instDecidableAnd _ _ _ (decidableAlong (step s e) events)

theorem along_nil {P : σ → ε → Prop} {s : σ} : Along step P s [] := trivial

theorem along_append {P : σ → ε → Prop} {s : σ} {front back : List ε} :
    Along step P s (front ++ back) ↔ Along step P s front ∧ Along step P (front.foldl step s) back := by
  induction front generalizing s with
  | nil => simp [Along]
  | cons e front ih => simp [Along, ih, and_assoc]

theorem along_and {P Q : σ → ε → Prop} {s : σ} {events : List ε} :
    Along step (fun s e => P s e ∧ Q s e) s events ↔ Along step P s events ∧ Along step Q s events := by
  induction events generalizing s with
  | nil => simp [Along]
  | cons e events ih => simp only [Along, ih, and_and_and_comm]

/-- What every step keeps where the property holds, a run keeps along which it holds. -/
theorem keeps {I : σ → Prop} {P : σ → ε → Prop} (hstep : ∀ s e, I s → P s e → I (step s e)) {s : σ} {events : List ε} (hs : I s)
    (h : Along step P s events) : I (events.foldl step s) := by
  induction events generalizing s with
  | nil => exact hs
  | cons e events ih => exact ih (hstep s e hs h.1) h.2

/-- A property of every state and event holds along every run. -/
theorem along_of_forall {P : σ → ε → Prop} (h : ∀ s e, P s e) (s : σ) (events : List ε) : Along step P s events := by
  induction events generalizing s with
  | nil => trivial
  | cons e events ih => exact ⟨h s e, ih (step s e)⟩

/-- What every step keeps, a run keeps. -/
theorem keeps_of_forall {I : σ → Prop} (hstep : ∀ s e, I s → I (step s e)) {s : σ} (hs : I s) (events : List ε) :
    I (events.foldl step s) :=
  keeps (P := fun _ _ => True) (fun s e hs _ => hstep s e hs) hs (along_of_forall (fun _ _ => trivial) s events)

end Machine
