import Mathlib

/-!
# Timelines: runs of a clocked transition system

A system is a function `step : Int → α → σ → σ`: what an action does to a state when the clock shows a given moment. A
run is a list of events, each an action and the time that passed since the event before it, so the clock of a run never
goes back. The rules here say what a run keeps: an invariant that every step keeps (`exec_invariant`, with a condition
on the steps), and a property of the steps that an invariant gives (`Along.strengthen`).
-/

namespace Timeline

variable {σ α : Type*}

/-- One event: how long after the event before it, and which action. -/
structure Event (α : Type*) where
  wait : Nat
  act : α
  deriving DecidableEq

/-- A state and the moment it was reached. -/
structure At (σ : Type*) where
  clock : Int
  state : σ
  deriving DecidableEq

/-- The state one event later. -/
def At.next (step : Int → α → σ → σ) (s : At σ) (e : Event α) : At σ :=
  ⟨s.clock + e.wait, step (s.clock + e.wait) e.act s.state⟩

/-- The state a list of events leads to. -/
def exec (step : Int → α → σ → σ) (s : At σ) (es : List (Event α)) : At σ :=
  es.foldl (At.next step) s

/-- Every event of a run satisfies `C`, a condition on the moment, the action and the state just before it. -/
def Along (step : Int → α → σ → σ) (C : Int → α → σ → Prop) : At σ → List (Event α) → Prop
  | _, [] => True
  | s, e :: es => C (s.clock + e.wait) e.act s.state ∧ Along step C (s.next step e) es

instance decidableAlong (step : Int → α → σ → σ) (C : Int → α → σ → Prop) [∀ c a s, Decidable (C c a s)] :
    ∀ (s : At σ) (es : List (Event α)), Decidable (Along step C s es)
  | _, [] => isTrue trivial
  | s, e :: es =>
    have := decidableAlong step C (s.next step e) es
    inferInstanceAs (Decidable (C (s.clock + e.wait) e.act s.state ∧ Along step C (s.next step e) es))

variable {step : Int → α → σ → σ} {C D : Int → α → σ → Prop}

@[simp] theorem exec_nil (s : At σ) : exec step s [] = s := rfl

@[simp] theorem exec_cons (s : At σ) (e : Event α) (es : List (Event α)) :
    exec step s (e :: es) = exec step (s.next step e) es := rfl

theorem exec_append (s : At σ) (es es' : List (Event α)) :
    exec step s (es ++ es') = exec step (exec step s es) es' := by
  simp only [exec, List.foldl_append]

@[simp] theorem along_nil (s : At σ) : Along step C s [] := trivial

@[simp] theorem along_cons (s : At σ) (e : Event α) (es : List (Event α)) :
    Along step C s (e :: es) ↔ C (s.clock + e.wait) e.act s.state ∧ Along step C (s.next step e) es := Iff.rfl

/-- A run whose events all satisfy `C` splits into two such runs, the second from where the first ends. -/
theorem along_append {s : At σ} {es es' : List (Event α)} :
    Along step C s (es ++ es') ↔ Along step C s es ∧ Along step C (exec step s es) es' := by
  induction es generalizing s with
  | nil => simp
  | cons e es ih => simp only [List.cons_append, along_cons, exec_cons, ih, and_assoc]

/-- The invariant rule: what holds at the start, and what every step that satisfies `C` keeps, holds wherever a run of
such steps leads. The step is given the moment before and the time that passed. -/
theorem exec_invariant {P : Int → σ → Prop} {s : At σ} {es : List (Event α)}
    (hstep : ∀ (c : Int) (w : Nat) (a : α) (t : σ), C (c + w) a t → P c t → P (c + w) (step (c + w) a t))
    (h0 : P s.clock s.state) (h : Along step C s es) : P (exec step s es).clock (exec step s es).state := by
  induction es generalizing s with
  | nil => exact h0
  | cons e es ih => exact ih (hstep s.clock e.wait e.act s.state h.1 h0) h.2

/-- An invariant may be used to show that the steps of a run satisfy more than was asked of them. -/
theorem Along.strengthen {P : Int → σ → Prop} {s : At σ} {es : List (Event α)}
    (hstep : ∀ (c : Int) (w : Nat) (a : α) (t : σ), C (c + w) a t → P c t → P (c + w) (step (c + w) a t))
    (hD : ∀ (c : Int) (w : Nat) (a : α) (t : σ), C (c + w) a t → P c t → D (c + w) a t)
    (h0 : P s.clock s.state) (h : Along step C s es) : Along step D s es := by
  induction es generalizing s with
  | nil => trivial
  | cons e es ih =>
    exact ⟨hD s.clock e.wait e.act s.state h.1 h0, ih (hstep s.clock e.wait e.act s.state h.1 h0) h.2⟩

/-- A condition that every step satisfies is satisfied along every run. -/
theorem along_of_forall (h : ∀ c a t, C c a t) (s : At σ) (es : List (Event α)) : Along step C s es := by
  induction es generalizing s with
  | nil => trivial
  | cons e es ih => exact ⟨h _ _ _, ih _⟩

/-- Two conditions that hold along a run hold together. -/
theorem Along.and {s : At σ} {es : List (Event α)} (hC : Along step C s es) (hD : Along step D s es) :
    Along step (fun c a t => C c a t ∧ D c a t) s es := by
  induction es generalizing s with
  | nil => trivial
  | cons e es ih => exact ⟨⟨hC.1, hD.1⟩, ih hC.2 hD.2⟩

/-- A condition on the steps may be weakened. -/
theorem Along.imp {s : At σ} {es : List (Event α)} (hD : ∀ c a t, C c a t → D c a t) (h : Along step C s es) :
    Along step D s es :=
  h.strengthen (P := fun _ _ => True) (fun _ _ _ _ _ _ => trivial) (fun _ _ _ _ hc _ => hD _ _ _ hc) trivial

end Timeline
