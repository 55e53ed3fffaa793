import TecTac.Lib.Raise

/-!
# Programs that stop at a step

A straight-line program is a list of steps, and a step changes the work or raises. A program stops at a step when every
step before it went through. The rules here say what a run keeps and in which part of a program it stopped.
-/

namespace Steps

open Raise

variable {σ ω : Type} {ε : Type*} {run : σ → ω → Except ε ω}

/-- Run the steps one after the other. -/
def runAll (run : σ → ω → Except ε ω) (steps : List σ) (w : ω) : Except ε ω := steps.foldlM (fun w s => run s w) w

theorem runAll_append {front back : List σ} {w w' : ω} (h : runAll run (front ++ back) w = .ok w') :
    ∃ middle, runAll run front w = .ok middle ∧ runAll run back middle = .ok w' := by
  unfold runAll at h
  rw [List.foldlM_append] at h
  exact bind_ok h

theorem runAll_cons {s : σ} {back : List σ} {w w' : ω} (h : runAll run (s :: back) w = .ok w') :
    ∃ middle, run s w = .ok middle ∧ runAll run back middle = .ok w' := by
  unfold runAll at h
  rw [List.foldlM_cons] at h
  exact bind_ok h

theorem runAll_singleton {s : σ} {w w' : ω} (h : runAll run [s] w = .ok w') : run s w = .ok w' := by
  obtain ⟨w'', hs, hnil⟩ := bind_ok (f := fun w => runAll run [] w) h
  cases hnil
  exact hs

/-- What every step keeps, a run keeps. -/
theorem runAll_keeps {P : ω → Prop} {steps : List σ} (hstep : ∀ s ∈ steps, ∀ w w', P w → run s w = .ok w' → P w') {w w' : ω}
    (h : runAll run steps w = .ok w') (hw : P w) : P w' := by
  induction steps generalizing w with
  | nil =>
    cases h
    exact hw
  | cons s steps ih =>
    obtain ⟨middle, hs, hrest⟩ := bind_ok (f := fun w => runAll run steps w) h
    refine ih (fun s hs => hstep s (List.mem_cons_of_mem _ hs)) hrest ?_
    exact hstep s List.mem_cons_self w middle hw hs

/-- The program stops at a step: the steps before it went through, and it raised and left the work in some state. -/
structure StopsAt (run : σ → ω → Except ε ω) (leaves : σ → ω → ω → Prop) (program : List σ) (start : ω) (before : List σ)
    (failing : σ) (left : ω) : Prop where
  at_step : ∃ rest, program = before ++ failing :: rest
  left_by : ∃ w, runAll run before start = .ok w ∧ leaves failing w left

/-- The steps that went through are steps of the program. -/
theorem StopsAt.before_mem {leaves : σ → ω → ω → Prop} {program before : List σ} {start left : ω} {failing : σ}
    (h : StopsAt run leaves program start before failing left) : ∀ s ∈ before, s ∈ program := by
  obtain ⟨⟨rest, rfl⟩, _⟩ := h
  intro s hs
  exact List.mem_append_left _ hs

/-- The step that raised is a step of the program. -/
theorem StopsAt.failing_mem {leaves : σ → ω → ω → Prop} {program before : List σ} {start left : ω} {failing : σ}
    (h : StopsAt run leaves program start before failing left) : failing ∈ program := by
  obtain ⟨⟨rest, rfl⟩, _⟩ := h
  exact List.mem_append_right _ List.mem_cons_self

/-- A program of one step stops at its beginning. -/
theorem StopsAt.singleton {leaves : σ → ω → ω → Prop} {s failing : σ} {before : List σ} {start left : ω}
    (h : StopsAt run leaves [s] start before failing left) : before = [] ∧ failing = s ∧ leaves s start left := by
  obtain ⟨⟨rest, heq⟩, w, hrun, hleft⟩ := h
  rcases List.append_eq_singleton_iff.1 heq.symm with ⟨rfl, hcons⟩ | ⟨_, hcons⟩
  · obtain ⟨rfl, _⟩ := List.cons.inj hcons
    cases hrun
    exact ⟨rfl, rfl, hleft⟩
  · cases hcons

/-- A program in two parts stops in its first part or in its second. -/
theorem StopsAt.in_part {leaves : σ → ω → ω → Prop} {front back before : List σ} {start left : ω} {failing : σ}
    (h : StopsAt run leaves (front ++ back) start before failing left) :
    StopsAt run leaves front start before failing left ∨
      ∃ middle before', runAll run front start = .ok middle ∧ before = front ++ before' ∧
        StopsAt run leaves back middle before' failing left := by
  obtain ⟨⟨rest, heq⟩, w, hrun, hleft⟩ := h
  rcases List.append_eq_append_iff.1 heq with ⟨before', hbefore, hback⟩ | ⟨tail, hfront, htail⟩
  · right
    rw [hbefore] at hrun
    obtain ⟨middle, hmiddle, hrun⟩ := runAll_append hrun
    exact ⟨middle, before', hmiddle, hbefore, ⟨rest, hback⟩, w, hrun, hleft⟩
  · cases tail with
    | nil =>
      rw [List.append_nil] at hfront
      exact Or.inr ⟨w, [], hfront ▸ hrun, by simp [hfront], ⟨rest, htail.symm⟩, w, rfl, hleft⟩
    | cons s tail =>
      obtain ⟨rfl, _⟩ := List.cons.inj htail
      exact Or.inl ⟨⟨tail, hfront⟩, w, hrun, hleft⟩

/-- A program stops at its first step or after it. -/
theorem StopsAt.in_head {leaves : σ → ω → ω → Prop} {s failing : σ} {back before : List σ} {start left : ω}
    (h : StopsAt run leaves (s :: back) start before failing left) :
    (failing = s ∧ leaves s start left) ∨
      ∃ middle before', run s start = .ok middle ∧ StopsAt run leaves back middle before' failing left := by
  have hparts : StopsAt run leaves ([s] ++ back) start before failing left := h
  rcases hparts.in_part with hhead | ⟨middle, before', hrun, _, hrest⟩
  · exact Or.inl hhead.singleton.2
  · exact Or.inr ⟨middle, before', runAll_singleton hrun, hrest⟩

end Steps
