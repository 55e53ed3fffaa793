import Mathlib

/-!
# A rolling cap

A log of times to which batches are added, where a batch may fill up what the last span of time has left of a cap. Then no span of that length, wherever it
lies, has more than the cap.
-/

namespace RollingCap

def inWindow (span t a : Int) : Bool := decide (t - span ≤ a ∧ a ≤ t)

/-- No span of time that ends anywhere has more than the cap. -/
def Capped (span : Int) (cap : Nat) (times : List Int) : Prop := ∀ t, (times.filter (inWindow span t)).length ≤ cap

theorem capped_nil (span : Int) (cap : Nat) : Capped span cap [] := fun _ => Nat.zero_le cap

/-- A batch that is not before `now` and that fits with what the span before `now` has. -/
theorem capped_append {span : Int} (now : Int) {cap : Nat} {old new : List Int} (hold : Capped span cap old) (hnew : ∀ a ∈ new, now ≤ a)
    (hfits : new ≠ [] → (old.filter fun a => decide (now - span ≤ a)).length + new.length ≤ cap) : Capped span cap (new ++ old) := by
  intro t
  rw [List.filter_append, List.length_append]
  by_cases hnone : new.filter (inWindow span t) = []
  · rw [hnone, List.length_nil, Nat.zero_add]
    exact hold t
  · -- some time of the batch lies in the span, so the span starts no earlier than the one before `now`
    obtain ⟨a, ha⟩ := List.exists_mem_of_ne_nil _ hnone
    obtain ⟨hmem, hwindow⟩ := List.mem_filter.1 ha
    have hnow := hnew a hmem
    simp only [inWindow, decide_eq_true_eq] at hwindow
    have hold' : (old.filter (inWindow span t)).length ≤ (old.filter fun a => decide (now - span ≤ a)).length := by
      refine (List.monotone_filter_right old fun b hb => ?_).length_le
      simp only [inWindow, decide_eq_true_eq] at hb ⊢
      omega
    have hle := List.length_filter_le (inWindow span t) new
    have := hfits (List.ne_nil_of_mem hmem)
    omega

end RollingCap
