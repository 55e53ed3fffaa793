import Mathlib

/-!
# Dictionaries

A dictionary keeps its pairs in the order the keys were first set, and setting a key again changes the value in its
place. Reading looks for the first pair of a key. The rules here say what each operation leaves of a reading.
-/

namespace Dict

variable {κ ν : Type*} [DecidableEq κ]

/-- The value of a key. -/
def get (k : κ) : List (κ × ν) → Option ν
  | [] => none
  | (k', v) :: d => if k' = k then some v else get k d

/-- Set a key. -/
def set (k : κ) (v : ν) : List (κ × ν) → List (κ × ν)
  | [] => [(k, v)]
  | (k', v') :: d => if k' = k then (k, v) :: d else (k', v') :: set k v d

@[simp] theorem get_nil (k : κ) : get k ([] : List (κ × ν)) = none := rfl

theorem get_cons (k k' : κ) (v : ν) (d : List (κ × ν)) : get k ((k', v) :: d) = if k' = k then some v else get k d := rfl

/-- The key that was set has the value it was set to. -/
@[simp] theorem get_set_self (k : κ) (v : ν) (d : List (κ × ν)) : get k (set k v d) = some v := by
  induction d with
  | nil => simp [set, get]
  | cons p d ih =>
    simp only [set]
    split
    · simp [get_cons]
    · rename_i hne
      rw [get_cons, if_neg hne]
      exact ih

/-- Every other key keeps its value. -/
theorem get_set_of_ne {k k' : κ} (h : k' ≠ k) (v : ν) (d : List (κ × ν)) : get k (set k' v d) = get k d := by
  induction d with
  | nil => simp [set, get, h]
  | cons p d ih =>
    simp only [set]
    split
    · rename_i heq
      rw [get_cons, if_neg h, get_cons, if_neg (heq ▸ h)]
    · rw [get_cons, get_cons, ih]

theorem get_set (k k' : κ) (v : ν) (d : List (κ × ν)) : get k (set k' v d) = if k' = k then some v else get k d := by
  by_cases h : k' = k
  · rw [if_pos h, h, get_set_self]
  · rw [if_neg h, get_set_of_ne h]

/-- Two keys that are there are set in either order. -/
theorem set_comm {k k' : κ} (h : k ≠ k') (v v' : ν) {d : List (κ × ν)} (hk : (get k d).isSome = true) (hk' : (get k' d).isSome = true) :
    set k v (set k' v' d) = set k' v' (set k v d) := by
  induction d with
  | nil => cases hk
  | cons p d ih =>
    obtain ⟨a, b⟩ := p
    rw [get_cons] at hk hk'
    by_cases ha : a = k
    · subst ha
      rw [set, if_neg h, set, if_pos rfl, set, if_pos rfl, set, if_neg h]
    · by_cases ha' : a = k'
      · subst ha'
        rw [set, if_pos rfl, set, if_neg h.symm, set, if_neg h.symm, set, if_pos rfl]
      · rw [if_neg ha] at hk
        rw [if_neg ha'] at hk'
        rw [set, if_neg ha', set, if_neg ha, ih hk hk', set, if_neg ha, set, if_neg ha']

theorem set_ne_nil (k : κ) (v : ν) (d : List (κ × ν)) : set k v d ≠ [] := by
  cases d with
  | nil => simp [set]
  | cons p d =>
    unfold set
    split <;> simp

/-- What a reading finds is a pair of the dictionary. -/
theorem mem_of_get {k : κ} {v : ν} {d : List (κ × ν)} (h : get k d = some v) : (k, v) ∈ d := by
  induction d with
  | nil => cases h
  | cons p d ih =>
    rw [get_cons] at h
    split at h
    · rename_i heq
      have hv : p.2 = v := Option.some.inj h
      have hp : p = (k, v) := Prod.ext heq hv
      exact hp ▸ List.mem_cons_self
    · exact List.mem_cons_of_mem _ (ih h)

/-- A key that is not there is set at the end. -/
theorem set_of_notMem {k : κ} (v : ν) {d : List (κ × ν)} (h : k ∉ d.map Prod.fst) : set k v d = d ++ [(k, v)] := by
  induction d with
  | nil => rfl
  | cons p d ih =>
    rw [List.map_cons, List.mem_cons, not_or] at h
    rw [set, if_neg (Ne.symm h.1), ih h.2, List.cons_append]

/-- A pair after a key was set is the one that was set or was there before. -/
theorem mem_set {k : κ} {v : ν} {d : List (κ × ν)} {p : κ × ν} (h : p ∈ set k v d) : p = (k, v) ∨ p ∈ d := by
  induction d with
  | nil => exact Or.inl (List.mem_singleton.1 h)
  | cons q d ih =>
    unfold set at h
    split at h
    · rcases List.mem_cons.1 h with heq | hmem
      · exact Or.inl heq
      · exact Or.inr (List.mem_cons_of_mem _ hmem)
    · rcases List.mem_cons.1 h with heq | hmem
      · exact Or.inr (heq ▸ List.mem_cons_self)
      · rcases ih hmem with heq | hold
        · exact Or.inl heq
        · exact Or.inr (List.mem_cons_of_mem _ hold)

/-- A key of the dictionary is found. -/
theorem get_isSome_of_mem {p : κ × ν} {d : List (κ × ν)} (h : p ∈ d) : (get p.1 d).isSome := by
  induction d with
  | nil => cases h
  | cons q d ih =>
    rw [get_cons]
    split
    · rfl
    · rename_i hne
      rcases List.mem_cons.1 h with heq | hmem
      · exact absurd (congrArg Prod.fst heq).symm hne
      · exact ih hmem

/-- A key that is not found is no key of the dictionary. -/
theorem get_eq_none_iff {k : κ} {d : List (κ × ν)} : get k d = none ↔ k ∉ d.map Prod.fst := by
  induction d with
  | nil => simp
  | cons p d ih =>
    rw [get_cons, List.map_cons, List.mem_cons, not_or]
    split
    · rename_i heq
      simp [heq]
    · rename_i hne
      rw [ih]
      exact ⟨fun h => ⟨fun heq => hne heq.symm, h⟩, fun h => h.2⟩

/-- Remove a key. -/
def erase (k : κ) (d : List (κ × ν)) : List (κ × ν) := d.filter fun p => decide (p.1 ≠ k)

theorem get_erase (k k' : κ) (d : List (κ × ν)) : get k (erase k' d) = if k = k' then none else get k d := by
  induction d with
  | nil => simp [erase]
  | cons p d ih =>
    obtain ⟨l, v⟩ := p
    unfold erase at ih ⊢
    rw [get_cons]
    by_cases hl : l = k'
    · rw [List.filter_cons_of_neg (by simp [hl]), ih, hl]
      split
      · rfl
      · rename_i hne
        rw [if_neg (fun heq => hne heq.symm)]
    · rw [List.filter_cons_of_pos (by simp [hl]), get_cons, ih]
      by_cases hk : l = k
      · simp [hk, hk ▸ hl]
      · simp [hk]

/-- Change every value. -/
def mapValues {ν' : Type*} (f : ν → ν') (d : List (κ × ν)) : List (κ × ν') := d.map fun p => (p.1, f p.2)

/-- A reading of the changed dictionary is the changed reading. -/
@[simp] theorem get_mapValues {ν' : Type*} (f : ν → ν') (k : κ) (d : List (κ × ν)) :
    get k (mapValues f d) = (get k d).map f := by
  induction d with
  | nil => rfl
  | cons p d ih =>
    obtain ⟨k', v⟩ := p
    simp only [mapValues, List.map_cons, get_cons] at ih ⊢
    rw [ih]
    split <;> rfl

/-- Setting and changing commute. -/
theorem mapValues_set {ν' : Type*} (f : ν → ν') (k : κ) (v : ν) (d : List (κ × ν)) :
    mapValues f (set k v d) = set k (f v) (mapValues f d) := by
  induction d with
  | nil => rfl
  | cons p d ih =>
    simp only [set, mapValues, List.map_cons] at ih ⊢
    split
    · rfl
    · rw [List.map_cons, ih]

/-- With every key once, a pair of the dictionary is what a reading of its key finds. -/
theorem get_of_mem {k : κ} {v : ν} {d : List (κ × ν)} (hkeys : (d.map Prod.fst).Nodup) (h : (k, v) ∈ d) : get k d = some v := by
  induction d with
  | nil => cases h
  | cons p d ih =>
    rw [List.map_cons, List.nodup_cons] at hkeys
    rw [get_cons]
    rcases List.mem_cons.1 h with heq | hmem
    · rw [← heq]
      exact if_pos rfl
    · have hne : p.1 ≠ k := by
        intro heq
        exact hkeys.1 (heq ▸ List.mem_map_of_mem hmem)
      rw [if_neg hne]
      exact ih hkeys.2 hmem

/-- `d.update(d')`: the keys of `d` keep their place, and the new ones follow. -/
def update (d d' : List (κ × ν)) : List (κ × ν) := d.map (fun p => (p.1, (get p.1 d').getD p.2)) ++ d'.filter fun p => (get p.1 d).isNone

theorem get_filter (q : κ → Bool) (k : κ) (d : List (κ × ν)) : get k (d.filter fun p => q p.1) = if q k then get k d else none := by
  induction d with
  | nil => simp
  | cons p d ih =>
    obtain ⟨l, v⟩ := p
    by_cases hl : q l
    · rw [List.filter_cons_of_pos (by simpa using hl), get_cons, get_cons, ih]
      by_cases hk : l = k
      · simp [hk, hk ▸ hl]
      · simp [hk]
    · rw [List.filter_cons_of_neg (by simpa using hl), ih, get_cons]
      by_cases hk : l = k
      · simp [← hk, hl]
      · simp [hk]

theorem get_append (k : κ) (d d' : List (κ × ν)) : get k (d ++ d') = (get k d).or (get k d') := by
  induction d with
  | nil => simp
  | cons p d ih =>
    rw [List.cons_append, get_cons, get_cons, ih]
    split <;> simp

/-- After an update a key has its new value where there is one. -/
theorem get_update (k : κ) (d d' : List (κ × ν)) : get k (update d d') = (get k d').or (get k d) := by
  have hold : ∀ e : List (κ × ν), get k (e.map fun p => (p.1, (get p.1 d').getD p.2)) = (get k e).map (get k d').getD := by
    intro e
    induction e with
    | nil => rfl
    | cons p e ih =>
      rw [List.map_cons, get_cons, get_cons, ih]
      split
      · rename_i heq
        rw [heq]
        rfl
      · rfl
  unfold update
  rw [get_append, hold, get_filter (fun l => (get l d).isNone) k d']
  cases get k d <;> cases get k d' <;> simp

/-! ## Keys that are set and keys that they take the place of -/

/-- Every key of the dictionary is a key after one was set, and only the one that was set is new. -/
theorem mem_keys_set {k k' : κ} {v : ν} {d : List (κ × ν)} : k ∈ (set k' v d).map Prod.fst ↔ k = k' ∨ k ∈ d.map Prod.fst := by
  induction d with
  | nil => simp [set]
  | cons p d ih =>
    unfold set
    split
    · rename_i heq
      simp [heq]
    · rw [List.map_cons, List.mem_cons, ih, List.map_cons, List.mem_cons, or_left_comm]

/-- Setting keeps every key once. -/
theorem nodup_set {k : κ} {v : ν} {d : List (κ × ν)} (h : (d.map Prod.fst).Nodup) : ((set k v d).map Prod.fst).Nodup := by
  induction d with
  | nil => simp [set]
  | cons p d ih =>
    rw [List.map_cons, List.nodup_cons] at h
    unfold set
    split
    · rename_i heq
      rw [List.map_cons, List.nodup_cons, ← heq]
      exact h
    · rename_i hne
      rw [List.map_cons, List.nodup_cons, mem_keys_set]
      refine ⟨?_, ih h.2⟩
      rintro (heq | hmem)
      · exact hne heq
      · exact h.1 hmem

/-- Removing keeps every key once. -/
theorem nodup_erase {k : κ} {d : List (κ × ν)} (h : (d.map Prod.fst).Nodup) : ((erase k d).map Prod.fst).Nodup :=
  (List.filter_sublist.map Prod.fst).nodup h

/-- A key that is set, and the key it takes the place of. -/
structure Move (κ ν : Type*) where
  key : κ
  value : ν
  old : Option κ

/-- Make a move: the old key goes, and the new one is set. -/
def move (d : List (κ × ν)) (m : Move κ ν) : List (κ × ν) :=
  match m.old with
  | none => set m.key m.value d
  | some old => set m.key m.value (erase old d)

theorem get_move (k : κ) (d : List (κ × ν)) (m : Move κ ν) :
    get k (move d m) = if m.key = k then some m.value else if m.old = some k then none else get k d := by
  unfold move
  split
  · rename_i hold
    rw [get_set, hold]
    simp
  · rename_i old hold
    rw [get_set, get_erase, hold]
    simp only [Option.some.injEq, eq_comm]

/-- A key that no move sets and none removes keeps its value. -/
theorem get_moves_of_untouched {k : κ} {ms : List (Move κ ν)} (h : ∀ m ∈ ms, m.key ≠ k ∧ m.old ≠ some k) (d : List (κ × ν)) :
    get k (ms.foldl move d) = get k d := by
  induction ms generalizing d with
  | nil => rfl
  | cons m ms ih =>
    have hm := h m List.mem_cons_self
    rw [List.foldl_cons, ih fun m' hm' => h m' (List.mem_cons_of_mem _ hm'), get_move, if_neg hm.1, if_neg hm.2]

/-- What is found after some moves was set by one of them, or was there and no move touched it. -/
theorem get_moves_cases {k : κ} {v : ν} {ms : List (Move κ ν)} {d : List (κ × ν)} (h : get k (ms.foldl move d) = some v) :
    (∃ m ∈ ms, m.key = k ∧ m.value = v) ∨ (get k d = some v ∧ ∀ m ∈ ms, m.key ≠ k ∧ m.old ≠ some k) := by
  induction ms generalizing d with
  | nil => exact Or.inr ⟨h, fun m hm => by cases hm⟩
  | cons m ms ih =>
    rw [List.foldl_cons] at h
    rcases ih h with ⟨m', hm', hkey, hvalue⟩ | ⟨hget, hrest⟩
    · exact Or.inl ⟨m', List.mem_cons_of_mem _ hm', hkey, hvalue⟩
    · rw [get_move] at hget
      by_cases hkey : m.key = k
      · rw [if_pos hkey] at hget
        exact Or.inl ⟨m, List.mem_cons_self, hkey, Option.some.inj hget⟩
      · rw [if_neg hkey] at hget
        by_cases hold : m.old = some k
        · rw [if_pos hold] at hget
          cases hget
        · rw [if_neg hold] at hget
          refine Or.inr ⟨hget, ?_⟩
          intro m' hm'
          rcases List.mem_cons.1 hm' with rfl | hmem
          · exact ⟨hkey, hold⟩
          · exact hrest m' hmem

/-- A key that no later move touches has the value it was set to. -/
theorem get_moves_of_last {before after : List (Move κ ν)} {m : Move κ ν} {k : κ} (hkey : m.key = k)
    (h : ∀ m' ∈ after, m'.key ≠ k ∧ m'.old ≠ some k) (d : List (κ × ν)) :
    get k ((before ++ m :: after).foldl move d) = some m.value := by
  rw [List.foldl_append, List.foldl_cons, get_moves_of_untouched h, get_move, if_pos hkey]

/-- A key that some move removes and no move sets is not found. -/
theorem get_moves_of_removed {k : κ} {ms : List (Move κ ν)} (hkeys : ∀ m ∈ ms, m.key ≠ k) {m : Move κ ν} (hm : m ∈ ms)
    (hold : m.old = some k) (d : List (κ × ν)) : get k (ms.foldl move d) = none := by
  cases hget : get k (ms.foldl move d) with
  | none => rfl
  | some v =>
    rcases get_moves_cases hget with ⟨m', hm', hkey, _⟩ | ⟨_, huntouched⟩
    · exact absurd hkey (hkeys m' hm')
    · exact absurd hold (huntouched m hm).2

/-- Moves keep every key once. -/
theorem nodup_moves {ms : List (Move κ ν)} {d : List (κ × ν)} (h : (d.map Prod.fst).Nodup) :
    ((ms.foldl move d).map Prod.fst).Nodup := by
  induction ms generalizing d with
  | nil => exact h
  | cons m ms ih =>
    refine ih ?_
    unfold move
    split
    · exact nodup_set h
    · exact nodup_set (nodup_erase h)

end Dict
