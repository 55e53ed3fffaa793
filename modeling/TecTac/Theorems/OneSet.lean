import Mathlib
import TecTac.MfaBackup

/-!
# A code works once, and of the last set only

A candidate is locked before it is compared and used up before its lock is given back, so no code is accepted twice. That only the last set works needs
more: a delete sees the rows that were committed when it began, so a set that is committed while another one is generated, or while the codes are
invalidated, stays; and a call goes by the TOTP key that it has read.
-/

namespace TecTac

namespace MfaBackup

open Machine Account

def Stage.isOpen : Stage → Bool
  | .idle | .ended _ => false
  | _ => true

/-- The codes that are drawn are new. -/
def DrawsNew (s : Account) : Event → Prop
  | .call _ (.generate set) => ∀ code ∈ set.codes, code ∉ s.drawn
  | _ => True

/-- A key that is set was not set before; a call that deletes all rows, when it commits, has seen them all; a call that consumes, when it decides, has the
key of the user. -/
def KeepsUp (s : Account) : Event → Prop
  | .changeKey key => key = s.key ∨ key = "" ∨ key ∉ s.keys
  | .advance c =>
    match (s.calls c).stage with
    | .committing _ => ∀ row ∈ s.rows, row.id ∈ (s.calls c).deletes
    | .locking rest taken => rest = [] ∨ taken.length = backupCodeCount → (s.calls c).key = s.key
    | _ => True
  | _ => True

def StepOk (s : Account) (e : Event) : Prop := DrawsNew s e ∧ KeepsUp s e

/-- Where a call decides on a code, it accepts a live one only, and it does accept it, if it was live when the candidates were selected. -/
def Faithful (s : Account) (e : Event) : Prop :=
  ∀ c code rest taken accepted, e = .advance c → (s.calls c).kind = .consume code → (s.calls c).stage = .locking rest taken →
    ((s.step e).calls c).stage = .ended accepted → (accepted = true → code ∈ s.live) ∧ (code ∈ s.live → (s.calls c).seen = true → accepted = true)

namespace OneSetAux

variable {s : Account}

/-- The set that an open call generates. -/
def Call.pending (call : Call) : List Code :=
  match call.kind with
  | .generate set => if call.stage.isOpen then set.codes else []
  | _ => []

/-- The rows that an open call deletes. -/
def Call.gone (call : Call) : List Nat := if call.stage.isOpen then call.deletes else []

/-- The candidates that a call has locked, and those that it has not come to. -/
def Call.taken (call : Call) : List Nat :=
  match call.stage with
  | .locking _ taken => taken
  | _ => []

def Call.rest (call : Call) : List Nat :=
  match call.stage with
  | .locking rest _ => rest
  | _ => []

/-- The rows, the locks, and the codes that were accepted. -/
structure Rows (s : Account) : Prop where
  ids : (s.rows.map Row.id).Nodup
  known : ∀ row ∈ s.rows, row.id < s.nextId
  codes : (s.rows.map Row.code).Nodup
  committed : ∀ row ∈ s.rows, row.code ∈ s.committed
  drawn : ∀ code ∈ s.committed, code ∈ s.drawn
  pending : ∀ c, ∀ code ∈ Call.pending (s.calls c), code ∈ s.drawn ∧ code ∉ s.committed
  apart : ∀ c d, c ≠ d → ∀ code ∈ Call.pending (s.calls c), code ∉ Call.pending (s.calls d)
  gone : ∀ c, ∀ id ∈ Call.gone (s.calls c), (id, c) ∈ s.locks ∧ id < s.nextId ∧ ∀ row ∈ s.rows, row.id = id → doomed (s.calls c) row = true
  taken : ∀ c, ∀ id ∈ Call.taken (s.calls c), (id, c) ∈ s.locks ∧ ∃ row ∈ s.rows, row.id = id ∧ usable (s.calls c).key row = true
  listed : ∀ c, (Call.taken (s.calls c) ++ Call.rest (s.calls c)).Nodup
  alone : ∀ id c d, (id, c) ∈ s.locks → (id, d) ∈ s.locks → c = d
  spent : ∀ code ∈ s.accepted, code ∈ s.committed ∧ ∀ row ∈ s.rows, row.code = code → row.used = true
  once : s.accepted.Nodup

theorem rows_fresh (sso : Bool) (key : Key) : Rows (Account.fresh sso key) := by
  constructor <;> simp [Account.fresh, Call.pending, Call.gone, Call.taken, Call.rest, Stage.isOpen]

/-- A step of a call that leaves the rows. -/
theorem Rows.move (h : Rows s) {t : Account} {c : Nat} (hrows : t.rows = s.rows) (hid : t.nextId = s.nextId) (hcommitted : t.committed = s.committed)
    (haccepted : t.accepted = s.accepted) (hdrawn : ∀ code ∈ s.drawn, code ∈ t.drawn) (hother : ∀ d, d ≠ c → t.calls d = s.calls d)
    (hkept : ∀ id d, d ≠ c → (id, d) ∈ s.locks → (id, d) ∈ t.locks) (halone : ∀ id d e, (id, d) ∈ t.locks → (id, e) ∈ t.locks → d = e)
    (hpending : ∀ code ∈ Call.pending (t.calls c), code ∈ t.drawn ∧ code ∉ s.committed ∧ ∀ d, d ≠ c → code ∉ Call.pending (s.calls d))
    (hgone : ∀ id ∈ Call.gone (t.calls c), (id, c) ∈ t.locks ∧ id < s.nextId ∧ ∀ row ∈ s.rows, row.id = id → doomed (t.calls c) row = true)
    (htaken : ∀ id ∈ Call.taken (t.calls c), (id, c) ∈ t.locks ∧ ∃ row ∈ s.rows, row.id = id ∧ usable (t.calls c).key row = true)
    (hlisted : (Call.taken (t.calls c) ++ Call.rest (t.calls c)).Nodup) : Rows t := by
  obtain ⟨ids, known, codes, committed, drawn, pending, apart, gone, taken, listed, alone, spent, once⟩ := h
  constructor <;> try simp only [hrows, hid, hcommitted, haccepted]
  case apart =>
    intro d e hne code hd he
    by_cases hdc : d = c
    · subst hdc
      rw [hother e (Ne.symm hne)] at he
      exact (hpending code hd).2.2 e (Ne.symm hne) he
    · rw [hother d hdc] at hd
      by_cases hec : e = c
      · subst hec
        exact (hpending code he).2.2 d hdc hd
      · rw [hother e hec] at he
        exact apart d e hne code hd he
  all_goals grind -ring -linarith

@[simp] theorem calls_setCall (s : Account) (c d : Nat) (call : Call) : (s.setCall c call).calls d = if d = c then call else s.calls d :=
  Function.update_apply ..

@[simp] theorem calls_goTo (s : Account) (c d : Nat) (stage : Stage) :
    (s.goTo c stage).calls d = if d = c then { s.calls c with stage := stage } else s.calls d :=
  calls_setCall ..

@[simp] theorem calls_finish (s : Account) (c d : Nat) (accepted : Bool) :
    (s.finish c accepted).calls d = if d = c then { s.calls c with stage := .ended accepted } else s.calls d :=
  calls_goTo ..

/-- A call goes on with what it had, to a stage that has no candidates. -/
theorem Rows.goTo (h : Rows s) {c : Nat} {stage : Stage} (hopen : (s.calls c).stage.isOpen = true) (hstage : stage.isOpen = true)
    (hplain : ∀ rest taken, stage ≠ .locking rest taken) : Rows (s.goTo c stage) := by
  have hcall : (s.goTo c stage).calls c = { s.calls c with stage := stage } := by simp
  have hpending : Call.pending ((s.goTo c stage).calls c) = Call.pending (s.calls c) := by simp [hcall, Call.pending, hopen, hstage]
  have hgone : Call.gone ((s.goTo c stage).calls c) = Call.gone (s.calls c) := by simp [hcall, Call.gone, hopen, hstage]
  have htaken : Call.taken ((s.goTo c stage).calls c) = [] ∧ Call.rest ((s.goTo c stage).calls c) = [] := by
    rw [hcall]
    cases stage <;> simp_all [Call.taken, Call.rest]
  refine h.move (c := c) rfl rfl rfl rfl (fun _ => id) (fun d hd => by simp [hd]) (fun _ _ _ => id) h.alone ?_ ?_ ?_ ?_
  · rw [hpending]
    exact fun code hcode => ⟨(h.pending c code hcode).1, (h.pending c code hcode).2, fun d hd => h.apart c d (Ne.symm hd) code hcode⟩
  · rw [hgone, hcall]
    exact h.gone c
  · rw [htaken.1]
    exact nofun
  · rw [htaken.1, htaken.2]
    exact List.nodup_nil

theorem pending_closed {call : Call} (h : call.stage.isOpen = false) : Call.pending call = [] := by
  unfold Call.pending
  split <;> simp [h]

/-- A call ends without a change. -/
theorem Rows.finish (h : Rows s) (c : Nat) (accepted : Bool) : Rows (s.finish c accepted) := by
  have hcall : (s.finish c accepted).calls c = { s.calls c with stage := .ended accepted } := by simp
  refine h.move (c := c) rfl rfl rfl rfl (fun _ => id) (fun d hd => by simp [hd]) (fun id d hd hlock => ?_)
    (fun id d e hd he => ?_) ?_ ?_ ?_ ?_
  · exact List.mem_filter.mpr ⟨hlock, by simpa using hd⟩
  · exact h.alone id d e (List.mem_filter.mp hd).1 (List.mem_filter.mp he).1
  · rw [pending_closed (by rw [hcall]; rfl)]
    exact fun _ hcode => by cases hcode
  all_goals
    rw [hcall]
    simp [Call.gone, Call.taken, Call.rest, Stage.isOpen]

theorem Rows.begin (h : Rows s) {c : Nat} {kind : Kind} (hnew : DrawsNew s (.call c kind)) : Rows (s.begin c kind) := by
  have hplain : ∀ call : Call, Call.pending call = [] → call.deletes = [] → (∀ rest taken, call.stage ≠ .locking rest taken) → Rows (s.setCall c call) := by
    intro call hpending hdeletes hstage
    have hcall : (s.setCall c call).calls c = call := by simp
    have htaken : Call.taken call = [] ∧ Call.rest call = [] := by
      unfold Call.taken Call.rest
      split <;> simp_all
    refine h.move (c := c) rfl rfl rfl rfl (fun _ => id) (fun d hd => by simp [hd]) (fun _ _ _ => id) h.alone ?_ ?_ ?_ ?_ <;>
      simp [hcall, hpending, htaken, Call.gone, hdeletes]
  unfold Account.begin
  split
  · rename_i set
    split
    · exact hplain _ (by simp [Call.pending, Stage.isOpen]) rfl nofun
    · generalize hnext : Account.setCall _ _ _ = t
      have hcall : t.calls c = ⟨.generate set, s.key, .looking, [], false⟩ := by simp [← hnext]
      have hdrawn : t.drawn = set.codes ++ s.drawn := by rw [← hnext]; rfl
      refine h.move (t := t) (c := c) (by rw [← hnext]; rfl) (by rw [← hnext]; rfl) (by rw [← hnext]; rfl) (by rw [← hnext]; rfl) ?_ ?_ ?_ ?_ ?_ ?_ ?_ ?_
      · simp only [hdrawn]
        exact fun code hcode => List.mem_append_right _ hcode
      · intro d hd
        simp [← hnext, hd]
      · rw [← hnext]
        exact fun _ _ _ hlock => hlock
      · rw [← hnext]
        exact h.alone
      · intro code hcode
        have hcode : code ∈ set.codes := by simpa [hcall, Call.pending, Stage.isOpen] using hcode
        refine ⟨by simp [hdrawn, hcode], fun hmem => hnew code hcode (h.drawn code hmem), fun d _ hpending => hnew code hcode (h.pending d code hpending).1⟩
      all_goals simp [hcall, Call.gone, Call.taken, Call.rest, Stage.isOpen]
  · exact hplain _ rfl rfl nofun
  · exact hplain _ rfl rfl nofun

/-- The row with an id. -/
theorem row?_some {id : Nat} {row : Row} (h : s.row? id = some row) : row ∈ s.rows ∧ row.id = id :=
  ⟨List.mem_of_find?_eq_some h, by simpa using List.find?_some h⟩

theorem Rows.eq_of_id (h : Rows s) {row row' : Row} (hrow : row ∈ s.rows) (hrow' : row' ∈ s.rows) (hid : row.id = row'.id) : row = row' :=
  List.inj_on_of_nodup_map h.ids hrow hrow' hid

theorem Rows.eq_of_code (h : Rows s) {row row' : Row} (hrow : row ∈ s.rows) (hrow' : row' ∈ s.rows) (hcode : row.code = row'.code) : row = row' :=
  List.inj_on_of_nodup_map h.codes hrow hrow' hcode

theorem Rows.row?_self (h : Rows s) {row : Row} (hrow : row ∈ s.rows) : s.row? row.id = some row := by
  cases hfind : s.row? row.id with
  | some found => rw [h.eq_of_id hrow (row?_some hfind).1 (row?_some hfind).2.symm]
  | none =>
    have := List.find?_eq_none.mp hfind row hrow
    simp at this

/-- A row that no other call has locked is locked. -/
theorem Rows.lock_alone (h : Rows s) {c id : Nat} (hfree : s.blocked c id = false) :
    ∀ i d e, (i, d) ∈ (id, c) :: s.locks → (i, e) ∈ (id, c) :: s.locks → d = e := by
  have hfree : ∀ d, (id, d) ∈ s.locks → d = c := by
    intro d hd
    by_contra hne
    have : s.blocked c id = true := List.any_eq_true.mpr ⟨(id, d), hd, by simpa using hne⟩
    rw [hfree] at this
    cases this
  have halone := h.alone
  grind -ring -linarith

theorem Rows.deleteNext (h : Rows s) {c : Nat} {rest : List Nat} (hstage : (s.calls c).stage = .deleting rest) : Rows (s.deleteNext c rest) := by
  have hopen : (s.calls c).stage.isOpen = true := by rw [hstage]; rfl
  unfold Account.deleteNext
  split
  · refine h.goTo hopen ?_ ?_
    · unfold afterDelete
      split <;> rfl
    · unfold afterDelete
      split <;> exact nofun
  · rename_i id rest
    split
    · exact h
    · rename_i hfree
      split
      · rename_i hrow
        obtain ⟨row, hfind, hdoomed⟩ : ∃ row, s.row? id = some row ∧ doomed (s.calls c) row = true := by
          cases hfind : s.row? id with
          | none => simp [hfind] at hrow
          | some row => exact ⟨row, rfl, by simpa [hfind] using hrow⟩
        generalize hnext : Account.setCall _ _ _ = t
        have hcall : t.calls c = { s.calls c with stage := .deleting rest, deletes := id :: (s.calls c).deletes } := by simp [← hnext]
        have hlocks : t.locks = (id, c) :: s.locks := by rw [← hnext]; rfl
        refine h.move (t := t) (c := c) (by rw [← hnext]; rfl) (by rw [← hnext]; rfl) (by rw [← hnext]; rfl) (by rw [← hnext]; rfl) ?_ ?_ ?_ ?_ ?_ ?_ ?_ ?_
        · rw [← hnext]
          exact fun _ hcode => hcode
        · intro d hd
          simp [← hnext, hd]
        · rw [hlocks]
          exact fun _ _ _ hlock => List.mem_cons_of_mem _ hlock
        · rw [hlocks]
          exact h.lock_alone (by simpa using hfree)
        · have hpending : Call.pending (t.calls c) = Call.pending (s.calls c) := by simp [hcall, Call.pending, hstage, Stage.isOpen]
          have hdrawn : t.drawn = s.drawn := by rw [← hnext]; rfl
          rw [hpending, hdrawn]
          exact fun code hcode => ⟨(h.pending c code hcode).1, (h.pending c code hcode).2, fun d hd => h.apart c d (Ne.symm hd) code hcode⟩
        · have hgone : Call.gone (t.calls c) = id :: Call.gone (s.calls c) := by simp [hcall, Call.gone, hstage, Stage.isOpen]
          have hdoom : doomed (t.calls c) = doomed (s.calls c) := by
            funext r
            simp [hcall, doomed]
          rw [hgone, hlocks, hdoom]
          intro i hi
          rcases List.mem_cons.mp hi with rfl | hi
          · refine ⟨List.mem_cons_self, (row?_some hfind).2 ▸ h.known row (row?_some hfind).1, fun r hr hid => ?_⟩
            obtain rfl := h.eq_of_id hr (row?_some hfind).1 (hid.trans (row?_some hfind).2.symm)
            exact hdoomed
          · exact ⟨List.mem_cons_of_mem _ (h.gone c i hi).1, (h.gone c i hi).2⟩
        all_goals simp [hcall, Call.taken, Call.rest]
      · exact h.goTo hopen rfl nofun

theorem Rows.select (h : Rows s) {c : Nat} (hstage : (s.calls c).stage = .selecting) : Rows (s.select c) := by
  unfold Account.select
  split
  · rename_i code hkind
    generalize hfound : (if (s.calls c).key = "" then _ else _ : List Nat) = found
    have hnodup : found.Nodup := by
      rw [← hfound]
      split
      · exact List.nodup_nil
      · exact ((List.perm_insertionSort _ _).map Row.id).nodup_iff.mpr (h.ids.sublist (List.filter_sublist.map _))
    generalize hseen : (s.live.contains code && (s.calls c).key == s.key) = seen
    dsimp only
    generalize hnext : Account.setCall _ _ _ = t
    have hcall : t.calls c = { s.calls c with stage := .locking found [], seen := seen } := by simp [← hnext]
    refine h.move (t := t) (c := c) (by rw [← hnext]; rfl) (by rw [← hnext]; rfl) (by rw [← hnext]; rfl) (by rw [← hnext]; rfl) ?_ ?_ ?_ ?_ ?_ ?_ ?_ ?_
    · rw [← hnext]
      exact fun _ hcode => hcode
    · intro d hd
      simp [← hnext, hd]
    · rw [← hnext]
      exact fun _ _ _ hlock => hlock
    · rw [← hnext]
      exact h.alone
    · simp [hcall, Call.pending, hkind]
    · have hgone : Call.gone (t.calls c) = Call.gone (s.calls c) := by simp [hcall, Call.gone, hstage, Stage.isOpen]
      have hdoom : doomed (t.calls c) = doomed (s.calls c) := by
        funext r
        simp [hcall, doomed]
      have hlocks : t.locks = s.locks := by rw [← hnext]; rfl
      rw [hgone, hlocks, hdoom]
      exact h.gone c
    · simp [hcall, Call.taken]
    · simpa [hcall, Call.taken, Call.rest] using hnodup
  · exact h

/-- The select comes to a row: it is locked, or passed over. -/
theorem Rows.lockNext (h : Rows s) {c id : Nat} {rest taken : List Nat} {code : Code} (hkind : (s.calls c).kind = .consume code)
    (hstage : (s.calls c).stage = .locking (id :: rest) taken) :
    (s.blocked c id = false → (s.row? id).any (usable (s.calls c).key) = true →
      Rows ({ s with locks := (id, c) :: s.locks }.goTo c (.locking rest (taken ++ [id])))) ∧ Rows (s.goTo c (.locking rest taken)) := by
  have htaken : Call.taken (s.calls c) = taken ∧ Call.rest (s.calls c) = id :: rest := by simp [Call.taken, Call.rest, hstage]
  have hlisted := h.listed c
  rw [htaken.1, htaken.2] at hlisted
  have hcalls : ∀ (r : Account) stage, r.calls = s.calls → (r.goTo c stage).calls c = { s.calls c with stage := stage } := by
    intro r stage hr
    simp [hr]
  have hgone : ∀ rest taken, Call.gone { s.calls c with stage := .locking rest taken } = Call.gone (s.calls c) := by
    intro rest taken
    simp [Call.gone, hstage, Stage.isOpen]
  refine ⟨fun hfree hrow => ?_, ?_⟩
  · obtain ⟨row, hfind, husable⟩ : ∃ row, s.row? id = some row ∧ usable (s.calls c).key row = true := by
      cases hfind : s.row? id with
      | none => simp [hfind] at hrow
      | some row => exact ⟨row, rfl, by simpa [hfind] using hrow⟩
    have hcall := hcalls { s with locks := (id, c) :: s.locks } (.locking rest (taken ++ [id])) rfl
    refine h.move (c := c) rfl rfl rfl rfl (fun _ hcode => hcode) (fun d hd => by simp [hd])
      (fun _ _ _ hlock => List.mem_cons_of_mem _ hlock) (h.lock_alone hfree) ?_ ?_ ?_ ?_ <;> rw [hcall]
    · simp [Call.pending, hkind]
    · rw [hgone]
      exact fun i hi => ⟨List.mem_cons_of_mem _ (h.gone c i hi).1, (h.gone c i hi).2⟩
    · intro i hi
      rcases List.mem_append.mp hi with hi | hi
      · obtain ⟨hlock, hrow⟩ := h.taken c i (by rw [htaken.1]; exact hi)
        exact ⟨List.mem_cons_of_mem _ hlock, hrow⟩
      · rw [List.mem_singleton.mp hi]
        exact ⟨List.mem_cons_self, row, (row?_some hfind).1, (row?_some hfind).2, husable⟩
    · simpa [Call.taken, Call.rest] using hlisted
  · have hcall := hcalls s (.locking rest taken) rfl
    refine h.move (c := c) rfl rfl rfl rfl (fun _ hcode => hcode) (fun d hd => by simp [hd])
      (fun _ _ _ hlock => hlock) h.alone ?_ ?_ ?_ ?_ <;> rw [hcall]
    · simp [Call.pending, hkind]
    · rw [hgone]
      exact h.gone c
    · intro i hi
      exact h.taken c i (by rw [htaken.1]; exact hi)
    · refine hlisted.sublist ?_
      exact (List.Sublist.refl taken).append (List.sublist_cons_self id rest)

/-! ## Commits -/

theorem mem_commitRows {deletes : List Nat} {matched : Option Nat} {new : List Row} {row' : Row} :
    row' ∈ s.commitRows deletes matched new ↔
      (∃ row ∈ s.rows, row.id ∉ deletes ∧ row' = if some row.id = matched then { row with used := true } else row) ∨ row' ∈ new := by
  simp only [commitRows, List.mem_append, List.mem_map, List.mem_filter, Bool.not_eq_true', List.contains_eq_mem, decide_eq_false_iff_not]
  constructor
  · rintro (⟨row, ⟨hrow, hdel⟩, rfl⟩ | hnew)
    · exact .inl ⟨row, hrow, hdel, rfl⟩
    · exact .inr hnew
  · rintro (⟨row, hrow, hdel, rfl⟩ | hnew)
    · exact .inl ⟨row, ⟨hrow, hdel⟩, rfl⟩
    · exact .inr hnew

theorem map_commitRows {β : Type} (f : Row → β) (hf : ∀ row used, f { row with used := used } = f row) (deletes : List Nat) (matched : Option Nat)
    (new : List Row) : (s.commitRows deletes matched new).map f = ((s.rows.filter fun row => !deletes.contains row.id).map f) ++ new.map f := by
  rw [commitRows, List.map_append, List.map_map]
  congr 1
  refine List.map_congr_left fun row _ => ?_
  simp only [Function.comp]
  split
  · exact hf row true
  · rfl

/-- A transaction commits. -/
theorem Rows.commit (h : Rows s) {t : Account} {c : Nat} {b : Bool} {matched : Option Nat} {new : List Row} (hopen : (s.calls c).stage.isOpen = true)
    (hrows : t.rows = s.commitRows (s.calls c).deletes matched new) (hlocks : t.locks = s.locks.filter fun lock => lock.2 != c)
    (hcalls : ∀ d, t.calls d = if d = c then { s.calls c with stage := .ended b } else s.calls d)
    (hmatched : ∀ id, matched = some id → (id, c) ∈ s.locks) (hids : (new.map Row.id).Nodup) (hid : ∀ row ∈ new, s.nextId ≤ row.id ∧ row.id < t.nextId)
    (hnext : s.nextId ≤ t.nextId) (hcodes : (new.map Row.code).Nodup) (hcode : ∀ row ∈ new, row.code ∈ t.committed ∧ row.code ∉ s.committed)
    (hcommitted : ∀ code, code ∈ t.committed ↔ code ∈ s.committed ∨ code ∈ t.committed ∧ code ∈ Call.pending (s.calls c)) (hdrawn : t.drawn = s.drawn)
    (honce : t.accepted.Nodup)
    (haccepted : ∀ code ∈ t.accepted, code ∈ s.accepted ∨ ∃ row ∈ s.rows, row.code = code ∧ some row.id = matched) : Rows t := by
  have hgone : ∀ id ∈ (s.calls c).deletes, (id, c) ∈ s.locks := fun id hid => (h.gone c id (by simpa [Call.gone, hopen] using hid)).1
  have hself : t.calls c = { s.calls c with stage := .ended b } := by simp [hcalls]
  have hpending : Call.pending (t.calls c) = [] := pending_closed (by rw [hself]; rfl)
  have hclosed : Call.gone (t.calls c) = [] ∧ Call.taken (t.calls c) = [] ∧ Call.rest (t.calls c) = [] := by
    simp [hself, Call.gone, Call.taken, Call.rest, Stage.isOpen]
  have hother : ∀ d, d ≠ c → t.calls d = s.calls d := fun d hd => by simp [hcalls, hd]
  have hlock : ∀ id d, (id, d) ∈ t.locks ↔ (id, d) ∈ s.locks ∧ d ≠ c := fun id d => by simp [hlocks]
  have hmem : ∀ row', row' ∈ t.rows ↔
      (∃ row ∈ s.rows, row.id ∉ (s.calls c).deletes ∧ row' = if some row.id = matched then { row with used := true } else row) ∨ row' ∈ new := by
    intro row'
    rw [hrows]
    exact mem_commitRows
  have hsame : ∀ row, (if some row.id = matched then { row with used := true } else row : Row).id = row.id ∧
      (if some row.id = matched then { row with used := true } else row : Row).code = row.code ∧
      (if some row.id = matched then { row with used := true } else row : Row).fingerprint = row.fingerprint := by
    intro row
    split <;> simp
  have hcodeEq := fun r r' (hr : r ∈ s.rows) (hr' : r' ∈ s.rows) => h.eq_of_code hr hr'
  obtain ⟨ids, known, codes, committed, drawn, pending, apart, gone, taken, listed, alone, spent, once⟩ := h
  constructor
  case ids =>
    rw [hrows, map_commitRows _ fun _ _ => rfl]
    refine List.nodup_append.mpr ⟨ids.sublist (List.filter_sublist.map _), hids, fun a ha b hb => ?_⟩
    obtain ⟨row, hrow, rfl⟩ := List.mem_map.mp ha
    obtain ⟨row', hrow', rfl⟩ := List.mem_map.mp hb
    have := known row (List.mem_of_mem_filter hrow)
    have := (hid row' hrow').1
    omega
  case known =>
    intro row' hrow'
    rcases (hmem row').mp hrow' with ⟨row, hrow, -, rfl⟩ | hnew
    · rw [(hsame row).1]
      exact Nat.lt_of_lt_of_le (known row hrow) hnext
    · exact (hid row' hnew).2
  case codes =>
    rw [hrows, map_commitRows _ fun _ _ => rfl]
    refine List.nodup_append.mpr ⟨codes.sublist (List.filter_sublist.map _), hcodes, fun a ha b hb => ?_⟩
    obtain ⟨row, hrow, rfl⟩ := List.mem_map.mp ha
    obtain ⟨row', hrow', rfl⟩ := List.mem_map.mp hb
    exact fun heq => (hcode row' hrow').2 (heq ▸ committed row (List.mem_of_mem_filter hrow))
  case committed =>
    intro row' hrow'
    rcases (hmem row').mp hrow' with ⟨row, hrow, -, rfl⟩ | hnew
    · rw [(hsame row).2.1]
      exact (hcommitted _).mpr (.inl (committed row hrow))
    · exact (hcode row' hnew).1
  case drawn =>
    intro code hc
    rw [hdrawn]
    rcases (hcommitted code).mp hc with hc | ⟨-, hc⟩
    · exact drawn code hc
    · exact (pending c code hc).1
  case pending =>
    intro d code hd
    by_cases hdc : d = c
    · subst hdc
      rw [hpending] at hd
      cases hd
    · rw [hother d hdc] at hd
      refine ⟨hdrawn ▸ (pending d code hd).1, fun hmem => ?_⟩
      rcases (hcommitted code).mp hmem with hmem | ⟨-, hmem⟩
      · exact (pending d code hd).2 hmem
      · exact apart d c hdc code hd hmem
  case apart => grind -ring -linarith
  case gone =>
    intro d id hd
    by_cases hdc : d = c
    · subst hdc
      rw [hclosed.1] at hd
      cases hd
    · rw [hother d hdc] at hd ⊢
      obtain ⟨hmine, hpast, hdoomed⟩ := gone d id hd
      refine ⟨(hlock id d).mpr ⟨hmine, hdc⟩, Nat.lt_of_lt_of_le hpast hnext, fun row' hrow' hid' => ?_⟩
      rcases (hmem row').mp hrow' with ⟨row, hrow, -, rfl⟩ | hnew
      · have := hdoomed row hrow ((hsame row).1.symm.trans hid')
        unfold doomed at this ⊢
        split
        · rfl
        · rfl
        · rename_i hkind
          rw [hkind] at this
          simpa [(hsame row).2.2] using this
      · have := (hid row' hnew).1
        omega
  case taken =>
    intro d id hd
    by_cases hdc : d = c
    · subst hdc
      rw [hclosed.2.1] at hd
      cases hd
    · rw [hother d hdc] at hd ⊢
      obtain ⟨hmine, row, hrow, rfl, husable⟩ := taken d id hd
      refine ⟨(hlock _ d).mpr ⟨hmine, hdc⟩, row, (hmem row).mpr (.inl ⟨row, hrow, fun hdel => ?_, ?_⟩), rfl, husable⟩
      · exact hdc (alone row.id d c hmine (hgone row.id hdel))
      · rw [if_neg fun heq => hdc (alone row.id d c hmine (hmatched row.id heq.symm))]
  case listed =>
    intro d
    by_cases hdc : d = c
    · subst hdc
      simp [hclosed]
    · rw [hother d hdc]
      exact listed d
  case alone =>
    intro id d e hd he
    exact alone id d e ((hlock id d).mp hd).1 ((hlock id e).mp he).1
  case spent =>
    intro code hacc
    rcases haccepted code hacc with hacc | ⟨found, hfound, rfl, hfoundid⟩
    · refine ⟨(hcommitted code).mpr (.inl (spent code hacc).1), fun row' hrow' hcode' => ?_⟩
      rcases (hmem row').mp hrow' with ⟨row, hrow, -, rfl⟩ | hnew
      · have hused := (spent code hacc).2 row hrow ((hsame row).2.1.symm.trans hcode')
        split
        · rfl
        · exact hused
      · exact absurd (hcode' ▸ (spent code hacc).1) (hcode row' hnew).2
    · refine ⟨(hcommitted _).mpr (.inl (committed found hfound)), fun row' hrow' hcode' => ?_⟩
      rcases (hmem row').mp hrow' with ⟨row, hrow, -, rfl⟩ | hnew
      · obtain rfl := hcodeEq row found hrow hfound ((hsame row).2.1.symm.trans hcode')
        rw [if_pos hfoundid]
      · exact absurd (hcode' ▸ committed found hfound) (hcode row' hnew).2
  case once => exact honce

theorem map_code_newRows (key : Key) (createdAt id : Nat) (codes : List Code) : (newRows key createdAt id codes).map Row.code = codes := by
  induction codes generalizing id with
  | nil => rfl
  | cons code codes ih => simp [newRows, ih]

theorem map_id_newRows (key : Key) (createdAt id : Nat) (codes : List Code) :
    (newRows key createdAt id codes).map Row.id = List.range' id codes.length := by
  induction codes generalizing id with
  | nil => rfl
  | cons code codes ih => simp [newRows, ih, List.range'_succ]

theorem newRows_spec {key : Key} {createdAt id : Nat} {codes : List Code} {row : Row} (h : row ∈ newRows key createdAt id codes) :
    row.code ∈ codes ∧ row.fingerprint = key ∧ row.used = false ∧ id ≤ row.id ∧ row.id < id + codes.length := by
  induction codes generalizing id with
  | nil => cases h
  | cons code codes ih =>
    rcases List.mem_cons.mp h with rfl | h
    · simp
    · obtain ⟨hcode, hkey, hused, hge, hlt⟩ := ih h
      refine ⟨List.mem_cons_of_mem _ hcode, hkey, hused, by omega, ?_⟩
      simp only [List.length_cons]
      omega

theorem Rows.commitAll (h : Rows s) {c createdAt : Nat} (hstage : (s.calls c).stage = .committing createdAt) : Rows (s.commit c createdAt) := by
  have hopen : (s.calls c).stage.isOpen = true := by rw [hstage]; rfl
  unfold Account.commit
  dsimp only
  split
  · rename_i set hkind
    have hpending : Call.pending (s.calls c) = set.codes := by simp [Call.pending, hkind, hopen]
    refine h.commit (c := c) (b := false) hopen rfl rfl (fun d => calls_setCall ..) nofun ?_ (fun row hrow => ?_) (Nat.le_add_right ..) ?_
      (fun row hrow => ?_) (fun code => ?_) rfl h.once fun code hcode => .inl hcode
    · rw [map_id_newRows]
      exact List.nodup_range'
    · obtain ⟨-, -, -, hge, hlt⟩ := newRows_spec hrow
      rw [set.count] at hlt
      exact ⟨hge, hlt⟩
    · rw [map_code_newRows]
      exact set.distinct
    · have hcode := (newRows_spec hrow).1
      exact ⟨List.mem_append_left _ hcode, (h.pending c row.code (by rwa [hpending])).2⟩
    · rw [hpending]
      show code ∈ set.codes ++ s.committed ↔ code ∈ s.committed ∨ code ∈ set.codes ++ s.committed ∧ code ∈ set.codes
      rw [List.mem_append]
      tauto
  · refine h.commit (c := c) (b := false) hopen rfl rfl (fun d => calls_setCall ..) nofun List.nodup_nil nofun (Nat.le_refl _)
      List.nodup_nil nofun (fun code => ?_) rfl h.once fun code hcode => .inl hcode
    exact ⟨.inl, fun hor => hor.elim id And.left⟩
  · exact h

/-- The candidate that has the code, where there is one. -/
theorem Rows.matched (h : Rows s) {c : Nat} {code : Code} {taken : List Nat} {id : Nat} (htaken : Call.taken (s.calls c) = taken)
    (hfind : taken.find? (fun id => (s.row? id).any (·.code == code) && code.length == backupCodeLength) = some id) :
    (id, c) ∈ s.locks ∧ id ∈ taken ∧ ∃ row ∈ s.rows, row.id = id ∧ row.code = code ∧ usable (s.calls c).key row = true := by
  have hmem := List.mem_of_find?_eq_some hfind
  obtain ⟨hlock, row, hrow, hid, husable⟩ := h.taken c id (by rwa [htaken])
  have hcode := List.find?_some hfind
  refine ⟨hlock, hmem, row, hrow, hid, ?_, husable⟩
  cases hfound : s.row? id with
  | none => simp [hfound] at hcode
  | some found =>
    obtain rfl := h.eq_of_id hrow (row?_some hfound).1 (hid.trans (row?_some hfound).2.symm)
    simp only [hfound, Option.any_some, Bool.and_eq_true, beq_iff_eq] at hcode
    exact hcode.1

theorem Rows.decide (h : Rows s) {c : Nat} {code : Code} {rest taken : List Nat} (hstage : (s.calls c).stage = .locking rest taken) :
    Rows (s.decide c code taken) := by
  have hopen : (s.calls c).stage.isOpen = true := by rw [hstage]; rfl
  have htaken : Call.taken (s.calls c) = taken := by simp [Call.taken, hstage]
  unfold Account.decide
  dsimp only
  split
  · rename_i id hfind
    obtain ⟨hlock, -, row, hrow, hid, hcode, husable⟩ := h.matched htaken hfind
    refine h.commit (c := c) (b := true) hopen rfl rfl (fun d => calls_setCall ..) (fun i hi => ?_) List.nodup_nil nofun
      (Nat.le_refl _) List.nodup_nil nofun (fun code => ⟨.inl, fun hor => hor.elim (·) And.left⟩) rfl ?_ fun code' hcode' => ?_
    · obtain rfl := Option.some.inj hi
      exact hlock
    · -- the row is unused, so its code was not accepted before
      refine List.nodup_cons.mpr ⟨fun hspent => ?_, h.once⟩
      have hused := (h.spent code hspent).2 row hrow hcode
      simp [usable, hused] at husable
    · rcases List.mem_cons.mp hcode' with rfl | hcode'
      · exact .inr ⟨row, hrow, hcode, by rw [hid]⟩
      · exact .inl hcode'
  · exact h.commit (c := c) (b := false) hopen rfl rfl (fun d => calls_setCall ..) nofun List.nodup_nil nofun
      (Nat.le_refl _) List.nodup_nil nofun (fun code => ⟨.inl, fun hor => hor.elim (·) And.left⟩) rfl h.once fun code hcode => .inl hcode

theorem Rows.advance (h : Rows s) (c : Nat) : Rows (s.advance c) := by
  have hafter : (afterDelete (s.calls c)).isOpen = true ∧ ∀ rest taken, afterDelete (s.calls c) ≠ .locking rest taken := by
    unfold afterDelete
    split <;> exact ⟨rfl, nofun⟩
  unfold Account.advance
  split
  · rename_i hstage
    refine h.goTo (by rw [hstage]; rfl) ?_ ?_
    · split
      · rfl
      · exact hafter.1
    · split
      · exact nofun
      · exact hafter.2
  · rename_i hstage
    exact h.goTo (by rw [hstage]; rfl) rfl nofun
  · exact h.deleteNext ‹_›
  · exact h.select ‹_›
  · rename_i rest taken hstage
    unfold Account.lockNext
    split
    · rename_i code hkind
      split
      · exact h.decide hstage
      · split
        · exact h.decide hstage
        · rename_i id rest
          split
          · exact h
          · rename_i hfree
            split
            · exact (h.lockNext hkind hstage).1 (by simpa using hfree) ‹_›
            · exact (h.lockNext hkind hstage).2
    · exact h
  · rename_i hstage
    have hclock : Rows { s with clock := s.clock + 1 } := by
      obtain ⟨ids, known, codes, committed, drawn, pending, apart, gone, taken, listed, alone, spent, once⟩ := h
      exact ⟨ids, known, codes, committed, drawn, pending, apart, gone, taken, listed, alone, spent, once⟩
    exact hclock.goTo (by rw [hstage]; rfl) rfl nofun
  · exact h.commitAll ‹_›
  all_goals exact h

theorem Rows.step (h : Rows s) {e : Event} (hnew : DrawsNew s e) : Rows (s.step e) := by
  cases e with
  | changeKey key =>
    simp only [Account.step, Account.changeKey]
    split
    · exact h
    · obtain ⟨ids, known, codes, committed, drawn, pending, apart, gone, taken, listed, alone, spent, once⟩ := h
      exact ⟨ids, known, codes, committed, drawn, pending, apart, gone, taken, listed, alone, spent, once⟩
  | call c kind =>
    simp only [Account.step]
    split
    · exact h.begin hnew
    · exact h
  | advance c => exact h.advance c
  | fail c =>
    simp only [Account.step]
    split
    · exact h
    · exact h
    · exact h.finish ..

/-! ## The live codes -/

/-- The unused rows of the current key are those of the live codes. -/
structure Live (s : Account) : Prop where
  own : ∀ row ∈ s.rows, usable s.key row = true → row.code ∈ s.live
  held : ∀ code ∈ s.live, ∃ row ∈ s.rows, row.code = code ∧ usable s.key row = true
  few : s.live.length ≤ backupCodeCount
  distinct : s.live.Nodup
  sized : ∀ row ∈ s.rows, row.code.length = backupCodeLength
  past : s.key ∈ s.keys ∧ (∀ row ∈ s.rows, row.fingerprint ∈ s.keys ∧ row.fingerprint ≠ "") ∧ ∀ c, (s.calls c).stage.isOpen = true → (s.calls c).key ∈ s.keys
  keyed : ∀ c set, (s.calls c).kind = .generate set → (s.calls c).stage.isOpen = true → (s.calls c).key ≠ ""
  seen : ∀ c code rest taken, (s.calls c).kind = .consume code → (s.calls c).stage = .locking rest taken → (s.calls c).seen = true →
    code ∈ s.committed ∧ ∀ row ∈ s.rows, row.code = code → usable (s.calls c).key row = true → row.id ∈ rest ∨ row.id ∈ taken

theorem live_fresh (sso : Bool) (key : Key) : Live (Account.fresh sso key) := by
  constructor <;> simp [Account.fresh, Stage.isOpen]

/-- A step of a call that leaves the rows and the live codes. -/
theorem Live.move (h : Live s) {t : Account} {c : Nat} (hrows : t.rows = s.rows) (hkey : t.key = s.key) (hkeys : t.keys = s.keys) (hlive : t.live = s.live)
    (hcommitted : t.committed = s.committed) (hother : ∀ d, d ≠ c → t.calls d = s.calls d)
    (hpast : (t.calls c).stage.isOpen = true → (t.calls c).key ∈ s.keys)
    (hkeyed : ∀ set, (t.calls c).kind = .generate set → (t.calls c).stage.isOpen = true → (t.calls c).key ≠ "")
    (hseen : ∀ code rest taken, (t.calls c).kind = .consume code → (t.calls c).stage = .locking rest taken → (t.calls c).seen = true →
      code ∈ s.committed ∧ ∀ row ∈ s.rows, row.code = code → usable (t.calls c).key row = true → row.id ∈ rest ∨ row.id ∈ taken) : Live t := by
  obtain ⟨own, held, few, distinct, sized, past, keyed, seen⟩ := h
  constructor <;> try simp only [hrows, hkey, hkeys, hlive, hcommitted]
  case past =>
    refine ⟨past.1, past.2.1, fun d hd => ?_⟩
    by_cases hdc : d = c
    · subst hdc
      exact hpast hd
    · rw [hother d hdc] at hd ⊢
      exact past.2.2 d hd
  case seen =>
    intro d code rest taken hkind hstage hs
    by_cases hdc : d = c
    · subst hdc
      exact hseen code rest taken hkind hstage hs
    · rw [hother d hdc] at hkind hstage hs ⊢
      exact seen d code rest taken hkind hstage hs
  all_goals grind -ring -linarith

/-- An open call goes on to a stage without candidates. -/
theorem Live.goTo (h : Live s) {c : Nat} {stage : Stage} (hopen : (s.calls c).stage.isOpen = true) (hplain : ∀ rest taken, stage ≠ .locking rest taken) :
    Live (s.goTo c stage) := by
  have hcall : (s.goTo c stage).calls c = { s.calls c with stage := stage } := by simp
  refine h.move (c := c) rfl rfl rfl rfl rfl (fun d hd => by simp [hd]) ?_ ?_ ?_ <;> rw [hcall]
  · exact fun _ => h.past.2.2 c hopen
  · exact fun set hkind _ => h.keyed c set hkind hopen
  · exact fun code rest taken _ hstage => absurd hstage (hplain rest taken)

/-- The call ends without a change. -/
theorem Live.finish (h : Live s) (c : Nat) (accepted : Bool) : Live (s.finish c accepted) := by
  have hcall : (s.finish c accepted).calls c = { s.calls c with stage := .ended accepted } := by simp
  refine h.move (c := c) rfl rfl rfl rfl rfl (fun d hd => by simp [hd]) ?_ ?_ ?_ <;> rw [hcall] <;>
    simp [Stage.isOpen]

theorem Live.begin (h : Live s) (c : Nat) (kind : Kind) : Live (s.begin c kind) := by
  unfold Account.begin
  split
  · split
    · refine h.move (c := c) rfl rfl rfl rfl rfl (fun d hd => by simp [hd]) ?_ ?_ ?_ <;> simp [Stage.isOpen]
    · rename_i hkey
      refine h.move (c := c) rfl rfl rfl rfl rfl (fun d hd => by simp [hd]) ?_ ?_ ?_ <;> simp [Stage.isOpen]
      · exact h.past.1
      · exact fun heq => hkey (.inr heq)
  all_goals
    refine h.move (c := c) rfl rfl rfl rfl rfl (fun d hd => by simp [hd]) ?_ ?_ ?_ <;> simp [Stage.isOpen]
    exact h.past.1

theorem Live.deleteNext (h : Live s) {c : Nat} {rest : List Nat} (hstage : (s.calls c).stage = .deleting rest) : Live (s.deleteNext c rest) := by
  have hopen : (s.calls c).stage.isOpen = true := by rw [hstage]; rfl
  unfold Account.deleteNext
  split
  · refine h.goTo hopen ?_
    unfold afterDelete
    split <;> exact nofun
  · split
    · exact h
    · split
      · refine h.move (c := c) rfl rfl rfl rfl rfl (fun d hd => by simp [hd]) ?_ ?_ ?_ <;> simp only [calls_setCall, if_true]
        · exact fun _ => h.past.2.2 c hopen
        · exact fun set hkind _ => h.keyed c set hkind hopen
        · exact fun code rest taken _ hlocking => by cases hlocking
      · exact h.goTo hopen nofun

theorem Live.select (h : Live s) (hrows : Rows s) {c : Nat} (hstage : (s.calls c).stage = .selecting) : Live (s.select c) := by
  have hopen : (s.calls c).stage.isOpen = true := by rw [hstage]; rfl
  unfold Account.select
  split
  · rename_i code hkind
    dsimp only
    refine h.move (c := c) rfl rfl rfl rfl rfl (fun d hd => by simp [hd]) ?_ ?_ ?_ <;> simp only [calls_setCall, if_true]
    · exact fun _ => h.past.2.2 c hopen
    · exact fun set hgen _ => h.keyed c set hgen hopen
    · intro code' rest taken hcode hlocking hseen
      obtain rfl : code = code' := by simpa [hkind] using hcode
      obtain ⟨rfl, rfl⟩ := Stage.locking.inj hlocking
      simp only [Bool.and_eq_true, List.contains_eq_mem, decide_eq_true_eq, beq_iff_eq] at hseen
      obtain ⟨row, hrow, hrowcode, -⟩ := h.held code hseen.1
      refine ⟨hrowcode ▸ hrows.committed row hrow, fun row' hrow' _ husable => .inl ?_⟩
      have hkey : (s.calls c).key ≠ "" := by
        intro heq
        have hfp : row'.fingerprint = (s.calls c).key := by simpa [usable] using (Bool.and_eq_true_iff.mp husable).2
        exact (h.past.2.1 row' hrow').2 (hfp.trans heq)
      rw [if_neg hkey]
      exact List.mem_map_of_mem ((List.perm_insertionSort _ _).mem_iff.mpr (List.mem_filter.mpr ⟨hrow', husable⟩))
  · exact h

theorem Live.lockNext (h : Live s) (hrows : Rows s) {c id : Nat} {rest taken : List Nat}
    (hstage : (s.calls c).stage = .locking (id :: rest) taken) :
    Live ({ s with locks := (id, c) :: s.locks }.goTo c (.locking rest (taken ++ [id]))) ∧
      ((s.row? id).any (usable (s.calls c).key) = false → Live (s.goTo c (.locking rest taken))) := by
  have hopen : (s.calls c).stage.isOpen = true := by rw [hstage]; rfl
  have hgoTo : ∀ (locks : List (Nat × Nat)) (taken' : List Nat), (∀ row ∈ s.rows, row.id = id → usable (s.calls c).key row = true → id ∈ taken') →
      (∀ i ∈ taken, i ∈ taken') → Live ({ s with locks := locks }.goTo c (.locking rest taken')) := by
    intro locks taken' hid hkept
    refine h.move (c := c) rfl rfl rfl rfl rfl (fun d hd => by simp [hd]) ?_ ?_ ?_ <;>
      simp only [calls_goTo, if_true]
    · exact fun _ => h.past.2.2 c hopen
    · exact fun set hgen _ => h.keyed c set hgen hopen
    · intro code' rest' taken' hcode hlocking hseen
      obtain ⟨rfl, rfl⟩ := Stage.locking.inj hlocking
      obtain ⟨hcommitted, hall⟩ := h.seen c code' _ _ hcode hstage hseen
      refine ⟨hcommitted, fun row hrow hrowcode husable => ?_⟩
      rcases hall row hrow hrowcode husable with hmem | hmem
      · rcases List.mem_cons.mp hmem with hrowId | hmem
        · exact .inr (hrowId ▸ hid row hrow hrowId husable)
        · exact .inl hmem
      · exact .inr (hkept _ hmem)
  refine ⟨hgoTo _ _ (by simp) fun i hi => List.mem_append_left _ hi, fun hnot => hgoTo s.locks taken (fun row hrow hid husable => ?_) fun _ hi => hi⟩
  -- the row that is passed over is not usable
  subst hid
  simp [hrows.row?_self hrow, husable] at hnot

/-- A transaction that deletes all rows commits. -/
theorem Live.commitAll (h : Live s) (hrows : Rows s) {c createdAt : Nat} (hstage : (s.calls c).stage = .committing createdAt)
    (hall : ∀ row ∈ s.rows, row.id ∈ (s.calls c).deletes) : Live (s.commit c createdAt) := by
  have hopen : (s.calls c).stage.isOpen = true := by rw [hstage]; rfl
  have hmem : ∀ new row, row ∈ s.commitRows (s.calls c).deletes none new ↔ row ∈ new := by
    intro new row
    rw [mem_commitRows]
    constructor
    · rintro (⟨row, hrow, hdel, -⟩ | hnew)
      · exact absurd (hall row hrow) hdel
      · exact hnew
    · exact .inr
  unfold Account.commit
  dsimp only
  split
  · rename_i set hkind
    have hpending : ∀ code ∈ set.codes, code ∉ s.committed := fun code hcode => (hrows.pending c code (by simpa [Call.pending, hkind, hopen] using hcode)).2
    have hcodes := map_code_newRows (s.calls c).key createdAt s.nextId set.codes
    have hkey := h.keyed c set hkind hopen
    have hmine := h.past.2.2 c hopen
    obtain ⟨own, held, few, distinct, sized, past, keyed, seen⟩ := h
    constructor <;> simp only [Account.finish, Account.goTo, Account.setCall, Function.update_apply, hmem]
    case own =>
      intro row hrow husable
      obtain ⟨hcode, hfp, -⟩ := newRows_spec hrow
      have hcur : row.fingerprint = s.key := by simpa [usable] using (Bool.and_eq_true_iff.mp husable).2
      rw [if_pos (hfp.symm.trans hcur)]
      exact hcode
    case held =>
      intro code hcode
      split at hcode
      · rename_i hcur
        rw [← hcodes] at hcode
        obtain ⟨row, hrow, rfl⟩ := List.mem_map.mp hcode
        obtain ⟨-, hfp, hused, -⟩ := newRows_spec hrow
        exact ⟨row, hrow, rfl, by simp [usable, hused, hfp, hcur]⟩
      · cases hcode
    case few =>
      split
      · exact Nat.le_of_eq set.count
      · exact Nat.zero_le _
    case distinct =>
      split
      · exact set.distinct
      · exact List.nodup_nil
    case sized => exact fun row hrow => set.sized row.code (newRows_spec hrow).1
    case past =>
      refine ⟨past.1, fun row hrow => ?_, fun d hd => ?_⟩
      · rw [(newRows_spec hrow).2.1]
        exact ⟨hmine, hkey⟩
      · split at hd
        · cases hd
        · rename_i hdc
          simpa [hdc] using past.2.2 d hd
    case keyed =>
      intro d set' hgen hd
      split at hd
      · cases hd
      · rename_i hdc
        simp only [hdc, if_false] at hgen ⊢
        exact keyed d set' hgen hd
    case seen =>
      intro d code rest taken hcon hlocking hseen
      split at hlocking
      · cases hlocking
      · rename_i hdc
        simp only [hdc, if_false] at hcon hseen ⊢
        have hcommitted := (seen d code rest taken hcon hlocking hseen).1
        refine ⟨List.mem_append_right _ hcommitted, fun row hrow hcode _ => ?_⟩
        exact absurd hcommitted (hcode ▸ hpending row.code (newRows_spec hrow).1)
  · obtain ⟨own, held, few, distinct, sized, past, keyed, seen⟩ := h
    constructor <;> simp only [Account.finish, Account.goTo, Account.setCall, Function.update_apply, hmem]
    case past =>
      refine ⟨past.1, nofun, fun d hd => ?_⟩
      split at hd
      · cases hd
      · rename_i hdc
        simpa [hdc] using past.2.2 d hd
    case keyed =>
      intro d set' hgen hd
      split at hd
      · cases hd
      · rename_i hdc
        simp only [hdc, if_false] at hgen ⊢
        exact keyed d set' hgen hd
    case seen =>
      intro d code rest taken hcon hlocking hseen
      split at hlocking
      · cases hlocking
      · rename_i hdc
        simp only [hdc, if_false] at hcon hseen
        exact ⟨(seen d code rest taken hcon hlocking hseen).1, nofun⟩
    all_goals simp
  · exact h

/-- As many candidates as a set has codes are all of it. -/
theorem Live.taken_full (h : Live s) (hrows : Rows s) {c : Nat} {taken : List Nat} (htaken : Call.taken (s.calls c) = taken)
    (hfull : taken.length = backupCodeCount) (hkey : (s.calls c).key = s.key) {row : Row} (hrow : row ∈ s.rows) (hlive : row.code ∈ s.live) :
    row.id ∈ taken := by
  have hcand : ∀ id ∈ taken, ∃ r ∈ s.rows, r.id = id ∧ s.row? id = some r ∧ r.code ∈ s.live := by
    intro id hid
    obtain ⟨-, r, hr, rfl, husable⟩ := hrows.taken c id (by rwa [htaken])
    exact ⟨r, hr, rfl, hrows.row?_self hr, h.own r hr (hkey ▸ husable)⟩
  have hnodup : taken.Nodup := by
    have := hrows.listed c
    rw [htaken] at this
    exact (List.nodup_append.mp this).1
  let codeOf := fun id => ((s.row? id).map Row.code).getD ""
  have hdistinct : (taken.map codeOf).Nodup := by
    refine List.Nodup.map_on (fun a ha b hb heq => ?_) hnodup
    obtain ⟨r, hr, rfl, hfind, -⟩ := hcand a ha
    obtain ⟨r', hr', rfl, hfind', -⟩ := hcand b hb
    have hcode : r.code = r'.code := by simpa [codeOf, hfind, hfind'] using heq
    rw [hrows.eq_of_code hr hr' hcode]
  have hsub : taken.map codeOf ⊆ s.live := by
    intro code hcode
    obtain ⟨id, hid, rfl⟩ := List.mem_map.mp hcode
    obtain ⟨r, -, -, hfind, hmem⟩ := hcand id hid
    simpa [codeOf, hfind] using hmem
  have hperm : (taken.map codeOf).Perm s.live :=
    (List.subperm_of_subset hdistinct hsub).perm_of_length_le (by rw [List.length_map, hfull]; exact h.few)
  obtain ⟨id, hid, hcode⟩ := List.mem_map.mp (hperm.mem_iff.mpr hlive)
  obtain ⟨r, hr, rfl, hfind, -⟩ := hcand id hid
  have hcode : r.code = row.code := by simpa [codeOf, hfind] using hcode
  rwa [← hrows.eq_of_code hr hrow hcode]

/-- A code is decided upon: the candidates of the user's key are those of the live codes, so a code is matched exactly if it is live. -/
theorem Live.matched_iff (h : Live s) (hrows : Rows s) {c : Nat} {code : Code} {rest taken : List Nat} (hkind : (s.calls c).kind = .consume code)
    (hstage : (s.calls c).stage = .locking rest taken) (hend : rest = [] ∨ taken.length = backupCodeCount) (hkey : (s.calls c).key = s.key) :
    ((taken.find? fun id => (s.row? id).any (·.code == code) && code.length == backupCodeLength).isSome → code ∈ s.live) ∧
      (code ∈ s.live → (s.calls c).seen = true →
        (taken.find? fun id => (s.row? id).any (·.code == code) && code.length == backupCodeLength).isSome) := by
  have htaken : Call.taken (s.calls c) = taken := by simp [Call.taken, hstage]
  refine ⟨fun hsome => ?_, fun hlive hseen => ?_⟩
  · obtain ⟨id, hfind⟩ := Option.isSome_iff_exists.mp hsome
    obtain ⟨-, -, row, hrow, -, rfl, husable⟩ := hrows.matched htaken hfind
    exact h.own row hrow (hkey ▸ husable)
  · obtain ⟨row, hrow, rfl, husable⟩ := h.held code hlive
    have hmem : row.id ∈ taken := by
      rcases (h.seen c _ rest taken hkind hstage hseen).2 row hrow rfl (hkey ▸ husable) with hrest | hmem
      · rcases hend with rfl | hfull
        · cases hrest
        · exact h.taken_full hrows htaken hfull hkey hrow hlive
      · exact hmem
    rw [List.find?_isSome]
    exact ⟨row.id, hmem, by simp [hrows.row?_self hrow, h.sized row hrow]⟩

/-- A call that consumes, with the user's key, commits: it deletes no row of this key, and uses up at most the one of its code. -/
theorem Live.use (h : Live s) (hrows : Rows s) {t : Account} {c : Nat} {b : Bool} {code : Code} {matched : Option Nat} (hkind : (s.calls c).kind = .consume code)
    (hopen : (s.calls c).stage.isOpen = true) (hkey : (s.calls c).key = s.key) (ht : t.rows = s.commitRows (s.calls c).deletes matched [])
    (hcalls : ∀ d, t.calls d = if d = c then { s.calls c with stage := .ended b } else s.calls d) (htkey : t.key = s.key) (htkeys : t.keys = s.keys)
    (htcommitted : t.committed = s.committed)
    (hmatched : ∀ id, matched = some id → ∃ row ∈ s.rows, row.id = id ∧ row.code = code) (hlive : t.live = if matched = none then s.live else s.live.erase code) :
    Live t := by
  have hkept : ∀ row ∈ s.rows, usable s.key row = true → row.id ∉ (s.calls c).deletes := by
    intro row hrow husable hdel
    have hdoomed := (hrows.gone c row.id (by simpa [Call.gone, hopen] using hdel)).2.2 row hrow rfl
    have hfp : row.fingerprint = s.key := by simpa [usable] using (Bool.and_eq_true_iff.mp husable).2
    simp [doomed, hkind, hfp, hkey] at hdoomed
  have hmem : ∀ row' ∈ t.rows, ∃ row ∈ s.rows, row.id = row'.id ∧ row.code = row'.code ∧ row.fingerprint = row'.fingerprint ∧
      (row'.used = false → row' = row ∧ some row.id ≠ matched) := by
    intro row' hrow'
    rw [ht] at hrow'
    rcases mem_commitRows.1 hrow' with ⟨row, hrow, -, rfl⟩ | hnew
    · refine ⟨row, hrow, ?_⟩
      split
      · simp
      · exact ⟨rfl, rfl, rfl, fun _ => ⟨rfl, ‹_›⟩⟩
    · cases hnew
  have hstays : ∀ row ∈ s.rows, usable s.key row = true → some row.id ≠ matched → row ∈ t.rows := by
    intro row hrow husable hne
    rw [ht]
    exact mem_commitRows.2 (.inl ⟨row, hrow, hkept row hrow husable, by rw [if_neg hne]⟩)
  obtain ⟨own, held, few, distinct, sized, past, keyed, seen⟩ := h
  constructor <;> try simp only [htkey, htkeys, htcommitted]
  case own =>
    intro row' hrow' husable
    obtain ⟨row, hrow, -, -, -, hsame⟩ := hmem row' hrow'
    have hunused : row'.used = false := by simpa using (Bool.and_eq_true_iff.mp husable).1
    obtain ⟨rfl, hne⟩ := hsame hunused
    have hcode := own row' hrow husable
    rw [hlive]
    split
    · exact hcode
    · rename_i hsome
      obtain ⟨id, rfl⟩ := Option.ne_none_iff_exists'.mp hsome
      obtain ⟨found, hfound, rfl, rfl⟩ := hmatched id rfl
      refine (List.mem_erase_of_ne fun heq => hne ?_).mpr hcode
      rw [hrows.eq_of_code hrow hfound heq]
  case held =>
    intro code' hcode'
    rw [hlive] at hcode'
    split at hcode'
    · rename_i hnone
      obtain ⟨row, hrow, hcode, husable⟩ := held code' hcode'
      exact ⟨row, hstays row hrow husable (by simp [hnone]), hcode, husable⟩
    · rename_i hsome
      obtain ⟨hne, hcode'⟩ := (distinct.mem_erase_iff).mp hcode'
      obtain ⟨row, hrow, rfl, husable⟩ := held code' hcode'
      refine ⟨row, hstays row hrow husable fun heq => hne ?_, rfl, husable⟩
      obtain ⟨found, hfound, hid, rfl⟩ := hmatched row.id heq.symm
      rw [hrows.eq_of_id hfound hrow hid]
  case few =>
    rw [hlive]
    split
    · exact few
    · exact Nat.le_trans List.length_erase_le few
  case distinct =>
    rw [hlive]
    split
    · exact distinct
    · exact distinct.erase code
  case sized =>
    intro row' hrow'
    obtain ⟨row, hrow, -, hcode, -⟩ := hmem row' hrow'
    rw [← hcode]
    exact sized row hrow
  case past =>
    refine ⟨past.1, fun row' hrow' => ?_, fun d hd => ?_⟩
    · obtain ⟨row, hrow, -, -, hfp, -⟩ := hmem row' hrow'
      rw [← hfp]
      exact past.2.1 row hrow
    · rw [hcalls] at hd ⊢
      split at hd
      · cases hd
      · rename_i hdc
        simpa [hdc] using past.2.2 d hd
  case keyed =>
    intro d set hgen hd
    rw [hcalls] at hgen hd ⊢
    split at hd
    · cases hd
    · rename_i hdc
      simp only [hdc, if_false] at hgen ⊢
      exact keyed d set hgen hd
  case seen =>
    intro d code' rest taken hcon hlocking hseen
    rw [hcalls] at hcon hlocking hseen ⊢
    split at hlocking
    · cases hlocking
    · rename_i hdc
      simp only [hdc, if_false] at hcon hseen ⊢
      obtain ⟨hcommitted, hall⟩ := seen d code' rest taken hcon hlocking hseen
      refine ⟨hcommitted, fun row' hrow' hcode husable => ?_⟩
      obtain ⟨row, hrow, -, -, -, hsame⟩ := hmem row' hrow'
      obtain ⟨rfl, -⟩ := hsame (by simpa using (Bool.and_eq_true_iff.mp husable).1)
      exact hall row' hrow hcode husable

theorem Live.decide (h : Live s) (hrows : Rows s) {c : Nat} {code : Code} {rest taken : List Nat} (hkind : (s.calls c).kind = .consume code)
    (hstage : (s.calls c).stage = .locking rest taken) (hkey : (s.calls c).key = s.key) : Live (s.decide c code taken) := by
  have hopen : (s.calls c).stage.isOpen = true := by rw [hstage]; rfl
  have htaken : Call.taken (s.calls c) = taken := by simp [Call.taken, hstage]
  unfold Account.decide
  dsimp only
  split
  · rename_i id hfind
    obtain ⟨-, -, row, hrow, hid, hcode, -⟩ := hrows.matched htaken hfind
    refine h.use hrows (c := c) (b := true) hkind hopen hkey rfl (fun d => calls_setCall ..) rfl rfl rfl (fun i hi => ?_) rfl
    obtain rfl := Option.some.inj hi
    exact ⟨row, hrow, hid, hcode⟩
  · exact h.use hrows (c := c) (b := false) hkind hopen hkey rfl (fun d => calls_setCall ..) rfl rfl rfl nofun rfl

theorem Live.advance (h : Live s) (hrows : Rows s) {c : Nat} (hok : KeepsUp s (.advance c)) : Live (s.advance c) := by
  simp only [KeepsUp] at hok
  unfold Account.advance
  split
  · rename_i hstage
    refine h.goTo (by rw [hstage]; rfl) ?_
    split
    · exact nofun
    · unfold afterDelete
      split <;> exact nofun
  · rename_i hstage
    exact h.goTo (by rw [hstage]; rfl) nofun
  · exact h.deleteNext ‹_›
  · exact h.select hrows ‹_›
  · rename_i rest taken hstage
    rw [hstage] at hok
    unfold Account.lockNext
    split
    · rename_i code hkind
      split
      · exact h.decide hrows hkind hstage (hok (.inr ‹_›))
      · split
        · exact h.decide hrows hkind hstage (hok (.inl rfl))
        · split
          · exact h
          · split
            · exact (h.lockNext hrows hstage).1
            · rename_i hnot
              exact (h.lockNext hrows hstage).2 (by simpa using hnot)
    · exact h
  · rename_i hstage
    have hclock : Live { s with clock := s.clock + 1 } := by
      obtain ⟨own, held, few, distinct, sized, past, keyed, seen⟩ := h
      exact ⟨own, held, few, distinct, sized, past, keyed, seen⟩
    exact hclock.goTo (by rw [hstage]; rfl) nofun
  · rename_i createdAt hstage
    rw [hstage] at hok
    exact h.commitAll hrows hstage hok
  all_goals exact h

/-- A new key has no rows. -/
theorem Live.changeKey (h : Live s) {key : Key} (hok : KeepsUp s (.changeKey key)) : Live (s.changeKey key) := by
  unfold Account.changeKey
  split
  · exact h
  · rename_i hne
    obtain ⟨own, held, few, distinct, sized, past, keyed, seen⟩ := h
    have hnone : ∀ row ∈ s.rows, usable key row = false := by
      intro row hrow
      rw [Bool.eq_false_iff]
      intro husable
      have hfp : row.fingerprint = key := by simpa [usable] using (Bool.and_eq_true_iff.mp husable).2
      obtain ⟨hold, hempty⟩ := past.2.1 row hrow
      rcases hok with heq | rfl | hnew
      · exact hne heq
      · exact hempty hfp
      · exact hnew (hfp ▸ hold)
    constructor
    case own => exact fun row hrow husable => absurd husable (by simp [hnone row hrow])
    case past =>
      refine ⟨List.mem_cons_self, fun row hrow => ?_, fun c hc => List.mem_cons_of_mem _ (past.2.2 c hc)⟩
      exact ⟨List.mem_cons_of_mem _ (past.2.1 row hrow).1, (past.2.1 row hrow).2⟩
    case sized => exact sized
    case keyed => exact keyed
    case seen => exact seen
    all_goals simp

theorem Live.step (h : Live s) (hrows : Rows s) {e : Event} (hok : KeepsUp s e) : Live (s.step e) := by
  cases e with
  | changeKey key => exact h.changeKey hok
  | call c kind =>
    simp only [Account.step]
    split
    · exact h.begin c kind
    · exact h
  | advance c => exact h.advance hrows hok
  | fail c =>
    simp only [Account.step]
    split
    · exact h
    · exact h
    · exact h.finish ..

theorem stage_decide (s : Account) (c : Nat) (code : Code) (taken : List Nat) :
    ((s.decide c code taken).calls c).stage =
      .ended (taken.find? fun id => (s.row? id).any (·.code == code) && code.length == backupCodeLength).isSome := by
  unfold Account.decide
  dsimp only
  split <;> rename_i hfind <;> simp [hfind]

theorem faithful_step (h : Live s) (hrows : Rows s) {e : Event} (hok : KeepsUp s e) : Faithful s e := by
  rintro c code rest taken accepted rfl hkind hstage hended
  simp only [KeepsUp, hstage] at hok
  have hdecided : rest = [] ∨ taken.length = backupCodeCount → (accepted = true → code ∈ s.live) ∧ (code ∈ s.live → (s.calls c).seen = true → accepted = true) := by
    intro hend
    obtain ⟨hif, honly⟩ := h.matched_iff hrows hkind hstage hend (hok hend)
    have hresult : Account.step s (.advance c) = s.decide c code taken := by
      simp only [Account.step, Account.advance, hstage, Account.lockNext, hkind]
      rcases hend with rfl | hfull
      · split <;> rfl
      · rw [if_pos hfull]
    rw [hresult, stage_decide] at hended
    obtain rfl := Stage.ended.inj hended
    exact ⟨hif, honly⟩
  by_cases hfull : taken.length = backupCodeCount
  · exact hdecided (.inr hfull)
  · cases rest with
    | nil => exact hdecided (.inl rfl)
    | cons id rest =>
      -- the select goes on, so the call has not ended
      simp only [Account.step, Account.advance, hstage, Account.lockNext, hkind, if_neg hfull] at hended
      split at hended
      · rw [hstage] at hended
        cases hended
      · split at hended <;> simp at hended

theorem along_faithful {events : List Event} (hrows : Rows s) (h : Live s) (hok : Along Account.step StepOk s events) : Along Account.step Faithful s events := by
  induction events generalizing s with
  | nil => trivial
  | cons e events ih => exact ⟨faithful_step h hrows hok.1.2, ih (hrows.step hok.1.1) (h.step hrows hok.1.2) hok.2⟩

end OneSetAux

open OneSetAux

/-- In every run in which the codes that are drawn are new, no code is accepted twice. In every run in which, moreover, a key that is set is a new one, a
call that replaces or invalidates the codes has seen every row that is there when it commits, and a call that consumes decides by the key that the user
has: a code is accepted only if it is an unused one of the set that was generated last and not invalidated or made stale since, and each of these is accepted
if it was there when the call selected its candidates. -/
theorem codes_work_once (sso : Bool) (key : Key) (events : List Event) :
    (Along Account.step DrawsNew (.fresh sso key) events → (events.foldl Account.step (.fresh sso key)).accepted.Nodup) ∧
      (Along Account.step StepOk (.fresh sso key) events → Along Account.step Faithful (.fresh sso key) events) :=
  ⟨fun h => (keeps (fun _ _ hs he => hs.step he) (rows_fresh sso key) h).once, fun h => along_faithful (rows_fresh sso key) (live_fresh sso key) h⟩

namespace OneSetAux

/-- Ten codes that begin alike. -/
def tenCodes (start : String) : List Code := ["A", "B", "C", "D", "E", "F", "G", "H", "J", "K"].map (start ++ ·)

def firstSet : CodeSet := ⟨tenCodes "AAAAAAAAA", by decide +kernel, by decide +kernel, by decide +kernel⟩

def secondSet : CodeSet := ⟨tenCodes "BBBBBBBBB", by decide +kernel, by decide +kernel, by decide +kernel⟩

def times (n : Nat) (c : Nat) : List Event := List.replicate n (.advance c)

/-- A set is generated where there is none. -/
def generates (c : Nat) (set : CodeSet) : List Event := .call c (.generate set) :: times 4 c

/-- Two calls generate a set, and each of them looks for rows before the other one commits. -/
def overlapping : List Event := [Event.call 0 (.generate firstSet), .call 1 (.generate secondSet), .advance 0, .advance 1] ++ times 3 0 ++ times 3 1

/-- A code is consumed where no row is stale and ten rows are there: up to the decision. -/
def consumes (c : Nat) (code : Code) : List Event := .call c (.consume code) :: times 12 c

def oneAfterTheOther : List Event := generates 0 firstSet ++ consumes 1 "AAAAAAAAAC" ++ [Event.advance 1]

def after (events : List Event) : Account := events.foldl Account.step (.fresh false "key")

instance (s : Account) : DecidablePred (StepOk s)
  | .changeKey key => inferInstanceAs (Decidable (True ∧ (key = s.key ∨ key = "" ∨ key ∉ s.keys)))
  | .call _ (.generate set) => inferInstanceAs (Decidable ((∀ code ∈ set.codes, code ∉ s.drawn) ∧ True))
  | .call _ .invalidate | .call _ (.consume _) | .fail _ => isTrue ⟨trivial, trivial⟩
  | .advance c =>
    match h : (s.calls c).stage with
    | .committing _ => decidable_of_iff (∀ row ∈ s.rows, row.id ∈ (s.calls c).deletes) (by simp [StepOk, DrawsNew, KeepsUp, h])
    | .locking rest taken =>
      decidable_of_iff (rest = [] ∨ taken.length = backupCodeCount → (s.calls c).key = s.key) (by simp [StepOk, DrawsNew, KeepsUp, h])
    | .idle | .counting | .looking | .deleting _ | .selecting | .inserting | .ended _ => isTrue (by simp [StepOk, DrawsNew, KeepsUp, h])

end OneSetAux

theorem generated_code_is_accepted :
    (after oneAfterTheOther).accepted = ["AAAAAAAAAC"] ∧ (after oneAfterTheOther).accepted.Nodup ∧
      Along Account.step Faithful (.fresh false "key") oneAfterTheOther := by
  have hok : Along Account.step StepOk (.fresh false "key") oneAfterTheOther := by decide +kernel
  have h := codes_work_once false "key" oneAfterTheOther
  exact ⟨by decide +kernel, h.1 (along_and.1 hok).1, h.2 hok⟩

/-- Two sets are live after two calls that overlap: a code of the first one is accepted, and one of the second one is refused. -/
theorem two_sets_are_live :
    ¬ Along Account.step Faithful (.fresh false "key") (overlapping ++ consumes 2 "AAAAAAAAAC" ++ [.advance 2]) ∧
      ¬ Along Account.step Faithful (.fresh false "key") (overlapping ++ consumes 2 "BBBBBBBBBC" ++ [.advance 2]) := by
  refine ⟨fun h => ?_, fun h => ?_⟩
  · have hlast := (along_append.1 h).2.1 2 "AAAAAAAAAC" [10, 11, 12, 13, 14, 15, 16, 17, 18, 19] [0, 1, 2, 3, 4, 5, 6, 7, 8, 9] true rfl rfl
      (by decide +kernel) (by decide +kernel)
    exact absurd (hlast.1 rfl) (by decide +kernel)
  · have hlast := (along_append.1 h).2.1 2 "BBBBBBBBBC" [10, 11, 12, 13, 14, 15, 16, 17, 18, 19] [0, 1, 2, 3, 4, 5, 6, 7, 8, 9] false rfl rfl
      (by decide +kernel) (by decide +kernel)
    exact absurd (hlast.2 (by decide +kernel) (by decide +kernel)) (by decide)

end MfaBackup

end TecTac
