import Mathlib
import TecTac.Lemmas.Hotfix

/-!
# The applied hotfixes explain the files

The applied records of a module, by their time, lead from the installed files to the current ones. That is so while no job stops where the code puts nothing back:
`apply_job` puts back the rows that it listed, so not the one whose check failed after the write, and nothing once its guarded block is left; `rollback_job` puts
back nothing. A record also has to be found again: the path of a row is made safe once more, which takes off blanks at its ends.
-/

namespace TecTac

namespace Hotfix

open Raise

namespace HotfixAux

variable {Content : Type} {sha256 : Content → String}

theorem extractOne_ok {payload : Files Content} (row : Row) (w : Write Content)
    (hw : (match payload row.target with
      | none => .error .payloadMissing
      | some data => if sha256 data = row.sha256After then .ok ⟨row, data⟩ else .error .payloadHashMismatch : Except Refusal (Write Content)) = .ok w) :
    w.row = row ∧ sha256 w.payload = w.row.sha256After := by
  split at hw
  · cases hw
  · split at hw
    · cases hw
      exact ⟨rfl, ‹_›⟩
    · cases hw

/-- What is extracted is the rows, each with a payload of the digest it should have. -/
theorem extractPayload_ok {payload : Files Content} {rows : List Row} {writes : List (Write Content)} (h : extractPayload sha256 payload rows = .ok writes) :
    writes.map Write.row = rows ∧ ∀ w ∈ writes, sha256 w.payload = w.row.sha256After := by
  refine ⟨?_, fun w hw => ?_⟩
  · exact (map_eq_of_mapM h fun row w hw => (extractOne_ok row w hw).1).trans (List.map_id rows)
  · obtain ⟨row, -, hrow⟩ := mem_of_mapM_ok h hw
    exact (extractOne_ok row w hrow).2

/-- What `apply_job` admits: rows of a manifest on distinct targets, whose hotfix is not applied, for the installed version. -/
theorem admitInstall_ok {s : State Content} {hotfixId baseVersion : String} {package : Option (Package Content)} {writes : List (Write Content)} {effective : Effective}
    (h : admitInstall sha256 s hotfixId baseVersion package = .ok (writes, effective)) :
    ∃ p rows, package = some p ∧ normalizeTargets p.manifest = .ok (rows, effective) ∧ writes.map Write.row = rows ∧
      (∀ w ∈ writes, sha256 w.payload = w.row.sha256After) ∧ hotfixId ∉ s.records.map Record.id ∧ ∀ c, s.version c = baseVersion := by
  cases package with
  | none => cases h
  | some p =>
    unfold admitInstall at h
    obtain ⟨⟨rows, effective'⟩, hrows, h⟩ := bind_ok h
    obtain ⟨⟨⟩, -, h⟩ := bind_ok h
    obtain ⟨⟨⟩, hversion, h⟩ := bind_ok h
    obtain ⟨⟨⟩, happlied, h⟩ := bind_ok h
    obtain ⟨writes', hwrites, h⟩ := bind_ok h
    cases h
    have hversion := of_require hversion
    simp only [Bool.and_eq_true, beq_iff_eq] at hversion
    have happlied := of_require happlied
    simp only [Bool.not_eq_true', List.contains_eq_mem, decide_eq_false_iff_not] at happlied
    obtain ⟨hmap, hpayload⟩ := extractPayload_ok hwrites
    refine ⟨p, rows, rfl, hrows, hmap, hpayload, happlied, fun c => ?_⟩
    cases c with
    | extension => exact hversion.2
    | reportset => exact hversion.1 ▸ hversion.2

/-! ### Backups -/

section Resolve

variable {fault : ApplyFault Content} {files : Files Content} {hotfixId job : String}

/-- The backups of another job stay. -/
theorem resolve_other {i : Nat} {ws : List (Write Content)} {backups : Backups Content} {hotfixId' job' : String} (h : job' ≠ job) (t : Target) :
    (resolve sha256 fault files hotfixId job i ws backups).1 (hotfixId', job', t) = backups (hotfixId', job', t) := by
  induction ws generalizing i backups with
  | nil => rfl
  | cons w ws ih =>
    unfold resolve
    repeat' split
    · rfl
    · rfl
    · rfl
    · rw [ih, Function.update_of_ne (by simp [h])]

/-- A backup that has the content of its file keeps it. -/
theorem resolve_same {i : Nat} {ws : List (Write Content)} {backups : Backups Content} {t : Target} (h : backups (hotfixId, job, t) = files t) :
    (resolve sha256 fault files hotfixId job i ws backups).1 (hotfixId, job, t) = files t := by
  induction ws generalizing i backups with
  | nil => exact h
  | cons w ws ih =>
    unfold resolve
    repeat' split
    · exact h
    · exact h
    · exact h
    · rename_i hcontent _ _
      refine ih ?_
      by_cases ht : w.row.target = t
      · subst ht
        rw [Function.update_self, hcontent]
      · rw [Function.update_of_ne (by simp [Ne.symm ht]), h]

/-- A resolved row has the content of its file as its backup, and the digest that it is for. -/
theorem resolve_ok {i : Nat} {ws : List (Write Content)} {backups : Backups Content} {resolved : List (Resolved Content)}
    (h : (resolve sha256 fault files hotfixId job i ws backups).2 = .ok resolved) :
    resolved.map Resolved.toWrite = ws ∧ ∀ r ∈ resolved, files r.row.target = some r.backup ∧ sha256 r.backup = r.row.sha256Before ∧
      (resolve sha256 fault files hotfixId job i ws backups).1 (hotfixId, job, r.row.target) = some r.backup := by
  induction ws generalizing i backups resolved with
  | nil =>
    cases h
    simp
  | cons w ws ih =>
    unfold resolve at h ⊢
    split at h
    · cases h
    · rename_i content hcontent
      split at h
      · cases h
      · rename_i hhash
        split at h
        · cases h
        · rename_i hfault
          rw [if_neg hhash, if_neg hfault]
          generalize hrest : resolve sha256 fault files hotfixId job (i + 1) ws _ = rest at h ⊢
          cases hok : rest.2 with
          | error reason => simp [hok, Except.map] at h
          | ok tail =>
            simp only [hok, Except.map, Except.ok.injEq] at h
            obtain ⟨hmap, htail⟩ := ih (by rw [hrest]; exact hok)
            rw [hrest] at htail
            subst h
            refine ⟨by simp [hmap], fun r hr => ?_⟩
            rcases List.mem_cons.1 hr with rfl | hr
            · refine ⟨hcontent, not_not.1 hhash, ?_⟩
              rw [← hrest, ← hcontent]
              exact resolve_same (by rw [Function.update_self, hcontent])
            · exact htail r hr

end Resolve

/-! ### Files -/

/-- The files after each of the writes. -/
def overwrite {α : Type} (target : α → Target) (value : α → Content) (xs : List α) (files : Files Content) : Files Content :=
  xs.foldl (fun files x => Function.update files (target x) (some (value x))) files

section Overwrite

variable {α : Type} {target : α → Target} {value : α → Content} {xs : List α} {files : Files Content}

@[simp] theorem overwrite_nil : overwrite target value [] files = files := rfl

theorem overwrite_cons {x : α} :
    overwrite target value (x :: xs) files = overwrite target value xs (Function.update files (target x) (some (value x))) := rfl

/-- A file that is not written stays. -/
theorem overwrite_of_notMem {t : Target} (h : ∀ x ∈ xs, target x ≠ t) : overwrite target value xs files t = files t := by
  induction xs generalizing files with
  | nil => rfl
  | cons x xs ih =>
    rw [overwrite_cons, ih fun y hy => h y (List.mem_cons_of_mem _ hy), Function.update_of_ne (Ne.symm (h x List.mem_cons_self))]

/-- A file that is written once has what was written. -/
theorem overwrite_of_mem {x : α} (hnodup : (xs.map target).Nodup) (h : x ∈ xs) : overwrite target value xs files (target x) = some (value x) := by
  induction xs generalizing files with
  | nil => cases h
  | cons y xs ih =>
    obtain ⟨hy, hnodup⟩ := List.nodup_cons.1 hnodup
    rw [overwrite_cons]
    rcases List.mem_cons.1 h with rfl | h
    · rw [overwrite_of_notMem fun z hz heq => hy (List.mem_map.2 ⟨z, hz, heq⟩), Function.update_self]
    · exact ih hnodup h

/-- Files that are overwritten with what they held once hold it again. -/
theorem overwrite_eq {orig : Files Content} (h : ∀ x ∈ xs, orig (target x) = some (value x)) (hother : ∀ t, (∀ x ∈ xs, target x ≠ t) → files t = orig t) :
    overwrite target value xs files = orig := by
  induction xs generalizing files with
  | nil => exact funext fun t => hother t (by simp)
  | cons x xs ih =>
    refine ih (fun y hy => h y (List.mem_cons_of_mem _ hy)) fun t ht => ?_
    change Function.update files (target x) (some (value x)) t = orig t
    by_cases hx : target x = t
    · subst hx
      rw [Function.update_self, h x List.mem_cons_self]
    · rw [Function.update_of_ne (Ne.symm hx)]
      exact hother t (by simpa [hx] using ht)

end Overwrite

/-- The rows that were listed are put back: with their backups from the files, these are the files again. -/
theorem restore_eq {mutated : List (Resolved Content)} {files : Files Content} (h : ∀ r ∈ mutated, files r.row.target = some r.backup) :
    restore mutated (overwrite (fun r => r.row.target) (fun r => r.payload) mutated files) = files := by
  refine overwrite_eq (fun r hr => h r (List.mem_reverse.1 hr)) fun t ht => overwrite_of_notMem (by simpa using ht)

section WriteFiles

variable {fault : ApplyFault Content} {rs mutated : List (Resolved Content)} {files : Files Content} {i : Nat}

/-- One row that is written: the file has the payload and the row is listed. -/
theorem writeFiles_cons {r : Resolved Content} (hcopy : fault.atCopy i = false) (hcheck : fault.atCheck i = none)
    (hpayload : sha256 r.payload = r.row.sha256After) :
    writeFiles sha256 fault i (r :: rs) files mutated =
      writeFiles sha256 fault (i + 1) rs (Function.update files r.row.target (some r.payload)) (mutated ++ [r]) := by
  rw [writeFiles]
  simp [hcopy, hcheck, hpayload]

/-- Where no check after a write raises, the loop stops before the write of a row or at its end; it lists the rows whose files it changed. -/
theorem writeFiles_listed (hcheck : ∀ i, fault.atCheck i = none) (hpayload : ∀ r ∈ rs, sha256 r.payload = r.row.sha256After) :
    ∃ front back, rs = front ++ back ∧ (writeFiles sha256 fault i rs files mutated).mutated = mutated ++ front ∧
      (writeFiles sha256 fault i rs files mutated).files = overwrite (fun r => r.row.target) (fun r => r.payload) front files ∧
      (back = [] ↔ (writeFiles sha256 fault i rs files mutated).stopped = none) ∧ (back = [] ∨ ∃ j, fault.atCopy j = true) := by
  induction rs generalizing i files mutated with
  | nil => exact ⟨[], [], rfl, by simp [writeFiles], by simp [writeFiles], by simp [writeFiles], .inl rfl⟩
  | cons r rs ih =>
    by_cases hcopy : fault.atCopy i = true
    · exact ⟨[], r :: rs, rfl, by simp [writeFiles, hcopy], by simp [writeFiles, hcopy], by simp [writeFiles, hcopy], .inr ⟨i, hcopy⟩⟩
    · rw [writeFiles_cons (by simpa using hcopy) (hcheck i) (hpayload r List.mem_cons_self)]
      obtain ⟨front, back, hrs, hmutated, hfiles, hstopped, hback⟩ :=
        @ih (mutated ++ [r]) (Function.update files r.row.target (some r.payload)) (i + 1) fun r hr => hpayload r (List.mem_cons_of_mem _ hr)
      exact ⟨r :: front, back, by rw [hrs, List.cons_append], by rw [hmutated, List.append_assoc, List.singleton_append], hfiles, hstopped, hback⟩

/-- Where the first write raises, nothing is written. -/
theorem writeFiles_first (h : fault.atCopy 0 = true) : (writeFiles sha256 fault 0 rs files []).files = files := by
  cases rs <;> simp [writeFiles, h]

end WriteFiles

end HotfixAux

/-! ### The condition -/

variable {Content : Type}

/-- The job puts back what it changed where `apply_job` meets this fault: it stops before the first write, or in the guarded block after a check and before the next write,
and its failure path is not stopped at its first line. -/
def ApplyFault.putBack (fault : ApplyFault Content) (logged : Bool) : Bool :=
  match fault with
  | .nothing | .backup _ | .copy 0 => true
  | .copy (_ + 1) | .validate | .sync => logged
  | .check _ _ | .record | .unlink => false

/-- `rollback_job` stops before its first write, if at all. -/
def RollbackFault.early (fault : RollbackFault Content) : Bool :=
  match fault with
  | .nothing | .preflight | .copy 0 => true
  | _ => false

/-- No file of the module that the package is for has a path with a blank at its begin or end. -/
def plainPaths (files : Files Content) (package : Option (Package Content)) : Bool :=
  match package with
  | none => true
  | some package =>
    match normalizeTargets package.manifest with
    | .error _ => true
    | .ok (rows, _) => rows.all fun row => (files row.target).isNone || strip row.target.path == row.target.path

/-- The condition on a job and the state before it. -/
def meets (s : State Content) (job : Job Content) : Bool :=
  match job.action with
  | .apply package _ fault logged => fault.putBack logged && plainPaths s.files package
  | .rollback fault => fault.early

/-! ### The chain -/

/-- The rows of the applied records on a target, by the time of the records. -/
def touching (s : State Content) (t : Target) : List Row := (ordered s.records).flatMap fun record => record.rows.filter fun row => row.target = t

/-- The applied records explain the files: on each target, every row begins where the one before it ended, the first one with the installed file, and the file is
where the last one ended; a file that no row is on is the installed one. -/
structure Explained (sha256 : Content → String) (installed : Files Content) (s : State Content) : Prop where
  linked : ∀ t, (touching s t).IsChain fun a b => a.sha256After = b.sha256Before
  first : ∀ t row, (touching s t).head? = some row → (installed t).map sha256 = some row.sha256Before
  current : ∀ t row, (touching s t).getLast? = some row → (s.files t).map sha256 = some row.sha256After
  untouched : ∀ t, touching s t = [] → s.files t = installed t

/-- A rollback of the latest record that meets no fault. -/
def rollBackLatest (sha256 : Content → String) (s : State Content) (job : String) : State Content :=
  match latestRecord s with
  | none => s
  | some record => step sha256 s ⟨job, record.id, 0, .rollback .nothing⟩

namespace HotfixAux

variable {Content : Type} {sha256 : Content → String}

/-- A record leads from files to files. -/
structure Fixes (sha256 : Content → String) (version : Component → String) (backups : Backups Content) (record : Record) (files files' : Files Content) : Prop where
  nodup : (record.rows.map Row.target).Nodup
  paths : ∀ row ∈ record.rows, safeRelative row.target.path = .ok row.target.path
  version : ∀ c, version c = record.baseVersion
  before : ∀ row ∈ record.rows, ∃ content, files row.target = some content ∧ sha256 content = row.sha256Before ∧
    backups (record.id, record.job, row.target) = some content
  after : ∀ row ∈ record.rows, ∃ content, files' row.target = some content ∧ sha256 content = row.sha256After
  other : ∀ t, (∀ row ∈ record.rows, row.target ≠ t) → files' t = files t

/-- The records lead from the installed files to the files. -/
inductive Layers (sha256 : Content → String) (version : Component → String) (backups : Backups Content) (installed : Files Content) : List Record → Files Content → Prop where
  | base : Layers sha256 version backups installed [] installed
  | fix {records : List Record} {record : Record} {files files' : Files Content} (below : Layers sha256 version backups installed records files)
      (top : Fixes sha256 version backups record files files') : Layers sha256 version backups installed (records ++ [record]) files'

structure Inv (sha256 : Content → String) (installed : Files Content) (s : State Content) : Prop where
  layers : Layers sha256 s.version s.backups installed s.records s.files
  sorted : s.records.Pairwise fun a b => a.appliedAt < b.appliedAt
  past : ∀ record ∈ s.records, record.appliedAt ≤ s.clock
  jobs : ∀ record ∈ s.records, record.job ∈ s.claimed
  ids : (s.records.map Record.id).Nodup

variable {version : Component → String} {backups backups' : Backups Content} {installed files files' : Files Content} {records : List Record} {record : Record}

/-! ### Layers -/

theorem layers_concat (h : Layers sha256 version backups installed (records ++ [record]) files') :
    ∃ files, Layers sha256 version backups installed records files ∧ Fixes sha256 version backups record files files' := by
  generalize hall : records ++ [record] = all at h
  cases h with
  | base => simp at hall
  | fix below top =>
    obtain ⟨rfl, hrecord⟩ := List.append_inj' hall rfl
    cases hrecord
    exact ⟨_, below, top⟩

/-- The layers rest on the backups of their records only. -/
theorem Layers.congr (h : Layers sha256 version backups installed records files)
    (hsame : ∀ record ∈ records, ∀ t, backups' (record.id, record.job, t) = backups (record.id, record.job, t)) :
    Layers sha256 version backups' installed records files := by
  induction h with
  | base => exact .base
  | fix below top ih =>
    refine .fix (ih fun record hrecord => hsame record (List.mem_append_left _ hrecord)) { top with before := fun row hrow => ?_ }
    obtain ⟨content, hfile, hhash, hbackup⟩ := top.before row hrow
    exact ⟨content, hfile, hhash, (hsame _ (by simp) row.target).trans hbackup⟩

/-- The rows on a target: none, or one. -/
theorem filter_target (t : Target) {rows : List Row} (hnodup : (rows.map Row.target).Nodup) :
    ((∀ row ∈ rows, row.target ≠ t) ∧ (rows.filter fun row => row.target = t) = []) ∨
      ∃ row ∈ rows, row.target = t ∧ (rows.filter fun row => row.target = t) = [row] := by
  induction rows with
  | nil => simp
  | cons first rows ih =>
    obtain ⟨hfirst, hnodup⟩ := List.nodup_cons.1 hnodup
    by_cases heq : first.target = t
    · subst heq
      have hrest : (rows.filter fun row => row.target = first.target) = [] := by
        refine List.filter_eq_nil_iff.2 fun row hrow => ?_
        simp only [decide_eq_true_eq]
        exact fun heq => hfirst (heq ▸ List.mem_map_of_mem hrow)
      exact .inr ⟨first, by simp, rfl, by simp [hrest]⟩
    · rcases ih hnodup with ⟨hnone, hfilter⟩ | ⟨row, hrow, ht, hfilter⟩
      · exact .inl ⟨by simpa [heq] using hnone, by simp [heq, hfilter]⟩
      · exact .inr ⟨row, by simp [hrow], ht, by simp [heq, hfilter]⟩

/-- On each target the rows of the layers form a chain from the installed file to the current one. -/
theorem Layers.chain (h : Layers sha256 version backups installed records files) (t : Target) :
    let rows := records.flatMap fun record => record.rows.filter fun row => row.target = t
    rows.IsChain (fun a b => a.sha256After = b.sha256Before) ∧ (∀ row, rows.head? = some row → (installed t).map sha256 = some row.sha256Before) ∧
      (∀ row, rows.getLast? = some row → (files t).map sha256 = some row.sha256After) ∧ (rows = [] → files t = installed t) := by
  induction h with
  | base => simp
  | @fix records record files files' below top ih =>
    rw [List.flatMap_append, List.flatMap_singleton]
    obtain ⟨hchain, hfirst, hcurrent, hnone⟩ := ih
    generalize hrows : (records.flatMap fun record => record.rows.filter fun row => row.target = t) = rows at *
    rcases filter_target t top.nodup with ⟨hother, hfilter⟩ | ⟨row, hrow, rfl, hfilter⟩
    · rw [hfilter, List.append_nil, top.other t hother]
      exact ⟨hchain, hfirst, hcurrent, hnone⟩
    · obtain ⟨content, hfile, hbefore, -⟩ := top.before row hrow
      obtain ⟨content', hfile', hafter⟩ := top.after row hrow
      rw [hfilter]
      refine ⟨?_, ?_, ?_, ?_⟩
      · refine List.isChain_append.2 ⟨hchain, List.isChain_singleton _, fun a ha b hb => ?_⟩
        have := hcurrent a ha
        simp only [List.head?_cons, Option.mem_def, Option.some.injEq] at hb
        subst hb
        simpa [hfile, hbefore] using this.symm
      · intro first hhead
        cases rows with
        | nil =>
          simp only [List.nil_append, List.head?_cons, Option.some.injEq] at hhead
          subst hhead
          simp [← hnone rfl, hfile, hbefore]
        | cons head tail => exact hfirst first hhead
      · intro last hlast
        simp only [List.getLast?_concat, Option.some.injEq] at hlast
        subst hlast
        simp [hfile', hafter]
      · simp

/-! ### The guarded block -/

theorem atCheck_of_putBack {fault : ApplyFault Content} {logged : Bool} (h : fault.putBack logged = true) (i : Nat) : fault.atCheck i = none := by
  cases fault <;> first | rfl | simp [ApplyFault.putBack] at h

/-- The guarded block writes every row, or leaves the files as they were. -/
theorem guarded_spec {fault : ApplyFault Content} {logged : Bool} {resolved : List (Resolved Content)} {files : Files Content}
    (hput : fault.putBack logged = true) (hpayload : ∀ r ∈ resolved, sha256 r.payload = r.row.sha256After)
    (hbackup : ∀ r ∈ resolved, files r.row.target = some r.backup) :
    guarded sha256 fault logged resolved files = (overwrite (fun r => r.row.target) (fun r => r.payload) resolved files, .ok ()) ∨
      ∃ reason, guarded sha256 fault logged resolved files = (files, .error reason) := by
  obtain ⟨front, back, hrs, hmutated, hfiles, hstopped, hback⟩ :=
    @writeFiles_listed _ sha256 fault resolved [] files 0 (atCheck_of_putBack hput) hpayload
  have hrestore : restore front (writeFiles sha256 fault 0 resolved files []).files = files := by
    rw [hfiles]
    exact restore_eq fun r hr => hbackup r (hrs ▸ List.mem_append_left _ hr)
  -- a fault that is met without a log line is met before the first write
  have hleft : (if logged then restore front (writeFiles sha256 fault 0 resolved files []).files else (writeFiles sha256 fault 0 resolved files []).files) = files ∨
      back = [] ∧ fault.afterFiles = false := by
    cases logged with
    | true => exact .inl hrestore
    | false =>
      cases fault with
      | nothing | backup i =>
        refine .inr ⟨hback.resolve_right ?_, rfl⟩
        rintro ⟨j, hj⟩
        cases hj
      | copy i =>
        cases i with
        | zero => exact .inl (writeFiles_first rfl)
        | succ i => cases hput
      | check i found => cases hput
      | validate | sync | record | unlink => cases hput
  unfold guarded
  simp only [hmutated, List.nil_append]
  split
  · rename_i hnone hafter
    have hall : resolved = front := by rw [hrs, hstopped.2 hnone, List.append_nil]
    exact .inl (by rw [hfiles, hall])
  · rename_i reason hreason
    rcases hleft with heq | ⟨hnil, -⟩
    · exact .inr ⟨reason, by rw [heq]⟩
    · simp [hstopped.1 hnil] at hreason
  · rename_i hnone hafter
    rcases hleft with heq | ⟨-, hfalse⟩
    · exact .inr ⟨.raised, by rw [heq]⟩
    · simp [hfalse] at hafter

/-! ### Apply -/

/-- The state in which a job starts: it is claimed, and later than every record. -/
structure Ready (sha256 : Content → String) (installed : Files Content) (s : State Content) (job : String) : Prop extends Inv sha256 installed s where
  later : ∀ record ∈ s.records, record.appliedAt < s.clock
  fresh : ∀ record ∈ s.records, record.job ≠ job
  claimed : job ∈ s.claimed

/-- A job leaves the invariant, and files and records as they were unless it succeeds. -/
def Keeps (sha256 : Content → String) (installed : Files Content) (s : State Content) (result : State Content × Except Refusal Unit) : Prop :=
  Inv sha256 installed result.1 ∧ (result.2 = .ok () ∨ result.1.files = s.files ∧ result.1.records = s.records)

theorem strip_of_plainPaths {package : Package Content} {rows : List Row} {effective : Effective} (h : plainPaths files (some package) = true)
    (hrows : normalizeTargets package.manifest = .ok (rows, effective)) {row : Row} (hrow : row ∈ rows) (hfile : (files row.target).isSome) :
    strip row.target.path = row.target.path := by
  simp only [plainPaths, hrows] at h
  have := List.all_eq_true.1 h row hrow
  rw [Bool.or_eq_true, beq_iff_eq] at this
  refine this.resolve_left fun hnone => ?_
  rw [Option.isNone_iff_eq_none] at hnone
  simp [hnone] at hfile

/-- The rows of a manifest, all of them written, make a record that leads from the files to the files. -/
theorem fixes_of_written {s : State Content} {backups : Backups Content} {resolved : List (Resolved Content)} (hnodup : (record.rows.map Row.target).Nodup)
    (hrows : resolved.map (fun r => r.row) = record.rows) (hpaths : ∀ row ∈ record.rows, safeRelative row.target.path = .ok row.target.path)
    (hversion : ∀ c, s.version c = record.baseVersion)
    (hresolved : ∀ r ∈ resolved, s.files r.row.target = some r.backup ∧ sha256 r.backup = r.row.sha256Before ∧
      backups (record.id, record.job, r.row.target) = some r.backup)
    (hpayload : ∀ r ∈ resolved, sha256 r.payload = r.row.sha256After) :
    Fixes sha256 s.version backups record s.files (overwrite (fun r => r.row.target) (fun r => r.payload) resolved s.files) := by
  have hof : ∀ row ∈ record.rows, ∃ r ∈ resolved, r.row = row := fun row hrow => List.mem_map.1 (hrows ▸ hrow)
  have hnodup' : (resolved.map fun r => r.row.target).Nodup := by rwa [← hrows, List.map_map] at hnodup
  constructor
  case nodup => exact hnodup
  case paths => exact hpaths
  case version => exact hversion
  case before =>
    intro row hrow
    obtain ⟨r, hr, rfl⟩ := hof row hrow
    exact ⟨r.backup, hresolved r hr⟩
  case after =>
    intro row hrow
    obtain ⟨r, hr, rfl⟩ := hof row hrow
    exact ⟨r.payload, overwrite_of_mem hnodup' hr, hpayload r hr⟩
  case other =>
    intro t ht
    exact overwrite_of_notMem fun r hr => ht r.row (hrows ▸ List.mem_map_of_mem hr)

/-- A record of the job is put on top. -/
theorem Ready.push {s : State Content} {job : String} {backups : Backups Content} (h : Ready sha256 installed s job)
    (hlayers : Layers sha256 s.version backups installed s.records s.files) (htop : Fixes sha256 s.version backups record s.files files')
    (hid : record.id ∉ s.records.map Record.id) (hjob : record.job = job) (hat : record.appliedAt = s.clock) :
    Inv sha256 installed { s with backups := backups, files := files', records := s.records ++ [record] } := by
  constructor
  case layers => exact .fix hlayers htop
  case sorted =>
    refine List.pairwise_append.2 ⟨h.sorted, List.pairwise_singleton _ _, fun a ha b hb => ?_⟩
    rw [List.mem_singleton.1 hb, hat]
    exact h.later a ha
  case past =>
    intro r hr
    rcases List.mem_append.1 hr with hr | hr
    · exact h.past r hr
    · rw [List.mem_singleton.1 hr, hat]
  case jobs =>
    intro r hr
    rcases List.mem_append.1 hr with hr | hr
    · exact h.jobs r hr
    · rw [List.mem_singleton.1 hr, hjob]
      exact h.claimed
  case ids =>
    rw [List.map_append, List.map_singleton]
    exact List.nodup_append.2 ⟨h.ids, List.nodup_singleton _, fun a ha b hb heq => hid (List.mem_singleton.1 hb ▸ heq ▸ ha)⟩

theorem applyJob_keeps {s : State Content} {job hotfixId baseVersion : String} {package : Option (Package Content)} {fault : ApplyFault Content} {logged : Bool}
    (h : Ready sha256 installed s job) (hput : fault.putBack logged = true) (hplain : plainPaths s.files package = true) :
    Keeps sha256 installed s (applyJob sha256 s job hotfixId package baseVersion fault logged) := by
  unfold applyJob
  cases haccepted : admitInstall sha256 s hotfixId baseVersion package with
  | error reason => exact ⟨h.toInv, .inr ⟨rfl, rfl⟩⟩
  | ok admitted =>
    obtain ⟨writes, effective⟩ := admitted
    obtain ⟨p, rows, rfl, hrows, hmap, hpayload, happlied, hversion⟩ := admitInstall_ok haccepted
    obtain ⟨hnodup, hsafe⟩ := normalizeTargets_ok hrows
    dsimp only
    generalize hresolve : resolve sha256 fault s.files hotfixId job 0 writes s.backups = answer
    obtain ⟨backups, resolved⟩ := answer
    have hother : ∀ record ∈ s.records, ∀ t, backups (record.id, record.job, t) = s.backups (record.id, record.job, t) := by
      intro record hrecord t
      have hsame := @resolve_other _ sha256 fault s.files hotfixId job 0 writes s.backups record.id record.job (h.fresh record hrecord) t
      rwa [hresolve] at hsame
    have hlayers := h.layers.congr hother
    cases resolved with
    | error reason => exact ⟨⟨hlayers, h.sorted, h.past, h.jobs, h.ids⟩, .inr ⟨rfl, rfl⟩⟩
    | ok resolved =>
      obtain ⟨hwrites, hresolved⟩ := resolve_ok (congrArg Prod.snd hresolve)
      rw [hresolve] at hresolved
      have hrowsEq : resolved.map (fun r => r.row) = rows := by rw [← hmap, ← hwrites, List.map_map]; rfl
      have hafter : ∀ r ∈ resolved, sha256 r.payload = r.row.sha256After := fun r hr => hpayload _ (hwrites ▸ List.mem_map_of_mem hr)
      rcases guarded_spec hput hafter fun r hr => (hresolved r hr).1 with hok | ⟨reason, hfailed⟩
      · have hpaths : ∀ row ∈ rows, safeRelative row.target.path = .ok row.target.path := by
          intro row hrow
          obtain ⟨r, hr, rfl⟩ := List.mem_map.1 (hrowsEq ▸ hrow)
          obtain ⟨value, hvalue⟩ := hsafe _ hrow
          exact safeRelative_again hvalue (strip_of_plainPaths hplain hrows hrow (by simp [(hresolved r hr).1]))
        have htop := @fixes_of_written _ sha256 ⟨hotfixId, baseVersion, s.clock, job, effective, rows⟩ s backups resolved hnodup hrowsEq hpaths hversion hresolved hafter
        simp only [hok, hrowsEq]
        split
        · cases hput
        · cases hput
        · exact ⟨h.push hlayers htop happlied rfl rfl, .inl rfl⟩
      · simp only [hfailed]
        exact ⟨⟨hlayers, h.sorted, h.past, h.jobs, h.ids⟩, .inr ⟨rfl, rfl⟩⟩

/-! ### Rollback -/

/-- Records that are in the order of their times are read in that order. -/
theorem Inv.ordered_eq {s : State Content} (h : Inv sha256 installed s) : ordered s.records = s.records :=
  (h.sorted.imp fun hlt => Nat.le_of_lt hlt).insertionSort_eq

theorem Inv.latest {s : State Content} (h : Inv sha256 installed s) : latestRecord s = s.records.getLast? := by rw [latestRecord, h.ordered_eq]

/-- A row of the record on top is read with the content that its file had below it. -/
theorem readRow_eq {s : State Content} (htop : Fixes sha256 s.version s.backups record files s.files) {row : Row} (hrow : row ∈ record.rows) :
    ∃ content, files row.target = some content ∧ sha256 content = row.sha256Before ∧ readRow sha256 s record row = .ok ⟨row, content⟩ := by
  obtain ⟨content, hfile, hbefore, hbackup⟩ := htop.before row hrow
  obtain ⟨current, hcurrent, hafter⟩ := htop.after row hrow
  refine ⟨content, hfile, hbefore, ?_⟩
  unfold readRow
  rw [htop.paths row hrow, ok_bind]
  simp only [hcurrent, hbackup, hafter, hbefore, beq_self_eq_true, require_true, ok_bind]
  rfl

/-- The record on top can be rolled back: its backups are read, and writing them gives the files below it. -/
theorem admitRollback_eq {s : State Content} {records : List Record} (h : Inv sha256 installed s) (hrecords : s.records = records ++ [record])
    (htop : Fixes sha256 s.version s.backups record files s.files) :
    ∃ writes, admitRollback sha256 s record.id = .ok (record, writes) ∧ (∀ w ∈ writes, sha256 w.payload = w.row.sha256Before) ∧
      overwrite (fun w => w.row.target) (fun w => w.payload) writes.reverse s.files = files := by
  have hread : ∀ row ∈ record.rows, ∃ w, readRow sha256 s record row = .ok w := fun row hrow =>
    (readRow_eq htop hrow).elim fun content hcontent => ⟨⟨row, content⟩, hcontent.2.2⟩
  obtain ⟨writes, hwrites⟩ := mapM_ok hread
  have hof : ∀ w ∈ writes, files w.row.target = some w.payload ∧ sha256 w.payload = w.row.sha256Before := by
    intro w hw
    obtain ⟨row, hrow, hread⟩ := mem_of_mapM_ok hwrites hw
    obtain ⟨content, hfile, hbefore, heq⟩ := readRow_eq htop hrow
    obtain rfl : ⟨row, content⟩ = w := Except.ok.inj (heq.symm.trans hread)
    exact ⟨hfile, hbefore⟩
  refine ⟨writes, ?_, fun w hw => (hof w hw).2, overwrite_eq (fun w hw => (hof w (List.mem_reverse.1 hw)).1) fun t ht => ?_⟩
  · unfold admitRollback
    rw [h.latest, hrecords, List.getLast?_concat]
    simp only [beq_self_eq_true, require_true, ok_bind, htop.version, Bool.and_self, hwrites]
    rfl
  · refine htop.other t fun row hrow => ?_
    obtain ⟨w, hw, hread⟩ := mapM_ok_of_mem hwrites hrow
    obtain ⟨content, -, -, heq⟩ := readRow_eq htop hrow
    obtain rfl : ⟨row, content⟩ = w := Except.ok.inj (heq.symm.trans hread)
    exact ht _ (List.mem_reverse.2 hw)

/-- Without a fault every file is restored. -/
theorem restoreFiles_eq {i : Nat} {ws : List (Write Content)} (hpayload : ∀ w ∈ ws, sha256 w.payload = w.row.sha256Before) :
    restoreFiles sha256 .nothing i ws files = (overwrite (fun w => w.row.target) (fun w => w.payload) ws files, none) := by
  induction ws generalizing i files with
  | nil => rfl
  | cons w ws ih =>
    rw [restoreFiles]
    simp only [RollbackFault.atCopy, RollbackFault.atCheck, hpayload w List.mem_cons_self, ne_eq, not_true_eq_false, Bool.false_eq_true, if_false]
    exact ih fun w hw => hpayload w (List.mem_cons_of_mem _ hw)

/-- What is left when the record on top is rolled back. -/
theorem Inv.pop {s : State Content} {records history : List Record} (h : Inv sha256 installed s) (hrecords : s.records = records ++ [record])
    (below : Layers sha256 s.version s.backups installed records files) :
    (s.records.filter fun r => r.id ≠ record.id) = records ∧ Inv sha256 installed { s with files := files, history := history, records := records } := by
  have hids := h.ids
  have hsorted := h.sorted
  have hmem : ∀ r ∈ records, r ∈ s.records := fun r hr => hrecords ▸ List.mem_append_left _ hr
  rw [hrecords] at hsorted
  rw [hrecords, List.map_append, List.map_singleton, List.nodup_append] at hids
  refine ⟨?_, below, (List.pairwise_append.1 hsorted).1, fun r hr => h.past r (hmem r hr), fun r hr => h.jobs r (hmem r hr), hids.1⟩
  rw [hrecords, List.filter_append, List.filter_eq_self.2 fun r hr => ?_]
  · simp
  · simp only [decide_eq_true_eq]
    exact hids.2.2 _ (List.mem_map_of_mem hr) _ (List.mem_singleton_self _)

/-- A rollback of the record on top without a fault gives the state below it. -/
theorem rollbackJob_eq {s : State Content} {records : List Record} (h : Inv sha256 installed s) (hrecords : s.records = records ++ [record])
    (below : Layers sha256 s.version s.backups installed records files) (htop : Fixes sha256 s.version s.backups record files s.files) :
    rollbackJob sha256 s record.id .nothing = ({ s with files := files, history := s.history ++ [record], records := records }, .ok ()) := by
  obtain ⟨writes, haccepted, hpayload, hfiles⟩ := admitRollback_eq h hrecords htop
  have hrestore := @restoreFiles_eq _ sha256 s.files 0 writes.reverse fun w hw => hpayload w (List.mem_reverse.1 hw)
  have hpop := (@Inv.pop _ sha256 installed files record s records [] h hrecords below).1
  unfold rollbackJob
  simp only [haccepted, hrestore, hfiles, hpop]

/-- Where there is a record, the last one is on top of the others. -/
theorem Inv.top {s : State Content} (h : Inv sha256 installed s) (hlast : latestRecord s = some record) :
    ∃ records files, s.records = records ++ [record] ∧ Layers sha256 s.version s.backups installed records files ∧
      Fixes sha256 s.version s.backups record files s.files := by
  rw [h.latest] at hlast
  obtain ⟨records, hrecords⟩ := List.getLast?_eq_some_iff.1 hlast
  have hlayers := h.layers
  rw [hrecords] at hlayers
  obtain ⟨files, below, htop⟩ := layers_concat hlayers
  exact ⟨records, files, hrecords, below, htop⟩

theorem admitRollback_ok {s : State Content} {hotfixId : String} {writes : List (Write Content)} (h : admitRollback sha256 s hotfixId = .ok (record, writes)) :
    latestRecord s = some record ∧ record.id = hotfixId := by
  unfold admitRollback at h
  cases hlast : latestRecord s with
  | none => simp [hlast] at h
  | some latest =>
    simp only [hlast] at h
    obtain ⟨⟨⟩, hid, h⟩ := bind_ok h
    obtain ⟨⟨⟩, -, h⟩ := bind_ok h
    obtain ⟨writes', -, h⟩ := bind_ok h
    cases h
    exact ⟨rfl, by simpa using of_require hid⟩

theorem rollbackJob_keeps {s : State Content} {hotfixId : String} {fault : RollbackFault Content} (h : Inv sha256 installed s) (hearly : fault.early = true) :
    Keeps sha256 installed s (rollbackJob sha256 s hotfixId fault) := by
  have hsame : Keeps sha256 installed s (s, .error .raised) := ⟨h, .inr ⟨rfl, rfl⟩⟩
  cases haccepted : admitRollback sha256 s hotfixId with
  | error reason =>
    rw [rollbackJob, haccepted]
    exact ⟨h, .inr ⟨rfl, rfl⟩⟩
  | ok admitted =>
    obtain ⟨record, writes⟩ := admitted
    obtain ⟨hlast, rfl⟩ := admitRollback_ok haccepted
    obtain ⟨records, files, hrecords, below, htop⟩ := h.top hlast
    have hdone : Keeps sha256 installed s (rollbackJob sha256 s record.id .nothing) := by
      rw [rollbackJob_eq h hrecords below htop]
      exact ⟨(h.pop hrecords below).2, .inl rfl⟩
    cases fault with
    | nothing => exact hdone
    | preflight =>
      rw [rollbackJob, haccepted]
      exact hsame
    | copy i =>
      cases i with
      | succ i => cases hearly
      | zero =>
        rw [rollbackJob, haccepted] at hdone ⊢
        dsimp only at hdone ⊢
        generalize writes.reverse = ws at hdone ⊢
        cases ws with
        | nil => exact hdone
        | cons w ws => exact hsame
    | check i found => cases hearly
    | validate | sync | history | unlink => cases hearly

/-! ### Runs -/

theorem inv_installed (moduleId : String) (version : Component → String) (files : Files Content) : Inv sha256 files (State.installed moduleId version files) :=
  ⟨.base, List.Pairwise.nil, by simp [State.installed], by simp [State.installed], List.nodup_nil⟩

/-- The state in which an unclaimed job starts. -/
def begun (s : State Content) (job : Job Content) : State Content := { s with claimed := job.id :: s.claimed, clock := s.clock + job.elapsed + 1 }

theorem Inv.ready {s : State Content} {job : Job Content} (h : Inv sha256 installed s) (hfree : job.id ∉ s.claimed) :
    Ready sha256 installed (begun s job) job.id := by
  constructor
  case toInv =>
    refine ⟨h.layers, h.sorted, fun r hr => ?_, fun r hr => List.mem_cons_of_mem _ (h.jobs r hr), h.ids⟩
    exact (h.past r hr).trans (by simp only [begun]; omega)
  case later =>
    intro r hr
    have := h.past r hr
    simp only [begun]
    omega
  case fresh =>
    intro r hr heq
    exact hfree (heq ▸ h.jobs r hr)
  case claimed => exact List.mem_cons_self

theorem runJob_keeps {s : State Content} {job : Job Content} (h : Inv sha256 installed s) (hmeets : meets s job = true) :
    Keeps sha256 installed s (runJob sha256 s job) := by
  unfold runJob
  split
  · exact ⟨h, .inr ⟨rfl, rfl⟩⟩
  · rename_i hfree
    have hready := h.ready hfree
    unfold meets at hmeets
    cases haction : job.action with
    | apply package baseVersion fault logged =>
      simp only [haction, Bool.and_eq_true] at hmeets
      exact applyJob_keeps hready hmeets.1 hmeets.2
    | rollback fault =>
      simp only [haction] at hmeets
      exact rollbackJob_keeps hready.toInv hmeets

theorem Inv.explained {s : State Content} (h : Inv sha256 installed s) : Explained sha256 installed s := by
  have hchain : ∀ t, _ := fun t => h.layers.chain t
  have htouching : ∀ t, touching s t = s.records.flatMap fun record => record.rows.filter fun row => row.target = t := fun t => by rw [touching, h.ordered_eq]
  simp only [← htouching] at hchain
  exact ⟨fun t => (hchain t).1, fun t => (hchain t).2.1, fun t => (hchain t).2.2.1, fun t => (hchain t).2.2.2⟩

/-- A rollback of the latest record by an unclaimed job succeeds, and gives the state below it. -/
theorem Inv.rollBack {s : State Content} {job : Job Content} (h : Inv sha256 installed s) (hlast : latestRecord s = some record) (hfree : job.id ∉ s.claimed)
    (haction : job.action = .rollback .nothing) (hid : job.hotfixId = record.id) :
    ∃ records files, s.records = records ++ [record] ∧
      runJob sha256 s job = ({ begun s job with files := files, history := s.history ++ [record], records := records }, .ok ()) := by
  have hready := h.ready hfree
  obtain ⟨records, files, hrecords, below, htop⟩ := hready.toInv.top hlast
  refine ⟨records, files, hrecords, ?_⟩
  unfold runJob
  rw [if_neg hfree]
  simp only [haction, hid]
  exact rollbackJob_eq hready.toInv hrecords below htop

/-- The records are rolled back one after the other, which leaves the installed files. -/
theorem Inv.rollBackAll {s : State Content} (h : Inv sha256 installed s) {jobs : List String} (hnodup : jobs.Nodup) (hfree : ∀ job ∈ jobs, job ∉ s.claimed)
    (hlength : jobs.length = s.records.length) : (jobs.foldl (rollBackLatest sha256) s).records = [] ∧ (jobs.foldl (rollBackLatest sha256) s).files = installed := by
  induction jobs generalizing s with
  | nil =>
    have hnil : s.records = [] := List.length_eq_zero_iff.1 hlength.symm
    have hlayers := h.layers
    rw [hnil] at hlayers
    generalize hfiles : s.files = files at hlayers
    generalize hall : ([] : List Record) = records at hlayers
    cases hlayers with
    | base => exact ⟨hnil, hfiles⟩
    | fix below top => simp at hall
  | cons job jobs ih =>
    obtain ⟨hjob, hnodup⟩ := List.nodup_cons.1 hnodup
    cases hlast : latestRecord s with
    | none =>
      rw [h.latest, List.getLast?_eq_none_iff] at hlast
      simp [hlast] at hlength
    | some record =>
      obtain ⟨records, files, hrecords, hrun⟩ := @Inv.rollBack _ sha256 installed record s ⟨job, record.id, 0, .rollback .nothing⟩ h hlast (hfree job List.mem_cons_self) rfl rfl
      have hstep : rollBackLatest sha256 s job = { begun s ⟨job, record.id, 0, .rollback .nothing⟩ with files := files, history := s.history ++ [record], records := records } := by
        simp only [rollBackLatest, hlast, step, hrun]
      have hinv : Inv sha256 installed (rollBackLatest sha256 s job) := by
        have := (@runJob_keeps _ sha256 installed s ⟨job, record.id, 0, .rollback .nothing⟩ h rfl).1
        simpa only [rollBackLatest, hlast, step] using this
      rw [List.foldl_cons]
      refine ih hinv hnodup (fun other hother => ?_) ?_
      · rw [hstep]
        simp only [begun, List.mem_cons, not_or]
        exact ⟨fun heq => hjob (heq ▸ hother), hfree other (List.mem_cons_of_mem _ hother)⟩
      · rw [hstep]
        simp only [hrecords, List.length_cons, List.length_append, List.length_nil] at hlength
        simpa using hlength

end HotfixAux

/-- The applied hotfixes explain the files. In every run of jobs that each meet the condition, in the state reached: the records lead from the installed files to the
current ones; a job that fails leaves files and records as they were; the latest record can be rolled back; and rolling all of them back gives the installed files. -/
theorem applied_hotfixes_explain_files (sha256 : Content → String) (moduleId : String) (version : Component → String) (files : Files Content)
    (jobs : List (Job Content)) (h : Machine.Along (step sha256) (fun s job => meets s job = true) (State.installed moduleId version files) jobs) :
    let s := jobs.foldl (step sha256) (State.installed moduleId version files)
    Explained sha256 files s ∧
    (∀ job, meets s job = true → (runJob sha256 s job).2 ≠ .ok () → (step sha256 s job).files = s.files ∧ (step sha256 s job).records = s.records) ∧
    (∀ job record, latestRecord s = some record → job.id ∉ s.claimed → job.action = .rollback .nothing → job.hotfixId = record.id →
      (runJob sha256 s job).2 = .ok () ∧ s.records = (step sha256 s job).records ++ [record]) ∧
    ∀ rollbacks : List String, rollbacks.Nodup → (∀ job ∈ rollbacks, job ∉ s.claimed) → rollbacks.length = s.records.length →
      (rollbacks.foldl (rollBackLatest sha256) s).records = [] ∧ (rollbacks.foldl (rollBackLatest sha256) s).files = files := by
  have hinv : HotfixAux.Inv sha256 files (jobs.foldl (step sha256) (State.installed moduleId version files)) :=
    Machine.keeps (P := fun s job => meets s job = true) (fun _ _ hs hmeets => (HotfixAux.runJob_keeps hs hmeets).1)
      (HotfixAux.inv_installed moduleId version files) h
  refine ⟨hinv.explained, fun job hmeets hfailed => ?_, fun job record hlast hfree haction hid => ?_, fun rollbacks hnodup hfree hlength => ?_⟩
  · exact (HotfixAux.runJob_keeps hinv hmeets).2.resolve_left hfailed
  · obtain ⟨records, files', hrecords, hrun⟩ := hinv.rollBack hlast hfree haction hid
    exact ⟨congrArg Prod.snd hrun, by rw [step, hrun]; exact hrecords⟩
  · exact hinv.rollBackAll hnodup hfree hlength

namespace HotfixAux

/-- A digest of short texts: the text, with zeros before it. -/
def padded (content : String) : String := String.ofList (List.replicate (64 - content.length) '0' ++ content.toList)

def menu : Target := ⟨.extension, "ui/menu.js".toList⟩

def menuFiles : Files String := fun t => if t = menu then some "a" else none

/-- A hotfix of the menu. -/
def menuFix (id before after : String) : Package String :=
  ⟨⟨"net", id, "1.0", some [some ⟨"extension", "ui/menu.js", padded before, padded after⟩], false, false, false, false⟩, fun t => if t = menu then some after else none⟩

def applyMenu (job id before after : String) (fault : ApplyFault String) : Job String :=
  ⟨job, id, 0, .apply (some (menuFix id before after)) "1.0" fault true⟩

def menuModule : State String := State.installed "net" (fun _ => "1.0") menuFiles

end HotfixAux

open HotfixAux in
/-- One hotfix is applied, the validation of a second one fails, and the first one is rolled back. -/
theorem failed_second_fix_is_put_back :
    let jobs := [applyMenu "j1" "fix-1" "a" "b" .nothing, applyMenu "j2" "fix-2" "b" "c" .validate, ⟨"j3", "fix-1", 5, .rollback .nothing⟩]
    Machine.Along (step padded) (fun s job => meets s job = true) menuModule jobs ∧ Explained padded menuFiles (jobs.foldl (step padded) menuModule) ∧
      ((jobs.take 2).foldl (step padded) menuModule).records.map Record.id = ["fix-1"] := by
  have hmeets : Machine.Along (step padded) (fun s job => meets s job = true) menuModule
      [applyMenu "j1" "fix-1" "a" "b" .nothing, applyMenu "j2" "fix-2" "b" "c" .validate, ⟨"j3", "fix-1", 5, .rollback .nothing⟩] := by decide_cbv
  exact ⟨hmeets, (applied_hotfixes_explain_files padded "net" (fun _ => "1.0") menuFiles _ hmeets).1, by decide_cbv⟩

open HotfixAux in
/-- A rollback whose validation fails: the file is the installed one, the record is still there, and no rollback gets past it again. -/
theorem failed_rollback_is_not_put_back :
    let s := [applyMenu "j1" "fix-1" "a" "b" .nothing, ⟨"j2", "fix-1", 0, .rollback .validate⟩].foldl (step padded) menuModule
    ¬ Explained padded menuFiles s ∧ s.files menu = some "a" ∧ s.records.map Record.id = ["fix-1"] ∧
      (runJob padded s ⟨"j3", "fix-1", 0, .rollback .nothing⟩).2 = .error .currentHashChanged := by
  have hrun : let s := [applyMenu "j1" "fix-1" "a" "b" .nothing, ⟨"j2", "fix-1", 0, .rollback .validate⟩].foldl (step padded) menuModule
      (touching s menu).getLast? = some ⟨menu, padded "a", padded "b"⟩ ∧ s.files menu = some "a" ∧ s.records.map Record.id = ["fix-1"] ∧
        (runJob padded s ⟨"j3", "fix-1", 0, .rollback .nothing⟩).2 = .error .currentHashChanged := by decide +kernel
  refine ⟨fun h => ?_, hrun.2⟩
  have hlast := h.current menu ⟨menu, padded "a", padded "b"⟩ hrun.1
  rw [hrun.2.1] at hlast
  exact absurd hlast (by decide +kernel)

end Hotfix

end TecTac
