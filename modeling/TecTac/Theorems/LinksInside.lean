import TecTac.ArchiveLinks

/-!
# Links of an archive

`safe_tar_members` takes two dots off the text of a path, while the system follows a link before two dots lead up from it; it reads a backslash as a slash, and it does not ask what a hard link
refers to. Where no path has a backslash, two dots stand behind no link and no hard link refers to a symbolic one, what is accepted stays inside.
-/

namespace TecTac

namespace RecoveryPayload

open LinkTree

/-- The path of a symbolic link of an archive. -/
def IsLink (members : List Member) (q : List Name) : Prop := q ≠ [] ∧ ∃ member ∈ members, member.kind = .symlink ∧ normalizeTarNamespacePath member.name [] = some q

/-- In the text of a path, two dots follow no link. -/
def DotsClear (links : List Name → Prop) : List Name → List Part → Prop
  | _, [] => True
  | done, .up :: rest => Clear links done ∧ DotsClear links done.dropLast rest
  | done, .into name :: rest => DotsClear links (done ++ [name]) rest

/-- A path means to the system what it means to the check. -/
def ReadAlike (links : List Name → Prop) (base : List Name) (raw : List Char) : Prop := '\\' ∉ raw ∧ DotsClear links base (parts raw)

/-- Every path of an archive is read alike, and no hard link refers to a symbolic link. -/
structure PlainArchive (members : List Member) : Prop where
  names : ∀ member ∈ members, ReadAlike (IsLink members) [] member.name
  symlinks : ∀ member ∈ members, member.kind = .symlink → ∀ q, normalizeTarNamespacePath member.name [] = some q → ReadAlike (IsLink members) q.dropLast member.linkname
  hardlinks : ∀ member ∈ members, member.kind = .hardlink → ReadAlike (IsLink members) [] member.linkname ∧
    ∀ q, normalizeTarNamespacePath member.linkname [] = some q → ¬ IsLink members q

/-- No path that is followed while the members are created, or afterwards, leaves the folder, and each hard link is another name of a member. -/
structure StaysInside (members : List Member) (paths : List (List Name)) : Prop where
  creating : ∀ t member rest sources, Extracting members t (member :: rest) sources → ∀ front, front <+: parts member.name → ∀ p, Makes (t, ⟨[], front⟩) p → ¬ Leaves p.1 p.2
  linking : ∀ t member rest sources, Extracting members t (member :: rest) sources → member.kind = .hardlink → ∀ front p, front <+: parts member.name → Makes (t, ⟨[], front⟩) p →
    ∀ w, Follows p.1 ⟨[], parts member.linkname⟩ w → ¬ Leaves p.1 w
  following : ∀ t sources, Extracting members t [] sources → ∀ member ∈ members, ∀ w, Follows t ⟨[], parts member.name⟩ w → ¬ Leaves t w
  sources : ∀ t rest sources, Extracting members t rest sources → ∀ source ∈ sources, source ∈ paths

namespace LinksAux

/-! ## The check -/

theorem map_noBackslash {raw : List Char} (h : '\\' ∉ raw) : (raw.map fun c => if c = '\\' then '/' else c) = raw := by
  have hid : (raw.map fun c => if c = '\\' then '/' else c) = raw.map id := by
    refine List.map_congr_left fun c hc => if_neg fun heq => ?_
    subst heq
    exact h hc
  rw [hid, List.map_id]

theorem foldl_enter_none (names : List Name) : names.foldl RecoveryPayload.enter none = none := by
  induction names with
  | nil => rfl
  | cons name names ih => exact ih

/-- The path that the check finds is the textual one. -/
theorem textual_of_foldl {names : List Name} {done q : List Name} (h : names.foldl RecoveryPayload.enter (some done) = some q) :
    textual done (names.map fun name => if name = ['.', '.'] then .up else .into name) = q := by
  induction names generalizing done with
  | nil => exact Option.some.inj h
  | cons name names ih =>
    rw [List.foldl_cons] at h
    rw [List.map_cons, textual, List.foldl_cons]
    by_cases hdots : name = ['.', '.']
    · by_cases hempty : done = []
      · rw [RecoveryPayload.enter, Option.bind_some, if_pos hdots, if_pos hempty, foldl_enter_none] at h
        cases h
      · rw [RecoveryPayload.enter, Option.bind_some, if_pos hdots, if_neg hempty] at h
        rw [if_pos hdots]
        exact ih h
    · rw [RecoveryPayload.enter, Option.bind_some, if_neg hdots] at h
      rw [if_neg hdots]
      exact ih h

/-- What the check accepts is safe where two dots follow no link. -/
theorem safe_of_foldl {links : List Name → Prop} {names : List Name} {done q : List Name} (h : names.foldl RecoveryPayload.enter (some done) = some q)
    (hdots : DotsClear links done (names.map fun name => if name = ['.', '.'] then .up else .into name)) :
    Safe links done (names.map fun name => if name = ['.', '.'] then .up else .into name) := by
  induction names generalizing done with
  | nil => trivial
  | cons name names ih =>
    rw [List.foldl_cons] at h
    rw [List.map_cons] at hdots ⊢
    by_cases hname : name = ['.', '.']
    · rw [if_pos hname] at hdots ⊢
      by_cases hempty : done = []
      · rw [RecoveryPayload.enter, Option.bind_some, if_pos hname, if_pos hempty, foldl_enter_none] at h
        cases h
      · rw [RecoveryPayload.enter, Option.bind_some, if_pos hname, if_neg hempty] at h
        exact ⟨hempty, hdots.1, ih h hdots.2⟩
    · rw [if_neg hname] at hdots ⊢
      rw [RecoveryPayload.enter, Option.bind_some, if_neg hname] at h
      exact ih h hdots

/-- A path that is read alike is no absolute path, is safe, and leads in the text to where the check finds it. -/
theorem of_readAlike {links : List Name → Prop} {base q : List Name} {raw : List Char} (h : normalizeTarNamespacePath raw base = some q) (hread : ReadAlike links base raw) :
    PosixPath.isAbsolute raw = false ∧ Safe links base (parts raw) ∧ textual base (parts raw) = q := by
  unfold normalizeTarNamespacePath at h
  rw [map_noBackslash hread.1] at h
  simp only at h
  split at h
  · cases h
  · rename_i hnot
    rw [Bool.or_eq_true, not_or] at hnot
    exact ⟨by simpa using hnot.2, safe_of_foldl h hread.2, textual_of_foldl h⟩

/-- What `safe_tar_members` has checked. -/
structure Checked (members : List Member) (paths : List (List Name)) : Prop where
  path : ∀ member ∈ members, ∃ q ∈ paths, normalizeTarNamespacePath member.name [] = some q
  parents : ∀ q ∈ paths, Clear (IsLink members) q.dropLast
  symlink : ∀ member ∈ members, member.kind = .symlink → ∀ q, normalizeTarNamespacePath member.name [] = some q → ∃ target, normalizeTarNamespacePath member.linkname q.dropLast = some target
  hardlink : ∀ member ∈ members, member.kind = .hardlink → ∃ target ∈ paths, normalizeTarNamespacePath member.linkname [] = some target

theorem exists_zip {members : List Member} {paths : List (List Name)} (h : members.mapM (fun member => normalizeTarNamespacePath member.name []) = some paths) {member : Member}
    (hmember : member ∈ members) : ∃ q, (member, q) ∈ members.zip paths ∧ q ∈ paths ∧ normalizeTarNamespacePath member.name [] = some q := by
  induction members generalizing paths with
  | nil => cases hmember
  | cons first members ih =>
    rw [List.mapM_cons] at h
    obtain ⟨q, hq, h⟩ := Option.bind_eq_some_iff.1 h
    obtain ⟨qs, hqs, h⟩ := Option.bind_eq_some_iff.1 h
    obtain rfl : q :: qs = paths := Option.some.inj h
    rcases List.mem_cons.1 hmember with rfl | hmember
    · exact ⟨q, List.mem_cons_self, List.mem_cons_self, hq⟩
    · obtain ⟨q', hzip, hmem, heq⟩ := ih hqs hmember
      exact ⟨q', List.mem_cons_of_mem _ hzip, List.mem_cons_of_mem _ hmem, heq⟩

theorem checked_of_safe {members : List Member} {paths : List (List Name)} (h : safeTarMembers members = some paths) : Checked members paths := by
  unfold safeTarMembers at h
  obtain ⟨found, hfound, h⟩ := Option.bind_eq_some_iff.1 h
  simp only at h
  split at h
  · rename_i hall
    obtain rfl := Option.some.inj h
    simp only [Bool.and_eq_true, List.all_eq_true] at hall
    obtain ⟨⟨-, hparents⟩, hlinks⟩ := hall
    have hzip {member : Member} (hmember : member ∈ members) {q : List Name} (hq : normalizeTarNamespacePath member.name [] = some q) : (member, q) ∈ members.zip found := by
      obtain ⟨q', hzip, -, hq'⟩ := exists_zip hfound hmember
      exact Option.some.inj (hq.symm.trans hq') ▸ hzip
    refine ⟨fun member hmember => ?_, fun q hq p hp hlink => ?_, fun member hmember hkind q hq => ?_, fun member hmember hkind => ?_⟩
    · obtain ⟨q, -, hmem, heq⟩ := exists_zip hfound hmember
      exact ⟨q, hmem, heq⟩
    · obtain ⟨hne, member, hmember, hkind, hpath⟩ := hlink
      have hnone := hparents q hq
      rw [Bool.not_eq_true', List.any_eq_false] at hnone
      refine hnone p ((List.mem_inits _ _).2 hp) ?_
      rw [Bool.and_eq_true, bne_iff_ne, List.contains_iff_mem, List.mem_map]
      exact ⟨hne, (member, p), List.mem_filter.2 ⟨hzip hmember hpath, by simp [hkind]⟩, rfl⟩
    · have hok := hlinks _ (hzip hmember hq)
      unfold linkOk at hok
      rw [hkind] at hok
      exact Option.isSome_iff_exists.1 hok
    · obtain ⟨q, -, -, hq⟩ := exists_zip hfound hmember
      have hok := hlinks _ (hzip hmember hq)
      unfold linkOk at hok
      rw [hkind] at hok
      obtain ⟨target, htarget, hmem⟩ := (Option.any_eq_true _ _).1 hok
      exact ⟨target, List.contains_iff_mem.1 hmem, htarget⟩
  · cases h

/-! ## Creating the members -/

section

variable {members : List Member} {paths : List (List Name)}

theorem safe_name (hchecked : Checked members paths) (hplain : PlainArchive members) {member : Member} (hmember : member ∈ members) : Safe (IsLink members) [] (parts member.name) := by
  obtain ⟨q, -, hq⟩ := hchecked.path member hmember
  exact (of_readAlike hq (hplain.names member hmember)).2.1

/-- The folder of a path is reached where the text has it. -/
theorem folder_of_textual {front : List Part} {name : Name} {q : List Name} {raw : List Char} (hsafe : Safe (IsLink members) [] (parts raw))
    (htextual : textual [] (parts raw) = q) (hclear : Clear (IsLink members) q.dropLast) (hparts : parts raw = front ++ [.into name]) :
    Open (IsLink members) [] front ∧ textual [] front ++ [name] = q := by
  rw [hparts] at hsafe htextual
  rw [textual, List.foldl_append] at htextual
  replace htextual : textual [] front ++ [name] = q := htextual
  refine ⟨open_of_safe ( safe_of_prefix hsafe (List.prefix_append front _)) ?_, htextual⟩
  rw [← htextual, List.dropLast_concat] at hclear
  exact hclear

/-- A hard link is taken from the place of a member, and what is there is no symbolic link. -/
theorem of_located (hchecked : Checked members paths) (hplain : PlainArchive members) {t : Tree} (ht : Guarded (IsLink members) t) {member : Member} (hmember : member ∈ members)
    (hkind : member.kind = .hardlink) {source : List Name} (h : Located t member.linkname source) : source ∈ paths ∧ ¬ IsLink members source := by
  obtain ⟨target, htarget, hnormal⟩ := hchecked.hardlink member hmember hkind
  obtain ⟨hread, hnolink⟩ := hplain.hardlinks member hmember hkind
  obtain ⟨-, hsafe, htextual⟩ := of_readAlike hnormal hread
  cases h with
  | @found front name folder hparts hfollows =>
    obtain ⟨hopen, heq⟩ := folder_of_textual hsafe htextual (hchecked.parents target htarget) hparts
    have hfolder : folder = textual [] front := (open_follows ht hopen hfollows).2
    rw [hfolder, heq]
    exact ⟨htarget, hnolink target hnormal⟩

theorem guarded_created (hchecked : Checked members paths) (hplain : PlainArchive members) {t t' : Tree} {member : Member} (hmember : member ∈ members) {source : Option (List Name)}
    (ht : Guarded (IsLink members) t) (h : Created t member t' source) : Guarded (IsLink members) t' ∧ ∀ q ∈ source, q ∈ paths := by
  cases h with
  | folder _ hmakes => exact ⟨guarded_makes ht hmakes, nofun⟩
  | named hparts hmakes hplaced =>
    rename_i t₁ front name folder
    obtain ⟨q, hq, hnormal⟩ := hchecked.path member hmember
    obtain ⟨-, hsafe, htextual⟩ := of_readAlike hnormal (hplain.names member hmember)
    obtain ⟨hopen, heq⟩ := folder_of_textual hsafe htextual (hchecked.parents q hq) hparts
    have ht₁ : Guarded (IsLink members) t₁ := guarded_makes ht hmakes
    have hfolder : folder = textual [] front := (open_makes ht hopen hmakes).2
    rw [hfolder, heq] at hplaced
    cases hplaced with
    | there => exact ⟨ht₁, nofun⟩
    | made hnot =>
      refine ⟨guarded_set ht₁ fun absolute target hentry => ?_, nofun⟩
      have hsymlink : member.kind = .symlink ∧ absolute = PosixPath.isAbsolute member.linkname ∧ target = parts member.linkname := by
        unfold Member.entry at hentry
        cases hkind : member.kind <;> rw [hkind] at hentry
        case symlink => exact ⟨rfl, (LinkTree.Entry.link.inj hentry).1.symm, (LinkTree.Entry.link.inj hentry).2.symm⟩
        all_goals cases hentry
      obtain ⟨hkind, rfl, rfl⟩ := hsymlink
      obtain ⟨place, hplace⟩ := hchecked.symlink member hmember hkind q hnormal
      obtain ⟨habsolute, htarget, -⟩ := of_readAlike hplace (hplain.symlinks member hmember hkind q hnormal)
      refine ⟨⟨fun hempty => ?_, member, hmember, hkind, hnormal⟩, habsolute, htarget⟩
      rw [← heq] at hempty
      exact absurd hempty (by simp)
    | linked hkind hlocated hentry =>
      rename_i place entry _ _
      obtain ⟨hplace, hnolink⟩ := of_located hchecked hplain ht₁ hmember hkind hlocated
      refine ⟨guarded_set ht₁ fun absolute target heq' => ?_, fun p hp => Option.some.inj hp ▸ hplace⟩
      subst heq'
      cases hlocated
      exact absurd (ht₁ _ _ _ _ hentry).1 hnolink

theorem guarded_emptyFolder : Guarded (IsLink members) emptyFolder := by
  intro done name absolute target h
  unfold emptyFolder at h
  split at h
  · cases Option.some.inj h
  · cases h

/-- What holds while the members are created. -/
theorem extracting_ok (hchecked : Checked members paths) (hplain : PlainArchive members) {t : Tree} {rest : List Member} {sources : List (List Name)} (h : Extracting members t rest sources) :
    Guarded (IsLink members) t ∧ (∀ member ∈ rest, member ∈ members) ∧ ∀ source ∈ sources, source ∈ paths := by
  induction h with
  | start => exact ⟨guarded_emptyFolder, fun member h => h, nofun⟩
  | next _ hcreated ih =>
    obtain ⟨ht, hrest, hsources⟩ := ih
    obtain ⟨ht', hsource⟩ := guarded_created hchecked hplain (hrest _ List.mem_cons_self) ht hcreated
    refine ⟨ht', fun member hmember => hrest member (List.mem_cons_of_mem _ hmember), fun q hq => ?_⟩
    rcases List.mem_append.1 hq with hq | hq
    · exact hsource q (Option.mem_toList.1 hq)
    · exact hsources q hq

end

end LinksAux

open LinksAux

/-- A folder with a link out of it to a file, and another name of that file. -/
def sampleArchive : List Member := [⟨"d".toList, .dir, []⟩, ⟨"d/s".toList, .symlink, "../e".toList⟩, ⟨"e".toList, .file, []⟩, ⟨"h".toList, .hardlink, "e".toList⟩]

/-- A link to its own folder's folder, and a link that goes up behind it. -/
def dottedArchive : List Member := [⟨"d".toList, .dir, []⟩, ⟨"d/s".toList, .symlink, "..".toList⟩, ⟨"t".toList, .symlink, "d/s/..".toList⟩]

namespace LinksAux

theorem dotsClear_of_notMem {links : List Name → Prop} {done : List Name} {todo : List Part} (h : Part.up ∉ todo) : DotsClear links done todo := by
  induction todo generalizing done with
  | nil => trivial
  | cons part rest ih =>
    rw [List.mem_cons, not_or] at h
    cases part with
    | up => exact absurd rfl h.1
    | into name => exact ih h.2

theorem sampleArchive_links {q : List Name} (h : IsLink sampleArchive q) : q = ["d".toList, "s".toList] := by
  obtain ⟨-, member, hmember, hkind, hpath⟩ := h
  revert hkind hpath
  simp only [sampleArchive, List.mem_cons, List.not_mem_nil, or_false] at hmember
  rcases hmember with rfl | rfl | rfl | rfl
  · exact fun hkind => by cases hkind
  · exact fun _ hpath => Option.some.inj (hpath.symm.trans (by decide))
  · exact fun hkind => by cases hkind
  · exact fun hkind => by cases hkind

theorem sampleArchive_plain : PlainArchive sampleArchive := by
  have hnames : ∀ member ∈ sampleArchive, '\\' ∉ member.name ∧ LinkTree.Part.up ∉ parts member.name := by decide
  have hlinks : ∀ member ∈ sampleArchive, member.kind = .hardlink → '\\' ∉ member.linkname ∧ LinkTree.Part.up ∉ parts member.linkname ∧
      normalizeTarNamespacePath member.linkname [] = some ["e".toList] := by decide
  refine ⟨fun member hmember => ⟨(hnames member hmember).1, dotsClear_of_notMem (hnames member hmember).2⟩, fun member hmember hkind q hq => ?_, fun member hmember hkind => ?_⟩
  · have hnone : ∀ member ∈ sampleArchive, normalizeTarNamespacePath member.name [] ≠ some [] := by decide
    have htarget : ∀ member ∈ sampleArchive, member.kind = .symlink → member.linkname = "../e".toList := by decide
    have hne : q ≠ [] := fun hempty => hnone member hmember (hempty ▸ hq)
    obtain rfl := sampleArchive_links ⟨hne, member, hmember, hkind, hq⟩
    rw [htarget member hmember hkind]
    refine ⟨by decide, fun p hp hlink => ?_, trivial⟩
    obtain rfl := sampleArchive_links hlink
    exact absurd hp (by decide)
  · obtain ⟨hbackslash, hup, hpath⟩ := hlinks member hmember hkind
    refine ⟨⟨hbackslash, dotsClear_of_notMem hup⟩, fun q hq hlink => ?_⟩
    obtain rfl := sampleArchive_links hlink
    exact absurd (hq.symm.trans hpath) (by decide)

end LinksAux

end RecoveryPayload

end TecTac
