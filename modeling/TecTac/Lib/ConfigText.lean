import TecTac.Lib.Text

/-!
# Configuration texts

A configuration text has lines of `key = value` under section headers. It is read line by line: blanks around a key and around a value do not count, and the first `=` of a line
ends its key. What was rendered is read back exactly where no value runs over the end of its line.
-/

namespace ConfigText

open TecTac (isSpace strip stripText)

/-- A line as it is read. -/
inductive Line where
  | section (name : String)
  | pair (key value : String)
  | other (text : String)
  deriving DecidableEq

/-- Read a line; a blank one says nothing. -/
def readLine (line : List Char) : Option Line :=
  if strip line = [] then none
  else if (strip line).head? = some '[' ∧ (strip line).getLast? = some ']' then some (.section (String.ofList (strip line).tail.dropLast))
  else
    match line.dropWhile (· != '=') with
    | [] => some (.other (String.ofList (strip line)))
    | _ :: value => some (.pair (String.ofList (strip (line.takeWhile (· != '=')))) (String.ofList (strip value)))

/-- Read a text. -/
def read (text : String) : List Line := (text.toList.splitOn '\n').filterMap readLine

/-- The line of a pair. -/
def renderPair (p : String × String) : String := p.1 ++ " = " ++ p.2

/-- One section with its pairs, each on a line of its own; the last line ends too. -/
def render (name : String) (pairs : List (String × String)) : String :=
  "\n".intercalate (("[" ++ name ++ "]") :: pairs.map renderPair) ++ "\n"

/-- A key that a reader takes whole. -/
def isKey (key : String) : Bool := key != "" && key.toList.all fun c => !isSpace c && c != '=' && c != '[' && c != '\n'

/-- The name of a section that a reader takes whole. -/
def isSection (name : String) : Bool := name.toList.all fun c => !isSpace c && c != '\n'

theorem of_isKey {key : String} (h : isKey key = true) : key.toList ≠ [] ∧ ∀ c ∈ key.toList, isSpace c = false ∧ c ≠ '=' ∧ c ≠ '[' ∧ c ≠ '\n' := by
  simp only [isKey, Bool.and_eq_true, bne_iff_ne, ne_eq, List.all_eq_true, Bool.not_eq_true', and_assoc] at h
  refine ⟨fun hnil => h.1 (String.toList_eq_nil_iff.1 hnil), ?_⟩
  intro c hc
  exact h.2 c hc

/-- A line that starts with no blank is stripped at its end only. -/
theorem strip_cons {c : Char} (hc : isSpace c = false) (line : List Char) : ∃ rest, strip (c :: line) = c :: rest := by
  unfold strip
  rw [List.dropWhile_cons_of_neg (by simp [hc])]
  have hlast : (c :: line).reverse = line.reverse ++ [c] := List.reverse_cons
  rw [hlast, List.dropWhile_append]
  split
  · rw [List.dropWhile_cons_of_neg (by simp [hc])]
    exact ⟨[], rfl⟩
  · rw [List.reverse_append]
    exact ⟨_, rfl⟩

/-- Blanks before a text do not count. -/
theorem strip_blank (line : List Char) : strip (' ' :: line) = strip line := by
  unfold strip
  rw [List.dropWhile_cons_of_pos (by decide)]

/-- Blanks after a text do not count. -/
theorem strip_append_blank {s : List Char} (h : ∀ c ∈ s, isSpace c = false) : strip (s ++ [' ']) = s := by
  cases s with
  | nil => decide
  | cons c s =>
    have hc := h c List.mem_cons_self
    unfold strip
    rw [List.cons_append, List.dropWhile_cons_of_neg (by simp [hc]), ← List.cons_append, List.reverse_append]
    change (((' ' :: (c :: s).reverse).dropWhile isSpace)).reverse = c :: s
    rw [List.dropWhile_cons_of_pos (by decide), TecTac.dropWhile_eq_self fun d hd => h d (List.mem_reverse.1 hd), List.reverse_reverse]

/-- The line of a pair is read as the pair, up to the blanks around its value. -/
theorem readLine_pair {key : String} (hkey : isKey key = true) (value : List Char) :
    readLine (key.toList ++ (' ' :: '=' :: ' ' :: value)) = some (.pair key (String.ofList (strip value))) := by
  obtain ⟨hne, hchars⟩ := of_isKey hkey
  obtain ⟨c, rest, hcons⟩ := List.exists_cons_of_ne_nil hne
  have hc := hchars c (by rw [hcons]; exact List.mem_cons_self)
  obtain ⟨stripped, hstrip⟩ := strip_cons hc.1 (rest ++ (' ' :: '=' :: ' ' :: value))
  have hline : strip (key.toList ++ (' ' :: '=' :: ' ' :: value)) = c :: stripped := by rw [hcons, List.cons_append, hstrip]
  have hbefore : (key.toList ++ (' ' :: '=' :: ' ' :: value)).takeWhile (· != '=') = key.toList ++ [' '] := by
    rw [List.takeWhile_append_of_pos fun d hd => by simpa using (hchars d hd).2.1]
    rfl
  have hafter : (key.toList ++ (' ' :: '=' :: ' ' :: value)).dropWhile (· != '=') = '=' :: ' ' :: value := by
    rw [List.dropWhile_append_of_pos fun d hd => by simpa using (hchars d hd).2.1]
    rfl
  unfold readLine
  rw [hline, if_neg (by simp), if_neg, hbefore, hafter]
  · simp only
    rw [strip_blank, strip_append_blank fun d hd => (hchars d hd).1, String.ofList_toList]
  · rintro ⟨hhead, -⟩
    exact hc.2.2.1 (Option.some.inj hhead)

theorem readLine_section {name : String} (hname : isSection name = true) : readLine (("[" ++ name ++ "]").toList) = some (.section name) := by
  simp only [isSection, List.all_eq_true, Bool.and_eq_true, Bool.not_eq_true', bne_iff_ne, ne_eq] at hname
  have hlist : ("[" ++ name ++ "]").toList = '[' :: (name.toList ++ [']']) := by simp
  have hstrip : strip ('[' :: (name.toList ++ [']'])) = '[' :: (name.toList ++ [']']) := by
    refine TecTac.strip_eq_self ?_
    intro c hc
    simp only [List.mem_cons, List.mem_append, List.not_mem_nil, or_false] at hc
    rcases hc with rfl | hc | rfl
    · decide
    · exact (hname c hc).1
    · decide
  unfold readLine
  rw [hlist, hstrip, if_neg (by simp), if_pos ⟨rfl, by rw [List.getLast?_cons, List.getLast?_concat]; rfl⟩]
  simp

/-- The lines of a rendered text are the lines that the rendered lines split into, and an empty one. -/
theorem splitOn_lines (lines : List (List Char)) (hne : lines ≠ []) :
    ((['\n'].intercalate lines) ++ ['\n']).splitOn '\n' = lines.flatMap (List.splitOn '\n') ++ [[]] := by
  induction lines with
  | nil => exact absurd rfl hne
  | cons first rest ih =>
    cases rest with
    | nil =>
      have hone : ['\n'].intercalate [first] = first := by simp
      rw [hone, List.splitOn_append_cons_self]
      simp
    | cons second rest =>
      rw [List.intercalate_cons_cons, List.append_assoc, List.append_assoc, List.singleton_append, List.splitOn_append_cons_self, ih (by simp), ← List.append_assoc]
      rfl

theorem toList_render (name : String) (pairs : List (String × String)) :
    (render name pairs).toList = (['\n'].intercalate (("[" ++ name ++ "]").toList :: pairs.map fun p => p.1.toList ++ (' ' :: '=' :: ' ' :: p.2.toList))) ++ ['\n'] := by
  have hpair : String.toList ∘ renderPair = fun p => p.1.toList ++ (' ' :: '=' :: ' ' :: p.2.toList) := by
    funext p
    simp [renderPair]
  unfold render
  rw [String.toList_append, String.toList_intercalate, List.map_cons, List.map_map, hpair]
  rfl

theorem splitOn_of_notMem {line : List Char} (h : '\n' ∉ line) : line.splitOn '\n' = [line] := by
  have := List.splitOn_intercalate '\n' (show ∀ l ∈ [line], '\n' ∉ l by simpa using h) (by simp)
  simpa using this

/-- What is read of a rendered text: the header, then what each pair is read as. -/
theorem read_render {name : String} (hname : isSection name = true) (pairs : List (String × String)) :
    read (render name pairs) = .section name :: pairs.flatMap fun p => ((p.1.toList ++ (' ' :: '=' :: ' ' :: p.2.toList)).splitOn '\n').filterMap readLine := by
  have hheader : '\n' ∉ ("[" ++ name ++ "]").toList := by
    simp only [isSection, List.all_eq_true, Bool.and_eq_true, Bool.not_eq_true', bne_iff_ne, ne_eq] at hname
    simp only [String.toList_append, List.mem_append, not_or]
    exact ⟨⟨by decide, fun hmem => (hname '\n' hmem).2 rfl⟩, by decide⟩
  unfold read
  rw [toList_render, splitOn_lines _ (by simp), List.filterMap_append, List.flatMap_cons, splitOn_of_notMem hheader, List.filterMap_append]
  have hempty : [([] : List Char)].filterMap readLine = [] := by decide
  rw [hempty, List.append_nil, List.filterMap_cons, readLine_section hname, List.flatMap_map, List.filterMap_flatMap]
  rfl

/-- A key and a value that stays on its line make one line. -/
theorem notMem_line {key : String} (hkey : isKey key = true) {value : List Char} (h : '\n' ∉ value) : '\n' ∉ key.toList ++ (' ' :: '=' :: ' ' :: value) := by
  intro hmem
  simp only [List.mem_append, List.mem_cons] at hmem
  rcases hmem with hmem | heq | heq | heq | hmem
  · exact ((of_isKey hkey).2 '\n' hmem).2.2.2 rfl
  · exact absurd heq (by decide)
  · exact absurd heq (by decide)
  · exact absurd heq (by decide)
  · exact h hmem

/-- A pair whose value stays on its line. -/
theorem read_of_line {key : String} (hkey : isKey key = true) {value : List Char} (h : '\n' ∉ value) :
    ((key.toList ++ (' ' :: '=' :: ' ' :: value)).splitOn '\n').filterMap readLine = [.pair key (String.ofList (strip value))] := by
  rw [splitOn_of_notMem (notMem_line hkey h), List.filterMap_cons, readLine_pair hkey]
  rfl

/-- Where every value stays on its line the pairs are read back. -/
theorem read_render_of_lines {name : String} (hname : isSection name = true) {pairs : List (String × String)} (h : ∀ p ∈ pairs, isKey p.1 = true ∧ '\n' ∉ p.2.toList) :
    read (render name pairs) = .section name :: pairs.map fun p => .pair p.1 (stripText p.2) := by
  rw [read_render hname]
  congr 1
  induction pairs with
  | nil => rfl
  | cons p pairs ih =>
    have hp := h p List.mem_cons_self
    rw [List.flatMap_cons, List.map_cons, ih fun q hq => h q (List.mem_cons_of_mem _ hq), read_of_line hp.1 hp.2]
    rfl

/-- Of every pair that was rendered the key is read, with what is on the line of it. -/
theorem exists_pair_of_mem {name : String} (hname : isSection name = true) {pairs : List (String × String)} {p : String × String} (hmem : p ∈ pairs) (hkey : isKey p.1 = true) :
    ∃ value, .pair p.1 value ∈ read (render name pairs) ∧ '\n' ∉ value.toList := by
  -- the value up to the first end of a line is read with the key
  obtain ⟨first, rest, hsplit, hfirst⟩ : ∃ first rest, (p.1.toList ++ (' ' :: '=' :: ' ' :: p.2.toList)).splitOn '\n' = (p.1.toList ++ (' ' :: '=' :: ' ' :: first)) :: rest ∧ '\n' ∉ first := by
    by_cases hin : '\n' ∈ p.2.toList
    · obtain ⟨before, after, hcut, hbefore⟩ := List.eq_append_cons_of_mem hin
      refine ⟨before, after.splitOn '\n', ?_, hbefore⟩
      have hjoin : p.1.toList ++ (' ' :: '=' :: ' ' :: p.2.toList) = (p.1.toList ++ (' ' :: '=' :: ' ' :: before)) ++ '\n' :: after := by
        rw [hcut]
        simp
      rw [hjoin, List.splitOn_append_cons_self, splitOn_of_notMem (notMem_line hkey hbefore)]
      rfl
    · exact ⟨p.2.toList, [], splitOn_of_notMem (notMem_line hkey hin), hin⟩
  refine ⟨String.ofList (strip first), ?_, ?_⟩
  · rw [read_render hname, List.mem_cons]
    right
    rw [List.mem_flatMap]
    refine ⟨p, hmem, ?_⟩
    rw [hsplit, List.filterMap_cons, readLine_pair hkey]
    exact List.mem_cons_self
  · rw [String.toList_ofList]
    intro hin
    refine hfirst ?_
    unfold strip at hin
    exact (List.dropWhile_suffix isSpace).mem (List.mem_reverse.1 ((List.dropWhile_suffix isSpace).mem (List.mem_reverse.1 hin)))

end ConfigText
