import TecTac.TacticalOperations
import TecTac.Lib.SplitJoin

/-!
# Route ownership

Registration decides on a template and a run on a concrete path. Each value of a parameter is looked up as one of the expansions of the template is, so a path
of a registered operation passes the second check while the modules are unchanged. Over any run, what is forwarded is owned at that moment, and no other
operation of the same method and template accepts the body.
-/

namespace TecTac

namespace TacticalOperations

open LongestPrefix Raise

namespace RouteOwnersAux

/-! ### Parts and paths -/

theorem wordThen_char {more : List Char} {low high : Nat} {s : List Char} (h : wordThen more low high s = true) {c : Char} (hc : c ∈ s) :
    word c = true ∨ c ∈ more := by
  cases s with
  | nil => cases hc
  | cons a rest =>
    simp only [wordThen, Bool.and_eq_true, List.all_eq_true, Bool.or_eq_true, decide_eq_true_eq] at h
    rcases List.mem_cons.1 hc with rfl | hc
    · exact Or.inl h.1.1
    · exact h.2 c hc

theorem dollar_char {p : List Char → Bool} {s : List Char} (h : dollar p s = true) : p s = true ∨ ∃ t, s = t ++ ['\n'] ∧ p t = true := by
  simp only [dollar, Bool.or_eq_true, Bool.and_eq_true, decide_eq_true_eq] at h
  rcases h with h | ⟨hlast, h⟩
  · exact Or.inl h
  · exact Or.inr ⟨s.dropLast, (List.dropLast_append_getLast? _ hlast).symm, h⟩

/-- A part of a path: a text with characters, none of them a slash. -/
def Part (s : String) : Prop := s.toList ≠ [] ∧ '/' ∉ s.toList

theorem part_of_dollar {s : List Char} {p : List Char → Bool} (h : dollar p s = true) (hp : ∀ t, p t = true → t ≠ [] ∧ '/' ∉ t) : s ≠ [] ∧ '/' ∉ s := by
  rcases dollar_char h with h | ⟨t, rfl, ht⟩
  · exact hp s h
  · refine ⟨by simp, fun hmem => ?_⟩
    rcases List.mem_append.1 hmem with hmem | hmem
    · exact (hp t ht).2 hmem
    · simp at hmem

theorem part_of_wordThen {more : List Char} {low high : Nat} (hmore : '/' ∉ more) {t : List Char} (h : wordThen more low high t = true) : t ≠ [] ∧ '/' ∉ t := by
  refine ⟨?_, fun hmem => ?_⟩
  · rintro rfl
    cases h
  · rcases wordThen_char h hmem with hword | hmem
    · simp [word] at hword
    · exact hmore hmem

theorem part_of_literal {text : String} (h : literalRe text.toList = true) : Part text :=
  part_of_dollar h fun _ ht => part_of_wordThen (by decide) ht

theorem part_of_value {kind : Kind} {text : String} (h : kind.valueRe text.toList = true) : Part text := by
  cases kind with
  | str => exact part_of_dollar h fun _ ht => part_of_wordThen (by decide) ht
  | agent => exact part_of_dollar h fun _ ht => part_of_wordThen (by decide) ht
  | service => exact part_of_dollar h fun _ ht => part_of_wordThen (by decide) ht
  | int =>
    unfold Kind.valueRe at h
    refine part_of_dollar h fun t ht => ?_
    simp only [Bool.and_eq_true, decide_eq_true_eq, List.all_eq_true] at ht
    refine ⟨?_, fun hmem => ?_⟩
    · rintro rfl
      simp at ht
    · have := ht.2 _ hmem
      simp at this

theorem rstripSlash_snoc (s : List Char) : rstripSlash (s ++ ['/']) = rstripSlash s := by simp [rstripSlash]

theorem rstripSlash_of_last {s : List Char} (h : s.getLast? ≠ some '/') : rstripSlash s = s := by
  unfold rstripSlash
  rw [← List.head?_reverse] at h
  cases hr : s.reverse with
  | nil => simpa using hr.symm
  | cons c rest =>
    rw [hr] at h
    have hc : c ≠ '/' := fun hc => h (by rw [hc]; rfl)
    rw [List.dropWhile_cons_of_neg (by simpa using hc), ← hr, List.reverse_reverse]

theorem intercalate_ends {parts : List (List Char)} (hparts : ∀ p ∈ parts, p ≠ [] ∧ '/' ∉ p) (hne : parts ≠ []) :
    (['/'].intercalate parts).head? ≠ some '/' ∧ (['/'].intercalate parts).getLast? ≠ some '/' ∧ ['/'].intercalate parts ≠ [] := by
  induction parts with
  | nil => exact absurd rfl hne
  | cons p parts ih =>
    obtain ⟨hp, hslash⟩ := hparts p List.mem_cons_self
    have hhead : p.head? ≠ some '/' := fun h => hslash (List.mem_of_head? h)
    have hlast : p.getLast? ≠ some '/' := fun h => hslash (List.mem_of_getLast? h)
    cases parts with
    | nil =>
      rw [List.intercalate_singleton]
      exact ⟨hhead, hlast, hp⟩
    | cons q parts =>
      obtain ⟨-, hback, hrest⟩ := ih (fun r hr => hparts r (List.mem_cons_of_mem p hr)) (by simp)
      rw [List.intercalate_cons_cons, List.append_assoc]
      refine ⟨?_, ?_, by simp⟩
      · rwa [List.head?_append_of_ne_nil _ hp]
      · rw [List.getLast?_append_of_ne_nil _ (by simp), List.getLast?_append_of_ne_nil _ hrest]
        exact hback

/-- A path is taken apart into the parts it was made of. -/
theorem pathParts_pathOf {route : Route} {parts : List String} (hparts : ∀ p ∈ parts, Part p) (hne : parts ≠ []) : pathParts (pathOf route parts) = parts := by
  have hlists : ∀ p ∈ parts.map String.toList, p ≠ [] ∧ '/' ∉ p := by
    intro p hp
    obtain ⟨s, hs, rfl⟩ := List.mem_map.1 hp
    exact hparts s hs
  have hne' : parts.map String.toList ≠ [] := by simpa using hne
  obtain ⟨hhead, hlast, hinner⟩ := intercalate_ends hlists hne'
  have hdrop : (pathOf route parts).dropWhile (· = '/') = ['/'].intercalate (parts.map String.toList) ++ if route.trailing then ['/'] else [] := by
    unfold pathOf
    rw [List.cons_append, List.dropWhile_cons_of_pos (by simp)]
    obtain ⟨c, rest, hc⟩ := List.exists_cons_of_ne_nil hinner
    rw [hc] at hhead ⊢
    exact List.dropWhile_cons_of_neg (by simpa using hhead)
  have hstrip : rstripSlash ((pathOf route parts).dropWhile (· = '/')) = ['/'].intercalate (parts.map String.toList) := by
    rw [hdrop]
    split
    · rw [rstripSlash_snoc, rstripSlash_of_last hlast]
    · rw [List.append_nil, rstripSlash_of_last hlast]
  unfold pathParts
  rw [hstrip, List.splitOn_intercalate '/' (fun p hp => (hlists p hp).2) hne', List.map_map]
  simp [Function.comp_def]

/-! ### Values and words of the table -/

variable {table : OwnerTable}

theorem tableWord_of_wordsAt {i : Nat} {w : String} (h : wordsAt "{}" table.prefixes i w) : w.length < 21 ∧ w ≠ "*other*" ∧ ∃ c ∈ w.toList, c.isDigit = false := by
  obtain ⟨hne, rule, hrule, hw⟩ := h
  obtain ⟨entry, hentry, rfl⟩ := List.mem_map.1 hrule
  have := table.words entry hentry w (List.mem_of_getElem? hw)
  simp only [tableWord, Bool.or_eq_true, Bool.and_eq_true, decide_eq_true_eq, List.any_eq_true, Bool.not_eq_true'] at this
  rcases this with hwild | ⟨⟨hlength, hother⟩, hchar⟩
  · exact absurd hwild hne
  · exact ⟨hlength, hother, hchar⟩

theorem mem_namesAt {i : Nat} {w : String} (h : wordsAt "{}" table.prefixes i w) : w ∈ namesAt table i := by
  obtain ⟨hne, rule, hrule, hw⟩ := h
  unfold namesAt
  rw [List.mem_mergeSort, List.mem_eraseDups, List.mem_filter]
  exact ⟨List.mem_filterMap.2 ⟨rule, hrule, hw⟩, by simpa using hne⟩

theorem toList_lower (s : String) : (lower s).toList = s.toList.map Char.toLower := by simp [lower]

/-- A value that is no word of the table is looked up as `*other*` is. -/
theorem other_alike {i : Nat} {x : String} (h : ¬wordsAt "{}" table.prefixes i x) : Alike (wordsAt "{}" table.prefixes i) "*other*" x := by
  intro w hw
  refine iff_of_false (tableWord_of_wordsAt hw).2.1 ?_
  rintro rfl
  exact h hw

theorem agent_no_word {i : Nat} {text : String} (h : Kind.agent.valueRe text.toList = true) : ¬wordsAt "{}" table.prefixes i (lower text) := by
  intro hw
  have hlength := (tableWord_of_wordsAt hw).1
  rw [← String.length_toList, toList_lower, List.length_map] at hlength
  have hlong : ∀ t : List Char, wordThen ['.', '-'] 20 254 t = true → 21 ≤ t.length := by
    intro t ht
    cases t with
    | nil => cases ht
    | cons c rest =>
      simp only [wordThen, Bool.and_eq_true, decide_eq_true_eq] at ht
      simpa using ht.1.2.1
  rcases dollar_char h with h | ⟨t, ht, h⟩
  · have := hlong _ h
    omega
  · have := hlong t h
    rw [ht, List.length_append] at hlength
    omega

theorem getLast_strip {s : List Char} {c : Char} (h : (strip s).getLast? = some c) : isSpace c = false := by
  rw [strip, List.getLast?_reverse] at h
  have := List.head?_dropWhile_not isSpace (s.dropWhile isSpace).reverse
  rw [h] at this
  exact this

/-- A value that is stripped and that an expression accepts has no final line end. -/
theorem of_dollar_stripped {p : List Char → Bool} {text : String} (h : dollar p text.toList = true) (hstripped : stripText text = text) : p text.toList = true := by
  simp only [dollar, Bool.or_eq_true, Bool.and_eq_true, decide_eq_true_eq] at h
  rcases h with h | ⟨hlast, -⟩
  · exact h
  · rw [← hstripped, stripText, String.toList_ofList] at hlast
    cases getLast_strip hlast

theorem int_no_word {i : Nat} {text : String} (h : Kind.int.valueRe text.toList = true) (hstripped : stripText text = text) :
    ¬wordsAt "{}" table.prefixes i (lower text) := by
  intro hw
  unfold Kind.valueRe at h
  have hdigits := of_dollar_stripped h hstripped
  simp only [Bool.and_eq_true, List.all_eq_true] at hdigits
  obtain ⟨-, -, c, hc, hnot⟩ := tableWord_of_wordsAt hw
  rw [toList_lower] at hc
  obtain ⟨d, hd, rfl⟩ := List.mem_map.1 hc
  have hdigit := hdigits.2 d hd
  rw [show d.toLower = d from ?_, hdigit] at hnot
  · cases hnot
  · unfold Char.toLower
    rw [dif_neg]
    intro hupper
    simp only [Char.isDigit, Bool.and_eq_true, decide_eq_true_eq, ge_iff_le, UInt32.le_iff_toNat_le, Char.reduceVal, UInt32.reduceToNat] at hdigit hupper
    omega

/-- The values have one for a parameter, and it is of the kind of the parameter. -/
def Clean (values : List (String × String)) (p : String × Kind) : Prop :=
  ∃ text, Dict.get p.1 values = some text ∧ p.2.valueRe text.toList = true ∧ stripText text = text

theorem cleanParam_ok {params : List (String × Json)} {p : String × Kind} {entry : String × String} (h : cleanParam params p = .ok entry) :
    ∃ text, paramText (Dict.get p.1 params) = some text ∧ entry = (p.1, text) ∧ p.2.valueRe text.toList = true := by
  unfold cleanParam at h
  split at h
  · cases h
  · rename_i text htext
    split at h
    · rename_i hvalue
      cases h
      exact ⟨text, htext, rfl, (Bool.and_eq_true_iff.1 hvalue).1⟩
    · cases h

theorem paramText_stripped {value : Option Json} {text : String} (h : paramText value = some text) : stripText text = text := by
  unfold paramText at h
  split at h
  · cases h
    exact stripText_stripText _
  · cases h
    exact stripText_stripText _
  · cases h

theorem clean_of_cleanParams {route : Route} {params : List (String × Json)} {values : List (String × String)} (h : cleanParams route params = .ok values)
    {p : String × Kind} (hp : p ∈ namesOf route.segments) : Clean values p := by
  obtain ⟨_, -, hmap⟩ := bind_ok h
  obtain ⟨entry, hmem, hentry⟩ := mapM_ok_of_mem hmap hp
  obtain ⟨text, htext, rfl, hkind⟩ := cleanParam_ok hentry
  obtain ⟨found, hfound⟩ := Option.isSome_iff_exists.1 (Dict.get_isSome_of_mem hmem)
  -- the same name may be asked for twice: both entries have the same text
  obtain ⟨q, -, hq⟩ := mem_of_mapM_ok hmap (Dict.mem_of_get hfound)
  obtain ⟨text', htext', heq, -⟩ := cleanParam_ok hq
  obtain ⟨hname, rfl⟩ := Prod.mk.injEq .. ▸ heq
  rw [← hname, htext] at htext'
  obtain rfl := Option.some.inj htext'
  exact ⟨_, hfound, hkind, paramText_stripped htext⟩

theorem clean_of_mem {values : List (String × String)} {segments : List Segment} (h : ∀ p ∈ namesOf segments, Clean values p) {segment : Segment}
    (hsegment : segment ∈ segments) : ∀ p ∈ namesOf [segment], Clean values p := by
  intro p hp
  refine h p ?_
  obtain ⟨s, hs, hname⟩ := List.mem_filterMap.1 hp
  obtain rfl := List.mem_singleton.1 hs
  exact List.mem_filterMap.2 ⟨s, hsegment, hname⟩

theorem part_of_segment {values : List (String × String)} {segment : Segment} (h : ∀ p ∈ namesOf [segment], Clean values p) : Part (instantiate values segment) := by
  cases segment with
  | lit text ok => exact part_of_literal ok
  | param name kind =>
    obtain ⟨text, htext, hkind, -⟩ := h (name, kind) (List.mem_singleton.2 rfl)
    rw [instantiate, htext]
    exact part_of_value hkind

/-- What a segment becomes has a representative among the options of the segment. -/
theorem option_alike {values : List (String × String)} {segment : Segment} (h : ∀ p ∈ namesOf [segment], Clean values p) (i : Nat) :
    ∃ r ∈ options table i segment, Alike (wordsAt "{}" table.prefixes i) r (lower (instantiate values segment)) := by
  cases segment with
  | lit text ok => exact ⟨lower text, List.mem_singleton.2 rfl, fun _ _ => Iff.rfl⟩
  | param name kind =>
    obtain ⟨text, htext, hkind, hstripped⟩ := h (name, kind) (List.mem_singleton.2 rfl)
    rw [instantiate, htext, Option.getD_some]
    have hfree : ∃ r ∈ namesAt table i ++ ["*other*"], Alike (wordsAt "{}" table.prefixes i) r (lower text) := by
      by_cases hword : wordsAt "{}" table.prefixes i (lower text)
      · exact ⟨lower text, List.mem_append_left _ (mem_namesAt hword), fun _ _ => Iff.rfl⟩
      · exact ⟨"*other*", List.mem_append_right _ (List.mem_singleton.2 rfl), other_alike hword⟩
    cases kind with
    | str => exact hfree
    | service => exact hfree
    | agent => exact ⟨"*other*", List.mem_singleton.2 rfl, other_alike (agent_no_word hkind)⟩
    | int => exact ⟨"*other*", List.mem_singleton.2 rfl, other_alike (int_no_word hkind hstripped)⟩

/-- A concrete path lands on one of the rules that were tried at registration. -/
theorem matchingRule_mem {values : List (String × String)} {segments : List Segment} (h : ∀ p ∈ namesOf segments, Clean values p) :
    matchingRule table ((segments.map (instantiate values)).map lower) ∈ expansionRules table segments := by
  have hplaces : ∀ (segments : List Segment) (k : Nat), (∀ p ∈ namesOf segments, Clean values p) →
      List.Forall₂ (fun x (o : List String × Nat) => ∃ r ∈ o.1, Alike (wordsAt "{}" table.prefixes o.2) r x) ((segments.map (instantiate values)).map lower)
        (((segments.zipIdx k).map fun s => options table s.2 s.1).zipIdx k) := by
    intro segments
    induction segments with
    | nil => exact fun k _ => .nil
    | cons segment segments ih =>
      intro k h
      rw [List.zipIdx_cons, List.map_cons, List.map_cons, List.map_cons, List.zipIdx_cons]
      refine .cons (option_alike (clean_of_mem h List.mem_cons_self) k) (ih (k + 1) fun p hp => h p ?_)
      obtain ⟨s, hs, hname⟩ := List.mem_filterMap.1 hp
      exact List.mem_filterMap.2 ⟨s, List.mem_cons_of_mem _ hs, hname⟩
  unfold expansionRules
  rw [List.mem_eraseDups]
  exact longest_mem_choices (allowsLength table) (hplaces segments 0 h)

/-! ### Ownership -/

variable {repr : String → String}

theorem ownsRule_of_checkRule {pairs : Pairs} {module : Module} {shown : String} {rule : Option (List String)}
    (h : checkRule repr table pairs module shown rule = .ok ()) : ∃ r, rule = some r ∧ ownsRule table pairs module.id r = true := by
  unfold checkRule at h
  split at h
  · cases h
  · rename_i r
    refine ⟨r, rfl, ?_⟩
    unfold ownsRule
    split at h
    · rename_i hjoins
      rw [hjoins.2, Bool.or_true]
    · split at h
      · cases h
      · split at h
        · rename_i hmem
          rw [decide_eq_true hmem, Bool.true_or]
        · cases h

/-- What an accepted registration says of a route: with clean values, its path is owned. -/
def Passes (table : OwnerTable) (pairs : Pairs) (module : String) (route : Route) : Prop :=
  route.segments ≠ [] ∧ ∀ values, (∀ p ∈ namesOf route.segments, Clean values p) → ∀ path, concretePath route values = .ok path →
    recheckRouteOwner table pairs module path = .ok ()

theorem concretePath_ok {route : Route} {values : List (String × String)} {path : List Char} (h : concretePath route values = .ok path) :
    forbiddenRoute (route.segments.map (instantiate values)) = false ∧ path = pathOf route (route.segments.map (instantiate values)) := by
  obtain ⟨_, hallowed, hpath⟩ := bind_ok h
  cases hpath
  exact ⟨by simpa using of_require hallowed, rfl⟩

theorem parts_of_concretePath {route : Route} {values : List (String × String)} {path : List Char} (hne : route.segments ≠ [])
    (hclean : ∀ p ∈ namesOf route.segments, Clean values p) (h : concretePath route values = .ok path) :
    pathParts path = route.segments.map (instantiate values) := by
  rw [(concretePath_ok h).2]
  refine pathParts_pathOf (fun p hp => ?_) (by simpa using hne)
  obtain ⟨segment, hsegment, rfl⟩ := List.mem_map.1 hp
  exact part_of_segment (clean_of_mem hclean hsegment)

theorem passes_of_checkRouteOwner {pairs : Pairs} {module : Module} {route : Route} {shown : String} (hne : route.segments ≠ [])
    (h : checkRouteOwner repr table pairs module route.segments shown = .ok ()) : Passes table pairs module.id route := by
  refine ⟨hne, fun values hclean path hpath => ?_⟩
  obtain ⟨_, -, hrules⟩ := bind_ok h
  obtain ⟨rule, hrule, howned⟩ := ownsRule_of_checkRule (forM_ok_iff.1 hrules _ (matchingRule_mem hclean))
  unfold recheckRouteOwner
  rw [parts_of_concretePath hne hclean hpath, hrule]
  simp [howned, require]

theorem segments_of_parseRoute {text : String} {route : Route} (h : parseRoute repr text = .ok route) : route.segments ≠ [] := by
  unfold parseRoute at h
  simp only [bind_ok_iff] at h
  obtain ⟨_, -, _, -, _, -, _, -, segments, -, _, hallowed, hroute⟩ := h
  cases hroute
  rintro rfl
  cases of_require hallowed

/-! ### Selectors -/

theorem sameValue_unique {v : Option Json} {x y : Expected} (hx : sameValue v x = true) (hy : sameValue v y = true) : x = y := by
  unfold sameValue at hx
  split at hx
  · cases y with
    | str t => rw [← of_decide_eq_true hx, of_decide_eq_true (show decide (_ = t) = true from hy)]
    | int m => cases hy
    | bool c => cases hy
  · cases y with
    | str t => cases hy
    | int m => rw [← of_decide_eq_true hx, of_decide_eq_true (show decide (_ = m) = true from hy)]
    | bool c => cases hy
  · cases y with
    | str t => cases hy
    | int m => cases hy
    | bool c => rw [← of_decide_eq_true hx, of_decide_eq_true (show decide (_ = c) = true from hy)]
  · cases hx

theorem sameValue_isSome {v : Option Json} {x : Expected} (h : sameValue v x = true) : v.isSome = true := by
  cases v with
  | none => cases h
  | some _ => rfl

theorem contradict_sound {body : List (String × Json)} {name : String} {a b : Condition} (h : contradict a b = true) :
    ¬(conditionHolds body (name, a) = true ∧ conditionHolds body (name, b) = true) := by
  rintro ⟨ha, hb⟩
  cases a with
  | present p =>
    cases b with
    | present q =>
      simp only [conditionHolds, decide_eq_true_eq] at ha hb
      simp only [contradict, decide_eq_true_eq] at h
      exact h (ha.symm.trans hb)
    | equals y =>
      simp only [conditionHolds, decide_eq_true_eq] at ha hb
      simp only [contradict, Bool.not_eq_true'] at h
      rw [sameValue_isSome hb, h] at ha
      cases ha
  | equals x =>
    cases b with
    | present q =>
      simp only [conditionHolds, decide_eq_true_eq] at ha hb
      simp only [contradict, Bool.not_eq_true'] at h
      rw [sameValue_isSome ha, h] at hb
      cases hb
    | equals y =>
      simp only [contradict, decide_eq_true_eq] at h
      exact h (sameValue_unique ha hb)

/-- No body satisfies two selectors that are exclusive. -/
theorem exclusive_sound {first second : Selector} (h : selectorsExclusive first second = true) {body : List (String × Json)}
    (hfirst : selectorHolds first body = true) (hsecond : selectorHolds second body = true) : False := by
  obtain ⟨c, hc, hmine⟩ := List.any_eq_true.1 h
  cases hget : Dict.get c.1 first.conditions with
  | none => simp [hget] at hmine
  | some mine =>
    rw [hget] at hmine
    exact contradict_sound hmine ⟨List.all_eq_true.1 hsecond c hc, List.all_eq_true.1 hfirst _ (Dict.mem_of_get hget)⟩

/-! ### The registry -/

variable {D : Type}

/-- The two dictionaries agree, and operations that share a route are the same module's and have exclusive selectors. -/
structure Sound (registry : Registry D) : Prop where
  keyed : ∀ key operation, registry.operations key = some operation → operation.key = key ∧ operation.route.segments ≠ []
  listed : ∀ key operation, registry.operations key = some operation → key ∈ registry.routes operation.routeKey
  known : ∀ place key, key ∈ registry.routes place → ∃ operation, registry.operations key = some operation ∧ operation.routeKey = place
  alone : ∀ key key' operation operation', registry.operations key = some operation → registry.operations key' = some operation' → key ≠ key' →
    operation.routeKey = operation'.routeKey → operation.moduleId = operation'.moduleId ∧
      (selectorsExclusive operation.selector operation'.selector = true ∨ selectorsExclusive operation'.selector operation.selector = true)

theorem sound_empty : Sound (Registry.empty : Registry D) :=
  { keyed := fun _ _ h => by cases h
    listed := fun _ _ h => by cases h
    known := fun _ _ h => by cases h
    alone := fun _ _ _ _ h => by cases h }

theorem mem_of_mapM {α β : Type} {f : α → Option β} {xs : List α} {ys : List β} (h : xs.mapM f = some ys) {x : α} (hx : x ∈ xs) {y : β}
    (hy : f x = some y) : y ∈ ys := by
  induction xs generalizing ys with
  | nil => cases hx
  | cons a xs ih =>
    rw [List.mapM_cons] at h
    obtain ⟨b, hb, h⟩ := Option.bind_eq_some_iff.1 h
    obtain ⟨bs, hbs, h⟩ := Option.bind_eq_some_iff.1 h
    cases h
    rcases List.mem_cons.1 hx with rfl | hx
    · rw [hb] at hy
      exact Option.some.inj hy ▸ List.mem_cons_self
    · exact List.mem_cons_of_mem b (ih hbs hx)

theorem sharing_ok {registry : Registry D} {operation : Operation D} {holders : List (String × String)} (h : checkRouteSharing registry operation holders = .ok ())
    {key : String × String} (hkey : key ∈ holders) {other : Operation D} (hother : registry.operations key = some other) :
    other.moduleId = operation.moduleId ∧ selectorsExclusive other.selector operation.selector = true := by
  unfold checkRouteSharing at h
  simp only [bind_ok_iff] at h
  obtain ⟨others, hothers, _, hmodule, hexclusive⟩ := h
  have hmem : other ∈ others := by
    cases hmap : holders.mapM registry.operations with
    | none =>
      rw [hmap] at hothers
      cases hothers
    | some found =>
      rw [hmap] at hothers
      obtain rfl := Except.ok.inj hothers
      exact mem_of_mapM hmap hkey hother
  have hmodule := of_require hmodule
  simp only [Bool.and_eq_true, List.all_eq_true, decide_eq_true_eq] at hmodule
  exact ⟨(hmodule.2 other hmem).2, of_require (forM_ok_iff.1 hexclusive other hmem)⟩

@[simp] theorem add_operations_self (registry : Registry D) (operation : Operation D) : (registry.add operation).operations operation.key = some operation :=
  Function.update_self ..

theorem add_operations_of_ne {registry : Registry D} {operation : Operation D} {key : String × String} (h : key ≠ operation.key) :
    (registry.add operation).operations key = registry.operations key := Function.update_of_ne h ..

@[simp] theorem add_routes_self (registry : Registry D) (operation : Operation D) :
    (registry.add operation).routes operation.routeKey = registry.routes operation.routeKey ++ [operation.key] := Function.update_self ..

theorem add_routes_of_ne {registry : Registry D} {operation : Operation D} {place : String × String} (h : place ≠ operation.routeKey) :
    (registry.add operation).routes place = registry.routes place := Function.update_of_ne h ..

/-- What is registered after an operation was entered. -/
theorem of_add {registry : Registry D} {operation other : Operation D} {key : String × String} (h : (registry.add operation).operations key = some other) :
    key = operation.key ∧ other = operation ∨ key ≠ operation.key ∧ registry.operations key = some other := by
  by_cases hkey : key = operation.key
  · subst hkey
    rw [add_operations_self] at h
    exact Or.inl ⟨rfl, (Option.some.inj h).symm⟩
  · rw [add_operations_of_ne hkey] at h
    exact Or.inr ⟨hkey, h⟩

/-- An operation that is read from a declaration owns the paths of its routes. -/
theorem readDeclaration_ok {modules : Modules} {d : Declaration D} {operation : Operation D} (h : readDeclaration repr table modules d = .ok operation) :
    Passes table modules.pairs operation.moduleId operation.route ∧ ∀ text before, operation.before = some (text, before) →
      Passes table modules.pairs operation.moduleId before ∧ ∀ p ∈ namesOf before.segments, p ∈ namesOf operation.route.segments := by
  unfold readDeclaration at h
  simp only [bind_ok_iff] at h
  obtain ⟨_, -, module, -, _, -, route, hroute, _, howner, _, -, before, hbefore, rest, -, selector, -, hoperation⟩ := h
  cases hoperation
  refine ⟨passes_of_checkRouteOwner (segments_of_parseRoute hroute) howner, ?_⟩
  rintro text read ⟨⟩
  unfold parseBefore at hbefore
  cases hd : d.before with
  | none =>
    rw [hd] at hbefore
    cases hbefore
  | some text =>
    rw [hd] at hbefore
    simp only [bind_ok_iff] at hbefore
    obtain ⟨_, -, read, hread, _, howner, _, hnames, heq⟩ := hbefore
    cases heq
    refine ⟨passes_of_checkRouteOwner (segments_of_parseRoute hread) howner, ?_⟩
    have hnames := of_require hnames
    simpa only [List.all_eq_true, decide_eq_true_eq] using hnames

theorem run_ok {modules : Modules} {registry : Registry D} {call : Call} {dispatch : Dispatch D} (h : run table modules registry call = .ok dispatch) :
    registry.operations (call.moduleId, call.operationId) = some dispatch.operation ∧ selectorHolds dispatch.operation.selector dispatch.body = true ∧
      recheckRouteOwner table modules.pairs dispatch.operation.moduleId dispatch.path = .ok () ∧
      ∃ values, cleanParams dispatch.operation.route call.params = .ok values ∧ concretePath dispatch.operation.route values = .ok dispatch.path := by
  unfold run at h
  simp only [bind_ok_iff] at h
  obtain ⟨operation, hlookup, _, -, values, hvalues, _, hselector, _, -, path, hpath, _, hrecheck, _, -, hdispatch⟩ := h
  cases hdispatch
  refine ⟨?_, of_require hselector, hrecheck, values, hvalues, hpath⟩
  unfold lookup at hlookup
  split at hlookup
  · cases hlookup
  · rename_i found hfound
    split at hlookup
    · cases hlookup
    · split at hlookup
      · cases hlookup
      · split at hlookup
        · cases hlookup
          exact hfound
        · cases hlookup

/-! ### Runs -/

variable [DecidableEq D]

/-- What the registry does with an operation: nothing, or it enters an operation whose key is new. -/
theorem enter_cases {registry registry' : Registry D} {operation : Operation D} (h : enter registry operation = .ok registry') :
    registry' = registry ∨ registry.operations operation.key = none ∧ registry' = registry.add operation ∧
      (registry.routes operation.routeKey ≠ [] → checkRouteSharing registry operation (registry.routes operation.routeKey) = .ok ()) := by
  unfold enter at h
  split at h
  · split at h
    · cases h
      exact Or.inl rfl
    · cases h
  · rename_i hnew
    split at h
    · rename_i hnone
      cases h
      exact Or.inr ⟨hnew, rfl, fun hne => absurd hnone hne⟩
    · obtain ⟨_, hsharing, hregistry⟩ := bind_ok h
      cases hregistry
      exact Or.inr ⟨hnew, rfl, fun _ => hsharing⟩

theorem sound_enter {registry registry' : Registry D} (hsound : Sound registry) {operation : Operation D} (hroute : operation.route.segments ≠ [])
    (h : enter registry operation = .ok registry') : Sound registry' := by
  rcases enter_cases h with rfl | ⟨hnew, rfl, hsharing⟩
  · exact hsound
  -- an operation that shares the route was a holder, and the new one was checked against it
  have hshared : ∀ key other, registry.operations key = some other → other.routeKey = operation.routeKey →
      other.moduleId = operation.moduleId ∧ selectorsExclusive other.selector operation.selector = true := by
    intro key other hother hplace
    have hlisted := hsound.listed key other hother
    rw [hplace] at hlisted
    exact sharing_ok (hsharing (List.ne_nil_of_mem hlisted)) hlisted hother
  have hstays : ∀ key other, registry.operations key = some other → (registry.add operation).operations key = some other := by
    intro key other hother
    refine (add_operations_of_ne ?_).trans hother
    rintro rfl
    rw [hnew] at hother
    cases hother
  refine ⟨?_, ?_, ?_, ?_⟩
  · intro key other hother
    rcases of_add hother with ⟨rfl, rfl⟩ | ⟨-, hold⟩
    · exact ⟨rfl, hroute⟩
    · exact hsound.keyed key other hold
  · intro key other hother
    rcases of_add hother with ⟨rfl, rfl⟩ | ⟨-, hold⟩
    · simp
    · have hlisted := hsound.listed key other hold
      by_cases hplace : other.routeKey = operation.routeKey
      · rw [hplace] at hlisted ⊢
        rw [add_routes_self]
        exact List.mem_append_left _ hlisted
      · rwa [add_routes_of_ne hplace]
  · intro place key hmem
    by_cases hplace : place = operation.routeKey
    · subst hplace
      rw [add_routes_self, List.mem_append, List.mem_singleton] at hmem
      rcases hmem with hold | rfl
      · obtain ⟨other, hother, hplace⟩ := hsound.known _ key hold
        exact ⟨other, hstays key other hother, hplace⟩
      · exact ⟨operation, add_operations_self registry operation, rfl⟩
    · rw [add_routes_of_ne hplace] at hmem
      obtain ⟨other, hother, hother'⟩ := hsound.known place key hmem
      exact ⟨other, hstays key other hother, hother'⟩
  · intro key key' one other hone hother hne hplace
    rcases of_add hone with ⟨rfl, rfl⟩ | ⟨-, holdOne⟩
    · rcases of_add hother with ⟨rfl, rfl⟩ | ⟨-, holdOther⟩
      · exact absurd rfl hne
      · obtain ⟨hmodule, hexclusive⟩ := hshared key' other holdOther hplace.symm
        exact ⟨hmodule.symm, Or.inr hexclusive⟩
    · rcases of_add hother with ⟨rfl, rfl⟩ | ⟨-, holdOther⟩
      · obtain ⟨hmodule, hexclusive⟩ := hshared key one holdOne hplace
        exact ⟨hmodule, Or.inl hexclusive⟩
      · exact hsound.alone key key' one other holdOne holdOther hne hplace

/-- What one event does to the registry: nothing, an accepted declaration, or the start of a new process. -/
theorem step_registry (w : World D) (e : Event D) :
    (step repr table w e).1.registry = w.registry ∨ (step repr table w e).1.registry = .empty ∨
      ∃ d operation, e = .declare d ∧ readDeclaration repr table w.modules d = .ok operation ∧
        enter w.registry operation = .ok (step repr table w e).1.registry := by
  cases e with
  | declare d =>
    unfold step
    dsimp only
    split
    · exact Or.inl rfl
    · rename_i registry hregister
      obtain ⟨operation, hread, henter⟩ := bind_ok hregister
      exact Or.inr (Or.inr ⟨d, operation, rfl, hread, henter⟩)
  | changeModules modules => exact Or.inl rfl
  | call c =>
    unfold step
    dsimp only
    split <;> exact Or.inl rfl
  | restart => exact Or.inr (Or.inl rfl)

theorem sound_step {w : World D} (h : Sound w.registry) (e : Event D) : Sound (step repr table w e).1.registry := by
  rcases step_registry w e with hsame | hempty | ⟨d, operation, -, hread, henter⟩
  · rwa [hsame]
  · rw [hempty]
    exact sound_empty
  · exact sound_enter h (readDeclaration_ok hread).1.1 henter

theorem owners_of_recheck {pairs : Pairs} {module : String} {path : List Char} (h : recheckRouteOwner table pairs module path = .ok ()) :
    ∃ rule, matchingRule table ((pathParts path).map lower) = some rule ∧
      (module ∈ table.owners rule ∨ ∃ replaced, pairs module = some replaced ∧ replaced ∈ table.owners rule) := by
  unfold recheckRouteOwner at h
  split at h
  · cases h
  · rename_i rule hrule
    refine ⟨rule, hrule, ?_⟩
    have hallowed := of_require h
    simp only [Bool.or_eq_true, decide_eq_true_eq, ownsRule, joins] at hallowed
    rcases hallowed with (hexcepted | hown) | hown | hjoins
    · simp only [excepted, decide_eq_true_eq] at hexcepted
      obtain ⟨entry, hentry, hprefix, hmodule⟩ := table.exceptionsOwned _ hexcepted
      have hget := Dict.get_of_mem table.nodup (show (entry.1, entry.2) ∈ table.rules from hentry)
      refine Or.inl ?_
      rw [OwnerTable.owners, ← show entry.1 = rule from hprefix, hget]
      exact hmodule
    · exact Or.inl hown
    · exact Or.inl hown
    · split at hjoins
      · cases hjoins
      · rename_i replaced hreplaced
        exact Or.inr ⟨replaced, hreplaced, by simpa using hjoins⟩

/-- What a run forwards was forwarded by a call, in a state whose registry is sound. -/
theorem forwarded_by_a_call {w : World D} (h : Sound w.registry) {events : List (Event D)} {w' : World D} {dispatch : Dispatch D}
    (hmem : (w', dispatch) ∈ (runs repr table w events).2) : Sound w'.registry ∧ ∃ call, run table w'.modules w'.registry call = .ok dispatch := by
  induction events generalizing w with
  | nil => cases hmem
  | cons e events ih =>
    rw [runs, List.mem_append] at hmem
    rcases hmem with hnow | hlater
    · obtain ⟨d, hd, heq⟩ := List.mem_map.1 hnow
      obtain ⟨rfl, rfl⟩ := Prod.mk.injEq .. ▸ heq
      refine ⟨h, ?_⟩
      have hforwarded : (step repr table w e).2 = some d := by simpa using hd
      unfold step at hforwarded
      cases e with
      | declare d =>
        dsimp only at hforwarded
        split at hforwarded <;> cases hforwarded
      | changeModules modules => cases hforwarded
      | call c =>
        dsimp only at hforwarded
        split at hforwarded
        · cases hforwarded
        · rename_i found hfound
          cases hforwarded
          exact ⟨c, hfound⟩
      | restart => cases hforwarded
    · exact ih (sound_step h e) hlater

/-- Every operation owns the paths of its routes as the modules are now. -/
def Open (table : OwnerTable) (modules : Modules) (registry : Registry D) : Prop :=
  ∀ key operation, registry.operations key = some operation → Passes table modules.pairs operation.moduleId operation.route ∧
    ∀ text before, operation.before = some (text, before) → Passes table modules.pairs operation.moduleId before ∧
      ∀ p ∈ namesOf before.segments, p ∈ namesOf operation.route.segments

theorem open_step {w : World D} (h : Open table w.modules w.registry) {e : Event D} (he : ∀ modules, e ≠ .changeModules modules) :
    (step repr table w e).1.modules = w.modules ∧ Open table w.modules (step repr table w e).1.registry := by
  constructor
  · cases e with
    | declare d =>
      unfold step
      dsimp only
      split <;> rfl
    | changeModules modules => exact absurd rfl (he modules)
    | call c =>
      unfold step
      dsimp only
      split <;> rfl
    | restart => rfl
  · rcases step_registry w e with hsame | hempty | ⟨d, operation, -, hread, henter⟩
    · rwa [hsame]
    · rw [hempty]
      intro key operation hoperation
      cases hoperation
    · intro key other hother
      rcases enter_cases henter with hsame | ⟨-, hadd, -⟩
      · rw [hsame] at hother
        exact h key other hother
      · rw [hadd] at hother
        rcases of_add hother with ⟨-, rfl⟩ | ⟨-, hold⟩
        · exact readDeclaration_ok hread
        · exact h key other hold

theorem open_runs {w : World D} (h : Open table w.modules w.registry) {events : List (Event D)}
    (hevents : ∀ e ∈ events, ∀ modules, e ≠ .changeModules modules) :
    (runs repr table w events).1.modules = w.modules ∧ Open table w.modules (runs repr table w events).1.registry := by
  induction events generalizing w with
  | nil => exact ⟨rfl, h⟩
  | cons e events ih =>
    obtain ⟨hmodules, hopen⟩ := open_step h (hevents e List.mem_cons_self)
    have hrest := ih (w := (step repr table w e).1) (hmodules ▸ hopen) fun e' he' => hevents e' (List.mem_cons_of_mem e he')
    rw [hmodules] at hrest
    exact hrest

end RouteOwnersAux

open RouteOwnersAux

section

variable {D : Type} [DecidableEq D] {repr : String → String} {table : OwnerTable}

/-- Whatever is declared and called, in any order and while modules are enabled, disabled and replaced: a call that is forwarded goes to no forbidden route;
at that moment its module owns the rule that the path lands on, or replaces an owner; and of the operations on that method and template, which are all the
same module's, it is the only one that accepts the body. -/
theorem forwarded_calls_are_owned_and_alone {w : World D} (h : w.registry = .empty) (events : List (Event D)) {w' : World D} {dispatch : Dispatch D}
    (hmem : (w', dispatch) ∈ (runs repr table w events).2) :
    forbiddenRoute (pathParts dispatch.path) = false ∧
      (∃ rule, matchingRule table ((pathParts dispatch.path).map lower) = some rule ∧
        (dispatch.operation.moduleId ∈ table.owners rule ∨
          ∃ replaced, w'.modules.pairs dispatch.operation.moduleId = some replaced ∧ replaced ∈ table.owners rule)) ∧
      ∀ key other, w'.registry.operations key = some other → other.routeKey = dispatch.operation.routeKey →
        other.moduleId = dispatch.operation.moduleId ∧ (selectorHolds other.selector dispatch.body = true → other = dispatch.operation) := by
  obtain ⟨hsound, call, hcall⟩ := forwarded_by_a_call (h ▸ sound_empty) hmem
  obtain ⟨hregistered, hselector, hrecheck, values, hvalues, hpath⟩ := run_ok hcall
  refine ⟨?_, owners_of_recheck hrecheck, fun key other hother hplace => ?_⟩
  · have hclean : ∀ p ∈ namesOf dispatch.operation.route.segments, Clean values p := fun p hp => clean_of_cleanParams hvalues hp
    rw [parts_of_concretePath (hsound.keyed _ _ hregistered).2 hclean hpath]
    exact (concretePath_ok hpath).1
  · by_cases hkey : key = (call.moduleId, call.operationId)
    · subst hkey
      obtain rfl := Option.some.inj (hother.symm.trans hregistered)
      exact ⟨rfl, fun _ => rfl⟩
    · obtain ⟨hmodule, hexclusive⟩ := hsound.alone _ _ _ _ hother hregistered hkey hplace
      refine ⟨hmodule, fun hboth => ?_⟩
      rcases hexclusive with hexclusive | hexclusive
      · exact (exclusive_sound hexclusive hboth hselector).elim
      · exact (exclusive_sound hexclusive hselector hboth).elim

def sampleModules : Modules where
  resolve := fun name => if name = "alerts" then some ⟨"alerts", false, "core"⟩ else none
  pairs := fun _ => none

/-- One of two operations that change an alert, told apart by the action in the body. -/
def sampleDeclaration (action : String) : Declaration Unit where
  id := action
  moduleId := "alerts"
  method := "PUT"
  route := "alerts/{pk:int}/"
  before := some "alerts/{pk:int}/"
  bodyFields := ["action"]
  selector := [("action", .equals (.str action))]
  rest := .ok ()

def sampleCall : Call where
  moduleId := "alerts"
  operationId := "resolve"
  params := [("pk", .num 12)]
  body := [("action", .str "resolve")]
  cleared := true
  resolves := true

def sampleDeclarations : List (Event Unit) := [.declare (sampleDeclaration "resolve"), .declare (sampleDeclaration "snooze")]

def sampleRun : World Unit × List (World Unit × Dispatch Unit) := runs id routeOwners ⟨sampleModules, .empty⟩ (sampleDeclarations ++ [.call sampleCall])

theorem sample_forwarded_calls_are_owned_and_alone :
    ∃ w' dispatch, (w', dispatch) ∈ sampleRun.2 ∧ forbiddenRoute (pathParts dispatch.path) = false ∧
      (∃ rule, matchingRule routeOwners ((pathParts dispatch.path).map lower) = some rule ∧
        (dispatch.operation.moduleId ∈ routeOwners.owners rule ∨
          ∃ replaced, w'.modules.pairs dispatch.operation.moduleId = some replaced ∧ replaced ∈ routeOwners.owners rule)) ∧
      ∀ key other, w'.registry.operations key = some other → other.routeKey = dispatch.operation.routeKey →
        other.moduleId = dispatch.operation.moduleId ∧ (selectorHolds other.selector dispatch.body = true → other = dispatch.operation) := by
  have hone : sampleRun.2.length = 1 := by decide +kernel
  obtain ⟨⟨w', dispatch⟩, hentry⟩ := List.length_eq_one_iff.1 hone
  have hmem : (w', dispatch) ∈ sampleRun.2 := by
    rw [hentry]
    exact List.mem_cons_self
  exact ⟨w', dispatch, hmem, forwarded_calls_are_owned_and_alone rfl _ hmem⟩

/-- While no module changes, the second check refuses no path of a registered operation, nor of what it reads before: each value that a parameter accepts is
covered by the expansions that registration tried. -/
theorem registered_paths_stay_open {w : World D} (h : w.registry = .empty) {events : List (Event D)}
    (hevents : ∀ e ∈ events, ∀ modules, e ≠ .changeModules modules) {key : String × String} {operation : Operation D}
    (hoperation : (runs repr table w events).1.registry.operations key = some operation) {params : List (String × Json)} {values : List (String × String)}
    (hvalues : cleanParams operation.route params = .ok values) :
    (∀ path, concretePath operation.route values = .ok path →
        recheckRouteOwner table (runs repr table w events).1.modules.pairs operation.moduleId path = .ok ()) ∧
      ∀ text before, operation.before = some (text, before) → ∀ path, concretePath before values = .ok path →
        recheckRouteOwner table (runs repr table w events).1.modules.pairs operation.moduleId path = .ok () := by
  have hempty : Open table w.modules w.registry := by
    rw [h]
    intro key operation hoperation
    cases hoperation
  obtain ⟨hmodules, hopen⟩ := open_runs hempty hevents
  rw [hmodules]
  obtain ⟨hroute, hbefore⟩ := hopen key operation hoperation
  have hclean : ∀ p ∈ namesOf operation.route.segments, Clean values p := fun p hp => clean_of_cleanParams hvalues hp
  refine ⟨hroute.2 values hclean, fun text before htext => ?_⟩
  obtain ⟨hpasses, hnames⟩ := hbefore text before htext
  exact hpasses.2 values fun p hp => hclean p (hnames p hp)

def declaredRun : World Unit × List (World Unit × Dispatch Unit) := runs id routeOwners ⟨sampleModules, .empty⟩ sampleDeclarations

theorem sample_registered_paths_stay_open :
    ∃ operation values, declaredRun.1.registry.operations ("alerts", "snooze") = some operation ∧
      (∀ path, concretePath operation.route values = .ok path → recheckRouteOwner routeOwners declaredRun.1.modules.pairs operation.moduleId path = .ok ()) ∧
      ∀ text before, operation.before = some (text, before) → ∀ path, concretePath before values = .ok path →
        recheckRouteOwner routeOwners declaredRun.1.modules.pairs operation.moduleId path = .ok () := by
  have hsome : ((declaredRun.1.registry.operations ("alerts", "snooze")).bind fun operation =>
      (cleanParams operation.route sampleCall.params).toOption).isSome = true := by decide +kernel
  obtain ⟨values, hvalues⟩ := Option.isSome_iff_exists.1 hsome
  obtain ⟨operation, hoperation, hvalues⟩ := Option.bind_eq_some_iff.1 hvalues
  refine ⟨operation, values, hoperation, registered_paths_stay_open rfl (fun e he modules => ?_) hoperation (ok_of_toOption hvalues)⟩
  rcases List.mem_cons.1 he with rfl | he
  · exact fun h => by cases h
  · obtain rfl := List.mem_singleton.1 he
    exact fun h => by cases h

end

end TacticalOperations

end TecTac
