import Mathlib
import TecTac.Lib.SplitJoin

/-!
# Addresses as texts

An address of four octets or of eight hextets, read from a text and written as one: the reader takes every accepted form of it, the writer gives the shortest. An address of eight
hextets may name a zone, which is no part of its value.
-/

namespace IpAddress

/-! ## Numbers -/

/-- The value of a hexadecimal digit. -/
def hexValue (c : Char) : Option Nat :=
  if '0' ≤ c ∧ c ≤ '9' then some (c.toNat - 48)
  else if 'a' ≤ c ∧ c ≤ 'f' then some (c.toNat - 87)
  else if 'A' ≤ c ∧ c ≤ 'F' then some (c.toNat - 55)
  else none

/-- A number in a base of at most sixteen. -/
def readDigits (base : Nat) (s : List Char) : Option Nat :=
  (s.mapM fun c => (hexValue c).filter (· < base)).map fun ds => ds.foldl (fun n d => base * n + d) 0

theorem hexValue_digitChar : ∀ d < 16, hexValue d.digitChar = some d := by decide

theorem readDigits_toDigits {base : Nat} (hbase : 1 < base) (hle : base ≤ 16) (n : Nat) : readDigits base (Nat.toDigits base n) = some n := by
  have hdigit : ∀ d < base, (hexValue d.digitChar).filter (· < base) = some d := by
    intro d hd
    rw [hexValue_digitChar d (by omega), Option.filter_some, if_pos (by simpa using hd)]
  have hread : ∃ ds, ((Nat.toDigits base n).mapM fun c => (hexValue c).filter (· < base)) = some ds ∧ ds.foldl (fun n d => base * n + d) 0 = n := by
    induction n using Nat.base_induction base hbase with
    | single d hd => exact ⟨[d], by rw [Nat.toDigits_of_lt_base hd]; simp [hdigit d hd], by simp⟩
    | digit n d hd hn ih =>
      obtain ⟨ds, hds, hvalue⟩ := ih
      refine ⟨ds ++ [d], ?_, ?_⟩
      · rw [← Nat.toDigits_append_toDigits hbase hn hd, Nat.toDigits_of_lt_base hd, List.mapM_append, hds]
        simp [hdigit d hd]
      · rw [List.foldl_append, hvalue]
        rfl
  obtain ⟨ds, hds, hvalue⟩ := hread
  rw [readDigits, hds, Option.map_some, hvalue]

/-- A digit of a number that is written is one that is read. -/
theorem hexValue_of_mem_toDigits {base n : Nat} (hbase : 1 < base) (hle : base ≤ 16) {c : Char} (hc : c ∈ Nat.toDigits base n) : (hexValue c).isSome = true := by
  induction n using Nat.base_induction base hbase with
  | single d hd =>
    rw [Nat.toDigits_of_lt_base hd, List.mem_singleton] at hc
    rw [hc, hexValue_digitChar d (by omega)]
    rfl
  | digit n d hd hn ih =>
    rw [← Nat.toDigits_append_toDigits hbase hn hd, List.mem_append] at hc
    rcases hc with hc | hc
    · exact ih hc
    · rw [Nat.toDigits_of_lt_base hd, List.mem_singleton] at hc
      rw [hc, hexValue_digitChar d (by omega)]
      rfl

/-! ## Groups -/

/-- So many groups below a base. -/
structure Groups (count base : Nat) where
  digits : List Nat
  length_eq : digits.length = count
  lt : ∀ d ∈ digits, d < base
  deriving DecidableEq

def Groups.ofList (count base : Nat) (ds : List Nat) : Option (Groups count base) :=
  if h : ds.length = count ∧ ∀ d ∈ ds, d < base then some ⟨ds, h.1, h.2⟩ else none

/-- The number that the groups write. -/
def Groups.value {count base : Nat} (g : Groups count base) : Nat := g.digits.foldl (fun n d => base * n + d) 0

@[simp] theorem Groups.ofList_digits {count base : Nat} (g : Groups count base) : Groups.ofList count base g.digits = some g := dif_pos ⟨g.length_eq, g.lt⟩

end IpAddress

/-- An address; where it names no zone, the zone is empty. -/
inductive IpAddress where
  | v4 (octets : IpAddress.Groups 4 256)
  | v6 (hextets : IpAddress.Groups 8 65536) (zone : List Char)
  deriving DecidableEq

namespace IpAddress

/-! ## Reading -/

/-- An octet: one to three digits with no zero before them, below 256 as `Groups.ofList` checks. -/
def octet (s : List Char) : Option Nat := if s ≠ [] ∧ s.length ≤ 3 ∧ (s = ['0'] ∨ s.head? ≠ some '0') then readDigits 10 s else none

def readV4 (s : List Char) : Option (Groups 4 256) := ((s.splitOn '.').mapM octet).bind (Groups.ofList 4 256)

/-- A hextet: one to four hexadecimal digits. -/
def hextet (s : List Char) : Option Nat := if s ≠ [] ∧ s.length ≤ 4 then readDigits 16 s else none

/-- Four octets at the end, as two hextets. -/
def expandV4 (parts : List (List Char)) : Option (List (List Char)) :=
  if '.' ∈ parts.getLastD [] then
    (readV4 (parts.getLastD [])).map fun g =>
      parts.dropLast ++ [Nat.toDigits 16 (g.value / 65536), Nat.toDigits 16 (g.value % 65536)]
  else some parts

/-- What stands before the one empty part that is neither the first nor the last, and what stands after it; without one, all parts. -/
def cutAtEmpty (first last : List Char) (inner : List (List Char)) : Option (List (List Char) × Option (List (List Char))) :=
  match inner.dropWhile fun part => !part.isEmpty with
  | [] => some (first :: inner ++ [last], none)
  | _ :: after =>
    if after.any List.isEmpty then none else some (first :: inner.takeWhile (fun part => !part.isEmpty), some (after ++ [last]))

/-- The parts on one side of the cut, where `outer` is the one at the end of the text: it may be empty only when it is alone. -/
def side (outer : List Char) (parts : List (List Char)) : Option (List (List Char)) :=
  if outer = [] then (if parts.length = 1 then some [] else none) else some parts

/-- The hextets of the parts on both sides of the cut, with zeros between them. -/
def fillZeros (before after : List (List Char)) : Option (List Nat) := do
  guard (before.length + after.length < 8)
  let high ← before.mapM hextet
  let low ← after.mapM hextet
  return high ++ List.replicate (8 - (before.length + after.length)) 0 ++ low

def hextetsOf (parts : List (List Char)) : Option (List Nat) := do
  guard (3 ≤ parts.length)
  let parts ← expandV4 parts
  guard (parts.length ≤ 9)
  let first := parts.headD []
  let last := parts.getLastD []
  match ← cutAtEmpty first last parts.tail.dropLast with
  | (all, none) => if all.length = 8 then all.mapM hextet else none
  | (before, some after) => do
    let before ← side first before
    let after ← side last after
    fillZeros before after

/-- The text before a `%`, and the zone after it. -/
def cutZone (s : List Char) : Option (List Char × List Char) :=
  match s.dropWhile (· != '%') with
  | [] => some (s, [])
  | _ :: zone => if zone = [] ∨ '%' ∈ zone then none else some (s.takeWhile (· != '%'), zone)

def readV6 (s : List Char) : Option IpAddress := do
  guard ('/' ∉ s)
  let (address, zone) ← cutZone s
  let hextets ← hextetsOf (address.splitOn ':')
  let hextets ← Groups.ofList 8 65536 hextets
  return .v6 hextets zone

/-- The address of a text. -/
def ofText (s : List Char) : Option IpAddress :=
  match readV4 s with
  | some octets => some (.v4 octets)
  | none => readV6 s

/-! ## Writing -/

/-- How many zeros there are from here on. -/
def zerosAt (ds : List Nat) (i : Nat) : Nat := ((ds.drop i).takeWhile (· == 0)).length

/-- Where the longest row of zeros begins; of several, the first. -/
def longest (ds : List Nat) : Nat := ((List.range ds.length).argmax (zerosAt ds)).getD 0

/-- A row at the end of the text, with an empty part where there is none. -/
def atEnd (parts : List (List Char)) : List (List Char) := if parts = [] then [[]] else parts

def hexTexts (ds : List Nat) : List (List Char) := ds.map (Nat.toDigits 16)

/-- The hextets without the longest row of two or more zeros. -/
def partsOf (ds : List Nat) : List (List Char) :=
  let start := longest ds
  let zeros := zerosAt ds start
  if 1 < zeros then atEnd (hexTexts (ds.take start)) ++ [] :: atEnd (hexTexts (ds.drop (start + zeros))) else hexTexts ds

def text : IpAddress → List Char
  | .v4 octets => ['.'].intercalate (octets.digits.map (Nat.toDigits 10))
  | .v6 hextets zone => [':'].intercalate (partsOf hextets.digits) ++ if zone = [] then [] else '%' :: zone

/-- The address without its zone. -/
def unzoned : IpAddress → IpAddress
  | .v4 octets => .v4 octets
  | .v6 hextets _ => .v6 hextets []

end IpAddress

/-- A network: the addresses that agree with `base` but for some last bits. -/
structure IpNetwork where
  six : Bool
  base : Nat
  hostBits : Nat
  masked : base % 2 ^ hostBits = 0

/-- An address is in the network. -/
def IpNetwork.contains (network : IpNetwork) : IpAddress → Bool
  | .v4 octets => !network.six && octets.value - octets.value % 2 ^ network.hostBits == network.base
  | .v6 hextets _ => network.six && hextets.value - hextets.value % 2 ^ network.hostBits == network.base

theorem IpNetwork.contains_unzoned (network : IpNetwork) (a : IpAddress) : network.contains a.unzoned = network.contains a := by
  cases a with
  | v4 octets => rfl
  | v6 hextets zone => rfl

namespace IpAddress

/-! ## Reading what was written -/

theorem mapM_map_some {α β : Type} {f : α → β} {g : β → Option α} {l : List α} (hg : ∀ a ∈ l, g (f a) = some a) : (l.map f).mapM g = some l := by
  induction l with
  | nil => rfl
  | cons a l ih => simp [hg a List.mem_cons_self, ih fun b hb => hg b (List.mem_cons_of_mem _ hb)]

theorem exists_of_mapM_some {α β : Type} {f : α → Option β} {l : List α} {ys : List β} (h : l.mapM f = some ys) {a : α} (ha : a ∈ l) : ∃ b, f a = some b := by
  induction l generalizing ys with
  | nil => cases ha
  | cons x l ih =>
    rw [List.mapM_cons] at h
    obtain ⟨b, hb, h⟩ := Option.bind_eq_some_iff.1 h
    obtain ⟨bs, hbs, -⟩ := Option.bind_eq_some_iff.1 h
    rcases List.mem_cons.1 ha with rfl | ha
    · exact ⟨b, hb⟩
    · exact ih hbs ha

theorem octet_toDigits {d : Nat} (hd : d < 256) : octet (Nat.toDigits 10 d) = some d := by
  have hlength : (Nat.toDigits 10 d).length ≤ 3 := (Nat.length_toDigits_le_iff (by decide) (by decide)).2 (by omega)
  have hfirst : ∀ d < 256, Nat.toDigits 10 d = ['0'] ∨ (Nat.toDigits 10 d).head? ≠ some '0' := by decide +kernel
  rw [octet, if_pos ⟨Nat.toDigits_ne_nil, hlength, hfirst d hd⟩, readDigits_toDigits (by decide) (by decide)]

theorem hextet_toDigits {d : Nat} (hd : d < 65536) : hextet (Nat.toDigits 16 d) = some d := by
  have hlength : (Nat.toDigits 16 d).length ≤ 4 := (Nat.length_toDigits_le_iff (by decide) (by decide)).2 (by omega)
  rw [hextet, if_pos ⟨Nat.toDigits_ne_nil, hlength⟩, readDigits_toDigits (by decide) (by decide)]

theorem not_mem_toDigits {base n : Nat} (hbase : 1 < base) (hle : base ≤ 16) {c : Char} (hc : hexValue c = none) : c ∉ Nat.toDigits base n := by
  intro hmem
  have hsome := hexValue_of_mem_toDigits hbase hle hmem
  rw [hc] at hsome
  cases hsome

theorem readV4_text (g : Groups 4 256) : readV4 (IpAddress.v4 g).text = some g := by
  have hne : g.digits.map (Nat.toDigits 10) ≠ [] := by
    intro hnil
    have hlength := g.length_eq
    rw [List.map_eq_nil_iff.1 hnil] at hlength
    cases hlength
  have hsplit : (IpAddress.v4 g).text.splitOn '.' = g.digits.map (Nat.toDigits 10) := by
    refine List.splitOn_intercalate '.' ?_ hne
    intro part hpart
    obtain ⟨d, -, rfl⟩ := List.mem_map.1 hpart
    exact not_mem_toDigits (by decide) (by decide) (by decide)
  rw [readV4, hsplit, mapM_map_some fun d hd => octet_toDigits (g.lt d hd), Option.bind_some, Groups.ofList_digits]

theorem hexTexts_mapM {ds : List Nat} (h : ∀ d ∈ ds, d < 65536) : (hexTexts ds).mapM hextet = some ds := by
  rw [hexTexts, mapM_map_some fun d hd => hextet_toDigits (h d hd)]

theorem hexTexts_ne_nil {ds : List Nat} : ∀ part ∈ hexTexts ds, part ≠ [] := by
  intro part hpart
  obtain ⟨d, -, rfl⟩ := List.mem_map.1 hpart
  exact Nat.toDigits_ne_nil

theorem zeros_split (ds : List Nat) (i : Nat) : ds = ds.take i ++ List.replicate (zerosAt ds i) 0 ++ ds.drop (i + zerosAt ds i) := by
  have hrow : (ds.drop i).takeWhile (· == 0) = List.replicate (zerosAt ds i) 0 := by
    refine List.eq_replicate_iff.2 ⟨rfl, fun d hd => ?_⟩
    simpa using List.mem_takeWhile_imp hd
  have hrest : (ds.drop i).dropWhile (· == 0) = ds.drop (i + zerosAt ds i) := by
    have happend := List.takeWhile_append_dropWhile (p := fun d : Nat => d == 0) (l := ds.drop i)
    have hdrop := congrArg (List.drop (zerosAt ds i)) happend
    rw [List.drop_left' (show _ = zerosAt ds i from rfl), List.drop_drop] at hdrop
    exact hdrop
  rw [List.append_assoc, ← hrest, ← hrow, List.takeWhile_append_dropWhile, List.take_append_drop]

theorem atEnd_ne_nil (parts : List (List Char)) : atEnd parts ≠ [] := by
  unfold atEnd
  split
  · exact List.cons_ne_nil _ _
  · assumption

/-- The row of one side, with its first part apart. -/
theorem atEnd_eq_cons (ds : List Nat) : ∃ first rest, atEnd (hexTexts ds) = first :: rest ∧ (∀ part ∈ rest, part ≠ []) ∧
    side first (first :: rest) = some (hexTexts ds) := by
  cases ds with
  | nil => exact ⟨[], [], rfl, nofun, rfl⟩
  | cons d ds =>
    refine ⟨Nat.toDigits 16 d, hexTexts ds, rfl, hexTexts_ne_nil, ?_⟩
    rw [side, if_neg Nat.toDigits_ne_nil]
    rfl

/-- The row of one side, with its last part apart. -/
theorem atEnd_eq_concat (ds : List Nat) : ∃ rest last, atEnd (hexTexts ds) = rest ++ [last] ∧ (∀ part ∈ rest, part ≠ []) ∧
    side last (rest ++ [last]) = some (hexTexts ds) ∧ '.' ∉ last := by
  rcases List.eq_nil_or_concat ds with rfl | ⟨ds, d, rfl⟩
  · exact ⟨[], [], rfl, nofun, rfl, List.not_mem_nil⟩
  · have htexts : hexTexts (ds ++ [d]) = hexTexts ds ++ [Nat.toDigits 16 d] := List.map_append
    rw [List.concat_eq_append]
    refine ⟨hexTexts ds, Nat.toDigits 16 d, ?_, hexTexts_ne_nil, ?_, not_mem_toDigits (by decide) (by decide) (by decide)⟩
    · rw [atEnd, htexts, if_neg (by simp)]
    · rw [side, if_neg Nat.toDigits_ne_nil, htexts]

theorem cutAtEmpty_of_row {first last : List Char} {before after : List (List Char)} (hbefore : ∀ part ∈ before, part ≠ []) (hafter : ∀ part ∈ after, part ≠ []) :
    cutAtEmpty first last (before ++ [] :: after) = some (first :: before, some (after ++ [last])) := by
  have hfull : ∀ part ∈ before, (fun part : List Char => !part.isEmpty) part = true := fun part hpart => by simpa using hbefore part hpart
  have hdrop : (before ++ [] :: after).dropWhile (fun part => !part.isEmpty) = [] :: after := by
    rw [List.dropWhile_append_of_pos hfull]
    rfl
  have htake : (before ++ [] :: after).takeWhile (fun part => !part.isEmpty) = before := by
    rw [List.takeWhile_append_of_pos hfull, List.takeWhile_cons_of_neg (by simp), List.append_nil]
  have hnone : after.any List.isEmpty = false := by
    rw [List.any_eq_false]
    intro part hpart
    simpa using hafter part hpart
  simp only [cutAtEmpty, hdrop, hnone, htake, Bool.false_eq_true, if_false]

theorem cutAtEmpty_of_none {first last : List Char} {inner : List (List Char)} (hinner : ∀ part ∈ inner, part ≠ []) :
    cutAtEmpty first last inner = some (first :: inner ++ [last], none) := by
  have hdrop : inner.dropWhile (fun part => !part.isEmpty) = [] := by
    rw [List.dropWhile_eq_nil_iff]
    intro part hpart
    simpa using hinner part hpart
  simp only [cutAtEmpty, hdrop]

theorem getLastD_row (first last : List Char) (inner : List (List Char)) : (first :: (inner ++ [last])).getLastD [] = last := by
  change ((first :: inner) ++ [last]).getLastD [] = last
  rw [List.getLastD_eq_getLast?, List.getLast?_concat]
  rfl

theorem tail_dropLast_row (first last : List Char) (inner : List (List Char)) : (first :: (inner ++ [last])).tail.dropLast = inner := List.dropLast_concat

theorem length_atEnd (ds : List Nat) : (atEnd (hexTexts ds)).length ≤ ds.length + 1 := by
  cases ds with
  | nil => decide
  | cons d ds =>
    change (hexTexts (d :: ds)).length ≤ _
    rw [hexTexts, List.length_map]
    omega

theorem expandV4_of_hex {parts : List (List Char)} (h : '.' ∉ parts.getLastD []) : expandV4 parts = some parts := if_neg h

/-- What is written of eight hextets is read as these. -/
theorem hextetsOf_partsOf (g : Groups 8 65536) : hextetsOf (partsOf g.digits) = some g.digits := by
  generalize hds : g.digits = ds
  have hlength : ds.length = 8 := hds ▸ g.length_eq
  have hlt : ∀ d ∈ ds, d < 65536 := hds ▸ g.lt
  unfold partsOf
  dsimp only
  split
  · rename_i hzeros
    generalize hstart : longest ds = start at hzeros ⊢
    have hsplit := zeros_split ds start
    generalize hcount : zerosAt ds start = count at hzeros hsplit ⊢
    generalize hhigh : ds.take start = high at hsplit ⊢
    generalize hlow : ds.drop (start + count) = low at hsplit ⊢
    have htotal : high.length + count + low.length = 8 := by
      rw [← hlength, hsplit]
      simp [Nat.add_assoc]
    have hhighLt : ∀ d ∈ high, d < 65536 := fun d hd => hlt d (by rw [hsplit]; simp [hd])
    have hlowLt : ∀ d ∈ low, d < 65536 := fun d hd => hlt d (by rw [hsplit]; simp [hd])
    have hbeforeLength := length_atEnd high
    have hafterLength := length_atEnd low
    obtain ⟨first, before, hbefore, hbeforeFull, hbeforeSide⟩ := atEnd_eq_cons high
    obtain ⟨after, last, hafter, hafterFull, hafterSide, hdot⟩ := atEnd_eq_concat low
    rw [hbefore, List.length_cons] at hbeforeLength
    rw [hafter, List.length_append, List.length_singleton] at hafterLength
    rw [hbefore, hafter]
    have hall : first :: before ++ [] :: (after ++ [last]) = first :: (before ++ [] :: after ++ [last]) := by simp
    have hlast := getLastD_row first last (before ++ [] :: after)
    have hinner := tail_dropLast_row first last (before ++ [] :: after)
    have hcountParts : (first :: (before ++ [] :: after ++ [last])).length = before.length + after.length + 3 := by
      simp only [List.length_cons, List.length_append, List.length_nil]
      omega
    have hfill : fillZeros (hexTexts high) (hexTexts low) = some ds := by
      have hhexHigh : (hexTexts high).length = high.length := List.length_map _
      have hhexLow : (hexTexts low).length = low.length := List.length_map _
      have hsome : (hexTexts high).length + (hexTexts low).length < 8 := by omega
      have hrow : 8 - ((hexTexts high).length + (hexTexts low).length) = count := by omega
      rw [fillZeros, hexTexts_mapM hhighLt, hexTexts_mapM hlowLt, hrow, hsplit]
      simp [guard, hsome]
    unfold hextetsOf
    rw [hall, expandV4_of_hex (by rwa [hlast])]
    simp only [hlast, hinner, hcountParts, guard, Option.pure_def, Option.bind_eq_bind, Option.bind_some, List.headD_cons,
      cutAtEmpty_of_row hbeforeFull hafterFull, hbeforeSide, hafterSide, hfill]
    rw [if_pos (by omega), if_pos (by omega)]
    rfl
  · obtain ⟨first, rest, hfirst⟩ : ∃ first rest, ds = first :: rest := by
      cases ds with
      | nil => cases hlength
      | cons d ds => exact ⟨_, _, rfl⟩
    obtain ⟨inner, last, hrest⟩ : ∃ inner last, rest = inner ++ [last] := by
      rcases List.eq_nil_or_concat rest with rfl | ⟨inner, last, hrest⟩
      · rw [hfirst] at hlength
        cases hlength
      · exact ⟨inner, last, hrest.trans (List.concat_eq_append ..)⟩
    have hparts : hexTexts ds = Nat.toDigits 16 first :: (hexTexts inner ++ [Nat.toDigits 16 last]) := by
      rw [hfirst, hrest]
      simp [hexTexts]
    have hlast := getLastD_row (Nat.toDigits 16 first) (Nat.toDigits 16 last) (hexTexts inner)
    have hinner := tail_dropLast_row (Nat.toDigits 16 first) (Nat.toDigits 16 last) (hexTexts inner)
    have hcount : (hexTexts ds).length = 8 := (List.length_map _).trans hlength
    have hread := hexTexts_mapM hlt
    rw [← hparts] at hlast hinner
    unfold hextetsOf
    rw [expandV4_of_hex (by rw [hlast]; exact not_mem_toDigits (by decide) (by decide) (by decide))]
    have hhead : (hexTexts ds).headD [] = Nat.toDigits 16 first := by rw [hparts]; rfl
    simp only [hlast, hinner, hcount, guard, Option.pure_def, Option.bind_eq_bind, Option.bind_some, hhead, cutAtEmpty_of_none hexTexts_ne_nil]
    rw [if_pos (by decide), if_pos (by decide)]
    simp only [Option.bind_some]
    rw [List.cons_append, ← hparts, if_pos hcount, hread]

/-- The hextets as a text. -/
def hextetText (ds : List Nat) : List Char := [':'].intercalate (partsOf ds)

theorem mem_atEnd {ds : List Nat} {part : List Char} (h : part ∈ atEnd (hexTexts ds)) : part = [] ∨ part ∈ hexTexts ds := by
  unfold atEnd at h
  split at h
  · exact .inl (List.mem_singleton.1 h)
  · exact .inr h

/-- The parts of a text are empty or hexadecimal numbers. -/
theorem mem_partsOf {ds : List Nat} {part : List Char} (h : part ∈ partsOf ds) : ∀ c ∈ part, (hexValue c).isSome = true := by
  have htexts : ∀ {ds : List Nat}, part ∈ hexTexts ds → ∀ c ∈ part, (hexValue c).isSome = true := by
    intro ds hpart c hc
    obtain ⟨d, -, rfl⟩ := List.mem_map.1 hpart
    exact hexValue_of_mem_toDigits (by decide) (by decide) hc
  have hends : ∀ {ds : List Nat}, part ∈ atEnd (hexTexts ds) → ∀ c ∈ part, (hexValue c).isSome = true := by
    intro ds hpart
    rcases mem_atEnd hpart with rfl | hpart
    · nofun
    · exact htexts hpart
  unfold partsOf at h
  dsimp only at h
  split at h
  · rw [List.mem_append, List.mem_cons] at h
    rcases h with h | rfl | h
    · exact hends h
    · nofun
    · exact hends h
  · exact htexts h

theorem three_le_partsOf {ds : List Nat} (h : ds.length = 8) : 3 ≤ (partsOf ds).length := by
  unfold partsOf
  dsimp only
  split
  · have hbefore := List.length_pos_iff.2 (atEnd_ne_nil (hexTexts (ds.take (longest ds))))
    have hafter := List.length_pos_iff.2 (atEnd_ne_nil (hexTexts (ds.drop (longest ds + zerosAt ds (longest ds)))))
    rw [List.length_append, List.length_cons]
    omega
  · rw [hexTexts, List.length_map, h]
    decide

theorem mem_hextetText {ds : List Nat} {c : Char} (h : c ∈ hextetText ds) : c = ':' ∨ (hexValue c).isSome = true := by
  rcases SplitJoin.mem_intercalate h with h | ⟨part, hpart, hc⟩
  · exact .inl h
  · exact .inr (mem_partsOf hpart c hc)

/-- A mark that is neither a colon nor a digit is not in a text of hextets. -/
theorem not_mem_hextetText {ds : List Nat} {c : Char} (hcolon : c ≠ ':') (hvalue : hexValue c = none) : c ∉ hextetText ds := by
  intro h
  rcases mem_hextetText h with h | h
  · exact hcolon h
  · rw [hvalue] at h
    cases h

theorem two_le_count {ds : List Nat} (h : ds.length = 8) : 2 ≤ (hextetText ds).count ':' := by
  have hparts := three_le_partsOf h
  have hcount := SplitJoin.length_le_count_intercalate ':' (partsOf ds)
  unfold hextetText
  omega

theorem splitOn_hextetText {ds : List Nat} (h : ds.length = 8) : (hextetText ds).splitOn ':' = partsOf ds := by
  refine List.splitOn_intercalate ':' (fun part hpart hc => ?_) ?_
  · cases mem_partsOf hpart ':' hc
  · intro hnil
    have hparts := three_le_partsOf h
    rw [hnil] at hparts
    cases hparts

/-- A text that is read as four octets has no colon. -/
theorem colon_not_mem_of_readV4 {s : List Char} {g : Groups 4 256} (h : readV4 s = some g) : ':' ∉ s := by
  obtain ⟨octets, hoctets, -⟩ := Option.bind_eq_some_iff.1 h
  intro hmem
  rw [← (List.intercalate_splitOn '.' : ['.'].intercalate (s.splitOn '.') = s)] at hmem
  rcases SplitJoin.mem_intercalate hmem with hdot | ⟨part, hpart, hcolon⟩
  · cases hdot
  · obtain ⟨n, hn⟩ := exists_of_mapM_some hoctets hpart
    unfold octet readDigits at hn
    split at hn
    · obtain ⟨digits, hdigits, -⟩ := Option.map_eq_some_iff.1 hn
      obtain ⟨d, hd⟩ := exists_of_mapM_some hdigits hcolon
      cases hd
    · cases hn

theorem readV4_of_colon {s : List Char} (h : ':' ∈ s) : readV4 s = none := by
  cases hread : readV4 s with
  | none => rfl
  | some g => exact absurd h (colon_not_mem_of_readV4 hread)

theorem colon_mem_hextetText {ds : List Nat} (h : ds.length = 8) : ':' ∈ hextetText ds := by
  have hcount := two_le_count h
  exact List.count_pos_iff.1 (by omega)

/-- What the text of eight hextets is read as, with whatever zone after it. -/
theorem ofText_hextets (g : Groups 8 65536) (zone : List Char) :
    ofText (hextetText g.digits ++ '%' :: zone) = if zone = [] ∨ '%' ∈ zone ∨ '/' ∈ zone then none else some (.v6 g zone) := by
  have hpercent : ∀ c ∈ hextetText g.digits, (fun c : Char => c != '%') c = true := by
    intro c hc
    rw [bne_iff_ne]
    rintro rfl
    exact not_mem_hextetText (by decide) (by decide) hc
  have hslash : '/' ∉ hextetText g.digits := not_mem_hextetText (by decide) (by decide)
  have hdrop : (hextetText g.digits ++ '%' :: zone).dropWhile (· != '%') = '%' :: zone := by
    rw [List.dropWhile_append_of_pos hpercent]
    rfl
  have htake : (hextetText g.digits ++ '%' :: zone).takeWhile (· != '%') = hextetText g.digits := by
    rw [List.takeWhile_append_of_pos hpercent, List.takeWhile_cons_of_neg (by simp), List.append_nil]
  have hzone : cutZone (hextetText g.digits ++ '%' :: zone) = if zone = [] ∨ '%' ∈ zone then none else some (hextetText g.digits, zone) := by
    simp only [cutZone, hdrop, htake]
  rw [ofText, readV4_of_colon (List.mem_append_left _ (colon_mem_hextetText g.length_eq))]
  simp only [readV6, hzone]
  by_cases hz : zone = [] ∨ '%' ∈ zone
  · rw [if_pos hz, if_pos (hz.imp_right .inl)]
    simp
  · rw [if_neg hz]
    by_cases hs : '/' ∈ zone
    · rw [if_pos (.inr (.inr hs))]
      simp [guard, hs]
    · rw [if_neg (by tauto)]
      simp [guard, hs, hslash, splitOn_hextetText g.length_eq, hextetsOf_partsOf]

/-- The text of an address without a zone is read as that address. -/
theorem ofText_unzoned (a : IpAddress) : ofText a.unzoned.text = some a.unzoned := by
  cases a with
  | v4 octets => rw [ofText, unzoned, readV4_text]
  | v6 g zone =>
    have hslash : '/' ∉ hextetText g.digits := not_mem_hextetText (by decide) (by decide)
    have hpercent : (hextetText g.digits).dropWhile (· != '%') = [] := by
      rw [List.dropWhile_eq_nil_iff]
      intro c hc
      rw [bne_iff_ne]
      rintro rfl
      exact not_mem_hextetText (by decide) (by decide) hc
    have htext : (IpAddress.v6 g zone).unzoned.text = hextetText g.digits := List.append_nil _
    rw [htext, ofText, readV4_of_colon (colon_mem_hextetText g.length_eq)]
    simp only [readV6, cutZone, hpercent]
    simp [guard, hslash, splitOn_hextetText g.length_eq, hextetsOf_partsOf, unzoned]

end IpAddress
