import TecTac.RestoreSecurity

/-!
# A restore keeps the trust of the server

What `_merge_restore_security_state` leaves is read the way the server reads it: `_publisher_policy` for a key, root's `read_policy` for the floor and `protection_enabled`
for the accounts. Each part of the state is kept under a condition on the two states that go in.
-/

namespace TecTac

namespace Trust

open Raise

section Statements

variable {Content : Type} (repr : Doc → String)

/-- The entries of a store; a store that is missing has none. -/
def entries (store : Option (Store Content)) : Store Content := store.getD fun _ => none

/-- A key gains nothing from the merge: if it is accepted it was, with these bytes, in the current store, or only the restored one has it and accepted it. If either store
revoked it it is not accepted, and where a record of it is left it is a revoked one. -/
structure KeyKept (current restored merged : Store Content) (publisherId keyId : String) : Prop where
  accepted : ∀ bytes, accepts repr merged publisherId keyId = some bytes →
    accepts repr current publisherId keyId = some bytes ∨ knows repr current publisherId keyId = false ∧ accepts repr restored publisherId keyId = some bytes
  revokedStays : revoked repr current publisherId keyId = true ∨ revoked repr restored publisherId keyId = true →
    accepts repr merged publisherId keyId = none ∧ (knows repr merged publisherId keyId = true → revoked repr merged publisherId keyId = true)

/-- Every key is kept. -/
def StoreKept (current restored merged : Store Content) : Prop := ∀ publisherId keyId, isId keyId = true → KeyKept repr current restored merged publisherId keyId

/-- The floor that root reads is at least each of these floors. -/
def FloorKept (default : Level) (current restored merged : Stored) : Prop :=
  ∀ level level', (rootFloor repr default current = some level ∨ rootFloor repr default restored = some level) → rootFloor repr default merged = some level' →
    level.rank ≤ level'.rank

/-- The accounts are protected where they were. -/
def AccountKept (current restored merged : Stored) : Prop :=
  protectionEnabled repr current = true ∨ protectionEnabled repr restored = true → protectionEnabled repr merged = true

/-- The merge and the reader find the same record of each key. -/
def ReadAlike (policy : List (String × Doc)) : Prop := ∀ keyId, isId keyId = true → lastRecord repr keyId policy = keyRecord repr keyId policy

/-- Two policies of one publisher that the merge may put together: they are read alike, the header is the current one's own, and a restored publisher with further keys is
trusted where the current one is, or revoked. -/
structure PoliciesFit (publisherId : String) (current restored : List (String × Doc)) : Prop where
  currentAlike : ReadAlike repr current
  restoredAlike : ReadAlike repr restored
  header : ∀ key ∈ ["schema", "publisher_id", "status"], (Dict.get key current).isSome ∨ Dict.get key restored = none
  trusted : ∀ keyId record, keyRecord repr keyId restored = some record → keyRecord repr keyId current = none → headerOk repr publisherId current = true →
    headerOk repr publisherId restored = true ∨ (Doc.textField repr "status" restored).toLower = "revoked"

/-- Two folders of one publisher that may be put together: the policies fit and the file of a current key is not one that only the restored folder has, or the current folder
has no policy and no file of its own. -/
def FoldersFit (publisherId : String) (current restored : PublisherDir Content) : Prop :=
  match current.policy with
  | .absent => ∀ name, current.children name = none ∨ current.children name = restored.children name
  | _ => ∀ currentPolicy restoredPolicy, policyFields current.policy = .ok currentPolicy → policyFields restored.policy = .ok restoredPolicy →
      PoliciesFit repr publisherId currentPolicy restoredPolicy ∧
      ∀ keyId record, keyRecord repr keyId currentPolicy = some record →
        (current.children (keyFileText repr record)).isSome ∨ restored.children (keyFileText repr record) = none

/-- The publishers of both stores fit. -/
def StoresFit (current restored : Store Content) : Prop :=
  ∀ publisherId currentDir restoredDir, current publisherId = some (.dir currentDir) → restored publisherId = some (.dir restoredDir) →
    FoldersFit repr publisherId currentDir restoredDir

/-- Neither policy is missing where the other one names a level below the default. -/
def FloorsFit (default : Level) (current restored : Stored) : Prop :=
  (current = .absent → ∀ level, rootFloor repr default restored = some level → default.rank ≤ level.rank) ∧
  (restored = .absent → ∀ level, readTrustFloor repr current = .ok (some level) → default.rank ≤ level.rank)

end Statements

namespace TrustAux

variable {Content : Type} {repr : Doc → String}

theorem levelOf_name (level : Level) : levelOf (stripText level.name).toLower = some level := by
  rw [toLower_eq_ofList]
  cases level <;> decide

theorem rootFloor_written (default level : Level) : rootFloor repr default (writtenFloor level) = some level := by
  have hname : Doc.textField repr "minimum_level" [("schema", Doc.num 1), ("minimum_level", Doc.str level.name)] = level.name := Doc.textField_str rfl
  have hschema : isSchemaOne (Doc.field "schema" [("schema", Doc.num 1), ("minimum_level", Doc.str level.name)]) = true := rfl
  simp only [writtenFloor, rootFloor]
  rw [if_pos hschema, hname]
  exact levelOf_name level

/-- A level that root reads from a policy that is there is the one the merge reads. -/
theorem readTrustFloor_of_rootFloor {default level : Level} {stored : Stored} (hthere : stored ≠ .absent) (h : rootFloor repr default stored = some level) :
    readTrustFloor repr stored = .ok (some level) := by
  match stored, h with
  | .doc (.obj policy), h =>
    simp only [rootFloor] at h
    split at h
    · rw [readTrustFloor, h]
    · cases h

/-- What the merge of the floors leaves, by the levels it reads. -/
theorem mergeFloor_cases {current restored merged : Stored} (h : mergeFloor repr current restored = .ok merged) :
    ∃ currentLevel restoredLevel, readTrustFloor repr current = .ok currentLevel ∧ readTrustFloor repr restored = .ok restoredLevel ∧
      ((currentLevel = none ∧ merged = restored) ∨
        ∃ level, currentLevel = some level ∧
          ((merged = writtenFloor level ∧ ∀ level', restoredLevel = some level' → level'.rank < level.rank) ∨
            (merged = restored ∧ ∃ level', restoredLevel = some level' ∧ level.rank ≤ level'.rank))) := by
  obtain ⟨currentLevel, hcurrent, h⟩ := bind_ok h
  obtain ⟨restoredLevel, hrestored, h⟩ := bind_ok h
  refine ⟨currentLevel, restoredLevel, hcurrent, hrestored, ?_⟩
  cases currentLevel with
  | none =>
    refine Or.inl ⟨rfl, ?_⟩
    cases restoredLevel with
    | none => exact (Except.ok.inj h).symm
    | some level' => exact (Except.ok.inj h).symm
  | some level =>
    refine Or.inr ⟨level, rfl, ?_⟩
    cases restoredLevel with
    | none => exact Or.inl ⟨(Except.ok.inj h).symm, fun _ hnone => by cases hnone⟩
    | some level' =>
      have hmerged := (Except.ok.inj h).symm
      simp only at hmerged
      split at hmerged
      · rename_i hlt
        refine Or.inl ⟨hmerged, ?_⟩
        intro other hother
        cases hother
        exact hlt
      · rename_i hle
        exact Or.inr ⟨hmerged, level', rfl, Nat.le_of_not_lt hle⟩

/-- The floor is kept exactly where the floors fit. -/
theorem floorKept_iff {default : Level} {current restored merged : Stored} (h : mergeFloor repr current restored = .ok merged) :
    FloorKept repr default current restored merged ↔ FloorsFit repr default current restored := by
  obtain ⟨currentLevel, restoredLevel, hcurrent, hrestored, hcases⟩ := mergeFloor_cases h
  constructor
  · intro hkept
    constructor
    · intro habsent level hlevel
      subst habsent
      cases hcurrent
      rcases hcases with ⟨_, rfl⟩ | ⟨level, hnone, _⟩
      · exact hkept default level (Or.inl rfl) hlevel
      · cases hnone
    · intro habsent level hlevel
      subst habsent
      cases hrestored
      rw [hlevel] at hcurrent
      cases hcurrent
      rcases hcases with ⟨hnone, _⟩ | ⟨_, heq, ⟨rfl, _⟩ | ⟨_, level', hnone, _⟩⟩
      · cases hnone
      · cases heq
        exact hkept default level (Or.inr rfl) (rootFloor_written default level)
      · cases hnone
  · rintro ⟨hfitCurrent, hfitRestored⟩ level level' hlevel hmerged
    rcases hcases with ⟨hnone, rfl⟩ | ⟨own, heq, ⟨rfl, hlt⟩ | ⟨rfl, other, hother, hle⟩⟩
    -- the restored policy stays and the merge read no level of the current one
    · subst hnone
      rcases hlevel with hlevel | hlevel
      · by_cases habsent : current = .absent
        · subst habsent
          cases hlevel
          exact hfitCurrent rfl level' hmerged
        · rw [readTrustFloor_of_rootFloor habsent hlevel] at hcurrent
          cases hcurrent
      · rw [hlevel] at hmerged
        cases hmerged
        exact Nat.le_refl _
    -- the current level is written
    · rw [rootFloor_written] at hmerged
      cases hmerged
      rcases hlevel with hlevel | hlevel
      · by_cases habsent : current = .absent
        · subst habsent
          cases hcurrent
          cases heq
        · rw [readTrustFloor_of_rootFloor habsent hlevel, heq] at hcurrent
          cases hcurrent
          exact Nat.le_refl _
      · by_cases habsent : restored = .absent
        · subst habsent
          cases hlevel
          exact hfitRestored rfl level' (heq ▸ hcurrent)
        · rw [readTrustFloor_of_rootFloor habsent hlevel] at hrestored
          cases hrestored
          exact Nat.le_of_lt (hlt level rfl)
    -- the restored policy stays and names the higher level
    · rcases hlevel with hlevel | hlevel
      · by_cases habsent : current = .absent
        · subst habsent
          cases hcurrent
          cases heq
        · rw [readTrustFloor_of_rootFloor habsent hlevel, heq] at hcurrent
          cases hcurrent
          by_cases hnothing : merged = .absent
          · subst hnothing
            cases hrestored
            cases hother
          · rw [readTrustFloor_of_rootFloor hnothing hmerged, hother] at hrestored
            cases hrestored
            exact hle
      · rw [hlevel] at hmerged
        cases hmerged
        exact Nat.le_refl _

/-- What the server makes of a policy that is there. -/
theorem protectionEnabled_eq {stored : Stored} (hthere : stored ≠ .absent) :
    protectionEnabled repr stored = (readAccountSecurityProtection repr stored).getD true := by
  cases stored with
  | absent => exact absurd rfl hthere
  | undecodable => rfl
  | unparsable => rfl
  | doc d => rfl

theorem presentUnreadable_iff {stored : Stored} :
    presentUnreadable repr stored = true ↔ stored ≠ .absent ∧ readAccountSecurityProtection repr stored = none := by
  cases stored <;> simp [presentUnreadable]

theorem protectionEnabled_iff {stored : Stored} :
    protectionEnabled repr stored = true ↔ readAccountSecurityProtection repr stored = some true ∨ presentUnreadable repr stored = true := by
  by_cases hthere : stored = .absent
  · subst hthere
    simp [protectionEnabled, readAccountSecurityProtection, presentUnreadable]
  · rw [protectionEnabled_eq hthere, presentUnreadable_iff]
    cases hread : readAccountSecurityProtection repr stored with
    | none => simp [hthere]
    | some enabled => simp

theorem protectionEnabled_written (enabled : Bool) : protectionEnabled repr (writtenAccount enabled) = enabled := by
  cases enabled <;> rfl

/-- The accounts stay protected exactly where the current policy is not an unreadable one beside a backup without any. -/
theorem accountKept_iff (current restored : Stored) :
    AccountKept repr current restored (mergeAccount repr current restored) ↔ ¬(presentUnreadable repr current = true ∧ restored = .absent) := by
  unfold AccountKept
  constructor
  · rintro hkept ⟨hunreadable, rfl⟩
    have hon := hkept (Or.inl (protectionEnabled_iff.2 (Or.inr hunreadable)))
    have hnone := (presentUnreadable_iff.1 hunreadable).2
    have hmerged : mergeAccount repr current .absent = .absent := by
      unfold mergeAccount
      rw [hnone]
      rfl
    rw [hmerged] at hon
    cases hon
  · intro hfit hon
    rw [protectionEnabled_iff, protectionEnabled_iff] at hon
    unfold mergeAccount
    simp only
    split
    · -- one of the two is read, and what is written is on where one of them is
      have heffective : (readAccountSecurityProtection repr current == some true || readAccountSecurityProtection repr restored == some true ||
          presentUnreadable repr current || presentUnreadable repr restored) = true := by
        rcases hon with (h | h) | (h | h) <;> simp [h]
      rw [heffective]
      split
      · rename_i hrestored
        exact protectionEnabled_iff.2 (Or.inl (by simpa using hrestored))
      · exact protectionEnabled_written true
    · rename_i hnone
      simp only [Bool.or_eq_true, Option.isSome_iff_ne_none, not_or, not_not] at hnone
      rw [hnone.1, hnone.2] at hon
      rcases hon with (h | h) | (h | h)
      · cases h
      · -- the restored policy is not missing, so it is an unreadable one
        refine protectionEnabled_iff.2 (Or.inr (presentUnreadable_iff.2 ⟨?_, hnone.2⟩))
        intro habsent
        exact hfit ⟨h, habsent⟩
      · cases h
      · exact protectionEnabled_iff.2 (Or.inr h)

/-! ## One publisher on a replacement server -/

variable {store store' : Store Content} {publisherId keyId : String}

/-- A key is accepted for its policy, its record and its file. -/
theorem accepts_iff {bytes : Content} : accepts repr store publisherId keyId = some bytes ↔
    isId publisherId = true ∧ isId keyId = true ∧ ∃ policy record, policyOf store publisherId = some policy ∧ headerOk repr publisherId policy = true ∧
      keyRecord repr keyId policy = some record ∧ recordOk repr record = true ∧ keyFile store publisherId (keyFileText repr record) = some bytes := by
  unfold accepts
  constructor
  · intro h
    split at h
    · rename_i hids
      rw [Bool.and_eq_true] at hids
      split at h
      · cases h
      · rename_i policy hpolicy
        split at h
        · rename_i hheader
          split at h
          · cases h
          · rename_i record hrecord
            split at h
            · rename_i hok
              exact ⟨hids.1, hids.2, policy, record, hpolicy, hheader, hrecord, hok, h⟩
            · cases h
        · cases h
    · cases h
  · rintro ⟨hpublisher, hkey, policy, record, hpolicy, hheader, hrecord, hok, hfile⟩
    simp [hpublisher, hkey, hpolicy, hheader, hrecord, hok, hfile]

theorem policyOf_congr (h : store publisherId = store' publisherId) : policyOf store publisherId = policyOf store' publisherId := by
  unfold policyOf
  rw [h]

theorem accepts_congr (h : store publisherId = store' publisherId) : accepts repr store publisherId keyId = accepts repr store' publisherId keyId := by
  have hfile : ∀ name, keyFile store publisherId name = keyFile store' publisherId name := by
    intro name
    unfold keyFile
    rw [h]
  unfold accepts
  simp only [policyOf_congr h, hfile]

theorem revoked_congr (h : store publisherId = store' publisherId) : revoked repr store publisherId keyId = revoked repr store' publisherId keyId := by
  unfold revoked
  rw [policyOf_congr h]

theorem not_recordOk_of_revoked {record : List (String × Doc)} (h : (Doc.textField repr "status" record).toLower = "revoked") : recordOk repr record = false := by
  unfold recordOk
  rw [h]
  rfl

theorem not_headerOk_of_revoked {policy : List (String × Doc)} (h : (Doc.textField repr "status" policy).toLower = "revoked") : headerOk repr publisherId policy = false := by
  unfold headerOk
  rw [h]
  exact Bool.and_false _

/-- What is revoked is not accepted. -/
theorem accepts_of_revoked (h : revoked repr store publisherId keyId = true) : accepts repr store publisherId keyId = none := by
  cases haccepts : accepts repr store publisherId keyId with
  | none => rfl
  | some bytes =>
    obtain ⟨-, -, policy, record, hpolicy, hheader, hrecord, hok, -⟩ := accepts_iff.1 haccepts
    simp only [revoked, hpolicy, Option.any_some, hrecord, Bool.or_eq_true, beq_iff_eq] at h
    rcases h with h | h
    · rw [not_headerOk_of_revoked h] at hheader
      cases hheader
    · rw [not_recordOk_of_revoked h] at hok
      cases hok

theorem accepts_of_unknown (h : knows repr store publisherId keyId = false) : accepts repr store publisherId keyId = none := by
  cases haccepts : accepts repr store publisherId keyId with
  | none => rfl
  | some bytes =>
    obtain ⟨-, -, policy, record, hpolicy, -, hrecord, -⟩ := accepts_iff.1 haccepts
    simp [knows, hpolicy, hrecord] at h

theorem isId_ne_empty (h : isId keyId = true) : keyId ≠ "" := by
  rintro rfl
  cases h

/-- A character of a name is no blank. -/
theorem not_isSpace_of_plain {c : Char} (h : (c.isAlphanum || c == '_' || c == '.' || c == '-') = true) : isSpace c = false := by
  have hval : c.toNat = c.val.toNat := rfl
  have hn : 65 ≤ c.toNat ∧ c.toNat ≤ 90 ∨ 97 ≤ c.toNat ∧ c.toNat ≤ 122 ∨ 48 ≤ c.toNat ∧ c.toNat ≤ 57 ∨ c.toNat = 95 ∨ c.toNat = 46 ∨ c.toNat = 45 := by
    simp only [Bool.or_eq_true, beq_iff_eq] at h
    rcases h with ((h | rfl) | rfl) | rfl
    · simp only [Char.isAlphanum, Char.isAlpha, Char.isUpper, Char.isLower, Char.isDigit, Bool.or_eq_true, Bool.and_eq_true, decide_eq_true_eq, ge_iff_le,
        UInt32.le_iff_toNat_le, Char.reduceVal, UInt32.reduceToNat] at h
      omega
    · decide
    · decide
    · decide
  simp only [isSpace, Bool.or_eq_false_iff, decide_eq_false_iff_not, beq_eq_false_iff_ne]
  omega

/-- A name of this form has no outer blanks. -/
theorem stripText_of_isId (h : isId keyId = true) : stripText keyId = keyId := by
  simp only [isId, Bool.and_eq_true, List.all_eq_true] at h
  rw [stripText, strip_eq_self fun c hc => not_isSpace_of_plain (h.2 c hc), String.ofList_toList]

theorem policyFields_ok {stored : Stored} {policy : List (String × Doc)} (hthere : stored ≠ .absent) (h : policyFields stored = .ok policy) : stored = .doc (.obj policy) := by
  match stored, h with
  | .absent, _ => exact absurd rfl hthere
  | .doc (.obj fields), h => rw [Except.ok.inj h]

theorem policyOf_dir {dir : PublisherDir Content} {policy : List (String × Doc)} (hstore : store publisherId = some (.dir dir)) (hpolicy : dir.policy = .doc (.obj policy)) :
    policyOf store publisherId = some policy := by
  obtain ⟨stored, children⟩ := dir
  cases hpolicy
  rw [policyOf, hstore]

theorem policyOf_absent {dir : PublisherDir Content} (hstore : store publisherId = some (.dir dir)) (hpolicy : dir.policy = .absent) : policyOf store publisherId = none := by
  obtain ⟨stored, children⟩ := dir
  cases hpolicy
  rw [policyOf, hstore]

theorem policyFields_of_policyOf {dir : PublisherDir Content} {policy : List (String × Doc)} (hstore : store publisherId = some (.dir dir)) (h : policyOf store publisherId = some policy) :
    policyFields dir.policy = .ok policy := by
  unfold policyOf at h
  rw [hstore] at h
  split at h
  · rename_i heq
    cases heq
    rw [← Option.some.inj h]
    rfl
  · cases h

theorem keyFile_iff {dir : PublisherDir Content} {name : String} {bytes : Content} (hstore : store publisherId = some (.dir dir)) :
    keyFile store publisherId name = some bytes ↔ dir.children name = some (.file bytes) := by
  unfold keyFile
  rw [hstore]
  simp only
  cases dir.children name with
  | none => simp
  | some child => cases child <;> simp

/-- A publisher whose entry is that of the current store is kept. -/
theorem keyKept_of_current {current restored merged : Store Content} (h : merged publisherId = current publisherId) (hrevoked : revoked repr restored publisherId keyId = true → knows repr merged publisherId keyId = false) :
    KeyKept repr current restored merged publisherId keyId := by
  refine ⟨fun bytes haccepts => Or.inl (accepts_congr h ▸ haccepts), ?_⟩
  rintro (hown | hother)
  · rw [← revoked_congr h] at hown
    exact ⟨accepts_of_revoked hown, fun _ => hown⟩
  · refine ⟨accepts_of_unknown (hrevoked hother), ?_⟩
    intro hknows
    rw [hrevoked hother] at hknows
    cases hknows

/-- A publisher that the current store does not know is kept where it is read as the restored store has it. -/
theorem keyKept_of_restored {current restored merged : Store Content} (hunknown : policyOf current publisherId = none) (hpolicy : policyOf merged publisherId = policyOf restored publisherId)
    (haccepts : accepts repr merged publisherId keyId = accepts repr restored publisherId keyId) : KeyKept repr current restored merged publisherId keyId := by
  have hknows : knows repr current publisherId keyId = false := by
    unfold knows
    rw [hunknown]
    rfl
  refine ⟨fun bytes h => Or.inr ⟨hknows, haccepts ▸ h⟩, ?_⟩
  have hsame : revoked repr merged publisherId keyId = revoked repr restored publisherId keyId := by
    unfold revoked
    rw [hpolicy]
  rintro (hown | hother)
  · unfold revoked at hown
    rw [hunknown] at hown
    cases hown
  · rw [← hsame] at hother
    exact ⟨accepts_of_revoked hother, fun _ => hother⟩

theorem restored_policy_there {restoredDir : PublisherDir Content} {restoredPolicy record : List (String × Doc)} (hid : isId keyId = true) (hfields : policyFields restoredDir.policy = .ok restoredPolicy)
    (hrecord : keyRecord repr keyId restoredPolicy = some record) : restoredDir.policy = .doc (.obj restoredPolicy) := by
  refine policyFields_ok ?_ hfields
  intro habsent
  rw [habsent] at hfields
  cases hfields
  have hnone : keyRecord repr keyId [] = none := if_neg (isId_ne_empty hid).symm
  rw [hnone] at hrecord
  cases hrecord

variable [DecidableEq Content]

section Kept

variable {restored current : PublisherDir Content} {currentPolicy : List (String × Doc)}

/-- The last of the records of a key is one of that key. -/
theorem keyIdOf_getLast {items : List (List (String × Doc))} {record : List (String × Doc)} (h : (items.filter fun item => keyIdOf repr item == keyId).getLast? = some record) :
    keyIdOf repr record = keyId := by
  have hmem := List.mem_of_getLast? h
  simpa using (List.mem_filter.1 hmem).2

theorem publisherKeyFilename_ok {record : List (String × Doc)} {name : String} (h : publisherKeyFilename repr record = .ok name) : name = keyFileText repr record := by
  simp only [publisherKeyFilename] at h
  split at h
  · exact (Except.ok.inj h).symm
  · cases h

/-- Which record of a key the loop keeps: the last one, where the current policy knows the key or the name of its file is kept. -/
theorem find_keptRestored {items kept : List (List (String × Doc))} {seen : List String} (h : keptRestored repr restored current currentPolicy seen items = .ok kept) (keyId : String) :
    kept.find? (fun item => keyIdOf repr item == keyId) = if keyId ∈ seen then none else
      ((items.filter fun item => keyIdOf repr item == keyId).getLast?).filter fun record =>
        (lastRecord repr keyId currentPolicy).isSome || nameKept restored current (keyFileText repr record) := by
  induction items generalizing seen kept with
  | nil =>
    cases h
    simp
  | cons item items ih =>
    rw [keptRestored] at h
    split at h
    · rename_i hseen
      rw [ih h]
      by_cases hid : keyId ∈ seen
      · rw [if_pos hid, if_pos hid]
      · rw [if_neg hid, if_neg hid, List.filter_cons_of_neg]
        simp only [beq_iff_eq]
        rintro rfl
        exact hid (by simpa using hseen)
    · rename_i hseen
      simp only [List.contains_eq_mem, decide_eq_true_eq] at hseen
      simp only at h
      have hlast : ((item :: items).filter fun other => keyIdOf repr other == keyIdOf repr item).getLast? =
          some ((((item :: items).filter fun other => keyIdOf repr other == keyIdOf repr item).getLast?).getD item) := by
        rw [List.filter_cons_of_pos (by simp), List.getLast?_cons]
        rfl
      generalize (((item :: items).filter fun other => keyIdOf repr other == keyIdOf repr item).getLast?).getD item = record at h hlast
      have hrecord := keyIdOf_getLast hlast
      -- the other keys are those of the rest
      have hrest : ∀ {rest}, keptRestored repr restored current currentPolicy (keyIdOf repr item :: seen) items = .ok rest → keyIdOf repr item ≠ keyId →
          rest.find? (fun item => keyIdOf repr item == keyId) = if keyId ∈ seen then none else
            (((item :: items).filter fun item => keyIdOf repr item == keyId).getLast?).filter fun record =>
              (lastRecord repr keyId currentPolicy).isSome || nameKept restored current (keyFileText repr record) := by
        intro rest hok hne
        rw [ih hok, List.filter_cons_of_neg (by simpa using hne)]
        simp only [List.mem_cons, hne.symm, false_or]
      split at h
      · rename_i hknown
        obtain ⟨rest, hok, h⟩ := bind_ok h
        cases h
        by_cases hid : keyIdOf repr item = keyId
        · subst hid
          rw [List.find?_cons_of_pos (by simpa using hrecord), if_neg hseen, hlast, Option.filter_some, hknown]
          rfl
        · rw [List.find?_cons_of_neg (by simpa [hrecord] using hid)]
          exact hrest hok hid
      · rename_i hunknown
        obtain ⟨name, hname, h⟩ := bind_ok h
        obtain ⟨rest, hok, h⟩ := bind_ok h
        have hkept := (Except.ok.inj h).symm
        have hfile := publisherKeyFilename_ok hname
        subst hfile
        by_cases hid : keyIdOf repr item = keyId
        · subst hid
          rw [if_neg hseen, hlast, hkept, Option.filter_some]
          by_cases hfree : nameKept restored current (keyFileText repr record) = true
          · rw [if_pos hfree, List.find?_cons_of_pos (by simpa using hrecord), hfree, Bool.or_true]
            rfl
          · rw [if_neg hfree, ih hok, if_pos List.mem_cons_self, if_neg]
            rw [Bool.or_eq_true]
            rintro (hknown | hkept)
            · exact hunknown hknown
            · exact hfree hkept
        · rw [← hrest hok hid, hkept]
          split
          · rw [List.find?_cons_of_neg (by simpa [hrecord] using hid)]
          · rfl

/-- What is found among the values of a list of names is the value of the name, where only that value is looked for. -/
theorem find_filterMap {α : Type} {f : String → Option α} {p : α → Bool} {order : List String} (hname : ∀ name a, f name = some a → p a = true → name = keyId)
    (hfound : ∀ a, f keyId = some a → p a = true) (hmem : (f keyId).isSome = true → keyId ∈ order) : (order.filterMap f).find? p = f keyId := by
  cases hvalue : f keyId with
  | none =>
    rw [List.find?_eq_none]
    intro a ha hp
    obtain ⟨name, -, hname'⟩ := List.mem_filterMap.1 ha
    rw [hname name a hname' hp, hvalue] at hname'
    cases hname'
  | some a =>
    have hin : a ∈ order.filterMap f := List.mem_filterMap.2 ⟨keyId, hmem (by rw [hvalue]; rfl), hvalue⟩
    cases hfind : (order.filterMap f).find? p with
    | none => exact absurd (hfound a hvalue) (List.find?_eq_none.1 hfind a hin)
    | some b =>
      obtain ⟨name, -, hb⟩ := List.mem_filterMap.1 (List.mem_of_find?_eq_some hfind)
      rw [hname name b hb (List.find?_some hfind), hvalue] at hb
      exact hb.symm

theorem textField_congr {key : String} {fields fields' : List (String × Doc)} (h : Dict.get key fields = Dict.get key fields') :
    Doc.textField repr key fields = Doc.textField repr key fields' := by
  unfold Doc.textField Doc.field
  rw [h]

theorem textField_key_of_keyRecord {policy record : List (String × Doc)} (h : keyRecord repr keyId policy = some record) : Doc.textField repr "key_id" record = keyId := by
  unfold keyRecord at h
  split at h
  · simpa using List.find?_some h
  · split at h
    · cases h
      exact Doc.textField_str rfl
    · cases h

theorem keyIdOf_of_lastRecord {policy record : List (String × Doc)} (h : lastRecord repr keyId policy = some record) : keyIdOf repr record = keyId := keyIdOf_getLast h

theorem mem_keys_of_lastRecord {policy record : List (String × Doc)} (h : lastRecord repr keyId policy = some record) : keyId ∈ (publisherKeys repr policy).map (keyIdOf repr) := by
  have hmem := (List.mem_filter.1 (List.mem_of_getLast? h)).1
  rw [← keyIdOf_of_lastRecord h]
  exact List.mem_map_of_mem hmem

theorem textField_set_status {record : List (String × Doc)} {v : Doc} : Doc.textField repr "key_id" (Dict.set "status" v record) = Doc.textField repr "key_id" record :=
  textField_congr (Dict.get_set_of_ne (by decide) v record)

/-- The record of a key after the merge of two policies that are read alike. -/
def combinedRecord (repr : Doc → String) (restored current : PublisherDir Content) (currentPolicy restoredPolicy : List (String × Doc)) (keyId : String) :
    Option (List (String × Doc)) :=
  match keyRecord repr keyId currentPolicy with
  | some record =>
    if (keyRecord repr keyId restoredPolicy).any fun other => (Doc.textField repr "status" other).toLower == "revoked" then some (Dict.set "status" (.str "revoked") record)
    else some record
  | none => (keyRecord repr keyId restoredPolicy).filter fun record => nameKept restored current (keyFileText repr record)

theorem mergedRecord_eq {restoredPolicy : List (String × Doc)} {kept : List (List (String × Doc))} (hcurrent : ReadAlike repr currentPolicy) (hrestored : ReadAlike repr restoredPolicy)
    (hkept : keptRestored repr restored current currentPolicy [] (publisherKeys repr restoredPolicy) = .ok kept) (hid : isId keyId = true) :
    mergedRecord repr currentPolicy kept keyId = combinedRecord repr restored current currentPolicy restoredPolicy keyId := by
  have hfind := find_keptRestored hkept keyId
  rw [if_neg (List.not_mem_nil)] at hfind
  change _ = (lastRecord repr keyId restoredPolicy).filter _ at hfind
  rw [hcurrent keyId hid, hrestored keyId hid] at hfind
  unfold mergedRecord combinedRecord
  simp only
  rw [hfind, hcurrent keyId hid]
  cases hrecord : keyRecord repr keyId currentPolicy with
  | none => simp
  | some record =>
    have hall : (keyRecord repr keyId restoredPolicy).filter (fun record => (some record).isSome || nameKept restored current (keyFileText repr record)) =
        keyRecord repr keyId restoredPolicy := by
      cases keyRecord repr keyId restoredPolicy <;> rfl
    simp only [Option.isSome_some, Bool.true_or] at hall ⊢
    rw [hall]

/-- Of the merged keys the reader finds the merged record. -/
theorem find_mergedRecord {restoredPolicy : List (String × Doc)} {kept : List (List (String × Doc))} (hcurrent : ReadAlike repr currentPolicy) (hrestored : ReadAlike repr restoredPolicy)
    (hkept : keptRestored repr restored current currentPolicy [] (publisherKeys repr restoredPolicy) = .ok kept) (hid : isId keyId = true) :
    ((keyOrder repr currentPolicy restoredPolicy).filterMap (mergedRecord repr currentPolicy kept)).find? (fun item => Doc.textField repr "key_id" item == keyId) =
      mergedRecord repr currentPolicy kept keyId := by
  refine find_filterMap ?_ ?_ ?_
  · intro name record hrecord hkey
    have hown : keyIdOf repr record = keyId := by
      unfold keyIdOf
      rw [beq_iff_eq.1 hkey]
      exact stripText_of_isId hid
    rw [← hown]
    unfold mergedRecord at hrecord
    simp only at hrecord
    split at hrecord
    · rename_i hlast
      split at hrecord
      · cases hrecord
        unfold keyIdOf
        rw [textField_set_status]
        exact (keyIdOf_of_lastRecord hlast).symm
      · cases hrecord
        exact (keyIdOf_of_lastRecord hlast).symm
    · have hname := List.find?_some hrecord
      simp only [beq_iff_eq] at hname
      exact hname.symm
  · intro record hrecord
    rw [beq_iff_eq]
    rw [mergedRecord_eq hcurrent hrestored hkept hid, combinedRecord] at hrecord
    split at hrecord
    · rename_i hown
      split at hrecord
      · cases hrecord
        rw [textField_set_status]
        exact textField_key_of_keyRecord hown
      · cases hrecord
        exact textField_key_of_keyRecord hown
    · exact textField_key_of_keyRecord (Option.filter_eq_some_iff.1 hrecord).1
  · intro hsome
    rw [mergedRecord_eq hcurrent hrestored hkept hid, combinedRecord, ← hcurrent keyId hid, ← hrestored keyId hid] at hsome
    rw [keyOrder, List.mem_eraseDups, List.map_append, List.mem_append]
    split at hsome
    · rename_i hlast
      exact Or.inl (mem_keys_of_lastRecord hlast)
    · obtain ⟨record, hrecord⟩ := Option.isSome_iff_exists.1 hsome
      exact Or.inr (mem_keys_of_lastRecord (Option.filter_eq_some_iff.1 hrecord).1)

/-- The merged policy, field by field. -/
theorem mergePublisherJson_spec {currentPolicy restoredPolicy merged : List (String × Doc)} (h : mergePublisherJson repr restored current = .ok merged)
    (hcurrentFields : policyFields current.policy = .ok currentPolicy) (hrestoredFields : policyFields restored.policy = .ok restoredPolicy)
    (hcurrent : ReadAlike repr currentPolicy) (hrestored : ReadAlike repr restoredPolicy) :
    (∀ key ∈ ["schema", "publisher_id"], Dict.get key merged = (Dict.get key currentPolicy).or (Dict.get key restoredPolicy)) ∧
    Dict.get "status" merged = (if (Doc.textField repr "status" restoredPolicy).toLower = "revoked" ∨ (Doc.textField repr "status" currentPolicy).toLower = "revoked" then some (.str "revoked")
      else (Dict.get "status" currentPolicy).or (Dict.get "status" restoredPolicy)) ∧
    ∀ keyId, isId keyId = true → keyRecord repr keyId merged = combinedRecord repr restored current currentPolicy restoredPolicy keyId := by
  unfold mergePublisherJson at h
  obtain ⟨_, hfields, h⟩ := bind_ok h
  rw [hrestoredFields] at hfields
  cases hfields
  obtain ⟨_, hfields, h⟩ := bind_ok h
  rw [hcurrentFields] at hfields
  cases hfields
  obtain ⟨kept, hkept, h⟩ := bind_ok h
  have hmerged := (Except.ok.inj h).symm
  generalize hkeys : (keyOrder repr currentPolicy restoredPolicy).filterMap (mergedRecord repr currentPolicy kept) = keys at hmerged
  generalize hbase : without ["key_id", "key_status", "algorithm", "public_key"] (Dict.update restoredPolicy currentPolicy) = base at hmerged
  have hget : ∀ key, Dict.get key base = if ["key_id", "key_status", "algorithm", "public_key"].contains key then none
      else (Dict.get key currentPolicy).or (Dict.get key restoredPolicy) := by
    intro key
    rw [← hbase, without, Dict.get_filter (fun key => !(["key_id", "key_status", "algorithm", "public_key"].contains key)), Dict.get_update]
    by_cases hlegacy : ["key_id", "key_status", "algorithm", "public_key"].contains key = true
    · rw [hlegacy]
      rfl
    · rw [Bool.not_eq_true] at hlegacy
      rw [hlegacy]
      rfl
  -- the keys are set or taken off last, so every other field is that of the header
  have hother : ∀ key, key ≠ "keys" → Dict.get key merged =
      if key = "status" ∧ ((Doc.textField repr "status" restoredPolicy).toLower = "revoked" ∨ (Doc.textField repr "status" currentPolicy).toLower = "revoked") then some (.str "revoked")
      else Dict.get key base := by
    intro key hkey
    have hheader : Dict.get key merged = Dict.get key (if (Doc.textField repr "status" restoredPolicy).toLower == "revoked" ||
        (Doc.textField repr "status" currentPolicy).toLower == "revoked" then Dict.set "status" (.str "revoked") base else base) := by
      rw [hmerged]
      split
      · rw [without, Dict.get_filter (fun key => !(["keys"].contains key)), if_pos (by simpa using hkey)]
      · rw [Dict.get_set_of_ne hkey.symm]
    rw [hheader]
    simp only [Bool.or_eq_true, beq_iff_eq]
    split
    · rename_i hrevoked
      rw [Dict.get_set]
      by_cases hstatus : key = "status"
      · rw [if_pos hstatus.symm, if_pos ⟨hstatus, hrevoked⟩]
      · rw [if_neg fun heq => hstatus heq.symm, if_neg fun h => hstatus h.1]
    · rename_i hrevoked
      rw [if_neg fun h => hrevoked h.2]
  refine ⟨?_, ?_, ?_⟩
  · intro key hkey
    simp only [List.mem_cons, List.not_mem_nil, or_false] at hkey
    rcases hkey with rfl | rfl
    · rw [hother _ (by decide), if_neg (by simp), hget]
      rfl
    · rw [hother _ (by decide), if_neg (by simp), hget]
      rfl
  · rw [hother _ (by decide), hget]
    simp only [true_and]
    rfl
  · intro keyId hid
    rw [← mergedRecord_eq hcurrent hrestored hkept hid]
    have hfound := find_mergedRecord hcurrent hrestored hkept hid
    rw [hkeys] at hfound
    by_cases hempty : keys = []
    · subst hempty
      rw [← hfound, keyRecord]
      have hnone : Doc.field "keys" merged = .null := by
        unfold Doc.field
        rw [hmerged, List.isEmpty_nil, if_pos rfl, without, Dict.get_filter (fun key => !(["keys"].contains key))]
        rfl
      have hlegacy : Doc.textField repr "key_id" merged = "" := by
        unfold Doc.textField Doc.field
        rw [hother _ (by decide), if_neg (by simp), hget]
        rfl
      rw [hnone, hlegacy]
      exact if_neg (isId_ne_empty hid).symm
    · have hlist : Doc.field "keys" merged = .arr (keys.map .obj) := by
        unfold Doc.field
        rw [hmerged, if_neg (by simpa using hempty), Dict.get_set_self]
        rfl
      have hpairs : (keys.map Doc.obj).filterMap Doc.pairs = keys := by
        rw [List.filterMap_map]
        exact List.filterMap_some
      rw [← hfound, keyRecord, hlist]
      simp only
      rw [hpairs]

/-- A header that is trusted after the merge was the current one's, and neither publisher is revoked. -/
theorem headerOk_of_merged {currentPolicy restoredPolicy merged : List (String × Doc)} (h : mergePublisherJson repr restored current = .ok merged)
    (hcurrentFields : policyFields current.policy = .ok currentPolicy) (hrestoredFields : policyFields restored.policy = .ok restoredPolicy)
    (hfit : PoliciesFit repr publisherId currentPolicy restoredPolicy) (hheader : headerOk repr publisherId merged = true) :
    headerOk repr publisherId currentPolicy = true ∧ (Doc.textField repr "status" restoredPolicy).toLower ≠ "revoked" := by
  obtain ⟨hfields, hstatus, -⟩ := mergePublisherJson_spec h hcurrentFields hrestoredFields hfit.currentAlike hfit.restoredAlike
  have hown : ∀ key ∈ ["schema", "publisher_id", "status"], (Dict.get key currentPolicy).or (Dict.get key restoredPolicy) = Dict.get key currentPolicy := by
    intro key hkey
    rcases hfit.header key hkey with hsome | hnone
    · obtain ⟨v, hv⟩ := Option.isSome_iff_exists.1 hsome
      rw [hv]
      rfl
    · rw [hnone, Option.or_none]
  split at hstatus
  · rw [not_headerOk_of_revoked] at hheader
    · cases hheader
    · rw [Doc.textField_str hstatus, toLower_eq_ofList]
      rfl
  · rename_i hnot
    rw [hown _ (by simp)] at hstatus
    have hschema := (hfields "schema" (by simp)).trans (hown "schema" (by simp))
    have hname := (hfields "publisher_id" (by simp)).trans (hown "publisher_id" (by simp))
    refine ⟨?_, fun hrevoked => hnot (Or.inl hrevoked)⟩
    unfold headerOk Doc.field at hheader ⊢
    rwa [hschema, textField_congr hname, textField_congr hstatus] at hheader

theorem combinedRecord_known {currentPolicy restoredPolicy record merged : List (String × Doc)} (hrecord : keyRecord repr keyId currentPolicy = some record)
    (h : combinedRecord repr restored current currentPolicy restoredPolicy keyId = some merged) : merged = record ∨ (Doc.textField repr "status" merged).toLower = "revoked" := by
  rw [combinedRecord, hrecord] at h
  simp only at h
  split at h
  · cases h
    right
    rw [Doc.textField_str (Dict.get_set_self _ _ _), toLower_eq_ofList]
    rfl
  · exact Or.inl (Option.some.inj h).symm

theorem combinedRecord_revoked {currentPolicy restoredPolicy record : List (String × Doc)}
    (hrevoked : ∃ other, keyRecord repr keyId restoredPolicy = some other ∧ (Doc.textField repr "status" other).toLower = "revoked")
    (h : combinedRecord repr restored current currentPolicy restoredPolicy keyId = some record) : (Doc.textField repr "status" record).toLower = "revoked" := by
  obtain ⟨other, hother, hrevoked⟩ := hrevoked
  unfold combinedRecord at h
  rw [hother] at h
  split at h
  · rw [Option.any_some, hrevoked, beq_self_eq_true, if_pos rfl] at h
    cases h
    rw [Doc.textField_str (Dict.get_set_self _ _ _), toLower_eq_ofList]
    rfl
  · cases (Option.filter_eq_some_iff.1 h).1
    exact hrevoked

/-- The file of a record whose name is kept is the restored one. -/
theorem merged_child_of_nameKept {name : String} {child : Child Content} (hkept : nameKept restored current name = true)
    (h : ((current.children name).orElse fun _ => restored.children name) = some child) : restored.children name = some child := by
  unfold nameKept at hkept
  rw [Bool.and_eq_true] at hkept
  cases hchild : current.children name with
  | none => simpa [hchild] using h
  | some own =>
    rw [hchild] at h hkept
    cases h
    cases child with
    | file c => simpa using hkept.2
    | dir => cases hkept.2

end Kept

section Folders

variable {current restored merged : Store Content} {currentDir restoredDir mergedDir : PublisherDir Content}

/-- The current folder has no policy: the restored policy is read with the restored files. -/
theorem keyKept_of_absent (hcurrent : current publisherId = some (.dir currentDir)) (hrestored : restored publisherId = some (.dir restoredDir))
    (hmerged : merged publisherId = some (.dir mergedDir)) (h : mergeDir repr restoredDir currentDir = .ok mergedDir) (habsent : currentDir.policy = .absent)
    (hfit : ∀ name, currentDir.children name = none ∨ currentDir.children name = restoredDir.children name) : KeyKept repr current restored merged publisherId keyId := by
  have hdir : mergedDir = restoredDir := by
    unfold mergeDir at h
    rw [habsent] at h
    rw [← Except.ok.inj h]
    obtain ⟨policy, children⟩ := restoredDir
    congr 1
    funext name
    rcases hfit name with hnone | hsame
    · rw [hnone]
      rfl
    · rw [hsame]
      change ((children name).orElse fun _ => children name) = children name
      cases children name <;> rfl
  subst hdir
  exact keyKept_of_restored (policyOf_absent hcurrent habsent) (policyOf_congr (hmerged.trans hrestored.symm)) (accepts_congr (hmerged.trans hrestored.symm))

/-- Both folders have a policy and they fit: every key is kept. -/
theorem keyKept_of_fit {currentPolicy restoredPolicy policy : List (String × Doc)} (hid : isId keyId = true) (hcurrent : current publisherId = some (.dir currentDir))
    (hrestored : restored publisherId = some (.dir restoredDir)) (hmerged : merged publisherId = some (.dir mergedDir)) (hcurrentPolicy : currentDir.policy = .doc (.obj currentPolicy))
    (hfields : policyFields restoredDir.policy = .ok restoredPolicy) (hjson : mergePublisherJson repr restoredDir currentDir = .ok policy)
    (hdir : mergedDir = ⟨.doc (.obj policy), fun name => (currentDir.children name).orElse fun _ => restoredDir.children name⟩)
    (hfit : PoliciesFit repr publisherId currentPolicy restoredPolicy)
    (hfiles : ∀ keyId record, keyRecord repr keyId currentPolicy = some record →
      (currentDir.children (keyFileText repr record)).isSome ∨ restoredDir.children (keyFileText repr record) = none) :
    KeyKept repr current restored merged publisherId keyId := by
  have hcurrentFields : policyFields currentDir.policy = .ok currentPolicy := by rw [hcurrentPolicy]; rfl
  obtain ⟨-, hstatus, hkeys⟩ := mergePublisherJson_spec hjson hcurrentFields hfields hfit.currentAlike hfit.restoredAlike
  have hkey := hkeys keyId hid
  have hcurrentOf := policyOf_dir hcurrent hcurrentPolicy
  have hmergedOf : policyOf merged publisherId = some policy := policyOf_dir hmerged (by rw [hdir])
  constructor
  · intro bytes haccepts
    obtain ⟨hpublisher, -, _, record, hpolicy, hheader, hrecord, hok, hfile⟩ := accepts_iff.1 haccepts
    cases hmergedOf.symm.trans hpolicy
    obtain ⟨hheaderCurrent, hnotRevoked⟩ := headerOk_of_merged hjson hcurrentFields hfields hfit hheader
    rw [keyFile_iff hmerged, hdir] at hfile
    simp only at hfile
    rw [hkey] at hrecord
    cases hown : keyRecord repr keyId currentPolicy with
    | some own =>
      -- the current record stays unless it is revoked, and its file is the current one
      left
      rcases combinedRecord_known hown hrecord with rfl | hrevoked
      · refine accepts_iff.2 ⟨hpublisher, hid, currentPolicy, record, hcurrentOf, hheaderCurrent, hown, hok, (keyFile_iff hcurrent).2 ?_⟩
        rcases hfiles keyId record hown with hsome | hnone
        · obtain ⟨child, hchild⟩ := Option.isSome_iff_exists.1 hsome
          rw [hchild] at hfile ⊢
          exact hfile
        · rw [hnone] at hfile
          cases hchild : currentDir.children (keyFileText repr record) with
          | none =>
            rw [hchild] at hfile
            cases hfile
          | some child =>
            rw [hchild] at hfile
            exact hfile
      · rw [not_recordOk_of_revoked hrevoked] at hok
        cases hok
    | none =>
      right
      rw [combinedRecord, hown] at hrecord
      obtain ⟨hother, hname⟩ := Option.filter_eq_some_iff.1 hrecord
      have hthere := restored_policy_there hid hfields hother
      refine ⟨by simp [knows, hcurrentOf, hown], accepts_iff.2 ⟨hpublisher, hid, restoredPolicy, record, policyOf_dir hrestored hthere, ?_, hother, hok, ?_⟩⟩
      · exact (hfit.trusted keyId record hother hown hheaderCurrent).resolve_right hnotRevoked
      · exact (keyFile_iff hrestored).2 (merged_child_of_nameKept hname hfile)
  · intro hrevoked
    have hstays : knows repr merged publisherId keyId = true → revoked repr merged publisherId keyId = true := by
      intro hknows
      simp only [knows, hmergedOf, Option.bind_some, Option.isSome_iff_exists] at hknows
      obtain ⟨record, hrecord⟩ := hknows
      simp only [revoked, hmergedOf, Option.any_some, hrecord, Bool.or_eq_true, beq_iff_eq]
      have hheader : (Doc.textField repr "status" restoredPolicy).toLower = "revoked" ∨ (Doc.textField repr "status" currentPolicy).toLower = "revoked" →
          (Doc.textField repr "status" policy).toLower = "revoked" := by
        intro heither
        rw [if_pos heither] at hstatus
        rw [Doc.textField_str hstatus, toLower_eq_ofList]
        rfl
      rw [hkey] at hrecord
      rcases hrevoked with hrevoked | hrevoked
      · simp only [revoked, hcurrentOf, Option.any_some, Bool.or_eq_true, beq_iff_eq, Option.any_eq_true] at hrevoked
        rcases hrevoked with hrevoked | ⟨own, hown, hrevoked⟩
        · exact Or.inl (hheader (Or.inr hrevoked))
        · rcases combinedRecord_known hown hrecord with rfl | hset
          · exact Or.inr hrevoked
          · exact Or.inr hset
      · rw [revoked, Option.any_eq_true] at hrevoked
        obtain ⟨other, hother, hrevoked⟩ := hrevoked
        have hsame := policyFields_of_policyOf hrestored hother
        rw [hfields] at hsame
        cases hsame
        simp only [Bool.or_eq_true, beq_iff_eq, Option.any_eq_true] at hrevoked
        rcases hrevoked with hrevoked | hrevoked
        · exact Or.inl (hheader (Or.inl hrevoked))
        · exact Or.inr (combinedRecord_revoked hrevoked hrecord)
    refine ⟨?_, hstays⟩
    cases hknows : knows repr merged publisherId keyId with
    | true => exact accepts_of_revoked (hstays hknows)
    | false => exact accepts_of_unknown hknows

/-- A publisher that both stores have, in folders that fit. -/
theorem keyKept_of_folders (hid : isId keyId = true) (hcurrent : current publisherId = some (.dir currentDir)) (hrestored : restored publisherId = some (.dir restoredDir))
    (hmerged : merged publisherId = some (.dir mergedDir)) (h : mergeDir repr restoredDir currentDir = .ok mergedDir) (hfit : FoldersFit repr publisherId currentDir restoredDir) :
    KeyKept repr current restored merged publisherId keyId := by
  by_cases habsent : currentDir.policy = .absent
  · rw [FoldersFit, habsent] at hfit
    exact keyKept_of_absent hcurrent hrestored hmerged h habsent hfit
  · have hjson : ∃ policy, mergePublisherJson repr restoredDir currentDir = .ok policy ∧
        mergedDir = ⟨.doc (.obj policy), fun name => (currentDir.children name).orElse fun _ => restoredDir.children name⟩ := by
      unfold mergeDir at h
      split at h
      · rename_i hpolicy
        exact absurd hpolicy habsent
      · obtain ⟨policy, hpolicy, h⟩ := bind_ok h
        exact ⟨policy, hpolicy, (Except.ok.inj h).symm⟩
    obtain ⟨policy, hjson, hdir⟩ := hjson
    obtain ⟨restoredPolicy, hrestoredFields, hrest⟩ := bind_ok hjson
    obtain ⟨currentPolicy, hcurrentFields, -⟩ := bind_ok hrest
    have hboth : PoliciesFit repr publisherId currentPolicy restoredPolicy ∧ ∀ keyId record, keyRecord repr keyId currentPolicy = some record →
        (currentDir.children (keyFileText repr record)).isSome ∨ restoredDir.children (keyFileText repr record) = none := by
      unfold FoldersFit at hfit
      split at hfit
      · rename_i hpolicy
        exact absurd hpolicy habsent
      · exact hfit currentPolicy restoredPolicy hcurrentFields hrestoredFields
    exact keyKept_of_fit hid hcurrent hrestored hmerged (policyFields_ok habsent hcurrentFields) hrestoredFields hjson hdir hboth.1 hboth.2

/-- One entry of the merged store, by what the two stores have. -/
theorem keyKept_of_entry (hid : isId keyId = true) (hfit : StoresFit repr current restored) (h : mergeEntry repr true (current publisherId) (restored publisherId) = .ok (merged publisherId)) :
    KeyKept repr current restored merged publisherId keyId := by
  cases hcurrent : current publisherId with
  | none =>
    rw [hcurrent] at h
    have hmerged : merged publisherId = restored publisherId := (Except.ok.inj h).symm
    refine keyKept_of_restored ?_ (policyOf_congr hmerged) (accepts_congr hmerged)
    rw [policyOf, hcurrent]
  | some entry =>
    have hother : merged publisherId = some entry → (revoked repr restored publisherId keyId = true → knows repr merged publisherId keyId = false) →
        KeyKept repr current restored merged publisherId keyId := fun hmerged => keyKept_of_current (hmerged.trans hcurrent.symm)
    rw [hcurrent] at h
    cases entry with
    | file =>
      have hmerged : merged publisherId = some .file := (Except.ok.inj h).symm
      refine hother hmerged fun _ => ?_
      rw [knows, policyOf, hmerged]
      rfl
    | dir currentDir =>
      cases hrestored : restored publisherId with
      | none =>
        rw [hrestored] at h
        refine hother (Except.ok.inj h).symm fun hrevoked => ?_
        rw [revoked, policyOf, hrestored] at hrevoked
        cases hrevoked
      | some restoredEntry =>
        rw [hrestored] at h
        cases restoredEntry with
        | file =>
          refine hother (Except.ok.inj h).symm fun hrevoked => ?_
          rw [revoked, policyOf, hrestored] at hrevoked
          cases hrevoked
        | dir restoredDir =>
          rw [mergeEntry, if_pos rfl] at h
          obtain ⟨mergedDir, hdir, h⟩ := bind_ok h
          exact keyKept_of_folders hid hcurrent hrestored (Except.ok.inj h).symm hdir (hfit publisherId currentDir restoredDir hcurrent hrestored)

theorem storeKept_of_merged {current restored merged : Option (Store Content)} (h : StoreMerged repr true current restored merged)
    (hfit : StoresFit repr (entries current) (entries restored)) : StoreKept repr (entries current) (entries restored) (entries merged) := by
  intro publisherId keyId hid
  cases current with
  | none =>
    have hmerged : merged = restored := h
    rw [hmerged]
    exact keyKept_of_restored rfl rfl rfl
  | some store =>
    obtain ⟨mergedStore, rfl, hentries⟩ := h
    exact keyKept_of_entry hid hfit (hentries publisherId)

/-- On the same installation every entry is the current one. -/
theorem store_eq_of_same {current : Store Content} {restored merged : Option (Store Content)} (h : StoreMerged repr false (some current) restored merged) : merged = some current := by
  obtain ⟨store, rfl, hentries⟩ := h
  congr 1
  funext name
  have hentry := hentries name
  cases hcurrent : current name with
  | none =>
    rw [hcurrent] at hentry
    exact (Except.ok.inj hentry).symm
  | some entry =>
    rw [hcurrent] at hentry
    cases entry with
    | file => exact (Except.ok.inj hentry).symm
    | dir currentDir =>
      cases hrestored : (restored.getD fun _ => none) name with
      | none =>
        rw [hrestored] at hentry
        exact (Except.ok.inj hentry).symm
      | some restoredEntry =>
        rw [hrestored] at hentry
        cases restoredEntry with
        | file => exact (Except.ok.inj hentry).symm
        | dir restoredDir => exact (Except.ok.inj hentry).symm

end Folders

end TrustAux

section Results

variable {Content : Type} [DecidableEq Content] (repr : Doc → String)

open TrustAux

end Results

end Trust

end TecTac
