import TecTac.PublisherTrust
import TecTac.Lib.Raise

/-!
# The security state after a restore

`_merge_restore_security_state` of `server-backup-helper.py`: the publisher store, the trust floor and the account policy as they are when the files of a backup were
extracted, merged with what was captured before the extraction.
-/

namespace TecTac

namespace Trust

variable {Content : Type}

/-- The security state of a server; there is no store where its folder is missing. -/
structure State (Content : Type) where
  store : Option (Store Content)
  floor : Stored
  account : Stored

/-- Why the merge raises. -/
inductive Refusal where
  | metadataUnreadable
  | unsafeKeyName
  | policyUnreadable
  deriving DecidableEq

section Merge

variable (repr : Doc → String)

/-- `str(item.get("key_id") or "").strip()`. -/
def keyIdOf (item : List (String × Doc)) : String := stripText (Doc.textField repr "key_id" item)

/-- `_publisher_keys`: the keys in the form of the list. -/
def publisherKeys (policy : List (String × Doc)) : List (List (String × Doc)) :=
  match Doc.field "keys" policy with
  | .arr items => (items.filterMap Doc.pairs).filter fun item => keyIdOf repr item != ""
  | _ => if keyIdOf repr policy = "" then [] else [legacyRecord (keyIdOf repr policy) policy]

/-- The record of a key in the dictionary by key id: the last one of the list. -/
def lastRecord (keyId : String) (policy : List (String × Doc)) : Option (List (String × Doc)) :=
  ((publisherKeys repr policy).filter fun item => keyIdOf repr item == keyId).getLast?

/-- `_publisher_key_filename`. -/
def publisherKeyFilename (record : List (String × Doc)) : Except Refusal String :=
  let name := keyFileText repr record
  if name != "" && name != "." && name != ".." && !name.toList.contains '/' && !name.toList.contains '\\' then .ok name else .error .unsafeKeyName

variable [DecidableEq Content]

/-- The name is free in the current directory, or is that of the same bytes. `publisher.json` itself is in both, with other keys in it. -/
def nameKept (restored current : PublisherDir Content) (name : String) : Bool :=
  name != "publisher.json" &&
    match current.children name with
    | none => true
    | some (.file c) => restored.children name == some (.file c)
    | some .dir => false

/-- The loop over the restored keys: those that stay. A key that only the backup knows is dropped where its file would be another one. -/
def keptRestored (restored current : PublisherDir Content) (currentPolicy : List (String × Doc)) : List String → List (List (String × Doc)) → Except Refusal (List (List (String × Doc)))
  | _, [] => .ok []
  | seen, item :: items =>
    -- the dictionary holds the last record of a key, in the place of the first
    if seen.contains (keyIdOf repr item) then keptRestored restored current currentPolicy seen items
    else
      let record := (((item :: items).filter fun other => keyIdOf repr other == keyIdOf repr item).getLast?).getD item
      if (lastRecord repr (keyIdOf repr item) currentPolicy).isSome then do
        let rest ← keptRestored restored current currentPolicy (keyIdOf repr item :: seen) items
        return record :: rest
      else do
        let name ← publisherKeyFilename repr record
        let rest ← keptRestored restored current currentPolicy (keyIdOf repr item :: seen) items
        return if nameKept restored current name then record :: rest else rest

/-- The order of the merged keys: those of the current policy first. -/
def keyOrder (currentPolicy restoredPolicy : List (String × Doc)) : List String :=
  ((publisherKeys repr currentPolicy ++ publisherKeys repr restoredPolicy).map (keyIdOf repr)).eraseDups

/-- The merged record of a key: the current one, revoked where the restored one is; else the restored one. -/
def mergedRecord (currentPolicy : List (String × Doc)) (kept : List (List (String × Doc))) (keyId : String) : Option (List (String × Doc)) :=
  let restoredRecord := kept.find? fun item => keyIdOf repr item == keyId
  match lastRecord repr keyId currentPolicy with
  | some record =>
    if restoredRecord.any fun restored => (Doc.textField repr "status" restored).toLower == "revoked" then some (Dict.set "status" (.str "revoked") record) else some record
  | none => restoredRecord

/-- A dictionary without these keys. -/
def without (keys : List String) (fields : List (String × Doc)) : List (String × Doc) := fields.filter fun p => !keys.contains p.1

/-- The object of a publisher policy; a file that is missing counts as an empty one. -/
def policyFields : Stored → Except Refusal (List (String × Doc))
  | .absent => .ok []
  | .doc (.obj policy) => .ok policy
  | _ => .error .metadataUnreadable

/-- `_merge_publisher_json`. -/
def mergePublisherJson (restored current : PublisherDir Content) : Except Refusal (List (String × Doc)) := do
  let restoredPolicy ← policyFields restored.policy
  let currentPolicy ← policyFields current.policy
  let kept ← keptRestored repr restored current currentPolicy [] (publisherKeys repr restoredPolicy)
  let keys := (keyOrder repr currentPolicy restoredPolicy).filterMap (mergedRecord repr currentPolicy kept)
  let merged := without ["key_id", "key_status", "algorithm", "public_key"] (Dict.update restoredPolicy currentPolicy)
  let isRevoked := (Doc.textField repr "status" restoredPolicy).toLower == "revoked" || (Doc.textField repr "status" currentPolicy).toLower == "revoked"
  let merged := if isRevoked then Dict.set "status" (.str "revoked") merged else merged
  return if keys.isEmpty then without ["keys"] merged else Dict.set "keys" (.arr (keys.map .obj)) merged

/-- A publisher that is in both stores, on a replacement server: the policies are merged where the current one is a file, and the current files win by name. -/
def mergeDir (restored current : PublisherDir Content) : Except Refusal (PublisherDir Content) := do
  let policy ← match current.policy with
    | .absent => pure restored.policy
    | _ => do
      let merged ← mergePublisherJson repr restored current
      pure (.doc (.obj merged))
  return ⟨policy, fun name => (current.children name).orElse fun _ => restored.children name⟩

/-- One entry of the merged store. -/
def mergeEntry (replacement : Bool) : Option (Entry Content) → Option (Entry Content) → Except Refusal (Option (Entry Content))
  | none, restored => .ok (if replacement then restored else none)
  | some (.dir current), some (.dir restored) =>
    if replacement then do
      let merged ← mergeDir repr restored current
      return some (.dir merged)
    else .ok (some (.dir current))
  | some entry, _ => .ok (some entry)

/-- `_read_trust_floor`. -/
def readTrustFloor : Stored → Except Refusal (Option Level)
  | .absent | .unparsable => .ok none
  | .doc (.obj policy) => .ok (levelOf (stripText (Doc.textField repr "minimum_level" policy)).toLower)
  | _ => .error .policyUnreadable

/-- The floor that is written. -/
def writtenFloor (level : Level) : Stored := .doc (.obj [("schema", .num 1), ("minimum_level", .str level.name)])

/-- The trust floor after the merge. -/
def mergeFloor (current restored : Stored) : Except Refusal Stored := do
  let currentLevel ← readTrustFloor repr current
  let restoredLevel ← readTrustFloor repr restored
  return match currentLevel, restoredLevel with
    | none, none => restored
    | some level, none => writtenFloor level
    | none, some _ => restored
    | some level, some level' => if level'.rank < level.rank then writtenFloor level else restored

/-- The account policy that is written. -/
def writtenAccount (enabled : Bool) : Stored := .doc (.obj [("schema", .num 1), ("protect_superuser_accounts", .bool enabled)])

/-- The policy is there and cannot be read as one. -/
def presentUnreadable (stored : Stored) : Bool :=
  match stored with
  | .absent => false
  | _ => (readAccountSecurityProtection repr stored).isNone

/-- The account policy after the merge. -/
def mergeAccount (current restored : Stored) : Stored :=
  let currentProtection := readAccountSecurityProtection repr current
  let restoredProtection := readAccountSecurityProtection repr restored
  if currentProtection.isSome || restoredProtection.isSome then
    let effective := currentProtection == some true || restoredProtection == some true || presentUnreadable repr current || presentUnreadable repr restored
    if restoredProtection == some effective then restored else writtenAccount effective
  else restored

/-- The server is another one than the backup is from. -/
def isReplacement (target source : String) : Bool := stripText target != "" && stripText source != "" && stripText target != stripText source

/-- The merge of the stores; it is left out where the current store is no folder. -/
def StoreMerged (replacement : Bool) (current restored : Option (Store Content)) (merged : Option (Store Content)) : Prop :=
  match current with
  | none => merged = restored
  | some current => ∃ store, merged = some store ∧ ∀ name, mergeEntry repr replacement (current name) ((restored.getD fun _ => none) name) = .ok (store name)

/-- `_merge_restore_security_state` ends with this state. -/
structure Merged (target source : String) (current restored merged : State Content) : Prop where
  store : StoreMerged repr (isReplacement target source) current.store restored.store merged.store
  floor : mergeFloor repr current.floor restored.floor = .ok merged.floor
  account : merged.account = mergeAccount repr current.account restored.account

end Merge

end Trust

end TecTac
