import TecTac.Lib.Document
import TecTac.Lib.Text

/-!
# Trusted publishers and the root policies

The readers of the security state of a server: `_publisher_policy` of `trusted_publishers.py`, `read_policy` of `privileged-trust.py` for the trust floor, and
`protection_enabled` of `account_security_policy.py`. `repr` writes the values that are neither texts nor whole numbers.
-/

namespace TecTac

namespace Trust

/-- A JSON file: bytes that are no UTF-8, a text that is no document, or a document. -/
inductive Stored where
  | absent
  | undecodable
  | unparsable
  | doc (d : Doc)

/-- What is in a publisher directory beside `publisher.json`. -/
inductive Child (Content : Type) where
  | file (c : Content)
  | dir
  deriving DecidableEq

structure PublisherDir (Content : Type) where
  policy : Stored
  children : String → Option (Child Content)

/-- An entry of the trust store. -/
inductive Entry (Content : Type) where
  | file
  | dir (d : PublisherDir Content)

abbrev Store (Content : Type) := String → Option (Entry Content)

/-- `int(text)`; digits may be grouped by single underscores. -/
def intText (s : List Char) : Option Int :=
  let digits (s : List Char) : Option Int :=
    let groups := s.splitOn '_'
    if groups.all fun group => group != [] then (intOfDigits groups.flatten).map Int.ofNat else none
  match strip s with
  | '-' :: rest => (digits rest).map fun n => -n
  | '+' :: rest => digits rest
  | rest => digits rest

/-- `int(value or 0) == 1`; a value that `int` refuses is refused. -/
def isSchemaOne (v : Doc) : Bool :=
  match v.orElse (.num 0) with
  | .num n => n == 1
  | .bool b => b
  | .float x => decide (1 ≤ x ∧ x < 2)
  | .str s => intText s.toList == some 1
  | _ => false

/-- `_PUBLISHER_RE` and `_KEY_RE`. -/
def isId (s : String) : Bool := decide (1 ≤ s.length ∧ s.length ≤ 128) && s.toList.all fun c => c.isAlphanum || c == '_' || c == '.' || c == '-'

section Publishers

variable (repr : Doc → String)

/-- The header of a publisher policy: it is of the schema, names the publisher, and trusts it. -/
def headerOk (publisherId : String) (policy : List (String × Doc)) : Bool :=
  isSchemaOne (Doc.field "schema" policy) && Doc.textField repr "publisher_id" policy == publisherId && (Doc.textField repr "status" policy).toLower == "trusted"

/-- `str(fields.get(key, default) ...)` reads the default only where the key is missing. -/
def fieldOr (key : String) (default : Doc) (fields : List (String × Doc)) : Doc := (Dict.get key fields).getD default

/-- The key record of a policy in the legacy form. -/
def legacyRecord (keyId : String) (policy : List (String × Doc)) : List (String × Doc) :=
  [("key_id", .str keyId), ("status", fieldOr "key_status" (.str "active") policy), ("algorithm", fieldOr "algorithm" (.str "Ed25519") policy),
    ("public_key", fieldOr "public_key" (.str "public.key") policy)]

/-- The first record of a key. -/
def keyRecord (keyId : String) (policy : List (String × Doc)) : Option (List (String × Doc)) :=
  match Doc.field "keys" policy with
  | .arr items => (items.filterMap Doc.pairs).find? fun item => Doc.textField repr "key_id" item == keyId
  | _ => if Doc.textField repr "key_id" policy = keyId then some (legacyRecord keyId policy) else none

/-- The text of the name of the key file. -/
def keyFileText (record : List (String × Doc)) : String :=
  stripText (((Doc.field "public_key_file" record).orElse ((Doc.field "public_key" record).orElse (.str "public.key"))).text repr)

/-- `_safe_basename`. -/
def isBasename (s : String) : Bool := s != "" && s != "." && !s.toList.contains '/' && !s.toList.contains '\\'

/-- The key is active and of the supported algorithm, and its file has a plain name. -/
def recordOk (record : List (String × Doc)) : Bool :=
  (Doc.textField repr "status" record).toLower == "active" &&
    (((Doc.field "algorithm" record).orElse (.str "Ed25519")).text repr).toLower == "ed25519" && isBasename (keyFileText repr record)

variable {Content : Type}

/-- The policy of a publisher, where it is one. -/
def policyOf (store : Store Content) (publisherId : String) : Option (List (String × Doc)) :=
  match store publisherId with
  | some (.dir ⟨.doc (.obj policy), _⟩) => some policy
  | _ => none

def keyFile (store : Store Content) (publisherId name : String) : Option Content :=
  match store publisherId with
  | some (.dir d) =>
    match d.children name with
    | some (.file c) => some c
    | _ => none
  | _ => none

/-- `_publisher_policy` with the key that is read from the file it finds. -/
def accepts (store : Store Content) (publisherId keyId : String) : Option Content :=
  if isId publisherId && isId keyId then
    match policyOf store publisherId with
    | none => none
    | some policy =>
      if headerOk repr publisherId policy then
        match keyRecord repr keyId policy with
        | none => none
        | some record => if recordOk repr record then keyFile store publisherId (keyFileText repr record) else none
      else none
  else none

/-- The store has a record of the key. -/
def knows (store : Store Content) (publisherId keyId : String) : Bool := ((policyOf store publisherId).bind (keyRecord repr keyId)).isSome

/-- The publisher is revoked, or the key is. -/
def revoked (store : Store Content) (publisherId keyId : String) : Bool :=
  (policyOf store publisherId).any fun policy =>
    (Doc.textField repr "status" policy).toLower == "revoked" || (keyRecord repr keyId policy).any fun record => (Doc.textField repr "status" record).toLower == "revoked"

end Publishers

/-- `TRUST_LEVELS`, by rank. -/
inductive Level where
  | unsigned
  | signedDevelopment
  | signedProduction
  | secureSigned
  deriving DecidableEq

def Level.rank : Level → Nat
  | .unsigned => 0
  | .signedDevelopment => 1
  | .signedProduction => 2
  | .secureSigned => 3

def Level.name : Level → String
  | .unsigned => "unsigned"
  | .signedDevelopment => "signed_development"
  | .signedProduction => "signed_production"
  | .secureSigned => "secure_signed"

/-- The level of a text. -/
def levelOf (s : String) : Option Level := [Level.unsigned, .signedDevelopment, .signedProduction, .secureSigned].find? fun level => level.name == s

/-- `read_policy` of root: without a policy the default holds; there is no floor where the policy is refused, and with it every package. -/
def rootFloor (repr : Doc → String) (default : Level) : Stored → Option Level
  | .absent => some default
  | .doc (.obj policy) => if isSchemaOne (Doc.field "schema" policy) then levelOf (stripText (Doc.textField repr "minimum_level" policy)).toLower else none
  | _ => none

/-- `_coerce_bool`. -/
def coerceBool (repr : Doc → String) : Doc → Option Bool
  | .bool b => some b
  | v =>
    let text := (stripText ((v.orElse (.str "")).text repr)).toLower
    if ["1", "true", "yes", "on", "enabled"].contains text then some true
    else if ["0", "false", "no", "off", "disabled", ""].contains text then some false
    else none

/-- What a policy file says about account protection; nothing where it is missing or cannot be read as one. -/
def readAccountSecurityProtection (repr : Doc → String) : Stored → Option Bool
  | .doc (.obj policy) =>
    if isSchemaOne (Doc.field "schema" policy) then coerceBool repr ((Dict.get "protect_superuser_accounts" policy).getD (.bool false)) else none
  | _ => none

/-- `protection_enabled`: without a policy it is off, and a policy that cannot be read is one that is on. -/
def protectionEnabled (repr : Doc → String) : Stored → Bool
  | .absent => false
  | stored => (readAccountSecurityProtection repr stored).getD true

end Trust

end TecTac
