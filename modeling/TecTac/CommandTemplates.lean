import Mathlib
import TecTac.Lib.Document
import TecTac.Lib.Substitution
import TecTac.Lib.Text

/-!
# Command templates

The templates of `system_commands.py`: a module registers a fixed command text with typed slots, a person confirms which templates a run may use, and each call gives
the values of the slots. Core renders the command. The bytes of a template file, their decoding and the hashes are parameters; arguments that are no texts, numbers,
lists or dictionaries of the language stand for any value of another type.
-/

namespace TecTac

namespace SystemCommands

def shells : List String := ["cmd", "powershell", "/bin/bash", "/bin/sh"]

def registrants : List String := ["communicator"]

def minTimeout : Int := 1
def maxTimeout : Int := 60
def maxCommandChars : Nat := 8000
def maxFileBytes : Nat := 64 * 1024
def maxTemplates : Nat := 16
def maxSlots : Nat := 8

/-- `FORBIDDEN_CHARS`. -/
def forbiddenChars : List Char := "\"'`\\$&|;<>()\x7b\x7d[]^%!*?~#\r\n\t\x00=,@".toList

def rightSend : String := "communicator.send"

def rights : List String := [rightSend, "communicator.reboot"]

/-! ## Patterns -/

def isLower (c : Char) : Bool := decide ('a' ≤ c ∧ c ≤ 'z')

def isLowerDigit (c : Char) : Bool := isLower c || c.isDigit

def isAlphaDigit (c : Char) : Bool := isLowerDigit c || decide ('A' ≤ c ∧ c ≤ 'Z')

/-- A text of a first character and at most `more` others. -/
def shaped (first rest : Char → Bool) (more : Nat) : List Char → Bool
  | [] => false
  | c :: cs => first c && decide (cs.length ≤ more) && cs.all rest

/-- The name in `SLOT_RE`. -/
def isSlotName (name : List Char) : Bool := shaped isLower (fun c => isLowerDigit c || c == '_') 31 name

/-- `SLOT_RE` at the beginning of a text: the name of the slot and the text after it. -/
def slotAt : List Char → Option (String × List Char)
  | c :: rest =>
    if c = '\x7b' then
      let name := rest.takeWhile fun c => isLowerDigit c || c == '_'
      match rest.dropWhile fun c => isLowerDigit c || c == '_' with
      | d :: after => if d = '\x7d' ∧ isSlotName name = true then some (String.ofList name, after) else none
      | [] => none
    else none
  | [] => none

/-- The pieces of a template text. -/
def templatePieces (text : String) : List (Substitution.Piece Char String) := Substitution.pieces slotAt text.toList.length text.toList

/-- `TEMPLATE_ID_RE.fullmatch`. -/
def isTemplateId (id : String) : Bool :=
  let module := id.toList.takeWhile (· != '.')
  match id.toList.dropWhile (· != '.') with
  | _ :: name =>
    shaped isLowerDigit (fun c => isLowerDigit c || c == '_' || c == '-') 63 module &&
      shaped isLowerDigit (fun c => isLowerDigit c || c == '.' || c == '_' || c == '-') 63 name
  | [] => false

/-- `COMMAND_ID_RE.fullmatch`. -/
def isCommandId (id : String) : Bool :=
  shaped isAlphaDigit (fun c => isAlphaDigit c || c == '.' || c == '_' || c == ':' || c == '-') 127 id.toList

/-- `HASH_RE.fullmatch`. -/
def isHash (hash : String) : Bool := hash.toList.length == 64 && hash.toList.all fun c => c.isDigit || decide ('a' ≤ c ∧ c ≤ 'f')

/-- A value of an enum. -/
def isEnumValue (value : String) : Bool :=
  shaped isAlphaDigit (fun c => isAlphaDigit c || c == '.' || c == '_' || c == '-') 63 value.toList

/-- The keys of a dictionary as a set. -/
def sameKeys {ν : Type} (fields : List (String × ν)) (keys : List String) : Bool :=
  (fields.all fun p => decide (p.1 ∈ keys)) && keys.all fun key => decide (key ∈ fields.map Prod.fst)

/-! ## Slots -/

/-- A slot as it is kept. -/
inductive SlotSpec where
  | int (min max : Int)
  | text (max : Int) (chars : List Char) (spaces : Bool)
  | enum (values : List String)
  deriving DecidableEq

/-- An int slot of `_clean_slots`. -/
def cleanInt (spec : List (String × Doc)) : Except String SlotSpec :=
  match Dict.get "min" spec, Dict.get "max" spec with
  | some (.num lo), some (.num hi) =>
    if sameKeys spec ["type", "min", "max"] && decide (-10 ^ 9 ≤ lo ∧ lo ≤ hi ∧ hi ≤ 10 ^ 9) then .ok (.int lo hi)
    else .error "an int slot is exactly \x7btype, min, max\x7d with whole numbers."
  | _, _ => .error "an int slot is exactly \x7btype, min, max\x7d with whole numbers."

/-- The characters of a text slot. -/
def cleanChars (max : Int) (chars : List Char) (spaces : Bool) : Except String SlotSpec := do
  Raise.require (!chars.isEmpty && chars.all fun c => decide (c ∉ forbiddenChars ∧ 32 ≤ c.toNat ∧ c.toNat ≤ 126))
    "a text slot's chars must be printable ASCII without quotes or shell metacharacters."
  Raise.require (!(decide (' ' ∈ chars) && !spaces)) "a text slot is one token: a space in chars needs spaces: true in the slot spec."
  return .text max (chars.dedup.insertionSort (· ≤ ·)) spaces

/-- A text slot of `_clean_slots`. -/
def cleanTextSlot (spec : List (String × Doc)) : Except String SlotSpec :=
  match Dict.get "max" spec, (Dict.get "spaces" spec).getD (.bool false) with
  | some (.num limit), .bool spaces =>
    if (sameKeys spec ["type", "max", "chars"] || sameKeys spec ["type", "max", "chars", "spaces"]) && decide (1 ≤ limit ∧ limit ≤ 500) then
      match Dict.get "chars" spec with
      | some (.str chars) => cleanChars limit chars.toList spaces
      | _ => .error "a text slot's chars must be printable ASCII without quotes or shell metacharacters."
    else .error "a text slot is \x7btype, max (1 to 500), chars\x7d and optionally spaces: true."
  | _, _ => .error "a text slot is \x7btype, max (1 to 500), chars\x7d and optionally spaces: true."

/-- The texts of a list that holds nothing else. -/
def textsOf (values : List Doc) : Option (List String) := values.mapM fun value =>
  match value with
  | .str s => some s
  | _ => none

/-- An enum slot of `_clean_slots`. -/
def cleanEnum (spec : List (String × Doc)) : Except String SlotSpec :=
  match Dict.get "values" spec with
  | some (.arr items) =>
    match textsOf items with
    | some values =>
      if sameKeys spec ["type", "values"] && decide (1 ≤ values.length ∧ values.length ≤ 32) && values.all isEnumValue && decide values.Nodup then
        .ok (.enum (values.insertionSort (· ≤ ·)))
      else .error "an enum slot is exactly \x7btype, values\x7d with 1 to 32 simple, distinct texts."
    | none => .error "an enum slot is exactly \x7btype, values\x7d with 1 to 32 simple, distinct texts."
  | _ => .error "an enum slot is exactly \x7btype, values\x7d with 1 to 32 simple, distinct texts."

/-- A slot of its kind. -/
def cleanKind (spec : List (String × Doc)) : Except String SlotSpec :=
  match Dict.get "type" spec with
  | some (.str "int") => cleanInt spec
  | some (.str "text") => cleanTextSlot spec
  | some (.str "enum") => cleanEnum spec
  | _ => .error "a slot type is int, text or enum."

/-- One slot of `_clean_slots`. -/
def cleanSlot : String × Doc → Except String (String × SlotSpec)
  | (name, .obj spec) => do
    Raise.require (isSlotName name.toList) "a slot needs a lower-case name and a dict spec."
    let clean ← cleanKind spec
    return (name, clean)
  | _ => .error "a slot needs a lower-case name and a dict spec."

/-- `_clean_slots`. -/
def cleanSlots : Doc → Except String (List (String × SlotSpec))
  | .null => .ok []
  | .obj slots => do
    Raise.require (decide (slots.length ≤ maxSlots)) "slots must be a dict of at most 8 slots."
    slots.mapM cleanSlot
  | _ => .error "slots must be a dict of at most 8 slots."

/-! ## Templates -/

/-- A registered template. -/
structure CommandTemplate where
  id : String
  moduleId : String
  right : String
  shell : String
  slots : List (String × SlotSpec)
  timeout : Int
  text : Option String
  file : Option String
  hash : String
  deriving DecidableEq

/-- `_TEMPLATES`. -/
abbrev Registry := List (String × CommandTemplate)

/-- What reading and hashing a template rests on. -/
structure TemplateFiles where
  readBytes : String → Option (List UInt8)
  decode : List UInt8 → Option String
  sha256 : List UInt8 → String
  templateHash : (shell source : String) → List (String × SlotSpec) → Int → String

/-- `_check_text`. -/
def checkText (text : String) : Except String String := do
  Raise.require (decide (1 ≤ text.length ∧ text.length ≤ maxCommandChars) && text.toList.all fun c => decide (32 ≤ c.toNat ∨ c ∈ ['\t', '\r', '\n']))
    "the template text must be 1 to 8000 characters without control characters."
  return text

/-- The template of a file, as it is now. -/
def loadFile (files : TemplateFiles) (shell : String) (slots : List (String × SlotSpec)) (timeout : Int) (file : String) : Except String (String × String) :=
  match files.readBytes file with
  | none => .error "the template file cannot be read."
  | some raw => do
    Raise.require (decide (raw.length ≤ maxFileBytes)) "the template file is too large."
    match files.decode raw with
    | none => .error "the template file cannot be read."
    | some text =>
      let text ← checkText text
      return (text, files.templateHash shell ("file:" ++ files.sha256 raw) slots timeout)

/-- `_load`: the text and the hash as they are now. -/
def load (files : TemplateFiles) (template : CommandTemplate) : Except String (String × String) :=
  match template.file with
  | none => .ok (template.text.getD "", template.hash)
  | some file => loadFile files template.shell template.slots template.timeout file

/-- A call of `register_command_template`, with the module whose code made it. -/
structure RegisterCall where
  identity : Option String
  moduleId : String
  templateId : String
  shell : String
  text : Option Doc
  file : Option String
  slots : Doc
  timeout : Doc
  right : String

/-- What the registration asks of the disk: whether a file is an existing one with an absolute path, whether it is inside the directory of the module, and whether the
module is an installed one. -/
structure Modules where
  isFile : String → Bool
  inside : String → String → Bool
  installed : String → Bool

/-- The text of a call, or that of its file, with the hash of the template. -/
def RegisterCall.body (c : RegisterCall) (files : TemplateFiles) (modules : Modules) (slots : List (String × SlotSpec)) (timeout : Int) :
    Except String (Option String × String × String) :=
  match c.file with
  | some file => do
    Raise.require (modules.isFile file) "file must be the absolute path of an existing file."
    Raise.require (modules.inside c.moduleId file)
      "a template file must lie inside the module's install directory and may not be, or sit behind, a symlink."
    let (text, hash) ← loadFile files c.shell slots timeout file
    return (none, text, hash)
  | none =>
    match c.text with
    | some (.str text) => do
      let text ← checkText text
      return (some text, text, files.templateHash c.shell ("text:" ++ text) slots timeout)
    | _ => .error "the template text must be 1 to 8000 characters without control characters."

/-- A timeout of a whole number of seconds in the range. -/
def isTimeout : Doc → Option Int
  | .num n => if minTimeout ≤ n ∧ n ≤ maxTimeout then some n else none
  | _ => none

/-- The record is entered, unless the same one is there. -/
def enter (registry : Registry) (record : CommandTemplate) : Except String Registry :=
  match Dict.get record.id registry with
  | some previous =>
    if previous.hash = record.hash ∧ previous.file = record.file ∧ previous.moduleId = record.moduleId ∧ previous.right = record.right then .ok registry
    else .error "this template id is already registered with different content; a template never changes after registration."
  | none => if registry.length < 64 then .ok (Dict.set record.id record registry) else .error "too many command templates."

/-- `register_command_template`: the templates after it. -/
def RegisterCall.register (c : RegisterCall) (files : TemplateFiles) (modules : Modules) (registry : Registry) : Except String Registry := do
  Raise.require (c.identity == some c.moduleId) "the caller is not the module it names."
  Raise.require (decide (c.moduleId ∈ registrants)) "this module may not register command templates."
  Raise.require (isTemplateId c.templateId && (c.moduleId ++ ".").toList.isPrefixOf c.templateId.toList) "template_id must be '<module_id>.<name>'."
  Raise.require (decide (c.shell ∈ shells)) "shell must be cmd, powershell, /bin/bash or /bin/sh."
  match isTimeout c.timeout with
  | none => .error "timeout must be 1 to 60 seconds."
  | some timeout =>
    Raise.require (c.text.isSome != c.file.isSome) "give exactly one of text and file."
    Raise.require (decide (c.right ∈ rights)) "right must be communicator.send or communicator.reboot."
    let slots ← cleanSlots c.slots
    let (text, body, hash) ← c.body files modules slots timeout
    let named := Substitution.slots (templatePieces body)
    Raise.require (sameKeys slots named) "every \x7bslot\x7d in the template needs a slot spec, and every spec must be used."
    Raise.require (modules.installed c.moduleId) "module_id is not an installed extension module."
    enter registry ⟨c.templateId, c.moduleId, c.right, c.shell, slots, timeout, text, c.file, hash⟩

/-! ## What the person confirms -/

/-- The confirmed parameters. -/
structure Confirmed where
  allowedTemplates : List String
  templateHashes : List (String × String)
  maxTimeout : Int
  rights : List String
  deriving DecidableEq

/-- `allowed_templates`. -/
def confirmedIds : Doc → Except String (List String)
  | .arr items => do
    Raise.require (decide (1 ≤ items.length ∧ items.length ≤ maxTemplates)) "allowed_templates must be a list of one to sixteen template ids."
    match textsOf items with
    | some ids =>
      if ids.all isTemplateId && decide ids.Nodup then .ok ids else .error "allowed_templates must name each template id once."
    | none => .error "allowed_templates must name each template id once."
  | _ => .error "allowed_templates must be a list of one to sixteen template ids."

/-- `template_hashes`. -/
def confirmedHashes (ids : List String) : Doc → Except String (List (String × String))
  | .obj fields =>
    match textsOf (fields.map Prod.snd) with
    | some hashes =>
      if sameKeys fields ids && hashes.all isHash then .ok ((fields.map Prod.fst).zip hashes)
      else .error "template_hashes must hold the 64-character hash of exactly each allowed template."
    | none => .error "template_hashes must hold the 64-character hash of exactly each allowed template."
  | _ => .error "template_hashes must hold the 64-character hash of exactly each allowed template."

/-- `rights`. -/
def confirmedRights : Doc → Except String (List String)
  | .arr items =>
    match textsOf items with
    | some held =>
      if !held.isEmpty && held.all (fun right => decide (right ∈ rights)) && decide held.Nodup && decide (rightSend ∈ held) then .ok held
      else .error "rights must list the Communicator rights the person holds: communicator.send, and communicator.reboot for a restart template."
    | none => .error "rights must list the Communicator rights the person holds: communicator.send, and communicator.reboot for a restart template."
  | _ => .error "rights must list the Communicator rights the person holds: communicator.send, and communicator.reboot for a restart template."

/-- `parameters`: what the person confirmed. -/
def parameters (registry : Registry) : Doc → Except String Confirmed
  | .obj values => do
    let required := ["allowed_templates", "template_hashes", "rights"]
    Raise.require (sameKeys values required || sameKeys values ("max_timeout" :: required)) "a command run takes allowed_templates, template_hashes, rights and max_timeout."
    let ids ← confirmedIds (Doc.field "allowed_templates" values)
    let hashes ← confirmedHashes ids (Doc.field "template_hashes" values)
    Raise.require (ids.all fun id => (Dict.get id registry).isSome) "an allowed template is not registered."
    match isTimeout ((Dict.get "max_timeout" values).getD (.num SystemCommands.maxTimeout)) with
    | none => .error "max_timeout must be a whole number of seconds from 1 to 60."
    | some limit =>
      let held ← confirmedRights (Doc.field "rights" values)
      Raise.require (ids.all fun id => (Dict.get id registry).any fun template => decide (template.right ∈ held)) "rights must cover every allowed template."
      return ⟨ids.insertionSort (· ≤ ·), hashes.insertionSort (fun a b => a.1 ≤ b.1), limit, held.insertionSort (· ≤ ·)⟩
  | _ => .error "a command run takes allowed_templates, template_hashes, rights and max_timeout."

/-! ## Rendering -/

/-- What a call is stopped by: `CommandRefused`, or a slot of the text that has no value. -/
inductive CommandError where
  | refused (reason : String)
  | keyError (name : String)
  deriving DecidableEq

/-- `_slot_value`. -/
def slotValue : SlotSpec → Doc → Except CommandError String
  | .int lo hi, .num n => if lo ≤ n ∧ n ≤ hi then .ok (toString n) else .error (.refused "bad_command")
  | .text max chars _, .str value =>
    if 1 ≤ value.toList.length ∧ (value.toList.length : Int) ≤ max ∧ (∀ c ∈ value.toList, c ∈ chars) ∧
        ¬ (value.toList.headD ' ' ∈ ['-', '/']) ∧ stripText value = value then .ok value
    else .error (.refused "bad_command")
  | .enum values, .str value => if value ∈ values then .ok value else .error (.refused "bad_command")
  | _, _ => .error (.refused "bad_command")

/-- The rendered call. -/
structure RenderedCall where
  commandId : String
  templateId : String
  templateHash : String
  shell : String
  command : String
  timeout : Int
  deriving DecidableEq

/-- The endpoint number of a command. -/
def commandAgent : Doc → Except CommandError Int
  | .num n => if 0 < n ∧ n < 2 ^ 63 then .ok n else .error (.refused "bad_agents")
  | _ => .error (.refused "bad_agents")

/-- The id of a command, its template and its parameters. -/
def commandFields (fields : List (String × Doc)) : Except CommandError (String × String × List (String × Doc)) :=
  match Doc.field "command_id" fields, Doc.field "template_id" fields, Doc.field "params" fields with
  | .str commandId, .str templateId, .obj params => if isCommandId commandId then .ok (commandId, templateId, params) else .error (.refused "bad_command")
  | _, _, _ => .error (.refused "bad_command")

/-- The template of an id. -/
def registered (registry : Registry) (id : String) : Except CommandError CommandTemplate :=
  match Dict.get id registry with
  | some template => .ok template
  | none => .error (.refused "bad_command")

/-- One value of a call. -/
def slotText (params : List (String × Doc)) (slot : String × SlotSpec) : Except CommandError (String × String) := do
  let value ← slotValue slot.2 (Doc.field slot.1 params)
  return (slot.1, value)

/-- `values[name]`. -/
def valueOf (values : List (String × String)) (name : String) : Except CommandError (List Char) :=
  match Dict.get name values with
  | some value => .ok value.toList
  | none => .error (.keyError name)

/-- `resolve`: the rendered call and the endpoint. -/
def resolve (registry : Registry) (files : TemplateFiles) (cleaned : Confirmed) : Doc → Except CommandError (RenderedCall × Int)
  | .obj fields => do
    Raise.require (sameKeys fields ["agent_id", "command_id", "template_id", "params"]) (.refused "bad_command")
    let agent ← commandAgent (Doc.field "agent_id" fields)
    let (commandId, templateId, params) ← commandFields fields
    Raise.require (decide (templateId ∈ cleaned.allowedTemplates)) (.refused "action_not_allowed")
    let template ← registered registry templateId
    let (text, current) ← (load files template).mapError fun _ => .refused "function_unavailable"
    Raise.require (current == template.hash && Dict.get templateId cleaned.templateHashes == some current) (.refused "template_changed")
    Raise.require (decide (template.right ∈ cleaned.rights)) (.refused "permission_lost")
    Raise.require (sameKeys params (template.slots.map Prod.fst)) (.refused "bad_command")
    let values ← template.slots.mapM (slotText params)
    let rendered ← Substitution.substitute (valueOf values) (templatePieces text)
    Raise.require (decide (rendered.length ≤ maxCommandChars)) (.refused "bad_command")
    return (⟨commandId, templateId, current, template.shell, String.ofList rendered, min template.timeout cleaned.maxTimeout⟩, agent)
  | _ => .error (.refused "bad_command")

end SystemCommands

end TecTac
