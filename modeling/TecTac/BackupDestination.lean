import TecTac.Lib.ConfigText
import TecTac.Lib.Document
import TecTac.Lib.PosixPath
import TecTac.Lib.Raise
import TecTac.PublisherTrust

/-!
# Backup destinations and their credentials

`validate_destination`, `destination_credential_binding`, `load_secret` and `make_rclone_config` of `server-backup-helper.py`. A destination is the dictionary of a request; the
validated one has the same fields, some of them rewritten. The machine stands for what the helper asks its system for.
-/

namespace TecTac

namespace Backup

abbrev Fields := List (String × Doc)

/-- What `urlsplit` gives. -/
structure Url where
  scheme : String
  hostname : Option String
  port : Option Nat
  path : String

/-- What the helper asks of the language and of the machine it runs on. What `rclone obscure` prints is one line, and so is the name of a temporary folder. -/
structure Machine where
  repr : Doc → String
  lower : String → String
  isUuid : String → Bool
  urlsplit : String → Except String Url
  /-- `allowed_local_path` of an absolute path that is not the root. -/
  localPath : String → Except String String
  /-- The file of a secret reference, checked and read. -/
  secretFile : String → Except String Doc
  rcloneInstalled : Bool
  rcloneObscure : String → Except String String
  rcloneObscure_line : ∀ password printed, rcloneObscure password = .ok printed → '\n' ∉ (stripText printed).toList
  /-- The host key of a server is verified. -/
  sshKeyscan : Fields → Except String Unit
  temp : String
  temp_line : '\n' ∉ temp.toList

variable (m : Machine)

/-! ## Validation -/

/-- `safe_config_value`. -/
def safeConfigValue (value : Doc) (label : String) : Except String String :=
  let text := stripText ((value.orElse (.str "")).text m.repr)
  if text.toList.contains '\n' || text.toList.contains '\r' || text.toList.contains '\x00' then .error (label ++ " contains unsupported control characters") else .ok text

/-- `normalize_remote_path`. Exactly two slashes in front are a root of their own. -/
def normalizeRemotePath (value : Doc) : Except String String :=
  let raw := (stripText ((value.orElse (.str "")).text m.repr)).toList.map fun c => if c = '\\' then '/' else c
  if raw.contains '\x00' then .error "remote path contains NUL"
  else
    let parts := PosixPath.names raw
    if parts.contains ['.', '.'] then .error "remote path may not contain '..'"
    else
      let root := if raw.take 2 = ['/', '/'] ∧ raw.take 3 ≠ ['/', '/', '/'] then [['/', '/']] else []
      let normalized := PosixPath.join (root ++ parts)
      let normalized := if raw.head? = some '/' then '/' :: normalized else normalized
      .ok (if normalized = [] then "." else String.ofList normalized)

/-- A text of at most `max` letters, digits and these characters. -/
def isPlain (extra : List Char) (max : Nat) (s : String) : Bool := decide (1 ≤ s.length ∧ s.length ≤ max) && s.toList.all fun c => c.isAlphanum || extra.contains c

def isHost (s : String) : Bool := isPlain ['.', '_', ':', '-'] 255 s

def isUser (s : String) : Bool := isPlain ['.', '_', '-'] 128 s

def isScpPath (s : String) : Bool := s != "" && s.toList.all fun c => c.isAlphanum || ['.', '_', '/', '-'].contains c

/-- `int(value)` of a value that is not missing. -/
def toInt : Doc → Except String Int
  | .num n => .ok n
  | .bool b => .ok (if b then 1 else 0)
  | .float x => .ok (x.num.tdiv x.den)
  | .str s => ((Trust.intText s.toList).map Except.ok).getD (.error "destination port must be an integer")
  | .infinite _ => .error "cannot convert float infinity to integer"
  | _ => .error "destination port must be an integer"

/-- `value is True`. -/
def isTrue : Doc → Bool
  | .bool b => b
  | _ => false

def destTypes : List String := ["local", "sftp", "ftp", "scp", "webdav", "s3"]

/-- The checks of a destination with a host. -/
def validateHost (type : String) (item : Fields) : Except String Fields := do
  let host ← safeConfigValue m (Doc.field "host" item) "host"
  let username ← safeConfigValue m (Doc.field "username" item) "username"
  Raise.require (isHost host && isUser username) (type ++ " destination requires host and username")
  let port ← toInt ((Doc.field "port" item).orElse (.num (if type = "ftp" then 21 else 22)))
  Raise.require (decide (1 ≤ port ∧ port ≤ 65535)) "destination port is out of range"
  return Dict.set "port" (.num port) (Dict.set "username" (.str username) (Dict.set "host" (.str host) item))

def validateFtp (item : Fields) : Except String Fields := do
  let allowInsecure := isTrue (Doc.field "allow_insecure_transport" item)
  let given := match Doc.field "tls_mode" item with
    | .null => false
    | .str s => s != ""
    | _ => true
  Raise.require given "ftp tls_mode is required; choose explicit/starttls/tls or none explicitly"
  let tlsMode := (stripText ((Doc.field "tls_mode" item).text m.repr)).toLower
  Raise.require (["none", "tls", "explicit", "starttls"].contains tlsMode) "ftp tls_mode must be none or explicit/starttls/tls"
  Raise.require (tlsMode != "none" || allowInsecure) "plaintext FTP is disabled; set allow_insecure_transport=true explicitly to permit it"
  return Dict.set "allow_insecure_transport" (.bool allowInsecure) (Dict.set "tls_mode" (.str tlsMode) item)

def validateSsh (item : Fields) : Except String Fields := do
  let policy := (stripText (((Doc.field "host_key_policy" item).orElse (.str "strict")).text m.repr)).toLower
  Raise.require (["strict", "insecure", "none", "off"].contains policy) "SSH host_key_policy must be strict or insecure"
  let item := Dict.set "host_key_policy" (.str policy) item
  let fingerprint := (Doc.field "host_key_fingerprint" item).orElse (Doc.field "fingerprint" item)
  if fingerprint.truthy then do
    let fingerprint ← safeConfigValue m fingerprint "SSH host key fingerprint"
    return Dict.set "host_key_fingerprint" (.str fingerprint) item
  else return item

/-- `re.match(r"^https?://", url, re.I)`; without regard to case an `s` is also the long one. -/
def isHttpUrl (url : String) : Bool :=
  match url.toList with
  | h :: t :: t' :: p :: rest =>
    h.toLower == 'h' && t.toLower == 't' && t'.toLower == 't' && p.toLower == 'p' &&
      (rest.take 3 == [':', '/', '/'] || ((rest.head?.map fun s => s.toLower == 's' || s == 'ſ').getD false && rest.tail.take 3 == [':', '/', '/']))
  | _ => false

def validateWebdav (item : Fields) : Except String Fields := do
  let url ← safeConfigValue m (Doc.field "url" item) "webdav url"
  Raise.require (isHttpUrl url) "webdav destination requires an http(s) url"
  let allowInsecure := isTrue (Doc.field "allow_insecure_transport" item)
  Raise.require (!((url.toLower.toList.take 7) == "http://".toList) || allowInsecure)
    "plaintext WebDAV is disabled; use https:// or set allow_insecure_transport=true explicitly"
  return Dict.set "allow_insecure_transport" (.bool allowInsecure) (Dict.set "url" (.str url) item)

/-- A field that is rewritten only where it is there. -/
def validateOptional (key label : String) (item : Fields) : Except String Fields :=
  if (Doc.field key item).truthy then do
    let value ← safeConfigValue m (Doc.field key item) label
    return Dict.set key (.str value) item
  else return item

def validateS3 (item : Fields) : Except String Fields := do
  let provider ← safeConfigValue m ((Doc.field "provider" item).orElse (.str "Other")) "s3 provider"
  let item := Dict.set "provider" (.str provider) item
  let bucket ← safeConfigValue m (Doc.field "bucket" item) "s3 bucket"
  let item := Dict.set "bucket" (.str bucket) item
  let path ← normalizeRemotePath m ((Doc.field "prefix" item).orElse (Doc.field "remote_path" item))
  let item := Dict.set "prefix" (.str path) item
  Raise.require (bucket != "") "s3 destination requires bucket"
  let item ← validateOptional m "endpoint" "s3 endpoint" item
  validateOptional m "region" "s3 region" item

def validateRef (item : Fields) : Except String Fields := do
  let ref := stripText (Doc.textField m.repr "secret_ref" item)
  if ref = "" then return item
  else do
    Raise.require (m.isUuid ref) "destination secret_ref must be an opaque UUID"
    return Dict.set "secret_ref" (.str ref) item

/-- The checks by the type of the destination. -/
def validateByType (type : String) (item : Fields) : Except String Fields :=
  if type = "sftp" ∨ type = "scp" then do
    let item ← validateHost m type item
    validateSsh m item
  else if type = "ftp" then do
    let item ← validateHost m type item
    validateFtp m item
  else if type = "webdav" then validateWebdav m item
  else validateS3 m item

/-- `validate_destination`. -/
def validateDestination (raw : Doc) : Except String Fields :=
  match raw with
  | .obj fields => do
    let id := stripText (match Doc.field "id" fields with
      | .null => ""
      | v => v.text m.repr)
    let type := (stripText (Doc.textField m.repr "type" fields)).toLower
    let item := Dict.set "type" (.str type) (Dict.set "id" (.str id) fields)
    Raise.require (Trust.isId id) "destination id is invalid"
    Raise.require (destTypes.contains type) "destination type is unsupported"
    if type = "local" then do
      let path ← m.localPath (Doc.textField m.repr "path" item)
      return Dict.set "path" (.str path) item
    else do
      let remotePath ← normalizeRemotePath m (Doc.field "remote_path" item)
      let item ← validateByType m type (Dict.set "remote_path" (.str remotePath) item)
      let item ← validateRef m item
      Raise.require (type != "scp" || isScpPath (Doc.textField m.repr "remote_path" item))
        "SCP remote_path may contain only letters, numbers, dot, underscore, dash and slash"
      return item
  | _ => .error "destination must be an object"

/-! ## The endpoint of a credential -/

/-- The endpoint a credential may reach. -/
inductive Binding where
  | folder (path : String)
  | server (type host : String) (port : Int) (username : String)
  | webdav (scheme host : String) (port : Nat) (path : String)
  | s3 (provider endpoint region bucket : String)
  deriving DecidableEq

/-- The endpoint of a url. -/
def webdavBinding (url : String) : Except String Binding := do
  let parts ← m.urlsplit url
  let port := match parts.port with
    | some (n + 1) => n + 1
    | _ => if m.lower parts.scheme = "https" then 443 else 80
  let path := (parts.path.toList.reverse.dropWhile (· == '/')).reverse
  return .webdav (m.lower parts.scheme) (m.lower (parts.hostname.getD "")) port (if path = [] then "/" else String.ofList path)

/-- `destination_credential_binding`, which validates the destination again. -/
def destinationCredentialBinding (destination : Fields) : Except String Binding := do
  let item ← validateDestination m (.obj destination)
  let type := Doc.textField m.repr "type" item
  if type = "local" then return .folder (Doc.textField m.repr "path" item)
  else if type = "webdav" then webdavBinding m (Doc.textField m.repr "url" item)
  else if type = "s3" then
    return .s3 (((Doc.field "provider" item).orElse (.str "Other")).text m.repr) (m.lower (stripText (Doc.textField m.repr "endpoint" item)))
      (stripText (Doc.textField m.repr "region" item)) (Doc.textField m.repr "bucket" item)
  else do
    let port ← toInt (Doc.field "port" item)
    return .server type (m.lower (Doc.textField m.repr "host" item)) port (Doc.textField m.repr "username" item)

/-- A binding as the dictionary that is stored. -/
def Binding.fields : Binding → Fields
  | .folder path => [("type", .str "local"), ("path", .str path)]
  | .server type host port username => [("type", .str type), ("host", .str host), ("port", .num port), ("username", .str username)]
  | .webdav scheme host port path => [("type", .str "webdav"), ("scheme", .str scheme), ("host", .str host), ("port", .num port), ("path", .str path)]
  | .s3 provider endpoint region bucket =>
    [("type", .str "s3"), ("provider", .str provider), ("endpoint", .str endpoint), ("region", .str region), ("bucket", .str bucket)]

/-- `a == b` of two scalars; a truth value and a number are compared as numbers. -/
def sameScalar : Doc → Doc → Bool
  | .str s, .str t => s == t
  | .num n, .num k => n == k
  | .bool b, .num k => (if b then 1 else 0) == k
  | .float x, .num k => x == k
  | _, _ => false

/-- A stored value is this dictionary. -/
def sameDict (stored : Doc) (fields : Fields) : Bool :=
  match stored with
  | .obj kvs => decide (kvs.length = fields.length) && fields.all fun p => (Dict.get p.1 kvs).any fun v => sameScalar v p.2
  | _ => false

/-- One field of a secret, with the size of those before it. -/
def validateSecretField (out : List (String × String) × Nat) (p : String × Doc) : Except String (List (String × String) × Nat) := do
  let name := stripText p.1
  Raise.require (isPlain ['_', '.', '-'] 64 name) "secret contains an invalid field name"
  let text ← match p.2 with
    | .null => Except.ok ""
    | .arr _ => Except.error "secret values must be scalar strings/numbers/booleans"
    | .obj _ => Except.error "secret values must be scalar strings/numbers/booleans"
    | v => Except.ok (v.text m.repr)
  let total := out.2 + name.utf8ByteSize + text.utf8ByteSize
  Raise.require (decide (text.length ≤ 32768 ∧ total ≤ 65536)) "secret exceeds the Core size limit"
  return (Dict.set name text out.1, total)

/-- `validate_secret`: the texts of a secret by name. -/
def validateSecret (fields : Fields) : Except String (List (String × String)) := do
  Raise.require (!fields.isEmpty) "secret must be a non-empty object"
  let out ← fields.foldlM (validateSecretField m) ([], 0)
  return out.1

/-- `load_secret`: nothing for a destination without a reference; else the secret is bound to the endpoint of the destination. -/
def loadSecret (destination : Fields) : Except String (List (String × String)) := do
  let ref := stripText (Doc.textField m.repr "secret_ref" destination)
  if ref = "" then return []
  else do
    let value ← m.secretFile ref
    match value with
    | .obj fields =>
      match sameScalar (Doc.field "version" fields) (.num 1), Doc.field "secret" fields with
      | true, .obj secret => do
        let expected ← destinationCredentialBinding m destination
        Raise.require (sameDict (Doc.field "binding" fields) expected.fields) "backup credential is bound to a different destination endpoint"
        validateSecret m secret
      | _, _ => .error "backup credential is legacy/unbound; re-save it for this destination before use"
    | _ => .error "backup credential is legacy/unbound; re-save it for this destination before use"

/-! ## The configuration of rclone -/

/-- `secret.get(key)`, where an empty text counts as a missing one. -/
def secretText (key : String) (secret : List (String × String)) : Option String := (Dict.get key secret).filter fun s => s != ""

/-- The line of a password. -/
def passwordLine (secret : List (String × String)) : Except String (List (String × String)) :=
  match secretText "password" secret with
  | none => return []
  | some password => do
    let password ← safeConfigValue m (.str password) "password"
    let printed ← m.rcloneObscure password
    return [("pass", stripText printed)]

/-- `ssh_known_hosts`: the file of the verified host key, or none where the policy does not ask for one. -/
def sshKnownHosts (destination : Fields) : Except String (List (String × String)) := do
  let policy := (stripText (((Doc.field "host_key_policy" destination).orElse (.str "strict")).text m.repr)).toLower
  if ["insecure", "none", "off"].contains policy then return []
  else do
    m.sshKeyscan destination
    return [("known_hosts_file", m.temp ++ "/known_hosts")]

def sftpLines (destination : Fields) (secret : List (String × String)) : Except String (List (String × String)) := do
  let password ← passwordLine m secret
  let key := if (secretText "private_key" secret).isSome then [("key_file", m.temp ++ "/id_key")] else []
  let known ← sshKnownHosts m destination
  return [("host", Doc.textField m.repr "host" destination), ("user", Doc.textField m.repr "username" destination), ("port", (Doc.field "port" destination).text m.repr)]
    ++ password ++ key ++ known

def webdavLines (destination : Fields) (secret : List (String × String)) : Except String (List (String × String)) := do
  let user := if (Doc.field "username" destination).truthy then [("user", stripText ((Doc.field "username" destination).text m.repr))] else []
  let password ← passwordLine m secret
  return [("url", stripText ((Doc.field "url" destination).text m.repr)), ("vendor", stripText (((Doc.field "vendor" destination).orElse (.str "other")).text m.repr))]
    ++ user ++ password

/-- A line that is written only where there is a value. -/
def optionalLine (key label : String) (value : Doc) : Except String (List (String × String)) :=
  if value.truthy then do
    let text ← safeConfigValue m value label
    return [(key, text)]
  else return []

/-- `secret.get(first) or secret.get(second)`. -/
def eitherSecret (first second : String) (secret : List (String × String)) : Doc := .str (((secretText first secret).or (secretText second secret)).getD "")

def s3Lines (destination : Fields) (secret : List (String × String)) : Except String (List (String × String)) := do
  let provider ← safeConfigValue m ((Doc.field "provider" destination).orElse (.str "Other")) "s3 provider"
  let access ← optionalLine m "access_key_id" "s3 access key" (eitherSecret "access_key" "access_key_id" secret)
  let secretKey ← optionalLine m "secret_access_key" "s3 secret key" (eitherSecret "secret_key" "secret_access_key" secret)
  let endpoint ← optionalLine m "endpoint" "s3 endpoint" (Doc.field "endpoint" destination)
  let region ← optionalLine m "region" "s3 region" (Doc.field "region" destination)
  return [("provider", provider), ("env_auth", "false")] ++ access ++ secretKey ++ endpoint ++ region

/-- The lines of the configuration, by the type of the destination. -/
def configLines (destination : Fields) (secret : List (String × String)) : Except String (List (String × String)) :=
  let type := Doc.textField m.repr "type" destination
  if type = "sftp" then sftpLines m destination secret
  else if type = "webdav" then webdavLines m destination secret
  else if type = "s3" then s3Lines m destination secret
  else .error ("rclone adapter not supported for " ++ type)

/-- `make_rclone_config`: the text that is written. -/
def makeRcloneConfig (destination : Fields) : Except String String := do
  Raise.require m.rcloneInstalled "rclone is required for this remote destination type but is not installed"
  let secret ← loadSecret m destination
  let lines ← configLines m destination secret
  return ConfigText.render "tectac" (("type", Doc.textField m.repr "type" destination) :: lines)

end Backup

end TecTac
