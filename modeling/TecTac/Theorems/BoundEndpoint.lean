import Mathlib
import TecTac.BackupDestination

/-!
# A credential goes to the endpoint it is bound to

What `make_rclone_config` writes is read back line by line. Every field is checked for line ends before it is written, but for the vendor and the user of a WebDAV destination:
the configuration says what was validated exactly where these two stay on their lines.
-/

namespace TecTac

namespace Backup

open Raise

section Statements

variable (m : Machine)

/-- The keys that say where a connection goes. -/
def endpointKeys : List String := ["type", "host", "user", "port", "url", "vendor", "provider", "endpoint", "region"]

/-- The keys that a credential is used through. -/
def credentialKeys : List String := ["pass", "key_file", "known_hosts_file", "env_auth", "access_key_id", "secret_access_key"]

/-- The value of an endpoint key by the validated destination, with the default of its field. -/
def boundValue (destination : Fields) (key : String) : String :=
  match key with
  | "type" => Doc.textField m.repr "type" destination
  | "host" => Doc.textField m.repr "host" destination
  | "user" => stripText (Doc.textField m.repr "username" destination)
  | "port" => (Doc.field "port" destination).text m.repr
  | "url" => Doc.textField m.repr "url" destination
  | "vendor" => stripText (((Doc.field "vendor" destination).orElse (.str "other")).text m.repr)
  | "provider" => ((Doc.field "provider" destination).orElse (.str "Other")).text m.repr
  | "endpoint" => Doc.textField m.repr "endpoint" destination
  | "region" => Doc.textField m.repr "region" destination
  | _ => ""

/-- The connection of these values goes to the endpoint of the binding; the bucket is named by the destination itself. -/
def Reaches (destination : Fields) (value : String → String) : Binding → Prop
  | .folder _ => False
  | .server type host port username => value "type" = type ∧ m.lower (value "host") = host ∧ value "port" = toString port ∧ value "user" = username
  | .webdav scheme host port path => value "type" = "webdav" ∧ webdavBinding m (value "url") = .ok (.webdav scheme host port path)
  | .s3 provider endpoint region bucket =>
    value "type" = "s3" ∧ value "provider" = provider ∧ m.lower (value "endpoint") = endpoint ∧ value "region" = region ∧ Doc.textField m.repr "bucket" destination = bucket

/-- The value that is read for a key. -/
def readValue (pairs : List (String × String)) (key : String) : String := (Dict.get key pairs).getD ""

/-- The configuration is one section that says where to connect as the destination does, each key at most once, and beside that only what the credential needs; and it reaches
the endpoint of the binding. -/
def Bound (destination : Fields) (text : String) : Prop :=
  ∃ pairs : List (String × String), ConfigText.read text = .section "tectac" :: pairs.map (fun p => .pair p.1 p.2) ∧
    (∀ p ∈ pairs, p.1 ∈ endpointKeys → p.2 = boundValue m destination p.1) ∧
    (∀ key ∈ endpointKeys, (pairs.map Prod.fst).count key ≤ 1) ∧
    (∀ p ∈ pairs, p.1 ∈ endpointKeys ∨ p.1 ∈ credentialKeys) ∧
    ∀ binding, destinationCredentialBinding m destination = .ok binding → Reaches m destination (readValue pairs) binding

/-- The vendor and the user of a WebDAV destination have no line end in them. -/
def OneLine (fields : Fields) : Prop :=
  (stripText (Doc.textField m.repr "type" fields)).toLower = "webdav" →
    '\n' ∉ (stripText (((Doc.field "vendor" fields).orElse (.str "other")).text m.repr)).toList ∧
    ((Doc.field "username" fields).truthy = true → '\n' ∉ (stripText ((Doc.field "username" fields).text m.repr)).toList)

end Statements

namespace BoundAux

variable {m : Machine}

theorem field_eq {key : String} {fields fields' : Fields} (h : Dict.get key fields = Dict.get key fields') : Doc.field key fields = Doc.field key fields' := by
  unfold Doc.field
  rw [h]

theorem field_str {key s : String} {fields : Fields} (h : Dict.get key fields = some (.str s)) : Doc.field key fields = .str s := by
  rw [Doc.field, h]
  rfl

/-- A checked value is stripped and stays on its line. -/
theorem safeConfigValue_ok {value : Doc} {label text : String} (h : safeConfigValue m value label = .ok text) :
    text = stripText ((value.orElse (.str "")).text m.repr) ∧ '\n' ∉ text.toList := by
  simp only [safeConfigValue] at h
  split at h
  · cases h
  · rename_i hplain
    have htext := (Except.ok.inj h).symm
    simp only [List.contains_eq_mem, Bool.or_eq_true, decide_eq_true_eq, not_or] at hplain
    exact ⟨htext, htext ▸ hplain.1.1⟩

theorem orElse_str {s : String} (h : s ≠ "") (default : Doc) : (Doc.str s).orElse default = .str s := by
  rw [Doc.orElse, if_pos]
  simpa [Doc.truthy] using h

theorem text_orElse_str (s : String) : (((Doc.str s).orElse (.str "")).text m.repr) = s := by
  by_cases hs : s = ""
  · rw [hs]
    rfl
  · rw [orElse_str hs]
    rfl

/-- A text that was checked before is taken as it is. -/
theorem safeConfigValue_str {s label text : String} (hs : stripText s = s) (h : safeConfigValue m (.str s) label = .ok text) : text = s := by
  rw [(safeConfigValue_ok h).1, text_orElse_str, hs]

theorem stripped_of_safe {value : Doc} {label text : String} (h : safeConfigValue m value label = .ok text) : stripText text = text := by
  rw [(safeConfigValue_ok h).1, stripText_stripText]

/-! ## What validation leaves -/

theorem validateRef_get {item out : Fields} (h : validateRef m item = .ok out) {key : String} (hkey : key ≠ "secret_ref") : Dict.get key out = Dict.get key item := by
  simp only [validateRef] at h
  split at h
  · rw [← Except.ok.inj h]
  · obtain ⟨_, -, h⟩ := bind_ok h
    rw [← Except.ok.inj h, Dict.get_set_of_ne hkey.symm]

theorem validateSsh_get {item out : Fields} (h : validateSsh m item = .ok out) {key : String} (hpolicy : key ≠ "host_key_policy") (hprint : key ≠ "host_key_fingerprint") :
    Dict.get key out = Dict.get key item := by
  obtain ⟨_, -, h⟩ := bind_ok h
  simp only at h
  split at h
  · obtain ⟨_, -, h⟩ := bind_ok h
    rw [← Except.ok.inj h, Dict.get_set_of_ne hprint.symm, Dict.get_set_of_ne hpolicy.symm]
  · rw [← Except.ok.inj h, Dict.get_set_of_ne hpolicy.symm]

/-- A host, a user and a port after their check. -/
structure HostChecked (out : Fields) (host username : String) (port : Int) : Prop where
  hostGet : Dict.get "host" out = some (.str host)
  hostPlain : isHost host = true
  hostStripped : stripText host = host
  userGet : Dict.get "username" out = some (.str username)
  userPlain : isUser username = true
  userStripped : stripText username = username
  portGet : Dict.get "port" out = some (.num port)
  portThere : 1 ≤ port

theorem validateHost_ok {type : String} {item out : Fields} (h : validateHost m type item = .ok out) :
    ∃ host username port, HostChecked out host username port ∧ safeConfigValue m (Doc.field "host" item) "host" = .ok host ∧
      safeConfigValue m (Doc.field "username" item) "username" = .ok username ∧
      toInt ((Doc.field "port" item).orElse (.num (if type = "ftp" then 21 else 22))) = .ok port := by
  obtain ⟨host, hhost, h⟩ := bind_ok h
  obtain ⟨username, huser, h⟩ := bind_ok h
  obtain ⟨_, hplain, h⟩ := bind_ok h
  obtain ⟨port, hport, h⟩ := bind_ok h
  obtain ⟨_, hrange, h⟩ := bind_ok h
  have hplain := of_require hplain
  have hrange := of_require hrange
  rw [Bool.and_eq_true] at hplain
  rw [decide_eq_true_eq] at hrange
  have hout := (Except.ok.inj h).symm
  refine ⟨host, username, port, ⟨?_, hplain.1, stripped_of_safe hhost, ?_, hplain.2, stripped_of_safe huser, ?_, hrange.1⟩, hhost, huser, hport⟩
  · rw [hout, Dict.get_set_of_ne (by decide), Dict.get_set_of_ne (by decide), Dict.get_set_self]
  · rw [hout, Dict.get_set_of_ne (by decide), Dict.get_set_self]
  · rw [hout, Dict.get_set_self]

theorem validateHost_get {type : String} {item out : Fields} (h : validateHost m type item = .ok out) {key : String} (hhost : key ≠ "host") (huser : key ≠ "username")
    (hport : key ≠ "port") : Dict.get key out = Dict.get key item := by
  obtain ⟨host, -, h⟩ := bind_ok h
  obtain ⟨username, -, h⟩ := bind_ok h
  obtain ⟨_, -, h⟩ := bind_ok h
  obtain ⟨port, -, h⟩ := bind_ok h
  obtain ⟨_, -, h⟩ := bind_ok h
  rw [← Except.ok.inj h, Dict.get_set_of_ne hport.symm, Dict.get_set_of_ne huser.symm, Dict.get_set_of_ne hhost.symm]

/-- A field that may be missing: rewritten where it was there, and as it was where not. -/
def OptionalChecked (m : Machine) (key label : String) (fields out : Fields) : Prop :=
  ((Doc.field key fields).truthy = true ∧ ∃ value, Dict.get key out = some (.str value) ∧ safeConfigValue m (Doc.field key fields) label = .ok value) ∨
  ((Doc.field key fields).truthy = false ∧ Dict.get key out = Dict.get key fields)

theorem validateOptional_ok {key label : String} {item out : Fields} (h : validateOptional m key label item = .ok out) :
    OptionalChecked m key label item out ∧ ∀ other, other ≠ key → Dict.get other out = Dict.get other item := by
  unfold validateOptional at h
  split at h
  · rename_i hthere
    obtain ⟨value, hvalue, h⟩ := bind_ok h
    cases h
    exact ⟨Or.inl ⟨hthere, value, Dict.get_set_self _ _ _, hvalue⟩, fun other hne => Dict.get_set_of_ne hne.symm _ _⟩
  · rename_i hnone
    cases h
    exact ⟨Or.inr ⟨by simpa using hnone, rfl⟩, fun _ _ => rfl⟩

/-- What validation went through: the fields but for three reach the checks of the type, and but for the reference what these leave is the destination. -/
theorem validateDestination_ok {fields destination : Fields} (h : validateDestination m (.obj fields) = .ok destination)
    (hremote : (stripText (Doc.textField m.repr "type" fields)).toLower ≠ "local") :
    ∃ item checked, validateByType m (stripText (Doc.textField m.repr "type" fields)).toLower item = .ok checked ∧
      (∀ key, key ≠ "id" → key ≠ "type" → key ≠ "remote_path" → Dict.get key item = Dict.get key fields) ∧
      Dict.get "type" item = some (.str (stripText (Doc.textField m.repr "type" fields)).toLower) ∧
      ∀ key, key ≠ "secret_ref" → Dict.get key destination = Dict.get key checked := by
  simp only [validateDestination] at h
  obtain ⟨_, -, h⟩ := bind_ok h
  obtain ⟨_, -, h⟩ := bind_ok h
  rw [if_neg hremote] at h
  obtain ⟨remotePath, -, h⟩ := bind_ok h
  obtain ⟨checked, hchecked, h⟩ := bind_ok h
  obtain ⟨out, hout, h⟩ := bind_ok h
  obtain ⟨_, -, h⟩ := bind_ok h
  cases h
  refine ⟨_, checked, hchecked, ?_, ?_, fun key hkey => validateRef_get hout hkey⟩
  · intro key hid htype hpath
    rw [Dict.get_set_of_ne hpath.symm, Dict.get_set_of_ne htype.symm, Dict.get_set_of_ne hid.symm]
  · rw [Dict.get_set_of_ne (by decide), Dict.get_set_self]

/-- No check changes the type. -/
theorem validateByType_type {type : String} {item checked : Fields} (h : validateByType m type item = .ok checked) : Dict.get "type" checked = Dict.get "type" item := by
  unfold validateByType at h
  split at h
  · obtain ⟨hosted, hhosted, h⟩ := bind_ok h
    rw [validateSsh_get h (by decide) (by decide), validateHost_get hhosted (by decide) (by decide) (by decide)]
  · split at h
    · obtain ⟨hosted, hhosted, h⟩ := bind_ok h
      obtain ⟨_, -, h⟩ := bind_ok h
      obtain ⟨_, -, h⟩ := bind_ok h
      obtain ⟨_, -, h⟩ := bind_ok h
      rw [← Except.ok.inj h, Dict.get_set_of_ne (by decide), Dict.get_set_of_ne (by decide), validateHost_get hhosted (by decide) (by decide) (by decide)]
    · split at h
      · obtain ⟨_, -, h⟩ := bind_ok h
        obtain ⟨_, -, h⟩ := bind_ok h
        obtain ⟨_, -, h⟩ := bind_ok h
        rw [← Except.ok.inj h, Dict.get_set_of_ne (by decide), Dict.get_set_of_ne (by decide)]
      · obtain ⟨_, -, h⟩ := bind_ok h
        obtain ⟨_, -, h⟩ := bind_ok h
        obtain ⟨_, -, h⟩ := bind_ok h
        obtain ⟨_, -, h⟩ := bind_ok h
        obtain ⟨_, hendpoint, h⟩ := bind_ok h
        rw [(validateOptional_ok h).2 _ (by decide), (validateOptional_ok hendpoint).2 _ (by decide), Dict.get_set_of_ne (by decide), Dict.get_set_of_ne (by decide),
          Dict.get_set_of_ne (by decide)]

theorem validated_local {fields destination : Fields} (h : validateDestination m (.obj fields) = .ok destination)
    (hlocal : (stripText (Doc.textField m.repr "type" fields)).toLower = "local") : Dict.get "type" destination = some (.str "local") := by
  simp only [validateDestination] at h
  obtain ⟨_, -, h⟩ := bind_ok h
  obtain ⟨_, -, h⟩ := bind_ok h
  rw [if_pos hlocal] at h
  obtain ⟨path, -, h⟩ := bind_ok h
  rw [← Except.ok.inj h, Dict.get_set_of_ne (by decide), Dict.get_set_self, hlocal]

/-- The type of a validated destination. -/
theorem validated_type {fields destination : Fields} (h : validateDestination m (.obj fields) = .ok destination)
    (hremote : (stripText (Doc.textField m.repr "type" fields)).toLower ≠ "local") :
    Doc.textField m.repr "type" destination = (stripText (Doc.textField m.repr "type" fields)).toLower := by
  obtain ⟨item, checked, hchecked, -, htypeItem, hget⟩ := validateDestination_ok h hremote
  refine Doc.textField_str ?_
  rw [hget _ (by decide), validateByType_type hchecked, htypeItem]

/-- A validated destination with a host has one that is plain, a user that is plain and a port. -/
theorem validated_sftp {fields destination : Fields} (h : validateDestination m (.obj fields) = .ok destination)
    (htype : (stripText (Doc.textField m.repr "type" fields)).toLower = "sftp") :
    Dict.get "type" destination = some (.str "sftp") ∧
    ∃ host username port, HostChecked destination host username port ∧ safeConfigValue m (Doc.field "host" fields) "host" = .ok host ∧
      safeConfigValue m (Doc.field "username" fields) "username" = .ok username ∧ toInt ((Doc.field "port" fields).orElse (.num 22)) = .ok port := by
  obtain ⟨item, checked, hchecked, hitem, htypeItem, hget⟩ := validateDestination_ok h (by rw [htype]; decide)
  rw [htype, validateByType, if_pos (Or.inl rfl)] at hchecked
  obtain ⟨hosted, hhosted, hssh⟩ := bind_ok hchecked
  have hkeep : ∀ key, key ≠ "secret_ref" → key ≠ "host_key_policy" → key ≠ "host_key_fingerprint" → Dict.get key destination = Dict.get key hosted := by
    intro key href hpolicy hprint
    rw [hget key href, validateSsh_get hssh hpolicy hprint]
  obtain ⟨host, username, port, hok, hhost, huser, hport⟩ := validateHost_ok hhosted
  refine ⟨?_, host, username, port, ?_, ?_, ?_, ?_⟩
  · rw [hkeep _ (by decide) (by decide) (by decide), validateHost_get hhosted (by decide) (by decide) (by decide), htypeItem, htype]
  · refine ⟨?_, hok.hostPlain, hok.hostStripped, ?_, hok.userPlain, hok.userStripped, ?_, hok.portThere⟩
    · rw [hkeep _ (by decide) (by decide) (by decide), hok.hostGet]
    · rw [hkeep _ (by decide) (by decide) (by decide), hok.userGet]
    · rw [hkeep _ (by decide) (by decide) (by decide), hok.portGet]
  · rw [← field_eq (hitem "host" (by decide) (by decide) (by decide))]
    exact hhost
  · rw [← field_eq (hitem "username" (by decide) (by decide) (by decide))]
    exact huser
  · rw [← field_eq (hitem "port" (by decide) (by decide) (by decide))]
    exact hport

/-- A validated WebDAV destination has a url on one line, and the vendor and the user of the request. -/
theorem validated_webdav {fields destination : Fields} (h : validateDestination m (.obj fields) = .ok destination)
    (htype : (stripText (Doc.textField m.repr "type" fields)).toLower = "webdav") :
    Dict.get "type" destination = some (.str "webdav") ∧ Dict.get "vendor" destination = Dict.get "vendor" fields ∧
    Dict.get "username" destination = Dict.get "username" fields ∧
    ∃ url, Dict.get "url" destination = some (.str url) ∧ safeConfigValue m (Doc.field "url" fields) "webdav url" = .ok url := by
  obtain ⟨item, checked, hchecked, hitem, htypeItem, hget⟩ := validateDestination_ok h (by rw [htype]; decide)
  rw [htype, validateByType, if_neg (by decide), if_neg (by decide), if_pos rfl] at hchecked
  obtain ⟨url, hurl, hrest⟩ := bind_ok hchecked
  obtain ⟨_, -, hrest⟩ := bind_ok hrest
  obtain ⟨_, -, hrest⟩ := bind_ok hrest
  have hout := (Except.ok.inj hrest).symm
  have hkeep : ∀ key, key ≠ "secret_ref" → key ≠ "allow_insecure_transport" → key ≠ "url" → Dict.get key destination = Dict.get key item := by
    intro key href hallow hurl
    rw [hget key href, hout, Dict.get_set_of_ne hallow.symm, Dict.get_set_of_ne hurl.symm]
  refine ⟨?_, ?_, ?_, url, ?_, ?_⟩
  · rw [hkeep _ (by decide) (by decide) (by decide), htypeItem, htype]
  · rw [hkeep _ (by decide) (by decide) (by decide), hitem _ (by decide) (by decide) (by decide)]
  · rw [hkeep _ (by decide) (by decide) (by decide), hitem _ (by decide) (by decide) (by decide)]
  · rw [hget _ (by decide), hout, Dict.get_set_of_ne (by decide), Dict.get_set_self]
  · rw [← field_eq (hitem "url" (by decide) (by decide) (by decide))]
    exact hurl

/-- A validated S3 destination. -/
theorem validated_s3 {fields destination : Fields} (h : validateDestination m (.obj fields) = .ok destination)
    (htype : (stripText (Doc.textField m.repr "type" fields)).toLower = "s3") :
    Dict.get "type" destination = some (.str "s3") ∧
    (∃ provider, Dict.get "provider" destination = some (.str provider) ∧ safeConfigValue m ((Doc.field "provider" fields).orElse (.str "Other")) "s3 provider" = .ok provider) ∧
    (∃ bucket, Dict.get "bucket" destination = some (.str bucket) ∧ safeConfigValue m (Doc.field "bucket" fields) "s3 bucket" = .ok bucket) ∧
    OptionalChecked m "endpoint" "s3 endpoint" fields destination ∧ OptionalChecked m "region" "s3 region" fields destination := by
  obtain ⟨item, checked, hchecked, hitem, htypeItem, hget⟩ := validateDestination_ok h (by rw [htype]; decide)
  rw [htype, validateByType, if_neg (by decide), if_neg (by decide), if_neg (by decide)] at hchecked
  obtain ⟨provider, hprovider, hrest⟩ := bind_ok hchecked
  obtain ⟨bucket, hbucket, hrest⟩ := bind_ok hrest
  obtain ⟨path, -, hrest⟩ := bind_ok hrest
  obtain ⟨_, -, hrest⟩ := bind_ok hrest
  obtain ⟨withEndpoint, hendpoint, hregion⟩ := bind_ok hrest
  generalize hmid : Dict.set "prefix" (Doc.str path) (Dict.set "bucket" (Doc.str bucket) (Dict.set "provider" (Doc.str provider) item)) = mid at hendpoint
  have hmidGet : ∀ key, key ≠ "prefix" → key ≠ "bucket" → key ≠ "provider" → Dict.get key mid = Dict.get key item := by
    intro key hp hb hpr
    rw [← hmid, Dict.get_set_of_ne hp.symm, Dict.get_set_of_ne hb.symm, Dict.get_set_of_ne hpr.symm]
  obtain ⟨hendpoint, hkeepEndpoint⟩ := validateOptional_ok hendpoint
  obtain ⟨hregion, hkeepRegion⟩ := validateOptional_ok hregion
  have hkeep : ∀ key, key ≠ "secret_ref" → key ≠ "region" → key ≠ "endpoint" → Dict.get key destination = Dict.get key mid := by
    intro key href hr he
    rw [hget key href, hkeepRegion key hr, hkeepEndpoint key he]
  have hendpointFields : Dict.get "endpoint" mid = Dict.get "endpoint" fields := by
    rw [hmidGet _ (by decide) (by decide) (by decide), hitem _ (by decide) (by decide) (by decide)]
  have hregionFields : Dict.get "region" withEndpoint = Dict.get "region" fields := by
    rw [hkeepEndpoint _ (by decide), hmidGet _ (by decide) (by decide) (by decide), hitem _ (by decide) (by decide) (by decide)]
  refine ⟨?_, ⟨provider, ?_, ?_⟩, ⟨bucket, ?_, ?_⟩, ?_, ?_⟩
  · rw [hkeep _ (by decide) (by decide) (by decide), hmidGet _ (by decide) (by decide) (by decide), htypeItem, htype]
  · rw [hkeep _ (by decide) (by decide) (by decide), ← hmid, Dict.get_set_of_ne (by decide), Dict.get_set_of_ne (by decide), Dict.get_set_self]
  · rw [← field_eq (hitem "provider" (by decide) (by decide) (by decide))]
    exact hprovider
  · rw [hkeep _ (by decide) (by decide) (by decide), ← hmid, Dict.get_set_of_ne (by decide), Dict.get_set_self]
  · have hsame : Dict.get "bucket" (Dict.set "provider" (Doc.str provider) item) = Dict.get "bucket" item := Dict.get_set_of_ne (by decide) _ _
    rw [← field_eq (hitem "bucket" (by decide) (by decide) (by decide)), ← field_eq hsame]
    exact hbucket
  · unfold OptionalChecked at hendpoint ⊢
    rw [field_eq hendpointFields, hendpointFields] at hendpoint
    rw [hget _ (by decide), hkeepRegion _ (by decide)]
    exact hendpoint
  · unfold OptionalChecked at hregion ⊢
    rw [field_eq hregionFields, hregionFields] at hregion
    rw [hget _ (by decide)]
    exact hregion

/-! ## The endpoint of the binding -/

theorem known_type {type : String} (h : type = "sftp" ∨ type = "webdav" ∨ type = "s3") : (stripText type).toLower = type := by
  rw [toLower_eq_ofList]
  rcases h with rfl | rfl | rfl <;> decide

theorem textField_type {destination : Fields} {type : String} (h : Dict.get "type" destination = some (.str type)) : Doc.textField m.repr "type" destination = type :=
  Doc.textField_str h

/-- The type that a validated destination has is the one it is validated as again. -/
theorem type_again {destination : Fields} {type : String} (h : Dict.get "type" destination = some (.str type)) (hknown : type = "sftp" ∨ type = "webdav" ∨ type = "s3") :
    (stripText (Doc.textField m.repr "type" destination)).toLower = type := by
  rw [textField_type h]
  exact known_type hknown

theorem reaches_sftp {destination : Fields} {host username : String} {port : Int} {binding : Binding} (htype : Dict.get "type" destination = some (.str "sftp"))
    (hchecked : HostChecked destination host username port) (h : destinationCredentialBinding m destination = .ok binding) {value : String → String}
    (hvalue : ∀ key ∈ ["type", "host", "port", "user"], value key = boundValue m destination key) : Reaches m destination value binding := by
  obtain ⟨again, hagain, h⟩ := bind_ok h
  obtain ⟨htypeAgain, host', username', port', hchecked', hhost, huser, hport⟩ := validated_sftp hagain (type_again htype (Or.inl rfl))
  rw [field_str hchecked.hostGet] at hhost
  rw [field_str hchecked.userGet] at huser
  have hport' : toInt (Doc.num port) = .ok port' := by
    have hfield : Doc.field "port" destination = .num port := by
      rw [Doc.field, hchecked.portGet]
      rfl
    have htruthy : (Doc.num port).truthy = true := by
      have := hchecked.portThere
      simp only [Doc.truthy, bne_iff_ne, ne_eq]
      omega
    rw [hfield, Doc.orElse, if_pos htruthy] at hport
    exact hport
  obtain rfl := safeConfigValue_str hchecked.hostStripped hhost
  obtain rfl := safeConfigValue_str hchecked.userStripped huser
  obtain rfl : port = port' := Except.ok.inj hport'
  simp only [textField_type htypeAgain] at h
  rw [if_neg (by decide), if_neg (by decide), if_neg (by decide)] at h
  have hfield : Doc.field "port" again = .num port := by
    rw [Doc.field, hchecked'.portGet]
    rfl
  rw [hfield] at h
  have hbinding := (Except.ok.inj h).symm
  rw [hbinding, Doc.textField_str hchecked'.hostGet, Doc.textField_str hchecked'.userGet]
  refine ⟨?_, ?_, ?_, ?_⟩
  · rw [hvalue _ (by simp)]
    exact textField_type htype
  · rw [hvalue _ (by simp)]
    exact congrArg m.lower (Doc.textField_str hchecked.hostGet)
  · rw [hvalue _ (by simp), boundValue, Doc.field, hchecked.portGet]
    rfl
  · rw [hvalue _ (by simp), boundValue, Doc.textField_str hchecked.userGet, hchecked.userStripped]

theorem reaches_webdav {destination : Fields} {url : String} {binding : Binding} (htype : Dict.get "type" destination = some (.str "webdav"))
    (hurl : Dict.get "url" destination = some (.str url)) (hstripped : stripText url = url) (h : destinationCredentialBinding m destination = .ok binding) {value : String → String}
    (hvalue : ∀ key ∈ ["type", "url"], value key = boundValue m destination key) : Reaches m destination value binding := by
  obtain ⟨again, hagain, h⟩ := bind_ok h
  obtain ⟨htypeAgain, -, -, url', hurlAgain, hsafe⟩ := validated_webdav hagain (type_again htype (Or.inr (Or.inl rfl)))
  rw [field_str hurl] at hsafe
  obtain rfl := safeConfigValue_str hstripped hsafe
  simp only [textField_type htypeAgain] at h
  rw [if_neg (by decide), if_pos trivial, Doc.textField_str hurlAgain] at h
  have hshape : ∃ scheme host port path, binding = .webdav scheme host port path := by
    obtain ⟨parts, -, hparts⟩ := bind_ok h
    exact ⟨_, _, _, _, (Except.ok.inj hparts).symm⟩
  obtain ⟨scheme, host, port, path, rfl⟩ := hshape
  refine ⟨?_, ?_⟩
  · rw [hvalue _ (by simp)]
    exact textField_type htype
  · rw [hvalue _ (by simp), boundValue, Doc.textField_str hurl]
    exact h

/-- A field that may be missing has the text it had when it is validated again. -/
theorem optional_again {key label : String} {fields destination again : Fields} (hchecked : OptionalChecked m key label fields destination)
    (hagain : OptionalChecked m key label destination again) :
    stripText (Doc.textField m.repr key again) = Doc.textField m.repr key destination := by
  rcases hchecked with ⟨-, value, hget, hsafe⟩ | ⟨hnone, hget⟩
  · have hstripped := stripped_of_safe hsafe
    rcases hagain with ⟨-, value', hget', hsafe'⟩ | ⟨-, hget'⟩
    · rw [field_str hget] at hsafe'
      obtain rfl := safeConfigValue_str hstripped hsafe'
      rw [Doc.textField_str hget, Doc.textField_str hget', hstripped]
    · rw [hget] at hget'
      rw [Doc.textField_str hget, Doc.textField_str hget', hstripped]
  · have hempty : ∀ {out : Fields}, Doc.field key out = Doc.field key fields → Doc.textField m.repr key out = "" := by
      intro out hsame
      rw [Doc.textField, hsame, Doc.orElse, if_neg (by simp [hnone])]
      rfl
    rcases hagain with ⟨htruthy, -⟩ | ⟨-, hget'⟩
    · rw [field_eq hget, hnone] at htruthy
      cases htruthy
    · rw [hempty (field_eq hget), hempty (field_eq (hget'.trans hget))]
      decide

theorem reaches_s3 {fields destination : Fields} {provider bucket : String} {binding : Binding} (htype : Dict.get "type" destination = some (.str "s3"))
    (hprovider : Dict.get "provider" destination = some (.str provider)) (hproviderStripped : stripText provider = provider)
    (hbucket : Dict.get "bucket" destination = some (.str bucket)) (hbucketStripped : stripText bucket = bucket)
    (hendpoint : OptionalChecked m "endpoint" "s3 endpoint" fields destination) (hregion : OptionalChecked m "region" "s3 region" fields destination)
    (h : destinationCredentialBinding m destination = .ok binding) {value : String → String}
    (hvalue : ∀ key ∈ ["type", "provider", "endpoint", "region"], value key = boundValue m destination key) : Reaches m destination value binding := by
  obtain ⟨again, hagain, h⟩ := bind_ok h
  obtain ⟨htypeAgain, ⟨provider', hprovider', hsafe⟩, ⟨bucket', hbucket', hsafeBucket⟩, hendpoint', hregion'⟩ :=
    validated_s3 hagain (type_again htype (Or.inr (Or.inr rfl)))
  rw [field_str hbucket] at hsafeBucket
  obtain rfl := safeConfigValue_str hbucketStripped hsafeBucket
  have hname : provider' = ((Doc.field "provider" destination).orElse (.str "Other")).text m.repr := by
    rw [(safeConfigValue_ok hsafe).1, field_str hprovider]
    by_cases hempty : provider = ""
    · rw [hempty]
      exact (by decide : stripText "Other" = "Other")
    · rw [orElse_str hempty, orElse_str hempty]
      exact hproviderStripped
  have hwritten : ((Doc.field "provider" again).orElse (.str "Other")).text m.repr = provider' := by
    have hne : provider' ≠ "" := by
      rw [hname, field_str hprovider]
      by_cases hempty : provider = ""
      · rw [hempty]
        exact (by decide : "Other" ≠ "")
      · rw [orElse_str hempty]
        exact hempty
    rw [field_str hprovider', orElse_str hne]
    rfl
  simp only [textField_type htypeAgain] at h
  rw [if_neg (by decide), if_neg (by decide), if_pos trivial, hwritten, optional_again hendpoint hendpoint', optional_again hregion hregion', Doc.textField_str hbucket'] at h
  rw [← Except.ok.inj h]
  refine ⟨?_, ?_, ?_, ?_, Doc.textField_str hbucket⟩
  · rw [hvalue _ (by simp)]
    exact textField_type htype
  · rw [hvalue _ (by simp)]
    exact hname.symm
  · rw [hvalue _ (by simp)]
    rfl
  · rw [hvalue _ (by simp)]
    rfl

/-! ## What is written -/

/-- A plain text stays on its line. -/
theorem line_of_plain {extra : List Char} {max : Nat} {s : String} (hextra : extra.contains '\n' = false) (h : isPlain extra max s = true) : '\n' ∉ s.toList := by
  intro hmem
  simp only [isPlain, Bool.and_eq_true, List.all_eq_true] at h
  have hchar := h.2 '\n' hmem
  rw [hextra] at hchar
  exact absurd hchar (by decide)

theorem digits_of_port {port : Int} (h : 1 ≤ port) : ∀ c ∈ (toString port).toList, c.isDigit = true := by
  obtain ⟨n, rfl⟩ := Int.eq_ofNat_of_zero_le (by omega : 0 ≤ port)
  intro c hc
  change c ∈ (Nat.repr n).toList at hc
  rw [Nat.toList_repr] at hc
  exact Nat.isDigit_of_mem_toDigits (by decide) (by decide) hc

/-- The text of a port is stripped and stays on its line. -/
theorem port_text {port : Int} (h : 1 ≤ port) : stripText (toString port) = toString port ∧ '\n' ∉ (toString port).toList := by
  have hdigits := digits_of_port h
  refine ⟨?_, fun hmem => absurd (hdigits _ hmem) (by decide)⟩
  rw [stripText, strip_eq_self, String.ofList_toList]
  intro c hc
  have hdigit := hdigits c hc
  have hval : c.toNat = c.val.toNat := rfl
  simp only [Char.isDigit, Bool.and_eq_true, decide_eq_true_eq, ge_iff_le, UInt32.le_iff_toNat_le, Char.reduceVal, UInt32.reduceToNat] at hdigit
  simp only [isSpace, Bool.or_eq_false_iff, decide_eq_false_iff_not, beq_eq_false_iff_ne]
  omega

/-- Lines of one key that stay on their lines. -/
structure OneKey (key : String) (lines : List (String × String)) : Prop where
  keys : (lines.map Prod.fst).Sublist [key]
  line : ∀ p ∈ lines, '\n' ∉ p.2.toList

theorem oneKey_nil (key : String) : OneKey key [] := ⟨List.nil_sublist _, fun _ h => by cases h⟩

theorem oneKey_single {key value : String} (h : '\n' ∉ value.toList) : OneKey key [(key, value)] := by
  refine ⟨List.Sublist.refl _, ?_⟩
  intro p hp
  rw [List.mem_singleton.1 hp]
  exact h

theorem OneKey.key_of_mem {key : String} {lines : List (String × String)} (h : OneKey key lines) {p : String × String} (hp : p ∈ lines) : p.1 = key :=
  List.mem_singleton.1 (h.keys.subset (List.mem_map_of_mem hp))

theorem passwordLine_ok {secret lines : List (String × String)} (h : passwordLine m secret = .ok lines) : OneKey "pass" lines := by
  unfold passwordLine at h
  split at h
  · cases h
    exact oneKey_nil "pass"
  · obtain ⟨password, -, h⟩ := bind_ok h
    obtain ⟨printed, hprinted, h⟩ := bind_ok h
    cases h
    exact oneKey_single (m.rcloneObscure_line password printed hprinted)

theorem temp_file_line {name : String} (h : '\n' ∉ name.toList) : '\n' ∉ (m.temp ++ name).toList := by
  rw [String.toList_append, List.mem_append, not_or]
  exact ⟨m.temp_line, h⟩

theorem sshKnownHosts_ok {destination : Fields} {lines : List (String × String)} (h : sshKnownHosts m destination = .ok lines) : OneKey "known_hosts_file" lines := by
  simp only [sshKnownHosts] at h
  split at h
  · cases h
    exact oneKey_nil "known_hosts_file"
  · obtain ⟨_, -, h⟩ := bind_ok h
    cases h
    exact oneKey_single (temp_file_line (by decide))

theorem optionalLine_ok {key label : String} {value : Doc} {lines : List (String × String)} (h : optionalLine m key label value = .ok lines) :
    (value.truthy = false ∧ lines = []) ∨ (value.truthy = true ∧ ∃ text, lines = [(key, text)] ∧ safeConfigValue m value label = .ok text) := by
  unfold optionalLine at h
  split at h
  · rename_i hthere
    obtain ⟨text, htext, h⟩ := bind_ok h
    exact Or.inr ⟨hthere, text, (Except.ok.inj h).symm, htext⟩
  · rename_i hnone
    exact Or.inl ⟨by simpa using hnone, (Except.ok.inj h).symm⟩

theorem oneKey_of_optional {key label : String} {value : Doc} {lines : List (String × String)} (h : optionalLine m key label value = .ok lines) : OneKey key lines := by
  rcases optionalLine_ok h with ⟨-, rfl⟩ | ⟨-, text, rfl, htext⟩
  · exact oneKey_nil key
  · exact oneKey_single (safeConfigValue_ok htext).2

/-- What the lines of a configuration are: keys in one order, and the values of the destination for those that say where to connect. -/
structure Written (m : Machine) (destination : Fields) (pairs : List (String × String)) : Prop where
  order : ∃ order : List String, (pairs.map Prod.fst).Sublist order ∧ order.Nodup ∧ ∀ key ∈ order, ConfigText.isKey key = true ∧ (key ∈ endpointKeys ∨ key ∈ credentialKeys)
  values : ∀ p ∈ pairs, p.1 ∈ endpointKeys → p.2 = boundValue m destination p.1 ∧ stripText p.2 = p.2

theorem not_endpoint_of_credential {key : String} (h : key ∈ credentialKeys) : key ∉ endpointKeys := by
  revert h
  unfold credentialKeys endpointKeys
  simp only [List.mem_cons, List.not_mem_nil, or_false]
  rintro (rfl | rfl | rfl | rfl | rfl | rfl) <;> decide

theorem OneKey.not_endpoint {key : String} {lines : List (String × String)} (h : OneKey key lines) (hkey : key ∈ credentialKeys) {p : String × String} (hp : p ∈ lines)
    (hendpoint : p.1 ∈ endpointKeys) : False := by
  rw [h.key_of_mem hp] at hendpoint
  exact not_endpoint_of_credential hkey hendpoint

/-- The value that is read for a key of a configuration whose values are the bound ones. -/
theorem readValue_eq {destination : Fields} {pairs : List (String × String)} (h : ∀ p ∈ pairs, p.1 ∈ endpointKeys → p.2 = boundValue m destination p.1) {key : String}
    (hkey : key ∈ endpointKeys) (hthere : key ∈ pairs.map Prod.fst ∨ boundValue m destination key = "") : readValue pairs key = boundValue m destination key := by
  unfold readValue
  cases hget : Dict.get key pairs with
  | some value => exact h (key, value) (Dict.mem_of_get hget) hkey
  | none =>
    rcases hthere with hmem | hempty
    · obtain ⟨p, hp, rfl⟩ := List.mem_map.1 hmem
      have := Dict.get_isSome_of_mem hp
      rw [hget] at this
      cases this
    · rw [hempty]
      rfl

/-- Where every value stays on its line, what is read is what was written. -/
theorem bound_of_lines {destination : Fields} {pairs : List (String × String)} (hwritten : Written m destination pairs) (hlines : ∀ p ∈ pairs, '\n' ∉ p.2.toList)
    (hreach : ∀ read : List (String × String), read.map Prod.fst = pairs.map Prod.fst → (∀ p ∈ read, p.1 ∈ endpointKeys → p.2 = boundValue m destination p.1) →
      ∀ binding, destinationCredentialBinding m destination = .ok binding → Reaches m destination (readValue read) binding) :
    Bound m destination (ConfigText.render "tectac" pairs) := by
  obtain ⟨order, hsub, hnodup, hkeys⟩ := hwritten.order
  have hkey : ∀ p ∈ pairs, p.1 ∈ order := fun p hp => hsub.subset (List.mem_map_of_mem hp)
  have hfst : (pairs.map fun p => (p.1, stripText p.2)).map Prod.fst = pairs.map Prod.fst := by simp
  have hvalues : ∀ p ∈ pairs.map (fun p => (p.1, stripText p.2)), p.1 ∈ endpointKeys → p.2 = boundValue m destination p.1 := by
    intro p hp hendpoint
    obtain ⟨q, hq, rfl⟩ := List.mem_map.1 hp
    obtain ⟨hvalue, hstripped⟩ := hwritten.values q hq hendpoint
    exact hstripped.trans hvalue
  refine ⟨pairs.map fun p => (p.1, stripText p.2), ?_, hvalues, ?_, ?_, hreach _ hfst hvalues⟩
  · rw [ConfigText.read_render_of_lines (by decide) fun p hp => ⟨(hkeys p.1 (hkey p hp)).1, hlines p hp⟩, List.map_map]
    rfl
  · intro key _
    rw [hfst]
    exact List.nodup_iff_count_le_one.1 (hsub.nodup hnodup) key
  · intro p hp
    obtain ⟨q, hq, rfl⟩ := List.mem_map.1 hp
    exact (hkeys q.1 (hkey q hq)).2

/-- A value that is read back as it was written has no line end in it. -/
theorem line_of_bound {destination : Fields} {pairs : List (String × String)} (hbound : Bound m destination (ConfigText.render "tectac" pairs)) {key value : String}
    (hmem : (key, value) ∈ pairs) (hkey : ConfigText.isKey key = true) (hendpoint : key ∈ endpointKeys) (hvalue : value = boundValue m destination key) : '\n' ∉ value.toList := by
  obtain ⟨read, hread, hvalues, -⟩ := hbound
  obtain ⟨found, hfound, hline⟩ := ConfigText.exists_pair_of_mem (by decide : ConfigText.isSection "tectac" = true) hmem hkey
  rw [hread, List.mem_cons] at hfound
  rcases hfound with hsection | hfound
  · cases hsection
  · obtain ⟨q, hq, heq⟩ := List.mem_map.1 hfound
    obtain ⟨hfst, hsnd⟩ := ConfigText.Line.pair.inj heq
    have hbound := hvalues q hq (by rw [hfst]; exact hendpoint)
    rw [hfst, hsnd] at hbound
    rw [hvalue, ← hbound]
    exact hline

theorem bound_sftp {destination : Fields} {secret lines : List (String × String)} {host username : String} {port : Int}
    (htype : Dict.get "type" destination = some (.str "sftp")) (hchecked : HostChecked destination host username port) (h : sftpLines m destination secret = .ok lines) :
    Bound m destination (ConfigText.render "tectac" (("type", "sftp") :: lines)) := by
  obtain ⟨password, hpassword, h⟩ := bind_ok h
  obtain ⟨known, hknown, h⟩ := bind_ok h
  have hpass := passwordLine_ok hpassword
  have hhosts := sshKnownHosts_ok hknown
  have hfile : OneKey "key_file" (if (secretText "private_key" secret).isSome then [("key_file", m.temp ++ "/id_key")] else []) := by
    split
    · exact oneKey_single (temp_file_line (by decide))
    · exact oneKey_nil "key_file"
  generalize (if (secretText "private_key" secret).isSome then [("key_file", m.temp ++ "/id_key")] else []) = file at h hfile
  have hhostText : Doc.textField m.repr "host" destination = host := Doc.textField_str hchecked.hostGet
  have huserText : Doc.textField m.repr "username" destination = username := Doc.textField_str hchecked.userGet
  have hportText : (Doc.field "port" destination).text m.repr = toString port := by
    rw [Doc.field, hchecked.portGet]
    rfl
  rw [hhostText, huserText, hportText] at h
  rw [← Except.ok.inj h]
  have hport := port_text hchecked.portThere
  refine bound_of_lines ⟨⟨["type", "host", "user", "port", "pass", "key_file", "known_hosts_file"], ?_, by decide, by decide⟩, ?_⟩ ?_ ?_
  · simp only [List.map_cons, List.map_append, List.cons_append, List.nil_append, List.append_assoc]
    exact ((((hpass.keys.append (hfile.keys.append hhosts.keys)).cons_cons "port").cons_cons "user").cons_cons "host").cons_cons "type"
  · intro p hp hendpoint
    simp only [List.mem_cons, List.mem_append, List.not_mem_nil, or_false] at hp
    rcases hp with rfl | (((rfl | rfl | rfl) | hp) | hp) | hp
    · exact ⟨(textField_type htype).symm, by decide⟩
    · exact ⟨hhostText.symm, hchecked.hostStripped⟩
    · exact ⟨(congrArg stripText huserText).trans hchecked.userStripped |>.symm, hchecked.userStripped⟩
    · exact ⟨hportText.symm, hport.1⟩
    · exact (hpass.not_endpoint (by decide) hp hendpoint).elim
    · exact (hfile.not_endpoint (by decide) hp hendpoint).elim
    · exact (hhosts.not_endpoint (by decide) hp hendpoint).elim
  · intro p hp
    simp only [List.mem_cons, List.mem_append, List.not_mem_nil, or_false] at hp
    rcases hp with rfl | (((rfl | rfl | rfl) | hp) | hp) | hp
    · decide
    · exact line_of_plain (by decide) hchecked.hostPlain
    · exact line_of_plain (by decide) hchecked.userPlain
    · exact hport.2
    · exact hpass.line p hp
    · exact hfile.line p hp
    · exact hhosts.line p hp
  · intro read hfst hvalues binding hbinding
    refine reaches_sftp htype hchecked hbinding ?_
    intro key hkey
    have hthere : key ∈ read.map Prod.fst := by
      rw [hfst]
      simp only [List.mem_cons, List.not_mem_nil, or_false] at hkey
      rcases hkey with rfl | rfl | rfl | rfl <;> simp
    refine readValue_eq hvalues ?_ (Or.inl hthere)
    simp only [List.mem_cons, List.not_mem_nil, or_false] at hkey
    rcases hkey with rfl | rfl | rfl | rfl <;> decide

/-- The user of a WebDAV destination, where it has one. -/
theorem user_values {destination : Fields} (hthere : (Doc.field "username" destination).truthy = true) :
    stripText ((Doc.field "username" destination).text m.repr) = boundValue m destination "user" := by
  rw [boundValue, Doc.textField, Doc.orElse, if_pos hthere]

/-- A WebDAV configuration says what the destination does exactly where its vendor and its user stay on their lines. -/
theorem bound_webdav_iff {destination : Fields} {secret lines : List (String × String)} {url : String} (htype : Dict.get "type" destination = some (.str "webdav"))
    (hurl : Dict.get "url" destination = some (.str url)) (hstripped : stripText url = url) (hline : '\n' ∉ url.toList) (h : webdavLines m destination secret = .ok lines) :
    Bound m destination (ConfigText.render "tectac" (("type", "webdav") :: lines)) ↔
      '\n' ∉ (stripText (((Doc.field "vendor" destination).orElse (.str "other")).text m.repr)).toList ∧
      ((Doc.field "username" destination).truthy = true → '\n' ∉ (stripText ((Doc.field "username" destination).text m.repr)).toList) := by
  obtain ⟨password, hpassword, h⟩ := bind_ok h
  have hpass := passwordLine_ok hpassword
  have hurlField : stripText ((Doc.field "url" destination).text m.repr) = url := by
    rw [field_str hurl]
    exact hstripped
  rw [hurlField] at h
  rw [← Except.ok.inj h]
  generalize huser : (if (Doc.field "username" destination).truthy then [("user", stripText ((Doc.field "username" destination).text m.repr))] else []) = user
  have huserKeys : (user.map Prod.fst).Sublist ["user"] := by
    rw [← huser]
    split
    · exact List.Sublist.refl _
    · exact List.nil_sublist _
  have huserMem : ∀ p ∈ user, (Doc.field "username" destination).truthy = true ∧ p = ("user", stripText ((Doc.field "username" destination).text m.repr)) := by
    intro p hp
    rw [← huser] at hp
    split at hp
    · rename_i hthere
      exact ⟨hthere, List.mem_singleton.1 hp⟩
    · cases hp
  constructor
  · intro hbound
    constructor
    · exact line_of_bound hbound (List.mem_cons_of_mem _ (List.mem_append_left _ (List.mem_append_left _ (List.mem_cons_of_mem _ List.mem_cons_self)))) (by decide) (by decide) rfl
    · intro hthere
      rw [if_pos hthere] at huser
      refine line_of_bound hbound ?_ (by decide : ConfigText.isKey "user" = true) (by decide) (user_values hthere)
      rw [← huser]
      exact List.mem_cons_of_mem _ (List.mem_append_left _ (List.mem_append_right _ List.mem_cons_self))
  · rintro ⟨hvendorLine, huserLine⟩
    refine bound_of_lines ⟨⟨["type", "url", "vendor", "user", "pass"], ?_, by decide, by decide⟩, ?_⟩ ?_ ?_
    · simp only [List.map_cons, List.map_append, List.cons_append, List.nil_append]
      exact ((((huserKeys.append hpass.keys)).cons_cons "vendor").cons_cons "url").cons_cons "type"
    · intro p hp hendpoint
      simp only [List.mem_cons, List.mem_append, List.not_mem_nil, or_false] at hp
      rcases hp with rfl | ((rfl | rfl) | hp) | hp
      · exact ⟨(textField_type htype).symm, by decide⟩
      · exact ⟨(Doc.textField_str hurl).symm, hstripped⟩
      · exact ⟨rfl, stripText_stripText _⟩
      · obtain ⟨hthere, rfl⟩ := huserMem p hp
        exact ⟨user_values hthere, stripText_stripText _⟩
      · exact (hpass.not_endpoint (by decide) hp hendpoint).elim
    · intro p hp
      simp only [List.mem_cons, List.mem_append, List.not_mem_nil, or_false] at hp
      rcases hp with rfl | ((rfl | rfl) | hp) | hp
      · decide
      · exact hline
      · exact hvendorLine
      · obtain ⟨hthere, rfl⟩ := huserMem p hp
        exact huserLine hthere
      · exact hpass.line p hp
    · intro read hfst hvalues binding hbinding
      refine reaches_webdav htype hurl hstripped hbinding ?_
      intro key hkey
      have hthere : key ∈ read.map Prod.fst := by
        rw [hfst]
        simp only [List.mem_cons, List.not_mem_nil, or_false] at hkey
        rcases hkey with rfl | rfl <;> simp
      refine readValue_eq hvalues ?_ (Or.inl hthere)
      simp only [List.mem_cons, List.not_mem_nil, or_false] at hkey
      rcases hkey with rfl | rfl <;> decide

/-- A line for a field that may be missing has the value of the destination. -/
theorem optional_values {key label : String} {fields destination : Fields} {lines : List (String × String)} (hchecked : OptionalChecked m key label fields destination)
    (h : optionalLine m key label (Doc.field key destination) = .ok lines) :
    (∀ p ∈ lines, p.2 = Doc.textField m.repr key destination ∧ stripText p.2 = p.2) ∧ (key ∈ lines.map Prod.fst ∨ Doc.textField m.repr key destination = "") := by
  rcases optionalLine_ok h with ⟨hnone, rfl⟩ | ⟨hthere, text, rfl, hsafe⟩
  · refine ⟨fun _ hp => (by cases hp), Or.inr ?_⟩
    rw [Doc.textField, Doc.orElse, if_neg (by simp [hnone])]
    rfl
  · refine ⟨?_, Or.inl (by simp)⟩
    intro p hp
    rw [List.mem_singleton.1 hp]
    refine ⟨?_, stripped_of_safe hsafe⟩
    rcases hchecked with ⟨-, value, hget, hvalue⟩ | ⟨hnone, hget⟩
    · rw [field_str hget] at hsafe
      rw [Doc.textField_str hget]
      exact safeConfigValue_str (stripped_of_safe hvalue) hsafe
    · rw [field_eq hget, hnone] at hthere
      cases hthere

theorem bound_s3 {fields destination : Fields} {secret lines : List (String × String)} {provider bucket : String} (htype : Dict.get "type" destination = some (.str "s3"))
    (hprovider : Dict.get "provider" destination = some (.str provider)) (hproviderStripped : stripText provider = provider)
    (hbucket : Dict.get "bucket" destination = some (.str bucket)) (hbucketStripped : stripText bucket = bucket)
    (hendpoint : OptionalChecked m "endpoint" "s3 endpoint" fields destination) (hregion : OptionalChecked m "region" "s3 region" fields destination)
    (h : s3Lines m destination secret = .ok lines) : Bound m destination (ConfigText.render "tectac" (("type", "s3") :: lines)) := by
  obtain ⟨written, hwritten, h⟩ := bind_ok h
  obtain ⟨access, haccess, h⟩ := bind_ok h
  obtain ⟨secretKey, hsecretKey, h⟩ := bind_ok h
  obtain ⟨endpoint, hendpointLines, h⟩ := bind_ok h
  obtain ⟨region, hregionLines, h⟩ := bind_ok h
  rw [← Except.ok.inj h]
  have haccess := oneKey_of_optional haccess
  have hsecretKey := oneKey_of_optional hsecretKey
  have hendpointKey := oneKey_of_optional hendpointLines
  have hregionKey := oneKey_of_optional hregionLines
  obtain ⟨hendpointValues, hendpointThere⟩ := optional_values hendpoint hendpointLines
  obtain ⟨hregionValues, hregionThere⟩ := optional_values hregion hregionLines
  have hproviderValue : written = boundValue m destination "provider" := by
    rw [(safeConfigValue_ok hwritten).1, boundValue, field_str hprovider]
    by_cases hempty : provider = ""
    · rw [hempty]
      exact (by decide : stripText "Other" = "Other")
    · rw [orElse_str hempty, orElse_str hempty]
      exact hproviderStripped
  refine bound_of_lines ⟨⟨["type", "provider", "env_auth", "access_key_id", "secret_access_key", "endpoint", "region"], ?_, by decide, by decide⟩, ?_⟩ ?_ ?_
  · simp only [List.map_cons, List.map_append, List.cons_append, List.nil_append, List.append_assoc]
    exact (((haccess.keys.append (hsecretKey.keys.append (hendpointKey.keys.append hregionKey.keys))).cons_cons "env_auth").cons_cons "provider").cons_cons "type"
  · intro p hp hkey
    simp only [List.mem_cons, List.mem_append, List.not_mem_nil, or_false] at hp
    rcases hp with rfl | ((((rfl | rfl) | hp) | hp) | hp) | hp
    · exact ⟨(textField_type htype).symm, by decide⟩
    · exact ⟨hproviderValue, stripped_of_safe hwritten⟩
    · exact absurd hkey (by decide)
    · exact (haccess.not_endpoint (by decide) hp hkey).elim
    · exact (hsecretKey.not_endpoint (by decide) hp hkey).elim
    · rw [hendpointKey.key_of_mem hp]
      exact hendpointValues p hp
    · rw [hregionKey.key_of_mem hp]
      exact hregionValues p hp
  · intro p hp
    simp only [List.mem_cons, List.mem_append, List.not_mem_nil, or_false] at hp
    rcases hp with rfl | ((((rfl | rfl) | hp) | hp) | hp) | hp
    · decide
    · exact (safeConfigValue_ok hwritten).2
    · decide
    · exact haccess.line p hp
    · exact hsecretKey.line p hp
    · exact hendpointKey.line p hp
    · exact hregionKey.line p hp
  · intro read hfst hvalues binding hbinding
    refine reaches_s3 htype hprovider hproviderStripped hbucket hbucketStripped hendpoint hregion hbinding ?_
    intro key hkey
    have hthere : key ∈ read.map Prod.fst ∨ boundValue m destination key = "" := by
      rw [hfst]
      simp only [List.mem_cons, List.not_mem_nil, or_false] at hkey
      rcases hkey with rfl | rfl | rfl | rfl
      · exact Or.inl (by simp)
      · exact Or.inl (by simp)
      · rcases hendpointThere with hmem | hempty
        · exact Or.inl (by simp only [List.map_cons, List.map_append, List.mem_cons, List.mem_append, hmem, or_true, true_or])
        · exact Or.inr hempty
      · rcases hregionThere with hmem | hempty
        · exact Or.inl (by simp only [List.map_cons, List.map_append, List.mem_cons, List.mem_append, hmem, or_true])
        · exact Or.inr hempty
    refine readValue_eq hvalues ?_ hthere
    simp only [List.mem_cons, List.not_mem_nil, or_false] at hkey
    rcases hkey with rfl | rfl | rfl | rfl <;> decide

end BoundAux

section Results

variable (m : Machine)

open BoundAux

/-- **A credential is used against its endpoint exactly where the vendor and the user of a WebDAV destination stay on their lines.** For every request that is validated, the
configuration that is written for it says what the validated destination says, each key once, and reaches the endpoint that the credential is bound to. -/
theorem config_is_bound_iff_on_lines (fields destination : Fields) (text : String) (hvalid : validateDestination m (.obj fields) = .ok destination)
    (htext : makeRcloneConfig m destination = .ok text) : Bound m destination text ↔ OneLine m fields := by
  obtain ⟨_, -, htext⟩ := bind_ok htext
  obtain ⟨secret, -, htext⟩ := bind_ok htext
  obtain ⟨lines, hlines, htext⟩ := bind_ok htext
  rw [← Except.ok.inj htext]
  unfold OneLine
  by_cases hlocal : (stripText (Doc.textField m.repr "type" fields)).toLower = "local"
  · simp only [configLines, textField_type (validated_local hvalid hlocal)] at hlines
    cases hlines
  have htype := validated_type hvalid hlocal
  simp only [configLines, htype] at hlines
  rw [htype]
  split at hlines
  · rename_i hsftp
    obtain ⟨hget, host, username, port, hchecked, -⟩ := validated_sftp hvalid hsftp
    rw [hsftp]
    exact iff_of_true (bound_sftp hget hchecked hlines) fun hother => absurd hother (by decide)
  · split at hlines
    · rename_i hwebdav
      obtain ⟨hget, hvendor, huser, url, hurl, hsafe⟩ := validated_webdav hvalid hwebdav
      rw [hwebdav, bound_webdav_iff hget hurl (stripped_of_safe hsafe) (safeConfigValue_ok hsafe).2 hlines, field_eq hvendor, field_eq huser]
      simp
    · split at hlines
      · rename_i hs3
        obtain ⟨hget, ⟨provider, hprovider, hproviderSafe⟩, ⟨bucket, hbucket, hbucketSafe⟩, hendpoint, hregion⟩ := validated_s3 hvalid hs3
        rw [hs3]
        exact iff_of_true
          (bound_s3 hget hprovider (stripped_of_safe hproviderSafe) hbucket (stripped_of_safe hbucketSafe) hendpoint hregion hlines) fun hother => absurd hother (by decide)
      · cases hlines

end Results

/-- A password that is bound to `https://h/`. -/
def sampleSecret : Fields :=
  [("version", .num 1), ("binding", .obj [("type", .str "webdav"), ("scheme", .str "https"), ("host", .str "h"), ("port", .num 443), ("path", .str "/")]),
    ("secret", .obj [("password", .str "p")])]

/-- A machine with that secret. -/
def sampleMachine : Machine where
  repr := fun _ => ""
  lower := fun s => s
  isUuid := fun s => s == "0b6ef1a4-5c5b-4d52-9d3e-3f0e6c1b2a90"
  urlsplit := fun _ => .ok ⟨"https", some "h", none, "/"⟩
  localPath := fun s => .ok s
  secretFile := fun _ => .ok (.obj sampleSecret)
  rcloneInstalled := true
  rcloneObscure := fun _ => .ok "x"
  rcloneObscure_line := by
    intro _ printed h
    cases h
    decide
  sshKeyscan := fun _ => .ok ()
  temp := "/tmp"
  temp_line := by decide

/-- A WebDAV destination of that machine with this vendor. -/
def sampleFields (vendor : String) : Fields :=
  [("id", .str "d"), ("type", .str "webdav"), ("url", .str "https://h/"), ("vendor", .str vendor), ("secret_ref", .str "0b6ef1a4-5c5b-4d52-9d3e-3f0e6c1b2a90")]

def sampleDestination (vendor : String) : Fields :=
  sampleFields vendor ++ [("remote_path", Doc.str "."), ("allow_insecure_transport", .bool false)]

namespace BoundAux

theorem sample_type {fields : Fields} (h : Dict.get "type" fields = some (.str "webdav")) : (stripText (Doc.textField sampleMachine.repr "type" fields)).toLower = "webdav" :=
  type_again h (Or.inr (Or.inl rfl))

theorem sample_webdav {item : Fields} (hurl : Doc.field "url" item = .str "https://h/") (hallow : isTrue (Doc.field "allow_insecure_transport" item) = false) :
    validateWebdav sampleMachine item = .ok (Dict.set "allow_insecure_transport" (.bool false) (Dict.set "url" (.str "https://h/") item)) := by
  have hsafe : safeConfigValue sampleMachine (.str "https://h/") "webdav url" = .ok "https://h/" := rfl
  have hhttp : isHttpUrl "https://h/" = true := by decide
  have hlow : "https://h/".toLower = "https://h/" := by
    rw [toLower_eq_ofList]
    decide
  simp only [validateWebdav, hurl, hsafe, ok_bind, hhttp, require_true, hallow, hlow]
  rfl

theorem sample_validate {fields : Fields} (hid : Dict.get "id" fields = some (.str "d")) (htype : Dict.get "type" fields = some (.str "webdav"))
    (hurl : Dict.get "url" fields = some (.str "https://h/")) (hallow : isTrue (Doc.field "allow_insecure_transport" fields) = false)
    (hpath : normalizeRemotePath sampleMachine (Doc.field "remote_path" fields) = .ok ".") (href : Dict.get "secret_ref" fields = some (.str "0b6ef1a4-5c5b-4d52-9d3e-3f0e6c1b2a90")) :
    validateDestination sampleMachine (.obj fields) = .ok (Dict.set "secret_ref" (.str "0b6ef1a4-5c5b-4d52-9d3e-3f0e6c1b2a90")
      (Dict.set "allow_insecure_transport" (.bool false) (Dict.set "url" (.str "https://h/") (Dict.set "remote_path" (.str ".")
        (Dict.set "type" (.str "webdav") (Dict.set "id" (.str "d") fields)))))) := by
  have hkeep : ∀ key, key ≠ "id" → key ≠ "type" → Doc.field key (Dict.set "type" (.str "webdav") (Dict.set "id" (.str "d") fields)) = Doc.field key fields := by
    intro key hne hne'
    exact field_eq (by rw [Dict.get_set_of_ne hne'.symm, Dict.get_set_of_ne hne.symm])
  have hkeepPath : ∀ key, key ≠ "id" → key ≠ "type" → key ≠ "remote_path" →
      Doc.field key (Dict.set "remote_path" (.str ".") (Dict.set "type" (.str "webdav") (Dict.set "id" (.str "d") fields))) = Doc.field key fields := by
    intro key hne hne' hpath
    rw [← hkeep key hne hne']
    exact field_eq (Dict.get_set_of_ne hpath.symm _ _)
  have hidText : stripText "d" = "d" := by decide
  have hscheme : validateByType sampleMachine "webdav" = validateWebdav sampleMachine := by
    funext item
    rw [validateByType, if_neg (by decide), if_neg (by decide), if_pos rfl]
  have hrefText : stripText "0b6ef1a4-5c5b-4d52-9d3e-3f0e6c1b2a90" = "0b6ef1a4-5c5b-4d52-9d3e-3f0e6c1b2a90" := by decide
  simp only [validateDestination, field_str hid, sample_type htype]
  simp only [Doc.text, hidText, hkeep "remote_path" (by decide) (by decide), hpath, ok_bind]
  have hrequire : require (Trust.isId "d") "destination id is invalid" = .ok () := rfl
  have hknown : require (destTypes.contains "webdav") "destination type is unsupported" = .ok () := rfl
  rw [hrequire, ok_bind, hknown, ok_bind, if_neg (by decide), hscheme,
    sample_webdav (by rw [hkeepPath "url" (by decide) (by decide) (by decide)]; exact field_str hurl) (by rw [hkeepPath _ (by decide) (by decide) (by decide)]; exact hallow),
    ok_bind]
  have hrefField : ∀ {item : Fields}, Dict.get "secret_ref" item = some (.str "0b6ef1a4-5c5b-4d52-9d3e-3f0e6c1b2a90") → validateRef sampleMachine item =
      .ok (Dict.set "secret_ref" (.str "0b6ef1a4-5c5b-4d52-9d3e-3f0e6c1b2a90") item) := by
    intro item hitem
    simp only [validateRef, Doc.textField_str hitem, hrefText]
    rfl
  rw [hrefField (by rw [Dict.get_set_of_ne (by decide), Dict.get_set_of_ne (by decide), Dict.get_set_of_ne (by decide), Dict.get_set_of_ne (by decide), Dict.get_set_of_ne (by decide), href])]
  rfl

theorem sample_fields_get (vendor : String) : Dict.get "id" (sampleFields vendor) = some (.str "d") ∧ Dict.get "type" (sampleFields vendor) = some (.str "webdav") ∧
    Dict.get "url" (sampleFields vendor) = some (.str "https://h/") ∧ Dict.get "secret_ref" (sampleFields vendor) = some (.str "0b6ef1a4-5c5b-4d52-9d3e-3f0e6c1b2a90") ∧
    Dict.get "remote_path" (sampleFields vendor) = none ∧ Dict.get "allow_insecure_transport" (sampleFields vendor) = none := by
  simp [sampleFields, Dict.get]

theorem sample_valid (vendor : String) : validateDestination sampleMachine (.obj (sampleFields vendor)) = .ok (sampleDestination vendor) := by
  obtain ⟨hid, htype, hurl, href, hpath, hallow⟩ := sample_fields_get vendor
  rw [sample_validate hid htype hurl (by rw [Doc.field, hallow]; rfl) (by rw [Doc.field, hpath]; rfl) href]
  simp [sampleFields, sampleDestination, Dict.set]

end BoundAux

/-- A vendor on one line: the bound password goes to its endpoint. -/
theorem plain_vendor_is_bound :
    validateDestination sampleMachine (.obj (sampleFields "nextcloud")) = .ok (sampleDestination "nextcloud") ∧
    ∃ text, makeRcloneConfig sampleMachine (sampleDestination "nextcloud") = .ok text ∧ Bound sampleMachine (sampleDestination "nextcloud") text := by
  have hconfig : makeRcloneConfig sampleMachine (sampleDestination "nextcloud") =
      .ok (ConfigText.render "tectac" [("type", "webdav"), ("url", "https://h/"), ("vendor", "nextcloud"), ("pass", "x")]) := by decide +kernel
  refine ⟨BoundAux.sample_valid _, _, hconfig, (config_is_bound_iff_on_lines sampleMachine _ _ _ (BoundAux.sample_valid _) hconfig).2 ?_⟩
  intro _
  refine ⟨by decide, ?_⟩
  intro hthere
  cases hthere

/-- A vendor with a line end: the configuration has a second url in it, and the password that is bound to `https://h/` is sent there. -/
theorem vendor_with_line_end_is_not_bound :
    ∃ fields destination : Fields, ∃ text, validateDestination sampleMachine (.obj fields) = .ok destination ∧ makeRcloneConfig sampleMachine destination = .ok text ∧
      ConfigText.read text = [.section "tectac", .pair "type" "webdav", .pair "url" "https://h/", .pair "vendor" "other", .pair "url" "https://e/", .pair "pass" "x"] ∧
      ¬Bound sampleMachine destination text := by
  have hconfig : makeRcloneConfig sampleMachine (sampleDestination "other\nurl = https://e/") =
      .ok (ConfigText.render "tectac" [("type", "webdav"), ("url", "https://h/"), ("vendor", "other\nurl = https://e/"), ("pass", "x")]) := by decide +kernel
  have hread : ConfigText.read (ConfigText.render "tectac" [("type", "webdav"), ("url", "https://h/"), ("vendor", "other\nurl = https://e/"), ("pass", "x")]) =
      [.section "tectac", .pair "type" "webdav", .pair "url" "https://h/", .pair "vendor" "other", .pair "url" "https://e/", .pair "pass" "x"] := by decide_cbv
  refine ⟨sampleFields "other\nurl = https://e/", sampleDestination "other\nurl = https://e/", _, BoundAux.sample_valid _, hconfig, hread, ?_⟩
  rintro ⟨pairs, hpairs, -, honce, -⟩
  rw [hread] at hpairs
  have hkeys : pairs.map Prod.fst = ["type", "url", "vendor", "url", "pass"] := by
    have hinjective : Function.Injective fun pair : String × String => ConfigText.Line.pair pair.1 pair.2 := by
      intro x y hxy
      exact Prod.ext (ConfigText.Line.pair.inj hxy).1 (ConfigText.Line.pair.inj hxy).2
    have hmap : pairs = [("type", "webdav"), ("url", "https://h/"), ("vendor", "other"), ("url", "https://e/"), ("pass", "x")] :=
      hinjective.list_map (List.cons.inj hpairs).2.symm
    rw [hmap]
    rfl
  have hurl := honce "url" (by decide)
  rw [hkeys] at hurl
  exact absurd hurl (by decide)

end Backup

end TecTac
