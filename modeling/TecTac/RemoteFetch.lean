import TecTac.Lib.AddressClass
import TecTac.Lib.Raise
import TecTac.Lib.Text

/-!
# Fetching from a repository

`_resolve_remote_url`, `_fetch` and `_fetch_authorized` of `module_repository.py`. Who answers is not to be trusted: the name server may give other addresses at every resolution, and the
servers any status and any redirect target. A run of a fetch is the list of its hops, each with the addresses it was resolved to and the requests that were sent.
-/

namespace TecTac

namespace RemoteFetch

/-! ## The world -/

/-- What `urlparse` reads of a text; `port` is what reading the port answers or raises, and `target` is the path with its parameters and query. -/
structure ParsedUrl where
  scheme : String
  netloc : String
  hostname : Option String
  port : Option (Option Nat)
  username : Option String
  password : Option String
  target : String

/-- Where a connection goes: to the address itself, through a tunnel that a proxy opens to it, or by a proxy that asks it. -/
inductive Connection where
  | direct (host : List Char) (port : Nat)
  | tunnel (proxyHost : String) (proxyPort : Nat) (host : List Char) (port : Nat)
  | relayed (proxyHost : String) (proxyPort : Nat) (host : List Char) (port : Nat)

/-- A request for a URL; the token of a bearer is among its end-to-end headers. -/
structure Request where
  url : String
  connection : Connection
  hostHeader : String
  target : String
  bearer : Option String

/-- How a request ends: with an error of the network, with another exception, or with an answer. -/
inductive Attempt where
  | network
  | raises (text : String)
  | answer (status : Int) (location : Option String) (body : String)

/-- The language and everything outside; what is asked at a hop is asked with its number. -/
structure World where
  urlparse : String → Option ParsedUrl
  urljoin : String → String → Option String
  getaddrinfo : Nat → String → Nat → Option (List (List Char))
  proxyBypass : Nat → String → Bool
  proxies : Nat → String → String
  exchange : Nat → Request → Attempt

/-- The members of `TRUST_LEVELS`. -/
inductive Trust where
  | official
  | internal
  | custom
  deriving DecidableEq

inductive Failure where
  | repository (text : String)
  | addressRefused (text : String)
  | http (text : String) (status : Int)
  /-- An exception of the language or of a request. -/
  | other (text : String)
  deriving DecidableEq

/-! ## The guard -/

/-- `_always_blocked_address`. -/
def alwaysBlocked (address : IpAddress) : Bool :=
  let address := address.unmapped
  address.isLoopback || address.isLinkLocal || address.isMulticast || address.isReserved || address.isUnspecified

/-- `_private_address`. -/
def privateAddress (address : IpAddress) : Bool :=
  let address := address.unmapped
  address.isPrivate || address.isShared

/-- `_validated_port`. -/
def validatedPort (parsed : ParsedUrl) (label : String) : Except Failure (Option Nat) :=
  match parsed.port with
  | none => .error (.repository (label ++ " contains an invalid port."))
  | some none => .ok none
  | some (some port) => if 1 ≤ port ∧ port ≤ 65535 then .ok (some port) else .error (.repository (label ++ " contains an invalid port."))

def parse (w : World) (url : String) : Except Failure ParsedUrl :=
  match w.urlparse url with
  | none => .error (.other "ValueError")
  | some parsed => .ok parsed

def given (value : Option String) : Bool := value.getD "" != ""

/-- `_clean_url`, with what was read of the text. -/
def cleanUrl (w : World) (value : String) : Except Failure (String × ParsedUrl) := do
  let url := stripText value
  let parsed ← parse w url
  Raise.require ((parsed.scheme == "http" || parsed.scheme == "https") && parsed.netloc != "" && given parsed.hostname)
    (.repository "Repository URL must be an absolute http:// or https:// URL.")
  let _ ← validatedPort parsed "Repository URL"
  Raise.require (!(given parsed.username || given parsed.password)) (.repository "Credentials must not be embedded in repository URLs.")
  return (url, parsed)

def rstripDots (s : List Char) : List Char := (s.reverse.dropWhile (· == '.')).reverse

/-- The host that is looked up. -/
def hostName (parsed : ParsedUrl) : List Char := rstripDots (strip (parsed.hostname.getD "").toList)

def portOf (parsed : ParsedUrl) (port : Option Nat) : Nat := port.getD (if parsed.scheme = "https" then 443 else 80)

/-- `row[4][0].split("%", 1)[0]`, as an address. -/
def rowAddress (row : List Char) : Option IpAddress := (IpAddress.ofText (row.takeWhile (· != '%'))).map IpAddress.unmapped

/-- The addresses of a host: the one that it writes, or those that the name server gives. -/
def lookUp (w : World) (hop : Nat) (host : List Char) (port : Nat) : Except Failure (List IpAddress) :=
  match IpAddress.ofText host with
  | some address => .ok [address.unmapped]
  | none =>
    match (w.getaddrinfo hop (String.ofList host) port).bind fun rows => rows.mapM rowAddress with
    | none => .error (.repository "Repository hostname could not be resolved.")
    | some addresses => .ok addresses.dedup

def version : IpAddress → Nat
  | .v4 _ => 4
  | .v6 _ _ => 6

/-- The order of `(value.version, str(value))`. -/
def keyLe (a b : IpAddress) : Bool :=
  decide (version a < version b) || version a == version b && !List.lex b.text a.text fun c d => decide (c < d)

/-- `_resolve_remote_url`. -/
def resolveRemoteUrl (w : World) (hop : Nat) (value : String) (trust : Trust) : Except Failure (String × ParsedUrl × List IpAddress) := do
  let (url, parsed) ← cleanUrl w value
  let host := hostName parsed
  Raise.require (!(host.isEmpty || (String.ofList host).toLower == "localhost")) (.addressRefused "Repository URL resolves to a prohibited local address.")
  let port ← validatedPort parsed "Repository URL"
  let addresses ← lookUp w hop host (portOf parsed port)
  Raise.require (!addresses.isEmpty) (.repository "Repository hostname did not resolve to an address.")
  Raise.require (!addresses.any alwaysBlocked) (.addressRefused "Repository URL resolves to a prohibited local, link-local, or reserved address.")
  Raise.require (trust == .internal || !addresses.any privateAddress) (.addressRefused ("Repository URL resolves to a private or carrier-grade NAT address. " ++
    "Mark an administrator-controlled LAN repository as trust=internal to permit private addressing."))
  return (url, parsed, addresses.mergeSort keyLe)

/-! ## Requests -/

/-- `_proxy_url_for`, as what is read of the proxy's URL. -/
def proxyUrlFor (w : World) (hop : Nat) (parsed : ParsedUrl) : Except Failure (Option ParsedUrl) :=
  let host := parsed.hostname.getD ""
  let proxy := stripText (w.proxies hop parsed.scheme)
  if host = "" ∨ w.proxyBypass hop host ∨ proxy = "" then .ok none
  else do
    let proxyParsed ← parse w (if "://".toList <:+: proxy.toList then proxy else "http://" ++ proxy)
    Raise.require (proxyParsed.scheme == "http" && given proxyParsed.hostname) (.repository "Repository proxy must be an absolute http:// proxy URL.")
    let _ ← validatedPort proxyParsed "Repository proxy URL"
    return some proxyParsed

/-- `_authority`. -/
def authority (host : String) (port : Nat) (scheme : String) : String :=
  let rendered := if ':' ∈ host.toList ∧ host.toList.head? ≠ some '[' then "[" ++ host ++ "]" else host
  if port = (if scheme = "https" then 443 else 80) then rendered else rendered ++ ":" ++ toString port

/-- The address as a proxy is asked for it. -/
def pinnedHost : IpAddress → List Char
  | .v4 octets => (IpAddress.v4 octets).text
  | .v6 hextets zone => '[' :: (IpAddress.v6 hextets zone).text ++ [']']

def urlPort (parsed : ParsedUrl) : Nat := portOf parsed (parsed.port.getD none)

/-- The request of `_pinned_get`. -/
def pinnedGet (url : String) (parsed : ParsedUrl) (bearer : Option String) (address : IpAddress) : Request where
  url := url
  connection := .direct address.text (urlPort parsed)
  hostHeader := authority (parsed.hostname.getD "") (urlPort parsed) parsed.scheme
  target := parsed.target
  bearer := bearer

/-- The request of `_pinned_proxy_get`. -/
def pinnedProxyGet (url : String) (parsed proxy : ParsedUrl) (bearer : Option String) (address : IpAddress) : Request where
  url := url
  connection :=
    let proxyHost := proxy.hostname.getD ""
    let proxyPort := (proxy.port.getD none).getD 80
    if parsed.scheme = "https" then .tunnel proxyHost proxyPort (pinnedHost address) (urlPort parsed)
    else .relayed proxyHost proxyPort (pinnedHost address) (urlPort parsed)
  hostHeader := authority (parsed.hostname.getD "") (urlPort parsed) parsed.scheme
  target := parsed.target
  bearer := bearer

def requestFor (url : String) (parsed : ParsedUrl) (proxy : Option ParsedUrl) (bearer : Option String) (address : IpAddress) : Request :=
  match proxy with
  | none => pinnedGet url parsed bearer address
  | some proxy => pinnedProxyGet url parsed proxy bearer address

/-- What is left of the loop over the addresses: `result` is still `None`, or an exception ended it, or there is an answer. -/
inductive Tried where
  | unanswered
  | raised (text : String)
  | answered (status : Int) (location : Option String) (body : String)

/-- The loop over the addresses, with the requests that it sends. -/
def tryAddresses (w : World) (hop : Nat) (make : IpAddress → Request) : List IpAddress → List Request × Tried
  | [] => ([], .unanswered)
  | address :: rest =>
    match w.exchange hop (make address) with
    | .network =>
      let (requests, tried) := tryAddresses w hop make rest
      (make address :: requests, tried)
    | .raises text => ([make address], .raised text)
    | .answer status location body => ([make address], .answered status location body)

/-! ## Hops -/

/-- A hop that was requested: its URL, the addresses of its resolution, and the requests. -/
structure Hop where
  url : String
  addresses : List IpAddress
  requests : List Request

structure Fetched where
  hops : List Hop
  result : Except Failure String

def Fetched.stop (failure : Failure) : Fetched := ⟨[], .error failure⟩

def Fetched.after (hop : Hop) (rest : Fetched) : Fetched := ⟨hop :: rest.hops, rest.result⟩

def isRedirect (status : Int) : Bool := [301, 302, 303, 307, 308].contains status

def tooMany : Failure := .repository "Repository request exceeded the redirect limit."

/-- The loop of `_fetch` from a turn on, with so many turns left. -/
def fetchFrom (w : World) (trust : Trust) (current : String) (redirectCount : Nat) : Nat → Fetched
  | 0 => .stop tooMany
  | left + 1 =>
    match resolveRemoteUrl w redirectCount current trust with
    | .error failure => .stop failure
    | .ok (url, parsed, addresses) =>
      match proxyUrlFor w redirectCount parsed with
      | .error failure => .stop failure
      | .ok proxy =>
        let (requests, tried) := tryAddresses w redirectCount (requestFor url parsed proxy none) addresses
        let hop : Hop := ⟨url, addresses, requests⟩
        match tried with
        | .unanswered => .after hop (.stop (.repository "Repository request failed due to a network or TLS error."))
        | .raised text => .after hop (.stop (.other text))
        | .answered status location body =>
          if isRedirect status then
            if !given location then .after hop (.stop (.repository ("Repository request returned HTTP " ++ toString status ++ " without a redirect target.")))
            else if 5 ≤ redirectCount then .after hop (.stop tooMany)
            else
              match w.urljoin url (location.getD "") with
              | none => .after hop (.stop (.other "ValueError"))
              | some next => .after hop (fetchFrom w trust next (redirectCount + 1) left)
          else if status < 200 ∨ 300 ≤ status then .after hop (.stop (.http ("Repository request returned HTTP " ++ toString status ++ ".") status))
          else .after hop ⟨[], .ok body⟩

/-- `_fetch`. -/
def fetch (w : World) (url : String) (trust : Trust) : Fetched := fetchFrom w trust url 0 6

/-- `_fetch_authorized`. -/
def fetchAuthorized (w : World) (url : String) (bearer : String) : Fetched :=
  match resolveRemoteUrl w 0 url .official with
  | .error failure => .stop failure
  | .ok (safeUrl, parsed, addresses) =>
    if parsed.scheme ≠ "https" then .stop (.repository "Licensed downloads are only fetched over https.")
    else
      match proxyUrlFor w 0 parsed with
      | .error failure => .stop failure
      | .ok proxy =>
        let (requests, tried) := tryAddresses w 0 (requestFor safeUrl parsed proxy (some bearer)) addresses
        let hop : Hop := ⟨safeUrl, addresses, requests⟩
        match tried with
        | .unanswered => .after hop (.stop (.repository "The Licensing Server could not be reached (network or TLS error)."))
        | .raised text => .after hop (.stop (.other text))
        | .answered status _ body =>
          if 300 ≤ status ∧ status < 400 then
            .after hop (.stop (.http "The Licensing Server answered with a redirect. Core does not follow redirects for licensed downloads." status))
          else if status < 200 ∨ 300 ≤ status then .after hop (.stop (.http ("The Licensing Server answered HTTP " ++ toString status ++ ".") status))
          else .after hop ⟨[], .ok body⟩

end RemoteFetch

end TecTac
