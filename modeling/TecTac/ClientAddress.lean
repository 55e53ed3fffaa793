import TecTac.Lib.IpAddress
import TecTac.Lib.Text

/-!
# The address of a client

`effective_client_ip` of `session_security.py`: the peer, or behind trusted proxies the address that a forwarding header names. The networks are those that the policy keeps;
the checks at saving them are left out, so every set of networks stands here.
-/

namespace TecTac

namespace ClientAddress

/-- What the request carries, where a header may be missing. -/
structure ClientRequest where
  remoteAddr : Option String
  xForwardedFor : Option String
  forwarded : Option String
  xRealIp : Option String
  deriving DecidableEq

/-- `str(value or "")`. -/
def headerText (value : Option String) : List Char := (value.getD "").toList

/-- `strip('"')`. -/
def stripQuotes (s : List Char) : List Char := ((s.dropWhile (· == '"')).reverse.dropWhile (· == '"')).reverse

/-- The text without brackets around it or a port after it. -/
def hostOf (s : List Char) : List Char :=
  if s.head? = some '[' ∧ ']' ∈ s then s.tail.takeWhile (· != ']')
  else if s.count ':' = 1 ∧ '.' ∈ s then
    let port := (s.dropWhile (· != ':')).tail
    if port ≠ [] ∧ port.all isDigit = true then s.takeWhile (· != ':') else s
  else s

/-- `_ip`. -/
def ip (value : List Char) : Option IpAddress := if value = [] then none else IpAddress.ofText (hostOf (stripQuotes (strip value)))

/-- `_is_trusted`. -/
def isTrusted (networks : List IpNetwork) (a : IpAddress) : Bool := networks.any fun network => network.contains a

/-- The value of a `for` parameter. -/
def forParam (param : List Char) : Option (List Char) :=
  let param := strip param
  match param.dropWhile (· != '=') with
  | [] => none
  | _ :: value => if (param.takeWhile (· != '=')).map Char.toLower = ['f', 'o', 'r'] then some (stripQuotes (strip value)) else none

/-- The first `for` parameter of one part of a `Forwarded` header. -/
def forwardedFor (part : List Char) : Option (List Char) := (part.splitOn ';').findSome? forParam

/-- `_parse_forwarded_for`. -/
def parseForwardedFor (header : List Char) : List (List Char) := (header.splitOn ',').filterMap forwardedFor

/-- The addresses of the header that is used, as texts. -/
def chain (request : ClientRequest) : List (List Char) :=
  let xff := ((headerText request.xForwardedFor).splitOn ',').filterMap fun part => (ip (strip part)).map IpAddress.text
  let forwarded := (parseForwardedFor (headerText request.forwarded)).filterMap fun item => (ip item).map IpAddress.text
  let xreal := ip (headerText request.xRealIp)
  if xff ≠ [] then xff else if forwarded ≠ [] then forwarded else (xreal.map IpAddress.text).toList

/-- The walk from the proxy nearest to us. -/
def walk (networks : List IpNetwork) (current : IpAddress) : List (List Char) → IpAddress
  | [] => current
  | raw :: rest =>
    if isTrusted networks current then
      match ip raw with
      | none => current
      | some candidate => walk networks candidate rest
    else current

/-- `effective_client_ip`. -/
def effectiveClientIp (networks : List IpNetwork) (request : ClientRequest) : String :=
  match ip (headerText request.remoteAddr) with
  | none => ""
  | some peer =>
    if !isTrusted networks peer then String.ofList peer.text
    else if chain request = [] then String.ofList peer.text
    else String.ofList (walk networks peer (chain request).reverse).text

end ClientAddress

end TecTac
