import SwapFloor.Url.Domain
import SwapFloor.Url.Ip
import SwapFloor.Url.Percent

/-!
# Absolute URLs

Which texts are absolute URLs. A scheme decides what follows it: the schemes of the web always
have a host, files may have one, and any other scheme has one only behind two slashes. A host of
the web is an address or a domain; that of another scheme may be almost anything.

Blanks and controls around a text, and tabs and line ends within, do not count.
-/

namespace SwapFloor.Url

/-- What kinds of schemes there are. -/
inductive Scheme where
  | web
  | file
  | other
  deriving DecidableEq

/-- The kind of a scheme in lower case. -/
def Scheme.ofName (s : String) : Scheme :=
  if ["http", "https", "ws", "wss", "ftp"].contains s then .web
  else if s = "file" then .file
  else .other

/-- A slash or a backslash. -/
def isSlash (c : Char) : Bool := c == '/' || c == '\\'

/-- The end of the part with the host; schemes of the web take a backslash for a slash. -/
def endsHost (scheme : Scheme) (c : Char) : Bool :=
  c == '/' || c == '?' || c == '#' || (c == '\\' && scheme != .other)

/-- A control or a space. -/
def isOuterBlank (c : Char) : Bool := c ≤ ' '

/-- The characters that count. -/
def meaningful (s : String) : List Char :=
  let inner := ((s.toList.dropWhile isOuterBlank).reverse.dropWhile isOuterBlank).reverse
  inner.filter fun c => c != '\t' && c != '\n' && c != '\r'

/-- A character of a scheme behind its first letter. -/
def isSchemeChar (c : Char) : Bool := c.isAlphanum || c == '+' || c == '-' || c == '.'

/-- The scheme, and what comes behind its colon. -/
def splitScheme? (cs : List Char) : Option (Scheme × List Char) :=
  let name := cs.takeWhile isSchemeChar
  match name, cs.drop name.length with
  | c :: _, ':' :: rest =>
    if c.isAlpha then some (.ofName (String.ofList (name.map Char.toLower)), rest) else none
  | _, _ => none

/-! ## Hosts -/

/-- The text between square brackets, none without them. -/
def bracketed? (cs : List Char) : Option (List Char) :=
  if cs.head? = some '[' then some cs.tail else none

/-- An IPv6 address with its closing bracket. -/
def isClosedAddress (cs : List Char) : Bool :=
  cs.getLast? == some ']' && Ipv6.isValid cs.dropLast

def isWebHost (cs : List Char) : Bool :=
  match bracketed? cs with
  | some inner => isClosedAddress inner
  | none =>
    match (Percent.text? (String.ofList cs)).bind Domain.normal? with
    | none => false
    | some domain => !domain.isEmpty && (!Ipv4.isNumeric domain || Ipv4.isValid domain)

def isHostless (c : Char) : Bool := c == '\x00' || " #/:<>?@[\\]^|".toList.contains c

/-- A host of any scheme. -/
def isOtherHost (cs : List Char) : Bool :=
  match bracketed? cs with
  | some inner => isClosedAddress inner
  | none => !cs.any isHostless

/-- The host in front of a port, whose colon stands outside square brackets. -/
def hostPart (inside : Bool) : List Char → List Char
  | [] => []
  | c :: rest =>
    if c = ':' ∧ inside = false then []
    else c :: hostPart (if c = '[' then true else if c = ']' then false else inside) rest

/-- A port behind its colon: up to 65535, or nothing. -/
def isPort (cs : List Char) : Bool :=
  let digits := cs.takeWhile Text.isDigit
  let rest := cs.drop digits.length
  (digits.isEmpty || (Text.ofDigits? digits).getD 0 < 65536)
    && (rest.isEmpty || rest.head? == some '\\')

/-- A host with an optional port. Without a host there is no port, and the web needs a host, as
do credentials. -/
def isHostPort (scheme : Scheme) (credentials : Bool) (cs : List Char) : Bool :=
  let host := hostPart false cs
  let port := cs.drop host.length
  if host.isEmpty then port.isEmpty && scheme == .other && !credentials
  else
    (if scheme = .other then isOtherHost host else isWebHost host)
      && (port.isEmpty || isPort port.tail)

/-- What stands behind two slashes, up to the end. -/
def isAuthority (scheme : Scheme) (cs : List Char) : Bool :=
  let all := cs.takeWhile fun c => !endsHost scheme c
  let hostPort := (all.reverse.takeWhile (· != '@')).reverse
  if hostPort.length = all.length then isHostPort scheme false hostPort
  else
    let user := all.take (all.length - hostPort.length - 1)
    if user.isEmpty ∧ hostPort.isEmpty ∧ all.length < cs.length then false
    else isHostPort scheme (!user.isEmpty && user != [':']) hostPort

/-- The letter of a drive, which is no host. -/
def isDrive : List Char → Bool
  | [c, d] => c.isAlpha && (d == ':' || d == '|')
  | _ => false

/-- What stands behind the two slashes of a file, up to the end. -/
def isFileHost (cs : List Char) : Bool :=
  let host := cs.takeWhile fun c => !endsHost .file c
  host.isEmpty || isDrive host || isWebHost host

/-- An absolute URL. -/
def isValid (s : String) : Bool :=
  match splitScheme? (meaningful s) with
  | none => false
  | some (.web, rest) => isAuthority .web (rest.dropWhile isSlash)
  | some (.file, a :: b :: rest) => !(isSlash a && isSlash b) || isFileHost rest
  | some (.other, '/' :: '/' :: rest) => isAuthority .other rest
  | some _ => true

end SwapFloor.Url
