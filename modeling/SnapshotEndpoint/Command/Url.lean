import SnapshotEndpoint.Http.Uri
import SnapshotEndpoint.SocketAddress

/-!
Web addresses as a user writes them, and whether a request can be sent to one. Such a text
is read more freely than a request target: blanks around it and line breaks in it do not
count, slashes before the host may be backslashes or missing, and the host may be an IPv4
address of fewer parts or in other bases.
-/
namespace SnapshotEndpoint.Url

def isControlOrSpace (c : Char) : Bool := c.toNat ≤ 0x20

def isLineBreakOrTab (c : Char) : Bool := c == '\t' || c == '\n' || c == '\r'

/-- The characters that count. -/
def significant (s : String) : List Char :=
  (Text.dropWhileEnd isControlOrSpace (s.toList.dropWhile isControlOrSpace)).filter
    fun c => !isLineBreakOrTab c

def isSchemeChar (c : Char) : Bool := c.isAlphanum || c == '+' || c == '-' || c == '.'

/-- The scheme in lower case, and what stands behind its colon. -/
def readScheme (cs : List Char) : Option (String × List Char) :=
  let name := cs.takeWhile isSchemeChar
  match name, cs.drop name.length with
  | c :: _, ':' :: rest =>
      if c.isAlpha then some (String.ofList (name.map Char.toLower), rest) else none
  | _, _ => none

def webSchemes : List String := ["http", "https"]

def isSlash (c : Char) : Bool := c == '/' || c == '\\'

def endsAuthority (c : Char) : Bool := isSlash c || c == '?' || c == '#'

def afterUserInfo (authority : List Char) : List Char :=
  (authority.reverse.takeWhile (· != '@')).reverse

/-- A host and what stands behind it; a colon inside brackets belongs to the host. -/
def splitHost : Bool → List Char → List Char × List Char
  | _, [] => ([], [])
  | bracketed, c :: rest =>
      if c = ':' ∧ bracketed = false then ([], c :: rest)
      else
        let inside := if c = '[' then true else if c = ']' then false else bracketed
        let (host, behind) := splitHost inside rest
        (c :: host, behind)

/-- Nothing, or a colon and a port number that may be empty. -/
def isPortPart : List Char → Bool
  | [] => true
  | ':' :: digits => digits.all Char.isDigit && Text.decimalValue digits < 65536
  | _ => false

/-- Text as bytes, with escapes of two hexadecimal digits decoded. -/
def decodeEscapes : List Char → List UInt8
  | [] => []
  | '%' :: high :: low :: rest =>
      match Text.hexDigit? high, Text.hexDigit? low with
      | some h, some l => (16 * h + l).toUInt8 :: decodeEscapes rest
      | _, _ => '%'.toNat.toUInt8 :: decodeEscapes (high :: low :: rest)
  | c :: rest => (String.singleton c).toUTF8.toList ++ decodeEscapes rest

def decodedHost (host : List Char) : Option (List Char) :=
  (String.fromUTF8? ⟨(decodeEscapes host).toArray⟩).map String.toList

/-- Characters of a host name; what is beyond ASCII is written in ASCII later. -/
def isHostChar (c : Char) : Bool :=
  0x80 ≤ c.toNat ||
    (Uri.isAuthorityChar c && c != ':' && c != '@' && c != '[' && c != ']')

/-- The value of a part of an IPv4 address in decimal, octal or hexadecimal. -/
def readPart (part : List Char) : Option Nat :=
  let inBase (base : Nat) (digits : List Char) : Option Nat :=
    digits.foldlM (fun n c => (Text.hexDigit? c).bind fun d =>
      if d < base then some (base * n + d) else none) 0
  match part with
  | [] => none
  | '0' :: 'x' :: digits => inBase 16 digits
  | '0' :: 'X' :: digits => inBase 16 digits
  | '0' :: c :: digits => inBase 8 (c :: digits)
  | digits => inBase 10 digits

/-- The parts between points; an empty one at the end does not count. -/
def hostParts (host : List Char) : List (List Char) :=
  let parts := Text.splitAtChar '.' host
  if 1 < parts.length && parts.getLast? == some [] then parts.dropLast else parts

def endsInNumber (host : List Char) : Bool :=
  match (hostParts host).getLast? with
  | some last => (!last.isEmpty && last.all Char.isDigit) || (readPart last).isSome
  | none => false

/-- Up to four parts; the last one fills the bytes that the others leave. -/
def isIpv4 (host : List Char) : Bool :=
  match (hostParts host).mapM readPart with
  | none => false
  | some numbers =>
      let count := numbers.length
      decide (count ≤ 4) && numbers.dropLast.all (· < 256) &&
        (numbers.getLast?.getD 0) < Nat.pow 256 (5 - count)

def isIpv6 (groups : List Char) : Bool :=
  match SocketAddress.readAllGroups groups with
  | some (_, []) => true
  | _ => false

def isHost (host : List Char) : Bool :=
  match host with
  | '[' :: rest => rest.getLast? == some ']' && isIpv6 rest.dropLast
  | _ =>
      match decodedHost host with
      | none => false
      | some name =>
          !name.isEmpty && name.all isHostChar && (!endsInNumber name || isIpv4 name)

/-- Whether a request can be sent to an address: its scheme is one of the web's, and it has a
    host and perhaps a port. -/
def isWebAddress (s : String) : Bool :=
  match readScheme (significant s) with
  | none => false
  | some (scheme, rest) =>
      webSchemes.contains scheme &&
        let authority := (rest.dropWhile isSlash).takeWhile fun c => !endsAuthority c
        let (host, port) := splitHost false (afterUserInfo authority)
        !host.isEmpty && isHost host && isPortPart port

end SnapshotEndpoint.Url
