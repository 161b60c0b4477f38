/-!
Request targets: what counts as one, its parts, and its text. A target is a path with an
optional query, an authority alone, a star, or an absolute address. Fragments are dropped.
Escapes are not decoded.
-/
namespace SnapshotEndpoint

structure Uri where
  scheme : Option String
  authority : Option String
  path : String
  query : Option String
  deriving DecidableEq, Repr

namespace Uri

def sizeLimit : Nat := 65534

/-- Characters that may stand in a path; all characters beyond ASCII may. -/
def isPathChar (c : Char) : Bool :=
  let n := c.toNat
  n == 0x21 || n == 0x22 || (0x24 ≤ n && n ≤ 0x3B) || n == 0x3D || (0x40 ≤ n && n ≤ 0x5F) ||
    (0x61 ≤ n && n != 0x60)

def isQueryChar (c : Char) : Bool :=
  let n := c.toNat
  n == 0x21 || (0x24 ≤ n && n ≤ 0x3B) || n == 0x3D || 0x3F ≤ n

def dropFragment (cs : List Char) : List Char := cs.takeWhile (· != '#')

/-- A path and its query, from a text that is nothing else. -/
structure PathAndQuery where
  path : String
  query : Option String

def PathAndQuery.ofChars (cs : List Char) : Option PathAndQuery :=
  let cs := dropFragment cs
  let path := cs.takeWhile (· != '?')
  let query := cs.dropWhile (· != '?')
  let shown := if path.isEmpty then "/" else String.ofList path
  match query with
  | [] => if path.all isPathChar then some ⟨shown, none⟩ else none
  | _ :: query =>
      if path.all isPathChar && query.all isQueryChar then
        some ⟨shown, some (String.ofList query)⟩
      else none

def isAuthorityChar (c : Char) : Bool :=
  c.isAlphanum || "!$&'()*+,-.:;=@[]_~".toList.contains c

def endsAuthority (c : Char) : Bool := c == '/' || c == '?' || c == '#'

structure AuthorityScan where
  colons : Nat
  opened : Bool
  closed : Bool
  percent : Bool
  endsInAt : Bool

def AuthorityScan.start : AuthorityScan := ⟨0, false, false, false, false⟩

/-- One more character. Brackets come once and in order; what stands before an at sign or
    inside the brackets does not count towards the port. -/
def AuthorityScan.step (s : AuthorityScan) (c : Char) : Option AuthorityScan :=
  let s := { s with endsInAt := false }
  if c = ':' then (if 8 ≤ s.colons then none else some { s with colons := s.colons + 1 })
  else if c = '[' then (if s.percent || s.opened then none else some { s with opened := true })
  else if c = ']' then
    if !s.opened || s.closed then none
    else some { s with closed := true, colons := 0, percent := false }
  else if c = '@' then some { s with colons := 0, percent := false, endsInAt := true }
  else if c = '%' then some { s with percent := true }
  else if isAuthorityChar c then some s
  else none

def AuthorityScan.complete (s : AuthorityScan) : Bool :=
  s.opened == s.closed && s.colons ≤ 1 && !s.endsInAt && !s.percent

def scanAuthority (s : AuthorityScan) : List Char → Option (List Char × List Char)
  | [] => if s.complete then some ([], []) else none
  | c :: rest =>
      if endsAuthority c then (if s.complete then some ([], c :: rest) else none)
      else do
        let (authority, after) ← scanAuthority (← s.step c) rest
        some (c :: authority, after)

def readAuthority (cs : List Char) : Option (List Char × List Char) :=
  scanAuthority AuthorityScan.start cs

def ofAuthority (cs : List Char) : Option Uri := do
  let (authority, rest) ← readAuthority cs
  if rest.isEmpty && !authority.isEmpty then
    some ⟨none, some (String.ofList authority), "", none⟩
  else none

def isSchemeChar (c : Char) : Bool := c.isAlphanum || c == '+' || c == '-' || c == '.' || c == '~'

def schemeLimit : Nat := 64

inductive SchemeReading where
  | absent
  | tooLong
  | found (scheme : String) (rest : List Char)

def lowered (cs : List Char) : List Char := cs.map Char.toLower

/-- A scheme at the start of a text. The two known ones are written in lower case. -/
def readScheme (cs : List Char) : SchemeReading :=
  if lowered (cs.take 7) = "http://".toList then .found "http" (cs.drop 7)
  else if lowered (cs.take 8) = "https://".toList then .found "https" (cs.drop 8)
  else
    let name := cs.takeWhile isSchemeChar
    match cs.drop name.length with
    | ':' :: '/' :: '/' :: rest =>
        if cs.length ≤ 3 then .absent
        else if schemeLimit < name.length then .tooLong
        else .found (String.ofList name) rest
    | _ => .absent

def ofAbsolute (scheme : String) (cs : List Char) : Option Uri := do
  let (authority, rest) ← readAuthority cs
  if authority.isEmpty then none
  else do
    let tail ← PathAndQuery.ofChars rest
    some ⟨some scheme, some (String.ofList authority), tail.path, tail.query⟩

def ofChars (cs : List Char) : Option Uri :=
  match cs with
  | [] => none
  | ['*'] => some ⟨none, none, "*", none⟩
  | [c] => if c = '/' then some ⟨none, none, "/", none⟩ else ofAuthority [c]
  | c :: rest =>
      if c = '/' then
        (PathAndQuery.ofChars (c :: rest)).map fun p => ⟨none, none, p.path, p.query⟩
      else
        match readScheme (c :: rest) with
        | .found scheme rest => ofAbsolute scheme rest
        | .tooLong => none
        | .absent => ofAuthority (c :: rest)

def parse? (s : String) : Option Uri :=
  if sizeLimit < s.utf8ByteSize then none else ofChars s.toList

def text (uri : Uri) : String :=
  let scheme := match uri.scheme with
    | some s => s ++ "://"
    | none => ""
  let query := match uri.query with
    | some q => "?" ++ q
    | none => ""
  scheme ++ uri.authority.getD "" ++ uri.path ++ query

end Uri

def isMethod (s : String) : Bool :=
  !s.isEmpty && s.toList.all fun c => c.isAlphanum || "!#$%&'*+-.^_|~`".toList.contains c

end SnapshotEndpoint
