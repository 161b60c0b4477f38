import SnapshotEndpoint.Text.Blank
import SnapshotEndpoint.Word

/-!
IP socket addresses: the texts that name one, and the one text written for each.
-/
namespace SnapshotEndpoint

inductive IpAddress where
  | v4 (a b c d : UInt8)
  | v6 (groups : List UInt16) (eight : groups.length = 8) (scope : UInt32)
  deriving DecidableEq, Repr

structure SocketAddress where
  ip : IpAddress
  port : UInt16
  deriving DecidableEq, Repr

namespace SocketAddress

abbrev Reader (α : Type) := List Char → Option (α × List Char)

def expectChar (c : Char) : List Char → Option (List Char)
  | d :: rest => if d = c then some rest else none
  | [] => none

/-- A decimal number below a limit; leading zeros are free. -/
def readDecimal (limit : Nat) : Reader Nat := fun cs =>
  let (digits, rest) := cs.span Char.isDigit
  if digits.isEmpty then none
  else
    let value := Text.decimalValue digits
    if value < limit then some (value, rest) else none

def readOctet : Reader UInt8 := fun cs =>
  let (digits, rest) := cs.span Char.isDigit
  if digits.isEmpty || 3 < digits.length || (digits.head? == some '0' && 1 < digits.length) then
    none
  else
    let value := Text.decimalValue digits
    if value < 256 then some (value.toUInt8, rest) else none

structure Octets where
  a : UInt8
  b : UInt8
  c : UInt8
  d : UInt8

def readOctets : Reader Octets := fun cs => do
  let (a, cs) ← readOctet cs
  let (b, cs) ← readOctet (← expectChar '.' cs)
  let (c, cs) ← readOctet (← expectChar '.' cs)
  let (d, cs) ← readOctet (← expectChar '.' cs)
  some (⟨a, b, c, d⟩, cs)

def isHexDigit (c : Char) : Bool := (Text.hexDigit? c).isSome

def hexValue (digits : List Char) : Nat :=
  digits.foldl (fun n c => 16 * n + (Text.hexDigit? c).getD 0) 0

def readGroup : Reader UInt16 := fun cs =>
  let (digits, rest) := cs.span isHexDigit
  if digits.isEmpty || 4 < digits.length then none else some ((hexValue digits).toUInt16, rest)

def pairGroup (high low : UInt8) : UInt16 := (high.toNat * 256 + low.toNat).toUInt16

structure GroupRun where
  groups : List UInt16
  /-- Whether the last two groups were written as four octets. -/
  endsInOctets : Bool
  rest : List Char

/-- As many groups as there are slots and the text gives. Two slots may be filled by four
    octets, which end the run. -/
def readGroups : Nat → Bool → List Char → GroupRun
  | 0, _, cs => ⟨[], false, cs⟩
  | slots + 1, first, cs =>
      match (if first then some cs else expectChar ':' cs) with
      | none => ⟨[], false, cs⟩
      | some body =>
          match (if slots = 0 then none else readOctets body) with
          | some (o, rest) => ⟨[pairGroup o.a o.b, pairGroup o.c o.d], true, rest⟩
          | none =>
              match readGroup body with
              | none => ⟨[], false, cs⟩
              | some (group, rest) =>
                  let run := readGroups slots false rest
                  ⟨group :: run.groups, run.endsInOctets, run.rest⟩

/-- Eight groups, or fewer around a `::` that stands for one group of zeros or more. -/
def readAllGroups : Reader (List UInt16) := fun cs =>
  let head := readGroups 8 true cs
  if head.groups.length = 8 then some (head.groups, head.rest)
  else if head.endsInOctets then none
  else do
    let rest ← expectChar ':' (← expectChar ':' head.rest)
    let tail := readGroups (7 - head.groups.length) true rest
    let gap := 8 - head.groups.length - tail.groups.length
    some (head.groups ++ List.replicate gap 0 ++ tail.groups, tail.rest)

def readPort : Reader UInt16 := fun cs => do
  let (port, cs) ← readDecimal 65536 (← expectChar ':' cs)
  some (port.toUInt16, cs)

def readV4 : Reader SocketAddress := fun cs => do
  let (o, cs) ← readOctets cs
  let (port, cs) ← readPort cs
  some (⟨.v4 o.a o.b o.c o.d, port⟩, cs)

/-- The scope after a percent sign; without one it is zero. -/
def readScope : Reader UInt32 := fun cs =>
  match expectChar '%' cs with
  | none => some (0, cs)
  | some rest => (readDecimal wordLimit32 rest).map fun (scope, rest) => (scope.toUInt32, rest)

def readV6 : Reader SocketAddress := fun cs => do
  let (groups, cs) ← readAllGroups (← expectChar '[' cs)
  let (scope, cs) ← readScope cs
  let cs ← expectChar ']' cs
  let (port, cs) ← readPort cs
  if h : groups.length = 8 then some (⟨.v6 groups h scope, port⟩, cs) else none

def parse? (s : String) : Option SocketAddress :=
  match (readV4 s.toList).or (readV6 s.toList) with
  | some (address, []) => some address
  | _ => none

def octetsText (a b c d : UInt8) : String :=
  toString a.toNat ++ "." ++ toString b.toNat ++ "." ++ toString c.toNat ++ "." ++ toString d.toNat

def groupsText (groups : List UInt16) : String :=
  Text.joinWith ":" (groups.map fun g => String.ofList (Text.hexDigits g.toNat))

structure ZeroRun where
  start : Nat
  length : Nat

/-- The first of the longest runs of zeros, given the run that ends here and the best one
    so far. -/
def longestZeros : List UInt16 → Nat → ZeroRun → ZeroRun → ZeroRun
  | [], _, _, best => best
  | g :: rest, index, current, best =>
      if g = 0 then
        let current := if current.length = 0 then ⟨index, 1⟩ else ⟨current.start, current.length + 1⟩
        longestZeros rest (index + 1) current (if best.length < current.length then current else best)
      else longestZeros rest (index + 1) ⟨0, 0⟩ best

/-- Groups with the longest run of at least two zeros written as `::`. -/
def compressedText (groups : List UInt16) : String :=
  let zeros := longestZeros groups 0 ⟨0, 0⟩ ⟨0, 0⟩
  if 1 < zeros.length then
    groupsText (groups.take zeros.start) ++ "::" ++
      groupsText (groups.drop (zeros.start + zeros.length))
  else groupsText groups

/-- The text of eight groups. Addresses of the form `::ffff:a.b.c.d` keep their octets. -/
def v6Text (groups : List UInt16) : String :=
  match groups with
  | [0, 0, 0, 0, 0, 0xffff, high, low] =>
      "::ffff:" ++ octetsText (high.toNat / 256).toUInt8 (high.toNat % 256).toUInt8
        (low.toNat / 256).toUInt8 (low.toNat % 256).toUInt8
  | _ => compressedText groups

def scopeText (scope : UInt32) : String :=
  if scope = 0 then "" else "%" ++ toString scope.toNat

def ipText : IpAddress → String
  | .v4 a b c d => octetsText a b c d
  | .v6 groups _ _ => v6Text groups

def hostText : IpAddress → String
  | .v4 a b c d => octetsText a b c d
  | .v6 groups _ scope => "[" ++ v6Text groups ++ scopeText scope ++ "]"

def text (address : SocketAddress) : String :=
  hostText address.ip ++ ":" ++ toString address.port.toNat

end SocketAddress
end SnapshotEndpoint
