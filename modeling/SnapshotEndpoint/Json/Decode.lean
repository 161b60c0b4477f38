import SnapshotEndpoint.Json
import SnapshotEndpoint.Json.Tree
import SnapshotEndpoint.Text.Quoted

/-!
Values read out of the tree of a text, from left to right: the first misfit or fault on
the way is the answer. A `Shape` says what the value must look like. A record may stand as
an object, in any order and with members the record does not have, or as the array of its
fields.
-/
namespace SnapshotEndpoint.Json

inductive Found where
  | null
  | bool (value : Bool)
  | number (value : Number)
  | string (value : String)
  | sequence
  | map
  deriving DecidableEq, Repr

def Found.text : Found → String
  | null => "null"
  | bool b => "boolean `" ++ (if b then "true" else "false") ++ "`"
  | number (.integer n) => "integer `" ++ toString n ++ "`"
  | number (.float x) => "floating point `" ++ String.ofList (floatText x) ++ "`"
  | string s => "string " ++ Text.quoted s
  | sequence => "sequence"
  | map => "map"

inductive Misfit where
  | wrongType (found : Found) (expected : String)
  | outOfRange (value : Int) (expected : String)
  | wrongLength (found : Nat) (record : String) (fields : Nat)
  | missing (field : String)
  | duplicate (field : String)
  deriving DecidableEq, Repr

def Misfit.message : Misfit → String
  | wrongType found expected => "invalid type: " ++ found.text ++ ", expected " ++ expected
  | outOfRange n expected => "invalid value: integer `" ++ toString n ++ "`, expected " ++ expected
  | wrongLength found record fields =>
      "invalid length " ++ toString found ++ ", expected struct " ++ record ++ " with " ++
        toString fields ++ (if fields = 1 then " element" else " elements")
  | missing field => "missing field `" ++ field ++ "`"
  | duplicate field => "duplicate field `" ++ field ++ "`"

inductive Failure where
  | fault (fault : Fault)
  | misfit (misfit : Misfit)
  deriving DecidableEq, Repr

/-- A value of the type or the fault that stands in its place. -/
def orFault {α : Type} : Except Fault α → Except Failure α
  | .ok value => .ok value
  | .error fault => .error (.fault fault)

def joinSurrogates (lead trail : Nat) : Char :=
  Char.ofNat (0x10000 + (lead - 0xD800) * 0x400 + (trail - 0xDC00))

/-- The characters of a string token. A leading surrogate must be followed by a trailing
    one; if the token breaks off behind it, that fault is the answer. -/
def pieceChars (fault : Option Fault) : List Piece → Except Fault (List Char)
  | [] => match fault with
      | none => .ok []
      | some f => .error f
  | .char c :: rest => (pieceChars fault rest).map (c :: ·)
  | .code lead :: rest =>
      if 0xD800 ≤ lead ∧ lead < 0xDC00 then
        match rest with
        | .code trail :: rest =>
            if 0xDC00 ≤ trail ∧ trail < 0xE000 then
              (pieceChars fault rest).map (joinSurrogates lead trail :: ·)
            else .error .malformed
        | [] => .error (fault.getD .malformed)
        | _ => .error .malformed
      else if 0xDC00 ≤ lead ∧ lead < 0xE000 then .error .malformed
      else (pieceChars fault rest).map (Char.ofNat lead :: ·)

def Quoted.text (token : Quoted) : Except Fault String :=
  (pieceChars token.fault token.pieces).map String.ofList

def ArrayEnd.check : ArrayEnd → Except Fault Unit
  | closed => .ok ()
  | openComma => .error .early
  | broken fault => .error fault

/-- The end of an array that has given every field of a record. -/
def ArrayEnd.checkFull : ArrayEnd → Except Fault Unit
  | closed => .ok ()
  | openComma => .error .malformed
  | broken fault => .error fault

def ObjectEnd.check : ObjectEnd → Except Fault Unit
  | closed => .ok ()
  | broken fault => .error fault

mutual

/-- Passing over a value nobody asks for. Its strings may hold lone surrogates and its
    numbers may be out of range. -/
def ignore : Tree → Except Fault Unit
  | .null => .ok ()
  | .bool _ => .ok ()
  | .number _ => .ok ()
  | .brokenNumber _ => .error .malformed
  | .string token => match token.fault with
      | none => .ok ()
      | some fault => .error fault
  | .array items ending => do ignoreItems items; ending.check
  | .object members ending => do ignoreMembers members; ending.check
  | .broken fault => .error fault

def ignoreItems : List Tree → Except Fault Unit
  | [] => .ok ()
  | item :: rest => do ignore item; ignoreItems rest

def ignoreMembers : List (Quoted × Tree) → Except Fault Unit
  | [] => .ok ()
  | (key, value) :: rest =>
      match key.fault with
      | some fault => .error fault
      | none => do ignore value; ignoreMembers rest

end

inductive Shape where
  | text
  | flag
  /-- Whole numbers below a limit, under the name used in messages. -/
  | count (limit : Nat) (name : String)
  | list (item : Shape)
  | map (value : Shape)
  | record (name : String) (fields : List (String × Shape))

def Shape.expectation : Shape → String
  | text => "a string"
  | flag => "a boolean"
  | count _ name => name
  | list _ => "a sequence"
  | map _ => "a map"
  | record name _ => "struct " ++ name

def wrongType {α : Type} (shape : Shape) (found : Found) : Except Failure α :=
  .error (.misfit (.wrongType found shape.expectation))

def readNumberAs (shape : Shape) (value : Number) : Except Failure Json :=
  match shape, value with
  | .count limit name, .integer n =>
      if 0 ≤ n ∧ n < limit then .ok (.integer n)
      else .error (.misfit (.outOfRange n name))
  | _, value => wrongType shape (.number value)

def readStringAs (shape : Shape) (s : String) : Except Failure Json :=
  match shape with
  | .text => .ok (.string s)
  | _ => wrongType shape (.string s)

def readBoolAs (shape : Shape) (b : Bool) : Except Failure Json :=
  match shape with
  | .flag => .ok (.bool b)
  | _ => wrongType shape (.bool b)

/-- The fields found, in the order of the record; the first one not found is missing. -/
def collectFields (fields : List (String × Shape)) (found : List (String × Json)) :
    Except Failure (List (String × Json)) :=
  fields.mapM fun field =>
    match found.lookup field.1 with
    | some value => .ok (field.1, value)
    | none => .error (.misfit (.missing field.1))

mutual

def readAs (shape : Shape) : Tree → Except Failure Json
  | .null => wrongType shape .null
  | .bool b => readBoolAs shape b
  | .number none => .error (.fault .malformed)
  | .number (some value) => readNumberAs shape value
  | .brokenNumber fault => .error (.fault fault)
  | .string token => do readStringAs shape (← orFault token.text)
  | .array items ending =>
      match shape with
      | .list item => do
          let values ← readItemsAs item items
          orFault ending.check
          .ok (.array values)
      | .record name fields => do
          let values ← readFieldsAs name fields.length fields 0 ending items
          .ok (.object values)
      | _ => wrongType shape .sequence
  | .object members ending =>
      match shape with
      | .map value => do
          let entries ← readEntriesAs value [] members
          orFault ending.check
          .ok (.object entries)
      | .record _ fields => do
          let found ← readMembersAs fields [] members
          orFault ending.check
          .ok (.object (← collectFields fields found))
      | _ => wrongType shape .map
  | .broken fault => .error (.fault fault)

def readItemsAs (shape : Shape) : List Tree → Except Failure (List Json)
  | [] => .ok []
  | item :: rest => do
      let value ← readAs shape item
      let values ← readItemsAs shape rest
      .ok (value :: values)

/-- The fields of a record from an array of exactly that length. -/
def readFieldsAs (name : String) (total : Nat) (fields : List (String × Shape)) (taken : Nat)
    (ending : ArrayEnd) : List Tree → Except Failure (List (String × Json))
  | [] =>
      match fields with
      | [] => do orFault ending.checkFull; .ok []
      | _ :: _ => do
          orFault ending.check
          .error (.misfit (.wrongLength taken name total))
  | item :: rest =>
      match fields with
      | [] => .error (.fault .malformed)
      | (field, shape) :: fields => do
          let value ← readAs shape item
          let values ← readFieldsAs name total fields (taken + 1) ending rest
          .ok ((field, value) :: values)

/-- The entries of a map in order of their keys; the last value of a key stays. -/
def readEntriesAs (shape : Shape) (entries : List (String × Json)) :
    List (Quoted × Tree) → Except Failure (List (String × Json))
  | [] => .ok entries
  | (key, tree) :: rest => do
      let key ← orFault key.text
      let value ← readAs shape tree
      readEntriesAs shape (insertEntry key value entries) rest

def readMembersAs (fields : List (String × Shape)) (found : List (String × Json)) :
    List (Quoted × Tree) → Except Failure (List (String × Json))
  | [] => .ok found
  | (key, tree) :: rest => do
      let key ← orFault key.text
      match fields.lookup key with
      | none => do
          orFault (ignore tree)
          readMembersAs fields found rest
      | some shape =>
          if (found.lookup key).isSome then .error (.misfit (.duplicate key))
          else do
            let value ← readAs shape tree
            readMembersAs fields (found ++ [(key, value)]) rest

end

/-- How many arrays and objects may stand inside each other. -/
def depthLimit : Nat := 127

mutual

/-- Any value, with objects sorted by key; `room` counts the nesting still allowed. -/
def readAny (room : Nat) : Tree → Except Fault Json
  | .null => .ok .null
  | .bool b => .ok (.bool b)
  | .number none => .error .malformed
  | .number (some (.integer n)) => .ok (.integer n)
  | .number (some (.float x)) => .ok (.float x)
  | .brokenNumber fault => .error fault
  | .string token => token.text.map .string
  | .array items ending =>
      if room = 0 then .error .malformed
      else do
        let values ← readAnyItems (room - 1) items
        ending.check
        .ok (.array values)
  | .object members ending =>
      if room = 0 then .error .malformed
      else do
        let entries ← readAnyMembers (room - 1) [] members
        ending.check
        .ok (.object entries)
  | .broken fault => .error fault

def readAnyItems (room : Nat) : List Tree → Except Fault (List Json)
  | [] => .ok []
  | item :: rest => do
      let value ← readAny room item
      let values ← readAnyItems room rest
      .ok (value :: values)

def readAnyMembers (room : Nat) (entries : List (String × Json)) :
    List (Quoted × Tree) → Except Fault (List (String × Json))
  | [] => .ok entries
  | (key, tree) :: rest => do
      let key ← key.text
      let value ← readAny room tree
      readAnyMembers room (insertEntry key value entries) rest

end

def Document.finish {α : Type} (document : Document) (value : α) : Except Fault α :=
  match document.fault with
  | none => .ok value
  | some fault => .error fault

def decodeAs (shape : Shape) (s : String) : Except Failure Json := do
  let document := Document.ofText s
  let value ← readAs shape document.tree
  orFault (document.finish value)

def parse (s : String) : Except Fault Json := do
  let document := Document.ofText s
  let value ← readAny depthLimit document.tree
  document.finish value

end SnapshotEndpoint.Json
