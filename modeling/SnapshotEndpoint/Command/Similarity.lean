import SnapshotEndpoint.Binary64

/-!
How alike two words are, by the characters they share within a window and the pairs of
these that stand in another order; used to suggest what a mistyped word may have meant.
-/
namespace SnapshotEndpoint.Similarity

def window (a b : List Char) : Nat := max a.length b.length / 2 - 1

/-- A place of a word: its character, and whether it is taken as shared. -/
abbrev Place := Char × Bool

/-- The first free place within bounds that holds a character, marked as taken. -/
def takePlace (c : Char) (low high : Nat) : Nat → List Place → Option (List Place)
  | _, [] => none
  | index, place :: rest =>
      if low ≤ index && index < high && place.1 == c && !place.2 then some ((c, true) :: rest)
      else (takePlace c low high (index + 1) rest).map (place :: ·)

/-- The shared characters of the first word in order, and the places of the second. -/
def matchFrom (span : Nat) : Nat → List Char → List Place → List Char × List Place
  | _, [], places => ([], places)
  | index, c :: rest, places =>
      match takePlace c (index - span) (index + span + 1) 0 places with
      | some next =>
          let (shared, last) := matchFrom span (index + 1) rest next
          (c :: shared, last)
      | none => matchFrom span (index + 1) rest places

structure Shared where
  first : List Char
  second : List Char

def shared (a b : List Char) : Shared :=
  let (first, places) := matchFrom (window a b) 0 a (b.map fun c => (c, false))
  ⟨first, (places.filter (·.2)).map (·.1)⟩

def transpositions (s : Shared) : Nat :=
  ((s.first.zip s.second).countP fun p => p.1 != p.2) / 2

def quotient (m n : Nat) : Binary64 := Binary64.div (Binary64.ofNat m) (Binary64.ofNat n)

/-- The mean of the shared part of each word and the part of it in the same order. -/
def score (a b : String) : Binary64 :=
  let (x, y) := (a.toList, b.toList)
  if x.isEmpty && y.isEmpty then Binary64.one
  else
    let s := shared x y
    let m := s.first.length
    if m = 0 then Binary64.zero
    else
      Binary64.div
        (Binary64.add (Binary64.add (quotient m x.length) (quotient m y.length))
          (quotient (m - transpositions s) m))
        (Binary64.ofNat 3)

def threshold : Binary64 := quotient 7 10

/-- A scored word put behind those with at most its score. -/
def insertScored (entry : Binary64 × String) :
    List (Binary64 × String) → List (Binary64 × String)
  | [] => [entry]
  | e :: rest =>
      if Binary64.lt entry.1 e.1 then entry :: e :: rest else e :: insertScored entry rest

def alike (word : String) (candidates : List String) : List String :=
  let scored := candidates.map fun c => (score word c, c)
  let close := scored.filter fun e => Binary64.lt threshold e.1
  (close.foldl (fun sorted e => insertScored e sorted) []).map (·.2)

end SnapshotEndpoint.Similarity
