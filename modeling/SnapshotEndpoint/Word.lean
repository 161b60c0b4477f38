/-!
The ranges of machine words.
-/
namespace SnapshotEndpoint

def wordLimit32 : Nat := 4294967296

def wordLimit : Nat := 18446744073709551616

/-- Negative signed words of 64 bits go down to minus this. -/
def signedLimit : Nat := 9223372036854775808

abbrev FitsSigned (n : Int) : Prop := -(signedLimit : Int) ≤ n ∧ n < signedLimit

end SnapshotEndpoint
