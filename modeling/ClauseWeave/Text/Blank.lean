import ClauseWeave.Text.Property

namespace ClauseWeave.Text

def blankRanges : List (Nat × Nat) := [
  (0x09, 0x0D), (0x20, 0x20), (0x85, 0x85), (0xA0, 0xA0), (0x1680, 0x1680), (0x2000, 0x200A),
  (0x2028, 0x2029), (0x202F, 0x202F), (0x205F, 0x205F), (0x3000, 0x3000)]

/-- White space of every script; core's class holds only four of its members. -/
def isBlank (c : Char) : Bool := inRanges blankRanges c.toNat

def trimStart (s : List Char) : List Char := s.dropWhile isBlank

def trimEnd (s : List Char) : List Char := (s.reverse.dropWhile isBlank).reverse

def trim (s : List Char) : List Char := trimEnd (trimStart s)

def words (s : List Char) : List (List Char) := (s.splitOnP isBlank).filter (!·.isEmpty)

def collapse (s : List Char) : List Char := [' '].intercalate (words s)

def spaced (s : String) : String := String.ofList (collapse s.toList)

end ClauseWeave.Text
