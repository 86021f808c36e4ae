import ClauseWeave.Text.Property

namespace ClauseWeave.Text

def isAlphabetic (c : Char) : Bool := inRanges alphabeticRanges c.toNat

def isMark (c : Char) : Bool := inRanges markRanges c.toNat

def isDecimal (c : Char) : Bool := inRanges decimalRanges c.toNat

def isNumeric (c : Char) : Bool := isDecimal c || inRanges otherNumberRanges c.toNat

def isConnector (c : Char) : Bool := inRanges connectorRanges c.toNat

def isJoiner (c : Char) : Bool := c == '\u200C' || c == '\u200D'

/-- The wide class, of attributes and markers. -/
def isWord (c : Char) : Bool :=
  isAlphabetic c || isMark c || isDecimal c || isConnector c || isJoiner c

/-- The narrow class, of slots and of the ends of a removed fragment. -/
def isNameChar (c : Char) : Bool := isAlphabetic c || isNumeric c || c == '_'

/-- Word characters of plain ASCII, the only ones in a placeholder. -/
def isAsciiWord (c : Char) : Bool := c.isAlphanum || c == '_'

end ClauseWeave.Text
