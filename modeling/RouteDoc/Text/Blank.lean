import RouteDoc.Text.Ranges

/-!
# Blank characters and line ends

The characters that separate words, and the reading of the three spellings of a line end as one.
-/

namespace RouteDoc.Text

/-- The code points of blank characters. -/
def blankRanges : Array (Nat × Nat) :=
  #[(0x9, 0xd), (0x1c, 0x20), (0x85, 0x85), (0xa0, 0xa0), (0x1680, 0x1680), (0x2000, 0x200a),
    (0x2028, 0x2029), (0x202f, 0x202f), (0x205f, 0x205f), (0x3000, 0x3000)]

/-- Is the character blank? -/
def isBlank (c : Char) : Bool := inRanges blankRanges c.toNat

/-- Is the character blank, and no line end? -/
def isInlineBlank (c : Char) : Bool := isBlank c && c != '\r' && c != '\n'

/-- A text with every line end written as a line feed. -/
def unixLines : List Char → List Char
  | [] => []
  | '\r' :: '\n' :: rest => '\n' :: unixLines rest
  | c :: rest => (if c = '\r' then '\n' else c) :: unixLines rest

/-- A text without blank characters at its end. -/
def trimEnd (cs : List Char) : List Char := (cs.reverse.dropWhile isBlank).reverse

end RouteDoc.Text
