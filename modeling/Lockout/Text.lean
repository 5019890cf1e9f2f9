/-!
# White space and lines

What counts as blank, and how a text falls into lines. Both are asked wherever a request is read or an answer
is written.
-/

namespace Lockout.Text

/-- The characters that Unicode counts as white space. -/
def isBlank (c : Char) : Bool :=
  let n := c.toNat
  (9 ≤ n && n ≤ 13) || n = 0x20 || n = 0x85 || n = 0xA0 || n = 0x1680 || (0x2000 ≤ n && n ≤ 0x200A) ||
    n = 0x2028 || n = 0x2029 || n = 0x202F || n = 0x205F || n = 0x3000

def trim (text : String) : String :=
  String.ofList ((text.toList.dropWhile isBlank).reverse.dropWhile isBlank).reverse

/-- A carriage return before a line end is part of the line end. -/
def withoutReturn (line : String) : String :=
  if line.toList.getLast? = some '\r' then String.ofList line.toList.dropLast else line

/-- A line end finishes a line, so that one at the end of the text opens no further line. -/
def lines (text : String) : List String :=
  let pieces := text.splitOn "\n"
  let rest := pieces.getLast?.toList.filter fun piece => !piece.isEmpty
  pieces.dropLast.map withoutReturn ++ rest

end Lockout.Text
