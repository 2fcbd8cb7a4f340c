/-! White space at the ends of program texts, outputs and option values: the blanks of
Unicode's space separators, the line and paragraph separators, the ASCII controls from
tab to carriage return, and the byte order mark. -/
namespace ProgramGym.Text

def isBlank (c : Char) : Bool :=
  let n := c.toNat
  (9 ≤ n && n ≤ 13) || n == 0x20 || n == 0xA0 || n == 0x1680 || (0x2000 ≤ n && n ≤ 0x200A)
    || n == 0x2028 || n == 0x2029 || n == 0x202F || n == 0x205F || n == 0x3000 || n == 0xFEFF

def trimChars (cs : List Char) : List Char :=
  ((cs.dropWhile isBlank).reverse.dropWhile isBlank).reverse

/-- A string without the blanks at both ends. -/
def trimString (s : String) : String := String.ofList (trimChars s.toList)

end ProgramGym.Text
