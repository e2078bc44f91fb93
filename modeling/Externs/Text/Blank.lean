/-!
# Blank characters

White space as the Unicode property `White_Space` has it, and trimming by it.
Information separators (`U+001C` to `U+001F`), the zero-width space and the
byte order mark are no white space, and stay.
-/

set_option autoImplicit false

namespace Externs.Text

/-- The characters of the Unicode property `White_Space`. -/
def isBlank (c : Char) : Bool :=
  let code := c.toNat
  (0x09 ≤ code && code ≤ 0x0D) || code == 0x20 || code == 0x85 || code == 0xA0 ||
    code == 0x1680 || (0x2000 ≤ code && code ≤ 0x200A) || code == 0x2028 || code == 0x2029 ||
    code == 0x202F || code == 0x205F || code == 0x3000

/-- Drops the blank characters a text starts with. -/
def trimStart (text : List Char) : List Char :=
  text.dropWhile isBlank

/-- Drops the blank characters a text ends with. -/
def trimEnd (text : List Char) : List Char :=
  (text.reverse.dropWhile isBlank).reverse

def trim (text : String) : String :=
  String.ofList (trimEnd (trimStart text.toList))

/-- Whether a text has nothing but blank characters. -/
def allBlank (text : String) : Bool :=
  text.toList.all isBlank

@[simp]
theorem trimStart_nil : trimStart [] = [] :=
  rfl

/-- Trimming the start only shortens a text. -/
theorem length_trimStart_le (text : List Char) : (trimStart text).length ≤ text.length :=
  (List.dropWhile_suffix isBlank).length_le

end Externs.Text
