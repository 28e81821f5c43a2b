import Mathlib.Data.List.Basic

/-!
# Strings as Python handles them

The string methods that the code calls.  A string is the list of its code points, as a
Python string is.
-/

namespace SiliconOffice
namespace Python

/-- `char.isspace()`. -/
def isWhitespace (char : Char) : Bool :=
  let code := char.toNat
  (9 ≤ code && code ≤ 13) || (28 ≤ code && code ≤ 32) || code == 133 || code == 160 ||
    code == 5760 || (8192 ≤ code && code ≤ 8202) || code == 8232 || code == 8233 ||
    code == 8239 || code == 8287 || code == 12288

/-- `text.strip()`. -/
def strip (text : String) : String :=
  String.ofList (((text.toList.dropWhile isWhitespace).reverse.dropWhile isWhitespace).reverse)

/-- `text[:length]`. -/
def upTo (length : Nat) (text : String) : String :=
  String.ofList (text.toList.take length)

/-- `text.replace(old, new)` for single characters. -/
def replaceChar (old new : Char) (text : String) : String :=
  String.ofList (text.toList.map fun char => if char = old then new else char)

theorem length_upTo_le (length : Nat) (text : String) : (upTo length text).length ≤ length := by
  unfold upTo
  rw [String.length_ofList]
  exact List.length_take_le ..

end Python
end SiliconOffice
