import Mathlib.Order.Basic
import VodogeEdge.Trim

/-!
# Text as the source's standard library sees it

`str::trim` strips the characters with the Unicode `White_Space`
property, so `value.trim().is_empty()` says that every character of the
string has it. Identifiers that must not be blank carry the proof.
-/

namespace VodogeEdge

/-- `char::is_whitespace`: the Unicode `White_Space` property. -/
def isWhitespace (c : Char) : Bool :=
  let n := c.toNat
  (0x9 ≤ n && n ≤ 0xd) || n == 0x20 || n == 0x85 || n == 0xa0 || n == 0x1680
    || (0x2000 ≤ n && n ≤ 0x200a) || n == 0x2028 || n == 0x2029 || n == 0x202f
    || n == 0x205f || n == 0x3000

def trimIsEmpty (value : String) : Bool := value.toList.all isWhitespace

def trim (value : String) : String :=
  String.ofList (trimBy isWhitespace value.toList)

/-- `str::split_once`: before and after the first separator. -/
def splitOnce (separator : Char) (value : String) : Option (String × String) :=
  match value.toList.span (· ≠ separator) with
  | (before, _ :: after) => some (String.ofList before, String.ofList after)
  | (_, []) => none

def hexPadded (width n : Nat) : String :=
  let digits := Nat.toDigits 16 n
  String.ofList (List.replicate (width - digits.length) '0' ++ digits)

/-- A string with at least one character that is not white space. -/
structure NonBlank where
  val : String
  not_blank : trimIsEmpty val = false
deriving DecidableEq

namespace NonBlank

theorem ext_val {a b : NonBlank} (h : a.val = b.val) : a = b := by
  cases a; cases b; cases h; rfl

/-- The derived order of a newtype around `String`. -/
instance : Ord NonBlank := ⟨fun a b => compare a.val b.val⟩

instance : Std.TransOrd NonBlank where
  eq_swap := Std.OrientedOrd.eq_swap (α := String)
  isLE_trans := Std.TransOrd.isLE_trans (α := String)

instance : Std.LawfulEqOrd NonBlank where
  compare_self := Std.ReflOrd.compare_self (α := String)
  eq_of_compare h := ext_val (Std.LawfulEqOrd.eq_of_compare (α := String) h)

end NonBlank

end VodogeEdge
