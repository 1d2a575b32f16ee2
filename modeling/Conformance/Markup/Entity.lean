/-!
# Character references

Attribute values may hold references: the five named ones (`&lt;`, `&gt;`, `&amp;`,
`&apos;`, `&quot;`) and numeric ones, decimal (`&#80;`, at most seven digits) or hexadecimal
with a lowercase `x` (`&#x50;`, at most six digits). A numeric reference must name a nonzero
Unicode scalar value. An ampersand whose reference is not closed by a semicolon before the
next ampersand, or that names nothing known, makes the value unreadable.
-/

namespace Conformance.Markup

/-- The value of a decimal digit. -/
def decimalValue (c : Char) : Option Nat :=
  if '0' ≤ c ∧ c ≤ '9' then some (c.toNat - '0'.toNat) else none

/-- The value of a hexadecimal digit of either case. -/
def hexValue (c : Char) : Option Nat :=
  if '0' ≤ c ∧ c ≤ '9' then some (c.toNat - '0'.toNat)
  else if 'a' ≤ c ∧ c ≤ 'f' then some (c.toNat - 'a'.toNat + 10)
  else if 'A' ≤ c ∧ c ≤ 'F' then some (c.toNat - 'A'.toNat + 10)
  else none

/-- The number written by digits in a base, when every character is a digit. -/
def digitsValue (base : Nat) (digit : Char → Option Nat) (cs : List Char) : Option Nat :=
  cs.foldlM (fun n c => (digit c).map (fun d => n * base + d)) 0

/-- The code point of a numeric reference's body (what follows `#`). Digits are ASCII, so
counting characters limits the digits as counting octets would. -/
def numericCode (body : List Char) : Option Nat :=
  match body with
  | 'x' :: hex => if hex.length ≤ 6 then digitsValue 16 hexValue hex else none
  | dec => if dec.length ≤ 7 then digitsValue 10 decimalValue dec else none

/-- The character a numeric reference names: a nonzero Unicode scalar value. -/
def numericChar (body : List Char) : Option Char := do
  let n ← numericCode body
  if n ≠ 0 ∧ n.isValidChar then some (Char.ofNat n) else none

/-- The text a reference names, given what stands between `&` and `;`. -/
def resolve (name : List Char) : Option (List Char) :=
  match name with
  | ['l', 't'] => some ['<']
  | ['g', 't'] => some ['>']
  | ['a', 'm', 'p'] => some ['&']
  | ['a', 'p', 'o', 's'] => some ['\'']
  | ['q', 'u', 'o', 't'] => some ['"']
  | '#' :: body => (numericChar body).map (fun c => [c])
  | _ => none

/-- Replaces references, reading outside one (`none`) or inside one whose name so far is
kept reversed (`some`). -/
def unescapeFrom : Option (List Char) → List Char → Option (List Char)
  | none, [] => some []
  | none, '&' :: rest => unescapeFrom (some []) rest
  | none, c :: rest => (unescapeFrom none rest).map (c :: ·)
  | some _, [] => none
  | some _, '&' :: _ => none
  | some name, ';' :: rest => do
    let r ← resolve name.reverse
    let tail ← unescapeFrom none rest
    some (r ++ tail)
  | some name, c :: rest => unescapeFrom (some (c :: name)) rest

/-- An attribute value with its references replaced, or none when one is malformed. -/
def unescape (cs : List Char) : Option (List Char) := unescapeFrom none cs

example : unescape "P&amp;ss".toList = some "P&ss".toList := by decide
example : unescape "&#xD800;".toList = none := by decide
example : unescape "a;b&bogus;".toList = none := by decide

end Conformance.Markup
