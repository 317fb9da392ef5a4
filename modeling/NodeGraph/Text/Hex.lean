/-!
# Hexadecimal digits

The digits of base sixteen: read in either case (`hexValue?`), written in lower case (`hexDigit`).
-/

namespace NodeGraph.Text

/-- The value of a hexadecimal digit, which may be a letter of either case. -/
def hexValue? (c : Char) : Option Nat :=
  if '0' ≤ c && c ≤ '9' then some (c.toNat - '0'.toNat)
  else if 'a' ≤ c && c ≤ 'f' then some (c.toNat - 'a'.toNat + 10)
  else if 'A' ≤ c && c ≤ 'F' then some (c.toNat - 'A'.toNat + 10)
  else none

/-- The lower-case hexadecimal digit of a number below sixteen. What it is beyond does not
matter. -/
def hexDigit (n : Nat) : Char :=
  if n < 10 then Char.ofNat ('0'.toNat + n) else Char.ofNat ('a'.toNat + (n - 10))

/-- What is written as a digit reads back. There are only sixteen of them, and all are tried. -/
theorem hexValue?_hexDigit {n : Nat} (h : n < 16) : hexValue? (hexDigit n) = some n := by
  have all : ∀ i : Fin 16, hexValue? (hexDigit i) = some i.val := by decide
  exact all ⟨n, h⟩

end NodeGraph.Text
