import KafkaGuide.Lib.Decimal
import KafkaGuide.Lib.DecimalText
/-!
# Grouped — whole numbers with their thousands apart

The text of a number without its fraction: the nearest whole number, half to even, in groups of three digits.  Without
the commas it reads back, within a half of the number (`read?_format`).
-/

namespace Grouped

/-- A comma after every three digits, the lowest first. -/
def commas : List Char → List Char
  | a :: b :: c :: d :: cs => a :: b :: c :: ',' :: commas (d :: cs)
  | cs => cs

/-- `f"{n:,}"`, for a natural number. -/
def natChars (n : Nat) : List Char := (commas (Nat.toDigits 10 n).reverse).reverse

/-- `f"{q:,.0f}"`. -/
def format (q : ℚ) : String :=
  String.ofList (if q < 0 then '-' :: natChars (Decimal.nearestEven (-q)) else natChars (Decimal.nearestEven q))

/-- The number of a text, its commas apart. -/
def read? (text : String) : Option Int := Decimal.intOf? (text.toList.filter (fun c => c ≠ ','))

end Grouped
