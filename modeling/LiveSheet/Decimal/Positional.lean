import LiveSheet.Decimal.Shortest

namespace LiveSheet

/-!
# The text of a number

Numbers are always written positionally, without an exponent.  Both zeros are written `0`, and
values that are not finite have a mark of their own.
-/

/-- The positional text of a decimal: no zero before another whole digit and none at the end of the
    fraction. -/
def Decimal.positional (d : Decimal) : List Char :=
  let digits := d.digits
  let place := d.place
  if place ≤ 0 then '0' :: '.' :: (List.replicate (-place).toNat '0' ++ digits)
  else if digits.length ≤ place.toNat then
    digits ++ List.replicate (place.toNat - digits.length) '0'
  else digits.take place.toNat ++ '.' :: digits.drop place.toNat

/-- The characters of a number's text. -/
def Double.chars : Double → List Char
  | .nan => ['#', 'N', 'A', 'N', '!']
  | .infinite _ => ['#', 'I', 'N', 'F', '!']
  | .finite negative r =>
    if r.val = 0 then ['0']
    else (if negative then ['-'] else []) ++ (Double.shortest r.val).positional

/-- The text of a number. -/
def Double.text (x : Double) : String := String.ofList x.chars

end LiveSheet
