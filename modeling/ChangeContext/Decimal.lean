/-!
# Decimal numerals

A numeral with a fraction or an exponent is kept as it stands: its sign, its digits without the
point, and the power of ten that puts the point back.  Data formats that promise no more than double
precision refuse numerals too large for it, and that is the one question asked here.
-/

set_option autoImplicit false

namespace ChangeContext

/-- The number `digits · 10 ^ exponent`, with its sign. -/
structure Decimal where
  negative : Bool
  digits : Nat
  exponent : Int
deriving DecidableEq, Inhabited

namespace Decimal

/-- The least magnitude that double precision rounds to infinity. -/
def tooLarge : Nat := Nat.pow 2 1024 - Nat.pow 2 970

/-- The number lies beyond double precision.  Numerals far from the bound are decided by their
length, so that no power of ten larger than the bound is ever formed. -/
def overflows (d : Decimal) : Bool :=
  if d.digits = 0 then false
  else
    let length : Int := (Nat.toDigits 10 d.digits).length
    if length + d.exponent > 310 then true
    else if length + d.exponent < 308 then false
    else if d.exponent ≥ 0 then tooLarge ≤ d.digits * Nat.pow 10 d.exponent.toNat
    else tooLarge * Nat.pow 10 (-d.exponent).toNat ≤ d.digits

end Decimal

end ChangeContext
