/-! # Powers with whole exponents

A power with a negative exponent is a fraction. `twoTo e` and `twoTo (-e)` are the numerator and
the denominator of two to the exponent `e`, one of them being one; likewise for ten.
-/

namespace IsoScene

/-- Two to an exponent; one if the exponent is negative. -/
def twoTo (exponent : Int) : Nat := Nat.pow 2 exponent.toNat

/-- Ten to an exponent; one if the exponent is negative. -/
def tenTo (exponent : Int) : Nat := Nat.pow 10 exponent.toNat

theorem twoTo_pos (exponent : Int) : 0 < twoTo exponent := Nat.pow_pos (by decide)

theorem tenTo_pos (exponent : Int) : 0 < tenTo exponent := Nat.pow_pos (by decide)

end IsoScene
