/-!
# Digits

A digit has a value in a base if the value is below the base.  Beyond nine
the digits are the first letters, in either case.
-/

namespace PackedTopology.Text

def digitIn (base : Nat) (c : Char) : Option Nat :=
  let value :=
    if c.isDigit then c.toNat - '0'.toNat
    else if 'a' ≤ c ∧ c ≤ 'f' then c.toNat - 'a'.toNat + 10
    else if 'A' ≤ c ∧ c ≤ 'F' then c.toNat - 'A'.toNat + 10
    else base
  if value < base then some value else none

end PackedTopology.Text
