/-!
# Powers

The powers that doubles and decimals are made of.
-/

namespace ResourceAudit.Decimal

def twoTo (n : Nat) : Nat := Nat.pow 2 n

def tenTo (n : Nat) : Nat := Nat.pow 10 n

end ResourceAudit.Decimal
