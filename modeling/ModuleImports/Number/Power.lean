/-!
# Number/Power — powers of two and of ten

Both scales of a number come from these: its bits count powers of two, its digits powers of ten.
-/

namespace ModuleImports

/-- `2 ^ n` -/
def twoTo (n : Nat) : Nat := Nat.pow 2 n

/-- `10 ^ n` -/
def tenTo (n : Nat) : Nat := Nat.pow 10 n

end ModuleImports
