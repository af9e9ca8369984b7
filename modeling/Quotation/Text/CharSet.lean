/-!
# Sets of characters

A set of characters is a list of ranges of code points, both ends included. The tables of character properties and the bracket expressions of globs are such sets.
-/

namespace Quotation

/-- Inclusive ranges of code points. -/
abbrev CharSet := List (Nat × Nat)

namespace CharSet

def has (set : CharSet) (c : Char) : Bool := set.any fun (low, high) => low ≤ c.toNat && c.toNat ≤ high

@[simp] theorem has_nil (c : Char) : has [] c = false := rfl

@[simp] theorem has_cons (low high : Nat) (set : CharSet) (c : Char) :
    has ((low, high) :: set) c = ((decide (low ≤ c.toNat) && decide (c.toNat ≤ high)) || has set c) := rfl

def single (c : Char) : CharSet := [(c.toNat, c.toNat)]

end CharSet

end Quotation
