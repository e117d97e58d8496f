import Mathlib.Algebra.GroupWithZero.Nat
import Mathlib.Data.Nat.Cast.Defs

/-!
# The numerals

Named instances of the conditions that numerals ask for, so that a numeral in a definition holds
a constant and no proof of its own.
-/

namespace Numerals

scoped instance neZero_two : NeZero 2 := ⟨by decide⟩

scoped instance neZero_three : NeZero 3 := ⟨by decide⟩

scoped instance neZero_four : NeZero 4 := ⟨by decide⟩

scoped instance atLeastTwo_two : Nat.AtLeastTwo 2 := ⟨by decide⟩

scoped instance atLeastTwo_four : Nat.AtLeastTwo 4 := ⟨by decide⟩

scoped instance atLeastTwo_five : Nat.AtLeastTwo 5 := ⟨by decide⟩

scoped instance atLeastTwo_hundred : Nat.AtLeastTwo 100 := ⟨by decide⟩

scoped instance atLeastTwo_halfTurn : Nat.AtLeastTwo 180 := ⟨by decide⟩

scoped instance atLeastTwo_thousand : Nat.AtLeastTwo 1000 := ⟨by decide⟩

scoped instance atLeastTwo_million : Nat.AtLeastTwo 1000000 := ⟨by decide⟩

end Numerals
