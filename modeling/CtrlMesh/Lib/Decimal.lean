import Mathlib.Data.Int.Init
import Mathlib.Tactic.Common

/-!
# Decimal numerals

The digits of an integer with a sign if it is negative. This is how an integer is formatted and how
it is written in JSON.
-/

namespace CtrlMesh.Lib

/-- The decimal text of an integer. -/
def decimal (n : Int) : List Char :=
  if 0 ≤ n then Nat.toDigits 10 n.toNat else '-' :: Nat.toDigits 10 (-n).toNat

/-- The digits determine the number. -/
theorem toDigits_injective {m n : Nat} (same : Nat.toDigits 10 m = Nat.toDigits 10 n) : m = n := by
  rw [← @Nat.ofDigitChars_ten_toDigits m, same, Nat.ofDigitChars_ten_toDigits]

/-- The digits of a natural number do not start with a minus sign. -/
theorem toDigits_ne_minus {n : Nat} {rest : List Char} : Nat.toDigits 10 n ≠ '-' :: rest := by
  intro same
  have digit : '-' ∈ Nat.toDigits 10 n := same ▸ List.mem_cons_self
  have isDigit := Nat.isDigit_of_mem_toDigits (by decide) (by decide) digit
  revert isDigit
  decide

/-- The text determines the integer. -/
theorem decimal_injective : Function.Injective decimal := by
  intro m n same
  unfold decimal at same
  split at same
  · split at same
    · have magnitude := toDigits_injective same
      omega
    · exact absurd same toDigits_ne_minus
  · split at same
    · exact absurd same.symm toDigits_ne_minus
    · have magnitude := toDigits_injective (List.cons.inj same).2
      omega

/-- The text is never empty. -/
theorem decimal_ne_nil {n : Int} : decimal n ≠ [] := by
  unfold decimal
  split
  · exact Nat.toDigits_ne_nil
  · exact List.cons_ne_nil _ _

/-- The text has digits and a sign only. -/
theorem mem_decimal {n : Int} {ch : Char} (member : ch ∈ decimal n) :
    ch.isDigit = true ∨ ch = '-' := by
  unfold decimal at member
  split at member
  · exact .inl (Nat.isDigit_of_mem_toDigits (by decide) (by decide) member)
  · rcases List.mem_cons.mp member with sign | digit
    · exact .inr sign
    · exact .inl (Nat.isDigit_of_mem_toDigits (by decide) (by decide) digit)

/-- `toString` writes this text. -/
theorem toString_eq_decimal (n : Int) : toString n = String.ofList (decimal n) := by
  have isRepr : toString n = n.repr := rfl
  rw [isRepr, Int.repr_eq_if]
  unfold decimal
  split
  · exact Nat.repr_eq_ofList_toDigits
  · rw [Nat.repr_eq_ofList_toDigits, ← String.toList_inj]
    simp

end CtrlMesh.Lib
