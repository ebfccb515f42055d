import Mathlib.Algebra.Group.Nat.Defs
import Mathlib.Data.List.Basic

/-!
# UUIDs and their text

A UUID is a 128-bit number.  `str(id)` is its canonical text, 32 lowercase hex
digits in groups of 8, 4, 4, 4 and 12, and it names the same row of a store or
entry of a dictionary as the number does.
-/

set_option autoImplicit false

@[ext] structure UUID where
  int : BitVec 128
deriving DecidableEq

def hexDigits : Nat → Nat → List Char
  | 0, _ => []
  | width + 1, value => hexDigits width (value / 16) ++ [Nat.digitChar (value % 16)]

namespace UUID

def grouped (digits : List Char) : List Char :=
  digits.take 8 ++ '-' :: ((digits.drop 8).take 4 ++ '-' :: ((digits.drop 12).take 4 ++
    '-' :: ((digits.drop 16).take 4 ++ '-' :: digits.drop 20)))

def str (id : UUID) : String := String.ofList (grouped (hexDigits 32 id.int.toNat))

/-- `id.hex`, the digits without the dashes. -/
def hex (id : UUID) : String := String.ofList (hexDigits 32 id.int.toNat)

end UUID

theorem hexDigits_length (width value : Nat) : (hexDigits width value).length = width := by
  induction width generalizing value with
  | zero => rfl
  | succ width ih => simp [hexDigits, ih]

theorem digitChar_injective {a b : Nat} (aBound : a < 16) (bBound : b < 16)
    (same : Nat.digitChar a = Nat.digitChar b) : a = b := by
  have table : ∀ x : Fin 16, ∀ y : Fin 16,
      Nat.digitChar x = Nat.digitChar y → x = y := by decide
  simpa using table ⟨a, aBound⟩ ⟨b, bBound⟩ same

theorem hexDigits_injective {width a b : Nat} (aBound : a < 16 ^ width)
    (bBound : b < 16 ^ width) (same : hexDigits width a = hexDigits width b) : a = b := by
  induction width generalizing a b with
  | zero => simp at aBound bBound; omega
  | succ width ih =>
      have parts := List.append_inj' same rfl
      have low : a % 16 = b % 16 :=
        digitChar_injective (Nat.mod_lt a (by omega)) (Nat.mod_lt b (by omega))
          (List.singleton_inj.mp parts.2)
      rw [Nat.pow_succ] at aBound bBound
      have high : a / 16 = b / 16 :=
        ih (Nat.div_lt_of_lt_mul (by omega)) (Nat.div_lt_of_lt_mul (by omega)) parts.1
      omega

namespace UUID

theorem grouped_injective {first second : List Char} (firstLength : first.length = 32)
    (secondLength : second.length = 32) (same : grouped first = grouped second) :
    first = second := by
  obtain ⟨head, rest⟩ := List.append_inj same (by simp [firstLength, secondLength])
  obtain ⟨low, rest⟩ := List.append_inj (List.cons.inj rest).2
    (by simp [firstLength, secondLength])
  obtain ⟨version, rest⟩ := List.append_inj (List.cons.inj rest).2
    (by simp [firstLength, secondLength])
  obtain ⟨clock, node⟩ := List.append_inj (List.cons.inj rest).2
    (by simp [firstLength, secondLength])
  have tail : ∀ (digits : List Char), digits = digits.take 8 ++ ((digits.drop 8).take 4 ++
      ((digits.drop 12).take 4 ++ ((digits.drop 16).take 4 ++ digits.drop 20))) := by
    intro digits
    rw [← List.drop_drop (i := 4) (j := 16), List.take_append_drop]
    rw [← List.drop_drop (i := 4) (j := 12), List.take_append_drop]
    rw [← List.drop_drop (i := 4) (j := 8), List.take_append_drop, List.take_append_drop]
  rw [tail first, tail second, head, low, version, clock, (List.cons.inj node).2]

theorem str_injective {first second : UUID} (same : first.str = second.str) :
    first = second := by
  have digits : hexDigits 32 first.int.toNat = hexDigits 32 second.int.toNat :=
    grouped_injective (hexDigits_length 32 _) (hexDigits_length 32 _)
      (String.ofList_injective same)
  have bound : ∀ id : UUID, id.int.toNat < 16 ^ 32 := fun id =>
    Nat.lt_of_lt_of_eq id.int.isLt (by decide)
  have number := hexDigits_injective (bound first) (bound second) digits
  exact UUID.ext (BitVec.eq_of_toNat_eq number)

theorem hex_injective {first second : UUID} (same : first.hex = second.hex) :
    first = second := by
  have bound : ∀ id : UUID, id.int.toNat < 16 ^ 32 := fun id =>
    Nat.lt_of_lt_of_eq id.int.isLt (by decide)
  have number := hexDigits_injective (bound first) (bound second) (String.ofList_injective same)
  exact UUID.ext (BitVec.eq_of_toNat_eq number)

-- `str` is only ever compared; its 36 characters are not computed in proofs
attribute [irreducible] str

end UUID
