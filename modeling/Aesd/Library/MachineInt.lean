import Mathlib.Algebra.Ring.Int.Defs
import Mathlib.Algebra.Ring.Nat
import Mathlib.Data.Int.DivMod
import Mathlib.Data.Int.Order.Basic
import Mathlib.Tactic.Common

/-!
# Conversions between the integer types of a 64-bit C target

The arithmetic of C code moves between `char`, `int`, `loff_t` and `size_t`.
Values of the signed types are kept as integers and values of `size_t` as
`UInt64`; this module has the conversions between them. The signedness of plain
`char` is left to the target, so it is a parameter everywhere.
-/

namespace MachineInt

/-- Whether plain `char` is signed on the target. -/
inductive CharSign where
  | signed
  | unsigned
  deriving DecidableEq, Repr

namespace CharSign

/-- The value of a `char` holding the given byte, after promotion to `int`. -/
def promote : CharSign → UInt8 → Int
  | .signed, byte => if byte.toNat < 128 then byte.toNat else byte.toNat - 256
  | .unsigned, byte => byte.toNat

/-- `CHAR_MAX`. -/
def max : CharSign → Nat
  | .signed => 127
  | .unsigned => 255

@[simp] theorem promote_zero (sign : CharSign) : sign.promote 0 = 0 := by
  cases sign <;> rfl

theorem promote_le_max (sign : CharSign) (byte : UInt8) :
    sign.promote byte ≤ sign.max := by
  have bound := byte.toNat_lt
  cases sign with
  | signed => simp only [promote, max]; split <;> omega
  | unsigned => simp only [promote, max]; omega

theorem max_le (sign : CharSign) : sign.max ≤ 255 := by
  cases sign <;> decide

theorem toNat_promote_le (sign : CharSign) (byte : UInt8) :
    (sign.promote byte).toNat ≤ byte.toNat := by
  cases sign with
  | signed => simp only [promote]; split <;> omega
  | unsigned => simp only [promote]; omega

theorem promote_of_nonneg (sign : CharSign) {byte : UInt8}
    (nonneg : 0 ≤ sign.promote byte) : sign.promote byte = byte.toNat := by
  have bound := byte.toNat_lt
  cases sign with
  | signed => simp only [promote] at nonneg ⊢; split <;> omega
  | unsigned => rfl

theorem neg_le_promote (sign : CharSign) (byte : UInt8) : -128 ≤ sign.promote byte := by
  have bound := byte.toNat_lt
  cases sign with
  | signed => simp only [promote]; split <;> omega
  | unsigned => simp only [promote]; omega

/-- Only a signed `char` is negative. -/
theorem max_of_promote_neg (sign : CharSign) {byte : UInt8} (negative : sign.promote byte < 0) :
    sign.max = 127 := by
  cases sign with
  | signed => rfl
  | unsigned => simp only [promote] at negative; omega

/-- A `char` and its promoted value agree modulo 256. -/
theorem promote_emod (sign : CharSign) (byte : UInt8) :
    sign.promote byte % 256 = byte.toNat := by
  have bound := byte.toNat_lt
  cases sign with
  | signed => simp only [promote]; split <;> omega
  | unsigned => simp only [promote]; omega

/-- Compound addition of an `int` to a `char` is addition modulo 256. -/
theorem promote_add_emod (sign : CharSign) (byte : UInt8) (amount : Nat) :
    sign.promote (byte + .ofNat amount) % 256 = (sign.promote byte + amount) % 256 := by
  have sum := sign.promote_emod (byte + .ofNat amount)
  have self := sign.promote_emod byte
  rw [UInt8.toNat_add, UInt8.toNat_ofNat'] at sum
  omega

/-- A sum that fits into a `char` is stored exactly. -/
theorem promote_add_of_le (sign : CharSign) (byte : UInt8) (amount : Nat)
    (nonneg : 0 ≤ sign.promote byte) (fits : sign.promote byte + amount ≤ sign.max) :
    sign.promote (byte + .ofNat amount) = sign.promote byte + amount := by
  have residue := sign.promote_add_emod byte amount
  have upper := sign.promote_le_max (byte + .ofNat amount)
  have lower := sign.neg_le_promote (byte + .ofNat amount)
  cases sign with
  | signed => simp only [max] at *; omega
  | unsigned =>
      have other : 0 ≤ promote .unsigned (byte + .ofNat amount) := Int.natCast_nonneg _
      simp only [max] at *
      omega

/-- A `char` that counts up exactly, as far as it is not negative, has stayed in
its range. -/
theorem fits_of_toNat_promote_add (sign : CharSign) (byte : UInt8) {amount : Nat}
    (pos : 0 < amount)
    (exact : (sign.promote (byte + .ofNat amount)).toNat = (sign.promote byte).toNat + amount) :
    0 ≤ sign.promote byte ∧ sign.promote byte + amount ≤ sign.max := by
  have residue := sign.promote_add_emod byte amount
  have lower := sign.neg_le_promote byte
  have upper := sign.promote_le_max (byte + .ofNat amount)
  have nonneg : 0 ≤ sign.promote byte := by omega
  exact ⟨nonneg, by omega⟩

end CharSign

/-- Conversion to `size_t`. -/
def toSizeT (value : Int) : UInt64 := .ofNat (value % 2 ^ 64).toNat

theorem toNat_toSizeT (value : Int) :
    ((toSizeT value).toNat : Int) = value % 2 ^ 64 := by
  have nonneg : 0 ≤ value % 2 ^ 64 := Int.emod_nonneg _ (by decide)
  have bound : value % 2 ^ 64 < 2 ^ 64 := Int.emod_lt_of_pos _ (by decide)
  rw [toSizeT, UInt64.toNat_ofNat', Nat.mod_eq_of_lt (by omega)]
  omega

/-- A value that fits is converted to itself. -/
theorem toNat_toSizeT_of_lt {value : Int} (nonneg : 0 ≤ value) (bound : value < 2 ^ 64) :
    ((toSizeT value).toNat : Int) = value := by
  rw [toNat_toSizeT]
  exact Int.emod_eq_of_lt nonneg bound

/-- Conversion to a 32-bit `int`, as the targets define it: the representative
of the value modulo `2 ^ 32` in the range of `int`. -/
def toInt32 (value : Int) : Int := Int.bmod value (2 ^ 32)

/-- The result of a computation in `int`; `none` is signed overflow, which is
undefined. -/
def checkInt32 (value : Int) : Option Int :=
  if -2 ^ 31 ≤ value ∧ value < 2 ^ 31 then some value else none

theorem checkInt32_of_bounds {value : Int} (lower : -2 ^ 31 ≤ value) (upper : value < 2 ^ 31) :
    checkInt32 value = some value := if_pos ⟨lower, upper⟩

theorem checkInt32_of_le {value : Int} (overflow : 2 ^ 31 ≤ value) : checkInt32 value = none :=
  if_neg fun inside => by omega

/-- The value is in the range of a 32-bit `int`. -/
def InInt32 (value : Int) : Prop := -2 ^ 31 ≤ value ∧ value < 2 ^ 31

theorem checkInt32_eq_some_iff (value : Int) : checkInt32 value = some value ↔ InInt32 value := by
  unfold checkInt32
  split
  next inside => exact iff_of_true rfl inside
  next outside => exact iff_of_false (by simp) outside

/-- Conversion of a `size_t` to a signed 64-bit type such as `loff_t` or
`ssize_t`. -/
def toSigned64 (value : UInt64) : Int := Int.bmod value.toNat (2 ^ 64)

theorem toInt32_emod (value : Int) : toInt32 value % 2 ^ 32 = value % 2 ^ 32 := by
  unfold toInt32
  exact_mod_cast Int.bmod_emod (x := value) (m := 2 ^ 32)

theorem toInt32_bounds (value : Int) : -2 ^ 31 ≤ toInt32 value ∧ toInt32 value < 2 ^ 31 := by
  unfold toInt32
  rw [Int.bmod_def]
  split <;> omega

/-- A value in the range of `int` is converted to itself. -/
theorem toInt32_of_bounds {value : Int} (lower : -2 ^ 31 ≤ value) (upper : value < 2 ^ 31) :
    toInt32 value = value := by
  have residue := toInt32_emod value
  have bounds := toInt32_bounds value
  omega

/-- Small `size_t` values keep their value as signed ones. -/
theorem toSigned64_of_lt {value : UInt64} (small : value.toNat < 2 ^ 63) :
    toSigned64 value = value.toNat := by
  unfold toSigned64
  rw [Int.bmod_def]
  split <;> omega

theorem toSigned64_lt (value : UInt64) : toSigned64 value < 2 ^ 63 := by
  unfold toSigned64
  rw [Int.bmod_def]
  split <;> omega

/-- From `2 ^ 63` on a `size_t` is negative as a signed value. -/
theorem toSigned64_neg_iff (value : UInt64) : toSigned64 value < 0 ↔ 2 ^ 63 ≤ value.toNat := by
  have bound := value.toNat_lt
  unfold toSigned64
  rw [Int.bmod_def]
  split <;> omega

theorem toSigned64_emod (value : UInt64) : toSigned64 value % 2 ^ 64 = value.toNat := by
  have bound := value.toNat_lt
  unfold toSigned64
  rw [Int.bmod_def]
  split <;> omega

end MachineInt
