import Mathlib.Order.Basic
import Mathlib.Data.List.Lex
import Mathlib.Tactic

namespace DltxtBridge

abbrev Bytes := List UInt8

abbrev Text := List UInt16

instance byteLinearOrder : LinearOrder UInt8 where
  le_refl a := UInt8.le_refl a
  le_trans a b c := UInt8.le_trans
  le_antisymm a b := UInt8.le_antisymm
  le_total a b := UInt8.le_total a b
  lt_iff_le_not_ge a b := by
    rw [UInt8.lt_iff_toNat_lt, UInt8.le_iff_toNat_le, UInt8.le_iff_toNat_le]
    omega
  toDecidableLE := inferInstance
  toDecidableLT := inferInstance
  toDecidableEq := inferInstance

def ascii (s : String) : Bytes := s.toList.map fun c => c.toNat.toUInt8

def toUInt32 (n : ℕ) : ℕ := n % 2 ^ 32

lemma toUInt32_of_lt {n : ℕ} (h : n < 2 ^ 32) : toUInt32 n = n := Nat.mod_eq_of_lt h

lemma toUInt32_succ (n : ℕ) : toUInt32 (toUInt32 n + 1) = toUInt32 (n + 1) := by
  simp [toUInt32, Nat.add_mod]

end DltxtBridge
