import Mathlib.Algebra.Order.Ring.Int
import Mathlib.Algebra.Order.Ring.Nat
import Mathlib.Data.List.Basic

/-! Byte strings, big-endian numbers and repeating-key masks. Nothing here
depends on a program: lengths are plain naturals and no width is assumed. -/
namespace WebsocketProto

abbrev Byte := UInt8
abbrev Bytes := List Byte

/-- By the bytes of the string, and not by all bytes there are. -/
instance (priority := 2000) decidableForallByte (p : Byte → Prop) [DecidablePred p] (s : Bytes) :
    Decidable (∀ c ∈ s, p c) :=
  List.decidableBAll p s

/-- The characters of an ASCII literal, one byte each. -/
def ascii (text : String) : Bytes := text.toList.map fun c => c.toNat.toUInt8

namespace Bytes

/-- The low `width` base-256 digits of a number, most significant first. -/
def bigEndian : Nat → Nat → Bytes
  | 0, _ => []
  | width + 1, n => bigEndian width (n / 256) ++ [n.toUInt8]

def ofBigEndian (bytes : Bytes) : Nat := bytes.foldl (fun n b => 256 * n + b.toNat) 0

@[simp] theorem bigEndian_length (width n : Nat) : (bigEndian width n).length = width := by
  induction width generalizing n with
  | zero => rfl
  | succ width ih => simp [bigEndian, ih]

theorem ofBigEndian_append (front : Bytes) (b : Byte) :
    ofBigEndian (front ++ [b]) = 256 * ofBigEndian front + b.toNat := by
  simp [ofBigEndian]

theorem ofBigEndian_bigEndian (width n : Nat) (fits : n < 256 ^ width) :
    ofBigEndian (bigEndian width n) = n := by
  induction width generalizing n with
  | zero => simp only [Nat.pow_zero] at fits; simp [bigEndian, ofBigEndian]; omega
  | succ width ih =>
    have high : n / 256 < 256 ^ width := by
      rw [Nat.pow_succ] at fits
      exact Nat.div_lt_of_lt_mul (by omega)
    rw [bigEndian, ofBigEndian_append, ih _ high]
    simp only [Nat.toUInt8, UInt8.toNat_ofNat']
    omega

/-- The byte that a repeating key puts over position `i`. -/
def keyAt (key : Bytes) (i : Nat) : Byte := key.getD (i % key.length) 0

/-- The payload under a repeating key; masking twice gives it back. -/
def mask (key payload : Bytes) : Bytes := payload.mapIdx fun i b => b ^^^ keyAt key i

@[simp] theorem mask_length (key payload : Bytes) : (mask key payload).length = payload.length := by
  simp [mask]

@[simp] theorem mask_nil (key : Bytes) : mask key [] = [] := rfl

@[simp] theorem mask_mask (key payload : Bytes) : mask key (mask key payload) = payload := by
  apply List.ext_getElem (by simp)
  intro i hi hi'
  simp only [mask, List.getElem_mapIdx]
  rw [UInt8.xor_assoc, UInt8.xor_self, UInt8.xor_zero]

end Bytes
end WebsocketProto
