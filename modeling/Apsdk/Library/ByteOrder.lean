import Mathlib.Data.Nat.Basic
import Mathlib.Tactic.Ring

/-! Fixed-width numbers as byte strings, least or most significant byte first. -/

namespace Library

abbrev Bytes := List UInt8

def leValue : Bytes → Nat
  | [] => 0
  | byte :: rest => byte.toNat + 256 * leValue rest

/-- The `width` low bytes of a number. -/
def leBytes : Nat → Nat → Bytes
  | 0, _ => []
  | width + 1, value => UInt8.ofNat value :: leBytes width (value / 256)

def beValue (bytes : Bytes) : Nat := leValue bytes.reverse

def beBytes (width value : Nat) : Bytes := (leBytes width value).reverse

@[simp] theorem length_leBytes (width value : Nat) : (leBytes width value).length = width := by
  induction width generalizing value with
  | zero => rfl
  | succ width ih => simp only [leBytes, List.length_cons, ih]

@[simp] theorem length_beBytes (width value : Nat) : (beBytes width value).length = width := by
  simp only [beBytes, List.length_reverse, length_leBytes]

theorem leValue_lt (bytes : Bytes) : leValue bytes < 256 ^ bytes.length := by
  induction bytes with
  | nil => exact Nat.one_pos
  | cons byte rest ih =>
    have small := byte.toNat_lt
    simp only [leValue, List.length_cons, Nat.pow_succ]
    omega

theorem beValue_lt (bytes : Bytes) : beValue bytes < 256 ^ bytes.length := by
  simpa only [beValue, List.length_reverse] using leValue_lt bytes.reverse

theorem leValue_append (low high : Bytes) : leValue (low ++ high) = leValue low + 256 ^ low.length * leValue high := by
  induction low with
  | nil => simp only [List.nil_append, leValue, List.length_nil, Nat.pow_zero, Nat.one_mul, Nat.zero_add]
  | cons byte rest ih =>
    simp only [List.cons_append, leValue, ih, List.length_cons, Nat.pow_succ]
    ring

theorem beValue_append (high low : Bytes) : beValue (high ++ low) = beValue high * 256 ^ low.length + beValue low := by
  simp only [beValue, List.reverse_append, leValue_append, List.length_reverse]
  ring

@[simp] theorem leBytes_leValue (bytes : Bytes) : leBytes bytes.length (leValue bytes) = bytes := by
  induction bytes with
  | nil => rfl
  | cons byte rest ih =>
    have small := byte.toNat_lt
    have low : UInt8.ofNat (byte.toNat + 256 * leValue rest) = byte := by
      apply UInt8.toNat_inj.mp
      rw [UInt8.toNat_ofNat']
      omega
    have high : (byte.toNat + 256 * leValue rest) / 256 = leValue rest := by omega
    simp only [List.length_cons, leValue, leBytes, low, high, ih]

theorem leValue_leBytes (width value : Nat) : leValue (leBytes width value) = value % 256 ^ width := by
  induction width generalizing value with
  | zero => simp only [leBytes, leValue, Nat.pow_zero, Nat.mod_one]
  | succ width ih =>
    have first : (UInt8.ofNat value).toNat = value % 256 := UInt8.toNat_ofNat'
    rw [leBytes, leValue, ih, first, Nat.pow_succ, Nat.mul_comm (256 ^ width), Nat.mod_mul]

theorem beValue_beBytes (width value : Nat) : beValue (beBytes width value) = value % 256 ^ width := by
  simp only [beValue, beBytes, List.reverse_reverse, leValue_leBytes]

theorem leBytes_beValue (bytes : Bytes) : leBytes bytes.length (beValue bytes) = bytes.reverse := by
  have restored := leBytes_leValue bytes.reverse
  rwa [List.length_reverse] at restored

theorem beBytes_beValue (bytes : Bytes) : beBytes bytes.length (beValue bytes) = bytes := by
  rw [beBytes, leBytes_beValue, List.reverse_reverse]

theorem leBytes_append (low high value : Nat) :
    leBytes (low + high) value = leBytes low value ++ leBytes high (value / 256 ^ low) := by
  induction low generalizing value with
  | zero => simp [leBytes]
  | succ low ih =>
    rw [Nat.add_right_comm, leBytes, leBytes, ih, Nat.div_div_eq_div_mul, Nat.pow_succ, Nat.mul_comm 256, List.cons_append]

theorem beBytes_append (high low value : Nat) :
    beBytes (high + low) value = beBytes high (value / 256 ^ low) ++ beBytes low value := by
  rw [Nat.add_comm, beBytes, leBytes_append, List.reverse_append, beBytes, beBytes]

/-- Only the value modulo the width shows in the bytes. -/
theorem beBytes_congr {width first second : Nat} (same : first % 256 ^ width = second % 256 ^ width) :
    beBytes width first = beBytes width second := by
  have values : beValue (beBytes width first) = beValue (beBytes width second) := by
    rw [beValue_beBytes, beValue_beBytes, same]
  have restored := beBytes_beValue (beBytes width first)
  have restored' := beBytes_beValue (beBytes width second)
  rw [length_beBytes] at restored restored'
  rw [← restored, ← restored', values]

theorem beBytes_inj {width first second : Nat} (low : first < 256 ^ width) (low' : second < 256 ^ width) :
    beBytes width first = beBytes width second ↔ first = second := by
  refine ⟨fun same => ?_, congrArg (beBytes width)⟩
  have values := congrArg beValue same
  rwa [beValue_beBytes, beValue_beBytes, Nat.mod_eq_of_lt low, Nat.mod_eq_of_lt low'] at values

/-- A number with its bytes reversed, least significant byte first, is the number with the most significant one first. -/
theorem leBytes_reversed (width value : Nat) : leBytes width (beValue (leBytes width value)) = beBytes width value := by
  have restored := leBytes_beValue (leBytes width value)
  rwa [length_leBytes] at restored

/-- Reversing the bytes twice gives the number back. -/
theorem beValue_reversed {width value : Nat} (fits : value < 256 ^ width) :
    beValue (leBytes width (beValue (leBytes width value))) = value := by
  rw [leBytes_reversed, beValue_beBytes, Nat.mod_eq_of_lt fits]

end Library
