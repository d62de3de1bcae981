import Mathlib.Data.List.TakeDrop
import Mathlib.Tactic.TypeStar
import Mathlib.Tactic.Ring

/-!
# Big-endian numbers

A number of a given width is written as that many bytes, the most significant
first.  It is read back by shifting each byte to its place and combining the
bytes with a bitwise or, since no two of them overlap.
-/

namespace MatchingEngine
namespace BigEndian

/-- The lowest `width` bytes of a number, most significant first. -/
def encode : Nat → Nat → List UInt8
  | 0, _ => []
  | width + 1, value => UInt8.ofNat (value / 256 ^ width) :: encode width value

/-- The number that a sequence of bytes stands for. -/
def decode : List UInt8 → Nat
  | [] => 0
  | byte :: bytes => byte.toNat * 256 ^ bytes.length + decode bytes

/-- Combine bytes by `value |= byte << shift`, with the shift going down by eight from
byte to byte. -/
def assemble : Nat → List UInt8 → Nat → Nat
  | _, [], value => value
  | shift, byte :: bytes, value =>
      assemble (shift - 8) bytes (value ||| byte.toNat <<< shift)

@[simp] theorem length_encode (width value : Nat) : (encode width value).length = width := by
  induction width with
  | zero => rfl
  | succ width inductionHypothesis => rw [encode, List.length_cons, inductionHypothesis]

theorem decode_lt (bytes : List UInt8) : decode bytes < 256 ^ bytes.length := by
  induction bytes with
  | nil => simp [decode]
  | cons byte bytes inductionHypothesis =>
      have small : byte.toNat + 1 ≤ 256 := byte.toNat_lt
      calc
        decode (byte :: bytes) = byte.toNat * 256 ^ bytes.length + decode bytes := rfl
        _ < byte.toNat * 256 ^ bytes.length + 256 ^ bytes.length := by omega
        _ = (byte.toNat + 1) * 256 ^ bytes.length := by ring
        _ ≤ 256 * 256 ^ bytes.length := Nat.mul_le_mul_right _ small
        _ = 256 ^ (byte :: bytes).length := by rw [List.length_cons]; ring

/-- Writing a number and reading it back keeps its lowest bytes. -/
theorem decode_encode (width value : Nat) :
    decode (encode width value) = value % 256 ^ width := by
  induction width with
  | zero => simp [encode, decode, Nat.mod_one]
  | succ width inductionHypothesis =>
      have split : value % (256 ^ width * 256) =
          value % 256 ^ width + 256 ^ width * (value / 256 ^ width % 256) := Nat.mod_mul
      rw [encode, decode, length_encode, inductionHypothesis, pow_succ, split,
        Nat.mul_comm (256 ^ width), Nat.add_comm]
      rfl

/-- No two bytes overlap, so combining them adds them up. -/
theorem assemble_eq (bytes : List UInt8) (high : Nat) :
    assemble (8 * (bytes.length - 1)) bytes (high <<< (8 * bytes.length)) =
      high * 256 ^ bytes.length + decode bytes := by
  induction bytes generalizing high with
  | nil => simp [assemble, decode]
  | cons byte bytes inductionHypothesis =>
      have small : byte.toNat <<< (8 * bytes.length) < 2 ^ (8 * (bytes.length + 1)) := by
        rw [Nat.shiftLeft_eq, Nat.mul_add, pow_add, Nat.mul_comm]
        exact Nat.mul_lt_mul_of_pos_left byte.toNat_lt (Nat.two_pow_pos _)
      have combined : high <<< (8 * (bytes.length + 1)) ||| byte.toNat <<< (8 * bytes.length) =
          (high * 256 + byte.toNat) <<< (8 * bytes.length) := by
        rw [← Nat.shiftLeft_add_eq_or_of_lt small]
        simp only [Nat.shiftLeft_eq, Nat.mul_add, pow_add]
        ring
      rw [assemble, List.length_cons, Nat.add_sub_cancel, combined,
        show 8 * bytes.length - 8 = 8 * (bytes.length - 1) by omega, inductionHypothesis, decode,
        pow_succ]
      ring

/-- The value of bytes that are combined from zero. -/
theorem assemble_zero (bytes : List UInt8) :
    assemble (8 * (bytes.length - 1)) bytes 0 = decode bytes := by
  have fromZero := assemble_eq bytes 0
  rwa [Nat.zero_shiftLeft, Nat.zero_mul, Nat.zero_add] at fromZero

end BigEndian
end MatchingEngine
