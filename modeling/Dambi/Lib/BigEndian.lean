import Mathlib.Algebra.Group.Nat.Defs
import Mathlib.Data.List.Induction

/-!
# Numbers as big-endian bytes
-/

namespace BigEndian

/-- The last `k` bytes of a number. -/
def bytes : Nat → Nat → List UInt8
  | 0, _ => []
  | k + 1, n => bytes k (n / 256) ++ [UInt8.ofNat (n % 256)]

variable (bs : List UInt8)

def value : Nat := bs.foldl (fun n b => 256 * n + b.toNat) 0

@[simp] theorem length_bytes (k n : Nat) : (bytes k n).length = k := by
  induction k generalizing n with
  | zero => rfl
  | succ k ih => simp [bytes, ih]

theorem value_concat (b : UInt8) : value (bs ++ [b]) = 256 * value bs + b.toNat := by
  simp [value]

theorem value_bytes {k n : Nat} (h : n < 256 ^ k) : value (bytes k n) = n := by
  induction k generalizing n with
  | zero => simp_all [bytes, value]
  | succ k ih =>
    have hb : (UInt8.ofNat (n % 256)).toNat = n % 256 := by simp
    rw [bytes, value_concat, ih (by omega), hb]
    omega

theorem value_lt : value bs < 256 ^ bs.length := by
  induction bs using List.reverseRecOn with
  | nil => decide
  | append_singleton bs b ih =>
    have hb := b.toNat_lt
    rw [value_concat, List.length_append, List.length_singleton, Nat.pow_succ']
    omega

theorem bytes_value : bytes bs.length (value bs) = bs := by
  induction bs using List.reverseRecOn with
  | nil => rfl
  | append_singleton bs b ih =>
    have hb := b.toNat_lt
    have hd : (256 * value bs + b.toNat) / 256 = value bs := by omega
    have hm : (256 * value bs + b.toNat) % 256 = b.toNat := by omega
    rw [List.length_append, List.length_singleton, bytes, value_concat, hd, hm, ih,
      UInt8.ofNat_toNat]

end BigEndian
