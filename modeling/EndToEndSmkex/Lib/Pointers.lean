import EndToEndSmkex.Lib.CBuffer
import Mathlib.Algebra.Group.Int.Defs

/-!
# Pointers into the middle of memory

A pointer that is computed from a length may be moved in front of the buffer it
was given for, and a length may wrap or lose its upper half when it is converted.
What a pointer sees is therefore a function of all integers, and a call that is
given a pointer and a length reports both as an `Access`.

## Main results

* `read_pointer` — reading inside a buffer gives its bytes.
* `toInt_sizeSub_of_le` — a difference of lengths as an `int`.
-/

namespace EndToEndSmkex.Lib.Pointers

open EndToEndSmkex.Lib.CBuffer

/-! ## Reading -/

/-- The byte at every offset, negative ones included. -/
abbrev Pointer := Int → UInt8

/-- A pointer to a buffer, with what lies around it. -/
def pointer (bs : Bytes) (around : Pointer) : Pointer := fun i =>
  if 0 ≤ i then bs.getD i.toNat (around i) else around i

/-- The `n` bytes from an offset on. -/
def read (p : Pointer) (offset : Int) (n : Nat) : Bytes :=
  (List.range n).map fun i : Nat => p (offset + i)

@[simp] theorem read_length (p : Pointer) (offset : Int) (n : Nat) :
    (read p offset n).length = n := by simp [read]

theorem read_pointer {bs : Bytes} {offset n : Nat} (around : Pointer)
    (h : offset + n ≤ bs.length) :
    read (pointer bs around) offset n = (bs.drop offset).take n := by
  apply List.ext_getElem
  · rw [read_length, List.length_take, List.length_drop]
    omega
  · intro i hi _
    have hi' : i < n := by simpa using hi
    have hin : offset + i < bs.length := by omega
    have hnat : ((offset : Int) + i).toNat = offset + i := by omega
    have hpos : (0 : Int) ≤ offset + i := by omega
    simp [read, pointer, hpos, hnat, hin]

/-- A length given along with a pointer. -/
structure Access where
  offset : Int
  count : Int
  deriving DecidableEq

/-- The access stays in a buffer of this length. -/
def Access.Inside (len : Nat) (a : Access) : Prop :=
  0 ≤ a.offset ∧ 0 ≤ a.count ∧ a.offset + a.count ≤ len

instance (len : Nat) (a : Access) : Decidable (a.Inside len) :=
  inferInstanceAs (Decidable (_ ∧ _ ∧ _))

theorem inside_of_le {len offset n : Nat} (h : offset + n ≤ len) :
    (⟨offset, n⟩ : Access).Inside len :=
  ⟨Int.natCast_nonneg offset, Int.natCast_nonneg n, by dsimp only; omega⟩

/-! ## Lengths -/

/-- `a - b` in the type `size_t`. -/
def sizeSub (a b : Nat) : Nat := (a + 2 ^ 64 - b) % 2 ^ 64

/-- A length converted to `int`. -/
def toInt (n : Nat) : Int := Int.bmod n (2 ^ 32)

theorem toInt_of_lt {n : Nat} (h : n < 2 ^ 31) : toInt n = n := by
  unfold toInt
  rw [Int.bmod_def]
  omega

/-- Of a difference the lower half is kept, with a sign. -/
theorem toInt_sizeSub_of_le {a b : Nat} (h : b ≤ a) :
    toInt (sizeSub a b) =
      if (a - b) % 2 ^ 32 < 2 ^ 31 then (((a - b) % 2 ^ 32 : Nat) : Int)
      else (((a - b) % 2 ^ 32 : Nat) : Int) - 2 ^ 32 := by
  unfold toInt sizeSub
  rw [Int.bmod_def]
  split <;> split <;> omega

end EndToEndSmkex.Lib.Pointers
