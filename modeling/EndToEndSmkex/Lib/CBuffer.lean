import Mathlib.Algebra.Group.Nat.Defs
import Mathlib.Data.List.TakeDrop
import Mathlib.Data.List.TakeWhile

/-!
# Byte buffers as C programs see them

Three things a C program does with raw bytes and that a `List` of bytes does
not do by itself:

* copying a machine integer to and from memory (`leBytes`, `leVal`, least
  significant byte first);
* treating a buffer that has no terminator as a string.  `strlen` then runs
  past the end of the buffer, so `cString` takes the bytes that happen to lie
  behind it as a second argument.  Memory is read as these bytes followed by
  zeros, so the list may be as long as the distance to the next zero byte;
* writing through a pointer without knowing how much is allocated.  A `Block`
  is one allocation: its size, and what the addresses from its start on hold.
  A write that is too long is visible in the contents and can be compared
  with the size.  What it does to the neighbours of the block is not said here,
  and a program in which it happens has no defined state any more.
-/

namespace EndToEndSmkex.Lib.CBuffer

abbrev Bytes := List UInt8

/-! ## Little-endian integers -/

/-- The `n` low bytes of `v`, least significant first. -/
def leBytes : Nat → Nat → Bytes
  | 0, _ => []
  | n + 1, v => UInt8.ofNat v :: leBytes n (v / 256)

/-- The number that a little-endian byte string denotes. -/
def leVal : Bytes → Nat
  | [] => 0
  | b :: bs => b.toNat + 256 * leVal bs

@[simp] theorem leBytes_length (n v : Nat) : (leBytes n v).length = n := by
  induction n generalizing v with
  | zero => rfl
  | succ n ih => simp [leBytes, ih]

theorem leVal_lt (bs : Bytes) : leVal bs < 256 ^ bs.length := by
  induction bs with
  | nil => simp [leVal]
  | cons b bs ih =>
      have hb : b.toNat < 256 := b.toNat_lt
      have hpow : 256 ^ (b :: bs).length = 256 * 256 ^ bs.length := by
        rw [List.length_cons, Nat.pow_succ, Nat.mul_comm]
      rw [leVal, hpow]
      omega

/-- Storing and loading `n` bytes keeps every value that fits. -/
theorem leVal_leBytes {n v : Nat} (h : v < 256 ^ n) : leVal (leBytes n v) = v := by
  induction n generalizing v with
  | zero => simp only [Nat.pow_zero, Nat.lt_one_iff] at h; simp [leBytes, leVal, h]
  | succ n ih =>
      have hq : v / 256 < 256 ^ n := by
        rw [Nat.div_lt_iff_lt_mul (by decide), ← Nat.pow_succ]
        exact h
      rw [leBytes, leVal, ih hq, UInt8.toNat_ofNat']
      omega

/-- Loading and storing a byte string reproduces it. -/
theorem leBytes_leVal (bs : Bytes) : leBytes bs.length (leVal bs) = bs := by
  induction bs with
  | nil => rfl
  | cons b bs ih =>
      have hb : b.toNat < 256 := b.toNat_lt
      have hlow : UInt8.ofNat (leVal (b :: bs)) = b := by
        apply UInt8.toNat_inj.1
        rw [leVal, UInt8.toNat_ofNat']
        omega
      have hrest : leVal (b :: bs) / 256 = leVal bs := by rw [leVal]; omega
      rw [List.length_cons, leBytes, hlow, hrest, ih]

/-! ## Strings without a terminator -/

/-- What `strlen` and `strncmp` take a buffer to be: everything up to the
first zero byte, which may lie in the memory behind the buffer. -/
def cString (buf behind : Bytes) : Bytes := (buf ++ behind).takeWhile (· ≠ 0)

/-- `strncmp` on two pointers that see `a` and `b`, zeros after their end. -/
def strncmp : Bytes → Bytes → Nat → Int
  | _, _, 0 => 0
  | a, b, n + 1 =>
      if a.headD 0 ≠ b.headD 0 then (a.headD 0).toNat - (b.headD 0).toNat
      else if a.headD 0 = 0 then 0
      else strncmp a.tail b.tail n

/-- No zero byte is part of a string. -/
theorem zero_not_mem_cString (buf behind : Bytes) : 0 ∉ cString buf behind := by
  intro h
  simpa using List.mem_takeWhile_imp h

/-- A buffer without a zero byte is read whole, and on into what lies behind. -/
theorem cString_eq_append {buf : Bytes} (h : 0 ∉ buf) (behind : Bytes) :
    cString buf behind = buf ++ behind.takeWhile (· ≠ 0) := by
  apply List.takeWhile_append_of_pos
  intro b hb
  have hne : b ≠ 0 := by
    rintro rfl
    exact h hb
  simpa using hne

/-- A string without a zero byte is read to its end. -/
theorem takeWhile_of_zero_not_mem {s : Bytes} (h : 0 ∉ s) : s.takeWhile (· ≠ 0) = s := by
  have hcut := cString_eq_append h []
  rwa [cString, List.takeWhile_nil, List.append_nil] at hcut

/-- Two buffers are the same to `strlen`: up to a zero byte, and on into what lies
behind them where there is none. -/
def SameText (a behind b behind' : Bytes) : Prop :=
  a.takeWhile (· ≠ 0) = b.takeWhile (· ≠ 0) ∧
    (0 ∉ a → behind.takeWhile (· ≠ 0) = behind'.takeWhile (· ≠ 0))

instance (a behind b behind' : Bytes) : Decidable (SameText a behind b behind') :=
  inferInstanceAs (Decidable (_ ∧ _))

/-- **Buffers of one size are the same strings where they are the same to
`strlen`.** -/
theorem cString_eq_iff (behind behind' : Bytes) :
    ∀ {a b : Bytes}, a.length = b.length →
      (cString a behind = cString b behind' ↔ SameText a behind b behind') := by
  intro a
  induction a with
  | nil =>
      intro b hlen
      rw [List.length_eq_zero_iff.1 hlen.symm]
      simp [cString, SameText]
  | cons x xs ih =>
      intro b hlen
      cases b with
      | nil => simp at hlen
      | cons y ys =>
          by_cases hx : x = 0 <;> by_cases hy : y = 0
          · simp [cString, SameText, hx, hy]
          · simp [cString, SameText, hx, hy]
          · simp [cString, SameText, hx, hy]
          · have htails := ih (Nat.succ.inj hlen)
            simp only [cString, SameText, ne_eq, decide_not] at htails
            simp [cString, SameText, hx, hy, Ne.symm hx, htails, and_assoc]

/-- Nothing behind a buffer is read where the first byte there is zero. -/
theorem takeWhile_eq_nil_iff_headD (behind : Bytes) :
    behind.takeWhile (· ≠ 0) = [] ↔ behind.headD 0 = 0 := by
  cases behind with
  | nil => simp
  | cons b bs => simp

/-- **`strncmp` on binary data**: it finds two strings of one length equal when
they are, and when they agree up to and including a zero byte. -/
theorem strncmp_eq_zero_iff {a : Bytes} :
    ∀ {b : Bytes} (behind : Bytes), a.length = b.length →
      (strncmp a (b ++ behind) a.length = 0 ↔
        a = b ∨ ∃ start u v, a = start ++ 0 :: u ∧ b = start ++ 0 :: v) := by
  induction a with
  | nil =>
      intro b behind hlen
      cases b with
      | nil => simp [strncmp]
      | cons y ys => simp at hlen
  | cons x xs ih =>
      intro b behind hlen
      cases b with
      | nil => simp at hlen
      | cons y ys =>
          have hlen' : xs.length = ys.length := by simpa using hlen
          show strncmp (x :: xs) (y :: (ys ++ behind)) (xs.length + 1) = 0 ↔ _
          rw [strncmp]
          by_cases hxy : x = y
          · subst hxy
            by_cases hx : x = 0
            · subst hx
              simp only [List.headD_cons, ne_eq, not_true, if_false, if_true, true_iff]
              exact Or.inr ⟨[], xs, ys, rfl, rfl⟩
            · have hcons : (∃ start u v, x :: xs = start ++ 0 :: u ∧ x :: ys = start ++ 0 :: v) ↔
                  ∃ start u v, xs = start ++ 0 :: u ∧ ys = start ++ 0 :: v := by
                constructor
                · rintro ⟨start, u, v, hu, hv⟩
                  cases start with
                  | nil => exact absurd (List.cons.inj hu).1 hx
                  | cons z zs => exact ⟨zs, u, v, (List.cons.inj hu).2, (List.cons.inj hv).2⟩
                · rintro ⟨start, u, v, rfl, rfl⟩
                  exact ⟨x :: start, u, v, rfl, rfl⟩
              simp only [List.headD_cons, List.tail_cons, ne_eq, not_true, if_false, hx, hcons,
                List.cons.injEq, true_and]
              exact ih behind hlen'
          · have hdiff : ((x.toNat : Int) - y.toNat) ≠ 0 := by
              intro h
              apply hxy
              apply UInt8.toNat_inj.1
              omega
            have hstart : ¬ ∃ start u v, x :: xs = start ++ 0 :: u ∧ y :: ys = start ++ 0 :: v := by
              rintro ⟨start, u, v, hu, hv⟩
              cases start with
              | nil => exact hxy ((List.cons.inj hu).1.trans (List.cons.inj hv).1.symm)
              | cons z zs => exact hxy ((List.cons.inj hu).1.trans (List.cons.inj hv).1.symm)
            have hne : x :: xs ≠ y :: ys := fun h => hxy (List.cons.inj h).1
            rw [if_pos (by simpa using hxy)]
            exact ⟨fun h => absurd h hdiff, fun h => absurd h (not_or.2 ⟨hne, hstart⟩)⟩

/-! ## Copies and allocations -/

/-- The `n` bytes a copy reads from a buffer of any size; what it does not
find in the buffer comes from the memory behind it. -/
def readN (buf behind : Bytes) (n : Nat) : Bytes := (buf ++ behind).takeD n 0

@[simp] theorem readN_length (buf behind : Bytes) (n : Nat) :
    (readN buf behind n).length = n := List.takeD_length _ _ _

/-- A copy that stays inside the buffer sees nothing behind it. -/
theorem readN_of_le {buf : Bytes} {n : Nat} (h : n ≤ buf.length) (behind : Bytes) :
    readN buf behind n = buf.take n := by
  rw [readN, List.takeD_eq_take _ (by rw [List.length_append]; omega),
    List.take_append_of_le_length h]

@[simp] theorem readN_self (buf behind : Bytes) :
    readN buf behind buf.length = buf := by
  rw [readN_of_le (Nat.le_refl _), List.take_length]

private theorem take_takeD {α : Type*} (a : α) {k : Nat} :
    ∀ {l : List α} {n : Nat}, k ≤ n → k ≤ l.length → (l.takeD n a).take k = l.take k := by
  induction k with
  | zero => simp
  | succ k ih =>
      intro l n hn hl
      cases n with
      | zero => omega
      | succ n =>
          cases l with
          | nil => simp at hl
          | cons x xs =>
              have hk : k ≤ xs.length := by simpa using hl
              simp [ih (Nat.le_of_succ_le_succ hn) hk]

/-- A copy that goes past the end of the buffer starts with the buffer. -/
theorem take_readN {buf : Bytes} {n k : Nat} (behind : Bytes) (hn : k ≤ n)
    (hk : k ≤ buf.length) : (readN buf behind n).take k = buf.take k := by
  have hlen : k ≤ (buf ++ behind).length := by rw [List.length_append]; omega
  rw [readN, take_takeD 0 hn hlen, List.take_append_of_le_length hk]

/-- One allocation: how much was asked for, and the bytes found from its first
address on.  A block that was written past its end has more bytes than its
size. -/
structure Block where
  size : Nat
  bytes : Bytes
  deriving DecidableEq

/-- Copy `src` to the start of the block, whatever its size. -/
def Block.write (b : Block) (src : Bytes) : Block :=
  { b with bytes := src ++ b.bytes.drop src.length }

/-- A copy is read back over its own length. -/
@[simp] theorem Block.take_write (b : Block) (src : Bytes) :
    (b.write src).bytes.take src.length = src := by
  simp [Block.write]

/-- A copy that stays in the block leaves its length. -/
theorem Block.length_write {b : Block} {src : Bytes} (h : src.length ≤ b.bytes.length) :
    (b.write src).bytes.length = b.bytes.length := by
  rw [Block.write, List.length_append, List.length_drop]
  omega

theorem Block.take_write_of_le {b : Block} {src : Bytes} {n : Nat} (h : n ≤ src.length) :
    (b.write src).bytes.take n = src.take n :=
  List.take_append_of_le_length h

/-- `realloc`: the old bytes survive up to the new size. -/
def Block.realloc (b : Block) (size : Nat) : Block := ⟨size, b.bytes.take size⟩

end EndToEndSmkex.Lib.CBuffer
