import EndToEndSmkex.Lib.CBuffer

/-!
# Decoders over raw memory

A C decoder gets a pointer and no length.  Here it is a function of the whole
memory seen from that pointer, and it reports, next to its result, every span
of bytes it has loaded.  Whether it stayed inside the buffer it was given is
then a statement about the report.
-/

namespace EndToEndSmkex.Lib.Loads

open EndToEndSmkex.Lib.CBuffer

/-- Memory as seen from a pointer: the byte at every offset. -/
abbrev Memory := Nat → UInt8

/-- The `n` bytes from offset `off` on. -/
def bytesAt (mem : Memory) (off n : Nat) : Bytes :=
  (List.range n).map fun i => mem (off + i)

/-- The memory a pointer to the buffer `bs` sees: the buffer, then whatever
lies behind it. -/
def ofBytes (bs : Bytes) (behind : Memory) : Memory := fun i =>
  if h : i < bs.length then bs.get ⟨i, h⟩ else behind (i - bs.length)

/-- The view from a pointer moved forward. -/
def shift (mem : Memory) (k : Nat) : Memory := fun i => mem (k + i)

@[simp] theorem bytesAt_length (mem : Memory) (off n : Nat) :
    (bytesAt mem off n).length = n := by simp [bytesAt]

/-- Adjacent spans join. -/
theorem bytesAt_add (mem : Memory) (off n m : Nat) :
    bytesAt mem off (n + m) = bytesAt mem off n ++ bytesAt mem (off + n) m := by
  simp only [bytesAt, List.range_add, List.map_append, List.map_map]
  congr 1
  apply List.map_congr_left
  intro i _
  simp [Nat.add_assoc]

theorem bytesAt_shift (mem : Memory) (k off n : Nat) :
    bytesAt (shift mem k) off n = bytesAt mem (k + off) n := by
  simp [bytesAt, shift, Nat.add_assoc]

/-- A span inside the buffer holds the buffer's bytes. -/
theorem bytesAt_ofBytes {bs : Bytes} {off n : Nat} (behind : Memory)
    (h : off + n ≤ bs.length) :
    bytesAt (ofBytes bs behind) off n = (bs.drop off).take n := by
  apply List.ext_getElem
  · simp; omega
  · intro i hi _
    have hi' : i < n := by simpa using hi
    simp [bytesAt, ofBytes, show off + i < bs.length by omega]

theorem bytesAt_congr {mem mem' : Memory} {off n : Nat}
    (h : ∀ i, i < n → mem (off + i) = mem' (off + i)) :
    bytesAt mem off n = bytesAt mem' off n := by
  apply List.map_congr_left
  intro i hi
  exact h i (List.mem_range.1 hi)

/-- A copy of the first `n` bytes agrees with the original on them. -/
theorem ofBytes_bytesAt (mem behind : Memory) {n i : Nat} (hi : i < n) :
    ofBytes (bytesAt mem 0 n) behind i = mem i := by
  have hlen : i < (bytesAt mem 0 n).length := by simpa using hi
  rw [ofBytes, dif_pos hlen]
  simp [bytesAt]

/-- Skipping a header leaves the view of what follows it. -/
theorem shift_ofBytes_append (pre bs : Bytes) (behind : Memory) :
    shift (ofBytes (pre ++ bs) behind) pre.length = ofBytes bs behind := by
  funext i
  by_cases hi : i < bs.length
  · simp [shift, ofBytes, hi, List.getElem_append_right]
  · have hout : ¬ pre.length + i < (pre ++ bs).length := by
      rw [List.length_append]
      omega
    rw [shift, ofBytes, ofBytes, dif_neg hout, dif_neg hi, List.length_append,
      Nat.add_sub_add_left]

/-! ## The reporting decoder -/

/-- `count` bytes from `offset` on. -/
structure Span where
  offset : Nat
  count : Nat
  deriving DecidableEq

/-- The first offset behind the span. -/
def Span.stop (s : Span) : Nat := s.offset + s.count

/-- A decoder: a value read from memory, and the spans loaded on the way. -/
structure Load (α : Type) where
  run : Memory → α × List Span

instance : Monad Load where
  pure a := ⟨fun _ => (a, [])⟩
  bind m f := ⟨fun mem =>
    (((f (m.run mem).1).run mem).1, (m.run mem).2 ++ ((f (m.run mem).1).run mem).2)⟩

/-- Load `n` bytes from offset `off`. -/
def load (off n : Nat) : Load { bs : Bytes // bs.length = n } := ⟨fun mem =>
  (⟨bytesAt mem off n, bytesAt_length mem off n⟩, [⟨off, n⟩])⟩

section Equations

variable {α β : Type} (mem : Memory)

@[simp] theorem run_pure (a : α) : (pure a : Load α).run mem = (a, []) := rfl

@[simp] theorem run_bind (m : Load α) (f : α → Load β) :
    (m >>= f).run mem =
      (((f (m.run mem).1).run mem).1, (m.run mem).2 ++ ((f (m.run mem).1).run mem).2) :=
  rfl

@[simp] theorem run_load_fst (off n : Nat) :
    ((load off n).run mem).1.1 = bytesAt mem off n := rfl

@[simp] theorem run_load_snd (off n : Nat) : ((load off n).run mem).2 = [⟨off, n⟩] := rfl

end Equations

/-- Every span ends within the first `len` bytes. -/
def Within (len : Nat) (spans : List Span) : Prop := ∀ s ∈ spans, s.stop ≤ len

instance (len : Nat) (spans : List Span) : Decidable (Within len spans) :=
  inferInstanceAs (Decidable (∀ s ∈ spans, s.stop ≤ len))

/-- How far into the buffer a list of spans reaches. -/
def reach (spans : List Span) : Nat := (spans.map Span.stop).foldr max 0

theorem within_iff_reach_le (len : Nat) (spans : List Span) :
    Within len spans ↔ reach spans ≤ len := by
  induction spans with
  | nil => simp [Within, reach]
  | cons s spans ih =>
      have hcons : Within len (s :: spans) ↔ s.stop ≤ len ∧ Within len spans := by
        simp [Within]
      rw [hcons, ih]
      exact Nat.max_le.symm

end EndToEndSmkex.Lib.Loads
