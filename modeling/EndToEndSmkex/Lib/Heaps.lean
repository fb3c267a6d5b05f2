import Mathlib.Logic.Function.Basic

/-!
# A heap of blocks

`new` gives out a fresh address each time, so an address that is freed stays
dead, and whoever still uses it is stopped: `free`, `read` and `write` are
`none` on a block that is not there or too short.

Owners hold blocks.  Where each block has one owner at most, what one owner does
to its block is nothing to the others; where each has at least one, nothing is
leaked.

## Main results

* `Apart.give`, `Apart.drop` — blocks stay apart.
* `leakFree_give_iff`, `leakFree_drop_iff` — and none is forgotten, exactly where
  what is dropped has been freed.
-/

namespace EndToEndSmkex.Lib.Heaps

variable {α : Type}

/-- The live blocks by their addresses; nothing lives from `next` on. -/
structure Heap (α : Type) where
  block : Nat → Option (List α)
  next : Nat
  unused : ∀ a, next ≤ a → block a = none

namespace Heap

/-- No block. -/
def empty : Heap α := ⟨fun _ => none, 0, fun _ _ => rfl⟩

/-- A block lives at this address. -/
def Live (h : Heap α) (a : Nat) : Prop := (h.block a).isSome

/-- `new`, with whatever the memory holds. -/
def alloc (h : Heap α) (xs : List α) : Nat × Heap α :=
  (h.next,
    { block := Function.update h.block h.next (some xs)
      next := h.next + 1
      unused := by
        intro a ha
        rw [Function.update_of_ne (by omega)]
        exact h.unused a (by omega) })

/-- `delete[]`. -/
def free (h : Heap α) (a : Nat) : Option (Heap α) :=
  if (h.block a).isSome then
    some
      { block := Function.update h.block a none
        next := h.next
        unused := by
          intro b hb
          by_cases hba : b = a
          · rw [hba, Function.update_self]
          · rw [Function.update_of_ne hba]
            exact h.unused b hb }
  else none

/-- The first `n` elements of a block. -/
def read (h : Heap α) (a n : Nat) : Option (List α) :=
  (h.block a).bind fun xs => if n ≤ xs.length then some (xs.take n) else none

/-- Overwrite the beginning of a block. -/
def write (h : Heap α) (a : Nat) (ys : List α) : Option (Heap α) :=
  match hblock : h.block a with
  | none => none
  | some xs =>
    if ys.length ≤ xs.length then
      some
        { block := Function.update h.block a (some (ys ++ xs.drop ys.length))
          next := h.next
          unused := by
            intro b hb
            have hba : b ≠ a := by
              rintro rfl
              rw [h.unused b hb] at hblock
              cases hblock
            rw [Function.update_of_ne hba]
            exact h.unused b hb }
    else none

theorem not_live_next (h : Heap α) : ¬ h.Live h.next := by
  unfold Live
  rw [h.unused h.next (Nat.le_refl _)]
  exact nofun

/-- A live block is not the next one. -/
theorem Live.ne_next {h : Heap α} {a : Nat} (ha : h.Live a) : a ≠ h.next := by
  rintro rfl
  exact h.not_live_next ha

@[simp] theorem block_alloc (h : Heap α) (xs : List α) :
    (h.alloc xs).2.block = Function.update h.block h.next (some xs) := rfl

theorem free_of_live {h : Heap α} {a : Nat} (ha : h.Live a) :
    ∃ h', h.free a = some h' ∧ h'.block = Function.update h.block a none :=
  ⟨_, if_pos ha, rfl⟩

theorem read_of_block {h : Heap α} {a : Nat} {xs : List α} (ha : h.block a = some xs) :
    h.read a xs.length = some xs := by
  simp [read, ha]

/-- A block that is overwritten as a whole. -/
theorem write_of_block {h : Heap α} {a : Nat} {xs ys : List α} (ha : h.block a = some xs)
    (hlen : ys.length = xs.length) :
    ∃ h', h.write a ys = some h' ∧ h'.block = Function.update h.block a (some ys) := by
  unfold write
  split
  · next hnone =>
    rw [ha] at hnone
    cases hnone
  · next zs hsome =>
    rw [ha, Option.some.injEq] at hsome
    subst hsome
    rw [if_pos (Nat.le_of_eq hlen)]
    refine ⟨_, rfl, ?_⟩
    dsimp only
    rw [hlen, List.drop_length, List.append_nil]

end Heap

/-! ## Owners -/

section Owners

variable {ι : Type} [DecidableEq ι] {h h' : Heap α} {owns : ι → Option Nat}

/-- Owners hold live blocks, each a block of its own. -/
structure Apart (h : Heap α) (owns : ι → Option Nat) : Prop where
  live : ∀ i a, owns i = some a → h.Live a
  single : ∀ i j a, owns i = some a → owns j = some a → i = j

/-- Every live block has an owner. -/
def LeakFree (h : Heap α) (owns : ι → Option Nat) : Prop :=
  ∀ a, h.Live a → ∃ i, owns i = some a

omit [DecidableEq ι] in
theorem apart_none : Apart (Heap.empty : Heap α) fun _ : ι => none where
  live _ _ ha := by cases ha
  single _ _ _ ha := by cases ha

omit [DecidableEq ι] in
theorem leakFree_empty : LeakFree (Heap.empty : Heap α) owns := by
  intro a ha
  cases ha

/-- An owner without a block gets a new one. -/
theorem Apart.give (hapart : Apart h owns) {i : ι} {xs : List α}
    (hblock : h'.block = Function.update h.block h.next (some xs)) :
    Apart h' (Function.update owns i (some h.next)) := by
  have hnew : ∀ {j : ι} {a : Nat}, owns j = some a → a ≠ h.next :=
    fun hj => (hapart.live _ _ hj).ne_next
  constructor
  · intro j a hj
    unfold Heap.Live
    rw [hblock]
    by_cases hji : j = i
    · rw [hji, Function.update_self, Option.some.injEq] at hj
      rw [← hj, Function.update_self]
      rfl
    · rw [Function.update_of_ne hji] at hj
      rw [Function.update_of_ne (hnew hj)]
      exact hapart.live j a hj
  · intro j k a hj hk
    by_cases hji : j = i <;> by_cases hki : k = i
    · rw [hji, hki]
    · rw [hji, Function.update_self, Option.some.injEq] at hj
      rw [Function.update_of_ne hki] at hk
      exact absurd hj.symm (hnew hk)
    · rw [hki, Function.update_self, Option.some.injEq] at hk
      rw [Function.update_of_ne hji] at hj
      exact absurd hk.symm (hnew hj)
    · rw [Function.update_of_ne hji] at hj
      rw [Function.update_of_ne hki] at hk
      exact hapart.single j k a hj hk

/-- An owner lets go of its block, which may be freed. -/
theorem Apart.drop (hapart : Apart h owns) {i : ι}
    (hblock : ∀ a, owns i ≠ some a → h'.block a = h.block a) :
    Apart h' (Function.update owns i none) := by
  have hkeeps : ∀ {j : ι} {a : Nat}, Function.update owns i none j = some a →
      j ≠ i ∧ owns j = some a := by
    intro j a hj
    by_cases hji : j = i
    · rw [hji, Function.update_self] at hj
      cases hj
    · rw [Function.update_of_ne hji] at hj
      exact ⟨hji, hj⟩
  constructor
  · intro j a hj
    obtain ⟨hji, hj⟩ := hkeeps hj
    unfold Heap.Live
    rw [hblock a fun hi => hji (hapart.single j i a hj hi)]
    exact hapart.live j a hj
  · intro j k a hj hk
    exact hapart.single j k a (hkeeps hj).2 (hkeeps hk).2

/-- A new block that somebody gets is not leaked. -/
theorem leakFree_give_iff {i : ι} {xs : List α} (hi : owns i = none)
    (hblock : h'.block = Function.update h.block h.next (some xs)) :
    LeakFree h' (Function.update owns i (some h.next)) ↔ LeakFree h owns := by
  constructor
  · intro hfree a ha
    have hnext : a ≠ h.next := ha.ne_next
    have hlive : h'.Live a := by
      unfold Heap.Live
      rw [hblock, Function.update_of_ne hnext]
      exact ha
    obtain ⟨j, hj⟩ := hfree a hlive
    by_cases hji : j = i
    · rw [hji, Function.update_self, Option.some.injEq] at hj
      exact absurd hj.symm hnext
    · rw [Function.update_of_ne hji] at hj
      exact ⟨j, hj⟩
  · intro hfree a ha
    by_cases hnext : a = h.next
    · exact ⟨i, by rw [hnext, Function.update_self]⟩
    · unfold Heap.Live at ha
      rw [hblock, Function.update_of_ne hnext] at ha
      obtain ⟨j, hj⟩ := hfree a ha
      have hji : j ≠ i := by
        rintro rfl
        rw [hi] at hj
        cases hj
      exact ⟨j, by rw [Function.update_of_ne hji]; exact hj⟩

/-- **Letting go leaks nothing exactly where the block has been freed.** -/
theorem leakFree_drop_iff (hapart : Apart h owns) {i : ι}
    (hblock : ∀ a, owns i ≠ some a → h'.block a = h.block a) (hfree : LeakFree h owns) :
    LeakFree h' (Function.update owns i none) ↔ ∀ a, owns i = some a → ¬ h'.Live a := by
  constructor
  · intro hafter a hi hlive
    obtain ⟨j, hj⟩ := hafter a hlive
    by_cases hji : j = i
    · rw [hji, Function.update_self] at hj
      cases hj
    · rw [Function.update_of_ne hji] at hj
      exact hji (hapart.single j i a hj hi)
  · intro hdead a hlive
    have hi : owns i ≠ some a := fun hi => hdead a hi hlive
    unfold Heap.Live at hlive
    rw [hblock a hi] at hlive
    obtain ⟨j, hj⟩ := hfree a hlive
    have hji : j ≠ i := by
      rintro rfl
      exact hi hj
    exact ⟨j, by rw [Function.update_of_ne hji]; exact hj⟩

end Owners

end EndToEndSmkex.Lib.Heaps
