import Mathlib.Order.Lattice

/-!
# Loops that need not end

`body s` is one round of a loop in the state `s`: the state it goes on with, or
the result the loop is left with.  It is `none` where the program says nothing
about what the round does.

## Main results

* `Returns.unique` — a loop is left with at most one result.
* `returns_of_next`, `returns_of_exit` — what the first round says.
* `not_returns_of_inv` — a property that no round breaks or leaves the loop with
  keeps it going for ever.
-/

namespace EndToEndSmkex.Lib.Loops

variable {σ ρ : Type*}

/-- At most `fuel` rounds. -/
def loop (body : σ → Option (σ ⊕ ρ)) : Nat → σ → Option ρ
  | 0, _ => none
  | fuel + 1, s =>
    match body s with
    | some (.inl s') => loop body fuel s'
    | some (.inr r) => some r
    | none => none

/-- The loop is left with a result after some number of rounds. -/
def Returns (body : σ → Option (σ ⊕ ρ)) (s : σ) (r : ρ) : Prop :=
  ∃ fuel, loop body fuel s = some r

variable {body : σ → Option (σ ⊕ ρ)} {s s' : σ} {r r' : ρ}

theorem loop_next (h : body s = some (.inl s')) (fuel : Nat) :
    loop body (fuel + 1) s = loop body fuel s' := by
  rw [loop, h]

theorem loop_exit (h : body s = some (.inr r)) (fuel : Nat) :
    loop body (fuel + 1) s = some r := by
  rw [loop, h]

/-- More rounds than needed change nothing. -/
theorem loop_succ (fuel : Nat) : ∀ {s : σ}, loop body fuel s = some r →
    loop body (fuel + 1) s = some r := by
  induction fuel with
  | zero =>
      intro s h
      cases h
  | succ fuel ih =>
      intro s h
      cases hbody : body s with
      | none =>
          rw [loop, hbody] at h
          cases h
      | some next =>
          cases next with
          | inl s' =>
              rw [loop_next hbody] at h ⊢
              exact ih h
          | inr r' =>
              rw [loop_exit hbody] at h ⊢
              exact h

theorem loop_mono {fuel more : Nat} (hle : fuel ≤ more) (h : loop body fuel s = some r) :
    loop body more s = some r := by
  induction hle with
  | refl => exact h
  | step _ ih => exact loop_succ _ ih

theorem Returns.unique (h : Returns body s r) (h' : Returns body s r') : r = r' := by
  obtain ⟨fuel, hfuel⟩ := h
  obtain ⟨fuel', hfuel'⟩ := h'
  have hleft : loop body (max fuel fuel') s = some r := loop_mono (le_max_left ..) hfuel
  have hright : loop body (max fuel fuel') s = some r' := loop_mono (le_max_right ..) hfuel'
  exact Option.some.inj (hleft.symm.trans hright)

theorem returns_of_next (hbody : body s = some (.inl s')) (h : Returns body s' r) :
    Returns body s r := by
  obtain ⟨fuel, hfuel⟩ := h
  exact ⟨fuel + 1, by rw [loop_next hbody, hfuel]⟩

theorem returns_of_exit (hbody : body s = some (.inr r)) : Returns body s r :=
  ⟨1, loop_exit hbody 0⟩

/-- **A property that every round keeps, and that no round leaves the loop
with, keeps it going.** -/
theorem not_returns_of_inv {P : σ → Prop} (hexit : ∀ s r, P s → body s ≠ some (.inr r))
    (hnext : ∀ s s', P s → body s = some (.inl s') → P s') (hs : P s) : ¬ Returns body s r := by
  rintro ⟨fuel, hfuel⟩
  induction fuel generalizing s with
  | zero => cases hfuel
  | succ fuel ih =>
      cases hbody : body s with
      | none =>
          rw [loop, hbody] at hfuel
          cases hfuel
      | some next =>
          cases next with
          | inl s' =>
              rw [loop_next hbody] at hfuel
              exact ih (hnext s s' hs hbody) hfuel
          | inr r' => exact hexit s r' hs hbody

end EndToEndSmkex.Lib.Loops
