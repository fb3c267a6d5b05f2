import EndToEndSmkex.Lib.Run
import Mathlib.Order.OrderIsoNat

/-!
# Runs that do not end

`Endless step s states events` is a run that takes a step for ever.  Two rules
decide whether there is one: a state from which a finite run leads back to
itself has one, and a measure that every step lowers, apart from some steps
that refill it, bounds the length of a run by the number of refills.

## Main results

* `endless_of_cycle` — a run into a cycle can be continued for ever.
* `length_le_of_refills` — how long a run with so many refills can be.
* `Endless.refills` — an endless run is refilled again and again.
* `Simulates.endless` — an endless run of an image is that of a run.
-/

namespace EndToEndSmkex.Lib.InfiniteRuns

open EndToEndSmkex.Lib.Run

variable {σ ε : Type*} {step : σ → ε → Option σ}

/-- A run that takes a step for ever. -/
structure Endless (step : σ → ε → Option σ) (s : σ) (states : Nat → σ)
    (events : Nat → ε) : Prop where
  start : states 0 = s
  next : ∀ i, step (states i) (events i) = some (states (i + 1))

/-! ## Going on for ever -/

/-- A property that always allows a step that keeps it gives a run. -/
theorem endless_of_inv {P : σ → Prop} (hnext : ∀ t, P t → ∃ e t', step t e = some t' ∧ P t')
    {s : σ} (hs : P s) : ∃ states events, Endless step s states events := by
  choose event after htaken hafter using hnext
  -- the states of the run, each with the property
  let run : Nat → { t // P t } :=
    Nat.rec ⟨s, hs⟩ fun _ t => ⟨after t.1 t.2, hafter t.1 t.2⟩
  refine ⟨fun i => (run i).1, fun i => event (run i).1 (run i).2, rfl, ?_⟩
  intro i
  exact htaken (run i).1 (run i).2

/-- **A run into a cycle can be continued for ever.** -/
theorem endless_of_cycle {s t : σ} {es : List ε} {e : ε} {cycle : List ε}
    (hreach : exec step s es = some t) (hcycle : exec step t (e :: cycle) = some t) :
    ∃ states events, Endless step s states events := by
  -- from every state of the run something leads to the cycle's first state
  refine endless_of_inv (P := fun s => ∃ es, exec step s es = some t) ?_ ⟨es, hreach⟩
  rintro s ⟨es, hes⟩
  cases es with
  | nil =>
      cases hes
      rw [exec_cons, Option.bind_eq_some_iff] at hcycle
      obtain ⟨t', ht', hrest⟩ := hcycle
      exact ⟨e, t', ht', cycle, hrest⟩
  | cons d es =>
      rw [exec_cons, Option.bind_eq_some_iff] at hes
      obtain ⟨t', ht', hrest⟩ := hes
      exact ⟨d, t', ht', es, hrest⟩

/-! ## Runs seen through a function -/

section Simulation

variable {τ : Type*} {step' : τ → ε → Option τ} {R : σ → Prop} {f : σ → τ}

/-- In the states with the property `R`, which steps keep, `f` takes steps to
steps. -/
structure Simulates (step : σ → ε → Option σ) (step' : τ → ε → Option τ) (R : σ → Prop)
    (f : σ → τ) : Prop where
  map : ∀ s e, R s → (step s e).map f = step' (f s) e
  keep : ∀ s e s', R s → step s e = some s' → R s'

/-- A step of the image is that of a step. -/
theorem Simulates.lift (h : Simulates step step' R f) {s : σ} {e : ε} {t : τ} (hs : R s)
    (ht : step' (f s) e = some t) : ∃ s', step s e = some s' ∧ f s' = t ∧ R s' := by
  rw [← h.map s e hs] at ht
  obtain ⟨s', hs', rfl⟩ := Option.map_eq_some_iff.1 ht
  exact ⟨s', hs', rfl, h.keep s e s' hs hs'⟩

/-- So are finite runs. -/
theorem Simulates.exec (h : Simulates step step' R f) :
    ∀ {es : List ε} {s : σ} {t : τ}, R s → Run.exec step' (f s) es = some t →
      ∃ s', Run.exec step s es = some s' ∧ f s' = t ∧ R s' := by
  intro es
  induction es with
  | nil =>
      intro s t hs ht
      cases ht
      exact ⟨s, rfl, rfl, hs⟩
  | cons e es ih =>
      intro s t hs ht
      rw [exec_cons, Option.bind_eq_some_iff] at ht
      obtain ⟨t₁, ht₁, hrest⟩ := ht
      obtain ⟨s₁, hs₁, rfl, hR⟩ := h.lift hs ht₁
      obtain ⟨s', hs', hf, hR'⟩ := ih hR hrest
      exact ⟨s', by rw [exec_cons, hs₁, Option.bind_some, hs'], hf, hR'⟩

/-- **An endless run of the image is that of an endless run.** -/
theorem Simulates.endless (h : Simulates step step' R f) {s : σ} (hs : R s)
    {states : Nat → τ} {events : Nat → ε} (hrun : Endless step' (f s) states events) :
    ∃ states events, Endless step s states events := by
  refine endless_of_inv (P := fun s => R s ∧ ∃ i, f s = states i) ?_ ⟨hs, 0, hrun.start.symm⟩
  rintro s ⟨hs, i, hi⟩
  have hnext := hrun.next i
  rw [← hi] at hnext
  obtain ⟨s', hs', hf, hR⟩ := h.lift hs hnext
  exact ⟨events i, s', hs', hR, i + 1, hf⟩

end Simulation

/-! ## Measures that are refilled -/

section Refills

variable (step) (R : σ → ε → Prop) [∀ s e, Decidable (R s e)]

/-- How many events of a run are refills. -/
def refills : σ → List ε → Nat
  | _, [] => 0
  | s, e :: es =>
      (if R s e then 1 else 0) +
        match step s e with
        | none => 0
        | some s' => refills s' es

end Refills

section Measure

variable {R : σ → ε → Prop} {Φ : σ → Nat} {c : Nat}

/-- **The length of a run is paid for by the measure and the refills.** -/
theorem length_le_of_refills [∀ s e, Decidable (R s e)]
    (hlower : ∀ s e s', step s e = some s' → ¬ R s e → Φ s' < Φ s)
    (hrefill : ∀ s e s', step s e = some s' → R s e → Φ s' < Φ s + c) :
    ∀ {es : List ε} {s s' : σ}, exec step s es = some s' →
      es.length + Φ s' ≤ Φ s + c * refills step R s es := by
  intro es
  induction es with
  | nil =>
      intro s s' h
      cases h
      simp
  | cons e es ih =>
      intro s s' h
      rw [exec_cons, Option.bind_eq_some_iff] at h
      obtain ⟨t, ht, hrest⟩ := h
      have hes := ih hrest
      have hcount : refills step R s (e :: es) =
          (if R s e then 1 else 0) + refills step R t es := by
        rw [refills, ht]
      rw [List.length_cons, hcount, Nat.mul_add]
      by_cases hR : R s e
      · have := hrefill s e t ht hR
        rw [if_pos hR]
        omega
      · have := hlower s e t ht hR
        rw [if_neg hR]
        omega

/-- **An endless run is refilled again and again.** -/
theorem Endless.refills {s : σ} {states : Nat → σ} {events : Nat → ε}
    (hlower : ∀ s e s', step s e = some s' → ¬ R s e → Φ s' < Φ s)
    (h : Endless step s states events) (i : Nat) : ∃ j, i ≤ j ∧ R (states j) (events j) := by
  by_contra hnone
  -- otherwise the measure falls for ever from `i` on
  apply not_strictAnti_of_wellFoundedLT fun k => Φ (states (i + k))
  apply strictAnti_nat_of_succ_lt
  intro k
  apply hlower _ _ _ (h.next (i + k))
  intro hR
  exact hnone ⟨i + k, Nat.le_add_right i k, hR⟩

end Measure

end EndToEndSmkex.Lib.InfiniteRuns
