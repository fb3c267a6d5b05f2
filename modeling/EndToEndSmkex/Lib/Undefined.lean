import EndToEndSmkex.Lib.Run

/-!
# Steps without a defined outcome

A program that writes behind its memory, or through a pointer that was never
set, has left what its text says.  What is left of its state is then not its own
choice: `havoc defined step` lets the surroundings say what follows a step that
is not defined, and `none` is the end of the process.

A property of the runs of `havoc defined step` is one of the program only where
it does not rest on what an undefined step leaves.

## Main results

* `exec_havoc` — a run whose steps are all defined is one of the program.
* `steps_havoc_of_inv` — an invariant of the program's own step carries a
  property along every run whose steps are all defined.
-/

namespace EndToEndSmkex.Lib.Undefined

open EndToEndSmkex.Lib.Run

variable {σ ε : Type*} {defined : σ → ε → Prop} [∀ s e, Decidable (defined s e)]
  {step : σ → ε → Option σ}

/-- The program's step where it has an outcome, and any outcome elsewhere. -/
def havoc (defined : σ → ε → Prop) [∀ s e, Decidable (defined s e)] (step : σ → ε → Option σ)
    (s : σ) (e : ε × Option σ) : Option σ :=
  if defined s e.1 then step s e.1 else e.2

/-- Every step of the run has an outcome. -/
abbrev Defined (defined : σ → ε → Prop) [∀ s e, Decidable (defined s e)]
    (step : σ → ε → Option σ) (s : σ) (es : List (ε × Option σ)) : Prop :=
  Steps (havoc defined step) (fun s e _ => defined s e.1) s es

theorem havoc_of_defined {s : σ} {e : ε × Option σ} (h : defined s e.1) :
    havoc defined step s e = step s e.1 := if_pos h

/-- The program's step where it has an outcome, and no step elsewhere. -/
def strict (defined : σ → ε → Prop) [∀ s e, Decidable (defined s e)] (step : σ → ε → Option σ)
    (s : σ) (e : ε) : Option σ :=
  if defined s e then step s e else none

theorem strict_eq_some {s t : σ} {e : ε} :
    strict defined step s e = some t ↔ defined s e ∧ step s e = some t := by
  unfold strict
  split
  · next h => simp [h]
  · next h => simp [h]

/-- What is left out of a run is not what happened in it. -/
theorem exec_of_strict {t : σ} : ∀ {es : List ε} {s : σ},
    exec (strict defined step) s es = some t → exec step s es = some t := by
  intro es
  induction es with
  | nil =>
      intro s h
      exact h
  | cons e es ih =>
      intro s h
      rw [exec_cons, Option.bind_eq_some_iff] at h
      obtain ⟨s₁, hs₁, hrest⟩ := h
      rw [exec_cons, (strict_eq_some.1 hs₁).2, Option.bind_some]
      exact ih hrest

/-- A run of the program whose steps are all defined. -/
theorem exec_strict {t : σ} : ∀ {es : List ε} {s : σ},
    Steps step (fun s e _ => defined s e) s es → exec step s es = some t →
      exec (strict defined step) s es = some t := by
  intro es
  induction es with
  | nil =>
      intro s _ h
      exact h
  | cons e es ih =>
      intro s hdefined h
      rw [exec_cons, Option.bind_eq_some_iff] at h
      obtain ⟨s₁, hs₁, hrest⟩ := h
      obtain ⟨hd, htail⟩ := hdefined s₁ hs₁
      rw [exec_cons, strict_eq_some.2 ⟨hd, hs₁⟩, Option.bind_some]
      exact ih htail hrest

/-- **A run whose steps are all defined is one of the program.** -/
theorem exec_havoc :
    ∀ {es : List (ε × Option σ)} {s t : σ}, Defined defined step s es →
      exec (havoc defined step) s es = some t →
        exec (strict defined step) s (es.map Prod.fst) = some t := by
  intro es
  induction es with
  | nil =>
      intro s t _ h
      exact h
  | cons e es ih =>
      intro s t hdefined h
      rw [exec_cons, Option.bind_eq_some_iff] at h
      obtain ⟨s₁, hs₁, hrest⟩ := h
      obtain ⟨hd, htail⟩ := hdefined s₁ hs₁
      rw [havoc_of_defined hd] at hs₁
      rw [List.map_cons, exec_cons, strict_eq_some.2 ⟨hd, hs₁⟩, Option.bind_some]
      exact ih htail hrest

/-- A step property that follows from an invariant of the program and a
condition on its steps holds along every run whose steps meet the condition and
are defined. -/
theorem steps_havoc_of_inv {I : σ → Prop} {C Q : σ → ε → σ → Prop}
    (hstep : ∀ s e s', I s → defined s e → step s e = some s' → C s e s' → I s' ∧ Q s e s')
    {es : List (ε × Option σ)} {s : σ} (hs : I s)
    (hC : Steps (havoc defined step) (fun s e s' => defined s e.1 ∧ C s e.1 s') s es) :
    Steps (havoc defined step) (fun s e s' => Q s e.1 s') s es := by
  refine steps_of_inv (fun s e s' hs h hc => ?_) hs hC
  rw [havoc_of_defined hc.1] at h
  exact hstep s e.1 s' hs hc.1 h hc.2

/-- What the program keeps is kept by every run whose steps are defined. -/
theorem havoc_keeps {I : σ → Prop} {C : σ → ε → σ → Prop}
    (hpres : ∀ s e s', I s → defined s e → step s e = some s' → C s e s' → I s')
    {es : List (ε × Option σ)} {s s' : σ} (hs : I s)
    (hC : Steps (havoc defined step) (fun s e s' => defined s e.1 ∧ C s e.1 s') s es)
    (h : exec (havoc defined step) s es = some s') : I s' := by
  refine Steps.exec (fun s e s' hs h hc => ?_) hs hC h
  rw [havoc_of_defined hc.1] at h
  exact hpres s e.1 s' hs hc.1 h hc.2

end EndToEndSmkex.Lib.Undefined
