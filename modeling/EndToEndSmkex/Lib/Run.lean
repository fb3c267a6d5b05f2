import Mathlib.Data.List.Basic

/-!
# Finite runs of a partial transition function

A system is a function `step : σ → ε → Option σ`: an event either leads to
one next state or cannot be taken.  Whatever the surroundings choose (a
delivery, a random number, a failing call) is part of the event, so a run is
determined by its list of events.

`Steps step Q s es` says that every step taken while `es` is executed from `s`
satisfies the relation `Q` between the state before, the event and the state
after.  Both sides of a conditional statement have this shape: the condition is a
`Q` that ignores the state after, an invariant is a `Q` that reads nothing
else.

## Main results

* `Inv.exec` — an invariant of the single step is an invariant of the run.
* `steps_of_inv` — a step property that follows from an invariant under a
  condition holds along every run whose steps meet the condition.
* `steps_iff_of_inv` — where condition and property are equivalent under the
  invariant, they are equivalent along whole runs, although the invariant is
  only known to survive the steps that meet the condition.
* `exec_simulates`, `exec_map` — a simulation of the single step is one of the
  run.
-/

namespace EndToEndSmkex.Lib.Run

variable {σ ε : Type*}

/-- Execute a list of events; `none` as soon as one of them cannot be taken. -/
def exec (step : σ → ε → Option σ) : σ → List ε → Option σ
  | s, [] => some s
  | s, e :: es => (step s e).bind fun s' => exec step s' es

theorem exec_cons (step : σ → ε → Option σ) (s : σ) (e : ε) (es : List ε) :
    exec step s (e :: es) = (step s e).bind fun s' => exec step s' es := rfl

theorem exec_append {step : σ → ε → Option σ} {s t : σ} {es : List ε} (fs : List ε)
    (h : exec step s es = some t) : exec step s (es ++ fs) = exec step t fs := by
  induction es generalizing s with
  | nil =>
      cases h
      rfl
  | cons e es ih =>
      rw [exec_cons, Option.bind_eq_some_iff] at h
      obtain ⟨s₁, hs₁, hrest⟩ := h
      rw [List.cons_append, exec_cons, hs₁, Option.bind_some]
      exact ih hrest

/-- Every step taken while the events are executed satisfies `Q`. -/
def Steps (step : σ → ε → Option σ) (Q : σ → ε → σ → Prop) : σ → List ε → Prop
  | _, [] => True
  | s, e :: es => ∀ s', step s e = some s' → Q s e s' ∧ Steps step Q s' es

instance Steps.decidable (step : σ → ε → Option σ) (Q : σ → ε → σ → Prop)
    [∀ s e s', Decidable (Q s e s')] :
    (s : σ) → (es : List ε) → Decidable (Steps step Q s es)
  | _, [] => isTrue trivial
  | s, e :: es =>
      match h : step s e with
      | none => isTrue fun s' hs' => by rw [h] at hs'; cases hs'
      | some s' =>
          have : Decidable (Steps step Q s' es) := Steps.decidable step Q s' es
          decidable_of_iff (Q s e s' ∧ Steps step Q s' es)
            ⟨fun hs t ht => by rw [h] at ht; cases ht; exact hs, fun hs => hs s' h⟩

section Rules

variable {step : σ → ε → Option σ} {Q C : σ → ε → σ → Prop} {I : σ → Prop}

/-- A condition on the events alone. -/
theorem steps_of_forall {C : ε → Prop} :
    ∀ {es : List ε} {s : σ}, (∀ e ∈ es, C e) → Steps step (fun _ e _ => C e) s es := by
  intro es
  induction es with
  | nil => intro s _; trivial
  | cons e es ih =>
      intro s h s' _
      exact ⟨h e (by simp), ih fun d hd => h d (by simp [hd])⟩

/-- What two conditions on a step imply holds of every step that meets both. -/
theorem Steps.combine {R : σ → ε → σ → Prop}
    (himp : ∀ s e s', Q s e s' → C s e s' → R s e s') :
    ∀ {es : List ε} {s : σ}, Steps step Q s es → Steps step C s es → Steps step R s es := by
  intro es
  induction es with
  | nil => intro s _ _; trivial
  | cons e es ih =>
      intro s hQ hC s' h
      exact ⟨himp s e s' (hQ s' h).1 (hC s' h).1, ih (hQ s' h).2 (hC s' h).2⟩

/-- The rest of a run. -/
theorem Steps.behind :
    ∀ {past es : List ε} {s t : σ}, Steps step Q s (past ++ es) → exec step s past = some t →
      Steps step Q t es := by
  intro past
  induction past with
  | nil =>
      intro es s t h ht
      cases ht
      exact h
  | cons d past ih =>
      intro es s t h ht
      rw [exec_cons, Option.bind_eq_some_iff] at ht
      obtain ⟨s₁, hs₁, hrest⟩ := ht
      exact ih (h s₁ hs₁).2 hrest

/-- The last step of a run is one of its steps. -/
theorem Steps.last {e : ε} {es : List ε} {s t t' : σ} (h : Steps step Q s (es ++ [e]))
    (ht : Run.exec step s es = some t) (ht' : step t e = some t') : Q t e t' :=
  (h.behind ht t' ht').1

/-- The steps of a run, one by one. -/
theorem steps_iff_forall :
    ∀ {es : List ε} {s : σ}, Steps step Q s es ↔
      ∀ past e rest t t', es = past ++ e :: rest → exec step s past = some t →
        step t e = some t' → Q t e t' := by
  intro es
  induction es with
  | nil =>
      intro s
      constructor
      · intro _ past e rest t t' hes
        simp at hes
      · intro _
        trivial
  | cons d es ih =>
      intro s
      constructor
      · rintro h past e rest t t' hes ht ht'
        exact ((hes ▸ h).behind ht t' ht').1
      · intro h s₁ hs₁
        refine ⟨h [] d es s s₁ rfl rfl hs₁, ih.2 ?_⟩
        rintro past e rest t t' rfl ht ht'
        refine h (d :: past) e rest t t' rfl ?_ ht'
        rw [exec_cons, hs₁, Option.bind_some, ht]

/-- An invariant of the single step is an invariant of the run. -/
theorem Inv.exec (hpres : ∀ s e s', I s → step s e = some s' → I s') :
    ∀ {es : List ε} {s s' : σ}, I s → Run.exec step s es = some s' → I s' := by
  intro es
  induction es with
  | nil =>
      intro s s' hs h
      cases h
      exact hs
  | cons e es ih =>
      intro s s' hs h
      rw [exec_cons, Option.bind_eq_some_iff] at h
      obtain ⟨t, ht, hrest⟩ := h
      exact ih (hpres s e t hs ht) hrest

/-- An invariant of the steps that meet a condition holds at the end of every
run whose steps meet it. -/
theorem Steps.exec (hpres : ∀ s e s', I s → step s e = some s' → C s e s' → I s') :
    ∀ {es : List ε} {s s' : σ}, I s → Steps step C s es →
      Run.exec step s es = some s' → I s' := by
  intro es
  induction es with
  | nil =>
      intro s s' hs _ h
      cases h
      exact hs
  | cons e es ih =>
      intro s s' hs hC h
      rw [exec_cons, Option.bind_eq_some_iff] at h
      obtain ⟨t, ht, hrest⟩ := h
      obtain ⟨hc, hC⟩ := hC t ht
      exact ih (hpres s e t hs ht hc) hC hrest

/-- A step property that follows from an invariant and a condition on the
steps holds along every run whose steps meet the condition. -/
theorem steps_of_inv
    (hstep : ∀ s e s', I s → step s e = some s' → C s e s' → I s' ∧ Q s e s') :
    ∀ {es : List ε} {s : σ}, I s → Steps step C s es → Steps step Q s es := by
  intro es
  induction es with
  | nil => intro s _ _; trivial
  | cons e es ih =>
      intro s hs hC s' h
      obtain ⟨hc, hrest⟩ := hC s' h
      obtain ⟨hs', hq⟩ := hstep s e s' hs h hc
      exact ⟨hq, ih hs' hrest⟩

/-- Property and condition agree along whole runs once they agree on every
step from an invariant state, along runs whose steps meet a side condition.  The
invariant has to survive only the steps that meet the condition: the first step
that misses it already decides both sides. -/
theorem steps_iff_of_steps {A : σ → ε → σ → Prop}
    (hiff : ∀ s e s', I s → step s e = some s' → A s e s' → (Q s e s' ↔ C s e s'))
    (hpres : ∀ s e s', I s → step s e = some s' → A s e s' → C s e s' → I s') :
    ∀ {es : List ε} {s : σ}, I s → Steps step A s es →
      (Steps step Q s es ↔ Steps step C s es) := by
  intro es
  induction es with
  | nil => intro s _ _; exact Iff.rfl
  | cons e es ih =>
      intro s hs hA
      constructor
      · intro hQ s' h
        have hc := (hiff s e s' hs h (hA s' h).1).1 (hQ s' h).1
        have hs' := hpres s e s' hs h (hA s' h).1 hc
        exact ⟨hc, (ih hs' (hA s' h).2).1 (hQ s' h).2⟩
      · intro hC s' h
        have hs' := hpres s e s' hs h (hA s' h).1 (hC s' h).1
        exact ⟨(hiff s e s' hs h (hA s' h).1).2 (hC s' h).1, (ih hs' (hA s' h).2).2 (hC s' h).2⟩

/-- The same where the side condition is one on the events. -/
theorem steps_iff_of_inv {E : ε → Prop}
    (hiff : ∀ s e s', I s → E e → step s e = some s' → (Q s e s' ↔ C s e s'))
    (hpres : ∀ s e s', I s → E e → step s e = some s' → C s e s' → I s')
    {es : List ε} {s : σ} (hs : I s) (hE : ∀ e ∈ es, E e) :
    Steps step Q s es ↔ Steps step C s es :=
  steps_iff_of_steps (A := fun _ e _ => E e)
    (fun s e s' hs h he => hiff s e s' hs he h) (fun s e s' hs h he => hpres s e s' hs he h)
    hs (steps_of_forall hE)

end Rules

/-! ## Simulation -/

section Simulation

variable {step : σ → ε → Option σ} {D : ε → Prop} {P Q : σ → Prop}

/-- A run of events with `D` leads to a state with `P`. -/
def Reaches (step : σ → ε → Option σ) (D : ε → Prop) (s : σ) (P : σ → Prop) : Prop :=
  ∃ es s', (∀ e ∈ es, D e) ∧ exec step s es = some s' ∧ P s'

theorem reaches_refl {s : σ} (h : P s) : Reaches step D s P :=
  ⟨[], s, by simp, rfl, h⟩

theorem reaches_step {s s' : σ} {e : ε} (he : D e) (h : step s e = some s') (hP : P s') :
    Reaches step D s P :=
  ⟨[e], s', by simpa using he, by rw [exec_cons, h]; rfl, hP⟩

theorem Reaches.trans {s : σ} (h : Reaches step D s P)
    (hrest : ∀ s', P s' → Reaches step D s' Q) : Reaches step D s Q := by
  obtain ⟨es, t, hes, ht, hP⟩ := h
  obtain ⟨fs, t', hfs, ht', hQ⟩ := hrest t hP
  refine ⟨es ++ fs, t', ?_, by rw [exec_append fs ht, ht'], hQ⟩
  intro e he
  obtain he | he := List.mem_append.1 he
  · exact hes e he
  · exact hfs e he

/-- **Simulation.**  Where every step is matched by a run of another system, so
is every run. -/
theorem exec_simulates {τ φ : Type*} {lower : τ → φ → Option τ} {C : φ → Prop}
    {R : τ → σ → Prop}
    (hstep : ∀ w e w' s, C e → R w s → lower w e = some w' →
      Reaches step D s (R w')) :
    ∀ {es : List φ} {w w' : τ} {s : σ}, (∀ e ∈ es, C e) → R w s →
      exec lower w es = some w' → Reaches step D s (R w') := by
  intro es
  induction es with
  | nil =>
      intro w w' s _ hR h
      cases h
      exact reaches_refl hR
  | cons e es ih =>
      intro w w' s hC hR h
      rw [exec_cons, Option.bind_eq_some_iff] at h
      obtain ⟨w₁, hw₁, hrest⟩ := h
      have hfirst := hstep w e w₁ s (hC e (by simp)) hR hw₁
      exact hfirst.trans fun s₁ hR₁ => ih (fun d hd => hC d (by simp [hd])) hR₁ hrest

/-- Where a function carries every step over, it carries every run over. -/
theorem exec_map {τ : Type*} {lower : τ → ε → Option τ} {f : τ → σ} {I : τ → Prop}
    (hmap : ∀ w e, I w → (lower w e).map f = step (f w) e)
    (hpres : ∀ w e w', I w → lower w e = some w' → I w') :
    ∀ {es : List ε} {w : τ}, I w → (exec lower w es).map f = exec step (f w) es := by
  intro es
  induction es with
  | nil =>
      intro w _
      rfl
  | cons e es ih =>
      intro w hw
      rw [exec_cons, exec_cons, ← hmap w e hw]
      cases h : lower w e with
      | none => rfl
      | some w' => exact ih (hpres w e w' hw h)

end Simulation

end EndToEndSmkex.Lib.Run
