import EndToEndSmkex.Lib.Run

/-!
# Owners that do not see each other

Every event of a system belongs to one owner, and every owner sees a part of
the state.  Two runs are compared: one of all events, and one in which every
event of one owner is replaced by its partner and those of all others are left
out.  If an event changes nothing in what the others see, and an event and its
partner lead from what looks the same to the owner to what looks the same, then
the owner sees no difference at the end.

## Main results

* `Unwinds.exec_paired` — the run of one owner's partners takes place, and ends
  in what looks like the end of the run of all events.
-/

namespace EndToEndSmkex.Lib.Unwinding

open EndToEndSmkex.Lib.Run

variable {σ ε ι : Type*}

/-- The two conditions on a single step.  `Allowed` restricts the events of the
long run, `Partner` says which event may stand for another one in a state, and
`Sees x s t` that `s` and `t` look the same to `x`.  `respects`: what belongs to
others is not seen.  `consistent`: where the states look the same, the partner
can be taken as well and leads to what looks the same. -/
structure Unwinds (step : σ → ε → Option σ) (owner : ε → ι) (Allowed : σ → ε → Prop)
    (Partner : σ → ε → ε → Prop) (Sees : ι → σ → σ → Prop) : Prop where
  respects : ∀ {x s t e s'}, owner e ≠ x → Allowed s e → Sees x s t → step s e = some s' →
    Sees x s' t
  consistent : ∀ {s t e f s'}, Allowed s e → Partner s e f → Sees (owner e) s t →
    step s e = some s' → ∃ t', step t f = some t' ∧ Sees (owner e) s' t'

/-- A step of the long run, whose events come with their partners. -/
abbrev paired (step : σ → ε → Option σ) (s : σ) (p : ε × ε) : Option σ := step s p.1

/-- The partners of one owner's events. -/
def partners [DecidableEq ι] (owner : ε → ι) (x : ι) (ps : List (ε × ε)) : List ε :=
  (ps.filter (owner ·.1 = x)).map Prod.snd

variable {step : σ → ε → Option σ} {owner : ε → ι} {Allowed : σ → ε → Prop}
  {Partner : σ → ε → ε → Prop} {Sees : ι → σ → σ → Prop}

/-- **Leaving out the events of all others changes nothing in what an owner
sees**, nor does taking partners for their own. -/
theorem Unwinds.exec_paired [DecidableEq ι] (h : Unwinds step owner Allowed Partner Sees)
    (x : ι) :
    ∀ {ps : List (ε × ε)} {s t s' : σ}, Sees x s t →
      Steps (paired step)
        (fun s p _ => Allowed s p.1 ∧ (owner p.1 = x → Partner s p.1 p.2)) s ps →
      exec (paired step) s ps = some s' →
        ∃ t', exec step t (partners owner x ps) = some t' ∧ Sees x s' t' := by
  intro ps
  induction ps with
  | nil =>
      intro s t s' hsees _ hrun
      cases hrun
      exact ⟨t, rfl, hsees⟩
  | cons p ps ih =>
      intro s t s' hsees hsteps hrun
      rw [exec_cons, Option.bind_eq_some_iff] at hrun
      obtain ⟨s₁, hs₁, hrest⟩ := hrun
      obtain ⟨⟨hallowed, hpartner⟩, hsteps⟩ := hsteps s₁ hs₁
      by_cases howner : owner p.1 = x
      · subst howner
        obtain ⟨t₁, ht₁, hsees₁⟩ := h.consistent hallowed (hpartner rfl) hsees hs₁
        obtain ⟨t', ht', hsees'⟩ := ih hsees₁ hsteps hrest
        refine ⟨t', ?_, hsees'⟩
        rw [partners, List.filter_cons_of_pos (by simp), List.map_cons, exec_cons, ht₁]
        exact ht'
      · have hsees₁ : Sees x s₁ t := h.respects howner hallowed hsees hs₁
        rw [partners, List.filter_cons_of_neg (by simpa using howner)]
        exact ih hsees₁ hsteps hrest

end EndToEndSmkex.Lib.Unwinding
