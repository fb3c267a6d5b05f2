import Mathlib.Data.List.Forall2
import Mathlib.Logic.Basic

/-!
# Actions that report events and may end the process

`Act E α` is a computation of a program that does visible things (values of
`E`, in order) and may call `exit`, after which nothing of it runs.
-/

namespace EndToEndSmkex.Lib.Actions

/-- The result and the events of an action; `none` when it exits. -/
structure Act (E α : Type) where
  run : Option (α × List E)

variable {E α β : Type}

instance : Monad (Act E) where
  pure a := ⟨some (a, [])⟩
  bind m f := ⟨m.run.bind fun p => ((f p.1).run).map fun q => (q.1, p.2 ++ q.2)⟩

/-- `exit(1)`. -/
def exit : Act E α := ⟨none⟩

/-- Do something visible. -/
def tell (e : E) : Act E Unit := ⟨some ((), [e])⟩

@[simp] theorem run_pure (a : α) : (pure a : Act E α).run = some (a, []) := rfl

theorem run_tell (e : E) : (tell e : Act E Unit).run = some ((), [e]) := rfl

theorem run_bind (m : Act E α) (f : α → Act E β) :
    (m >>= f).run =
      m.run.bind fun p => ((f p.1).run).map fun q => (q.1, p.2 ++ q.2) := rfl

/-- Peel a finished action apart. -/
theorem run_bind_eq_some {m : Act E α} {f : α → Act E β} {b : β} {log : List E} :
    (m >>= f).run = some (b, log) ↔
      ∃ a l₁ l₂, m.run = some (a, l₁) ∧ (f a).run = some (b, l₂) ∧ log = l₁ ++ l₂ := by
  rw [run_bind]
  constructor
  · intro h
    obtain ⟨⟨a, l₁⟩, hm, h⟩ := Option.bind_eq_some_iff.1 h
    obtain ⟨⟨b', l₂⟩, hf, h⟩ := Option.map_eq_some_iff.1 h
    cases h
    exact ⟨a, l₁, l₂, hm, hf, rfl⟩
  · rintro ⟨a, l₁, l₂, hm, hf, rfl⟩
    simp [hm, hf]

/-- An action returns where its parts do. -/
theorem isSome_run_bind {m : Act E α} {f : α → Act E β} (hm : m.run.isSome)
    (hf : ∀ a, (f a).run.isSome) : (m >>= f).run.isSome := by
  obtain ⟨⟨a, log⟩, hrun⟩ := Option.isSome_iff_exists.1 hm
  rw [run_bind, hrun, Option.bind_some, Option.isSome_map]
  exact hf a

/-! ## The result alone -/

/-- What an action returns. -/
def value (m : Act E α) : Option α := m.run.map Prod.fst

@[simp] theorem value_pure (a : α) : value (pure a : Act E α) = some a := rfl

@[simp] theorem value_tell (e : E) : value (tell e) = some () := rfl

@[simp] theorem value_bind (m : Act E α) (f : α → Act E β) :
    value (m >>= f) = (value m).bind fun a => value (f a) := by
  unfold value
  rw [run_bind]
  cases m.run with
  | none => rfl
  | some p => simp [Option.map_map, Function.comp_def]

theorem run_of_value {m : Act E α} {a : α} (h : value m = some a) :
    ∃ log, m.run = some (a, log) := by
  obtain ⟨⟨b, log⟩, hrun, rfl⟩ := Option.map_eq_some_iff.1 h
  exact ⟨log, hrun⟩

/-! ## A property of all events -/

/-- Where the action returns, each of its events has the property. -/
def Emits (P : E → Prop) (m : Act E α) : Prop :=
  ∀ a log, m.run = some (a, log) → ∀ e ∈ log, P e

section Emits

variable {P : E → Prop}

theorem emits_pure (a : α) : Emits P (pure a) := by
  intro b log h
  cases h
  simp

theorem emits_exit : Emits P (exit : Act E α) := by
  intro a log h
  cases h

theorem emits_tell {e : E} (he : P e) : Emits P (tell e) := by
  intro a log h
  cases h
  simpa using he

theorem Emits.bind {m : Act E α} {f : α → Act E β} (hm : Emits P m)
    (hf : ∀ a, Emits P (f a)) : Emits P (m >>= f) := by
  intro b log h e he
  obtain ⟨a, l₁, l₂, hrun, hrest, rfl⟩ := run_bind_eq_some.1 h
  obtain he | he := List.mem_append.1 he
  · exact hm a l₁ hrun e he
  · exact hf a b l₂ hrest e he

end Emits

/-! ## Result and events -/

/-- Where the action returns, its value satisfies `R` and its events `P`. -/
def Ensures (P : E → Prop) (R : α → Prop) (m : Act E α) : Prop :=
  ∀ a log, m.run = some (a, log) → R a ∧ ∀ e ∈ log, P e

section Ensures

variable {P : E → Prop} {R : α → Prop} {S : β → Prop}

/-- An action that is known to return. -/
theorem ensures_of_run {m : Act E α} {a : α} {log : List E} (hrun : m.run = some (a, log))
    (ha : R a) (hlog : ∀ e ∈ log, P e) : Ensures P R m := by
  intro b log' h
  have hsame : (a, log) = (b, log') := Option.some.inj (hrun.symm.trans h)
  cases hsame
  exact ⟨ha, hlog⟩

theorem ensures_pure {a : α} (ha : R a) : Ensures P R (pure a) :=
  ensures_of_run (run_pure a) ha (by simp)

theorem ensures_exit : Ensures P R (exit : Act E α) := by
  intro a log h
  cases h

theorem ensures_tell {e : E} (he : P e) : Ensures P (fun _ => True) (tell e) :=
  ensures_of_run (run_tell e) trivial (by simpa using he)

theorem Ensures.bind {m : Act E α} {f : α → Act E β} (hm : Ensures P R m)
    (hf : ∀ a, R a → Ensures P S (f a)) : Ensures P S (m >>= f) := by
  intro b log h
  obtain ⟨a, l₁, l₂, hrun, hrest, rfl⟩ := run_bind_eq_some.1 h
  obtain ⟨ha, hl₁⟩ := hm a l₁ hrun
  obtain ⟨hb, hl₂⟩ := hf a ha b l₂ hrest
  refine ⟨hb, fun e he => ?_⟩
  obtain he | he := List.mem_append.1 he
  · exact hl₁ e he
  · exact hl₂ e he

end Ensures

/-! ## Two actions side by side -/

/-- Where the first action returns, the second one returns the same, and their
events correspond one by one. -/
def Matches {F : Type} (R : E → F → Prop) (m : Act E α) (m' : Act F α) : Prop :=
  ∀ a log, m.run = some (a, log) → ∃ log', m'.run = some (a, log') ∧ List.Forall₂ R log log'

section Matches

variable {F : Type} {R : E → F → Prop}

theorem matches_pure (a : α) : Matches R (pure a) (pure a) := by
  intro b log h
  cases h
  exact ⟨[], rfl, .nil⟩

theorem matches_exit {m' : Act F α} : Matches R (exit : Act E α) m' := by
  intro a log h
  cases h

theorem matches_tell {e : E} {e' : F} (he : R e e') : Matches R (tell e) (tell e') := by
  intro a log h
  cases h
  exact ⟨[e'], rfl, .cons he .nil⟩

theorem Matches.bind {m : Act E α} {m' : Act F α} {f : α → Act E β} {f' : α → Act F β}
    (hm : Matches R m m') (hf : ∀ a, Matches R (f a) (f' a)) :
    Matches R (m >>= f) (m' >>= f') := by
  intro b log h
  obtain ⟨a, l₁, l₂, hrun, hrest, rfl⟩ := run_bind_eq_some.1 h
  obtain ⟨l₁', hrun', h₁⟩ := hm a l₁ hrun
  obtain ⟨l₂', hrest', h₂⟩ := hf a b l₂ hrest
  exact ⟨l₁' ++ l₂', run_bind_eq_some.2 ⟨a, l₁', l₂', hrun', hrest', rfl⟩,
    List.rel_append h₁ h₂⟩

end Matches

/-! ## Actions with events of another kind -/

/-- The action with its events left out. -/
def quiet {F : Type} (m : Act E α) : Act F α := ⟨m.run.map fun p => (p.1, [])⟩

theorem ensures_quiet {F : Type} {P : F → Prop} {m : Act E α} :
    Ensures P (fun _ => True) (quiet m : Act F α) := by
  intro a log h
  obtain ⟨p, -, hp⟩ := Option.map_eq_some_iff.1 h
  cases hp
  exact ⟨trivial, by simp⟩

end EndToEndSmkex.Lib.Actions
