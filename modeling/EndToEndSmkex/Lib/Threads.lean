import EndToEndSmkex.Lib.Run
import Mathlib.Data.Fintype.Basic
import Mathlib.Logic.Function.Basic

/-!
# Threads that share memory and locks

A thread is a piece of `Code`: it takes and releases locks and acts on the
shared state.  What it does after an action may depend on the state the action
found.  A schedule is a list of threads, each with the answer its action is given
by the surroundings, and one entry is one step of that thread.

A mutex may be taken again by the thread that holds it.  A lock for reading and
writing may not: a thread that holds it in one mode and asks for it in an
excluded one waits for itself.

## Main results

* `Discipline.Kept.step` — a discipline that every piece of code obeys is kept by
  every step, whichever thread makes it.
* `Discipline.Kept.exec` — so it is kept in every interleaving.
-/

namespace EndToEndSmkex.Lib.Threads

open EndToEndSmkex.Lib.Run

/-! ## Locks -/

inductive Mode where
  | mutex
  | read
  | write
  deriving DecidableEq

/-- A hold that stands in the way of a request; `own` where the thread that asks
is the holder. -/
def Mode.excludes (own : Bool) : (wanted held : Mode) → Bool
  | .mutex, _ => !own
  | .read, .read => false
  | _, _ => true

/-- The locks a thread holds, the last one taken first. -/
abbrev Holds (L : Type) := List (L × Mode)

section Locks

variable {T L : Type}

/-- Two threads hold one lock only to read. -/
def Exclusive (holds : T → Holds L) : Prop :=
  ∀ t u, t ≠ u → ∀ x ∈ holds t, ∀ y ∈ holds u, x.1 = y.1 → x.2 = .read ∧ y.2 = .read

theorem exclusive_nil : Exclusive fun _ : T => ([] : Holds L) := by
  intro t u _ x hx
  cases hx

/-- A lock held other than to read is held by one thread. -/
theorem Exclusive.eq {holds : T → Holds L} (h : Exclusive holds) {t u : T} {lock : L}
    {mode mode' : Mode} (hmode : mode ≠ .read) (ht : (lock, mode) ∈ holds t)
    (hu : (lock, mode') ∈ holds u) : t = u := by
  by_contra hne
  exact hmode (h t u hne _ ht _ hu rfl).1

variable [DecidableEq T]

/-- No hold stands in the way. -/
def Free (holds : T → Holds L) (t : T) (lock : L) (mode : Mode) : Prop :=
  ∀ u, ∀ x ∈ holds u, x.1 = lock → mode.excludes (decide (u = t)) x.2 = false

instance [Fintype T] [DecidableEq L] (holds : T → Holds L) (t : T) (lock : L) (mode : Mode) :
    Decidable (Free holds t lock mode) :=
  inferInstanceAs (Decidable (∀ u, ∀ x ∈ holds u, _))

/-- Giving up locks keeps them exclusive. -/
theorem Exclusive.shrink {holds : T → Holds L} (h : Exclusive holds) {t : T} {less : Holds L}
    (hless : ∀ x ∈ less, x ∈ holds t) : Exclusive (Function.update holds t less) := by
  have hmem : ∀ u, ∀ x ∈ Function.update holds t less u, x ∈ holds u := by
    intro u x hx
    by_cases hu : u = t
    · subst hu
      rw [Function.update_self] at hx
      exact hless x hx
    · rwa [Function.update_of_ne hu] at hx
  intro u v huv x hx y hy
  exact h u v huv x (hmem u x hx) y (hmem v y hy)

/-- So does taking a lock that is free. -/
theorem Exclusive.acquire {holds : T → Holds L} (h : Exclusive holds) {t : T} {lock : L}
    {mode : Mode} (hfree : Free holds t lock mode) :
    Exclusive (Function.update holds t ((lock, mode) :: holds t)) := by
  have hread : ∀ u, u ≠ t → ∀ y ∈ holds u, lock = y.1 → mode = .read ∧ y.2 = .read := by
    intro u hu y hy hlock
    have hexcludes := hfree u y hy hlock.symm
    rw [decide_eq_false hu] at hexcludes
    rcases y with ⟨l, m⟩
    cases mode <;> cases m <;> simp [Mode.excludes] at hexcludes ⊢
  intro u v huv x hx y hy hxy
  by_cases hu : u = t
  · subst hu
    rw [Function.update_self] at hx
    rw [Function.update_of_ne huv.symm] at hy
    rcases List.mem_cons.1 hx with rfl | hx
    · exact hread v huv.symm y hy hxy
    · exact h u v huv x hx y hy hxy
  · rw [Function.update_of_ne hu] at hx
    by_cases hv : v = t
    · subst hv
      rw [Function.update_self] at hy
      rcases List.mem_cons.1 hy with rfl | hy
      · exact (hread u hu x hx hxy.symm).symm
      · exact h u v huv x hx y hy hxy
    · rw [Function.update_of_ne hv] at hy
      exact h u v huv x hx y hy hxy

end Locks

/-! ## Code -/

/-- What a thread has still to do.  `effect` is `none` for an answer that does not
fit; `next` gets the state the action has found. -/
inductive Code (L σ A : Type) where
  | done
  | acquire (lock : L) (mode : Mode) (next : Code L σ A)
  | release (lock : L) (next : Code L σ A)
  | act (effect : σ → A → Option σ) (next : σ → A → Code L σ A)

namespace Code

variable {L σ A β : Type}

/-- An action that returns something to the code behind it. -/
def perform (f : σ → A → Option (σ × β)) (next : β → Code L σ A) : Code L σ A :=
  .act (fun s a => (f s a).map Prod.fst) fun s a =>
    match f s a with
    | none => .done
    | some p => next p.2

/-- Change the shared state. -/
def update (f : σ → σ) (next : Code L σ A) : Code L σ A :=
  .act (fun s _ => some (f s)) fun _ _ => next

/-- Read the shared state. -/
def look (next : σ → Code L σ A) : Code L σ A := .act (fun s _ => some s) fun s _ => next s

end Code

/-- The shared state, and each thread with the locks it holds. -/
structure Config (T L σ A : Type) where
  shared : σ
  code : T → Code L σ A
  holds : T → Holds L

section Steps

variable {T L σ A : Type} [DecidableEq T] [DecidableEq L]

namespace Config

/-- One step of a thread. -/
def step [Fintype T] (c : Config T L σ A) (e : T × A) : Option (Config T L σ A) :=
  match c.code e.1 with
  | .done => none
  | .acquire lock mode next =>
    if Free c.holds e.1 lock mode then
      some { c with
        code := Function.update c.code e.1 next
        holds := Function.update c.holds e.1 ((lock, mode) :: c.holds e.1) }
    else none
  | .release lock next =>
    some { c with
      code := Function.update c.code e.1 next
      holds := Function.update c.holds e.1 ((c.holds e.1).eraseP fun x => x.1 = lock) }
  | .act effect next =>
    (effect c.shared e.2).map fun s =>
      { c with shared := s, code := Function.update c.code e.1 (next c.shared e.2) }

/-- What a step can be. -/
inductive Moved (c : Config T L σ A) (t : T) (a : A) : Config T L σ A → Prop
  | acquired {lock : L} {mode : Mode} {next : Code L σ A}
      (code : c.code t = .acquire lock mode next) (free : Free c.holds t lock mode) :
      Moved c t a
        ⟨c.shared, Function.update c.code t next,
          Function.update c.holds t ((lock, mode) :: c.holds t)⟩
  | released {lock : L} {next : Code L σ A} (code : c.code t = .release lock next) :
      Moved c t a
        ⟨c.shared, Function.update c.code t next,
          Function.update c.holds t ((c.holds t).eraseP fun x => x.1 = lock)⟩
  | acted {effect : σ → A → Option σ} {next : σ → A → Code L σ A} {s : σ}
      (code : c.code t = .act effect next) (effect : effect c.shared a = some s) :
      Moved c t a ⟨s, Function.update c.code t (next c.shared a), c.holds⟩

theorem step_moved [Fintype T] {c c' : Config T L σ A} {t : T} {a : A}
    (h : c.step (t, a) = some c') : Moved c t a c' := by
  unfold step at h
  cases hcode : c.code t with
  | done => simp [hcode] at h
  | acquire lock mode next =>
      simp only [hcode] at h
      split at h
      · next hfree =>
        cases h
        exact .acquired hcode hfree
      · cases h
  | release lock next =>
      simp only [hcode, Option.some.injEq] at h
      subst h
      exact .released hcode
  | act effect next =>
      simp only [hcode, Option.map_eq_some_iff] at h
      obtain ⟨s, hs, rfl⟩ := h
      exact .acted hcode hs

/-- The other threads stay where they are. -/
theorem Moved.other {c c' : Config T L σ A} {t u : T} {a : A} (h : Moved c t a c')
    (hu : u ≠ t) : c'.code u = c.code u ∧ c'.holds u = c.holds u := by
  cases h with
  | acquired | released => simp [Function.update_of_ne hu]
  | acted => simp [Function.update_of_ne hu]

/-- What is behind the first operation. -/
def behind (s : σ) (a : A) : Code L σ A → Code L σ A
  | .done => .done
  | .acquire _ _ next | .release _ next => next
  | .act _ next => next s a

theorem Moved.rest {c c' : Config T L σ A} {t : T} {a : A} (h : Moved c t a c') :
    c'.code t = behind c.shared a (c.code t) := by
  cases h with
  | acquired hcode | released hcode | acted hcode => simp [hcode, behind]

/-- Every thread at its beginning, without locks. -/
def start (s : σ) (code : T → Code L σ A) : Config T L σ A := ⟨s, code, fun _ => []⟩

end Config

end Steps

/-! ## Disciplines -/

/-- What is to hold of threads that run together.  Each thread has a phase,
which is ghost state.  `inv` is an invariant of the shared state, the locks held
and the phases; `asks` is what holds when a thread is about to take a lock, `acts`
what one of its actions may do, and `ends` what it leaves. -/
structure Discipline (T L σ P : Type) where
  inv : σ → (T → Holds L) → (T → P) → Prop
  asks : σ → (T → Holds L) → (T → P) → T → L → Mode → Prop
  acts : σ → (T → Holds L) → T → σ → Prop
  ends : Holds L → P → Prop

namespace Discipline

variable {T L σ A P : Type} [DecidableEq T] (D : Discipline T L σ P)

/-- How things stand when a thread that holds these locks is in this phase. -/
structure Sees (t : T) (mine : Holds L) (phase : P) (s : σ) (holds : T → Holds L)
    (phases : T → P) : Prop where
  inv : D.inv s holds phases
  exclusive : Exclusive holds
  holds : holds t = mine
  phase : phases t = phase

variable {D} in
theorem Sees.same {t : T} {mine : Holds L} {phase : P} {s : σ} {holds : T → Holds L}
    {phases : T → P} (h : D.Sees t mine phase s holds phases) :
    D.inv s holds (Function.update phases t phase) := by
  have hphase : Function.update phases t phase = phases := by
    rw [← h.phase, Function.update_eq_self]
  exact hphase.symm ▸ h.inv

variable [DecidableEq L]

/-- The code obeys the discipline from this phase on, whatever the other threads
do in between. -/
def Obeys : Holds L → P → Code L σ A → Prop
  | mine, phase, .done => D.ends mine phase
  | mine, phase, .acquire lock mode next =>
    (∀ t s holds phases, D.Sees t mine phase s holds phases →
      D.asks s holds phases t lock mode) ∧
    ∃ phase', (∀ t s holds phases, D.Sees t mine phase s holds phases →
        Free holds t lock mode →
          D.inv s (Function.update holds t ((lock, mode) :: mine))
            (Function.update phases t phase')) ∧
      Obeys ((lock, mode) :: mine) phase' next
  | mine, phase, .release lock next =>
    ∃ phase', (∀ t s holds phases, D.Sees t mine phase s holds phases →
        D.inv s (Function.update holds t (mine.eraseP fun x => x.1 = lock))
          (Function.update phases t phase')) ∧
      Obeys (mine.eraseP fun x => x.1 = lock) phase' next
  | mine, phase, .act effect next =>
    ∀ t s holds phases, D.Sees t mine phase s holds phases →
      ∀ a s', effect s a = some s' → (s' = s ∨ D.acts s holds t s') ∧
        ∃ phase', D.inv s' holds (Function.update phases t phase') ∧
          Obeys mine phase' (next s a)

/-- The discipline is kept so far, and every thread obeys it from here on. -/
structure Kept (phases : T → P) (c : Config T L σ A) : Prop where
  inv : D.inv c.shared c.holds phases
  exclusive : Exclusive c.holds
  obeys : ∀ t, D.Obeys (c.holds t) (phases t) (c.code t)

/-! ### Rules for single actions -/

section Rules

variable {D} {mine : Holds L} {phase : P}

theorem obeys_perform {β : Type} {f : σ → A → Option (σ × β)} {next : β → Code L σ A}
    (h : ∀ t s holds phases, D.Sees t mine phase s holds phases →
      ∀ a s' b, f s a = some (s', b) → (s' = s ∨ D.acts s holds t s') ∧
        ∃ phase', D.inv s' holds (Function.update phases t phase') ∧
          D.Obeys mine phase' (next b)) :
    D.Obeys mine phase (.perform f next) := by
  intro t s holds phases hsees a s' heffect
  obtain ⟨⟨s₁, b⟩, hf, rfl⟩ := Option.map_eq_some_iff.1 heffect
  obtain ⟨hacts, phase', hinv, hnext⟩ := h t s holds phases hsees a s₁ b hf
  refine ⟨hacts, phase', hinv, ?_⟩
  simpa only [hf] using hnext

theorem obeys_update {f : σ → σ} {next : Code L σ A} (phase' : P)
    (h : ∀ t s holds phases, D.Sees t mine phase s holds phases →
      D.acts s holds t (f s) ∧ D.inv (f s) holds (Function.update phases t phase'))
    (hnext : D.Obeys mine phase' next) : D.Obeys mine phase (.update f next) := by
  intro t s holds phases hsees a s' heffect
  cases heffect
  obtain ⟨hacts, hinv⟩ := h t s holds phases hsees
  exact ⟨Or.inr hacts, phase', hinv, hnext⟩

theorem obeys_look {next : σ → Code L σ A}
    (h : ∀ t s holds phases, D.Sees t mine phase s holds phases →
      ∃ phase', D.inv s holds (Function.update phases t phase') ∧
        D.Obeys mine phase' (next s)) :
    D.Obeys mine phase (.look next) := by
  intro t s holds phases hsees a s' heffect
  cases heffect
  exact ⟨Or.inl rfl, h t s holds phases hsees⟩

theorem obeys_look_same {next : σ → Code L σ A} (h : ∀ s, D.Obeys mine phase (next s)) :
    D.Obeys mine phase (.look next) :=
  obeys_look fun _ s _ _ hsees => ⟨phase, hsees.same, h s⟩

end Rules

/-! ### Runs -/

variable {D}

theorem Kept.sees {phases : T → P} {c : Config T L σ A} (h : D.Kept phases c) (t : T) :
    D.Sees t (c.holds t) (phases t) c.shared c.holds phases :=
  ⟨h.inv, h.exclusive, rfl, rfl⟩

/-- One thread has moved on, the others are where they were. -/
theorem Kept.moved {phases : T → P} {c : Config T L σ A} (h : D.Kept phases c) {t : T}
    {phase : P} {s : σ} {mine : Holds L} {next : Code L σ A}
    (hinv : D.inv s (Function.update c.holds t mine) (Function.update phases t phase))
    (hexclusive : Exclusive (Function.update c.holds t mine))
    (hobeys : D.Obeys mine phase next) :
    D.Kept (Function.update phases t phase)
      ⟨s, Function.update c.code t next, Function.update c.holds t mine⟩ where
  inv := hinv
  exclusive := hexclusive
  obeys := by
    intro u
    by_cases hu : u = t
    · subst hu
      simpa using hobeys
    · simpa [Function.update_of_ne hu] using h.obeys u

/-- **A discipline that the code of all threads obeys is kept by every step**,
and the step is one that it allows. -/
theorem Kept.step [Fintype T] {phases : T → P} {c c' : Config T L σ A}
    (h : D.Kept phases c) {t : T} {a : A} (hstep : c.step (t, a) = some c') :
    (∃ phases', D.Kept phases' c') ∧
      (c'.shared = c.shared ∨ D.acts c.shared c.holds t c'.shared) := by
  have hsees := h.sees t
  have hobeys := h.obeys t
  cases Config.step_moved hstep with
  | acquired hcode hfree =>
      rw [hcode] at hobeys
      obtain ⟨-, phase, hinv, hnext⟩ := hobeys
      exact ⟨⟨_, h.moved (hinv t _ _ _ hsees hfree) (h.exclusive.acquire hfree) hnext⟩,
        Or.inl rfl⟩
  | @released lock next hcode =>
      rw [hcode] at hobeys
      obtain ⟨phase, hinv, hnext⟩ := hobeys
      have hless : ∀ x ∈ (c.holds t).eraseP fun x => x.1 = lock, x ∈ c.holds t :=
        fun x hx => List.mem_of_mem_eraseP hx
      have hshrink := h.exclusive.shrink hless
      exact ⟨⟨_, h.moved (hinv t _ _ _ hsees) hshrink hnext⟩, Or.inl rfl⟩
  | acted hcode heffect =>
      rw [hcode] at hobeys
      obtain ⟨hacts, phase, hinv, hnext⟩ := hobeys t _ _ _ hsees a _ heffect
      refine ⟨⟨Function.update phases t phase, ?_⟩, hacts⟩
      have hholds : Function.update c.holds t (c.holds t) = c.holds :=
        Function.update_eq_self t c.holds
      have hinv' := hinv
      have hexclusive' := h.exclusive
      rw [← hholds] at hinv' hexclusive'
      have hmoved := h.moved hinv' hexclusive' hnext
      rwa [hholds] at hmoved

/-- **A discipline is kept in every interleaving.** -/
theorem Kept.exec [Fintype T] {phases : T → P} {c c' : Config T L σ A} {es : List (T × A)}
    (h : D.Kept phases c) (hexec : exec Config.step c es = some c') :
    ∃ phases', D.Kept phases' c' := by
  apply Inv.exec (I := fun c => ∃ phases, D.Kept phases c) _ ⟨phases, h⟩ hexec
  rintro c ⟨t, a⟩ c' ⟨phases, h⟩ hstep
  exact (h.step hstep).1

/-- What follows from the discipline for a step holds of every step of an
interleaving. -/
theorem Kept.steps [Fintype T] {phases : T → P} {c : Config T L σ A}
    {Q : Config T L σ A → T × A → Config T L σ A → Prop} (h : D.Kept phases c)
    (hQ : ∀ c t a c' phases phases', D.Kept phases c → D.Kept phases' c' →
      (c'.shared = c.shared ∨ D.acts c.shared c.holds t c'.shared) → Q c (t, a) c')
    (es : List (T × A)) : Steps Config.step Q c es := by
  apply steps_of_inv (I := fun c => ∃ phases, D.Kept phases c) (C := fun _ _ _ => True) _
    ⟨phases, h⟩ (steps_of_forall (C := fun _ => True) fun _ _ => trivial)
  rintro c ⟨t, a⟩ c' ⟨phases, h⟩ hstep -
  obtain ⟨⟨phases', h'⟩, hacts⟩ := h.step hstep
  exact ⟨⟨phases', h'⟩, hQ c t a c' phases phases' h h' hacts⟩

/-- What holds when a thread is about to take a lock. -/
theorem Kept.asks {phases : T → P} {c : Config T L σ A} (h : D.Kept phases c) {t : T}
    {lock : L} {mode : Mode} {next : Code L σ A} (hcode : c.code t = .acquire lock mode next) :
    D.asks c.shared c.holds phases t lock mode := by
  have hobeys := h.obeys t
  rw [hcode] at hobeys
  exact hobeys.1 t _ _ _ (h.sees t)

/-- What a thread leaves that has nothing more to do. -/
theorem Kept.ends {phases : T → P} {c : Config T L σ A} (h : D.Kept phases c) {t : T}
    (hcode : c.code t = .done) : D.ends (c.holds t) (phases t) := by
  have hobeys := h.obeys t
  rwa [hcode] at hobeys

/-- Threads that begin without locks, in the same phase. -/
theorem kept_start {s : σ} {code : T → Code L σ A} {phase : P}
    (hinv : D.inv s (fun _ => []) fun _ => phase) (hobeys : ∀ t, D.Obeys [] phase (code t)) :
    D.Kept (fun _ => phase) (Config.start s code) :=
  ⟨hinv, exclusive_nil, hobeys⟩

end Discipline

/-! ## A thread alone -/

section Alone

variable {T L σ A β : Type} [DecidableEq L]

namespace Code

/-- What the code can leave when the other threads hold no lock and make no step. -/
def Ends : Holds L → Code L σ A → σ → σ → Prop
  | _, .done, s, s' => s' = s
  | mine, .acquire lock mode next, s, s' =>
    (∀ x ∈ mine, x.1 = lock → mode.excludes true x.2 = false) ∧
      Ends ((lock, mode) :: mine) next s s'
  | mine, .release lock next, s, s' => Ends (mine.eraseP fun x => x.1 = lock) next s s'
  | mine, .act effect next, s, s' =>
    ∃ a s₁, effect s a = some s₁ ∧ Ends mine (next s a) s₁ s'

variable {mine : Holds L} {lock : L} {mode : Mode} {k : Code L σ A} {s s' : σ}

theorem ends_acquire (h : ∀ x ∈ mine, x.1 ≠ lock) :
    Ends mine (.acquire lock mode k) s s' ↔ Ends ((lock, mode) :: mine) k s s' :=
  and_iff_right fun x hx hlock => absurd hlock (h x hx)

/-- A mutex may be taken again. -/
@[simp] theorem ends_mutex :
    Ends mine (.acquire lock .mutex k) s s' ↔ Ends ((lock, .mutex) :: mine) k s s' :=
  and_iff_right fun _ _ _ => rfl

@[simp] theorem ends_release :
    Ends ((lock, mode) :: mine) (.release lock k) s s' ↔ Ends mine k s s' := by
  simp [Ends]

@[simp] theorem ends_look {next : σ → Code L σ A} [Nonempty A] :
    Ends mine (.look next) s s' ↔ Ends mine (next s) s s' := by
  simp [look, Ends]

@[simp] theorem ends_update {f : σ → σ} [Nonempty A] :
    Ends mine (.update f k) s s' ↔ Ends mine k (f s) s' := by
  simp [update, Ends]

theorem ends_perform {f : σ → A → Option (σ × β)} {next : β → Code L σ A} :
    Ends mine (.perform f next) s s' ↔
      ∃ a s₁ b, f s a = some (s₁, b) ∧ Ends mine (next b) s₁ s' := by
  constructor
  · rintro ⟨a, s₁, heffect, hrest⟩
    obtain ⟨⟨s₂, b⟩, hf, rfl⟩ := Option.map_eq_some_iff.1 heffect
    simp only [hf] at hrest
    exact ⟨a, s₂, b, hf, hrest⟩
  · rintro ⟨a, s₁, b, hf, hrest⟩
    refine ⟨a, s₁, by simp [hf], ?_⟩
    simp only [hf]
    exact hrest

end Code

variable [DecidableEq T] [Fintype T] {c c' : Config T L σ A} {t : T} {s' : σ}

/-- The next step of a thread whose fellows hold no lock. -/
theorem ends_iff_step [Nonempty A] (hothers : ∀ u, u ≠ t → c.holds u = []) :
    (c.code t).Ends (c.holds t) c.shared s' ↔
      (c.code t = .done ∧ s' = c.shared) ∨
        ∃ a c₁, c.step (t, a) = some c₁ ∧ (c₁.code t).Ends (c₁.holds t) c₁.shared s' := by
  have hfree : ∀ lock mode, Free c.holds t lock mode ↔
      ∀ x ∈ c.holds t, x.1 = lock → mode.excludes true x.2 = false := by
    intro lock mode
    constructor
    · intro h x hx hlock
      simpa using h t x hx hlock
    · intro h u x hx hlock
      by_cases hu : u = t
      · subst hu
        simpa using h x hx hlock
      · rw [hothers u hu] at hx
        cases hx
  cases hcode : c.code t with
  | done => simp [Config.step, hcode, Code.Ends]
  | acquire lock mode next => simp [Config.step, hcode, Code.Ends, hfree]
  | release lock next => simp [Config.step, hcode, Code.Ends]
  | act effect next => simp [Config.step, hcode, Code.Ends]

omit [Fintype T] in
/-- The other threads of a thread that moves still hold no lock. -/
theorem Config.Moved.others {a : A} (h : Config.Moved c t a c')
    (hothers : ∀ u, u ≠ t → c.holds u = []) : ∀ u, u ≠ t → c'.holds u = [] := by
  intro u hu
  rw [(h.other hu).2]
  exact hothers u hu

theorem ends_moves [Nonempty A] (hothers : ∀ u, u ≠ t → c.holds u = []) {code : Code L σ A}
    (hcode : c.code t = code) (hdone : code ≠ .done) (h : code.Ends (c.holds t) c.shared s') :
    ∃ a c₁, c.step (t, a) = some c₁ ∧ (∀ u, u ≠ t → c₁.holds u = []) ∧
      c₁.code t = Config.behind c.shared a code ∧
      (Config.behind c.shared a code).Ends (c₁.holds t) c₁.shared s' := by
  subst hcode
  rcases (ends_iff_step hothers).1 h with ⟨hend, -⟩ | ⟨a, c₁, hstep, hends⟩
  · exact absurd hend hdone
  · have hmoved := Config.step_moved hstep
    exact ⟨a, c₁, hstep, hmoved.others hothers, hmoved.rest, hmoved.rest ▸ hends⟩

/-- The steps of one thread lead from here to its end, with this left. -/
def Leaves (c : Config T L σ A) (t : T) (s' : σ) : Prop :=
  ∃ es c', (∀ e ∈ es, e.1 = t) ∧ exec Config.step c es = some c' ∧ c'.code t = .done ∧
    c'.shared = s'

theorem Leaves.cons {a : A} (hstep : c.step (t, a) = some c') (h : Leaves c' t s') :
    Leaves c t s' := by
  obtain ⟨es, c'', hes, hexec, hdone, hshared⟩ := h
  refine ⟨(t, a) :: es, c'', ?_, by rw [exec_cons, hstep]; exact hexec, hdone, hshared⟩
  intro e he
  rcases List.mem_cons.1 he with rfl | he
  · rfl
  · exact hes e he

/-- **What the code of a thread leaves is what its steps lead to.** -/
theorem ends_iff [Nonempty A] (hothers : ∀ u, u ≠ t → c.holds u = []) :
    (c.code t).Ends (c.holds t) c.shared s' ↔ Leaves c t s' := by
  constructor
  · intro h
    generalize hcode : c.code t = code at h
    induction code generalizing c with
    | done => exact ⟨[], c, by simp, rfl, hcode, h.symm⟩
    | acquire lock mode next ih | release lock next ih =>
        obtain ⟨a, c₁, hstep, hothers₁, hnext, hends⟩ := ends_moves hothers hcode (by simp) h
        exact .cons hstep (ih hothers₁ hnext hends)
    | act effect next ih =>
        obtain ⟨a, c₁, hstep, hothers₁, hnext, hends⟩ := ends_moves hothers hcode (by simp) h
        exact .cons hstep (ih _ _ hothers₁ hnext hends)
  · rintro ⟨es, c', hes, hexec, hdone, rfl⟩
    induction es generalizing c with
    | nil =>
        cases hexec
        exact (ends_iff_step hothers).2 (Or.inl ⟨hdone, rfl⟩)
    | cons e es ih =>
        obtain ⟨u, a⟩ := e
        obtain rfl : u = t := hes (u, a) (by simp)
        rw [exec_cons, Option.bind_eq_some_iff] at hexec
        obtain ⟨c₁, hstep, hrest⟩ := hexec
        have hothers' := (Config.step_moved hstep).others hothers
        exact (ends_iff_step hothers).2
          (Or.inr ⟨a, c₁, hstep, ih hothers' (fun e he => hes e (by simp [he])) hrest⟩)

/-! ### Part of the way -/

/-- A thread comes alone to where it wants a lock, with these locks held and in a state
like this, while other threads hold the locks in `taken`. -/
inductive Code.Comes (taken : L → Prop) (held : Holds L) (wanted : L) (mode : Mode)
    (R : σ → Prop) : Holds L → Code L σ A → σ → Prop
  | here {k : Code L σ A} {s : σ} (arrived : R s) :
      Comes taken held wanted mode R held (.acquire wanted mode k) s
  | acquire {mine : Holds L} {lock : L} {mode' : Mode} {k : Code L σ A} {s : σ}
      (free : ¬ taken lock) (own : mode' = .mutex ∨ ∀ x ∈ mine, x.1 ≠ lock)
      (rest : Comes taken held wanted mode R ((lock, mode') :: mine) k s) :
      Comes taken held wanted mode R mine (.acquire lock mode' k) s
  | release {mine : Holds L} {lock : L} {k : Code L σ A} {s : σ}
      (rest : Comes taken held wanted mode R (mine.eraseP fun x => x.1 = lock) k s) :
      Comes taken held wanted mode R mine (.release lock k) s
  | act {mine : Holds L} {effect : σ → A → Option σ} {next : σ → A → Code L σ A} {s s₁ : σ}
      (a : A) (acts : effect s a = some s₁)
      (rest : Comes taken held wanted mode R mine (next s a) s₁) :
      Comes taken held wanted mode R mine (.act effect next) s

namespace Code.Comes

variable {taken : L → Prop} {held mine : Holds L} {wanted lock : L} {mode mode' : Mode}
  {R : σ → Prop} {k : Code L σ A} {s : σ}

theorem update {f : σ → σ} [Nonempty A] (rest : Comes taken held wanted mode R mine k (f s)) :
    Comes taken held wanted mode R mine (.update f k) s :=
  .act (Classical.arbitrary A) rfl rest

theorem look {next : σ → Code L σ A} [Nonempty A]
    (rest : Comes taken held wanted mode R mine (next s) s) :
    Comes taken held wanted mode R mine (.look next) s :=
  .act (Classical.arbitrary A) rfl rest

theorem perform {f : σ → A → Option (σ × β)} {next : β → Code L σ A} (a : A) (s₁ : σ) (b : β)
    (hf : f s a = some (s₁, b)) (rest : Comes taken held wanted mode R mine (next b) s₁) :
    Comes taken held wanted mode R mine (.perform f next) s := by
  have heffect : (f s a).map Prod.fst = some s₁ := by simp [hf]
  refine .act a heffect ?_
  simp only [hf]
  exact rest

/-- Taken and released again. -/
theorem within (rest : Comes taken held wanted mode R mine k s) :
    Comes taken held wanted mode R ((lock, mode') :: mine) (.release lock k) s :=
  .release (by simpa using rest)

end Code.Comes

/-- One thread stands here now. -/
def Config.set (c : Config T L σ A) (t : T) (mine : Holds L) (code : Code L σ A) (s : σ) :
    Config T L σ A :=
  ⟨s, Function.update c.code t code, Function.update c.holds t mine⟩

omit [DecidableEq L] [Fintype T] in
theorem Config.set_self {mine : Holds L} {k : Code L σ A} (hholds : c.holds t = mine)
    (hcode : c.code t = k) : c.set t mine k c.shared = c := by
  simp [Config.set, ← hholds, ← hcode, Function.update_eq_self]

/-- The steps on the way. -/
theorem Code.Comes.steps {taken : L → Prop} [Nonempty A] {held mine : Holds L} {wanted : L}
    {mode : Mode} {R : σ → Prop} {k : Code L σ A} {s : σ}
    (h : Code.Comes taken held wanted mode R mine k s)
    (hothers : ∀ u, u ≠ t → ∀ x ∈ c.holds u, taken x.1) :
    ∃ es k' s', R s' ∧ exec Config.step (c.set t mine k s) es =
      some (c.set t held (.acquire wanted mode k') s') := by
  have hcons : ∀ {c₁ c₂ : Config T L σ A} {a : A}, c₁.step (t, a) = some c₂ →
      (∃ es k' s', R s' ∧
        exec Config.step c₂ es = some (c.set t held (.acquire wanted mode k') s')) →
      ∃ es k' s', R s' ∧
        exec Config.step c₁ es = some (c.set t held (.acquire wanted mode k') s') := by
    rintro c₁ c₂ a hstep ⟨es, k', s', hR, hes⟩
    exact ⟨(t, a) :: es, k', s', hR, by rw [exec_cons, hstep]; exact hes⟩
  induction h with
  | here hR => exact ⟨[], _, _, hR, rfl⟩
  | @acquire mine lock mode' k s hfree hown hrest ih =>
      have hlock : Free (Function.update c.holds t mine) t lock mode' := by
        intro u x hx hlock
        by_cases hu : u = t
        · subst hu
          rw [Function.update_self] at hx
          rcases hown with rfl | hown
          · simp [Mode.excludes]
          · exact absurd hlock (hown x hx)
        · rw [Function.update_of_ne hu] at hx
          exact absurd (hlock ▸ hothers u hu x hx) hfree
      refine hcons (a := Classical.arbitrary A) ?_ ih
      simp [Config.step, Config.set, hlock]
  | release hrest ih =>
      refine hcons (a := Classical.arbitrary A) ?_ ih
      simp [Config.step, Config.set]
  | act a hacts hrest ih =>
      refine hcons (a := a) ?_ ih
      simp [Config.step, Config.set, hacts]

end Alone

end EndToEndSmkex.Lib.Threads
