import EndToEndSmkex.Lib.Threads
import Mathlib.Data.Set.Basic

/-!
# Deadlocks

A thread waits for another one that holds the lock it is about to take.  A set of
threads is deadlocked when each of them waits for one of the set, or for a thread
that has ended with the lock.

## Main results

* `Deadlocked.exec` — no thread of a deadlocked set ever makes a step again.
* `EndsWith.exec` — code that never gives a lock back ends with it, whatever the other
  threads do.
* `exists_unordered` — where locks are ranked, some thread of a deadlocked set is
  about to take a lock against the ranks, or one that a thread has ended with.
-/

namespace EndToEndSmkex.Lib.Deadlocks

open EndToEndSmkex.Lib.Run
open EndToEndSmkex.Lib.Threads

variable {T L σ A : Type} [DecidableEq T] {c c' : Config T L σ A} {D : Set T}

/-- One thread is about to take a lock that another one holds. -/
def Waits (c : Config T L σ A) (t u : T) : Prop :=
  ∃ lock mode next, c.code t = .acquire lock mode next ∧
    ∃ x ∈ c.holds u, x.1 = lock ∧ mode.excludes (decide (u = t)) x.2 = true

/-- Nobody in the set can go on. -/
structure Deadlocked (c : Config T L σ A) (D : Set T) : Prop where
  nonempty : D.Nonempty
  waits : ∀ t ∈ D, ∃ u, Waits c t u ∧ (u ∈ D ∨ c.code u = .done)

/-- Two threads that wait for each other. -/
theorem deadlocked_pair {t u : T} (htu : Waits c t u) (hut : Waits c u t) :
    Deadlocked c {t, u} where
  nonempty := ⟨t, by simp⟩
  waits := by
    intro v hv
    rcases hv with rfl | rfl
    · exact ⟨u, htu, Or.inl (by simp)⟩
    · exact ⟨t, hut, Or.inl (by simp)⟩

/-- A thread that waits for one that has ended. -/
theorem deadlocked_single {t u : T} (h : Waits c t u) (hu : c.code u = .done) :
    Deadlocked c {t} where
  nonempty := ⟨t, rfl⟩
  waits := by
    rintro v rfl
    exact ⟨u, h, Or.inr hu⟩

/-! ## For ever -/

section Forever

variable [Fintype T] [DecidableEq L]

/-- A thread that waits makes no step. -/
theorem Waits.stuck {t u : T} {a : A} (h : Waits c t u) : c.step (t, a) = none := by
  obtain ⟨lock, mode, next, hcode, x, hx, rfl, hexcludes⟩ := h
  have hheld : ¬ Free c.holds t x.1 mode := by
    intro hfree
    rw [hfree u x hx rfl] at hexcludes
    cases hexcludes
  simp only [Config.step, hcode, if_neg hheld]

theorem stuck_of_done {t : T} {a : A} (h : c.code t = .done) : c.step (t, a) = none := by
  simp only [Config.step, h]

/-- A step of another thread changes nothing for a deadlocked set. -/
theorem Deadlocked.step {e : T × A} (h : Deadlocked c D) (hstep : c.step e = some c') :
    Deadlocked c' D ∧ ∀ t ∈ D, c'.code t = c.code t := by
  obtain ⟨t, a⟩ := e
  have hmoved := Config.step_moved hstep
  have hother : ∀ u, c.code u = .done ∨ u ∈ D → u ≠ t := by
    rintro u hu rfl
    rcases hu with hdone | hmem
    · rw [stuck_of_done hdone] at hstep
      cases hstep
    · obtain ⟨v, hwaits, -⟩ := h.waits u hmem
      rw [hwaits.stuck] at hstep
      cases hstep
  refine ⟨⟨h.nonempty, fun u hu => ?_⟩, fun u hu => (hmoved.other (hother u (Or.inr hu))).1⟩
  obtain ⟨v, ⟨lock, mode, next, hcode, x, hx, hlock, hexcludes⟩, hv⟩ := h.waits u hu
  obtain ⟨hcodeU, -⟩ := hmoved.other (hother u (Or.inr hu))
  obtain ⟨hcodeV, hholdsV⟩ := hmoved.other (hother v hv.symm)
  refine ⟨v, ⟨lock, mode, next, hcodeU.trans hcode, x, hholdsV.symm ▸ hx, hlock, hexcludes⟩, ?_⟩
  rw [hcodeV]
  exact hv

/-- **A deadlocked set stays deadlocked**, and its threads stay where they are. -/
theorem Deadlocked.exec {es : List (T × A)} (h : Deadlocked c D)
    (hexec : exec Config.step c es = some c') :
    Deadlocked c' D ∧ ∀ t ∈ D, c'.code t = c.code t := by
  apply Inv.exec (I := fun c' => Deadlocked c' D ∧ ∀ t ∈ D, c'.code t = c.code t) _
    ⟨h, fun _ _ => rfl⟩ hexec
  rintro c₁ e c₂ ⟨hdead, hcode⟩ hstep
  obtain ⟨hdead', hcode'⟩ := hdead.step hstep
  exact ⟨hdead', fun t ht => (hcode' t ht).trans (hcode t ht)⟩

/-- The threads can come to wait for each other, and then never make a step again. -/
def CanHang (c : Config T L σ A) (D : Set T) : Prop :=
  ∃ es c₁, exec Config.step c es = some c₁ ∧ Deadlocked c₁ D ∧
    ∀ fs c₂, exec Config.step c₁ fs = some c₂ → Deadlocked c₂ D ∧ ∀ t ∈ D, c₂.code t = c₁.code t

/-- **Two threads that take two locks in different order.**  No lock is held; one of
the threads comes to where it wants a lock that the other one then takes on its way
to a lock that the first one holds. -/
theorem canHang_of_crossing [Nonempty A] {t u : T} (htu : t ≠ u) (hfree : ∀ v, c.holds v = [])
    {heldT heldU : Holds L} {lockT lockU : L} {modeT modeU : Mode} {R : σ → Prop}
    (hu : Code.Comes (fun _ => False) heldU lockU modeU R [] (c.code u) c.shared)
    (ht : ∀ s, R s → Code.Comes (fun lock => ∃ x ∈ heldU, x.1 = lock) heldT lockT modeT
      (fun _ => True) [] (c.code t) s)
    (hutWaits : ∃ x ∈ heldT, x.1 = lockU ∧ modeU.excludes false x.2 = true)
    (htuWaits : ∃ x ∈ heldU, x.1 = lockT ∧ modeT.excludes false x.2 = true) :
    CanHang c {t, u} := by
  have hnone : ∀ v, v ≠ u → ∀ x ∈ c.holds v, False := by
    intro v _ x hx
    rw [hfree v] at hx
    cases hx
  obtain ⟨es, kU, s₁, hR, hes⟩ := hu.steps hnone
  rw [Config.set_self (hfree u) rfl] at hes
  let c₁ := c.set u heldU (.acquire lockU modeU kU) s₁
  have hcode : c₁.code t = c.code t := Function.update_of_ne htu _ _
  have hholds : c₁.holds t = [] := (Function.update_of_ne htu _ _).trans (hfree t)
  have hheld : ∀ v, v ≠ t → ∀ x ∈ c₁.holds v, ∃ y ∈ heldU, y.1 = x.1 := by
    intro v hv x hx
    by_cases hvu : v = u
    · subst hvu
      exact ⟨x, by simpa [c₁, Config.set] using hx, rfl⟩
    · rw [show c₁.holds v = [] from (Function.update_of_ne hvu _ _).trans (hfree v)] at hx
      cases hx
  obtain ⟨fs, kT, s₂, -, hfs⟩ := (ht s₁ hR).steps hheld
  rw [show s₁ = c₁.shared from rfl, Config.set_self hholds hcode] at hfs
  have hdead : Deadlocked (c₁.set t heldT (.acquire lockT modeT kT) s₂) {t, u} := by
    apply deadlocked_pair
    · obtain ⟨x, hx, hlock, hexcludes⟩ := htuWaits
      refine ⟨lockT, modeT, kT, by simp [Config.set], x, ?_, hlock, ?_⟩
      · simpa [Config.set, Function.update_of_ne htu.symm, c₁] using hx
      · rwa [decide_eq_false htu.symm]
    · obtain ⟨x, hx, hlock, hexcludes⟩ := hutWaits
      refine ⟨lockU, modeU, kU, ?_, x, by simpa [Config.set] using hx, hlock, ?_⟩
      · simp [Config.set, Function.update_of_ne htu.symm, c₁]
      · rwa [decide_eq_false htu]
  exact ⟨es ++ fs, _, (exec_append fs hes).trans hfs, hdead, fun gs c₂ hgs => hdead.exec hgs⟩

end Forever

/-! ## Ending with a lock -/

/-- Code that takes a lock and never gives it back, so that it has the lock at its end;
`has` is whether it has it already. -/
def EndsWith (lock : L) : Prop → Code L σ A → Prop
  | has, .done => has
  | has, .acquire l _ next => EndsWith lock (has ∨ l = lock) next
  | has, .release l next => l ≠ lock ∧ EndsWith lock has next
  | has, .act effect next => ∀ s a s', effect s a = some s' → EndsWith lock has (next s a)

section EndsWith

variable {lock : L} {has has' : Prop} {k : Code L σ A}

theorem EndsWith.imp (h : EndsWith lock has k) (himp : has → has') : EndsWith lock has' k := by
  induction k generalizing has has' with
  | done => exact himp h
  | acquire l mode next ih => exact ih h (Or.imp_left himp)
  | release l next ih => exact ⟨h.1, ih h.2 himp⟩
  | act effect next ih => exact fun s a s' hs => ih s a (h s a s' hs) himp

theorem endsWith_acquire {l : L} {mode : Mode} (h : EndsWith lock has k) :
    EndsWith lock has (.acquire l mode k) := by
  have hleft : has → has ∨ l = lock := Or.inl
  exact h.imp hleft

theorem endsWith_release {l : L} (hne : l ≠ lock) (h : EndsWith lock has k) :
    EndsWith lock has (.release l k) :=
  ⟨hne, h⟩

theorem endsWith_update {f : σ → σ} (h : EndsWith lock has k) :
    EndsWith lock has (.update f k) :=
  fun _ _ _ _ => h

theorem endsWith_look {next : σ → Code L σ A} (h : ∀ s, EndsWith lock has (next s)) :
    EndsWith lock has (.look next) :=
  fun s _ _ _ => h s

theorem endsWith_perform {β : Type} {f : σ → A → Option (σ × β)} {next : β → Code L σ A}
    (h : ∀ b, EndsWith lock has (next b)) : EndsWith lock has (.perform f next) := by
  intro s a s' hs
  obtain ⟨⟨s₁, b⟩, hf, -⟩ := Option.map_eq_some_iff.1 hs
  simp only [hf]
  exact h b

variable [DecidableEq L] [Fintype T] {t : T}

/-- A step of any thread. -/
theorem EndsWith.step {e : T × A}
    (h : EndsWith lock (∃ x ∈ c.holds t, x.1 = lock) (c.code t)) (hstep : c.step e = some c') :
    EndsWith lock (∃ x ∈ c'.holds t, x.1 = lock) (c'.code t) := by
  obtain ⟨u, a⟩ := e
  have hmoved := Config.step_moved hstep
  by_cases hu : t = u
  · subst hu
    cases hmoved with
    | acquired hcode hfree =>
        rw [hcode] at h
        simp only [Function.update_self]
        refine EndsWith.imp h ?_
        rintro (⟨x, hx, hlock⟩ | hlock)
        · exact ⟨x, List.mem_cons_of_mem _ hx, hlock⟩
        · exact ⟨_, List.mem_cons_self, hlock⟩
    | @released l next hcode =>
        rw [hcode] at h
        simp only [Function.update_self]
        refine EndsWith.imp h.2 ?_
        rintro ⟨x, hx, hlock⟩
        refine ⟨x, (List.mem_eraseP_of_neg ?_).2 hx, hlock⟩
        rw [hlock, decide_eq_true_eq]
        exact h.1.symm
    | acted hcode heffect =>
        rw [hcode] at h
        simp only [Function.update_self]
        exact h _ _ _ heffect
  · obtain ⟨hcode, hholds⟩ := hmoved.other hu
    rw [hcode, hholds]
    exact h

/-- **Whatever the other threads do**, the thread has the lock at its end. -/
theorem EndsWith.exec {es : List (T × A)}
    (h : EndsWith lock (∃ x ∈ c.holds t, x.1 = lock) (c.code t))
    (hexec : exec Config.step c es = some c') (hdone : c'.code t = .done) :
    ∃ x ∈ c'.holds t, x.1 = lock := by
  have hend := Inv.exec
    (I := fun c => EndsWith lock (∃ x ∈ c.holds t, x.1 = lock) (c.code t))
    (fun _ _ _ h hstep => h.step hstep) h hexec
  rwa [hdone] at hend

end EndsWith

/-! ## Ranks -/

/-- A lock above all those held, or a mutex that is held already. -/
def Ordered (rank : L → Nat) (holds : Holds L) (lock : L) (mode : Mode) : Prop :=
  (mode = .mutex ∧ (lock, .mutex) ∈ holds) ∨ ∀ x ∈ holds, rank x.1 < rank lock

/-- A thread that waits is not about to take a mutex of its own. -/
theorem Waits.above {rank : L → Nat} {t u : T} {lock : L} {mode : Mode} {next : Code L σ A}
    (hexclusive : Exclusive c.holds) (hcode : c.code t = .acquire lock mode next)
    (h : Waits c t u) (hordered : Ordered rank (c.holds t) lock mode) :
    ∀ x ∈ c.holds t, rank x.1 < rank lock := by
  rcases hordered with ⟨rfl, hmine⟩ | habove
  · obtain ⟨lock', mode', next', hcode', x, hx, rfl, hexcludes⟩ := h
    rw [hcode] at hcode'
    cases hcode'
    have hne : u ≠ t := by
      rintro rfl
      simp [Mode.excludes] at hexcludes
    exact absurd (hexclusive.eq (by decide) hmine hx).symm hne
  · exact habove

/-- **In a deadlocked set some thread is about to take a lock against the ranks**,
or one that a thread has ended with. -/
theorem exists_unordered {rank : L → Nat} {bound : Nat} {P : L → Prop}
    (hbound : ∀ lock, rank lock ≤ bound) (hexclusive : Exclusive c.holds)
    (hends : ∀ t, c.code t = .done → ∀ x ∈ c.holds t, P x.1) (h : Deadlocked c D) :
    ∃ t ∈ D, ∃ lock mode next, c.code t = .acquire lock mode next ∧
      (¬ Ordered rank (c.holds t) lock mode ∨ P lock) := by
  by_contra hnone
  have hnone : ∀ t ∈ D, ∀ lock mode next, c.code t = .acquire lock mode next →
      Ordered rank (c.holds t) lock mode ∧ ¬ P lock := by
    intro t ht lock mode next hcode
    by_contra hnot
    refine hnone ⟨t, ht, lock, mode, next, hcode, ?_⟩
    by_cases hordered : Ordered rank (c.holds t) lock mode
    · exact Or.inr (by_contra fun hp => hnot ⟨hordered, hp⟩)
    · exact Or.inl hordered
  -- the thread waited for wants a lock of higher rank
  have hclimb : ∀ n, ∃ t ∈ D, ∃ lock mode next, c.code t = .acquire lock mode next ∧
      n ≤ rank lock := by
    intro n
    induction n with
    | zero =>
        obtain ⟨t, ht⟩ := h.nonempty
        obtain ⟨u, ⟨lock, mode, next, hcode, -⟩, -⟩ := h.waits t ht
        exact ⟨t, ht, lock, mode, next, hcode, Nat.zero_le _⟩
    | succ n ih =>
        obtain ⟨t, ht, lock, mode, next, hcode, hrank⟩ := ih
        obtain ⟨u, ⟨lock', mode', next', hcode', x, hx, hlock, -⟩, hu⟩ := h.waits t ht
        rw [hcode] at hcode'
        cases hcode'
        have hin : u ∈ D := by
          rcases hu with hu | hdone
          · exact hu
          · exact absurd (hlock ▸ hends u hdone x hx) (hnone t ht lock mode next hcode).2
        obtain ⟨v, hwaits, -⟩ := h.waits u hin
        obtain ⟨wanted, mode', next', hcodeU, -⟩ := id hwaits
        have habove := hwaits.above hexclusive hcodeU (hnone u hin _ _ _ hcodeU).1 x hx
        rw [hlock] at habove
        exact ⟨u, hin, wanted, mode', next', hcodeU, by omega⟩
  obtain ⟨t, -, lock, -, -, -, hrank⟩ := hclimb (bound + 1)
  have hle := hbound lock
  omega

end EndToEndSmkex.Lib.Deadlocks
