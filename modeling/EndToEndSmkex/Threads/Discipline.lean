import EndToEndSmkex.Lib.Deadlocks
import EndToEndSmkex.Threads.Calls

/-!
# The discipline of the calls

Three things are said of every call at once: which data it changes under which
locks, in which order it takes them, and that the transport gets a message only
when it has none.

The order is not the same at all times.  A thread that settles a status takes
`msgLock_` first and then the locks of the engine, and a thread that starts the
engine takes them the other way round.  The engine's flag keeps the two apart:
it is set before the engine hands a message over, and stays set until the status
is settled.
-/

namespace EndToEndSmkex.Threads.Discipline

open EndToEndSmkex.Lib.Deadlocks
open EndToEndSmkex.Lib.Threads
open EndToEndSmkex.Lib.Threads.Discipline
open EndToEndSmkex.Smkex.Record
open EndToEndSmkex.AutoResend.MsgPayload
open EndToEndSmkex.AutoResend.Pool
open EndToEndSmkex.AutoResend.Engine
open EndToEndSmkex.AutoResend.Engine.mp_status_t
open EndToEndSmkex.DataMsg.MsgTransport
open EndToEndSmkex.Threads.Calls

/-! ## Data and locks -/

/-- The data of a lock are the same. -/
def Same : Lock → Shared → Shared → Prop
  | .userPoolLock_, s, s' =>
    s'.engine.userPool_ = s.engine.userPool_ ∧ s'.engine.priority_ = s.engine.priority_
  | .startedLock_, s, s' =>
    s'.engine.started_ = s.engine.started_ ∧
      s'.engine.autoResendEnabled_ = s.engine.autoResendEnabled_
  | .dbConnLock_, s, s' =>
    s'.engine.dbConnectors_ = s.engine.dbConnectors_ ∧ s'.reports = s.reports
  | .msgLock_, s, s' => s'.transport = s.transport
  | .sipStack, s, s' => s'.sipStarted_ = s.sipStarted_
  | .buddyList, s, s' => s'.buddies.buddyList_ = s.buddies.buddyList_
  | .presenceCb_, s, s' => s'.buddies.presenceCb_ = s.buddies.presenceCb_
  | _, _, _ => True

theorem Same.refl (lock : Lock) (s : Shared) : Same lock s s := by
  cases lock <;> simp [Same]

/-- The transport has a message that is not settled. -/
def Live (s : Shared) : Prop := s.transport.msg_.numberOfRetries_ ≠ 0

/-- What an action may do: data change under their lock, and a message the
transport still has is kept or ended, never replaced. -/
structure Acts (s : Shared) (holds : Holds Lock) (s' : Shared) : Prop where
  guarded : ∀ lock, Same lock s s' ∨ ∃ mode, mode ≠ .read ∧ (lock, mode) ∈ holds
  keeps : Live s → s'.transport.msg_ = s.transport.msg_ ∨
    s'.transport.msg_ = s.transport.msg_.setNumberOfRetries 0

/-! ## Phases -/

/-- Where a thread stands with the engine's flag. -/
inductive Phase where
  | free
  /-- It has taken a status from pjsua. -/
  | taken
  /-- It has seen the flag unset, under `startedLock_`. -/
  | testing
  /-- It has set the flag and will look for a message. -/
  | kicking
  /-- It has ended the message and will look for the next one. -/
  | settling
  /-- It has found no message and will unset the flag. -/
  | clearing
  deriving DecidableEq

/-- At work for the message there is, or was, or may be. -/
def Phase.busy (phase : Phase) : Bool := phase ≠ .free && phase ≠ .testing

/-- The transport has no message meanwhile. -/
def Phase.active (phase : Phase) : Bool := phase.busy && phase ≠ .taken

variable {T : Type}

/-- One message at a time. -/
structure OneFlight (s : Shared) (holds : T → Holds Lock) (phases : T → Phase) : Prop where
  single : s.outstanding.length ≤ 1
  carried : ∀ x ∈ s.outstanding, x = sipSend s.transport.msg_
  alone : ∀ t u, (phases t).busy → (phases u).busy → t = u
  grounded : ∀ t, (phases t).busy → s.outstanding = []
  started : (s.outstanding ≠ [] ∨ Live s ∨ ∃ t, (phases t).busy) → s.engine.started_ = true
  quiet : ∀ t, (phases t).active → ¬ Live s
  testing : ∀ t, phases t = .testing →
    s.engine.started_ = false ∧ (.startedLock_, .mutex) ∈ holds t

/-! ## Order -/

/-- The ranks of the locks, while some thread settles a status and otherwise. -/
def rank (settles : Bool) : Lock → Nat
  | .userAccount => 0
  | .buddyList => 1
  | .presenceCb_ | .msgCb_ | .invCb_ | .callCb_ | .regCb_ => 2
  | .startedLock_ => 4
  | .userPoolLock_ => 5
  | .dbConnLock_ => 6
  | .msgLock_ => if settles then 3 else 7
  | .sipStack => 8

open Classical in
/-- The ranks for these phases. -/
noncomputable def ranks (phases : T → Phase) : Lock → Nat :=
  if ∃ t, phases t = .settling then rank true else rank false

/-- The two places where a lock is taken out of order: `syncWithDBConnectors`, and
`stopSIPStack` when it resets the buddy list. -/
def Against (holds : Holds Lock) (lock : Lock) : Prop :=
  (lock = .userPoolLock_ ∧ (.dbConnLock_, .mutex) ∈ holds) ∨
    (lock = .buddyList ∧ (.sipStack, .mutex) ∈ holds)

/-- What holds when a thread is about to take a lock. -/
def Asks (lax : Bool) (phases : T → Phase) (holds : Holds Lock) (lock : Lock) (mode : Mode) :
    Prop :=
  Ordered (ranks phases) holds lock mode ∨ (lax = true ∧ Against holds lock)

/-- What a thread may hold between two calls. -/
def Rest (lax : Bool) (mine : Holds Lock) : Prop :=
  ∀ x ∈ mine, lax = true ∧ x = (.userAccount, .mutex)

/-- The discipline of all calls, and the one of those that keep the order and
leave no lock behind. -/
noncomputable def discipline (T : Type) (lax : Bool) :
    Lib.Threads.Discipline T Lock Shared Phase where
  inv := OneFlight
  asks := fun _ holds phases t lock mode => Asks lax phases (holds t) lock mode
  acts := fun s holds t s' => Acts s (holds t) s'
  ends := fun holds phase => Rest lax holds ∧ phase = .free

/-! ## Ranks by phase -/

/-- In this phase the ranks are known. -/
def Ranked (phase : Phase) (settles : Bool) : Prop :=
  (settles = true ∧ phase = .settling) ∨ (settles = false ∧ phase = .kicking)

theorem Ranked.active {phase : Phase} {settles : Bool} (h : Ranked phase settles) :
    phase.active := by
  rcases h with ⟨-, rfl⟩ | ⟨-, rfl⟩ <;> rfl

section Ranks

variable {phases : T → Phase} {s : Shared} {holds : T → Holds Lock} {t : T} {phase : Phase}
  {settles lax : Bool} {mine : Holds Lock} {lock : Lock} {mode : Mode}

theorem ranks_of_ranked (h : OneFlight s holds phases) (ht : phases t = phase)
    (hranked : Ranked phase settles) : ranks phases = rank settles := by
  rcases hranked with ⟨rfl, rfl⟩ | ⟨rfl, rfl⟩
  · exact if_pos ⟨t, ht⟩
  · have hnone : ¬ ∃ u, phases u = .settling := by
      rintro ⟨u, hu⟩
      have heq := h.alone t u (by rw [ht]; rfl) (by rw [hu]; rfl)
      rw [heq, hu] at ht
      cases ht
    exact if_neg hnone

theorem ranks_of_ne (hlock : lock ≠ .msgLock_) : ranks phases lock = rank false lock := by
  unfold ranks
  split
  · cases lock <;> first | rfl | exact absurd rfl hlock
  · rfl

theorem lt_ranks_msgLock : 2 < ranks phases .msgLock_ := by
  unfold ranks
  split <;> decide

/-- The locks of callers: that of the account, those of the callbacks, and that of
the buddy list. -/
def Outer (mine : Holds Lock) : Prop := ∀ x ∈ mine, rank false x.1 ≤ 2

theorem Rest.outer (hmine : Rest lax mine) : Outer mine := by
  intro x hx
  rw [(hmine x hx).2]
  decide

/-- One more lock is held, and its rank is not too high either. -/
theorem below_cons {m n : Nat} (hmine : ∀ x ∈ mine, rank settles x.1 ≤ m)
    (hlock : rank settles lock ≤ n) (hmn : m ≤ n) :
    ∀ x ∈ (lock, mode) :: mine, rank settles x.1 ≤ n :=
  List.forall_mem_cons.2 ⟨hlock, fun x hx => (hmine x hx).trans hmn⟩

theorem Outer.cons (hmine : Outer mine) (hlock : rank false lock ≤ 2) :
    Outer ((lock, mode) :: mine) :=
  below_cons hmine hlock le_rfl

theorem Outer.ne {x : Lock × Mode} (hmine : Outer mine) (hx : x ∈ mine) : x.1 ≠ .msgLock_ := by
  intro hlock
  have hle := hmine x hx
  rw [hlock] at hle
  exact absurd hle (by decide)

/-- In a phase with known ranks. -/
theorem asks_ranked (hranked : Ranked phase settles)
    (h : ∀ x ∈ mine, rank settles x.1 < rank settles lock) :
    ∀ (phases : T → Phase) t s holds, OneFlight s holds phases → phases t = phase →
      Asks lax phases mine lock mode := by
  intro phases t s holds hflight ht
  refine Or.inl (Or.inr ?_)
  rw [ranks_of_ranked hflight ht hranked]
  exact h

/-- A lock of higher rank. -/
theorem asks_outer (hmine : Outer mine) (hlock : lock ≠ .msgLock_)
    (h : ∀ x ∈ mine, rank false x.1 < rank false lock) :
    ∀ (phases : T → Phase) t s holds, OneFlight s holds phases → phases t = phase →
      Asks lax phases mine lock mode := by
  intro phases t s holds _ _
  refine Or.inl (Or.inr fun x hx => ?_)
  rw [ranks_of_ne (hmine.ne hx), ranks_of_ne hlock]
  exact h x hx

/-- A lock that is not one of the callers'. -/
theorem asks_inner (hmine : Outer mine) (h : 2 < rank false lock) :
    ∀ (phases : T → Phase) t s holds, OneFlight s holds phases → phases t = phase →
      Asks lax phases mine lock mode := by
  by_cases hlock : lock = .msgLock_
  · subst hlock
    intro phases t s holds _ _
    refine Or.inl (Or.inr fun x hx => ?_)
    rw [ranks_of_ne (hmine.ne hx)]
    exact Nat.lt_of_le_of_lt (hmine x hx) lt_ranks_msgLock
  · exact asks_outer hmine hlock fun x hx => Nat.lt_of_le_of_lt (hmine x hx) h

end Ranks

/-! ## What an action keeps -/

/-- Nothing has changed that the flag or the transport has to do with. -/
structure Aside (s s' : Shared) : Prop where
  outstanding : s'.outstanding = s.outstanding
  transport : s'.transport = s.transport
  started : s'.engine.started_ = s.engine.started_

theorem OneFlight.aside {s s' : Shared} {holds : T → Holds Lock} {phases : T → Phase}
    (h : OneFlight s holds phases) (haside : Aside s s') : OneFlight s' holds phases := by
  obtain ⟨houtstanding, htransport, hstarted⟩ := haside
  have hlive : Live s' ↔ Live s := by rw [Live, htransport, Live]
  exact
    { single := houtstanding ▸ h.single
      carried := by
        rw [houtstanding, htransport]
        exact h.carried
      alone := h.alone
      grounded := fun t ht => houtstanding.trans (h.grounded t ht)
      started := by
        rw [houtstanding, hlive, hstarted]
        exact h.started
      quiet := fun t ht hl => h.quiet t ht (hlive.1 hl)
      testing := fun t ht => hstarted.symm ▸ h.testing t ht }

/-- The message of the transport stays as it is, or ends. -/
theorem OneFlight.forget {s s' : Shared} {holds : T → Holds Lock} {phases : T → Phase}
    (h : OneFlight s holds phases) (houtstanding : s'.outstanding = s.outstanding)
    (hstarted : s'.engine.started_ = s.engine.started_)
    (hmsg : s'.transport.msg_ = s.transport.msg_ ∨
      s'.transport.msg_ = s.transport.msg_.setNumberOfRetries 0) :
    OneFlight s' holds phases := by
  have hlive : Live s' → Live s := by
    unfold Live
    rcases hmsg with hsame | hended
    · rw [hsame]
      exact id
    · rw [hended]
      exact fun h => absurd rfl h
  exact
    { single := houtstanding ▸ h.single
      carried := by
        have hsame : sipSend s'.transport.msg_ = sipSend s.transport.msg_ := by
          rcases hmsg with hsame | hended
          · rw [hsame]
          · rw [hended]
            rfl
        rw [houtstanding, hsame]
        exact h.carried
      alone := h.alone
      grounded := fun t ht => houtstanding.trans (h.grounded t ht)
      started := by
        rw [houtstanding, hstarted]
        rintro (hout | hl | hbusy)
        · exact h.started (Or.inl hout)
        · exact h.started (Or.inr (Or.inl (hlive hl)))
        · exact h.started (Or.inr (Or.inr hbusy))
      quiet := fun t ht hl => h.quiet t ht (hlive hl)
      testing := fun t ht => hstarted.symm ▸ h.testing t ht }

variable [DecidableEq T]

/-- A thread takes a lock, or gives one up that its phase does not need. -/
theorem OneFlight.rehold {s : Shared} {holds : T → Holds Lock} {phases : T → Phase}
    (h : OneFlight s holds phases) {t : T} {mine : Holds Lock}
    (hmine : phases t = .testing → (.startedLock_, .mutex) ∈ mine) :
    OneFlight s (Function.update holds t mine) phases where
  single := h.single
  carried := h.carried
  alone := h.alone
  grounded := h.grounded
  started := h.started
  quiet := h.quiet
  testing := by
    intro u hu
    by_cases hut : u = t
    · subst hut
      rw [Function.update_self]
      exact ⟨(h.testing u hu).1, hmine hu⟩
    · rw [Function.update_of_ne hut]
      exact h.testing u hu

/-! ## Changes of phase -/

section Phases

variable {s s' : Shared} {holds : T → Holds Lock} {phases : T → Phase} {t : T}

theorem Phase.busy_of_active {phase : Phase} (h : phase.active) : phase.busy := by
  cases phase <;> first | rfl | exact h

/-- The phases of the others. -/
theorem update_busy {phase' : Phase} {u : T} (h : (Function.update phases t phase' u).busy)
    (hphase : phase'.busy = false) : u ≠ t ∧ (phases u).busy := by
  have hne : u ≠ t := by
    rintro rfl
    rw [Function.update_self, hphase] at h
    cases h
  rw [Function.update_of_ne hne] at h
  exact ⟨hne, h⟩

/-- Where one thread is busy none is testing. -/
theorem OneFlight.not_testing {phase : Phase} (h : OneFlight s holds phases)
    (ht : (phases t).busy) (hphase : phase ≠ .testing) (u : T) :
    Function.update phases t phase u ≠ .testing := by
  by_cases hut : u = t
  · subst hut
    rwa [Function.update_self]
  · rw [Function.update_of_ne hut]
    intro hu
    have hset := h.started (Or.inr (Or.inr ⟨t, ht⟩))
    rw [(h.testing u hu).1] at hset
    cases hset

/-- The thread that was busy is done with the message: it is in the hands of pjsua,
or of nobody. -/
theorem OneFlight.finish (h : OneFlight s holds phases) (ht : (phases t).busy)
    (houtstanding : s'.outstanding.length ≤ 1)
    (hcarried : ∀ x ∈ s'.outstanding, x = sipSend s'.transport.msg_)
    (hstarted : s'.engine.started_ = s.engine.started_) :
    OneFlight s' holds (Function.update phases t .free) := by
  have hnone : ∀ u, ¬ (Function.update phases t Phase.free u).busy := by
    intro u hu
    obtain ⟨hne, hbusy⟩ := update_busy hu rfl
    exact hne (h.alone u t hbusy ht)
  exact
    { single := houtstanding
      carried := hcarried
      alone := fun u _ hu _ => absurd hu (hnone u)
      grounded := fun u hu => absurd hu (hnone u)
      started := fun _ => hstarted.trans (h.started (Or.inr (Or.inr ⟨t, ht⟩)))
      quiet := fun u hu => absurd (Phase.busy_of_active hu) (hnone u)
      testing := fun u hu => absurd hu (h.not_testing ht (by decide) u) }

/-- The thread that is busy goes on with it, and the transport has no message now. -/
theorem OneFlight.proceed (h : OneFlight s holds phases) (phase' : Phase)
    (ht : (phases t).busy) (hphase' : phase'.busy) (houtstanding : s'.outstanding = s.outstanding)
    (hstarted : s'.engine.started_ = s.engine.started_) (hlive : ¬ Live s') :
    OneFlight s' holds (Function.update phases t phase') := by
  have honly : ∀ u, (Function.update phases t phase' u).busy → u = t := by
    intro u hu
    by_contra hne
    rw [Function.update_of_ne hne] at hu
    exact hne (h.alone u t hu ht)
  have hgrounded := houtstanding.trans (h.grounded t ht)
  have htesting : phase' ≠ .testing := by
    rintro rfl
    cases hphase'
  exact
    { single := by simp [hgrounded]
      carried := by simp [hgrounded]
      alone := fun u v hu hv => (honly u hu).trans (honly v hv).symm
      grounded := fun _ _ => hgrounded
      started := fun _ => hstarted.trans (h.started (Or.inr (Or.inr ⟨t, ht⟩)))
      quiet := fun _ _ => hlive
      testing := fun u hu => absurd hu (h.not_testing ht htesting u) }

/-- The flag is unset by the thread that has found no message. -/
theorem OneFlight.clear (h : OneFlight s holds phases) (ht : phases t = .clearing)
    (houtstanding : s'.outstanding = s.outstanding) (htransport : s'.transport = s.transport) :
    OneFlight s' holds (Function.update phases t .free) := by
  have hbusy : (phases t).busy := by rw [ht]; rfl
  have hnone : ∀ u, ¬ (Function.update phases t Phase.free u).busy := by
    intro u hu
    obtain ⟨hne, hother⟩ := update_busy hu rfl
    exact hne (h.alone u t hother hbusy)
  have hgrounded := houtstanding.trans (h.grounded t hbusy)
  have hlive : ¬ Live s' := by
    rw [Live, htransport]
    exact h.quiet t (by rw [ht]; rfl)
  exact
    { single := by simp [hgrounded]
      carried := by simp [hgrounded]
      alone := fun u _ hu _ => absurd hu (hnone u)
      grounded := fun _ _ => hgrounded
      started := by
        rintro (hout | hl | ⟨u, hu⟩)
        · exact absurd hgrounded hout
        · exact absurd hl hlive
        · exact absurd hu (hnone u)
      quiet := fun _ _ => hlive
      testing := fun u hu => absurd hu (h.not_testing hbusy (by decide) u) }

/-- A thread sees the flag unset, under `startedLock_`. -/
theorem OneFlight.test (h : OneFlight s holds phases) (ht : phases t = .free)
    (hstarted : s.engine.started_ = false) (hheld : (.startedLock_, .mutex) ∈ holds t) :
    OneFlight s holds (Function.update phases t .testing) where
  single := h.single
  carried := h.carried
  alone := fun u v hu hv => h.alone u v (update_busy hu rfl).2 (update_busy hv rfl).2
  grounded := fun u hu => h.grounded u (update_busy hu rfl).2
  started := by
    rintro (hout | hlive | ⟨u, hu⟩)
    · exact h.started (Or.inl hout)
    · exact h.started (Or.inr (Or.inl hlive))
    · exact h.started (Or.inr (Or.inr ⟨u, (update_busy hu rfl).2⟩))
  quiet := by
    intro u hu
    obtain ⟨hne, -⟩ := update_busy (Phase.busy_of_active hu) rfl
    rw [Function.update_of_ne hne] at hu
    exact h.quiet u hu
  testing := by
    intro u hu
    by_cases hut : u = t
    · subst hut
      exact ⟨hstarted, hheld⟩
    · rw [Function.update_of_ne hut] at hu
      exact h.testing u hu

/-- It sets the flag: there is no message, and nobody at work for one. -/
theorem OneFlight.kick (h : OneFlight s holds phases) (hexclusive : Exclusive holds)
    (ht : phases t = .testing) (houtstanding : s'.outstanding = s.outstanding)
    (htransport : s'.transport = s.transport) (hstarted : s'.engine.started_ = true) :
    OneFlight s' holds (Function.update phases t .kicking) := by
  obtain ⟨hunset, hheld⟩ := h.testing t ht
  have hnothing : ¬ (s.outstanding ≠ [] ∨ Live s ∨ ∃ u, (phases u).busy) := by
    intro hsome
    rw [h.started hsome] at hunset
    cases hunset
  have hgrounded : s'.outstanding = [] := by
    rw [houtstanding]
    by_contra hout
    exact hnothing (Or.inl hout)
  have honly : ∀ u, (Function.update phases t Phase.kicking u).busy → u = t := by
    intro u hu
    by_contra hne
    rw [Function.update_of_ne hne] at hu
    exact hnothing (Or.inr (Or.inr ⟨u, hu⟩))
  exact
    { single := by simp [hgrounded]
      carried := by simp [hgrounded]
      alone := fun u v hu hv => (honly u hu).trans (honly v hv).symm
      grounded := fun _ _ => hgrounded
      started := fun _ => hstarted
      quiet := by
        intro u _ hlive
        rw [Live, htransport] at hlive
        exact hnothing (Or.inr (Or.inl hlive))
      testing := by
        intro u hu
        by_cases hut : u = t
        · subst hut
          rw [Function.update_self] at hu
          cases hu
        · rw [Function.update_of_ne hut] at hu
          exact absurd (hexclusive.eq (by decide) (h.testing u hu).2 hheld) hut }

/-- A status is taken from pjsua. -/
theorem OneFlight.take (h : OneFlight s holds phases)
    (hsome : s.outstanding ≠ []) (hgrounded : s'.outstanding = [])
    (hstarted : s'.engine.started_ = s.engine.started_) :
    OneFlight s' holds (Function.update phases t .taken) := by
  have hidle : ∀ u, ¬ (phases u).busy := fun u hu => hsome (h.grounded u hu)
  have honly : ∀ u, (Function.update phases t Phase.taken u).busy → u = t := by
    intro u hu
    by_contra hne
    rw [Function.update_of_ne hne] at hu
    exact hidle u hu
  exact
    { single := by simp [hgrounded]
      carried := by simp [hgrounded]
      alone := fun u v hu hv => (honly u hu).trans (honly v hv).symm
      grounded := fun _ _ => hgrounded
      started := fun _ => hstarted.trans (h.started (Or.inl hsome))
      quiet := by
        intro u hu
        rw [honly u (Phase.busy_of_active hu), Function.update_self] at hu
        cases hu
      testing := by
        intro u hu
        by_cases hut : u = t
        · subst hut
          rw [Function.update_self] at hu
          cases hu
        · rw [Function.update_of_ne hut] at hu
          rw [hstarted]
          exact h.testing u hu }

end Phases

/-- The code follows the discipline from this phase on. -/
abbrev Follows (T : Type) [DecidableEq T] (lax : Bool) (mine : Holds Lock) (phase : Phase)
    (k : Prog) : Prop :=
  (discipline T lax).Obeys mine phase k

/-! ## Rules -/

section Rules

variable {lax : Bool} {mine : Holds Lock} {phase : Phase} {k : Prog} {lock : Lock} {mode : Mode}

/-- Take a lock. -/
theorem follows_acquire
    (hasks : ∀ (phases : T → Phase) t s holds, OneFlight s holds phases → phases t = phase →
      Asks lax phases mine lock mode)
    (hk : Follows T lax ((lock, mode) :: mine) phase k) :
    Follows T lax mine phase (.acquire lock mode k) := by
  refine ⟨fun t s holds phases hsees => ?_, phase, fun t s holds phases hsees _ => ?_, hk⟩
  · have h := hasks phases t s holds hsees.inv hsees.phase
    rwa [← hsees.holds] at h
  · refine OneFlight.rehold hsees.same fun hphase => ?_
    rw [Function.update_self] at hphase
    have hmem := (hsees.inv.testing t (hsees.phase.trans hphase)).2
    rw [hsees.holds] at hmem
    exact List.mem_cons_of_mem _ hmem

/-- Give up the lock that was taken last. -/
theorem follows_release (hphase : phase ≠ .testing)
    (hk : Follows T lax mine phase k) :
    Follows T lax ((lock, mode) :: mine) phase (.release lock k) := by
  have hmine : ((lock, mode) :: mine).eraseP (fun x => x.1 = lock) = mine := by simp
  refine ⟨phase, fun t s holds phases hsees => ?_, ?_⟩
  · refine OneFlight.rehold hsees.same fun h => ?_
    rw [Function.update_self] at h
    exact absurd h hphase
  · rwa [hmine]

/-- Change data under their locks, aside from the flag and the transport. -/
theorem follows_aside {f : Shared → Shared} (haside : ∀ s, Aside s (f s))
    (hguarded : ∀ s lock, Same lock s (f s) ∨ ∃ mode, mode ≠ .read ∧ (lock, mode) ∈ mine)
    (hk : Follows T lax mine phase k) :
    Follows T lax mine phase (.update f k) := by
  apply obeys_update phase _ hk
  intro t s holds phases hsees
  refine ⟨⟨?_, fun _ => Or.inl ?_⟩, OneFlight.aside hsees.same (haside s)⟩
  · rw [hsees.holds]
    exact hguarded s
  · rw [(haside s).transport]

/-- The same, for an action that asks the surroundings. -/
theorem follows_perform_aside {β : Type} {f : Shared → Answer → Option (Shared × β)}
    {next : β → Prog} (haside : ∀ s a s' b, f s a = some (s', b) → Aside s s')
    (hguarded : ∀ s a s' b, f s a = some (s', b) → ∀ lock,
      Same lock s s' ∨ ∃ mode, mode ≠ .read ∧ (lock, mode) ∈ mine)
    (hk : ∀ b, Follows T lax mine phase (next b)) :
    Follows T lax mine phase (.perform f next) := by
  apply obeys_perform
  intro t s holds phases hsees a s' b hf
  refine ⟨Or.inr ⟨?_, fun _ => Or.inl ?_⟩, phase,
    OneFlight.aside hsees.same (haside s a s' b hf), hk b⟩
  · rw [hsees.holds]
    exact hguarded s a s' b hf
  · rw [(haside s a s' b hf).transport]

end Rules

/-- Only the data of one lock have changed, which is held. -/
theorem guarded_by {mine : Holds Lock} {s s' : Shared} (lock : Lock) {mode : Mode}
    (hmem : (lock, mode) ∈ mine) (hmode : mode ≠ .read)
    (h : ∀ other, other ≠ lock → Same other s s') (other : Lock) :
    Same other s s' ∨ ∃ mode, mode ≠ .read ∧ (other, mode) ∈ mine := by
  by_cases hother : other = lock
  · subst hother
    exact Or.inr ⟨mode, hmode, hmem⟩
  · exact Or.inl (h other hother)

end EndToEndSmkex.Threads.Discipline
