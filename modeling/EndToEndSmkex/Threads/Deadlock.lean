import EndToEndSmkex.Threads.SingleFlight

/-!
# Deadlocks

## Main results

* `deadlock_causes` — a deadlock needs `syncWithDBConnectors`, or `stopSIPStack` of a
  running stack, or the lock of the account.
-/

namespace EndToEndSmkex.Threads.Deadlock

open EndToEndSmkex.Lib.Run
open EndToEndSmkex.Lib.Deadlocks
open EndToEndSmkex.Lib.Threads
open EndToEndSmkex.AutoResend.MsgPayload
open EndToEndSmkex.Threads.Calls
open EndToEndSmkex.Threads.Discipline
open EndToEndSmkex.Threads.Following
open EndToEndSmkex.Threads.SingleFlight

variable {T : Type}

/-- A thread is about to take one of the locks that can be waited for in a circle. -/
inductive Culprit (holds : Holds Lock) : Lock → Prop
  | syncWithDBConnectors (held : (.dbConnLock_, .mutex) ∈ holds) : Culprit holds .userPoolLock_
  | stopSIPStack (held : (.sipStack, .mutex) ∈ holds) : Culprit holds .buddyList
  | rmRegCallback : Culprit holds .userAccount

theorem rank_le (settles : Bool) (lock : Lock) : rank settles lock ≤ 8 := by
  cases lock <;> cases settles <;> decide

theorem ranks_le (phases : T → Phase) (lock : Lock) : ranks phases lock ≤ 8 := by
  unfold ranks
  split <;> exact rank_le _ lock

variable [DecidableEq T]

/-- What a thread leaves when it has made its calls. -/
theorem left_of_done {lax : Bool} {phases : T → Phase} {c : Config T Lock Shared Answer}
    (hkept : (discipline T lax).Kept phases c) (t : T) (hdone : c.code t = .done) :
    ∀ x ∈ c.holds t, lax = true ∧ x.1 = .userAccount := by
  intro x hx
  obtain ⟨hlax, hmine⟩ := (hkept.ends hdone).1 x hx
  exact ⟨hlax, by rw [hmine]⟩

variable [Fintype T] (dbConnectors : List mp_msg_type_t) {calls : T → List Call}
  {schedule : List (T × Answer)} {c : Config T Lock Shared Answer} {D : Set T}

/-- **What a deadlock needs.**  Whatever the threads call and in whatever order
their steps are made, in a set of threads that wait for each other some thread is
at one of three places. -/
theorem deadlock_causes
    (hexec : exec Config.step (beginning dbConnectors calls) schedule = some c)
    (h : Deadlocked c D) :
    ∃ t ∈ D, ∃ lock mode next, c.code t = .acquire lock mode next ∧
      Culprit (c.holds t) lock := by
  obtain ⟨phases, hkept⟩ :=
    (kept_beginning dbConnectors (Or.inl rfl : true = true ∨ _)).exec hexec
  obtain ⟨t, ht, lock, mode, next, hcode, hwhy⟩ :=
    exists_unordered (P := fun lock => true = true ∧ lock = .userAccount) (ranks_le phases)
      hkept.exclusive (left_of_done hkept) h
  refine ⟨t, ht, lock, mode, next, hcode, ?_⟩
  rcases hwhy with hunordered | ⟨-, rfl⟩
  · rcases hkept.asks hcode with hordered | ⟨-, ⟨rfl, hheld⟩ | ⟨rfl, hheld⟩⟩
    · exact absurd hordered hunordered
    · exact .syncWithDBConnectors hheld
    · exact .stopSIPStack hheld
  · exact .rmRegCallback

/-- Two threads remove a registration callback: the first one ends with the lock. -/
theorem deadlock_causes_rmRegCallback :
    ∃ c : Config Bool Lock Shared Answer,
      exec Config.step (beginning [] fun _ => [.rmRegCallback true]) [(true, default)] = some c ∧
      ∃ t ∈ ({false} : Set Bool), ∃ lock mode next, c.code t = .acquire lock mode next ∧
        Culprit (c.holds t) lock := by
  have hrun : ∃ c : Config Bool Lock Shared Answer,
      exec Config.step (beginning [] fun _ => [.rmRegCallback true]) [(true, default)] = some c ∧
        Deadlocked c {false} := by
    refine ⟨_, rfl, deadlocked_single (u := true) ?_ rfl⟩
    exact ⟨_, _, _, rfl, (.userAccount, .mutex), List.mem_singleton.2 rfl, rfl, rfl⟩
  obtain ⟨c, hexec, hdead⟩ := hrun
  exact ⟨c, hexec, deadlock_causes [] hexec hdead⟩

/-- **Without these calls there is no deadlock**: statuses may come in while the
application adds messages and buddies and starts the stack. -/
theorem deadlock_free (hcalls : ∀ t, ∀ call ∈ calls t, call.orderly)
    (hexec : exec Config.step (beginning dbConnectors calls) schedule = some c) :
    ¬ Deadlocked c D := by
  intro h
  obtain ⟨phases, hkept⟩ :=
    (kept_beginning dbConnectors (Or.inr hcalls : false = true ∨ _)).exec hexec
  obtain ⟨t, -, lock, mode, next, hcode, hwhy⟩ :=
    exists_unordered (P := fun lock => false = true ∧ lock = .userAccount) (ranks_le phases)
      hkept.exclusive (left_of_done hkept) h
  rcases hwhy with hunordered | ⟨hlax, -⟩
  · rcases hkept.asks hcode with hordered | ⟨hlax, -⟩
    · exact hunordered hordered
    · cases hlax
  · cases hlax

/-- A buddy is added, and a status comes in. -/
theorem deadlock_free_addBuddy :
    let calls : Bool → List Call := fun t =>
      if t then [.addBuddy (.new [65])] else [.on_pager_status 0 200]
    ∃ c, exec Config.step (beginning [] calls) [(true, default)] = some c ∧
      ¬ Deadlocked c Set.univ := by
  intro calls
  have hcalls : ∀ t, ∀ call ∈ calls t, call.orderly := by decide
  have hrun : ∃ c, exec Config.step (beginning [] calls) [(true, default)] = some c := ⟨_, rfl⟩
  obtain ⟨c, hexec⟩ := hrun
  exact ⟨c, hexec, deadlock_free [] hcalls hexec⟩

end EndToEndSmkex.Threads.Deadlock
