import EndToEndSmkex.Threads.Following

/-!
# One message at a time, in every interleaving

The threads of the application and of pjsua call the library at the same time.
Two calls can both come to the point where the engine hands a message over, but
not both for the same slot of the transport.

## Main results

* `single_flight` — at most one call of `sendMsg` is without a status, it carries
  the message the transport has, and no other message takes its place.
* `locks_protect` — while a thread holds a lock, no other thread changes its data.
-/

namespace EndToEndSmkex.Threads.SingleFlight

open EndToEndSmkex.Lib.Run
open EndToEndSmkex.Lib.Threads
open EndToEndSmkex.AutoResend.MsgPayload
open EndToEndSmkex.DataMsg.MsgTransport
open EndToEndSmkex.Threads.Calls
open EndToEndSmkex.Threads.Discipline
open EndToEndSmkex.Threads.Following

variable {T : Type} [DecidableEq T] (dbConnectors : List mp_msg_type_t) (calls : T → List Call)

/-- Every thread is about to make its calls. -/
def beginning : Config T Lock Shared Answer :=
  Config.start (Shared.new dbConnectors) fun t => program (calls t)

omit [DecidableEq T] in
theorem oneFlight_new :
    OneFlight (Shared.new dbConnectors) (fun _ : T => []) fun _ => .free where
  single := by simp [Shared.new]
  carried := by simp [Shared.new]
  alone := fun _ _ ht => by cases ht
  grounded := fun _ _ => rfl
  started := by
    rintro (hout | hlive | ⟨t, ht⟩)
    · exact absurd rfl hout
    · exact absurd rfl hlive
    · cases ht
  quiet := fun _ ht => by cases ht
  testing := fun _ ht => by cases ht

variable {calls} in
theorem kept_beginning {lax : Bool} (h : lax = true ∨ ∀ t, ∀ call ∈ calls t, call.orderly) :
    (discipline T lax).Kept (fun _ => .free) (beginning dbConnectors calls) :=
  Discipline.kept_start (oneFlight_new dbConnectors) fun t =>
    program_follows (calls t) (h.imp_right fun hcalls => hcalls t) [] (by simp [Rest])

variable [Fintype T]

/-- What is true of the message under way before and after a step. -/
structure OneMessage (s s' : Shared) : Prop where
  single : s'.outstanding.length ≤ 1
  carried : ∀ x ∈ s'.outstanding, x = sipSend s'.transport.msg_
  started : s'.outstanding ≠ [] ∨ Live s' → s'.engine.started_ = true
  keeps : Live s → s'.transport.msg_ = s.transport.msg_ ∨
    s'.transport.msg_ = s.transport.msg_.setNumberOfRetries 0

/-- **One message at a time**, however many threads there are and however their
steps are interleaved. -/
theorem single_flight (schedule : List (T × Answer)) :
    Steps Config.step (fun c _ c' => OneMessage c.shared c'.shared)
      (beginning dbConnectors calls) schedule := by
  apply (kept_beginning dbConnectors (Or.inl rfl : true = true ∨ _)).steps
  intro c t a c' phases phases' _ h' hacts
  refine ⟨h'.inv.single, h'.inv.carried, ?_, ?_⟩
  · rintro (hout | hlive)
    · exact h'.inv.started (Or.inl hout)
    · exact h'.inv.started (Or.inr (Or.inl hlive))
  · intro hlive
    rcases hacts with hsame | hacts
    · rw [hsame]
      exact Or.inl rfl
    · exact hacts.keeps hlive

/-- **A lock protects its data**: the queues, the flags of the engine, the
connectors, the slot of the transport, the state of the stack, the buddies and
the presence callbacks. -/
theorem locks_protect (schedule : List (T × Answer)) :
    Steps Config.step (fun c e c' => ∀ u, u ≠ e.1 → ∀ x ∈ c.holds u,
      Same x.1 c.shared c'.shared) (beginning dbConnectors calls) schedule := by
  apply (kept_beginning dbConnectors (Or.inl rfl : true = true ∨ _)).steps
  intro c t a c' phases phases' h _ hacts u hu x hx
  rcases hacts with hsame | hacts
  · rw [hsame]
    exact Same.refl _ _
  · rcases hacts.guarded x.1 with hsame | ⟨mode, hmode, hmine⟩
    · exact hsame
    · exact absurd (h.exclusive.eq hmode hmine hx).symm hu

end EndToEndSmkex.Threads.SingleFlight
