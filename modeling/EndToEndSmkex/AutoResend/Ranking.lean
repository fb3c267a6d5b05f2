import EndToEndSmkex.AutoResend.Selection
import EndToEndSmkex.AutoResend.Representation

/-!
# Unreachable users stand last

`INT_MAX` is the weight of the pools whose messages were reported as not sent:
it sorts them behind everybody else, and a pool of that weight is not marked and
reported again.  But a pool of that weight can be incremented, on behalf of
another user or when one of its own messages is sent after all; `setWeight`
then makes it 0.

## Main results

* `ranks_iff` — as long as every comparison finds its pools, unreachable users
  stand last along a run exactly when no pool of weight `INT_MAX` is
  incremented.
-/

namespace EndToEndSmkex.AutoResend.Ranking

open EndToEndSmkex.Lib.Run
open EndToEndSmkex.Smkex.Record
open EndToEndSmkex.AutoResend.MsgPayload
open EndToEndSmkex.AutoResend.Pool
open EndToEndSmkex.AutoResend.Engine
open EndToEndSmkex.AutoResend.Engine.mp_status_t
open EndToEndSmkex.AutoResend.Changes
open EndToEndSmkex.AutoResend.Search
open EndToEndSmkex.AutoResend.Queues
open EndToEndSmkex.AutoResend.Representation
open EndToEndSmkex.AutoResend.Selection

/-- The operation adds one to the weight of this user's pool. -/
def Increments (e : MpAutoResendEngine) (op : Op) (serial : MpString) : Prop :=
  match op with
  | .messageStatus m status =>
    status = MP_MESSAGE_SENT ∧ m.userSerial_ = serial ∧
      ∃ pool, e.userPool_ serial = some pool ∧
        ((pool.markMsgAsProcessed m.uid_).rmMessage m.uid_).messages_ ≠ []
  | .resendMessage user msgId =>
    serial ≠ user ∧
      ∃ first, e.userPool_ user = some first ∧ (first.getIndexForUID msgId).isSome
  | _ => False

/-- The condition on a step: what it increments has room. -/
def HasRoom (e : MpAutoResendEngine) (c : Call) : Prop :=
  ∀ serial pool, e.userPool_ serial = some pool → Increments e c.op serial →
    pool.weight_ ≠ INT_MAX

/-- This user could not be reached. -/
def Unreachable (e : MpAutoResendEngine) (serial : MpString) : Prop :=
  ∃ pool, e.userPool_ serial = some pool ∧ pool.dirty_ = true

/-- This user's pool is clean and its weight below the maximum. -/
def Reachable (e : MpAutoResendEngine) (serial : MpString) : Prop :=
  ∃ pool, e.userPool_ serial = some pool ∧ pool.dirty_ = false ∧ pool.weight_ < INT_MAX

/-- What a step does for the ranking of unreachable users: their pools have the
maximal weight afterwards, no increment makes a weight smaller, a sort of the
changed engine puts them behind the others, and the search reports nothing. -/
structure Ranks (e : MpAutoResendEngine) (c : Call) (e' : MpAutoResendEngine) : Prop where
  dirty : ∀ serial pool, e'.userPool_ serial = some pool → pool.dirty_ = true →
    pool.weight_ = INT_MAX
  grows : ∀ serial pool, e.userPool_ serial = some pool → Increments e c.op serial →
    pool.weight_ ≤ (pool.setWeight (pool.weight_ + 1)).weight_
  sorted : ∀ started sorted,
    sortMessages { changed e c.op with started_ := started } c.answers.missing =
        some sorted →
      sorted.priority_.Pairwise fun s t => Unreachable sorted s → ¬ Reachable sorted t
  silent : ∀ out, operate e c.op c.answers = some out → out.reports = ownReports e c.op

/-! ## The weights of the pools -/

/-- A pool of an engine in which no pool at the maximum was incremented. -/
structure Weighed (pool : MpMsgPool) : Prop where
  nonempty : pool.messages_ ≠ []
  nonneg : 0 ≤ pool.weight_
  le_max : pool.weight_ ≤ INT_MAX
  dirty : pool.dirty_ = true → pool.weight_ = INT_MAX

/-- All pools of the engine. -/
def AllWeighed (e : MpAutoResendEngine) : Prop :=
  ∀ serial pool, e.userPool_ serial = some pool → Weighed pool

section Pools

variable {e : MpAutoResendEngine} {c : Call} {pool : MpMsgPool}
  (dbConnectors : List mp_msg_type_t)

theorem messages_ne_nil_iff (pool : MpMsgPool) : pool.messages_ ≠ [] ↔ pool.contents ≠ [] := by
  simp [MpMsgPool.contents]

theorem weighed_markUserPoolProcessed (h : pool.messages_ ≠ []) :
    Weighed (markUserPoolProcessed dbConnectors pool).1 := by
  have hweight := weight_markUserPoolProcessed dbConnectors h
  refine ⟨?_, by rw [hweight]; decide, le_of_eq hweight, fun _ => hweight⟩
  rw [messages_ne_nil_iff, markUserPoolProcessed_contents, ← messages_ne_nil_iff]
  exact h

theorem weighed_markUserPoolAsClean (autoResendEnabled : Bool) (h : pool.messages_ ≠ []) :
    Weighed (markUserPoolAsClean autoResendEnabled pool) := by
  have hweight := weight_markUserPoolAsClean autoResendEnabled pool
  have hclean := dirty_markUserPoolAsClean autoResendEnabled pool
  refine ⟨?_, by rw [hweight], by rw [hweight]; decide, fun hdirty => ?_⟩
  · rw [messages_ne_nil_iff, markUserPoolAsClean_contents, ← messages_ne_nil_iff]
    exact h
  · rw [hclean] at hdirty
    cases hdirty

/-- An increment that has room. -/
theorem Weighed.increment (h : Weighed pool) (hroom : pool.weight_ ≠ INT_MAX) :
    (pool.setWeight (pool.weight_ + 1)).weight_ = pool.weight_ + 1 := by
  have hnonneg := h.nonneg
  have hmax := h.le_max
  apply MpMsgPool.weight_setWeight
  · omega
  · omega

theorem Weighed.raised {pool' : MpMsgPool} (h : Weighed pool) (hroom : pool.weight_ ≠ INT_MAX)
    (hmessages : pool'.messages_ ≠ []) (hdirty : pool'.dirty_ = pool.dirty_) :
    Weighed (pool'.setWeight (pool.weight_ + 1)) := by
  have hnonneg := h.nonneg
  have hmax := h.le_max
  have hweight : (pool'.setWeight (pool.weight_ + 1)).weight_ = pool.weight_ + 1 := by
    apply MpMsgPool.weight_setWeight
    · omega
    · omega
  refine ⟨hmessages, by rw [hweight]; omega, by rw [hweight]; omega, ?_⟩
  intro hd
  rw [MpMsgPool.dirty_setWeight, hdirty] at hd
  exact absurd (h.dirty hd) hroom

/-- The pools after an operation that has room. -/
theorem Weighed.becomes (h : AllWeighed e) (hroom : HasRoom e c) {serial : MpString}
    (hpool : Becomes e c.op serial pool) : Weighed pool := by
  induction hpool with
  | kept before => exact h serial _ before
  | opened adds receiver => exact weighed_markUserPoolAsClean _ (by simp [MpMsgPool.new])
  | extended before adds receiver ih =>
      exact weighed_markUserPoolAsClean _ (by simp [MpMsgPool.addMessage])
  | activated before online => exact weighed_markUserPoolAsClean _ (h serial _ before).nonempty
  | @sent pool m before status receiver left =>
      have hincrements : Increments e c.op serial := by
        rw [status]
        exact ⟨rfl, receiver, pool, before, left⟩
      exact (h serial pool before).raised (hroom serial pool before hincrements) left (by simp)
  | @failed pool m code before status receiver failure =>
      apply weighed_markUserPoolProcessed
      rw [messages_ne_nil_iff, MpMsgPool.contents_markAsDirty,
        MpMsgPool.contents_markMsgAsProcessed, ← messages_ne_nil_iff]
      exact (h serial pool before).nonempty
  | @resent pool msgId before asked =>
      have hweight : ((pool.markMsgAsUnprocessed msgId).markAsClean.setWeight 0).weight_ = 0 :=
        rfl
      refine ⟨?_, by rw [hweight], by rw [hweight]; decide, fun hdirty => by cases hdirty⟩
      rw [messages_ne_nil_iff, MpMsgPool.contents_setWeight, contents_resent,
        ← messages_ne_nil_iff]
      exact (h serial pool before).nonempty
  | @raised pool first other msgId before asked ne found index =>
      have hincrements : Increments e c.op serial := by
        rw [asked]
        exact ⟨ne, first, found, index⟩
      have hweighed := h serial pool before
      exact hweighed.raised (hroom serial pool before hincrements) hweighed.nonempty rfl

/-- A weighed pool is not marked again, and not reported. -/
theorem Weighed.markUserPoolProcessed (h : Weighed pool) (hdirty : pool.dirty_ = true) :
    Engine.markUserPoolProcessed dbConnectors pool = (pool, []) :=
  markUserPoolProcessed_max dbConnectors (h.dirty hdirty)

end Pools

/-! ## A step -/

section Step

variable {e e' : MpAutoResendEngine} {c : Call}

/-- Sorted by weight, no user that can be reached stands behind one that
cannot. -/
theorem AllWeighed.sorted (h : AllWeighed e) (hordered : e.priority_.Pairwise (Ordered e)) :
    e.priority_.Pairwise fun s t => Unreachable e s → ¬ Reachable e t := by
  apply hordered.imp
  rintro s t ⟨p, q, hp, hq, hle⟩ ⟨p', hp', hdirty⟩ ⟨q', hq', -, hlt⟩
  rw [hp, Option.some.injEq] at hp'
  rw [hq, Option.some.injEq] at hq'
  subst hp' hq'
  have hmax := (h s p hp).dirty hdirty
  omega

/-- The engine after an operation that has room, and what it reported. -/
theorem AllWeighed.step (h : AllWeighed e) (hroom : HasRoom e c) {out : Outcome}
    (hout : operate e c.op c.answers = some out) :
    AllWeighed out.engine ∧ out.reports = ownReports e c.op := by
  have hoperates := operate_operates hout
  have hmade : ∀ serial pool, Becomes e c.op serial pool → Weighed pool :=
    fun _ _ hpool => Weighed.becomes h hroom hpool
  constructor
  · apply hoperates.forall_pools (P := fun _ pool => Weighed pool) hmade
    intro _ pool _ hweighed
    exact weighed_markUserPoolProcessed _ hweighed.nonempty
  · apply hoperates.silent
    intro serial pool hpool hdirty
    rw [(hmade serial pool hpool).markUserPoolProcessed _ hdirty]

/-- A step whose comparisons find their pools ranks the unreachable users last
exactly when what it increments has room. -/
theorem ranks_step_iff (h : AllWeighed e) (hcall : call e c = some e')
    (hmissing : c.answers.missing = []) : Ranks e c e' ↔ HasRoom e c := by
  constructor
  · intro hranks serial pool hpool hincrements hmax
    have hgrows := hranks.grows serial pool hpool hincrements
    rw [hmax, MpMsgPool.weight_setWeight_wraps] at hgrows
    exact absurd hgrows (by decide)
  · intro hroom
    obtain ⟨out, hout, rfl⟩ := Option.map_eq_some_iff.1 hcall
    refine ⟨?_, ?_, ?_, fun out' hout' => (h.step hroom hout').2⟩
    · intro serial pool hpool hdirty
      exact ((h.step hroom hout).1 serial pool hpool).dirty hdirty
    · intro serial pool hpool hincrements
      rw [(h serial pool hpool).increment (hroom serial pool hpool hincrements)]
      omega
    · intro started sorted hsort
      rw [hmissing] at hsort
      obtain ⟨⟨priority, rfl, -⟩, -⟩ := sortMessages_spec hsort
      have hweighed : AllWeighed (driven (changed e c.op) started priority) :=
        fun _ _ hpool => Weighed.becomes h hroom (becomes_of_changed hpool)
      exact hweighed.sorted (sortMessages_ordered hsort)

theorem AllWeighed.call (h : AllWeighed e) (hroom : HasRoom e c)
    (hcall : Representation.call e c = some e') : AllWeighed e' := by
  obtain ⟨out, hout, rfl⟩ := Option.map_eq_some_iff.1 hcall
  exact (h.step hroom hout).1

end Step

/-! ## Runs -/

/-- **Unreachable users stand last exactly as long as what is incremented has
room.**  For every run of the engine's operations in which no comparison looks
up a serial without a pool. -/
theorem ranks_iff (dbConnectors : List mp_msg_type_t) (calls : List Call)
    (hdefined : Steps call (fun _ c _ => c.answers.missing = [])
      (MpAutoResendEngine.new dbConnectors) calls) :
    Steps call Ranks (MpAutoResendEngine.new dbConnectors) calls ↔
      Steps call (fun e c _ => HasRoom e c) (MpAutoResendEngine.new dbConnectors) calls := by
  have hnew : AllWeighed (MpAutoResendEngine.new dbConnectors) := by
    intro serial pool hpool
    cases hpool
  refine steps_iff_of_steps ?_ ?_ hnew hdefined
  · intro e c e' h hcall hmissing
    exact ranks_step_iff h hcall hmissing
  · intro e c e' h hcall _ hroom
    exact h.call hroom hcall

/-- The message for `a` is not sent, and one for `b` waits. -/
def sampleFailure : List Call :=
  [⟨.addMessage (sampleMessage [97]), ⟨true, []⟩⟩,
    ⟨.messageStatus (sampleMessage [97]) MP_MESSAGE_NOT_SENT, ⟨true, []⟩⟩,
    ⟨.addMessage (sampleMessage [98]), ⟨true, []⟩⟩]

/-- The user asks for the message to `b` again. -/
def sampleResend : Call := ⟨.resendMessage [98] 1, ⟨true, []⟩⟩

theorem ranks_iff_failure :
    Steps call Ranks (MpAutoResendEngine.new []) sampleFailure ↔
      Steps call (fun e c _ => HasRoom e c) (MpAutoResendEngine.new []) sampleFailure :=
  ranks_iff [] sampleFailure (by decide)

/-- `a` is unreachable; asking for the message to `b` makes the weight of `a`
the least. -/
theorem resend_unranks :
    ¬ Steps call Ranks (MpAutoResendEngine.new []) (sampleFailure ++ [sampleResend]) := by
  intro hsteps
  have hrun : ((exec call (MpAutoResendEngine.new []) sampleFailure).bind fun e =>
      (call e sampleResend).map fun e' =>
        (e'.userPool_ [97]).map fun pool => (pool.dirty_, pool.weight_)) =
      some (some (true, 0)) := by rfl
  obtain ⟨e, hexec, hcall⟩ := Option.bind_eq_some_iff.1 hrun
  obtain ⟨e', hcall, hpool⟩ := Option.map_eq_some_iff.1 hcall
  obtain ⟨pool, hpool, hweight⟩ := Option.map_eq_some_iff.1 hpool
  have hranks := hsteps.last hexec hcall
  have hmax := hranks.dirty [97] pool hpool (congrArg Prod.fst hweight)
  rw [show pool.weight_ = 0 from congrArg Prod.snd hweight] at hmax
  exact absurd hmax (by decide)

end EndToEndSmkex.AutoResend.Ranking
