import EndToEndSmkex.AutoResend.Queues
import EndToEndSmkex.Lib.Run

/-!
# The two containers of the engine

The engine keeps its pools in a map and the order of its users in a vector.
They belong together: every user with a pool stands in the vector once, and
nobody else does.  `messageStatus` takes a user whose last message was sent out
of both; `removeMessagesForSerial` empties the map alone.

## Main results

* `representation_iff` — the containers agree along a run exactly when no step
  removes the messages of a user who has some.
* `operate_total` — while they agree, every operation ends.
-/

namespace EndToEndSmkex.AutoResend.Representation

open EndToEndSmkex.Lib.Run
open EndToEndSmkex.Smkex.Record
open EndToEndSmkex.AutoResend.MsgPayload
open EndToEndSmkex.AutoResend.MsgPayload.mp_msg_type_t
open EndToEndSmkex.AutoResend.Pool
open EndToEndSmkex.AutoResend.Engine
open EndToEndSmkex.AutoResend.Engine.mp_status_t
open EndToEndSmkex.AutoResend.Changes
open EndToEndSmkex.AutoResend.Queues

/-- The representation invariant of the engine. -/
structure Represents (e : MpAutoResendEngine) : Prop where
  once : e.priority_.Nodup
  keys : ∀ serial, serial ∈ e.priority_ ↔ (e.userPool_ serial).isSome
  nonempty : ∀ serial pool, e.userPool_ serial = some pool → pool.messages_ ≠ []
  filed : ∀ serial pool, e.userPool_ serial = some pool →
    ∀ m ∈ pool.messages_, m.userSerial_ = serial

/-- An operation and what it is answered. -/
structure Call where
  op : Op
  answers : Answers

/-- The engine makes a call; its notifications go elsewhere. -/
def call (e : MpAutoResendEngine) (c : Call) : Option MpAutoResendEngine :=
  (operate e c.op c.answers).map Outcome.engine

/-- The operation removes the messages of a user who has some. -/
def DropsPool (e : MpAutoResendEngine) : Op → Prop
  | .removeMessagesForSerial serial => (e.userPool_ serial).isSome
  | _ => False

/-- The invariant reads the queues only. -/
theorem represents_iff (e : MpAutoResendEngine) :
    Represents e ↔ e.priority_.Nodup ∧
      (∀ serial, serial ∈ e.priority_ ↔ (contents e serial).isSome) ∧
      ∀ serial ms, contents e serial = some ms →
        ms ≠ [] ∧ ∀ m ∈ ms, m.userSerial_ = serial := by
  have hsome : ∀ serial, (contents e serial).isSome = (e.userPool_ serial).isSome := by
    intro serial
    simp [contents]
  constructor
  · intro h
    refine ⟨h.once, ?_, ?_⟩
    · intro serial
      rw [hsome]
      exact h.keys serial
    · intro serial ms hms
      obtain ⟨pool, hpool, rfl⟩ := Option.map_eq_some_iff.1 hms
      refine ⟨?_, ?_⟩
      · simpa [MpMsgPool.contents] using h.nonempty serial pool hpool
      · intro m hm
        obtain ⟨x, hx, rfl⟩ := List.mem_map.1 hm
        exact h.filed serial pool hpool x hx
  · rintro ⟨honce, hkeys, hqueues⟩
    have hpools : ∀ serial pool, e.userPool_ serial = some pool →
        pool.contents ≠ [] ∧ ∀ m ∈ pool.contents, m.userSerial_ = serial := by
      intro serial pool hpool
      exact hqueues serial pool.contents (by simp [contents, hpool])
    refine ⟨honce, ?_, ?_, ?_⟩
    · intro serial
      rw [← hsome]
      exact hkeys serial
    · intro serial pool hpool
      simpa [MpMsgPool.contents] using (hpools serial pool hpool).1
    · intro serial pool hpool m hm
      exact (hpools serial pool hpool).2 m.markAsUnProcessed (List.mem_map_of_mem hm)

/-- Every user to be served has a pool, so no comparison misses one. -/
theorem Represents.defined {e : MpAutoResendEngine} (h : Represents e) :
    ∀ serial ∈ e.priority_, (contents e serial).isSome :=
  fun serial hserial => (((represents_iff e).1 h).2.1 serial).1 hserial

theorem Represents.congr {e e' : MpAutoResendEngine} (h : Represents e)
    (hq : SameQueues e e') : Represents e' := by
  obtain ⟨honce, hkeys, hqueues⟩ := (represents_iff e).1 h
  refine (represents_iff e').2 ⟨hq.priority.nodup_iff.2 honce, ?_, ?_⟩
  · intro serial
    rw [hq.priority.mem_iff, hq.contents]
    exact hkeys serial
  · rw [hq.contents]
    exact hqueues

theorem represents_new (dbConnectors : List mp_msg_type_t) :
    Represents (MpAutoResendEngine.new dbConnectors) where
  once := List.nodup_nil
  keys serial := by simp [MpAutoResendEngine.new]
  nonempty serial pool h := by cases h
  filed serial pool h := by cases h

/-! ## Steps -/

theorem Represents.addMessageInternal {e : MpAutoResendEngine} (h : Represents e)
    (m : MpMsgPayload) : Represents (Engine.addMessageInternal e m) := by
  obtain ⟨honce, hkeys, hqueues⟩ := (represents_iff e).1 h
  rw [represents_iff, contents_addMessageInternal, priority_addMessageInternal]
  refine ⟨?_, ?_, ?_⟩
  · by_cases hpool : (contents e m.userSerial_).isSome
    · rw [if_pos hpool]
      exact honce
    · rw [if_neg hpool]
      have hnew : m.userSerial_ ∉ e.priority_ := fun hmem => hpool ((hkeys _).1 hmem)
      exact List.nodup_append.2 ⟨honce, by simp, by
        intro a ha b hb hab
        rw [List.mem_singleton.1 hb] at hab
        exact hnew (hab ▸ ha)⟩
  · intro serial
    by_cases hserial : serial = m.userSerial_
    · subst hserial
      by_cases hpool : (contents e m.userSerial_).isSome
      · simp [hpool, (hkeys m.userSerial_).2 hpool]
      · simp [hpool]
    · rw [Function.update_of_ne hserial, ← hkeys serial]
      by_cases hpool : (contents e m.userSerial_).isSome
      · rw [if_pos hpool]
      · rw [if_neg hpool]
        simp [hserial]
  · intro serial ms hms
    by_cases hserial : serial = m.userSerial_
    · subst hserial
      rw [Function.update_self, Option.some.injEq] at hms
      subst hms
      refine ⟨by simp, ?_⟩
      intro x hx
      rcases List.mem_append.1 hx with hold | hnew
      · cases hc : contents e m.userSerial_ with
        | none => simp [hc] at hold
        | some old => exact (hqueues _ old hc).2 x (by simpa [hc] using hold)
      · rw [List.mem_singleton.1 hnew]
        rfl
    · rw [Function.update_of_ne hserial] at hms
      exact hqueues serial ms hms

theorem Represents.syncWithDBConnectors {e : MpAutoResendEngine} (h : Represents e)
    (messages : List (List MpMsgPayload)) :
    Represents (Engine.syncWithDBConnectors e messages) := by
  rw [syncWithDBConnectors_eq]
  induction messages.flatten generalizing e with
  | nil => exact h
  | cons m ms ih => exact ih (h.addMessageInternal m)

/-- Taking a user out of both containers. -/
theorem Represents.erase {e e' : MpAutoResendEngine} (h : Represents e) (serial : MpString)
    (hcontents : contents e' = Function.update (contents e) serial none)
    (hpriority : e'.priority_ = e.priority_.erase serial) : Represents e' := by
  obtain ⟨honce, hkeys, hqueues⟩ := (represents_iff e).1 h
  rw [represents_iff, hcontents, hpriority]
  refine ⟨honce.erase serial, ?_, ?_⟩
  · intro s
    rw [honce.mem_erase_iff]
    by_cases hs : s = serial
    · subst hs
      simp
    · rw [Function.update_of_ne hs, ← hkeys s]
      simp [hs]
  · intro s ms hms
    by_cases hs : s = serial
    · subst hs
      simp at hms
    · rw [Function.update_of_ne hs] at hms
      exact hqueues s ms hms

/-- Taking messages away from a pool and leaving some. -/
theorem Represents.shorten {e e' : MpAutoResendEngine} (h : Represents e) {serial : MpString}
    {ms left : List MpMsgPayload} (hms : contents e serial = some ms) (hleft : left ≠ [])
    (hsub : left ⊆ ms)
    (hcontents : contents e' = Function.update (contents e) serial (some left))
    (hpriority : e'.priority_ = e.priority_) : Represents e' := by
  obtain ⟨honce, hkeys, hqueues⟩ := (represents_iff e).1 h
  rw [represents_iff, hcontents, hpriority]
  refine ⟨honce, ?_, ?_⟩
  · intro s
    by_cases hs : s = serial
    · subst hs
      rw [hkeys s, hms, Function.update_self]
      rfl
    · rw [Function.update_of_ne hs]
      exact hkeys s
  · intro s ns hns
    by_cases hs : s = serial
    · subst hs
      rw [Function.update_self, Option.some.injEq] at hns
      subst hns
      exact ⟨hleft, fun m hm => (hqueues s ms hms).2 m (hsub hm)⟩
    · rw [Function.update_of_ne hs] at hns
      exact hqueues s ns hns

theorem Represents.settle {e : MpAutoResendEngine} (h : Represents e) (m : MpMsgPayload)
    (status : mp_status_t) : Represents (Engine.settle e m status).1 := by
  by_cases hsent : status = MP_MESSAGE_SENT
  · subst hsent
    cases hms : contents e m.userSerial_ with
    | none =>
        rw [settle_none e m _ hms]
        exact h
    | some ms =>
        have hs := settle_sent e m hms
        by_cases hleft : (ms.eraseP fun x => x.uid_ == m.uid_) = []
        · simp only [hleft, if_true] at hs
          exact h.erase m.userSerial_ hs.1 hs.2
        · simp only [hleft, if_false] at hs
          exact h.shorten hms hleft List.eraseP_subset hs.1 hs.2
  · exact h.congr (settle_not_sent e m hsent)

theorem Represents.sends {e : MpAutoResendEngine} {missing : List Bool} {out : Outcome}
    (h : Represents e) (hs : Sends e missing out) :
    Represents out.engine ∧ missing = [] :=
  ⟨h.congr hs.queues, hs.defined h.defined⟩

theorem Represents.drives {e : MpAutoResendEngine} {missing : List Bool} {out : Outcome}
    (h : Represents e) (hd : Drives e missing out) :
    Represents out.engine ∧ missing = [] := by
  cases hd with
  | idle hengine _ hmissing => exact ⟨hengine ▸ h, hmissing⟩
  | sends _ hs =>
      have hstarted : Represents { e with started_ := true } :=
        h.congr ⟨rfl, List.Perm.refl _⟩
      exact hstarted.sends hs

theorem Represents.nudges {e : MpAutoResendEngine} {missing : List Bool} {out : Outcome}
    (h : Represents e) (hn : Nudges e missing out) :
    Represents out.engine ∧ missing = [] := by
  obtain ⟨e', hqueues, -, hd⟩ := hn
  exact (h.congr hqueues).drives hd

/-- Removing messages nobody has changes no queue. -/
theorem removed_none {e : MpAutoResendEngine} {serial : MpString}
    (h : ¬ (e.userPool_ serial).isSome) :
    SameQueues e (removeMessagesForSerial e serial) := by
  have hnone : contents e serial = none := by simpa [contents] using h
  refine ⟨?_, List.Perm.refl _⟩
  rw [contents_removeMessagesForSerial, ← hnone, Function.update_eq_self]

/-- A step from agreeing containers: they agree after it, and nothing missing
was looked up, unless it removed a pool. -/
theorem represents_step {e e' : MpAutoResendEngine} {c : Call} (h : Represents e)
    (hcall : call e c = some e') :
    (Represents e' ∧ c.answers.missing = []) ↔ ¬ DropsPool e c.op := by
  rcases c with ⟨op, answers⟩
  obtain ⟨out, hout, rfl⟩ := Option.map_eq_some_iff.1 hcall
  have hcases := operate_cases hout
  cases op with
  | addMessage m =>
      exact iff_of_true ((h.addMessageInternal m).drives hcases) not_false
  | syncWithDBConnectors messages =>
      obtain ⟨hengine, -, hmissing⟩ := hcases
      refine iff_of_true ⟨?_, hmissing⟩ not_false
      rw [hengine]
      exact h.syncWithDBConnectors messages
  | messageStatus m status => exact iff_of_true ((h.settle m status).sends hcases) not_false
  | buddy_state2 serial state => exact iff_of_true (h.nudges hcases) not_false
  | resendMessage serial msgId => exact iff_of_true (h.nudges hcases) not_false
  | setAutoResendEnabled autoResendEnabled => exact iff_of_true (h.nudges hcases) not_false
  | removeMessagesForSerial serial =>
      obtain ⟨hengine, -, hmissing⟩ := hcases
      constructor
      · rintro ⟨hrep, -⟩ hdrops
        -- the user stays in the vector, without a pool
        rw [hengine] at hrep
        have hin : serial ∈ (removeMessagesForSerial e serial).priority_ :=
          (h.keys serial).2 hdrops
        have hout : (removeMessagesForSerial e serial).userPool_ serial = none :=
          Function.update_self ..
        have hsome := (hrep.keys serial).1 hin
        rw [hout] at hsome
        cases hsome
      · intro hdrops
        refine ⟨?_, hmissing⟩
        rw [hengine]
        exact h.congr (removed_none hdrops)

/-! ## Every operation ends -/

/-- No answer to a comparison without a pool. -/
def noneMissing (started : Bool) : Answers := { isSipStackStarted := started, missing := [] }

theorem startEngine_total {e : MpAutoResendEngine} (h : Represents e) (started : Bool) :
    ∃ out, startEngine e (noneMissing started) = some out := by
  unfold startEngine noneMissing
  by_cases hstart : (started && !e.started_) = true
  · rw [if_pos hstart]
    have hstarted : Represents { e with started_ := true } :=
      h.congr ⟨rfl, List.Perm.refl _⟩
    exact sendMessage_total hstarted.defined
  · rw [if_neg hstart]
    exact ⟨_, rfl⟩

/-- An operation that keeps the queues ends. -/
theorem nudges_total {e : MpAutoResendEngine} (h : Represents e) (op : Op)
    (hop : KeepsQueues op) (started : Bool) :
    ∃ out, operate e op (noneMissing started) = some out := by
  have hother : ∀ m status, op ≠ .messageStatus m status := by
    rintro m status rfl
    exact hop
  rcases operate_eq e (noneMissing started) hother with hstart | hidle
  · rw [hstart]
    exact startEngine_total (h.congr (sameQueues_changed hop)) started
  · rw [hidle]
    exact ⟨_, rfl⟩

/-- While the containers agree, every operation ends, and it needs no answer to
a comparison without a pool. -/
theorem operate_total {e : MpAutoResendEngine} (h : Represents e) (op : Op) (started : Bool) :
    ∃ out, operate e op (noneMissing started) = some out := by
  cases op with
  | addMessage m => exact startEngine_total (h.addMessageInternal m) started
  | syncWithDBConnectors messages => exact ⟨_, rfl⟩
  | messageStatus m status =>
      obtain ⟨out, hout⟩ := sendMessage_total (h.settle m status).defined
      exact ⟨_, by
        rw [operate, Engine.messageStatus, noneMissing, hout]
        rfl⟩
  | buddy_state2 serial state => exact nudges_total h (.buddy_state2 serial state) trivial started
  | resendMessage serial msgId => exact nudges_total h (.resendMessage serial msgId) trivial started
  | setAutoResendEnabled autoResendEnabled =>
      exact nudges_total h (.setAutoResendEnabled autoResendEnabled) trivial started
  | removeMessagesForSerial serial => exact ⟨_, rfl⟩

/-! ## Runs -/

/-- From a new engine, the containers agree after every step and no comparison
looks up a missing pool, exactly when no step removes a pool. -/
theorem representation_iff (dbConnectors : List mp_msg_type_t) (calls : List Call) :
    Represents (MpAutoResendEngine.new dbConnectors) ∧
      (Steps call (fun _ c e' => Represents e' ∧ c.answers.missing = [])
          (MpAutoResendEngine.new dbConnectors) calls ↔
        Steps call (fun e c _ => ¬ DropsPool e c.op)
          (MpAutoResendEngine.new dbConnectors) calls) := by
  have hnew := represents_new dbConnectors
  refine ⟨hnew, steps_iff_of_inv (E := fun _ => True) ?_ ?_ hnew fun _ _ => trivial⟩
  · intro e c e' h _ hcall
    exact represents_step h hcall
  · intro e c e' h _ hcall hkeeps
    exact ((represents_step h hcall).2 hkeeps).1

/-! A message for `a` is added and removed, then one for `b` is added: the
engine compares the weights of `a` and `b`. -/

def sampleMessage (serial : MpString) : MpMsgPayload :=
  MpMsgPayload.new serial [1] 1 3 MP_TYPE_MESSAGE false 0

def sampleRemoval : List Call :=
  [⟨.addMessage (sampleMessage [97]), ⟨false, []⟩⟩,
    ⟨.removeMessagesForSerial [97], ⟨false, []⟩⟩]

/-- After the removal the vector names a user without a pool, and the next
message for somebody else makes the engine look that pool up. -/
theorem removed_user_stays :
    ∃ e e', exec call (MpAutoResendEngine.new []) sampleRemoval = some e ∧
      e.priority_ = [[97]] ∧ e.userPool_ [97] = none ∧ ¬ Represents e ∧
      call e ⟨.addMessage (sampleMessage [98]), ⟨true, []⟩⟩ = none ∧
      call e ⟨.addMessage (sampleMessage [98]), ⟨true, [false]⟩⟩ = some e' := by
  refine ⟨_, _, rfl, rfl, rfl, ?_, rfl, rfl⟩
  intro h
  have hkeys := h.keys [97]
  exact absurd hkeys (by decide)

end EndToEndSmkex.AutoResend.Representation
