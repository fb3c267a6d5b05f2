import EndToEndSmkex.AutoResend.Composition

/-!
# Whether a busy engine is woken again

While `started_` is set the engine sends nothing by itself: the next message
leaves when a status comes back.  So a started engine needs a call of `sendMsg`
that the SIP stack has accepted, and a transport that will not ignore the
status.  The code drops the second half of this twice: the transport does not
look at the result of `sendMsg`, and `removeMessagesForSerial` makes the
transport deaf without stopping the engine.

## Main results

* `Single.step` — at most one call is outstanding, and only a started engine
  has one.
* `served_iff` — a started engine is woken, along a whole run, exactly when no
  step interrupts a transfer.
-/

namespace EndToEndSmkex.AutoResend.Liveness

open EndToEndSmkex.Lib.Run
open EndToEndSmkex.Smkex.Record
open EndToEndSmkex.AutoResend.MsgPayload
open EndToEndSmkex.AutoResend.MsgPayload.mp_msg_type_t
open EndToEndSmkex.AutoResend.Engine
open EndToEndSmkex.AutoResend.Engine.mp_status_t
open EndToEndSmkex.AutoResend.Changes
open EndToEndSmkex.AutoResend.Queues
open EndToEndSmkex.AutoResend.Composition
open EndToEndSmkex.DataMsg.MsgTransport

/-- A started engine waits for a status that the transport will act upon. -/
def Served (s : System) : Prop :=
  s.engine.started_ = true →
    s.outstanding ≠ [] ∧ ∀ status, (s.transport.onSendMsgDone status).2 ≠ .ignored

/-- At most one call is outstanding, and only a started engine has one. -/
structure Single (s : System) : Prop where
  length_le : s.outstanding.length ≤ 1
  started : s.outstanding ≠ [] → s.engine.started_ = true

/-- The stack refuses a call of this step, or the step removes the messages of
the user whose message the transport of a started engine keeps. -/
def Interrupts (s : System) (i : Input) : Prop :=
  i.sendMsg = some false ∨
    (s.engine.started_ = true ∧
      i.event = .removeMessagesForSerial s.transport.msg_.userSerial_)

/-- What is asked of the transport of a started engine. -/
theorem served_iff_retries (s : System) :
    Served s ↔ (s.engine.started_ = true →
      s.outstanding ≠ [] ∧ s.transport.msg_.numberOfRetries_ ≠ 0) := by
  simp only [Served, ne_eq, MpMsgTransport.onSendMsgDone_ignored_iff]
  constructor
  · intro h hstarted
    exact ⟨(h hstarted).1, (h hstarted).2 MP_MESSAGE_SENT⟩
  · intro h hstarted
    exact ⟨(h hstarted).1, fun _ => (h hstarted).2⟩

theorem single_new (dbConnectors : List mp_msg_type_t) : Single (System.new dbConnectors) where
  length_le := Nat.zero_le 1
  started h := absurd rfl h

/-- An engine that waits has nothing outstanding. -/
theorem Single.quiet {s : System} (h : Single s) (hwaiting : s.engine.started_ = false) :
    s.outstanding = [] := by
  by_contra hcalls
  rw [h.started hcalls] at hwaiting
  cases hwaiting

theorem served_new (dbConnectors : List mp_msg_type_t) : Served (System.new dbConnectors) := by
  intro h
  cases h

/-- The outstanding calls after one of at most one has been answered. -/
theorem eraseIdx_single {xs : List SipSend} {call : Nat} (hlength : xs.length ≤ 1)
    (hcall : call < xs.length) : xs.eraseIdx call = [] := by
  have hlast : call = 0 := by omega
  subst hlast
  cases xs with
  | nil => rfl
  | cons x rest =>
      have hrest : rest.length = 0 := by
        simp only [List.length_cons] at hlength
        omega
      simpa using hrest

/-- Nothing is outstanding when the engine is told. -/
theorem reported_quiet {s : System} {call : Nat} (hsingle : Single s)
    (hcall : call < s.outstanding.length) (status : mp_status_t) :
    (reported s call status).outstanding = [] := by
  have hquiet := eraseIdx_single hsingle.length_le hcall
  unfold reported
  by_cases hsent : status = MP_MESSAGE_SENT
  · simp only [if_pos hsent, System.record, hquiet]
  · simp only [if_neg hsent, hquiet]

/-! ## Steps -/

section Sending

variable {e : MpAutoResendEngine} {s s' : System} {reply : Option Bool}

/-- Sending from a started engine with nothing outstanding: afterwards it is
served unless the stack has refused the message. -/
theorem sendsOn_served (h : SendsOn e s reply s') (hquiet : s.outstanding = [])
    (hstarted : e.started_ = true) : Single s' ∧ (Served s' ↔ reply ≠ some false) := by
  rw [served_iff_retries]
  cases h with
  | stops e' _ hstopped hreply hstate =>
      subst hstate hreply
      refine ⟨⟨by simp [hquiet], fun h => absurd hquiet h⟩, ?_⟩
      simp [hstopped]
  | hands e' serial m accepted _ hsame hpos _ hreply hstate =>
      subst hstate hreply
      have hkept : e'.started_ = true := hsame.trans hstarted
      have hretries : m.numberOfRetries_ ≠ 0 := by omega
      cases accepted with
      | true =>
          refine ⟨⟨by simp [handOver, hquiet], fun _ => hkept⟩, ?_⟩
          simp [handOver, System.record, hquiet, hretries]
      | false =>
          refine ⟨⟨by simp [handOver, hquiet], fun _ => hkept⟩, ?_⟩
          simp [handOver, System.record, hquiet, hkept]

/-- Driving the engine: only a waiting one sends. -/
theorem drivesOn_served (h : DrivesOn e s reply s') (hsingle : Single s)
    (hsame : e.started_ = s.engine.started_) :
    Single s' ∧ (Served s → (Served s' ↔ reply ≠ some false)) := by
  cases h with
  | rests hreply hstate =>
      subst hstate hreply
      refine ⟨⟨hsingle.length_le, fun h => hsame.trans (hsingle.started h)⟩, ?_⟩
      intro hserved
      refine iff_of_true ?_ (by simp)
      intro hstarted
      exact hserved (hsame.symm.trans hstarted)
  | sends hwaiting hsends =>
      have hquiet := hsingle.quiet (hsame.symm.trans hwaiting)
      have hboth := sendsOn_served hsends hquiet rfl
      exact ⟨hboth.1, fun _ => hboth.2⟩

theorem nudgesOn_served (h : NudgesOn s reply s') (hsingle : Single s) :
    Single s' ∧ (Served s → (Served s' ↔ reply ≠ some false)) := by
  obtain ⟨e, -, hsame, hdrives⟩ := h
  exact drivesOn_served hdrives hsingle hsame

/-- A status: the outstanding call is gone, and the transport tries again, tells
the engine or has forgotten the message. -/
theorem statusOn_served {call : Nat} {status : mp_status_t}
    (h : StatusOn s call status reply s') (hcall : call < s.outstanding.length)
    (hsingle : Single s) :
    Single s' ∧ (Served s → (Served s' ↔ reply ≠ some false)) := by
  have hquiet : s.outstanding.eraseIdx call = [] :=
    eraseIdx_single hsingle.length_le hcall
  have hcalls : s.outstanding ≠ [] := by
    intro hnil
    simp [hnil] at hcall
  have hstarted : s.engine.started_ = true := hsingle.started hcalls
  cases h with
  | ignored hdeleted _ hstate =>
      subst hstate
      refine ⟨⟨by simp [hquiet], fun _ => hstarted⟩, ?_⟩
      intro hserved
      exact absurd hdeleted (((served_iff_retries s).1 hserved hstarted).2)
  | again halive _ _ accepted hreply hstate =>
      subst hstate hreply
      cases accepted with
      | true =>
          refine ⟨⟨by simp [hquiet], fun _ => hstarted⟩, fun _ => ?_⟩
          simp [served_iff_retries, hquiet, halive]
      | false =>
          refine ⟨⟨by simp [hquiet], fun _ => hstarted⟩, fun _ => ?_⟩
          simp [served_iff_retries, hquiet, hstarted]
  | done halive hsends =>
      have hsettled : (settle s.engine s.transport.msg_ status).1.started_ = true := by
        rw [(requeued_settle _ _ _).started, hstarted]
      have hboth := sendsOn_served hsends (reported_quiet hsingle hcall status) hsettled
      exact ⟨hboth.1, fun _ => hboth.2⟩

end Sending

/-- After the messages of a user have been removed, the transport ignores every
status if it kept one of them. -/
theorem removed_served {s : System} (hserved : Served s) {serial : MpString}
    {messages : List MpMsgPayload} :
    Served { s.record .dropped messages with
        engine := removeMessagesForSerial s.engine serial
        transport := s.transport.removeMessageForSerial serial } ↔
      ¬ (s.engine.started_ = true ∧ s.transport.msg_.userSerial_ = serial) := by
  rw [served_iff_retries] at hserved ⊢
  by_cases hkept : s.transport.msg_.userSerial_ = serial
  · simp [hkept, System.record, removeMessagesForSerial, MpAutoResendEngine.setPool,
      MpMsgTransport.removeMessageForSerial, MpMsgPayload.setNumberOfRetries]
  · simpa [hkept, System.record, removeMessagesForSerial, MpAutoResendEngine.setPool,
      MpMsgTransport.removeMessageForSerial] using hserved

/-- A step keeps the calls single, and from a served engine it leads to a served
one exactly when it interrupts nothing. -/
theorem served_step {s s' : System} {i : Input} (hsingle : Single s)
    (hstep : s.step i = some s') :
    Single s' ∧ (Served s → (Served s' ↔ ¬ Interrupts s i)) := by
  have hcases := step_cases hstep
  rcases i with ⟨event, answers, reply⟩
  -- only a removal interrupts other than through the reply
  have hreply : (∀ serial, event ≠ .removeMessagesForSerial serial) →
      (¬ Interrupts s ⟨event, answers, reply⟩ ↔ reply ≠ some false) := by
    intro hother
    simp [Interrupts, hother]
  cases event with
  | addMessage m =>
      have hboth := drivesOn_served hcases.2 ⟨hsingle.length_le, hsingle.started⟩
        (requeued_addMessageInternal s.engine m).started
      rw [hreply (by simp)]
      exact ⟨hboth.1, hboth.2⟩
  | syncWithDBConnectors contents =>
      obtain ⟨-, hsilent, rfl⟩ := hcases
      have hsame : (syncWithDBConnectors s.engine contents).started_ = s.engine.started_ :=
        started_changed (.syncWithDBConnectors contents)
      refine ⟨⟨hsingle.length_le, fun h => hsame.trans (hsingle.started h)⟩, ?_⟩
      intro hserved
      rw [hreply (by simp)]
      have hsilent : reply = none := hsilent
      refine iff_of_true ?_ (by rw [hsilent]; simp)
      intro hstarted
      exact hserved (hsame.symm.trans hstarted)
  | buddy_state2 serial state =>
      rw [hreply (by simp)]
      exact nudgesOn_served hcases hsingle
  | resendMessage serial msgId =>
      rw [hreply (by simp)]
      exact nudgesOn_served hcases hsingle
  | setAutoResendEnabled autoResendEnabled =>
      rw [hreply (by simp)]
      exact nudgesOn_served hcases hsingle
  | removeMessagesForSerial serial =>
      obtain ⟨hsilent, rfl⟩ := hcases
      refine ⟨⟨hsingle.length_le, hsingle.started⟩, ?_⟩
      intro hserved
      have hsilent : reply = none := hsilent
      rw [removed_served hserved, Interrupts, hsilent]
      simp only [reduceCtorEq, false_or, Event.removeMessagesForSerial.injEq]
      exact not_congr (and_congr_right fun _ => eq_comm)
  | on_pager_status call code =>
      rw [hreply (by simp)]
      exact statusOn_served hcases.2 hcases.1 hsingle

theorem Single.step {s s' : System} {i : Input} (h : Single s) (hstep : s.step i = some s') :
    Single s' :=
  (served_step h hstep).1

/-! ## Runs -/

/-- Along a run from the start, a started engine always has an accepted call
whose status the transport will act upon, exactly when no step interrupts a
transfer. -/
theorem served_iff (dbConnectors : List mp_msg_type_t) (inputs : List Input) :
    Served (System.new dbConnectors) ∧
      (Steps System.step (fun _ _ s' => Served s') (System.new dbConnectors) inputs ↔
        Steps System.step (fun s i _ => ¬ Interrupts s i) (System.new dbConnectors) inputs) := by
  have hnew : Single (System.new dbConnectors) ∧ Served (System.new dbConnectors) :=
    ⟨single_new dbConnectors, served_new dbConnectors⟩
  refine ⟨hnew.2, steps_iff_of_inv (I := fun s => Single s ∧ Served s) (E := fun _ => True)
    ?_ ?_ hnew fun _ _ => trivial⟩
  · intro s i s' hinv _ hstep
    exact (served_step hinv.1 hstep).2 hinv.2
  · intro s i s' hinv _ hstep hkeeps
    have hboth := served_step hinv.1 hstep
    exact ⟨hboth.1, (hboth.2 hinv.2).2 hkeeps⟩

/-! A message for `a` is sent, and a step interrupts the transfer: the stack
refuses it, or it is removed while it is in flight. -/

def sampleMessage (serial : MpString) (tag : Nat) : MpMsgPayload :=
  MpMsgPayload.new serial [1] 1 3 MP_TYPE_MESSAGE false tag

def sampleInput (event : Event) (sendMsg : Option Bool) : Input :=
  { event, answers := { isSipStackStarted := true, missing := [] }, sendMsg }

def refusedRun : List Input :=
  [sampleInput (.addMessage (sampleMessage [97] 0)) (some false),
    sampleInput (.addMessage (sampleMessage [98] 1)) none]

def removedRun : List Input :=
  [sampleInput (.addMessage (sampleMessage [97] 0)) (some true),
    sampleInput (.removeMessagesForSerial [97]) none,
    sampleInput (.on_pager_status 0 200) none,
    sampleInput (.addMessage (sampleMessage [98] 1)) none]

/-- Both ways the engine stays started with nothing outstanding, while a message
for `b` waits. -/
theorem interrupted_engine_stalls :
    ∃ s s', exec System.step (System.new []) refusedRun = some s ∧
      exec System.step (System.new []) removedRun = some s' ∧
      (s.engine.started_ = true ∧ s.outstanding = [] ∧
        s.engine.userPool_ [98] ≠ none ∧ ¬ Served s) ∧
      (s'.engine.started_ = true ∧ s'.outstanding = [] ∧
        s'.engine.userPool_ [98] ≠ none ∧ ¬ Served s') := by
  refine ⟨_, _, rfl, rfl, ⟨rfl, rfl, ?_, ?_⟩, ⟨rfl, rfl, ?_, ?_⟩⟩
  · exact Option.some_ne_none _
  · exact fun h => (h rfl).1 rfl
  · exact Option.some_ne_none _
  · exact fun h => (h rfl).1 rfl

end EndToEndSmkex.AutoResend.Liveness
