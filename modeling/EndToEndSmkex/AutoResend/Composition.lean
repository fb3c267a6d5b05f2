import EndToEndSmkex.AutoResend.Queues
import EndToEndSmkex.DataMsg.MsgTransport
import EndToEndSmkex.Lib.Accounting
import EndToEndSmkex.Lib.Run

/-!
# Engine, transport and SIP stack

The application calls the engine, the engine hands messages to the transport,
the transport calls `sendMsg`, and for every accepted call the SIP stack
reports a status later.  A status does not say which call it belongs to, so the
stack may report in any order.

What the surroundings answer during a step is part of the input, exactly as far
as it is asked for: the reply of `sendMsg` is there when and only when the
transport calls it.  A reply means that the call returns; one for the empty
serial does not (`SipSend.Throws`), and the process ends with it.

The trail of a user is ghost state, and so are the tags: the n-th message handed
to the engine carries the tag n.

## Main results

* `step_cases` — what an event does to engine, transport, stack and trail.
-/

namespace EndToEndSmkex.AutoResend.Composition

open EndToEndSmkex.Lib.Accounting
open EndToEndSmkex.Smkex.Record
open EndToEndSmkex.AutoResend.MsgPayload
open EndToEndSmkex.AutoResend.Pool
open EndToEndSmkex.AutoResend.Engine
open EndToEndSmkex.AutoResend.Engine.mp_status_t
open EndToEndSmkex.AutoResend.Queues
open EndToEndSmkex.DataMsg.MsgTransport

/-- `outstanding` are the accepted calls of `sendMsg` without a status yet,
`trail` is what happened to the messages of each user, in order, and `added`
counts the messages handed to the engine. -/
structure System where
  engine : MpAutoResendEngine
  transport : MpMsgTransport
  outstanding : List SipSend
  trail : MpString → List Mark
  added : Nat

/-- Before the first event. -/
def System.new (dbConnectors : List mp_msg_type_t) : System :=
  { engine := MpAutoResendEngine.new dbConnectors
    transport := MpMsgTransport.new
    outstanding := []
    trail := fun _ => []
    added := 0 }

inductive Event where
  | addMessage (message : MpMsgPayload)
  | syncWithDBConnectors (contents : List (List MpMsgPayload))
  | buddy_state2 (serial : MpString) (state : mp_buddy_online_status_t)
  | resendMessage (serial : MpString) (msgId : Int)
  | setAutoResendEnabled (autoResendEnabled : Bool)
  | removeMessagesForSerial (serial : MpString)
  | on_pager_status (call : Nat) (code : Nat)
  deriving DecidableEq

/-- An event, what the engine is answered, and the reply of `sendMsg`: whether
the stack accepts the message. -/
structure Input where
  event : Event
  answers : Answers
  sendMsg : Option Bool

namespace System

/-- Write a mark for each of these messages into the trail of its user. -/
def record (s : System) (mark : Nat → Mark) (messages : List MpMsgPayload) : System :=
  { s with
    trail := fun serial =>
      s.trail serial ++
        (messages.filter fun m => m.userSerial_ = serial).map fun m => mark m.tag }

/-- New messages: they carry the next tags. -/
def enroll (s : System) (messages : List MpMsgPayload) : Option System :=
  if messages.map MpMsgPayload.tag = List.range' s.added messages.length then
    some { s.record .added messages with added := s.added + messages.length }
  else none

/-- The transport calls `sendMsg`, or it does not. -/
def sip (s : System) (send : Option SipSend) (reply : Option Bool) : Option System :=
  match send, reply with
  | none, none => some s
  | some x, some true => some { s with outstanding := s.outstanding ++ [x] }
  | some _, some false => some s
  | _, _ => none

/-- The engine has finished an operation, and the transport gets what the engine
hands over. -/
def complete (s : System) (out : Outcome) (reply : Option Bool) : Option System :=
  match out.handed with
  | none => { s with engine := out.engine }.sip none reply
  | some m =>
    let sent := MpMsgTransport.sendMessage m
    (record { s with engine := out.engine, transport := sent.1 } .handed [m]).sip sent.2 reply

/-- An operation of the engine and what follows from it. -/
def run (s : System) (op : Op) (i : Input) : Option System :=
  (operate s.engine op i.answers).bind fun out => s.complete out i.sendMsg

/-- The SIP stack reports the status of one of its calls. -/
def onPagerStatus (s : System) (call code : Nat) (i : Input) : Option System :=
  if call < s.outstanding.length then
    let done := s.transport.onSendMsgDone (xferStatus code)
    let s := { s with transport := done.1, outstanding := s.outstanding.eraseIdx call }
    match done.2 with
    | .ignored => if i.answers.missing = [] then s.sip none i.sendMsg else none
    | .resend send => if i.answers.missing = [] then s.sip (some send) i.sendMsg else none
    | .report m =>
      let s := if xferStatus code = MP_MESSAGE_SENT then s.record .sent [m] else s
      s.run (.messageStatus m (xferStatus code)) i
  else none

/-- One event. -/
def step (s : System) (i : Input) : Option System :=
  match i.event with
  | .addMessage m => (s.enroll [m]).bind fun s => s.run (.addMessage m) i
  | .syncWithDBConnectors contents =>
    (s.enroll contents.flatten).bind fun s => s.run (.syncWithDBConnectors contents) i
  | .buddy_state2 serial state => s.run (.buddy_state2 serial state) i
  | .resendMessage serial msgId => s.run (.resendMessage serial msgId) i
  | .setAutoResendEnabled autoResendEnabled =>
    s.run (.setAutoResendEnabled autoResendEnabled) i
  | .removeMessagesForSerial serial =>
    let queued := ((s.engine.userPool_ serial).map MpMsgPool.messages_).getD []
    let s := { s with transport := s.transport.removeMessageForSerial serial }
    (s.record .dropped queued).run (.removeMessagesForSerial serial) i
  | .on_pager_status call code => s.onPagerStatus call code i

end System

/-! ## What a step does -/

/-- The state after the engine, now `e`, has handed `m` to the transport. -/
def handOver (s : System) (e : MpAutoResendEngine) (m : MpMsgPayload) (accepted : Bool) :
    System :=
  { System.record
      { s with
        engine := e
        transport := { msg_ := m, counter_ := m.numberOfRetries_ } } .handed [m] with
    outstanding := s.outstanding ++ if accepted then [sipSend m] else [] }

/-- `sendMessage` of an engine `e`, seen from the system. -/
inductive SendsOn (e : MpAutoResendEngine) (s : System) (reply : Option Bool) (s' : System) :
    Prop
  | stops (e' : MpAutoResendEngine) (queues : SameQueues e e') (stopped : e'.started_ = false)
      (silent : reply = none) (state : s' = { s with engine := e' })
  | hands (e' : MpAutoResendEngine) (serial : MpString) (m : MpMsgPayload) (accepted : Bool)
      (queues : SameQueues e e') (started : e'.started_ = e.started_)
      (retries : 0 < m.numberOfRetries_) (holds : Holds e' serial m)
      (asked : reply = some accepted) (state : s' = handOver s e' m accepted)

/-- `startEngine` of an engine `e`, seen from the system. -/
inductive DrivesOn (e : MpAutoResendEngine) (s : System) (reply : Option Bool) (s' : System) :
    Prop
  | rests (silent : reply = none) (state : s' = { s with engine := e })
  | sends (waiting : e.started_ = false)
      (sends : SendsOn { e with started_ := true } s reply s')

/-- An operation that keeps the queues. -/
def NudgesOn (s : System) (reply : Option Bool) (s' : System) : Prop :=
  ∃ e, SameQueues s.engine e ∧ e.started_ = s.engine.started_ ∧ DrivesOn e s reply s'

/-- The transport has finished with its message: the state in which the engine
is told. -/
def reported (s : System) (call : Nat) (status : mp_status_t) : System :=
  let m := s.transport.msg_.setNumberOfRetries 0
  let s' : System :=
    { s with
      transport := { msg_ := m, counter_ := s.transport.counter_ - 1 }
      outstanding := s.outstanding.eraseIdx call }
  if status = MP_MESSAGE_SENT then s'.record .sent [m] else s'

/-- A status arrives for one of the calls. -/
inductive StatusOn (s : System) (call : Nat) (status : mp_status_t) (reply : Option Bool)
    (s' : System) : Prop
  | ignored (deleted : s.transport.msg_.numberOfRetries_ = 0) (silent : reply = none)
      (state : s' = { s with outstanding := s.outstanding.eraseIdx call })
  | again (alive : s.transport.msg_.numberOfRetries_ ≠ 0)
      (failed : status ≠ MP_MESSAGE_SENT) (tries : 0 < s.transport.counter_ - 1)
      (accepted : Bool) (asked : reply = some accepted)
      (state : s' =
        { s with
          transport := { s.transport with counter_ := s.transport.counter_ - 1 }
          outstanding := s.outstanding.eraseIdx call ++
            if accepted then [sipSend s.transport.msg_] else [] })
  | done (alive : s.transport.msg_.numberOfRetries_ ≠ 0)
      (sends : SendsOn (settle s.engine s.transport.msg_ status).1 (reported s call status)
        reply s')

theorem sip_none {s s' : System} {reply : Option Bool} (h : s.sip none reply = some s') :
    reply = none ∧ s' = s := by
  cases reply with
  | none =>
      cases h
      exact ⟨rfl, rfl⟩
  | some b => cases h

theorem sip_some {s s' : System} {x : SipSend} {reply : Option Bool}
    (h : s.sip (some x) reply = some s') :
    ∃ accepted, reply = some accepted ∧
      s' = { s with outstanding := s.outstanding ++ if accepted then [x] else [] } := by
  cases reply with
  | none => cases h
  | some b =>
      cases b with
      | false =>
          cases h
          exact ⟨false, rfl, by simp⟩
      | true =>
          cases h
          exact ⟨true, rfl, rfl⟩

theorem complete_none {s s' : System} {out : Outcome} {reply : Option Bool}
    (hhanded : out.handed = none) (h : s.complete out reply = some s') :
    reply = none ∧ s' = { s with engine := out.engine } := by
  unfold System.complete at h
  rw [hhanded] at h
  exact sip_none h

theorem complete_sends {e : MpAutoResendEngine} {missing : List Bool} {out : Outcome}
    {s s' : System} {reply : Option Bool} (hs : Sends e missing out)
    (h : s.complete out reply = some s') : SendsOn e s reply s' := by
  rcases hs.next with ⟨hhanded, hstopped⟩ | ⟨serial, m, hhanded, hpos, hholds, hstarted⟩
  · obtain ⟨hreply, hstate⟩ := complete_none hhanded h
    exact SendsOn.stops out.engine hs.queues hstopped hreply hstate
  · unfold System.complete at h
    simp only [hhanded, MpMsgTransport.sendMessage, if_neg (not_le.2 hpos)] at h
    obtain ⟨accepted, hreply, hstate⟩ := sip_some h
    exact SendsOn.hands out.engine serial m accepted hs.queues hstarted hpos hholds hreply hstate

theorem complete_drives {e : MpAutoResendEngine} {missing : List Bool} {out : Outcome}
    {s s' : System} {reply : Option Bool} (hd : Drives e missing out)
    (h : s.complete out reply = some s') : DrivesOn e s reply s' := by
  cases hd with
  | idle hengine hhanded _ =>
      obtain ⟨hreply, hstate⟩ := complete_none hhanded h
      exact DrivesOn.rests hreply (hengine ▸ hstate)
  | sends hwaiting hs => exact DrivesOn.sends hwaiting (complete_sends hs h)

theorem run_some {s s' : System} {op : Op} {i : Input} (h : s.run op i = some s') :
    ∃ out, operate s.engine op i.answers = some out ∧ s.complete out i.sendMsg = some s' :=
  Option.bind_eq_some_iff.1 h

theorem enroll_some {s s' : System} {messages : List MpMsgPayload}
    (h : s.enroll messages = some s') :
    messages.map MpMsgPayload.tag = List.range' s.added messages.length ∧
      s' = { s.record .added messages with added := s.added + messages.length } := by
  unfold System.enroll at h
  by_cases htags : messages.map MpMsgPayload.tag = List.range' s.added messages.length
  · rw [if_pos htags, Option.some.injEq] at h
    exact ⟨htags, h.symm⟩
  · rw [if_neg htags] at h
    cases h

theorem onPagerStatus_cases {s s' : System} {call code : Nat} {i : Input}
    (h : s.onPagerStatus call code i = some s') :
    call < s.outstanding.length ∧ StatusOn s call (xferStatus code) i.sendMsg s' := by
  unfold System.onPagerStatus at h
  by_cases hcall : call < s.outstanding.length
  · rw [if_pos hcall] at h
    refine ⟨hcall, ?_⟩
    rcases MpMsgTransport.onSendMsgDone_cases s.transport (xferStatus code) with
      ⟨hdeleted, hdone⟩ | ⟨halive, hagain, hdone⟩ | ⟨halive, hdone⟩
    · simp only [hdone] at h
      by_cases hmissing : i.answers.missing = []
      · rw [if_pos hmissing] at h
        obtain ⟨hreply, hstate⟩ := sip_none h
        exact StatusOn.ignored hdeleted hreply hstate
      · rw [if_neg hmissing] at h
        cases h
    · simp only [hdone] at h
      by_cases hmissing : i.answers.missing = []
      · rw [if_pos hmissing] at h
        obtain ⟨accepted, hreply, hstate⟩ := sip_some h
        exact StatusOn.again halive hagain.1 hagain.2 accepted hreply hstate
      · rw [if_neg hmissing] at h
        cases h
    · simp only [hdone] at h
      obtain ⟨out, hout, hcomplete⟩ := run_some h
      have hsends := operate_cases hout
      refine StatusOn.done halive ?_
      by_cases hsent : xferStatus code = MP_MESSAGE_SENT
      · simp only [if_pos hsent] at hsends hcomplete
        have hfinal := complete_sends hsends hcomplete
        simp only [reported, if_pos hsent]
        exact hfinal
      · simp only [if_neg hsent] at hsends hcomplete
        have hfinal := complete_sends hsends hcomplete
        simp only [reported, if_neg hsent]
        exact hfinal
  · rw [if_neg hcall] at h
    cases h

/-- What an event does. -/
theorem step_cases {s s' : System} {i : Input} (h : s.step i = some s') :
    match i.event with
    | .addMessage m =>
      m.tag = s.added ∧
        DrivesOn (addMessageInternal s.engine m)
          { s.record .added [m] with added := s.added + 1 } i.sendMsg s'
    | .syncWithDBConnectors contents =>
      contents.flatten.map MpMsgPayload.tag =
          List.range' s.added contents.flatten.length ∧
        i.sendMsg = none ∧
        s' = { s.record .added contents.flatten with
          engine := syncWithDBConnectors s.engine contents
          added := s.added + contents.flatten.length }
    | .buddy_state2 _ _ | .resendMessage _ _ | .setAutoResendEnabled _ =>
      NudgesOn s i.sendMsg s'
    | .removeMessagesForSerial serial =>
      i.sendMsg = none ∧
        s' = { s.record .dropped
            (((s.engine.userPool_ serial).map MpMsgPool.messages_).getD []) with
          engine := removeMessagesForSerial s.engine serial
          transport := s.transport.removeMessageForSerial serial }
    | .on_pager_status call code =>
      call < s.outstanding.length ∧ StatusOn s call (xferStatus code) i.sendMsg s' := by
  have hnudge : ∀ {op : Op}, s.run op i = some s' →
      (∀ out, operate s.engine op i.answers = some out →
        Nudges s.engine i.answers.missing out) → NudgesOn s i.sendMsg s' := by
    intro op hrun hop
    obtain ⟨out, hout, hcomplete⟩ := run_some hrun
    obtain ⟨e, hqueues, hstarted, hdrives⟩ := hop out hout
    exact ⟨e, hqueues, hstarted, complete_drives hdrives hcomplete⟩
  rcases i with ⟨event, answers, reply⟩
  cases event with
  | addMessage m =>
      obtain ⟨s₁, henroll, hrun⟩ := Option.bind_eq_some_iff.1 h
      obtain ⟨htags, rfl⟩ := enroll_some henroll
      obtain ⟨out, hout, hcomplete⟩ := run_some hrun
      refine ⟨by simpa using htags, ?_⟩
      exact complete_drives (operate_cases hout) hcomplete
  | syncWithDBConnectors contents =>
      obtain ⟨s₁, henroll, hrun⟩ := Option.bind_eq_some_iff.1 h
      obtain ⟨htags, rfl⟩ := enroll_some henroll
      obtain ⟨out, hout, hcomplete⟩ := run_some hrun
      obtain ⟨hengine, hhanded, -⟩ := operate_cases hout
      obtain ⟨hreply, rfl⟩ := complete_none hhanded hcomplete
      exact ⟨htags, hreply, by rw [hengine]; rfl⟩
  | buddy_state2 serial state => exact hnudge h fun _ hout => operate_cases hout
  | resendMessage serial msgId => exact hnudge h fun _ hout => operate_cases hout
  | setAutoResendEnabled autoResendEnabled => exact hnudge h fun _ hout => operate_cases hout
  | removeMessagesForSerial serial =>
      obtain ⟨out, hout, hcomplete⟩ := run_some h
      obtain ⟨hengine, hhanded, -⟩ := operate_cases hout
      obtain ⟨hreply, rfl⟩ := complete_none hhanded hcomplete
      exact ⟨hreply, by rw [hengine]; rfl⟩
  | on_pager_status call code => exact onPagerStatus_cases h

end EndToEndSmkex.AutoResend.Composition
