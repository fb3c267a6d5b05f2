import EndToEndSmkex.AutoResend.Engine
import EndToEndSmkex.Utils.Uri

/-!
# The message transport

`MpMsgTransport` sends one message at a time.  It keeps the message and the
tries left; the retries of the kept message are set to zero when it has been
reported or removed, and then a status that arrives is ignored.

A call of `MpSIPStack::sendMsg` is a `SipSend`.  Whether the stack accepts it
is for the surroundings to say.  A call for the empty serial is an exception
that nobody catches (`SipSend.Throws`); what is said of runs is about those
without it.
-/

namespace EndToEndSmkex.DataMsg.MsgTransport

open EndToEndSmkex.Lib.CBuffer
open EndToEndSmkex.Smkex.Record
open EndToEndSmkex.AutoResend.MsgPayload
open EndToEndSmkex.AutoResend.MsgPayload.mp_msg_type_t
open EndToEndSmkex.AutoResend.Engine
open EndToEndSmkex.AutoResend.Engine.mp_status_t
open EndToEndSmkex.Utils.Uri

/-- A call of `sendMsg`; `serial` is the C string it gets.  The tag of the message
is ghost state here as well. -/
structure SipSend where
  serial : MpString
  msg : Bytes
  tag : Nat
  deriving DecidableEq

/-- The call that sends this message. -/
def sipSend (m : MpMsgPayload) : SipSend :=
  { serial := (c_str m.userSerial_).bytes, msg := m.getTransportPayload, tag := m.tag }

/-- The call does not return: the URI for an empty serial is a string made of a
null pointer. -/
def SipSend.Throws (x : SipSend) : Prop := x.serial = []

theorem throws_iff (m : MpMsgPayload) (address : CString) (port : UInt32) :
    (sipSend m).Throws ↔
      (getUriFromSerial (some (c_str m.userSerial_)) address port).run = none := by
  unfold SipSend.Throws sipSend
  constructor
  · intro hempty
    simp only at hempty
    simp [getUriFromSerial, ofCharPtr, Lib.Actions.exit, hempty]
  · intro hnone
    by_contra hne
    rw [run_getUriFromSerial hne] at hnone
    cases hnone

structure MpMsgTransport where
  msg_ : MpMsgPayload
  counter_ : Int
  deriving DecidableEq

/-- What `onSendMsgDone` does apart from changing the transport. -/
inductive Reaction where
  | ignored
  | resend (send : SipSend)
  | report (message : MpMsgPayload)
  deriving DecidableEq

namespace MpMsgTransport

/-- The constructor: the message is for "null" and has no retries. -/
def new : MpMsgTransport :=
  { msg_ := MpMsgPayload.new [110, 117, 108, 108] [] 0 0 MP_TYPE_MESSAGE false 0
    counter_ := 0 }

/-- Keep the message and send it, if it may be tried at all. -/
def sendMessage (message : MpMsgPayload) : MpMsgTransport × Option SipSend :=
  let t : MpMsgTransport := { msg_ := message, counter_ := message.numberOfRetries_ }
  (t, if t.counter_ ≤ 0 then none else some (sipSend t.msg_))

/-- The SIP stack reports a status; the notifier is the engine. -/
def onSendMsgDone (t : MpMsgTransport) (xferStatus : mp_status_t) :
    MpMsgTransport × Reaction :=
  -- the message was deleted
  if t.msg_.numberOfRetries_ = 0 then (t, .ignored)
  else
    let counter := t.counter_ - 1
    if xferStatus ≠ MP_MESSAGE_SENT ∧ 0 < counter then
      ({ t with counter_ := counter }, .resend (sipSend t.msg_))
    else
      let msg := t.msg_.setNumberOfRetries 0
      ({ msg_ := msg, counter_ := counter }, .report msg)

def removeMessageForSerial (t : MpMsgTransport) (receiverSerial : MpString) :
    MpMsgTransport :=
  if t.msg_.userSerial_ = receiverSerial then
    { t with msg_ := t.msg_.setNumberOfRetries 0 }
  else t

theorem onSendMsgDone_cases (t : MpMsgTransport) (xferStatus : mp_status_t) :
    (t.msg_.numberOfRetries_ = 0 ∧ t.onSendMsgDone xferStatus = (t, .ignored)) ∨
    (t.msg_.numberOfRetries_ ≠ 0 ∧ (xferStatus ≠ MP_MESSAGE_SENT ∧ 0 < t.counter_ - 1) ∧
      t.onSendMsgDone xferStatus =
        ({ t with counter_ := t.counter_ - 1 }, .resend (sipSend t.msg_))) ∨
    (t.msg_.numberOfRetries_ ≠ 0 ∧ t.onSendMsgDone xferStatus =
      ({ msg_ := t.msg_.setNumberOfRetries 0, counter_ := t.counter_ - 1 },
        .report (t.msg_.setNumberOfRetries 0))) := by
  unfold onSendMsgDone
  by_cases hdeleted : t.msg_.numberOfRetries_ = 0
  · exact Or.inl ⟨hdeleted, if_pos hdeleted⟩
  · rw [if_neg hdeleted]
    by_cases hagain : xferStatus ≠ MP_MESSAGE_SENT ∧ 0 < t.counter_ - 1
    · exact Or.inr (Or.inl ⟨hdeleted, hagain, if_pos hagain⟩)
    · exact Or.inr (Or.inr ⟨hdeleted, if_neg hagain⟩)

/-- A status is ignored exactly when the kept message has no retries. -/
theorem onSendMsgDone_ignored_iff (t : MpMsgTransport) (xferStatus : mp_status_t) :
    (t.onSendMsgDone xferStatus).2 = .ignored ↔ t.msg_.numberOfRetries_ = 0 := by
  rcases onSendMsgDone_cases t xferStatus with ⟨h, hdone⟩ | ⟨h, -, hdone⟩ | ⟨h, hdone⟩
  · simp [hdone, h]
  · simp [hdone, h]
  · simp [hdone, h]

end MpMsgTransport

/-- `on_pager_status`: 200 is success, anything else is not. -/
def xferStatus (code : Nat) : mp_status_t :=
  if code = 200 then MP_MESSAGE_SENT else MP_MESSAGE_NOT_SENT

end EndToEndSmkex.DataMsg.MsgTransport
