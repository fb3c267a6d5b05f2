import EndToEndSmkex.Smkex.Record

/-!
# Queued messages

`MpMsgPayload` is what the resend engine queues and the transport sends.  Its
constructor puts one byte, the transport message type, in front of the
payload.  The account id and the last transfer status are stored by the
constructor and read by nobody, so they are left out here.
-/

namespace EndToEndSmkex.AutoResend.MsgPayload

open EndToEndSmkex.Lib.CBuffer
open EndToEndSmkex.Smkex.Record

inductive mp_msg_type_t where
  | MP_TYPE_MESSAGE
  | MP_TYPE_INVITATION
  | MP_TYPE_INVITATION_DELETE
  | MP_TYPE_INVITATION_RESPONSE
  deriving DecidableEq

open mp_msg_type_t

/-- A message in the engine.  `tag` is ghost state: it tells which of the
messages ever handed to the engine this is, and no operation reads it. -/
structure MpMsgPayload where
  userSerial_ : MpString
  payload_ : Bytes
  uid_ : Int
  numberOfRetries_ : Int
  messageType_ : mp_msg_type_t
  processed_ : Bool
  tag : Nat
  deriving DecidableEq

/-- The transport type byte and the payload behind it. -/
def setPayload (messageType : mp_msg_type_t) (payload : Bytes) : Bytes :=
  (if messageType = MP_TYPE_MESSAGE then 0 else 1) :: payload

/-- The constructor of `MpMsgPayload`. -/
def MpMsgPayload.new (userSerial : MpString) (payload : Bytes) (uid numberOfRetries : Int)
    (messageType : mp_msg_type_t) (processed : Bool) (tag : Nat) : MpMsgPayload :=
  { userSerial_ := userSerial
    payload_ := setPayload messageType payload
    uid_ := uid
    numberOfRetries_ := numberOfRetries
    messageType_ := messageType
    processed_ := processed
    tag }

/-- What goes over the SIP channel. -/
def MpMsgPayload.getTransportPayload (m : MpMsgPayload) : Bytes := m.payload_

namespace MpMsgPayload

def markAsProcessed (m : MpMsgPayload) : MpMsgPayload := { m with processed_ := true }

def markAsUnProcessed (m : MpMsgPayload) : MpMsgPayload := { m with processed_ := false }

def setNumberOfRetries (m : MpMsgPayload) (n : Int) : MpMsgPayload :=
  { m with numberOfRetries_ := n }

end MpMsgPayload

end EndToEndSmkex.AutoResend.MsgPayload
