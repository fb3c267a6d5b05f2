import EndToEndSmkex.AutoResend.Engine
import EndToEndSmkex.Lib.Actions
import EndToEndSmkex.Lib.Run
import EndToEndSmkex.Utils.Uri

/-!
# The call manager and the callbacks of pjsua

pjsua reports calls to two static functions of `MpSIPStack`, which ask for the
call's data and pass them to `MpCallManager`.  The manager serves one call,
`call_id_`, and rejects any other one while that call is active.

What pjsua knows of a call is not modelled: `pjsua_call_is_active` is any function
of the events so far.  The callbacks may call back the manager, and they and the
timer may have a memory; they see the events so far as well.

## Main results

* `onCallState_rejected`, `onIncomingCall_rejected` — what is left of a call
  while another one is served.
* `onCallState_serves`, `onIncomingCall_serves` — only the call that is served
  is answered.
-/

namespace EndToEndSmkex.Calls.CallManager

open EndToEndSmkex.Lib.Actions
open EndToEndSmkex.Smkex.Record
open EndToEndSmkex.Utils.Uri
open EndToEndSmkex.AutoResend.Engine (mp_status_t)
open EndToEndSmkex.AutoResend.Engine.mp_status_t

/-! ## pjsua -/

abbrev pjsua_call_id := Int

abbrev pjsip_status_code := Nat

inductive pjsip_inv_state where
  | PJSIP_INV_STATE_NULL
  | PJSIP_INV_STATE_CALLING
  | PJSIP_INV_STATE_INCOMING
  | PJSIP_INV_STATE_EARLY
  | PJSIP_INV_STATE_CONNECTING
  | PJSIP_INV_STATE_CONFIRMED
  | PJSIP_INV_STATE_DISCONNECTED
  deriving DecidableEq

/-- What `pjsua_call_get_info` fills in. -/
structure pjsua_call_info where
  state : pjsip_inv_state
  last_status : pjsip_status_code
  remote_contact : MpString

/-- A callback of pjsua, with the answer `pjsua_call_get_info` will give. -/
inductive Event where
  | on_incoming_call (call_id : pjsua_call_id) (c_info : Option pjsua_call_info)
  | on_call_state (call_id : pjsua_call_id) (c_info : Option pjsua_call_info)

def Event.call_id : Event → pjsua_call_id
  | .on_incoming_call call_id _ => call_id
  | .on_call_state call_id _ => call_id

/-- The events so far, the present one included. -/
abbrev History := List Event

/-- `pjsua_call_is_active`. -/
abbrev Activity := History → pjsua_call_id → Bool

/-! ## The manager -/

/-- A call of one of the functions of `MpICall`. -/
inductive Notice where
  | call_caller_calling (last_call_status : pjsip_status_code)
  | call_callee_incoming (caller_serial : MpString)
  | call_caller_early (last_call_status : pjsip_status_code)
  | call_u_connecting (last_call_status : pjsip_status_code)
  | call_u_confirmed (last_call_status : pjsip_status_code)
  | call_u_disconnected (last_call_status : pjsip_status_code)
  deriving DecidableEq

/-- What a callback may ask of the manager. -/
inductive Request where
  | answerCall (call_answer_mode : mp_status_t)
  | endCall
  | rejectCall

/-- A callback: the requests it makes when it is told something. -/
abbrev MpICall := History → Notice → List Request

/-- The answer of `timerIsActive`. -/
abbrev MpICallTimer := History → Bool

/-- `MpCallManager`; the timer may be null. -/
structure MpCallManager where
  call_id_ : pjsua_call_id
  lastAnswerMode_ : Int
  callCb_ : List MpICall
  timer_ : Option MpICallTimer

/-- What is done outside the manager. -/
inductive Effect where
  | pjsua_call_answer (call_id : pjsua_call_id) (code : Int)
  | pjsua_call_hangup (call_id : pjsua_call_id) (code : Int)
  | pjsua_call_hangup_all
  | callback (notice : Notice)
  | startTimer
  | stopTimer
  | tickTimer
  deriving DecidableEq

/-- A status cast to `int`. -/
def toInt : mp_status_t → Int
  | MP_SUCCESS => 0
  | MP_NOT_IMPLEMENTED_YET => 1
  | MP_GENERAL_ERR => 2
  | MP_SIP_INIT_ERR => 3
  | MP_SIP_DESTROY_ERR => 4
  | MP_INPUT_ERR => 5
  | MP_SET_REGISTRATION_ERR => 6
  | MP_STATUS_ERR => 7
  | MP_ANSWER_CALL => 200
  | MP_REJECT_CALL => 486
  | MP_RING_CALL => 180
  | MP_MESSAGE_SENT => 181
  | MP_MESSAGE_NOT_SENT => 182

/-- `PJSIP_SC_BUSY_HERE` -/
def PJSIP_SC_BUSY_HERE : Int := 486

section Manager

variable (active : Activity) (now : History) (m : MpCallManager)

def isTimerAvailable : Bool := m.timer_.isSome

/-- `executeStopTimer`. -/
def executeStopTimer : Act Effect Unit :=
  match m.timer_ with
  | none => return
  | some timerIsActive => do
      tell .stopTimer
      if timerIsActive now then tell .tickTimer

/-- `executeStartTimer`, which does not look whether there is a timer. -/
def executeStartTimer : Act Effect Unit :=
  match m.timer_ with
  | none => exit
  | some timerIsActive => do
      tell .startTimer
      if !timerIsActive now then tell .tickTimer

def reinitializeTimer : Act Effect Unit :=
  if isTimerAvailable m then executeStartTimer now m else return

/-- `answerCall` answers the call that is served. -/
def answerCall (call_answer_mode : mp_status_t) : Act Effect MpCallManager := do
  let m := { m with lastAnswerMode_ := toInt call_answer_mode }
  tell (.pjsua_call_answer m.call_id_ (toInt call_answer_mode))
  return m

def endCall : Act Effect MpCallManager := do
  let m := { m with lastAnswerMode_ := toInt MP_REJECT_CALL }
  tell .pjsua_call_hangup_all
  return m

def rejectCall : Act Effect MpCallManager :=
  if !active now m.call_id_ then return m
  else do
    tell (.pjsua_call_hangup m.call_id_ PJSIP_SC_BUSY_HERE)
    return m

/-- The requests of one callback. -/
def serve : List Request → MpCallManager → Act Effect MpCallManager
  | [], m => return m
  | .answerCall call_answer_mode :: rs, m => do serve rs (← answerCall m call_answer_mode)
  | .endCall :: rs, m => do serve rs (← endCall m)
  | .rejectCall :: rs, m => do serve rs (← rejectCall active now m)

/-- The loop over the callbacks. -/
def notify (notice : Notice) : List MpICall → MpCallManager → Act Effect MpCallManager
  | [], m => return m
  | it :: cCbList, m => do
      tell (.callback notice)
      notify notice cCbList (← serve active now (it now notice) m)

/-- Another call is served and active. -/
def busy (call_id : pjsua_call_id) : Bool :=
  m.call_id_ ≠ call_id && m.call_id_ ≠ -1 && active now m.call_id_

/-- `onCallState`. -/
def onCallState (call_id : pjsua_call_id) (call_state : pjsip_inv_state)
    (last_status_code : pjsip_status_code) : Act Effect MpCallManager :=
  if busy active now m call_id then do
    tell (.pjsua_call_hangup call_id PJSIP_SC_BUSY_HERE)
    return m
  else
    let m := { m with call_id_ := call_id }
    match call_state with
    | .PJSIP_INV_STATE_CALLING => do
        reinitializeTimer now m
        notify active now (.call_caller_calling last_status_code) m.callCb_ m
    | .PJSIP_INV_STATE_EARLY => do
        -- a new call begins
        let m := { m with lastAnswerMode_ := 0 }
        if isTimerAvailable m then executeStopTimer now m
        notify active now (.call_caller_early last_status_code) m.callCb_ m
    | .PJSIP_INV_STATE_CONNECTING => do
        let m := { m with lastAnswerMode_ := 0 }
        reinitializeTimer now m
        notify active now (.call_u_connecting last_status_code) m.callCb_ m
    | .PJSIP_INV_STATE_CONFIRMED => do
        executeStopTimer now m
        notify active now (.call_u_confirmed last_status_code) m.callCb_ m
    | .PJSIP_INV_STATE_DISCONNECTED => do
        if isTimerAvailable m then executeStopTimer now m
        notify active now (.call_u_disconnected last_status_code) m.callCb_ m
    | .PJSIP_INV_STATE_NULL => return m
    | .PJSIP_INV_STATE_INCOMING => return m

/-- `onIncomingCall`. -/
def onIncomingCall (call_id : pjsua_call_id) (caller_serial : MpString) :
    Act Effect MpCallManager :=
  if busy active now m call_id then do
    tell (.pjsua_call_hangup call_id PJSIP_SC_BUSY_HERE)
    return m
  else do
    let m := { m with call_id_ := call_id }
    let m ← notify active now (.call_callee_incoming caller_serial) m.callCb_ m
    reinitializeTimer now m
    return m

/-! ## The callbacks of pjsua -/

/-- `on_call_state`. -/
def on_call_state (call_id : pjsua_call_id) (c_info : Option pjsua_call_info) :
    Act Effect MpCallManager :=
  match c_info with
  | none => return m
  | some info => onCallState active now m call_id info.state info.last_status

/-- `on_incoming_call`. -/
def on_incoming_call (call_id : pjsua_call_id) (c_info : Option pjsua_call_info) :
    Act Effect MpCallManager :=
  match c_info with
  | none => return m
  | some info => do
      let caller_serial ← quiet (getSerialFromUri (some (c_str info.remote_contact)))
      let m ← onIncomingCall active now m call_id (c_str caller_serial).bytes
      -- the phone is ringing
      tell (.pjsua_call_answer call_id (toInt MP_RING_CALL))
      return m

/-- The callback `e` stands for. -/
def handle : Event → Act Effect MpCallManager
  | .on_incoming_call call_id c_info => on_incoming_call active now m call_id c_info
  | .on_call_state call_id c_info => on_call_state active now m call_id c_info

end Manager

/-- `MpCall` answers every call. -/
def MpCall : MpICall
  | _, .call_callee_incoming _ => [.answerCall MP_ANSWER_CALL]
  | _, _ => []

/-! ## A call that is rejected -/

section Rejected

variable {active : Activity} {now : History} {m : MpCallManager} {call_id : pjsua_call_id}

theorem onCallState_rejected (h : busy active now m call_id = true)
    (call_state : pjsip_inv_state) (last_status_code : pjsip_status_code) :
    (onCallState active now m call_id call_state last_status_code).run =
      some (m, [.pjsua_call_hangup call_id PJSIP_SC_BUSY_HERE]) := by
  rw [onCallState, if_pos h]
  rfl

theorem onIncomingCall_rejected (h : busy active now m call_id = true)
    (caller_serial : MpString) :
    (onIncomingCall active now m call_id caller_serial).run =
      some (m, [.pjsua_call_hangup call_id PJSIP_SC_BUSY_HERE]) := by
  rw [onIncomingCall, if_pos h]
  rfl

end Rejected

/-! ## The call that is served -/

section Served

variable {active : Activity} {now : History} {m : MpCallManager} {call_id : pjsua_call_id}

/-- No other call is answered. -/
def About (call_id : pjsua_call_id) (f : Effect) : Prop :=
  ∀ other code, f = .pjsua_call_answer other code → other = call_id

/-- The call stays the one that is served, and no other is answered. -/
def Serves (call_id : pjsua_call_id) : Act Effect MpCallManager → Prop :=
  Ensures (About call_id) fun m => m.call_id_ = call_id

theorem executeStopTimer_about :
    Ensures (About call_id) (fun _ => True) (executeStopTimer now m) := by
  unfold executeStopTimer
  split
  · exact ensures_pure trivial
  · refine Ensures.bind (ensures_tell nofun) fun _ _ => ?_
    split
    · exact ensures_tell nofun
    · exact ensures_pure trivial

theorem reinitializeTimer_about :
    Ensures (About call_id) (fun _ => True) (reinitializeTimer now m) := by
  unfold reinitializeTimer executeStartTimer
  split
  · split
    · exact ensures_exit
    · refine Ensures.bind (ensures_tell nofun) fun _ _ => ?_
      split
      · exact ensures_tell nofun
      · exact ensures_pure trivial
  · exact ensures_pure trivial

theorem answerCall_serves (h : m.call_id_ = call_id) (call_answer_mode : mp_status_t) :
    Serves call_id (answerCall m call_answer_mode) := by
  have habout : About call_id (.pjsua_call_answer m.call_id_ (toInt call_answer_mode)) := by
    rintro other code hsame
    cases hsame
    exact h
  exact Ensures.bind (ensures_tell habout) fun _ _ => ensures_pure h

theorem endCall_serves (h : m.call_id_ = call_id) : Serves call_id (endCall m) :=
  Ensures.bind (ensures_tell nofun) fun _ _ => ensures_pure h

theorem rejectCall_serves (h : m.call_id_ = call_id) :
    Serves call_id (rejectCall active now m) := by
  unfold rejectCall
  split
  · exact ensures_pure h
  · exact Ensures.bind (ensures_tell nofun) fun _ _ => ensures_pure h

theorem serve_serves (rs : List Request) :
    ∀ {m : MpCallManager}, m.call_id_ = call_id → Serves call_id (serve active now rs m) := by
  induction rs with
  | nil => exact fun h => ensures_pure h
  | cons r rs ih =>
      intro m h
      cases r with
      | answerCall call_answer_mode =>
          exact Ensures.bind (answerCall_serves h call_answer_mode) fun _ => ih
      | endCall => exact Ensures.bind (endCall_serves h) fun _ => ih
      | rejectCall => exact Ensures.bind (rejectCall_serves h) fun _ => ih

theorem notify_serves (notice : Notice) (cCbList : List MpICall) :
    ∀ {m : MpCallManager}, m.call_id_ = call_id →
      Serves call_id (notify active now notice cCbList m) := by
  induction cCbList with
  | nil => exact fun h => ensures_pure h
  | cons it cCbList ih =>
      intro m h
      refine Ensures.bind (ensures_tell nofun) fun _ _ => ?_
      exact Ensures.bind (serve_serves (it now notice) h) fun _ => ih

/-- **A state of the call that is not rejected.** -/
theorem onCallState_serves (h : busy active now m call_id = false)
    (call_state : pjsip_inv_state) (last_status_code : pjsip_status_code) :
    Serves call_id (onCallState active now m call_id call_state last_status_code) := by
  rw [onCallState, h, if_neg Bool.false_ne_true]
  cases call_state with
  | PJSIP_INV_STATE_CALLING | PJSIP_INV_STATE_CONNECTING =>
      exact Ensures.bind reinitializeTimer_about fun _ _ => notify_serves _ _ rfl
  | PJSIP_INV_STATE_EARLY | PJSIP_INV_STATE_DISCONNECTED =>
      dsimp only
      split
      · exact Ensures.bind executeStopTimer_about fun _ _ => notify_serves _ _ rfl
      · exact notify_serves _ _ rfl
  | PJSIP_INV_STATE_CONFIRMED =>
      exact Ensures.bind executeStopTimer_about fun _ _ => notify_serves _ _ rfl
  | PJSIP_INV_STATE_NULL | PJSIP_INV_STATE_INCOMING => exact ensures_pure rfl

/-- **An incoming call that is not rejected.** -/
theorem onIncomingCall_serves (h : busy active now m call_id = false)
    (caller_serial : MpString) :
    Serves call_id (onIncomingCall active now m call_id caller_serial) := by
  rw [onIncomingCall, h, if_neg Bool.false_ne_true]
  refine Ensures.bind (notify_serves _ _ rfl) fun m hm => ?_
  exact Ensures.bind reinitializeTimer_about fun _ _ => ensures_pure hm

end Served

end EndToEndSmkex.Calls.CallManager
