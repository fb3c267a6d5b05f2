import EndToEndSmkex.AutoResend.Pool
import EndToEndSmkex.Lib.BubbleSort
import Mathlib.Logic.Function.Basic

/-!
# The auto-resend engine

`MpAutoResendEngine` keeps a pool of messages for every user and the order in
which the users are served.  An operation changes the queues and then, when the
engine has to be driven, sorts the users by weight and hands the first message
that can be sent to the transport.

Two things an operation depends on come from outside and are taken as
arguments: whether the SIP stack runs, and the results of the comparisons that
`sortMessages` makes for a user without a pool, where the code reads through
the end iterator of the map.  An operation is `none` when these are not exactly
the ones it needs.

The locks are left out: an operation runs from begin to end.  So is the width of
the index in `sortMessages`, in all runs of the engine: they are those of the code
as long as `priority_` has at most 2^32 entries, and `Sorting` says what the loop
does with more.
-/

namespace EndToEndSmkex.AutoResend.Engine

open EndToEndSmkex.Lib.BubbleSort
open EndToEndSmkex.Smkex.Record
open EndToEndSmkex.AutoResend.MsgPayload
open EndToEndSmkex.AutoResend.Pool

inductive mp_status_t where
  | MP_SUCCESS
  | MP_NOT_IMPLEMENTED_YET
  | MP_GENERAL_ERR
  | MP_SIP_INIT_ERR
  | MP_SIP_DESTROY_ERR
  | MP_INPUT_ERR
  | MP_SET_REGISTRATION_ERR
  | MP_STATUS_ERR
  | MP_ANSWER_CALL
  | MP_REJECT_CALL
  | MP_RING_CALL
  | MP_MESSAGE_SENT
  | MP_MESSAGE_NOT_SENT
  deriving DecidableEq

open mp_status_t

inductive mp_buddy_online_status_t where
  | MP_BUDDY_ONLINE
  | MP_BUDDY_OFFLINE
  deriving DecidableEq

open mp_buddy_online_status_t

/-- Of a database connector the engine keeps nothing but asks its type. -/
structure MpAutoResendEngine where
  dbConnectors_ : List mp_msg_type_t
  userPool_ : MpString → Option MpMsgPool
  priority_ : List MpString
  started_ : Bool
  autoResendEnabled_ : Bool

/-- A call of `messageStatus` on a database connector. -/
structure Report where
  connector : Nat
  message : MpMsgPayload
  status : mp_status_t
  deriving DecidableEq

/-- What an operation leaves behind: the engine, the message it handed to the
transport, and its calls of the connectors. -/
structure Outcome where
  engine : MpAutoResendEngine
  handed : Option MpMsgPayload
  reports : List Report

/-- What an operation is answered: whether the SIP stack is started, and the
comparisons that looked up no pool. -/
structure Answers where
  isSipStackStarted : Bool
  missing : List Bool

namespace MpAutoResendEngine

/-- The constructor, after `addDBConnector` for every connector. -/
def new (dbConnectors : List mp_msg_type_t) : MpAutoResendEngine :=
  { dbConnectors_ := dbConnectors
    userPool_ := fun _ => none
    priority_ := []
    started_ := false
    autoResendEnabled_ := false }

def setPool (e : MpAutoResendEngine) (serial : MpString) (pool : Option MpMsgPool) :
    MpAutoResendEngine :=
  { e with userPool_ := Function.update e.userPool_ serial pool }

/-- Nothing to do for the transport. -/
def idle (e : MpAutoResendEngine) (missing : List Bool) : Option Outcome :=
  if missing = [] then some { engine := e, handed := none, reports := [] } else none

end MpAutoResendEngine

open MpAutoResendEngine

@[simp] theorem userPool_setPool (e : MpAutoResendEngine) (serial : MpString)
    (pool : Option MpMsgPool) (s : MpString) :
    (e.setPool serial pool).userPool_ s = if s = serial then pool else e.userPool_ s := by
  by_cases hs : s = serial
  · subst hs
    simp [setPool]
  · simp [setPool, hs]

/-- The connectors that keep messages of this type are told the status. -/
def notify (dbConnectors : List mp_msg_type_t) (message : MpMsgPayload)
    (status : mp_status_t) : List Report :=
  (dbConnectors.zipIdx.filter fun c => c.1 = message.messageType_).map fun c =>
    { connector := c.2, message, status }

/-! ## Sending -/

/-- `none` where a serial has no pool. -/
def weightSortCmp (e : MpAutoResendEngine) (p1 p2 : MpString) : Option Bool :=
  match e.userPool_ p1, e.userPool_ p2 with
  | some pool1, some pool2 => some (decide (pool2.weight_ < pool1.weight_))
  | _, _ => none

/-- The loop of the code, for as many users as its index can count. -/
def sortMessages (e : MpAutoResendEngine) (missing : List Bool) : Option MpAutoResendEngine :=
  match bubbleSort (weightSortCmp e) e.priority_ missing with
  | some (priority, []) => some { e with priority_ := priority }
  | _ => none

def markUserPoolProcessed (dbConnectors : List mp_msg_type_t) (userPool : MpMsgPool) :
    MpMsgPool × List Report :=
  if userPool.messages_.isEmpty then (userPool, [])
  else if userPool.weight_ = INT_MAX then (userPool, [])
  else
    let messages := userPool.messages_.map MpMsgPayload.markAsProcessed
    (MpMsgPool.setWeight { userPool with messages_ := messages } INT_MAX,
      messages.flatMap fun m => notify dbConnectors m MP_MESSAGE_NOT_SENT)

/-- The search of `sendMessage` through the sorted users. -/
def scan (e : MpAutoResendEngine) : List MpString → Outcome
  | [] => { engine := { e with started_ := false }, handed := none, reports := [] }
  | serial :: rest =>
    match e.userPool_ serial with
    | none => scan e rest
    | some pool =>
      if pool.isPoolEmpty then scan e rest
      else if !pool.dirty_ then
        let message := pool.getMessage e.autoResendEnabled_
        if message.numberOfRetries_ ≤ 0 then scan e rest
        else { engine := e, handed := some message, reports := [] }
      else
        let marked := markUserPoolProcessed e.dbConnectors_ pool
        let out := scan (e.setPool serial (some marked.1)) rest
        { out with reports := marked.2 ++ out.reports }

def sendMessage (e : MpAutoResendEngine) (missing : List Bool) : Option Outcome :=
  (sortMessages e missing).map fun e => scan e e.priority_

def startEngine (e : MpAutoResendEngine) (a : Answers) : Option Outcome :=
  if a.isSipStackStarted && !e.started_ then sendMessage { e with started_ := true } a.missing
  else e.idle a.missing

/-! ## Operations -/

/-- With auto-resend every message of the pool may be tried again. -/
def markUserPoolAsClean (autoResendEnabled : Bool) (userPool : MpMsgPool) : MpMsgPool :=
  let userPool := (userPool.setWeight 0).markAsClean
  if autoResendEnabled then
    { userPool with messages_ := userPool.messages_.map MpMsgPayload.markAsUnProcessed }
  else userPool

def addMessageInternal (e : MpAutoResendEngine) (message : MpMsgPayload) :
    MpAutoResendEngine :=
  match e.userPool_ message.userSerial_ with
  | some pool =>
    e.setPool message.userSerial_
      (some (markUserPoolAsClean e.autoResendEnabled_ (pool.addMessage message)))
  | none =>
    { e.setPool message.userSerial_
        (some (markUserPoolAsClean e.autoResendEnabled_ (MpMsgPool.new message))) with
      priority_ := e.priority_ ++ [message.userSerial_] }

def addMessage (e : MpAutoResendEngine) (message : MpMsgPayload) (a : Answers) :
    Option Outcome :=
  startEngine (addMessageInternal e message) a

/-- `contents` is what `getMessages` of each connector returns.  The engine is
not started. -/
def syncWithDBConnectors (e : MpAutoResendEngine) (contents : List (List MpMsgPayload)) :
    MpAutoResendEngine :=
  contents.foldl (fun e messages => messages.foldl addMessageInternal e) e

/-- What `messageStatus` does to the queues, and its calls of the connectors. -/
def settle (e : MpAutoResendEngine) (message : MpMsgPayload) (status : mp_status_t) :
    MpAutoResendEngine × List Report :=
  match e.userPool_ message.userSerial_ with
  | none => (e, [])
  | some pool =>
    let pool := pool.markMsgAsProcessed message.uid_
    if status = MP_MESSAGE_SENT then
      let pool := pool.rmMessage message.uid_
      if pool.isPoolEmpty then
        ({ e.setPool message.userSerial_ none with
            priority_ := e.priority_.erase message.userSerial_ }, [])
      else
        (e.setPool message.userSerial_ (some (pool.setWeight (pool.weight_ + 1))), [])
    else
      let marked := markUserPoolProcessed e.dbConnectors_ pool.markAsDirty
      (e.setPool message.userSerial_ (some marked.1), marked.2)

def messageStatus (e : MpAutoResendEngine) (message : MpMsgPayload) (status : mp_status_t)
    (missing : List Bool) : Option Outcome :=
  let settled := settle e message status
  (sendMessage settled.1 missing).map fun out =>
    { out with
      reports := notify e.dbConnectors_ message status ++ settled.2 ++ out.reports }

def buddy_state2 (e : MpAutoResendEngine) (serial : MpString)
    (state : mp_buddy_online_status_t) (a : Answers) : Option Outcome :=
  match e.userPool_ serial with
  | none => e.idle a.missing
  | some pool =>
    if state = MP_BUDDY_ONLINE then
      startEngine (e.setPool serial (some (markUserPoolAsClean e.autoResendEnabled_ pool))) a
    else e.idle a.missing

/-- The engine's part of `removeMessagesForSerial`: the transport has forgotten
its message before. -/
def removeMessagesForSerial (e : MpAutoResendEngine) (serial : MpString) :
    MpAutoResendEngine :=
  e.setPool serial none

def setAutoResendEnabled (e : MpAutoResendEngine) (autoResendEnabled : Bool) (a : Answers) :
    Option Outcome :=
  let e' := { e with autoResendEnabled_ := autoResendEnabled }
  if !e.autoResendEnabled_ && autoResendEnabled then startEngine e' a else e'.idle a.missing

/-- Put a user first: weight 0 for its pool, one more for every other. -/
def prioritize (e : MpAutoResendEngine) (serial : MpString) : MpAutoResendEngine :=
  { e with
    userPool_ := fun s => (e.userPool_ s).map fun pool =>
      if s = serial then pool.setWeight 0 else pool.setWeight (pool.weight_ + 1) }

def resendMessage (e : MpAutoResendEngine) (serial : MpString) (msgId : Int) (a : Answers) :
    Option (Bool × Outcome) :=
  match e.userPool_ serial with
  | none => (e.idle a.missing).map fun out => (false, out)
  | some pool =>
    match pool.getIndexForUID msgId with
    | none => (e.idle a.missing).map fun out => (false, out)
    | some _ =>
      let pool := (pool.markMsgAsUnprocessed msgId).markAsClean
      (startEngine (prioritize (e.setPool serial (some pool)) serial) a).map fun out =>
        (true, out)

/-- The operations of the engine. -/
inductive Op where
  | addMessage (message : MpMsgPayload)
  | syncWithDBConnectors (contents : List (List MpMsgPayload))
  | messageStatus (message : MpMsgPayload) (status : mp_status_t)
  | buddy_state2 (serial : MpString) (state : mp_buddy_online_status_t)
  | resendMessage (serial : MpString) (msgId : Int)
  | setAutoResendEnabled (autoResendEnabled : Bool)
  | removeMessagesForSerial (serial : MpString)
  deriving DecidableEq

def operate (e : MpAutoResendEngine) (op : Op) (a : Answers) : Option Outcome :=
  match op with
  | .addMessage message => addMessage e message a
  | .syncWithDBConnectors contents => (syncWithDBConnectors e contents).idle a.missing
  | .messageStatus message status => messageStatus e message status a.missing
  | .buddy_state2 serial state => buddy_state2 e serial state a
  | .resendMessage serial msgId => (resendMessage e serial msgId a).map Prod.snd
  | .setAutoResendEnabled autoResendEnabled => setAutoResendEnabled e autoResendEnabled a
  | .removeMessagesForSerial serial => (removeMessagesForSerial e serial).idle a.missing

end EndToEndSmkex.AutoResend.Engine
