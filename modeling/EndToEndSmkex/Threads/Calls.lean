import EndToEndSmkex.Buddy.Presence
import EndToEndSmkex.DataMsg.MsgTransport
import EndToEndSmkex.Lib.Threads

/-!
# The calls with their locks

The objects of the library are singletons that threads of the application and of
pjsua use at the same time.  Every call is written here as the code between its
lock operations.  What a call does between two of them is one action: all of it
is under the lock just taken, or it touches nothing shared.

Two kinds of callbacks come back to the library: a message callback may hand
replies to the engine, and a call callback may answer the call, as `MpCall` does.
The other callbacks, the database connectors and pjsua are taken to use no lock of
the library and not to wait for one of its threads.  The engine may be registered
for presence itself; its address is `engineCb`.

A program is a list of calls, and there are as many threads with programs as one
likes.
-/

namespace EndToEndSmkex.Threads.Calls

open EndToEndSmkex.Lib.OrderedMaps
open EndToEndSmkex.Lib.Threads
open EndToEndSmkex.Smkex.Record
open EndToEndSmkex.AutoResend.MsgPayload
open EndToEndSmkex.AutoResend.Pool
open EndToEndSmkex.AutoResend.Engine
open EndToEndSmkex.AutoResend.Engine.mp_status_t
open EndToEndSmkex.DataMsg.MsgTransport
open EndToEndSmkex.SipStack.Stack (MpBuddy pjsua_buddy_id mp_network_state_t)
open EndToEndSmkex.Buddy.BuddyList (serialIsValid)
open EndToEndSmkex.Buddy.Presence (MpBuddyList MpIPresence Notice pjsua_buddy_status)

/-! ## State -/

/-- The mutexes of the classes, and the locks for reading and writing. -/
inductive Lock where
  | userAccount
  | buddyList
  | sipStack
  | dbConnLock_
  | startedLock_
  | msgLock_
  -- for reading and writing
  | userPoolLock_
  | presenceCb_
  | msgCb_
  | invCb_
  | callCb_
  | regCb_
  deriving DecidableEq

/-- What the threads share.  `outstanding` are the accepted calls of `sendMsg`
without a status yet, `reports` the calls of the database connectors so far. -/
structure Shared where
  engine : MpAutoResendEngine
  transport : MpMsgTransport
  outstanding : List SipSend
  reports : List Report
  sipStarted_ : Bool
  buddies : MpBuddyList

/-- The constructors, after `addDBConnector` for every connector. -/
def Shared.new (dbConnectors : List mp_msg_type_t) : Shared :=
  { engine := MpAutoResendEngine.new dbConnectors
    transport := MpMsgTransport.new
    outstanding := []
    reports := []
    sipStarted_ := false
    buddies := ⟨∅, []⟩ }

/-- The answer to an action: the comparisons that `sortMessages` makes for users
without a pool, whether `sendMsg` is accepted, or what pjsua answers. -/
inductive Answer where
  | silence
  | missing (comparisons : List Bool)
  | sendMsg (accepted : Bool)
  | pjsua (answers : SipStack.Stack.Answers)

instance : Inhabited Answer := ⟨.silence⟩

abbrev Prog := Code Lock Shared Answer

/-- Where the engine stands among the presence callbacks. -/
def engineCb : MpIPresence := 0

namespace Shared

/-- Change the engine. -/
def withEngine (f : MpAutoResendEngine → MpAutoResendEngine) (s : Shared) : Shared :=
  { s with engine := f s.engine }

/-- Change the pool of a user, if there is one. -/
def withPool (serial : MpString) (f : MpMsgPool → MpMsgPool) : Shared → Shared :=
  withEngine fun e => e.setPool serial ((e.userPool_ serial).map f)

/-- Change the buddy list. -/
def withBuddies (f : MpBuddyList → MpBuddyList) (s : Shared) : Shared :=
  { s with buddies := f s.buddies }

/-- The transport calls `sendMsg`, or it does not. -/
def sip (s : Shared) (send : Option SipSend) (a : Answer) : Option Shared :=
  match send, a with
  | none, _ => some s
  | some x, .sendMsg true => some { s with outstanding := s.outstanding ++ [x] }
  | some _, .sendMsg false => some s
  | _, _ => none

end Shared

open Code Lock

/-! ## The engine -/

/-- `MpSIPStack::isSipStackStarted`. -/
def isSipStackStarted (k : Bool → Prog) : Prog :=
  .acquire sipStack .mutex <| look fun s => .release sipStack <| k s.sipStarted_

/-- The database connectors are told a status. -/
def notifyConnectors (message : MpMsgPayload) (status : mp_status_t) (k : Prog) : Prog :=
  .acquire dbConnLock_ .mutex <|
  update (fun s => { s with
    reports := s.reports ++ notify s.engine.dbConnectors_ message status }) <|
  .release dbConnLock_ k

/-- The loop of `markUserPoolProcessed`: `before` has been marked. -/
def markMessages (serial : MpString) : (before messages : List MpMsgPayload) → Prog → Prog
  | _, [], k => k
  | before, m :: messages, k =>
    let before := before ++ [m.markAsProcessed]
    update (.withPool serial fun pool => { pool with messages_ := before ++ messages }) <|
    notifyConnectors m.markAsProcessed MP_MESSAGE_NOT_SENT <|
    markMessages serial before messages k

/-- `markUserPoolProcessed`, for the pool of a user. -/
def markUserPoolProcessed (serial : MpString) (userPool : MpMsgPool) (k : Prog) : Prog :=
  if userPool.messages_.isEmpty then k
  else if userPool.weight_ = INT_MAX then k
  else
    markMessages serial [] userPool.messages_ <|
    update (.withPool serial fun pool => pool.setWeight INT_MAX) k

/-- `MpMsgTransport::sendMessage`. -/
def transportSend (message : MpMsgPayload) (k : Prog) : Prog :=
  .acquire msgLock_ .mutex <|
  perform (fun s a =>
    let sent := MpMsgTransport.sendMessage message
    (Shared.sip { s with transport := sent.1 } sent.2 a).map fun s => (s, ())) fun _ =>
  .release msgLock_ k

/-- The search of `sendMessage` through the sorted users. -/
def search : List MpString → Prog → Prog
  | [], k =>
    .release userPoolLock_ <|
    update (.withEngine fun e => { e with started_ := false }) k
  | serial :: rest, k => look fun s =>
    match s.engine.userPool_ serial with
    | none => search rest k
    | some pool =>
      if pool.isPoolEmpty then search rest k
      else if !pool.dirty_ then
        let message := pool.getMessage s.engine.autoResendEnabled_
        if message.numberOfRetries_ ≤ 0 then search rest k
        else transportSend message <| .release userPoolLock_ k
      else markUserPoolProcessed serial pool <| search rest k

/-- `sortMessages`, and the users in their order. -/
def sortUsers (s : Shared) : Answer → Option (Shared × List MpString)
  | .missing comparisons =>
    (sortMessages s.engine comparisons).map fun e => ({ s with engine := e }, e.priority_)
  | _ => none

def sendMessage (k : Prog) : Prog :=
  .acquire userPoolLock_ .write <|
  perform sortUsers fun priority =>
  search priority k

def startEngine (k : Prog) : Prog :=
  isSipStackStarted fun isStarted =>
    if !isStarted then k
    else
      .acquire startedLock_ .mutex <|
      look fun s =>
        if !s.engine.started_ then
          update (.withEngine fun e => { e with started_ := true }) <|
          sendMessage <|
          .release startedLock_ k
        else .release startedLock_ k

def addMessageInternal (message : MpMsgPayload) (k : Prog) : Prog :=
  .acquire userPoolLock_ .write <|
  update (.withEngine fun e => AutoResend.Engine.addMessageInternal e message) <|
  .release userPoolLock_ k

def addMessage (message : MpMsgPayload) (k : Prog) : Prog :=
  addMessageInternal message <| startEngine k

/-- `contents` is what `getMessages` of each connector returns. -/
def syncWithDBConnectors (contents : List (List MpMsgPayload)) (k : Prog) : Prog :=
  .acquire dbConnLock_ .mutex <|
  contents.flatten.foldr addMessageInternal <|
  .release dbConnLock_ k

def addDBConnector (dbConn : mp_msg_type_t) (k : Prog) : Prog :=
  .acquire dbConnLock_ .mutex <|
  update (.withEngine fun e => { e with dbConnectors_ := e.dbConnectors_ ++ [dbConn] }) <|
  .release dbConnLock_ k

/-- The part of `messageStatus` under `userPoolLock_`. -/
def settle (message : MpMsgPayload) (status : mp_status_t) (k : Prog) : Prog :=
  .acquire userPoolLock_ .write <|
  look fun s =>
    match s.engine.userPool_ message.userSerial_ with
    | none => .release userPoolLock_ k
    | some pool =>
      if status = MP_MESSAGE_SENT then
        update (.withEngine fun e => (AutoResend.Engine.settle e message status).1) <|
        .release userPoolLock_ k
      else
        let pool := (pool.markMsgAsProcessed message.uid_).markAsDirty
        update (.withPool message.userSerial_ fun _ => pool) <|
        markUserPoolProcessed message.userSerial_ pool <|
        .release userPoolLock_ k

def messageStatus (message : MpMsgPayload) (status : mp_status_t) (k : Prog) : Prog :=
  notifyConnectors message status <|
  settle message status <|
  .acquire startedLock_ .mutex <|
  sendMessage <|
  .release startedLock_ k

def buddy_state2 (serial : MpString) (state : mp_buddy_online_status_t) (k : Prog) : Prog :=
  .acquire userPoolLock_ .write <|
  look fun s =>
    match s.engine.userPool_ serial with
    | none => .release userPoolLock_ k
    | some _ =>
      if state = .MP_BUDDY_ONLINE then
        update (fun s =>
          s.withPool serial (markUserPoolAsClean s.engine.autoResendEnabled_)) <|
        .release userPoolLock_ <|
        startEngine k
      else .release userPoolLock_ k

def isMessageProcessing (serial : MpString) (uid : Int) (k : Bool → Prog) : Prog :=
  .acquire userPoolLock_ .read <|
  look fun s =>
    let processing := match s.engine.userPool_ serial with
      | none => false
      | some pool => !pool.getProcessedStatusAt uid
    .release userPoolLock_ <| k processing

/-- With `removeMessageForSerial` of the transport. -/
def removeMessagesForSerial (serial : MpString) (k : Prog) : Prog :=
  .acquire msgLock_ .mutex <|
  update (fun s => { s with transport := s.transport.removeMessageForSerial serial }) <|
  .release msgLock_ <|
  .acquire userPoolLock_ .write <|
  update (.withEngine fun e => AutoResend.Engine.removeMessagesForSerial e serial) <|
  .release userPoolLock_ k

/-- The flag is read before the lock is taken. -/
def setAutoResendEnabled (autoResendEnabled : Bool) (k : Prog) : Prog :=
  look fun s =>
    let startEng := !s.engine.autoResendEnabled_ && autoResendEnabled
    .acquire startedLock_ .mutex <|
    update (.withEngine fun e => { e with autoResendEnabled_ := autoResendEnabled }) <|
    .release startedLock_ <|
    if startEng then startEngine k else k

def resendMessage (serial : MpString) (msgId : Int) (k : Prog) : Prog :=
  .acquire userPoolLock_ .write <|
  look fun s =>
    match (s.engine.userPool_ serial).bind fun pool => pool.getIndexForUID msgId with
    | none => .release userPoolLock_ k
    | some _ =>
      update (fun s => (s.withPool serial fun pool =>
        (pool.markMsgAsUnprocessed msgId).markAsClean).withEngine
          fun e => prioritize e serial) <|
      .release userPoolLock_ <|
      startEngine k

/-! ## The transport -/

def onSendMsgDone (status : mp_status_t) (k : Prog) : Prog :=
  .acquire msgLock_ .mutex <|
  perform (fun s a =>
    let done := s.transport.onSendMsgDone status
    let send := match done.2 with
      | .resend x => some x
      | _ => none
    (Shared.sip { s with transport := done.1 } send a).map fun s => (s, done.2)) fun reaction =>
  match reaction with
  | .report message => messageStatus message status <| .release msgLock_ k
  | _ => .release msgLock_ k

/-- A status arrives for one of the calls of `sendMsg`. -/
def on_pager_status (call code : Nat) (k : Prog) : Prog :=
  perform (fun s _ =>
    if call < s.outstanding.length then
      some ({ s with outstanding := s.outstanding.eraseIdx call }, ())
    else none) fun _ =>
  onSendMsgDone (xferStatus code) k

/-! ## The SIP stack and the buddy list -/

/-- `MpBuddyList::reset`. -/
def reset (k : Prog) : Prog :=
  .acquire buddyList .mutex <|
  update (.withBuddies Buddy.Presence.reset) <|
  .release buddyList k

/-- The end of `stopSIPStack`: pjsua is destroyed. -/
def destroyPjsua (s : Shared) : Answer → Option (Shared × Unit)
  | .pjsua ans => some (if ans.succeeds .destroy2 then { s with sipStarted_ := false } else s, ())
  | _ => none

def stopSIPStack (k : Prog) : Prog :=
  .acquire sipStack .mutex <|
  look fun s =>
    if !s.sipStarted_ then .release sipStack k
    else
      reset <|
      perform destroyPjsua fun _ =>
      .release sipStack k

/-- The row of calls behind `stopSIPStack` in `startSIPStack`. -/
def startPjsua (networkState : mp_network_state_t) (s : Shared) : Answer → Option (Shared × Unit)
  | .pjsua ans =>
    (SipStack.Stack.startSIPStack ans networkState (s.buddies.service s.sipStarted_)).run.map
      fun p => ({ s with sipStarted_ := p.1.1.started_ }, ())
  | _ => none

/-- The flag is unset when `stopSIPStack` is called, and cannot be set meanwhile, so
that it only takes the lock again and gives it back. -/
def startSIPStack (networkState : mp_network_state_t) (k : Prog) : Prog :=
  .acquire sipStack .mutex <|
  look fun s =>
    if s.sipStarted_ then .release sipStack k
    else
      .acquire sipStack .mutex <|
      .release sipStack <|
      perform (startPjsua networkState) fun _ =>
      .release sipStack k

/-- The part of `subscribe` under the lock. -/
def addSubscription (buddy : MpBuddy) (s : Shared) :
    Answer → Option (Shared × MpBuddy × mp_status_t)
  | .pjsua ans =>
    (SipStack.Stack.subscribe ans (s.buddies.service s.sipStarted_) buddy).run.map
      fun p => (s, p.1)
  | _ => none

/-- `MpSIPStack::subscribe`. -/
def subscribe (buddy : MpBuddy) (k : MpBuddy × mp_status_t → Prog) : Prog :=
  .acquire sipStack .mutex <|
  perform (addSubscription buddy) fun result =>
  .release sipStack <| k result

/-- The part of `unsubscribe` under the lock. -/
def endSubscription (buddy_id : pjsua_buddy_id) (s : Shared) :
    Answer → Option (Shared × mp_status_t)
  | .pjsua ans =>
    (SipStack.Stack.unsubscribe ans (s.buddies.service s.sipStarted_) buddy_id).run.map
      fun p => (s, p.1)
  | _ => none

/-- `MpSIPStack::unsubscribe`. -/
def unsubscribe (buddy_id : pjsua_buddy_id) (k : mp_status_t → Prog) : Prog :=
  .acquire sipStack .mutex <|
  perform (endSubscription buddy_id) fun status =>
  .release sipStack <| k status

/-- The functions of `MpSIPStack` that only call pjsua under the lock: `call`,
`answerCall`, `endCall`, `rejectCall` and `setOnline`. -/
def callPjsua (k : Prog) : Prog := .acquire sipStack .mutex <| .release sipStack k

def addBuddy (buddy : MpBuddy) (k : Prog) : Prog :=
  .acquire buddyList .mutex <|
  look fun s =>
    if serialIsValid (buddy.serial_.takeWhile (· ≠ 0)) = false then .release buddyList k
    else if (lookup s.buddies.buddyList_ buddy.serial_).isSome then .release buddyList k
    else
      subscribe buddy fun result =>
        if result.2 = MP_SUCCESS then
          update (.withBuddies fun l =>
            { l with buddyList_ := l.buddyList_.insertIfNew buddy.serial_ result.1 }) <|
          .release buddyList k
        else .release buddyList k

def rmBuddy (serial : MpString) (k : Prog) : Prog :=
  .acquire buddyList .mutex <|
  look fun s =>
    match lookup s.buddies.buddyList_ serial with
    | none => .release buddyList k
    | some buddy =>
      unsubscribe buddy.pjsuaId_ fun status =>
        if status = MP_SUCCESS then
          update (.withBuddies fun l => { l with buddyList_ := l.buddyList_.erase serial }) <|
          .release buddyList k
        else .release buddyList k

/-- The state as the engine has it. -/
def onlineStatus : SipStack.Stack.mp_buddy_online_status_t → mp_buddy_online_status_t
  | .MP_BUDDY_ONLINE => .MP_BUDDY_ONLINE
  | .MP_BUDDY_OFFLINE => .MP_BUDDY_OFFLINE

/-- A callback hears of a buddy.  Only the engine does something with it here. -/
def hear : Notice → Prog → Prog
  | .buddy_state _ _, k => k
  | .buddy_state2 cb buddy, k =>
    if cb = engineCb then buddy_state2 buddy.serial_ (onlineStatus buddy.state_) k else k

/-- `MpBuddyList::buddy_state`. -/
def buddy_state (buddy_id : pjsua_buddy_id) (status : pjsua_buddy_status) (k : Prog) : Prog :=
  .acquire buddyList .mutex <|
  .acquire presenceCb_ .read <|
  perform (fun s _ =>
    let changed := Buddy.Presence.buddy_state s.buddies buddy_id status
    some ({ s with buddies := changed.1 }, changed.2)) fun notices =>
  notices.foldr hear <|
  .release presenceCb_ <|
  .release buddyList k

/-- The functions of `MpBuddyList` that only read under the lock: `getBuddy`,
`getBuddyUri` and `isUserOnline`. -/
def readBuddyList (k : Prog) : Prog := .acquire buddyList .mutex <| .release buddyList k

def addPresenceCb (presCb : MpIPresence) (k : Prog) : Prog :=
  .acquire presenceCb_ .write <|
  update (.withBuddies fun l => Buddy.Presence.addPresenceCb l presCb) <|
  .release presenceCb_ k

def rmPresenceCb (presCb : MpIPresence) (k : Prog) : Prog :=
  .acquire presenceCb_ .write <|
  update (.withBuddies fun l => Buddy.Presence.rmPresenceCb l presCb) <|
  .release presenceCb_ k

/-! ## Account, messages and calls -/

/-- The pools whose callbacks are the application's. -/
inductive CbPool where
  | msgCb_
  | invCb_
  | callCb_
  | regCb_

def CbPool.lock : CbPool → Lock
  | .msgCb_ => Lock.msgCb_
  | .invCb_ => Lock.invCb_
  | .callCb_ => Lock.callCb_
  | .regCb_ => Lock.regCb_

/-- `addPoolData` and `rmPoolData`. -/
def modifyPool (pool : CbPool) (k : Prog) : Prog :=
  .acquire pool.lock .write <| .release pool.lock k

/-- The callbacks are called. -/
def usePool (pool : CbPool) (k : Prog) : Prog :=
  .acquire pool.lock .read <| .release pool.lock k

/-- `MpUserAccount::logout`, with `registration_state`. -/
def logout (k : Prog) : Prog := stopSIPStack <| usePool .regCb_ k

/-- `MpUserAccount::rmRegCallback`: nothing releases the lock of the account, and
without a callback nothing else happens. -/
def rmRegCallback (null : Bool) (k : Prog) : Prog :=
  .acquire userAccount .mutex <| if null then k else modifyPool .regCb_ k

/-- `MpMsgManager::onMsgReceived`; `replies` are the messages that the key
exchange behind the callback hands to the engine. -/
def onMsgReceived (replies : List MpMsgPayload) (k : Prog) : Prog :=
  .acquire msgCb_ .read <|
  replies.foldr addMessage <|
  .release msgCb_ k

/-- `MpCallManager::onCallState` and `onIncomingCall`; `answers` is how many times the
callbacks answer or end the call. -/
def onCall (rejects : Bool) (answers : Nat) (k : Prog) : Prog :=
  if rejects then callPjsua k
  else
    .acquire callCb_ .read <|
    callPjsua^[answers] <|
    .release callCb_ k

/-! ## Programs -/

inductive Call where
  | addMessage (message : MpMsgPayload)
  | syncWithDBConnectors (contents : List (List MpMsgPayload))
  | addDBConnector (dbConn : mp_msg_type_t)
  | isMessageProcessing (serial : MpString) (uid : Int)
  | removeMessagesForSerial (serial : MpString)
  | setAutoResendEnabled (autoResendEnabled : Bool)
  | resendMessage (serial : MpString) (msgId : Int)
  | buddy_state2 (serial : MpString) (state : mp_buddy_online_status_t)
  | on_pager_status (call code : Nat)
  | onMsgReceived (replies : List MpMsgPayload)
  | addBuddy (buddy : MpBuddy)
  | rmBuddy (serial : MpString)
  | buddy_state (buddy_id : pjsua_buddy_id) (status : pjsua_buddy_status)
  | readBuddyList
  | addPresenceCb (presCb : MpIPresence)
  | rmPresenceCb (presCb : MpIPresence)
  | login (networkState : mp_network_state_t)
  | logout
  | callPjsua
  | callBuddy
  | onCall (rejects : Bool) (answers : Nat)
  | modifyPool (pool : CbPool)
  | registration_state
  | rmRegCallback (null : Bool)

def Call.code : Call → Prog → Prog
  | .addMessage message => Calls.addMessage message
  | .syncWithDBConnectors contents => Calls.syncWithDBConnectors contents
  | .addDBConnector dbConn => Calls.addDBConnector dbConn
  | .isMessageProcessing serial uid => fun k => Calls.isMessageProcessing serial uid fun _ => k
  | .removeMessagesForSerial serial => Calls.removeMessagesForSerial serial
  | .setAutoResendEnabled autoResendEnabled => Calls.setAutoResendEnabled autoResendEnabled
  | .resendMessage serial msgId => Calls.resendMessage serial msgId
  | .buddy_state2 serial state => Calls.buddy_state2 serial state
  | .on_pager_status call code => Calls.on_pager_status call code
  | .onMsgReceived replies => Calls.onMsgReceived replies
  | .addBuddy buddy => Calls.addBuddy buddy
  | .rmBuddy serial => Calls.rmBuddy serial
  | .buddy_state buddy_id status => Calls.buddy_state buddy_id status
  | .readBuddyList => Calls.readBuddyList
  | .addPresenceCb presCb => Calls.addPresenceCb presCb
  | .rmPresenceCb presCb => Calls.rmPresenceCb presCb
  | .login networkState => startSIPStack networkState
  | .logout => Calls.logout
  | .callPjsua => Calls.callPjsua
  | .callBuddy => fun k => Calls.readBuddyList <| Calls.callPjsua k
  | .onCall rejects answers => Calls.onCall rejects answers
  | .modifyPool pool => Calls.modifyPool pool
  | .registration_state => usePool .regCb_
  | .rmRegCallback null => Calls.rmRegCallback null

/-- The calls that keep the order of the locks and leave none behind. -/
def Call.orderly : Call → Bool
  | .syncWithDBConnectors _ | .logout | .rmRegCallback _ => false
  | _ => true

/-- A thread makes these calls, one after the other. -/
def program (calls : List Call) : Prog := calls.foldr Call.code .done

end EndToEndSmkex.Threads.Calls
