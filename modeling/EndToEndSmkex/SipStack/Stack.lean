import EndToEndSmkex.AutoResend.Engine
import EndToEndSmkex.Lib.Actions

/-!
# The SIP stack and the buddy list

`MpSIPStack` drives one pjsua instance, and `MpBuddyList` keeps the buddies
whose presence is subscribed there.  pjsua is seen from the calls made to it:
every call is an event with its answer, which the surroundings choose, and the
state of pjsua is what those calls have left.

Both objects are singletons and call each other, so they are one state here.
The locks are recursive.
-/

namespace EndToEndSmkex.SipStack.Stack

open EndToEndSmkex.Lib.CBuffer
open EndToEndSmkex.Lib.Actions
open EndToEndSmkex.Smkex.Record
open EndToEndSmkex.AutoResend.Engine (mp_status_t)
open EndToEndSmkex.AutoResend.Engine.mp_status_t

/-! ## pjsua -/

abbrev pjsua_buddy_id := Int

/-- A codec: one of those `pjsua_enum_codecs` has listed, or one by its name. -/
inductive CodecId where
  | enumerated (i : Nat)
  | named (codec : String)
  deriving DecidableEq

/-- The functions of pjsua that change something, or that may fail.
`buddy_add` is listed with the id it gives. -/
inductive PjsuaCall where
  | create
  | init
  | transport_create
  | start
  | destroy
  | destroy2
  | acc_add
  | acc_set_online_status
  | enum_codecs
  | codec_set_priority (codec : CodecId) (priority : Nat)
  | buddy_add (buddy_id : pjsua_buddy_id)
  | buddy_del (buddy_id : pjsua_buddy_id)
  deriving DecidableEq

/-- Whether an instance has been created and not destroyed since, and the
buddies whose presence is subscribed. -/
structure Pjsua where
  undestroyed : Bool
  buddies : List pjsua_buddy_id
  deriving DecidableEq

/-- What a call that was answered with `PJ_SUCCESS` leaves.  A call that failed
has changed nothing. -/
def Pjsua.after (p : Pjsua) : PjsuaCall × Bool → Pjsua
  | (.create, true) => { p with undestroyed := true }
  | (.destroy, true) => ⟨false, []⟩
  | (.destroy2, true) => ⟨false, []⟩
  | (.buddy_add id, true) => { p with buddies := id :: p.buddies }
  | (.buddy_del id, true) => { p with buddies := p.buddies.filter (· ≠ id) }
  | _ => p

/-- What is chosen by the surroundings while one function runs: the answer of
each call, how many codecs there are, and the id of a new buddy. -/
structure Answers where
  succeeds : PjsuaCall → Bool
  codecs : Nat
  buddy_id : pjsua_buddy_id

/-- Functions of the two classes. -/
abbrev Action := Act (PjsuaCall × Bool)

/-- Call pjsua: the value is whether the answer is `PJ_SUCCESS`. -/
def call (ans : Answers) (c : PjsuaCall) : Action Bool := do
  tell (c, ans.succeeds c)
  return ans.succeeds c

theorem run_call (ans : Answers) (c : PjsuaCall) :
    (call ans c).run = some (ans.succeeds c, [(c, ans.succeeds c)]) := rfl

/-! ## The two objects -/

inductive mp_buddy_online_status_t where
  | MP_BUDDY_ONLINE
  | MP_BUDDY_OFFLINE
  deriving DecidableEq

structure MpBuddy where
  serial_ : MpString
  state_ : mp_buddy_online_status_t
  pjsuaId_ : pjsua_buddy_id
  deriving DecidableEq

def MpBuddy.new (serial : MpString) : MpBuddy := ⟨serial, .MP_BUDDY_OFFLINE, -1⟩

/-- `MpSIPStack::started_`, and the map of `MpBuddyList`. -/
structure MpService where
  started_ : Bool
  buddyList_ : MpString → Option MpBuddy

/-- The constructors. -/
def MpService.new : MpService := ⟨false, fun _ => none⟩

inductive mp_network_state_t where
  | MP_NETWORK_UNREACHABLE
  | MP_NETWORK_WIFI
  | MP_NETWORK_GPRS
  | MP_NETWORK_EDGE
  | MP_NETWORK_WCDMA
  | MP_NETWORK_LTE
  | MP_NETWORK_OTHER
  deriving DecidableEq

/-! ## Starting and stopping -/

section Functions

variable (ans : Answers)

/-- Set the priority of the listed codecs to 0, until that fails. -/
def resetPriorities : List Nat → Action Bool
  | [] => return true
  | i :: is => do
      if ← call ans (.codec_set_priority (.enumerated i) 0) then resetPriorities is
      else return false

/-- `setCodecsPriorities`. -/
def setCodecsPriorities (networkState : mp_network_state_t) : Action Bool := do
  if !(← call ans .enum_codecs) then return false
  if !(← resetPriorities ans (List.range ans.codecs)) then return false
  match networkState with
  | .MP_NETWORK_UNREACHABLE => return true
  -- narrow band
  | .MP_NETWORK_GPRS | .MP_NETWORK_EDGE | .MP_NETWORK_WCDMA =>
      call ans (.codec_set_priority (.named "iLBC/8000/1") 255)
  -- wide band
  | .MP_NETWORK_WIFI | .MP_NETWORK_LTE | .MP_NETWORK_OTHER => do
      if !(← call ans (.codec_set_priority (.named "PCMU/8000/1") 255)) then return false
      call ans (.codec_set_priority (.named "iLBC/8000/1") 128)

/-- `MpBuddyList::reset`. -/
def reset (s : MpService) : MpService := { s with buddyList_ := fun _ => none }

/-- `stopSIPStack`. -/
def stopSIPStack (s : MpService) : Action (MpService × mp_status_t) :=
  if s.started_ = false then return (s, MP_SUCCESS)
  else do
    let s := reset s
    if !(← call ans .destroy2) then return (s, MP_SIP_DESTROY_ERR)
    return ({ s with started_ := false }, MP_SUCCESS)

/-- `startSIPStack`. -/
def startSIPStack (networkState : mp_network_state_t) (s : MpService) :
    Action (MpService × mp_status_t) :=
  if s.started_ = true then return (s, MP_SUCCESS)
  else do
    -- for safety, if it was partially started
    let (s, status) ← stopSIPStack ans s
    if status ≠ MP_SUCCESS then return (s, status)
    if !(← call ans .create) then return (s, MP_SIP_INIT_ERR)
    if !(← call ans .init) then return (s, MP_SIP_INIT_ERR)
    if !(← call ans .transport_create) then return (s, MP_SIP_INIT_ERR)
    if !(← call ans .start) then
      let _ ← call ans .destroy
      return (s, MP_SIP_INIT_ERR)
    if !(← call ans .acc_add) then return (s, MP_SIP_INIT_ERR)
    if !(← call ans .acc_set_online_status) then return (s, MP_SIP_INIT_ERR)
    if !(← setCodecsPriorities ans networkState) then return (s, MP_SIP_INIT_ERR)
    return ({ s with started_ := true }, MP_SUCCESS)

/-! ## Presence -/

/-- `subscribe` writes the id into the buddy. -/
def subscribe (s : MpService) (buddy : MpBuddy) : Action (MpBuddy × mp_status_t) :=
  if !s.started_ then return (buddy, MP_GENERAL_ERR)
  -- without a serial `getBuddyUri` makes a string of a null pointer
  else if buddy.serial_.takeWhile (· ≠ 0) = [] then exit
  else do
    if ← call ans (.buddy_add ans.buddy_id) then
      return ({ buddy with pjsuaId_ := ans.buddy_id }, MP_SUCCESS)
    else return (buddy, MP_GENERAL_ERR)

def unsubscribe (s : MpService) (buddy_id : pjsua_buddy_id) : Action mp_status_t :=
  if !s.started_ then return MP_GENERAL_ERR
  else do
    if ← call ans (.buddy_del buddy_id) then return MP_SUCCESS
    else return MP_GENERAL_ERR

/-- `subscribe` fails and leaves pjsua alone, or it adds a subscription. -/
theorem run_subscribe {s : MpService} {buddy buddy' : MpBuddy} {status : mp_status_t}
    {log : List (PjsuaCall × Bool)}
    (h : (subscribe ans s buddy).run = some ((buddy', status), log)) (p : Pjsua) :
    (¬ (s.started_ = true ∧ ans.succeeds (.buddy_add ans.buddy_id) = true) ∧
        status = MP_GENERAL_ERR ∧ log.foldl Pjsua.after p = p) ∨
      ((s.started_ = true ∧ ans.succeeds (.buddy_add ans.buddy_id) = true) ∧
        status = MP_SUCCESS ∧ buddy' = { buddy with pjsuaId_ := ans.buddy_id } ∧
          log.foldl Pjsua.after p = { p with buddies := ans.buddy_id :: p.buddies }) := by
  unfold subscribe at h
  cases hstarted : s.started_ with
  | false =>
      rw [hstarted, if_pos (by decide)] at h
      cases h
      exact Or.inl ⟨nofun, rfl, rfl⟩
  | true =>
      rw [hstarted, if_neg (by decide)] at h
      split at h
      · cases h
      · rw [run_bind, run_call, Option.bind_some] at h
        cases hok : ans.succeeds (.buddy_add ans.buddy_id) with
        | false =>
            rw [hok, if_neg Bool.false_ne_true] at h
            cases h
            exact Or.inl ⟨nofun, rfl, rfl⟩
        | true =>
            rw [hok, if_pos rfl] at h
            cases h
            exact Or.inr ⟨⟨rfl, rfl⟩, rfl, rfl, rfl⟩

/-- `unsubscribe` fails and leaves pjsua alone, or it ends a subscription. -/
theorem run_unsubscribe {s : MpService} {buddy_id : pjsua_buddy_id} {status : mp_status_t}
    {log : List (PjsuaCall × Bool)}
    (h : (unsubscribe ans s buddy_id).run = some (status, log)) (p : Pjsua) :
    (status = MP_GENERAL_ERR ∧ log.foldl Pjsua.after p = p) ∨
      (status = MP_SUCCESS ∧
        log.foldl Pjsua.after p = { p with buddies := p.buddies.filter (· ≠ buddy_id) }) := by
  unfold unsubscribe at h
  cases hstarted : s.started_ with
  | false =>
      rw [hstarted, if_pos (by decide)] at h
      cases h
      exact Or.inl ⟨rfl, rfl⟩
  | true =>
      rw [hstarted, if_neg (by decide), run_bind, run_call, Option.bind_some] at h
      cases hok : ans.succeeds (.buddy_del buddy_id) with
      | false =>
          rw [hok, if_neg Bool.false_ne_true] at h
          cases h
          exact Or.inl ⟨rfl, rfl⟩
      | true =>
          rw [hok, if_pos rfl] at h
          cases h
          exact Or.inr ⟨rfl, rfl⟩

end Functions

end EndToEndSmkex.SipStack.Stack
