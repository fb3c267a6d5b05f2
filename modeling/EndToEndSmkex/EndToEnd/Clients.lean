import EndToEndSmkex.AutoResend.Supply
import EndToEndSmkex.DataMsg.Receiving
import EndToEndSmkex.Smkex.Isolation

/-!
# Any number of complete clients

Every user runs the whole program: `Smkex` builds records and hands them to the
engine, the engine hands them to the transport, the transport to the SIP stack.
At the other end `on_pager` takes the serial out of the From header, and the
message manager calls the callbacks, `Smkex` among them.

What the SIP network does in between is left open, except for two things: it
delivers what has been sent, to the user it was sent to, and the From header
has the URI of the user who sent it.  A message may be delivered late, twice or
never.

The process of a client may end in any call of `Smkex`.  What it has sent by
then is still on its way.  A copy that leaves its buffer may change anything
(`worldStep`).  A call of the stack for the empty serial does not return
(`SipSend.Throws`); the runs are about calls that do.

## Main results

* `call_cases` — what a call of `Smkex` stores and hands to the engine.
* `run_on_pager_framed` — a message is filed under the serial of its sender.
-/

namespace EndToEndSmkex.EndToEnd.Clients

open EndToEndSmkex.Lib.CBuffer
open EndToEndSmkex.Lib.Loads hiding run_bind run_pure
open EndToEndSmkex.Lib.Actions
open EndToEndSmkex.Lib.Run
open EndToEndSmkex.Lib.Undefined
open EndToEndSmkex.Smkex.Record
open EndToEndSmkex.Smkex.SessionInfo
open EndToEndSmkex.Smkex.Keychain (SmkexKeychain store)
open EndToEndSmkex.Smkex.Isolation hiding Client Client.step sampleCalls sampleMessage
open EndToEndSmkex.AutoResend.MsgPayload
open EndToEndSmkex.AutoResend.Engine (mp_status_t)
open EndToEndSmkex.AutoResend.Composition (System Input)
open EndToEndSmkex.AutoResend.Supply
open EndToEndSmkex.DataMsg.MsgTransport (SipSend sipSend)
open EndToEndSmkex.DataMsg.Receiving
open EndToEndSmkex.Utils.Uri

variable {K : Type}

/-! ## One client -/

/-- A serial that can stand in a URI. -/
abbrev User := { serial : MpString // serial ≠ [] ∧ 0 ∉ serial }

/-- What stays fixed: OpenSSL, the key pair a user draws for each buddy, the
address of the `Smkex` object, and the SIP server of the accounts. -/
structure Setup (K : Type) where
  ssl : OpenSSL K
  key : User → MpString → K
  smkex : MpIMsg
  address : MpString
  port : UInt32
  noAt : 64 ∉ address

/-- The surroundings of a call at `x` about this buddy. -/
def Setup.env (o : Setup K) (x : User) (buddy : MpString) (env : Env K) : Env K :=
  { env with fresh := { env.fresh with ec_key := o.key x buddy } }

/-- The keychain of `Smkex`, `none` once the process has ended, the callbacks
of the message manager, and the way of a message to the SIP stack. -/
structure Client (K : Type) where
  keychain : Option (SmkexKeychain K)
  msgCb : List MpIMsg
  system : System

/-- What engine and stack are answered while one message is added. -/
structure Reply where
  answers : AutoResend.Engine.Answers
  sendMsg : Option Bool

/-- `sendKeyOrNonce`: every message has the UID 1 and five tries. -/
def sendKeyOrNonce (s : System) (payload : Bytes) (buddy : MpString) (reply : Reply) :
    Option System :=
  s.step
    { event := .addMessage (MpMsgPayload.new buddy payload 1 5 .MP_TYPE_MESSAGE false s.added)
      answers := reply.answers
      sendMsg := reply.sendMsg }

/-- Everything a handler sends, in order. -/
def sendAll : System → List Event → List Reply → Option System
  | s, [], [] => some s
  | s, .copy _ :: log, replies => sendAll s log replies
  | s, .sendKeyOrNonce payload buddy _ :: log, reply :: replies =>
      (sendKeyOrNonce s payload buddy reply).bind fun s => sendAll s log replies
  | _, _, _ => none

/-- A call of an entry point of `Smkex`.  Nothing happens in a process that has
ended. -/
def Client.call (ssl : OpenSSL K) (c : Client K) (e : Call K) (replies : List Reply) :
    Option (Client K) :=
  match c.keychain with
  | none => some c
  | some keychain =>
    match (handle ssl keychain e).run with
    | none => some { c with keychain := none }
    | some ((keychain', _), log) =>
      (sendAll c.system log replies).map fun system =>
        { c with keychain := some keychain', system }

/-- What surrounds one callback of the message manager. -/
structure Reception (K : Type) where
  env : Env K
  behind : Memory
  replies : List Reply

/-- The call of `Smkex` that a callback is. -/
def smkexCall (o : Setup K) (x : User) (p : Delivery × Reception K) : Call K :=
  .onMsgReceived (o.env x p.1.serial p.2.env) p.1.serial (ofBytes p.1.msg p.2.behind)
    (UInt32.ofNat p.1.msg.length)

/-- One callback.  The others belong to the application. -/
def Client.receive (o : Setup K) (x : User) (c : Client K) (p : Delivery × Reception K) :
    Option (Client K) :=
  if p.1.cb = o.smkex then c.call o.ssl (smkexCall o x p) p.2.replies else some c

/-- `on_pager` and all callbacks. -/
def Client.on_pager (o : Setup K) (x : User) (c : Client K) (sender : MpString) (body : Bytes)
    (receptions : List (Reception K)) : Option (Client K) :=
  match (DataMsg.Receiving.on_pager c.msgCb sender body).run with
  | none => some { c with keychain := none }
  | some (deliveries, _) =>
    if deliveries.length = receptions.length then
      exec (Client.receive o x) c (deliveries.zip receptions)
    else none

/-- `addMsgCb`. -/
def addMsgCb (msgCb : List MpIMsg) (mcb : MpIMsg) : List MpIMsg × mp_status_t :=
  if mcb = 0 then (msgCb, .MP_GENERAL_ERR) else (msgCb ++ [mcb], .MP_SUCCESS)

/-- `rmMsgCb`: one registration goes, the first one. -/
def rmMsgCb (msgCb : List MpIMsg) (mcb : MpIMsg) : List MpIMsg × mp_status_t :=
  if mcb = 0 then (msgCb, .MP_GENERAL_ERR) else (msgCb.erase mcb, .MP_SUCCESS)

/-! ## All clients and the network -/

/-- `wire` are the calls of `sendMsg` that a user's stack has ever accepted. -/
structure World (K : Type) where
  client : User → Client K
  wire : User → List SipSend

/-- The text around the URI in a From header: a display name without a URI of its
own, brackets, parameters. -/
def Surrounds (pre post : Bytes) : Prop :=
  (¬ MP_SIP_SCHEMA <:+: pre ∧ 0 ∉ pre) ∧ 64 ∉ post ∧ 0 ∉ post

instance (pre post : Bytes) : Decidable (Surrounds pre post) :=
  inferInstanceAs (Decidable (_ ∧ _))

inductive WorldEvent (K : Type) where
  | initSession (x : User) (buddy : MpString) (env : Env K) (replies : List Reply)
  | on_pager (x y : User) (m : SipSend) (pre post : Bytes) (receptions : List (Reception K))
  | service (x : User) (i : Input)
  | addMsgCb (x : User) (mcb : MpIMsg)
  | rmMsgCb (x : User) (mcb : MpIMsg)

/-- The URI of a user. -/
def Setup.uri (o : Setup K) (x : User) : Option MpString :=
  value (getUriFromSerial (some (c_str x.1)) (c_str o.address) o.port)

/-- The client of `x` has changed; of its outstanding calls the first `kept` are
not new. -/
def World.put (w : World K) (x : User) (c : Client K) (kept : Nat) : World K :=
  { client := Function.update w.client x c
    wire := Function.update w.wire x (w.wire x ++ c.system.outstanding.drop kept) }

/-- The calls without a status that are left when an event has arrived. -/
def remaining (s : System) : AutoResend.Composition.Event → Nat
  | .on_pager_status _ _ => s.outstanding.length - 1
  | _ => s.outstanding.length

/-- One event. -/
def World.step (o : Setup K) (w : World K) : WorldEvent K → Option (World K)
  | .initSession x buddy env replies =>
      let c := w.client x
      (c.call o.ssl (.initSession (o.env x buddy env) buddy) replies).map fun c' =>
        w.put x c' c.system.outstanding.length
  | .on_pager x y m pre post receptions =>
      let c := w.client x
      (o.uri y).bind fun uri =>
        if m ∈ w.wire y ∧ m.serial = x.1 ∧ Surrounds pre post then
          (c.on_pager o x (pre ++ uri ++ post) m.msg receptions).map fun c' =>
            w.put x c' c.system.outstanding.length
        else none
  | .service x i =>
      let c := w.client x
      if c.keychain.isSome then
        (c.system.step i).map fun system =>
          w.put x { c with system } (remaining c.system i.event)
      else none
  | .addMsgCb x mcb =>
      let c := w.client x
      some (w.put x { c with msgCb := (Clients.addMsgCb c.msgCb mcb).1 }
        c.system.outstanding.length)
  | .rmMsgCb x mcb =>
      let c := w.client x
      some (w.put x { c with msgCb := (Clients.rmMsgCb c.msgCb mcb).1 }
        c.system.outstanding.length)

/-! ## Copies that stay -/

/-- The copies a call of `Smkex` makes stay in their buffers. -/
def Client.Stays (c : Client K) (e : Call K) : Prop :=
  match c.keychain with
  | none => True
  | some keychain => CallStays keychain e

instance (c : Client K) (e : Call K) : Decidable (c.Stays e) :=
  match h : c.keychain with
  | none => isTrue (by simp only [Client.Stays, h])
  | some keychain => decidable_of_iff (CallStays keychain e) (by simp only [Client.Stays, h])

/-- Those of a callback do. -/
def Client.ReceptionStays (o : Setup K) (x : User) (c : Client K) (p : Delivery × Reception K) :
    Prop :=
  p.1.cb = o.smkex → c.Stays (smkexCall o x p)

instance (o : Setup K) (x : User) (c : Client K) (p : Delivery × Reception K) :
    Decidable (c.ReceptionStays o x p) :=
  inferInstanceAs (Decidable (_ → _))

/-- Those of all callbacks do. -/
def Client.PagerStays (o : Setup K) (x : User) (c : Client K) (sender : MpString) (body : Bytes)
    (receptions : List (Reception K)) : Prop :=
  match (DataMsg.Receiving.on_pager c.msgCb sender body).run with
  | none => True
  | some (deliveries, _) =>
    Steps (Client.receive o x) (fun c p _ => c.ReceptionStays o x p) c
      (deliveries.zip receptions)

instance (o : Setup K) (x : User) (c : Client K) (sender : MpString) (body : Bytes)
    (receptions : List (Reception K)) : Decidable (c.PagerStays o x sender body receptions) :=
  match h : (DataMsg.Receiving.on_pager c.msgCb sender body).run with
  | none => isTrue (by simp only [Client.PagerStays, h])
  | some (deliveries, _) =>
    decidable_of_iff
      (Steps (Client.receive o x) (fun c p _ => c.ReceptionStays o x p) c
        (deliveries.zip receptions))
      (by simp only [Client.PagerStays, h])

/-- The copies that `Smkex` makes while an event is handled stay in their buffers.
Starting a handshake makes none. -/
def World.Stays (o : Setup K) (w : World K) : WorldEvent K → Prop
  | .on_pager x y m pre post receptions =>
      ∀ uri ∈ o.uri y, (w.client x).PagerStays o x (pre ++ uri ++ post) m.msg receptions
  | _ => True

instance (o : Setup K) (w : World K) : (e : WorldEvent K) → Decidable (w.Stays o e)
  | .on_pager x y m pre post receptions =>
      inferInstanceAs (Decidable (∀ uri ∈ o.uri y,
        (w.client x).PagerStays o x (pre ++ uri ++ post) m.msg receptions))
  | .initSession _ _ _ _ | .service _ _ | .addMsgCb _ _ | .rmMsgCb _ _ => isTrue trivial

/-- One event.  Nothing is known of what follows a copy that leaves its buffer. -/
abbrev worldStep (o : Setup K) : World K → WorldEvent K × Option (World K) → Option (World K) :=
  havoc (World.Stays o) (World.step o)

/-! ## Before the first event -/

/-- Every client runs, its sessions are as their constructors left them, and
nothing has been sent. -/
structure World.Initial (o : Setup K) (w : World K) : Prop where
  running : ∀ x, ∃ keychain, (w.client x).keychain = some keychain ∧
    ∀ buddy s, keychain buddy = some s → 0 ∉ buddy ∧
      ∃ c : CtorInput K, c.ec_key = o.key x buddy ∧ s = SmkexSessionInfo.new c
  systems : ∀ x, ∃ dbConnectors, (w.client x).system = System.new dbConnectors
  silent : ∀ x, w.wire x = []

theorem World.Initial.fresh {o : Setup K} {w : World K} (h : w.Initial o) {x : User}
    {keychain : SmkexKeychain K} (hk : (w.client x).keychain = some keychain)
    {buddy : MpString} {s : SmkexSessionInfo K} (hs : keychain buddy = some s) :
    0 ∉ buddy ∧ ∃ c : CtorInput K, c.ec_key = o.key x buddy ∧ s = SmkexSessionInfo.new c := by
  obtain ⟨keychain', hk', hfresh⟩ := h.running x
  rw [hk, Option.some.injEq] at hk'
  rw [hk'] at hs
  exact hfresh buddy s hs

/-! ## What a call hands to the engine -/

/-- A record for this buddy is sent, or something is copied. -/
def Framed (buddy : MpString) : Event → Prop
  | .sendKeyOrNonce payload b _ => b = buddy ∧ ∃ r, payload = SerializeSmkexT4mRecord r
  | .copy _ => True

theorem permits_framed (buddy : MpString) : Permits buddy (Framed buddy) :=
  ⟨fun _ => trivial, fun r _ => ⟨rfl, r, rfl⟩⟩

/-- Everything an entry point sends is a record for the buddy of the call. -/
theorem emits_framed (ssl : OpenSSL K) (keychain : SmkexKeychain K) (e : Call K) :
    Emits (Framed e.buddy) (handle ssl keychain e) := by
  cases e with
  | initSession env buddy =>
      show Emits (Framed buddy) (Smkex.Keychain.initSession ssl env keychain buddy)
      unfold Smkex.Keychain.initSession
      split
      · -- the first branch does not get to the bare nonce
        intro x log h
        cases h
      · exact (emits_restartSession ssl env (permits_framed buddy) _).bind fun _ => emits_pure _
  | onMsgReceived env buddy msg msgLen =>
      exact (emits_showRecord _).bind fun _ =>
        (emits_receive ssl env (permits_framed buddy) _ _).bind fun _ => emits_pure _

/-- The record of such a message is one of the records sent. -/
theorem mem_sentRecords {log : List Event} {r : SmkexT4mRecord} {buddy : MpString} {chan : Nat}
    (h : .sendKeyOrNonce (SerializeSmkexT4mRecord r) buddy chan ∈ log) :
    r ∈ sentRecords log :=
  List.mem_filterMap.2 ⟨_, h, Smkex.Framing.recordOf_serialize r⟩

section Calls

variable {P : SipSend → Prop} {s s' : System}

/-- One message more. -/
theorem supplied_sendKeyOrNonce {payload : Bytes} {buddy : MpString} {reply : Reply}
    (hs : Supplied P s)
    (hP : ∀ tag, P ⟨(c_str buddy).bytes, setPayload .MP_TYPE_MESSAGE payload, tag⟩)
    (h : sendKeyOrNonce s payload buddy reply = some s') : Supplied P s' := by
  refine hs.step h ?_
  intro m hm
  rw [newMessages, List.mem_singleton] at hm
  rw [hm]
  exact hP _

theorem supplied_sendAll :
    ∀ {log : List Event} {replies : List Reply} {s : System}, Supplied P s →
      (∀ payload buddy chan, .sendKeyOrNonce payload buddy chan ∈ log →
        ∀ tag, P ⟨(c_str buddy).bytes, setPayload .MP_TYPE_MESSAGE payload, tag⟩) →
      sendAll s log replies = some s' → Supplied P s' := by
  intro log
  induction log with
  | nil =>
      intro replies s hs _ h
      cases replies with
      | nil =>
          cases h
          exact hs
      | cons reply replies => cases h
  | cons event log ih =>
      intro replies s hs hP h
      cases event with
      | copy c =>
          rw [sendAll] at h
          exact ih hs (fun payload buddy chan hmem => hP payload buddy chan (by simp [hmem])) h
      | sendKeyOrNonce payload buddy chan =>
          cases replies with
          | nil => cases h
          | cons reply replies =>
              rw [sendAll, Option.bind_eq_some_iff] at h
              obtain ⟨s₁, hs₁, hrest⟩ := h
              exact ih (supplied_sendKeyOrNonce hs (hP payload buddy chan (by simp)) hs₁)
                (fun payload buddy chan hmem => hP payload buddy chan (by simp [hmem])) hrest

/-- What a call does to a client whose process has not ended.  Of the keychain
only the session of the buddy matters. -/
inductive Called (ssl : OpenSSL K) (c : Client K) (keychain : SmkexKeychain K) (e : Call K)
    (c' : Client K) : Prop
  | ended (run : (handle ssl keychain e).run = none) (state : c' = { c with keychain := none })
  | returned (session : SmkexSessionInfo K) (n : Int) (log : List Event) (system : System)
      (run : ∀ k, k e.buddy = keychain e.buddy →
        (handle ssl k e).run = some ((store k e.buddy session, n), log))
      (sent : ∀ {P : SipSend → Prop}, Supplied P c.system →
        (∀ r ∈ sentRecords log, ∀ tag,
          P ⟨(c_str e.buddy).bytes, setPayload .MP_TYPE_MESSAGE (SerializeSmkexT4mRecord r),
            tag⟩) →
        Supplied P system)
      (state : c' = { c with keychain := some (store keychain e.buddy session), system })

/-- **A call of `Smkex`** ends the process, or it stores a session and sends
records to the buddy it is about. -/
theorem call_cases {ssl : OpenSSL K} {c c' : Client K} {keychain : SmkexKeychain K} {e : Call K}
    {replies : List Reply} (hc : c.keychain = some keychain)
    (h : c.call ssl e replies = some c') : Called ssl c keychain e c' := by
  unfold Client.call at h
  rw [hc] at h
  dsimp only at h
  cases hrun : (handle ssl keychain e).run with
  | none =>
      rw [hrun] at h
      cases h
      exact .ended hrun rfl
  | some p =>
      obtain ⟨⟨keychain', n⟩, log⟩ := p
      rw [hrun] at h
      obtain ⟨system, hsystem, rfl⟩ := Option.map_eq_some_iff.1 h
      obtain ⟨session, rfl, hsame⟩ := call_run ssl hrun
      refine .returned session n log system hsame ?_ rfl
      intro P hs hP
      refine supplied_sendAll hs ?_ hsystem
      intro payload buddy chan hmem tag
      obtain ⟨rfl, r, rfl⟩ := emits_framed ssl keychain e _ log hrun _ hmem
      exact hP r (mem_sentRecords hmem) tag

end Calls

/-! ## What the callbacks get -/

/-- **A message is filed under the serial of the user who sent it**, whatever
stands around the URI. -/
theorem run_on_pager_framed (o : Setup K) {y : User} {uri : MpString} (huri : o.uri y = some uri)
    {pre post : Bytes} (h : Surrounds pre post) (msgCb : List MpIMsg) (body : Bytes) :
    (DataMsg.Receiving.on_pager msgCb (pre ++ uri ++ post) body).run =
      some (msgCb.map fun cb => ⟨cb, y.1, body⟩, []) := by
  have hbytes : (c_str y.1).bytes = y.1 := c_str_of_noZero y.2.2
  have hne : (c_str y.1).bytes ≠ [] := by
    rw [hbytes]
    exact y.2.1
  have hrun := @run_getUriFromSerial (c_str o.address) (c_str y.1) o.port hne
  rw [hbytes] at hrun
  rw [Setup.uri, value, hrun, Option.map_some, Option.some.injEq] at huri
  rw [← huri]
  exact run_on_pager (read_back y.2.2 o.noAt h.1.1 h.1.2 h.2.1 h.2.2)

end EndToEndSmkex.EndToEnd.Clients
