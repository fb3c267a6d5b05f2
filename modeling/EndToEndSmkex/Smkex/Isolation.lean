import EndToEndSmkex.Lib.Unwinding
import EndToEndSmkex.Smkex.Overruns
import EndToEndSmkex.Smkex.Surroundings

/-!
# The sessions of different buddies

The client with everything it hands to the transport: calls of `initSession`
and of `onMsgReceived` for any buddy, with any message in memory, framed or
not.

Two runs are compared, one with all calls and one with those about one buddy.
The second one takes place at other times and in other memory, so each of its
calls has surroundings of its own.  A copy that leaves its buffer may overwrite
the session of anybody.

## Main results

* `emits_receive` — what is sent while a record is answered are records for the
  buddy the session is with.
* `call_run` — a call reads and writes the session of one buddy.
* `sessions_isolated` — what a buddy's session is and what is sent to them does
  not change when the events of all others are left out, as long as copies stay
  in their buffers and what is read behind them is the same.
* `memory_distinguishes` — it may change with what is read behind a buffer.
-/

namespace EndToEndSmkex.Smkex.Isolation

open EndToEndSmkex.Lib.CBuffer
open EndToEndSmkex.Lib.Loads hiding run_bind run_pure
open EndToEndSmkex.Lib.Actions
open EndToEndSmkex.Lib.Run
open EndToEndSmkex.Lib.Undefined
open EndToEndSmkex.Lib.Unwinding
open EndToEndSmkex.Smkex.Record
open EndToEndSmkex.Smkex.SessionInfo
open EndToEndSmkex.Smkex.Handshake
open EndToEndSmkex.Smkex.Keychain
open EndToEndSmkex.Smkex.Overruns
open EndToEndSmkex.Smkex.Surroundings

variable {K : Type}

/-! ## Everything that is sent goes to the buddy -/

/-- What is handed to the transport is addressed to this buddy. -/
def SentTo (buddy : MpString) : Event → Prop
  | .sendKeyOrNonce _ b _ => b = buddy
  | .copy _ => True

/-- A property that copies have, and records that are sent to this buddy. -/
structure Permits (buddy : MpString) (P : Event → Prop) : Prop where
  copy : ∀ c, P (.copy c)
  record : ∀ r chan, P (.sendKeyOrNonce (SerializeSmkexT4mRecord r) buddy chan)

theorem permits_sentTo (buddy : MpString) : Permits buddy (SentTo buddy) :=
  ⟨fun _ => trivial, fun _ _ => rfl⟩

section Handlers

variable (ssl : OpenSSL K) (env : Env K) {buddy : MpString} {P : Event → Prop}
  (hP : Permits buddy P) (s : SmkexSessionInfo K) (r : SmkexT4mRecord)

theorem emits_showRecord : Emits P (showRecord r) := by
  intro x log h
  obtain ⟨u, -, hu⟩ := Option.map_eq_some_iff.1 h
  cases hu
  simp

theorem emits_computeAndStoreSessionKey : Emits P (computeAndStoreSessionKey ssl env s) := by
  unfold computeAndStoreSessionKey
  dsimp only
  split
  · split
    · exact emits_pure _
    · exact emits_pure _
  · exact emits_exit

include hP

theorem emits_sendRecord (chan : Nat) : Emits P (sendRecord buddy r chan) :=
  emits_tell (hP.record r chan)

theorem emits_sendAlert : Emits P (sendAlert env buddy) :=
  (emits_showRecord _).bind fun _ => emits_sendRecord hP _ 1

theorem emits_sendNonceH : Emits P (sendNonceH ssl env buddy s) := by
  unfold sendNonceH
  dsimp only
  split
  · exact emits_pure false
  · split
    · exact emits_pure false
    · exact (emits_showRecord _).bind fun _ =>
        (emits_sendRecord hP _ 2).bind fun _ => emits_pure true

theorem emits_restartSession : Emits P (restartSession ssl env buddy s) := by
  unfold restartSession
  dsimp only
  split
  · exact (emits_showRecord _).bind fun _ => (emits_sendRecord hP _ 1).bind fun _ =>
      (emits_sendRecord hP _ 1).bind fun _ => emits_pure _
  · exact emits_pure _

theorem emits_concludeHandshake : Emits P (concludeHandshake ssl env buddy s) := by
  unfold concludeHandshake
  split
  · exact emits_pure _
  · exact (emits_sendAlert env hP).bind fun _ => emits_pure _

private theorem emits_store {c : Copy} {t : SmkexSessionInfo K} :
    Emits P (do tell (.copy c); return t) :=
  (emits_tell (hP.copy c)).bind fun _ => emits_pure t

private theorem emits_onHandshakeKey : Emits P (onHandshakeKey ssl env buddy s r) := by
  unfold onHandshakeKey
  cases s.status with
  | notConnected =>
      exact (emits_store hP).bind fun t =>
        (emits_computeAndStoreSessionKey ssl env t).bind fun _ =>
          (emits_showRecord _).bind fun _ =>
            (emits_sendRecord hP _ 1).bind fun _ => emits_pure _
  | waitKeyNonceHDest =>
      exact (emits_store hP).bind fun t =>
        (emits_computeAndStoreSessionKey ssl env t).bind fun _ => emits_pure _
  | waitKeyDest =>
      exact (emits_store hP).bind fun t =>
        (emits_computeAndStoreSessionKey ssl env t).bind fun t =>
          (emits_sendNonceH ssl env hP t).bind fun _ =>
            emits_concludeHandshake ssl env hP t
  | connected => exact emits_store hP
  | waitNonceHDest | waitNonceInit | waitKeyInit | waitNonce2HInit => exact emits_pure s

private theorem emits_onHandshakeNonce : Emits P (onHandshakeNonce ssl env buddy s r) := by
  unfold onHandshakeNonce
  cases s.status with
  | waitNonceInit =>
      exact (emits_store hP).bind fun t =>
        (emits_sendNonceH ssl env hP t).bind fun _ => emits_pure _
  | waitKeyNonceHDest =>
      exact (emits_store hP).bind fun t => (emits_store hP).bind fun _ => emits_pure _
  | connected => exact (emits_store hP).bind fun _ => emits_pure _
  | notConnected | waitNonceHDest | waitKeyDest | waitKeyInit | waitNonce2HInit =>
      exact (emits_sendAlert env hP).bind fun _ => emits_pure _

private theorem emits_onHandshakeNonceH : Emits P (onHandshakeNonceH ssl env buddy s r) := by
  refine (emits_store hP).bind fun t => ?_
  cases t.status with
  | waitKeyNonceHDest => exact emits_store hP
  | waitNonceHDest =>
      exact (emits_sendNonceH ssl env hP t).bind fun _ =>
        (emits_store hP).bind fun t => emits_concludeHandshake ssl env hP t
  | waitNonce2HInit =>
      exact (emits_store hP).bind fun t => (emits_store hP).bind fun t =>
        emits_concludeHandshake ssl env hP t
  | notConnected | waitKeyDest | waitNonceInit | waitKeyInit | connected =>
      exact emits_pure t

/-- **An answer consists of records for the buddy the session is with.** -/
theorem emits_receive : Emits P (receive ssl env buddy s r) := by
  refine (emits_showRecord r).bind fun _ => ?_
  cases r.type with
  | handshakeKey => exact emits_onHandshakeKey ssl env hP s r
  | handshakeNonce => exact emits_onHandshakeNonce ssl env hP s r
  | handshakeNonceH => exact emits_onHandshakeNonceH ssl env hP s r
  | handshakeH => exact emits_exit
  | alert =>
      show Emits P (onAlert ssl env buddy s)
      unfold onAlert
      dsimp only
      split
      · exact emits_restartSession ssl env hP _
      · exact emits_pure _
  | application_data | handshake | unassigned => exact emits_pure s

end Handlers

/-! ## The client -/

/-- A call of one of the two entry points.  `msg` is the memory from the start
of the message on, of which `msgLen` bytes were received. -/
inductive Call (K : Type) where
  | initSession (env : Env K) (buddy : MpString)
  | onMsgReceived (env : Env K) (buddy : MpString) (msg : Memory) (msgLen : UInt32)

def Call.buddy : Call K → MpString
  | .initSession _ buddy => buddy
  | .onMsgReceived _ buddy _ _ => buddy

/-- The keychain, and everything that was handed to the transport. -/
structure Client (K : Type) where
  smkexKeychain : SmkexKeychain K
  log : List Event

def handle (ssl : OpenSSL K) (keychain : SmkexKeychain K) :
    Call K → Action (SmkexKeychain K × Int)
  | .initSession env buddy => Keychain.initSession ssl env keychain buddy
  | .onMsgReceived env buddy msg msgLen =>
      Keychain.onMsgReceived ssl env keychain buddy msg msgLen

/-- One call; it cannot be taken where it ends the process. -/
def Client.step (ssl : OpenSSL K) (c : Client K) (e : Call K) : Option (Client K) :=
  (handle ssl c.smkexKeychain e).run.map fun p => ⟨p.1.1, c.log ++ p.2⟩

/-- What was handed to the transport for one buddy: payloads and channels, in
order. -/
def sentTo (buddy : MpString) (log : List Event) : List (Bytes × Nat) :=
  log.filterMap fun
    | .sendKeyOrNonce payload b chan => if b = buddy then some (payload, chan) else none
    | .copy _ => none

/-! ## One call -/

section Step

variable (ssl : OpenSSL K)

/-- Nothing is sent to anybody but the buddy of the call. -/
theorem emits_handle (keychain : SmkexKeychain K) (e : Call K) :
    Emits (SentTo e.buddy) (handle ssl keychain e) := by
  cases e with
  | initSession env buddy =>
      show Emits (SentTo buddy) (Keychain.initSession ssl env keychain buddy)
      unfold Keychain.initSession
      split
      · exact (emits_showRecord _).bind fun _ =>
          (emits_sendRecord (permits_sentTo buddy) _ 1).bind fun _ =>
            Emits.bind (emits_tell rfl) fun _ => emits_pure _
      · exact (emits_restartSession ssl env (permits_sentTo buddy) _).bind fun _ => emits_pure _
  | onMsgReceived env buddy msg msgLen =>
      exact (emits_showRecord _).bind fun _ =>
        (emits_receive ssl env (permits_sentTo buddy) _ _).bind fun _ => emits_pure _

/-- **A call reads and writes the session of one buddy**: what it stores, what
it returns and what it sends are the same in every keychain that has the same
session for this buddy. -/
theorem call_run {keychain keychain' : SmkexKeychain K} {e : Call K} {n : Int}
    {log : List Event} (h : (handle ssl keychain e).run = some ((keychain', n), log)) :
    ∃ s, keychain' = store keychain e.buddy s ∧
      ∀ k, k e.buddy = keychain e.buddy →
        (handle ssl k e).run = some ((store k e.buddy s, n), log) := by
  cases e with
  | initSession env buddy =>
      change (Keychain.initSession ssl env keychain buddy).run = _ at h
      cases hs : keychain buddy with
      | none =>
          -- the record of the first branch cannot be printed
          have heffect := effect_initSession_none ssl env keychain buddy hs
          rw [effect, h] at heffect
          cases heffect
      | some s =>
          unfold Keychain.initSession at h
          rw [getSessionInfo_eq, hs] at h
          obtain ⟨t, l₁, l₂, hrestart, hstore, rfl⟩ := run_bind_eq_some.1 h
          cases hstore
          refine ⟨t, rfl, ?_⟩
          intro k hk
          show (Keychain.initSession ssl env k buddy).run = _
          unfold Keychain.initSession
          rw [getSessionInfo_eq, show k buddy = some s from hk.trans hs]
          exact run_bind_eq_some.2 ⟨t, l₁, [], hrestart, rfl, rfl⟩
  | onMsgReceived env buddy msg msgLen =>
      obtain ⟨_, l₁, l₂, hshow, hprocess, rfl⟩ := run_bind_eq_some.1 h
      obtain ⟨t, l₂, _, hreceive, hstore, rfl⟩ := run_bind_eq_some.1 hprocess
      cases hstore
      refine ⟨t, rfl, ?_⟩
      intro k hk
      have hsession : sessionFor env k buddy = sessionFor env keychain buddy := by
        unfold sessionFor
        rw [getSessionInfo_eq, getSessionInfo_eq, show k buddy = keychain buddy from hk]
      refine run_bind_eq_some.2 ⟨_, l₁, l₂ ++ [], hshow, ?_, rfl⟩
      refine run_bind_eq_some.2 ⟨t, l₂, [], ?_, rfl, rfl⟩
      rw [hsession]
      exact hreceive

/-- What is addressed to others does not count. -/
theorem sentTo_of_emits {buddy x : MpString} {log : List Event} (hx : buddy ≠ x)
    (h : ∀ e ∈ log, SentTo buddy e) : sentTo x log = [] := by
  rw [sentTo, List.filterMap_eq_nil_iff]
  intro e he
  cases e with
  | sendKeyOrNonce payload b chan =>
      have hb : b = buddy := h _ he
      simp [hb, hx]
  | copy c => rfl

end Step

/-! ## Copies that stay -/

/-- The record that the copy of a message is taken for. -/
def recordIn (env : Env K) (msg : Memory) (msgLen : UInt32) : SmkexT4mRecord :=
  (getRecordFromSerial.run (shift (msgCpy env msg msgLen) 1)).1

/-- The copies a call makes stay in their buffers. -/
def CallStays (keychain : SmkexKeychain K) : Call K → Prop
  | .initSession _ _ => True
  | .onMsgReceived env buddy msg msgLen =>
      Stay (sessionFor env keychain buddy) (recordIn env msg msgLen)

instance (keychain : SmkexKeychain K) : (e : Call K) → Decidable (CallStays keychain e)
  | .initSession _ _ => isTrue trivial
  | .onMsgReceived env buddy msg msgLen =>
      inferInstanceAs (Decidable (Stay (sessionFor env keychain buddy) (recordIn env msg msgLen)))

/-- Whether they do is a matter of the buddy's session. -/
theorem CallStays.congr {keychain keychain' : SmkexKeychain K} {e : Call K}
    (h : CallStays keychain e) (hsame : keychain' e.buddy = keychain e.buddy) :
    CallStays keychain' e := by
  cases e with
  | initSession => trivial
  | onMsgReceived env buddy msg msgLen =>
      have hsession : sessionFor env keychain' buddy = sessionFor env keychain buddy := by
        unfold sessionFor
        rw [getSessionInfo_eq, getSessionInfo_eq, show keychain' buddy = keychain buddy from hsame]
      show Stay (sessionFor env keychain' buddy) (recordIn env msg msgLen)
      rw [hsession]
      exact h

/-- One call.  Nothing is known of what follows a copy that leaves its buffer. -/
abbrev clientStep (ssl : OpenSSL K) :
    Client K → Call K × Option (Client K) → Option (Client K) :=
  havoc (fun c e => CallStays c.smkexKeychain e) (Client.step ssl)

/-! ## Calls in two runs -/

/-- The time of a call. -/
def Call.now : Call K → Int64
  | .initSession env _ => env.now
  | .onMsgReceived env _ _ _ => env.now

/-- The same call in two runs: the same buddy, the same key pair and nonces, and
of a message the same bytes. -/
inductive Partner : Call K → Call K → Prop
  | initSession {env env' : Env K} (buddy : MpString) (draws : SameDraws env env') :
      Partner (.initSession env buddy) (.initSession env' buddy)
  | onMsgReceived {env env' : Env K} (buddy : MpString) {msg msg' : Memory} (msgLen : UInt32)
      (draws : SameDraws env env')
      (bytes : bytesAt msg 0 msgLen.toNat = bytesAt msg' 0 msgLen.toNat) :
      Partner (.onMsgReceived env buddy msg msgLen) (.onMsgReceived env' buddy msg' msgLen)

/-- What two calls find in memory that nobody has written for them is the same:
behind the message and its copy, where a new session is built, and behind the
buffers that the answer reads on. -/
structure SameBehind (keychain : SmkexKeychain K) (env env' : Env K) (buddy : MpString)
    (msg msg' : Memory) (msgLen : UInt32) : Prop where
  printed : (getRecordFromSerial.run (shift msg 1)).1 = (getRecordFromSerial.run (shift msg' 1)).1
  record : recordIn env msg msgLen = recordIn env' msg' msgLen
  fresh : keychain buddy = none → env.fresh = env'.fresh
  heap : SameAt env env' (readsBehind (sessionFor env keychain buddy) (recordIn env msg msgLen))

/-- Starting a handshake reads nothing behind a buffer. -/
def BehindIsSame (keychain : SmkexKeychain K) : Call K → Call K → Prop
  | .onMsgReceived env buddy msg msgLen, .onMsgReceived env' _ msg' _ =>
      SameBehind keychain env env' buddy msg msg' msgLen
  | _, _ => True

section Calls

variable {ssl : OpenSSL K} {keychain keychain' : SmkexKeychain K} {e f : Call K}

theorem Partner.buddy (h : Partner e f) : f.buddy = e.buddy := by
  cases h <;> rfl

theorem sessionFor_congr {env env' : Env K} {buddy : MpString}
    (hfresh : keychain buddy = none → env.fresh = env'.fresh)
    (hsame : keychain' buddy = keychain buddy) :
    sessionFor env' keychain' buddy = sessionFor env keychain buddy := by
  unfold sessionFor
  rw [getSessionInfo_eq, getSessionInfo_eq, hsame]
  cases hs : keychain buddy with
  | none => simp only [hfresh hs]
  | some s => rfl

/-- Partners have the same records to copy from and the same buffers to copy to. -/
theorem Partner.stays (h : Partner e f) (hbehind : BehindIsSame keychain e f)
    (hsame : keychain' e.buddy = keychain e.buddy) (hstays : CallStays keychain e) :
    CallStays keychain' f := by
  cases h with
  | initSession => trivial
  | @onMsgReceived env env' buddy msg msg' msgLen draws bytes =>
      change Stay (sessionFor env keychain buddy) (recordIn env msg msgLen) at hstays
      show Stay (sessionFor env' keychain' buddy) (recordIn env' msg' msgLen)
      rw [sessionFor_congr hbehind.fresh hsame, ← hbehind.record]
      exact hstays

/-- **Partners do the same, each at its own time.** -/
theorem Partner.matches (h : Partner e f) (hbehind : BehindIsSame keychain e f) :
    Matches (Retimed e.now f.now) (handle ssl keychain e) (handle ssl keychain f) := by
  cases h with
  | @initSession env env' buddy draws =>
      show Likewise env env' (Keychain.initSession ssl env keychain buddy)
        (Keychain.initSession ssl env' keychain buddy)
      cases hs : keychain buddy with
      | none =>
          -- the process ends
          intro x log hrun
          have heffect := effect_initSession_none ssl env keychain buddy hs
          rw [effect, hrun] at heffect
          cases heffect
      | some s =>
          unfold Keychain.initSession
          rw [getSessionInfo_eq, hs]
          exact (likewise_restartSession ssl draws).bind fun _ => matches_pure _
  | @onMsgReceived env env' buddy msg msg' msgLen draws bytes =>
      have hsession : sessionFor env' keychain buddy = sessionFor env keychain buddy :=
        sessionFor_congr hbehind.fresh rfl
      have hreceive : Likewise env env'
          (receive ssl env buddy (sessionFor env keychain buddy) (recordIn env msg msgLen))
          (receive ssl env' buddy (sessionFor env' keychain buddy)
            (recordIn env' msg' msgLen)) := by
        rw [hsession, ← hbehind.record]
        exact matches_receive ssl draws hbehind.heap
      exact (likewise_showRecord (by rw [hbehind.printed])).bind fun _ =>
        hreceive.bind fun _ => matches_pure _

end Calls

/-- The same call at another time. -/
def Call.delayed (now : Int64) : Call K → Call K
  | .initSession env buddy => .initSession { env with now } buddy
  | .onMsgReceived env buddy msg msgLen => .onMsgReceived { env with now } buddy msg msgLen

theorem partner_delayed (now : Int64) (e : Call K) : Partner e (e.delayed now) := by
  cases e with
  | initSession env buddy => exact .initSession buddy ⟨rfl, rfl, rfl, rfl, rfl⟩
  | onMsgReceived env buddy msg msgLen =>
      exact .onMsgReceived buddy msgLen ⟨rfl, rfl, rfl, rfl, rfl⟩ rfl

theorem behindIsSame_delayed (keychain : SmkexKeychain K) (now : Int64) (e : Call K) :
    BehindIsSame keychain e (e.delayed now) := by
  cases e with
  | initSession => trivial
  | onMsgReceived => exact ⟨rfl, rfl, fun _ => rfl, fun _ _ => rfl⟩

/-! ## What a buddy sees -/

/-- Two payloads on one channel that are the same record but for its time, and
entirely the same if the clocks agree. -/
structure SameSent (clocksAgree : Prop) (p q : Bytes × Nat) : Prop where
  chan : p.2 = q.2
  record : ∃ r t, p.1 = SerializeSmkexT4mRecord r ∧
    q.1 = SerializeSmkexT4mRecord { r with timestamp := t }
  same : clocksAgree → p = q

theorem Retimed.sentTo {now now' : Int64} {clocksAgree : Prop} (x : MpString)
    (hclocks : clocksAgree → now = now') {log log' : List Event}
    (h : List.Forall₂ (Retimed now now') log log') :
    List.Forall₂ (SameSent clocksAgree) (Isolation.sentTo x log) (Isolation.sentTo x log') := by
  induction h with
  | nil => exact .nil
  | cons hfirst _ ih =>
      cases hfirst with
      | copied c => exact ih
      | sent r b chan time =>
          by_cases hb : b = x
          · have hpair : SameSent clocksAgree (SerializeSmkexT4mRecord r, chan)
                (SerializeSmkexT4mRecord { r with timestamp := now' }, chan) := by
              refine ⟨rfl, ⟨r, now', rfl, rfl⟩, fun hagree => ?_⟩
              rw [← hclocks hagree, ← time]
            simpa only [Isolation.sentTo, List.filterMap_cons, if_pos hb] using .cons hpair ih
          · simpa only [Isolation.sentTo, List.filterMap_cons, if_neg hb] using ih

/-- To this buddy two clients look the same: the session is the same, and so is
what was sent, apart from the time. -/
structure Sees (clocksAgree : Prop) (x : MpString) (c d : Client K) : Prop where
  session : c.smkexKeychain x = d.smkexKeychain x
  sent : List.Forall₂ (SameSent clocksAgree) (sentTo x c.log) (sentTo x d.log)

/-- A buddy sees nothing of a call for another one, and of a call for
themselves the same as of its partner. -/
theorem unwinds (ssl : OpenSSL K) (clocksAgree : Prop) :
    Unwinds (clientStep ssl) (·.1.buddy) (fun c e => CallStays c.smkexKeychain e.1)
      (fun c e f => Partner e.1 f.1 ∧ BehindIsSame c.smkexKeychain e.1 f.1 ∧
        (clocksAgree → e.1.now = f.1.now)) (Sees clocksAgree) where
  respects := by
    intro x c d e c' hx hstays hsees h
    rw [clientStep, havoc_of_defined hstays] at h
    obtain ⟨⟨⟨keychain, n⟩, log⟩, hrun, rfl⟩ := Option.map_eq_some_iff.1 h
    obtain ⟨s, rfl, -⟩ := call_run ssl hrun
    have hsent : sentTo x log = [] :=
      sentTo_of_emits hx (emits_handle ssl c.smkexKeychain e.1 _ log hrun)
    refine ⟨(Function.update_of_ne hx.symm _ _).trans hsees.session, ?_⟩
    have hlog : sentTo x (c.log ++ log) = sentTo x c.log := by
      rw [sentTo, List.filterMap_append, ← sentTo, ← sentTo, hsent, List.append_nil]
    simpa only [hlog] using hsees.sent
  consistent := by
    rintro c d e f c' hstays ⟨hpartner, hbehind, hclocks⟩ hsees h
    have hsession := hsees.session.symm
    have hstays' := hpartner.stays hbehind hsession hstays
    rw [clientStep, havoc_of_defined hstays] at h
    obtain ⟨⟨⟨keychain, n⟩, log⟩, hrun, rfl⟩ := Option.map_eq_some_iff.1 h
    obtain ⟨log', hrun', hlogs⟩ := hpartner.matches hbehind _ _ hrun
    obtain ⟨s, rfl, hsame⟩ := call_run ssl hrun'
    rw [hpartner.buddy] at hsame
    refine ⟨⟨store d.smkexKeychain e.1.buddy s, d.log ++ log'⟩, ?_, ?_, ?_⟩
    · rw [clientStep, havoc_of_defined hstays', Client.step, hsame d.smkexKeychain hsession]
      rfl
    · simp only [hpartner.buddy, store, Function.update_self]
    · simp only [sentTo, List.filterMap_append]
      exact List.rel_append hsees.sent (Retimed.sentTo e.1.buddy hclocks hlogs)

/-! ## Whole runs -/

/-- The calls about one buddy at the times and places of the second run. -/
abbrev alone (x : MpString) :
    List ((Call K × Option (Client K)) × (Call K × Option (Client K))) →
      List (Call K × Option (Client K)) :=
  partners (·.1.buddy) x

/-- A record from this buddy, in these surroundings. -/
def sampleMessage (env : Env UInt8) (sender : MpString) (type : SMKEX_T4M_Type) (data : Bytes) :
    Call UInt8 :=
  let serial := 0 :: SerializeSmkexT4mRecord (buildRecord (sampleEnv 7 8) sender type data)
  .onMsgReceived env sender (ofBytes serial fun _ => 0) (UInt32.ofNat serial.length)

/-- The calls for two buddies, interleaved: both send a key, the second sends
an alert and is then called, and in between the first one sends a nonce, which
is answered in these surroundings. -/
def sampleCalls (env : Env UInt8) : List (Call UInt8) :=
  [sampleMessage (sampleEnv 1 2) [97] .handshakeKey (sampleOpenSSL.pub 5),
    sampleMessage (sampleEnv 1 2) [98] .handshakeKey (sampleOpenSSL.pub 6),
    sampleMessage (sampleEnv 1 2) [98] .alert [97, 0],
    sampleMessage env [97] .handshakeNonce (sampleNonce 9).1,
    .initSession (sampleEnv 1 3) [98]]

end EndToEndSmkex.Smkex.Isolation
