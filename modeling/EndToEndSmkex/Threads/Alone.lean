import EndToEndSmkex.AutoResend.Composition
import EndToEndSmkex.Threads.Calls

/-!
# A thread alone

The engine is written without locks, as operations that run from begin to end.  Here
the code with the locks is brought back to them: what a call can leave when the
other threads stand still.

## Main results

* `ends_call` — the code of a call does what the operation of the engine does, and
  goes on.
-/

namespace EndToEndSmkex.Threads.Alone

open EndToEndSmkex.Lib.Threads
open EndToEndSmkex.Lib.Threads.Code
open EndToEndSmkex.Smkex.Record
open EndToEndSmkex.AutoResend.MsgPayload
open EndToEndSmkex.AutoResend.Pool
open EndToEndSmkex.AutoResend
open EndToEndSmkex.AutoResend.Engine
open EndToEndSmkex.AutoResend.Engine.mp_status_t
open EndToEndSmkex.AutoResend.Changes
open EndToEndSmkex.AutoResend.Composition (Event)
open EndToEndSmkex.DataMsg.MsgTransport
open EndToEndSmkex.Threads.Calls

variable {mine : Holds Lock} {k : Prog} {s s' : Shared}

/-! ## Marking -/

/-- The engine, and calls of the connectors behind those so far. -/
def Shared.report (s : Shared) (e : MpAutoResendEngine) (reports : List Report) : Shared :=
  { s with engine := e, reports := s.reports ++ reports }

@[simp] theorem report_engine (s : Shared) (e : MpAutoResendEngine) (reports : List Report) :
    (Shared.report s e reports).engine = e := rfl

theorem report_self (s : Shared) : Shared.report s s.engine [] = s := by
  simp [Shared.report]

theorem setPool_self {e : MpAutoResendEngine} {serial : MpString} {pool : Option MpMsgPool}
    (h : e.userPool_ serial = pool) : e.setPool serial pool = e := by
  unfold MpAutoResendEngine.setPool
  rw [← h, Function.update_eq_self]

theorem setPool_setPool (e : MpAutoResendEngine) (serial : MpString)
    (pool pool' : Option MpMsgPool) :
    (e.setPool serial pool).setPool serial pool' = e.setPool serial pool' := by
  simp [MpAutoResendEngine.setPool]

theorem ends_notifyConnectors {message : MpMsgPayload} {status : mp_status_t} :
    (notifyConnectors message status k).Ends mine s s' ↔
      k.Ends mine
        (Shared.report s s.engine (notify s.engine.dbConnectors_ message status)) s' := by
  simp [notifyConnectors, Shared.report]

theorem ends_markMessages {serial : MpString} (pool : MpMsgPool) {messages : List MpMsgPayload} :
    ∀ {before : List MpMsgPayload} {s : Shared},
      s.engine.userPool_ serial = some { pool with messages_ := before ++ messages } →
      ((markMessages serial before messages k).Ends mine s s' ↔
        k.Ends mine
          (Shared.report s (s.engine.setPool serial (some { pool with
              messages_ := before ++ messages.map MpMsgPayload.markAsProcessed }))
            ((messages.map MpMsgPayload.markAsProcessed).flatMap fun m =>
              notify s.engine.dbConnectors_ m MP_MESSAGE_NOT_SENT)) s') := by
  induction messages with
  | nil =>
      intro before s h
      simp only [List.append_nil] at h
      simp [markMessages, Shared.report, setPool_self h]
  | cons m messages ih =>
      intro before s h
      simp only [markMessages, ends_update, ends_notifyConnectors]
      rw [ih (by simp [Shared.withPool, Shared.withEngine, h])]
      simp [Shared.report, Shared.withPool, Shared.withEngine, setPool_setPool, h]
      rfl

theorem ends_markUserPoolProcessed {serial : MpString} {pool : MpMsgPool}
    (h : s.engine.userPool_ serial = some pool) :
    (Calls.markUserPoolProcessed serial pool k).Ends mine s s' ↔
      k.Ends mine
        (Shared.report s
          (s.engine.setPool serial
            (some (Engine.markUserPoolProcessed s.engine.dbConnectors_ pool).1))
          (Engine.markUserPoolProcessed s.engine.dbConnectors_ pool).2) s' := by
  unfold Calls.markUserPoolProcessed Engine.markUserPoolProcessed
  by_cases hempty : pool.messages_.isEmpty
  · simp [hempty, Shared.report, setPool_self h]
  · by_cases hweight : pool.weight_ = INT_MAX
    · simp [hempty, hweight, Shared.report, setPool_self h]
    · simp only [hempty, hweight, Bool.false_eq_true, if_false]
      rw [ends_markMessages pool (by simpa using h), ends_update]
      simp [Shared.report, Shared.withPool, Shared.withEngine, setPool_setPool]

/-! ## Sending -/

/-- The transport gets a message. -/
def Sends (s : Shared) (message : MpMsgPayload) (s' : Shared) : Prop :=
  let sent := MpMsgTransport.sendMessage message
  ∃ a, Shared.sip { s with transport := sent.1 } sent.2 a = some s'

/-- What is left when the engine has finished an operation. -/
def Finishes (s : Shared) (out : Outcome) (s' : Shared) : Prop :=
  match out.handed with
  | none => s' = Shared.report s out.engine out.reports
  | some message => Sends (Shared.report s out.engine out.reports) message s'

theorem ends_transportSend {message : MpMsgPayload} :
    (transportSend message k).Ends mine s s' ↔
      ∃ s₁, Sends s message s₁ ∧ k.Ends mine s₁ s' := by
  simp [transportSend, ends_perform, Sends, exists_comm (α := Answer)]

/-- Reports made before an operation. -/
theorem finishes_report {e : MpAutoResendEngine} {reports : List Report} {out : Outcome} :
    Finishes (Shared.report s e reports) out s' ↔
      Finishes s { out with reports := reports ++ out.reports } s' := by
  unfold Finishes
  cases out.handed with
  | none => simp [Shared.report]
  | some message => simp [Shared.report]

theorem ends_search {users : List MpString} :
    ∀ {s : Shared},
      (search users k).Ends ((.userPoolLock_, .write) :: mine) s s' ↔
        ∃ s₁, Finishes s (scan s.engine users) s₁ ∧ k.Ends mine s₁ s' := by
  induction users with
  | nil =>
      intro s
      simp [search, scan, Finishes, Shared.report, Shared.withEngine]
  | cons serial rest ih =>
      intro s
      simp only [search, scan, ends_look]
      cases hpool : s.engine.userPool_ serial with
      | none => exact ih
      | some pool =>
          simp only
          by_cases hempty : pool.isPoolEmpty
          · simp only [hempty, if_true]
            exact ih
          · by_cases hdirty : pool.dirty_
            · simp only [hempty, hdirty, Bool.not_true, Bool.false_eq_true, if_false]
              rw [ends_markUserPoolProcessed hpool, ih]
              simp only [finishes_report, report_engine]
            · by_cases hretries : (pool.getMessage s.engine.autoResendEnabled_).numberOfRetries_ ≤ 0
              · simp only [hempty, hdirty, hretries, Bool.not_false, Bool.false_eq_true, if_false,
                  if_true]
                exact ih
              · simp only [hempty, hdirty, hretries, Bool.not_false, Bool.false_eq_true, if_false,
                  if_true]
                simp only [ends_transportSend, ends_release, Finishes, report_self]

/-- The engine does an operation, and the transport gets what it hands over.  The
answers are the comparisons in `missing`, and the state of the stack. -/
def Does (s : Shared) (op : Answers → Option Outcome) (s' : Shared) : Prop :=
  ∃ missing out, op ⟨s.sipStarted_, missing⟩ = some out ∧ Finishes s out s'

/-- The lock of the queues is not held. -/
def Clear (mine : Holds Lock) : Prop := ∀ x ∈ mine, x.1 ≠ .userPoolLock_

theorem Clear.cons {lock : Lock} {mode : Mode} (h : Clear mine) (hlock : lock ≠ .userPoolLock_) :
    Clear ((lock, mode) :: mine) := by
  intro x hx
  rcases List.mem_cons.1 hx with rfl | hx
  · exact hlock
  · exact h x hx

theorem ends_sendMessage (hmine : Clear mine) :
    (Calls.sendMessage k).Ends mine s s' ↔
      ∃ s₁, Does s (fun a => Engine.sendMessage s.engine a.missing) s₁ ∧ k.Ends mine s₁ s' := by
  simp only [Calls.sendMessage, ends_acquire hmine, ends_perform, ends_search]
  constructor
  · rintro ⟨a, s₁, users, hsort, s₂, hfinishes, hrest⟩
    cases a with
    | missing comparisons =>
        obtain ⟨e, he, hpair⟩ := Option.map_eq_some_iff.1 hsort
        cases hpair
        exact ⟨s₂, ⟨comparisons, scan e e.priority_, by simp [Engine.sendMessage, he], hfinishes⟩,
          hrest⟩
    | silence | sendMsg | pjsua => cases hsort
  · rintro ⟨s₁, ⟨missing, out, hout, hfinishes⟩, hrest⟩
    obtain ⟨e, he, rfl⟩ := Option.map_eq_some_iff.1 hout
    exact ⟨.missing missing, { s with engine := e }, e.priority_, by simp [sortUsers, he],
      s₁, hfinishes, hrest⟩

/-- An operation that nothing follows. -/
theorem does_idle {e : MpAutoResendEngine} :
    Does s (fun a => e.idle a.missing) s' ↔ s' = { s with engine := e } := by
  constructor
  · rintro ⟨missing, out, hout, hfinishes⟩
    simp only [MpAutoResendEngine.idle, Option.ite_none_right_eq_some, Option.some.injEq] at hout
    obtain ⟨-, rfl⟩ := hout
    simpa [Finishes, Shared.report] using hfinishes
  · rintro rfl
    exact ⟨[], _, rfl, by simp [Finishes, Shared.report]⟩

/-- Only the answers that agree with the stack matter. -/
theorem ends_does {P : Prop} {op' : Answers → Option Outcome} (op : Answers → Option Outcome)
    (h : ∀ missing, op' ⟨s.sipStarted_, missing⟩ = op ⟨s.sipStarted_, missing⟩)
    (hends : P ↔ ∃ s₁, Does s op s₁ ∧ k.Ends mine s₁ s') :
    P ↔ ∃ s₁, Does s op' s₁ ∧ k.Ends mine s₁ s' := by
  simpa only [Does, h] using hends

/-- Reports made before an operation. -/
theorem does_report {e : MpAutoResendEngine} {reports : List Report}
    {op : Answers → Option Outcome} :
    Does (Shared.report s e reports) op s' ↔
      Does s (fun a => (op a).map fun out =>
        { out with reports := reports ++ out.reports }) s' := by
  simp only [Does, finishes_report, Option.map_eq_some_iff]
  constructor
  · rintro ⟨missing, out, hout, hfinishes⟩
    exact ⟨missing, _, ⟨out, hout, rfl⟩, hfinishes⟩
  · rintro ⟨missing, _, ⟨out, hout, rfl⟩, hfinishes⟩
    exact ⟨missing, out, hout, hfinishes⟩

/-- Code that goes on where nothing has to be done. -/
theorem ends_idle {e : MpAutoResendEngine} :
    (∃ s₁, Does s (fun a => e.idle a.missing) s₁ ∧ k.Ends mine s₁ s') ↔
      k.Ends mine { s with engine := e } s' := by
  simp [does_idle]

theorem ends_startEngine (hmine : Clear mine) :
    (Calls.startEngine k).Ends mine s s' ↔
      ∃ s₁, Does s (Engine.startEngine s.engine) s₁ ∧ k.Ends mine s₁ s' := by
  have hheld : Clear ((.startedLock_, .mutex) :: mine) := hmine.cons (by decide)
  simp only [Calls.startEngine, isSipStackStarted, ends_mutex, ends_look, ends_release]
  by_cases hsip : s.sipStarted_
  · simp only [hsip, Bool.not_true, Bool.false_eq_true, if_false, ends_mutex, ends_look]
    by_cases hstarted : s.engine.started_
    · simp only [hstarted, Bool.not_true, Bool.false_eq_true, if_false, ends_release]
      exact ends_does _ (fun _ => by simp [Engine.startEngine, hstarted]) ends_idle.symm
    · simp only [hstarted, Bool.not_false, if_true, ends_update, ends_sendMessage hheld,
        ends_release]
      exact ends_does (fun a => Engine.sendMessage { s.engine with started_ := true } a.missing)
        (fun _ => by simp [Engine.startEngine, hsip, hstarted]) Iff.rfl
  · simp only [hsip, Bool.not_false, if_true]
    exact ends_does _ (fun _ => by simp [Engine.startEngine, hsip]) ends_idle.symm

/-! ## Operations -/

theorem ends_addMessageInternal {message : MpMsgPayload} (hmine : Clear mine) :
    (Calls.addMessageInternal message k).Ends mine s s' ↔
      k.Ends mine { s with engine := Engine.addMessageInternal s.engine message } s' := by
  simp [Calls.addMessageInternal, ends_acquire hmine, Shared.withEngine]

theorem ends_addMessage {message : MpMsgPayload} (hmine : Clear mine) :
    (Calls.addMessage message k).Ends mine s s' ↔
      ∃ s₁, Does s (operate s.engine (.addMessage message)) s₁ ∧ k.Ends mine s₁ s' := by
  simp only [Calls.addMessage, ends_addMessageInternal hmine, ends_startEngine hmine]
  exact Iff.rfl

theorem ends_addAll {messages : List MpMsgPayload} (hmine : Clear mine) :
    ∀ {s : Shared}, (messages.foldr Calls.addMessageInternal k).Ends mine s s' ↔
      k.Ends mine { s with engine := messages.foldl Engine.addMessageInternal s.engine } s' := by
  induction messages with
  | nil => exact Iff.rfl
  | cons m messages ih =>
      intro s
      rw [List.foldr_cons, ends_addMessageInternal hmine, ih, List.foldl_cons]

theorem ends_syncWithDBConnectors {contents : List (List MpMsgPayload)} (hmine : Clear mine) :
    (Calls.syncWithDBConnectors contents k).Ends mine s s' ↔
      ∃ s₁, Does s (operate s.engine (.syncWithDBConnectors contents)) s₁ ∧
        k.Ends mine s₁ s' := by
  have hheld : Clear ((.dbConnLock_, .mutex) :: mine) := hmine.cons (by decide)
  simp only [Calls.syncWithDBConnectors, ends_mutex, ends_addAll hheld, ends_release]
  rw [← syncWithDBConnectors_eq]
  exact ends_idle.symm

/-- The queues when a status has come, and the calls of the connectors for them. -/
theorem ends_settle {message : MpMsgPayload} {status : mp_status_t} (hmine : Clear mine) :
    (Calls.settle message status k).Ends mine s s' ↔
      k.Ends mine (Shared.report s (Engine.settle s.engine message status).1
        (Engine.settle s.engine message status).2) s' := by
  simp only [Calls.settle, ends_acquire hmine, ends_look]
  cases hpool : s.engine.userPool_ message.userSerial_ with
  | none => simp [Engine.settle, hpool, report_self]
  | some pool =>
      by_cases hsent : status = MP_MESSAGE_SENT
      · have hquiet : (Engine.settle s.engine message status).2 = [] := by
          simp only [Engine.settle, hpool, hsent, if_true]
          split <;> rfl
        rw [hquiet]
        simp [hsent, Shared.withEngine, Shared.report]
      · simp only [hsent, if_false, ends_update]
        rw [ends_markUserPoolProcessed (by simp [Shared.withPool, Shared.withEngine, hpool])]
        simp only [Engine.settle, hpool, hsent, if_false, ends_release]
        simp [Shared.report, Shared.withPool, Shared.withEngine, MpAutoResendEngine.setPool]

theorem ends_messageStatus {message : MpMsgPayload} {status : mp_status_t}
    (hmine : Clear mine) :
    (Calls.messageStatus message status k).Ends mine s s' ↔
      ∃ s₁, Does s (operate s.engine (.messageStatus message status)) s₁ ∧ k.Ends mine s₁ s' := by
  have hheld : Clear ((.startedLock_, .mutex) :: mine) := hmine.cons (by decide)
  simp only [Calls.messageStatus, ends_notifyConnectors, ends_settle hmine, ends_mutex,
    ends_sendMessage hheld, ends_release, report_engine, does_report]
  refine ends_does _ (fun missing => ?_) Iff.rfl
  simp only [operate, Engine.messageStatus, Option.map_map]
  congr 1
  funext out
  simp

theorem ends_buddy_state2 {serial : MpString} {state : mp_buddy_online_status_t}
    (hmine : Clear mine) :
    (Calls.buddy_state2 serial state k).Ends mine s s' ↔
      ∃ s₁, Does s (operate s.engine (.buddy_state2 serial state)) s₁ ∧ k.Ends mine s₁ s' := by
  simp only [Calls.buddy_state2, ends_acquire hmine, ends_look]
  cases hpool : s.engine.userPool_ serial with
  | none =>
      simp only [ends_release]
      exact ends_does _ (fun _ => by simp [operate, Engine.buddy_state2, hpool]) ends_idle.symm
  | some pool =>
      by_cases hstate : state = .MP_BUDDY_ONLINE
      · simp only [hstate, if_true, ends_update, ends_release, ends_startEngine hmine]
        refine ends_does (Engine.startEngine (s.engine.setPool serial
          (some (markUserPoolAsClean s.engine.autoResendEnabled_ pool))))
          (fun _ => by simp [operate, Engine.buddy_state2, hpool]) ?_
        simp only [Shared.withPool, Shared.withEngine, hpool]
        exact Iff.rfl
      · simp only [hstate, if_false, ends_release]
        exact ends_does _ (fun _ => by simp [operate, Engine.buddy_state2, hpool, hstate])
          ends_idle.symm

theorem ends_resendMessage {serial : MpString} {msgId : Int} (hmine : Clear mine) :
    (Calls.resendMessage serial msgId k).Ends mine s s' ↔
      ∃ s₁, Does s (operate s.engine (.resendMessage serial msgId)) s₁ ∧ k.Ends mine s₁ s' := by
  simp only [Calls.resendMessage, ends_acquire hmine, ends_look]
  cases hpool : s.engine.userPool_ serial with
  | none =>
      simp only [Option.bind_none, ends_release]
      exact ends_does _ (fun _ => by simp [operate, Engine.resendMessage, hpool]) ends_idle.symm
  | some pool =>
      cases hindex : pool.getIndexForUID msgId with
      | none =>
          simp only [Option.bind_some, hindex, ends_release]
          exact ends_does _ (fun _ => by simp [operate, Engine.resendMessage, hpool, hindex])
            ends_idle.symm
      | some index =>
          simp only [Option.bind_some, hindex, ends_update, ends_release, ends_startEngine hmine]
          refine ends_does (Engine.startEngine (prioritize (s.engine.setPool serial
            (some (pool.markMsgAsUnprocessed msgId).markAsClean)) serial))
            (fun _ => by simp [operate, Engine.resendMessage, hpool, hindex]) ?_
          simp only [Shared.withPool, Shared.withEngine, hpool]
          exact Iff.rfl

theorem ends_setAutoResendEnabled {autoResendEnabled : Bool} (hmine : Clear mine) :
    (Calls.setAutoResendEnabled autoResendEnabled k).Ends mine s s' ↔
      ∃ s₁, Does s (operate s.engine (.setAutoResendEnabled autoResendEnabled)) s₁ ∧
        k.Ends mine s₁ s' := by
  simp only [Calls.setAutoResendEnabled, ends_look, ends_mutex, ends_update, ends_release]
  by_cases hstart : !s.engine.autoResendEnabled_ && autoResendEnabled
  · rw [if_pos hstart, ends_startEngine hmine]
    exact ends_does (Engine.startEngine
      { s.engine with autoResendEnabled_ := autoResendEnabled })
      (fun _ => by rw [operate, Engine.setAutoResendEnabled, if_pos hstart]) Iff.rfl
  · rw [if_neg hstart]
    exact ends_does _ (fun _ => by rw [operate, Engine.setAutoResendEnabled, if_neg hstart])
      ends_idle.symm

theorem ends_removeMessagesForSerial {serial : MpString} (hmine : Clear mine) :
    (Calls.removeMessagesForSerial serial k).Ends mine s s' ↔
      ∃ s₁, Does { s with transport := s.transport.removeMessageForSerial serial }
          (operate s.engine (.removeMessagesForSerial serial)) s₁ ∧ k.Ends mine s₁ s' := by
  simp only [Calls.removeMessagesForSerial, ends_mutex, ends_update, ends_release,
    ends_acquire hmine]
  exact ends_idle.symm

/-- The transport hears a status. -/
def Hears (s : Shared) (status : mp_status_t) (s' : Shared) : Prop :=
  let done := s.transport.onSendMsgDone status
  let s₁ := { s with transport := done.1 }
  match done.2 with
  | .ignored => s' = s₁
  | .resend x => ∃ a, s₁.sip (some x) a = some s'
  | .report message => Does s₁ (operate s.engine (.messageStatus message status)) s'

theorem ends_onSendMsgDone {status : mp_status_t} (hmine : Clear mine) :
    (Calls.onSendMsgDone status k).Ends mine s s' ↔
      ∃ s₁, Hears s status s₁ ∧ k.Ends mine s₁ s' := by
  have hheld : Clear ((.msgLock_, .mutex) :: mine) := hmine.cons (by decide)
  simp only [Calls.onSendMsgDone, ends_mutex, ends_perform, Hears]
  rcases s.transport.onSendMsgDone status with ⟨transport, reaction⟩
  cases reaction with
  | ignored => simp [Shared.sip]
  | resend x =>
      simp only [Option.map_eq_some_iff]
      constructor
      · rintro ⟨a, _, _, ⟨s₁, hsip, hpair⟩, hrest⟩
        cases hpair
        exact ⟨_, ⟨a, hsip⟩, ends_release.1 hrest⟩
      · rintro ⟨s₁, ⟨a, hsip⟩, hrest⟩
        exact ⟨a, s₁, _, ⟨s₁, hsip, rfl⟩, ends_release.2 hrest⟩
  | report message => simp [Shared.sip, ends_messageStatus hheld]

theorem ends_on_pager_status {call code : Nat} (hmine : Clear mine) :
    (Calls.on_pager_status call code k).Ends mine s s' ↔
      ∃ s₁, (call < s.outstanding.length ∧
          Hears { s with outstanding := s.outstanding.eraseIdx call } (xferStatus code) s₁) ∧
        k.Ends mine s₁ s' := by
  by_cases hcall : call < s.outstanding.length
  · simp [Calls.on_pager_status, ends_perform, ends_onSendMsgDone hmine, hcall]
  · simp [Calls.on_pager_status, ends_perform, hcall]

/-! ## Calls are events -/

/-- The event that a call of the engine or of the transport is. -/
def event : Call → Option Event
  | .addMessage message => some (.addMessage message)
  | .syncWithDBConnectors contents => some (.syncWithDBConnectors contents)
  | .buddy_state2 serial state => some (.buddy_state2 serial state)
  | .resendMessage serial msgId => some (.resendMessage serial msgId)
  | .setAutoResendEnabled autoResendEnabled => some (.setAutoResendEnabled autoResendEnabled)
  | .removeMessagesForSerial serial => some (.removeMessagesForSerial serial)
  | .on_pager_status call code => some (.on_pager_status call code)
  | _ => none

/-- What an event does where nothing interrupts it. -/
def Happens (s : Shared) : Event → Shared → Prop
  | .addMessage message => Does s (operate s.engine (.addMessage message))
  | .syncWithDBConnectors contents => Does s (operate s.engine (.syncWithDBConnectors contents))
  | .buddy_state2 serial state => Does s (operate s.engine (.buddy_state2 serial state))
  | .resendMessage serial msgId => Does s (operate s.engine (.resendMessage serial msgId))
  | .setAutoResendEnabled autoResendEnabled =>
    Does s (operate s.engine (.setAutoResendEnabled autoResendEnabled))
  | .removeMessagesForSerial serial =>
    Does { s with transport := s.transport.removeMessageForSerial serial }
      (operate s.engine (.removeMessagesForSerial serial))
  | .on_pager_status call code => fun s' => call < s.outstanding.length ∧
    Hears { s with outstanding := s.outstanding.eraseIdx call } (xferStatus code) s'

theorem ends_call {call : Call} {e : Event} (hcall : event call = some e) (hmine : Clear mine) :
    (call.code k).Ends mine s s' ↔ ∃ s₁, Happens s e s₁ ∧ k.Ends mine s₁ s' := by
  cases call with
  | addMessage => cases hcall; exact ends_addMessage hmine
  | syncWithDBConnectors => cases hcall; exact ends_syncWithDBConnectors hmine
  | buddy_state2 => cases hcall; exact ends_buddy_state2 hmine
  | resendMessage => cases hcall; exact ends_resendMessage hmine
  | setAutoResendEnabled => cases hcall; exact ends_setAutoResendEnabled hmine
  | removeMessagesForSerial => cases hcall; exact ends_removeMessagesForSerial hmine
  | on_pager_status => cases hcall; exact ends_on_pager_status hmine
  | _ => cases hcall

end EndToEndSmkex.Threads.Alone
