import EndToEndSmkex.AutoResend.Engine

/-!
# What an operation changes

An operation first changes the pools and then drives the engine or leaves it
alone.  A status drives the engine whether it runs or not; every other operation
starts it at most.

## Main results

* `operate_eq` — every operation but a status starts the changed engine or does
  nothing more.
* `settle_settled` — what a status does to the pool of its receiver.
* `becomes_of_changed` — what an operation makes of a single pool.
-/

namespace EndToEndSmkex.AutoResend.Changes

open EndToEndSmkex.Smkex.Record
open EndToEndSmkex.AutoResend.MsgPayload
open EndToEndSmkex.AutoResend.Pool
open EndToEndSmkex.AutoResend.Engine
open EndToEndSmkex.AutoResend.Engine.mp_status_t
open EndToEndSmkex.AutoResend.Engine.mp_buddy_online_status_t

/-! ## The changed engine -/

/-- The engine when it may be driven. -/
def changed (e : MpAutoResendEngine) : Op → MpAutoResendEngine
  | .addMessage message => addMessageInternal e message
  | .syncWithDBConnectors contents => syncWithDBConnectors e contents
  | .messageStatus message status => (settle e message status).1
  | .buddy_state2 serial state =>
    match e.userPool_ serial with
    | some pool =>
      if state = MP_BUDDY_ONLINE then
        e.setPool serial (some (markUserPoolAsClean e.autoResendEnabled_ pool))
      else e
    | none => e
  | .resendMessage serial msgId =>
    match e.userPool_ serial with
    | some pool =>
      match pool.getIndexForUID msgId with
      | some _ =>
        prioritize
          (e.setPool serial (some (pool.markMsgAsUnprocessed msgId).markAsClean)) serial
      | none => e
    | none => e
  | .setAutoResendEnabled autoResendEnabled =>
    { e with autoResendEnabled_ := autoResendEnabled }
  | .removeMessagesForSerial serial => removeMessagesForSerial e serial

/-- What the connectors are told before the engine may be driven. -/
def ownReports (e : MpAutoResendEngine) : Op → List Report
  | .messageStatus message status =>
    notify e.dbConnectors_ message status ++ (settle e message status).2
  | _ => []

section Operations

variable (e : MpAutoResendEngine) (a : Answers)

theorem buddy_state2_eq (serial : MpString) (state : mp_buddy_online_status_t) :
    buddy_state2 e serial state a = startEngine (changed e (.buddy_state2 serial state)) a ∨
      buddy_state2 e serial state a = (changed e (.buddy_state2 serial state)).idle a.missing := by
  simp only [buddy_state2, changed]
  cases e.userPool_ serial with
  | none => exact Or.inr rfl
  | some pool =>
      by_cases honline : state = MP_BUDDY_ONLINE
      · left
        simp only [honline, if_true]
      · right
        simp only [honline, if_false]

theorem setAutoResendEnabled_eq (autoResendEnabled : Bool) :
    setAutoResendEnabled e autoResendEnabled a =
        startEngine (changed e (.setAutoResendEnabled autoResendEnabled)) a ∨
      setAutoResendEnabled e autoResendEnabled a =
        (changed e (.setAutoResendEnabled autoResendEnabled)).idle a.missing := by
  unfold setAutoResendEnabled
  by_cases hstart : (!e.autoResendEnabled_ && autoResendEnabled) = true
  · rw [if_pos hstart]
    exact Or.inl rfl
  · rw [if_neg hstart]
    exact Or.inr rfl

theorem resendMessage_eq (serial : MpString) (msgId : Int) :
    (resendMessage e serial msgId a).map Prod.snd =
        startEngine (changed e (.resendMessage serial msgId)) a ∨
      (resendMessage e serial msgId a).map Prod.snd =
        (changed e (.resendMessage serial msgId)).idle a.missing := by
  have hsecond : ∀ (b : Bool) (o : Option Outcome),
      (o.map fun out => (b, out)).map Prod.snd = o := by
    intro b o
    cases o <;> rfl
  simp only [resendMessage, changed]
  cases e.userPool_ serial with
  | none => exact Or.inr (hsecond false _)
  | some pool =>
      cases hindex : pool.getIndexForUID msgId with
      | none =>
          simp only [hindex]
          exact Or.inr (hsecond false _)
      | some i =>
          simp only [hindex]
          exact Or.inl (hsecond true _)

/-- Every operation but a status starts the changed engine, or does nothing
more. -/
theorem operate_eq {op : Op} (hop : ∀ m status, op ≠ .messageStatus m status) :
    operate e op a = startEngine (changed e op) a ∨
      operate e op a = (changed e op).idle a.missing := by
  cases op with
  | addMessage m => exact Or.inl rfl
  | syncWithDBConnectors contents => exact Or.inr rfl
  | messageStatus m status => exact absurd rfl (hop m status)
  | buddy_state2 serial state => exact buddy_state2_eq e a serial state
  | resendMessage serial msgId => exact resendMessage_eq e a serial msgId
  | setAutoResendEnabled autoResendEnabled => exact setAutoResendEnabled_eq e a autoResendEnabled
  | removeMessagesForSerial serial => exact Or.inr rfl

theorem syncWithDBConnectors_eq (messages : List (List MpMsgPayload)) :
    syncWithDBConnectors e messages = messages.flatten.foldl addMessageInternal e := by
  unfold syncWithDBConnectors
  induction messages generalizing e with
  | nil => rfl
  | cons ms messages ih => rw [List.foldl_cons, ih, List.flatten_cons, List.foldl_append]

end Operations

/-! ## One operation at a time -/

/-- What a status does: without a pool nothing; else it takes the message away,
and the pool with its last message, or marks the pool. -/
inductive Settled (e : MpAutoResendEngine) (m : MpMsgPayload) (status : mp_status_t) :
    MpAutoResendEngine → Prop
  | absent (none : e.userPool_ m.userSerial_ = none) : Settled e m status e
  | emptied {pool : MpMsgPool} (found : e.userPool_ m.userSerial_ = some pool)
      (sent : status = MP_MESSAGE_SENT)
      (last : ((pool.markMsgAsProcessed m.uid_).rmMessage m.uid_).messages_ = []) :
      Settled e m status
        { e.setPool m.userSerial_ none with priority_ := e.priority_.erase m.userSerial_ }
  | shortened {pool : MpMsgPool} (found : e.userPool_ m.userSerial_ = some pool)
      (sent : status = MP_MESSAGE_SENT)
      (left : ((pool.markMsgAsProcessed m.uid_).rmMessage m.uid_).messages_ ≠ []) :
      Settled e m status
        (e.setPool m.userSerial_
          (some (((pool.markMsgAsProcessed m.uid_).rmMessage m.uid_).setWeight
            (pool.weight_ + 1))))
  | failed {pool : MpMsgPool} (found : e.userPool_ m.userSerial_ = some pool)
      (failure : status ≠ MP_MESSAGE_SENT) :
      Settled e m status
        (e.setPool m.userSerial_
          (some (markUserPoolProcessed e.dbConnectors_
            (pool.markMsgAsProcessed m.uid_).markAsDirty).1))

theorem settle_settled (e : MpAutoResendEngine) (m : MpMsgPayload) (status : mp_status_t) :
    Settled e m status (settle e m status).1 := by
  unfold settle
  cases hpool : e.userPool_ m.userSerial_ with
  | none => exact .absent hpool
  | some pool =>
      by_cases hsent : status = MP_MESSAGE_SENT
      · simp only [hsent, if_true]
        by_cases hempty : ((pool.markMsgAsProcessed m.uid_).rmMessage m.uid_).isPoolEmpty = true
        · rw [if_pos hempty]
          exact .emptied hpool rfl (List.isEmpty_iff.1 hempty)
        · rw [if_neg hempty]
          have hleft : ((pool.markMsgAsProcessed m.uid_).rmMessage m.uid_).messages_ ≠ [] := by
            simpa [MpMsgPool.isPoolEmpty] using hempty
          have hshortened := Settled.shortened hpool hsent hleft
          simpa [hsent] using hshortened
      · simp only [hsent, if_false]
        exact .failed hpool hsent

/-- Presence makes the user's pool clean, or changes nothing. -/
theorem changed_buddy_state2 (e : MpAutoResendEngine) (serial : MpString)
    (state : mp_buddy_online_status_t) :
    changed e (.buddy_state2 serial state) = e ∨
      ∃ pool, e.userPool_ serial = some pool ∧ state = MP_BUDDY_ONLINE ∧
        changed e (.buddy_state2 serial state) =
          e.setPool serial (some (markUserPoolAsClean e.autoResendEnabled_ pool)) := by
  simp only [changed]
  cases hpool : e.userPool_ serial with
  | none => exact Or.inl rfl
  | some pool =>
      by_cases honline : state = MP_BUDDY_ONLINE
      · exact Or.inr ⟨pool, rfl, honline, if_pos honline⟩
      · exact Or.inl (if_neg honline)

/-- A request for a message that is found puts its user first; any other changes
nothing. -/
theorem changed_resendMessage (e : MpAutoResendEngine) (serial : MpString) (msgId : Int) :
    changed e (.resendMessage serial msgId) = e ∨
      ∃ pool, e.userPool_ serial = some pool ∧ (pool.getIndexForUID msgId).isSome ∧
        changed e (.resendMessage serial msgId) =
          prioritize
            (e.setPool serial (some (pool.markMsgAsUnprocessed msgId).markAsClean)) serial := by
  simp only [changed]
  cases hpool : e.userPool_ serial with
  | none => exact Or.inl rfl
  | some pool =>
      cases hindex : pool.getIndexForUID msgId with
      | none =>
          left
          simp only [hindex]
      | some i =>
          right
          refine ⟨pool, rfl, by rw [hindex]; rfl, ?_⟩
          simp only [hindex]

/-! ## What an operation leaves alone -/

/-- The engines differ in their queues at most. -/
structure Requeued (e e' : MpAutoResendEngine) : Prop where
  dbConnectors : e'.dbConnectors_ = e.dbConnectors_
  started : e'.started_ = e.started_
  autoResend : e'.autoResendEnabled_ = e.autoResendEnabled_

section Fields

variable {e : MpAutoResendEngine}

theorem requeued_addMessageInternal (e : MpAutoResendEngine) (m : MpMsgPayload) :
    Requeued e (addMessageInternal e m) := by
  unfold addMessageInternal
  cases e.userPool_ m.userSerial_ <;> exact ⟨rfl, rfl, rfl⟩

theorem requeued_addAll (ms : List MpMsgPayload) :
    Requeued e (ms.foldl addMessageInternal e) := by
  refine List.foldlRecOn (motive := Requeued e) ms _ ⟨rfl, rfl, rfl⟩ ?_
  intro e' h m _
  have hm := requeued_addMessageInternal e' m
  exact ⟨hm.dbConnectors.trans h.dbConnectors, hm.started.trans h.started,
    hm.autoResend.trans h.autoResend⟩

theorem requeued_settle (e : MpAutoResendEngine) (m : MpMsgPayload) (status : mp_status_t) :
    Requeued e (settle e m status).1 := by
  have hsettled := settle_settled e m status
  generalize (settle e m status).1 = e' at hsettled ⊢
  cases hsettled <;> exact ⟨rfl, rfl, rfl⟩

/-- Only the setter of the mode changes anything but the queues. -/
theorem requeued_changed {op : Op} (hop : ∀ mode, op ≠ .setAutoResendEnabled mode) :
    Requeued e (changed e op) := by
  cases op with
  | addMessage m => exact requeued_addMessageInternal e m
  | syncWithDBConnectors contents =>
      rw [changed, syncWithDBConnectors_eq]
      exact requeued_addAll contents.flatten
  | messageStatus m status => exact requeued_settle e m status
  | buddy_state2 serial state =>
      rcases changed_buddy_state2 e serial state with hsame | ⟨_, -, -, hclean⟩
      · rw [hsame]
        exact ⟨rfl, rfl, rfl⟩
      · rw [hclean]
        exact ⟨rfl, rfl, rfl⟩
  | resendMessage serial msgId =>
      rcases changed_resendMessage e serial msgId with hsame | ⟨_, -, -, hresent⟩
      · rw [hsame]
        exact ⟨rfl, rfl, rfl⟩
      · rw [hresent]
        exact ⟨rfl, rfl, rfl⟩
  | setAutoResendEnabled mode => exact absurd rfl (hop mode)
  | removeMessagesForSerial serial => exact ⟨rfl, rfl, rfl⟩

theorem autoResend_changed (op : Op) :
    (changed e op).autoResendEnabled_ =
      match op with
      | .setAutoResendEnabled autoResendEnabled => autoResendEnabled
      | _ => e.autoResendEnabled_ := by
  cases op with
  | setAutoResendEnabled mode => rfl
  | _ =>
      refine Requeued.autoResend (requeued_changed ?_)
      simp

/-- Changing an engine does not start it. -/
theorem started_changed (op : Op) : (changed e op).started_ = e.started_ := by
  cases op with
  | setAutoResendEnabled mode => rfl
  | _ =>
      refine Requeued.started (requeued_changed ?_)
      simp

end Fields

/-! ## What an operation makes of a pool -/

/-- The messages an operation adds. -/
def addedBy : Op → List MpMsgPayload
  | .addMessage message => [message]
  | .syncWithDBConnectors contents => contents.flatten
  | _ => []

/-- The pool of a user in the changed engine.  A user may get several messages
at once. -/
inductive Becomes (e : MpAutoResendEngine) (op : Op) (serial : MpString) : MpMsgPool → Prop
  | kept {pool : MpMsgPool} (before : e.userPool_ serial = some pool)
      (other : ∀ m status, op = .messageStatus m status → serial ≠ m.userSerial_) :
      Becomes e op serial pool
  | opened {m : MpMsgPayload} (adds : m ∈ addedBy op) (receiver : m.userSerial_ = serial) :
      Becomes e op serial (markUserPoolAsClean e.autoResendEnabled_ (MpMsgPool.new m))
  | extended {pool : MpMsgPool} {m : MpMsgPayload} (before : Becomes e op serial pool)
      (adds : m ∈ addedBy op) (receiver : m.userSerial_ = serial) :
      Becomes e op serial (markUserPoolAsClean e.autoResendEnabled_ (pool.addMessage m))
  | activated {pool : MpMsgPool} (before : e.userPool_ serial = some pool)
      (online : op = .buddy_state2 serial MP_BUDDY_ONLINE) :
      Becomes e op serial (markUserPoolAsClean e.autoResendEnabled_ pool)
  | sent {pool : MpMsgPool} {m : MpMsgPayload} (before : e.userPool_ serial = some pool)
      (status : op = .messageStatus m MP_MESSAGE_SENT) (receiver : m.userSerial_ = serial)
      (left : ((pool.markMsgAsProcessed m.uid_).rmMessage m.uid_).messages_ ≠ []) :
      Becomes e op serial
        (((pool.markMsgAsProcessed m.uid_).rmMessage m.uid_).setWeight (pool.weight_ + 1))
  | failed {pool : MpMsgPool} {m : MpMsgPayload} {code : mp_status_t}
      (before : e.userPool_ serial = some pool) (status : op = .messageStatus m code)
      (receiver : m.userSerial_ = serial) (failure : code ≠ MP_MESSAGE_SENT) :
      Becomes e op serial
        (markUserPoolProcessed e.dbConnectors_
          (pool.markMsgAsProcessed m.uid_).markAsDirty).1
  | resent {pool : MpMsgPool} {msgId : Int} (before : e.userPool_ serial = some pool)
      (asked : op = .resendMessage serial msgId) :
      Becomes e op serial ((pool.markMsgAsUnprocessed msgId).markAsClean.setWeight 0)
  | raised {pool first : MpMsgPool} {other : MpString} {msgId : Int}
      (before : e.userPool_ serial = some pool) (asked : op = .resendMessage other msgId)
      (ne : serial ≠ other) (found : e.userPool_ other = some first)
      (index : (first.getIndexForUID msgId).isSome) :
      Becomes e op serial (pool.setWeight (pool.weight_ + 1))

section Pools

variable {e : MpAutoResendEngine} {op : Op} {serial : MpString} {pool : MpMsgPool}

/-- Adding a message to engine `e'`, whose pools came from `e` in this way. -/
theorem becomes_addMessageInternal {e' : MpAutoResendEngine} {m : MpMsgPayload}
    (hpools : ∀ serial pool, e'.userPool_ serial = some pool → Becomes e op serial pool)
    (hauto : e'.autoResendEnabled_ = e.autoResendEnabled_) (hm : m ∈ addedBy op)
    (h : (addMessageInternal e' m).userPool_ serial = some pool) : Becomes e op serial pool := by
  unfold addMessageInternal at h
  cases hold : e'.userPool_ m.userSerial_ with
  | none =>
      simp only [hold, userPool_setPool] at h
      by_cases hserial : serial = m.userSerial_
      · rw [if_pos hserial, Option.some.injEq, hauto] at h
        subst h
        exact .opened hm hserial.symm
      · rw [if_neg hserial] at h
        exact hpools serial pool h
  | some old =>
      simp only [hold, userPool_setPool] at h
      by_cases hserial : serial = m.userSerial_
      · rw [if_pos hserial, Option.some.injEq, hauto] at h
        subst h
        exact .extended (hpools serial old (hserial ▸ hold)) hm hserial.symm
      · rw [if_neg hserial] at h
        exact hpools serial pool h

theorem becomes_addAll {ms : List MpMsgPayload} (hadds : ∀ m ∈ ms, m ∈ addedBy op)
    (hkept : ∀ serial pool, e.userPool_ serial = some pool → Becomes e op serial pool) :
    ∀ serial pool, (ms.foldl addMessageInternal e).userPool_ serial = some pool →
      Becomes e op serial pool := by
  have hall : (∀ serial pool, (ms.foldl addMessageInternal e).userPool_ serial = some pool →
      Becomes e op serial pool) ∧
        (ms.foldl addMessageInternal e).autoResendEnabled_ = e.autoResendEnabled_ := by
    refine List.foldlRecOn (motive := fun e' : MpAutoResendEngine =>
      (∀ serial pool, e'.userPool_ serial = some pool → Becomes e op serial pool) ∧
        e'.autoResendEnabled_ = e.autoResendEnabled_) ms _ ⟨hkept, rfl⟩ ?_
    rintro e' ⟨hpools, hauto⟩ m hm
    refine ⟨fun _ _ h => becomes_addMessageInternal hpools hauto (hadds m hm) h, ?_⟩
    rw [(requeued_addMessageInternal e' m).autoResend, hauto]
  exact hall.1

/-- A pool that is left alone, and no status. -/
theorem becomes_same (hop : ∀ m status, op ≠ .messageStatus m status)
    (h : e.userPool_ serial = some pool) : Becomes e op serial pool :=
  .kept h fun m status heq => absurd heq (hop m status)

/-- A pool that is put back, the others being kept. -/
theorem becomes_setPool {user : MpString} {pool' : Option MpMsgPool}
    (hother : ∀ m status, op = .messageStatus m status → user = m.userSerial_)
    (hput : ∀ p, pool' = some p → Becomes e op user p)
    (h : (e.setPool user pool').userPool_ serial = some pool) : Becomes e op serial pool := by
  rw [userPool_setPool] at h
  by_cases hserial : serial = user
  · subst hserial
    rw [if_pos rfl] at h
    exact hput pool h
  · rw [if_neg hserial] at h
    apply Becomes.kept h
    intro m status hop hsame
    exact hserial (hsame.trans (hother m status hop).symm)

theorem becomes_settle {m : MpMsgPayload} {status : mp_status_t}
    (h : (settle e m status).1.userPool_ serial = some pool) :
    Becomes e (.messageStatus m status) serial pool := by
  have hother : ∀ m' status', Op.messageStatus m status = .messageStatus m' status' →
      m.userSerial_ = m'.userSerial_ := by
    rintro m' status' ⟨⟩
    rfl
  have hsettled := settle_settled e m status
  generalize (settle e m status).1 = e' at h hsettled
  cases hsettled with
  | absent hnone =>
      apply Becomes.kept h
      rintro m' status' ⟨⟩ rfl
      rw [hnone] at h
      cases h
  | emptied found sent last =>
      apply becomes_setPool hother ?_ h
      rintro p ⟨⟩
  | shortened found sent left =>
      apply becomes_setPool hother ?_ h
      rintro p ⟨⟩
      exact .sent found (by rw [sent]) rfl left
  | failed found failure =>
      apply becomes_setPool hother ?_ h
      rintro p ⟨⟩
      exact .failed found rfl rfl failure

theorem becomes_resendMessage {user : MpString} {msgId : Int}
    (h : (changed e (.resendMessage user msgId)).userPool_ serial = some pool) :
    Becomes e (.resendMessage user msgId) serial pool := by
  rcases changed_resendMessage e user msgId with hsame | ⟨first, hfirst, hindex, hresent⟩
  · rw [hsame] at h
    exact becomes_same (by simp) h
  · rw [hresent] at h
    simp only [prioritize, userPool_setPool] at h
    by_cases hserial : serial = user
    · subst hserial
      simp only [if_true, Option.map_some, Option.some.injEq] at h
      subst h
      exact .resent hfirst rfl
    · simp only [hserial, if_false] at h
      obtain ⟨other, hother, rfl⟩ := Option.map_eq_some_iff.1 h
      exact .raised hother rfl hserial hfirst hindex

/-- **What an operation makes of a pool.** -/
theorem becomes_of_changed (h : (changed e op).userPool_ serial = some pool) :
    Becomes e op serial pool := by
  cases op with
  | addMessage m =>
      have hpools : ∀ s p, e.userPool_ s = some p → Becomes e (.addMessage m) s p :=
        fun _ _ hsame => becomes_same (by simp) hsame
      exact becomes_addMessageInternal hpools rfl (by simp [addedBy]) h
  | syncWithDBConnectors contents =>
      rw [changed, syncWithDBConnectors_eq] at h
      have hadds : ∀ m ∈ contents.flatten, m ∈ addedBy (.syncWithDBConnectors contents) :=
        fun _ hm => hm
      have hpools : ∀ s p, e.userPool_ s = some p →
          Becomes e (.syncWithDBConnectors contents) s p :=
        fun _ _ hsame => becomes_same (by simp) hsame
      exact becomes_addAll hadds hpools serial pool h
  | messageStatus m status => exact becomes_settle h
  | buddy_state2 user state =>
      rcases changed_buddy_state2 e user state with hsame | ⟨old, hold, honline, hclean⟩
      · rw [hsame] at h
        exact becomes_same (by simp) h
      · rw [hclean] at h
        refine becomes_setPool (by simp) ?_ h
        rintro p ⟨⟩
        exact .activated hold (by rw [honline])
  | resendMessage user msgId => exact becomes_resendMessage h
  | setAutoResendEnabled autoResendEnabled => exact becomes_same (by simp) h
  | removeMessagesForSerial user =>
      refine becomes_setPool (by simp) ?_ h
      rintro p ⟨⟩

end Pools

end EndToEndSmkex.AutoResend.Changes
