import EndToEndSmkex.AutoResend.Queues

/-!
# Which message is sent

An operation changes the engine and then leaves it alone, or sorts its users and
searches them for the next message.

## Main results

* `operate_operates` — the two parts of an operation.
* `Operates.forall_pools`, `queue_changed` — what an operation leaves of the
  pools and of the queues.
* `Operates.handed`, `Listed.operates` — whose message is handed over, and that
  every user with messages is served.
-/

namespace EndToEndSmkex.AutoResend.Selection

open EndToEndSmkex.Smkex.Record
open EndToEndSmkex.AutoResend.MsgPayload
open EndToEndSmkex.AutoResend.Pool
open EndToEndSmkex.AutoResend.Engine
open EndToEndSmkex.AutoResend.Engine.mp_status_t
open EndToEndSmkex.AutoResend.Changes
open EndToEndSmkex.AutoResend.Search
open EndToEndSmkex.AutoResend.Queues

/-! ## The two parts of an operation -/

/-- The engine is driven with its users in this order. -/
def driven (e : MpAutoResendEngine) (started : Bool) (priority : List MpString) :
    MpAutoResendEngine :=
  { e with started_ := started, priority_ := priority }

/-- What an operation does: it leaves the changed engine alone, or sorts the
users and searches them. -/
inductive Operates (e : MpAutoResendEngine) (op : Op) (a : Answers) (out : Outcome) : Prop
  | rests (engine : out.engine = changed e op) (handed : out.handed = none)
      (reports : out.reports = ownReports e op)
  | sends (started : Bool) (priority : List MpString)
      (sorts : sortMessages { changed e op with started_ := started } a.missing =
        some (driven (changed e op) started priority))
      (engine : out.engine = (scan (driven (changed e op) started priority) priority).engine)
      (handed : out.handed = (scan (driven (changed e op) started priority) priority).handed)
      (reports : out.reports = ownReports e op ++
        (scan (driven (changed e op) started priority) priority).reports)

section Operations

variable {e : MpAutoResendEngine} {op : Op} {a : Answers} {out : Outcome}

/-- Sending, after these reports. -/
theorem Operates.of_sendMessage {sent : Outcome} (started : Bool)
    (h : sendMessage { changed e op with started_ := started } a.missing = some sent)
    (hout : out = { sent with reports := ownReports e op ++ sent.reports }) :
    Operates e op a out := by
  rw [sendMessage, Option.map_eq_some_iff] at h
  obtain ⟨e₂, hsort, rfl⟩ := h
  obtain ⟨⟨priority, rfl, -⟩, -⟩ := sortMessages_spec hsort
  subst hout
  exact .sends started priority hsort rfl rfl rfl

theorem Operates.of_idle (hown : ownReports e op = [])
    (h : (changed e op).idle a.missing = some out) : Operates e op a out := by
  unfold MpAutoResendEngine.idle at h
  by_cases hm : a.missing = []
  · rw [if_pos hm] at h
    cases h
    exact .rests rfl rfl hown.symm
  · rw [if_neg hm] at h
    cases h

theorem Operates.of_startEngine (hown : ownReports e op = [])
    (h : startEngine (changed e op) a = some out) : Operates e op a out := by
  unfold startEngine at h
  by_cases hstart : (a.isSipStackStarted && !(changed e op).started_) = true
  · rw [if_pos hstart] at h
    apply Operates.of_sendMessage true h
    rw [hown]
    rfl
  · rw [if_neg hstart] at h
    exact Operates.of_idle hown h

/-- **Every operation changes the engine and then drives it or leaves it
alone.** -/
theorem operate_operates (h : operate e op a = some out) : Operates e op a out := by
  by_cases hop : ∃ m status, op = .messageStatus m status
  · obtain ⟨m, status, rfl⟩ := hop
    obtain ⟨sent, hsent, rfl⟩ := Option.map_eq_some_iff.1 h
    -- a status drives the engine whether it has been started or not
    let changed' := changed e (.messageStatus m status)
    have hsend : sendMessage { changed' with started_ := changed'.started_ } a.missing =
        some sent := hsent
    exact Operates.of_sendMessage changed'.started_ hsend rfl
  · have hother : ∀ m status, op ≠ .messageStatus m status :=
      fun m status heq => hop ⟨m, status, heq⟩
    have hown : ownReports e op = [] := by
      cases op with
      | messageStatus m status => exact absurd rfl (hother m status)
      | _ => rfl
    rcases operate_eq e a hother with hstart | hidle
    · exact Operates.of_startEngine hown (hstart ▸ h)
    · exact Operates.of_idle hown (hidle ▸ h)

end Operations

/-! ## What an operation makes of the queues -/

/-- The messages for one user. -/
def forUser (serial : MpString) (messages : List MpMsgPayload) : List MpMsgPayload :=
  messages.filter fun m => m.userSerial_ = serial

section Changes

variable {e : MpAutoResendEngine}

theorem queue_addAll (ms : List MpMsgPayload) (serial : MpString) :
    ∀ e : MpAutoResendEngine,
      queue (ms.foldl addMessageInternal e) serial =
        queue e serial ++ (forUser serial ms).map MpMsgPayload.markAsUnProcessed := by
  induction ms with
  | nil =>
      intro e
      simp [forUser]
  | cons m ms ih =>
      intro e
      rw [List.foldl_cons, ih, queue_addMessageInternal]
      by_cases hserial : serial = m.userSerial_
      · subst hserial
        simp [forUser]
      · have hother : ¬ m.userSerial_ = serial := fun h => hserial h.symm
        simp [forUser, hserial, hother]

/-- The queue of a user after each kind of operation. -/
theorem queue_changed (op : Op) (s : MpString) :
    queue (changed e op) s =
      match op with
      | .messageStatus m status =>
        if status = MP_MESSAGE_SENT ∧ s = m.userSerial_ then
          (queue e s).eraseP fun x => x.uid_ == m.uid_
        else queue e s
      | .removeMessagesForSerial serial => if s = serial then [] else queue e s
      | op => queue e s ++ (forUser s (addedBy op)).map MpMsgPayload.markAsUnProcessed := by
  have hnothing : queue e s ++ (forUser s []).map MpMsgPayload.markAsUnProcessed =
      queue e s := List.append_nil _
  have hkept : ∀ {op}, KeepsQueues op → queue (changed e op) s =
      queue e s ++ (forUser s []).map MpMsgPayload.markAsUnProcessed := by
    intro op hop
    rw [(sameQueues_changed hop).queue, hnothing]
  cases op with
  | addMessage m => exact queue_addAll [m] s e
  | syncWithDBConnectors contents =>
      rw [changed, syncWithDBConnectors_eq]
      exact queue_addAll contents.flatten s e
  | messageStatus m status =>
      by_cases hsent : status = MP_MESSAGE_SENT
      · subst hsent
        simp only [changed, true_and]
        exact queue_settle_sent e m s
      · simp only [changed, hsent, false_and, if_false]
        rw [(settle_not_sent e m hsent).queue]
  | buddy_state2 serial state => exact hkept trivial
  | resendMessage serial msgId => exact hkept trivial
  | setAutoResendEnabled autoResendEnabled => exact hkept trivial
  | removeMessagesForSerial serial => exact queue_removeMessagesForSerial e serial s

end Changes

/-- The user whose message is picked, and those who were passed over. -/
theorem picked_of_picks {e : MpAutoResendEngine} {serials : List MpString} {m : MpMsgPayload}
    (h : Picks e serials (some m)) :
    ∃ passed serial rest, serials = passed ++ serial :: rest ∧
      (∀ s ∈ passed, ¬ Eligible e s) ∧ Eligible e serial ∧ Holds e serial m := by
  cases h with
  | @first passed rest serial pool split before eligible found =>
      refine ⟨passed, serial, rest, split, before, eligible, pool, found, ?_⟩
      obtain ⟨-, -, hretries⟩ := (eligible_iff found).1 eligible
      exact pool.getMessage_mem _ hretries

/-! ## What an operation leaves and hands over -/

section Outcomes

variable {e : MpAutoResendEngine} {op : Op} {a : Answers} {out : Outcome}

theorem Operates.sameQueues (h : Operates e op a out) : SameQueues (changed e op) out.engine := by
  cases h with
  | rests engine handed reports =>
      rw [engine]
      exact SameQueues.refl _
  | sends started priority sorts engine handed reports =>
      obtain ⟨⟨priority', heq, hperm⟩, -⟩ := sortMessages_spec sorts
      have hpriority : priority = priority' := congrArg MpAutoResendEngine.priority_ heq
      rw [engine, hpriority]
      have hsorted : SameQueues (changed e op) (driven (changed e op) started priority') :=
        ⟨rfl, hperm⟩
      exact hsorted.trans (scan_spec priority' (driven (changed e op) started priority')).1

theorem Operates.queue (h : Operates e op a out) :
    Queues.queue out.engine = Queues.queue (changed e op) :=
  h.sameQueues.queue

theorem Operates.autoResend (h : Operates e op a out) :
    out.engine.autoResendEnabled_ = (changed e op).autoResendEnabled_ := by
  cases h with
  | rests engine handed reports => rw [engine]
  | sends started priority sorts engine handed reports =>
      rw [engine]
      exact (scan_scanned priority (driven (changed e op) started priority)).autoResend

/-- Pools that are not marked stay as the operation has made them. -/
theorem Operates.pools (h : Operates e op a out) (serial : MpString) :
    out.engine.userPool_ serial = (changed e op).userPool_ serial ∨
      out.engine.userPool_ serial =
        ((changed e op).userPool_ serial).map (marked (changed e op).dbConnectors_) := by
  cases h with
  | rests engine handed reports =>
      rw [engine]
      exact Or.inl rfl
  | sends started priority sorts engine handed reports =>
      rw [engine]
      exact (scan_scanned priority (driven (changed e op) started priority)).pools serial

/-- Every pool afterwards is one that the operation has made, or such a pool
marked. -/
theorem Operates.forall_pools (h : Operates e op a out) {P : MpString → MpMsgPool → Prop}
    (hmade : ∀ serial pool, Becomes e op serial pool → P serial pool)
    (hmarked : ∀ serial pool, pool.dirty_ = true → P serial pool →
      P serial (markUserPoolProcessed (changed e op).dbConnectors_ pool).1) :
    ∀ serial pool, out.engine.userPool_ serial = some pool → P serial pool := by
  intro serial pool hpool
  rcases h.pools serial with hsame | hafter
  · exact hmade serial pool (becomes_of_changed (hsame ▸ hpool))
  · rw [hafter] at hpool
    obtain ⟨before, hbefore, rfl⟩ := Option.map_eq_some_iff.1 hpool
    have hP := hmade serial before (becomes_of_changed hbefore)
    by_cases hdirty : before.dirty_ = true
    · rw [marked_dirty _ hdirty]
      exact hmarked serial before hdirty hP
    · rw [marked_clean _ (Bool.eq_false_iff.2 hdirty)]
      exact hP

/-- The search reports nothing when no dirty pool has anything to report. -/
theorem Operates.silent (h : Operates e op a out)
    (hnothing : ∀ serial pool, Becomes e op serial pool → pool.dirty_ = true →
      (markUserPoolProcessed (changed e op).dbConnectors_ pool).2 = []) :
    out.reports = ownReports e op := by
  cases h with
  | rests engine handed reports => exact reports
  | sends started priority sorts engine handed reports =>
      have hscan := scan_scanned priority (driven (changed e op) started priority)
      have hnone : (scan (driven (changed e op) started priority) priority).reports = [] := by
        apply List.eq_nil_iff_forall_not_mem.2
        intro r hr
        obtain ⟨serial, pool, hpool, hdirty, hmem⟩ := hscan.reports r hr
        have hempty := hnothing serial pool (becomes_of_changed hpool) hdirty
        rw [show (driven (changed e op) started priority).dbConnectors_ =
          (changed e op).dbConnectors_ from rfl, hempty] at hmem
        cases hmem
      rw [reports, hnone, List.append_nil]

/-- A pool that is clean afterwards was not marked. -/
theorem Operates.unmarked (h : Operates e op a out) {serial : MpString} {pool : MpMsgPool}
    (hpool : out.engine.userPool_ serial = some pool) (hclean : pool.dirty_ = false) :
    (changed e op).userPool_ serial = some pool := by
  rcases h.pools serial with hsame | hmarked
  · rw [← hsame, hpool]
  · rw [hmarked] at hpool
    obtain ⟨before, hbefore, rfl⟩ := Option.map_eq_some_iff.1 hpool
    rw [dirty_marked] at hclean
    rw [hbefore, marked_clean _ hclean]

/-- What is handed over comes from a clean pool of the changed engine. -/
theorem Operates.handed (h : Operates e op a out) {m : MpMsgPayload}
    (hm : out.handed = some m) :
    ∃ serial pool, (changed e op).userPool_ serial = some pool ∧ pool.messages_ ≠ [] ∧
      m = pool.getMessage (changed e op).autoResendEnabled_ ∧ 0 < m.numberOfRetries_ := by
  cases h with
  | rests engine handed reports =>
      rw [handed] at hm
      cases hm
  | sends started priority sorts engine handed reports =>
      have hpicks := (scan_scanned priority (driven (changed e op) started priority)).picks
      rw [← handed, hm] at hpicks
      cases hpicks with
      | @first passed rest serial pool split before eligible found =>
          obtain ⟨hmessages, -, hretries⟩ := (eligible_iff found).1 eligible
          exact ⟨serial, pool, found, hmessages, rfl, hretries⟩

end Outcomes

/-! ## Who is served -/

section Served

variable {e e' : MpAutoResendEngine} {op : Op} {a : Answers} {out : Outcome}

/-- Everybody with messages is served. -/
def Listed (e : MpAutoResendEngine) : Prop :=
  ∀ serial, (contents e serial).isSome → serial ∈ e.priority_

theorem Listed.congr (h : Listed e) (hq : SameQueues e e') : Listed e' := by
  intro serial hsome
  rw [hq.contents] at hsome
  exact hq.priority.mem_iff.2 (h serial hsome)

theorem Listed.addMessageInternal (h : Listed e) (m : MpMsgPayload) :
    Listed (Engine.addMessageInternal e m) := by
  intro serial hsome
  rw [contents_addMessageInternal] at hsome
  rw [priority_addMessageInternal]
  by_cases hserial : serial = m.userSerial_
  · subst hserial
    by_cases hpool : (contents e m.userSerial_).isSome
    · rw [if_pos hpool]
      exact h _ hpool
    · rw [if_neg hpool]
      simp
  · rw [Function.update_of_ne hserial] at hsome
    have hmem := h serial hsome
    by_cases hpool : (contents e m.userSerial_).isSome
    · rw [if_pos hpool]
      exact hmem
    · rw [if_neg hpool]
      exact List.mem_append_left _ hmem

theorem Listed.addAll (h : Listed e) (ms : List MpMsgPayload) :
    Listed (ms.foldl Engine.addMessageInternal e) :=
  List.foldlRecOn ms Engine.addMessageInternal h fun _ h m _ => h.addMessageInternal m

theorem Listed.settle (h : Listed e) (m : MpMsgPayload) (status : mp_status_t) :
    Listed (Engine.settle e m status).1 := by
  by_cases hsent : status = MP_MESSAGE_SENT
  · subst hsent
    cases hms : contents e m.userSerial_ with
    | none =>
        rw [settle_none e m _ hms]
        exact h
    | some ms =>
        have hsettled := settle_sent e m hms
        intro serial hsome
        by_cases hleft : (ms.eraseP fun x => x.uid_ == m.uid_) = []
        · simp only [hleft, if_true] at hsettled
          rw [hsettled.1] at hsome
          by_cases hserial : serial = m.userSerial_
          · subst hserial
            simp at hsome
          · rw [Function.update_of_ne hserial] at hsome
            rw [hsettled.2]
            exact (List.mem_erase_of_ne hserial).2 (h serial hsome)
        · simp only [hleft, if_false] at hsettled
          rw [hsettled.1] at hsome
          rw [hsettled.2]
          by_cases hserial : serial = m.userSerial_
          · subst hserial
            exact h _ (by rw [hms]; rfl)
          · rw [Function.update_of_ne hserial] at hsome
            exact h serial hsome
  · exact h.congr (settle_not_sent e m hsent)

theorem Listed.changed (h : Listed e) (op : Op) : Listed (Changes.changed e op) := by
  cases op with
  | addMessage m => exact h.addMessageInternal m
  | syncWithDBConnectors contents =>
      rw [Changes.changed, syncWithDBConnectors_eq]
      exact h.addAll contents.flatten
  | messageStatus m status => exact h.settle m status
  | buddy_state2 serial state => exact h.congr (sameQueues_changed trivial)
  | resendMessage serial msgId => exact h.congr (sameQueues_changed trivial)
  | setAutoResendEnabled autoResendEnabled => exact h
  | removeMessagesForSerial user =>
      intro serial hsome
      rw [Changes.changed, contents_removeMessagesForSerial] at hsome
      by_cases hserial : serial = user
      · subst hserial
        simp at hsome
      · rw [Function.update_of_ne hserial] at hsome
        exact h serial hsome

theorem Listed.operates (h : Listed e) (hoperates : Operates e op a out) : Listed out.engine :=
  (h.changed op).congr hoperates.sameQueues

end Served

end EndToEndSmkex.AutoResend.Selection
