import EndToEndSmkex.AutoResend.Changes
import EndToEndSmkex.AutoResend.Search

/-!
# What the operations do to the queues

The engine's `contents` are its pools without weights and flags.  Four
operations change them; everything else an operation does — marking, weighing,
sorting, sending — keeps the contents and only rearranges the users.

## Main results

* `operate_cases` — every operation changes the queues and then drives the
  engine or leaves it alone.
* `sendMessage_total` — sending ends where every user has a pool.
-/

namespace EndToEndSmkex.AutoResend.Queues

open EndToEndSmkex.Lib.BubbleSort
open EndToEndSmkex.Smkex.Record
open EndToEndSmkex.AutoResend.MsgPayload
open EndToEndSmkex.AutoResend.Pool
open EndToEndSmkex.AutoResend.Engine
open EndToEndSmkex.AutoResend.Engine.mp_status_t
open EndToEndSmkex.AutoResend.Changes
open EndToEndSmkex.AutoResend.Search

/-- The messages queued for each user, processed flags aside. -/
def contents (e : MpAutoResendEngine) (serial : MpString) : Option (List MpMsgPayload) :=
  (e.userPool_ serial).map MpMsgPool.contents

/-- The queue of a user, empty without a pool. -/
def queue (e : MpAutoResendEngine) (serial : MpString) : List MpMsgPayload :=
  (contents e serial).getD []

/-- A message waits in the pool of this user. -/
def Holds (e : MpAutoResendEngine) (serial : MpString) (m : MpMsgPayload) : Prop :=
  ∃ pool, e.userPool_ serial = some pool ∧ m ∈ pool.messages_

/-- The same messages wait for the same users. -/
structure SameQueues (e e' : MpAutoResendEngine) : Prop where
  contents : contents e' = contents e
  priority : e'.priority_.Perm e.priority_

theorem SameQueues.refl (e : MpAutoResendEngine) : SameQueues e e :=
  ⟨rfl, List.Perm.refl _⟩

theorem SameQueues.trans {e e' e'' : MpAutoResendEngine} (h : SameQueues e e')
    (h' : SameQueues e' e'') : SameQueues e e'' :=
  ⟨h'.contents.trans h.contents, h'.priority.trans h.priority⟩

theorem contents_setPool (e : MpAutoResendEngine) (serial : MpString) (pool : Option MpMsgPool) :
    contents (e.setPool serial pool) =
      Function.update (contents e) serial (pool.map MpMsgPool.contents) := by
  funext s
  by_cases hs : s = serial
  · subst hs
    simp [contents, MpAutoResendEngine.setPool]
  · simp [contents, MpAutoResendEngine.setPool, hs]

/-- Putting back a pool with the same messages. -/
theorem sameQueues_setPool {e : MpAutoResendEngine} {serial : MpString} {pool pool' : MpMsgPool}
    (hpool : e.userPool_ serial = some pool) (h : pool'.contents = pool.contents) :
    SameQueues e (e.setPool serial (some pool')) := by
  refine ⟨?_, List.Perm.refl _⟩
  have hold : contents e serial = some pool.contents := by simp [contents, hpool]
  rw [contents_setPool, Option.map_some, h, ← hold, Function.update_eq_self]

theorem Holds.mem_queue {e : MpAutoResendEngine} {serial : MpString} {m : MpMsgPayload}
    (h : Holds e serial m) : m.markAsUnProcessed ∈ queue e serial := by
  obtain ⟨pool, hpool, hm⟩ := h
  have hqueue : queue e serial = pool.contents := by simp [queue, contents, hpool]
  rw [hqueue]
  exact List.mem_map_of_mem hm

theorem SameQueues.queue {e e' : MpAutoResendEngine} (h : SameQueues e e') :
    Queues.queue e' = Queues.queue e := by
  funext serial
  rw [Queues.queue, h.contents]
  rfl

/-! ## Marking -/

@[simp] theorem weight_markUserPoolAsClean (autoResendEnabled : Bool) (pool : MpMsgPool) :
    (markUserPoolAsClean autoResendEnabled pool).weight_ = 0 := by
  cases autoResendEnabled <;> rfl

@[simp] theorem dirty_markUserPoolAsClean (autoResendEnabled : Bool) (pool : MpMsgPool) :
    (markUserPoolAsClean autoResendEnabled pool).dirty_ = false := by
  cases autoResendEnabled <;> rfl

theorem markUserPoolAsClean_contents (autoResendEnabled : Bool) (pool : MpMsgPool) :
    (markUserPoolAsClean autoResendEnabled pool).contents = pool.contents := by
  unfold markUserPoolAsClean
  by_cases hauto : autoResendEnabled = true
  · simp [hauto, MpMsgPool.contents, Function.comp_def, MpMsgPool.setWeight,
      MpMsgPool.markAsClean, MpMsgPayload.markAsUnProcessed]
  · simp [hauto]

/-- The marks `resendMessage` sets. -/
theorem contents_resent (pool : MpMsgPool) (msgId : Int) :
    (pool.markMsgAsUnprocessed msgId).markAsClean.contents = pool.contents := by
  rw [MpMsgPool.contents_markAsClean, MpMsgPool.contents_markMsgAsUnprocessed]

theorem sameQueues_prioritize (e : MpAutoResendEngine) (serial : MpString) :
    SameQueues e (prioritize e serial) := by
  refine ⟨?_, List.Perm.refl _⟩
  funext s
  cases hpool : e.userPool_ s with
  | none => simp [contents, prioritize, hpool]
  | some pool =>
      simp only [contents, prioritize, hpool, Option.map_some, Option.some.injEq]
      by_cases hs : s = serial
      · rw [if_pos hs, MpMsgPool.contents_setWeight]
      · rw [if_neg hs, MpMsgPool.contents_setWeight]

/-! ## Sending -/

/-- What a call of `sendMessage` does: it keeps the queues, and either it hands
a queued message with retries left to the transport or the engine stops. -/
structure Sends (e : MpAutoResendEngine) (missing : List Bool) (out : Outcome) : Prop where
  queues : SameQueues e out.engine
  next : (out.handed = none ∧ out.engine.started_ = false) ∨
    ∃ serial m, out.handed = some m ∧ 0 < m.numberOfRetries_ ∧
      Holds out.engine serial m ∧ out.engine.started_ = e.started_
  defined : (∀ serial ∈ e.priority_, (contents e serial).isSome) → missing = []

/-- The search keeps the queues.  Either it stops the engine, or it finds a
message that is queued. -/
theorem scan_spec (serials : List MpString) (e : MpAutoResendEngine) :
    SameQueues e (scan e serials).engine ∧
      (((scan e serials).handed = none ∧ (scan e serials).engine.started_ = false) ∨
        ∃ serial m, (scan e serials).handed = some m ∧ 0 < m.numberOfRetries_ ∧
          Holds (scan e serials).engine serial m ∧
          (scan e serials).engine.started_ = e.started_) := by
  have hscan := scan_scanned serials e
  have hstarted := scan_started serials e
  have hpicks := hscan.picks
  refine ⟨⟨?_, hscan.priority ▸ List.Perm.refl _⟩, ?_⟩
  · funext serial
    rcases hscan.pools serial with hsame | hmarked
    · rw [contents, hsame, contents]
    · rw [contents, hmarked, Option.map_map, contents]
      exact congrArg (fun f => (e.userPool_ serial).map f)
        (funext (marked_contents e.dbConnectors_))
  · cases hhanded : (scan e serials).handed with
    | none =>
        rw [hhanded] at hstarted
        exact Or.inl ⟨rfl, hstarted⟩
    | some m =>
        rw [hhanded] at hstarted hpicks
        cases hpicks with
        | @first passed rest serial pool split before eligible found =>
            obtain ⟨-, hclean, hretries⟩ := (eligible_iff found).1 eligible
            have hkept := hscan.clean found hclean
            exact Or.inr ⟨serial, _, rfl, hretries,
              ⟨pool, hkept, pool.getMessage_mem _ hretries⟩, hstarted⟩

/-- Where both serials have pools, the comparison is that of their weights. -/
theorem weighs_priority {e : MpAutoResendEngine}
    (h : ∀ serial ∈ e.priority_, (contents e serial).isSome) :
    Weighs (fun serial => ((e.userPool_ serial).map MpMsgPool.weight_).getD 0)
      (weightSortCmp e) e.priority_ := by
  intro s hs t ht
  have hsome : ∀ serial ∈ e.priority_, ∃ pool, e.userPool_ serial = some pool := by
    intro serial hserial
    have hc := h serial hserial
    rw [contents, Option.isSome_map, Option.isSome_iff_exists] at hc
    exact hc
  obtain ⟨pool, hpool⟩ := hsome s hs
  obtain ⟨pool', hpool'⟩ := hsome t ht
  simp [weightSortCmp, hpool, hpool']

theorem sortMessages_spec {e e' : MpAutoResendEngine} {missing : List Bool}
    (h : sortMessages e missing = some e') :
    (∃ priority, e' = { e with priority_ := priority } ∧ priority.Perm e.priority_) ∧
      ((∀ serial ∈ e.priority_, (contents e serial).isSome) → missing = []) := by
  obtain ⟨priority, hsort, rfl⟩ := sortMessages_eq_some h
  refine ⟨⟨priority, rfl, bubbleSort_perm hsort⟩, ?_⟩
  intro hall
  obtain ⟨ys, hys⟩ := bubbleSort_total missing (weighs_priority hall)
  rw [hsort] at hys
  cases hys
  rfl

theorem sendMessage_spec {e : MpAutoResendEngine} {missing : List Bool} {out : Outcome}
    (h : sendMessage e missing = some out) : Sends e missing out := by
  rw [sendMessage, Option.map_eq_some_iff] at h
  obtain ⟨e', hsort, rfl⟩ := h
  obtain ⟨⟨priority, rfl, hperm⟩, hdefined⟩ := sortMessages_spec hsort
  have hsorted : SameQueues e { e with priority_ := priority } := ⟨rfl, hperm⟩
  have hscan := scan_spec priority { e with priority_ := priority }
  exact ⟨hsorted.trans hscan.1, hscan.2, hdefined⟩

/-- Where every user has a pool, sending ends and looks up nothing that is
missing. -/
theorem sendMessage_total {e : MpAutoResendEngine}
    (h : ∀ serial ∈ e.priority_, (contents e serial).isSome) :
    ∃ out, sendMessage e [] = some out := by
  obtain ⟨priority, hsort⟩ := bubbleSort_total [] (weighs_priority h)
  exact ⟨scan { e with priority_ := priority } priority, by
    simp [sendMessage, sortMessages, hsort]⟩

/-- An engine that may be driven: it is left alone, or it waited and sends. -/
inductive Drives (e : MpAutoResendEngine) (missing : List Bool) (out : Outcome) : Prop
  | idle (engine : out.engine = e) (handed : out.handed = none) (missing : missing = [])
  | sends (waiting : e.started_ = false)
      (sends : Sends { e with started_ := true } missing out)

theorem idle_spec {e : MpAutoResendEngine} {missing : List Bool} {out : Outcome}
    (h : e.idle missing = some out) :
    out.engine = e ∧ out.handed = none ∧ missing = [] := by
  unfold MpAutoResendEngine.idle at h
  by_cases hm : missing = []
  · rw [if_pos hm] at h
    cases h
    exact ⟨rfl, rfl, hm⟩
  · rw [if_neg hm] at h
    cases h

theorem idle_drives {e : MpAutoResendEngine} {missing : List Bool} {out : Outcome}
    (h : e.idle missing = some out) : Drives e missing out :=
  Drives.idle (idle_spec h).1 (idle_spec h).2.1 (idle_spec h).2.2

theorem startEngine_drives {e : MpAutoResendEngine} {a : Answers} {out : Outcome}
    (h : startEngine e a = some out) : Drives e a.missing out := by
  unfold startEngine at h
  by_cases hstart : (a.isSipStackStarted && !e.started_) = true
  · rw [if_pos hstart] at h
    have hwaiting : e.started_ = false := by
      rw [Bool.and_eq_true, Bool.not_eq_true'] at hstart
      exact hstart.2
    exact Drives.sends hwaiting (sendMessage_spec h)
  · rw [if_neg hstart] at h
    exact idle_drives h

/-! ## Adding, settling and removing -/

theorem contents_addMessageInternal (e : MpAutoResendEngine) (m : MpMsgPayload) :
    contents (addMessageInternal e m) =
      Function.update (contents e) m.userSerial_
        (some ((contents e m.userSerial_).getD [] ++ [m.markAsUnProcessed])) := by
  unfold addMessageInternal
  cases hpool : e.userPool_ m.userSerial_ with
  | none =>
      have hold : contents e m.userSerial_ = none := by simp [contents, hpool]
      show contents (e.setPool m.userSerial_ _) = _
      rw [contents_setPool, Option.map_some, markUserPoolAsClean_contents, hold]
      rfl
  | some pool =>
      have hold : contents e m.userSerial_ = some pool.contents := by simp [contents, hpool]
      show contents (e.setPool m.userSerial_ _) = _
      rw [contents_setPool, Option.map_some, markUserPoolAsClean_contents, hold,
        MpMsgPool.contents_addMessage]
      rfl

theorem priority_addMessageInternal (e : MpAutoResendEngine) (m : MpMsgPayload) :
    (addMessageInternal e m).priority_ =
      if (contents e m.userSerial_).isSome then e.priority_
      else e.priority_ ++ [m.userSerial_] := by
  unfold addMessageInternal
  cases hpool : e.userPool_ m.userSerial_ with
  | none => simp [contents, hpool]
  | some pool => simp [contents, hpool, MpAutoResendEngine.setPool]

/-- A message that was not sent stays where it is. -/
theorem settle_not_sent (e : MpAutoResendEngine) (m : MpMsgPayload) {status : mp_status_t}
    (h : status ≠ MP_MESSAGE_SENT) : SameQueues e (settle e m status).1 := by
  have hsettled := settle_settled e m status
  generalize (settle e m status).1 = e' at hsettled ⊢
  cases hsettled with
  | absent none => exact SameQueues.refl e
  | emptied found sent last => exact absurd sent h
  | shortened found sent left => exact absurd sent h
  | failed found failure =>
      exact sameQueues_setPool found (by simp [markUserPoolProcessed_contents])

/-- Without a pool there is nothing to settle. -/
theorem settle_none (e : MpAutoResendEngine) (m : MpMsgPayload) (status : mp_status_t)
    (h : contents e m.userSerial_ = none) : (settle e m status).1 = e := by
  have hpool : e.userPool_ m.userSerial_ = none := by simpa [contents] using h
  simp [settle, hpool]

/-- A message that was sent takes the first message with its UID away, and the
pool with it when it was the last. -/
theorem settle_sent (e : MpAutoResendEngine) (m : MpMsgPayload) {ms : List MpMsgPayload}
    (h : contents e m.userSerial_ = some ms) :
    let left := ms.eraseP fun x => x.uid_ == m.uid_
    if left = [] then
      contents (settle e m MP_MESSAGE_SENT).1 =
          Function.update (contents e) m.userSerial_ none ∧
        (settle e m MP_MESSAGE_SENT).1.priority_ = e.priority_.erase m.userSerial_
    else
      contents (settle e m MP_MESSAGE_SENT).1 =
          Function.update (contents e) m.userSerial_ (some left) ∧
        (settle e m MP_MESSAGE_SENT).1.priority_ = e.priority_ := by
  obtain ⟨pool, hpool, rfl⟩ := Option.map_eq_some_iff.1 h
  intro left
  have hfound : ∀ {p}, e.userPool_ m.userSerial_ = some p → p = pool := by
    intro p hp
    rw [hpool, Option.some.injEq] at hp
    exact hp.symm
  have hleft : ((pool.markMsgAsProcessed m.uid_).rmMessage m.uid_).contents = left := by
    simp [left]
  have hempty : ((pool.markMsgAsProcessed m.uid_).rmMessage m.uid_).messages_ = [] ↔
      left = [] := by
    rw [← hleft, MpMsgPool.contents, List.map_eq_nil_iff]
  have hsettled := settle_settled e m MP_MESSAGE_SENT
  generalize (settle e m MP_MESSAGE_SENT).1 = e' at hsettled ⊢
  cases hsettled with
  | absent none =>
      rw [hpool] at none
      cases none
  | emptied found sent last =>
      obtain rfl := hfound found
      rw [if_pos (hempty.1 last)]
      exact ⟨contents_setPool e m.userSerial_ none, rfl⟩
  | shortened found sent rest =>
      obtain rfl := hfound found
      rw [if_neg fun hnil => rest (hempty.2 hnil)]
      refine ⟨?_, rfl⟩
      rw [contents_setPool, Option.map_some, MpMsgPool.contents_setWeight, hleft]
  | failed found failure => exact absurd rfl failure

theorem contents_removeMessagesForSerial (e : MpAutoResendEngine) (serial : MpString) :
    contents (removeMessagesForSerial e serial) = Function.update (contents e) serial none :=
  contents_setPool e serial none

/-! ## The queues after these operations -/

theorem queue_update {e e' : MpAutoResendEngine} {serial : MpString}
    {ms : Option (List MpMsgPayload)}
    (h : contents e' = Function.update (contents e) serial ms) (s : MpString) :
    queue e' s = if s = serial then ms.getD [] else queue e s := by
  unfold queue
  rw [h]
  by_cases hs : s = serial
  · subst hs
    rw [Function.update_self, if_pos rfl]
  · rw [Function.update_of_ne hs, if_neg hs]

theorem queue_addMessageInternal (e : MpAutoResendEngine) (m : MpMsgPayload) (s : MpString) :
    queue (addMessageInternal e m) s =
      if s = m.userSerial_ then queue e s ++ [m.markAsUnProcessed] else queue e s := by
  rw [queue_update (contents_addMessageInternal e m)]
  by_cases hs : s = m.userSerial_
  · subst hs
    rw [if_pos rfl, if_pos rfl]
    rfl
  · rw [if_neg hs, if_neg hs]

theorem queue_settle_sent (e : MpAutoResendEngine) (m : MpMsgPayload) (s : MpString) :
    queue (settle e m MP_MESSAGE_SENT).1 s =
      if s = m.userSerial_ then (queue e s).eraseP fun x => x.uid_ == m.uid_
      else queue e s := by
  cases hms : contents e m.userSerial_ with
  | none =>
      rw [settle_none e m _ hms]
      by_cases hs : s = m.userSerial_
      · subst hs
        simp [queue, hms]
      · rw [if_neg hs]
  | some ms =>
      have hsettled := settle_sent e m hms
      by_cases hleft : (ms.eraseP fun x => x.uid_ == m.uid_) = []
      · simp only [hleft, if_true] at hsettled
        rw [queue_update hsettled.1]
        by_cases hs : s = m.userSerial_
        · subst hs
          simp [queue, hms, hleft]
        · rw [if_neg hs, if_neg hs]
      · simp only [hleft, if_false] at hsettled
        rw [queue_update hsettled.1]
        by_cases hs : s = m.userSerial_
        · subst hs
          simp [queue, hms]
        · rw [if_neg hs, if_neg hs]

theorem queue_removeMessagesForSerial (e : MpAutoResendEngine) (serial s : MpString) :
    queue (removeMessagesForSerial e serial) s = if s = serial then [] else queue e s :=
  queue_update (contents_removeMessagesForSerial e serial) s

/-! ## The operations -/

/-- An operation that keeps the queues and may drive the engine. -/
def Nudges (e : MpAutoResendEngine) (missing : List Bool) (out : Outcome) : Prop :=
  ∃ e', SameQueues e e' ∧ e'.started_ = e.started_ ∧ Drives e' missing out

/-- These operations keep the queues. -/
def KeepsQueues : Op → Prop
  | .buddy_state2 _ _ | .resendMessage _ _ | .setAutoResendEnabled _ => True
  | _ => False

theorem sameQueues_changed {e : MpAutoResendEngine} {op : Op} (hop : KeepsQueues op) :
    SameQueues e (changed e op) := by
  cases op with
  | buddy_state2 serial state =>
      rcases changed_buddy_state2 e serial state with hsame | ⟨pool, hpool, -, hclean⟩
      · rw [hsame]
        exact SameQueues.refl e
      · rw [hclean]
        exact sameQueues_setPool hpool (markUserPoolAsClean_contents _ pool)
  | resendMessage serial msgId =>
      rcases changed_resendMessage e serial msgId with hsame | ⟨pool, hpool, -, hresent⟩
      · rw [hsame]
        exact SameQueues.refl e
      · rw [hresent]
        exact (sameQueues_setPool hpool (contents_resent pool msgId)).trans
          (sameQueues_prioritize _ serial)
  | setAutoResendEnabled autoResendEnabled => exact ⟨rfl, List.Perm.refl _⟩
  | addMessage m => exact absurd hop id
  | syncWithDBConnectors contents => exact absurd hop id
  | messageStatus m status => exact absurd hop id
  | removeMessagesForSerial serial => exact absurd hop id

theorem operate_nudges {e : MpAutoResendEngine} {op : Op} {a : Answers} {out : Outcome}
    (h : operate e op a = some out) (hop : KeepsQueues op) : Nudges e a.missing out := by
  refine ⟨changed e op, sameQueues_changed hop, started_changed op, ?_⟩
  have hother : ∀ m status, op ≠ .messageStatus m status := by
    rintro m status rfl
    exact hop
  rcases operate_eq e a hother with hstart | hidle
  · exact startEngine_drives (hstart ▸ h)
  · exact idle_drives (hidle ▸ h)

/-- What an operation does: a change of the queues, and then the engine is
driven or left alone. -/
theorem operate_cases {e : MpAutoResendEngine} {op : Op} {a : Answers} {out : Outcome}
    (h : operate e op a = some out) :
    match op with
    | .addMessage message => Drives (addMessageInternal e message) a.missing out
    | .syncWithDBConnectors contents =>
      out.engine = syncWithDBConnectors e contents ∧ out.handed = none ∧ a.missing = []
    | .messageStatus message status => Sends (settle e message status).1 a.missing out
    | .buddy_state2 _ _ | .resendMessage _ _ | .setAutoResendEnabled _ => Nudges e a.missing out
    | .removeMessagesForSerial serial =>
      out.engine = removeMessagesForSerial e serial ∧ out.handed = none ∧ a.missing = [] := by
  cases op with
  | addMessage message => exact startEngine_drives h
  | syncWithDBConnectors contents => exact idle_spec h
  | messageStatus message status =>
      obtain ⟨sent, hsent, rfl⟩ := Option.map_eq_some_iff.1 h
      have hs := sendMessage_spec hsent
      exact ⟨hs.queues, hs.next, hs.defined⟩
  | buddy_state2 serial state => exact operate_nudges h trivial
  | resendMessage serial msgId => exact operate_nudges h trivial
  | setAutoResendEnabled autoResendEnabled => exact operate_nudges h trivial
  | removeMessagesForSerial serial => exact idle_spec h

end EndToEndSmkex.AutoResend.Queues
