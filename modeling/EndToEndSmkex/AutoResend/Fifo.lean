import EndToEndSmkex.AutoResend.Selection
import EndToEndSmkex.AutoResend.Representation

/-!
# First in, first out

With auto-resend the engine sends the front of a queue, and a message that was
sent leaves the queue of its user by its UID.  The two agree, whatever the UIDs
are, because the message in flight stays at the front: new messages go to the
end, and nothing but a confirmation takes a message away.

The engine trusts whoever calls `messageStatus`: a message that is confirmed a
second time takes another one with the same UID away.

## Main results

* `fifo_delivery` — for every user, the messages confirmed so far are those
  added first, and the others wait in the order in which they were added.
* `confirmed_twice` — a run that confirms a message twice.
-/

namespace EndToEndSmkex.AutoResend.Fifo

open EndToEndSmkex.Lib.Run
open EndToEndSmkex.Smkex.Record
open EndToEndSmkex.AutoResend.MsgPayload
open EndToEndSmkex.AutoResend.MsgPayload.mp_msg_type_t
open EndToEndSmkex.AutoResend.Pool
open EndToEndSmkex.AutoResend.Engine
open EndToEndSmkex.AutoResend.Engine.mp_status_t
open EndToEndSmkex.AutoResend.Changes
open EndToEndSmkex.AutoResend.Queues
open EndToEndSmkex.AutoResend.Representation
open EndToEndSmkex.AutoResend.Selection

/-! ## Runs with a history -/

/-- The engine, the message it handed to the transport last, whether that one is
still to be confirmed, and all messages added and confirmed so far. -/
structure History where
  engine : MpAutoResendEngine
  last : Option MpMsgPayload
  pending : Bool
  added : List MpMsgPayload
  confirmed : List MpMsgPayload

/-- A new engine with this setting of auto-resend. -/
def History.new (dbConnectors : List mp_msg_type_t) (autoResendEnabled : Bool) : History :=
  { engine :=
      { MpAutoResendEngine.new dbConnectors with autoResendEnabled_ := autoResendEnabled }
    last := none
    pending := false
    added := []
    confirmed := [] }

/-- The message an operation confirms. -/
def confirmedBy : Op → List MpMsgPayload
  | .messageStatus m status => if status = MP_MESSAGE_SENT then [m] else []
  | _ => []

/-- The queues have changed, and nothing has been handed over yet. -/
def History.changed (h : History) (op : Op) : History :=
  { engine := Changes.changed h.engine op
    last := h.last
    pending := h.pending && (confirmedBy op).isEmpty
    added := h.added ++ addedBy op
    confirmed := h.confirmed ++ confirmedBy op }

/-- The engine has finished. -/
def History.complete (h : History) (out : Outcome) : History :=
  { h with
    engine := out.engine
    last := out.handed.or h.last
    pending := out.handed.isSome || h.pending }

def History.step (h : History) (c : Call) : Option History :=
  (operate h.engine c.op c.answers).map fun out => (h.changed c.op).complete out

/-- The status is about the message handed over last.  The transport counts down
the retries of its copy. -/
def Reports (h : History) (m : MpMsgPayload) : Prop :=
  match h.last with
  | some l => m = l.setNumberOfRetries m.numberOfRetries_
  | none => False

instance (h : History) (m : MpMsgPayload) : Decidable (Reports h m) :=
  match h with
  | ⟨_, some l, _, _, _⟩ =>
    inferInstanceAs (Decidable (m = l.setNumberOfRetries m.numberOfRetries_))
  | ⟨_, none, _, _, _⟩ => isFalse id

/-- Auto-resend stays enabled, nothing is removed, and every status is about the
message handed over last. -/
def Faithful (h : History) (c : Call) : Prop :=
  match c.op with
  | .messageStatus m _ => Reports h m
  | .setAutoResendEnabled autoResendEnabled => autoResendEnabled = true
  | .removeMessagesForSerial _ => False
  | _ => True

instance (h : History) (c : Call) : Decidable (Faithful h c) :=
  match c with
  | ⟨.messageStatus m _, _⟩ => inferInstanceAs (Decidable (Reports h m))
  | ⟨.setAutoResendEnabled b, _⟩ => inferInstanceAs (Decidable (b = true))
  | ⟨.removeMessagesForSerial _, _⟩ => isFalse id
  | ⟨.addMessage _, _⟩ => isTrue trivial
  | ⟨.syncWithDBConnectors _, _⟩ => isTrue trivial
  | ⟨.buddy_state2 _ _, _⟩ => isTrue trivial
  | ⟨.resendMessage _ _, _⟩ => isTrue trivial

/-- A message is not confirmed again before something has been handed over. -/
def Once (h : History) (c : Call) : Prop := confirmedBy c.op ≠ [] → h.pending = true

instance (h : History) (c : Call) : Decidable (Once h c) :=
  inferInstanceAs (Decidable (_ → _))

/-- The same message, whatever its retries and its flag. -/
def core (m : MpMsgPayload) : MpMsgPayload := m.markAsUnProcessed.setNumberOfRetries 0

/-- The messages confirmed for this user are those added first, and the others
wait in the order in which they were added. -/
def InOrder (h : History) (serial : MpString) : Prop :=
  ∃ sent waiting, forUser serial h.added = sent ++ waiting ∧
    (forUser serial h.confirmed).map core = sent.map core ∧
    queue h.engine serial = waiting.map MpMsgPayload.markAsUnProcessed

/-! ## The front of the queue -/

/-- The message that is to be confirmed is at the front of its user's queue. -/
def Front (h : History) : Prop :=
  h.pending = true → ∃ l rest, h.last = some l ∧
    queue h.engine l.userSerial_ = l.markAsUnProcessed :: rest

/-- The invariant of the runs considered here. -/
structure Inv (h : History) : Prop where
  inOrder : ∀ serial, InOrder h serial
  represents : Represents h.engine
  autoResend : h.engine.autoResendEnabled_ = true
  front : Front h

theorem Inv.new (dbConnectors : List mp_msg_type_t) : Inv (History.new dbConnectors true) where
  inOrder serial := ⟨[], [], rfl, rfl, rfl⟩
  represents := (represents_new dbConnectors).congr ⟨rfl, List.Perm.refl _⟩
  autoResend := rfl
  front h := by cases h

theorem forUser_append (serial : MpString) (xs ys : List MpMsgPayload) :
    forUser serial (xs ++ ys) = forUser serial xs ++ forUser serial ys := by
  simp [forUser]

section Changes

variable {h : History} {op : Op} {serial : MpString}

/-- More messages wait behind the others. -/
theorem InOrder.add (hin : InOrder h serial) (hconfirmed : confirmedBy op = [])
    (hqueue : queue (Changes.changed h.engine op) serial =
      queue h.engine serial ++ (forUser serial (addedBy op)).map MpMsgPayload.markAsUnProcessed) :
    InOrder (h.changed op) serial := by
  obtain ⟨sent, waiting, hadded, hsent, hwaiting⟩ := hin
  refine ⟨sent, waiting ++ forUser serial (addedBy op), ?_, ?_, ?_⟩
  · show forUser serial (h.added ++ addedBy op) = _
    rw [forUser_append, hadded, List.append_assoc]
  · show (forUser serial (h.confirmed ++ confirmedBy op)).map core = _
    rw [hconfirmed, List.append_nil, hsent]
  · show queue (Changes.changed h.engine op) serial = _
    rw [hqueue, hwaiting, List.map_append]

/-- The queues stay as they are. -/
theorem InOrder.keep (hin : InOrder h serial) (hadded : addedBy op = [])
    (hconfirmed : confirmedBy op = [])
    (hqueue : queue (Changes.changed h.engine op) serial = queue h.engine serial) :
    InOrder (h.changed op) serial := by
  apply hin.add hconfirmed
  rw [hqueue, hadded]
  exact (List.append_nil _).symm

/-- The message at the front leaves, and its user's confirmed ones are one
more. -/
theorem InOrder.confirm {m : MpMsgPayload} {rest : List MpMsgPayload}
    (hin : InOrder h m.userSerial_)
    (hfront : ∃ l : MpMsgPayload, queue h.engine m.userSerial_ = l.markAsUnProcessed :: rest ∧
      core l = core m)
    (hqueue : queue (Changes.changed h.engine (.messageStatus m MP_MESSAGE_SENT))
      m.userSerial_ = rest) :
    InOrder (h.changed (.messageStatus m MP_MESSAGE_SENT)) m.userSerial_ := by
  obtain ⟨sent, waiting, hadded, hsent, hwaiting⟩ := hin
  obtain ⟨l, hl, hcore⟩ := hfront
  rw [hl] at hwaiting
  cases waiting with
  | nil => cases hwaiting
  | cons w waiting =>
      rw [List.map_cons, List.cons.injEq] at hwaiting
      have hw : core w = core m := by
        rw [← hcore]
        exact congrArg (fun x => x.setNumberOfRetries 0) hwaiting.1.symm
      refine ⟨sent ++ [w], waiting, ?_, ?_, ?_⟩
      · show forUser m.userSerial_ (h.added ++ []) = _
        rw [List.append_nil, hadded, List.append_assoc]
        rfl
      · show (forUser m.userSerial_ (h.confirmed ++ [m])).map core = _
        rw [forUser_append, List.map_append, hsent, List.map_append]
        simp [forUser, hw]
      · show queue (Changes.changed h.engine (.messageStatus m MP_MESSAGE_SENT))
          m.userSerial_ = _
        rw [hqueue, hwaiting.2]

theorem reports_iff {h : History} {m : MpMsgPayload} :
    Reports h m ↔ ∃ l, h.last = some l ∧ m = l.setNumberOfRetries m.numberOfRetries_ := by
  unfold Reports
  cases h.last with
  | none => simp
  | some l => simp

/-- A confirmation takes the message at the front away. -/
theorem Inv.confirm {m : MpMsgPayload} (hinv : Inv h) (hreports : Reports h m)
    (hpending : h.pending = true) (serial : MpString) :
    InOrder (h.changed (.messageStatus m MP_MESSAGE_SENT)) serial := by
  obtain ⟨l, hlast, hm⟩ := reports_iff.1 hreports
  obtain ⟨l', rest, hlast', hfront⟩ := hinv.front hpending
  rw [hlast, Option.some.injEq] at hlast'
  subst hlast'
  have huser : l.userSerial_ = m.userSerial_ := by rw [hm]; rfl
  have huid : l.uid_ = m.uid_ := by rw [hm]; rfl
  have hcore : core l = core m := by rw [hm]; rfl
  rw [huser] at hfront
  have hqueue := queue_changed (e := h.engine) (.messageStatus m MP_MESSAGE_SENT) serial
  by_cases hserial : serial = m.userSerial_
  · subst hserial
    have huid' : (fun x : MpMsgPayload => x.uid_ == m.uid_) l.markAsUnProcessed = true := by
      rw [← huid]
      exact beq_self_eq_true l.uid_
    have hleft : queue (Changes.changed h.engine (.messageStatus m MP_MESSAGE_SENT))
        m.userSerial_ = rest := by
      rw [hqueue]
      simp only [true_and, if_true]
      rw [hfront]
      exact List.eraseP_cons_of_pos huid'
    exact (hinv.inOrder m.userSerial_).confirm ⟨l, hfront, hcore⟩ hleft
  · -- the queues and the confirmed messages of the others stay as they are
    simp only [hserial, and_false, if_false] at hqueue
    obtain ⟨sent, waiting, hadded, hsent, hwaiting⟩ := hinv.inOrder serial
    have hother : ¬ m.userSerial_ = serial := fun heq => hserial heq.symm
    refine ⟨sent, waiting, ?_, ?_, hqueue.trans hwaiting⟩
    · show forUser serial (h.added ++ []) = _
      rw [List.append_nil, hadded]
    · show (forUser serial (h.confirmed ++ [m])).map core = _
      rw [forUser_append, ← hsent]
      simp [forUser, hother]

/-- The queues after an operation. -/
theorem Inv.inOrder_changed {c : Call} (hinv : Inv h) (hfaithful : Faithful h c)
    (honce : Once h c) (serial : MpString) : InOrder (h.changed c.op) serial := by
  rcases c with ⟨op, answers⟩
  have hqueue := queue_changed (e := h.engine) op serial
  cases op with
  | messageStatus m status =>
      by_cases hsent : status = MP_MESSAGE_SENT
      · subst hsent
        exact hinv.confirm hfaithful (honce (by simp [confirmedBy])) serial
      · simp only [hsent, false_and, if_false] at hqueue
        exact (hinv.inOrder serial).keep rfl (by simp [confirmedBy, hsent]) hqueue
  | addMessage m => exact (hinv.inOrder serial).add rfl hqueue
  | syncWithDBConnectors contents => exact (hinv.inOrder serial).add rfl hqueue
  | buddy_state2 user state => exact (hinv.inOrder serial).add rfl hqueue
  | resendMessage user msgId => exact (hinv.inOrder serial).add rfl hqueue
  | setAutoResendEnabled autoResendEnabled => exact (hinv.inOrder serial).add rfl hqueue
  | removeMessagesForSerial user => exact absurd hfaithful id

/-- What waits behind the front does not matter, and a status that confirms
nothing leaves the queues alone. -/
theorem Inv.front_changed {c : Call} (hinv : Inv h) (hfaithful : Faithful h c) :
    Front (h.changed c.op) := by
  intro hpending
  rcases c with ⟨op, answers⟩
  obtain ⟨hpending, hnone⟩ := Bool.and_eq_true_iff.1 hpending
  obtain ⟨l, rest, hlast, hfront⟩ := hinv.front hpending
  have hqueue := queue_changed (e := h.engine) op l.userSerial_
  have hbehind : ∀ more : List MpMsgPayload,
      queue (Changes.changed h.engine op) l.userSerial_ =
          queue h.engine l.userSerial_ ++ more →
        ∃ k rest, (h.changed op).last = some k ∧
          queue (h.changed op).engine k.userSerial_ = k.markAsUnProcessed :: rest := by
    intro more hmore
    refine ⟨l, rest ++ more, hlast, ?_⟩
    show queue (Changes.changed h.engine op) l.userSerial_ = _
    rw [hmore, hfront, List.cons_append]
  cases op with
  | messageStatus m status =>
      by_cases hsent : status = MP_MESSAGE_SENT
      · simp [confirmedBy, hsent] at hnone
      · simp only [hsent, false_and, if_false] at hqueue
        exact hbehind [] (by rw [hqueue, List.append_nil])
  | addMessage m => exact hbehind _ hqueue
  | syncWithDBConnectors contents => exact hbehind _ hqueue
  | buddy_state2 user state => exact hbehind _ hqueue
  | resendMessage user msgId => exact hbehind _ hqueue
  | setAutoResendEnabled autoResendEnabled => exact hbehind _ hqueue
  | removeMessagesForSerial user => exact absurd hfaithful id

end Changes

/-! ## Steps and runs -/

section Step

variable {h h' : History} {c : Call}

theorem not_drops_of_faithful (hfaithful : Faithful h c) : ¬ DropsPool h.engine c.op := by
  rcases c with ⟨op, answers⟩
  cases op with
  | removeMessagesForSerial serial => exact absurd hfaithful id
  | _ => exact id

theorem autoResend_of_faithful (hauto : h.engine.autoResendEnabled_ = true)
    (hfaithful : Faithful h c) :
    (Changes.changed h.engine c.op).autoResendEnabled_ = true := by
  rcases c with ⟨op, answers⟩
  rw [autoResend_changed]
  cases op with
  | setAutoResendEnabled autoResendEnabled => exact hfaithful
  | _ => exact hauto

/-- What is handed over with auto-resend is the front of a queue. -/
theorem handed_front {e : MpAutoResendEngine} {serial : MpString} {pool : MpMsgPool}
    (hpool : e.userPool_ serial = some pool) (hmessages : pool.messages_ ≠ []) :
    ∃ rest, queue e serial = (pool.getMessage true).markAsUnProcessed :: rest := by
  obtain ⟨m, rest, hm⟩ := List.exists_cons_of_ne_nil hmessages
  refine ⟨rest.map MpMsgPayload.markAsUnProcessed, ?_⟩
  simp [queue, contents, hpool, MpMsgPool.contents, MpMsgPool.getMessage, hm]

theorem Inv.step (hinv : Inv h) (hstep : h.step c = some h') (hfaithful : Faithful h c)
    (honce : Once h c) : Inv h' := by
  obtain ⟨out, hout, rfl⟩ := Option.map_eq_some_iff.1 hstep
  have hoperates := operate_operates hout
  have hcall : call h.engine c = some out.engine := by rw [call, hout, Option.map_some]
  have hrepresents :=
    ((represents_step hinv.represents hcall).2 (not_drops_of_faithful hfaithful)).1
  have hauto := autoResend_of_faithful hinv.autoResend hfaithful
  refine ⟨?_, hrepresents, hoperates.autoResend.trans hauto, ?_⟩
  · intro serial
    obtain ⟨sent, waiting, hadded, hsent, hwaiting⟩ :=
      hinv.inOrder_changed hfaithful honce serial
    exact ⟨sent, waiting, hadded, hsent, (congrFun hoperates.queue serial).trans hwaiting⟩
  · intro hpending
    cases hhanded : out.handed with
    | none =>
        have hbefore : (h.changed c.op).pending = true := by
          simpa [History.complete, hhanded] using hpending
        obtain ⟨l, rest, hlast, hfront⟩ := hinv.front_changed hfaithful hbefore
        refine ⟨l, rest, ?_, (congrFun hoperates.queue l.userSerial_).trans hfront⟩
        rw [← hlast]
        simp [History.complete, hhanded]
    | some m =>
        obtain ⟨serial, pool, hpool, hmessages, hm, -⟩ := hoperates.handed hhanded
        rw [hauto] at hm
        obtain ⟨rest, hqueue⟩ := handed_front hpool hmessages
        rw [← hm, ← hoperates.queue] at hqueue
        -- messages wait in the pools of their users
        have huser : m.userSerial_ = serial := by
          have hqueued : m.markAsUnProcessed ∈ queue out.engine serial := by simp [hqueue]
          obtain ⟨ms, hms⟩ : ∃ ms, contents out.engine serial = some ms := by
            cases hc : contents out.engine serial with
            | none => simp [queue, hc] at hqueued
            | some ms => exact ⟨ms, rfl⟩
          have hfiled := (((represents_iff out.engine).1 hrepresents).2.2 serial ms hms).2
          exact hfiled m.markAsUnProcessed (by simpa [queue, hms] using hqueued)
        refine ⟨m, rest, by simp [History.complete, hhanded], ?_⟩
        rw [huser]
        exact hqueue

end Step

/-- **First in, first out.**  For every run in which auto-resend stays enabled,
nothing is removed, and every status is about the message handed over last,
which is confirmed at most once. -/
theorem fifo_delivery (dbConnectors : List mp_msg_type_t) (calls : List Call) (h : History)
    (hproper : Steps History.step (fun h c _ => Faithful h c ∧ Once h c)
      (History.new dbConnectors true) calls)
    (hrun : exec History.step (History.new dbConnectors true) calls = some h)
    (serial : MpString) : InOrder h serial := by
  have hinv : Inv h := by
    refine Steps.exec ?_ (Inv.new dbConnectors) hproper hrun
    intro h c h' hinv hstep hc
    exact hinv.step hstep hc.1 hc.2
  exact hinv.inOrder serial

/-- Messages that share a UID, with `n` as payload and tag. -/
def sampleNote (serial : MpString) (n : Nat) : MpMsgPayload :=
  MpMsgPayload.new serial [n.toUInt8] 1 3 MP_TYPE_MESSAGE false n

def sampleCall (op : Op) : Call := ⟨op, ⟨true, []⟩⟩

/-- Two messages for `a` and one for `b`; the first one for `a` fails, and is
sent when `a` comes back. -/
def sampleDelivery : List Call :=
  [sampleCall (.addMessage (sampleNote [97] 0)),
    sampleCall (.addMessage (sampleNote [97] 1)),
    sampleCall (.messageStatus (sampleNote [97] 0) MP_MESSAGE_NOT_SENT),
    sampleCall (.addMessage (sampleNote [98] 2)),
    sampleCall (.messageStatus (sampleNote [98] 2) MP_MESSAGE_SENT),
    sampleCall (.buddy_state2 [97] .MP_BUDDY_ONLINE),
    sampleCall (.messageStatus (sampleNote [97] 0) MP_MESSAGE_SENT)]

theorem fifo_delivery_sample :
    ∃ h, exec History.step (History.new [] true) sampleDelivery = some h ∧
      h.confirmed = [sampleNote [98] 2, sampleNote [97] 0] ∧ InOrder h [97] :=
  ⟨_, rfl, rfl, fifo_delivery [] sampleDelivery _ (by decide) rfl [97]⟩

theorem InOrder.isPrefix {h : History} {serial : MpString} (hin : InOrder h serial) :
    (forUser serial h.confirmed).map core <+: (forUser serial h.added).map core := by
  obtain ⟨sent, waiting, hadded, hsent, -⟩ := hin
  rw [hadded, hsent, List.map_append]
  exact List.prefix_append _ _

/-- A message is confirmed twice, and another one with its UID has been added in
between. -/
def sampleTwice : List Call :=
  [sampleCall (.addMessage (sampleNote [97] 0)),
    sampleCall (.messageStatus (sampleNote [97] 0) MP_MESSAGE_SENT),
    ⟨.addMessage (sampleNote [97] 1), ⟨false, []⟩⟩,
    sampleCall (.messageStatus (sampleNote [97] 0) MP_MESSAGE_SENT)]

/-- Every status is about the message handed over last, but the second message
leaves the queue without having been sent. -/
theorem confirmed_twice :
    ∃ h, exec History.step (History.new [] true) sampleTwice = some h ∧
      Steps History.step (fun h c _ => Faithful h c) (History.new [] true) sampleTwice ∧
      ¬ InOrder h [97] := by
  refine ⟨_, rfl, by decide, ?_⟩
  intro hin
  exact absurd hin.isPrefix (by decide)

end EndToEndSmkex.AutoResend.Fifo
