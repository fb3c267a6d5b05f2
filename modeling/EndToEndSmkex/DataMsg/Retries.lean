import EndToEndSmkex.DataMsg.MsgTransport

/-!
# The tries of one message

The transport with everything it does: sends to the SIP stack and reports to
its notifier.  The notifier is called in the middle of `onSendMsgDone` and may
hand over the next message right there.

Between two calls of `sendMessage` the transport is a counter.  What it does in
that time depends on the statuses up to the removal of its message, if there is
one: on how many failures they begin with, and whether a success follows.

## Main results

* `log_run` — everything the transport does for one message.
* `retry_contract` — the same for every run, with what later statuses and a
  re-entering notifier find.
-/

namespace EndToEndSmkex.DataMsg.Retries

open EndToEndSmkex.Smkex.Record
open EndToEndSmkex.AutoResend.MsgPayload
open EndToEndSmkex.AutoResend.Engine
open EndToEndSmkex.AutoResend.Engine.mp_status_t
open EndToEndSmkex.DataMsg.MsgTransport

/-! ## The transport and its notifier -/

/-- What can be seen of the transport: a call of `sendMsg`, or one of
`messageStatus`. -/
inductive Action where
  | send (x : SipSend)
  | messageStatus (message : MpMsgPayload) (status : mp_status_t)
  deriving DecidableEq

structure World where
  transport : MpMsgTransport
  log : List Action
  deriving DecidableEq

/-- What happens to the transport.  A status comes with the message the notifier
hands over, if it is called and hands one over. -/
inductive Event where
  | sendMessage (message : MpMsgPayload)
  | on_pager_status (code : Nat) (next : Option MpMsgPayload)
  | removeMessageForSerial (receiverSerial : MpString)
  deriving DecidableEq

namespace World

def sendMessage (w : World) (message : MpMsgPayload) : World :=
  let sent := MpMsgTransport.sendMessage message
  { transport := sent.1, log := w.log ++ (sent.2.map Action.send).toList }

/-- `onSendMsgDone` with the notifier: nothing follows its call. -/
def onSendMsgDone (w : World) (status : mp_status_t) (next : Option MpMsgPayload) : World :=
  let done := w.transport.onSendMsgDone status
  match done.2 with
  | .ignored => { w with transport := done.1 }
  | .resend x => { transport := done.1, log := w.log ++ [.send x] }
  | .report message =>
      let w := { transport := done.1, log := w.log ++ [.messageStatus message status] }
      match next with
      | none => w
      | some m => sendMessage w m

def step (w : World) : Event → World
  | .sendMessage m => w.sendMessage m
  | .on_pager_status code next => w.onSendMsgDone (xferStatus code) next
  | .removeMessageForSerial serial =>
      { w with transport := w.transport.removeMessageForSerial serial }

def run (w : World) (es : List Event) : World := es.foldl step w

theorem run_cons (w : World) (e : Event) (es : List Event) :
    w.run (e :: es) = (w.step e).run es := rfl

end World

/-! ## What the transport should do -/

/-- An event between two calls of `sendMessage`. -/
def Event.Quiet : Event → Prop
  | .sendMessage _ => False
  | .on_pager_status _ next => next = none
  | .removeMessageForSerial _ => True

instance : (e : Event) → Decidable e.Quiet
  | .sendMessage _ => isFalse id
  | .on_pager_status _ next => inferInstanceAs (Decidable (next = none))
  | .removeMessageForSerial _ => isTrue trivial

/-- The statuses that arrive while the message is there. -/
def statuses (m : MpMsgPayload) : List Event → List mp_status_t
  | [] => []
  | .sendMessage _ :: _ => []
  | .on_pager_status code _ :: es => xferStatus code :: statuses m es
  | .removeMessageForSerial serial :: es =>
      if m.userSerial_ = serial then [] else statuses m es

/-- With how many failures the statuses begin. -/
def failures (ss : List mp_status_t) : Nat := (ss.takeWhile (· ≠ MP_MESSAGE_SENT)).length

/-- What is reported to the notifier about a message with `n` retries: the first
success, unless `n` failures come first. -/
def verdict (m : MpMsgPayload) (n : Nat) (ss : List mp_status_t) : List Action :=
  if n ≤ failures ss then [.messageStatus (m.setNumberOfRetries 0) MP_MESSAGE_NOT_SENT]
  else if failures ss < ss.length then
    [.messageStatus (m.setNumberOfRetries 0) MP_MESSAGE_SENT]
  else []

/-- Everything that is done for a message with `n` retries: one send, one more
after each failure but the `n`-th, and the report. -/
def contract (m : MpMsgPayload) (n : Nat) (ss : List mp_status_t) : List Action :=
  List.replicate (min n (failures ss + 1)) (.send (sipSend m)) ++ verdict m n ss

/-! ## One message -/

theorem failures_sent (ss : List mp_status_t) : failures (MP_MESSAGE_SENT :: ss) = 0 := rfl

theorem failures_failed (ss : List mp_status_t) :
    failures (MP_MESSAGE_NOT_SENT :: ss) = failures ss + 1 := rfl

theorem verdict_failed (m : MpMsgPayload) (n : Nat) (ss : List mp_status_t) :
    verdict m (n + 1) (MP_MESSAGE_NOT_SENT :: ss) = verdict m n ss := by
  simp [verdict, failures_failed]

theorem xferStatus_cases (code : Nat) :
    xferStatus code = MP_MESSAGE_SENT ∨ xferStatus code = MP_MESSAGE_NOT_SENT := by
  unfold xferStatus
  split
  · exact Or.inl rfl
  · exact Or.inr rfl

section Message

variable {w : World} {m : MpMsgPayload} {es : List Event}

/-- A message that was reported or removed is settled. -/
def World.Settled (w : World) : Prop := w.transport.msg_.numberOfRetries_ = 0

theorem step_settled (h : w.Settled) (code : Nat) (next : Option MpMsgPayload) :
    w.step (.on_pager_status code next) = w := by
  have hignored : w.transport.onSendMsgDone (xferStatus code) = (w.transport, .ignored) :=
    if_pos h
  simp [World.step, World.onSendMsgDone, hignored]

theorem settled_remove (h : w.Settled) (serial : MpString) :
    (w.step (.removeMessageForSerial serial)).Settled := by
  show (w.transport.removeMessageForSerial serial).msg_.numberOfRetries_ = 0
  unfold MpMsgTransport.removeMessageForSerial
  split
  · rfl
  · exact h

/-- Nothing is done for a settled message. -/
theorem log_run_settled :
    ∀ {w : World}, w.Settled → (∀ e ∈ es, e.Quiet) →
      (w.run es).log = w.log ∧ (w.run es).Settled := by
  induction es with
  | nil => intro w h _; exact ⟨rfl, h⟩
  | cons e es ih =>
      intro w h hquiet
      have hrest : ∀ d ∈ es, d.Quiet := fun d hd => hquiet d (by simp [hd])
      rw [World.run_cons]
      cases e with
      | sendMessage m => exact absurd (hquiet (.sendMessage m) (by simp)) id
      | on_pager_status code next =>
          rw [step_settled h]
          exact ih h hrest
      | removeMessageForSerial serial => exact ih (settled_remove h serial) hrest

/-- What is left to do for a message with `n` tries left. -/
def remaining (m : MpMsgPayload) (n : Nat) (ss : List mp_status_t) : List Action :=
  List.replicate (min (n - 1) (failures ss)) (.send (sipSend m)) ++ verdict m n ss

theorem contract_eq (m : MpMsgPayload) {n : Nat} (hn : 0 < n) (ss : List mp_status_t) :
    contract m n ss = .send (sipSend m) :: remaining m n ss := by
  have hmin : min n (failures ss + 1) = min (n - 1) (failures ss) + 1 := by omega
  rw [contract, remaining, hmin, List.replicate_succ, List.cons_append]

/-- The message is there and has been tried; `n` tries are left. -/
structure Waiting (w : World) (m : MpMsgPayload) (n : Nat) : Prop where
  message : w.transport.msg_ = m
  counter : w.transport.counter_ = n
  positive : 0 < n

/-- The report, whatever it says, settles the message. -/
theorem step_report (h : w.transport.msg_ = m) (hretries : m.numberOfRetries_ ≠ 0)
    {code : Nat} (hend : xferStatus code = MP_MESSAGE_SENT ∨ w.transport.counter_ ≤ 1) :
    (w.step (.on_pager_status code none)).log =
        w.log ++ [.messageStatus (m.setNumberOfRetries 0) (xferStatus code)] ∧
      (w.step (.on_pager_status code none)).Settled := by
  subst h
  have hdone : w.transport.onSendMsgDone (xferStatus code) =
      ({ msg_ := w.transport.msg_.setNumberOfRetries 0, counter_ := w.transport.counter_ - 1 },
        .report (w.transport.msg_.setNumberOfRetries 0)) := by
    unfold MpMsgTransport.onSendMsgDone
    rw [if_neg hretries]
    apply if_neg
    rintro ⟨hfailed, hcounter⟩
    rcases hend with hsent | hlast
    · exact hfailed hsent
    · omega
  simp [World.step, World.onSendMsgDone, hdone, World.Settled,
    MpMsgPayload.setNumberOfRetries]

/-- A failure that is not the last one. -/
theorem step_again {n : Nat} (h : Waiting w m (n + 1)) (hn : 0 < n)
    (hretries : m.numberOfRetries_ ≠ 0) {code : Nat}
    (hfailed : xferStatus code = MP_MESSAGE_NOT_SENT) (next : Option MpMsgPayload) :
    (w.step (.on_pager_status code next)).log = w.log ++ [.send (sipSend m)] ∧
      Waiting (w.step (.on_pager_status code next)) m n := by
  obtain ⟨rfl, hcounter, -⟩ := h
  have hcounter' : w.transport.counter_ - 1 = n := by
    rw [hcounter]
    omega
  have hdone : w.transport.onSendMsgDone (xferStatus code) =
      ({ w.transport with counter_ := w.transport.counter_ - 1 },
        .resend (sipSend w.transport.msg_)) := by
    unfold MpMsgTransport.onSendMsgDone
    rw [if_neg hretries]
    apply if_pos
    rw [hfailed]
    exact ⟨by simp, by omega⟩
  simp only [World.step, World.onSendMsgDone, hdone]
  exact ⟨trivial, rfl, hcounter', hn⟩

theorem remaining_nil (m : MpMsgPayload) {n : Nat} (hn : 0 < n) : remaining m n [] = [] := by
  have hn' : ¬ n ≤ 0 := by omega
  simp [remaining, verdict, failures, hn']

theorem remaining_sent (m : MpMsgPayload) {n : Nat} (hn : 0 < n) (ss : List mp_status_t) :
    remaining m n (MP_MESSAGE_SENT :: ss) =
      [.messageStatus (m.setNumberOfRetries 0) MP_MESSAGE_SENT] := by
  have hn' : ¬ n ≤ 0 := by omega
  simp [remaining, verdict, failures_sent, hn']

theorem remaining_last (m : MpMsgPayload) (ss : List mp_status_t) :
    remaining m 1 (MP_MESSAGE_NOT_SENT :: ss) =
      [.messageStatus (m.setNumberOfRetries 0) MP_MESSAGE_NOT_SENT] := by
  simp [remaining, verdict, failures_failed]

theorem remaining_failed (m : MpMsgPayload) {n : Nat} (hn : 0 < n) (ss : List mp_status_t) :
    remaining m (n + 1) (MP_MESSAGE_NOT_SENT :: ss) =
      .send (sipSend m) :: remaining m n ss := by
  have hmin : min (n + 1 - 1) (failures ss + 1) = min (n - 1) (failures ss) + 1 := by omega
  rw [remaining, verdict_failed, failures_failed, hmin, List.replicate_succ, List.cons_append,
    remaining]

/-- Everything that is left to do for a message is done, and once it is reported
or removed the message is settled. -/
structure Finishes (w : World) (m : MpMsgPayload) (n : Nat) (es : List Event) : Prop where
  log : (w.run es).log = w.log ++ remaining m n (statuses m es)
  settled : verdict m n (statuses m es) ≠ [] ∨ .removeMessageForSerial m.userSerial_ ∈ es →
    (w.run es).Settled

theorem finishes_nil {n : Nat} (hn : 0 < n) : Finishes w m n [] where
  log := by
    rw [statuses, remaining_nil m hn, List.append_nil]
    rfl
  settled := by
    have hn' : ¬ n ≤ 0 := by omega
    simp [statuses, verdict, failures, hn']

/-- A report ends it: the success, or the failure on the last try. -/
theorem finishes_report {n : Nat} {code : Nat} (hw : Waiting w m n)
    (hretries : m.numberOfRetries_ ≠ 0) (hquiet : ∀ e ∈ es, e.Quiet)
    (hend : xferStatus code = MP_MESSAGE_SENT ∨ n = 1) :
    Finishes w m n (.on_pager_status code none :: es) := by
  have hlast : xferStatus code = MP_MESSAGE_SENT ∨ w.transport.counter_ ≤ 1 := by
    apply hend.imp_right
    intro hn
    rw [hw.counter, hn]
    exact Int.le_refl 1
  obtain ⟨hlog, hsettled⟩ := step_report hw.message hretries hlast
  obtain ⟨hlog', hsettled'⟩ := log_run_settled hsettled hquiet
  refine ⟨?_, fun _ => hsettled'⟩
  rw [World.run_cons, statuses, hlog', hlog]
  rcases xferStatus_cases code with hsent | hfailed
  · rw [hsent, remaining_sent m hw.positive]
  · obtain rfl : n = 1 := hend.resolve_left (by rw [hfailed]; decide)
    rw [hfailed, remaining_last]

/-- A failure before the last one takes one try. -/
theorem finishes_again {n : Nat} {code : Nat} (hw : Waiting w m (n + 1)) (hn : 0 < n)
    (hretries : m.numberOfRetries_ ≠ 0) (hfailed : xferStatus code = MP_MESSAGE_NOT_SENT)
    (ih : ∀ {w}, Waiting w m n → Finishes w m n es) :
    Finishes w m (n + 1) (.on_pager_status code none :: es) := by
  obtain ⟨hlog, hwaiting⟩ := step_again hw hn hretries hfailed none
  obtain ⟨hlog', hsettled⟩ := ih hwaiting
  refine ⟨?_, ?_⟩
  · rw [World.run_cons, statuses, hfailed, remaining_failed m hn, hlog', hlog,
      List.append_assoc, List.singleton_append]
  · rw [statuses, hfailed, verdict_failed]
    rintro (hverdict | hremoved)
    · exact hsettled (Or.inl hverdict)
    · exact hsettled (Or.inr (by simpa using hremoved))

/-- A removal ends it where it is for the receiver of the message. -/
theorem finishes_remove {n : Nat} {serial : MpString} (hw : Waiting w m n)
    (hquiet : ∀ e ∈ es, e.Quiet) (ih : Finishes w m n es) :
    Finishes w m n (.removeMessageForSerial serial :: es) := by
  by_cases hserial : m.userSerial_ = serial
  · have hsettled : (w.step (.removeMessageForSerial serial)).Settled := by
      have hmatch : w.transport.msg_.userSerial_ = serial := by rw [hw.message, hserial]
      show (w.transport.removeMessageForSerial serial).msg_.numberOfRetries_ = 0
      rw [MpMsgTransport.removeMessageForSerial, if_pos hmatch]
      rfl
    obtain ⟨hlog, hsettled'⟩ := log_run_settled hsettled hquiet
    refine ⟨?_, fun _ => hsettled'⟩
    rw [statuses, if_pos hserial, remaining_nil m hw.positive, List.append_nil]
    exact hlog
  · have hsame : w.step (.removeMessageForSerial serial) = w := by
      have hother : w.transport.msg_.userSerial_ ≠ serial := by
        rw [hw.message]
        exact hserial
      rw [World.step, MpMsgTransport.removeMessageForSerial, if_neg hother]
    refine ⟨?_, ?_⟩
    · rw [World.run_cons, hsame, statuses, if_neg hserial]
      exact ih.log
    · rw [World.run_cons, hsame, statuses, if_neg hserial]
      rintro (hverdict | hremoved)
      · exact ih.settled (Or.inl hverdict)
      · exact ih.settled (Or.inr (by simpa [hserial] using hremoved))

/-- **Everything that is left to do for a message is done.** -/
theorem log_run (hretries : m.numberOfRetries_ ≠ 0) :
    ∀ {w : World} {n : Nat}, Waiting w m n → (∀ e ∈ es, e.Quiet) → Finishes w m n es := by
  induction es with
  | nil =>
      intro w n hw _
      exact finishes_nil hw.positive
  | cons e es ih =>
      intro w n hw hquiet
      have hrest : ∀ d ∈ es, d.Quiet := fun d hd => hquiet d (by simp [hd])
      cases e with
      | sendMessage m' => exact absurd (hquiet (.sendMessage m') (by simp)) id
      | on_pager_status code next =>
          have hnext : next = none := hquiet (.on_pager_status code next) (by simp)
          subst hnext
          rcases xferStatus_cases code with hsent | hfailed
          · exact finishes_report hw hretries hrest (Or.inl hsent)
          · by_cases hlast : n = 1
            · exact finishes_report hw hretries hrest (Or.inr hlast)
            · have hn := hw.positive
              obtain ⟨k, rfl⟩ : ∃ k, n = k + 1 := ⟨n - 1, by omega⟩
              exact finishes_again hw (by omega) hretries hfailed fun hw' => ih hw' hrest
      | removeMessageForSerial serial => exact finishes_remove hw hrest (ih hw hrest)

end Message

/-! ## The contract -/

/-- A message that was just handed over has been tried once. -/
theorem waiting_sendMessage (w : World) {m : MpMsgPayload} (hn : 0 < m.numberOfRetries_) :
    (w.step (.sendMessage m)).log = w.log ++ [.send (sipSend m)] ∧
      Waiting (w.step (.sendMessage m)) m m.numberOfRetries_.toNat := by
  have hpos : ¬ m.numberOfRetries_ ≤ 0 := by omega
  simp only [World.step, World.sendMessage, MpMsgTransport.sendMessage, hpos, if_false]
  refine ⟨rfl, rfl, ?_, by omega⟩
  show m.numberOfRetries_ = m.numberOfRetries_.toNat
  omega

/-- **The retry contract.**  Whatever the transport was doing, from a call of
`sendMessage` on it does for that message what `contract` says: at most as many
sends as there are retries, all of this message, and one report, at the first
success or at the last failure, if the message is not removed before.  Once it
is reported or removed, a status changes nothing.  Where the notifier, while it
is told, hands over another message, the transport is left as if the message
had come right behind the report, with all its retries to go. -/
theorem retry_contract (w : World) (m : MpMsgPayload) (hn : 0 < m.numberOfRetries_)
    (es : List Event) (hquiet : ∀ e ∈ es, e.Quiet) :
    let n := m.numberOfRetries_.toNat
    let w' := w.run (.sendMessage m :: es)
    w'.log = w.log ++ contract m n (statuses m es) ∧
      (verdict m n (statuses m es) ≠ [] ∨ .removeMessageForSerial m.userSerial_ ∈ es →
        ∀ code next, w'.step (.on_pager_status code next) = w') ∧
      ∀ code message next, (w'.transport.onSendMsgDone (xferStatus code)).2 = .report message →
        w'.step (.on_pager_status code (some next)) =
            (w'.step (.on_pager_status code none)).step (.sendMessage next) ∧
          (w'.step (.on_pager_status code (some next))).transport =
            { msg_ := next, counter_ := next.numberOfRetries_ } := by
  intro n w'
  obtain ⟨hlog, hwaiting⟩ := waiting_sendMessage w hn
  obtain ⟨hrun, hsettled⟩ := log_run (by omega) hwaiting hquiet
  refine ⟨?_, ?_, ?_⟩
  · show ((w.step (.sendMessage m)).run es).log = _
    rw [hrun, hlog, contract_eq m (by omega), List.append_assoc, List.singleton_append]
  · intro h code next
    exact step_settled (hsettled h) code next
  · intro code message next hreport
    simp only [World.step, World.onSendMsgDone, hreport]
    exact ⟨trivial, rfl⟩

/-- Three retries: two failures, between them a removal for somebody else, then
a success, and one status too many. -/
theorem retry_contract_sample :
    let m := MpMsgPayload.new [98] [1] 7 3 .MP_TYPE_MESSAGE false 0
    let es : List Event :=
      [.on_pager_status 404 none, .removeMessageForSerial [99], .on_pager_status 500 none,
        .on_pager_status 200 none, .on_pager_status 404 none]
    (World.run ⟨MpMsgTransport.new, []⟩ (.sendMessage m :: es)).log =
      [.send (sipSend m), .send (sipSend m), .send (sipSend m),
        .messageStatus (m.setNumberOfRetries 0) MP_MESSAGE_SENT] := by
  intro m es
  have hquiet : ∀ e ∈ es, e.Quiet := by decide
  have hlog := (retry_contract ⟨MpMsgTransport.new, []⟩ m (by decide) es hquiet).1
  exact hlog

end EndToEndSmkex.DataMsg.Retries
