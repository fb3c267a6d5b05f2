import EndToEndSmkex.AutoResend.Liveness

/-!
# Nothing lost, nothing sent twice

For every user the queue of the engine and the trail of what happened to the
user's messages form an account.  It balances as long as a message that was
sent is the one that leaves the queue.  The engine chooses the message to send
by its position and its processed flag, but takes the first message with the
same UID out of the queue, and callers may use one UID for many messages.

## Main results

* `accounted_iff` — every message is accounted for along a run exactly when
  success is never reported while another message with the UID comes first.
-/

namespace EndToEndSmkex.AutoResend.NoLoss

open EndToEndSmkex.Lib.Run
open EndToEndSmkex.Lib.Accounting
open EndToEndSmkex.Smkex.Record
open EndToEndSmkex.AutoResend.MsgPayload
open EndToEndSmkex.AutoResend.MsgPayload.mp_msg_type_t
open EndToEndSmkex.AutoResend.Pool
open EndToEndSmkex.AutoResend.Engine
open EndToEndSmkex.AutoResend.Engine.mp_status_t
open EndToEndSmkex.AutoResend.Changes
open EndToEndSmkex.AutoResend.Queues
open EndToEndSmkex.AutoResend.Composition
open EndToEndSmkex.AutoResend.Liveness
open EndToEndSmkex.DataMsg.MsgTransport

/-- The messages in a user's pool, and what happened to the user's messages. -/
def account (s : System) (serial : MpString) : Account :=
  { queue := (((s.engine.userPool_ serial).map MpMsgPool.messages_).getD []).map
      MpMsgPayload.tag
    trail := s.trail serial }

/-- Success is reported for the message the transport keeps, and the first
message with its UID in its pool is another one. -/
def Mistaken (s : System) (i : Input) : Prop :=
  ∃ call code first, i.event = .on_pager_status call code ∧
    xferStatus code = MP_MESSAGE_SENT ∧ s.transport.msg_.numberOfRetries_ ≠ 0 ∧
    (queue s.engine s.transport.msg_.userSerial_).find?
      (fun x => x.uid_ == s.transport.msg_.uid_) = some first ∧
    first.tag ≠ s.transport.msg_.tag

theorem account_queue (s : System) (serial : MpString) :
    (account s serial).queue = (queue s.engine serial).map MpMsgPayload.tag := by
  unfold account queue contents
  cases s.engine.userPool_ serial with
  | none => rfl
  | some pool =>
      simp [MpMsgPool.contents, Function.comp_def, MpMsgPayload.markAsUnProcessed]

/-- Messages wait in the pools of their receivers. -/
def Filed (e : MpAutoResendEngine) : Prop :=
  ∀ serial, ∀ m ∈ queue e serial, m.userSerial_ = serial

theorem Filed.congr {e e' : MpAutoResendEngine} (h : Filed e) (hq : SameQueues e e') :
    Filed e' := by
  unfold Filed
  rw [hq.queue]
  exact h

theorem Filed.settle_sent {e : MpAutoResendEngine} (h : Filed e) (m : MpMsgPayload) :
    Filed (settle e m MP_MESSAGE_SENT).1 := by
  intro serial x hx
  rw [queue_settle_sent] at hx
  by_cases hserial : serial = m.userSerial_
  · rw [if_pos hserial] at hx
    exact h serial x (List.eraseP_subset hx)
  · rw [if_neg hserial] at hx
    exact h serial x hx

/-- The pool of a user holds messages for that user. -/
theorem Filed.pooled {e : MpAutoResendEngine} (h : Filed e) (serial : MpString) :
    ∀ m ∈ ((e.userPool_ serial).map MpMsgPool.messages_).getD [], m.userSerial_ = serial := by
  intro m hm
  cases hpool : e.userPool_ serial with
  | none => simp [hpool] at hm
  | some pool =>
      have hm : m ∈ pool.messages_ := by simpa [hpool] using hm
      have hreceiver : m.markAsUnProcessed.userSerial_ = serial :=
        h serial _ (Holds.mem_queue ⟨pool, hpool, hm⟩)
      exact hreceiver

/-- The invariant: balanced accounts, and the message in flight is queued. -/
structure Ledger (s : System) : Prop where
  balanced : ∀ serial, Balanced (account s serial) s.added
  filed : Filed s.engine
  inFlight : s.outstanding ≠ [] → s.transport.msg_.numberOfRetries_ ≠ 0 →
    ∃ m ∈ queue s.engine s.transport.msg_.userSerial_,
      m.tag = s.transport.msg_.tag ∧ m.uid_ = s.transport.msg_.uid_

theorem ledger_new (dbConnectors : List mp_msg_type_t) : Ledger (System.new dbConnectors) where
  balanced _ := balanced_nil 0
  filed _ _ h := by cases h
  inFlight h := absurd rfl h

/-- Accounts read the queues and the trail. -/
theorem account_congr {s s' : System} {serial : MpString}
    (hqueue : queue s'.engine serial = queue s.engine serial)
    (htrail : s'.trail serial = s.trail serial) : account s' serial = account s serial :=
  Account.ext (by rw [account_queue, account_queue, hqueue]) htrail

/-- A mark for one message goes into the trail of its user. -/
theorem trail_record (s : System) (mark : Nat → Mark) (m : MpMsgPayload) (serial : MpString) :
    (s.record mark [m]).trail serial =
      if serial = m.userSerial_ then s.trail serial ++ [mark m.tag] else s.trail serial := by
  by_cases hserial : serial = m.userSerial_
  · subst hserial
    simp [System.record]
  · have hother : ¬ m.userSerial_ = serial := fun h => hserial h.symm
    simp [System.record, hserial, hother]

/-- Taking the first message that fits takes its tag. -/
theorem map_tag_eraseP {p : MpMsgPayload → Bool} {first : MpMsgPayload} :
    ∀ {ms : List MpMsgPayload}, (ms.map MpMsgPayload.tag).Nodup → ms.find? p = some first →
      (ms.eraseP p).map MpMsgPayload.tag = (ms.map MpMsgPayload.tag).erase first.tag := by
  intro ms
  induction ms with
  | nil => intro _ h; cases h
  | cons x xs ih =>
      intro hnodup hfind
      rw [List.map_cons, List.nodup_cons] at hnodup
      by_cases hx : p x = true
      · rw [List.find?_cons_of_pos hx, Option.some.injEq] at hfind
        subst hfind
        rw [List.eraseP_cons_of_pos hx, List.map_cons, List.erase_cons_head]
      · rw [List.find?_cons_of_neg hx] at hfind
        have hmem : first.tag ∈ xs.map MpMsgPayload.tag :=
          List.mem_map_of_mem (List.mem_of_find?_eq_some hfind)
        have hne : x.tag ≠ first.tag := fun heq => hnodup.1 (heq ▸ hmem)
        rw [List.eraseP_cons_of_neg hx, List.map_cons, List.map_cons,
          List.erase_cons_tail (by simpa using hne), ih hnodup.2 hfind]

/-! ## Sending -/

section Sending

variable {e : MpAutoResendEngine} {s s' : System} {reply : Option Bool}

/-- Sending leaves every account alone or hands over something queued. -/
theorem sendsOn_account (h : SendsOn e s reply s') (hfiled : Filed e) (serial : MpString) :
    account s' serial = account { s with engine := e } serial ∨
      ∃ tag ∈ (account { s with engine := e } serial).queue,
        account s' serial = (account { s with engine := e } serial).hand tag := by
  cases h with
  | stops e' hqueues _ _ hstate =>
      subst hstate
      exact Or.inl (account_congr (congrFun hqueues.queue serial) rfl)
  | hands e' k m accepted hqueues _ _ hholds _ hstate =>
      subst hstate
      have hmem : m.markAsUnProcessed ∈ queue e k := hqueues.queue ▸ hholds.mem_queue
      have hk : m.markAsUnProcessed.userSerial_ = k := hfiled k _ hmem
      have hqueue := congrFun hqueues.queue serial
      have htrail : (handOver s e' m accepted).trail serial = _ :=
        trail_record _ .handed m serial
      by_cases hserial : serial = m.userSerial_
      · refine Or.inr ⟨m.tag, ?_, ?_⟩
        · rw [account_queue, hserial.trans hk]
          exact List.mem_map.2 ⟨m.markAsUnProcessed, hmem, rfl⟩
        · rw [if_pos hserial] at htrail
          refine Account.ext ?_ htrail
          rw [account_queue]
          show _ = (account { s with engine := e } serial).queue
          rw [account_queue]
          exact congrArg _ hqueue
      · rw [if_neg hserial] at htrail
        exact Or.inl (account_congr hqueue htrail)

theorem sendsOn_ledger (h : SendsOn e s reply s') (hquiet : s.outstanding = [])
    (hbalanced : ∀ serial, Balanced (account { s with engine := e } serial) s.added)
    (hfiled : Filed e) : Ledger s' := by
  have hadded : s'.added = s.added := by
    cases h with
    | stops _ _ _ _ hstate => rw [hstate]
    | hands _ _ _ _ _ _ _ _ _ hstate =>
        rw [hstate]
        rfl
  have haccounts : ∀ serial, Balanced (account s' serial) s'.added := by
    intro serial
    rw [hadded]
    rcases sendsOn_account h hfiled serial with hsame | ⟨tag, htag, hhand⟩
    · rw [hsame]
      exact hbalanced serial
    · rw [hhand]
      exact (hbalanced serial).hand htag
  cases h with
  | stops e' hqueues _ _ hstate =>
      subst hstate
      have hfiled' : Filed e' := hfiled.congr hqueues
      exact ⟨haccounts, hfiled', fun hcalls => absurd hquiet hcalls⟩
  | hands e' k m accepted hqueues _ _ hholds _ hstate =>
      subst hstate
      have hfiled' : Filed e' := hfiled.congr hqueues
      refine ⟨haccounts, hfiled', fun _ _ => ?_⟩
      have hk : m.markAsUnProcessed.userSerial_ = k := hfiled' k _ hholds.mem_queue
      refine ⟨m.markAsUnProcessed, ?_, rfl, rfl⟩
      show m.markAsUnProcessed ∈ queue e' m.markAsUnProcessed.userSerial_
      rw [hk]
      exact hholds.mem_queue

theorem drivesOn_ledger (h : DrivesOn e s reply s') (hsingle : Single { s with engine := e })
    (hledger : Ledger { s with engine := e }) : Ledger s' := by
  cases h with
  | rests _ hstate =>
      subst hstate
      exact hledger
  | sends hwaiting hsends =>
      have hquiet : s.outstanding = [] := hsingle.quiet hwaiting
      exact sendsOn_ledger hsends hquiet hledger.balanced hledger.filed

/-- Another engine with the same queues. -/
theorem Ledger.congr (h : Ledger s) (hqueues : SameQueues s.engine e) :
    Ledger { s with engine := e } where
  balanced serial := by
    have hsame : account { s with engine := e } serial = account s serial :=
      account_congr (congrFun hqueues.queue serial) rfl
    rw [hsame]
    exact h.balanced serial
  filed := h.filed.congr hqueues
  inFlight hcalls halive := by
    rw [hqueues.queue]
    exact h.inFlight hcalls halive

end Sending

/-! ## Adding and removing -/

/-- The state after one message has been added to the queues. -/
def admitted (s : System) (m : MpMsgPayload) : System :=
  { s.record .added [m] with
    engine := addMessageInternal s.engine m
    added := s.added + 1 }

/-- The message is added to the account of its receiver. -/
theorem account_admitted (s : System) {m : MpMsgPayload} (htag : m.tag = s.added)
    (serial : MpString) :
    account (admitted s m) serial =
      if serial = m.userSerial_ then (account s serial).add s.added
      else account s serial := by
  have hqueue := queue_addMessageInternal s.engine m serial
  have htrail := trail_record s .added m serial
  by_cases hserial : serial = m.userSerial_
  · rw [if_pos hserial] at hqueue htrail ⊢
    refine Account.ext ?_ ?_
    · rw [account_queue]
      show List.map _ (queue (addMessageInternal s.engine m) serial) = _ ++ [s.added]
      rw [hqueue, List.map_append, account_queue, ← htag]
      rfl
    · show (s.record .added [m]).trail serial = _ ++ [.added s.added]
      rw [htrail, htag]
      rfl
  · rw [if_neg hserial] at hqueue htrail ⊢
    exact account_congr hqueue htrail

theorem Ledger.admitted {s : System} (h : Ledger s) {m : MpMsgPayload}
    (htag : m.tag = s.added) : Ledger (NoLoss.admitted s m) where
  balanced serial := by
    rw [account_admitted s htag]
    split
    · exact (h.balanced serial).add
    · exact (h.balanced serial).mono (Nat.le_succ _)
  filed := by
    intro serial x hx
    have hx : x ∈ queue (addMessageInternal s.engine m) serial := hx
    rw [queue_addMessageInternal] at hx
    by_cases hserial : serial = m.userSerial_
    · rw [if_pos hserial, List.mem_append, List.mem_singleton] at hx
      rcases hx with hold | rfl
      · exact h.filed serial x hold
      · exact hserial.symm
    · rw [if_neg hserial] at hx
      exact h.filed serial x hx
  inFlight hcalls halive := by
    obtain ⟨x, hx, hkept⟩ := h.inFlight hcalls halive
    refine ⟨x, ?_, hkept⟩
    show x ∈ queue (addMessageInternal s.engine m) s.transport.msg_.userSerial_
    rw [queue_addMessageInternal]
    split
    · exact List.mem_append_left _ hx
    · exact hx

/-- Adding messages one after the other. -/
theorem Ledger.admitted_all {s : System} (h : Ledger s) {ms : List MpMsgPayload}
    (htags : ms.map MpMsgPayload.tag = List.range' s.added ms.length) :
    Ledger { s.record .added ms with
      engine := ms.foldl addMessageInternal s.engine
      added := s.added + ms.length } := by
  induction ms generalizing s with
  | nil =>
      have hnone : s.record .added [] = s := by simp [System.record]
      rw [hnone]
      exact h
  | cons m ms ih =>
      rw [List.map_cons, List.length_cons, List.range'_succ, List.cons.injEq] at htags
      have hrest := ih (h.admitted htags.1) htags.2
      have htrail : (s.record .added (m :: ms)).trail =
          ((NoLoss.admitted s m).record .added ms).trail := by
        funext serial
        show _ = (s.record .added [m]).trail serial ++ _
        rw [trail_record]
        by_cases hserial : serial = m.userSerial_
        · subst hserial
          simp [System.record]
        · have hother : ¬ m.userSerial_ = serial := fun heq => hserial heq.symm
          simp [System.record, hserial, hother]
      have hcount : s.added + (m :: ms).length = s.added + 1 + ms.length := by
        rw [List.length_cons]
        omega
      rw [hcount]
      show Ledger ⟨_, _, _, (s.record .added (m :: ms)).trail, _⟩
      rw [htrail]
      exact hrest

/-- The messages in a user's pool. -/
def pooled (s : System) (serial : MpString) : List MpMsgPayload :=
  ((s.engine.userPool_ serial).map MpMsgPool.messages_).getD []

/-- The state after the messages of a user have been removed. -/
def removed (s : System) (serial : MpString) : System :=
  { s.record .dropped (pooled s serial) with
    engine := removeMessagesForSerial s.engine serial
    transport := s.transport.removeMessageForSerial serial }

/-- The user's messages are dropped, all of them, and nobody else's. -/
theorem account_removed {s : System} (h : Ledger s) (serial k : MpString) :
    account (removed s serial) k =
      if k = serial then (account s k).drop else account s k := by
  have hqueue := queue_removeMessagesForSerial s.engine serial k
  have hreceiver := h.filed.pooled serial
  by_cases hk : k = serial
  · subst hk
    rw [if_pos rfl] at hqueue
    rw [if_pos rfl]
    refine Account.ext ?_ ?_
    · rw [account_queue]
      show List.map _ (queue (removeMessagesForSerial s.engine k) k) = []
      rw [hqueue]
      rfl
    · have hall : ((pooled s k).filter fun m => m.userSerial_ = k) = pooled s k := by
        refine List.filter_eq_self.2 ?_
        intro m hm
        simp [hreceiver m hm]
      show s.trail k ++ ((pooled s k).filter fun m => m.userSerial_ = k).map _ =
        s.trail k ++ ((pooled s k).map MpMsgPayload.tag).map Mark.dropped
      rw [hall, List.map_map]
      rfl
  · rw [if_neg hk] at hqueue
    rw [if_neg hk]
    have hnone : ((pooled s serial).filter fun m => m.userSerial_ = k) = [] := by
      refine List.filter_eq_nil_iff.2 ?_
      intro m hm
      simp only [hreceiver m hm, decide_eq_true_eq]
      exact fun heq => hk heq.symm
    refine account_congr hqueue ?_
    show s.trail k ++ ((pooled s serial).filter fun m => m.userSerial_ = k).map _ = s.trail k
    rw [hnone, List.map_nil, List.append_nil]

theorem Ledger.removed {s : System} (h : Ledger s) (serial : MpString) :
    Ledger (NoLoss.removed s serial) where
  balanced k := by
    rw [account_removed h]
    split
    · exact (h.balanced k).drop
    · exact h.balanced k
  filed := by
    intro k x hx
    have hx : x ∈ queue (removeMessagesForSerial s.engine serial) k := hx
    rw [queue_removeMessagesForSerial] at hx
    by_cases hk : k = serial
    · rw [if_pos hk] at hx
      cases hx
    · rw [if_neg hk] at hx
      exact h.filed k x hx
  inFlight hcalls halive := by
    have halive : (s.transport.removeMessageForSerial serial).msg_.numberOfRetries_ ≠ 0 :=
      halive
    unfold MpMsgTransport.removeMessageForSerial at halive
    by_cases hserial : s.transport.msg_.userSerial_ = serial
    · -- the message in flight was one of those
      rw [if_pos hserial] at halive
      exact absurd rfl halive
    · rw [if_neg hserial] at halive
      have hkept : (NoLoss.removed s serial).transport = s.transport := if_neg hserial
      rw [hkept]
      show ∃ m ∈ queue (removeMessagesForSerial s.engine serial) _, _
      rw [queue_removeMessagesForSerial, if_neg hserial]
      exact h.inFlight hcalls halive

/-! ## A status -/

/-- The message in flight is found by its UID, and so is whatever is found
before it. -/
theorem Ledger.find {s : System} (h : Ledger s) (hcalls : s.outstanding ≠ [])
    (halive : s.transport.msg_.numberOfRetries_ ≠ 0) :
    ∃ first, (queue s.engine s.transport.msg_.userSerial_).find?
      (fun x => x.uid_ == s.transport.msg_.uid_) = some first := by
  obtain ⟨m, hm, -, huid⟩ := h.inFlight hcalls halive
  exact Option.isSome_iff_exists.1 (List.find?_isSome.2 ⟨m, hm, by simp [huid]⟩)

/-- What success does to an account: the first message with the UID leaves the
queue, and the message in flight is marked as sent. -/
theorem account_sent {s : System} (h : Ledger s) (call : Nat) {first : MpMsgPayload}
    (hfind : (queue s.engine s.transport.msg_.userSerial_).find?
      (fun x => x.uid_ == s.transport.msg_.uid_) = some first) (serial : MpString) :
    account { reported s call MP_MESSAGE_SENT with
        engine := (settle s.engine s.transport.msg_ MP_MESSAGE_SENT).1 } serial =
      if serial = s.transport.msg_.userSerial_ then
        { queue := (account s serial).queue.erase first.tag
          trail := (account s serial).trail ++ [.sent s.transport.msg_.tag] }
      else account s serial := by
  have hqueue := queue_settle_sent s.engine s.transport.msg_ serial
  have htrail : (reported s call MP_MESSAGE_SENT).trail serial = _ :=
    trail_record _ .sent (s.transport.msg_.setNumberOfRetries 0) serial
  by_cases hserial : serial = s.transport.msg_.userSerial_
  · subst hserial
    rw [if_pos rfl] at hqueue ⊢
    have hnodup : ((queue s.engine s.transport.msg_.userSerial_).map
        MpMsgPayload.tag).Nodup := by
      rw [← account_queue]
      exact (h.balanced _).inOrder.imp fun hlt => Nat.ne_of_lt hlt
    refine Account.ext ?_ ?_
    · rw [account_queue, account_queue]
      show List.map _ (queue (settle s.engine s.transport.msg_ MP_MESSAGE_SENT).1 _) = _
      rw [hqueue, map_tag_eraseP hnodup hfind]
    · exact htrail.trans (if_pos rfl)
  · rw [if_neg hserial] at hqueue ⊢
    exact account_congr hqueue (htrail.trans (if_neg hserial))

section Status

variable {s s' : System} {call : Nat} {reply : Option Bool}

/-- Success for the first message with its UID takes that message. -/
theorem sent_ledger (h : Ledger s) {first : MpMsgPayload}
    (hquiet : (reported s call MP_MESSAGE_SENT).outstanding = [])
    (hfind : (queue s.engine s.transport.msg_.userSerial_).find?
      (fun x => x.uid_ == s.transport.msg_.uid_) = some first)
    (hfirst : first.tag = s.transport.msg_.tag)
    (hsends : SendsOn (settle s.engine s.transport.msg_ MP_MESSAGE_SENT).1
      (reported s call MP_MESSAGE_SENT) reply s') : Ledger s' := by
  refine sendsOn_ledger hsends hquiet ?_ ?_
  · intro serial
    show Balanced _ s.added
    rw [account_sent h call hfind]
    by_cases hserial : serial = s.transport.msg_.userSerial_
    · rw [if_pos hserial, hfirst]
      have hmem : s.transport.msg_.tag ∈ (account s serial).queue := by
        rw [account_queue, hserial, ← hfirst]
        exact List.mem_map_of_mem (List.mem_of_find?_eq_some hfind)
      exact (h.balanced serial).send hmem
    · rw [if_neg hserial]
      exact h.balanced serial
  · exact h.filed.settle_sent s.transport.msg_

/-- Success while another message with the UID comes first: that one is lost,
and the one that was sent stays queued. -/
theorem mistaken_not_accounted (h : Ledger s) (hcalls : s.outstanding ≠ [])
    (halive : s.transport.msg_.numberOfRetries_ ≠ 0) {first : MpMsgPayload}
    (hfind : (queue s.engine s.transport.msg_.userSerial_).find?
      (fun x => x.uid_ == s.transport.msg_.uid_) = some first)
    (hfirst : first.tag ≠ s.transport.msg_.tag)
    (hsends : SendsOn (settle s.engine s.transport.msg_ MP_MESSAGE_SENT).1
      (reported s call MP_MESSAGE_SENT) reply s') :
    ¬ Accounted (account s' s.transport.msg_.userSerial_) := by
  obtain ⟨m, hm, htag, -⟩ := h.inFlight hcalls halive
  have hqueued : s.transport.msg_.tag ∈ (account s s.transport.msg_.userSerial_).queue := by
    rw [account_queue, ← htag]
    exact List.mem_map_of_mem hm
  have hadded := (h.balanced _).added_of_mem hqueued
  have hsettled := account_sent h call hfind s.transport.msg_.userSerial_
  rw [if_pos rfl] at hsettled
  have hleft : s.transport.msg_.tag ∈
      (account s s.transport.msg_.userSerial_).queue.erase first.tag :=
    (List.mem_erase_of_ne hfirst.symm).2 hqueued
  have hfiled := h.filed.settle_sent s.transport.msg_
  rcases sendsOn_account hsends hfiled s.transport.msg_.userSerial_ with hsame | ⟨t, -, hhand⟩
  · rw [hsame, hsettled]
    exact not_accounted (List.mem_append_left _ hadded) hleft (by simp)
  · rw [hhand, hsettled]
    exact not_accounted (by simp [Account.hand, hadded]) hleft (by simp [Account.hand])

theorem nudgesOn_ledger (h : NudgesOn s reply s') (hsingle : Single s) (hledger : Ledger s) :
    Ledger s' := by
  obtain ⟨e, hqueues, hstarted, hdrives⟩ := h
  refine drivesOn_ledger hdrives ⟨hsingle.length_le, ?_⟩ (hledger.congr hqueues)
  exact fun hcalls => hstarted.trans (hsingle.started hcalls)

/-- A status that is no success keeps all accounts. -/
theorem statusOn_ledger {status : mp_status_t} (h : StatusOn s call status reply s')
    (hcall : call < s.outstanding.length) (hsingle : Single s) (hledger : Ledger s)
    (hfirst : status = MP_MESSAGE_SENT → s.transport.msg_.numberOfRetries_ ≠ 0 →
      ∀ first, (queue s.engine s.transport.msg_.userSerial_).find?
        (fun x => x.uid_ == s.transport.msg_.uid_) = some first →
          first.tag = s.transport.msg_.tag) : Ledger s' := by
  have hquiet : s.outstanding.eraseIdx call = [] :=
    eraseIdx_single hsingle.length_le hcall
  have hcalls : s.outstanding ≠ [] := by
    intro hnil
    simp [hnil] at hcall
  cases h with
  | ignored hdeleted _ hstate =>
      subst hstate
      exact ⟨hledger.balanced, hledger.filed, fun hnew => absurd hquiet hnew⟩
  | again halive _ _ accepted _ hstate =>
      subst hstate
      exact ⟨hledger.balanced, hledger.filed, fun _ _ => hledger.inFlight hcalls halive⟩
  | done halive hsends =>
      by_cases hsent : status = MP_MESSAGE_SENT
      · subst hsent
        obtain ⟨first, hfind⟩ := hledger.find hcalls halive
        exact sent_ledger hledger (reported_quiet hsingle hcall _) hfind
          (hfirst rfl halive first hfind) hsends
      · have hqueues := settle_not_sent s.engine s.transport.msg_ hsent
        have hsame := hledger.congr hqueues
        have hstate : reported s call status =
            { s with
              transport :=
                { msg_ := s.transport.msg_.setNumberOfRetries 0
                  counter_ := s.transport.counter_ - 1 }
              outstanding := s.outstanding.eraseIdx call } := if_neg hsent
        rw [hstate] at hsends
        exact sendsOn_ledger hsends hquiet hsame.balanced hsame.filed

end Status

/-! ## Steps and runs -/

/-- A step keeps the accounts, or success was reported for a message behind
another one with its UID, and then an account is wrong. -/
theorem ledger_step {s s' : System} {i : Input} (hsingle : Single s) (h : Ledger s)
    (hstep : s.step i = some s') :
    (¬ Mistaken s i → Ledger s') ∧
      (Mistaken s i → ∃ serial, ¬ Accounted (account s' serial)) := by
  have hcases := step_cases hstep
  rcases i with ⟨event, answers, reply⟩
  have hnever : (∀ call code, event ≠ .on_pager_status call code) →
      ¬ Mistaken s ⟨event, answers, reply⟩ := by
    rintro hother ⟨call, code, first, hevent, -⟩
    exact hother call code hevent
  cases event with
  | addMessage m =>
      refine ⟨fun _ => ?_, fun hm => absurd hm (hnever (by simp))⟩
      refine drivesOn_ledger hcases.2 ⟨hsingle.length_le, ?_⟩ (h.admitted hcases.1)
      intro hcalls
      exact (requeued_addMessageInternal s.engine m).started.trans (hsingle.started hcalls)
  | syncWithDBConnectors contents =>
      obtain ⟨htags, -, rfl⟩ := hcases
      refine ⟨fun _ => ?_, fun hm => absurd hm (hnever (by simp))⟩
      rw [syncWithDBConnectors_eq]
      exact h.admitted_all htags
  | buddy_state2 serial state =>
      exact ⟨fun _ => nudgesOn_ledger hcases hsingle h, fun hm => absurd hm (hnever (by simp))⟩
  | resendMessage serial msgId =>
      exact ⟨fun _ => nudgesOn_ledger hcases hsingle h, fun hm => absurd hm (hnever (by simp))⟩
  | setAutoResendEnabled autoResendEnabled =>
      exact ⟨fun _ => nudgesOn_ledger hcases hsingle h, fun hm => absurd hm (hnever (by simp))⟩
  | removeMessagesForSerial serial =>
      obtain ⟨-, rfl⟩ := hcases
      exact ⟨fun _ => h.removed serial, fun hm => absurd hm (hnever (by simp))⟩
  | on_pager_status call code =>
      obtain ⟨hcall, hstatus⟩ := hcases
      constructor
      · intro hright
        refine statusOn_ledger hstatus hcall hsingle h ?_
        intro hsent halive first hfind
        by_contra hfirst
        exact hright ⟨call, code, first, rfl, hsent, halive, hfind, hfirst⟩
      · rintro ⟨call', code', first, hevent, hsent, halive, hfind, hfirst⟩
        cases hevent
        have hcalls : s.outstanding ≠ [] := by
          intro hnil
          simp [hnil] at hcall
        refine ⟨s.transport.msg_.userSerial_, ?_⟩
        rw [hsent] at hstatus
        cases hstatus with
        | ignored hdeleted _ _ => exact absurd hdeleted halive
        | again _ hfailed => exact absurd rfl hfailed
        | done _ hsends => exact mistaken_not_accounted h hcalls halive hfind hfirst hsends

/-- Along a run from the start every message is accounted for — queued, or sent
once, or dropped, in the order of addition, and never handed over after it was
sent — exactly when success is never reported for a message behind another one
with its UID. -/
theorem accounted_iff (dbConnectors : List mp_msg_type_t) (inputs : List Input) :
    Steps System.step (fun _ _ s' => ∀ serial, Accounted (account s' serial))
        (System.new dbConnectors) inputs ↔
      Steps System.step (fun s i _ => ¬ Mistaken s i) (System.new dbConnectors) inputs := by
  have hnew : Single (System.new dbConnectors) ∧ Ledger (System.new dbConnectors) :=
    ⟨single_new dbConnectors, ledger_new dbConnectors⟩
  refine steps_iff_of_inv (I := fun s => Single s ∧ Ledger s) (E := fun _ => True)
    ?_ ?_ hnew fun _ _ => trivial
  · intro s i s' hinv _ hstep
    have hboth := ledger_step hinv.1 hinv.2 hstep
    constructor
    · intro haccounted hmistaken
      obtain ⟨serial, hwrong⟩ := hboth.2 hmistaken
      exact hwrong (haccounted serial)
    · intro hright serial
      exact ((hboth.1 hright).balanced serial).accounted
  · intro s i s' hinv _ hstep hright
    exact ⟨hinv.1.step hstep, (ledger_step hinv.1 hinv.2 hstep).1 hright⟩

/-! Without auto-resend: the first message for `a` fails, a second one with the
same UID is sent, and its success takes the first one away. -/

def sharedUID (tag : Nat) : MpMsgPayload :=
  MpMsgPayload.new [97] [1] 1 1 MP_TYPE_MESSAGE false tag

def sharedUIDRun : List Input :=
  [sampleInput (.addMessage (sharedUID 0)) (some true),
    sampleInput (.on_pager_status 0 408) none,
    sampleInput (.addMessage (sharedUID 1)) (some true),
    sampleInput (.on_pager_status 0 200) (some true)]

/-- The first message is neither queued nor sent nor dropped; the second one is
queued, sent and handed to the transport again. -/
theorem shared_uid_loses :
    ∃ s, exec System.step (System.new []) sharedUIDRun = some s ∧
      account s [97] =
        { queue := [1]
          trail := [.added 0, .handed 0, .added 1, .handed 1, .sent 1, .handed 1] } ∧
      ¬ Accounted (account s [97]) := by
  have haccount : ∃ s, exec System.step (System.new []) sharedUIDRun = some s ∧
      account s [97] =
        { queue := [1]
          trail := [.added 0, .handed 0, .added 1, .handed 1, .sent 1, .handed 1] } :=
    ⟨_, rfl, rfl⟩
  obtain ⟨s, hrun, hs⟩ := haccount
  refine ⟨s, hrun, hs, ?_⟩
  rw [hs]
  intro h
  have hlost := h.once 0 (by decide)
  exact absurd hlost (by decide)

end EndToEndSmkex.AutoResend.NoLoss
