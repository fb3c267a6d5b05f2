import EndToEndSmkex.Threads.SingleFlight
import EndToEndSmkex.Lib.Deadlocks

/-!
# Calls that wait for each other

Three calls do not keep the order of the locks or leave one behind.  Two of them are
brought to the deadlock here, with another call that is in order.  The third one hangs
every other thread that makes it, once a thread has ended with the lock.

## Main results

* `sync_hangs` — synchronising while a message fails for good.
* `logout_hangs` — logging out while a buddy is added or removed, or comes online.
* `rmRegCallback_hangs` — the second thread that removes a registration callback.
-/

namespace EndToEndSmkex.Threads.Crossings

open EndToEndSmkex.Lib.Run
open EndToEndSmkex.Lib.Deadlocks
open EndToEndSmkex.Lib.OrderedMaps
open EndToEndSmkex.Lib.Threads
open EndToEndSmkex.Lib.Threads.Code
open EndToEndSmkex.Smkex.Record
open EndToEndSmkex.AutoResend.MsgPayload
open EndToEndSmkex.AutoResend.Pool
open EndToEndSmkex.AutoResend.Engine
open EndToEndSmkex.AutoResend.Engine.mp_status_t
open EndToEndSmkex.DataMsg.MsgTransport
open EndToEndSmkex.SipStack.Stack (MpBuddy pjsua_buddy_id)
open EndToEndSmkex.Buddy.BuddyList (serialIsValid)
open EndToEndSmkex.Buddy.Presence (MpIPresence MpBuddy.setState Notice)
open EndToEndSmkex.Threads.Calls
open EndToEndSmkex.Threads.SingleFlight (beginning)

variable {T : Type} [DecidableEq T] [Fintype T] {c : Config T Lock Shared Answer} {t u : T}
  {kt ku : Prog}

/-- The message under way fails for good, and its user has messages that are not
marked. -/
structure Failing (s : Shared) (code : Nat) (userPool : MpMsgPool) : Prop where
  alive : s.transport.msg_.numberOfRetries_ ≠ 0
  last : s.transport.counter_ ≤ 1
  failed : code ≠ 200
  pool : s.engine.userPool_ s.transport.msg_.userSerial_ = some userPool
  waiting : userPool.messages_ ≠ []
  unmarked : userPool.weight_ ≠ INT_MAX

theorem Failing.done {s : Shared} {code : Nat} {pool : MpMsgPool} (h : Failing s code pool) :
    s.transport.onSendMsgDone (xferStatus code) =
      ({ msg_ := s.transport.msg_.setNumberOfRetries 0, counter_ := s.transport.counter_ - 1 },
        .report (s.transport.msg_.setNumberOfRetries 0)) := by
  rcases s.transport.onSendMsgDone_cases (xferStatus code) with
    ⟨hdeleted, -⟩ | ⟨-, ⟨-, htries⟩, -⟩ | ⟨-, hdone⟩
  · exact absurd hdeleted h.alive
  · have hlast := h.last
    omega
  · exact hdone

section Comes

variable {taken : Lock → Prop} {held mine : Holds Lock} {wanted : Lock} {mode : Mode}
  {R : Shared → Prop} {k : Prog} {s : Shared}

theorem comes_notifyConnectors {message : MpMsgPayload} {status : mp_status_t}
    (hfree : ¬ taken .dbConnLock_)
    (h : Comes taken held wanted mode R mine k
      { s with reports := s.reports ++ notify s.engine.dbConnectors_ message status }) :
    Comes taken held wanted mode R mine (notifyConnectors message status k) s :=
  .acquire hfree (Or.inl rfl) (.update (.within h))

/-- A thread that settles a failure comes to the lock of the connectors with the lock
of the queues. -/
theorem comes_settle {message : MpMsgPayload} {pool : MpMsgPool}
    (hclear : ∀ x ∈ mine, x.1 ≠ .userPoolLock_)
    (hpool : s.engine.userPool_ message.userSerial_ = some pool) (hwaiting : pool.messages_ ≠ [])
    (hunmarked : pool.weight_ ≠ INT_MAX) :
    Comes (fun _ => False) ((.userPoolLock_, .write) :: mine) .dbConnLock_ .mutex
      (fun _ => True) mine (settle message MP_MESSAGE_NOT_SENT k) s := by
  let pool' := (pool.markMsgAsProcessed message.uid_).markAsDirty
  have hlength : pool'.messages_.length = pool.messages_.length := by
    simp only [pool', MpMsgPool.markAsDirty, MpMsgPool.markMsgAsProcessed]
    split <;> simp
  have hmessages : pool'.messages_ ≠ [] := by
    intro hnil
    rw [hnil, List.length_nil, eq_comm, List.length_eq_zero_iff] at hlength
    exact hwaiting hlength
  have hweight : pool'.weight_ ≠ INT_MAX := by
    simpa [pool', MpMsgPool.markAsDirty] using hunmarked
  obtain ⟨m, rest, hm⟩ := List.exists_cons_of_ne_nil hmessages
  refine .acquire not_false (Or.inr hclear) (.look ?_)
  simp only [hpool]
  rw [if_neg (by decide)]
  refine .update ?_
  show Comes _ _ _ _ _ _ (Calls.markUserPoolProcessed _ pool' _) _
  unfold Calls.markUserPoolProcessed
  rw [if_neg (by simp [hm]), if_neg hweight, hm]
  exact .update (.here trivial)

theorem comes_on_pager_status {call code : Nat} {pool : MpMsgPool}
    (hcall : call < s.outstanding.length) (h : Failing s code pool) :
    Comes (fun _ => False) [(.userPoolLock_, .write), (.msgLock_, .mutex)] .dbConnLock_ .mutex
      (fun _ => True) [] (on_pager_status call code k) s := by
  have hstatus : xferStatus code = MP_MESSAGE_NOT_SENT := if_neg h.failed
  have hdone := h.done
  refine .perform default _ () (if_pos hcall) (.acquire not_false (Or.inl rfl) ?_)
  refine .perform default
    { s with
      transport :=
        { msg_ := s.transport.msg_.setNumberOfRetries 0, counter_ := s.transport.counter_ - 1 }
      outstanding := s.outstanding.eraseIdx call }
    (.report (s.transport.msg_.setNumberOfRetries 0)) (by simp [hdone, Shared.sip]) ?_
  refine comes_notifyConnectors not_false ?_
  rw [hstatus]
  exact comes_settle (by simp) h.pool h.waiting h.unmarked

end Comes

/-- **Synchronising can hang**: the connectors' lock is taken before the lock of the
queues, and while the messages of a user are marked the other way round. -/
theorem sync_hangs {contents : List (List MpMsgPayload)} {call code : Nat} {pool : MpMsgPool}
    (htu : t ≠ u) (hfree : ∀ v, c.holds v = [])
    (ht : c.code t = syncWithDBConnectors contents kt) (hcontents : contents.flatten ≠ [])
    (hu : c.code u = on_pager_status call code ku) (hcall : call < c.shared.outstanding.length)
    (hfailing : Failing c.shared code pool) : CanHang c {t, u} := by
  obtain ⟨m, rest, hm⟩ := List.exists_cons_of_ne_nil hcontents
  have hsettles : Comes (fun _ => False) [(.userPoolLock_, .write), (.msgLock_, .mutex)]
      .dbConnLock_ .mutex (fun _ => True) [] (c.code u) c.shared := by
    rw [hu]
    exact comes_on_pager_status hcall hfailing
  have hsyncs : ∀ s, True →
      Comes (fun lock => ∃ x ∈ [(Lock.userPoolLock_, Mode.write), (.msgLock_, .mutex)], x.1 = lock)
        [(.dbConnLock_, .mutex)] .userPoolLock_ .write (fun _ => True) [] (c.code t) s := by
    intro s _
    rw [ht]
    refine .acquire (by simp) (Or.inl rfl) ?_
    rw [hm]
    exact .here trivial
  exact canHang_of_crossing htu hfree hsettles hsyncs ⟨_, List.mem_singleton.2 rfl, rfl, rfl⟩
    ⟨_, List.mem_cons_self, rfl, rfl⟩

/-- The last try of a message fails while the database is read. -/
theorem sync_hangs_once :
    let m := MpMsgPayload.new [65] [104] 1 1 .MP_TYPE_MESSAGE false 0
    let s : Shared :=
      { Shared.new [] with
        engine := { AutoResend.Engine.addMessageInternal (.new []) m with started_ := true }
        transport := (MpMsgTransport.sendMessage m).1
        outstanding := [sipSend m] }
    CanHang (Config.start s fun t : Bool =>
      program [if t then .syncWithDBConnectors [[m]] else .on_pager_status 0 404])
      {true, false} := by
  intro m s
  have hfailing : Failing s 404 (markUserPoolAsClean false (.new m)) :=
    ⟨by decide, by decide, by decide, rfl, by decide, by decide⟩
  exact sync_hangs (by decide) (fun _ => rfl) rfl (by decide) rfl (by decide) hfailing

/-! ## The stack and the buddies -/

/-- A call that comes to the stack with the lock of the buddies. -/
inductive Asking (s : Shared) : Call → Prop
  | addBuddy (buddy : MpBuddy) (valid : serialIsValid (buddy.serial_.takeWhile (· ≠ 0)) = true)
      (new : lookup s.buddies.buddyList_ buddy.serial_ = none) : Asking s (.addBuddy buddy)
  | rmBuddy (serial : MpString) (buddy : MpBuddy)
      (known : lookup s.buddies.buddyList_ serial = some buddy) : Asking s (.rmBuddy serial)
  | buddy_state (buddy_id : pjsua_buddy_id) (serial : MpString) (buddy : MpBuddy)
      (known : first MpBuddy.pjsuaId_ buddy_id s.buddies.buddyList_ = some (serial, buddy))
      (registered : engineCb ∈ s.buddies.presenceCb_)
      (waiting : (s.engine.userPool_ buddy.serial_).isSome) :
      Asking s (.buddy_state buddy_id .PJSUA_BUDDY_STATUS_ONLINE)

section Comes

variable {k : Prog} {s : Shared}

/-- The engine hears that a buddy with messages is online. -/
theorem comes_buddy_state2 {mine : Holds Lock} {serial : MpString} {started : Bool}
    (hclear : ∀ x ∈ mine, x.1 ≠ .userPoolLock_) (hpool : (s.engine.userPool_ serial).isSome)
    (hstarted : s.sipStarted_ = started) :
    Comes (fun _ => False) mine .sipStack .mutex (fun s' => s'.sipStarted_ = started) mine
      (Calls.buddy_state2 serial .MP_BUDDY_ONLINE k) s := by
  obtain ⟨pool, hpool⟩ := Option.isSome_iff_exists.1 hpool
  refine .acquire not_false (Or.inr hclear) (.look ?_)
  simp only [hpool, if_true]
  exact .update (.within (.here hstarted))

theorem comes_hear {mine : Holds Lock} {buddy_id : pjsua_buddy_id} {buddy : MpBuddy}
    {started : Bool} (hclear : ∀ x ∈ mine, x.1 ≠ .userPoolLock_)
    (hstate : onlineStatus buddy.state_ = .MP_BUDDY_ONLINE)
    (hpool : (s.engine.userPool_ buddy.serial_).isSome) (hstarted : s.sipStarted_ = started) :
    ∀ {cbs : List MpIPresence}, engineCb ∈ cbs →
      Comes (fun _ => False) mine .sipStack .mutex (fun s' => s'.sipStarted_ = started) mine
        ((cbs.flatMap fun cb => [Notice.buddy_state cb buddy_id, .buddy_state2 cb buddy]).foldr
          hear k) s := by
  intro cbs
  induction cbs with
  | nil =>
      intro h
      cases h
  | cons cb cbs ih =>
      intro h
      simp only [List.flatMap_cons, List.cons_append, List.nil_append, List.foldr_cons, hear]
      by_cases hcb : cb = engineCb
      · rw [if_pos hcb, hstate]
        exact comes_buddy_state2 hclear hpool hstarted
      · rw [if_neg hcb]
        exact ih ((List.mem_cons.1 h).resolve_left fun heq => hcb heq.symm)

theorem Asking.comes {call : Call} (h : Asking s call) :
    ∃ held, (.buddyList, .mutex) ∈ held ∧ (∀ x ∈ held, x.1 ≠ .sipStack) ∧
      Comes (fun _ => False) held .sipStack .mutex (fun s' => s'.sipStarted_ = s.sipStarted_) []
        (call.code k) s := by
  cases h with
  | addBuddy buddy hvalid hnew =>
      refine ⟨[(.buddyList, .mutex)], by simp, by simp, ?_⟩
      refine .acquire not_false (Or.inl rfl) (.look ?_)
      simp only [hvalid, hnew, Option.isSome_none, Bool.true_eq_false, Bool.false_eq_true, if_false]
      exact .here rfl
  | rmBuddy serial buddy hknown =>
      refine ⟨[(.buddyList, .mutex)], by simp, by simp, ?_⟩
      refine .acquire not_false (Or.inl rfl) (.look ?_)
      simp only [hknown]
      exact .here rfl
  | buddy_state buddy_id serial buddy hknown hregistered hwaiting =>
      refine ⟨[(.presenceCb_, .read), (.buddyList, .mutex)], by simp, by simp, ?_⟩
      refine .acquire not_false (Or.inl rfl) (.acquire not_false (Or.inr (by simp)) ?_)
      refine .perform default _ _ rfl ?_
      simp only [Buddy.Presence.buddy_state, hknown, Buddy.Presence.notices]
      have honline : Buddy.Presence.onlineState .PJSUA_BUDDY_STATUS_ONLINE = .MP_BUDDY_ONLINE :=
        rfl
      rw [honline]
      have hclear : ∀ x ∈ [(Lock.presenceCb_, Mode.read), (.buddyList, .mutex)],
          x.1 ≠ .userPoolLock_ := by simp
      refine comes_hear hclear ?_ ?_ ?_ hregistered
      · rfl
      · exact hwaiting
      · rfl

end Comes

/-- **Logging out can hang**: a running stack is stopped under its lock, and the
buddies are forgotten on the way. -/
theorem logout_hangs {call : Call} (htu : t ≠ u) (hfree : ∀ v, c.holds v = [])
    (ht : c.code t = Calls.logout kt) (hstarted : c.shared.sipStarted_ = true)
    (hasking : Asking c.shared call) (hu : c.code u = call.code ku) : CanHang c {t, u} := by
  obtain ⟨held, hbuddies, hstack, hcomes⟩ := hasking.comes (k := ku)
  rw [← hu] at hcomes
  have hstops : ∀ s, s.sipStarted_ = c.shared.sipStarted_ →
      Comes (fun lock => ∃ x ∈ held, x.1 = lock) [(.sipStack, .mutex)] .buddyList .mutex
        (fun _ => True) [] (c.code t) s := by
    intro s hs
    rw [ht]
    refine .acquire ?_ (Or.inl rfl) (.look ?_)
    · rintro ⟨x, hx, hlock⟩
      exact hstack x hx hlock
    · simp only [hs, hstarted, Bool.not_true, Bool.false_eq_true, if_false]
      exact .here trivial
  exact canHang_of_crossing htu hfree hcomes hstops ⟨_, List.mem_singleton.2 rfl, rfl, rfl⟩
    ⟨_, hbuddies, rfl, rfl⟩

/-- A buddy is added while the user logs out. -/
theorem logout_hangs_once :
    CanHang (Config.start { Shared.new [] with sipStarted_ := true } fun t : Bool =>
      program [if t then .logout else .addBuddy (.new [65])]) {true, false} := by
  have hasking : Asking { Shared.new [] with sipStarted_ := true } (.addBuddy (.new [65])) :=
    .addBuddy _ (by decide) (by decide)
  exact logout_hangs (by decide) (fun _ => rfl) rfl rfl hasking rfl

/-! ## The lock of the account

No call gives it back, and one takes it.
-/

section Account

variable {has : Prop} {k : Prog}

theorem endsWith_notifyConnectors (message : MpMsgPayload) (status : mp_status_t)
    (h : EndsWith .userAccount has k) :
    EndsWith .userAccount has (notifyConnectors message status k) :=
  endsWith_acquire (endsWith_update (endsWith_release (by decide) h))

theorem endsWith_markMessages (serial : MpString) (messages : List MpMsgPayload)
    (h : EndsWith .userAccount has k) :
    ∀ before, EndsWith .userAccount has (markMessages serial before messages k) := by
  induction messages with
  | nil => exact fun _ => h
  | cons m messages ih =>
      intro before
      exact endsWith_update (endsWith_notifyConnectors _ _ (ih _))

theorem endsWith_markUserPoolProcessed (serial : MpString) (pool : MpMsgPool)
    (h : EndsWith .userAccount has k) :
    EndsWith .userAccount has (Calls.markUserPoolProcessed serial pool k) := by
  unfold Calls.markUserPoolProcessed
  split_ifs
  · exact h
  · exact h
  · exact endsWith_markMessages _ _ (endsWith_update h) _

theorem endsWith_search (serials : List MpString) (h : EndsWith .userAccount has k) :
    EndsWith .userAccount has (search serials k) := by
  induction serials with
  | nil => exact endsWith_release (by decide) (endsWith_update h)
  | cons serial rest ih =>
      refine endsWith_look fun s => ?_
      split
      · exact ih
      · split_ifs
        · exact ih
        · dsimp only
          split_ifs
          · exact ih
          · exact endsWith_acquire (endsWith_perform fun _ =>
              endsWith_release (by decide) (endsWith_release (by decide) h))
        · exact endsWith_markUserPoolProcessed _ _ ih

theorem endsWith_sendMessage (h : EndsWith .userAccount has k) :
    EndsWith .userAccount has (Calls.sendMessage k) :=
  endsWith_acquire (endsWith_perform fun _ => endsWith_search _ h)

theorem endsWith_startEngine (h : EndsWith .userAccount has k) :
    EndsWith .userAccount has (Calls.startEngine k) := by
  refine endsWith_acquire (endsWith_look fun s => endsWith_release (by decide) ?_)
  dsimp only
  split_ifs
  · exact h
  · refine endsWith_acquire (endsWith_look fun s => ?_)
    split_ifs
    · exact endsWith_update (endsWith_sendMessage (endsWith_release (by decide) h))
    · exact endsWith_release (by decide) h

theorem endsWith_addMessageInternal (message : MpMsgPayload)
    (h : EndsWith .userAccount has k) :
    EndsWith .userAccount has (Calls.addMessageInternal message k) :=
  endsWith_acquire (endsWith_update (endsWith_release (by decide) h))

/-- The same row of calls for each of these. -/
theorem endsWith_foldr {α : Type} {f : α → Prog → Prog}
    (hf : ∀ x k, EndsWith .userAccount has k → EndsWith .userAccount has (f x k)) (xs : List α)
    (h : EndsWith .userAccount has k) : EndsWith .userAccount has (xs.foldr f k) :=
  List.foldrRecOn xs f h fun k hk x _ => hf x k hk

theorem endsWith_addMessage (message : MpMsgPayload) (h : EndsWith .userAccount has k) :
    EndsWith .userAccount has (Calls.addMessage message k) :=
  endsWith_addMessageInternal message (endsWith_startEngine h)

theorem endsWith_settle (message : MpMsgPayload) (status : mp_status_t)
    (h : EndsWith .userAccount has k) :
    EndsWith .userAccount has (Calls.settle message status k) := by
  have hrelease : EndsWith .userAccount has (.release .userPoolLock_ k) :=
    endsWith_release (by decide) h
  refine endsWith_acquire (endsWith_look fun s => ?_)
  split
  · exact hrelease
  · split_ifs
    · exact endsWith_update hrelease
    · exact endsWith_update (endsWith_markUserPoolProcessed _ _ hrelease)

theorem endsWith_messageStatus (message : MpMsgPayload) (status : mp_status_t)
    (h : EndsWith .userAccount has k) :
    EndsWith .userAccount has (Calls.messageStatus message status k) :=
  endsWith_notifyConnectors _ _ (endsWith_settle _ _ (endsWith_acquire
    (endsWith_sendMessage (endsWith_release (by decide) h))))

theorem endsWith_on_pager_status (call code : Nat) (h : EndsWith .userAccount has k) :
    EndsWith .userAccount has (Calls.on_pager_status call code k) := by
  have hrelease : EndsWith .userAccount has (.release .msgLock_ k) :=
    endsWith_release (by decide) h
  refine endsWith_perform fun _ => endsWith_acquire (endsWith_perform fun reaction => ?_)
  cases reaction with
  | report message => exact endsWith_messageStatus _ _ hrelease
  | _ => exact hrelease

theorem endsWith_buddy_state2 (serial : MpString) (state : mp_buddy_online_status_t)
    (h : EndsWith .userAccount has k) :
    EndsWith .userAccount has (Calls.buddy_state2 serial state k) := by
  refine endsWith_acquire (endsWith_look fun s => ?_)
  split
  · exact endsWith_release (by decide) h
  · split_ifs
    · exact endsWith_update (endsWith_release (by decide) (endsWith_startEngine h))
    · exact endsWith_release (by decide) h

theorem endsWith_hear (notice : Notice) (h : EndsWith .userAccount has k) :
    EndsWith .userAccount has (hear notice k) := by
  cases notice with
  | buddy_state cb buddy_id => exact h
  | buddy_state2 cb buddy =>
      simp only [hear]
      split_ifs
      · exact endsWith_buddy_state2 _ _ h
      · exact h

theorem endsWith_callPjsua (h : EndsWith .userAccount has k) :
    EndsWith .userAccount has (callPjsua k) :=
  endsWith_acquire (endsWith_release (by decide) h)

theorem endsWith_stopSIPStack (h : EndsWith .userAccount has k) :
    EndsWith .userAccount has (Calls.stopSIPStack k) := by
  refine endsWith_acquire (endsWith_look fun s => ?_)
  split_ifs
  · exact endsWith_release (by decide) h
  · exact endsWith_acquire (endsWith_update (endsWith_release (by decide)
      (endsWith_perform fun _ => endsWith_release (by decide) h)))

theorem endsWith_startSIPStack (networkState : SipStack.Stack.mp_network_state_t)
    (h : EndsWith .userAccount has k) :
    EndsWith .userAccount has (Calls.startSIPStack networkState k) := by
  refine endsWith_acquire (endsWith_look fun s => ?_)
  split_ifs
  · exact endsWith_release (by decide) h
  · exact endsWith_acquire (endsWith_release (by decide)
      (endsWith_perform fun _ => endsWith_release (by decide) h))

/-- A change of the buddy list, if the stack has agreed to it. -/
theorem endsWith_change {f : Buddy.Presence.MpBuddyList → Buddy.Presence.MpBuddyList}
    {agreed : Prop} [Decidable agreed] (h : EndsWith .userAccount has k) :
    EndsWith .userAccount has
      (if agreed then .update (.withBuddies f) (.release .buddyList k)
        else .release .buddyList k) := by
  split_ifs
  · exact endsWith_update (endsWith_release (by decide) h)
  · exact endsWith_release (by decide) h

theorem endsWith_addBuddy (buddy : MpBuddy) (h : EndsWith .userAccount has k) :
    EndsWith .userAccount has (Calls.addBuddy buddy k) := by
  refine endsWith_acquire (endsWith_look fun s => ?_)
  split_ifs
  · exact endsWith_release (by decide) h
  · exact endsWith_release (by decide) h
  · exact endsWith_acquire (endsWith_perform fun _ =>
      endsWith_release (by decide) (endsWith_change h))

theorem endsWith_rmBuddy (serial : MpString) (h : EndsWith .userAccount has k) :
    EndsWith .userAccount has (Calls.rmBuddy serial k) := by
  refine endsWith_acquire (endsWith_look fun s => ?_)
  split
  · exact endsWith_release (by decide) h
  · exact endsWith_acquire (endsWith_perform fun _ =>
      endsWith_release (by decide) (endsWith_change h))

theorem endsWith_modifyPool (pool : CbPool) (h : EndsWith .userAccount has k) :
    EndsWith .userAccount has (modifyPool pool k) :=
  endsWith_acquire (endsWith_release (by cases pool <;> decide) h)

theorem endsWith_usePool (pool : CbPool) (h : EndsWith .userAccount has k) :
    EndsWith .userAccount has (usePool pool k) :=
  endsWith_acquire (endsWith_release (by cases pool <;> decide) h)

theorem endsWith_onCall (rejects : Bool) (answers : Nat) (h : EndsWith .userAccount has k) :
    EndsWith .userAccount has (Calls.onCall rejects answers k) := by
  unfold Calls.onCall
  split_ifs
  · exact endsWith_callPjsua h
  · refine endsWith_acquire ?_
    induction answers with
    | zero => exact endsWith_release (by decide) h
    | succ n ih =>
        rw [Function.iterate_succ_apply']
        exact endsWith_callPjsua ih

/-- Whoever has the lock of the account before a call still has it behind it. -/
theorem endsWith_call (call : Call) (h : EndsWith .userAccount has k) :
    EndsWith .userAccount has (call.code k) := by
  cases call with
  | addMessage message => exact endsWith_addMessage message h
  | syncWithDBConnectors contents =>
      exact endsWith_acquire (endsWith_foldr (fun m _ => endsWith_addMessageInternal m) _
        (endsWith_release (by decide) h))
  | addDBConnector dbConn | addPresenceCb presCb | rmPresenceCb presCb =>
      exact endsWith_acquire (endsWith_update (endsWith_release (by decide) h))
  | isMessageProcessing serial uid =>
      exact endsWith_acquire (endsWith_look fun _ => endsWith_release (by decide) h)
  | removeMessagesForSerial serial =>
      exact endsWith_acquire (endsWith_update (endsWith_release (by decide)
        (endsWith_acquire (endsWith_update (endsWith_release (by decide) h)))))
  | setAutoResendEnabled autoResendEnabled =>
      refine endsWith_look fun s => endsWith_acquire (endsWith_update
        (endsWith_release (by decide) ?_))
      split_ifs
      · exact endsWith_startEngine h
      · exact h
  | resendMessage serial msgId =>
      refine endsWith_acquire (endsWith_look fun s => ?_)
      split
      · exact endsWith_release (by decide) h
      · exact endsWith_update (endsWith_release (by decide) (endsWith_startEngine h))
  | buddy_state2 serial state => exact endsWith_buddy_state2 serial state h
  | on_pager_status call code => exact endsWith_on_pager_status call code h
  | onMsgReceived replies =>
      exact endsWith_acquire (endsWith_foldr (fun m _ => endsWith_addMessage m) _
        (endsWith_release (by decide) h))
  | addBuddy buddy => exact endsWith_addBuddy buddy h
  | rmBuddy serial => exact endsWith_rmBuddy serial h
  | buddy_state buddy_id status =>
      exact endsWith_acquire (endsWith_acquire (endsWith_perform fun _ =>
        endsWith_foldr (fun n _ => endsWith_hear n) _
          (endsWith_release (by decide) (endsWith_release (by decide) h))))
  | readBuddyList => exact endsWith_acquire (endsWith_release (by decide) h)
  | login networkState => exact endsWith_startSIPStack networkState h
  | logout => exact endsWith_stopSIPStack (endsWith_usePool _ h)
  | callPjsua => exact endsWith_callPjsua h
  | callBuddy => exact endsWith_acquire (endsWith_release (by decide) (endsWith_callPjsua h))
  | onCall rejects answers => exact endsWith_onCall rejects answers h
  | modifyPool pool => exact endsWith_modifyPool pool h
  | registration_state => exact endsWith_usePool _ h
  | rmRegCallback null =>
      refine endsWith_acquire ?_
      split_ifs
      · exact h
      · exact endsWith_modifyPool _ h

/-- Removing a registration callback takes it, wherever it stands in the program. -/
theorem endsWith_program {null : Bool} {calls : List Call} (h : .rmRegCallback null ∈ calls) :
    EndsWith .userAccount False (program calls) := by
  have hkept : ∀ calls, EndsWith .userAccount True (program calls) := fun calls =>
    endsWith_foldr (fun call _ => endsWith_call call) calls trivial
  induction calls with
  | nil => cases h
  | cons call calls ih =>
      rcases List.mem_cons.1 h with rfl | hrest
      · have htaken : EndsWith .userAccount (False ∨ Lock.userAccount = .userAccount)
            (program calls) := (hkept calls).imp fun _ => Or.inr rfl
        show EndsWith _ _ (if null then _ else _)
        split_ifs
        · exact htaken
        · exact endsWith_modifyPool _ htaken
      · exact endsWith_call call (ih hrest)

end Account

/-- **A second thread that removes a registration callback hangs**: in every run in which a
thread has ended and has called `rmRegCallback` on its way, another thread that comes to
`rmRegCallback` never makes a step again. -/
theorem rmRegCallback_hangs {dbConnectors : List mp_msg_type_t} {calls : T → List Call}
    {schedule : List (T × Answer)} {null null' : Bool} (htu : t ≠ u)
    (hcalled : .rmRegCallback null ∈ calls t)
    (hexec : exec Config.step (beginning dbConnectors calls) schedule = some c)
    (hended : c.code t = .done) (hcomes : c.code u = rmRegCallback null' ku) :
    Deadlocked c {u} ∧ ∀ more c', exec Config.step c more = some c' → c'.code u = c.code u := by
  have hbeginning : EndsWith .userAccount
      (∃ x ∈ (beginning dbConnectors calls).holds t, x.1 = .userAccount)
      ((beginning dbConnectors calls).code t) :=
    (endsWith_program hcalled).imp False.elim
  obtain ⟨x, hx, hlock⟩ := hbeginning.exec hexec hended
  have hdead : Deadlocked c {u} := by
    refine deadlocked_single (u := t) ⟨_, _, _, hcomes, x, hx, hlock, ?_⟩ hended
    rw [decide_eq_false htu]
    rfl
  exact ⟨hdead, fun more c' hmore => (hdead.exec hmore).2 u rfl⟩

/-- Two threads remove a callback, and one of them has done so. -/
theorem rmRegCallback_hangs_once :
    ∃ c : Config Bool Lock Shared Answer,
      exec Config.step (beginning [] fun _ => [.rmRegCallback true]) [(true, default)] = some c ∧
        Deadlocked c {false} ∧
          ∀ more c', exec Config.step c more = some c' → c'.code false = c.code false := by
  have hrun : ∃ c : Config Bool Lock Shared Answer,
      exec Config.step (beginning [] fun _ => [.rmRegCallback true]) [(true, default)] = some c ∧
        c.code true = .done ∧ c.code false = rmRegCallback true .done := ⟨_, rfl, rfl, rfl⟩
  have hcalled : Call.rmRegCallback true ∈ [Call.rmRegCallback true] := List.mem_singleton.2 rfl
  obtain ⟨c, hexec, hended, hcomes⟩ := hrun
  exact ⟨c, hexec, rmRegCallback_hangs (by decide) hcalled hexec hended hcomes⟩

end EndToEndSmkex.Threads.Crossings
