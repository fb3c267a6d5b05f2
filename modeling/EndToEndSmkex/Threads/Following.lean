import EndToEndSmkex.AutoResend.Changes
import EndToEndSmkex.AutoResend.Search
import EndToEndSmkex.Threads.Discipline

/-!
# Every call follows the discipline

One lemma for each function: it follows the discipline if the code behind it
does.  `mine` are the locks that are held when it is called, and `settles` says
which of the two orders is in force.

## Main results

* `program_follows` — every program follows the discipline.
-/

namespace EndToEndSmkex.Threads.Following

open EndToEndSmkex.Lib.Deadlocks
open EndToEndSmkex.Lib.Threads
open EndToEndSmkex.Lib.Threads.Discipline
open EndToEndSmkex.Smkex.Record
open EndToEndSmkex.AutoResend.MsgPayload
open EndToEndSmkex.AutoResend.Pool
open EndToEndSmkex.AutoResend.Engine (MpAutoResendEngine mp_status_t mp_buddy_online_status_t)
open EndToEndSmkex.AutoResend.Engine.mp_status_t
open EndToEndSmkex.AutoResend.Changes (Requeued requeued_addMessageInternal requeued_settle)
open EndToEndSmkex.Buddy.Presence (MpBuddyList MpIPresence Notice pjsua_buddy_status)
open EndToEndSmkex.DataMsg.MsgTransport
open EndToEndSmkex.Threads.Calls
open EndToEndSmkex.Threads.Discipline

variable {T : Type} [DecidableEq T] {mine : Holds Lock} {phase : Phase}
  {settles lax : Bool} {k : Prog}

/-! ## Marking -/

theorem aside_withPool (serial : MpString) (f : MpMsgPool → MpMsgPool) (s : Shared) :
    Aside s (s.withPool serial f) := ⟨rfl, rfl, rfl⟩

/-- Only `userPool_` and `priority_` change. -/
theorem same_withPool (serial : MpString) (f : MpMsgPool → MpMsgPool) (s : Shared)
    (other : Lock) (hother : other ≠ .userPoolLock_) : Same other s (s.withPool serial f) := by
  cases other <;> first | exact absurd rfl hother | simp [Same, Shared.withPool,
    Shared.withEngine, MpAutoResendEngine.setPool]

theorem notifyConnectors_follows (message : MpMsgPayload) (status : mp_status_t)
    (hranked : Ranked phase settles) (hmine : ∀ x ∈ mine, rank settles x.1 ≤ 5)
    (hk : Follows T lax mine phase k) :
    Follows T lax mine phase (notifyConnectors message status k) := by
  have hphase : phase ≠ .testing := by
    rcases hranked with ⟨-, rfl⟩ | ⟨-, rfl⟩ <;> decide
  apply follows_acquire (asks_ranked hranked fun x hx => ?_)
  · apply follows_aside
    · exact fun s => ⟨rfl, rfl, rfl⟩
    · intro s other
      apply guarded_by .dbConnLock_ (by simp) (by decide : Mode.mutex ≠ .read)
      intro other hother
      cases other <;> first | exact absurd rfl hother | simp [Same]
    · exact follows_release hphase hk
  · exact Nat.lt_succ_of_le (hmine x hx)

theorem markMessages_follows (serial : MpString) (hranked : Ranked phase settles)
    (hmine : ∀ x ∈ mine, rank settles x.1 ≤ 5) (hheld : (.userPoolLock_, .write) ∈ mine)
    (hk : Follows T lax mine phase k) :
    ∀ messages before, Follows T lax mine phase (markMessages serial before messages k) := by
  intro messages
  induction messages with
  | nil =>
      intro before
      exact hk
  | cons m messages ih =>
      intro before
      apply follows_aside (aside_withPool serial _)
      · intro s
        exact guarded_by .userPoolLock_ hheld (by decide) (same_withPool serial _ s)
      · exact notifyConnectors_follows _ _ hranked hmine (ih _)

theorem markUserPoolProcessed_follows (serial : MpString) (pool : MpMsgPool)
    (hranked : Ranked phase settles) (hmine : ∀ x ∈ mine, rank settles x.1 ≤ 5)
    (hheld : (.userPoolLock_, .write) ∈ mine) (hk : Follows T lax mine phase k) :
    Follows T lax mine phase (markUserPoolProcessed serial pool k) := by
  unfold markUserPoolProcessed
  split
  · exact hk
  split
  · exact hk
  apply markMessages_follows serial hranked hmine hheld
  apply follows_aside (aside_withPool serial _)
  · intro s
    exact guarded_by .userPoolLock_ hheld (by decide) (same_withPool serial _ s)
  · exact hk

/-! ## Sending -/

theorem sip_some {s s' : Shared} {send : Option SipSend} {a : Answer}
    (h : s.sip send a = some s') :
    s' = { s with outstanding := s'.outstanding } ∧
      (s'.outstanding = s.outstanding ∨ ∃ x, send = some x ∧
        s'.outstanding = s.outstanding ++ [x]) := by
  unfold Shared.sip at h
  split at h
  · cases h
    exact ⟨rfl, Or.inl rfl⟩
  · cases h
    exact ⟨rfl, Or.inr ⟨_, rfl, rfl⟩⟩
  · cases h
    exact ⟨rfl, Or.inl rfl⟩
  · cases h

/-- A call of `sendMsg` where none is outstanding. -/
theorem sip_single {s s' : Shared} {send : Option SipSend} {a : Answer}
    (h : s.sip send a = some s') (hgrounded : s.outstanding = []) :
    s'.outstanding.length ≤ 1 ∧ ∀ x ∈ s'.outstanding, send = some x := by
  rcases (sip_some h).2 with hsame | ⟨x, hsend, hmore⟩
  · simp [hsame, hgrounded]
  · simp [hmore, hgrounded, hsend]

/-- The transport gets a message while it has none. -/
theorem transportSend_follows (message : MpMsgPayload) (hranked : Ranked phase settles)
    (hmine : ∀ x ∈ mine, rank settles x.1 ≤ 5)
    (hmsg : settles = true → (.msgLock_, .mutex) ∈ mine) (hk : Follows T lax mine .free k) :
    Follows T lax mine phase (transportSend message k) := by
  have hasks : ∀ (phases : T → Phase) t s holds, OneFlight s holds phases →
      phases t = phase → Asks lax phases mine .msgLock_ .mutex := by
    cases settles with
    | true => exact fun _ _ _ _ _ _ => Or.inl (Or.inl ⟨rfl, hmsg rfl⟩)
    | false =>
        refine asks_ranked hranked fun x hx => ?_
        have hle := hmine x hx
        show rank false x.1 < 7
        omega
  apply follows_acquire hasks
  apply obeys_perform
  intro t s holds phases hsees a s' b hf
  obtain ⟨s₁, hsip, hs₁⟩ := Option.map_eq_some_iff.1 hf
  cases hs₁
  have hactive : (phases t).active := by rw [hsees.phase]; exact hranked.active
  have hbusy := Phase.busy_of_active hactive
  obtain ⟨hrest, -⟩ := sip_some hsip
  refine ⟨Or.inr ⟨?_, fun hlive => absurd hlive (hsees.inv.quiet t hactive)⟩, .free, ?_, ?_⟩
  · rw [hsees.holds]
    apply guarded_by .msgLock_ (by simp) (by decide : Mode.mutex ≠ .read)
    intro other hother
    rw [hrest]
    cases other <;> first | exact absurd rfl hother | simp [Same]
  · obtain ⟨hlength, hsent⟩ := sip_single hsip (hsees.inv.grounded t hbusy)
    apply hsees.inv.finish hbusy hlength
    · intro x hx
      have hsend : (if message.numberOfRetries_ ≤ 0 then none else some (sipSend message)) =
          some x := hsent x hx
      split at hsend
      · cases hsend
      · rw [hrest]
        exact (Option.some.inj hsend).symm
    · rw [hrest]
  · exact follows_release (by decide) hk

/-- Nobody has a message that can be sent: the flag is unset. -/
theorem nothing_follows (hactive : phase.active)
    (hstarted : (.startedLock_, .mutex) ∈ mine) (hk : Follows T lax mine .free k) :
    Follows T lax ((.userPoolLock_, .write) :: mine) phase (search [] k) := by
  have hbusy := Phase.busy_of_active hactive
  have hmine : ((Lock.userPoolLock_, Mode.write) :: mine).eraseP
      (fun x => x.1 = .userPoolLock_) = mine := by simp
  refine ⟨.clearing, fun t s holds phases hsees => ?_, ?_⟩
  · have ht : (phases t).busy := by rw [hsees.phase]; exact hbusy
    have hquiet : ¬ Live s := hsees.inv.quiet t (by rw [hsees.phase]; exact hactive)
    have hnext := hsees.inv.proceed .clearing ht rfl rfl rfl hquiet
    refine OneFlight.rehold hnext fun h => ?_
    rw [Function.update_self] at h
    cases h
  · rw [hmine]
    apply obeys_update .free _ hk
    intro t s holds phases hsees
    refine ⟨⟨?_, fun _ => Or.inl rfl⟩, hsees.inv.clear hsees.phase rfl rfl⟩
    rw [hsees.holds]
    apply guarded_by .startedLock_ hstarted (by decide)
    intro other hother
    cases other <;> first | exact absurd rfl hother | simp [Same, Shared.withEngine]

theorem search_follows (hranked : Ranked phase settles)
    (hmine : ∀ x ∈ mine, rank settles x.1 ≤ 4)
    (hmsg : settles = true → (.msgLock_, .mutex) ∈ mine)
    (hstarted : (.startedLock_, .mutex) ∈ mine) (hk : Follows T lax mine .free k) :
    ∀ serials, Follows T lax ((.userPoolLock_, .write) :: mine) phase (search serials k) := by
  have hmine' : ∀ x ∈ (Lock.userPoolLock_, Mode.write) :: mine, rank settles x.1 ≤ 5 :=
    below_cons hmine le_rfl (by decide)
  intro serials
  induction serials with
  | nil => exact nothing_follows hranked.active hstarted hk
  | cons serial rest ih =>
      apply obeys_look_same
      intro s
      dsimp only
      split
      · exact ih
      split
      · exact ih
      split
      · split
        · exact ih
        · exact transportSend_follows _ hranked hmine' (fun h => List.mem_cons_of_mem _ (hmsg h))
            (follows_release (by decide) hk)
      · exact markUserPoolProcessed_follows serial _ hranked hmine' (by simp) ih

theorem aside_withEngine {f : MpAutoResendEngine → MpAutoResendEngine} {s : Shared}
    (h : (f s.engine).started_ = s.engine.started_) : Aside s (s.withEngine f) :=
  ⟨rfl, rfl, h⟩

theorem sortUsers_some {s s' : Shared} {a : Answer} {priority : List MpString}
    (h : sortUsers s a = some (s', priority)) :
    ∃ order, s' = s.withEngine fun e => { e with priority_ := order } := by
  cases a with
  | missing comparisons =>
      obtain ⟨e, he, hs'⟩ := Option.map_eq_some_iff.1 h
      obtain ⟨order, -, rfl⟩ := AutoResend.Search.sortMessages_eq_some he
      cases hs'
      exact ⟨order, rfl⟩
  | silence | sendMsg | pjsua => cases h

theorem sendMessage_follows (hranked : Ranked phase settles)
    (hmine : ∀ x ∈ mine, rank settles x.1 ≤ 4)
    (hmsg : settles = true → (.msgLock_, .mutex) ∈ mine)
    (hstarted : (.startedLock_, .mutex) ∈ mine) (hk : Follows T lax mine .free k) :
    Follows T lax mine phase (sendMessage k) := by
  refine follows_acquire (asks_ranked hranked ?_) ?_
  · exact fun x hx => Nat.lt_succ_of_le (hmine x hx)
  apply follows_perform_aside
  · intro s a s' priority h
    obtain ⟨order, rfl⟩ := sortUsers_some h
    exact ⟨rfl, rfl, rfl⟩
  · intro s a s' priority h
    obtain ⟨order, rfl⟩ := sortUsers_some h
    apply guarded_by .userPoolLock_ (by simp) (by decide : Mode.write ≠ .read)
    intro other hother
    cases other <;> first | exact absurd rfl hother | simp [Same, Shared.withEngine]
  · intro priority
    exact search_follows hranked hmine hmsg hstarted hk priority

/-! ## The engine's calls -/

theorem isSipStackStarted_follows {k : Bool → Prog}
    (hmine : Outer mine) (hk : ∀ b, Follows T lax mine .free (k b)) :
    Follows T lax mine .free (isSipStackStarted k) := by
  apply follows_acquire (asks_inner hmine (by decide))
  exact obeys_look_same fun s => follows_release (by decide) (hk _)

theorem startEngine_follows (hmine : Outer mine) (hk : Follows T lax mine .free k) :
    Follows T lax mine .free (startEngine k) := by
  apply isSipStackStarted_follows hmine
  intro isStarted
  split
  · exact hk
  apply follows_acquire (asks_inner hmine (by decide))
  have hsend : Follows T lax ((.startedLock_, .mutex) :: mine) .kicking
      (sendMessage (.release .startedLock_ k)) := by
    refine sendMessage_follows (Or.inr ⟨rfl, rfl⟩) ?_ (by simp) (by simp)
      (follows_release (by decide) hk)
    exact below_cons hmine (by decide) (by decide)
  have hset : Follows T lax ((.startedLock_, .mutex) :: mine) .testing
      (.update (.withEngine fun e => { e with started_ := true })
        (sendMessage (.release .startedLock_ k))) := by
    apply obeys_update .kicking _ hsend
    intro t s holds phases hsees
    refine ⟨⟨?_, fun _ => Or.inl rfl⟩, hsees.inv.kick hsees.exclusive hsees.phase rfl rfl rfl⟩
    rw [hsees.holds]
    apply guarded_by .startedLock_ (by simp) (by decide : Mode.mutex ≠ .read)
    intro other hother
    cases other <;> first | exact absurd rfl hother | simp [Same, Shared.withEngine]
  apply obeys_look
  intro t s holds phases hsees
  have hheld : (Lock.startedLock_, Mode.mutex) ∈ holds t := by rw [hsees.holds]; simp
  cases hflag : s.engine.started_ with
  | true => exact ⟨.free, hsees.same, follows_release (by decide) hk⟩
  | false => exact ⟨.testing, hsees.inv.test hsees.phase hflag hheld, hset⟩

/-- A change of the queues under `userPoolLock_`. -/
theorem queues_follow {f : MpAutoResendEngine → MpAutoResendEngine}
    (hf : ∀ e, Requeued e (f e)) (hphase : phase ≠ .testing) (hk : Follows T lax mine phase k) :
    Follows T lax ((.userPoolLock_, .write) :: mine) phase
      (.update (.withEngine f) (.release .userPoolLock_ k)) := by
  apply follows_aside
  · exact fun s => aside_withEngine (hf _).started
  · intro s
    apply guarded_by .userPoolLock_ (by simp) (by decide : Mode.write ≠ .read)
    intro other hother
    cases other <;> first
      | exact absurd rfl hother
      | simp [Same, Shared.withEngine, (hf s.engine).started, (hf s.engine).autoResend,
          (hf s.engine).dbConnectors]
  · exact follows_release hphase hk

theorem addMessageInternal_follows (message : MpMsgPayload)
    (hasks : ∀ (phases : T → Phase) t s holds, OneFlight s holds phases → phases t = .free →
      Asks lax phases mine .userPoolLock_ .write) (hk : Follows T lax mine .free k) :
    Follows T lax mine .free (addMessageInternal message k) :=
  follows_acquire hasks
    (queues_follow (fun e => requeued_addMessageInternal e message) (by decide) hk)

section Calls

variable (hmine : Outer mine) (hk : Follows T lax mine .free k)

include hmine hk

theorem addMessage_follows (message : MpMsgPayload) :
    Follows T lax mine .free (addMessage message k) :=
  addMessageInternal_follows message (asks_inner hmine (by decide))
    (startEngine_follows hmine hk)

/-- The lock of the connectors is held when the one of the queues is taken. -/
theorem syncWithDBConnectors_follows (contents : List (List MpMsgPayload)) (hlax : lax = true) :
    Follows T lax mine .free (syncWithDBConnectors contents k) := by
  apply follows_acquire (asks_inner hmine (by decide))
  generalize contents.flatten = messages
  induction messages with
  | nil => exact follows_release (by decide) hk
  | cons m messages ih =>
      refine addMessageInternal_follows m (fun _ _ _ _ _ _ => Or.inr ⟨hlax, Or.inl ⟨rfl, ?_⟩⟩) ih
      simp

theorem addDBConnector_follows (dbConn : mp_msg_type_t) :
    Follows T lax mine .free (addDBConnector dbConn k) := by
  apply follows_acquire (asks_inner hmine (by decide))
  apply follows_aside
  · exact fun s => ⟨rfl, rfl, rfl⟩
  · intro s
    apply guarded_by .dbConnLock_ (by simp) (by decide : Mode.mutex ≠ .read)
    intro other hother
    cases other <;> first | exact absurd rfl hother | simp [Same, Shared.withEngine]
  · exact follows_release (by decide) hk

theorem isMessageProcessing_follows (serial : MpString) (uid : Int) :
    Follows T lax mine .free (isMessageProcessing serial uid fun _ => k) :=
  follows_acquire (asks_inner hmine (by decide))
    (obeys_look_same fun _ => follows_release (by decide) hk)

theorem removeMessagesForSerial_follows (serial : MpString) :
    Follows T lax mine .free (removeMessagesForSerial serial k) := by
  apply follows_acquire (asks_inner hmine (by decide))
  have hmsg : ∀ t : MpMsgTransport, (t.removeMessageForSerial serial).msg_ = t.msg_ ∨
      (t.removeMessageForSerial serial).msg_ = t.msg_.setNumberOfRetries 0 := by
    intro t
    unfold MpMsgTransport.removeMessageForSerial
    split
    · exact Or.inr rfl
    · exact Or.inl rfl
  have hqueues : Follows T lax mine .free (.acquire .userPoolLock_ .write (.update
      (.withEngine fun e => AutoResend.Engine.removeMessagesForSerial e serial)
        (.release .userPoolLock_ k))) :=
    follows_acquire (asks_inner hmine (by decide))
      (queues_follow (fun _ => ⟨rfl, rfl, rfl⟩) (by decide) hk)
  apply obeys_update .free _ (follows_release (by decide) hqueues)
  intro t s holds phases hsees
  refine ⟨⟨?_, fun _ => hmsg s.transport⟩, ?_⟩
  · rw [hsees.holds]
    apply guarded_by .msgLock_ (by simp) (by decide : Mode.mutex ≠ .read)
    intro other hother
    cases other <;> first | exact absurd rfl hother | simp [Same]
  · exact OneFlight.forget hsees.same rfl rfl (hmsg s.transport)

theorem setAutoResendEnabled_follows (autoResendEnabled : Bool) :
    Follows T lax mine .free (setAutoResendEnabled autoResendEnabled k) := by
  apply obeys_look_same
  intro s
  apply follows_acquire (asks_inner hmine (by decide))
  apply follows_aside
  · exact fun s => ⟨rfl, rfl, rfl⟩
  · intro s
    apply guarded_by .startedLock_ (by simp) (by decide : Mode.mutex ≠ .read)
    intro other hother
    cases other <;> first | exact absurd rfl hother | simp [Same, Shared.withEngine]
  · apply follows_release (by decide)
    split
    · exact startEngine_follows hmine hk
    · exact hk

theorem resendMessage_follows (serial : MpString) (msgId : Int) :
    Follows T lax mine .free (resendMessage serial msgId k) := by
  apply follows_acquire (asks_inner hmine (by decide))
  apply obeys_look_same
  intro s
  split
  · exact follows_release (by decide) hk
  · apply follows_aside
    · exact fun s => ⟨rfl, rfl, rfl⟩
    · intro s
      apply guarded_by .userPoolLock_ (by simp) (by decide : Mode.write ≠ .read)
      intro other hother
      cases other <;> first
        | exact absurd rfl hother
        | simp [Same, Shared.withEngine, Shared.withPool, MpAutoResendEngine.setPool,
            AutoResend.Engine.prioritize]
    · exact follows_release (by decide) (startEngine_follows hmine hk)

theorem buddy_state2_follows (serial : MpString) (state : mp_buddy_online_status_t) :
    Follows T lax mine .free (buddy_state2 serial state k) := by
  apply follows_acquire (asks_inner hmine (by decide))
  apply obeys_look_same
  intro s
  split
  · exact follows_release (by decide) hk
  split
  · apply follows_aside
    · exact fun s => aside_withPool serial _ s
    · intro s
      exact guarded_by .userPoolLock_ (by simp) (by decide : Mode.write ≠ .read)
        (same_withPool serial _ s)
    · exact follows_release (by decide) (startEngine_follows hmine hk)
  · exact follows_release (by decide) hk

end Calls

/-! ## Statuses -/

theorem settle_follows (message : MpMsgPayload) (status : mp_status_t)
    (hmine : ∀ x ∈ mine, rank true x.1 ≤ 4) (hk : Follows T lax mine .settling k) :
    Follows T lax mine .settling (settle message status k) := by
  have hranked : Ranked .settling true := Or.inl ⟨rfl, rfl⟩
  have hmine' : ∀ x ∈ (Lock.userPoolLock_, Mode.write) :: mine, rank true x.1 ≤ 5 :=
    below_cons hmine (by decide) (by decide)
  have hrelease : Follows T lax ((.userPoolLock_, .write) :: mine) .settling
      (.release .userPoolLock_ k) := follows_release (by decide) hk
  refine follows_acquire (asks_ranked hranked ?_) ?_
  · exact fun x hx => Nat.lt_succ_of_le (hmine x hx)
  apply obeys_look_same
  intro s
  split
  · exact hrelease
  split
  · exact queues_follow (fun e => requeued_settle e message status) (by decide) hk
  · apply follows_aside (aside_withPool _ _)
    · intro s
      exact guarded_by .userPoolLock_ (by simp) (by decide : Mode.write ≠ .read)
        (same_withPool _ _ s)
    · exact markUserPoolProcessed_follows _ _ hranked hmine' (by simp) hrelease

theorem messageStatus_follows (message : MpMsgPayload) (status : mp_status_t)
    (hmine : Outer mine) (hk : Follows T lax ((.msgLock_, .mutex) :: mine) .free k) :
    Follows T lax ((.msgLock_, .mutex) :: mine) .settling (messageStatus message status k) := by
  have hranked : Ranked .settling true := Or.inl ⟨rfl, rfl⟩
  have hbelow : ∀ x ∈ (Lock.msgLock_, Mode.mutex) :: mine, rank true x.1 ≤ 3 := by
    intro x hx
    rcases List.mem_cons.1 hx with rfl | hx
    · exact le_rfl
    · have hne := hmine.ne hx
      have hle := hmine x hx
      rcases x with ⟨lock, mode⟩
      cases lock <;> first | exact absurd rfl hne | exact hle.trans (by decide)
  apply notifyConnectors_follows message status hranked
  · exact fun x hx => (hbelow x hx).trans (by decide)
  apply settle_follows message status
  · exact fun x hx => (hbelow x hx).trans (by decide)
  refine follows_acquire (asks_ranked hranked ?_) ?_
  · exact fun x hx => Nat.lt_succ_of_le (hbelow x hx)
  refine sendMessage_follows hranked ?_ (fun _ => by simp) (by simp)
    (follows_release (by decide) hk)
  exact below_cons hbelow (by decide) (by decide)

theorem onSendMsgDone_follows (status : mp_status_t) (hmine : Outer mine)
    (hk : Follows T lax mine .free k) : Follows T lax mine .taken (onSendMsgDone status k) := by
  have hrelease : Follows T lax ((.msgLock_, .mutex) :: mine) .free (.release .msgLock_ k) :=
    follows_release (by decide) hk
  apply follows_acquire (asks_inner hmine (by decide))
  apply obeys_perform
  intro t s holds phases hsees a s' reaction hf
  obtain ⟨s₁, hsip, hs₁⟩ := Option.map_eq_some_iff.1 hf
  cases hs₁
  have hbusy : (phases t).busy := by rw [hsees.phase]; rfl
  obtain ⟨hrest, hout⟩ := sip_some hsip
  obtain ⟨hlength, hsent⟩ := sip_single hsip (hsees.inv.grounded t hbusy)
  have hguarded : ∀ other, Same other s s' ∨
      ∃ mode, mode ≠ .read ∧ (other, mode) ∈ holds t := by
    rw [hsees.holds]
    apply guarded_by .msgLock_ (by simp) (by decide : Mode.mutex ≠ .read)
    intro other hother
    rw [hrest]
    cases other <;> first | exact absurd rfl hother | simp [Same]
  have hstarted : s'.engine.started_ = s.engine.started_ := by rw [hrest]
  have htransport : s'.transport = (s.transport.onSendMsgDone status).1 := by rw [hrest]
  rcases MpMsgTransport.onSendMsgDone_cases s.transport status with
    ⟨-, hdone⟩ | ⟨-, -, hdone⟩ | ⟨-, hdone⟩
  · -- the message was deleted
    rw [hdone] at htransport
    refine ⟨Or.inr ⟨hguarded, fun _ => Or.inl ?_⟩, .free,
      hsees.inv.finish hbusy hlength ?_ hstarted, ?_⟩
    · rw [htransport]
    · intro x hx
      have hsend := hsent x hx
      rw [hdone] at hsend
      cases hsend
    · rw [hdone]
      exact hrelease
  · -- the message is sent again
    rw [hdone] at htransport
    refine ⟨Or.inr ⟨hguarded, fun _ => Or.inl ?_⟩, .free,
      hsees.inv.finish hbusy hlength ?_ hstarted, ?_⟩
    · rw [htransport]
    · intro x hx
      have hsend := hsent x hx
      rw [hdone] at hsend
      rw [htransport]
      exact (Option.some.inj hsend).symm
    · rw [hdone]
      exact hrelease
  · -- the engine is told
    have hsame : s'.outstanding = s.outstanding := by
      rcases hout with hsame | ⟨x, hsend, -⟩
      · exact hsame
      · rw [hdone] at hsend
        cases hsend
    rw [hdone] at htransport
    refine ⟨Or.inr ⟨hguarded, fun _ => Or.inr ?_⟩, .settling,
      hsees.inv.proceed _ hbusy rfl hsame hstarted ?_, ?_⟩
    · rw [htransport]
    · rw [Live, htransport]
      exact fun h => h rfl
    · rw [hdone]
      exact messageStatus_follows _ status hmine hrelease

theorem on_pager_status_follows (call code : Nat) (hmine : Outer mine)
    (hk : Follows T lax mine .free k) : Follows T lax mine .free (on_pager_status call code k) := by
  apply obeys_perform
  intro t s holds phases hsees a s' b hf
  split at hf
  · next hcall =>
    cases hf
    have hsome : s.outstanding ≠ [] := by
      intro hnil
      rw [hnil] at hcall
      cases hcall
    have hnone : s.outstanding.eraseIdx call = [] := by
      have hsingle := hsees.inv.single
      apply List.eq_nil_of_length_eq_zero
      rw [List.length_eraseIdx_of_lt hcall]
      omega
    refine ⟨Or.inr ⟨?_, fun _ => Or.inl rfl⟩, .taken, hsees.inv.take hsome hnone rfl,
      onSendMsgDone_follows _ hmine hk⟩
    intro other
    refine Or.inl ?_
    cases other <;> simp [Same]
  · cases hf

/-! ## The other objects -/

omit [DecidableEq T] in
/-- A lock of the callers, taken first. -/
theorem asks_first {lock : Lock} {mode : Mode} (hmine : Rest lax mine) (hlock : lock ≠ .msgLock_)
    (h : 0 < rank false lock) :
    ∀ (phases : T → Phase) t s holds, OneFlight s holds phases → phases t = phase →
      Asks lax phases mine lock mode := by
  refine asks_outer hmine.outer hlock fun x hx => ?_
  rw [(hmine x hx).2]
  exact h

/-- A lock that is only taken and given back. -/
theorem brief_follows {lock : Lock} {mode : Mode}
    (hasks : ∀ (phases : T → Phase) t s holds, OneFlight s holds phases → phases t = .free →
      Asks lax phases mine lock mode) (hk : Follows T lax mine .free k) :
    Follows T lax mine .free (.acquire lock mode (.release lock k)) :=
  follows_acquire hasks (follows_release (by decide) hk)

/-- An action under the lock of the stack. -/
theorem follows_stack {β : Type} {f : Shared → Answer → Option (Shared × β)} {next : β → Prog}
    (hf : ∀ s a s' b, f s a = some (s', b) → ∃ started, s' = { s with sipStarted_ := started })
    (hheld : (.sipStack, .mutex) ∈ mine) (hnext : ∀ b, Follows T lax mine .free (next b)) :
    Follows T lax mine .free (.perform f next) := by
  apply follows_perform_aside
  · intro s a s' b h
    obtain ⟨started, rfl⟩ := hf s a s' b h
    exact ⟨rfl, rfl, rfl⟩
  · intro s a s' b h
    obtain ⟨started, rfl⟩ := hf s a s' b h
    apply guarded_by .sipStack hheld (by decide : Mode.mutex ≠ .read)
    intro other hother
    cases other <;> first | exact absurd rfl hother | simp [Same]
  · exact hnext

/-- A change of the buddy list under its lock. -/
theorem follows_buddyList {f : MpBuddyList → MpBuddyList}
    (hf : ∀ l, (f l).presenceCb_ = l.presenceCb_) (hheld : (.buddyList, .mutex) ∈ mine)
    (hk : Follows T lax mine .free k) :
    Follows T lax mine .free (.update (.withBuddies f) k) := by
  apply follows_aside
  · exact fun s => ⟨rfl, rfl, rfl⟩
  · intro s
    apply guarded_by .buddyList hheld (by decide : Mode.mutex ≠ .read)
    intro other hother
    cases other <;> first
      | exact absurd rfl hother
      | simp [Same, Shared.withBuddies, hf]
  · exact hk

/-- The buddy list is reset under the lock of the stack. -/
theorem stopSIPStack_follows (hlax : lax = true) (hmine : Outer mine)
    (hk : Follows T lax mine .free k) : Follows T lax mine .free (stopSIPStack k) := by
  apply follows_acquire (asks_inner hmine (by decide))
  apply obeys_look_same
  intro s
  have hrelease : Follows T lax ((.sipStack, .mutex) :: mine) .free (.release .sipStack k) :=
    follows_release (by decide) hk
  split
  · exact hrelease
  apply follows_acquire fun _ _ _ _ _ _ => Or.inr ⟨hlax, Or.inr ⟨rfl, by simp⟩⟩
  refine follows_buddyList (fun _ => rfl) (by simp) (follows_release (by decide) ?_)
  apply follows_stack _ (by simp) fun _ => hrelease
  intro s a s' b h
  cases a with
  | pjsua ans =>
      cases h
      split
      · exact ⟨false, rfl⟩
      · exact ⟨s.sipStarted_, rfl⟩
  | silence | missing | sendMsg => cases h

theorem startSIPStack_follows (networkState : SipStack.Stack.mp_network_state_t)
    (hmine : Outer mine) (hk : Follows T lax mine .free k) :
    Follows T lax mine .free (startSIPStack networkState k) := by
  have hrelease : Follows T lax ((.sipStack, .mutex) :: mine) .free (.release .sipStack k) :=
    follows_release (by decide) hk
  apply follows_acquire (asks_inner hmine (by decide))
  apply obeys_look_same
  intro s
  split
  · exact hrelease
  apply brief_follows fun _ _ _ _ _ _ => Or.inl (Or.inl ⟨rfl, by simp⟩)
  apply follows_stack _ (by simp) fun _ => hrelease
  intro s a s' b h
  cases a with
  | pjsua ans =>
      obtain ⟨p, -, hp⟩ := Option.map_eq_some_iff.1 h
      cases hp
      exact ⟨_, rfl⟩
  | silence | missing | sendMsg => cases h

theorem subscribe_follows (buddy : SipStack.Stack.MpBuddy)
    {k : SipStack.Stack.MpBuddy × mp_status_t → Prog} (hmine : Outer mine)
    (hk : ∀ result, Follows T lax mine .free (k result)) :
    Follows T lax mine .free (subscribe buddy k) := by
  apply follows_acquire (asks_inner hmine (by decide))
  apply follows_stack _ (by simp) fun result => follows_release (by decide) (hk result)
  intro s a s' b h
  cases a with
  | pjsua ans =>
      obtain ⟨p, -, hp⟩ := Option.map_eq_some_iff.1 h
      cases hp
      exact ⟨s.sipStarted_, rfl⟩
  | silence | missing | sendMsg => cases h

theorem unsubscribe_follows (buddy_id : SipStack.Stack.pjsua_buddy_id)
    {k : mp_status_t → Prog} (hmine : Outer mine)
    (hk : ∀ status, Follows T lax mine .free (k status)) :
    Follows T lax mine .free (unsubscribe buddy_id k) := by
  apply follows_acquire (asks_inner hmine (by decide))
  apply follows_stack _ (by simp) fun status => follows_release (by decide) (hk status)
  intro s a s' b h
  cases a with
  | pjsua ans =>
      obtain ⟨p, -, hp⟩ := Option.map_eq_some_iff.1 h
      cases hp
      exact ⟨s.sipStarted_, rfl⟩
  | silence | missing | sendMsg => cases h

theorem addBuddy_follows (buddy : SipStack.Stack.MpBuddy) (hmine : Rest lax mine)
    (hk : Follows T lax mine .free k) : Follows T lax mine .free (addBuddy buddy k) := by
  have hrelease : Follows T lax ((.buddyList, .mutex) :: mine) .free (.release .buddyList k) :=
    follows_release (by decide) hk
  have houter : Outer ((.buddyList, .mutex) :: mine) := hmine.outer.cons (by decide)
  apply follows_acquire (asks_first hmine (by decide) (by decide))
  apply obeys_look_same
  intro s
  split
  · exact hrelease
  split
  · exact hrelease
  apply subscribe_follows buddy houter
  intro result
  split
  · exact follows_buddyList (fun _ => rfl) (by simp) hrelease
  · exact hrelease

theorem rmBuddy_follows (serial : MpString) (hmine : Rest lax mine)
    (hk : Follows T lax mine .free k) : Follows T lax mine .free (rmBuddy serial k) := by
  have hrelease : Follows T lax ((.buddyList, .mutex) :: mine) .free (.release .buddyList k) :=
    follows_release (by decide) hk
  have houter : Outer ((.buddyList, .mutex) :: mine) := hmine.outer.cons (by decide)
  apply follows_acquire (asks_first hmine (by decide) (by decide))
  apply obeys_look_same
  intro s
  split
  · exact hrelease
  · apply unsubscribe_follows _ houter
    intro status
    split
    · exact follows_buddyList (fun _ => rfl) (by simp) hrelease
    · exact hrelease

theorem hear_follows (notices : List Notice) (hmine : Outer mine)
    (hk : Follows T lax mine .free k) : Follows T lax mine .free (notices.foldr hear k) := by
  induction notices with
  | nil => exact hk
  | cons notice notices ih =>
      cases notice with
      | buddy_state cb buddy_id => exact ih
      | buddy_state2 cb buddy =>
          show Follows T lax mine .free (if cb = engineCb then _ else _)
          split
          · exact buddy_state2_follows hmine ih _ _
          · exact ih

theorem buddy_state_follows (buddy_id : SipStack.Stack.pjsua_buddy_id)
    (status : pjsua_buddy_status) (hmine : Rest lax mine) (hk : Follows T lax mine .free k) :
    Follows T lax mine .free (buddy_state buddy_id status k) := by
  have hlist : Outer ((.buddyList, .mutex) :: mine) := hmine.outer.cons (by decide)
  have houter : Outer ((.presenceCb_, .read) :: (.buddyList, .mutex) :: mine) :=
    hlist.cons (by decide)
  apply follows_acquire (asks_first hmine (by decide) (by decide))
  refine follows_acquire (asks_outer hlist (by decide) ?_) ?_
  · intro x hx
    rcases List.mem_cons.1 hx with rfl | hx
    · decide
    · rw [(hmine x hx).2]
      decide
  have hcallbacks : ∀ l : MpBuddyList,
      (Buddy.Presence.buddy_state l buddy_id status).1.presenceCb_ = l.presenceCb_ := by
    intro l
    unfold Buddy.Presence.buddy_state
    split <;> rfl
  apply follows_perform_aside
  · intro s a s' notices h
    cases h
    exact ⟨rfl, rfl, rfl⟩
  · intro s a s' notices h
    cases h
    apply guarded_by .buddyList (by simp) (by decide : Mode.mutex ≠ .read)
    intro other hother
    cases other <;> first | exact absurd rfl hother | simp [Same, hcallbacks]
  · intro notices
    apply hear_follows notices houter
    exact follows_release (by decide) (follows_release (by decide) hk)

/-- A change of the presence callbacks. -/
theorem presenceCb_follows {f : MpBuddyList → MpBuddyList}
    (hf : ∀ l, (f l).buddyList_ = l.buddyList_) (hmine : Rest lax mine)
    (hk : Follows T lax mine .free k) :
    Follows T lax mine .free (.acquire .presenceCb_ .write
      (.update (.withBuddies f) (.release .presenceCb_ k))) := by
  apply follows_acquire (asks_first hmine (by decide) (by decide))
  apply follows_aside
  · exact fun s => ⟨rfl, rfl, rfl⟩
  · intro s
    apply guarded_by .presenceCb_ (by simp) (by decide : Mode.write ≠ .read)
    intro other hother
    cases other <;> first
      | exact absurd rfl hother
      | simp [Same, Shared.withBuddies, hf]
  · exact follows_release (by decide) hk

theorem onMsgReceived_follows (replies : List MpMsgPayload) (hmine : Rest lax mine)
    (hk : Follows T lax mine .free k) : Follows T lax mine .free (onMsgReceived replies k) := by
  have houter : Outer ((.msgCb_, .read) :: mine) := hmine.outer.cons (by decide)
  apply follows_acquire (asks_first hmine (by decide) (by decide))
  induction replies with
  | nil => exact follows_release (by decide) hk
  | cons m replies ih => exact addMessage_follows houter ih m

theorem modifyPool_follows (pool : CbPool) (hmine : Rest lax mine)
    (hk : Follows T lax mine .free k) : Follows T lax mine .free (modifyPool pool k) := by
  cases pool <;> exact brief_follows (asks_first hmine (by decide) (by decide)) hk

theorem usePool_follows (pool : CbPool) (hmine : Rest lax mine)
    (hk : Follows T lax mine .free k) : Follows T lax mine .free (usePool pool k) := by
  cases pool <;> exact brief_follows (asks_first hmine (by decide) (by decide)) hk

theorem onCall_follows (rejects : Bool) (answers : Nat) (hmine : Rest lax mine)
    (hk : Follows T lax mine .free k) : Follows T lax mine .free (onCall rejects answers k) := by
  have houter : Outer ((.callCb_, .read) :: mine) := hmine.outer.cons (by decide)
  cases rejects with
  | true => exact brief_follows (asks_inner hmine.outer (by decide)) hk
  | false =>
      apply follows_acquire (asks_first hmine (by decide) (by decide))
      induction answers with
      | zero => exact follows_release (by decide) hk
      | succ n ih =>
          rw [Function.iterate_succ_apply']
          exact brief_follows (asks_inner houter (by decide)) ih

/-- Nothing gives the lock of the account back. -/
theorem rmRegCallback_follows (null : Bool) (hlax : lax = true) (hmine : Rest lax mine)
    (hk : ∀ mine, Rest lax mine → Follows T lax mine .free k) :
    Follows T lax mine .free (rmRegCallback null k) := by
  have hrest : Rest lax ((.userAccount, .mutex) :: mine) := by
    intro x hx
    rcases List.mem_cons.1 hx with rfl | hx
    · exact ⟨hlax, rfl⟩
    · exact hmine x hx
  have hasks : ∀ (phases : T → Phase) t s holds, OneFlight s holds phases →
      phases t = .free → Asks lax phases mine .userAccount .mutex := by
    intro phases t s holds _ _
    cases mine with
    | nil => exact Or.inl (Or.inr (by simp))
    | cons x rest => exact Or.inl (Or.inl ⟨rfl, by simp [(hmine x (by simp)).2]⟩)
  apply follows_acquire hasks
  split
  · exact hk _ hrest
  · exact modifyPool_follows _ hrest (hk _ hrest)

/-! ## Programs -/

theorem call_follows (call : Call) (hcall : lax = true ∨ call.orderly = true)
    (hmine : Rest lax mine) (hk : ∀ mine, Rest lax mine → Follows T lax mine .free k) :
    Follows T lax mine .free (call.code k) := by
  have houter := hmine.outer
  have hmineK := hk mine hmine
  cases call with
  | addMessage m => exact addMessage_follows houter hmineK m
  | syncWithDBConnectors contents =>
      exact syncWithDBConnectors_follows houter hmineK contents
        (hcall.resolve_right (by simp [Call.orderly]))
  | addDBConnector dbConn => exact addDBConnector_follows houter hmineK dbConn
  | isMessageProcessing serial uid => exact isMessageProcessing_follows houter hmineK serial uid
  | removeMessagesForSerial serial => exact removeMessagesForSerial_follows houter hmineK serial
  | setAutoResendEnabled mode => exact setAutoResendEnabled_follows houter hmineK mode
  | resendMessage serial msgId => exact resendMessage_follows houter hmineK serial msgId
  | buddy_state2 serial state => exact buddy_state2_follows houter hmineK serial state
  | on_pager_status call code => exact on_pager_status_follows call code houter hmineK
  | onMsgReceived replies => exact onMsgReceived_follows replies hmine hmineK
  | addBuddy buddy => exact addBuddy_follows buddy hmine hmineK
  | rmBuddy serial => exact rmBuddy_follows serial hmine hmineK
  | buddy_state buddy_id status => exact buddy_state_follows buddy_id status hmine hmineK
  | readBuddyList => exact brief_follows (asks_first hmine (by decide) (by decide)) hmineK
  | addPresenceCb cb => exact presenceCb_follows (fun _ => rfl) hmine hmineK
  | rmPresenceCb cb => exact presenceCb_follows (fun _ => rfl) hmine hmineK
  | login networkState => exact startSIPStack_follows networkState houter hmineK
  | logout =>
      exact stopSIPStack_follows (hcall.resolve_right (by simp [Call.orderly])) houter
        (usePool_follows .regCb_ hmine hmineK)
  | callPjsua => exact brief_follows (asks_inner houter (by decide)) hmineK
  | callBuddy =>
      exact brief_follows (asks_first hmine (by decide) (by decide))
        (brief_follows (asks_inner houter (by decide)) hmineK)
  | onCall rejects answers => exact onCall_follows rejects answers hmine hmineK
  | modifyPool pool => exact modifyPool_follows pool hmine hmineK
  | registration_state => exact usePool_follows .regCb_ hmine hmineK
  | rmRegCallback null =>
      exact rmRegCallback_follows null (hcall.resolve_right (by simp [Call.orderly])) hmine hk

/-- **Every program follows the discipline.** -/
theorem program_follows (calls : List Call) (hcalls : lax = true ∨ ∀ call ∈ calls, call.orderly) :
    ∀ mine, Rest lax mine → Follows T lax mine .free (program calls) := by
  induction calls with
  | nil => exact fun _ hmine => ⟨hmine, rfl⟩
  | cons call calls ih =>
      have hfirst : lax = true ∨ call.orderly = true := hcalls.imp_right fun h => h call (by simp)
      have hrest := ih (hcalls.imp_right fun h c hc => h c (by simp [hc]))
      exact fun _ hmine => call_follows call hfirst hmine hrest

end EndToEndSmkex.Threads.Following
