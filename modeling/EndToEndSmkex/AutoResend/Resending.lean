import EndToEndSmkex.AutoResend.ManualMode
import EndToEndSmkex.AutoResend.Presence

/-!
# A message is asked for again

`resendMessage` marks the message, makes its pool clean and the lightest, adds
one to the weight of every other pool, and starts a waiting engine.  A clean pool
weighs at least 1 after that.  A dirty one can fall to 0, but it is not served,
and the search, which marks it once more, finds its messages processed already.

## Main results

* `ordinary_of_exec` — while no clean pool reaches `INT_MAX`, everything in a
  dirty pool is processed.
* `resendMessage_prioritises` — what a call returns, hands over and leaves alone.
-/

namespace EndToEndSmkex.AutoResend.Resending

open EndToEndSmkex.Lib.Run
open EndToEndSmkex.Smkex.Record
open EndToEndSmkex.AutoResend.MsgPayload
open EndToEndSmkex.AutoResend.MsgPayload.mp_msg_type_t
open EndToEndSmkex.AutoResend.Pool
open EndToEndSmkex.AutoResend.Engine
open EndToEndSmkex.AutoResend.Engine.mp_status_t
open EndToEndSmkex.AutoResend.Changes
open EndToEndSmkex.AutoResend.Search
open EndToEndSmkex.AutoResend.Queues
open EndToEndSmkex.AutoResend.Representation
open EndToEndSmkex.AutoResend.Selection
open EndToEndSmkex.AutoResend.Fairness
open EndToEndSmkex.AutoResend.ManualMode
open EndToEndSmkex.AutoResend.Presence

/-! ## Tidy pools -/

/-- The weight has been set as an `int`, and a dirty pool is processed. -/
structure Tidy (pool : MpMsgPool) : Prop where
  le_max : pool.weight_ ≤ INT_MAX
  processed : pool.dirty_ = true → ∀ m ∈ pool.messages_, m.processed_ = true

section Pools

variable {pool pool' : MpMsgPool} (dbConnectors : List mp_msg_type_t)

theorem setWeight_le_max (pool : MpMsgPool) (weight : Int) :
    (pool.setWeight weight).weight_ ≤ INT_MAX := by
  have hlt : weight.bmod (2 ^ 32) < (2 ^ 32 + 1) / 2 := Int.bmod_lt (by decide)
  simp only [MpMsgPool.setWeight]
  unfold INT_MAX
  by_cases hneg : weight.bmod (2 ^ 32) < 0
  · rw [if_pos hneg]
    decide
  · rw [if_neg hneg]
    omega

/-- A clean pool is tidy once its weight has been set. -/
theorem tidy_setWeight {weight : Int} (h : pool.dirty_ = false) :
    Tidy (pool.setWeight weight) where
  le_max := setWeight_le_max pool weight
  processed hdirty := by
    rw [MpMsgPool.dirty_setWeight, h] at hdirty
    cases hdirty

theorem tidy_markUserPoolAsClean (autoResendEnabled : Bool) (pool : MpMsgPool) :
    Tidy (markUserPoolAsClean autoResendEnabled pool) := by
  refine ⟨?_, fun hdirty => ?_⟩
  · rw [weight_markUserPoolAsClean]
    decide
  · rw [dirty_markUserPoolAsClean] at hdirty
    cases hdirty

theorem le_max_markUserPoolProcessed (h : pool.weight_ ≤ INT_MAX) :
    (markUserPoolProcessed dbConnectors pool).1.weight_ ≤ INT_MAX := by
  rcases markUserPoolProcessed_cases dbConnectors pool with ⟨hsame, -⟩ | ⟨-, -, hmarked⟩
  · rw [hsame]
    exact h
  · rw [hmarked]
    exact setWeight_le_max _ INT_MAX

/-- What is processed already is not changed by marking. -/
theorem Tidy.marked (h : Tidy pool) :
    (Search.marked dbConnectors pool).messages_ = pool.messages_ := by
  by_cases hdirty : pool.dirty_ = true
  · rw [marked_dirty dbConnectors hdirty]
    rcases markUserPoolProcessed_cases dbConnectors pool with ⟨hsame, -⟩ | ⟨-, -, hmarked⟩
    · rw [hsame]
    · rw [hmarked, MpMsgPool.messages_setWeight]
      have hprocessed : ∀ m ∈ pool.messages_, m.markAsProcessed = id m := by
        intro m hm
        have hflag := h.processed hdirty m hm
        cases m
        cases hflag
        rfl
      rw [List.map_congr_left hprocessed, List.map_id]
  · rw [marked_clean dbConnectors (Bool.eq_false_iff.2 hdirty)]

end Pools

/-! ## Reachable engines -/

/-- The operation removes no messages of a user. -/
def KeepsPools : Op → Prop
  | .removeMessagesForSerial _ => False
  | _ => True

instance (op : Op) : Decidable (KeepsPools op) :=
  match op with
  | .addMessage _ => isTrue trivial
  | .syncWithDBConnectors _ => isTrue trivial
  | .messageStatus _ _ => isTrue trivial
  | .buddy_state2 _ _ => isTrue trivial
  | .resendMessage _ _ => isTrue trivial
  | .setAutoResendEnabled _ => isTrue trivial
  | .removeMessagesForSerial _ => isFalse id

/-- The condition on a step: nothing is removed, and no clean pool's weight
reaches `INT_MAX`. -/
def Regular (c : Call) (e' : MpAutoResendEngine) : Prop := KeepsPools c.op ∧ BelowLimit e'

instance (c : Call) (e' : MpAutoResendEngine) : Decidable (Regular c e') :=
  inferInstanceAs (Decidable (_ ∧ _))

/-- No message of a user the engine serves is out of retries. -/
def RetriesLeft (e : MpAutoResendEngine) : Prop :=
  ∀ serial ∈ e.priority_, ∀ m ∈ pooled e serial, 0 < m.numberOfRetries_

instance (e : MpAutoResendEngine) : Decidable (RetriesLeft e) :=
  inferInstanceAs (Decidable (∀ serial ∈ e.priority_, ∀ m ∈ pooled e serial,
    0 < m.numberOfRetries_))

/-- The invariant of the runs considered here. -/
structure Ordinary (e : MpAutoResendEngine) : Prop where
  represents : Represents e
  kept : Kept e
  limit : BelowLimit e
  tidy : ∀ serial pool, e.userPool_ serial = some pool → Tidy pool

section Step

variable {e e' : MpAutoResendEngine} {op : Op} {serial : MpString} {pool : MpMsgPool}

/-- A clean pool weighs less than the maximum. -/
theorem Ordinary.clean_lt (h : Ordinary e) (hpool : e.userPool_ serial = some pool)
    (hclean : pool.dirty_ = false) : pool.weight_ ≠ INT_MAX := by
  have hserved : serial ∈ e.priority_ := (h.represents.keys serial).2 (by rw [hpool]; rfl)
  exact h.limit serial hserved pool hpool hclean

/-- The pools after an operation. -/
theorem Ordinary.becomes (h : Ordinary e) (hpool : Becomes e op serial pool) : Tidy pool := by
  cases hpool with
  | kept before => exact h.tidy serial pool before
  | opened => exact tidy_markUserPoolAsClean _ _
  | extended => exact tidy_markUserPoolAsClean _ _
  | activated => exact tidy_markUserPoolAsClean _ _
  | @sent pool m before status receiver left =>
      refine ⟨setWeight_le_max _ _, ?_⟩
      intro hdirty x hx
      have hwas : pool.dirty_ = true := by simpa using hdirty
      obtain ⟨y, hy, rfl | rfl⟩ :=
        MpMsgPool.mem_markMsgAsProcessed (List.mem_of_mem_eraseP hx)
      · exact (h.tidy serial pool before).processed hwas x hy
      · rfl
  | @failed pool m code before status receiver failure =>
      refine ⟨?_, fun _ => ?_⟩
      · apply le_max_markUserPoolProcessed
        show (pool.markMsgAsProcessed m.uid_).weight_ ≤ INT_MAX
        rw [MpMsgPool.weight_markMsgAsProcessed]
        exact (h.tidy serial pool before).le_max
      · exact processed_failed e.dbConnectors_ m.uid_ (h.clean_lt before)
          (h.tidy serial pool before).processed
  | resent => exact tidy_setWeight rfl
  | @raised pool first other msgId before =>
      exact ⟨setWeight_le_max _ _, (h.tidy serial pool before).processed⟩

theorem Ordinary.call {c : Call} (h : Ordinary e) (hcall : Representation.call e c = some e')
    (hregular : Regular c e') : Ordinary e' := by
  have hkeeps : ¬ DropsPool e c.op := by
    have hop := hregular.1
    cases hc : c.op with
    | removeMessagesForSerial serial =>
        rw [hc] at hop
        exact absurd hop id
    | _ => exact id
  have hrepresents := ((represents_step h.represents hcall).2 hkeeps).1
  obtain ⟨out, hout, rfl⟩ := Option.map_eq_some_iff.1 hcall
  refine ⟨hrepresents, h.kept.operate hout, hregular.2, ?_⟩
  apply (operate_operates hout).forall_pools (P := fun _ pool => Tidy pool)
  · intro _ _ hpool
    exact h.becomes hpool
  · intro _ pool hdirty htidy
    refine ⟨le_max_markUserPoolProcessed _ htidy.le_max, fun _ x hx => ?_⟩
    obtain ⟨y, hy, rfl | rfl⟩ := messages_markUserPoolProcessed _ pool x hx
    · exact htidy.processed hdirty x hy
    · rfl

theorem ordinary_new (dbConnectors : List mp_msg_type_t) :
    Ordinary (MpAutoResendEngine.new dbConnectors) where
  represents := represents_new dbConnectors
  kept := Kept.new dbConnectors false
  limit serial hserial := by cases hserial
  tidy serial pool hpool := by cases hpool

/-- Every engine that such a run reaches. -/
theorem ordinary_of_exec {dbConnectors : List mp_msg_type_t} {calls : List Call}
    (h : exec Representation.call (MpAutoResendEngine.new dbConnectors) calls = some e)
    (hregular : Steps Representation.call (fun _ c e' => Regular c e')
      (MpAutoResendEngine.new dbConnectors) calls) : Ordinary e :=
  Steps.exec (I := Ordinary) (fun _ _ _ hinv hcall hc => hinv.call hcall hc)
    (ordinary_new dbConnectors) hregular h

end Step

/-! ## What a request makes of the pools -/

section Request

variable {e : MpAutoResendEngine} {s t : MpString} {pool : MpMsgPool} {msgId : Int}

/-- The engine when the message has been found and its user put first. -/
def requested (e : MpAutoResendEngine) (s : MpString) (pool : MpMsgPool) (msgId : Int) :
    MpAutoResendEngine :=
  prioritize (e.setPool s (some (pool.markMsgAsUnprocessed msgId).markAsClean)) s

theorem requested_self (e : MpAutoResendEngine) (s : MpString) (pool : MpMsgPool)
    (msgId : Int) :
    (requested e s pool msgId).userPool_ s =
      some ((pool.markMsgAsUnprocessed msgId).markAsClean.setWeight 0) := by
  simp [requested, prioritize]

theorem requested_other (h : t ≠ s) :
    (requested e s pool msgId).userPool_ t =
      (e.userPool_ t).map fun p => p.setWeight (p.weight_ + 1) := by
  simp [requested, prioritize, h]

theorem found_iff_mem (pool : MpMsgPool) (msgId : Int) :
    (pool.getIndexForUID msgId).isSome = true ↔ ∃ m ∈ pool.messages_, m.uid_ = msgId := by
  simp [MpMsgPool.getIndexForUID, List.findIdx?_isSome]

/-- The message that is found can be delivered without auto-resend too. -/
theorem deliverable_requested (h : (pool.getIndexForUID msgId).isSome = true) :
    ∃ x ∈ (pool.markMsgAsUnprocessed msgId).messages_, deliverable x = true := by
  obtain ⟨i, hi⟩ := Option.isSome_iff_exists.1 h
  obtain ⟨hlt, -⟩ := List.findIdx?_eq_some_iff_getElem.1 hi
  refine ⟨pool.messages_[i].markAsUnProcessed, ?_, ?_⟩
  · simp only [MpMsgPool.markMsgAsUnprocessed, hi]
    apply List.mem_iff_getElem?.2
    exact ⟨i, by simp [List.getElem?_eq_getElem hlt]⟩
  · simp [deliverable, MpMsgPayload.markAsUnProcessed]

/-- A pool in which something can be delivered offers one of its messages. -/
theorem getMessage_mem_of_deliverable (pool : MpMsgPool) (autoResendEnabled : Bool)
    (h : ∃ x ∈ pool.messages_, deliverable x = true) :
    pool.getMessage autoResendEnabled ∈ pool.messages_ := by
  obtain ⟨x, hx, hdeliverable⟩ := h
  cases autoResendEnabled with
  | true =>
      obtain ⟨m, rest, hm⟩ := List.exists_cons_of_ne_nil (List.ne_nil_of_mem hx)
      simp [MpMsgPool.getMessage, hm]
  | false =>
      have hsome : (pool.messages_.find? deliverable).isSome = true :=
        List.find?_isSome.2 ⟨x, hx, hdeliverable⟩
      obtain ⟨m, hm⟩ := Option.isSome_iff_exists.1 hsome
      simp only [MpMsgPool.getMessage, Bool.false_eq_true, if_false, hm, Option.getD_some]
      exact List.mem_of_find?_eq_some hm

/-- The user who asks can be served. -/
theorem eligible_requested (h : (pool.getIndexForUID msgId).isSome = true)
    (hretries : ∀ m ∈ pool.messages_, 0 < m.numberOfRetries_) :
    Eligible (requested e s pool msgId) s := by
  obtain ⟨x, hx, hdeliverable⟩ := deliverable_requested h
  have hmem := getMessage_mem_of_deliverable
    ((pool.markMsgAsUnprocessed msgId).markAsClean.setWeight 0)
    (requested e s pool msgId).autoResendEnabled_ ⟨x, hx, hdeliverable⟩
  refine ⟨_, requested_self e s pool msgId, List.ne_nil_of_mem hx, rfl, ?_⟩
  rcases MpMsgPool.mem_markMsgAsUnprocessed hmem with hold | ⟨y, hy, hsame⟩
  · exact hretries _ hold
  · rw [hsame]
    exact hretries y (List.mem_of_find?_eq_some hy)

/-- Everybody else who can be served weighs something. -/
theorem Ordinary.leads (h : Ordinary e) : Leads (requested e s pool msgId) s := by
  rintro t ht hzero ⟨p, hp, -, hclean, -⟩
  have hne : t ≠ s := by simpa using List.mem_takeWhile_imp ht
  rw [weightOf_of_pool hp] at hzero
  rw [requested_other hne] at hp
  obtain ⟨q, hq, rfl⟩ := Option.map_eq_some_iff.1 hp
  have hnonneg := h.kept.nonneg t q hq
  have hmax := (h.tidy t q hq).le_max
  have hlt := h.clean_lt hq hclean
  rw [MpMsgPool.weight_setWeight q (by omega) (by omega)] at hzero
  omega

/-- The messages of a user with their flags, and whether the pool is dirty. -/
def holding (e : MpAutoResendEngine) (t : MpString) : Option (List MpMsgPayload × Bool) :=
  (e.userPool_ t).map fun pool => (pool.messages_, pool.dirty_)

/-- The search leaves the others what they hold. -/
theorem Ordinary.holding (h : Ordinary e) (hne : t ≠ s) {started : Bool}
    {priority : List MpString} :
    Resending.holding (scan (driven (requested e s pool msgId) started priority) priority).engine
      t = Resending.holding e t := by
  have hpools :=
    (scan_scanned priority (driven (requested e s pool msgId) started priority)).pools t
  have hbefore : (driven (requested e s pool msgId) started priority).userPool_ t =
      (e.userPool_ t).map fun p => p.setWeight (p.weight_ + 1) := requested_other hne
  unfold Resending.holding
  rw [hbefore] at hpools
  cases hpool : e.userPool_ t with
  | none =>
      rw [hpool] at hpools
      rcases hpools with hsame | hmarked
      · rw [hsame]
        rfl
      · rw [hmarked]
        rfl
  | some q =>
      rw [hpool] at hpools
      rcases hpools with hsame | hmarked
      · rw [hsame]
        rfl
      · have htidy : Tidy (q.setWeight (q.weight_ + 1)) :=
          ⟨setWeight_le_max _ _, (h.tidy t q hpool).processed⟩
        rw [hmarked, Option.map_some, Option.map_some, Option.map_some, htidy.marked,
          dirty_marked]
        rfl

/-! ## What a request does -/

/-- What `resendMessage` is to do: it finds the message or does nothing, and the
user of a message that is found is served next. -/
structure Prioritises (e : MpAutoResendEngine) (s : MpString) (msgId : Int) (found : Bool)
    (out : Outcome) : Prop where
  found_iff : found = true ↔ ∃ m ∈ pooled e s, m.uid_ = msgId
  nothing : found = false → out = { engine := e, handed := none, reports := [] }
  next : found = true → ∃ m, out.handed = some m ∧ m.userSerial_ = s
  others : found = true → ∀ t, t ≠ s → holding out.engine t = holding e t

/-- A message that is not found. -/
theorem prioritises_nothing (hnone : ¬ ∃ m ∈ pooled e s, m.uid_ = msgId) :
    Prioritises e s msgId false { engine := e, handed := none, reports := [] } where
  found_iff := iff_of_false Bool.false_ne_true hnone
  nothing _ := rfl
  next h := by cases h
  others h := by cases h

/-- A message that is found. -/
theorem Ordinary.prioritises (h : Ordinary e) (hwaiting : e.started_ = false)
    (hretries : RetriesLeft e)
    (hpool : e.userPool_ s = some pool) (hfound : (pool.getIndexForUID msgId).isSome = true) :
    ∃ out, startEngine (requested e s pool msgId) (noneMissing true) = some out ∧
      Prioritises e s msgId true out := by
  have hchanged : changed e (.resendMessage s msgId) = requested e s pool msgId := by
    obtain ⟨i, hi⟩ := Option.isSome_iff_exists.1 hfound
    simp only [changed, hpool, hi, requested]
  have hkept : Kept (requested e s pool msgId) := hchanged ▸ h.kept.changed _
  have hrepresents : Represents (requested e s pool msgId) :=
    hchanged ▸ h.represents.congr (sameQueues_changed trivial)
  have hwaiting' : (requested e s pool msgId).started_ = false := hwaiting
  obtain ⟨out, hout⟩ := startEngine_total hrepresents true
  obtain ⟨priority, hsort, rfl⟩ := startEngine_sends rfl hwaiting' hout
  have hpos : ∀ m ∈ pool.messages_, 0 < m.numberOfRetries_ := by
    intro m hm
    have hserved : s ∈ e.priority_ := (h.represents.keys s).2 (by rw [hpool]; rfl)
    exact hretries s hserved m (by rw [pooled_of_pool hpool]; exact hm)
  have heligible : Eligible (requested e s pool msgId) s := eligible_requested hfound hpos
  have hzero : weightOf (requested e s pool msgId) s = 0 :=
    weightOf_of_pool (requested_self e s pool msgId)
  have hnext := (leads_iff hkept heligible hzero hsort).2 h.leads
  have hmem : ∃ m ∈ pooled e s, m.uid_ = msgId := by
    rw [pooled_of_pool hpool]
    exact (found_iff_mem pool msgId).1 hfound
  refine ⟨_, hout, ?_⟩
  exact {
    found_iff := iff_of_true rfl hmem
    nothing := fun hno => by cases hno
    next := fun _ => hnext
    others := fun _ t hne => h.holding hne }

theorem Ordinary.resendMessage (h : Ordinary e) (hwaiting : e.started_ = false)
    (hretries : RetriesLeft e) (s : MpString) (msgId : Int) :
    ∃ found out, Engine.resendMessage e s msgId (noneMissing true) = some (found, out) ∧
      Prioritises e s msgId found out := by
  cases hpool : e.userPool_ s with
  | none =>
      refine ⟨false, { engine := e, handed := none, reports := [] }, ?_, ?_⟩
      · simp [Engine.resendMessage, hpool, noneMissing, MpAutoResendEngine.idle]
      apply prioritises_nothing
      simp [pooled, hpool]
  | some pool =>
      cases hindex : pool.getIndexForUID msgId with
      | none =>
          refine ⟨false, { engine := e, handed := none, reports := [] }, ?_, ?_⟩
          · simp [Engine.resendMessage, hpool, hindex, noneMissing, MpAutoResendEngine.idle]
          apply prioritises_nothing
          rw [pooled_of_pool hpool, ← found_iff_mem, hindex]
          exact Bool.false_ne_true
      | some i =>
          have hfound : (pool.getIndexForUID msgId).isSome = true := by
            rw [hindex]
            rfl
          obtain ⟨out, hout, hprioritises⟩ := h.prioritises hwaiting hretries hpool hfound
          refine ⟨true, out, ?_, hprioritises⟩
          simp only [Engine.resendMessage, hpool, hindex]
          exact Option.map_eq_some_iff.2 ⟨out, hout, rfl⟩

end Request

/-- **`resendMessage` prioritises or does nothing.**  For every run without
removals in which no clean pool's weight reaches `INT_MAX`, and every user and
UID: while the engine waits, the stack runs and no message is out of retries,
the call ends. -/
theorem resendMessage_prioritises (dbConnectors : List mp_msg_type_t) (calls : List Call)
    {e : MpAutoResendEngine}
    (hrun : exec call (MpAutoResendEngine.new dbConnectors) calls = some e)
    (hregular : Steps call (fun _ c e' => Regular c e')
      (MpAutoResendEngine.new dbConnectors) calls)
    (hwaiting : e.started_ = false)
    (hretries : RetriesLeft e) (s : MpString) (msgId : Int) :
    ∃ found out, Engine.resendMessage e s msgId (noneMissing true) = some (found, out) ∧
      Prioritises e s msgId found out :=
  (ordinary_of_exec hrun hregular).resendMessage hwaiting hretries s msgId

/-- The message for `a` is not sent, and one for `b` is added while the stack is
stopped. -/
def sampleUnreachable : List Call :=
  [⟨.addMessage (sampleMessage [97]), ⟨true, []⟩⟩,
    ⟨.messageStatus (sampleMessage [97]) MP_MESSAGE_NOT_SENT, ⟨true, []⟩⟩,
    ⟨.addMessage (sampleMessage [98]), ⟨false, []⟩⟩]

/-- `b` is asked for, and the dirty pool of `a` falls from the limit to 0. -/
theorem resendMessage_prioritises_limit :
    ∃ e, exec call (MpAutoResendEngine.new []) sampleUnreachable = some e ∧
      ∃ found out, Engine.resendMessage e [98] 1 (noneMissing true) = some (found, out) ∧
        Prioritises e [98] 1 found out :=
  ⟨_, rfl,
    resendMessage_prioritises [] sampleUnreachable rfl (by decide) rfl (by decide) [98] 1⟩

end EndToEndSmkex.AutoResend.Resending
