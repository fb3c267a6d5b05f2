import EndToEndSmkex.AutoResend.Fifo
import EndToEndSmkex.Lib.FairShare

/-!
# Fair scheduling

A confirmed message makes its user's pool one heavier, and the engine serves the
lightest user it can send to.  So while messages are only confirmed, users who
can always be served get their turns evenly.

A removed user stays in the vector, and a comparison that looks them up reads
the weight where the map's end iterator points.  That is one place in memory,
and sorting does not write to it, so in one sort all users without a pool weigh
the same, and the others stand by weight among them.

## Main results

* `exists_readFrom` — the sort ends, whatever the place behind the map holds.
* `shares_differ_le` — how far apart the numbers of confirmed messages of two
  users can be.
-/

namespace EndToEndSmkex.AutoResend.Fairness

open EndToEndSmkex.Lib.Run
open EndToEndSmkex.Lib.FairShare
open EndToEndSmkex.Lib.BubbleSort
open EndToEndSmkex.Smkex.Record
open EndToEndSmkex.AutoResend.MsgPayload
open EndToEndSmkex.AutoResend.Pool
open EndToEndSmkex.AutoResend.Engine
open EndToEndSmkex.AutoResend.Engine.mp_status_t
open EndToEndSmkex.AutoResend.Changes
open EndToEndSmkex.AutoResend.Search
open EndToEndSmkex.AutoResend.Queues
open EndToEndSmkex.AutoResend.Representation
open EndToEndSmkex.AutoResend.Selection
open EndToEndSmkex.AutoResend.Fifo

/-- The message in flight, which has not been confirmed yet, is confirmed. -/
def ConfirmsInFlight (h : History) (c : Call) : Prop :=
  match c.op with
  | .messageStatus m status => status = MP_MESSAGE_SENT ∧ Reports h m ∧ h.pending = true
  | _ => False

instance (h : History) (c : Call) : Decidable (ConfirmsInFlight h c) :=
  match c with
  | ⟨.messageStatus m status, _⟩ =>
    inferInstanceAs (Decidable (status = MP_MESSAGE_SENT ∧ Reports h m ∧ h.pending = true))
  | ⟨.addMessage _, _⟩ => isFalse id
  | ⟨.syncWithDBConnectors _, _⟩ => isFalse id
  | ⟨.buddy_state2 _ _, _⟩ => isFalse id
  | ⟨.resendMessage _ _, _⟩ => isFalse id
  | ⟨.setAutoResendEnabled _, _⟩ => isFalse id
  | ⟨.removeMessagesForSerial _, _⟩ => isFalse id

/-- The pool of this user is clean, holds messages that may all be sent, and has
not reached the maximal weight. -/
def Steady (e : MpAutoResendEngine) (serial : MpString) : Prop :=
  ∃ pool ∈ e.userPool_ serial, pool.dirty_ = false ∧ pool.messages_ ≠ [] ∧
    (∀ m ∈ pool.messages_, 0 < m.numberOfRetries_) ∧ pool.weight_ < INT_MAX

instance (e : MpAutoResendEngine) (serial : MpString) : Decidable (Steady e serial) :=
  inferInstanceAs (Decidable (∃ pool ∈ e.userPool_ serial, pool.dirty_ = false ∧
    pool.messages_ ≠ [] ∧ (∀ m ∈ pool.messages_, 0 < m.numberOfRetries_) ∧
      pool.weight_ < INT_MAX))

/-- The weight of a user's pool. -/
def weightOf (e : MpAutoResendEngine) (serial : MpString) : Int :=
  ((e.userPool_ serial).map MpMsgPool.weight_).getD 0

/-- The weight that a comparison reads for a user, when behind the map there is
`w`. -/
def weightRead (w : Int) (e : MpAutoResendEngine) (serial : MpString) : Int :=
  ((e.userPool_ serial).map MpMsgPool.weight_).getD w

/-- `weightSortCmp`, when behind the map there is `w`. -/
def heavierRead (w : Int) (e : MpAutoResendEngine) (p1 p2 : MpString) : Bool :=
  decide (weightRead w e p2 < weightRead w e p1)

/-- The sort does with these answers what it does when behind the map there is
`w`. -/
def ReadFrom (w : Int) (e : MpAutoResendEngine) (missing : List Bool) : Prop :=
  bubbleSort (weightSortCmp e) e.priority_ missing =
    bubbleSort (filled (heavierRead w e)) e.priority_ []

instance (w : Int) (e : MpAutoResendEngine) (missing : List Bool) :
    Decidable (ReadFrom w e missing) :=
  inferInstanceAs (Decidable (_ = _))

/-- The users whose messages the calls confirm, in order. -/
def served (calls : List Call) : List MpString :=
  (calls.flatMap fun c => confirmedBy c.op).map MpMsgPayload.userSerial_

/-- The number of messages of this user that the calls confirm. -/
def share (serial : MpString) (calls : List Call) : Nat := (served calls).count serial

/-! ## Reachable engines -/

/-- What holds of every engine that can be reached, also after removals: every
user with a pool is served, messages wait in the pools of their users, and no
weight is negative. -/
structure Kept (e : MpAutoResendEngine) : Prop where
  listed : Listed e
  filed : ∀ serial, ∀ m ∈ queue e serial, m.userSerial_ = serial
  nonneg : ∀ serial pool, e.userPool_ serial = some pool → 0 ≤ pool.weight_

section Kept

variable {e e' : MpAutoResendEngine} {op : Op} {a : Answers} {out : Outcome}
  {serial : MpString} {pool : MpMsgPool}

theorem filed_changed (h : ∀ serial, ∀ m ∈ queue e serial, m.userSerial_ = serial) (op : Op)
    (serial : MpString) : ∀ m ∈ queue (changed e op) serial, m.userSerial_ = serial := by
  intro m hm
  rw [queue_changed] at hm
  have hadded : ∀ op, m ∈ queue e serial ++
      (forUser serial (addedBy op)).map MpMsgPayload.markAsUnProcessed →
        m.userSerial_ = serial := by
    intro op hm
    rcases List.mem_append.1 hm with hold | hnew
    · exact h serial m hold
    · obtain ⟨x, hx, rfl⟩ := List.mem_map.1 hnew
      have huser : x.userSerial_ = serial := by simpa using (List.mem_filter.1 hx).2
      exact huser
  cases op with
  | messageStatus m' status =>
      dsimp only at hm
      by_cases hsent : status = MP_MESSAGE_SENT ∧ serial = m'.userSerial_
      · rw [if_pos hsent] at hm
        exact h serial m (List.mem_of_mem_eraseP hm)
      · rw [if_neg hsent] at hm
        exact h serial m hm
  | removeMessagesForSerial user =>
      dsimp only at hm
      by_cases hserial : serial = user
      · rw [if_pos hserial] at hm
        cases hm
      · rw [if_neg hserial] at hm
        exact h serial m hm
  | addMessage m' => exact hadded _ hm
  | syncWithDBConnectors contents => exact hadded _ hm
  | buddy_state2 user state => exact hadded _ hm
  | resendMessage user msgId => exact hadded _ hm
  | setAutoResendEnabled autoResendEnabled => exact hadded _ hm

theorem nonneg_setWeight (pool : MpMsgPool) (weight : Int) :
    0 ≤ (pool.setWeight weight).weight_ := by
  unfold MpMsgPool.setWeight
  dsimp only
  split <;> omega

theorem nonneg_markUserPoolProcessed (dbConnectors : List mp_msg_type_t)
    (h : 0 ≤ pool.weight_) : 0 ≤ (markUserPoolProcessed dbConnectors pool).1.weight_ := by
  rcases markUserPoolProcessed_cases dbConnectors pool with ⟨hsame, -⟩ | ⟨-, -, hmarked⟩
  · rw [hsame]
    exact h
  · rw [hmarked]
    exact nonneg_setWeight _ INT_MAX

theorem nonneg_markUserPoolAsClean (autoResendEnabled : Bool) (pool : MpMsgPool) :
    0 ≤ (markUserPoolAsClean autoResendEnabled pool).weight_ := by
  cases autoResendEnabled <;> exact nonneg_setWeight pool 0

theorem nonneg_becomes (h : ∀ serial pool, e.userPool_ serial = some pool → 0 ≤ pool.weight_)
    (hpool : Becomes e op serial pool) : 0 ≤ pool.weight_ := by
  cases hpool with
  | kept before => exact h serial pool before
  | opened => exact nonneg_markUserPoolAsClean _ _
  | extended => exact nonneg_markUserPoolAsClean _ _
  | activated => exact nonneg_markUserPoolAsClean _ _
  | sent => exact nonneg_setWeight _ _
  | @failed pool m code before =>
      apply nonneg_markUserPoolProcessed
      exact le_of_le_of_eq (h serial pool before)
        (MpMsgPool.weight_markMsgAsProcessed pool m.uid_).symm
  | resent => exact nonneg_setWeight _ _
  | raised => exact nonneg_setWeight _ _

theorem Kept.changed (h : Kept e) (op : Op) : Kept (Changes.changed e op) where
  listed := h.listed.changed op
  filed := filed_changed h.filed op
  nonneg _ _ hpool := nonneg_becomes h.nonneg (becomes_of_changed hpool)

theorem Kept.operate (h : Kept e) (hout : operate e op a = some out) : Kept out.engine := by
  have hoperates := operate_operates hout
  refine ⟨h.listed.operates hoperates, ?_, ?_⟩
  · intro serial m hm
    rw [hoperates.queue] at hm
    exact filed_changed h.filed op serial m hm
  · apply hoperates.forall_pools (P := fun _ pool => 0 ≤ pool.weight_)
    · intro _ _ hpool
      exact nonneg_becomes h.nonneg hpool
    · intro _ _ _ hnonneg
      exact nonneg_markUserPoolProcessed _ hnonneg

theorem Kept.new (dbConnectors : List mp_msg_type_t) (autoResendEnabled : Bool) :
    Kept (History.new dbConnectors autoResendEnabled).engine where
  listed serial hsome := by cases hsome
  filed serial m hm := by cases hm
  nonneg serial pool hpool := by cases hpool

/-- Every engine that a run reaches. -/
theorem kept_of_exec {dbConnectors : List mp_msg_type_t} {calls : List Call}
    (h : exec call (MpAutoResendEngine.new dbConnectors) calls = some e) : Kept e := by
  refine Inv.exec (I := Kept) ?_ (Kept.new dbConnectors false) h
  intro e c e' hkept hcall
  obtain ⟨out, hout, rfl⟩ := Option.map_eq_some_iff.1 hcall
  exact hkept.operate hout

theorem Kept.step {h h' : History} {c : Call} (hkept : Kept h.engine)
    (hstep : h.step c = some h') : Kept h'.engine := by
  obtain ⟨out, hout, rfl⟩ := Option.map_eq_some_iff.1 hstep
  exact hkept.operate hout

end Kept

/-! ## Sorting -/

section Sorting

variable {e : MpAutoResendEngine} {w : Int}

theorem weightRead_of_pool {serial : MpString} {pool : MpMsgPool}
    (h : e.userPool_ serial = some pool) : weightRead w e serial = pool.weight_ := by
  simp [weightRead, h]

theorem fills_heavierRead (w : Int) (e : MpAutoResendEngine) :
    Fills (heavierRead w e) (weightSortCmp e) := by
  intro s t b hcmp
  unfold weightSortCmp at hcmp
  cases hs : e.userPool_ s with
  | none => simp [hs] at hcmp
  | some p =>
      cases ht : e.userPool_ t with
      | none => simp [hs, ht] at hcmp
      | some q =>
          simp only [hs, ht, Option.some.injEq] at hcmp
          rw [heavierRead, weightRead_of_pool hs, weightRead_of_pool ht, hcmp]

/-- **Users without a pool do not keep the sort from ending.** -/
theorem exists_readFrom (w : Int) (e : MpAutoResendEngine) :
    ∃ missing e', ReadFrom w e missing ∧ sortMessages e missing = some e' := by
  have hweighs : Weighs (weightRead w e) (filled (heavierRead w e)) e.priority_ :=
    fun s _ t _ => rfl
  obtain ⟨priority, hsort⟩ := bubbleSort_total [] hweighs
  obtain ⟨missing, hanswered⟩ := bubbleSort_answered (fills_heavierRead w e) hsort
  exact ⟨missing, { e with priority_ := priority }, hanswered.trans hsort.symm, by
    rw [sortMessages, hanswered]⟩

/-- The first user is not the heavier. -/
def NoHeavier (w : Int) (e : MpAutoResendEngine) (s t : MpString) : Prop :=
  weightRead w e s ≤ weightRead w e t

instance (w : Int) (e : MpAutoResendEngine) : IsTrans MpString (NoHeavier w e) where
  trans _ _ _ hst htu := le_trans hst htu

theorem pairwise_of_readFrom {e' : MpAutoResendEngine} {missing : List Bool}
    (hread : ReadFrom w e missing) (hsort : sortMessages e missing = some e') :
    e'.priority_.Pairwise (NoHeavier w e) := by
  obtain ⟨priority, hbubble, rfl⟩ := sortMessages_eq_some hsort
  apply List.isChain_iff_pairwise.1
  apply (bubbleSort_inOrder (hread.symm.trans hbubble)).imp
  intro s t hst
  exact not_lt.1 (of_decide_eq_false (Option.some.inj hst))

theorem pairwise_of_ordered {l : List MpString} (h : l.Pairwise (Ordered e)) :
    l.Pairwise (NoHeavier w e) := by
  apply h.imp
  rintro s t ⟨p, q, hp, hq, hle⟩
  rw [NoHeavier, weightRead_of_pool hp, weightRead_of_pool hq]
  exact hle

end Sorting

/-! ## Who is served next -/

section Next

variable {e : MpAutoResendEngine} {m : MpMsgPayload} {a : Answers} {out : Outcome}
  {u v : MpString}

theorem weightOf_of_pool {serial : MpString} {pool : MpMsgPool}
    (h : e.userPool_ serial = some pool) : weightOf e serial = pool.weight_ := by
  simp [weightOf, h]

/-- The pool that a confirmation leaves to its user. -/
theorem settled_pool {pool pool' : MpMsgPool} (hpool : e.userPool_ m.userSerial_ = some pool)
    (h : (settle e m MP_MESSAGE_SENT).1.userPool_ m.userSerial_ = some pool') :
    pool'.weight_ = (pool.setWeight (pool.weight_ + 1)).weight_ := by
  have hsettled := settle_settled e m MP_MESSAGE_SENT
  generalize (settle e m MP_MESSAGE_SENT).1 = e' at h hsettled
  cases hsettled with
  | absent none =>
      rw [hpool] at none
      cases none
  | emptied found sent last => simp at h
  | shortened found sent left =>
      rw [hpool, Option.some.injEq] at found
      subst found
      rw [userPool_setPool, if_pos rfl, Option.some.injEq] at h
      rw [← h]
      rfl
  | failed found failure => exact absurd rfl failure

/-- A confirmation leaves the pools of the others alone. -/
theorem settled_other (h : u ≠ m.userSerial_) :
    (settle e m MP_MESSAGE_SENT).1.userPool_ u = e.userPool_ u := by
  have hsettled := settle_settled e m MP_MESSAGE_SENT
  generalize (settle e m MP_MESSAGE_SENT).1 = e' at hsettled ⊢
  cases hsettled with
  | absent none => rfl
  | emptied found sent last => simp [h]
  | shortened found sent left => simp [h]
  | failed found failure => exact absurd rfl failure

/-- A confirmation makes the pool of its user one heavier. -/
theorem weightOf_confirmed (hkept : Kept e) (hu : Steady e u) (hu' : Steady out.engine u)
    (hout : operate e (.messageStatus m MP_MESSAGE_SENT) a = some out) :
    weightOf out.engine u = raise u m.userSerial_ (weightOf e u) := by
  obtain ⟨pool, hpool, -, -, -, hlt⟩ := hu
  obtain ⟨pool', hpool', hclean', -⟩ := hu'
  have hsettled := (operate_operates hout).unmarked hpool' hclean'
  rw [weightOf_of_pool hpool, weightOf_of_pool hpool']
  by_cases huser : m.userSerial_ = u
  · subst huser
    rw [raise_self, settled_pool hpool hsettled]
    have hnonneg := hkept.nonneg _ pool hpool
    apply MpMsgPool.weight_setWeight
    · omega
    · omega
  · rw [raise_of_ne huser]
    have hsame := settled_other (e := e) (m := m) (u := u) fun heq => huser heq.symm
    have hkeeps : some pool' = some pool := hsettled.symm.trans (hsame.trans hpool)
    rw [Option.some.inj hkeeps]

/-- A steady user can be served. -/
theorem Steady.eligible (h : Steady e u) (hauto : e.autoResendEnabled_ = true) :
    Eligible e u := by
  obtain ⟨pool, hpool, hclean, hmessages, hretries, -⟩ := h
  obtain ⟨m, rest, hm⟩ := List.exists_cons_of_ne_nil hmessages
  refine ⟨pool, hpool, hmessages, hclean, ?_⟩
  have hfront : pool.getMessage true = m := by simp [MpMsgPool.getMessage, hm]
  rw [hauto, hfront]
  exact hretries m (by simp [hm])

/-- Steady users have kept the pools that the operation gave them. -/
theorem Steady.changed {op : Op} (hoperates : Operates e op a out) (h : Steady out.engine u) :
    Steady (Changes.changed e op) u ∧
      weightOf (Changes.changed e op) u = weightOf out.engine u := by
  obtain ⟨pool, hpool, hclean, hrest⟩ := h
  have hsame := hoperates.unmarked hpool hclean
  exact ⟨⟨pool, hsame, hclean, hrest⟩, by
    rw [weightOf_of_pool hpool, weightOf_of_pool hsame]⟩

/-- A user who can be served has a pool. -/
theorem pool_of_eligible (h : Eligible e u) : ∃ pool, e.userPool_ u = some pool := by
  obtain ⟨pool, hpool, -⟩ := h
  exact ⟨pool, hpool⟩

theorem mem_priority_of_eligible (hlisted : Listed e) (h : Eligible e u) : u ∈ e.priority_ := by
  obtain ⟨pool, hpool⟩ := pool_of_eligible h
  exact hlisted u (by simp [contents, hpool])

section Chosen

variable {started : Bool} {priority : List MpString} {missing : List Bool}

/-- Sorting neither adds a user nor drops one. -/
theorem mem_sorted (hsort : sortMessages { e with started_ := started } missing =
    some (driven e started priority)) : u ∈ priority ↔ u ∈ e.priority_ := by
  obtain ⟨⟨priority', heq, hperm⟩, -⟩ := sortMessages_spec hsort
  have hpriority : priority = priority' := congrArg MpAutoResendEngine.priority_ heq
  rw [hpriority]
  exact hperm.mem_iff

/-- The message handed over is one of the first user who can be served. -/
theorem chosen_of_handed (hkept : Kept e)
    (hm : (scan (driven e started priority) priority).handed = some m) :
    ∃ passed rest, priority = passed ++ m.userSerial_ :: rest ∧
      (∀ s ∈ passed, ¬ Eligible e s) ∧ Eligible e m.userSerial_ := by
  have hpicks := (scan_scanned priority (driven e started priority)).picks
  rw [hm] at hpicks
  obtain ⟨passed, chosen, rest, hsplit, hbefore, heligible, hholds⟩ := picked_of_picks hpicks
  have hchosen : m.userSerial_ = chosen :=
    hkept.filed chosen m.markAsUnProcessed (Holds.mem_queue hholds)
  rw [hchosen]
  exact ⟨passed, rest, hsplit, hbefore, heligible⟩

/-- Nobody who can be served weighs less than that user. -/
theorem chosen_least {w : Int} (hkept : Kept e)
    (hsort : sortMessages { e with started_ := started } missing =
      some (driven e started priority)) (hordered : priority.Pairwise (NoHeavier w e))
    (hm : (scan (driven e started priority) priority).handed = some m) (hv : Eligible e v) :
    weightOf e m.userSerial_ ≤ weightOf e v := by
  obtain ⟨passed, rest, hsplit, hbefore, hchosen⟩ := chosen_of_handed hkept hm
  have hmem : v ∈ priority := (mem_sorted hsort).2 (mem_priority_of_eligible hkept.listed hv)
  rw [hsplit] at hmem hordered
  -- who stands before the chosen one cannot be served
  rcases List.mem_append.1 hmem with hpassed | hmem
  · exact absurd hv (hbefore v hpassed)
  · rcases List.mem_cons.1 hmem with rfl | hrest
    · exact le_refl _
    · have hpair := (List.pairwise_append.1 hordered).2.1
      have hle : NoHeavier w e m.userSerial_ v := (List.pairwise_cons.1 hpair).1 v hrest
      obtain ⟨p, hp⟩ := pool_of_eligible hchosen
      obtain ⟨q, hq⟩ := pool_of_eligible hv
      rw [NoHeavier, weightRead_of_pool hp, weightRead_of_pool hq] at hle
      rwa [weightOf_of_pool hp, weightOf_of_pool hq]

end Chosen

/-- The message handed over is one of a user who does not weigh more than any
steady user. -/
theorem handed_least {op : Op} {w : Int} (hkept : Kept e) (hauto : e.autoResendEnabled_ = true)
    (hop : ∀ b, op ≠ .setAutoResendEnabled b) (hout : operate e op a = some out)
    (hread : ReadFrom w (changed e op) a.missing) (hhanded : out.handed = some m)
    (hu : Steady out.engine m.userSerial_)
    (hv : Steady out.engine v) :
    weightOf out.engine m.userSerial_ ≤ weightOf out.engine v := by
  have hoperates := operate_operates hout
  obtain ⟨hu₁, hweightU⟩ := hu.changed hoperates
  obtain ⟨hv₁, hweightV⟩ := hv.changed hoperates
  have hauto₁ : (changed e op).autoResendEnabled_ = true := by
    rw [autoResend_changed]
    cases op with
    | setAutoResendEnabled b => exact absurd rfl (hop b)
    | _ => exact hauto
  rw [← hweightU, ← hweightV]
  cases hoperates with
  | rests engine handed reports =>
      rw [handed] at hhanded
      cases hhanded
  | sends started priority sorts engine handed reports =>
      rw [handed] at hhanded
      have hordered : priority.Pairwise (NoHeavier w (changed e op)) :=
        pairwise_of_readFrom (e := { changed e op with started_ := started }) hread sorts
      exact chosen_least (hkept.changed op) sorts hordered hhanded
        (Steady.eligible hv₁ hauto₁)

end Next

/-! ## Segments of confirmations -/

section Segments

variable {h h' : History} {c : Call} {u v : MpString}

/-- The condition on the steps of a segment: the message in flight is confirmed,
the sort reads one value behind the map, whichever it is, and the two users stay
steady. -/
def Goes (u v : MpString) (h : History) (c : Call) (h' : History) : Prop :=
  ConfirmsInFlight h c ∧ (∃ w, ReadFrom w (changed h.engine c.op) c.answers.missing) ∧
    Steady h'.engine u ∧ Steady h'.engine v

/-- A step of a segment whose sort reads `w` behind the map. -/
def GoesReading (w : Int) (u v : MpString) (h : History) (c : Call) (h' : History) : Prop :=
  ConfirmsInFlight h c ∧ ReadFrom w (changed h.engine c.op) c.answers.missing ∧
    Steady h'.engine u ∧ Steady h'.engine v

instance (w : Int) (u v : MpString) (h : History) (c : Call) (h' : History) :
    Decidable (GoesReading w u v h c h') :=
  inferInstanceAs (Decidable (_ ∧ _ ∧ _ ∧ _))

theorem GoesReading.goes {w : Int} (hgoes : GoesReading w u v h c h') : Goes u v h c h' :=
  ⟨hgoes.1, ⟨w, hgoes.2.1⟩, hgoes.2.2⟩

/-- The engine runs with auto-resend, and both users can be served. -/
structure Serving (u v : MpString) (h : History) : Prop where
  kept : Kept h.engine
  autoResend : h.engine.autoResendEnabled_ = true
  first : Steady h.engine u
  second : Steady h.engine v

theorem Serving.symm (hs : Serving u v h) : Serving v u h :=
  ⟨hs.kept, hs.autoResend, hs.second, hs.first⟩

/-- If the message in flight is for `u`, then `u` does not weigh more than `v`. -/
def Least (u v : MpString) (h : History) : Prop :=
  h.pending = true → ∀ l, h.last = some l → l.userSerial_ = u →
    weightOf h.engine u ≤ weightOf h.engine v

/-- A step of a segment confirms a message of this user. -/
theorem Goes.confirms (hgoes : Goes u v h c h') :
    ∃ m l, c.op = .messageStatus m MP_MESSAGE_SENT ∧ h.pending = true ∧ h.last = some l ∧
      m.userSerial_ = l.userSerial_ := by
  obtain ⟨hconfirms, -⟩ := hgoes
  rcases c with ⟨op, answers⟩
  cases op with
  | messageStatus m status =>
      obtain ⟨hsent, hreports, hpending⟩ := hconfirms
      obtain ⟨l, hlast, hm⟩ := reports_iff.1 hreports
      refine ⟨m, l, by rw [hsent], hpending, hlast, ?_⟩
      rw [hm]
      rfl
  | _ => exact absurd hconfirms id

theorem Serving.step (hs : Serving u v h) (hstep : h.step c = some h')
    (hgoes : Goes u v h c h') : Serving u v h' := by
  obtain ⟨m, l, hop, -⟩ := hgoes.confirms
  refine ⟨hs.kept.step hstep, ?_, hgoes.2.2.1, hgoes.2.2.2⟩
  obtain ⟨out, hout, rfl⟩ := Option.map_eq_some_iff.1 hstep
  refine (operate_operates hout).autoResend.trans ?_
  rw [autoResend_changed, hop]
  exact hs.autoResend

/-- After a confirmation the next message is that of a lightest user. -/
theorem Serving.least (hs : Serving u v h) (hstep : h.step c = some h')
    (hgoes : Goes u v h c h') : Least u v h' := by
  obtain ⟨m, l, hop, -⟩ := hgoes.confirms
  obtain ⟨-, ⟨w, hread⟩, hu, hv⟩ := hgoes
  obtain ⟨out, hout, rfl⟩ := Option.map_eq_some_iff.1 hstep
  intro hpending next hnext huser
  cases hhanded : out.handed with
  | none =>
      -- nothing is in flight after a confirmation without a successor
      simp [History.complete, History.changed, hhanded, hop, confirmedBy] at hpending
  | some x =>
      have hx : x = next := by simpa [History.complete, hhanded] using hnext
      subst hx
      subst huser
      have hother : ∀ b, c.op ≠ .setAutoResendEnabled b := by
        intro b hb
        rw [hop] at hb
        cases hb
      exact handed_least hs.kept hs.autoResend hother hout hread hhanded hu hv

theorem served_cons (c : Call) (calls : List Call) :
    served (c :: calls) = (confirmedBy c.op).map MpMsgPayload.userSerial_ ++ served calls := by
  simp [served]

/-- The weights after a step. -/
theorem Serving.weights (hs : Serving u v h) (hstep : h.step c = some h')
    (hgoes : Goes u v h c h') {m : MpMsgPayload}
    (hop : c.op = .messageStatus m MP_MESSAGE_SENT) :
    weightOf h'.engine u = raise u m.userSerial_ (weightOf h.engine u) := by
  obtain ⟨out, hout, rfl⟩ := Option.map_eq_some_iff.1 hstep
  rw [hop] at hout
  exact weightOf_confirmed hs.kept hs.first hgoes.2.2.1 hout

theorem Goes.symm (hgoes : Goes u v h c h') : Goes v u h c h' :=
  ⟨hgoes.1, hgoes.2.1, hgoes.2.2.2, hgoes.2.2.1⟩

/-- In a segment the least of the two is served. -/
theorem leastFirst_served : ∀ {calls : List Call} {h t : History}, Serving u v h →
    Least u v h → Least v u h → Steps History.step (Goes u v) h calls →
      exec History.step h calls = some t →
        LeastFirst u v (weightOf h.engine u) (weightOf h.engine v) (served calls) := by
  intro calls
  induction calls with
  | nil => intro h t _ _ _ _ _; trivial
  | cons c calls ih =>
      intro h t hs hu hv hsteps hrun
      rw [exec_cons, Option.bind_eq_some_iff] at hrun
      obtain ⟨h', hstep, hrun⟩ := hrun
      obtain ⟨hgoes, hsteps⟩ := hsteps h' hstep
      obtain ⟨m, l, hop, hpending, hlast, huser⟩ := hgoes.confirms
      have hrest := ih (hs.step hstep hgoes) (hs.least hstep hgoes)
        (hs.symm.least hstep hgoes.symm) hsteps hrun
      rw [hs.weights hstep hgoes hop, hs.symm.weights hstep hgoes.symm hop] at hrest
      have hserved : served (c :: calls) = m.userSerial_ :: served calls := by
        rw [served_cons, hop]
        rfl
      rw [hserved]
      refine ⟨?_, ?_, hrest⟩
      · intro hx
        exact hu hpending l hlast (huser ▸ hx)
      · intro hx
        exact hv hpending l hlast (huser ▸ hx)

end Segments

/-- **Fair shares.**  Take any engine that can be reached, with auto-resend and
a message in flight, and confirm messages.  Between two users who can be served
all along, the numbers of confirmed messages differ by at most one and the
difference of their weights at the start. -/
theorem shares_differ_le (dbConnectors : List mp_msg_type_t) (before : List Call)
    (h : History)
    (hreached : exec History.step (History.new dbConnectors false) before = some h)
    (hauto : h.engine.autoResendEnabled_ = true) (u v : MpString)
    (hu : Steady h.engine u) (hv : Steady h.engine v) (segment : List Call) (h' : History)
    (hsegment : Steps History.step (Goes u v) h segment)
    (hrun : exec History.step h segment = some h') :
    |(share u segment : Int) - (share v segment : Int)| ≤
      1 + |weightOf h.engine u - weightOf h.engine v| := by
  have hkept : Kept h.engine :=
    Inv.exec (I := fun h => Kept h.engine) (fun _ _ _ hk hstep => hk.step hstep)
      (Kept.new dbConnectors false) hreached
  have hs : Serving u v h := ⟨hkept, hauto, hu, hv⟩
  cases segment with
  | nil =>
      simp only [share, served, List.flatMap_nil, List.map_nil, List.count_nil, Nat.cast_zero,
        sub_zero, abs_zero]
      have hnonneg := abs_nonneg (weightOf h.engine u - weightOf h.engine v)
      omega
  | cons c calls =>
      rw [exec_cons, Option.bind_eq_some_iff] at hrun
      obtain ⟨h₁, hstep, hrun⟩ := hrun
      obtain ⟨hgoes, hsteps⟩ := hsegment h₁ hstep
      obtain ⟨m, l, hop, -⟩ := hgoes.confirms
      have hleast := leastFirst_served (hs.step hstep hgoes) (hs.least hstep hgoes)
        (hs.symm.least hstep hgoes.symm) hsteps hrun
      rw [hs.weights hstep hgoes hop, hs.symm.weights hstep hgoes.symm hop] at hleast
      have hserved : served (c :: calls) = m.userSerial_ :: served calls := by
        rw [served_cons, hop]
        rfl
      unfold share
      rw [hserved]
      exact share_difference_le hleast

/-! Messages for three users are added while the stack does not run, the user
between the two others is removed, and auto-resend is enabled when the stack
runs. -/

def sampleAdd (serial : MpString) (n : Nat) : Call :=
  ⟨.addMessage (sampleNote serial n), ⟨false, []⟩⟩

/-- The n-th message for this user is sent. -/
def sampleSent (serial : MpString) (n : Nat) (missing : List Bool) : Call :=
  ⟨.messageStatus (sampleNote serial n) MP_MESSAGE_SENT, ⟨true, missing⟩⟩

def sampleWaiting : List Call :=
  [sampleAdd [97] 0, sampleAdd [97] 1, sampleAdd [97] 2, sampleAdd [99] 3, sampleAdd [98] 4,
    sampleAdd [98] 5, ⟨.removeMessagesForSerial [99], ⟨false, []⟩⟩,
    ⟨.setAutoResendEnabled true, ⟨true, [false, false]⟩⟩]

/-- The removed user weighs nothing. -/
def sampleSegment : List Call :=
  [sampleSent [97] 0 [true, false], sampleSent [98] 4 [false]]

theorem shares_differ_le_sample :
    ∃ h h', exec History.step (History.new [] false) sampleWaiting = some h ∧
      exec History.step h sampleSegment = some h' ∧
      |(share [97] sampleSegment : Int) - (share [98] sampleSegment : Int)| ≤
        1 + |weightOf h.engine [97] - weightOf h.engine [98]| :=
  have hreading : Steps History.step (GoesReading 0 [97] [98])
      ((exec History.step (History.new [] false) sampleWaiting).getD (History.new [] false))
      sampleSegment := by decide
  ⟨_, _, rfl, rfl, shares_differ_le [] sampleWaiting _ rfl rfl [97] [98] (by decide) (by decide)
    sampleSegment _ (Steps.combine (fun _ _ _ hgoes _ => hgoes.goes) hreading hreading) rfl⟩

end EndToEndSmkex.AutoResend.Fairness
