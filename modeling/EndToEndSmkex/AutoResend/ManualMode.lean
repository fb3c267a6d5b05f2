import EndToEndSmkex.AutoResend.Selection
import EndToEndSmkex.AutoResend.Representation

/-!
# Nothing is sent again on its own

Without auto-resend a message that is processed waits for its user.  A status
that reports a failure processes every message in the pool of its receiver, and
new messages, presence and other users' requests make the pool clean again
without touching them.

From the failure until a user asks for it, a message is *parked*.  The run keeps
the tags of the parked messages next to the engine.

## Main results

* `manual_mode` — without auto-resend, and while no clean pool has the weight
  that stands for processed pools, no parked message is handed over.
-/

namespace EndToEndSmkex.AutoResend.ManualMode

open EndToEndSmkex.Lib.Run
open EndToEndSmkex.Smkex.Record
open EndToEndSmkex.AutoResend.MsgPayload
open EndToEndSmkex.AutoResend.MsgPayload.mp_msg_type_t
open EndToEndSmkex.AutoResend.Pool
open EndToEndSmkex.AutoResend.Engine
open EndToEndSmkex.AutoResend.Engine.mp_status_t
open EndToEndSmkex.AutoResend.Changes
open EndToEndSmkex.AutoResend.Search
open EndToEndSmkex.AutoResend.Queues
open EndToEndSmkex.AutoResend.Representation
open EndToEndSmkex.AutoResend.Selection

/-! ## Parked messages -/

/-- The engine, the tags of the parked messages, all messages added so far, and
the message that the last operation handed over. -/
structure Parking where
  engine : MpAutoResendEngine
  parked : List Nat
  added : List MpMsgPayload
  handed : Option MpMsgPayload

def Parking.new (dbConnectors : List mp_msg_type_t) : Parking :=
  { engine := MpAutoResendEngine.new dbConnectors, parked := [], added := [], handed := none }

/-- The messages in a user's pool. -/
def pooled (e : MpAutoResendEngine) (serial : MpString) : List MpMsgPayload :=
  ((e.userPool_ serial).map MpMsgPool.messages_).getD []

/-- A failure parks the ordinary messages queued for its receiver; a request
takes the message it finds first off the list. -/
def parkedAfter (e : MpAutoResendEngine) (op : Op) (parked : List Nat) : List Nat :=
  match op with
  | .messageStatus m status =>
    if status = MP_MESSAGE_SENT then parked
    else parked ++ ((pooled e m.userSerial_).filter fun x =>
      x.messageType_ = MP_TYPE_MESSAGE).map MpMsgPayload.tag
  | .resendMessage serial msgId =>
    match (pooled e serial).find? fun x => x.uid_ == msgId with
    | some first => parked.filter fun tag => tag ≠ first.tag
    | none => parked
  | _ => parked

/-- One operation.  The tag of a message is its place among all messages
added. -/
def Parking.step (s : Parking) (c : Call) : Option Parking :=
  if (addedBy c.op).map MpMsgPayload.tag = List.range' s.added.length (addedBy c.op).length then
    (operate s.engine c.op c.answers).map fun out =>
      { engine := out.engine
        parked := parkedAfter s.engine c.op s.parked
        added := s.added ++ addedBy c.op
        handed := out.handed }
  else none

/-- No user the engine serves has a clean pool with the weight of processed
pools. -/
def BelowLimit (e : MpAutoResendEngine) : Prop :=
  ∀ serial ∈ e.priority_, ∀ pool ∈ e.userPool_ serial,
    pool.dirty_ = false → pool.weight_ ≠ INT_MAX

instance (e : MpAutoResendEngine) : Decidable (BelowLimit e) :=
  inferInstanceAs (Decidable (∀ serial ∈ e.priority_, ∀ pool ∈ e.userPool_ serial,
    pool.dirty_ = false → pool.weight_ ≠ INT_MAX))

/-- The condition on a step: auto-resend is not enabled, and no clean pool's
weight reaches `INT_MAX`. -/
def Manual (c : Call) (s' : Parking) : Prop :=
  c.op ≠ .setAutoResendEnabled true ∧ BelowLimit s'.engine

instance (c : Call) (s' : Parking) : Decidable (Manual c s') :=
  inferInstanceAs (Decidable (_ ∧ _))

/-- No parked message has been handed over. -/
def NotResent (s : Parking) : Prop := ∀ m, s.handed = some m → m.tag ∉ s.parked

/-! ## Pools without auto-resend -/

/-- A message is the one with its tag, and it is filed under its receiver. -/
def Original (added : List MpMsgPayload) (serial : MpString) (m : MpMsgPayload) : Prop :=
  ∃ a, added[m.tag]? = some a ∧ a.userSerial_ = serial ∧ a.messageType_ = m.messageType_

/-- What is parked in a pool is processed, and so is everything in a dirty
pool. -/
structure Quiet (parked : List Nat) (added : List MpMsgPayload) (serial : MpString)
    (pool : MpMsgPool) : Prop where
  original : ∀ m ∈ pool.messages_, Original added serial m
  parked : ∀ m ∈ pool.messages_, m.tag ∈ parked →
    m.processed_ = true ∧ m.messageType_ = MP_TYPE_MESSAGE
  dirty : pool.dirty_ = true → ∀ m ∈ pool.messages_, m.processed_ = true

section Pools

variable {parked : List Nat} {added : List MpMsgPayload} {serial : MpString}
  {pool pool' : MpMsgPool}

theorem Original.append {m : MpMsgPayload} (h : Original added serial m)
    (more : List MpMsgPayload) : Original (added ++ more) serial m := by
  obtain ⟨a, ha, hrest⟩ := h
  refine ⟨a, ?_, hrest⟩
  rw [List.getElem?_append_left (List.getElem?_eq_some_iff.1 ha).1]
  exact ha

/-- The tag of a parked message is that of a message added before. -/
theorem Original.tag_lt {m : MpMsgPayload} (h : Original added serial m) :
    m.tag < added.length := by
  obtain ⟨a, ha, -⟩ := h
  exact (List.getElem?_eq_some_iff.1 ha).1

/-- Messages that come from those of a quiet pool, some of them processed now. -/
theorem Quiet.mono (h : Quiet parked added serial pool)
    (hmessages : ∀ x ∈ pool'.messages_, ∃ y ∈ pool.messages_, x = y ∨ x = y.markAsProcessed)
    (hdirty : pool'.dirty_ = true →
      pool.dirty_ = true ∨ ∀ x ∈ pool'.messages_, x.processed_ = true) :
    Quiet parked added serial pool' := by
  refine ⟨?_, ?_, ?_⟩
  · intro x hx
    obtain ⟨y, hy, rfl | rfl⟩ := hmessages x hx
    · exact h.original x hy
    · exact h.original y hy
  · intro x hx htag
    obtain ⟨y, hy, rfl | rfl⟩ := hmessages x hx
    · exact h.parked x hy htag
    · exact ⟨rfl, (h.parked y hy htag).2⟩
  · intro hd x hx
    rcases hdirty hd with hbefore | hall
    · obtain ⟨y, hy, rfl | rfl⟩ := hmessages x hx
      · exact h.dirty hbefore x hy
      · rfl
    · exact hall x hx

/-- The same messages, and the pool is not dirty unless it was. -/
theorem Quiet.same (h : Quiet parked added serial pool)
    (hmessages : pool'.messages_ = pool.messages_)
    (hdirty : pool'.dirty_ = true → pool.dirty_ = true) : Quiet parked added serial pool' := by
  apply h.mono
  · intro x hx
    exact ⟨x, hmessages ▸ hx, Or.inl rfl⟩
  · intro hd
    exact Or.inl (hdirty hd)

/-- Fewer tags are parked, and more messages have been added. -/
theorem Quiet.weaken {parked' : List Nat} (h : Quiet parked added serial pool)
    (hsub : parked' ⊆ parked) (more : List MpMsgPayload) :
    Quiet parked' (added ++ more) serial pool where
  original m hm := (h.original m hm).append more
  parked m hm htag := h.parked m hm (hsub htag)
  dirty := h.dirty

theorem messages_markUserPoolProcessed (dbConnectors : List mp_msg_type_t) (pool : MpMsgPool) :
    ∀ x ∈ (markUserPoolProcessed dbConnectors pool).1.messages_,
      ∃ y ∈ pool.messages_, x = y ∨ x = y.markAsProcessed := by
  intro x hx
  rcases markUserPoolProcessed_cases dbConnectors pool with ⟨hsame, -⟩ | ⟨-, -, hmarked⟩
  · rw [hsame] at hx
    exact ⟨x, hx, Or.inl rfl⟩
  · rw [hmarked] at hx
    obtain ⟨y, hy, rfl⟩ := List.mem_map.1 hx
    exact ⟨y, hy, Or.inr rfl⟩

/-- A pool below the limit is processed as a whole. -/
theorem processed_markUserPoolProcessed (dbConnectors : List mp_msg_type_t)
    (h : pool.weight_ ≠ INT_MAX) :
    ∀ x ∈ (markUserPoolProcessed dbConnectors pool).1.messages_, x.processed_ = true := by
  intro x hx
  rcases markUserPoolProcessed_cases dbConnectors pool with ⟨hsame, hwhy⟩ | ⟨-, -, hmarked⟩
  · rw [hsame, hwhy.resolve_right h] at hx
    cases hx
  · rw [hmarked] at hx
    obtain ⟨y, hy, rfl⟩ := List.mem_map.1 hx
    rfl

theorem messages_failed (dbConnectors : List mp_msg_type_t) (pool : MpMsgPool) (uid : Int) :
    ∀ x ∈ (markUserPoolProcessed dbConnectors
      (pool.markMsgAsProcessed uid).markAsDirty).1.messages_,
        ∃ y ∈ pool.messages_, x = y ∨ x = y.markAsProcessed := by
  intro x hx
  obtain ⟨y, hy, hxy⟩ := messages_markUserPoolProcessed _ _ x hx
  obtain ⟨z, hz, hyz⟩ := MpMsgPool.mem_markMsgAsProcessed hy
  refine ⟨z, hz, ?_⟩
  rcases hxy with rfl | rfl
  · exact hyz
  · rcases hyz with rfl | rfl <;> exact Or.inr rfl

/-- A failure processes the whole pool: at the limit the pool was dirty, and so
processed before. -/
theorem processed_failed (dbConnectors : List mp_msg_type_t) (uid : Int)
    (hlimit : pool.dirty_ = false → pool.weight_ ≠ INT_MAX)
    (hdirty : pool.dirty_ = true → ∀ m ∈ pool.messages_, m.processed_ = true) :
    ∀ x ∈ (markUserPoolProcessed dbConnectors
      (pool.markMsgAsProcessed uid).markAsDirty).1.messages_, x.processed_ = true := by
  by_cases hweight : pool.weight_ = INT_MAX
  · have hwas : pool.dirty_ = true := by
      by_contra hclean
      exact hlimit (Bool.eq_false_iff.2 hclean) hweight
    intro x hx
    obtain ⟨y, hy, rfl | rfl⟩ := messages_failed dbConnectors pool uid x hx
    · exact hdirty hwas x hy
    · rfl
  · apply processed_markUserPoolProcessed
    show (pool.markMsgAsProcessed uid).weight_ ≠ INT_MAX
    rw [MpMsgPool.weight_markMsgAsProcessed]
    exact hweight

/-- Marking keeps a dirty pool quiet. -/
theorem Quiet.marked (h : Quiet parked added serial pool) (dbConnectors : List mp_msg_type_t)
    (hdirty : pool.dirty_ = true) :
    Quiet parked added serial (markUserPoolProcessed dbConnectors pool).1 := by
  apply h.mono (messages_markUserPoolProcessed dbConnectors pool)
  intro _
  exact Or.inl hdirty

/-- One more message, which is not parked. -/
theorem Quiet.extend {m : MpMsgPayload} (h : Quiet parked added serial pool)
    (horiginal : Original added serial m) (hfree : m.tag ∉ parked) :
    Quiet parked added serial (markUserPoolAsClean false (pool.addMessage m)) := by
  have hcases : ∀ x ∈ pool.messages_ ++ [m], x ∈ pool.messages_ ∨ x = m := by
    intro x hx
    simpa using hx
  refine ⟨?_, ?_, fun hd => by cases hd⟩
  · intro x hx
    rcases hcases x hx with hold | rfl
    · exact h.original x hold
    · exact horiginal
  · intro x hx htag
    rcases hcases x hx with hold | rfl
    · exact h.parked x hold htag
    · exact absurd htag hfree

theorem quiet_empty (weight : Int) :
    Quiet parked added serial { messages_ := [], weight_ := weight, dirty_ := false } where
  original m hm := by cases hm
  parked m hm := by cases hm
  dirty hd := by cases hd

/-- One tag, one receiver and one type. -/
theorem Original.unique {t : MpString} {x y : MpMsgPayload} (hx : Original added serial x)
    (hy : Original added t y) (htag : x.tag = y.tag) :
    serial = t ∧ x.messageType_ = y.messageType_ := by
  obtain ⟨a, ha, huser, htype⟩ := hx
  obtain ⟨b, hb, huser', htype'⟩ := hy
  rw [htag, hb, Option.some.injEq] at ha
  subst ha
  exact ⟨huser.symm.trans huser', htype.symm.trans htype'⟩

end Pools

/-! ## What an operation parks -/

section Tags

variable {e : MpAutoResendEngine} {op : Op} {parked : List Nat} {tag : Nat}

theorem pooled_of_pool {serial : MpString} {pool : MpMsgPool}
    (h : e.userPool_ serial = some pool) : pooled e serial = pool.messages_ := by
  simp [pooled, h]

/-- What is parked was parked before, or is queued for the receiver of a message
that failed. -/
theorem mem_parkedAfter (h : tag ∈ parkedAfter e op parked) :
    tag ∈ parked ∨ ∃ m status, op = .messageStatus m status ∧
      ∃ y ∈ pooled e m.userSerial_, y.messageType_ = MP_TYPE_MESSAGE ∧ y.tag = tag := by
  unfold parkedAfter at h
  cases op with
  | messageStatus m status =>
      dsimp only at h
      by_cases hsent : status = MP_MESSAGE_SENT
      · rw [if_pos hsent] at h
        exact Or.inl h
      · rw [if_neg hsent] at h
        rcases List.mem_append.1 h with hold | hnew
        · exact Or.inl hold
        · obtain ⟨y, hy, rfl⟩ := List.mem_map.1 hnew
          have htype : y.messageType_ = MP_TYPE_MESSAGE := by simpa using (List.mem_filter.1 hy).2
          exact Or.inr ⟨m, status, rfl, y, List.mem_of_mem_filter hy, htype, rfl⟩
  | resendMessage serial msgId =>
      dsimp only at h
      cases hfirst : (pooled e serial).find? fun x => x.uid_ == msgId with
      | none =>
          simp only [hfirst] at h
          exact Or.inl h
      | some first =>
          simp only [hfirst] at h
          exact Or.inl (List.mem_of_mem_filter h)
  | addMessage m => exact Or.inl h
  | syncWithDBConnectors contents => exact Or.inl h
  | buddy_state2 serial state => exact Or.inl h
  | setAutoResendEnabled autoResendEnabled => exact Or.inl h
  | removeMessagesForSerial serial => exact Or.inl h

theorem parkedAfter_subset (hop : ∀ m status, op ≠ .messageStatus m status) :
    parkedAfter e op parked ⊆ parked := by
  intro tag htag
  rcases mem_parkedAfter htag with hold | ⟨m, status, hm, -⟩
  · exact hold
  · exact absurd hm (hop m status)

/-- New messages carry the next tags. -/
theorem added_tag {added : List MpMsgPayload} {m : MpMsgPayload}
    (htags : (addedBy op).map MpMsgPayload.tag =
      List.range' added.length (addedBy op).length) (hm : m ∈ addedBy op) :
    added.length ≤ m.tag ∧ (added ++ addedBy op)[m.tag]? = some m := by
  obtain ⟨i, hi⟩ := List.mem_iff_getElem?.1 hm
  obtain ⟨hlt, -⟩ := List.getElem?_eq_some_iff.1 hi
  have htag : m.tag = added.length + i := by
    have hget := congrArg (fun l => l[i]?) htags
    simp only [List.getElem?_map, hi, Option.map_some, List.getElem?_range' hlt,
      Option.some.injEq] at hget
    omega
  refine ⟨by omega, ?_⟩
  rw [htag, List.getElem?_append_right (Nat.le_add_right _ _), Nat.add_sub_cancel_left]
  exact hi

end Tags

/-! ## A step -/

/-- The invariant of the runs considered here. -/
structure Inv (s : Parking) : Prop where
  autoResend : s.engine.autoResendEnabled_ = false
  parked : ∀ tag ∈ s.parked, tag < s.added.length
  pools : ∀ serial pool, s.engine.userPool_ serial = some pool →
    Quiet s.parked s.added serial pool
  listed : Listed s.engine
  limit : BelowLimit s.engine

theorem Inv.new (dbConnectors : List mp_msg_type_t) : Inv (Parking.new dbConnectors) where
  autoResend := rfl
  parked tag htag := by cases htag
  pools serial pool hpool := by cases hpool
  listed serial hsome := by cases hsome
  limit serial hserial := by cases hserial

section Step

variable {s s' : Parking} {op : Op} {serial : MpString} {pool : MpMsgPool}

/-- A pool that the operation leaves alone. -/
theorem Inv.kept (hinv : Inv s) (hpool : s.engine.userPool_ serial = some pool)
    (hother : ∀ m status, op = .messageStatus m status → serial ≠ m.userSerial_) :
    Quiet (parkedAfter s.engine op s.parked) (s.added ++ addedBy op) serial pool := by
  have hquiet := hinv.pools serial pool hpool
  refine ⟨fun x hx => (hquiet.original x hx).append _, ?_, hquiet.dirty⟩
  intro x hx htag
  rcases mem_parkedAfter htag with hold | ⟨m, status, hop, y, hy, -, hsame⟩
  · exact hquiet.parked x hx hold
  · -- the tag would be that of a message for somebody else
    exfalso
    cases hreceiver : s.engine.userPool_ m.userSerial_ with
    | none => simp [pooled, hreceiver] at hy
    | some p =>
        rw [pooled_of_pool hreceiver] at hy
        have hy' := (hinv.pools _ p hreceiver).original y hy
        exact hother m status hop ((hquiet.original x hx).unique hy' hsame.symm).1

/-- The pool of a user whose message was not sent. -/
theorem Inv.failed (hinv : Inv s) {m : MpMsgPayload} {status : mp_status_t}
    (hpool : s.engine.userPool_ m.userSerial_ = some pool) :
    Quiet (parkedAfter s.engine (.messageStatus m status) s.parked) s.added m.userSerial_
      (markUserPoolProcessed s.engine.dbConnectors_
        (pool.markMsgAsProcessed m.uid_).markAsDirty).1 := by
  have hquiet := hinv.pools m.userSerial_ pool hpool
  have hsource := messages_failed s.engine.dbConnectors_ pool m.uid_
  have hlimit : pool.dirty_ = false → pool.weight_ ≠ INT_MAX := by
    have hserved : m.userSerial_ ∈ s.engine.priority_ :=
      hinv.listed m.userSerial_ (by simp [contents, hpool])
    exact hinv.limit _ hserved pool hpool
  have hall := processed_failed s.engine.dbConnectors_ m.uid_ hlimit hquiet.dirty
  have hmarked := hquiet.mono hsource fun _ => Or.inr hall
  refine ⟨hmarked.original, ?_, hmarked.dirty⟩
  intro x hx htag
  refine ⟨hall x hx, ?_⟩
  rcases mem_parkedAfter htag with hold | ⟨m', status', hop, y, hy, htype, hsame⟩
  · exact (hmarked.parked x hx hold).2
  · cases hop
    rw [pooled_of_pool hpool] at hy
    have hunique := (hmarked.original x hx).unique (hquiet.original y hy) hsame.symm
    exact hunique.2.trans htype

/-- The pool of a user who asks for a message. -/
theorem Inv.resent (hinv : Inv s) {msgId : Int}
    (hpool : s.engine.userPool_ serial = some pool) :
    Quiet (parkedAfter s.engine (.resendMessage serial msgId) s.parked) s.added serial
      ((pool.markMsgAsUnprocessed msgId).markAsClean.setWeight 0) := by
  have hquiet := hinv.pools serial pool hpool
  have hsub : parkedAfter s.engine (.resendMessage serial msgId) s.parked ⊆ s.parked :=
    parkedAfter_subset (by simp)
  have hsource : ∀ x ∈ (pool.markMsgAsUnprocessed msgId).messages_, x ∈ pool.messages_ ∨
      ∃ y, pool.messages_.find? (fun m => m.uid_ == msgId) = some y ∧
        x = y.markAsUnProcessed := fun _ => MpMsgPool.mem_markMsgAsUnprocessed
  refine ⟨?_, ?_, fun hd => by cases hd⟩
  · intro x hx
    rcases hsource x hx with hold | ⟨y, hy, rfl⟩
    · exact hquiet.original x hold
    · exact hquiet.original y (List.mem_of_find?_eq_some hy)
  · intro x hx htag
    rcases hsource x hx with hold | ⟨y, hy, rfl⟩
    · exact hquiet.parked x hold (hsub htag)
    · -- the message that is found is not parked any more
      unfold parkedAfter at htag
      simp only [pooled_of_pool hpool, hy] at htag
      have hne : y.markAsUnProcessed.tag ≠ y.tag := by simpa using (List.mem_filter.1 htag).2
      exact absurd rfl hne

/-- The pools after an operation. -/
theorem Inv.becomes (hinv : Inv s)
    (htags : (addedBy op).map MpMsgPayload.tag =
      List.range' s.added.length (addedBy op).length)
    (hpool : Becomes s.engine op serial pool) :
    Quiet (parkedAfter s.engine op s.parked) (s.added ++ addedBy op) serial pool := by
  have hadds : ∀ m ∈ addedBy op, m.userSerial_ = serial →
      Original (s.added ++ addedBy op) serial m ∧
        m.tag ∉ parkedAfter s.engine op s.parked := by
    intro m hm hreceiver
    obtain ⟨hle, hget⟩ := added_tag htags hm
    refine ⟨⟨m, hget, hreceiver, rfl⟩, fun htag => ?_⟩
    have hop : ∀ m status, op ≠ .messageStatus m status := by
      rintro m' status rfl
      cases hm
    have hlt := hinv.parked m.tag (parkedAfter_subset hop htag)
    omega
  induction hpool with
  | kept before other => exact hinv.kept before other
  | @opened m adds receiver =>
      rw [hinv.autoResend]
      exact (quiet_empty 1).extend (hadds m adds receiver).1 (hadds m adds receiver).2
  | @extended pool m before adds receiver ih =>
      rw [hinv.autoResend]
      exact ih.extend (hadds m adds receiver).1 (hadds m adds receiver).2
  | activated before online =>
      rw [hinv.autoResend]
      have hop : ∀ m status, op = .messageStatus m status → serial ≠ m.userSerial_ := by
        simp [online]
      exact (hinv.kept before hop).same rfl fun hd => by cases hd
  | @sent pool m before status receiver left =>
      have hparked : parkedAfter s.engine op s.parked = s.parked := by
        rw [status]
        rfl
      rw [hparked]
      apply ((hinv.pools serial pool before).weaken (List.Subset.refl _) _).mono
      · intro x hx
        exact MpMsgPool.mem_markMsgAsProcessed (List.mem_of_mem_eraseP hx)
      · intro hd
        exact Or.inl (by simpa using hd)
  | @failed pool m code before status receiver failure =>
      subst receiver
      rw [status]
      exact (hinv.failed before).weaken (List.Subset.refl _) _
  | @resent pool msgId before asked =>
      rw [asked]
      exact (hinv.resent before).weaken (List.Subset.refl _) _
  | @raised pool first other msgId before asked ne found index =>
      have hop : ∀ m status, op = .messageStatus m status → serial ≠ m.userSerial_ := by
        simp [asked]
      exact (hinv.kept before hop).same rfl id

theorem Inv.autoResend_changed (hinv : Inv s) (hop : op ≠ .setAutoResendEnabled true) :
    (Changes.changed s.engine op).autoResendEnabled_ = false := by
  rw [Changes.autoResend_changed]
  cases op with
  | setAutoResendEnabled autoResendEnabled =>
      cases autoResendEnabled with
      | false => rfl
      | true => exact absurd rfl hop
  | _ => exact hinv.autoResend

/-- What is handed over without auto-resend is not parked. -/
theorem Quiet.not_parked {parked : List Nat} {added : List MpMsgPayload}
    (h : Quiet parked added serial pool) {m : MpMsgPayload} (hm : m = pool.getMessage false)
    (hretries : 0 < m.numberOfRetries_) : m.tag ∉ parked := by
  intro htag
  rw [hm] at hretries
  have hmem := pool.getMessage_mem false hretries
  rw [← hm] at hmem
  obtain ⟨hprocessed, htype⟩ := h.parked m hmem htag
  have hfound : pool.messages_.find? deliverable = some m := by
    cases hfind : pool.messages_.find? deliverable with
    | none => simp [MpMsgPool.getMessage, hfind, noMessage, MpMsgPayload.new] at hretries
    | some x => simp [hm, MpMsgPool.getMessage, hfind]
  have hdeliverable := List.find?_some hfound
  simp [deliverable, hprocessed, htype] at hdeliverable

theorem Inv.step {c : Call} (hinv : Inv s) (hstep : s.step c = some s') (hmanual : Manual c s') :
    Inv s' ∧ NotResent s' := by
  unfold Parking.step at hstep
  by_cases htags : (addedBy c.op).map MpMsgPayload.tag =
      List.range' s.added.length (addedBy c.op).length
  · rw [if_pos htags] at hstep
    obtain ⟨out, hout, rfl⟩ := Option.map_eq_some_iff.1 hstep
    have hoperates := operate_operates hout
    have hauto := hinv.autoResend_changed hmanual.1
    have hmade : ∀ serial pool, Becomes s.engine c.op serial pool →
        Quiet (parkedAfter s.engine c.op s.parked) (s.added ++ addedBy c.op) serial pool :=
      fun _ _ hpool => hinv.becomes htags hpool
    refine ⟨⟨hoperates.autoResend.trans hauto, ?_, ?_, hinv.listed.operates hoperates,
      hmanual.2⟩, ?_⟩
    · intro tag htag
      rw [List.length_append]
      rcases mem_parkedAfter htag with hold | ⟨m, status, -, y, hy, -, rfl⟩
      · have hlt := hinv.parked tag hold
        omega
      · cases hreceiver : s.engine.userPool_ m.userSerial_ with
        | none => simp [pooled, hreceiver] at hy
        | some p =>
            rw [pooled_of_pool hreceiver] at hy
            have hlt := ((hinv.pools _ p hreceiver).original y hy).tag_lt
            omega
    · apply hoperates.forall_pools hmade
      intro serial pool hdirty hquiet
      exact hquiet.marked _ hdirty
    · intro m hm
      obtain ⟨serial, pool, hpool, -, hfront, hretries⟩ := hoperates.handed hm
      rw [hauto] at hfront
      exact (hmade serial pool (becomes_of_changed hpool)).not_parked hfront hretries
  · rw [if_neg htags] at hstep
    cases hstep

end Step

/-! ## Runs -/

/-- **Nothing is sent again on its own.**  For every run without auto-resend in
which no clean pool's weight reaches `INT_MAX`, whatever the statuses, UIDs and
comparisons are: no message is handed over between a failure that finds it
queued and a request for it. -/
theorem manual_mode (dbConnectors : List mp_msg_type_t) (calls : List Call)
    (hmanual : Steps Parking.step (fun _ c s' => Manual c s') (Parking.new dbConnectors) calls) :
    Steps Parking.step (fun _ _ s' => NotResent s') (Parking.new dbConnectors) calls :=
  steps_of_inv (I := Inv) (fun _ _ _ hinv hstep hc => hinv.step hstep hc)
    (Inv.new dbConnectors) hmanual

/-- A message for `a` fails, and `a` comes back. -/
def sampleFailing : List Call :=
  [⟨.addMessage (sampleMessage [97]), ⟨true, []⟩⟩,
    ⟨.messageStatus (sampleMessage [97]) MP_MESSAGE_NOT_SENT, ⟨true, []⟩⟩,
    ⟨.buddy_state2 [97] .MP_BUDDY_ONLINE, ⟨true, []⟩⟩]

theorem manual_mode_failing :
    Steps Parking.step (fun _ _ s' => NotResent s') (Parking.new []) sampleFailing :=
  manual_mode [] sampleFailing (by decide)

end EndToEndSmkex.AutoResend.ManualMode
