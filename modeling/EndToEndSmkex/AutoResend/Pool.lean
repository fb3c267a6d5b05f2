import EndToEndSmkex.AutoResend.MsgPayload

/-!
# The messages queued for one user

`MpMsgPool` keeps the messages of one user in the order in which they were
added, with a weight, by which the engine sorts its users, and a dirty flag for
users who could not be reached.  Messages are looked up by UID, and the first
match counts.

`contents` is the queue without the processed flags.  Only `addMessage` and
`rmMessage` change it.
-/

namespace EndToEndSmkex.AutoResend.Pool

open EndToEndSmkex.Smkex.Record
open EndToEndSmkex.AutoResend.MsgPayload
open EndToEndSmkex.AutoResend.MsgPayload.mp_msg_type_t

/-- `INT_MAX`, the weight of a pool whose messages were reported as not sent. -/
def INT_MAX : Int := 2 ^ 31 - 1

structure MpMsgPool where
  messages_ : List MpMsgPayload
  weight_ : Int
  dirty_ : Bool
  deriving DecidableEq

/-- The message `getMessage` returns when it finds none: its retries are zero. -/
def noMessage : MpMsgPayload := MpMsgPayload.new [] [] 0 0 MP_TYPE_MESSAGE false 0

/-- What is sent without auto-resend: invitations, and messages that have not
been processed. -/
def deliverable (m : MpMsgPayload) : Bool :=
  decide (m.messageType_ ≠ MP_TYPE_MESSAGE) || !m.processed_

namespace MpMsgPool

/-- The constructor of `MpMsgPool`. -/
def new (message : MpMsgPayload) : MpMsgPool :=
  { messages_ := [message]
    weight_ := 1
    dirty_ := false }

/-- The parameter is an `int`, so the sum of a `long` and one wraps around. -/
def setWeight (pool : MpMsgPool) (weight : Int) : MpMsgPool :=
  { pool with weight_ := if weight.bmod (2 ^ 32) < 0 then 0 else weight.bmod (2 ^ 32) }

def addMessage (pool : MpMsgPool) (message : MpMsgPayload) : MpMsgPool :=
  { pool with messages_ := pool.messages_ ++ [message] }

/-- The engine asks non-empty pools only: there `front` is the first message. -/
def getMessage (pool : MpMsgPool) (autoResendEnabled : Bool) : MpMsgPayload :=
  if autoResendEnabled then pool.messages_.head?.getD noMessage
  else (pool.messages_.find? deliverable).getD noMessage

/-- Remove the first message with this UID. -/
def rmMessage (pool : MpMsgPool) (msgId : Int) : MpMsgPool :=
  { pool with messages_ := pool.messages_.eraseP fun m => m.uid_ == msgId }

/-- The index of the first message with this UID; `none` for -1. -/
def getIndexForUID (pool : MpMsgPool) (msgUID : Int) : Option Nat :=
  pool.messages_.findIdx? fun m => m.uid_ == msgUID

/-- The flag of the first message with this UID, unset without one. -/
def getProcessedStatusAt (pool : MpMsgPool) (msgUID : Int) : Bool :=
  match pool.getIndexForUID msgUID with
  | none => false
  | some i => (pool.messages_[i]?.map MpMsgPayload.processed_).getD false

def isPoolEmpty (pool : MpMsgPool) : Bool := pool.messages_.isEmpty

def markMsgAsUnprocessed (pool : MpMsgPool) (msgUID : Int) : MpMsgPool :=
  match pool.getIndexForUID msgUID with
  | none => pool
  | some i =>
    { pool with messages_ := pool.messages_.modify i MpMsgPayload.markAsUnProcessed }

def markMsgAsProcessed (pool : MpMsgPool) (msgUID : Int) : MpMsgPool :=
  match pool.getIndexForUID msgUID with
  | none => pool
  | some i =>
    { pool with messages_ := pool.messages_.modify i MpMsgPayload.markAsProcessed }

def markAsDirty (pool : MpMsgPool) : MpMsgPool := { pool with dirty_ := true }

def markAsClean (pool : MpMsgPool) : MpMsgPool := { pool with dirty_ := false }

/-- A mark on a message leaves the pool's own fields alone. -/
@[simp] theorem weight_markMsgAsProcessed (pool : MpMsgPool) (uid : Int) :
    (pool.markMsgAsProcessed uid).weight_ = pool.weight_ := by
  unfold markMsgAsProcessed
  cases pool.getIndexForUID uid <;> rfl

@[simp] theorem dirty_markMsgAsProcessed (pool : MpMsgPool) (uid : Int) :
    (pool.markMsgAsProcessed uid).dirty_ = pool.dirty_ := by
  unfold markMsgAsProcessed
  cases pool.getIndexForUID uid <;> rfl

@[simp] theorem weight_rmMessage (pool : MpMsgPool) (uid : Int) :
    (pool.rmMessage uid).weight_ = pool.weight_ := rfl

@[simp] theorem dirty_rmMessage (pool : MpMsgPool) (uid : Int) :
    (pool.rmMessage uid).dirty_ = pool.dirty_ := rfl

/-- Within its range a weight is set as it is. -/
theorem weight_setWeight {weight : Int} (pool : MpMsgPool) (hnonneg : 0 ≤ weight)
    (hmax : weight ≤ INT_MAX) : (pool.setWeight weight).weight_ = weight := by
  have hbmod : weight.bmod (2 ^ 32) = weight := by
    unfold INT_MAX at hmax
    rw [Int.bmod_eq_of_le] <;> omega
  have hpos : ¬ weight < 0 := by omega
  simp only [setWeight, hbmod, hpos, if_false]

/-- One more than the maximum wraps around and is set to 0. -/
theorem weight_setWeight_wraps (pool : MpMsgPool) :
    (pool.setWeight (INT_MAX + 1)).weight_ = 0 := rfl

@[simp] theorem messages_setWeight (pool : MpMsgPool) (weight : Int) :
    (pool.setWeight weight).messages_ = pool.messages_ := rfl

@[simp] theorem dirty_setWeight (pool : MpMsgPool) (weight : Int) :
    (pool.setWeight weight).dirty_ = pool.dirty_ := rfl

/-! ## Marks on single messages -/

/-- Only the element that is found changes. -/
theorem mem_modify_first {p : MpMsgPayload → Bool} {f : MpMsgPayload → MpMsgPayload}
    {ms : List MpMsgPayload} {i : Nat} (hi : ms.findIdx? p = some i) {x : MpMsgPayload}
    (hx : x ∈ ms.modify i f) : x ∈ ms ∨ ∃ y, ms.find? p = some y ∧ x = f y := by
  obtain ⟨j, hj⟩ := List.mem_iff_getElem?.1 hx
  rw [List.getElem?_modify, Option.map_eq_map, Option.map_eq_some_iff] at hj
  obtain ⟨y, hy, rfl⟩ := hj
  by_cases hij : i = j
  · subst hij
    right
    obtain ⟨hlt, hp, hbefore⟩ := List.findIdx?_eq_some_iff_getElem.1 hi
    have hget : ms[i] = y := by simpa [List.getElem?_eq_getElem hlt] using hy
    refine ⟨y, ?_, if_pos rfl⟩
    rw [List.find?_eq_some_iff_getElem]
    refine ⟨hget ▸ hp, i, hlt, hget, ?_⟩
    intro k hk
    simpa using hbefore k hk
  · left
    rw [if_neg hij]
    exact List.mem_of_getElem? hy

theorem mem_markMsgAsProcessed {pool : MpMsgPool} {uid : Int} {x : MpMsgPayload}
    (hx : x ∈ (pool.markMsgAsProcessed uid).messages_) :
    ∃ y ∈ pool.messages_, x = y ∨ x = y.markAsProcessed := by
  unfold markMsgAsProcessed at hx
  cases hi : pool.getIndexForUID uid with
  | none =>
      simp only [hi] at hx
      exact ⟨x, hx, Or.inl rfl⟩
  | some i =>
      simp only [hi] at hx
      rcases mem_modify_first hi hx with hsame | ⟨y, hy, rfl⟩
      · exact ⟨x, hsame, Or.inl rfl⟩
      · exact ⟨y, List.mem_of_find?_eq_some hy, Or.inr rfl⟩

/-- The mark goes to the first message with this UID. -/
theorem mem_markMsgAsUnprocessed {pool : MpMsgPool} {uid : Int} {x : MpMsgPayload}
    (hx : x ∈ (pool.markMsgAsUnprocessed uid).messages_) :
    x ∈ pool.messages_ ∨
      ∃ y, pool.messages_.find? (fun m => m.uid_ == uid) = some y ∧ x = y.markAsUnProcessed := by
  unfold markMsgAsUnprocessed at hx
  cases hi : pool.getIndexForUID uid with
  | none =>
      simp only [hi] at hx
      exact Or.inl hx
  | some i =>
      simp only [hi] at hx
      exact mem_modify_first hi hx

/-! ## The queue without the flags -/

/-- The queued messages, processed flags aside. -/
def contents (pool : MpMsgPool) : List MpMsgPayload :=
  pool.messages_.map MpMsgPayload.markAsUnProcessed

@[simp] theorem contents_setWeight (pool : MpMsgPool) (weight : Int) :
    (pool.setWeight weight).contents = pool.contents := rfl

@[simp] theorem contents_markAsDirty (pool : MpMsgPool) :
    pool.markAsDirty.contents = pool.contents := rfl

@[simp] theorem contents_markAsClean (pool : MpMsgPool) :
    pool.markAsClean.contents = pool.contents := rfl

@[simp] theorem contents_addMessage (pool : MpMsgPool) (m : MpMsgPayload) :
    (pool.addMessage m).contents = pool.contents ++ [m.markAsUnProcessed] := by
  simp [contents, addMessage]

@[simp] theorem contents_rmMessage (pool : MpMsgPool) (uid : Int) :
    (pool.rmMessage uid).contents = pool.contents.eraseP fun m => m.uid_ == uid := by
  simp only [contents, rmMessage, List.eraseP_map]
  rfl

/-- Changing nothing but flags of single messages changes no contents. -/
theorem map_modify_flags {f : MpMsgPayload → MpMsgPayload}
    (hf : ∀ m, (f m).markAsUnProcessed = m.markAsUnProcessed) (i : Nat) :
    ∀ ms : List MpMsgPayload,
      (ms.modify i f).map MpMsgPayload.markAsUnProcessed =
        ms.map MpMsgPayload.markAsUnProcessed := by
  intro ms
  induction ms generalizing i with
  | nil => simp
  | cons m ms ih =>
      cases i with
      | zero => simp [hf]
      | succ i => simp [ih]

@[simp] theorem contents_markMsgAsProcessed (pool : MpMsgPool) (uid : Int) :
    (pool.markMsgAsProcessed uid).contents = pool.contents := by
  have hflag : ∀ m : MpMsgPayload,
      m.markAsProcessed.markAsUnProcessed = m.markAsUnProcessed := fun _ => rfl
  unfold markMsgAsProcessed
  cases pool.getIndexForUID uid with
  | none => rfl
  | some i => exact map_modify_flags hflag i pool.messages_

@[simp] theorem contents_markMsgAsUnprocessed (pool : MpMsgPool) (uid : Int) :
    (pool.markMsgAsUnprocessed uid).contents = pool.contents := by
  have hflag : ∀ m : MpMsgPayload,
      m.markAsUnProcessed.markAsUnProcessed = m.markAsUnProcessed := fun _ => rfl
  unfold markMsgAsUnprocessed
  cases pool.getIndexForUID uid with
  | none => rfl
  | some i => exact map_modify_flags hflag i pool.messages_

/-- What `getMessage` finds is queued; otherwise its retries are zero. -/
theorem getMessage_mem (pool : MpMsgPool) (autoResendEnabled : Bool)
    (h : 0 < (pool.getMessage autoResendEnabled).numberOfRetries_) :
    pool.getMessage autoResendEnabled ∈ pool.messages_ := by
  have hdefault : ∀ o : Option MpMsgPayload, (∀ m, o = some m → m ∈ pool.messages_) →
      0 < (o.getD noMessage).numberOfRetries_ → o.getD noMessage ∈ pool.messages_ := by
    intro o ho hpos
    cases o with
    | none => exact absurd hpos (by decide)
    | some m => exact ho m rfl
  by_cases hauto : autoResendEnabled = true
  · simp only [getMessage, hauto, if_true] at h ⊢
    exact hdefault _ (fun m hm => List.mem_of_mem_head? hm) h
  · simp only [getMessage, hauto, Bool.false_eq_true, if_false] at h ⊢
    exact hdefault _ (fun m hm => List.mem_of_find?_eq_some hm) h

end MpMsgPool

end EndToEndSmkex.AutoResend.Pool
