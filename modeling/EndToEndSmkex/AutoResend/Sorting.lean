import EndToEndSmkex.AutoResend.Representation
import EndToEndSmkex.Lib.Loops

/-!
# The loop of `sortMessages`

`sortMessages` exchanges neighbours in the vector `priority_` until a pass over
it exchanges nothing.  Its index is a `uint32_t`, compared with the 64-bit
length of the vector.  In a vector of more than 2^32 users every value of the
index is in range, so the first pass does not end.

## Main results

* `sortReturns_of_sortMessages` — up to that length the loop does what
  `Engine.sortMessages` says.
* `sortMessages_iff` — where every user has a pool, the loop ends and sorts the
  users stably by weight exactly up to that length.
* `crowded_never_sorted` — one user, added and removed again and again, is
  enough to get there.
-/

namespace EndToEndSmkex.AutoResend.Sorting

open EndToEndSmkex.Lib.BubbleSort
open EndToEndSmkex.Lib.Loops
open EndToEndSmkex.Lib.Run
open EndToEndSmkex.Smkex.Record
open EndToEndSmkex.AutoResend.MsgPayload
open EndToEndSmkex.AutoResend.Pool
open EndToEndSmkex.AutoResend.Engine
open EndToEndSmkex.AutoResend.Search
open EndToEndSmkex.AutoResend.Queues
open EndToEndSmkex.AutoResend.Representation

/-- The engine and the variables of the loops.  `missing` answers the
comparisons that look up no pool. -/
structure SortLoop where
  engine : MpAutoResendEngine
  missing : List Bool
  i : UInt32
  swapped : Bool

namespace SortLoop

/-- Exchange `priority_[i]` and `priority_[i + 1]`, which are `s` and `t`. -/
def exchange (l : SortLoop) (s t : MpString) : MpAutoResendEngine :=
  { l.engine with
    priority_ := (l.engine.priority_.set l.i.toNat t).set (l.i + 1).toNat s }

/-- One turn of the for loop or, at its end, of the while loop around it. -/
def turn (l : SortLoop) : Option (SortLoop ⊕ (MpAutoResendEngine × List Bool)) :=
  if l.i.toNat < l.engine.priority_.length - 1 then
    match l.engine.priority_[l.i.toNat]?, l.engine.priority_[(l.i + 1).toNat]? with
    | some s, some t =>
      (ask (weightSortCmp l.engine s t) l.missing).map fun asked =>
        .inl
          { engine := if asked.1 then l.exchange s t else l.engine
            missing := asked.2
            i := l.i + 1
            swapped := asked.1 || l.swapped }
    | _, _ => none
  else if l.swapped then some (.inl { l with i := 0, swapped := false })
  else some (.inr (l.engine, l.missing))

end SortLoop

open SortLoop

/-- `sortMessages`, if it takes at most `fuel` rounds. -/
def sortLoop (fuel : Nat) (e : MpAutoResendEngine) (missing : List Bool) :
    Option (MpAutoResendEngine × List Bool) :=
  if e.priority_.isEmpty then some (e, missing)
  else loop turn fuel { engine := e, missing, i := 0, swapped := false }

/-- `sortMessages` ends, with this engine and these answers left. -/
def SortReturns (e : MpAutoResendEngine) (missing : List Bool)
    (p : MpAutoResendEngine × List Bool) : Prop :=
  ∃ fuel, sortLoop fuel e missing = some p

/-- The users of `e'` are those of `e`, sorted by weight, users of the same
weight in their old order.  Nothing else has changed. -/
structure StablySorted (e e' : MpAutoResendEngine) : Prop where
  frame : e' = { e with priority_ := e'.priority_ }
  perm : e'.priority_.Perm e.priority_
  ordered : e'.priority_.Pairwise (Ordered e')
  stable : ∀ w,
    e'.priority_.filter (fun s => (e.userPool_ s).map MpMsgPool.weight_ = some w) =
      e.priority_.filter fun s => (e.userPool_ s).map MpMsgPool.weight_ = some w

/-! ## Up to 2^32 users -/

section Bounded

variable {e : MpAutoResendEngine} {before rest : List MpString} {x y : MpString}
  {missing : List Bool} {swapped : Bool}

/-- The loop at the index `i` of this order of the users. -/
def atIndex (e : MpAutoResendEngine) (priority : List MpString) (missing : List Bool) (i : Nat)
    (swapped : Bool) : SortLoop :=
  { engine := { e with priority_ := priority }, missing, i := UInt32.ofNat i, swapped }

/-- Two neighbours are compared, and exchanged if the first is the heavier. -/
theorem turn_pair {asked : Bool × List Bool} (hlen : before.length + 1 < 2 ^ 32)
    (hasked : ask (weightSortCmp e x y) missing = some asked) :
    turn (atIndex e (before ++ x :: y :: rest) missing before.length swapped) =
      some (.inl (atIndex e (before ++ if asked.1 then y :: x :: rest else x :: y :: rest) asked.2
        (before.length + 1) (asked.1 || swapped))) := by
  have hi : (UInt32.ofNat before.length).toNat = before.length :=
    UInt32.toNat_ofNat_of_lt' (Nat.lt_of_succ_lt hlen)
  have hnext : UInt32.ofNat before.length + 1 = UInt32.ofNat (before.length + 1) := by
    rw [UInt32.ofNat_add]
    rfl
  have hi' : (UInt32.ofNat (before.length + 1)).toNat = before.length + 1 :=
    UInt32.toNat_ofNat_of_lt' hlen
  have hin : before.length < (before ++ x :: y :: rest).length - 1 := by
    rw [List.length_append, List.length_cons, List.length_cons]
    omega
  have hx : (before ++ x :: y :: rest)[before.length]? = some x := by simp
  have hy : (before ++ x :: y :: rest)[before.length + 1]? = some y := by simp
  have hset : ((before ++ x :: y :: rest).set before.length y).set (before.length + 1) x =
      before ++ y :: x :: rest := by simp
  have hcmp : weightSortCmp { e with priority_ := before ++ x :: y :: rest } x y =
      weightSortCmp e x y := rfl
  simp only [turn, atIndex, exchange, hnext, hi, hi', hx, hy, hset, if_pos hin, hcmp, hasked,
    Option.map_some]
  cases asked.1 with
  | false => rfl
  | true => rfl

/-- The user at the index joins those behind it. -/
theorem atIndex_succ :
    atIndex e (before ++ x :: rest) missing (before.length + 1) swapped =
      atIndex e ((before ++ [x]) ++ rest) missing (before ++ [x]).length swapped := by
  rw [List.append_assoc, List.singleton_append, List.length_append, List.length_singleton]

/-- The for loop carries the heaviest user seen so far to the right. -/
theorem returns_of_carry {r : MpAutoResendEngine × List Bool} (rest : List MpString) :
    ∀ {before : List MpString} {x : MpString} {missing : List Bool} {swapped : Bool}
      {p : List MpString × Bool × List Bool},
      carry (weightSortCmp e) x rest missing = some p → before.length + rest.length < 2 ^ 32 →
        Returns turn
          (atIndex e (before ++ p.1) p.2.2 (before.length + rest.length) (p.2.1 || swapped)) r →
        Returns turn (atIndex e (before ++ x :: rest) missing before.length swapped) r := by
  induction rest with
  | nil =>
      intro before x missing swapped p hcarry _ hreturns
      cases hcarry
      exact hreturns
  | cons y rest ih =>
      intro before x missing swapped p hcarry hlen hreturns
      rw [List.length_cons] at hlen hreturns
      rw [carry, Option.bind_eq_some_iff] at hcarry
      obtain ⟨asked, hasked, hcarry⟩ := hcarry
      have hsnoc : ∀ z : MpString,
          (before ++ [z]).length + rest.length = before.length + (rest.length + 1) := by
        intro z
        rw [List.length_append, List.length_singleton]
        omega
      apply returns_of_next (turn_pair (by omega) hasked)
      by_cases hswap : asked.1 = true
      · rw [if_pos hswap, Option.map_eq_some_iff] at hcarry
        obtain ⟨q, hq, rfl⟩ := hcarry
        rw [if_pos hswap, atIndex_succ, hswap]
        apply ih hq (by rw [hsnoc]; exact hlen)
        rw [hsnoc, List.append_assoc, List.singleton_append, Bool.true_or, Bool.or_true]
        exact hreturns
      · rw [if_neg hswap, Option.map_eq_some_iff] at hcarry
        obtain ⟨q, hq, rfl⟩ := hcarry
        rw [if_neg hswap, atIndex_succ, Bool.eq_false_iff.2 hswap]
        apply ih hq (by rw [hsnoc]; exact hlen)
        rw [hsnoc, List.append_assoc, List.singleton_append, Bool.false_or]
        exact hreturns

/-- At the end of the for loop, the while loop goes on if there was an exchange. -/
theorem turn_end {users : List MpString} {i : Nat} (hlen : users.length = i + 1)
    (hi : i < 2 ^ 32) :
    turn (atIndex e users missing i swapped) =
      if swapped then some (.inl (atIndex e users missing 0 false))
      else some (.inr ({ e with priority_ := users }, missing)) := by
  have hindex : (UInt32.ofNat i).toNat = i := UInt32.toNat_ofNat_of_lt' hi
  have hout : ¬ i < users.length - 1 := by omega
  simp only [turn, atIndex, hindex, if_neg hout]
  rfl

/-- The while loop makes one pass after another. -/
theorem returns_of_passes (fuel : Nat) : ∀ {users : List MpString} {missing : List Bool}
    {p : List MpString × List Bool}, users ≠ [] → users.length ≤ 2 ^ 32 →
      passes (weightSortCmp e) fuel users missing = some p →
        Returns turn (atIndex e users missing 0 false) ({ e with priority_ := p.1 }, p.2) := by
  induction fuel with
  | zero =>
      intro users missing p _ _ hpasses
      cases hpasses
  | succ fuel ih =>
      intro users missing p hne hlen hpasses
      rw [passes, Option.bind_eq_some_iff] at hpasses
      obtain ⟨q, hq, hpasses⟩ := hpasses
      have hperm : q.1.Perm users := pass_perm _ hq
      have hne' : q.1 ≠ [] := fun hnil => hne (List.nil_perm.1 (hnil ▸ hperm))
      have hlen' : q.1.length ≤ 2 ^ 32 := hperm.length_eq.trans_le hlen
      obtain ⟨x, rest, rfl⟩ := List.exists_cons_of_ne_nil hne
      rw [List.length_cons] at hlen
      -- the pass starts with nothing in front of the index
      apply @returns_of_carry e _ rest [] x missing false q hq (by
        rw [List.length_nil]
        omega)
      have hend := @turn_end e q.2.2 q.2.1 q.1 rest.length
        (hperm.length_eq.trans (List.length_cons ..)) (by omega)
      simp only [List.nil_append, List.length_nil, Nat.zero_add, Bool.or_false]
      by_cases hswapped : q.2.1 = true
      · rw [if_pos hswapped] at hpasses hend
        exact returns_of_next hend (ih hne' hlen' hpasses)
      · rw [if_neg hswapped] at hpasses hend
        cases hpasses
        exact returns_of_exit hend

/-- **Up to 2^32 users the loop does what `Engine.sortMessages` says.** -/
theorem sortReturns_of_sortMessages {e' : MpAutoResendEngine} (hlen : e.priority_.length ≤ 2 ^ 32)
    (h : sortMessages e missing = some e') : SortReturns e missing (e', []) := by
  obtain ⟨priority, hsort, rfl⟩ := sortMessages_eq_some h
  by_cases hempty : e.priority_ = []
  · rw [hempty] at hsort
    cases hsort
    refine ⟨0, ?_⟩
    rw [sortLoop, if_pos (List.isEmpty_iff.2 hempty), ← hempty]
  · obtain ⟨fuel, hfuel⟩ := returns_of_passes _ hempty hlen hsort
    refine ⟨fuel, ?_⟩
    rw [sortLoop, if_neg (by simpa using hempty)]
    exact hfuel

end Bounded

/-! ## Beyond -/

/-- Where the index is in range, the loop goes on with a vector of that length. -/
theorem turn_in_range {l : SortLoop} {next : SortLoop ⊕ (MpAutoResendEngine × List Bool)}
    (hin : l.i.toNat < l.engine.priority_.length - 1) (h : turn l = some next) :
    ∃ l', next = .inl l' ∧ l'.engine.priority_.length = l.engine.priority_.length := by
  rw [turn, if_pos hin] at h
  cases hs : l.engine.priority_[l.i.toNat]? with
  | none => simp [hs] at h
  | some s =>
      cases ht : l.engine.priority_[(l.i + 1).toNat]? with
      | none => simp only [hs, ht, reduceCtorEq] at h
      | some t =>
          simp only [hs, ht, Option.map_eq_some_iff] at h
          obtain ⟨asked, -, rfl⟩ := h
          refine ⟨_, rfl, ?_⟩
          cases asked.1 with
          | false => rfl
          | true => simp [exchange]

/-- Every `uint32_t` is an index of a longer vector. -/
theorem in_range_of_long {l : SortLoop} (h : 2 ^ 32 < l.engine.priority_.length) :
    l.i.toNat < l.engine.priority_.length - 1 := by
  have hi : l.i.toNat < 2 ^ 32 := l.i.toNat_lt
  omega

/-- With more than 2^32 users the for loop does not end. -/
theorem not_sortReturns {e : MpAutoResendEngine} {missing : List Bool}
    {p : MpAutoResendEngine × List Bool} (h : 2 ^ 32 < e.priority_.length) :
    ¬ SortReturns e missing p := by
  rintro ⟨fuel, hfuel⟩
  have hne : ¬ e.priority_.isEmpty = true := by
    intro hempty
    rw [List.isEmpty_iff.1 hempty] at h
    cases h
  rw [sortLoop, if_neg hne] at hfuel
  have hexit : ∀ (l : SortLoop) r, 2 ^ 32 < l.engine.priority_.length →
      turn l ≠ some (.inr r) := by
    intro l r hl hturn
    obtain ⟨l', hnext, -⟩ := turn_in_range (in_range_of_long hl) hturn
    cases hnext
  have hnext : ∀ l l' : SortLoop, 2 ^ 32 < l.engine.priority_.length →
      turn l = some (.inl l') → 2 ^ 32 < l'.engine.priority_.length := by
    intro l l' hl hturn
    obtain ⟨l'', hl'', hlength⟩ := turn_in_range (in_range_of_long hl) hturn
    cases hl''
    rw [hlength]
    exact hl
  exact not_returns_of_inv hexit hnext h ⟨fuel, hfuel⟩

/-! ## The sorted users -/

/-- The loop ends at most one way. -/
theorem sortReturns_unique {e : MpAutoResendEngine} {missing : List Bool}
    {p q : MpAutoResendEngine × List Bool} (hp : SortReturns e missing p)
    (hq : SortReturns e missing q) : p = q := by
  obtain ⟨fuel, hfuel⟩ := hp
  obtain ⟨fuel', hfuel'⟩ := hq
  unfold sortLoop at hfuel hfuel'
  by_cases hempty : e.priority_.isEmpty = true
  · rw [if_pos hempty] at hfuel hfuel'
    exact Option.some.inj (hfuel.symm.trans hfuel')
  · rw [if_neg hempty] at hfuel hfuel'
    exact Returns.unique ⟨fuel, hfuel⟩ ⟨fuel', hfuel'⟩

section Sorted

variable {e : MpAutoResendEngine}

/-- Where every user has a pool, `Engine.sortMessages` sorts them stably. -/
theorem stablySorted_sortMessages (h : ∀ serial ∈ e.priority_, (e.userPool_ serial).isSome) :
    ∃ e', sortMessages e [] = some e' ∧ StablySorted e e' := by
  have hcontents : ∀ serial ∈ e.priority_, (contents e serial).isSome := by
    intro serial hserial
    rw [contents, Option.isSome_map]
    exact h serial hserial
  obtain ⟨priority, hsort⟩ := bubbleSort_total [] (weighs_priority hcontents)
  have hmessages : sortMessages e [] = some { e with priority_ := priority } := by
    rw [sortMessages, hsort]
  refine ⟨_, hmessages, rfl, bubbleSort_perm hsort, sortMessages_ordered hmessages, ?_⟩
  intro w
  -- two users of the weight `w` are never exchanged
  have hclass : ∀ s t, decide ((e.userPool_ s).map MpMsgPool.weight_ = some w) = true →
      decide ((e.userPool_ t).map MpMsgPool.weight_ = some w) = true →
        weightSortCmp e s t = some false := by
    intro s t hs ht
    obtain ⟨pool, hpool, hw⟩ := Option.map_eq_some_iff.1 (of_decide_eq_true hs)
    obtain ⟨pool', hpool', hw'⟩ := Option.map_eq_some_iff.1 (of_decide_eq_true ht)
    simp [weightSortCmp, hpool, hpool', hw, hw']
  exact bubbleSort_stable hclass hsort

/-- **Where every user has a pool, the loop ends, and sorts the users stably,
exactly up to 2^32 users.** -/
theorem sortMessages_iff (h : ∀ serial ∈ e.priority_, (e.userPool_ serial).isSome) :
    ((∃ p, SortReturns e [] p) ∧
        ∀ e' missing, SortReturns e [] (e', missing) → StablySorted e e') ↔
      e.priority_.length ≤ 2 ^ 32 := by
  constructor
  · rintro ⟨⟨p, hp⟩, -⟩
    by_contra hlen
    exact not_sortReturns (Nat.lt_of_not_le hlen) hp
  · intro hlen
    obtain ⟨e', hmessages, hsorted⟩ := stablySorted_sortMessages h
    have hreturns := sortReturns_of_sortMessages hlen hmessages
    refine ⟨⟨_, hreturns⟩, ?_⟩
    intro e'' missing hreturns'
    obtain ⟨rfl, -⟩ := Prod.mk.inj (sortReturns_unique hreturns' hreturns)
    exact hsorted

end Sorted

/-- Three users, one of them listed twice. -/
def sampleUsers : MpAutoResendEngine :=
  { MpAutoResendEngine.new [] with
    userPool_ := fun serial =>
      some ((MpMsgPool.new (sampleMessage serial)).setWeight (if serial = [97] then 1 else 3))
    priority_ := [[98], [97], [99], [98]] }

theorem sorts_sampleUsers :
    (∃ p, SortReturns sampleUsers [] p) ∧
      ∀ e' missing, SortReturns sampleUsers [] (e', missing) → StablySorted sampleUsers e' :=
  (sortMessages_iff (fun _ _ => rfl)).2 (by decide)

example : (sortLoop 10 sampleUsers []).map (fun p => p.1.priority_) =
    some [[97], [98], [99], [98]] := by decide

/-! ## Getting there

A user whose messages are removed stays in the vector, and is appended again
with the next message.
-/

section Crowding

variable (serial : MpString)

/-- The user's messages are removed and a new one is queued, while there is no
SIP stack to send it. -/
def readd : List Call :=
  [⟨.removeMessagesForSerial serial, ⟨false, []⟩⟩,
    ⟨.addMessage (sampleMessage serial), ⟨false, []⟩⟩]

def readded (e : MpAutoResendEngine) : MpAutoResendEngine :=
  addMessageInternal (removeMessagesForSerial e serial) (sampleMessage serial)

theorem exec_readd (e : MpAutoResendEngine) (calls : List Call) :
    exec call e (readd serial ++ calls) = exec call (readded serial e) calls := rfl

theorem priority_readded (e : MpAutoResendEngine) :
    (readded serial e).priority_ = e.priority_ ++ [serial] := by
  have hnone : contents (removeMessagesForSerial e serial) serial = none := by
    rw [contents_removeMessagesForSerial, Function.update_self]
  have hserial : (sampleMessage serial).userSerial_ = serial := rfl
  rw [readded, priority_addMessageInternal, hserial, hnone]
  rfl

theorem userPool_readded (e : MpAutoResendEngine) :
    ((readded serial e).userPool_ serial).isSome := by
  have hserial : (sampleMessage serial).userSerial_ = serial := rfl
  have hsome : (contents (readded serial e) serial).isSome := by
    rw [readded, contents_addMessageInternal, hserial, Function.update_self]
    rfl
  rwa [contents, Option.isSome_map] at hsome

/-- Nothing bounds how often a user is listed. -/
theorem crowded (n : Nat) (e : MpAutoResendEngine) :
    ∃ calls e', exec call e calls = some e' ∧
      e'.priority_ = e.priority_ ++ List.replicate (n + 1) serial ∧
      (e'.userPool_ serial).isSome := by
  induction n generalizing e with
  | zero => exact ⟨readd serial, _, rfl, priority_readded serial e, userPool_readded serial e⟩
  | succ n ih =>
      obtain ⟨calls, e', hcalls, hpriority, hpool⟩ := ih (readded serial e)
      refine ⟨readd serial ++ calls, e', (exec_readd serial e calls).trans hcalls, ?_, hpool⟩
      rw [hpriority, priority_readded, List.append_assoc]
      rfl

end Crowding

/-- A user can be added again so often that the loop never ends. -/
theorem crowded_never_sorted :
    ∃ calls e, exec call (MpAutoResendEngine.new []) calls = some e ∧
      (∀ serial ∈ e.priority_, (e.userPool_ serial).isSome) ∧ ¬ ∃ p, SortReturns e [] p := by
  obtain ⟨calls, e, hcalls, hpriority, hpool⟩ :=
    crowded [97] (2 ^ 32) (MpAutoResendEngine.new [])
  refine ⟨calls, e, hcalls, ?_, ?_⟩
  · intro serial hserial
    rw [hpriority] at hserial
    rw [List.eq_of_mem_replicate hserial]
    exact hpool
  · rintro ⟨p, hp⟩
    apply not_sortReturns _ hp
    rw [hpriority, List.length_append, List.length_replicate]
    exact Nat.lt_succ_self _

end EndToEndSmkex.AutoResend.Sorting
