import Mathlib.Data.List.Basic
import Mathlib.Data.List.Count

/-!
# A queue and the trail of what was in it

An account is a queue of items, known by numbers, together with a trail: which
items were added to the queue, handed to somebody, sent or dropped, in order.
Sending takes the item out of the queue, dropping takes all of them.

## Main results

* `Balanced.add`, `Balanced.hand`, `Balanced.send`, `Balanced.drop` — queue and
  trail stay balanced as long as only queued items are handed and sent.
* `Balanced.accounted` — in a balanced account nothing is lost and nothing is
  there twice.
-/

namespace EndToEndSmkex.Lib.Accounting

/-- What happens to an item. -/
inductive Mark where
  | added (tag : Nat)
  | handed (tag : Nat)
  | sent (tag : Nat)
  | dropped (tag : Nat)
  deriving DecidableEq

@[ext] structure Account where
  queue : List Nat
  trail : List Mark

namespace Account

/-- Add an item at the end. -/
def add (a : Account) (tag : Nat) : Account :=
  { queue := a.queue ++ [tag], trail := a.trail ++ [.added tag] }

/-- Hand an item to somebody; it stays in the queue. -/
def hand (a : Account) (tag : Nat) : Account :=
  { a with trail := a.trail ++ [.handed tag] }

/-- The item was sent. -/
def send (a : Account) (tag : Nat) : Account :=
  { queue := a.queue.erase tag, trail := a.trail ++ [.sent tag] }

/-- Give up everything that is queued. -/
def drop (a : Account) : Account :=
  { queue := [], trail := a.trail ++ a.queue.map .dropped }

end Account

/-- Every item that was added is either still queued or was sent once or was
dropped, the queue keeps the order of the numbers, and what was sent is not
handed over again. -/
structure Accounted (a : Account) : Prop where
  once : ∀ tag, .added tag ∈ a.trail →
    a.queue.count tag + a.trail.count (.sent tag) + a.trail.count (.dropped tag) = 1
  inOrder : a.queue.Pairwise (· < ·)
  settled : a.trail.Pairwise fun x y => ∀ tag, x = .sent tag → y ≠ .handed tag

/-- The invariant of an account whose items carry numbers below `bound`. -/
structure Balanced (a : Account) (bound : Nat) : Prop where
  balance : ∀ tag, a.queue.count tag + a.trail.count (.sent tag) +
    a.trail.count (.dropped tag) = a.trail.count (.added tag)
  atMostOnce : ∀ tag, a.trail.count (.added tag) ≤ 1
  below : ∀ tag, .added tag ∈ a.trail → tag < bound
  inOrder : a.queue.Pairwise (· < ·)
  settled : a.trail.Pairwise fun x y => ∀ tag, x = .sent tag → y ≠ .handed tag

variable {a : Account} {bound tag : Nat}

theorem balanced_nil (bound : Nat) : Balanced { queue := [], trail := [] } bound where
  balance _ := rfl
  atMostOnce _ := Nat.zero_le 1
  below _ h := by cases h
  inOrder := List.Pairwise.nil
  settled := List.Pairwise.nil

theorem Balanced.accounted (h : Balanced a bound) : Accounted a where
  once tag hadded := by
    have hpos : 0 < a.trail.count (.added tag) := List.count_pos_iff.2 hadded
    have hbalance := h.balance tag
    have honce := h.atMostOnce tag
    omega
  inOrder := h.inOrder
  settled := h.settled

/-- An item that is queued and was sent is there twice. -/
theorem not_accounted (hadded : .added tag ∈ a.trail) (hqueued : tag ∈ a.queue)
    (hsent : .sent tag ∈ a.trail) : ¬ Accounted a := by
  intro h
  have honce := h.once tag hadded
  have hqueued : 0 < a.queue.count tag := List.count_pos_iff.2 hqueued
  have hsent : 0 < a.trail.count (.sent tag) := List.count_pos_iff.2 hsent
  omega

theorem Balanced.mono (h : Balanced a bound) {bound' : Nat} (hle : bound ≤ bound') :
    Balanced a bound' :=
  { h with below := fun tag htag => Nat.lt_of_lt_of_le (h.below tag htag) hle }

/-- What is queued has been added. -/
theorem Balanced.added_of_mem (h : Balanced a bound) (htag : tag ∈ a.queue) :
    .added tag ∈ a.trail := by
  have hpos : 0 < a.queue.count tag := List.count_pos_iff.2 htag
  have hbalance := h.balance tag
  exact List.count_pos_iff.1 (by omega)

/-- What is queued has not been sent. -/
theorem Balanced.not_sent_of_mem (h : Balanced a bound) (htag : tag ∈ a.queue) :
    .sent tag ∉ a.trail := by
  intro hsent
  have hqueued : 0 < a.queue.count tag := List.count_pos_iff.2 htag
  have hsent : 0 < a.trail.count (.sent tag) := List.count_pos_iff.2 hsent
  have hbalance := h.balance tag
  have honce := h.atMostOnce tag
  omega

/-- Appending marks that hand nothing over, or only what was not sent. -/
theorem settled_append {xs ys : List Mark}
    (hxs : xs.Pairwise fun x y => ∀ tag, x = .sent tag → y ≠ .handed tag)
    (hys : ys.Pairwise fun x y => ∀ tag, x = .sent tag → y ≠ .handed tag)
    (hnew : ∀ tag, .handed tag ∈ ys → .sent tag ∉ xs) :
    (xs ++ ys).Pairwise fun x y => ∀ tag, x = .sent tag → y ≠ .handed tag := by
  refine List.pairwise_append.2 ⟨hxs, hys, ?_⟩
  intro x hx y hy tag hsent hhanded
  subst hsent hhanded
  exact hnew tag hy hx

theorem Balanced.add (h : Balanced a bound) : Balanced (a.add bound) (bound + 1) where
  balance tag := by
    have hbalance := h.balance tag
    simp only [Account.add, List.count_append, List.count_singleton]
    simp only [beq_iff_eq, Mark.added.injEq, reduceCtorEq, if_false]
    omega
  atMostOnce tag := by
    have honce := h.atMostOnce tag
    simp only [Account.add, List.count_append, List.count_singleton, beq_iff_eq,
      Mark.added.injEq]
    by_cases hnew : bound = tag
    · have hold : a.trail.count (.added tag) = 0 := by
        refine List.count_eq_zero.2 ?_
        intro hmem
        have hlt := h.below tag hmem
        omega
      simp [hnew, hold]
    · simp only [hnew, if_false]
      omega
  below tag htag := by
    simp only [Account.add, List.mem_append, List.mem_singleton, Mark.added.injEq] at htag
    rcases htag with hold | hnew
    · have hlt := h.below tag hold
      omega
    · omega
  inOrder := by
    refine List.pairwise_append.2 ⟨h.inOrder, List.pairwise_singleton _ _, ?_⟩
    intro tag htag n hn
    rw [List.mem_singleton.1 hn]
    exact h.below tag (h.added_of_mem htag)
  settled := settled_append h.settled (List.pairwise_singleton _ _) (by simp)

theorem Balanced.hand (h : Balanced a bound) (htag : tag ∈ a.queue) :
    Balanced (a.hand tag) bound where
  balance t := by
    have hbalance := h.balance t
    simp only [Account.hand, List.count_append, List.count_singleton]
    simpa using hbalance
  atMostOnce t := by
    have honce := h.atMostOnce t
    simp only [Account.hand, List.count_append, List.count_singleton]
    simpa using honce
  below t ht := by
    simp only [Account.hand, List.mem_append, List.mem_singleton, reduceCtorEq, or_false] at ht
    exact h.below t ht
  inOrder := h.inOrder
  settled := by
    refine settled_append h.settled (List.pairwise_singleton _ _) ?_
    intro t ht
    rw [List.mem_singleton, Mark.handed.injEq] at ht
    rw [ht]
    exact h.not_sent_of_mem htag

theorem Balanced.send (h : Balanced a bound) (htag : tag ∈ a.queue) :
    Balanced (a.send tag) bound where
  balance t := by
    have hbalance := h.balance t
    have hpos : 0 < a.queue.count tag := List.count_pos_iff.2 htag
    simp only [Account.send, List.count_append, List.count_singleton, List.count_erase]
    by_cases ht : tag = t
    · subst ht
      simp
      omega
    · simp [ht]
      omega
  atMostOnce t := by
    have honce := h.atMostOnce t
    simp only [Account.send, List.count_append, List.count_singleton]
    simpa using honce
  below t ht := by
    simp only [Account.send, List.mem_append, List.mem_singleton, reduceCtorEq, or_false] at ht
    exact h.below t ht
  inOrder := h.inOrder.sublist List.erase_sublist
  settled := settled_append h.settled (List.pairwise_singleton _ _) (by simp)

theorem Balanced.drop (h : Balanced a bound) : Balanced a.drop bound where
  balance t := by
    have hbalance := h.balance t
    have hdropped : (a.queue.map Mark.dropped).count (.dropped t) = a.queue.count t :=
      List.count_map_of_injective _ _ (fun _ _ heq => by cases heq; rfl) t
    have hsent : (a.queue.map Mark.dropped).count (.sent t) = 0 :=
      List.count_eq_zero.2 (by simp)
    have hadded : (a.queue.map Mark.dropped).count (.added t) = 0 :=
      List.count_eq_zero.2 (by simp)
    simp only [Account.drop, List.count_append, List.count_nil, hdropped, hsent, hadded]
    omega
  atMostOnce t := by
    have honce := h.atMostOnce t
    have hadded : (a.queue.map Mark.dropped).count (.added t) = 0 :=
      List.count_eq_zero.2 (by simp)
    simp only [Account.drop, List.count_append, hadded]
    omega
  below t ht := by
    simp only [Account.drop, List.mem_append, List.mem_map, reduceCtorEq, and_false,
      exists_false, or_false] at ht
    exact h.below t ht
  inOrder := List.Pairwise.nil
  settled := by
    refine settled_append h.settled ?_ (by simp)
    refine List.pairwise_of_forall_mem_list ?_
    intro x hx y hy t hsent hhanded
    subst hsent
    simp at hx

end EndToEndSmkex.Lib.Accounting
