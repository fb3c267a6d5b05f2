import Mathlib.Data.List.Count
import Mathlib.Algebra.Order.Group.Int
import Mathlib.Algebra.Order.Group.Abs

/-!
# Serving the least first

Two users among many are served from time to time.  Each has a weight, which
being served raises by one.  When one of the two is served, its weight is no
more than the other's.  Then the weights stay close, and so do the numbers of
times that the two were served.

## Main results

* `LeastFirst.difference_le` — the difference of the weights never passes 1 on
  its own account.
* `share_difference_le` — how far apart the shares can be, whoever is served
  first.
-/

namespace EndToEndSmkex.Lib.FairShare

variable {α : Type*} [BEq α]

/-- The weight of a user after `x` was served. -/
def raise (user x : α) (weight : Int) : Int := if x == user then weight + 1 else weight

/-- From these weights of `u` and `v`, whenever one of the two is served it does
not weigh more than the other. -/
def LeastFirst (u v : α) : Int → Int → List α → Prop
  | _, _, [] => True
  | a, b, x :: served =>
    (x = u → a ≤ b) ∧ (x = v → b ≤ a) ∧ LeastFirst u v (raise u x a) (raise v x b) served

variable {u v : α}

theorem raise_self [LawfulBEq α] (user : α) (weight : Int) :
    raise user user weight = weight + 1 :=
  if_pos (beq_self_eq_true user)

theorem raise_of_ne [LawfulBEq α] {user x : α} (h : x ≠ user) (weight : Int) :
    raise user x weight = weight :=
  if_neg fun hx => h (eq_of_beq hx)

theorem LeastFirst.symm (served : List α) : ∀ {a b : Int},
    LeastFirst u v a b served → LeastFirst v u b a served := by
  induction served with
  | nil => intro a b _; trivial
  | cons x served ih =>
      intro a b h
      exact ⟨h.2.1, h.1, ih h.2.2⟩

/-- Counting from the front is raising the count. -/
theorem count_cons_int (user x : α) (served : List α) :
    (((x :: served).count user : Nat) : Int) = raise user x (served.count user) := by
  rw [List.count_cons, raise]
  by_cases hx : (x == user) = true
  · rw [if_pos hx, if_pos hx, Int.natCast_add]
    rfl
  · rw [if_neg hx, if_neg hx, Nat.add_zero]

/-- A difference of more than one was there before. -/
theorem LeastFirst.difference_le [LawfulBEq α] (served : List α) : ∀ {a b : Int},
    LeastFirst u v a b served →
      a + served.count u - (b + served.count v) ≤ max (a - b) 1 := by
  induction served with
  | nil =>
      intro a b _
      simp
  | cons x served ih =>
      intro a b h
      have hrest := ih h.2.2
      rw [count_cons_int, count_cons_int]
      unfold raise at hrest ⊢
      by_cases hu : (x == u) = true
      · have hab := h.1 (eq_of_beq hu)
        by_cases hv : (x == v) = true
        · simp only [if_pos hu, if_pos hv] at hrest ⊢
          omega
        · simp only [if_pos hu, if_neg hv] at hrest ⊢
          omega
      · by_cases hv : (x == v) = true
        · have hba := h.2.1 (eq_of_beq hv)
          simp only [if_neg hu, if_pos hv] at hrest ⊢
          omega
        · simp only [if_neg hu, if_neg hv] at hrest ⊢
          omega

/-- **Fair shares.**  Whoever is served first, and the least of the two
afterwards: the shares differ by no more than one and the difference of the
weights at the start. -/
theorem share_difference_le [LawfulBEq α] {a b : Int} {x : α} {served : List α}
    (h : LeastFirst u v (raise u x a) (raise v x b) served) :
    |((x :: served).count u : Int) - ((x :: served).count v : Int)| ≤ 1 + |a - b| := by
  have hu := h.difference_le
  have hv := h.symm.difference_le
  rw [count_cons_int, count_cons_int]
  unfold raise at hu hv ⊢
  have habs : a - b ≤ |a - b| ∧ b - a ≤ |a - b| :=
    ⟨le_abs_self _, by rw [abs_sub_comm]; exact le_abs_self _⟩
  rw [abs_le]
  by_cases hxu : (x == u) = true
  · by_cases hxv : (x == v) = true
    · simp only [if_pos hxu, if_pos hxv] at hu hv ⊢
      omega
    · simp only [if_pos hxu, if_neg hxv] at hu hv ⊢
      omega
  · by_cases hxv : (x == v) = true
    · simp only [if_neg hxu, if_pos hxv] at hu hv ⊢
      omega
    · simp only [if_neg hxu, if_neg hxv] at hu hv ⊢
      omega

end EndToEndSmkex.Lib.FairShare
