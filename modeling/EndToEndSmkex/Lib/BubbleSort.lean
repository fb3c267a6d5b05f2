import Mathlib.Data.List.Basic
import Mathlib.Data.List.Count
import Mathlib.Order.Lattice

/-!
# Bubble sort over a partial comparison

`bubbleSort greater` compares neighbours from the left and exchanges those of
which the first is the greater, until a pass exchanges nothing.  The comparison
may be undefined (`none`); what the program then does with the two elements is
taken, comparison after comparison, from a list of answers.

## Main results

* `bubbleSort_perm` — whatever is answered, the result is a rearrangement.
* `bubbleSort_stable` — elements of which none is the greater keep their order.
* `bubbleSort_inOrder` — where no answer is used, the result is in order.
* `bubbleSort_of_inOrder` — what is in order stays as it is.
* `bubbleSort_total` — where the comparison is that of a weight function, the
  loop ends and no answer is used.
* `bubbleSort_answered` — answers by which the loop does what it does with a
  comparison that is defined everywhere.
-/

namespace EndToEndSmkex.Lib.BubbleSort

variable {α : Type*}

/-- A comparison, or the next answer where it is undefined. -/
def ask : Option Bool → List Bool → Option (Bool × List Bool)
  | some b, answers => some (b, answers)
  | none, b :: answers => some (b, answers)
  | none, [] => none

/-- Carry `x` to the right, leaving it behind at the first element it is not
greater than and going on with that one: the elements, whether two were
exchanged, and the answers left. -/
def carry (greater : α → α → Option Bool) (x : α) :
    List α → List Bool → Option (List α × Bool × List Bool)
  | [], answers => some ([x], false, answers)
  | y :: rest, answers =>
      (ask (greater x y) answers).bind fun asked =>
        if asked.1 then
          (carry greater x rest asked.2).map fun p => (y :: p.1, true, p.2.2)
        else
          (carry greater y rest asked.2).map fun p => (x :: p.1, p.2.1, p.2.2)

/-- One pass over the list. -/
def pass (greater : α → α → Option Bool) :
    List α → List Bool → Option (List α × Bool × List Bool)
  | [], answers => some ([], false, answers)
  | x :: rest, answers => carry greater x rest answers

/-- At most `fuel` passes. -/
def passes (greater : α → α → Option Bool) :
    Nat → List α → List Bool → Option (List α × List Bool)
  | 0, _, _ => none
  | fuel + 1, xs, answers =>
      (pass greater xs answers).bind fun p =>
        if p.2.1 then passes greater fuel p.1 p.2.2 else some (p.1, p.2.2)

/-- Passes until nothing is exchanged.  With every comparison defined there are
at most as many as there are pairs of elements, and a pass over an undefined one
uses up an answer. -/
def bubbleSort (greater : α → α → Option Bool) (xs : List α) (answers : List Bool) :
    Option (List α × List Bool) :=
  passes greater (xs.length * xs.length + answers.length + 1) xs answers

/-! ## Rearrangement -/

theorem carry_perm (greater : α → α → Option Bool) (xs : List α) :
    ∀ {x : α} {answers : List Bool} {p : List α × Bool × List Bool},
      carry greater x xs answers = some p → p.1.Perm (x :: xs) := by
  induction xs with
  | nil =>
      intro x answers p h
      cases h
      exact List.Perm.refl [x]
  | cons y rest ih =>
      intro x answers p h
      rw [carry, Option.bind_eq_some_iff] at h
      obtain ⟨asked, -, h⟩ := h
      by_cases hswap : asked.1 = true
      · rw [if_pos hswap, Option.map_eq_some_iff] at h
        obtain ⟨q, hq, rfl⟩ := h
        exact ((ih hq).cons y).trans (List.Perm.swap x y rest)
      · rw [if_neg hswap, Option.map_eq_some_iff] at h
        obtain ⟨q, hq, rfl⟩ := h
        exact (ih hq).cons x

theorem pass_perm (greater : α → α → Option Bool) {xs : List α} {answers : List Bool}
    {p : List α × Bool × List Bool} (h : pass greater xs answers = some p) :
    p.1.Perm xs := by
  cases xs with
  | nil =>
      cases h
      exact List.Perm.refl []
  | cons x rest => exact carry_perm greater rest h

theorem passes_perm (greater : α → α → Option Bool) (fuel : Nat) :
    ∀ {xs : List α} {answers : List Bool} {p : List α × List Bool},
      passes greater fuel xs answers = some p → p.1.Perm xs := by
  induction fuel with
  | zero =>
      intro xs answers p h
      cases h
  | succ fuel ih =>
      intro xs answers p h
      rw [passes, Option.bind_eq_some_iff] at h
      obtain ⟨q, hq, h⟩ := h
      have hperm := pass_perm greater hq
      by_cases hswapped : q.2.1 = true
      · rw [if_pos hswapped] at h
        exact (ih h).trans hperm
      · rw [if_neg hswapped] at h
        cases h
        exact hperm

theorem bubbleSort_perm {greater : α → α → Option Bool} {xs : List α}
    {answers : List Bool} {p : List α × List Bool}
    (h : bubbleSort greater xs answers = some p) : p.1.Perm xs :=
  passes_perm greater _ h

/-! ## Stability

Neighbours of which the first is known not to be the greater are left where they
are.  So a class of elements of which none is greater than another keeps its
order, whatever is done with the elements in between.
-/

section Stable

variable {greater : α → α → Option Bool} {p : α → Bool}

/-- Exchanging two neighbours that are not both in the class. -/
theorem filter_swap {x y : α} (h : ¬ (p x = true ∧ p y = true)) (rest : List α) :
    (y :: x :: rest).filter p = (x :: y :: rest).filter p := by
  by_cases hx : p x = true
  · have hy : ¬ p y = true := fun hy => h ⟨hx, hy⟩
    rw [List.filter_cons_of_neg hy, List.filter_cons_of_pos hx, List.filter_cons_of_pos hx,
      List.filter_cons_of_neg hy]
  · rw [List.filter_cons_of_neg hx, List.filter_cons, List.filter_cons_of_neg hx,
      List.filter_cons]

variable (hclass : ∀ x y, p x = true → p y = true → greater x y = some false)
include hclass

theorem carry_stable (xs : List α) :
    ∀ {x : α} {answers : List Bool} {q : List α × Bool × List Bool},
      carry greater x xs answers = some q → q.1.filter p = (x :: xs).filter p := by
  induction xs with
  | nil =>
      intro x answers q h
      cases h
      rfl
  | cons y rest ih =>
      intro x answers q h
      rw [carry, Option.bind_eq_some_iff] at h
      obtain ⟨asked, hasked, h⟩ := h
      by_cases hswap : asked.1 = true
      · rw [if_pos hswap, Option.map_eq_some_iff] at h
        obtain ⟨r, hr, rfl⟩ := h
        have hnot : ¬ (p x = true ∧ p y = true) := by
          rintro ⟨hx, hy⟩
          rw [hclass x y hx hy] at hasked
          cases hasked
          cases hswap
        calc (y :: r.1).filter p = (y :: x :: rest).filter p := by
              rw [List.filter_cons, ih hr, ← List.filter_cons]
          _ = (x :: y :: rest).filter p := filter_swap hnot rest
      · rw [if_neg hswap, Option.map_eq_some_iff] at h
        obtain ⟨r, hr, rfl⟩ := h
        rw [List.filter_cons, ih hr, ← List.filter_cons]

theorem pass_stable {xs : List α} {answers : List Bool} {q : List α × Bool × List Bool}
    (h : pass greater xs answers = some q) : q.1.filter p = xs.filter p := by
  cases xs with
  | nil =>
      cases h
      rfl
  | cons x rest => exact carry_stable hclass rest h

theorem passes_stable (fuel : Nat) : ∀ {xs : List α} {answers : List Bool}
    {q : List α × List Bool}, passes greater fuel xs answers = some q →
      q.1.filter p = xs.filter p := by
  induction fuel with
  | zero =>
      intro xs answers q h
      cases h
  | succ fuel ih =>
      intro xs answers q h
      rw [passes, Option.bind_eq_some_iff] at h
      obtain ⟨r, hr, h⟩ := h
      have hpass := pass_stable hclass hr
      by_cases hswapped : r.2.1 = true
      · rw [if_pos hswapped] at h
        exact (ih h).trans hpass
      · rw [if_neg hswapped] at h
        cases h
        exact hpass

theorem bubbleSort_stable {xs : List α} {answers : List Bool} {q : List α × List Bool}
    (h : bubbleSort greater xs answers = some q) : q.1.filter p = xs.filter p :=
  passes_stable hclass _ h

end Stable

/-- Of two members the first is the one before which the other does not occur. -/
theorem head_filter_pair [DecidableEq α] {l : List α} {u v : α} (hu : u ∈ l)
    (hne : v ≠ u) :
    (l.filter fun s => s = v ∨ s = u).head? = some u ↔ v ∉ l.takeWhile (· ≠ u) := by
  induction l with
  | nil => cases hu
  | cons x rest ih =>
      by_cases hxu : x = u
      · subst hxu
        simp
      · have hrest : u ∈ rest := (List.mem_cons.1 hu).resolve_left fun h => hxu h.symm
        by_cases hxv : x = v
        · subst hxv
          simp [hne]
        · have hvx : v ≠ x := fun h => hxv h.symm
          simpa [hxu, hxv, hvx] using ih hrest

/-! ## Order

A pass that exchanges nothing has compared every two neighbours, and where no
answer was used their comparison says that they stand in order.
-/

/-- The comparison is defined, and the first is not the greater. -/
def InOrder (greater : α → α → Option Bool) (x y : α) : Prop :=
  greater x y = some false

theorem ask_nil {o : Option Bool} {asked : Bool × List Bool} (h : ask o [] = some asked) :
    o = some asked.1 ∧ asked.2 = [] := by
  cases o with
  | none => cases h
  | some b =>
      cases h
      exact ⟨rfl, rfl⟩

theorem carry_inOrder (greater : α → α → Option Bool) (xs : List α) :
    ∀ {x : α} {p : List α × Bool × List Bool}, carry greater x xs [] = some p →
      p.2.2 = [] ∧ (p.2.1 = false → p.1 = x :: xs ∧ (x :: xs).IsChain (InOrder greater)) := by
  induction xs with
  | nil =>
      intro x p h
      cases h
      exact ⟨rfl, fun _ => ⟨rfl, List.IsChain.singleton x⟩⟩
  | cons y rest ih =>
      intro x p h
      rw [carry, Option.bind_eq_some_iff] at h
      obtain ⟨asked, hasked, h⟩ := h
      obtain ⟨hcmp, hleft⟩ := ask_nil hasked
      rw [hleft] at h
      by_cases hswap : asked.1 = true
      · rw [if_pos hswap, Option.map_eq_some_iff] at h
        obtain ⟨q, hq, rfl⟩ := h
        exact ⟨(ih hq).1, fun hno => by cases hno⟩
      · rw [if_neg hswap, Option.map_eq_some_iff] at h
        obtain ⟨q, hq, rfl⟩ := h
        have hfalse : asked.1 = false := Bool.eq_false_iff.2 hswap
        refine ⟨(ih hq).1, ?_⟩
        intro hno
        obtain ⟨hsame, hchain⟩ := (ih hq).2 hno
        have hxy : InOrder greater x y := by rw [InOrder, hcmp, hfalse]
        exact ⟨by rw [hsame], List.isChain_cons_cons.2 ⟨hxy, hchain⟩⟩

theorem pass_inOrder {greater : α → α → Option Bool} {xs : List α}
    {p : List α × Bool × List Bool} (h : pass greater xs [] = some p) :
    p.2.2 = [] ∧ (p.2.1 = false → p.1.IsChain (InOrder greater)) := by
  cases xs with
  | nil =>
      cases h
      exact ⟨rfl, fun _ => List.IsChain.nil⟩
  | cons x rest =>
      obtain ⟨hleft, hchain⟩ := carry_inOrder greater rest h
      refine ⟨hleft, fun hno => ?_⟩
      rw [(hchain hno).1]
      exact (hchain hno).2

theorem passes_inOrder (greater : α → α → Option Bool) (fuel : Nat) :
    ∀ {xs : List α} {p : List α × List Bool}, passes greater fuel xs [] = some p →
      p.1.IsChain (InOrder greater) := by
  induction fuel with
  | zero =>
      intro xs p h
      cases h
  | succ fuel ih =>
      intro xs p h
      rw [passes, Option.bind_eq_some_iff] at h
      obtain ⟨q, hq, h⟩ := h
      obtain ⟨hleft, hchain⟩ := pass_inOrder hq
      by_cases hswapped : q.2.1 = true
      · rw [if_pos hswapped, hleft] at h
        exact ih h
      · rw [if_neg hswapped] at h
        cases h
        exact hchain (Bool.eq_false_iff.2 hswapped)

/-- Where no answer was used, the result is in order. -/
theorem bubbleSort_inOrder {greater : α → α → Option Bool} {xs : List α}
    {p : List α × List Bool} (h : bubbleSort greater xs [] = some p) :
    p.1.IsChain (InOrder greater) :=
  passes_inOrder greater _ h

theorem carry_of_inOrder {greater : α → α → Option Bool} {xs : List α} {answers : List Bool} :
    ∀ {x : α}, (x :: xs).IsChain (InOrder greater) →
      carry greater x xs answers = some (x :: xs, false, answers) := by
  induction xs with
  | nil =>
      intro x _
      rfl
  | cons y rest ih =>
      intro x h
      obtain ⟨hxy, hrest⟩ := List.isChain_cons_cons.1 h
      rw [carry, show greater x y = some false from hxy]
      show (carry greater y rest answers).map _ = _
      rw [ih hrest]
      rfl

/-- What is in order stays as it is. -/
theorem bubbleSort_of_inOrder {greater : α → α → Option Bool} {xs : List α}
    (h : xs.IsChain (InOrder greater)) (answers : List Bool) :
    bubbleSort greater xs answers = some (xs, answers) := by
  have hpass : pass greater xs answers = some (xs, false, answers) := by
    cases xs with
    | nil => rfl
    | cons x rest => exact carry_of_inOrder h
  rw [bubbleSort, passes, hpass]
  rfl

/-! ## Termination

Exchanging neighbours that stand in the wrong order takes one pair away from
those that do.
-/

section Weighted

variable {β : Type*} [LinearOrder β] (w : α → β)

/-- The number of pairs that stand in the wrong order. -/
def inversions : List α → Nat
  | [] => 0
  | x :: xs => xs.countP (fun y => decide (w y < w x)) + inversions xs

theorem inversions_le (xs : List α) : inversions w xs ≤ xs.length * xs.length := by
  induction xs with
  | nil => exact Nat.le_refl 0
  | cons x xs ih =>
      have hcount : xs.countP (fun y => decide (w y < w x)) ≤ xs.length :=
        List.countP_le_length
      have hsquare : (xs.length + 1) * (xs.length + 1) =
          xs.length * xs.length + 2 * xs.length + 1 := by
        rw [Nat.add_mul, Nat.mul_add, Nat.one_mul, Nat.mul_one]
        omega
      simp only [inversions, List.length_cons]
      omega

/-- Which elements follow matters to the inversions in front, not their order. -/
theorem inversions_cons_perm (x : α) {xs ys : List α} (h : ys.Perm xs) :
    inversions w (x :: ys) =
      xs.countP (fun y => decide (w y < w x)) + inversions w ys := by
  simp only [inversions, h.countP_eq]

/-- The comparison of two members is that of their weights. -/
def Weighs (greater : α → α → Option Bool) (xs : List α) : Prop :=
  ∀ x ∈ xs, ∀ y ∈ xs, greater x y = some (decide (w y < w x))

variable {w} {greater : α → α → Option Bool}

theorem Weighs.subset {xs ys : List α} (h : Weighs w greater xs) (hsub : ys ⊆ xs) :
    Weighs w greater ys :=
  fun x hx y hy => h x (hsub hx) y (hsub hy)

theorem carry_weighs (xs : List α) : ∀ {x : α} (answers : List Bool),
    Weighs w greater (x :: xs) →
      ∃ ys swapped, carry greater x xs answers = some (ys, swapped, answers) ∧
        inversions w ys + swapped.toNat ≤ inversions w (x :: xs) := by
  induction xs with
  | nil =>
      intro x answers _
      exact ⟨[x], false, rfl, Nat.le_refl _⟩
  | cons y rest ih =>
      intro x answers h
      have hcmp : greater x y = some (decide (w y < w x)) := h x (by simp) y (by simp)
      by_cases hlt : w y < w x
      · have hrest : Weighs w greater (x :: rest) := h.subset (by simp)
        obtain ⟨ys, swapped, hcarry, hle⟩ := ih answers hrest
        refine ⟨y :: ys, true, by simp [carry, hcmp, hlt, ask, hcarry], ?_⟩
        have hperm : ys.Perm (x :: rest) := carry_perm greater rest hcarry
        have hno : ¬ w x < w y := not_lt.2 (le_of_lt hlt)
        rw [inversions_cons_perm w y hperm]
        simp only [inversions, List.countP_cons, hlt, hno, decide_true, decide_false,
          Bool.toNat_true, if_true, Bool.false_eq_true, if_false] at hle ⊢
        omega
      · have hrest : Weighs w greater (y :: rest) := h.subset (by simp)
        obtain ⟨ys, swapped, hcarry, hle⟩ := ih answers hrest
        refine ⟨x :: ys, swapped, by simp [carry, hcmp, hlt, ask, hcarry], ?_⟩
        have hperm : ys.Perm (y :: rest) := carry_perm greater rest hcarry
        rw [inversions_cons_perm w x hperm]
        simp only [inversions] at hle ⊢
        omega

theorem pass_weighs {xs : List α} (answers : List Bool) (h : Weighs w greater xs) :
    ∃ ys swapped, pass greater xs answers = some (ys, swapped, answers) ∧
      inversions w ys + swapped.toNat ≤ inversions w xs := by
  cases xs with
  | nil => exact ⟨[], false, rfl, Nat.le_refl _⟩
  | cons x rest => exact carry_weighs rest answers h

theorem passes_total (fuel : Nat) : ∀ {xs : List α} (answers : List Bool),
    Weighs w greater xs → inversions w xs < fuel →
      ∃ ys, passes greater fuel xs answers = some (ys, answers) := by
  induction fuel with
  | zero =>
      intro xs answers _ hlt
      omega
  | succ fuel ih =>
      intro xs answers h hlt
      obtain ⟨ys, swapped, hpass, hle⟩ := pass_weighs answers h
      cases swapped with
      | false => exact ⟨ys, by simp [passes, hpass]⟩
      | true =>
          have hys : Weighs w greater ys := h.subset (pass_perm greater hpass).subset
          have hfuel : inversions w ys < fuel := by
            simp only [Bool.toNat_true] at hle
            omega
          obtain ⟨zs, hzs⟩ := ih answers hys hfuel
          exact ⟨zs, by simp [passes, hpass, hzs]⟩

theorem bubbleSort_total {xs : List α} (answers : List Bool) (h : Weighs w greater xs) :
    ∃ ys, bubbleSort greater xs answers = some (ys, answers) := by
  have hle := inversions_le w xs
  exact passes_total _ answers h (by omega)

end Weighted

/-! ## Answers

A comparison that is defined everywhere fills the gaps of a partial one that it
agrees with.  What it says in the gaps are the answers.
-/

section Answered

variable {greater : α → α → Option Bool} {whole : α → α → Bool}

/-- Where the partial comparison is defined, it is this one. -/
def Fills (whole : α → α → Bool) (greater : α → α → Option Bool) : Prop :=
  ∀ x y b, greater x y = some b → whole x y = b

/-- The comparison with its gaps filled. -/
def filled (whole : α → α → Bool) (x y : α) : Option Bool := some (whole x y)

theorem ask_answered (hfills : Fills whole greater) (x y : α) :
    ∃ answers, ∀ more, ask (greater x y) (answers ++ more) = some (whole x y, more) := by
  cases hcmp : greater x y with
  | none => exact ⟨[whole x y], fun more => rfl⟩
  | some b =>
      refine ⟨[], fun more => ?_⟩
      rw [hfills x y b hcmp]
      rfl

theorem carry_answered (hfills : Fills whole greater) (xs : List α) :
    ∀ {x : α} {ys : List α} {swapped : Bool},
      carry (filled whole) x xs [] = some (ys, swapped, []) →
        ∃ answers, ∀ more, carry greater x xs (answers ++ more) = some (ys, swapped, more) := by
  induction xs with
  | nil =>
      intro x ys swapped h
      cases h
      exact ⟨[], fun more => rfl⟩
  | cons y rest ih =>
      intro x ys swapped h
      obtain ⟨first, hfirst⟩ := ask_answered hfills x y
      rw [carry, Option.bind_eq_some_iff] at h
      obtain ⟨asked, hasked, h⟩ := h
      obtain rfl : (whole x y, []) = asked := Option.some.inj hasked
      by_cases hswap : whole x y = true
      · rw [if_pos hswap, Option.map_eq_some_iff] at h
        obtain ⟨⟨zs, s, left⟩, hcarry, h⟩ := h
        cases h
        obtain ⟨answers, hanswers⟩ := ih hcarry
        refine ⟨first ++ answers, fun more => ?_⟩
        rw [List.append_assoc, carry, hfirst, Option.bind_some, if_pos hswap, hanswers]
        rfl
      · rw [if_neg hswap, Option.map_eq_some_iff] at h
        obtain ⟨⟨zs, s, left⟩, hcarry, h⟩ := h
        cases h
        obtain ⟨answers, hanswers⟩ := ih hcarry
        refine ⟨first ++ answers, fun more => ?_⟩
        rw [List.append_assoc, carry, hfirst, Option.bind_some, if_neg hswap, hanswers]
        rfl

theorem pass_answered (hfills : Fills whole greater) {xs ys : List α} {swapped : Bool}
    (h : pass (filled whole) xs [] = some (ys, swapped, [])) :
    ∃ answers, ∀ more, pass greater xs (answers ++ more) = some (ys, swapped, more) := by
  cases xs with
  | nil =>
      cases h
      exact ⟨[], fun more => rfl⟩
  | cons x rest => exact carry_answered hfills rest h

theorem passes_answered (hfills : Fills whole greater) (fuel : Nat) :
    ∀ {xs ys : List α}, passes (filled whole) fuel xs [] = some (ys, []) →
      ∃ answers, ∀ more, passes greater fuel xs (answers ++ more) = some (ys, more) := by
  induction fuel with
  | zero =>
      intro xs ys h
      cases h
  | succ fuel ih =>
      intro xs ys h
      rw [passes, Option.bind_eq_some_iff] at h
      obtain ⟨⟨zs, swapped, left⟩, hpass, h⟩ := h
      obtain rfl : left = [] := (pass_inOrder hpass).1
      obtain ⟨first, hfirst⟩ := pass_answered hfills hpass
      cases swapped with
      | true =>
          obtain ⟨answers, hanswers⟩ := ih h
          refine ⟨first ++ answers, fun more => ?_⟩
          rw [List.append_assoc, passes, hfirst]
          exact hanswers more
      | false =>
          cases h
          refine ⟨first, fun more => ?_⟩
          rw [passes, hfirst]
          rfl

/-- More passes are allowed than are made. -/
theorem passes_mono {fuel more : Nat} (hle : fuel ≤ more) : ∀ {xs : List α}
    {answers : List Bool} {q : List α × List Bool},
      passes greater fuel xs answers = some q → passes greater more xs answers = some q := by
  induction fuel generalizing more with
  | zero =>
      intro xs answers q h
      cases h
  | succ fuel ih =>
      intro xs answers q h
      obtain ⟨more, rfl⟩ : ∃ n, more = n + 1 := ⟨more - 1, by omega⟩
      rw [passes, Option.bind_eq_some_iff] at h ⊢
      obtain ⟨p, hpass, h⟩ := h
      refine ⟨p, hpass, ?_⟩
      by_cases hswapped : p.2.1 = true
      · rw [if_pos hswapped] at h ⊢
        exact ih (by omega) h
      · rw [if_neg hswapped] at h ⊢
        exact h

theorem bubbleSort_answered (hfills : Fills whole greater) {xs ys : List α}
    (h : bubbleSort (filled whole) xs [] = some (ys, [])) :
    ∃ answers, bubbleSort greater xs answers = some (ys, []) := by
  obtain ⟨answers, hanswers⟩ := passes_answered hfills _ h
  refine ⟨answers, passes_mono ?_ (List.append_nil answers ▸ hanswers [])⟩
  simp only [List.length_nil]
  omega

end Answered

end EndToEndSmkex.Lib.BubbleSort
