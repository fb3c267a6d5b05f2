import Mathlib.Data.Option.Basic

/-!
# What a history leaves in a register

A register is opened with a value, changed any number of times, and closed.  A
history is read from the newest event to the oldest, so that what is left in the
register is found by going back to the event that opened it.

## Main results

* `content_eq_some_iff` — the content is what the changes since the last opening
  have made of the value it was opened with.
-/

namespace EndToEndSmkex.Lib.Registers

/-- What the events do to a register. -/
structure Register (ε α : Type*) where
  opens : ε → Option α
  closes : ε → Bool
  changes : ε → α → α

namespace Register

variable {ε α : Type*} (r : Register ε α)

/-- The content after a history, of which the newest event comes first. -/
def content : List ε → Option α
  | [] => none
  | e :: h =>
      match r.opens e with
      | some a => some a
      | none => if r.closes e then none else (content h).map (r.changes e)

/-- The event neither opens the register nor closes it. -/
def Keeps (e : ε) : Prop := r.opens e = none ∧ r.closes e = false

variable {r} {e : ε} {h : List ε} {a : α}

theorem content_of_opens (hopens : r.opens e = some a) : r.content (e :: h) = some a := by
  rw [content, hopens]

theorem content_of_closes (hopens : r.opens e = none) (hcloses : r.closes e = true) :
    r.content (e :: h) = none := by
  rw [content, hopens]
  exact if_pos hcloses

theorem content_of_keeps (hkeeps : r.Keeps e) :
    r.content (e :: h) = (r.content h).map (r.changes e) := by
  rw [content, hkeeps.1]
  exact if_neg (by simp [hkeeps.2])

/-- Where a kept register is not changed either, the event leaves no trace. -/
theorem content_of_idle (hkeeps : r.Keeps e) (hsame : ∀ a, r.changes e a = a) :
    r.content (e :: h) = r.content h := by
  rw [content_of_keeps hkeeps]
  cases r.content h with
  | none => rfl
  | some a => exact congrArg some (hsame a)

/-- The register was opened, kept since, and changed to what it holds now. -/
def Since (r : Register ε α) (h : List ε) (a : α) : Prop :=
  ∃ after e before a₀, h = after ++ e :: before ∧ r.opens e = some a₀ ∧
    (∀ x ∈ after, r.Keeps x) ∧ after.foldr r.changes a₀ = a

theorem Since.keeps (hsince : r.Since h a) (hkeeps : r.Keeps e) :
    r.Since (e :: h) (r.changes e a) := by
  obtain ⟨after, e₀, before, a₀, rfl, hopens, hall, rfl⟩ := hsince
  exact ⟨e :: after, e₀, before, a₀, rfl, hopens, List.forall_mem_cons.2 ⟨hkeeps, hall⟩, rfl⟩

theorem content_of_since (hsince : r.Since h a) : r.content h = some a := by
  obtain ⟨after, e, before, a₀, rfl, hopens, hall, rfl⟩ := hsince
  induction after with
  | nil => exact content_of_opens hopens
  | cons x after ih =>
      have hcontent := ih fun y hy => hall y (List.mem_cons_of_mem x hy)
      rw [List.cons_append, content_of_keeps (hall x List.mem_cons_self), hcontent]
      rfl

/-- **The content of a register is what was made of it since it was opened.** -/
theorem content_eq_some_iff : r.content h = some a ↔ r.Since h a := by
  refine ⟨?_, content_of_since⟩
  intro hcontent
  induction h generalizing a with
  | nil => cases hcontent
  | cons e h ih =>
      cases hopens : r.opens e with
      | some a₀ =>
          rw [content_of_opens hopens] at hcontent
          cases hcontent
          exact ⟨[], e, h, a, rfl, hopens, by simp, rfl⟩
      | none =>
          cases hcloses : r.closes e with
          | true =>
              rw [content_of_closes hopens hcloses] at hcontent
              cases hcontent
          | false =>
              have hkeeps : r.Keeps e := ⟨hopens, hcloses⟩
              rw [content_of_keeps hkeeps] at hcontent
              obtain ⟨a', ha', rfl⟩ := Option.map_eq_some_iff.1 hcontent
              exact (ih ha').keeps hkeeps

end Register

end EndToEndSmkex.Lib.Registers
