import Mathlib.Data.List.Infix

/-!
# Searching a string for a substring

`find pat s` is the first position at which `pat` occurs in `s`, and `rfind pat s`
the last one.

A pattern that is written behind some text is found there unless the text has it
already or the two together spell it earlier.  The second cannot happen where no
end of the pattern is also its beginning (`Unbordered`).

## Main results

* `at_of_find`, `find_of_at` — `find` gives an occurrence, and none is before it.
* `at_of_rfind`, `rfind_of_at` — the same for `rfind`.
* `find_append` — the first occurrence of an unbordered pattern.
* `rfind_append` — the last occurrence of a character.
* `found_in_order_iff` — when the first occurrence of one pattern ends before the
  last one of another begins.
-/

namespace EndToEndSmkex.Lib.Substrings

variable {α : Type*} {pat pat' s : List α} {c : α} {i : Nat}

/-! ## Occurrences -/

/-- The pattern occurs at a position. -/
def At (pat s : List α) (i : Nat) : Prop := i ≤ s.length ∧ pat <+: s.drop i

theorem at_nil : At pat [] i ↔ i = 0 ∧ pat = [] := by
  simp [At]

theorem at_zero : At pat s 0 ↔ pat <+: s := by
  simp [At]

theorem at_cons_succ : At pat (c :: s) (i + 1) ↔ At pat s i := by
  simp [At]

theorem at_append (pre pat post : List α) : At pat (pre ++ (pat ++ post)) pre.length := by
  refine ⟨by simp, ?_⟩
  rw [List.drop_left]
  exact List.prefix_append _ _

/-- What is before an occurrence, and what is behind it. -/
theorem At.split (h : At pat s i) :
    s = s.take i ++ (pat ++ s.drop (i + pat.length)) ∧ (s.take i).length = i := by
  obtain ⟨hi, rest, hrest⟩ := h
  have hdrop : s.drop (i + pat.length) = rest := by
    rw [← List.drop_drop, ← hrest, List.drop_left]
  rw [hdrop, hrest, List.take_append_drop]
  exact ⟨rfl, List.length_take_of_le hi⟩

/-- A character that is not in the pattern completes no occurrence. -/
theorem not_infix_concat (hc : c ∉ pat) (h : ¬ pat <:+: s) : ¬ pat <:+: s ++ [c] := by
  intro hin
  rcases List.infix_concat_iff.1 hin with hsuffix | hin
  · rcases List.suffix_concat_iff.1 hsuffix with rfl | ⟨t, rfl, -⟩
    · exact h (List.nil_infix)
    · exact hc (by simp)
  · exact h hin

/-! ## The two searches -/

section Search

variable [DecidableEq α]

/-- The first position of a pattern. -/
def find (pat : List α) : List α → Option Nat
  | [] => if pat = [] then some 0 else none
  | c :: cs => if pat <+: c :: cs then some 0 else (find pat cs).map (· + 1)

/-- The last position of a pattern. -/
def rfind (pat : List α) : List α → Option Nat
  | [] => if pat = [] then some 0 else none
  | c :: cs =>
      match rfind pat cs with
      | some i => some (i + 1)
      | none => if pat <+: c :: cs then some 0 else none

theorem at_of_find (h : find pat s = some i) : At pat s i := by
  induction s generalizing i with
  | nil =>
      rw [find] at h
      split at h
      · cases h
        exact at_nil.2 ⟨rfl, by assumption⟩
      · cases h
  | cons c cs ih =>
      rw [find] at h
      split at h
      · cases h
        exact at_zero.2 (by assumption)
      · obtain ⟨j, hj, rfl⟩ := Option.map_eq_some_iff.1 h
        exact at_cons_succ.2 (ih hj)

/-- An occurrence is found, or one before it. -/
theorem find_of_at (h : At pat s i) : ∃ j, j ≤ i ∧ find pat s = some j := by
  induction s generalizing i with
  | nil =>
      obtain ⟨rfl, hpat⟩ := at_nil.1 h
      exact ⟨0, Nat.le_refl 0, by rw [find, if_pos hpat]⟩
  | cons c cs ih =>
      by_cases hhere : pat <+: c :: cs
      · exact ⟨0, Nat.zero_le i, by rw [find, if_pos hhere]⟩
      · cases i with
        | zero => exact absurd (at_zero.1 h) hhere
        | succ i =>
            obtain ⟨j, hj, hfind⟩ := ih (at_cons_succ.1 h)
            refine ⟨j + 1, by omega, ?_⟩
            rw [find, if_neg hhere, hfind, Option.map_some]

theorem at_of_rfind (h : rfind pat s = some i) : At pat s i := by
  induction s generalizing i with
  | nil =>
      rw [rfind] at h
      split at h
      · cases h
        exact at_nil.2 ⟨rfl, by assumption⟩
      · cases h
  | cons c cs ih =>
      rw [rfind] at h
      split at h
      next j hj =>
        cases h
        exact at_cons_succ.2 (ih hj)
      next =>
        split at h
        · cases h
          exact at_zero.2 (by assumption)
        · cases h

/-- An occurrence is found, or one behind it. -/
theorem rfind_of_at (h : At pat s i) : ∃ j, i ≤ j ∧ rfind pat s = some j := by
  induction s generalizing i with
  | nil =>
      obtain ⟨rfl, hpat⟩ := at_nil.1 h
      exact ⟨0, Nat.le_refl 0, by rw [rfind, if_pos hpat]⟩
  | cons c cs ih =>
      cases i with
      | zero =>
          cases hrest : rfind pat cs with
          | some j => exact ⟨j + 1, Nat.zero_le _, by rw [rfind, hrest]⟩
          | none => exact ⟨0, Nat.le_refl 0, by rw [rfind, hrest]; exact if_pos (at_zero.1 h)⟩
      | succ i =>
          obtain ⟨j, hj, hrfind⟩ := ih (at_cons_succ.1 h)
          exact ⟨j + 1, by omega, by rw [rfind, hrfind]⟩

/-! ## Patterns in a longer text -/

/-- No end of the pattern, other than the whole, is a beginning of it. -/
def Unbordered (pat : List α) : Prop := ∀ k < pat.length, 0 < k → ¬ pat.drop k <+: pat

instance (pat : List α) : Decidable (Unbordered pat) :=
  inferInstanceAs (Decidable (∀ k < pat.length, 0 < k → ¬ pat.drop k <+: pat))

omit [DecidableEq α] in
/-- An unbordered pattern behind a text without it does not begin in the text. -/
theorem not_at_of_lt {pre post : List α} (hpat : Unbordered pat) (hpre : ¬ pat <:+: pre)
    (hi : i < pre.length) : ¬ At pat (pre ++ (pat ++ post)) i := by
  rintro ⟨-, h⟩
  rw [List.drop_append_of_le_length (Nat.le_of_lt hi)] at h
  have hlen : (pre.drop i).length = pre.length - i := List.length_drop
  by_cases hinside : pat.length ≤ pre.length - i
  · -- inside the text
    have hpre' : pat <+: pre.drop i :=
      List.prefix_of_prefix_length_le h (List.prefix_append _ _) (by omega)
    exact hpre (hpre'.isInfix.trans (List.drop_suffix i pre).isInfix)
  · -- the end of the pattern would be its beginning
    obtain ⟨rest, hrest⟩ := h
    have hdrop : pat.drop (pre.length - i) ++ rest = pat ++ post := by
      have hcut := congrArg (List.drop (pre.length - i)) hrest
      rwa [List.drop_append_of_le_length (by omega), ← hlen, List.drop_left, hlen] at hcut
    have hborder : pat.drop (pre.length - i) <+: pat := by
      refine List.prefix_of_prefix_length_le ⟨rest, hdrop⟩ (List.prefix_append _ _) ?_
      rw [List.length_drop]
      omega
    exact hpat (pre.length - i) (by omega) (by omega) hborder

/-- **The first occurrence of an unbordered pattern.** -/
theorem find_append {pre post : List α} (hpat : Unbordered pat) (hpre : ¬ pat <:+: pre) :
    find pat (pre ++ (pat ++ post)) = some pre.length := by
  obtain ⟨j, hj, hfind⟩ := find_of_at (at_append pre pat post)
  have hge : ¬ j < pre.length := fun hlt => not_at_of_lt hpat hpre hlt (at_of_find hfind)
  rw [hfind, show j = pre.length by omega]

/-- **The last occurrence of a character.** -/
theorem rfind_append {pre post : List α} (hpost : c ∉ post) :
    rfind [c] (pre ++ ([c] ++ post)) = some pre.length := by
  obtain ⟨j, hj, hrfind⟩ := rfind_of_at (at_append pre [c] post)
  obtain ⟨-, rest, hrest⟩ := at_of_rfind hrfind
  have hle : ¬ pre.length < j := by
    intro hlt
    obtain ⟨k, rfl⟩ : ∃ k, j = pre.length + (k + 1) := ⟨j - pre.length - 1, by omega⟩
    have hmem : c ∈ post.drop k := by
      rw [← List.drop_drop, List.drop_left] at hrest
      rw [show post.drop k = ([c] ++ post).drop (k + 1) from rfl, ← hrest]
      exact List.mem_cons_self
    exact hpost (List.mem_of_mem_drop hmem)
  rw [hrfind, show j = pre.length by omega]

/-- **The first occurrence of one pattern ends before the last one of another
begins exactly where the two occur in this order somewhere.** -/
theorem found_in_order_iff :
    (∃ i j, find pat s = some i ∧ rfind pat' s = some j ∧ i + pat.length ≤ j) ↔
      ∃ pre mid post, s = pre ++ (pat ++ (mid ++ (pat' ++ post))) := by
  constructor
  · rintro ⟨i, j, hfind, hrfind, hle⟩
    obtain ⟨hsplit, -⟩ := (at_of_find hfind).split
    obtain ⟨hlen, hlast⟩ := at_of_rfind hrfind
    have hbehind : At pat' (s.drop (i + pat.length)) (j - (i + pat.length)) := by
      refine ⟨by rw [List.length_drop]; omega, ?_⟩
      rwa [List.drop_drop, show i + pat.length + (j - (i + pat.length)) = j by omega]
    obtain ⟨hrest, -⟩ := hbehind.split
    exact ⟨_, _, _, hsplit.trans (by rw [← hrest])⟩
  · rintro ⟨pre, mid, post, rfl⟩
    obtain ⟨i, hi, hfind⟩ := find_of_at (at_append pre pat (mid ++ (pat' ++ post)))
    have hat : At pat' (pre ++ (pat ++ (mid ++ (pat' ++ post)))) (pre ++ pat ++ mid).length := by
      have happ := at_append (pre ++ pat ++ mid) pat' post
      rwa [List.append_assoc, List.append_assoc] at happ
    obtain ⟨j, hj, hrfind⟩ := rfind_of_at hat
    refine ⟨i, j, hfind, hrfind, ?_⟩
    rw [List.length_append, List.length_append] at hj
    omega

end Search

end EndToEndSmkex.Lib.Substrings
