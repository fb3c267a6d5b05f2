import Std.Data.TreeMap
import EndToEndSmkex.Lib.PartialMaps

/-!
# Ordered maps searched by what their entries hold

`Std.TreeMap` is iterated in the order of its keys.  A program that looks for an
entry by an identifier the entry holds takes the first one it meets, `first f b`.

Read as a function, `lookup m`, an ordered map is one of the maps of
`PartialMaps`.  Where the identifiers there are distinct, the search finds the
only entry there is, and the order does not matter.

## Main results

* `lookup_insertIfNew`, `lookup_erase`, `lookup_modify` — every change is an
  update of the function.
* `first_eq_some_iff`, `first_eq_none_iff` — what the search finds.
-/

namespace EndToEndSmkex.Lib.OrderedMaps

open EndToEndSmkex.Lib.PartialMaps

variable {κ α β : Type*} [Ord κ] {f : α → β} {m : Std.TreeMap κ α} {k : κ} {a : α} {b : β}

/-- The map as a function. -/
def lookup (m : Std.TreeMap κ α) (k : κ) : Option α := m[k]?

/-- The first entry with an identifier, in the order of the keys. -/
def first [DecidableEq β] (f : α → β) (b : β) (m : Std.TreeMap κ α) : Option (κ × α) :=
  m.toList.find? fun entry => f entry.2 = b

variable [Std.TransOrd κ]

@[simp] theorem lookup_empty : lookup (∅ : Std.TreeMap κ α) k = none :=
  Std.TreeMap.getElem?_emptyc

variable [Std.LawfulEqOrd κ]

section Change

variable [DecidableEq κ]

theorem lookup_insertIfNew (h : lookup m k = none) :
    lookup (m.insertIfNew k a) = Function.update (lookup m) k (some a) := by
  have habsent : k ∉ m := by
    rw [Std.TreeMap.mem_iff_isSome_getElem?]
    simpa [lookup] using h
  funext k'
  rw [lookup, Std.TreeMap.getElem?_insertIfNew]
  by_cases hk : k' = k
  · subst hk
    rw [Function.update_self, if_pos ⟨Std.ReflCmp.compare_self, habsent⟩]
  · have hne : ¬ (compare k k' = .eq ∧ k ∉ m) := by
      intro hcmp
      exact hk (Std.LawfulEqCmp.eq_of_compare hcmp.1).symm
    rw [Function.update_of_ne hk, if_neg hne]
    rfl

theorem lookup_erase : lookup (m.erase k) = Function.update (lookup m) k none := by
  funext k'
  rw [lookup, Std.TreeMap.getElem?_erase]
  by_cases hk : k' = k
  · subst hk
    rw [Function.update_self, if_pos Std.ReflCmp.compare_self]
  · have hne : ¬ compare k k' = .eq := fun hcmp =>
      hk (Std.LawfulEqCmp.eq_of_compare hcmp).symm
    rw [Function.update_of_ne hk, if_neg hne]
    rfl

theorem lookup_modify (g : α → α) (h : lookup m k = some a) :
    lookup (m.modify k g) = Function.update (lookup m) k (some (g a)) := by
  funext k'
  rw [lookup, Std.TreeMap.getElem?_modify]
  by_cases hk : k' = k
  · subst hk
    rw [Function.update_self, if_pos Std.ReflCmp.compare_self]
    exact congrArg (Option.map g) h
  · have hne : ¬ compare k k' = .eq := fun hcmp =>
      hk (Std.LawfulEqCmp.eq_of_compare hcmp).symm
    rw [Function.update_of_ne hk, if_neg hne]
    rfl

end Change

section Search

variable [DecidableEq β]

/-- What the search finds is in the map. -/
theorem lookup_of_first (h : first f b m = some (k, a)) : lookup m k = some a ∧ f a = b := by
  have hmem := List.mem_of_find?_eq_some h
  have hid := List.find?_some h
  exact ⟨Std.TreeMap.mem_toList_iff_getElem?_eq_some.1 hmem, by simpa using hid⟩

/-- The search fails where no entry has the identifier. -/
theorem first_eq_none_iff : first f b m = none ↔ b ∉ values f (lookup m) := by
  rw [first, List.find?_eq_none]
  constructor
  · rintro h ⟨k, a, hk, hid⟩
    exact h (k, a) (Std.TreeMap.mem_toList_iff_getElem?_eq_some.2 hk) (by simpa using hid)
  · rintro h ⟨k, a⟩ hmem hid
    exact h ⟨k, a, Std.TreeMap.mem_toList_iff_getElem?_eq_some.1 hmem, by simpa using hid⟩

/-- Where no two entries share an identifier, the search finds the one entry. -/
theorem first_eq_some_iff (hd : Distinct f (lookup m)) :
    first f b m = some (k, a) ↔ lookup m k = some a ∧ f a = b := by
  constructor
  · exact lookup_of_first
  · rintro ⟨hk, rfl⟩
    cases hfirst : first f (f a) m with
    | none => exact absurd ⟨k, a, hk, rfl⟩ (first_eq_none_iff.1 hfirst)
    | some entry =>
        obtain ⟨k', a'⟩ := entry
        obtain ⟨hk', hid⟩ := lookup_of_first hfirst
        have hkk := hd hk' hk hid
        subst hkk
        rw [hk] at hk'
        cases hk'
        rfl

end Search

end EndToEndSmkex.Lib.OrderedMaps
