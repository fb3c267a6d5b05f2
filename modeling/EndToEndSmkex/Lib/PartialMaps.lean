import Mathlib.Data.Set.Insert
import Mathlib.Logic.Function.Basic

/-!
# Maps whose entries carry an identifier

A finite map is a function `κ → Option α`, changed by `Function.update`.  Each
entry has an identifier `f a`; `values f m` are the identifiers in the map, and
`Distinct f m` says that no two keys share one.

## Main results

* `values_insert`, `values_erase` — how the identifiers change with the map.
* `Distinct.insert`, `Distinct.erase`, `Distinct.replace` — they stay distinct.
-/

namespace EndToEndSmkex.Lib.PartialMaps

variable {κ α β : Type*} {f : α → β} {m : κ → Option α}

/-- The identifiers of the entries. -/
def values (f : α → β) (m : κ → Option α) : Set β := { b | ∃ k a, m k = some a ∧ f a = b }

/-- Two keys do not share an identifier. -/
def Distinct (f : α → β) (m : κ → Option α) : Prop :=
  ∀ ⦃k k' a a'⦄, m k = some a → m k' = some a' → f a = f a' → k = k'

theorem values_eq_empty_iff : values f m = ∅ ↔ ∀ k, m k = none := by
  constructor
  · intro h k
    cases hk : m k with
    | none => rfl
    | some a =>
        have hmem : f a ∈ values f m := ⟨k, a, hk, rfl⟩
        rw [h] at hmem
        cases hmem
  · intro h
    ext b
    simp [values, h]

theorem distinct_of_empty (h : ∀ k, m k = none) : Distinct f m := by
  intro k _ a _ hk
  rw [h k] at hk
  cases hk

section Update

variable [DecidableEq κ] {k : κ} {a : α}

/-- A new key brings the identifier of its entry. -/
theorem values_insert (h : m k = none) :
    values f (Function.update m k (some a)) = insert (f a) (values f m) := by
  ext b
  constructor
  · rintro ⟨k', a', hk', rfl⟩
    by_cases hkk : k' = k
    · subst hkk
      rw [Function.update_self] at hk'
      cases hk'
      exact Or.inl rfl
    · rw [Function.update_of_ne hkk] at hk'
      exact Or.inr ⟨k', a', hk', rfl⟩
  · rintro (rfl | ⟨k', a', hk', rfl⟩)
    · exact ⟨k, a, Function.update_self _ _ _, rfl⟩
    · have hkk : k' ≠ k := by
        rintro rfl
        rw [h] at hk'
        cases hk'
      exact ⟨k', a', by rw [Function.update_of_ne hkk, hk'], rfl⟩

/-- What is left in a map after one key was removed. -/
theorem of_update_none {k' : κ} {a' : α} (h : Function.update m k none k' = some a') :
    k' ≠ k ∧ m k' = some a' := by
  have hkk : k' ≠ k := by
    rintro rfl
    simp at h
  rw [Function.update_of_ne hkk] at h
  exact ⟨hkk, h⟩

/-- A removed key takes the identifier of its entry away. -/
theorem values_erase (hd : Distinct f m) (h : m k = some a) :
    values f (Function.update m k none) = values f m \ {f a} := by
  ext b
  constructor
  · rintro ⟨k', a', hk', rfl⟩
    obtain ⟨hkk, hk'⟩ := of_update_none hk'
    exact ⟨⟨k', a', hk', rfl⟩, fun hid => hkk (hd hk' h hid)⟩
  · rintro ⟨⟨k', a', hk', rfl⟩, hne⟩
    have hkk : k' ≠ k := by
      rintro rfl
      rw [h] at hk'
      cases hk'
      exact hne rfl
    exact ⟨k', a', by rw [Function.update_of_ne hkk, hk'], rfl⟩

theorem Distinct.erase (hd : Distinct f m) : Distinct f (Function.update m k none) := by
  intro k₁ k₂ a₁ a₂ h₁ h₂ hid
  exact hd (of_update_none h₁).2 (of_update_none h₂).2 hid

/-- An identifier that is not in use may be added. -/
theorem Distinct.insert (hd : Distinct f m) (h : f a ∉ values f m) :
    Distinct f (Function.update m k (some a)) := by
  intro k₁ k₂ a₁ a₂ h₁ h₂ hid
  by_cases hk₁ : k₁ = k <;> by_cases hk₂ : k₂ = k
  · rw [hk₁, hk₂]
  · rw [hk₁, Function.update_self] at h₁
    rw [Function.update_of_ne hk₂] at h₂
    cases h₁
    exact absurd ⟨k₂, a₂, h₂, hid.symm⟩ h
  · rw [Function.update_of_ne hk₁] at h₁
    rw [hk₂, Function.update_self] at h₂
    cases h₂
    exact absurd ⟨k₁, a₁, h₁, hid⟩ h
  · rw [Function.update_of_ne hk₁] at h₁
    rw [Function.update_of_ne hk₂] at h₂
    exact hd h₁ h₂ hid

/-- An entry that is replaced by one with its identifier. -/
theorem update_of_replace {a' : α} (h : m k = some a) (hid : f a' = f a) {k' : κ} {b : α}
    (hb : Function.update m k (some a') k' = some b) : ∃ c, m k' = some c ∧ f c = f b := by
  by_cases hk : k' = k
  · subst hk
    rw [Function.update_self] at hb
    cases hb
    exact ⟨a, h, hid.symm⟩
  · rw [Function.update_of_ne hk] at hb
    exact ⟨b, hb, rfl⟩

theorem values_replace {a' : α} (h : m k = some a) (hid : f a' = f a) :
    values f (Function.update m k (some a')) ⊆ values f m := by
  rintro _ ⟨k', b, hb, rfl⟩
  obtain ⟨c, hc, hcb⟩ := update_of_replace h hid hb
  exact ⟨k', c, hc, hcb⟩

theorem Distinct.replace {a' : α} (hd : Distinct f m) (h : m k = some a) (hid : f a' = f a) :
    Distinct f (Function.update m k (some a')) := by
  intro k₁ k₂ b₁ b₂ h₁ h₂ hb
  obtain ⟨c₁, hc₁, hcb₁⟩ := update_of_replace h hid h₁
  obtain ⟨c₂, hc₂, hcb₂⟩ := update_of_replace h hid h₂
  exact hd hc₁ hc₂ (hcb₁.trans (hb.trans hcb₂.symm))

end Update

end EndToEndSmkex.Lib.PartialMaps
