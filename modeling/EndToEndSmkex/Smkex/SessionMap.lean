import EndToEndSmkex.Lib.Run
import EndToEndSmkex.Smkex.Keychain

/-!
# What `addSessionInfo` promises

`Smkex.h` promises that `addSessionInfo` replaces a session where it is forced
to and then returns 2, and that it keeps one otherwise and returns -1.  The code
calls `map::insert`, which keeps the entry that is there, and returns 1 whatever
happened.

A *ledger* runs calls of it: next to the keychain it keeps what the last call
returned, and for each buddy the session of the last call that was accepted.

## Main results

* `addSessionInfo_eq` — what the code does.
* `meets_iff` — along a sequence of calls the promise is kept exactly as long as
  no call meets another session of its buddy.
-/

namespace EndToEndSmkex.Smkex.SessionMap

open EndToEndSmkex.Lib.Run
open EndToEndSmkex.Smkex.Record
open EndToEndSmkex.Smkex.SessionInfo
open EndToEndSmkex.Smkex.Keychain

variable {K : Type}

/-! ## The promise -/

/-- The arguments of a call. -/
structure Call (K : Type) where
  buddy : MpString
  sessionInfo : SmkexSessionInfo K
  force : Int

/-- What `Smkex.h` says about a call that made `keychain'` of `keychain` and
returned `result`. -/
structure Contract (keychain : SmkexKeychain K) (c : Call K) (keychain' : SmkexKeychain K)
    (result : Int) : Prop where
  forced : c.force = 1 → getSessionInfo keychain' c.buddy = some c.sessionInfo
  replaced : c.force = 1 → ∀ s, getSessionInfo keychain c.buddy = some s →
    s ≠ c.sessionInfo → result = 2
  fresh : c.force = 1 → getSessionInfo keychain c.buddy = none → 0 < result ∧ result ≠ 2
  kept : c.force ≠ 1 → ∀ s, getSessionInfo keychain c.buddy = some s →
    getSessionInfo keychain' c.buddy = some s ∧ result = -1
  added : c.force ≠ 1 → getSessionInfo keychain c.buddy = none →
    getSessionInfo keychain' c.buddy = some c.sessionInfo ∧ 0 < result
  others : ∀ buddy, buddy ≠ c.buddy →
    getSessionInfo keychain' buddy = getSessionInfo keychain buddy

/-! ## The code -/

section Code

variable (keychain : SmkexKeychain K) (buddy : MpString) (s : SmkexSessionInfo K)

theorem insert_of_none (h : keychain buddy = none) :
    Keychain.insert keychain buddy s = Function.update keychain buddy (some s) := by
  simp [Keychain.insert, hasSessionInfo, h]

theorem insert_of_some {old : SmkexSessionInfo K} (h : keychain buddy = some old) :
    Keychain.insert keychain buddy s = keychain := by
  simp [Keychain.insert, hasSessionInfo, h]

/-- Forced or not, an entry that is there is kept, and the result is 1. -/
theorem addSessionInfo_eq (force : Int) :
    addSessionInfo keychain buddy s force = (Keychain.insert keychain buddy s, 1) := by
  unfold addSessionInfo
  by_cases hforce : force = 1
  · rw [if_pos hforce]
  · rw [if_neg hforce]
    cases hold : keychain buddy with
    | none => simp [hasSessionInfo, hold]
    | some old =>
        rw [insert_of_some keychain buddy s hold]
        simp [hasSessionInfo, hold]

end Code

/-! ## Sequences of calls -/

/-- The keychain, what the last call returned, and the sessions that were
accepted last: those of calls with a positive result. -/
structure Ledger (K : Type) where
  keychain : SmkexKeychain K
  result : Int
  accepted : MpString → Option (SmkexSessionInfo K)

/-- The sessions that are there count as accepted. -/
def Ledger.new (keychain : SmkexKeychain K) : Ledger K :=
  { keychain, result := 1, accepted := keychain }

def Ledger.step (l : Ledger K) (c : Call K) : Option (Ledger K) :=
  let added := addSessionInfo l.keychain c.buddy c.sessionInfo c.force
  some
    { keychain := added.1
      result := added.2
      accepted :=
        if 0 < added.2 then Function.update l.accepted c.buddy (some c.sessionInfo)
        else l.accepted }

/-- The promise is kept, and `getSessionInfo` returns the sessions accepted
last. -/
structure Meets (l : Ledger K) (c : Call K) (l' : Ledger K) : Prop where
  contract : Contract l.keychain c l'.keychain l'.result
  last : ∀ buddy, getSessionInfo l'.keychain buddy = l'.accepted buddy

/-- The buddy has no session, or the call is forced and brings the one they
have. -/
def Vacant (l : Ledger K) (c : Call K) : Prop :=
  getSessionInfo l.keychain c.buddy = none ∨
    c.force = 1 ∧ getSessionInfo l.keychain c.buddy = some c.sessionInfo

section Step

variable {l l' : Ledger K} {c : Call K}

/-- The promise for one call, and what follows for the entry. -/
theorem Contract.vacant
    (h : Contract l.keychain c (Keychain.insert l.keychain c.buddy c.sessionInfo) 1) :
    Vacant l c := by
  unfold Vacant
  cases hold : l.keychain c.buddy with
  | none =>
      left
      rw [getSessionInfo_eq, hold]
  | some old =>
      right
      have hget : getSessionInfo l.keychain c.buddy = some old := by
        rw [getSessionInfo_eq, hold]
      have hforce : c.force = 1 := by
        by_contra hforce
        exact absurd (h.kept hforce old hget).2 (by decide)
      have hsame : old = c.sessionInfo := by
        by_contra hne
        exact absurd (h.replaced hforce old hget hne) (by decide)
      exact ⟨hforce, by rw [hget, hsame]⟩

/-- Where there is room, the entry is what the call brings, and nothing else
changes. -/
theorem insert_of_vacant (h : Vacant l c) :
    Keychain.insert l.keychain c.buddy c.sessionInfo =
      Function.update l.keychain c.buddy (some c.sessionInfo) := by
  rcases h with hnone | ⟨-, hsame⟩
  · rw [getSessionInfo_eq] at hnone
    exact insert_of_none _ _ _ hnone
  · rw [getSessionInfo_eq] at hsame
    rw [insert_of_some _ _ _ hsame, ← hsame, Function.update_eq_self]

theorem Vacant.contract (h : Vacant l c) :
    Contract l.keychain c (Keychain.insert l.keychain c.buddy c.sessionInfo) 1 := by
  have hbrought : getSessionInfo (Keychain.insert l.keychain c.buddy c.sessionInfo) c.buddy =
      some c.sessionInfo := by
    rw [insert_of_vacant h, getSessionInfo_eq, Function.update_self]
  refine ⟨fun _ => hbrought, ?_, fun _ _ => by decide, ?_, fun _ _ => ⟨hbrought, by decide⟩, ?_⟩
  · intro _ s hs hne
    rcases h with hnone | ⟨-, hsame⟩
    · rw [hnone] at hs
      cases hs
    · rw [hsame, Option.some.injEq] at hs
      exact absurd hs.symm hne
  · intro hforce s hs
    rcases h with hnone | ⟨hforced, -⟩
    · rw [hnone] at hs
      cases hs
    · exact absurd hforced hforce
  · intro buddy hbuddy
    rw [insert_of_vacant h, getSessionInfo_eq, getSessionInfo_eq, Function.update_of_ne hbuddy]

/-- What is in the keychain has been accepted last. -/
def Current (l : Ledger K) : Prop := l.accepted = l.keychain

theorem step_eq (l : Ledger K) (c : Call K) :
    l.step c = some
      { keychain := Keychain.insert l.keychain c.buddy c.sessionInfo
        result := 1
        accepted := Function.update l.accepted c.buddy (some c.sessionInfo) } := by
  simp [Ledger.step, addSessionInfo_eq]

theorem Current.step (h : Current l) (hstep : l.step c = some l') (hvacant : Vacant l c) :
    Current l' := by
  rw [step_eq, Option.some.injEq] at hstep
  subst hstep
  show Function.update l.accepted c.buddy _ = Keychain.insert l.keychain c.buddy c.sessionInfo
  rw [insert_of_vacant hvacant, h]

theorem meets_step_iff (h : Current l) (hstep : l.step c = some l') :
    Meets l c l' ↔ Vacant l c := by
  constructor
  · intro hmeets
    rw [step_eq, Option.some.injEq] at hstep
    subst hstep
    exact hmeets.contract.vacant
  · intro hvacant
    have hcurrent : Current l' := h.step hstep hvacant
    have hcontract := hvacant.contract
    rw [step_eq, Option.some.injEq] at hstep
    subst hstep
    refine ⟨hcontract, ?_⟩
    intro buddy
    rw [getSessionInfo_eq, hcurrent]

end Step

/-- **The promise is kept exactly as long as nobody's session is to be replaced
or refused.**  For every keychain and every sequence of calls. -/
theorem meets_iff (keychain : SmkexKeychain K) (calls : List (Call K)) :
    Steps Ledger.step Meets (Ledger.new keychain) calls ↔
      Steps Ledger.step (fun l c _ => Vacant l c) (Ledger.new keychain) calls := by
  have hcurrent : Current (Ledger.new keychain) := rfl
  refine steps_iff_of_inv (I := Current) (E := fun _ => True) ?_ ?_ hcurrent fun _ _ => trivial
  · intro l c l' h _ hstep
    exact meets_step_iff h hstep
  · intro l c l' h _ hstep hvacant
    exact h.step hstep hvacant

/-- A session with this key. -/
def sampleSession (key : UInt8) : SmkexSessionInfo UInt8 := SmkexSessionInfo.new (sampleDraws key)

/-- `b` has a session.  A forced call for another leaves the old one and returns
1, and so does a call that is not forced. -/
theorem existing_session_stays :
    let keychain : SmkexKeychain UInt8 :=
      Function.update (fun _ => none) [98] (some (sampleSession 1))
    (∀ force, addSessionInfo keychain [98] (sampleSession 2) force = (keychain, 1)) ∧
      ¬ Steps Ledger.step Meets (Ledger.new keychain) [⟨[98], sampleSession 2, 1⟩] ∧
      ¬ Steps Ledger.step Meets (Ledger.new keychain) [⟨[98], sampleSession 2, 0⟩] := by
  intro keychain
  have hold : getSessionInfo keychain [98] = some (sampleSession 1) := rfl
  have hadd : ∀ force, addSessionInfo keychain [98] (sampleSession 2) force = (keychain, 1) := by
    intro force
    rw [addSessionInfo_eq, insert_of_some keychain [98] (sampleSession 2) hold]
  refine ⟨hadd, ?_, ?_⟩
  · intro hsteps
    have hmeets := (hsteps _ rfl).1
    have hresult := hmeets.contract.replaced rfl _ hold (by decide)
    exact absurd hresult (by decide)
  · intro hsteps
    have hmeets := (hsteps _ rfl).1
    have hresult := (hmeets.contract.kept (by decide) _ hold).2
    exact absurd hresult (by decide)

end EndToEndSmkex.Smkex.SessionMap
