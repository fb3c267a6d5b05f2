import EndToEndSmkex.Lib.PartialMaps
import EndToEndSmkex.Lib.Run
import EndToEndSmkex.SipStack.Stack

/-!
# The buddy list and the subscriptions

`MpBuddyList` keeps a buddy for every presence subscription it has asked pjsua
for.  The two are changed one after the other, and the second change may fail.
`reset` forgets the buddies without ending a subscription; it is called by
`stopSIPStack` before the instance, and with it every subscription, is destroyed.

## Main results

* `outcome_cases` — what each call does to the list and to pjsua.
* `sound_iff` — list and subscriptions stay in step along a run exactly where
  the list is empty whenever it is reset and the instance survives.
-/

namespace EndToEndSmkex.Buddy.BuddyList

open EndToEndSmkex.Lib.Actions
open EndToEndSmkex.Lib.PartialMaps
open EndToEndSmkex.Lib.Run
open EndToEndSmkex.Smkex.Record
open EndToEndSmkex.AutoResend.Engine (mp_status_t)
open EndToEndSmkex.AutoResend.Engine.mp_status_t
open EndToEndSmkex.SipStack.Stack

/-! ## The operations -/

/-- `isalnum` in the "C" locale. -/
def isalnum (c : UInt8) : Bool :=
  (48 ≤ c && c ≤ 57) || (65 ≤ c && c ≤ 90) || (97 ≤ c && c ≤ 122)

/-- Letters, digits and underscores. -/
def serialIsValid (serial : MpString) : Bool := serial.all fun c => isalnum c || c = 95

/-- A zero byte is no character of a serial. -/
theorem zero_not_mem_of_valid {serial : MpString} (h : serialIsValid serial = true) :
    0 ∉ serial := by
  intro hzero
  have hvalid := List.all_eq_true.1 h 0 hzero
  cases hvalid

section Operations

variable (ans : Answers) (s : MpService)

/-- `addBuddy`.  The serial is checked as a C string, up to a zero byte. -/
def addBuddy (buddy : MpBuddy) : Action (MpService × mp_status_t) :=
  if serialIsValid (buddy.serial_.takeWhile (· ≠ 0)) = false then
    return (s, MP_GENERAL_ERR)
  -- no duplicates
  else if (s.buddyList_ buddy.serial_).isSome then return (s, MP_GENERAL_ERR)
  else do
    let (buddy, status) ← subscribe ans s buddy
    if status = MP_SUCCESS then
      return ({ s with
        buddyList_ := Function.update s.buddyList_ buddy.serial_ (some buddy) }, status)
    else return (s, status)

/-- `rmBuddy`. -/
def rmBuddy (serial : MpString) : Action (MpService × mp_status_t) :=
  match s.buddyList_ serial with
  | none => return (s, MP_SUCCESS)
  | some buddy => do
      let status ← unsubscribe ans s buddy.pjsuaId_
      if status = MP_SUCCESS then
        return ({ s with buddyList_ := Function.update s.buddyList_ serial none }, status)
      else return (s, status)

end Operations

/-! ## Runs -/

inductive Event where
  | addBuddy (ans : Answers) (buddy : MpBuddy)
  | rmBuddy (ans : Answers) (serial : MpString)
  | reset
  | stopSIPStack (ans : Answers)

/-- The two objects and pjsua. -/
structure System where
  service : MpService
  pjsua : Pjsua

/-- A started stack without buddies. -/
def System.started : System := ⟨⟨true, fun _ => none⟩, ⟨true, []⟩⟩

/-- The call an event stands for; `reset` returns nothing. -/
def handle (service : MpService) : Event → Action (MpService × mp_status_t)
  | .addBuddy ans buddy => BuddyList.addBuddy ans service buddy
  | .rmBuddy ans serial => BuddyList.rmBuddy ans service serial
  | .reset => return (SipStack.Stack.reset service, MP_SUCCESS)
  | .stopSIPStack ans => SipStack.Stack.stopSIPStack ans service

/-- An id that `pjsua_buddy_add` gives is not in use. -/
def Event.Fresh (p : Pjsua) : Event → Prop
  | .addBuddy ans _ => ans.buddy_id ∉ p.buddies
  | _ => True

instance (p : Pjsua) : (e : Event) → Decidable (e.Fresh p)
  | .addBuddy ans _ => inferInstanceAs (Decidable (ans.buddy_id ∉ p.buddies))
  | .rmBuddy _ _ => isTrue trivial
  | .reset => isTrue trivial
  | .stopSIPStack _ => isTrue trivial

/-- The state after a call, and what the call returns. -/
def System.outcome (s : System) (e : Event) : Option (System × mp_status_t) :=
  if e.Fresh s.pjsua then
    (handle s.service e).run.map fun p => (⟨p.1.1, p.2.foldl Pjsua.after s.pjsua⟩, p.1.2)
  else none

def System.step (s : System) (e : Event) : Option System := (s.outcome e).map Prod.fst

/-! ## List and subscriptions in step -/

/-- The ids stored in `buddyList_`. -/
def MpService.ids (service : MpService) : Set pjsua_buddy_id :=
  values MpBuddy.pjsuaId_ service.buddyList_

/-- The subscriptions that are alive. -/
def Pjsua.alive (p : Pjsua) : Set pjsua_buddy_id := { id | id ∈ p.buddies }

def InStep (s : System) : Prop := MpService.ids s.service = Pjsua.alive s.pjsua

/-- After the call the two are in step, and an error has changed neither. -/
structure Sound (s : System) (e : Event) (s' : System) : Prop where
  inStep : InStep s'
  unchanged : ∀ status, s.outcome e = some (s', status) → status ≠ MP_SUCCESS →
    MpService.ids s'.service = MpService.ids s.service ∧
      Pjsua.alive s'.pjsua = Pjsua.alive s.pjsua

def NoBuddies (service : MpService) : Prop := ∀ serial, service.buddyList_ serial = none

/-- A list that is reset while the subscriptions stay alive is empty. -/
def Harmless (s : System) : Event → Prop
  | .reset => NoBuddies s.service
  | .stopSIPStack ans =>
      s.service.started_ = true → ans.succeeds .destroy2 = false → NoBuddies s.service
  | _ => True

/-! ## One call -/

/-- What a call does. -/
inductive Outcome (s : System) : Event → System → mp_status_t → Prop where
  | add_refused {ans : Answers} {buddy : MpBuddy} :
      Outcome s (.addBuddy ans buddy) s MP_GENERAL_ERR
  | added {ans : Answers} {buddy : MpBuddy} (fresh : ans.buddy_id ∉ s.pjsua.buddies)
      (absent : s.service.buddyList_ buddy.serial_ = none) :
      Outcome s (.addBuddy ans buddy)
        ⟨{ s.service with
            buddyList_ := Function.update s.service.buddyList_ buddy.serial_
              (some { buddy with pjsuaId_ := ans.buddy_id }) },
          { s.pjsua with buddies := ans.buddy_id :: s.pjsua.buddies }⟩ MP_SUCCESS
  | rm_kept {ans : Answers} {serial : MpString} {status : mp_status_t} :
      Outcome s (.rmBuddy ans serial) s status
  | removed {ans : Answers} {serial : MpString} {buddy : MpBuddy}
      (present : s.service.buddyList_ serial = some buddy) :
      Outcome s (.rmBuddy ans serial)
        ⟨{ s.service with buddyList_ := Function.update s.service.buddyList_ serial none },
          { s.pjsua with buddies := s.pjsua.buddies.filter (· ≠ buddy.pjsuaId_) }⟩ MP_SUCCESS
  | reset : Outcome s .reset ⟨SipStack.Stack.reset s.service, s.pjsua⟩ MP_SUCCESS
  | stop_ignored {ans : Answers} (stopped : s.service.started_ = false) :
      Outcome s (.stopSIPStack ans) s MP_SUCCESS
  | stopped {ans : Answers} (destroyed : ans.succeeds .destroy2 = true) :
      Outcome s (.stopSIPStack ans) ⟨⟨false, fun _ => none⟩, ⟨false, []⟩⟩ MP_SUCCESS
  | stop_failed {ans : Answers} (started : s.service.started_ = true)
      (failed : ans.succeeds .destroy2 = false) :
      Outcome s (.stopSIPStack ans) ⟨SipStack.Stack.reset s.service, s.pjsua⟩ MP_SIP_DESTROY_ERR

section Runs

variable {s : System} {ans : Answers} {service : MpService} {status : mp_status_t}
  {log : List (PjsuaCall × Bool)}

/-- The buddy is added where the stack runs, the serial is new and the
subscription succeeds. -/
private theorem outcome_addBuddy {buddy : MpBuddy} (hfresh : ans.buddy_id ∉ s.pjsua.buddies)
    (h : (BuddyList.addBuddy ans s.service buddy).run = some ((service, status), log)) :
    Outcome s (.addBuddy ans buddy) ⟨service, log.foldl Pjsua.after s.pjsua⟩ status := by
  unfold BuddyList.addBuddy at h
  split at h
  · cases h
    exact .add_refused
  split at h
  · cases h
    exact .add_refused
  next habsent =>
  have habsent : s.service.buddyList_ buddy.serial_ = none := by simpa using habsent
  obtain ⟨⟨buddy', status'⟩, l₁, l₂, hsub, hrest, rfl⟩ := run_bind_eq_some.1 h
  have hcases := run_subscribe ans hsub s.pjsua
  rw [List.foldl_append]
  rcases hcases with ⟨-, rfl, hlog⟩ | ⟨-, rfl, rfl, hlog⟩
  · cases hrest
    rw [hlog]
    exact .add_refused
  · cases hrest
    rw [hlog]
    exact .added hfresh habsent

/-- The buddy is removed where the stack runs, the serial is known and
unsubscribing succeeds. -/
private theorem outcome_rmBuddy {serial : MpString}
    (h : (BuddyList.rmBuddy ans s.service serial).run = some ((service, status), log)) :
    Outcome s (.rmBuddy ans serial) ⟨service, log.foldl Pjsua.after s.pjsua⟩ status := by
  unfold BuddyList.rmBuddy at h
  cases hpresent : s.service.buddyList_ serial with
  | none =>
      rw [hpresent] at h
      cases h
      exact .rm_kept
  | some buddy =>
      rw [hpresent] at h
      obtain ⟨status', l₁, l₂, hunsub, hrest, rfl⟩ := run_bind_eq_some.1 h
      have hcases := run_unsubscribe ans hunsub s.pjsua
      rw [List.foldl_append]
      rcases hcases with ⟨rfl, hlog⟩ | ⟨rfl, hlog⟩
      · cases hrest
        rw [hlog]
        exact .rm_kept
      · cases hrest
        rw [hlog]
        exact .removed hpresent

private theorem outcome_stopSIPStack
    (h : (SipStack.Stack.stopSIPStack ans s.service).run = some ((service, status), log)) :
    Outcome s (.stopSIPStack ans) ⟨service, log.foldl Pjsua.after s.pjsua⟩ status := by
  cases hstarted : s.service.started_ with
  | false =>
      simp [stopSIPStack, hstarted] at h
      obtain ⟨⟨rfl, rfl⟩, rfl⟩ := h
      exact .stop_ignored hstarted
  | true =>
      cases hok : ans.succeeds .destroy2 with
      | false =>
          simp [stopSIPStack, hstarted, run_bind, run_call, hok] at h
          obtain ⟨⟨rfl, rfl⟩, rfl⟩ := h
          exact .stop_failed hstarted hok
      | true =>
          simp [stopSIPStack, hstarted, run_bind, run_call, hok] at h
          obtain ⟨⟨rfl, rfl⟩, rfl⟩ := h
          exact .stopped hok

end Runs

/-- **What each call does.** -/
theorem outcome_cases {s s' : System} {e : Event} {status : mp_status_t}
    (h : s.outcome e = some (s', status)) : Outcome s e s' status := by
  unfold System.outcome at h
  split at h
  case isFalse => cases h
  case isTrue hfresh =>
  obtain ⟨⟨⟨service, status'⟩, log⟩, hrun, hsame⟩ := Option.map_eq_some_iff.1 h
  cases hsame
  cases e with
  | addBuddy ans buddy => exact outcome_addBuddy hfresh hrun
  | rmBuddy ans serial => exact outcome_rmBuddy hrun
  | reset =>
      cases hrun
      exact .reset
  | stopSIPStack ans => exact outcome_stopSIPStack hrun

/-! ## The invariant -/

/-- List and subscriptions are in step, and no two buddies share an id. -/
structure Inv (s : System) : Prop where
  inStep : InStep s
  distinct : Distinct MpBuddy.pjsuaId_ s.service.buddyList_

theorem ids_eq_empty_iff {service : MpService} :
    MpService.ids service = ∅ ↔ NoBuddies service := values_eq_empty_iff

theorem ids_reset (service : MpService) : MpService.ids (SipStack.Stack.reset service) = ∅ :=
  ids_eq_empty_iff.2 fun _ => rfl

theorem Inv.of_noBuddies {s : System} (hlist : NoBuddies s.service)
    (halive : Pjsua.alive s.pjsua = ∅) : Inv s where
  inStep := (ids_eq_empty_iff.2 hlist).trans halive.symm
  distinct := distinct_of_empty hlist

theorem alive_nil (undestroyed : Bool) : Pjsua.alive ⟨undestroyed, []⟩ = ∅ := by
  simp [Pjsua.alive]

/-- A new buddy has the id of the new subscription. -/
theorem Inv.added {s : System} (hinv : Inv s) {buddy : MpBuddy} {id : pjsua_buddy_id}
    (fresh : id ∉ s.pjsua.buddies) (absent : s.service.buddyList_ buddy.serial_ = none) :
    Inv ⟨{ s.service with
        buddyList_ := Function.update s.service.buddyList_ buddy.serial_
          (some { buddy with pjsuaId_ := id }) },
      { s.pjsua with buddies := id :: s.pjsua.buddies }⟩ where
  inStep := by
    show values _ _ = _
    rw [values_insert absent, show values _ _ = Pjsua.alive s.pjsua from hinv.inStep]
    ext x
    simp [Pjsua.alive]
  distinct := by
    refine hinv.distinct.insert ?_
    rw [show values _ _ = Pjsua.alive s.pjsua from hinv.inStep]
    exact fresh

/-- A buddy goes with the subscription of its id. -/
theorem Inv.removed {s : System} (hinv : Inv s) {serial : MpString} {buddy : MpBuddy}
    (present : s.service.buddyList_ serial = some buddy) :
    Inv ⟨{ s.service with buddyList_ := Function.update s.service.buddyList_ serial none },
      { s.pjsua with buddies := s.pjsua.buddies.filter (· ≠ buddy.pjsuaId_) }⟩ where
  inStep := by
    show values _ _ = _
    rw [values_erase hinv.distinct present,
      show values _ _ = Pjsua.alive s.pjsua from hinv.inStep]
    ext x
    simp [Pjsua.alive]
  distinct := hinv.distinct.erase

/-- A reset while the subscriptions stay alive. -/
theorem inStep_reset_iff {s : System} (hinv : Inv s) :
    InStep ⟨SipStack.Stack.reset s.service, s.pjsua⟩ ↔ NoBuddies s.service := by
  show MpService.ids _ = Pjsua.alive s.pjsua ↔ _
  rw [ids_reset, ← show MpService.ids s.service = Pjsua.alive s.pjsua from hinv.inStep,
    ← ids_eq_empty_iff]
  exact eq_comm

/-! ## Whole runs -/

private theorem step_cases {s s' : System} {e : Event} (h : s.step e = some s') :
    ∃ status, s.outcome e = some (s', status) ∧ Outcome s e s' status := by
  obtain ⟨⟨t, status⟩, houtcome, rfl⟩ := Option.map_eq_some_iff.1 h
  exact ⟨status, houtcome, outcome_cases houtcome⟩

/-- A harmless call keeps the invariant. -/
theorem Inv.step {s s' : System} {e : Event} (hinv : Inv s) (h : s.step e = some s')
    (hharmless : Harmless s e) : Inv s' := by
  obtain ⟨status, -, hcases⟩ := step_cases h
  cases hcases with
  | add_refused | rm_kept | stop_ignored => exact hinv
  | added fresh absent => exact hinv.added fresh absent
  | removed present => exact hinv.removed present
  | reset =>
      exact ⟨(inStep_reset_iff hinv).2 hharmless, distinct_of_empty fun _ => rfl⟩
  | stopped => exact Inv.of_noBuddies (fun _ => rfl) (alive_nil false)
  | stop_failed started failed =>
      exact ⟨(inStep_reset_iff hinv).2 (hharmless started failed),
        distinct_of_empty fun _ => rfl⟩

/-- One call does what it should exactly where it is harmless. -/
theorem sound_step_iff {s s' : System} {e : Event} (hinv : Inv s) (h : s.step e = some s') :
    Sound s e s' ↔ Harmless s e := by
  constructor
  · intro hsound
    obtain ⟨status, -, hcases⟩ := step_cases h
    cases hcases with
    | add_refused | rm_kept | added | removed => trivial
    | reset => exact (inStep_reset_iff hinv).1 hsound.inStep
    | stop_ignored stopped =>
        intro started
        rw [stopped] at started
        cases started
    | stopped destroyed =>
        intro _ failed
        rw [destroyed] at failed
        cases failed
    | stop_failed =>
        intro _ _
        exact (inStep_reset_iff hinv).1 hsound.inStep
  · intro hharmless
    refine ⟨(hinv.step h hharmless).inStep, ?_⟩
    intro status houtcome hstatus
    have hcases := outcome_cases houtcome
    cases hcases with
    | add_refused | rm_kept | stop_ignored => exact ⟨rfl, rfl⟩
    | added | removed | reset | stopped => exact absurd rfl hstatus
    | stop_failed started failed =>
        refine ⟨?_, rfl⟩
        rw [ids_reset, ids_eq_empty_iff.2 (hharmless started failed)]

/-- **List and subscriptions stay in step, and an error changes neither, along
exactly those runs in which the list is empty whenever it is reset and the
subscriptions survive.** -/
theorem sound_iff (es : List Event) :
    Steps System.step Sound System.started es ↔
      Steps System.step (fun s e _ => Harmless s e) System.started es :=
  steps_iff_of_inv (Q := Sound) (C := fun s e _ => Harmless s e) (E := fun _ => True) (I := Inv)
    (fun _ _ _ hinv _ h => sound_step_iff hinv h) (fun _ _ _ hinv _ h => hinv.step h)
    (Inv.of_noBuddies (fun _ => rfl) (alive_nil true)) fun _ _ => trivial

/-- A buddy is added; then the list is reset, or a stop fails. -/
theorem reset_forgets_subscription :
    let ans : Answers := ⟨fun c => c ≠ .destroy2, 0, 0⟩
    ¬ Steps System.step Sound System.started [.addBuddy ans (.new [98]), .reset] ∧
      ¬ Steps System.step Sound System.started
        [.addBuddy ans (.new [98]), .stopSIPStack ans] := by
  intro ans
  have hadd : (exec System.step System.started [.addBuddy ans (.new [98])]).map
      (fun s => ((s.service.buddyList_ [98]).isSome, s.pjsua.buddies, s.service.started_)) =
      some (true, [0], true) := by decide +kernel
  obtain ⟨s, hrun, hs⟩ := Option.map_eq_some_iff.1 hadd
  simp only [Prod.mk.injEq] at hs
  obtain ⟨-, hbuddies, hstarted⟩ := hs
  -- nobody is listed, but the subscription is alive
  have hstep {e : Event} (he : s.step e = some ⟨SipStack.Stack.reset s.service, s.pjsua⟩) :
      ¬ Steps System.step Sound System.started [.addBuddy ans (.new [98]), e] := by
    intro (hsteps : Steps _ _ _ ([.addBuddy ans (.new [98])] ++ [e]))
    have hsound := hsteps.last hrun he
    have halive : (0 : pjsua_buddy_id) ∈ MpService.ids (SipStack.Stack.reset s.service) := by
      rw [show MpService.ids _ = Pjsua.alive s.pjsua from hsound.inStep]
      simp [Pjsua.alive, hbuddies]
    rw [ids_reset] at halive
    cases halive
  constructor
  · exact hstep rfl
  · apply hstep
    simp [System.step, System.outcome, Event.Fresh, handle, stopSIPStack, hstarted, run_bind,
      run_call, ans, Pjsua.after]

end EndToEndSmkex.Buddy.BuddyList
