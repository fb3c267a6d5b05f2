import EndToEndSmkex.Calls.CallManager
import EndToEndSmkex.Lib.Run

/-!
# Calls that are rejected

A call is rejected because another one is served and active.  As long as that one
stays active, the manager has nothing to do with the rejected call any more, and
`onCallState` only hangs it up again.  `on_incoming_call` does not know what the
manager has decided and reports to the caller that the phone is ringing.

## Main results

* `ignored_while_active` — the manager ignores a call it has rejected.
* `staysRejected_iff` — the call is left alone along exactly those runs in which
  no incoming call is rejected.
-/

namespace EndToEndSmkex.Calls.Rejection

open EndToEndSmkex.Lib.Actions
open EndToEndSmkex.Lib.Run
open EndToEndSmkex.Utils.Uri
open EndToEndSmkex.AutoResend.Engine.mp_status_t
open EndToEndSmkex.Calls.CallManager

/-! ## Runs -/

/-- The manager, and what has happened. -/
structure System where
  manager : MpCallManager
  history : History

section System

variable (active : Activity) (s : System) (e : Event)

/-- The state after an event, and what was done outside. -/
def System.outcome : Option (System × List Effect) :=
  (handle active (s.history ++ [e]) s.manager e).run.map fun p =>
    (⟨p.1, s.history ++ [e]⟩, p.2)

def System.step : Option System := (s.outcome active e).map Prod.fst

/-- The manager rejects the call of the event. -/
def Rejects : Event → Prop
  | .on_incoming_call call_id (some info) =>
      busy active (s.history ++ [.on_incoming_call call_id (some info)]) s.manager call_id = true
  | .on_call_state call_id (some info) =>
      busy active (s.history ++ [.on_call_state call_id (some info)]) s.manager call_id = true
  | _ => False

/-- The event brings an incoming call. -/
def Incoming : Event → Prop
  | .on_incoming_call _ (some _) => True
  | _ => False

/-- An incoming call is not rejected. -/
def NotTurnedAway : Prop := Incoming e → ¬ Rejects active s e

end System

/-- The event has not made the manager serve the call, and an event of the call
has changed nothing there and reached no callback and no timer. -/
structure Ignored (call_id : pjsua_call_id) (s : System) (e : Event) (s' : System)
    (effects : List Effect) : Prop where
  notCurrent : s'.manager.call_id_ ≠ call_id
  unchanged : e.call_id = call_id → s'.manager = s.manager
  silent : e.call_id = call_id → ∀ f ∈ effects,
    (∀ notice, f ≠ .callback notice) ∧ f ≠ .startTimer ∧ f ≠ .stopTimer ∧ f ≠ .tickTimer

/-- The call is ignored and not answered. -/
structure LeftAlone (call_id : pjsua_call_id) (s : System) (e : Event) (s' : System)
    (effects : List Effect) : Prop extends Ignored call_id s e s' effects where
  unanswered : ∀ code, .pjsua_call_answer call_id code ∉ effects

/-- As long as a call is active when an event is handled, `Q` holds of the event. -/
def WhileActive (active : Activity) (current : pjsua_call_id)
    (Q : System → Event → System → List Effect → Prop) : System → List Event → Prop
  | _, [] => True
  | s, e :: es =>
      active (s.history ++ [e]) current = true → ∀ s' effects,
        s.outcome active e = some (s', effects) →
          Q s e s' effects ∧ WhileActive active current Q s' es

/-- Along a run, a call that is rejected is left alone while the call it was
rejected for stays active. -/
def StaysRejected (active : Activity) (s : System) (es : List Event) : Prop :=
  ∀ past e rest t, es = past ++ e :: rest → exec (System.step active) s past = some t →
    Rejects active t e →
      WhileActive active t.manager.call_id_ (LeftAlone e.call_id) t (e :: rest)

/-! ## One event -/

section Step

variable {active : Activity} {s s' : System} {e : Event} {effects : List Effect}
  {current call_id : pjsua_call_id}

/-- An event of the call that is served. -/
theorem handle_serves {now : History} {m : MpCallManager} (h : m.call_id_ = e.call_id) :
    Serves e.call_id (handle active now m e) := by
  have hfree : busy active now m e.call_id = false := by simp [busy, h]
  cases e with
  | on_call_state call_id c_info =>
      cases c_info with
      | none => exact ensures_pure h
      | some info => exact onCallState_serves hfree _ _
  | on_incoming_call call_id c_info =>
      cases c_info with
      | none => exact ensures_pure h
      | some info =>
          have hring : About call_id (.pjsua_call_answer call_id (toInt MP_RING_CALL)) := by
            rintro other code hsame
            cases hsame
            rfl
          refine Ensures.bind ensures_quiet fun caller_serial _ => ?_
          refine Ensures.bind (onIncomingCall_serves hfree _) fun m hm => ?_
          exact Ensures.bind (ensures_tell hring) fun _ _ => ensures_pure hm

/-- What is done about a call that is not served. -/
def Turned (e : Event) (f : Effect) : Prop :=
  f = .pjsua_call_hangup e.call_id PJSIP_SC_BUSY_HERE ∨
    (Incoming e ∧ f = .pjsua_call_answer e.call_id (toInt MP_RING_CALL))

/-- An event of another call while one is served. -/
theorem handle_rejected {now : History} {m : MpCallManager}
    (h : busy active now m e.call_id = true) :
    Ensures (Turned e) (· = m) (handle active now m e) := by
  cases e with
  | on_call_state call_id c_info =>
      cases c_info with
      | none => exact ensures_pure rfl
      | some info =>
          exact ensures_of_run (onCallState_rejected h info.state info.last_status) rfl
            (by simp [Turned, Event.call_id])
  | on_incoming_call call_id c_info =>
      cases c_info with
      | none => exact ensures_pure rfl
      | some info =>
          have hreject (caller_serial) : Ensures (Turned (.on_incoming_call call_id (some info)))
              (· = m) (onIncomingCall active now m call_id caller_serial) :=
            ensures_of_run (onIncomingCall_rejected h caller_serial) rfl
              (by simp [Turned, Event.call_id])
          refine Ensures.bind ensures_quiet fun caller_serial _ => ?_
          refine Ensures.bind (hreject _) fun m' hm' => ?_
          exact Ensures.bind (ensures_tell (Or.inr ⟨trivial, rfl⟩)) fun _ _ => ensures_pure hm'

/-- **One event while the served call is active.** -/
theorem ignored_step (hcurrent : s.manager.call_id_ = current) (hvalid : current ≠ -1)
    (hother : current ≠ call_id) (hactive : active (s.history ++ [e]) current = true)
    (h : s.outcome active e = some (s', effects)) :
    s'.manager.call_id_ = current ∧ Ignored call_id s e s' effects ∧
      ((Incoming e → e.call_id ≠ call_id) →
        ∀ code, .pjsua_call_answer call_id code ∉ effects) := by
  obtain ⟨⟨m, log⟩, hrun, hsame⟩ := Option.map_eq_some_iff.1 h
  cases hsame
  by_cases hcall : e.call_id = current
  · -- the served call
    have hserves := handle_serves (hcurrent.trans hcall.symm) m log hrun
    have hkept : m.call_id_ = current := hserves.1.trans hcall
    refine ⟨hkept, ⟨?_, ?_, ?_⟩, ?_⟩
    · rwa [hkept]
    · exact fun hc => absurd (hcall.symm.trans hc) hother
    · exact fun hc => absurd (hcall.symm.trans hc) hother
    · intro _ code hin
      exact hother (hcall.symm.trans (hserves.2 _ hin call_id code rfl).symm)
  · -- another one
    have hbusy : busy active (s.history ++ [e]) s.manager e.call_id = true := by
      have hne : current ≠ e.call_id := fun hc => hcall hc.symm
      simp [busy, hcurrent, hne, hvalid, hactive]
    obtain ⟨hm, hlog⟩ := handle_rejected hbusy m log hrun
    have hkept : m.call_id_ = current := by rw [hm, hcurrent]
    refine ⟨hkept, ⟨?_, ?_, ?_⟩, ?_⟩
    · rwa [hkept]
    · exact fun _ => hm
    · intro _ f hf
      rcases hlog f hf with rfl | ⟨-, rfl⟩ <;> simp
    · intro hincoming code hin
      rcases hlog _ hin with hhangup | ⟨hin, hanswer⟩
      · cases hhangup
      · injection hanswer with hid
        exact hincoming hin hid.symm

theorem rejects_of_incoming (hincoming : Incoming e)
    (h : busy active (s.history ++ [e]) s.manager e.call_id = true) : Rejects active s e := by
  match e, hincoming with
  | .on_incoming_call _ (some _), _ => exact h

/-- A call is rejected for another one, which is active. -/
theorem busy_of_rejects (h : Rejects active s e) :
    busy active (s.history ++ [e]) s.manager e.call_id = true := by
  match e, h with
  | .on_incoming_call _ (some _), h => exact h
  | .on_call_state _ (some _), h => exact h

theorem busy_iff {now : History} {m : MpCallManager} :
    busy active now m call_id = true ↔
      m.call_id_ ≠ call_id ∧ m.call_id_ ≠ -1 ∧ active now m.call_id_ = true := by
  simp [busy, and_assoc]

/-- The caller hears that the phone is ringing, rejected or not. -/
theorem rings (hincoming : Incoming e) (h : s.outcome active e = some (s', effects)) :
    .pjsua_call_answer e.call_id (toInt MP_RING_CALL) ∈ effects := by
  match e, hincoming with
  | .on_incoming_call call_id (some info), _ =>
      obtain ⟨⟨m, log⟩, hrun, hsame⟩ := Option.map_eq_some_iff.1 h
      cases hsame
      obtain ⟨serial, l₁, l₂, -, hmanager, hlog⟩ := run_bind_eq_some.1 hrun
      obtain ⟨m₁, l₃, l₄, -, hring, hlog'⟩ := run_bind_eq_some.1 hmanager
      cases hring
      simp [hlog, hlog', Event.call_id]

end Step

/-! ## Whole runs -/

section Runs

variable {active : Activity} {current call_id : pjsua_call_id}

/-- What every event does while a call is served and active holds along the run. -/
theorem whileActive_of_steps {C : System → Event → Prop}
    {Q : System → Event → System → List Effect → Prop}
    (hstep : ∀ s e s' effects, s.manager.call_id_ = current →
      active (s.history ++ [e]) current = true → s.outcome active e = some (s', effects) →
        C s e → s'.manager.call_id_ = current ∧ Q s e s' effects) :
    ∀ {es : List Event} {s : System}, s.manager.call_id_ = current →
      Steps (System.step active) (fun s e _ => C s e) s es →
        WhileActive active current Q s es := by
  intro es
  induction es with
  | nil => intro s _ _; trivial
  | cons e es ih =>
      intro s hs hC hactive s' effects h
      have htaken : System.step active s e = some s' := by rw [System.step, h]; rfl
      obtain ⟨hc, hrest⟩ := hC s' htaken
      obtain ⟨hs', hq⟩ := hstep s e s' effects hs hactive h hc
      exact ⟨hq, ih hs' hrest⟩

/-- **The manager ignores a call it has rejected**, along every run. -/
theorem ignored_while_active (s : System) (es : List Event) :
    ∀ past e rest t, es = past ++ e :: rest → exec (System.step active) s past = some t →
      Rejects active t e →
        WhileActive active t.manager.call_id_ (Ignored e.call_id) t (e :: rest) := by
  intro past e rest t _ _ hrejects
  obtain ⟨hother, hvalid, -⟩ := busy_iff.1 (busy_of_rejects hrejects)
  refine whileActive_of_steps (C := fun _ _ => True) ?_ rfl (steps_of_forall fun _ _ => trivial)
  intro s e' s' effects hs hactive h _
  obtain ⟨hs', hignored, -⟩ := ignored_step hs hvalid hother hactive h
  exact ⟨hs', hignored⟩

/-- **A rejected call is left alone along every run in which no incoming call is
rejected, and along no other.** -/
theorem staysRejected_iff (active : Activity) (m : MpCallManager) (es : List Event) :
    StaysRejected active ⟨m, []⟩ es ↔
      Steps (System.step active) (fun s e _ => NotTurnedAway active s e) ⟨m, []⟩ es := by
  constructor
  · intro hstays
    rw [steps_iff_forall]
    intro past e rest t t' hes ht htaken hincoming hrejects
    obtain ⟨⟨t₁, effects⟩, houtcome, rfl⟩ := Option.map_eq_some_iff.1 htaken
    have hactive := (busy_iff.1 (busy_of_rejects hrejects)).2.2
    have hleft := (hstays past e rest t hes ht hrejects hactive t₁ effects houtcome).1
    exact hleft.unanswered _ (rings hincoming houtcome)
  · intro hsteps past e rest t hes ht hrejects
    obtain ⟨hother, hvalid, -⟩ := busy_iff.1 (busy_of_rejects hrejects)
    have hrest := (hes ▸ hsteps).behind ht
    refine whileActive_of_steps ?_ rfl hrest
    intro s e' s' effects hs hactive h hnot
    obtain ⟨hs', hignored, hunanswered⟩ := ignored_step hs hvalid hother hactive h
    refine ⟨hs', hignored, hunanswered ?_⟩
    intro hincoming hcall
    apply hnot hincoming
    apply rejects_of_incoming hincoming
    rw [busy_iff, hs, hcall]
    exact ⟨hother, hvalid, hactive⟩

end Runs

/-- While call 1 is made, `sip:b@h` calls: the call is hung up and rings. -/
theorem rejected_call_rings :
    ¬ StaysRejected (fun _ _ => true) ⟨⟨-1, 0, [MpCall], none⟩, []⟩
      [.on_call_state 1 (some ⟨.PJSIP_INV_STATE_CALLING, 0, []⟩),
        .on_incoming_call 2
          (some ⟨.PJSIP_INV_STATE_INCOMING, 0, [115, 105, 112, 58, 98, 64, 104]⟩)] := by
  intro h
  have hrun := h [.on_call_state 1 (some ⟨.PJSIP_INV_STATE_CALLING, 0, []⟩)] _ [] _ rfl rfl rfl rfl
  have hleft := (hrun _
    [.pjsua_call_hangup 2 PJSIP_SC_BUSY_HERE, .pjsua_call_answer 2 180] rfl).1
  exact hleft.unanswered 180 (by decide)

end EndToEndSmkex.Calls.Rejection
