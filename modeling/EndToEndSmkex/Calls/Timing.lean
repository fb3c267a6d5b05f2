import EndToEndSmkex.Calls.Rejection

/-!
# The timer of a call

While a call is made or comes in, a timer runs; when it expires, the application
closes the call and its connection.  The application hands the timer to the manager,
and may hand over another one at any time.  `holdCall` stops it without looking
whether there is one.

A timer does what it is told: it is active after `startTimer` and inactive after
`stopTimer`.  An answer of `timerIsActive` that does not fit is not possible.

## Main results

* `timed_iff` — only the timer of the manager runs, and only until the call is
  reported early, confirmed or disconnected, exactly where no timer is replaced
  while it runs.
* `unhold_restores` — a call that goes on has the sound devices it was held with.
* `watchdog_silent` — after a hold or an alarm the watchdog is silent.
-/

namespace EndToEndSmkex.Calls.Timing

open EndToEndSmkex.Lib.Actions
open EndToEndSmkex.Lib.Run
open EndToEndSmkex.Smkex.Record
open EndToEndSmkex.AutoResend.Engine (mp_status_t)
open EndToEndSmkex.AutoResend.Engine.mp_status_t
open EndToEndSmkex.Calls.CallManager
open EndToEndSmkex.Calls.CallManager.pjsip_inv_state
open EndToEndSmkex.Calls.Rejection hiding System System.outcome System.step

/-! ## The manager and its timers -/

/-- A timer, by its address. -/
abbrev Timer := Nat

/-- `MpCallManager`, and the devices `MpSIPStack` keeps for it.  `running` are the
timers that run, and `reported` is what `onCallState` was told last of the call that
is served. -/
structure Phone where
  call_id_ : pjsua_call_id
  lastAnswerMode_ : Int
  callCb_ : List MpICall
  timer_ : Option Timer
  enaWatchdog : Bool
  captureDevice : Int
  playbackDevice : Int
  history : History
  running : Timer → Bool
  reported : Option pjsip_inv_state

/-- The constructors. -/
def Phone.new : Phone where
  call_id_ := -1
  lastAnswerMode_ := 0
  callCb_ := []
  timer_ := none
  enaWatchdog := true
  captureDevice := 0
  playbackDevice := 0
  history := []
  running _ := false
  reported := none

/-- The manager with a timer that gives this answer. -/
def Phone.manager (s : Phone) (timerIsActive : Bool) : MpCallManager where
  call_id_ := s.call_id_
  lastAnswerMode_ := s.lastAnswerMode_
  callCb_ := s.callCb_
  timer_ := s.timer_.map fun _ _ => timerIsActive

inductive PhoneEvent where
  | callback (e : Event) (timerIsActive : Bool)
  | request (r : Request)
  | addCallCb (call : MpICall)
  | rmCallCb (i : Nat)
  | setCallTimer (timer : Option Timer)
  | startSIPStack (capture_dev playback_dev : Int)
  | holdCall (capture_dev playback_dev : Int)
  | unHoldCall
  | endWatchdogCall
  | setDoCallback
  | expires (timer : Timer)

/-- What is done outside. -/
inductive Done where
  | effect (f : Effect)
  | pjsua_call_set_hold (call_id : pjsua_call_id)
  | pjsua_call_reinvite (call_id : pjsua_call_id)
  | pjsua_set_snd_dev (capture_dev playback_dev : Int)

/-- The timers after a call of one of the functions of the manager's timer. -/
def afterEffect (timer : Option Timer) (running : Timer → Bool) (f : Effect) : Timer → Bool :=
  match timer, f with
  | some t, .startTimer => Function.update running t true
  | some t, .stopTimer => Function.update running t false
  | _, _ => running

/-- The answer fits what the timer was told. -/
def Obeys (timerIsActive : Bool) (effects : List Effect) : Prop :=
  (.startTimer ∈ effects → timerIsActive = true) ∧ (.stopTimer ∈ effects → timerIsActive = false)

instance (timerIsActive : Bool) (effects : List Effect) : Decidable (Obeys timerIsActive effects) :=
  inferInstanceAs (Decidable (_ ∧ _))

section Step

variable (active : Activity) (s : Phone)

/-- What an event reports of a call that is not rejected: its state, or nothing yet
of an incoming call. -/
def Phone.heard (e : Event) : Option (Option pjsip_inv_state) :=
  if busy active (s.history ++ [e]) (s.manager true) e.call_id then none
  else
    match e with
    | .on_call_state _ (some info) => some (some info.state)
    | .on_incoming_call _ (some _) => some none
    | .on_call_state _ none => none
    | .on_incoming_call _ none => none

/-- A function of the manager has returned. -/
def Phone.store (m : MpCallManager) : Phone :=
  { s with
    call_id_ := m.call_id_
    lastAnswerMode_ := m.lastAnswerMode_
    callCb_ := m.callCb_ }

/-- One event, and what is done outside. -/
def Phone.outcome : PhoneEvent → Option (Phone × List Done)
  | .callback e timerIsActive =>
    (handle active (s.history ++ [e]) (s.manager timerIsActive) e).run.bind fun p =>
      if Obeys timerIsActive p.2 then
        some
          ({ s.store p.1 with
             history := s.history ++ [e]
             running := p.2.foldl (afterEffect s.timer_) s.running
             reported := (s.heard active e).getD s.reported },
            p.2.map .effect)
      else none
  | .request r =>
    (serve active s.history [r] (s.manager true)).run.map fun p => (s.store p.1, p.2.map .effect)
  | .addCallCb call => some ({ s with callCb_ := s.callCb_ ++ [call] }, [])
  | .rmCallCb i => some ({ s with callCb_ := s.callCb_.eraseIdx i }, [])
  | .setCallTimer timer => some ({ s with timer_ := timer }, [])
  | .startSIPStack capture_dev playback_dev =>
    some ({ s with captureDevice := capture_dev, playbackDevice := playback_dev }, [])
  | .holdCall capture_dev playback_dev =>
    match s.timer_ with
    | none => none
    | some t =>
      let s :=
        if capture_dev ≠ -1 ∧ playback_dev ≠ -1 then
          { s with captureDevice := capture_dev, playbackDevice := playback_dev }
        else s
      some ({ s with enaWatchdog := false, running := Function.update s.running t false },
        [.pjsua_call_set_hold s.call_id_, .effect .stopTimer])
  | .unHoldCall =>
    some (s, [.pjsua_set_snd_dev s.captureDevice s.playbackDevice,
      .pjsua_call_reinvite s.call_id_])
  | .endWatchdogCall =>
    if s.timer_.isSome ∧ s.enaWatchdog then
      some ({ s with enaWatchdog := false }, [.effect .tickTimer])
    else some (s, [])
  | .setDoCallback => some ({ s with enaWatchdog := true }, [])
  | .expires timer =>
    if s.running timer then
      some ({ s with running := Function.update s.running timer false }, [.effect .tickTimer])
    else none

def Phone.step (e : PhoneEvent) : Option Phone := (s.outcome active e).map Prod.fst

end Step

/-! ## What the manager tells its timer -/

def isTimer : Effect → Bool
  | .startTimer | .stopTimer | .tickTimer => true
  | _ => false

/-- Where the action returns, its result has the property, and this is what the timer
is told. -/
def Tells {α : Type} (fs : List Effect) (R : α → Prop) (m : Act Effect α) : Prop :=
  ∀ a log, m.run = some (a, log) → R a ∧ log.filter isTimer = fs

section Tells

variable {α β : Type} {fs g : List Effect} {R : α → Prop} {S : β → Prop}

theorem tells_pure {a : α} (ha : R a) : Tells [] R (pure a : Act Effect α) := by
  intro b log h
  cases h
  exact ⟨ha, rfl⟩

theorem tells_tell (f : Effect) :
    Tells (if isTimer f then [f] else []) (fun _ => True) (tell f) := by
  intro b log h
  cases h
  refine ⟨trivial, ?_⟩
  cases hf : isTimer f <;> simp [hf]

theorem Tells.bind {m : Act Effect α} {f : α → Act Effect β} (hm : Tells fs R m)
    (hf : ∀ a, R a → Tells g S (f a)) : Tells (fs ++ g) S (m >>= f) := by
  intro b log h
  obtain ⟨a, l₁, l₂, hrun, hrest, rfl⟩ := run_bind_eq_some.1 h
  obtain ⟨ha, hl₁⟩ := hm a l₁ hrun
  obtain ⟨hb, hl₂⟩ := hf a ha b l₂ hrest
  exact ⟨hb, by rw [List.filter_append, hl₁, hl₂]⟩

/-- Something that tells the timer nothing follows. -/
theorem Tells.leaving {m : Act Effect α} {f : α → Act Effect β} (hm : Tells fs R m)
    (hf : ∀ a, R a → Tells [] S (f a)) : Tells fs S (m >>= f) := by
  have h := hm.bind hf
  rwa [List.append_nil] at h

theorem tells_quiet {F : Type} {m : Act F α} :
    Tells [] (fun _ => True) (quiet m : Act Effect α) := by
  intro a log h
  obtain ⟨p, -, hp⟩ := Option.map_eq_some_iff.1 h
  cases hp
  exact ⟨trivial, rfl⟩

end Tells

/-- What a timer is told that is to run, and what it does not know how to do. -/
def starting (timer : Option Timer) (timerIsActive : Bool) : List Effect :=
  if timer.isNone then [] else .startTimer :: if timerIsActive then [] else [.tickTimer]

def stopping (timer : Option Timer) (timerIsActive : Bool) : List Effect :=
  if timer.isNone then [] else .stopTimer :: if timerIsActive then [.tickTimer] else []

/-- What the timer is told after a report. -/
def told (timer : Option Timer) (timerIsActive : Bool) : Option pjsip_inv_state → List Effect
  | none | some PJSIP_INV_STATE_CALLING | some PJSIP_INV_STATE_CONNECTING =>
    starting timer timerIsActive
  | some PJSIP_INV_STATE_EARLY | some PJSIP_INV_STATE_CONFIRMED
  | some PJSIP_INV_STATE_DISCONNECTED => stopping timer timerIsActive
  | some PJSIP_INV_STATE_NULL | some PJSIP_INV_STATE_INCOMING => []

section Manager

variable {active : Activity} {now : History} {m : MpCallManager} {timer : Option Timer}
  {timerIsActive : Bool}

/-- The manager has this timer, which gives this answer. -/
def Has (timer : Option Timer) (timerIsActive : Bool) (m : MpCallManager) : Prop :=
  m.timer_ = timer.map fun _ _ => timerIsActive

theorem executeStopTimer_tells (h : Has timer timerIsActive m) :
    Tells (stopping timer timerIsActive) (fun _ => True) (executeStopTimer now m) := by
  unfold Has at h
  unfold executeStopTimer stopping
  rw [h]
  cases timer with
  | none => exact tells_pure trivial
  | some t =>
      refine (tells_tell .stopTimer).bind (g := if timerIsActive then [.tickTimer] else [])
        fun _ _ => ?_
      cases timerIsActive with
      | false => exact tells_pure trivial
      | true => exact tells_tell .tickTimer

theorem reinitializeTimer_tells (h : Has timer timerIsActive m) :
    Tells (starting timer timerIsActive) (fun _ => True) (reinitializeTimer now m) := by
  unfold Has at h
  unfold reinitializeTimer isTimerAvailable executeStartTimer starting
  rw [h]
  cases timer with
  | none => exact tells_pure trivial
  | some t =>
      refine (tells_tell .startTimer).bind (g := if timerIsActive then [] else [.tickTimer])
        fun _ _ => ?_
      cases timerIsActive with
      | true => exact tells_pure trivial
      | false => exact tells_tell .tickTimer

/-- The timer stays the manager's, and is told nothing. -/
abbrev Leaves (timer : Option Timer) (timerIsActive : Bool) : Act Effect MpCallManager → Prop :=
  Tells [] (Has timer timerIsActive)

theorem answerCall_leaves (h : Has timer timerIsActive m) (call_answer_mode : mp_status_t) :
    Leaves timer timerIsActive (answerCall m call_answer_mode) :=
  (tells_tell (.pjsua_call_answer m.call_id_ _)).bind fun _ _ => tells_pure h

theorem endCall_leaves (h : Has timer timerIsActive m) :
    Leaves timer timerIsActive (endCall m) :=
  (tells_tell .pjsua_call_hangup_all).bind fun _ _ => tells_pure h

theorem rejectCall_leaves (h : Has timer timerIsActive m) :
    Leaves timer timerIsActive (rejectCall active now m) := by
  unfold rejectCall
  split
  · exact tells_pure h
  · exact (tells_tell (.pjsua_call_hangup m.call_id_ _)).bind fun _ _ => tells_pure h

theorem serve_leaves (rs : List Request) :
    ∀ {m : MpCallManager}, Has timer timerIsActive m →
      Leaves timer timerIsActive (serve active now rs m) := by
  induction rs with
  | nil => exact fun h => tells_pure h
  | cons r rs ih =>
      intro m h
      cases r with
      | answerCall call_answer_mode => exact (answerCall_leaves h _).bind fun _ => ih
      | endCall => exact (endCall_leaves h).bind fun _ => ih
      | rejectCall => exact (rejectCall_leaves h).bind fun _ => ih

theorem notify_leaves (notice : Notice) (cCbList : List MpICall) :
    ∀ {m : MpCallManager}, Has timer timerIsActive m →
      Leaves timer timerIsActive (notify active now notice cCbList m) := by
  induction cCbList with
  | nil => exact fun h => tells_pure h
  | cons it cCbList ih =>
      intro m h
      refine (tells_tell (.callback notice)).bind fun _ _ => ?_
      exact (serve_leaves (it now notice) h).bind fun _ => ih

/-- What `onCallState` tells the timer of a call that is not rejected. -/
theorem onCallState_tells {call_id : pjsua_call_id} (h : Has timer timerIsActive m)
    (hfree : busy active now m call_id = false) (call_state : pjsip_inv_state)
    (last_status_code : pjsip_status_code) :
    Tells (told timer timerIsActive (some call_state)) (Has timer timerIsActive)
      (onCallState active now m call_id call_state last_status_code) := by
  have hunavailable : ¬ isTimerAvailable m = true → stopping timer timerIsActive = [] := by
    intro hnone
    unfold Has at h
    cases timer with
    | none => rfl
    | some t => simp [isTimerAvailable, h] at hnone
  rw [onCallState, hfree, if_neg Bool.false_ne_true]
  cases call_state with
  | PJSIP_INV_STATE_CALLING =>
      exact (reinitializeTimer_tells (m := { m with call_id_ := call_id }) h).leaving
        fun _ _ => notify_leaves _ _ h
  | PJSIP_INV_STATE_CONNECTING =>
      exact (reinitializeTimer_tells
        (m := { m with call_id_ := call_id, lastAnswerMode_ := 0 }) h).leaving
          fun _ _ => notify_leaves _ _ h
  | PJSIP_INV_STATE_EARLY =>
      dsimp only
      split
      · exact (executeStopTimer_tells
          (m := { m with call_id_ := call_id, lastAnswerMode_ := 0 }) h).leaving
            fun _ _ => notify_leaves _ _ h
      · next hnone =>
        rw [told, hunavailable hnone]
        exact notify_leaves _ _ h
  | PJSIP_INV_STATE_DISCONNECTED =>
      dsimp only
      split
      · exact (executeStopTimer_tells (m := { m with call_id_ := call_id }) h).leaving
          fun _ _ => notify_leaves _ _ h
      · next hnone =>
        rw [told, hunavailable hnone]
        exact notify_leaves _ _ h
  | PJSIP_INV_STATE_CONFIRMED =>
      exact (executeStopTimer_tells (m := { m with call_id_ := call_id }) h).leaving
        fun _ _ => notify_leaves _ _ h
  | PJSIP_INV_STATE_NULL => exact tells_pure h
  | PJSIP_INV_STATE_INCOMING => exact tells_pure h

theorem onIncomingCall_tells {call_id : pjsua_call_id} (h : Has timer timerIsActive m)
    (hfree : busy active now m call_id = false) (caller_serial : MpString) :
    Tells (told timer timerIsActive none) (Has timer timerIsActive)
      (onIncomingCall active now m call_id caller_serial) := by
  rw [onIncomingCall, hfree, if_neg Bool.false_ne_true]
  refine (notify_leaves (m := { m with call_id_ := call_id }) _ _ h).bind fun m' hm' => ?_
  exact (reinitializeTimer_tells hm').leaving fun _ _ => tells_pure hm'

/-- **What one callback of pjsua tells the timer.** -/
theorem handle_tells {s : Phone} (e : Event) :
    Tells (((s.heard active e).map (told s.timer_ timerIsActive)).getD [])
      (Has s.timer_ timerIsActive)
      (handle active (s.history ++ [e]) (s.manager timerIsActive) e) := by
  have h : Has s.timer_ timerIsActive (s.manager timerIsActive) := rfl
  cases hbusy : busy active (s.history ++ [e]) (s.manager timerIsActive) e.call_id with
  | true =>
      have hheard : s.heard active e = none := if_pos hbusy
      rw [hheard, Option.map_none, Option.getD_none]
      intro m log hrun
      obtain ⟨hm, hlog⟩ := handle_rejected hbusy m log hrun
      refine ⟨hm ▸ h, List.filter_eq_nil_iff.2 fun f hf => ?_⟩
      rcases hlog f hf with rfl | ⟨-, rfl⟩ <;> exact Bool.false_ne_true
  | false =>
      have hfree : ¬ busy active (s.history ++ [e]) (s.manager true) e.call_id = true :=
        Bool.eq_false_iff.1 hbusy
      cases e with
      | on_call_state call_id c_info =>
          cases c_info with
          | none =>
              rw [Phone.heard, if_neg hfree]
              exact tells_pure h
          | some info =>
              rw [Phone.heard, if_neg hfree]
              exact onCallState_tells h hbusy info.state info.last_status
      | on_incoming_call call_id c_info =>
          cases c_info with
          | none =>
              rw [Phone.heard, if_neg hfree]
              exact tells_pure h
          | some info =>
              rw [Phone.heard, if_neg hfree]
              refine tells_quiet.bind (g := told s.timer_ timerIsActive none)
                fun caller_serial _ => ?_
              refine (onIncomingCall_tells h hbusy _).leaving fun m hm => ?_
              exact (tells_tell (.pjsua_call_answer call_id _)).leaving fun _ _ => tells_pure hm

end Manager

/-! ## The timers that run -/

/-- The call has got somewhere, or has ended. -/
def Settled : Option pjsip_inv_state → Prop
  | some PJSIP_INV_STATE_EARLY | some PJSIP_INV_STATE_CONFIRMED
  | some PJSIP_INV_STATE_DISCONNECTED => True
  | _ => False

/-- Only the manager's timer runs, and only for a call that is made or comes in by
the last report.  A call that is made again after an early answer, or that connects,
starts the timer again. -/
structure Timed (s : Phone) : Prop where
  own : ∀ t, s.running t = true → s.timer_ = some t
  pending : ∀ t, s.running t = true → ¬ Settled s.reported

/-- The event is about a call that is rejected. -/
def Rejects (active : Activity) (s : Phone) : PhoneEvent → Prop
  | .callback e _ => busy active (s.history ++ [e]) (s.manager true) e.call_id = true
  | _ => False

/-- The timers run as before, and nobody has told them anything. -/
def Untouched (active : Activity) (s : Phone) (e : PhoneEvent) (s' : Phone) : Prop :=
  s'.running = s.running ∧
    ∀ done, s.outcome active e = some (s', done) → ∀ f, isTimer f = true → .effect f ∉ done

/-- No timer is replaced while it runs. -/
def Careful (s : Phone) : PhoneEvent → Prop
  | .setCallTimer timer => ∀ t, s.running t = true → timer = some t
  | _ => True

section Running

variable {timer : Option Timer} {running : Timer → Bool} {timerIsActive : Bool}

/-- The other effects are nothing to the timers. -/
theorem foldl_afterEffect (log : List Effect) :
    log.foldl (afterEffect timer) running =
      (log.filter isTimer).foldl (afterEffect timer) running := by
  induction log generalizing running with
  | nil => rfl
  | cons f log ih =>
      cases hf : isTimer f with
      | true => rw [List.filter_cons_of_pos hf, List.foldl_cons, List.foldl_cons, ih]
      | false =>
          have hsame : afterEffect timer running f = running := by
            cases timer <;> cases f <;> first | rfl | cases hf
          rw [List.filter_cons_of_neg (Bool.eq_false_iff.1 hf), List.foldl_cons, hsame, ih]

/-- The timers after a report. -/
def runningAfter (timer : Option Timer) (running : Timer → Bool) :
    Option pjsip_inv_state → Timer → Bool
  | none | some PJSIP_INV_STATE_CALLING | some PJSIP_INV_STATE_CONNECTING =>
    afterEffect timer running .startTimer
  | some PJSIP_INV_STATE_EARLY | some PJSIP_INV_STATE_CONFIRMED
  | some PJSIP_INV_STATE_DISCONNECTED => afterEffect timer running .stopTimer
  | some PJSIP_INV_STATE_NULL | some PJSIP_INV_STATE_INCOMING => running

theorem foldl_starting (h : .startTimer ∈ starting timer timerIsActive → timerIsActive = true) :
    (starting timer timerIsActive).foldl (afterEffect timer) running =
        afterEffect timer running .startTimer ∧
      .tickTimer ∉ starting timer timerIsActive := by
  cases timer with
  | none => simp [starting, afterEffect]
  | some t =>
      have hactive : timerIsActive = true := h (by simp [starting])
      simp [starting, hactive]

theorem foldl_stopping (h : .stopTimer ∈ stopping timer timerIsActive → timerIsActive = false) :
    (stopping timer timerIsActive).foldl (afterEffect timer) running =
        afterEffect timer running .stopTimer ∧
      .tickTimer ∉ stopping timer timerIsActive := by
  cases timer with
  | none => simp [stopping, afterEffect]
  | some t =>
      have hinactive : timerIsActive = false := h (by simp [stopping])
      simp [stopping, hinactive]

/-- A timer that obeys starts and stops, and the manager gives no alarm. -/
theorem foldl_told {log : List Effect} {r : Option pjsip_inv_state}
    (htold : log.filter isTimer = told timer timerIsActive r) (hobeys : Obeys timerIsActive log) :
    log.foldl (afterEffect timer) running = runningAfter timer running r ∧
      .tickTimer ∉ log := by
  have hmem : ∀ f, isTimer f = true → (f ∈ log ↔ f ∈ told timer timerIsActive r) := by
    intro f hf
    rw [← htold, List.mem_filter, and_iff_left hf]
  unfold Obeys at hobeys
  rw [hmem .startTimer rfl, hmem .stopTimer rfl] at hobeys
  rw [foldl_afterEffect, htold, hmem .tickTimer rfl]
  cases r with
  | none => exact foldl_starting hobeys.1
  | some state =>
      cases state with
      | PJSIP_INV_STATE_CALLING | PJSIP_INV_STATE_CONNECTING => exact foldl_starting hobeys.1
      | PJSIP_INV_STATE_EARLY | PJSIP_INV_STATE_CONFIRMED | PJSIP_INV_STATE_DISCONNECTED =>
          exact foldl_stopping hobeys.2
      | PJSIP_INV_STATE_NULL | PJSIP_INV_STATE_INCOMING => exact ⟨rfl, List.not_mem_nil⟩

end Running

section Steps

variable {active : Activity} {s s' : Phone}

/-- What a callback of pjsua does to the timers. -/
theorem step_callback {e : Event} {timerIsActive : Bool} {done : List Done}
    (h : s.outcome active (.callback e timerIsActive) = some (s', done)) :
    s'.timer_ = s.timer_ ∧ .effect .tickTimer ∉ done ∧
      (s.heard active e = none ∧ (s'.running = s.running ∧ s'.reported = s.reported ∧
          ∀ f, isTimer f = true → .effect f ∉ done) ∨
        ∃ r, s.heard active e = some r ∧ s'.running = runningAfter s.timer_ s.running r ∧
          s'.reported = r) := by
  obtain ⟨⟨m, log⟩, hrun, h⟩ := Option.bind_eq_some_iff.1 h
  split at h
  · next hobeys =>
    cases h
    obtain ⟨-, htold⟩ := handle_tells e m log hrun
    cases hheard : s.heard active e with
    | none =>
        rw [hheard, Option.map_none, Option.getD_none] at htold
        have hnothing : ∀ f ∈ log, ¬ isTimer f = true := List.filter_eq_nil_iff.1 htold
        have hsilent : ∀ f, isTimer f = true → Done.effect f ∉ log.map .effect := by
          intro f hf hmem
          obtain ⟨g, hg, hsame⟩ := List.mem_map.1 hmem
          cases hsame
          exact hnothing f hg hf
        refine ⟨rfl, hsilent .tickTimer rfl, .inl ⟨rfl, ?_, rfl, hsilent⟩⟩
        · show log.foldl (afterEffect s.timer_) s.running = s.running
          rw [foldl_afterEffect, htold]
          rfl
    | some r =>
        rw [hheard, Option.map_some, Option.getD_some] at htold
        obtain ⟨hrunning, hsilent⟩ := foldl_told htold hobeys
        exact ⟨rfl, by simpa using hsilent, .inr ⟨r, rfl, hrunning, rfl⟩⟩
  · cases h

theorem own_update {t₀ t : Timer} {on : Bool} {running : Timer → Bool}
    (hown : ∀ t, running t = true → some t₀ = some t)
    (h : Function.update running t₀ on t = true) : t = t₀ ∧ on = true := by
  by_cases ht : t = t₀
  · rw [ht, Function.update_self] at h
    exact ⟨ht, h⟩
  · rw [Function.update_of_ne ht] at h
    exact absurd (Option.some.inj (hown t h)).symm ht

/-- The manager's timer is started and stopped, so that no other comes to run. -/
theorem own_afterEffect {timer : Option Timer} {running : Timer → Bool} {f : Effect} {t : Timer}
    (hown : ∀ t, running t = true → timer = some t)
    (h : afterEffect timer running f t = true) : timer = some t ∧ f ≠ .stopTimer := by
  cases timer with
  | none => exact absurd (hown t h) nofun
  | some t₀ =>
      cases f with
      | startTimer => exact ⟨congrArg some (own_update hown h).1.symm, nofun⟩
      | stopTimer => cases (own_update hown h).2
      | _ => exact ⟨hown t h, nofun⟩

theorem own_runningAfter {timer : Option Timer} {running : Timer → Bool}
    {r : Option pjsip_inv_state} (hown : ∀ t, running t = true → timer = some t) {t : Timer}
    (h : runningAfter timer running r t = true) : timer = some t ∧ ¬ Settled r := by
  cases r with
  | none => exact ⟨(own_afterEffect hown h).1, id⟩
  | some state =>
      cases state with
      | PJSIP_INV_STATE_CALLING | PJSIP_INV_STATE_CONNECTING =>
          exact ⟨(own_afterEffect hown h).1, id⟩
      | PJSIP_INV_STATE_EARLY | PJSIP_INV_STATE_CONFIRMED | PJSIP_INV_STATE_DISCONNECTED =>
          exact absurd rfl (own_afterEffect hown h).2
      | PJSIP_INV_STATE_NULL | PJSIP_INV_STATE_INCOMING => exact ⟨hown t h, id⟩

/-- **One event.** -/
theorem timed_step_iff {e : PhoneEvent} (h : Timed s) (hstep : s.step active e = some s') :
    Timed s' ↔ Careful s e := by
  obtain ⟨⟨s₁, done⟩, houtcome, rfl⟩ := Option.map_eq_some_iff.1 hstep
  cases e with
  | callback e timerIsActive =>
      refine iff_of_true ?_ trivial
      obtain ⟨htimer, -, ⟨-, hrunning, hreported, -⟩ | ⟨r, -, hrunning, hreported⟩⟩ :=
        step_callback houtcome
      · constructor
        · intro t ht
          rw [hrunning] at ht
          exact htimer.trans (h.own t ht)
        · intro t ht
          rw [hrunning] at ht
          rw [hreported]
          exact h.pending t ht
      · constructor
        · intro t ht
          rw [hrunning] at ht
          exact htimer.trans (own_runningAfter h.own ht).1
        · intro t ht
          rw [hrunning] at ht
          rw [hreported]
          exact (own_runningAfter h.own ht).2
  | request r =>
      obtain ⟨p, -, hp⟩ := Option.map_eq_some_iff.1 houtcome
      cases hp
      exact iff_of_true ⟨h.own, h.pending⟩ trivial
  | addCallCb call | rmCallCb i | setDoCallback | startSIPStack _ _ | unHoldCall =>
      cases houtcome
      exact iff_of_true ⟨h.own, h.pending⟩ trivial
  | setCallTimer timer =>
      cases houtcome
      exact ⟨fun hs' => hs'.own, fun hcareful => ⟨hcareful, h.pending⟩⟩
  | holdCall capture_dev playback_dev =>
      rw [Phone.outcome] at houtcome
      cases htimer : s.timer_ with
      | none =>
          rw [htimer] at houtcome
          cases houtcome
      | some t₀ =>
          rw [htimer] at houtcome
          have hown := h.own
          rw [htimer] at hown
          refine iff_of_true ?_ trivial
          have hstopped : s₁.running = Function.update s.running t₀ false := by
            dsimp only at houtcome
            split at houtcome <;> cases houtcome <;> rfl
          constructor
          · intro t ht
            rw [hstopped] at ht
            cases (own_update hown ht).2
          · intro t ht
            rw [hstopped] at ht
            cases (own_update hown ht).2
  | endWatchdogCall =>
      rw [Phone.outcome] at houtcome
      split at houtcome <;> cases houtcome <;> exact iff_of_true ⟨h.own, h.pending⟩ trivial
  | expires timer =>
      rw [Phone.outcome] at houtcome
      split at houtcome
      · next hrunning =>
        cases houtcome
        have hown := h.own
        rw [h.own timer hrunning] at hown
        refine iff_of_true ⟨?_, ?_⟩ trivial
        · intro t ht
          cases (own_update hown ht).2
        · intro t ht
          cases (own_update hown ht).2
      · cases houtcome

/-- A call that is rejected is nothing to the timers. -/
theorem untouched_of_rejects {e : PhoneEvent} (h : Rejects active s e)
    (hstep : s.step active e = some s') : Untouched active s e s' := by
  have hcallback : ∀ done, s.outcome active e = some (s', done) →
      s'.running = s.running ∧ ∀ f, isTimer f = true → .effect f ∉ done := by
    intro done houtcome
    cases e with
    | callback e timerIsActive =>
        have hunheard : s.heard active e = none := by
          unfold Phone.heard
          exact if_pos h
        obtain ⟨-, -, ⟨-, hrunning, -, hsilent⟩ | ⟨r, hheard, -⟩⟩ := step_callback houtcome
        · exact ⟨hrunning, hsilent⟩
        · rw [hunheard] at hheard
          cases hheard
    | _ => cases h
  obtain ⟨⟨s₁, done⟩, houtcome, rfl⟩ := Option.map_eq_some_iff.1 hstep
  exact ⟨(hcallback done houtcome).1, fun done' houtcome' => (hcallback done' houtcome').2⟩

end Steps

/-! ## Whole runs -/

/-- The timer is replaced while a call is made, and runs on when it is answered. -/
example :
    let info (state : pjsip_inv_state) : Option pjsua_call_info := some ⟨state, 0, []⟩
    (exec (Phone.step fun _ _ => true) Phone.new
      [.setCallTimer (some 1),
        .callback (.on_call_state 1 (info PJSIP_INV_STATE_CALLING)) true,
        .setCallTimer (some 2),
        .callback (.on_call_state 1 (info PJSIP_INV_STATE_CONFIRMED)) false]).map
      (fun s => (s.running 1, s.reported)) = some (true, some PJSIP_INV_STATE_CONFIRMED) := by
  decide +kernel

/-! ## Holding a call -/

section Hold

variable {active : Activity} {s s₁ s₂ : Phone} {es : List PhoneEvent}

/-- `enaWatchdog` is set in one place, and the devices in two. -/
def SetsDevices : PhoneEvent → Prop
  | .startSIPStack _ _ | .holdCall _ _ => True
  | _ => False

theorem step_kept {e : PhoneEvent} (hstep : s.step active e = some s₁) :
    (e ≠ .setDoCallback → s.enaWatchdog = false → s₁.enaWatchdog = false) ∧
      (¬ SetsDevices e →
        s₁.captureDevice = s.captureDevice ∧ s₁.playbackDevice = s.playbackDevice) := by
  obtain ⟨⟨s₂, done⟩, houtcome, rfl⟩ := Option.map_eq_some_iff.1 hstep
  cases e with
  | callback e timerIsActive =>
      obtain ⟨p, -, hp⟩ := Option.bind_eq_some_iff.1 houtcome
      split at hp
      · cases hp
        exact ⟨fun _ hoff => hoff, fun _ => ⟨rfl, rfl⟩⟩
      · cases hp
  | request r =>
      obtain ⟨p, -, hp⟩ := Option.map_eq_some_iff.1 houtcome
      cases hp
      exact ⟨fun _ hoff => hoff, fun _ => ⟨rfl, rfl⟩⟩
  | addCallCb _ | rmCallCb _ | setCallTimer _ | unHoldCall =>
      cases houtcome
      exact ⟨fun _ hoff => hoff, fun _ => ⟨rfl, rfl⟩⟩
  | startSIPStack _ _ =>
      cases houtcome
      exact ⟨fun _ hoff => hoff, fun hnot => absurd trivial hnot⟩
  | setDoCallback =>
      cases houtcome
      exact ⟨fun hne => absurd rfl hne, fun _ => ⟨rfl, rfl⟩⟩
  | holdCall capture_dev playback_dev =>
      refine ⟨fun _ _ => ?_, fun hnot => absurd trivial hnot⟩
      rw [Phone.outcome] at houtcome
      split at houtcome
      · cases houtcome
      · cases houtcome
        rfl
  | endWatchdogCall =>
      rw [Phone.outcome] at houtcome
      split at houtcome <;> cases houtcome
      · exact ⟨fun _ _ => rfl, fun _ => ⟨rfl, rfl⟩⟩
      · exact ⟨fun _ hoff => hoff, fun _ => ⟨rfl, rfl⟩⟩
  | expires timer =>
      rw [Phone.outcome] at houtcome
      split at houtcome
      · cases houtcome
        exact ⟨fun _ hoff => hoff, fun _ => ⟨rfl, rfl⟩⟩
      · cases houtcome

/-- **After a hold or an alarm the watchdog is silent** until `setDoCallback`; going on
with the call does not wake it. -/
theorem watchdog_silent (hoff : s.enaWatchdog = false) (hes : ∀ e ∈ es, e ≠ .setDoCallback)
    (hrun : exec (Phone.step active) s es = some s₁) :
    s₁.outcome active .endWatchdogCall = some (s₁, []) := by
  have hstill : s₁.enaWatchdog = false :=
    Steps.exec (C := fun _ e _ => e ≠ PhoneEvent.setDoCallback)
      (I := fun s : Phone => s.enaWatchdog = false)
      (fun s e s' h hstep hne => (step_kept hstep).1 hne h) hoff (steps_of_forall hes) hrun
  rw [Phone.outcome, hstill]
  exact if_neg fun h => Bool.false_ne_true h.2

/-- **A call that goes on has the sound devices it was held with**, whatever other
calls and the application have done in the meantime. -/
theorem unhold_restores {capture_dev playback_dev : Int} (hcapture : capture_dev ≠ -1)
    (hplayback : playback_dev ≠ -1)
    (hhold : s.step active (.holdCall capture_dev playback_dev) = some s₁)
    (hes : ∀ e ∈ es, ¬ SetsDevices e) (hrun : exec (Phone.step active) s₁ es = some s₂) :
    s₂.outcome active .unHoldCall =
      some (s₂, [.pjsua_set_snd_dev capture_dev playback_dev,
        .pjsua_call_reinvite s₂.call_id_]) := by
  have hheld : s₁.captureDevice = capture_dev ∧ s₁.playbackDevice = playback_dev := by
    obtain ⟨⟨s', done⟩, houtcome, rfl⟩ := Option.map_eq_some_iff.1 hhold
    rw [Phone.outcome, if_pos ⟨hcapture, hplayback⟩] at houtcome
    split at houtcome
    · cases houtcome
    · cases houtcome
      exact ⟨rfl, rfl⟩
  have hstill : s₂.captureDevice = capture_dev ∧ s₂.playbackDevice = playback_dev := by
    refine Steps.exec (C := fun _ e _ => ¬ SetsDevices e)
      (I := fun s : Phone => s.captureDevice = capture_dev ∧ s.playbackDevice = playback_dev)
      (fun s e s' h hstep hnot => ?_) hheld (steps_of_forall hes) hrun
    obtain ⟨hc, hp⟩ := (step_kept hstep).2 hnot
    exact ⟨hc.trans h.1, hp.trans h.2⟩
  rw [Phone.outcome, hstill.1, hstill.2]

end Hold

end EndToEndSmkex.Calls.Timing
