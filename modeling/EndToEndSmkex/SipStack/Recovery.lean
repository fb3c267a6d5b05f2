import EndToEndSmkex.Lib.Run
import EndToEndSmkex.SipStack.Stack

/-!
# Starting again after a failed start

Runs of `startSIPStack` and `stopSIPStack` in which any call to pjsua may fail.
A start that fails after `pjsua_create` has succeeded leaves the instance
behind, unless it fails at `pjsua_start` and the `pjsua_destroy` that follows
succeeds.  `started_` is then still false, so neither a stop nor the stop at
the beginning of the next start destroys that instance.

## Main results

* `run_startSIPStack_stopped`, `run_stopSIPStack_started` — what one call does.
* `started_eq_upSince` — `started_` says what it should after every run.
* `oneInstance_iff` — `pjsua_create` is only called without an instance exactly
  where no start follows a start that has left its instance behind.
-/

namespace EndToEndSmkex.SipStack.Recovery

open EndToEndSmkex.Lib.Actions
open EndToEndSmkex.Lib.Run
open EndToEndSmkex.AutoResend.Engine (mp_status_t)
open EndToEndSmkex.AutoResend.Engine.mp_status_t
open EndToEndSmkex.SipStack.Stack

/-! ## Runs -/

inductive Event where
  | startSIPStack (ans : Answers) (networkState : mp_network_state_t)
  | stopSIPStack (ans : Answers)

def Event.isStart : Event → Bool
  | .startSIPStack _ _ => true
  | .stopSIPStack _ => false

/-- One finished call, with the calls of pjsua it has made. -/
structure Entry where
  event : Event
  status : mp_status_t
  calls : List (PjsuaCall × Bool)

/-- The two objects and everything that was called, in order. -/
structure System where
  service : MpService
  history : List Entry

def System.new : System := ⟨MpService.new, []⟩

def handle (service : MpService) : Event → Action (MpService × mp_status_t)
  | .startSIPStack ans networkState => Stack.startSIPStack ans networkState service
  | .stopSIPStack ans => Stack.stopSIPStack ans service

def System.step (s : System) (e : Event) : Option System :=
  (handle s.service e).run.map fun p => ⟨p.1.1, s.history ++ [⟨e, p.1.2, p.2⟩]⟩

/-- All calls of pjsua. -/
def System.calls (s : System) : List (PjsuaCall × Bool) := s.history.flatMap Entry.calls

def Pjsua.new : Pjsua := ⟨false, []⟩

/-- `pjsua_create` is only called while there is no instance. -/
def OneInstance : Pjsua → List (PjsuaCall × Bool) → Prop
  | _, [] => True
  | p, c :: cs => (c.1 = .create → p.undestroyed = false) ∧ OneInstance (p.after c) cs

instance OneInstance.decidable :
    (p : Pjsua) → (cs : List (PjsuaCall × Bool)) → Decidable (OneInstance p cs)
  | _, [] => isTrue trivial
  | p, c :: cs =>
      have := OneInstance.decidable (p.after c) cs
      inferInstanceAs (Decidable ((c.1 = .create → p.undestroyed = false) ∧
        OneInstance (p.after c) cs))

/-- Some call has destroyed an instance. -/
def destroys (cs : List (PjsuaCall × Bool)) : Bool :=
  cs.any fun c => c = (.destroy, true) || c = (.destroy2, true)

/-- The last start ran to its end and no later destroy succeeded; the last
entry comes first. -/
def upSince : List Entry → Bool
  | [] => false
  | r :: rs =>
      if destroys r.calls then false
      else
        match r.event with
        | .startSIPStack _ _ => r.status = MP_SUCCESS
        | .stopSIPStack _ => upSince rs

/-! ## When an instance is left behind -/

/-- The calls of `setCodecsPriorities` all succeed. -/
def codecsSet (ans : Answers) (networkState : mp_network_state_t) : Bool :=
  ans.succeeds .enum_codecs &&
  (List.range ans.codecs).all
    (fun i => ans.succeeds (.codec_set_priority (.enumerated i) 0)) &&
  match networkState with
  | .MP_NETWORK_UNREACHABLE => true
  | .MP_NETWORK_GPRS | .MP_NETWORK_EDGE | .MP_NETWORK_WCDMA =>
      ans.succeeds (.codec_set_priority (.named "iLBC/8000/1") 255)
  | .MP_NETWORK_WIFI | .MP_NETWORK_LTE | .MP_NETWORK_OTHER =>
      ans.succeeds (.codec_set_priority (.named "PCMU/8000/1") 255) &&
      ans.succeeds (.codec_set_priority (.named "iLBC/8000/1") 128)

/-- The steps of a start up to `pjsua_start`. -/
def launches (ans : Answers) : Bool :=
  ans.succeeds .init && ans.succeeds .transport_create && ans.succeeds .start

/-- The steps of a start behind `pjsua_start`. -/
def registers (ans : Answers) (networkState : mp_network_state_t) : Bool :=
  ans.succeeds .acc_add && ans.succeeds .acc_set_online_status && codecsSet ans networkState

def completes (ans : Answers) (networkState : mp_network_state_t) : Bool :=
  ans.succeeds .create && launches ans && registers ans networkState

/-- The step that fails is the one whose failure is cleaned up. -/
def cleansUp (ans : Answers) : Bool :=
  ans.succeeds .init && ans.succeeds .transport_create && !ans.succeeds .start &&
    ans.succeeds .destroy

/-- A start with these answers fails and leaves its instance behind. -/
def leavesInstance (ans : Answers) (networkState : mp_network_state_t) : Bool :=
  ans.succeeds .create && !completes ans networkState && !cleansUp ans

/-- No start follows a start that has left its instance behind; the flag is
`started_`. -/
def recovers : Bool → List Event → Bool
  | _, [] => true
  | true, .startSIPStack _ _ :: es => recovers true es
  | true, .stopSIPStack ans :: es => recovers (!ans.succeeds .destroy2) es
  | false, .stopSIPStack _ :: es => recovers false es
  | false, .startSIPStack ans networkState :: es =>
      if leavesInstance ans networkState then es.all (!·.isStart)
      else recovers (completes ans networkState) es

/-! ## One call -/

/-- A call that neither creates nor destroys an instance. -/
def Neutral (c : PjsuaCall × Bool) : Prop :=
  c.1 ≠ .create ∧ c.1 ≠ .destroy ∧ c.1 ≠ .destroy2

theorem emits_call (ans : Answers) (c : PjsuaCall) (hc : Neutral (c, ans.succeeds c)) :
    Emits Neutral (call ans c) := (emits_tell hc).bind fun _ => emits_pure _

section Codecs

variable (ans : Answers) (networkState : mp_network_state_t)

private theorem value_resetPriorities (is : List Nat) :
    value (resetPriorities ans is) =
      some (is.all fun i => ans.succeeds (.codec_set_priority (.enumerated i) 0)) := by
  induction is with
  | nil => rfl
  | cons i is ih =>
      cases hok : ans.succeeds (.codec_set_priority (.enumerated i) 0) with
      | false => simp [resetPriorities, call, hok]
      | true => simp [resetPriorities, call, hok, ih]

private theorem emits_resetPriorities (is : List Nat) :
    Emits Neutral (resetPriorities ans is) := by
  induction is with
  | nil => exact emits_pure true
  | cons i is ih =>
      refine (emits_call ans _ (by simp [Neutral])).bind fun ok => ?_
      cases ok with
      | false => exact emits_pure false
      | true => exact ih

theorem value_setCodecsPriorities :
    value (setCodecsPriorities ans networkState) = some (codecsSet ans networkState) := by
  unfold setCodecsPriorities codecsSet
  cases hlist : ans.succeeds .enum_codecs with
  | false => simp [call, hlist]
  | true =>
      cases hall : (List.range ans.codecs).all fun i =>
          ans.succeeds (.codec_set_priority (.enumerated i) 0) with
      | false => simp [call, hlist, value_resetPriorities, hall]
      | true =>
          cases hwide : ans.succeeds (.codec_set_priority (.named "PCMU/8000/1") 255) <;>
            cases networkState <;>
              simp [call, hlist, value_resetPriorities, hall, hwide]

/-- Setting priorities leaves the instance alone. -/
theorem emits_setCodecsPriorities :
    Emits Neutral (setCodecsPriorities ans networkState) := by
  have hpriority (codec : CodecId) (priority : Nat) :
      Emits Neutral (call ans (.codec_set_priority codec priority)) :=
    emits_call ans _ (by simp [Neutral])
  refine (emits_call ans _ (by simp [Neutral])).bind fun listed => ?_
  cases listed with
  | false => exact emits_pure false
  | true =>
      refine (emits_resetPriorities ans _).bind fun done => ?_
      cases done with
      | false => exact emits_pure false
      | true =>
          cases networkState with
          | MP_NETWORK_UNREACHABLE => exact emits_pure true
          | MP_NETWORK_GPRS | MP_NETWORK_EDGE | MP_NETWORK_WCDMA => exact hpriority _ _
          | MP_NETWORK_WIFI | MP_NETWORK_LTE | MP_NETWORK_OTHER =>
              refine (hpriority _ _).bind fun ok => ?_
              cases ok with
              | false => exact emits_pure false
              | true => exact hpriority _ _

end Codecs

/-- What is left of the instance after these calls. -/
def undestroyedAfter (p : Pjsua) (cs : List (PjsuaCall × Bool)) : Bool :=
  (cs.foldl Pjsua.after p).undestroyed

theorem undestroyedAfter_cons (p : Pjsua) (c : PjsuaCall × Bool)
    (cs : List (PjsuaCall × Bool)) :
    undestroyedAfter p (c :: cs) = undestroyedAfter (p.after c) cs := rfl

theorem Neutral.after {c : PjsuaCall × Bool} (hc : Neutral c) (p : Pjsua) :
    (p.after c).undestroyed = p.undestroyed := by
  obtain ⟨call, ok⟩ := c
  cases ok with
  | false => cases call <;> rfl
  | true => cases call <;> first | rfl | simp [Neutral] at hc

theorem undestroyedAfter_neutral {cs : List (PjsuaCall × Bool)} (h : ∀ c ∈ cs, Neutral c) :
    ∀ p : Pjsua, undestroyedAfter p cs = p.undestroyed := by
  induction cs with
  | nil => intro p; rfl
  | cons c cs ih =>
      intro p
      rw [undestroyedAfter_cons, ih (fun d hd => h d (by simp [hd])), (h c (by simp)).after]

theorem destroys_neutral {cs : List (PjsuaCall × Bool)} (h : ∀ c ∈ cs, Neutral c) :
    destroys cs = false := by
  rw [destroys, List.any_eq_false]
  intro c hc
  obtain ⟨-, hdestroy, hdestroy2⟩ := h c hc
  have h₁ : c ≠ (.destroy, true) := by
    rintro rfl
    exact hdestroy rfl
  have h₂ : c ≠ (.destroy2, true) := by
    rintro rfl
    exact hdestroy2 rfl
  simp [h₁, h₂]

section Calls

variable (ans : Answers) (networkState : mp_network_state_t) (s : MpService)

/-- Without `started_` a stop does nothing. -/
theorem run_stopSIPStack_stopped (h : s.started_ = false) :
    (stopSIPStack ans s).run = some ((s, MP_SUCCESS), []) := by
  simp [stopSIPStack, h]

theorem run_stopSIPStack_started (h : s.started_ = true) :
    ∃ status, (stopSIPStack ans s).run =
      some ((⟨!ans.succeeds .destroy2, fun _ => none⟩, status),
        [(.destroy2, ans.succeeds .destroy2)]) := by
  cases hok : ans.succeeds .destroy2 <;>
    simp [stopSIPStack, h, reset, run_bind, run_call, hok]

theorem run_startSIPStack_started (h : s.started_ = true) :
    (startSIPStack ans networkState s).run = some ((s, MP_SUCCESS), []) := by
  simp [startSIPStack, h]

/-- What a start calls behind `pjsua_create`: nothing that creates an instance,
and nothing that destroys it unless it is cleaned up. -/
structure Launch (cs : List (PjsuaCall × Bool)) : Prop where
  no_create : ∀ c ∈ cs, c.1 ≠ .create
  leaves : ∀ p : Pjsua, undestroyedAfter p cs =
    (p.undestroyed && !(ans.succeeds .create && cleansUp ans))
  destroyed : destroys cs = (ans.succeeds .create && cleansUp ans)

private theorem Launch.of_neutral {cs : List (PjsuaCall × Bool)} (hclean : cleansUp ans = false)
    (h : ∀ c ∈ cs, Neutral c) : Launch ans cs where
  no_create := fun c hc => (h c hc).1
  leaves := by simp [undestroyedAfter_neutral h, hclean]
  destroyed := by simp [destroys_neutral h, hclean]

/-- **A start on a stopped stack** creates an instance, and ends with
`started_` where all its steps succeed. -/
theorem run_startSIPStack_stopped (h : s.started_ = false) :
    ∃ cs, (startSIPStack ans networkState s).run =
        some (({ s with started_ := completes ans networkState },
            if completes ans networkState then MP_SUCCESS else MP_SIP_INIT_ERR),
          (.create, ans.succeeds .create) :: cs) ∧
      Launch ans cs := by
  have hs : { s with started_ := false } = s := by rw [← h]
  have hstop := run_stopSIPStack_stopped ans s h
  -- the steps one after the other, each with what was called up to its failure
  cases hcreate : ans.succeeds .create with
  | false =>
      refine ⟨[], ?_, by simp, by simp [hcreate, undestroyedAfter], by simp [hcreate, destroys]⟩
      simp [startSIPStack, h, hstop, run_bind, run_call, completes, hcreate, hs]
  | true =>
  cases hinit : ans.succeeds .init with
  | false =>
      refine ⟨[(.init, false)], ?_, .of_neutral ans (by simp [cleansUp, hinit])
        (by simp [Neutral])⟩
      simp [startSIPStack, h, hstop, run_bind, run_call, completes, launches, hcreate, hinit, hs]
  | true =>
  cases htransport : ans.succeeds .transport_create with
  | false =>
      refine ⟨[(.init, true), (.transport_create, false)], ?_,
        .of_neutral ans (by simp [cleansUp, htransport]) (by simp [Neutral])⟩
      simp [startSIPStack, h, hstop, run_bind, run_call, completes, launches, hcreate, hinit,
        htransport, hs]
  | true =>
  cases hstart : ans.succeeds .start with
  | false =>
      refine ⟨[(.init, true), (.transport_create, true), (.start, false),
        (.destroy, ans.succeeds .destroy)], ?_, by simp, ?_, ?_⟩
      · simp [startSIPStack, h, hstop, run_bind, run_call, completes, launches, hcreate, hinit,
          htransport, hstart, hs]
      · intro p
        cases hdestroy : ans.succeeds .destroy <;>
          simp [undestroyedAfter, Pjsua.after, cleansUp, hcreate, hinit, htransport, hstart,
            hdestroy]
      · simp [destroys, cleansUp, hcreate, hinit, htransport, hstart]
  | true =>
  have hclean : cleansUp ans = false := by simp [cleansUp, hstart]
  cases hacc : ans.succeeds .acc_add with
  | false =>
      refine ⟨[(.init, true), (.transport_create, true), (.start, true), (.acc_add, false)], ?_,
        .of_neutral ans hclean (by simp [Neutral])⟩
      simp [startSIPStack, h, hstop, run_bind, run_call, completes, registers, hcreate, hinit,
        htransport, hstart, hacc, hs]
  | true =>
  cases honline : ans.succeeds .acc_set_online_status with
  | false =>
      refine ⟨[(.init, true), (.transport_create, true), (.start, true), (.acc_add, true),
        (.acc_set_online_status, false)], ?_, .of_neutral ans hclean (by simp [Neutral])⟩
      simp [startSIPStack, h, hstop, run_bind, run_call, completes, registers, hcreate, hinit,
        htransport, hstart, hacc, honline, hs]
  | true =>
      obtain ⟨cs, hcodecs⟩ := run_of_value (value_setCodecsPriorities ans networkState)
      have hneutral := emits_setCodecsPriorities ans networkState _ cs hcodecs
      refine ⟨[(.init, true), (.transport_create, true), (.start, true), (.acc_add, true),
        (.acc_set_online_status, true)] ++ cs, ?_,
        .of_neutral ans hclean (by simpa [Neutral] using hneutral)⟩
      cases hset : codecsSet ans networkState <;>
        simp [startSIPStack, h, hstop, run_bind, run_call, completes, launches, registers,
          hcreate, hinit, htransport, hstart, hacc, honline, hcodecs, hset, hs]

end Calls

/-- An instance is there after a start exactly where the start ran to its end or
left it behind. -/
theorem undestroyed_of_start (ans : Answers) (networkState : mp_network_state_t) :
    ((false || ans.succeeds .create) && !(ans.succeeds .create && cleansUp ans)) =
      (completes ans networkState || leavesInstance ans networkState) := by
  have hclean : cleansUp ans = true → completes ans networkState = false := by
    intro h
    simp only [cleansUp, Bool.and_eq_true, Bool.not_eq_true'] at h
    simp [completes, launches, h]
  have hneeds : completes ans networkState = true → ans.succeeds .create = true := by
    intro h
    simp only [completes, Bool.and_eq_true] at h
    exact h.1.1
  unfold leavesInstance
  cases hcreate : ans.succeeds .create <;> cases hcleans : cleansUp ans <;>
    cases hcompletes : completes ans networkState <;> simp_all

/-! ## One step -/

/-- The state of pjsua. -/
def System.pjsua (s : System) : Pjsua := s.calls.foldl Pjsua.after Pjsua.new

/-- No instance has been created next to another one. -/
def System.Clean (s : System) : Prop := OneInstance Pjsua.new s.calls

theorem oneInstance_append {cs ds : List (PjsuaCall × Bool)} :
    ∀ {p : Pjsua}, OneInstance p (cs ++ ds) ↔
      OneInstance p cs ∧ OneInstance (cs.foldl Pjsua.after p) ds := by
  induction cs with
  | nil => simp [OneInstance]
  | cons c cs ih =>
      intro p
      rw [List.cons_append, OneInstance, OneInstance, ih, List.foldl_cons, and_assoc]

theorem oneInstance_of_no_create {cs : List (PjsuaCall × Bool)}
    (h : ∀ c ∈ cs, c.1 ≠ .create) : ∀ p : Pjsua, OneInstance p cs := by
  induction cs with
  | nil => intro p; trivial
  | cons c cs ih =>
      intro p
      exact ⟨fun hc => absurd hc (h c (by simp)), ih (fun d hd => h d (by simp [hd])) _⟩

/-- The state after a step, seen from the one before: the flag, the instance,
and what the step adds to `Clean`. -/
structure Next (s s' : System) (started undestroyed : Bool) (clean : Prop) : Prop where
  started_eq : s'.service.started_ = started
  undestroyed_eq : s'.pjsua.undestroyed = undestroyed
  clean_iff : s'.Clean ↔ s.Clean ∧ clean

section Step

variable {s : System} (ans : Answers) (networkState : mp_network_state_t)

private theorem step_of_run {e : Event} {service : MpService} {status : mp_status_t}
    {cs : List (PjsuaCall × Bool)} (h : (handle s.service e).run = some ((service, status), cs)) :
    s.step e = some ⟨service, s.history ++ [⟨e, status, cs⟩]⟩ := by
  rw [System.step, h]
  rfl

private theorem next_of_calls {service : MpService} {entry : Entry}
    {undestroyed : Bool} {clean : Prop}
    (hundestroyed : undestroyedAfter s.pjsua entry.calls = undestroyed)
    (hclean : OneInstance s.pjsua entry.calls ↔ clean) :
    Next s ⟨service, s.history ++ [entry]⟩ service.started_ undestroyed clean where
  started_eq := rfl
  undestroyed_eq := by
    rw [← hundestroyed]
    simp [System.pjsua, System.calls, undestroyedAfter]
  clean_iff := by
    rw [← hclean]
    simp [System.Clean, System.pjsua, System.calls, oneInstance_append]

theorem step_start_started (h : s.service.started_ = true) :
    ∃ s', s.step (.startSIPStack ans networkState) = some s' ∧
      Next s s' true s.pjsua.undestroyed True := by
  refine ⟨_, step_of_run (run_startSIPStack_started ans networkState s.service h), ?_⟩
  rw [← h]
  exact next_of_calls rfl (by simp [OneInstance])

theorem step_stop_started (h : s.service.started_ = true) :
    ∃ s', s.step (.stopSIPStack ans) = some s' ∧
      Next s s' (!ans.succeeds .destroy2)
        (s.pjsua.undestroyed && !ans.succeeds .destroy2) True := by
  obtain ⟨status, hrun⟩ := run_stopSIPStack_started ans s.service h
  refine ⟨_, step_of_run hrun, next_of_calls ?_ (by simp [OneInstance])⟩
  cases hok : ans.succeeds .destroy2 <;> simp [undestroyedAfter, Pjsua.after]

theorem step_stop_stopped (h : s.service.started_ = false) :
    ∃ s', s.step (.stopSIPStack ans) = some s' ∧
      Next s s' false s.pjsua.undestroyed True := by
  refine ⟨_, step_of_run (run_stopSIPStack_stopped ans s.service h), ?_⟩
  rw [← h]
  exact next_of_calls rfl (by simp [OneInstance])

theorem step_start_stopped (h : s.service.started_ = false) :
    ∃ s', s.step (.startSIPStack ans networkState) = some s' ∧
      Next s s' (completes ans networkState)
        ((s.pjsua.undestroyed || ans.succeeds .create) &&
          !(ans.succeeds .create && cleansUp ans))
        (s.pjsua.undestroyed = false) := by
  obtain ⟨cs, hrun, hlaunch⟩ := run_startSIPStack_stopped ans networkState s.service h
  refine ⟨_, step_of_run hrun, next_of_calls ?_ ?_⟩
  · rw [undestroyedAfter_cons, hlaunch.leaves]
    cases hcreate : ans.succeeds .create <;> simp [Pjsua.after]
  · show _ ∧ OneInstance _ cs ↔ _
    simp [oneInstance_of_no_create hlaunch.no_create]

theorem step_total (s : System) (e : Event) :
    ∃ s' clean, s.step e = some s' ∧ (s'.Clean ↔ s.Clean ∧ clean) := by
  cases hstarted : s.service.started_ with
  | true =>
      cases e with
      | startSIPStack ans networkState =>
          obtain ⟨s', hstep, hnext⟩ := step_start_started ans networkState hstarted
          exact ⟨s', _, hstep, hnext.clean_iff⟩
      | stopSIPStack ans =>
          obtain ⟨s', hstep, hnext⟩ := step_stop_started ans hstarted
          exact ⟨s', _, hstep, hnext.clean_iff⟩
  | false =>
      cases e with
      | startSIPStack ans networkState =>
          obtain ⟨s', hstep, hnext⟩ := step_start_stopped ans networkState hstarted
          exact ⟨s', _, hstep, hnext.clean_iff⟩
      | stopSIPStack ans =>
          obtain ⟨s', hstep, hnext⟩ := step_stop_stopped ans hstarted
          exact ⟨s', _, hstep, hnext.clean_iff⟩

end Step

/-! ## Whole runs -/

theorem exec_total (es : List Event) : ∀ s : System, ∃ t, exec System.step s es = some t := by
  induction es with
  | nil => intro s; exact ⟨s, rfl⟩
  | cons e es ih =>
      intro s
      obtain ⟨s', -, hstep, -⟩ := step_total s e
      obtain ⟨t, ht⟩ := ih s'
      exact ⟨t, by rw [exec_cons, hstep]; exact ht⟩

/-- An instance next to another one stays on record. -/
theorem clean_of_exec {es : List Event} :
    ∀ {s t : System}, exec System.step s es = some t → t.Clean → s.Clean := by
  induction es with
  | nil =>
      intro s t h hclean
      cases h
      exact hclean
  | cons e es ih =>
      intro s t h hclean
      obtain ⟨s', clean, hstep, hiff⟩ := step_total s e
      rw [exec_cons, hstep] at h
      exact (hiff.1 (ih h hclean)).1

/-- Behind an instance that nothing refers to, every start goes wrong. -/
private theorem clean_iff_partial {es : List Event} :
    ∀ {s t : System}, s.service.started_ = false → s.pjsua.undestroyed = true →
      exec System.step s es = some t → (t.Clean ↔ s.Clean ∧ es.all (!·.isStart) = true) := by
  induction es with
  | nil =>
      intro s t _ _ h
      cases h
      simp
  | cons e es ih =>
      intro s t hstarted hleft h
      cases e with
      | startSIPStack ans networkState =>
          obtain ⟨s', hstep, hnext⟩ := step_start_stopped ans networkState hstarted
          rw [exec_cons, hstep] at h
          have hunclean : ¬ t.Clean := by
            intro hclean
            have := (hnext.clean_iff.1 (clean_of_exec h hclean)).2
            rw [hleft] at this
            cases this
          simp [hunclean, Event.isStart]
      | stopSIPStack ans =>
          obtain ⟨s', hstep, hnext⟩ := step_stop_stopped ans hstarted
          rw [exec_cons, hstep] at h
          have hleft' : s'.pjsua.undestroyed = true := hnext.undestroyed_eq.trans hleft
          rw [ih hnext.started_eq hleft' h, hnext.clean_iff]
          simp [Event.isStart]

/-- From a state where the flag says whether there is an instance. -/
private theorem clean_iff_recovers {es : List Event} :
    ∀ {s t : System}, s.pjsua.undestroyed = s.service.started_ →
      exec System.step s es = some t →
        (t.Clean ↔ s.Clean ∧ recovers s.service.started_ es = true) := by
  induction es with
  | nil =>
      intro s t _ h
      cases h
      simp [recovers]
  | cons e es ih =>
      intro s t hflag h
      cases hstarted : s.service.started_ with
      | true =>
          rw [hstarted] at hflag
          cases e with
          | startSIPStack ans networkState =>
              obtain ⟨s', hstep, hnext⟩ := step_start_started ans networkState hstarted
              rw [exec_cons, hstep] at h
              have hflag' : s'.pjsua.undestroyed = s'.service.started_ := by
                rw [hnext.undestroyed_eq, hnext.started_eq, hflag]
              rw [ih hflag' h, hnext.clean_iff, hnext.started_eq, and_true, recovers]
          | stopSIPStack ans =>
              obtain ⟨s', hstep, hnext⟩ := step_stop_started ans hstarted
              rw [exec_cons, hstep] at h
              have hflag' : s'.pjsua.undestroyed = s'.service.started_ := by
                rw [hnext.undestroyed_eq, hnext.started_eq, hflag, Bool.true_and]
              rw [ih hflag' h, hnext.clean_iff, hnext.started_eq, and_true, recovers]
      | false =>
          rw [hstarted] at hflag
          cases e with
          | startSIPStack ans networkState =>
              obtain ⟨s', hstep, hnext⟩ := step_start_stopped ans networkState hstarted
              rw [exec_cons, hstep] at h
              have hclean : s'.Clean ↔ s.Clean := by simp [hnext.clean_iff, hflag]
              have hleft : s'.pjsua.undestroyed =
                  (completes ans networkState || leavesInstance ans networkState) := by
                rw [hnext.undestroyed_eq, hflag, undestroyed_of_start]
              rw [recovers, ← hclean]
              by_cases hleaves : leavesInstance ans networkState = true
              · have hfailed : completes ans networkState = false := by
                  unfold leavesInstance at hleaves
                  simp at hleaves
                  exact hleaves.1.2
                rw [if_pos hleaves]
                exact clean_iff_partial (hnext.started_eq.trans hfailed)
                  (by rw [hleft, hleaves, Bool.or_true]) h
              · rw [if_neg hleaves, ih _ h, hnext.started_eq]
                rw [hleft, hnext.started_eq, Bool.eq_false_iff.2 hleaves, Bool.or_false]
          | stopSIPStack ans =>
              obtain ⟨s', hstep, hnext⟩ := step_stop_stopped ans hstarted
              rw [exec_cons, hstep] at h
              have hflag' : s'.pjsua.undestroyed = s'.service.started_ := by
                rw [hnext.undestroyed_eq, hnext.started_eq, hflag]
              rw [ih hflag' h, hnext.clean_iff, hnext.started_eq, and_true, recovers]

/-- `started_` is right about one step. -/
private theorem upSince_step {s s' : System} {e : Event}
    (h : s.service.started_ = upSince s.history.reverse) (hstep : s.step e = some s') :
    s'.service.started_ = upSince s'.history.reverse := by
  cases hstarted : s.service.started_ with
  | true =>
      rw [hstarted] at h
      cases e with
      | startSIPStack ans networkState =>
          have hrun := run_startSIPStack_started ans networkState s.service hstarted
          rw [step_of_run (e := .startSIPStack ans networkState) hrun] at hstep
          cases hstep
          simp [upSince, destroys, hstarted]
      | stopSIPStack ans =>
          obtain ⟨status, hrun⟩ := run_stopSIPStack_started ans s.service hstarted
          rw [step_of_run (e := .stopSIPStack ans) hrun] at hstep
          cases hstep
          cases hok : ans.succeeds .destroy2 <;> simp [upSince, destroys, ← h]
  | false =>
      rw [hstarted] at h
      cases e with
      | startSIPStack ans networkState =>
          obtain ⟨cs, hrun, hlaunch⟩ :=
            run_startSIPStack_stopped ans networkState s.service hstarted
          rw [step_of_run (e := .startSIPStack ans networkState) hrun] at hstep
          cases hstep
          have hdestroys : destroys ((.create, ans.succeeds .create) :: cs) =
              (ans.succeeds .create && cleansUp ans) := by
            rw [← hlaunch.destroyed]
            simp [destroys]
          simp only [List.reverse_append, List.reverse_cons, List.reverse_nil, List.nil_append,
            List.cons_append, upSince, hdestroys]
          cases hcleans : ans.succeeds .create && cleansUp ans with
          | true =>
              simp only [cleansUp, Bool.and_eq_true, Bool.not_eq_true'] at hcleans
              simp [completes, launches, hcleans]
          | false => cases completes ans networkState <;> simp
      | stopSIPStack ans =>
          have hrun := run_stopSIPStack_stopped ans s.service hstarted
          rw [step_of_run (e := .stopSIPStack ans) hrun] at hstep
          cases hstep
          simp [upSince, destroys, hstarted, ← h]

/-- **`started_` is right after every run**: it holds exactly when the last start
ran to its end and no later destroy succeeded. -/
theorem started_eq_upSince {es : List Event} {s : System}
    (h : exec System.step System.new es = some s) :
    s.service.started_ = upSince s.history.reverse :=
  Inv.exec (I := fun s => s.service.started_ = upSince s.history.reverse)
    (fun _ _ _ => upSince_step) rfl h

/-- **The stack recovers exactly where no start follows one that has left its
instance behind.**  Every run takes place; `started_` is right after all of
them, and an instance is never created next to another one exactly in those
that meet the condition. -/
theorem oneInstance_iff (es : List Event) :
    ∃ s, exec System.step System.new es = some s ∧
      ((s.Clean ∧ s.service.started_ = upSince s.history.reverse) ↔
        recovers false es = true) := by
  obtain ⟨s, hrun⟩ := exec_total es System.new
  refine ⟨s, hrun, ?_⟩
  have hclean := clean_iff_recovers rfl hrun
  have hnew : System.new.Clean := trivial
  rw [hclean]
  constructor
  · intro h
    exact h.1.2
  · intro h
    exact ⟨⟨hnew, h⟩, started_eq_upSince hrun⟩

/-- `pjsua_init` fails in one start, and the next start creates a second
instance. -/
theorem second_start_creates_again :
    ∃ s, exec System.step System.new
        [.startSIPStack ⟨fun c => c ≠ .init, 0, 0⟩ .MP_NETWORK_WIFI,
          .startSIPStack ⟨fun _ => true, 0, 0⟩ .MP_NETWORK_WIFI] = some s ∧ ¬ s.Clean := by
  have hcalls : (exec System.step System.new
      [.startSIPStack ⟨fun c => c ≠ .init, 0, 0⟩ .MP_NETWORK_WIFI,
        .startSIPStack ⟨fun _ => true, 0, 0⟩ .MP_NETWORK_WIFI]).map
      (fun s => s.calls.take 3) =
      some [(.create, true), (.init, false), (.create, true)] := by decide +kernel
  obtain ⟨s, hrun, hs⟩ := Option.map_eq_some_iff.1 hcalls
  refine ⟨s, hrun, ?_⟩
  intro hclean
  unfold System.Clean at hclean
  rw [← List.take_append_drop 3 s.calls, oneInstance_append, hs] at hclean
  exact absurd hclean.1 (by decide)

end EndToEndSmkex.SipStack.Recovery
