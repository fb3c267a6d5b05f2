import EndToEndSmkex.Threads.Alone

/-!
# Calls that nothing interrupts

The composed system takes an event in one step.  The code of the calls takes its
locks, acts and releases them, and other threads may act in between.  Where they do
not, both come to the same.

## Main results

* `undisturbed` — what a thread leaves that makes its calls alone is what the
  composed system leaves after the same events.
-/

namespace EndToEndSmkex.Threads.Undisturbed

open EndToEndSmkex.Lib.Run
open EndToEndSmkex.Lib.Threads
open EndToEndSmkex.Lib.Threads.Code
open EndToEndSmkex.AutoResend.MsgPayload
open EndToEndSmkex.AutoResend.Pool
open EndToEndSmkex.AutoResend.Engine
open EndToEndSmkex.AutoResend.Engine.mp_status_t
open EndToEndSmkex.AutoResend.Composition
open EndToEndSmkex.DataMsg.MsgTransport
open EndToEndSmkex.Threads.Calls
open EndToEndSmkex.Threads.Alone

variable {mine : Holds Lock} {k : Prog} {s s' : Shared}

/-! ## The composed system -/

/-- The composed system is in this state. -/
structure Shows (s : Shared) (sys : System) : Prop where
  engine : s.engine = sys.engine
  transport : s.transport = sys.transport
  outstanding : s.outstanding = sys.outstanding

/-- The state that a step of the composed system leaves. -/
def after (s : Shared) (sys : System) (reports : List Report) : Shared :=
  { s with
    engine := sys.engine
    transport := sys.transport
    outstanding := sys.outstanding
    reports := s.reports ++ reports }

theorem after_self {sys : System} (h : Shows s sys) : after s sys [] = s := by
  simp [after, ← h.engine, ← h.transport, ← h.outstanding]

theorem sip_iff {sys : System} {send : Option SipSend} (h : Shows s sys) :
    (∃ a, s.sip send a = some s') ↔
      ∃ reply sys', sys.sip send reply = some sys' ∧ s' = after s sys' [] := by
  cases send with
  | none =>
      constructor
      · rintro ⟨a, ha⟩
        cases ha
        exact ⟨none, sys, rfl, (after_self h).symm⟩
      · rintro ⟨reply, sys', hsys, rfl⟩
        obtain ⟨-, rfl⟩ := sip_none hsys
        exact ⟨default, by rw [after_self h]; rfl⟩
  | some x =>
      have hafter : after s { sys with outstanding := sys.outstanding ++ [x] } [] =
          { s with outstanding := s.outstanding ++ [x] } := by
        simp [after, ← h.engine, ← h.transport, ← h.outstanding]
      constructor
      · rintro ⟨a, ha⟩
        cases a with
        | sendMsg accepted =>
            cases accepted with
            | true =>
                cases ha
                exact ⟨some true, _, rfl, hafter.symm⟩
            | false =>
                cases ha
                exact ⟨some false, sys, rfl, (after_self h).symm⟩
        | silence | missing | pjsua => cases ha
      · rintro ⟨reply, sys', hsys, rfl⟩
        obtain ⟨accepted, -, rfl⟩ := sip_some hsys
        cases accepted with
        | true => exact ⟨.sendMsg true, by rw [if_pos rfl, hafter]; rfl⟩
        | false =>
            have hnone : after s { sys with outstanding := sys.outstanding ++ [] } [] = s := by
              simpa using after_self h
            exact ⟨.sendMsg false, by rw [if_neg (by decide), hnone]; rfl⟩

/-- Marks in the trail. -/
theorem Shows.record {sys : System} (h : Shows s sys) (mark : Nat → Lib.Accounting.Mark)
    (messages : List MpMsgPayload) : Shows s (sys.record mark messages) :=
  ⟨h.engine, h.transport, h.outstanding⟩

theorem finishes_iff {sys : System} {out : Outcome} (h : Shows s sys) :
    Finishes s out s' ↔
      ∃ reply sys', sys.complete out reply = some sys' ∧ s' = after s sys' out.reports := by
  unfold Finishes System.complete
  cases hhanded : out.handed with
  | none =>
      constructor
      · rintro rfl
        refine ⟨none, _, rfl, ?_⟩
        simp [after, Shared.report, ← h.transport, ← h.outstanding]
      · rintro ⟨reply, sys', hsys, rfl⟩
        obtain ⟨-, rfl⟩ := sip_none hsys
        simp [after, Shared.report, ← h.transport, ← h.outstanding]
  | some m =>
      let sent := MpMsgTransport.sendMessage m
      let sys₁ : System := { sys with engine := out.engine, transport := sent.1 }
      have hshows :
          Shows { Shared.report s out.engine out.reports with transport := sent.1 } sys₁ :=
        ⟨rfl, rfl, h.outstanding⟩
      refine (sip_iff (hshows.record .handed [m])).trans ?_
      simp [after, Shared.report]
      rfl

/-- The calls of the connectors in an operation. -/
def reportsOf (sys : System) (op : Op) (answers : Answers) : List Report :=
  ((operate sys.engine op answers).map Outcome.reports).getD []

/-- An operation of the engine is a run of the composed system. -/
theorem does_iff {sys : System} {op : Op} (h : Shows s sys) (event : Event) :
    Does s (operate s.engine op) s' ↔
      ∃ missing reply sys', sys.run op ⟨event, ⟨s.sipStarted_, missing⟩, reply⟩ = some sys' ∧
        s' = after s sys' (reportsOf sys op ⟨s.sipStarted_, missing⟩) := by
  unfold Does System.run reportsOf
  constructor
  · rintro ⟨missing, out, hout, hfinishes⟩
    obtain ⟨reply, sys', hsys, rfl⟩ := (finishes_iff h).1 hfinishes
    rw [h.engine] at hout
    exact ⟨missing, reply, sys', by simp [hout, hsys], by simp [hout]⟩
  · rintro ⟨missing, reply, sys', hsys, rfl⟩
    obtain ⟨out, hout, hcomplete⟩ := Option.bind_eq_some_iff.1 hsys
    refine ⟨missing, out, by rw [h.engine]; exact hout, ?_⟩
    exact (finishes_iff h).2 ⟨reply, sys', hcomplete, by simp [hout]⟩

/-- The operation of the engine that an event comes to. -/
def opOf (sys : System) : Event → Option Op
  | .addMessage message => some (.addMessage message)
  | .syncWithDBConnectors contents => some (.syncWithDBConnectors contents)
  | .buddy_state2 serial state => some (.buddy_state2 serial state)
  | .resendMessage serial msgId => some (.resendMessage serial msgId)
  | .setAutoResendEnabled autoResendEnabled => some (.setAutoResendEnabled autoResendEnabled)
  | .removeMessagesForSerial serial => some (.removeMessagesForSerial serial)
  | .on_pager_status _ code =>
    match (sys.transport.onSendMsgDone (xferStatus code)).2 with
    | .report message => some (.messageStatus message (xferStatus code))
    | _ => none

/-- The calls of the connectors in a step. -/
def reports (sys : System) (i : Input) : List Report :=
  match opOf sys i.event with
  | none => []
  | some op => reportsOf sys op i.answers

/-- The messages that an event hands to the engine. -/
def news : Event → List MpMsgPayload
  | .addMessage message => [message]
  | .syncWithDBConnectors contents => contents.flatten
  | _ => []

/-- New messages carry the next tags. -/
def Numbered (sys : System) (e : Event) : Prop :=
  (news e).map MpMsgPayload.tag = List.range' sys.added (news e).length

/-- A step of the composed system, with what it leaves of the shared state. -/
def Advances (s : Shared) (sys : System) (e : Event) (s' : Shared) : Prop :=
  ∃ i sys', i.event = e ∧ i.answers.isSipStackStarted = s.sipStarted_ ∧
    sys.step i = some sys' ∧ s' = after s sys' (reports sys i)

theorem enroll_numbered {sys : System} {messages : List MpMsgPayload}
    (h : messages.map MpMsgPayload.tag = List.range' sys.added messages.length) :
    sys.enroll messages =
      some { sys.record .added messages with added := sys.added + messages.length } :=
  if_pos h

/-- An event that is an operation of the engine, on the system that it runs on. -/
theorem advances_of_does {sys : System} (sys₁ : System) {s₁ : Shared} {e : Event} {op : Op}
    (h : Shows s₁ sys₁) (hsip : s₁.sipStarted_ = s.sipStarted_)
    (hafter : ∀ sys' reports, after s₁ sys' reports = after s sys' reports)
    (hstep : ∀ i : Input, i.event = e → sys.step i = sys₁.run op i)
    (hreports : ∀ i : Input, i.event = e → reports sys i = reportsOf sys₁ op i.answers) :
    Does s₁ (operate s₁.engine op) s' ↔ Advances s sys e s' := by
  rw [does_iff h e, hsip]
  constructor
  · rintro ⟨missing, reply, sys', hrun, rfl⟩
    refine ⟨⟨e, ⟨s.sipStarted_, missing⟩, reply⟩, sys', rfl, rfl, ?_, ?_⟩
    · rw [hstep _ rfl, hrun]
    · rw [hafter, hreports _ rfl]
  · rintro ⟨⟨_, ⟨_, missing⟩, reply⟩, sys', rfl, rfl, hrun, rfl⟩
    rw [hstep _ rfl] at hrun
    rw [hreports _ rfl]
    exact ⟨missing, reply, sys', hrun, (hafter _ _).symm⟩

/-- A status that does not come to the engine. -/
theorem advances_of_sip {sys sys₁ : System} {s₁ : Shared} (send : Option SipSend) {e : Event}
    (h : Shows s₁ sys₁)
    (hafter : ∀ sys' reports, after s₁ sys' reports = after s sys' reports)
    (hstep : ∀ i : Input, i.event = e → sys.step i =
      if i.answers.missing = [] then sys₁.sip send i.sendMsg else none)
    (hreports : ∀ i : Input, i.event = e → reports sys i = []) :
    (∃ a, s₁.sip send a = some s') ↔ Advances s sys e s' := by
  rw [sip_iff h]
  constructor
  · rintro ⟨reply, sys', hsys, rfl⟩
    refine ⟨⟨e, ⟨s.sipStarted_, []⟩, reply⟩, sys', rfl, rfl, ?_, ?_⟩
    · rw [hstep _ rfl, if_pos rfl, hsys]
    · rw [hafter, hreports _ rfl]
  · rintro ⟨⟨_, ⟨_, missing⟩, reply⟩, sys', rfl, rfl, hrun, rfl⟩
    rw [hstep _ rfl, Option.ite_none_right_eq_some] at hrun
    exact ⟨reply, sys', hrun.2, by rw [hafter, hreports _ rfl]⟩

theorem hears_iff {sys : System} {call code : Nat} (h : Shows s sys)
    (hcall : call < s.outstanding.length) :
    Hears { s with outstanding := s.outstanding.eraseIdx call } (xferStatus code) s' ↔
      Advances s sys (.on_pager_status call code) s' := by
  have hlt : call < sys.outstanding.length := h.outstanding ▸ hcall
  have hshows : Shows
      { s with
        transport := (s.transport.onSendMsgDone (xferStatus code)).1
        outstanding := s.outstanding.eraseIdx call }
      { sys with
        transport := (sys.transport.onSendMsgDone (xferStatus code)).1
        outstanding := sys.outstanding.eraseIdx call } :=
    ⟨h.engine, by rw [h.transport], by rw [h.outstanding]⟩
  unfold Hears
  simp only
  cases hdone : (s.transport.onSendMsgDone (xferStatus code)).2 with
  | ignored =>
      have hsys := h.transport ▸ hdone
      refine Iff.trans ?_ (advances_of_sip none hshows (fun _ _ => rfl) ?_ ?_)
      · simp [Shared.sip, eq_comm]
      · rintro ⟨event, answers, reply⟩ rfl
        simp only [System.step, System.onPagerStatus, if_pos hlt, hsys]
      · rintro ⟨event, answers, reply⟩ rfl
        simp only [reports, opOf, hsys]
  | resend x =>
      have hsys := h.transport ▸ hdone
      refine advances_of_sip _ hshows (fun _ _ => rfl) ?_ ?_
      · rintro ⟨event, answers, reply⟩ rfl
        simp only [System.step, System.onPagerStatus, if_pos hlt, hsys]
      · rintro ⟨event, answers, reply⟩ rfl
        simp only [reports, opOf, hsys]
  | report message =>
      have hsys := h.transport ▸ hdone
      by_cases hsent : xferStatus code = MP_MESSAGE_SENT
      · refine advances_of_does _ (hshows.record .sent [message]) rfl (fun _ _ => rfl) ?_ ?_
        · rintro ⟨event, answers, reply⟩ rfl
          simp only [System.step, System.onPagerStatus, if_pos hlt, hsys, if_pos hsent]
        · rintro ⟨event, answers, reply⟩ rfl
          simp only [reports, opOf, hsys]
          rfl
      · refine advances_of_does _ hshows rfl (fun _ _ => rfl) ?_ ?_
        · rintro ⟨event, answers, reply⟩ rfl
          simp only [System.step, System.onPagerStatus, if_pos hlt, hsys, if_neg hsent]
        · rintro ⟨event, answers, reply⟩ rfl
          simp only [reports, opOf, hsys]
          rfl

theorem happens_iff {sys : System} {e : Event} (h : Shows s sys) (hnumbered : Numbered sys e) :
    Happens s e s' ↔ Advances s sys e s' := by
  cases e with
  | addMessage message =>
      have henroll : sys.enroll [message] =
          some { sys.record .added [message] with added := sys.added + 1 } :=
        enroll_numbered hnumbered
      refine advances_of_does { sys.record .added [message] with added := sys.added + 1 }
        ⟨h.engine, h.transport, h.outstanding⟩ rfl (fun _ _ => rfl) ?_ ?_
      · rintro ⟨event, answers, reply⟩ rfl
        simp only [System.step, henroll, Option.bind_some]
      · rintro ⟨event, answers, reply⟩ rfl
        rfl
  | syncWithDBConnectors contents =>
      have henroll : sys.enroll contents.flatten = some
          { sys.record .added contents.flatten with
            added := sys.added + contents.flatten.length } :=
        enroll_numbered hnumbered
      refine advances_of_does
        { sys.record .added contents.flatten with
          added := sys.added + contents.flatten.length }
        ⟨h.engine, h.transport, h.outstanding⟩ rfl (fun _ _ => rfl) ?_ ?_
      · rintro ⟨event, answers, reply⟩ rfl
        simp only [System.step, henroll, Option.bind_some]
      · rintro ⟨event, answers, reply⟩ rfl
        rfl
  | buddy_state2 serial state =>
      refine advances_of_does _ h rfl (fun _ _ => rfl) ?_ ?_
      all_goals
        rintro ⟨event, answers, reply⟩ rfl
        rfl
  | resendMessage serial msgId =>
      refine advances_of_does _ h rfl (fun _ _ => rfl) ?_ ?_
      all_goals
        rintro ⟨event, answers, reply⟩ rfl
        rfl
  | setAutoResendEnabled autoResendEnabled =>
      refine advances_of_does _ h rfl (fun _ _ => rfl) ?_ ?_
      all_goals
        rintro ⟨event, answers, reply⟩ rfl
        rfl
  | removeMessagesForSerial serial =>
      have hforgets : Shows { s with transport := s.transport.removeMessageForSerial serial }
          (System.record { sys with transport := sys.transport.removeMessageForSerial serial }
            .dropped (((sys.engine.userPool_ serial).map MpMsgPool.messages_).getD [])) :=
        ⟨h.engine, by rw [h.transport]; rfl, h.outstanding⟩
      refine advances_of_does _ hforgets rfl (fun _ _ => rfl) ?_ ?_
      all_goals
        rintro ⟨event, answers, reply⟩ rfl
        rfl
  | on_pager_status call code =>
      by_cases hcall : call < s.outstanding.length
      · exact (and_iff_right hcall).trans (hears_iff h hcall)
      · have hnone : ∀ i : Input, i.event = .on_pager_status call code → sys.step i = none := by
          rintro ⟨event, answers, reply⟩ rfl
          exact if_neg (h.outstanding ▸ hcall)
        constructor
        · rintro ⟨hlt, -⟩
          exact absurd hlt hcall
        · rintro ⟨i, sys', hevent, -, hstep, -⟩
          rw [hnone i hevent] at hstep
          cases hstep

/-- The code of a call, in the terms of the composed system. -/
theorem ends_call_iff {sys : System} {call : Call} {e : Event} (hcall : event call = some e)
    (hmine : Clear mine) (h : Shows s sys) (hnumbered : Numbered sys e) :
    (call.code k).Ends mine s s' ↔ ∃ s₁, Advances s sys e s₁ ∧ k.Ends mine s₁ s' := by
  simp only [ends_call hcall hmine, happens_iff h hnumbered]

/-! ## One call after another -/

theorem added_sip {sys sys' : System} {send : Option SipSend} {reply : Option Bool}
    (h : sys.sip send reply = some sys') : sys'.added = sys.added := by
  cases send with
  | none =>
      obtain ⟨-, rfl⟩ := sip_none h
      rfl
  | some x =>
      obtain ⟨-, -, rfl⟩ := sip_some h
      rfl

theorem added_run {sys sys' : System} {op : Op} {i : Input} (h : sys.run op i = some sys') :
    sys'.added = sys.added := by
  obtain ⟨out, -, hcomplete⟩ := run_some h
  unfold System.complete at hcomplete
  cases hhanded : out.handed with
  | none | some m =>
      simp only [hhanded] at hcomplete
      exact (added_sip hcomplete).trans rfl

/-- A step counts the messages that it hands to the engine. -/
theorem added_step {sys sys' : System} {i : Input} (h : sys.step i = some sys') :
    sys'.added = sys.added + (news i.event).length := by
  obtain ⟨event, answers, reply⟩ := i
  cases event with
  | addMessage m =>
      obtain ⟨sys₁, henroll, hrun⟩ := Option.bind_eq_some_iff.1 h
      obtain ⟨-, rfl⟩ := enroll_some henroll
      exact added_run hrun
  | syncWithDBConnectors contents =>
      obtain ⟨sys₁, henroll, hrun⟩ := Option.bind_eq_some_iff.1 h
      obtain ⟨-, rfl⟩ := enroll_some henroll
      exact added_run hrun
  | buddy_state2 serial state => exact added_run h
  | resendMessage serial msgId => exact added_run h
  | setAutoResendEnabled autoResendEnabled => exact added_run h
  | removeMessagesForSerial serial => exact (added_run h).trans rfl
  | on_pager_status call code =>
      simp only [System.step, System.onPagerStatus, Option.ite_none_right_eq_some] at h
      obtain ⟨-, h⟩ := h
      cases hdone : (sys.transport.onSendMsgDone (xferStatus code)).2 with
      | ignored =>
          simp only [hdone, Option.ite_none_right_eq_some] at h
          exact (added_sip h.2).trans rfl
      | resend x =>
          simp only [hdone, Option.ite_none_right_eq_some] at h
          exact (added_sip h.2).trans rfl
      | report m =>
          simp only [hdone] at h
          refine (added_run h).trans ?_
          split <;> rfl

/-- The calls of the connectors in a run. -/
def allReports : System → List Input → List Report
  | _, [] => []
  | sys, i :: is =>
    reports sys i ++ match sys.step i with
      | none => []
      | some sys' => allReports sys' is

/-- A run of the composed system through these events, with what it leaves of the
shared state. -/
def Runs (s : Shared) (sys : System) (events : List Event) (s' : Shared) : Prop :=
  ∃ is sys', is.map Input.event = events ∧
    (∀ i ∈ is, i.answers.isSipStackStarted = s.sipStarted_) ∧
    exec System.step sys is = some sys' ∧ s' = after s sys' (allReports sys is)

theorem after_after (s : Shared) (sys₁ sys₂ : System) (reports₁ reports₂ : List Report) :
    after (after s sys₁ reports₁) sys₂ reports₂ = after s sys₂ (reports₁ ++ reports₂) := by
  simp [after]

theorem runs_cons {sys : System} {e : Event} {events : List Event} :
    Runs s sys (e :: events) s' ↔
      ∃ i sys₁, i.event = e ∧ i.answers.isSipStackStarted = s.sipStarted_ ∧
        sys.step i = some sys₁ ∧ Runs (after s sys₁ (reports sys i)) sys₁ events s' := by
  constructor
  · rintro ⟨is, sys', hevents, hanswers, hexec, rfl⟩
    cases is with
    | nil => cases hevents
    | cons i is =>
        rw [List.map_cons, List.cons.injEq] at hevents
        rw [exec_cons, Option.bind_eq_some_iff] at hexec
        obtain ⟨sys₁, hstep, hrest⟩ := hexec
        refine ⟨i, sys₁, hevents.1, hanswers i (by simp), hstep, is, sys', hevents.2,
          fun j hj => hanswers j (by simp [hj]), hrest, ?_⟩
        rw [after_after]
        simp only [allReports, hstep]
  · rintro ⟨i, sys₁, rfl, hanswer, hstep, is, sys', rfl, hanswers, hexec, rfl⟩
    refine ⟨i :: is, sys', rfl, ?_, by rw [exec_cons, hstep]; exact hexec, ?_⟩
    · intro j hj
      rcases List.mem_cons.1 hj with rfl | hj
      · exact hanswer
      · exact hanswers j hj
    · rw [after_after]
      simp only [allReports, hstep]

/-- The tags of a row of events, from one of them on. -/
theorem numbered_cons {sys : System} {e : Event} {events : List Event}
    (h : ((e :: events).flatMap news).map MpMsgPayload.tag =
      List.range' sys.added ((e :: events).flatMap news).length) :
    Numbered sys e ∧ (events.flatMap news).map MpMsgPayload.tag =
      List.range' (sys.added + (news e).length) (events.flatMap news).length := by
  rw [List.flatMap_cons, List.map_append, List.length_append, ← List.range'_append_1] at h
  exact List.append_inj h (by simp)

/-- **Calls one after the other are a run of the composed system.** -/
theorem serial {calls : List Call} (hmine : Clear mine) :
    ∀ {events : List Event} {s : Shared} {sys : System}, calls.map event = events.map some →
      Shows s sys → (events.flatMap news).map MpMsgPayload.tag =
        List.range' sys.added (events.flatMap news).length →
      ((program calls).Ends mine s s' ↔ Runs s sys events s') := by
  induction calls with
  | nil =>
      intro events s sys hcalls hshows _
      cases events with
      | nil =>
          constructor
          · intro h
            exact ⟨[], sys, rfl, by simp, rfl, by rw [allReports, after_self hshows]; exact h⟩
          · rintro ⟨is, sys', his, -, hexec, rfl⟩
            rw [List.map_eq_nil_iff] at his
            subst his
            cases hexec
            exact after_self hshows
      | cons e events => cases hcalls
  | cons call calls ih =>
      intro events s sys hcalls hshows htags
      cases events with
      | nil => cases hcalls
      | cons e events =>
          rw [List.map_cons, List.map_cons, List.cons.injEq] at hcalls
          obtain ⟨hnumbered, hrest⟩ := numbered_cons htags
          rw [runs_cons]
          refine (ends_call_iff hcalls.1 hmine hshows hnumbered).trans ?_
          constructor
          · rintro ⟨s₁, ⟨i, sys₁, rfl, hanswer, hstep, rfl⟩, hends⟩
            have hadded := added_step hstep
            exact ⟨i, sys₁, rfl, hanswer, hstep,
              (ih hcalls.2 ⟨rfl, rfl, rfl⟩ (hadded ▸ hrest)).1 hends⟩
          · rintro ⟨i, sys₁, rfl, hanswer, hstep, hruns⟩
            have hadded := added_step hstep
            exact ⟨_, ⟨i, sys₁, rfl, hanswer, hstep, rfl⟩,
              (ih hcalls.2 ⟨rfl, rfl, rfl⟩ (hadded ▸ hrest)).2 hruns⟩

section Threads

variable {T : Type} [DecidableEq T] [Fintype T] {c : Config T Lock Shared Answer} {t : T}

/-- **What nothing interrupts is a run of the composed system.**  A thread that goes
on alone, with no lock held, can leave exactly what the composed system can leave
after the same events, the calls of the connectors included. -/
theorem undisturbed {sys : System} {calls : List Call} {events : List Event}
    (hcalls : calls.map event = events.map some) (hcode : c.code t = program calls)
    (hholds : ∀ u, c.holds u = []) (hshows : Shows c.shared sys)
    (htags : (events.flatMap news).map MpMsgPayload.tag =
      List.range' sys.added (events.flatMap news).length) :
    Leaves c t s' ↔ Runs c.shared sys events s' := by
  have hclear : Clear (c.holds t) := by
    rw [hholds t]
    simp [Clear]
  rw [← ends_iff fun u _ => hholds u, hcode]
  exact serial hclear hcalls hshows htags

end Threads

/-- A message for a buddy, on a running stack: it is handed over and sent. -/
theorem undisturbed_addMessage :
    let m := MpMsgPayload.new [65] [104] 1 5 .MP_TYPE_MESSAGE false 0
    ∃ s', s'.outstanding.length = 1 ∧
      Leaves (Config.start { Shared.new [] with sipStarted_ := true }
        fun _ : Unit => program [.addMessage m]) () s' := by
  intro m
  let i : Input := ⟨.addMessage m, ⟨true, []⟩, some true⟩
  have hstep : ∃ sys', exec System.step (System.new []) [i] = some sys' ∧
      sys'.outstanding.length = 1 := ⟨_, rfl, rfl⟩
  obtain ⟨sys', hexec, hlength⟩ := hstep
  let s : Shared := { Shared.new [] with sipStarted_ := true }
  refine ⟨after s sys' (allReports (System.new []) [i]), hlength, ?_⟩
  refine (undisturbed rfl rfl (fun _ => rfl) ⟨rfl, rfl, rfl⟩ rfl).2 ⟨[i], sys', rfl, ?_, hexec, rfl⟩
  intro j hj
  rw [List.mem_singleton.1 hj]
  rfl

end EndToEndSmkex.Threads.Undisturbed
