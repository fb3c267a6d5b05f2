import EndToEndSmkex.AutoResend.Liveness

/-!
# Whose status is it?

A status says neither which message nor which send it is about, and the
transport has one slot, which every message handed over overwrites.  What each
outstanding send carried is kept here next to the system.

## Main results

* `statuses_credited` — along every run at most one send is outstanding, and
  when its status arrives the slot still holds the message it carried, perhaps
  with the retries that a removal has zeroed.
-/

namespace EndToEndSmkex.AutoResend.Crediting

open EndToEndSmkex.Lib.Run
open EndToEndSmkex.Smkex.Record
open EndToEndSmkex.AutoResend.MsgPayload
open EndToEndSmkex.AutoResend.Engine
open EndToEndSmkex.AutoResend.Changes
open EndToEndSmkex.AutoResend.Composition
open EndToEndSmkex.AutoResend.Liveness
open EndToEndSmkex.DataMsg.MsgTransport

/-! ## The sends and their messages -/

/-- The system, and the message of every outstanding send. -/
structure Ledger where
  system : System
  carried : List MpMsgPayload

def Ledger.new (dbConnectors : List mp_msg_type_t) : Ledger :=
  { system := System.new dbConnectors, carried := [] }

/-- The sends that are still outstanding when the step may send: a status
completes the send it is for. -/
def remaining {α : Type} (event : Event) (sends : List α) : List α :=
  match event with
  | .on_pager_status call _ => sends.eraseIdx call
  | _ => sends

/-- One event.  `sendMsg` is the last thing a step does, and it is called with
the message in the slot. -/
def Ledger.step (l : Ledger) (i : Input) : Option Ledger :=
  (l.system.step i).map fun s =>
    { system := s
      carried := remaining i.event l.carried ++
        if i.sendMsg = some true then [s.transport.msg_] else [] }

/-- The same message, perhaps with its retries zeroed. -/
def SameMessage (kept m : MpMsgPayload) : Prop := kept = m ∨ kept = m.setNumberOfRetries 0

/-- At most one send is outstanding after the event; and where the event is a
status, the slot holds the message of the send it is for. -/
structure Credited (l : Ledger) (i : Input) (l' : Ledger) : Prop where
  single : l'.system.outstanding.length ≤ 1
  slot : ∀ call code, i.event = .on_pager_status call code →
    ∃ m, l.carried[call]? = some m ∧ l.system.outstanding[call]? = some (sipSend m) ∧
      SameMessage l.system.transport.msg_ m

/-! ## The slot keeps the message -/

/-- These are the messages of the outstanding sends, and the slot holds them. -/
structure Carries (s : System) (carried : List MpMsgPayload) : Prop where
  sends : carried.map sipSend = s.outstanding
  slot : ∀ m ∈ carried, SameMessage s.transport.msg_ m

section Sending

variable {e : MpAutoResendEngine} {s s' : System} {reply : Option Bool}
  {carried : List MpMsgPayload}

theorem carries_nil (h : s.outstanding = []) : Carries s [] where
  sends := h.symm
  slot _ hm := by cases hm

/-- What is sent while nothing is outstanding is all that is carried. -/
theorem carries_sent {m : MpMsgPayload} {accepted : Bool} (hslot : s'.transport.msg_ = m)
    (hsends : s'.outstanding = if accepted then [sipSend m] else [])
    (hreply : reply = some accepted) :
    Carries s' (if reply = some true then [s'.transport.msg_] else []) := by
  rw [hreply, hslot]
  cases accepted with
  | true =>
      refine ⟨hsends.symm, ?_⟩
      intro m' hm'
      rw [if_pos rfl, List.mem_singleton] at hm'
      rw [hm', hslot]
      exact Or.inl rfl
  | false => exact carries_nil hsends

theorem carries_sendsOn (h : SendsOn e s reply s') (hquiet : s.outstanding = []) :
    Carries s' (if reply = some true then [s'.transport.msg_] else []) := by
  cases h with
  | stops e' _ _ hreply hstate =>
      subst hstate hreply
      exact carries_nil hquiet
  | hands e' serial m accepted _ _ _ _ hreply hstate =>
      refine carries_sent (m := m) ?_ ?_ hreply
      · rw [hstate]
        rfl
      · rw [hstate, handOver, hquiet, List.nil_append]

/-- An engine that may be driven sends only when nothing is outstanding. -/
theorem carries_drivesOn (h : DrivesOn e s reply s') (hsingle : Single s)
    (hsame : e.started_ = s.engine.started_) (hc : Carries s carried) :
    Carries s' (carried ++ if reply = some true then [s'.transport.msg_] else []) := by
  cases h with
  | rests hreply hstate =>
      subst hstate hreply
      rw [if_neg (by simp), List.append_nil]
      exact ⟨hc.sends, hc.slot⟩
  | sends hwaiting hsends =>
      have hquiet := hsingle.quiet (hsame.symm.trans hwaiting)
      have hnone : carried = [] := by
        apply List.map_eq_nil_iff.1
        rw [hc.sends, hquiet]
      rw [hnone, List.nil_append]
      exact carries_sendsOn hsends hquiet

theorem carries_statusOn {call : Nat} {status : mp_status_t}
    (h : StatusOn s call status reply s') (hcall : call < s.outstanding.length)
    (hsingle : Single s) :
    Carries s' (if reply = some true then [s'.transport.msg_] else []) := by
  have hquiet : s.outstanding.eraseIdx call = [] :=
    eraseIdx_single hsingle.length_le hcall
  cases h with
  | ignored _ hreply hstate =>
      subst hstate hreply
      exact carries_nil hquiet
  | again _ _ _ accepted hreply hstate =>
      refine carries_sent (m := s.transport.msg_) ?_ ?_ hreply
      · rw [hstate]
      · rw [hstate, hquiet, List.nil_append]
  | done _ hsends => exact carries_sendsOn hsends (reported_quiet hsingle hcall status)

end Sending

/-- A removal zeroes the retries in the slot at most. -/
theorem sameMessage_removed {t : MpMsgTransport} {m : MpMsgPayload} (serial : MpString)
    (h : SameMessage t.msg_ m) : SameMessage (t.removeMessageForSerial serial).msg_ m := by
  unfold MpMsgTransport.removeMessageForSerial
  by_cases hserial : t.msg_.userSerial_ = serial
  · rw [if_pos hserial]
    rcases h with h | h <;> rw [SameMessage, h] <;> exact Or.inr rfl
  · rw [if_neg hserial]
    exact h

/-- **A step keeps the slot.** -/
theorem Carries.step {s s' : System} {i : Input} {carried : List MpMsgPayload}
    (hc : Carries s carried) (hsingle : Single s) (hstep : s.step i = some s') :
    Carries s' (remaining i.event carried ++
      if i.sendMsg = some true then [s'.transport.msg_] else []) := by
  have hcases := step_cases hstep
  rcases i with ⟨event, answers, reply⟩
  cases event with
  | addMessage m =>
      exact carries_drivesOn hcases.2 ⟨hsingle.length_le, hsingle.started⟩
        (requeued_addMessageInternal s.engine m).started ⟨hc.sends, hc.slot⟩
  | syncWithDBConnectors contents =>
      obtain ⟨-, hsilent, rfl⟩ := hcases
      dsimp only at hsilent
      rw [hsilent, if_neg (by simp), List.append_nil]
      exact ⟨hc.sends, hc.slot⟩
  | buddy_state2 | resendMessage | setAutoResendEnabled =>
      obtain ⟨e, -, hsame, hdrives⟩ := hcases
      exact carries_drivesOn hdrives hsingle hsame hc
  | removeMessagesForSerial serial =>
      obtain ⟨hsilent, rfl⟩ := hcases
      dsimp only at hsilent
      rw [hsilent, if_neg (by simp), List.append_nil]
      exact ⟨hc.sends, fun m hm => sameMessage_removed serial (hc.slot m hm)⟩
  | on_pager_status call code =>
      have hcall : call < carried.length := by
        rw [← List.length_map sipSend, hc.sends]
        exact hcases.1
      have hlength : carried.length ≤ 1 := by
        rw [← List.length_map sipSend, hc.sends]
        exact hsingle.length_le
      have hnone : carried.eraseIdx call = [] := by
        apply List.length_eq_zero_iff.1
        rw [List.length_eraseIdx_of_lt hcall]
        omega
      simp only [remaining, hnone, List.nil_append]
      exact carries_statusOn hcases.2 hcases.1 hsingle

/-- The slot at the arrival of a status. -/
theorem Carries.credited {l l' : Ledger} {i : Input} (hc : Carries l.system l.carried)
    (hsingle : Single l.system) (hstep : l.step i = some l') : Credited l i l' := by
  obtain ⟨s', hs', rfl⟩ := Option.map_eq_some_iff.1 hstep
  refine ⟨(hsingle.step hs').length_le, ?_⟩
  intro call code hevent
  have hcases := step_cases hs'
  rw [hevent] at hcases
  have hcall : call < l.carried.length := by
    rw [← List.length_map sipSend, hc.sends]
    exact hcases.1
  refine ⟨l.carried[call], List.getElem?_eq_getElem hcall, ?_, ?_⟩
  · rw [← hc.sends, List.getElem?_map, List.getElem?_eq_getElem hcall]
    rfl
  · exact hc.slot _ (List.getElem_mem hcall)

/-! ## Runs -/

/-- **Every status is credited to the message it belongs to.**  For every run of
the engine's operations and of statuses, whatever the SIP stack accepts and
however comparisons without a pool turn out. -/
theorem statuses_credited (dbConnectors : List mp_msg_type_t) (inputs : List Input) :
    Steps Ledger.step Credited (Ledger.new dbConnectors) inputs := by
  have hnew : Single (System.new dbConnectors) ∧ Carries (System.new dbConnectors) [] :=
    ⟨single_new dbConnectors, carries_nil rfl⟩
  refine steps_of_inv (I := fun l => Single l.system ∧ Carries l.system l.carried)
    (C := fun _ _ _ => True) ?_ hnew (steps_of_forall fun _ _ => trivial)
  intro l i l' hinv hstep _
  have hcredited := hinv.2.credited hinv.1 hstep
  obtain ⟨s', hs', rfl⟩ := Option.map_eq_some_iff.1 hstep
  exact ⟨⟨hinv.1.step hs', hinv.2.step hinv.1 hs'⟩, hcredited⟩

/-- A message is removed while it is in flight: its status finds it in the slot
with no retries. -/
example :
    (exec Ledger.step (Ledger.new [])
      [sampleInput (.addMessage (sampleMessage [97] 0)) (some true),
        sampleInput (.removeMessagesForSerial [97]) none]).map
      (fun l => (l.carried, l.system.transport.msg_)) =
    some ([sampleMessage [97] 0], (sampleMessage [97] 0).setNumberOfRetries 0) := by rfl

end EndToEndSmkex.AutoResend.Crediting
