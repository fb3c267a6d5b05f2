import EndToEndSmkex.AutoResend.Composition
import EndToEndSmkex.AutoResend.Synchronising

/-!
# Where the sent messages come from

Neither the engine nor the transport makes up a message: what holds of every
message handed to the engine, as far as its receiver and its payload go, holds
of every call of `sendMsg`.

## Main results

* `Supplied.step` — one event keeps that up.
-/

namespace EndToEndSmkex.AutoResend.Supply

open EndToEndSmkex.Smkex.Record
open EndToEndSmkex.AutoResend.MsgPayload
open EndToEndSmkex.AutoResend.MsgPayload.mp_msg_type_t
open EndToEndSmkex.AutoResend.Pool
open EndToEndSmkex.AutoResend.Engine
open EndToEndSmkex.AutoResend.Engine.mp_status_t
open EndToEndSmkex.AutoResend.Queues
open EndToEndSmkex.AutoResend.Composition
open EndToEndSmkex.AutoResend.Synchronising
open EndToEndSmkex.DataMsg.MsgTransport

/-- The messages an event hands to the engine. -/
def newMessages : Event → List MpMsgPayload
  | .addMessage m => [m]
  | .syncWithDBConnectors contents => contents.flatten
  | _ => []

/-- `P` holds of the calls of `sendMsg` that a queued message can lead to. -/
def Stocked (P : SipSend → Prop) (e : MpAutoResendEngine) : Prop :=
  ∀ serial, ∀ m ∈ queue e serial, P (sipSend m)

/-- `P` holds of the calls that can still come, and of those without a status. -/
structure Supplied (P : SipSend → Prop) (s : System) : Prop where
  queued : Stocked P s.engine
  kept : s.transport.msg_.numberOfRetries_ ≠ 0 → P (sipSend s.transport.msg_)
  calls : ∀ c ∈ s.outstanding, P c

variable {P Q : SipSend → Prop}

/-! ## The queues -/

section Queues

variable {e e' : MpAutoResendEngine}

theorem Stocked.congr (h : Stocked P e) (hq : SameQueues e e') : Stocked P e' := by
  unfold Stocked
  rw [hq.queue]
  exact h

theorem Stocked.holds (h : Stocked P e) {serial : MpString} {m : MpMsgPayload}
    (hm : Holds e serial m) : P (sipSend m) :=
  h serial m.markAsUnProcessed hm.mem_queue

theorem Stocked.addMessageInternal (h : Stocked P e) {m : MpMsgPayload} (hm : P (sipSend m)) :
    Stocked P (addMessageInternal e m) := by
  intro serial x hx
  rw [queue_addMessageInternal] at hx
  by_cases hserial : serial = m.userSerial_
  · rw [if_pos hserial] at hx
    obtain hx | hx := List.mem_append.1 hx
    · exact h serial x hx
    · rw [List.mem_singleton] at hx
      rw [hx]
      exact hm
  · rw [if_neg hserial] at hx
    exact h serial x hx

theorem Stocked.syncWithDBConnectors (h : Stocked P e) {contents : List (List MpMsgPayload)}
    (hnew : ∀ m ∈ contents.flatten, P (sipSend m)) :
    Stocked P (syncWithDBConnectors e contents) := by
  intro serial x hx
  rw [queue_sync] at hx
  obtain hx | hx := List.mem_append.1 hx
  · exact h serial x hx
  · obtain ⟨m, hm, rfl⟩ := List.mem_map.1 hx
    exact hnew m (List.mem_filter.1 hm).1

theorem Stocked.settle (h : Stocked P e) (m : MpMsgPayload) (status : mp_status_t) :
    Stocked P (settle e m status).1 := by
  by_cases hstatus : status = MP_MESSAGE_SENT
  · subst hstatus
    intro serial x hx
    rw [queue_settle_sent] at hx
    by_cases hserial : serial = m.userSerial_
    · rw [if_pos hserial] at hx
      exact h serial x (List.eraseP_subset hx)
    · rw [if_neg hserial] at hx
      exact h serial x hx
  · exact h.congr (settle_not_sent e m hstatus)

theorem Stocked.removeMessagesForSerial (h : Stocked P e) (removed : MpString) :
    Stocked P (removeMessagesForSerial e removed) := by
  intro serial x hx
  rw [queue_removeMessagesForSerial] at hx
  by_cases hserial : serial = removed
  · rw [if_pos hserial] at hx
    cases hx
  · rw [if_neg hserial] at hx
    exact h serial x hx

end Queues

/-! ## One event -/

section Step

variable {s s' : System} {e : MpAutoResendEngine} {reply : Option Bool}

theorem Supplied.mono (h : Supplied P s) (hPQ : ∀ c, P c → Q c) : Supplied Q s where
  queued serial m hm := hPQ _ (h.queued serial m hm)
  kept hm := hPQ _ (h.kept hm)
  calls c hc := hPQ c (h.calls c hc)

theorem supplied_new (dbConnectors : List mp_msg_type_t) :
    Supplied P (System.new dbConnectors) where
  queued _ _ hm := by cases hm
  kept h := absurd rfl h
  calls _ hc := by cases hc

/-- Calls that are made again are calls of the same kind. -/
private theorem calls_append {calls : List SipSend} {c : SipSend} (accepted : Bool)
    (h : ∀ c ∈ calls, P c) (hc : P c) :
    ∀ d ∈ calls ++ if accepted then [c] else [], P d := by
  intro d hd
  obtain hd | hd := List.mem_append.1 hd
  · exact h d hd
  · cases accepted with
    | true =>
        rw [if_pos rfl, List.mem_singleton] at hd
        rw [hd]
        exact hc
    | false =>
        rw [if_neg Bool.false_ne_true] at hd
        cases hd

theorem supplied_sendsOn (h : SendsOn e s reply s') (he : Stocked P e) (hs : Supplied P s) :
    Supplied P s' := by
  cases h with
  | stops e' queues stopped silent state =>
      rw [state]
      exact ⟨he.congr queues, hs.kept, hs.calls⟩
  | hands e' serial m accepted queues started retries holds asked state =>
      have hqueued := he.congr queues
      have hm := hqueued.holds holds
      rw [state]
      exact ⟨hqueued, fun _ => hm, calls_append accepted hs.calls hm⟩

theorem supplied_drivesOn (h : DrivesOn e s reply s') (he : Stocked P e) (hs : Supplied P s) :
    Supplied P s' := by
  cases h with
  | rests silent state =>
      rw [state]
      exact ⟨he, hs.kept, hs.calls⟩
  | sends waiting sends => exact supplied_sendsOn sends (he.congr ⟨rfl, List.Perm.refl _⟩) hs

theorem supplied_statusOn {call : Nat} {status : mp_status_t}
    (h : StatusOn s call status reply s') (hs : Supplied P s) : Supplied P s' := by
  have hrest : ∀ c ∈ s.outstanding.eraseIdx call, P c := fun c hc =>
    hs.calls c (List.mem_of_mem_eraseIdx hc)
  cases h with
  | ignored deleted silent state =>
      rw [state]
      exact ⟨hs.queued, hs.kept, hrest⟩
  | again alive failed tries accepted asked state =>
      rw [state]
      exact ⟨hs.queued, hs.kept, calls_append accepted hrest (hs.kept alive)⟩
  | done alive sends =>
      have hreported : Supplied P (reported s call status) := by
        unfold reported
        dsimp only
        split <;> exact ⟨hs.queued, fun hretries => absurd rfl hretries, hrest⟩
      exact supplied_sendsOn sends (hs.queued.settle _ status) hreported

/-- **One event.**  What holds of the new messages, and of everything before,
holds of everything afterwards. -/
theorem Supplied.step {i : Input} (hs : Supplied P s) (h : s.step i = some s')
    (hnew : ∀ m ∈ newMessages i.event, P (sipSend m)) : Supplied P s' := by
  have hcases := step_cases h
  rcases i with ⟨event, answers, reply⟩
  cases event with
  | addMessage m =>
      obtain ⟨-, hdrives⟩ := hcases
      have hqueued := hs.queued.addMessageInternal (hnew m (List.mem_singleton.2 rfl))
      exact supplied_drivesOn hdrives hqueued ⟨hs.queued, hs.kept, hs.calls⟩
  | syncWithDBConnectors contents =>
      obtain ⟨-, -, rfl⟩ := hcases
      exact ⟨hs.queued.syncWithDBConnectors hnew, hs.kept, hs.calls⟩
  | buddy_state2 _ _ | resendMessage _ _ | setAutoResendEnabled _ =>
      obtain ⟨e, hqueues, -, hdrives⟩ := hcases
      exact supplied_drivesOn hdrives (hs.queued.congr hqueues) hs
  | removeMessagesForSerial serial =>
      obtain ⟨-, rfl⟩ := hcases
      refine ⟨hs.queued.removeMessagesForSerial serial, ?_, hs.calls⟩
      show (s.transport.removeMessageForSerial serial).msg_.numberOfRetries_ ≠ 0 →
        P (sipSend (s.transport.removeMessageForSerial serial).msg_)
      unfold MpMsgTransport.removeMessageForSerial
      split
      · exact fun hretries => absurd rfl hretries
      · exact hs.kept
  | on_pager_status call code => exact supplied_statusOn hcases.2 hs

end Step

end EndToEndSmkex.AutoResend.Supply
