import EndToEndSmkex.AutoResend.ManualMode

/-!
# Synchronising twice

`syncWithDBConnectors` adds every message that a connector returns.
`isMessageAdded` would tell that a pool has a message with this UID, but nobody
calls it: a second synchronisation queues everything once more.

## Main results

* `queue_sync_sync` — the queues after two synchronisations.
* `idempotent_iff` — they are those after one only where there is nothing to
  synchronise.
-/

namespace EndToEndSmkex.AutoResend.Synchronising

open EndToEndSmkex.Lib.Run
open EndToEndSmkex.Smkex.Record
open EndToEndSmkex.AutoResend.MsgPayload
open EndToEndSmkex.AutoResend.MsgPayload.mp_msg_type_t
open EndToEndSmkex.AutoResend.Pool
open EndToEndSmkex.AutoResend.Engine
open EndToEndSmkex.AutoResend.Engine.mp_status_t
open EndToEndSmkex.AutoResend.Changes
open EndToEndSmkex.AutoResend.Queues
open EndToEndSmkex.AutoResend.Representation
open EndToEndSmkex.AutoResend.Selection
open EndToEndSmkex.AutoResend.ManualMode

/-- The second of two synchronisations leaves every user the messages that the
first has left. -/
def Idempotent (e : MpAutoResendEngine) (contents : List (List MpMsgPayload)) : Prop :=
  ∀ serial,
    pooled (syncWithDBConnectors (syncWithDBConnectors e contents) contents) serial =
      pooled (syncWithDBConnectors e contents) serial

section Twice

variable (e : MpAutoResendEngine) (contents : List (List MpMsgPayload)) (serial : MpString)

theorem queue_eq_pooled :
    queue e serial = (pooled e serial).map MpMsgPayload.markAsUnProcessed := by
  unfold queue Queues.contents pooled
  cases e.userPool_ serial <;> rfl

theorem queue_sync :
    queue (syncWithDBConnectors e contents) serial =
      queue e serial ++ (forUser serial contents.flatten).map MpMsgPayload.markAsUnProcessed := by
  rw [syncWithDBConnectors_eq]
  exact queue_addAll contents.flatten serial e

theorem queue_sync_sync :
    queue (syncWithDBConnectors (syncWithDBConnectors e contents) contents) serial =
      queue (syncWithDBConnectors e contents) serial ++
        (forUser serial contents.flatten).map MpMsgPayload.markAsUnProcessed :=
  queue_sync (syncWithDBConnectors e contents) contents serial

end Twice

/-- **Synchronising is idempotent only where there is nothing to synchronise.**
For every engine and whatever the connectors return. -/
theorem idempotent_iff (e : MpAutoResendEngine) (contents : List (List MpMsgPayload)) :
    Idempotent e contents ↔ contents.flatten = [] := by
  constructor
  · intro h
    apply List.eq_nil_iff_forall_not_mem.2
    intro m hm
    have htwice := queue_sync_sync e contents m.userSerial_
    rw [queue_eq_pooled, h, ← queue_eq_pooled] at htwice
    have hnone : forUser m.userSerial_ contents.flatten = [] :=
      List.map_eq_nil_iff.1 (List.self_eq_append_right.1 htwice)
    have hown : m ∈ forUser m.userSerial_ contents.flatten :=
      List.mem_filter.2 ⟨hm, decide_eq_true rfl⟩
    rw [hnone] at hown
    cases hown
  · intro hnil serial
    have hsame : ∀ e, syncWithDBConnectors e contents = e := by
      intro e
      rw [syncWithDBConnectors_eq, hnil]
      rfl
    rw [hsame, hsame]

/-- The database has one message, and it is synchronised twice. -/
def sampleTwice : List Call :=
  [⟨.syncWithDBConnectors [[sampleMessage [97]]], ⟨true, []⟩⟩,
    ⟨.syncWithDBConnectors [[sampleMessage [97]]], ⟨true, []⟩⟩]

/-- The message is handed over, confirmed, and handed over again. -/
theorem synchronised_message_sent_twice :
    ¬ Idempotent (MpAutoResendEngine.new [MP_TYPE_MESSAGE]) [[sampleMessage [97]]] ∧
      ∃ e out out',
        exec call (MpAutoResendEngine.new [MP_TYPE_MESSAGE]) sampleTwice = some e ∧
          operate e (.setAutoResendEnabled true) ⟨true, []⟩ = some out ∧
          out.handed = some (sampleMessage [97]) ∧
          operate out.engine (.messageStatus (sampleMessage [97]) MP_MESSAGE_SENT)
            ⟨true, []⟩ = some out' ∧
          out'.handed = some (sampleMessage [97]) := by
  refine ⟨?_, _, _, _, rfl, rfl, rfl, rfl, rfl⟩
  intro h
  exact absurd (h [97]) (by decide)

end EndToEndSmkex.AutoResend.Synchronising
