import EndToEndSmkex.Smkex.Keychain
import EndToEndSmkex.Lib.Run

/-!
# A client and all its buddies

The whole client as a transition system: its keychain, calls of `initSession`
for any buddy, and framed records from any buddy.  The process may end at any
event, after which nothing happens.

## Main results

* `step_cases` — an event works on the session of one buddy.
* `message_ends_iff` — the handlers end the process on the records that `Exits`
  lists.
-/

namespace EndToEndSmkex.Smkex.Client

open EndToEndSmkex.Lib.CBuffer
open EndToEndSmkex.Lib.Loads hiding run_bind run_pure
open EndToEndSmkex.Lib.Actions
open EndToEndSmkex.AutoResend.MsgPayload
open EndToEndSmkex.Smkex.Record
open EndToEndSmkex.Smkex.SessionInfo
open EndToEndSmkex.Smkex.Handshake
open EndToEndSmkex.Smkex.Transitions
open EndToEndSmkex.Smkex.Keychain

variable {K : Type} (ssl : OpenSSL K)

/-! ## The transition system -/

/-- The client's keychain, `none` once its process has ended. -/
abbrev Process (K : Type) := Option (SmkexKeychain K)

/-- What can happen to a client.  A message is the transport type byte and a
serialised record, and some memory behind it. -/
inductive ClientEvent (K : Type) where
  | initSession (env : Env K) (buddy : MpString)
  | message (env : Env K) (buddy : MpString) (t : mp_msg_type_t) (r : SmkexT4mRecord)
      (behind : Memory)

/-- The buddy an event is about. -/
def ClientEvent.buddy : ClientEvent K → MpString
  | .initSession _ buddy => buddy
  | .message _ buddy _ _ _ => buddy

/-- The entry point an event calls. -/
def entry (keychain : SmkexKeychain K) : ClientEvent K → Action (SmkexKeychain K × Int)
  | .initSession env buddy => initSession ssl env keychain buddy
  | .message env buddy t r behind =>
      let payload := setPayload t (SerializeSmkexT4mRecord r)
      onMsgReceived ssl env keychain buddy (ofBytes payload behind)
        (UInt32.ofNat payload.length)

/-- One event; nothing happens to a process that has ended. -/
def Process.step (c : Process K) (e : ClientEvent K) : Option (Process K) :=
  c.map fun keychain => (entry ssl keychain e).run.map fun p => p.1.1

/-- A client without a session. -/
def Process.initial : Process K := some fun _ => none

/-- How an event that returns changes the keychain. -/
inductive Changes (keychain : SmkexKeychain K) : ClientEvent K → SmkexKeychain K → Prop where
  | started {env : Env K} {buddy : MpString} {s : SmkexSessionInfo K}
      (before : keychain buddy = some s) :
      Changes keychain (.initSession env buddy)
        (store keychain buddy (restarted ssl env buddy s).1)
  | answered {env : Env K} {buddy : MpString} {t : mp_msg_type_t} {r : SmkexT4mRecord}
      {behind : Memory} {s' : SmkexSessionInfo K} {records : List SmkexT4mRecord}
      (answer : Answer ssl env buddy (sessionFor env keychain buddy) r s' records) :
      Changes keychain (.message env buddy t r behind) (store keychain buddy s')

/-- The keychain an action leaves is that of its effect. -/
private theorem effect_fst {a : Action (SmkexKeychain K × Int)} :
    (effect a).map Prod.fst = a.run.map fun p => p.1.1 := by
  rw [effect, Option.map_map]
  rfl

/-- **An event works on the session of one buddy.** -/
theorem step_cases {keychain keychain' : SmkexKeychain K} {e : ClientEvent K}
    (h : Process.step ssl (some keychain) e = some (some keychain')) :
    Changes ssl keychain e keychain' := by
  have heffect : (effect (entry ssl keychain e)).map Prod.fst = some keychain' :=
    effect_fst.trans (Option.some.inj h)
  cases e with
  | initSession env buddy =>
      change (effect (initSession ssl env keychain buddy)).map Prod.fst = _ at heffect
      cases hs : keychain buddy with
      | none =>
          rw [effect_initSession_none ssl env keychain buddy hs] at heffect
          cases heffect
      | some s =>
          rw [effect_initSession ssl env keychain buddy hs] at heffect
          cases heffect
          exact .started hs
  | message env buddy t r behind =>
      change (effect (onMsgReceived ssl env keychain buddy _ _)).map Prod.fst = _ at heffect
      rw [effect_onMsgReceived, effect_processRecord, Option.map_map] at heffect
      obtain ⟨⟨s', records⟩, hanswer, heq⟩ := Option.map_eq_some_iff.1 heffect
      cases heq
      exact .answered (answer_cases ssl env buddy hanswer)

/-- The sessions of all other buddies stay as they are. -/
theorem Changes.other {keychain keychain' : SmkexKeychain K} {e : ClientEvent K}
    (h : Changes ssl keychain e keychain') {b : MpString} (hb : b ≠ e.buddy) :
    keychain' b = keychain b := by
  cases h with
  | started => exact Function.update_of_ne hb _ _
  | answered => exact Function.update_of_ne hb _ _

/-! ## Records that end the process -/

section Message

variable (env : Env K) (keychain : SmkexKeychain K) (buddy : MpString) (t : mp_msg_type_t)
  (r : SmkexT4mRecord) (behind : Memory)

/-- A message ends the process exactly where answering its record does. -/
theorem message_ends_iff :
    (entry ssl keychain (.message env buddy t r behind)).run = none ↔
      Exits ssl (sessionFor env keychain buddy) r := by
  have heffect : effect (entry ssl keychain (.message env buddy t r behind)) =
      (answer ssl env buddy (sessionFor env keychain buddy) r).map fun p =>
        (store keychain buddy p.1, p.2) := by
    rw [← effect_processRecord]
    exact effect_onMsgReceived ssl env keychain buddy t r behind
  calc (entry ssl keychain (.message env buddy t r behind)).run = none
      ↔ effect (entry ssl keychain (.message env buddy t r behind)) = none := by
        rw [effect, Option.map_eq_none_iff]
    _ ↔ answer ssl env buddy (sessionFor env keychain buddy) r = none := by
        rw [heffect, Option.map_eq_none_iff]
    _ ↔ Exits ssl (sessionFor env keychain buddy) r := answer_eq_none_iff

end Message

end EndToEndSmkex.Smkex.Client
