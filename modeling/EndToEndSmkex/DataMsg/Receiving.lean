import EndToEndSmkex.Buddy.BuddyList
import EndToEndSmkex.Utils.Uri

/-!
# From a SIP message to the callbacks

`on_pager` gets the From header of a message as bytes with a length and passes it
on as a C string.  `onMsgReceived` takes the sender's serial out of it, and the
callbacks get the message under that serial.

## Main results

* `filed_under_serial` — what a buddy sends is filed under the serial of the
  buddy, whatever serial that is.
* `uris_safe_iff` — what a peer or the application may write so that nothing goes
  wrong.
-/

namespace EndToEndSmkex.DataMsg.Receiving

open EndToEndSmkex.Lib.CBuffer
open EndToEndSmkex.Lib.Actions
open EndToEndSmkex.Lib.Substrings
open EndToEndSmkex.Smkex.Record
open EndToEndSmkex.Utils.Uri
open EndToEndSmkex.SipStack.Stack
open EndToEndSmkex.Buddy.BuddyList

/-! ## Receiving a message -/

/-- A callback, by its address. -/
abbrev MpIMsg := Nat

/-- A call of a callback. -/
structure Delivery where
  cb : MpIMsg
  serial : MpString
  msg : Bytes
  deriving DecidableEq

/-- `onMsgReceived`. -/
def onMsgReceived (msgCb : List MpIMsg) (fromUri : CharPtr) (msgBody : Bytes) :
    Act Wrapped (List Delivery) := do
  let serial ← getSerialFromUri fromUri
  return msgCb.map fun cb => ⟨cb, serial, msgBody⟩

/-- `on_pager`. -/
def on_pager (msgCb : List MpIMsg) (sender : MpString) (body : Bytes) :
    Act Wrapped (List Delivery) :=
  onMsgReceived msgCb (some (c_str sender)) body

theorem run_on_pager {msgCb : List MpIMsg} {sender serial : MpString} {body : Bytes}
    (h : (getSerialFromUri (some (c_str sender))).run = some (serial, [])) :
    (on_pager msgCb sender body).run =
      some (msgCb.map fun cb => ⟨cb, serial, body⟩, []) := by
  simp [on_pager, onMsgReceived, run_bind, h]

/-! ## The serial of a buddy -/

/-- How a URI stands in a From header: alone or in brackets, behind a display
name or not. -/
def headers (name uri : MpString) : List MpString :=
  [uri, [60] ++ uri ++ [62], name ++ uri, name ++ [60] ++ uri ++ [62]]

section Headers

variable {serial address name : MpString} {port : UInt32}

/-- A URI between any two texts that do not look like part of it. -/
theorem read_back {pre post : Bytes} (hzero : 0 ∉ serial) (haddress : 64 ∉ address)
    (hpre : ¬ MP_SIP_SCHEMA <:+: pre) (hpreZero : 0 ∉ pre) (hpost : 64 ∉ post)
    (hpostZero : 0 ∉ post) :
    (getSerialFromUri (some (c_str (pre ++
      (MP_SIP_SCHEMA ++ (serial ++ ([64] ++ uriTail (c_str address) port))) ++ post)))).run =
        some (serial, []) := by
  have haddress' : 64 ∉ (c_str address).bytes := fun h =>
    haddress ((List.takeWhile_prefix _).subset h)
  have htail : 64 ∉ uriTail (c_str address) port ++ post := by
    simp [at_not_mem_uriTail haddress', hpost]
  have hall : 0 ∉ pre ++
      (MP_SIP_SCHEMA ++ (serial ++ ([64] ++ uriTail (c_str address) port))) ++ post := by
    have hschema : 0 ∉ MP_SIP_SCHEMA := by decide
    simp [hpreZero, hschema, hzero, zero_not_mem_uriTail, hpostZero]
  apply getSerialFromUri_of_framed hpre htail
  rw [c_str_of_noZero hall]
  simp only [List.append_assoc]

/-- **What a buddy sends is filed under the buddy's serial**, also where the
serial has an `@` or a `sip:` in it. -/
theorem filed_under_serial (hserial : serial ≠ []) (hzero : 0 ∉ serial)
    (haddress : 64 ∉ address) (hname : ¬ MP_SIP_SCHEMA <:+: name) (hnameZero : 0 ∉ name)
    (msgCb : List MpIMsg) (body : Bytes) :
    ∃ uri, (getUriFromSerial (some (c_str serial)) (c_str address) port).run = some (uri, []) ∧
      ∀ sender ∈ headers name uri,
        (getSerialFromUri (some (c_str sender))).run = some (serial, []) ∧
          (on_pager msgCb sender body).run =
            some (msgCb.map fun cb => ⟨cb, serial, body⟩, []) := by
  have hbytes : (c_str serial).bytes = serial := c_str_of_noZero hzero
  have hne : (c_str serial).bytes ≠ [] := by rwa [hbytes]
  have huri := @run_getUriFromSerial (c_str address) (c_str serial) port hne
  rw [hbytes] at huri
  refine ⟨_, huri, ?_⟩
  intro sender hsender
  have hread : (getSerialFromUri (some (c_str sender))).run = some (serial, []) := by
    have hnil : ¬ MP_SIP_SCHEMA <:+: [] := by decide
    have hbracket : ¬ MP_SIP_SCHEMA <:+: [60] := by decide
    have hnameBracket : ¬ MP_SIP_SCHEMA <:+: name ++ [60] := not_infix_concat (by decide) hname
    have hnameBracketZero : 0 ∉ name ++ [60] := by simp [hnameZero]
    simp only [headers, List.mem_cons, List.not_mem_nil, or_false] at hsender
    rcases hsender with rfl | rfl | rfl | rfl
    · have h := @read_back serial address port [] [] hzero haddress hnil (by decide) (by decide)
        (by decide)
      rwa [List.nil_append, List.append_nil] at h
    · exact read_back hzero haddress hbracket (by decide) (by decide) (by decide)
    · have h := @read_back serial address port name [] hzero haddress hname hnameZero
        (by decide) (by decide)
      rwa [List.append_nil] at h
    · exact read_back hzero haddress hnameBracket hnameBracketZero (by decide) (by decide)
  exact ⟨hread, run_on_pager hread⟩

/-- The serial `a@sip:b`. -/
theorem filed_under_serial_separators :
    let serial : MpString := [97, 64, 115, 105, 112, 58, 98]
    ∃ uri, (getUriFromSerial (some (c_str serial)) (c_str [104]) 5061).run = some (uri, []) ∧
      ∀ sender ∈ headers [110, 32] uri,
        (getSerialFromUri (some (c_str sender))).run = some (serial, []) ∧
          (on_pager [7] sender [1, 2]).run = some ([⟨7, serial, [1, 2]⟩], []) :=
  filed_under_serial (by decide) (by decide) (by decide) (by decide) (by decide) [7] [1, 2]

/-- A display name with a zero byte ends the string in front of the URI. -/
theorem zero_byte_in_display_name :
    ∃ uri, (getUriFromSerial (some (c_str [98])) (c_str [104]) 5061).run = some (uri, []) ∧
      ¬ MP_SIP_SCHEMA <:+: [0] ∧ (getSerialFromUri (some (c_str ([0] ++ uri)))).run = none :=
  ⟨_, rfl, by decide, rfl⟩

end Headers

/-! ## Malformed input -/

/-- A buddy with a serial is subscribed or refused, and the call returns. -/
theorem addBuddy_returns {buddy : MpBuddy} (h : buddy.serial_.takeWhile (· ≠ 0) ≠ [])
    (ans : Answers) (s : MpService) : (addBuddy ans s buddy).run.isSome := by
  have hsub : (subscribe ans s buddy).run.isSome := by
    unfold subscribe
    rw [if_neg h]
    cases s.started_ with
    | false => rfl
    | true => cases hok : ans.succeeds (.buddy_add ans.buddy_id) <;> simp [run_bind, run_call, hok]
  unfold addBuddy
  split
  · rfl
  split
  · rfl
  refine isSome_run_bind hsub ?_
  rintro ⟨buddy', status⟩
  dsimp only
  split <;> rfl

/-- **Which strings are handled safely.**  A From header has to have an `@` behind
a `sip:`, and a valid serial has to be there. -/
theorem uris_safe_iff (sender serial address : MpString) (port : UInt32) (msgCb : List MpIMsg)
    (body : Bytes) (ans : Answers) (s : MpService) (state : mp_buddy_online_status_t)
    (id : pjsua_buddy_id) :
    (Safe (getSerialFromUri (some (c_str sender))) ∧ (on_pager msgCb sender body).run.isSome ↔
      ∃ pre mid post, (c_str sender).bytes =
        pre ++ (MP_SIP_SCHEMA ++ (mid ++ ([64] ++ post)))) ∧
    ((serialIsValid serial = true →
        Safe (getUriFromSerial (some (c_str serial)) (c_str address) port) ∧
          (addBuddy ans s ⟨serial, state, id⟩).run.isSome) ↔ serial ≠ []) := by
  constructor
  · rw [← safe_getSerialFromUri_iff]
    constructor
    · exact fun h => h.1
    · intro hsafe
      obtain ⟨serial, hrun⟩ := hsafe
      refine ⟨⟨serial, hrun⟩, ?_⟩
      rw [run_on_pager hrun]
      rfl
  · constructor
    · rintro h rfl
      exact safe_getUriFromSerial_iff.1 (h rfl).1 rfl
    · intro hne hvalid
      have hbytes : (c_str serial).bytes = serial :=
        c_str_of_noZero (zero_not_mem_of_valid hvalid)
      have hcut : (c_str serial).bytes ≠ [] := by rwa [hbytes]
      exact ⟨safe_getUriFromSerial_iff.2 hcut, @addBuddy_returns ⟨serial, state, id⟩ hcut ans s⟩

/-- A From header without an `@`, one with the `@` in front of the scheme, and a
buddy without a serial. -/
theorem malformed_strings :
    (on_pager [] [115, 105, 112, 58, 98] []).run = none ∧
      (getSerialFromUri (some (c_str [64, 115, 105, 112, 58, 98]))).run =
        some ([98], [⟨0, 1⟩]) ∧
      serialIsValid [] = true ∧
        (getUriFromSerial (some (c_str [])) (c_str [104]) 5061).run = none ∧
        (addBuddy ⟨fun _ => true, 0, 0⟩ ⟨true, fun _ => none⟩ (.new [])).run = none :=
  ⟨rfl, rfl, rfl, rfl, rfl⟩

end EndToEndSmkex.DataMsg.Receiving
