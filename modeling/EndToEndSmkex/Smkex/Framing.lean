import EndToEndSmkex.AutoResend.MsgPayload

/-!
# From the serialiser to the peer's decoder

Three modules share the framing of a record: the serialiser knows nothing of
it, `MpMsgPayload` puts the transport type byte in front, and the receiver
skips one byte before it decodes.
-/

namespace EndToEndSmkex.Smkex.Framing

open EndToEndSmkex.Lib.CBuffer
open EndToEndSmkex.Lib.Loads
open EndToEndSmkex.Smkex.Record
open EndToEndSmkex.AutoResend.MsgPayload

/-- What the receiver's decoder sees of a message: everything behind the
transport type byte. -/
def received (msg : Bytes) (behind : Memory) : Memory := shift (ofBytes msg behind) 1

theorem received_setPayload (t : mp_msg_type_t) (payload : Bytes) (behind : Memory) :
    received (setPayload t payload) behind = ofBytes payload behind :=
  shift_ofBytes_append [_] payload behind

/-- The record a byte string is the serialisation of, if it is one. -/
def recordOf (payload : Bytes) : Option SmkexT4mRecord :=
  let decoded := getRecordFromSerial.run (ofBytes payload fun _ => 0)
  if reach decoded.2 = payload.length then some decoded.1 else none

@[simp] theorem recordOf_serialize (r : SmkexT4mRecord) :
    recordOf (SerializeSmkexT4mRecord r) = some r := by
  have hdecoded := getRecordFromSerial_serialize r fun _ => 0
  simp only [recordOf, reach_getRecordFromSerial, hdecoded, length_serialize, if_true]

/-- **The record format round-trips.**  Every record is serialised to its
announced length, and what the peer decodes behind the transport type byte is
the record itself, with nothing loaded from outside the message.  Conversely a
decoded record serialises to the bytes it was decoded from, wherever the
decoder stayed within the bytes it was given. -/
theorem record_roundtrip :
    (∀ r : SmkexT4mRecord,
      (SerializeSmkexT4mRecord r).length =
          16 + r.destLen.toNat + r.senderLen.toNat + r.length.toNat ∧
        ∀ (t : mp_msg_type_t) (behind : Memory),
          let decoded := getRecordFromSerial.run
            (received (setPayload t (SerializeSmkexT4mRecord r)) behind)
          decoded.1 = r ∧ Within (SerializeSmkexT4mRecord r).length decoded.2) ∧
      ∀ (bs : Bytes) (behind : Memory),
        let decoded := getRecordFromSerial.run (ofBytes bs behind)
        Within bs.length decoded.2 →
          SerializeSmkexT4mRecord decoded.1 = bs.take (reach decoded.2) := by
  constructor
  · intro r
    refine ⟨length_serialize r, ?_⟩
    intro t behind decoded
    have hdecoded := getRecordFromSerial_serialize r behind
    have hreach : reach decoded.2 = decoded.1.serialLen := reach_getRecordFromSerial _
    rw [← received_setPayload t] at hdecoded
    refine ⟨hdecoded, ?_⟩
    rw [within_iff_reach_le, hreach, length_serialize]
    exact (congrArg SmkexT4mRecord.serialLen hdecoded).le
  · intro bs behind decoded hwithin
    rw [within_iff_reach_le, reach_getRecordFromSerial] at hwithin
    rw [serialize_getRecordFromSerial, reach_getRecordFromSerial,
      bytesAt_ofBytes behind (by omega), List.drop_zero]

/-- An alert from "b" to "a" with one byte behind it that is not consumed. -/
theorem record_roundtrip_alert :
    let bs : Bytes := [1, 5, 0, 0, 0, 0, 0, 0, 0, 2, 0, 97, 0, 2, 0, 98, 0, 4, 2, 0, 97, 0, 7]
    let decoded := getRecordFromSerial.run (ofBytes bs fun _ => 0)
    Within bs.length decoded.2 ∧
      SerializeSmkexT4mRecord decoded.1 = bs.take (reach decoded.2) ∧
      reach decoded.2 = 22 := by
  intro bs decoded
  have hwithin : Within bs.length decoded.2 := by decide
  exact ⟨hwithin, record_roundtrip.2 bs (fun _ => 0) hwithin, by decide⟩

end EndToEndSmkex.Smkex.Framing
