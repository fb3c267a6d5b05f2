import EndToEndSmkex.Lib.Loads
import Mathlib.Tactic.NormNum

/-!
# The SMKEX record format

A record is written field by field at a moving cursor and read back from a
bare pointer: every offset behind the receiver name depends on a length found
earlier in the same bytes, and the reader is never told how many bytes there
are.  `getRecordFromSerial` is therefore a reporting decoder; its report is
what the callers' bounds are compared with.

## Main results

* `length_serialize` — the serialiser fills exactly the bytes it allocates.
* `getRecordFromSerial_serialize` — decoding a serialised record gives the
  record back and loads nothing behind it, for all lengths up to 65535.
* `serialize_getRecordFromSerial` — serialising what was decoded gives the
  bytes that were consumed.
-/

namespace EndToEndSmkex.Smkex.Record

open EndToEndSmkex.Lib.CBuffer
open EndToEndSmkex.Lib.Loads

/-- `std::string`: any bytes, zeros included. -/
abbrev MpString := Bytes

def SMKEX_T4M_PROTOCOL_VERSION : UInt8 := 0x01

/-! ## Record types -/

/-- `enum SMKEX_T4M_Type : uint8_t`.  A byte cast to the enumeration may be
none of the named values. -/
inductive SMKEX_T4M_Type where
  | handshakeKey
  | handshakeNonce
  | handshakeNonceH
  | handshakeH
  | alert
  | application_data
  | handshake
  | unassigned (code : { b : UInt8 // 7 ≤ b })
  deriving DecidableEq

namespace SMKEX_T4M_Type

/-- The value as it is stored. -/
def toByte : SMKEX_T4M_Type → UInt8
  | handshakeKey => 0
  | handshakeNonce => 1
  | handshakeNonceH => 2
  | handshakeH => 3
  | alert => 4
  | application_data => 5
  | handshake => 6
  | unassigned code => code.1

/-- The cast `(SMKEX_T4M_Type) b`. -/
def ofByte (b : UInt8) : SMKEX_T4M_Type :=
  if h : 7 ≤ b then unassigned ⟨b, h⟩
  else if b = 0 then handshakeKey
  else if b = 1 then handshakeNonce
  else if b = 2 then handshakeNonceH
  else if b = 3 then handshakeH
  else if b = 4 then alert
  else if b = 5 then application_data
  else handshake

@[simp] theorem ofByte_toByte (t : SMKEX_T4M_Type) : ofByte t.toByte = t := by
  cases t with
  | unassigned code => simp [toByte, ofByte, code.2]
  | _ => rfl

@[simp] theorem toByte_ofByte (b : UInt8) : (ofByte b).toByte = b := by
  by_cases h : 7 ≤ b
  · simp [ofByte, h, toByte]
  · have hb : b.toNat < 7 := by
      have := UInt8.le_iff_toNat_le.not.1 h
      simpa using this
    have hcases : b = 0 ∨ b = 1 ∨ b = 2 ∨ b = 3 ∨ b = 4 ∨ b = 5 ∨ b = 6 := by
      simp only [← UInt8.toNat_inj]
      simp only [UInt8.reduceToNat]
      omega
    rcases hcases with rfl | rfl | rfl | rfl | rfl | rfl | rfl <;> rfl

/-- One of the values the enumeration names. -/
def Named : SMKEX_T4M_Type → Prop
  | unassigned _ => False
  | _ => True

end SMKEX_T4M_Type

/-! ## Records -/

/-- `struct SmkexT4mRecord`.  The three buffers have the sizes the length
fields announce. -/
@[ext] structure SmkexT4mRecord where
  version : UInt8
  timestamp : Int64
  destLen : UInt16
  dest : Bytes
  senderLen : UInt16
  sender : Bytes
  type : SMKEX_T4M_Type
  length : UInt16
  data : Bytes
  dest_size : dest.length = destLen.toNat
  sender_size : sender.length = senderLen.toNat
  data_size : data.length = length.toNat
  deriving DecidableEq

/-- The record builder used by the handshake.  `now` is `time(NULL)`, which
replaces a timestamp of zero. -/
def getSmkexT4mRecord2 (now timestamp : Int64) (dest exp : MpString)
    (type : SMKEX_T4M_Type) (version : UInt8) (length : UInt16) (data : Bytes) :
    SmkexT4mRecord :=
  -- the assignments to the `uint16_t` lengths truncate
  let destLen := UInt16.ofNat (dest.length + 1)
  let senderLen := UInt16.ofNat (exp.length + 1)
  { version
    timestamp := if timestamp = 0 then now else timestamp
    destLen
    dest := readN (dest ++ [0]) [] destLen.toNat
    senderLen
    sender := readN (exp ++ [0]) [] senderLen.toNat
    type
    length
    data := readN data [] length.toNat
    dest_size := readN_length _ _ _
    sender_size := readN_length _ _ _
    data_size := readN_length _ _ _ }

/-- `printRecord` ends the process on a type its switch does not list:
`none` stands for `exit(1)`. -/
def printRecord (r : SmkexT4mRecord) : Option Unit :=
  match r.type with
  | .handshakeH => some ()
  | .handshakeKey => some ()
  | .handshakeNonce => some ()
  | .handshakeNonceH => some ()
  | .application_data => some ()
  | .alert => some ()
  | .handshake => none
  | .unassigned _ => none

/-! ## Machine integers in the record -/

/-- `*(int16_t *) p` assigned to a `uint16_t`. -/
def loadInt16 (bs : Bytes) : UInt16 := (UInt16.ofNat (leVal bs)).toInt16.toUInt16

/-- `memcpy(cursor, &x, 2)`. -/
def storeUInt16 (x : UInt16) : Bytes := leBytes 2 x.toNat

/-- `*(int64_t *) p`. -/
def loadInt64 (bs : Bytes) : Int64 := (UInt64.ofNat (leVal bs)).toInt64

/-- `memcpy(cursor, &x, 8)`. -/
def storeInt64 (x : Int64) : Bytes := leBytes 8 x.toUInt64.toNat

@[simp] theorem storeUInt16_length (x : UInt16) : (storeUInt16 x).length = 2 :=
  leBytes_length _ _

@[simp] theorem storeInt64_length (x : Int64) : (storeInt64 x).length = 8 :=
  leBytes_length _ _

/-- Loading as a signed integer loses nothing: the conversion back to
`uint16_t` restores the value. -/
@[simp] theorem loadInt16_store (x : UInt16) : loadInt16 (storeUInt16 x) = x := by
  have hx : x.toNat < 256 ^ 2 := x.toNat_lt
  simp [loadInt16, storeUInt16, leVal_leBytes hx]

@[simp] theorem loadInt64_store (x : Int64) : loadInt64 (storeInt64 x) = x := by
  have hx : x.toUInt64.toNat < 256 ^ 8 := x.toUInt64.toNat_lt
  simp [loadInt64, storeInt64, leVal_leBytes hx]

theorem storeUInt16_load {bs : Bytes} (h : bs.length = 2) :
    storeUInt16 (loadInt16 bs) = bs := by
  have hv : leVal bs < 2 ^ 16 := by
    have := leVal_lt bs
    rw [h] at this
    omega
  have hn : (loadInt16 bs).toNat = leVal bs := by
    simpa [loadInt16] using Nat.mod_eq_of_lt hv
  rw [storeUInt16, hn, ← h]
  exact leBytes_leVal bs

theorem storeInt64_load {bs : Bytes} (h : bs.length = 8) :
    storeInt64 (loadInt64 bs) = bs := by
  have hv : leVal bs < 2 ^ 64 := by
    have := leVal_lt bs
    rw [h] at this
    omega
  have hn : (loadInt64 bs).toUInt64.toNat = leVal bs := by
    simpa [loadInt64] using Nat.mod_eq_of_lt hv
  rw [storeInt64, hn, ← h]
  exact leBytes_leVal bs

/-! ## Serialiser and decoder -/

/-- The number of bytes a record takes, `*len` of the serialiser. -/
def SmkexT4mRecord.serialLen (r : SmkexT4mRecord) : Nat :=
  16 + r.destLen.toNat + r.senderLen.toNat + r.length.toNat

/-- The bytes `SerializeSmkexT4mRecord` writes, in the order of its cursor. -/
def SerializeSmkexT4mRecord (r : SmkexT4mRecord) : Bytes :=
  [r.version] ++ (storeInt64 r.timestamp ++ (storeUInt16 r.destLen ++ (r.dest ++
    (storeUInt16 r.senderLen ++ (r.sender ++ ([r.type.toByte] ++
      (storeUInt16 r.length ++ r.data)))))))

/-- `getRecordFromSerial`: the record found at a pointer. -/
def getRecordFromSerial : Load SmkexT4mRecord := do
  let version ← load 0 1
  let timestamp ← load 1 8
  let destLen ← load 9 2
  let dl := loadInt16 destLen.1
  let dest ← load 11 dl.toNat
  let senderLen ← load (11 + dl.toNat) 2
  let sl := loadInt16 senderLen.1
  let sender ← load (11 + dl.toNat + 2) sl.toNat
  let type ← load (11 + dl.toNat + 2 + sl.toNat) 1
  let length ← load (11 + dl.toNat + 2 + sl.toNat + 1) 2
  let n := loadInt16 length.1
  let data ← load (11 + dl.toNat + 2 + sl.toNat + 3) n.toNat
  return {
    version := version.1.headD 0
    timestamp := loadInt64 timestamp.1
    destLen := dl
    dest := dest.1
    senderLen := sl
    sender := sender.1
    type := .ofByte (type.1.headD 0)
    length := n
    data := data.1
    dest_size := dest.2
    sender_size := sender.2
    data_size := data.2 }

/-- The serialiser fills exactly the allocation it computed. -/
theorem length_serialize (r : SmkexT4mRecord) :
    (SerializeSmkexT4mRecord r).length = r.serialLen := by
  simp only [SerializeSmkexT4mRecord, SmkexT4mRecord.serialLen, List.length_append,
    List.length_singleton, storeInt64_length, storeUInt16_length, r.dest_size,
    r.sender_size, r.data_size]
  omega

section Decoding

variable (mem : Memory)

/-- The decoder reaches exactly as far as the record it returns is long. -/
theorem reach_getRecordFromSerial :
    reach (getRecordFromSerial.run mem).2 = (getRecordFromSerial.run mem).1.serialLen := by
  simp only [getRecordFromSerial, run_bind, run_pure, run_load_fst, run_load_snd, reach,
    Span.stop, SmkexT4mRecord.serialLen, List.cons_append, List.nil_append,
    List.append_nil, List.map_cons, List.map_nil, List.foldr_cons, List.foldr_nil]
  omega

/-- **Encode undoes decode**: serialising the decoded record reproduces the
bytes at the pointer. -/
theorem serialize_getRecordFromSerial :
    SerializeSmkexT4mRecord (getRecordFromSerial.run mem).1 =
      bytesAt mem 0 (getRecordFromSerial.run mem).1.serialLen := by
  have byte : ∀ off, [(bytesAt mem off 1).headD 0] = bytesAt mem off 1 := fun _ => rfl
  simp only [SerializeSmkexT4mRecord, getRecordFromSerial, run_bind, run_pure,
    run_load_fst, SmkexT4mRecord.serialLen, SMKEX_T4M_Type.toByte_ofByte, byte,
    storeInt64_load (bytesAt_length mem 1 8), storeUInt16_load (bytesAt_length mem _ 2)]
  generalize (loadInt16 (bytesAt mem 9 2)).toNat = dl
  generalize (loadInt16 (bytesAt mem (11 + dl) 2)).toNat = sl
  generalize (loadInt16 (bytesAt mem (11 + dl + 2 + sl + 1) 2)).toNat = n
  rw [show 16 + dl + sl + n = 1 + (8 + (2 + (dl + (2 + (sl + (1 + (2 + n)))))))
    by omega]
  simp only [bytesAt_add, Nat.zero_add, Nat.reduceAdd]

variable {mem}

/-- Memory that starts with a serialised record holds its fields at the
offsets the decoder computes. -/
private theorem bytesAt_serialize {r : SmkexT4mRecord}
    (h : bytesAt mem 0 r.serialLen = SerializeSmkexT4mRecord r) :
    bytesAt mem 0 1 = [r.version] ∧
      bytesAt mem 1 8 = storeInt64 r.timestamp ∧
      bytesAt mem 9 2 = storeUInt16 r.destLen ∧
      bytesAt mem 11 r.destLen.toNat = r.dest ∧
      bytesAt mem (11 + r.destLen.toNat) 2 = storeUInt16 r.senderLen ∧
      bytesAt mem (11 + r.destLen.toNat + 2) r.senderLen.toNat = r.sender ∧
      bytesAt mem (11 + r.destLen.toNat + 2 + r.senderLen.toNat) 1 = [r.type.toByte] ∧
      bytesAt mem (11 + r.destLen.toNat + 2 + r.senderLen.toNat + 1) 2 =
        storeUInt16 r.length ∧
      bytesAt mem (11 + r.destLen.toNat + 2 + r.senderLen.toNat + 3) r.length.toNat =
        r.data := by
  have hsplit : r.serialLen = 1 + (8 + (2 + (r.destLen.toNat + (2 +
      (r.senderLen.toNat + (1 + (2 + r.length.toNat))))))) := by
    unfold SmkexT4mRecord.serialLen
    omega
  rw [hsplit] at h
  simp only [bytesAt_add, Nat.zero_add, Nat.reduceAdd, SerializeSmkexT4mRecord] at h
  obtain ⟨hversion, h⟩ := List.append_inj h (by simp)
  obtain ⟨htimestamp, h⟩ := List.append_inj h (by simp)
  obtain ⟨hdestLen, h⟩ := List.append_inj h (by simp)
  obtain ⟨hdest, h⟩ := List.append_inj h (by simp [r.dest_size])
  obtain ⟨hsenderLen, h⟩ := List.append_inj h (by simp)
  obtain ⟨hsender, h⟩ := List.append_inj h (by simp [r.sender_size])
  obtain ⟨htype, h⟩ := List.append_inj h (by simp)
  obtain ⟨hlength, hdata⟩ := List.append_inj h (by simp)
  exact ⟨hversion, htimestamp, hdestLen, hdest, hsenderLen, hsender, htype, hlength,
    hdata⟩

/-- **Decode undoes encode**, field by field, whatever follows the record. -/
theorem getRecordFromSerial_of_bytesAt {r : SmkexT4mRecord}
    (h : bytesAt mem 0 r.serialLen = SerializeSmkexT4mRecord r) :
    (getRecordFromSerial.run mem).1 = r := by
  obtain ⟨hversion, htimestamp, hdestLen, hdest, hsenderLen, hsender, htype, hlength,
    hdata⟩ := bytesAt_serialize h
  ext1 <;>
    simp only [getRecordFromSerial, run_bind, run_pure, run_load_fst, hversion,
      htimestamp, hdestLen, loadInt16_store, loadInt64_store, hdest, hsenderLen, hsender,
      htype, hlength, hdata, List.headD_cons, SMKEX_T4M_Type.ofByte_toByte]

end Decoding

/-- A serialised record, seen through a pointer to it, decodes to itself. -/
theorem getRecordFromSerial_serialize (r : SmkexT4mRecord) (behind : Memory) :
    (getRecordFromSerial.run (ofBytes (SerializeSmkexT4mRecord r) behind)).1 = r := by
  apply getRecordFromSerial_of_bytesAt
  rw [← length_serialize, bytesAt_ofBytes behind (by omega), List.drop_zero,
    List.take_length]

end EndToEndSmkex.Smkex.Record
