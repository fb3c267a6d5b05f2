import EndToEndSmkex.Smkex.Transitions
import Mathlib.Logic.Function.Basic

/-!
# The keychain and the entry points

`smkexKeychain` holds one session for each buddy, created on the first record
from them.  The two entry points are `initSession`, called by the application,
and `onMsgReceived`, called with every message of every buddy.  Both work on
the entry of one buddy, and once that entry exists they do to it what
`restartSession` and `receive` do to a session.

## Main results

* `effect_initSession`, `effect_processRecord`, `run_onMsgReceived` — the entry
  points seen from the session.
* `acceptsExactly_never` — the receiver reads beyond the message or accepts
  what is no record, for every message there is.
-/

namespace EndToEndSmkex.Smkex.Keychain

open EndToEndSmkex.Lib.CBuffer
open EndToEndSmkex.Lib.Loads hiding run_bind run_pure
open EndToEndSmkex.Lib.Actions
open EndToEndSmkex.AutoResend.MsgPayload
open EndToEndSmkex.Smkex.Record
open EndToEndSmkex.Smkex.Framing
open EndToEndSmkex.Smkex.SessionInfo
open EndToEndSmkex.Smkex.Handshake
open EndToEndSmkex.Smkex.Transitions

variable {K : Type}

/-! ## The map -/

/-- `map<MpString, SmkexSessionInfo *>`. -/
abbrev SmkexKeychain (K : Type) := MpString → Option (SmkexSessionInfo K)

def hasSessionInfo (keychain : SmkexKeychain K) (buddy : MpString) : Bool :=
  (keychain buddy).isSome

def getSessionInfo (keychain : SmkexKeychain K) (buddy : MpString) :
    Option (SmkexSessionInfo K) :=
  if hasSessionInfo keychain buddy then keychain buddy else none

/-- `map::insert` keeps the entry that is there. -/
def insert (keychain : SmkexKeychain K) (buddy : MpString) (s : SmkexSessionInfo K) :
    SmkexKeychain K :=
  if hasSessionInfo keychain buddy then keychain
  else Function.update keychain buddy (some s)

/-- `addSessionInfo` with its result. -/
def addSessionInfo (keychain : SmkexKeychain K) (buddy : MpString) (s : SmkexSessionInfo K)
    (force : Int) : SmkexKeychain K × Int :=
  if force = 1 then (insert keychain buddy s, 1)
  else if ¬ hasSessionInfo keychain buddy then (insert keychain buddy s, 1)
  else (keychain, 1)

/-- Write through the pointer the map holds. -/
def store (keychain : SmkexKeychain K) (buddy : MpString) (s : SmkexSessionInfo K) :
    SmkexKeychain K := Function.update keychain buddy (some s)

theorem getSessionInfo_eq (keychain : SmkexKeychain K) (buddy : MpString) :
    getSessionInfo keychain buddy = keychain buddy := by
  unfold getSessionInfo hasSessionInfo
  cases keychain buddy <;> rfl

/-! ## The entry points -/

section Entry

variable (ssl : OpenSSL K) (env : Env K) (keychain : SmkexKeychain K) (buddy : MpString)

/-- `initSession`.  Its first branch wraps the key in a record of type
`handshake`, which `printRecord` does not list, and sends the nonce bare. -/
def initSession : Action (SmkexKeychain K × Int) :=
  match getSessionInfo keychain buddy with
  | none => do
      let s := { SmkexSessionInfo.new env.fresh with iAmSessionInitiator := true }
      let keychain := (addSessionInfo keychain buddy s 1).1
      let s := { s with local_nonce := env.nonce }
      let r := buildRecord env buddy .handshake (ssl.pub s.ec_key)
      showRecord r
      sendRecord buddy r 1
      tell (.sendKeyOrNonce s.local_nonce.1 buddy 2)
      return (store keychain buddy { s with status := .waitKeyNonceHDest }, 1)
  | some s => do
      let s ← restartSession ssl env buddy s
      return (store keychain buddy s, 1)

/-- The session a record is processed in: the buddy's, or a new one. -/
def sessionFor : SmkexSessionInfo K :=
  match getSessionInfo keychain buddy with
  | some s => s
  | none => { SmkexSessionInfo.new env.fresh with iAmSessionInitiator := false }

/-- `processSmkexMessageSip` from the decoded record on. -/
def processRecord (r : SmkexT4mRecord) : Action (SmkexKeychain K × Int) := do
  let s ← receive ssl env buddy (sessionFor env keychain buddy) r
  return (store keychain buddy s, 1)

/-- `processSmkexMessageSip`: the message length is not used. -/
def processSmkexMessageSip (msg : Memory) : Action (SmkexKeychain K × Int) :=
  processRecord ssl env keychain buddy (getRecordFromSerial.run (shift msg 1)).1

/-- The copy `onMsgReceived` passes on: `msgLen + 1` bytes, computed in 32
bits, and whatever lies behind the copy. -/
def msgCpy (msg : Memory) (msgLen : UInt32) : Memory :=
  ofBytes (bytesAt msg 0 (msgLen + 1).toNat) fun i => (env.heap .msgCpy).getD i 0

/-- `onMsgReceived`.  The value is that of `processSmkexMessageSip`. -/
def onMsgReceived (msg : Memory) (msgLen : UInt32) : Action (SmkexKeychain K × Int) := do
  showRecord (getRecordFromSerial.run (shift msg 1)).1
  processSmkexMessageSip ssl env keychain buddy (msgCpy env msg msgLen)

/-- The spans of `msg` that `onMsgReceived` reads: for the printed string, for
the copy and for the first decoding. -/
def onMsgReceivedReads (msg : Memory) (msgLen : UInt32) : List Span :=
  [⟨0, msgLen.toNat⟩, ⟨0, (msgLen + 1).toNat⟩] ++
    (getRecordFromSerial.run (shift msg 1)).2.map fun s => ⟨s.offset + 1, s.count⟩

/-- The spans of its argument that `processSmkexMessageSip` reads. -/
def processSmkexMessageSipReads (msg : Memory) : List Span :=
  (getRecordFromSerial.run (shift msg 1)).2.map fun s => ⟨s.offset + 1, s.count⟩

end Entry

/-! ## The entry points seen from the session -/

section Entries

variable (ssl : OpenSSL K) (env : Env K) (keychain : SmkexKeychain K) (buddy : MpString)

/-- What an entry point leaves in the keychain and sends; `none` where the
process ends. -/
def effect (a : Action (SmkexKeychain K × Int)) :
    Option (SmkexKeychain K × List SmkexT4mRecord) :=
  a.run.map fun p => (p.1.1, sentRecords p.2)

/-- A record is processed in the buddy's session, which is stored. -/
theorem effect_processRecord (r : SmkexT4mRecord) :
    effect (processRecord ssl env keychain buddy r) =
      (answer ssl env buddy (sessionFor env keychain buddy) r).map fun p =>
        (store keychain buddy p.1, p.2) := by
  unfold effect processRecord answer
  rw [run_bind]
  cases (receive ssl env buddy (sessionFor env keychain buddy) r).run with
  | none => rfl
  | some p => simp

/-- A buddy who has a session starts a handshake in it. -/
theorem effect_initSession {s : SmkexSessionInfo K} (h : keychain buddy = some s) :
    effect (initSession ssl env keychain buddy) =
      some (store keychain buddy (restarted ssl env buddy s).1,
        (restarted ssl env buddy s).2) := by
  have hrun := initiate_eq ssl env buddy s
  unfold initiate at hrun
  unfold effect initSession
  rw [getSessionInfo_eq, h]
  simp only [run_bind]
  cases hrestart : (restartSession ssl env buddy s).run with
  | none => simp [hrestart] at hrun
  | some p =>
      rw [hrestart, Option.map_some, Option.some.injEq] at hrun
      simp [← hrun]

/-- A buddy without a session ends the process: the record that would carry the
key has a type `printRecord` refuses. -/
theorem effect_initSession_none (h : keychain buddy = none) :
    effect (initSession ssl env keychain buddy) = none := by
  unfold effect initSession
  rw [getSessionInfo_eq, h]
  rfl

/-- The message of a record, as the peer's transport puts it together. -/
private theorem msgLen_setPayload (t : mp_msg_type_t) (r : SmkexT4mRecord) :
    (UInt32.ofNat (setPayload t (SerializeSmkexT4mRecord r)).length + 1).toNat =
      2 + r.serialLen := by
  have hdest : r.destLen.toNat < 65536 := r.destLen.toNat_lt
  have hsender : r.senderLen.toNat < 65536 := r.senderLen.toNat_lt
  have hdata : r.length.toNat < 65536 := r.length.toNat_lt
  have hlen : (setPayload t (SerializeSmkexT4mRecord r)).length = 1 + r.serialLen := by
    simp only [setPayload, List.length_cons, length_serialize]
    omega
  rw [hlen]
  unfold SmkexT4mRecord.serialLen
  simp only [UInt32.toNat_add, UInt32.toNat_ofNat', UInt32.reduceToNat]
  omega

/-- The copy of a framed record is decoded to the record. -/
theorem getRecordFromSerial_msgCpy (t : mp_msg_type_t) (r : SmkexT4mRecord) (behind : Memory) :
    (getRecordFromSerial.run (shift (msgCpy env
      (ofBytes (setPayload t (SerializeSmkexT4mRecord r)) behind)
      (UInt32.ofNat (setPayload t (SerializeSmkexT4mRecord r)).length)) 1)).1 = r := by
  apply getRecordFromSerial_of_bytesAt
  rw [bytesAt_shift]
  calc bytesAt (msgCpy env _ _) 1 r.serialLen
      = bytesAt (ofBytes (setPayload t (SerializeSmkexT4mRecord r)) behind) 1
          r.serialLen := by
        apply bytesAt_congr
        intro i hi
        apply ofBytes_bytesAt
        rw [msgLen_setPayload]
        omega
    _ = SerializeSmkexT4mRecord r := by
        rw [bytesAt_ofBytes behind (by simp [setPayload, length_serialize]; omega)]
        simp [setPayload, ← length_serialize]

/-- **A framed record reaches the state machine.**  Whatever lies behind the
message, `onMsgReceived` does what the record says. -/
theorem run_onMsgReceived (t : mp_msg_type_t) (r : SmkexT4mRecord) (behind : Memory) :
    (onMsgReceived ssl env keychain buddy
        (ofBytes (setPayload t (SerializeSmkexT4mRecord r)) behind)
        (UInt32.ofNat (setPayload t (SerializeSmkexT4mRecord r)).length)).run =
      (processRecord ssl env keychain buddy r).run := by
  have hmsg : (getRecordFromSerial.run
      (received (setPayload t (SerializeSmkexT4mRecord r)) behind)).1 = r := by
    rw [received_setPayload]
    exact getRecordFromSerial_serialize r behind
  unfold onMsgReceived processSmkexMessageSip
  rw [getRecordFromSerial_msgCpy env t r behind]
  show (showRecord (getRecordFromSerial.run (received _ behind)).1 >>= fun _ => _).run = _
  rw [hmsg]
  unfold processRecord
  -- `receive` prints the record once more
  cases hprint : (showRecord r).run with
  | none => simp [run_bind, hprint, receive]
  | some p =>
      have hp : p = ((), []) := by
        unfold showRecord at hprint
        obtain ⟨x, -, hx⟩ := Option.map_eq_some_iff.1 hprint
        exact hx.symm
      subst hp
      rw [run_bind, hprint]
      simp

/-- The same, seen from the keychain and the records sent. -/
theorem effect_onMsgReceived (t : mp_msg_type_t) (r : SmkexT4mRecord) (behind : Memory) :
    effect (onMsgReceived ssl env keychain buddy
        (ofBytes (setPayload t (SerializeSmkexT4mRecord r)) behind)
        (UInt32.ofNat (setPayload t (SerializeSmkexT4mRecord r)).length)) =
      effect (processRecord ssl env keychain buddy r) := by
  unfold effect
  rw [run_onMsgReceived]

end Entries

/-! ## What the receiver accepts -/

section Acceptance

variable (ssl : OpenSSL K) (env : Env K) (keychain : SmkexKeychain K) (buddy : MpString)
  (msg : Memory) (msgLen : UInt32)

/-- One transport type byte and exactly the serialisation of one record of the
protocol version and of a type the enumeration names. -/
def WellFormed (bs : Bytes) : Prop :=
  ∃ (t : UInt8) (r : SmkexT4mRecord),
    r.version = SMKEX_T4M_PROTOCOL_VERSION ∧ r.type.Named ∧
      bs = t :: SerializeSmkexT4mRecord r

/-- What a parser of exactly this grammar does with a message of `msgLen`
bytes: it reads nothing else, and what is not well formed it rejects with 0,
sending nothing and changing no session. -/
structure AcceptsExactly : Prop where
  reads : Within msgLen.toNat (onMsgReceivedReads msg msgLen)
  readsCopy : Within msgLen.toNat (processSmkexMessageSipReads (msgCpy env msg msgLen))
  rejects : ¬ WellFormed (bytesAt msg 0 msgLen.toNat) →
    ∃ log, (onMsgReceived ssl env keychain buddy msg msgLen).run =
        some ((keychain, 0), log) ∧
      ∀ payload serial chan, .sendKeyOrNonce payload serial chan ∉ log

/-- The lengths in a record are 16 bits wide. -/
private theorem length_of_wellFormed {bs : Bytes} (h : WellFormed bs) :
    bs.length < 4294967295 := by
  obtain ⟨t, r, -, -, rfl⟩ := h
  have hdest : r.destLen.toNat < 65536 := r.destLen.toNat_lt
  have hsender : r.senderLen.toNat < 65536 := r.senderLen.toNat_lt
  have hdata : r.length.toNat < 65536 := r.length.toNat_lt
  rw [List.length_cons, length_serialize]
  unfold SmkexT4mRecord.serialLen
  omega

/-- `processSmkexMessageSip` returns 1 wherever it returns. -/
private theorem onMsgReceived_returns {keychain' : SmkexKeychain K} {n : Int}
    {log : List Event}
    (h : (onMsgReceived ssl env keychain buddy msg msgLen).run =
      some ((keychain', n), log)) : n = 1 := by
  unfold onMsgReceived processSmkexMessageSip processRecord at h
  obtain ⟨_, _, l, -, h, -⟩ := run_bind_eq_some.1 h
  obtain ⟨s, _, _, -, h, -⟩ := run_bind_eq_some.1 h
  cases h
  rfl

/-- The copy takes one byte more than the message has, unless the count wraps
to zero. -/
private theorem reads_beyond (h : msgLen + 1 ≠ 0) :
    ¬ Within msgLen.toNat (onMsgReceivedReads msg msgLen) := by
  intro hwithin
  have hcopy : (msgLen + 1).toNat ≤ msgLen.toNat := by
    have := hwithin ⟨0, (msgLen + 1).toNat⟩ (by simp [onMsgReceivedReads])
    simpa [Span.stop] using this
  have hlt : msgLen.toNat < 4294967296 := msgLen.toNat_lt
  have hne : (msgLen + 1).toNat ≠ 0 := by
    intro h0
    exact h (UInt32.toNat_inj.1 h0)
  simp only [UInt32.toNat_add, UInt32.reduceToNat] at hcopy hne
  omega

/-- **The receiver never is that parser.**  On every message it fails one of
the three demands: it reads the byte behind the message unless the message has
`2 ^ 32 - 1` bytes, no such message is well formed, and what the receiver
returns, where it returns at all, is 1. -/
theorem acceptsExactly_never :
    ¬ AcceptsExactly ssl env keychain buddy msg msgLen ∧
      (msgLen + 1 ≠ 0 → ¬ Within msgLen.toNat (onMsgReceivedReads msg msgLen)) ∧
      ∀ keychain' n log, (onMsgReceived ssl env keychain buddy msg msgLen).run =
        some ((keychain', n), log) → n = 1 := by
  refine ⟨?_, reads_beyond msg msgLen,
    fun _ _ _ h => onMsgReceived_returns ssl env keychain buddy msg msgLen h⟩
  intro hexact
  by_cases hwrap : msgLen + 1 = 0
  · have hlen : msgLen.toNat = 4294967295 := by
      have h0 : (msgLen + 1).toNat = 0 := by rw [hwrap]; rfl
      have hlt : msgLen.toNat < 4294967296 := msgLen.toNat_lt
      simp only [UInt32.toNat_add, UInt32.reduceToNat] at h0
      omega
    have hill : ¬ WellFormed (bytesAt msg 0 msgLen.toNat) := by
      intro hwf
      have := length_of_wellFormed hwf
      rw [bytesAt_length] at this
      omega
    obtain ⟨log, hrun, -⟩ := hexact.rejects hill
    have := onMsgReceived_returns ssl env keychain buddy msg msgLen hrun
    omega
  · exact reads_beyond msg msgLen hwrap hexact.reads

end Acceptance

/-- The text message "hi" where the memory behind it and behind its copy reads
as a record of type `alert`: a fourth byte is read, and the message leaves a
session behind and is answered with 1. -/
theorem text_message_accepted :
    let behind : Bytes := List.replicate 10 0 ++ [4]
    let msg := ofBytes [0, 104, 105] fun i => (0 :: behind).getD i 0
    let env := { sampleEnv 1 2 with heap := fun _ => behind }
    ¬ AcceptsExactly sampleOpenSSL env (fun _ => none) [98] msg 3 ∧
      (onMsgReceived sampleOpenSSL env (fun _ => none) [98] msg 3).run.map
        (fun p => (p.1.2, (p.1.1 [98]).isSome)) = some (1, true) := by
  intro behind msg env
  constructor
  · intro hexact
    have hreads : ¬ Within 3 (onMsgReceivedReads msg 3) := by decide
    exact hreads hexact.reads
  · decide +kernel

end EndToEndSmkex.Smkex.Keychain
