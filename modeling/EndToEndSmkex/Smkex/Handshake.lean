import EndToEndSmkex.Smkex.SessionInfo

/-!
# The handshake of one session

The static functions of class `Smkex`, as far as they work on one
`SmkexSessionInfo`: starting a handshake, answering a record, and the two
functions around the hash `H`.  The dispatcher follows the nested switch of
`processSmkexMessageSip`, outer case by outer case.
-/

namespace EndToEndSmkex.Smkex.Handshake

open EndToEndSmkex.Lib.CBuffer
open EndToEndSmkex.Lib.Actions
open EndToEndSmkex.Smkex.Record
open EndToEndSmkex.Smkex.SessionInfo

variable {K : Type} (ssl : OpenSSL K) (env : Env K) (buddy : MpString)

/-! ## Sending -/

/-- The record every sender builds: timestamp now, the buddy as receiver and
the client id as sender. -/
def buildRecord (type : SMKEX_T4M_Type) (data : Bytes) : SmkexT4mRecord :=
  getSmkexT4mRecord2 env.now 0 buddy env.clientId type SMKEX_T4M_PROTOCOL_VERSION
    (UInt16.ofNat data.length) data

theorem buildRecord_data (type : SMKEX_T4M_Type) {data : Bytes} (h : data.length < 65536) :
    (buildRecord env buddy type data).data = data := by
  have hlen : (UInt16.ofNat data.length).toNat = data.length := by
    rw [UInt16.toNat_ofNat']
    exact Nat.mod_eq_of_lt h
  show readN data [] (UInt16.ofNat data.length).toNat = data
  rw [hlen, readN_self]

/-- Print a record: the process ends on the types `printRecord` does not know. -/
def showRecord (r : SmkexT4mRecord) : Action Unit := ⟨(printRecord r).map fun _ => ((), [])⟩

/-- Serialise a record and hand it to `sendKeyOrNonce`. -/
def sendRecord (r : SmkexT4mRecord) (chan : Nat) : Action Unit :=
  tell (.sendKeyOrNonce (SerializeSmkexT4mRecord r) buddy chan)

/-- `sendAlert`: two dummy bytes, "a" and its terminator. -/
def sendAlert : Action Unit := do
  let r := buildRecord env buddy .alert [97, 0]
  showRecord r
  sendRecord buddy r 1

/-- `sendNonceH`: the record carries `local_nonce`, the hash in it is taken
over `local_nonce2`.  Both branches of the initiator test pass the same
arguments. -/
def sendNonceH (s : SmkexSessionInfo K) : Action Bool :=
  let h := calculateH ssl (env.heap ∘ .sendNonceH) s.remote_pub_key.bytes
    s.remote_nonce.bytes (ssl.pub s.ec_key) s.local_nonce2.1 NONCE_LEN
    s.remote_pub_key_len
  match h with
  | none => pure false
  | some h =>
    if h.length = 0 then pure false
    else do
      let r := buildRecord env buddy .handshakeNonceH (s.local_nonce.1 ++ h)
      showRecord r
      sendRecord buddy r 2
      return true

/-- The hash `verifyH` recomputes. -/
def expectedH (s : SmkexSessionInfo K) : Option Bytes :=
  calculateH ssl (env.heap ∘ .verifyH) (ssl.pub s.ec_key) s.local_nonce.1
    s.remote_pub_key.bytes s.remote_nonce.bytes NONCE_LEN s.remote_pub_key_len

/-- What lies at `receivedNonceHValue + NONCE_LEN`.  A pointer that was never
set points at whatever memory holds there. -/
def receivedH (s : SmkexSessionInfo K) : Bytes :=
  (((s.receivedNonceHValue.map Block.bytes).getD []) ++
    env.heap .receivedNonceH).drop NONCE_LEN

/-- `verifyH` returns what `strncmp` returns, converted to `bool`. -/
def verifyH (s : SmkexSessionInfo K) : Bool :=
  match expectedH ssl env s with
  | none => false
  | some h => strncmp h (receivedH env s) h.length ≠ 0

/-! ## Storing what a record carries -/

section Store

variable (s : SmkexSessionInfo K) (r : SmkexT4mRecord)

/-- `memcpy(remote_pub_key, rec->data, rec->length)` and the length. -/
def storeRemotePubKey : Action (SmkexSessionInfo K) := do
  tell (.copy ⟨r.length.toNat, r.length.toNat, some s.remote_pub_key.size⟩)
  return { s with
    remote_pub_key := s.remote_pub_key.write r.data
    remote_pub_key_len := r.length.toNat }

/-- `memcpy(remote_nonce, rec->data, NONCE_LEN)`. -/
def storeRemoteNonce : Action (SmkexSessionInfo K) := do
  tell (.copy ⟨NONCE_LEN, r.length.toNat, some s.remote_nonce.size⟩)
  return { s with
    remote_nonce := s.remote_nonce.write (readN r.data (env.heap .recData) NONCE_LEN) }

/-- Allocate `receivedNonceHValue` and fill it with the data. -/
def storeNonceHValue : Action (SmkexSessionInfo K) := do
  tell (.copy ⟨r.length.toNat, r.length.toNat, some r.length.toNat⟩)
  return { s with receivedNonceHValue := some ⟨r.length.toNat, r.data⟩ }

/-- The same copy without the allocation.  Through a pointer that was never set it
has no defined result, and that the session stays as it is here means nothing. -/
def overwriteNonceHValue : Action (SmkexSessionInfo K) := do
  tell (.copy ⟨r.length.toNat, r.length.toNat, s.receivedNonceHValue.map Block.size⟩)
  return { s with receivedNonceHValue := s.receivedNonceHValue.map (·.write r.data) }

end Store

/-! ## Starting a handshake -/

/-- `initSession` for a buddy who has a session. -/
def restartSession (s : SmkexSessionInfo K) : Action (SmkexSessionInfo K) :=
  let s := { s with iAmSessionInitiator := true }
  if s.status ≠ .waitKeyNonceHDest then do
    let s := { s with local_nonce := env.nonce }
    let r := buildRecord env buddy .handshakeKey (ssl.pub s.ec_key)
    showRecord r
    sendRecord buddy r 1
    -- the nonce record is not printed
    let r := buildRecord env buddy .handshakeNonce s.local_nonce.1
    sendRecord buddy r 1
    return { s with status := .waitKeyNonceHDest }
  else pure s

/-! ## Answering a record -/

section Receive

variable (s : SmkexSessionInfo K) (r : SmkexT4mRecord)

/-- The end of every verifying branch. -/
def concludeHandshake : Action (SmkexSessionInfo K) :=
  if verifyH ssl env s then pure { s with status := .connected }
  else do
    sendAlert env buddy
    return { s with status := .notConnected }

/-- A key.  `computeAndStoreSessionKey` returns 1 wherever it returns, so no
case falls through to the next. -/
def onHandshakeKey : Action (SmkexSessionInfo K) :=
  match s.status with
  | .notConnected => do
      let s := { s with remote_pub_key := s.remote_pub_key.realloc r.length.toNat }
      let s ← storeRemotePubKey s r
      let s ← computeAndStoreSessionKey ssl env s
      let r1 := buildRecord env buddy .handshakeKey (ssl.pub s.ec_key)
      showRecord r1
      sendRecord buddy r1 1
      return { s with status := .waitNonceInit }
  | .waitKeyNonceHDest => do
      let s ← storeRemotePubKey s r
      let s ← computeAndStoreSessionKey ssl env s
      return { s with status := .waitNonceHDest }
  | .waitKeyDest => do
      let s ← storeRemotePubKey s r
      let s ← computeAndStoreSessionKey ssl env s
      let _ ← sendNonceH ssl env buddy s
      concludeHandshake ssl env buddy s
  | .connected => do
      -- neither the length nor the session key follows the key
      tell (.copy ⟨PUB_KEY_LEN, r.length.toNat, some s.remote_pub_key.size⟩)
      return { s with
        remote_pub_key :=
          s.remote_pub_key.write (readN r.data (env.heap .recData) PUB_KEY_LEN)
        status := .waitNonceInit }
  | _ => pure s

def onHandshakeNonce : Action (SmkexSessionInfo K) :=
  match s.status with
  | .waitNonceInit => do
      let s ← storeRemoteNonce env s r
      let _ ← sendNonceH ssl env buddy s
      return { s with status := .waitNonce2HInit }
  | .waitKeyNonceHDest => do
      let s ← storeRemoteNonce env s r
      let s ← overwriteNonceHValue s r
      return { s with status := .waitKeyDest }
  | .connected => do
      let s ← storeRemoteNonce env s r
      return { s with status := .waitKeyInit }
  | _ => do
      sendAlert env buddy
      return { s with status := .notConnected }

def onHandshakeNonceH : Action (SmkexSessionInfo K) := do
  -- every state stores the value before it looks at it
  let s ← storeNonceHValue s r
  match s.status with
  | .waitKeyNonceHDest => storeRemoteNonce env s r
  | .waitNonceHDest => do
      let _ ← sendNonceH ssl env buddy s
      let s ← storeRemoteNonce env s r
      concludeHandshake ssl env buddy s
  | .waitNonce2HInit => do
      let s ← storeRemoteNonce env s r
      let s ← storeNonceHValue s r
      concludeHandshake ssl env buddy s
  | _ => pure s

/-- `alert`: an initiator starts again.  The session is in the keychain, so
`initSession` takes its second branch. -/
def onAlert : Action (SmkexSessionInfo K) :=
  let s := { s with status := .notConnected }
  if s.iAmSessionInitiator then restartSession ssl env buddy s else pure s

/-- The switch over the record type. -/
def receive : Action (SmkexSessionInfo K) := do
  showRecord r
  match r.type with
  | .handshakeKey => onHandshakeKey ssl env buddy s r
  | .handshakeNonce => onHandshakeNonce ssl env buddy s r
  | .handshakeNonceH => onHandshakeNonceH ssl env buddy s r
  | .handshakeH => exit
  | .alert => onAlert ssl env buddy s
  | _ => pure s

end Receive

end EndToEndSmkex.Smkex.Handshake
