import EndToEndSmkex.Smkex.Framing
import EndToEndSmkex.Lib.Actions

/-!
# The session of one buddy

`SmkexSessionInfo` with the buffers its handshake copies into, what its
constructor leaves in them, and the two computations over it: the hash `H` and
the session key.  OpenSSL is a parameter; `calculateH` and `nist_800_kdf` are
the code's own.

The buffers hold binary values without a terminator but are hashed as C
strings, so the memory behind each of them is an input of the handlers
(`Env.heap`).  Allocation and `RAND_bytes` are taken to succeed.
-/

namespace EndToEndSmkex.Smkex.SessionInfo

open EndToEndSmkex.Lib.CBuffer
open EndToEndSmkex.Lib.Actions
open EndToEndSmkex.Smkex.Record

def PUB_KEY_LEN : Nat := 256
def NONCE_LEN : Nat := 8

/-- `NONCE_LEN` random bytes. -/
abbrev Nonce := { b : Bytes // b.length = NONCE_LEN }

/-- OpenSSL as the handshake uses it, over a type `K` of P-256 key pairs. -/
structure OpenSSL (K : Type) where
  /-- `EC_POINT_point2oct` of the public key, uncompressed. -/
  pub : K → Bytes
  pub_size : ∀ k, (pub k).length = 65
  /-- `EC_POINT_oct2point` accepts the bytes as a point. -/
  oct2point : Bytes → Bool
  /-- The secret `ECDH_compute_key` hands to its key derivation; `none` where
  it returns -1. -/
  ecdh : K → Bytes → Option Bytes
  /-- `HMAC(EVP_sha256(), key, data)`. -/
  hmac : Bytes → Bytes → Bytes
  sha256 : Bytes → Bytes

variable {K : Type}

/-! ## The session record -/

/-- `Smkex::state`. -/
inductive State where
  | notConnected
  | waitKeyNonceHDest
  | waitNonceHDest
  | waitKeyDest
  | waitNonceInit
  | waitKeyInit
  | waitNonce2HInit
  | connected
  deriving DecidableEq

/-- The fields the handshake reads.  `local_pub_key` is the encoding of
`ec_key`, written by the constructor and never again, and neither
`remote_pub_key` nor `remote_nonce` is null after it.  `receivedNonceHValue`
is not set by the constructor: `none` until a record allocates it. -/
structure SmkexSessionInfo (K : Type) where
  iAmSessionInitiator : Bool
  status : State
  ec_key : K
  local_nonce : Nonce
  local_nonce2 : Nonce
  remote_nonce : Block
  remote_pub_key : Block
  remote_pub_key_len : Nat
  session_key : Bytes
  receivedNonceHValue : Option Block
  deriving DecidableEq

/-- What the constructor draws, and what it finds in memory it does not
initialise. -/
structure CtorInput (K : Type) where
  ec_key : K
  local_nonce : Nonce
  local_nonce2 : Nonce
  remote_nonce : Bytes
  remote_pub_key : Bytes
  remote_pub_key_len : Nat

/-- The constructor: one key pair, two nonces, room for the peer's values. -/
def SmkexSessionInfo.new (c : CtorInput K) : SmkexSessionInfo K :=
  { iAmSessionInitiator := false
    status := .notConnected
    ec_key := c.ec_key
    local_nonce := c.local_nonce
    local_nonce2 := c.local_nonce2
    remote_nonce := ⟨NONCE_LEN, readN c.remote_nonce [] NONCE_LEN⟩
    remote_pub_key := ⟨65, readN c.remote_pub_key [] 65⟩
    remote_pub_key_len := c.remote_pub_key_len
    session_key := List.replicate 64 0
    receivedNonceHValue := none }

/-- The peer's public key as the session holds it. -/
def SmkexSessionInfo.remoteKey (s : SmkexSessionInfo K) : Bytes :=
  s.remote_pub_key.bytes.take s.remote_pub_key_len

/-- The peer's nonce as the session holds it. -/
def SmkexSessionInfo.remoteNonce (s : SmkexSessionInfo K) : Bytes :=
  s.remote_nonce.bytes.take NONCE_LEN

/-! ## What a handler gets from its surroundings -/

/-- The four buffers of `calculateH`. -/
inductive HashArg where
  | key1
  | nonce1
  | key2
  | nonce2
  deriving DecidableEq

/-- The places where a handler reads on behind a buffer. -/
inductive Site where
  | recData
  | remotePubKey
  | sendNonceH (arg : HashArg)
  | verifyH (arg : HashArg)
  | receivedNonceH
  | msgCpy
  deriving DecidableEq

/-- Clock, random numbers, the constructor's draws and the memory behind the
buffers, as they are during one call. -/
structure Env (K : Type) where
  now : Int64
  clientId : MpString
  nonce : Nonce
  fresh : CtorInput K
  heap : Site → Bytes

/-- One `memcpy` between a record and a session buffer: how many bytes, and
how many there are on each side.  `writable` is `none` for a pointer that was
never set. -/
structure Copy where
  count : Nat
  readable : Nat
  writable : Option Nat
  deriving DecidableEq

/-- What a handler does besides changing the session. -/
inductive Event where
  | copy (c : Copy)
  | sendKeyOrNonce (payload : Bytes) (buddy : MpString) (chan : Nat)
  deriving DecidableEq

/-- A handler. -/
abbrev Action := Act Event

/-- The records among the events: what the peer's decoder makes of every
message handed to `sendKeyOrNonce`. -/
def sentRecords (log : List Event) : List SmkexT4mRecord :=
  log.filterMap fun
    | .sendKeyOrNonce payload _ _ => Framing.recordOf payload
    | .copy _ => none

/-! ## Hash and session key -/

section Crypto

variable (ssl : OpenSSL K)

/-- The bytes `calculateH` feeds to SHA-256.  Every buffer goes through
`strlen`. -/
def hashInput (behind : HashArg → Bytes) (key1 nonce1 key2 nonce2 : Bytes) : Bytes :=
  cString nonce1 (behind .nonce1) ++ (cString key1 (behind .key1) ++
    (cString nonce2 (behind .nonce2) ++ cString key2 (behind .key2)))

/-- `calculateH`; `none` is the null pointer. -/
def calculateH (behind : HashArg → Bytes) (key1 nonce1 key2 nonce2 : Bytes)
    (nonce_length key_length : Nat) : Option Bytes :=
  if nonce_length = 0 then none
  else if key_length = 0 then none
  else some (ssl.sha256 (hashInput behind key1 nonce1 key2 nonce2))

/-- `nist_800_kdf`: the two HMAC blocks with `int` counters 0 and 1. -/
def nist_800_kdf (inp : Bytes) : Bytes :=
  ssl.hmac inp (leBytes 4 0) ++ ssl.hmac inp (leBytes 4 1)

/-- The session key that a key pair and a peer key determine, if
`ECDH_compute_key` succeeds on them. -/
def sessionKeyOf (k : K) (remote : Bytes) : Option Bytes :=
  (ssl.ecdh k remote).map (nist_800_kdf ssl)

/-- `computeAndStoreSessionKey`: the process ends on bytes that are no point.
A failing `ECDH_compute_key` leaves the key buffer as it is, and the function
returns 1 all the same. -/
def computeAndStoreSessionKey (env : Env K) (s : SmkexSessionInfo K) :
    Action (SmkexSessionInfo K) :=
  let key := readN s.remote_pub_key.bytes (env.heap .remotePubKey) s.remote_pub_key_len
  if ssl.oct2point key then
    match sessionKeyOf ssl s.ec_key key with
    | some secret => pure { s with session_key := secret }
    | none => pure s
  else exit

end Crypto

/-- A small OpenSSL for concrete runs: the curve is a group of bytes, the point
at infinity is encoded as one zero byte, and the hash marks its input. -/
def sampleOpenSSL : OpenSSL UInt8 where
  pub k := 4 :: List.replicate 64 k
  pub_size _ := rfl
  oct2point bs := bs = [0] || (bs.length = 65 && bs.head? = some 4)
  ecdh k bs := if bs = [0] then none else some [k * bs.getD 1 0]
  hmac key data := key ++ data
  sha256 bs := 1 :: bs

def sampleNonce (b : UInt8) : Nonce := ⟨List.replicate 8 b, rfl⟩

/-- The draws of a constructor: the nonces are told apart from the key. -/
def sampleDraws (key : UInt8) : CtorInput UInt8 where
  ec_key := key
  local_nonce := sampleNonce (key + 100)
  local_nonce2 := sampleNonce (key + 200)
  remote_nonce := []
  remote_pub_key := []
  remote_pub_key_len := 0

/-- Surroundings with zeros behind every buffer. -/
def sampleEnv (key nonce : UInt8) : Env UInt8 where
  now := 1
  clientId := [99]
  nonce := sampleNonce nonce
  fresh := sampleDraws key
  heap _ := []

end EndToEndSmkex.Smkex.SessionInfo
