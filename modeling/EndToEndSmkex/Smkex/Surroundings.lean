import EndToEndSmkex.Smkex.Transitions

/-!
# What an answer takes from its surroundings

Two calls with the same record, in the same session and with the same random
numbers, at different times and in different places of memory.  What they leave
and send can differ in two ways: in the timestamps, and where a handler reads on
behind a buffer.

## Main results

* `matches_receive` — where the memory behind the buffers is the same, the two
  calls leave the same session, and their records differ in the timestamps.
-/

namespace EndToEndSmkex.Smkex.Surroundings

open EndToEndSmkex.Lib.CBuffer
open EndToEndSmkex.Lib.Actions
open EndToEndSmkex.Smkex.Record
open EndToEndSmkex.Smkex.SessionInfo
open EndToEndSmkex.Smkex.Handshake
open EndToEndSmkex.Smkex.Transitions

variable {K : Type}

/-! ## Reading on behind a buffer -/

/-- The places behind the four buffers of a hash. -/
def hashSites (site : HashArg → Site) : List Site :=
  [site .key1, site .nonce1, site .key2, site .nonce2]

/-- The places `verifyH` reads on. -/
def verifySites : List Site := .receivedNonceH :: hashSites .verifyH

/-- The place behind the data, if fewer bytes have come than are copied. -/
def dataSites (r : SmkexT4mRecord) (count : Nat) : List Site :=
  if r.data.length < count then [.recData] else []

/-- The places behind buffers that answering a record reads on. -/
def readsBehind (s : SmkexSessionInfo K) (r : SmkexT4mRecord) : List Site :=
  match r.type, s.status with
  | .handshakeKey, .waitKeyDest => hashSites .sendNonceH ++ verifySites
  | .handshakeKey, .connected => dataSites r PUB_KEY_LEN
  | .handshakeNonce, .waitNonceInit => dataSites r NONCE_LEN ++ hashSites .sendNonceH
  | .handshakeNonce, .waitKeyNonceHDest => dataSites r NONCE_LEN
  | .handshakeNonce, .connected => dataSites r NONCE_LEN
  | .handshakeNonceH, .waitKeyNonceHDest => dataSites r NONCE_LEN
  | .handshakeNonceH, .waitNonceHDest =>
      hashSites .sendNonceH ++ (dataSites r NONCE_LEN ++ verifySites)
  | .handshakeNonceH, .waitNonce2HInit => dataSites r NONCE_LEN ++ verifySites
  | _, _ => []

/-- Memory is the same at these places. -/
def SameAt (env env' : Env K) (sites : List Site) : Prop :=
  ∀ site ∈ sites, env.heap site = env'.heap site

theorem sameAt_append {env env' : Env K} {l₁ l₂ : List Site} :
    SameAt env env' (l₁ ++ l₂) ↔ SameAt env env' l₁ ∧ SameAt env env' l₂ :=
  List.forall_mem_append

/-! ## Two surroundings -/

/-- The same client with the same key pair and nonces. -/
structure SameDraws (env env' : Env K) : Prop where
  clientId : env.clientId = env'.clientId
  nonce : env.nonce = env'.nonce
  ec_key : env.fresh.ec_key = env'.fresh.ec_key
  local_nonce : env.fresh.local_nonce = env'.fresh.local_nonce
  local_nonce2 : env.fresh.local_nonce2 = env'.fresh.local_nonce2

/-- Two events that differ in the time of a record. -/
inductive Retimed (now now' : Int64) : Event → Event → Prop
  | copied (c : Copy) : Retimed now now' (.copy c) (.copy c)
  | sent (r : SmkexT4mRecord) (buddy : MpString) (chan : Nat) (time : r.timestamp = now) :
      Retimed now now' (.sendKeyOrNonce (SerializeSmkexT4mRecord r) buddy chan)
        (.sendKeyOrNonce (SerializeSmkexT4mRecord { r with timestamp := now' }) buddy chan)

/-- The two actions do the same, each at its own time. -/
abbrev Likewise (env env' : Env K) {α : Type} (m m' : Action α) : Prop :=
  Matches (Retimed env.now env'.now) m m'

section Handlers

variable (ssl : OpenSSL K) {env env' : Env K} {buddy : MpString} {s : SmkexSessionInfo K}
  {r : SmkexT4mRecord}

theorem likewise_tell_copy (c : Copy) : Likewise env env' (tell (.copy c)) (tell (.copy c)) :=
  matches_tell (.copied c)

/-- Printing is a matter of the type. -/
theorem likewise_showRecord {r' : SmkexT4mRecord} (h : r'.type = r.type) :
    Likewise env env' (showRecord r) (showRecord r') := by
  intro x log hrun
  have hsame : printRecord r' = printRecord r := by simp [printRecord, h]
  obtain ⟨u, hu, hx⟩ := Option.map_eq_some_iff.1 hrun
  cases hx
  exact ⟨[], by simp [showRecord, hsame, hu], .nil⟩

theorem likewise_sendRecord (hdraws : SameDraws env env') (type : SMKEX_T4M_Type) (data : Bytes)
    (chan : Nat) :
    Likewise env env' (sendRecord buddy (buildRecord env buddy type data) chan)
      (sendRecord buddy (buildRecord env' buddy type data) chan) := by
  have hrecord : buildRecord env' buddy type data =
      { buildRecord env buddy type data with timestamp := env'.now } := by
    unfold buildRecord
    rw [hdraws.clientId]
    rfl
  rw [hrecord]
  exact matches_tell (.sent _ buddy chan rfl)

theorem likewise_sendAlert (hdraws : SameDraws env env') :
    Likewise env env' (sendAlert env buddy) (sendAlert env' buddy) :=
  (likewise_showRecord rfl).bind fun _ => likewise_sendRecord hdraws _ _ _

theorem likewise_sendNonceH (hdraws : SameDraws env env')
    (hsame : SameAt env env' (hashSites .sendNonceH)) :
    Likewise env env' (sendNonceH ssl env buddy s) (sendNonceH ssl env' buddy s) := by
  have hheap : env.heap ∘ .sendNonceH = env'.heap ∘ .sendNonceH := by
    funext arg
    exact hsame _ (by cases arg <;> simp [hashSites])
  unfold sendNonceH
  rw [hheap]
  dsimp only
  split
  · exact matches_pure false
  · split
    · exact matches_pure false
    · exact (likewise_showRecord rfl).bind fun _ =>
        (likewise_sendRecord hdraws _ _ _).bind fun _ => matches_pure true

theorem verifyH_congr (hsame : SameAt env env' verifySites) (s : SmkexSessionInfo K) :
    verifyH ssl env s = verifyH ssl env' s := by
  have hheap : env.heap ∘ .verifyH = env'.heap ∘ .verifyH := by
    funext arg
    exact hsame _ (by cases arg <;> simp [verifySites, hashSites])
  have hreceived : env.heap .receivedNonceH = env'.heap .receivedNonceH :=
    hsame _ (by simp [verifySites])
  unfold verifyH expectedH receivedH
  rw [hheap, hreceived]

theorem likewise_concludeHandshake (hdraws : SameDraws env env')
    (hsame : SameAt env env' verifySites) :
    Likewise env env' (concludeHandshake ssl env buddy s)
      (concludeHandshake ssl env' buddy s) := by
  unfold concludeHandshake
  rw [verifyH_congr ssl hsame]
  split
  · exact matches_pure _
  · exact (likewise_sendAlert hdraws).bind fun _ => matches_pure _

/-- What is copied out of a record. -/
theorem readN_congr {count : Nat} (hsame : SameAt env env' (dataSites r count)) :
    readN r.data (env.heap .recData) count = readN r.data (env'.heap .recData) count := by
  by_cases hshort : r.data.length < count
  · rw [hsame .recData (by simp [dataSites, hshort])]
  · rw [readN_of_le (by omega), readN_of_le (by omega)]

theorem likewise_storeRemoteNonce (hsame : SameAt env env' (dataSites r NONCE_LEN)) :
    Likewise env env' (storeRemoteNonce env s r) (storeRemoteNonce env' s r) := by
  unfold storeRemoteNonce
  rw [readN_congr hsame]
  exact (likewise_tell_copy _).bind fun _ => matches_pure _

theorem likewise_storeNonceHValue :
    Likewise env env' (storeNonceHValue s r) (storeNonceHValue s r) :=
  (likewise_tell_copy _).bind fun _ => matches_pure _

/-- The derivation reads the bytes that were stored and none behind them. -/
theorem computeAndStoreSessionKey_congr :
    computeAndStoreSessionKey ssl env (keyStored s r) =
      computeAndStoreSessionKey ssl env' (keyStored s r) := by
  simp only [computeAndStoreSessionKey, stored_key]

/-- A key is stored and used. -/
theorem likewise_storeKey {f f' : SmkexSessionInfo K → Action (SmkexSessionInfo K)}
    (hf : ∀ t, Likewise env env' (f t) (f' t)) :
    Likewise env env'
      (do let t ← storeRemotePubKey s r; let t ← computeAndStoreSessionKey ssl env t; f t)
      (do let t ← storeRemotePubKey s r; let t ← computeAndStoreSessionKey ssl env' t; f' t) := by
  have hderive : Likewise env env' (computeAndStoreSessionKey ssl env (keyStored s r))
      (computeAndStoreSessionKey ssl env' (keyStored s r)) := by
    rw [show computeAndStoreSessionKey ssl env (keyStored s r) =
      computeAndStoreSessionKey ssl env' (keyStored s r) from computeAndStoreSessionKey_congr ssl]
    unfold computeAndStoreSessionKey
    dsimp only
    split
    · split
      · exact matches_pure _
      · exact matches_pure _
    · exact matches_exit
  exact (likewise_tell_copy _).bind fun _ => hderive.bind hf

private theorem likewise_onHandshakeKey (type : r.type = .handshakeKey)
    (hdraws : SameDraws env env') (hsame : SameAt env env' (readsBehind s r)) :
    Likewise env env' (onHandshakeKey ssl env buddy s r) (onHandshakeKey ssl env' buddy s r) := by
  unfold onHandshakeKey
  cases status : s.status with
  | notConnected =>
      exact likewise_storeKey ssl fun t => (likewise_showRecord rfl).bind fun _ =>
        (likewise_sendRecord hdraws _ _ _).bind fun _ => matches_pure _
  | waitKeyNonceHDest => exact likewise_storeKey ssl fun t => matches_pure _
  | waitKeyDest =>
      simp only [readsBehind, type, status, sameAt_append] at hsame
      exact likewise_storeKey ssl fun t => (likewise_sendNonceH ssl hdraws hsame.1).bind fun _ =>
        likewise_concludeHandshake ssl hdraws hsame.2
  | connected =>
      simp only [readsBehind, type, status] at hsame
      dsimp only
      rw [readN_congr hsame]
      exact (likewise_tell_copy _).bind fun _ => matches_pure _
  | waitNonceHDest | waitNonceInit | waitKeyInit | waitNonce2HInit => exact matches_pure s

private theorem likewise_onHandshakeNonce (type : r.type = .handshakeNonce)
    (hdraws : SameDraws env env') (hsame : SameAt env env' (readsBehind s r)) :
    Likewise env env' (onHandshakeNonce ssl env buddy s r)
      (onHandshakeNonce ssl env' buddy s r) := by
  unfold onHandshakeNonce
  cases status : s.status with
  | waitNonceInit =>
      simp only [readsBehind, type, status, sameAt_append] at hsame
      exact (likewise_storeRemoteNonce hsame.1).bind fun t =>
        (likewise_sendNonceH ssl hdraws hsame.2).bind fun _ => matches_pure _
  | waitKeyNonceHDest =>
      simp only [readsBehind, type, status] at hsame
      exact (likewise_storeRemoteNonce hsame).bind fun t =>
        ((likewise_tell_copy _).bind fun _ => matches_pure _).bind fun t => matches_pure _
  | connected =>
      simp only [readsBehind, type, status] at hsame
      exact (likewise_storeRemoteNonce hsame).bind fun t => matches_pure _
  | notConnected | waitNonceHDest | waitKeyDest | waitKeyInit | waitNonce2HInit =>
      exact (likewise_sendAlert hdraws).bind fun _ => matches_pure _

private theorem likewise_onHandshakeNonceH (type : r.type = .handshakeNonceH)
    (hdraws : SameDraws env env') (hsame : SameAt env env' (readsBehind s r)) :
    Likewise env env' (onHandshakeNonceH ssl env buddy s r)
      (onHandshakeNonceH ssl env' buddy s r) := by
  have hkept : ∀ {f f' : SmkexSessionInfo K → Action (SmkexSessionInfo K)},
      Likewise env env' (f (hashed s r)) (f' (hashed s r)) →
        Likewise env env' (storeNonceHValue s r >>= f) (storeNonceHValue s r >>= f') := by
    intro f f' hf
    exact (likewise_tell_copy _).bind fun _ => hf
  refine hkept ?_
  cases status : s.status with
  | waitKeyNonceHDest =>
      simp only [readsBehind, type, status] at hsame
      simp only [show (hashed s r).status = .waitKeyNonceHDest from status]
      exact likewise_storeRemoteNonce hsame
  | waitNonceHDest =>
      simp only [readsBehind, type, status, sameAt_append] at hsame
      simp only [show (hashed s r).status = .waitNonceHDest from status]
      exact (likewise_sendNonceH ssl hdraws hsame.1).bind fun _ =>
        (likewise_storeRemoteNonce hsame.2.1).bind fun t =>
          likewise_concludeHandshake ssl hdraws hsame.2.2
  | waitNonce2HInit =>
      simp only [readsBehind, type, status, sameAt_append] at hsame
      simp only [show (hashed s r).status = .waitNonce2HInit from status]
      exact (likewise_storeRemoteNonce hsame.1).bind fun t => likewise_storeNonceHValue.bind
        fun t => likewise_concludeHandshake ssl hdraws hsame.2
  | notConnected | waitKeyDest | waitNonceInit | waitKeyInit | connected =>
      simp only [show (hashed s r).status = s.status from rfl, status]
      exact matches_pure _

theorem likewise_restartSession (hdraws : SameDraws env env') :
    Likewise env env' (restartSession ssl env buddy s) (restartSession ssl env' buddy s) := by
  unfold restartSession
  rw [hdraws.nonce]
  dsimp only
  split
  · exact (likewise_showRecord rfl).bind fun _ => (likewise_sendRecord hdraws _ _ _).bind fun _ =>
      (likewise_sendRecord hdraws _ _ _).bind fun _ => matches_pure _
  · exact matches_pure _

/-- **An answer depends on its surroundings in the random numbers, the time and
what lies behind the buffers.** -/
theorem matches_receive (hdraws : SameDraws env env')
    (hsame : SameAt env env' (readsBehind s r)) :
    Likewise env env' (receive ssl env buddy s r) (receive ssl env' buddy s r) := by
  refine (likewise_showRecord rfl).bind fun _ => ?_
  cases type : r.type with
  | handshakeKey => exact likewise_onHandshakeKey ssl type hdraws hsame
  | handshakeNonce => exact likewise_onHandshakeNonce ssl type hdraws hsame
  | handshakeNonceH => exact likewise_onHandshakeNonceH ssl type hdraws hsame
  | handshakeH => exact matches_exit
  | alert =>
      simp only [onAlert]
      split
      · exact likewise_restartSession ssl hdraws
      · exact matches_pure _
  | application_data | handshake | unassigned => exact matches_pure s

end Handlers

end EndToEndSmkex.Smkex.Surroundings
