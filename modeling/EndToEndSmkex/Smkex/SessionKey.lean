import EndToEndSmkex.Smkex.Overruns

/-!
# The session key of one session

A session that receives any records and starts any number of handshakes.  Four
states are entered only with a peer key stored; in them the session key is the
one derived from that key, as long as the derivation succeeds and a connected
session is not given another key.  There the handler stores the key and nothing
else, and 256 bytes of it whatever the size of the buffer.

## Main results

* `session_key_follows` — the session key matches the key that was verified, in
  every run that gives no key to a connected session.
* `no_secret_no_session_key` — a key without a shared secret is connected to.
-/

namespace EndToEndSmkex.Smkex.SessionKey

open EndToEndSmkex.Lib.CBuffer
open EndToEndSmkex.Lib.Run
open EndToEndSmkex.Lib.Undefined
open EndToEndSmkex.Smkex.Record
open EndToEndSmkex.Smkex.SessionInfo
open EndToEndSmkex.Smkex.Handshake
open EndToEndSmkex.Smkex.Transitions
open EndToEndSmkex.Smkex.Overruns

variable {K : Type} (ssl : OpenSSL K) (buddy : MpString)

/-! ## Runs of one session -/

/-- What can happen to a session. -/
inductive SessionEvent (K : Type) where
  | initSession (env : Env K)
  | record (env : Env K) (r : SmkexT4mRecord)

/-- One event; `none` where the process ends. -/
def sessionStep (s : SmkexSessionInfo K) : SessionEvent K → Option (SmkexSessionInfo K)
  | .initSession env => (initiate ssl env buddy s).map Prod.fst
  | .record env r => (answer ssl env buddy s r).map Prod.fst

/-- The copies an event makes stay in their buffers. -/
def SessionEvent.Stays (s : SmkexSessionInfo K) : SessionEvent K → Prop
  | .initSession _ => True
  | .record _ r => Stay s r

instance (s : SmkexSessionInfo K) : (e : SessionEvent K) → Decidable (e.Stays s)
  | .initSession _ => isTrue trivial
  | .record _ r => inferInstanceAs (Decidable (Stay s r))

/-- The same where nothing is known of what follows a copy that leaves its
buffer. -/
abbrev sessionRun : SmkexSessionInfo K → SessionEvent K × Option (SmkexSessionInfo K) →
    Option (SmkexSessionInfo K) :=
  havoc (fun s e => e.Stays s) (sessionStep ssl buddy)

/-! ## The invariant -/

/-- The session key belongs to the stored key. -/
def KeyDerived (s : SmkexSessionInfo K) : Prop :=
  sessionKeyOf ssl s.ec_key s.remoteKey = some s.session_key

/-- The states that have a key have its session key. -/
def KeyInv (s : SmkexSessionInfo K) : Prop := HasKey s.status → KeyDerived ssl s

/-- An event that keeps session key and stored key together: a connected session
gets no key, and where one is stored the key exchange succeeds on it. -/
def KeepsKey (s : SmkexSessionInfo K) : SessionEvent K → Prop
  | .initSession _ => True
  | .record _ r =>
    r.type = .handshakeKey → s.status ≠ .connected ∧
      (Derives s.status → (sessionKeyOf ssl s.ec_key r.data).isSome)

instance (s : SmkexSessionInfo K) : (e : SessionEvent K) → Decidable (KeepsKey ssl s e)
  | .initSession _ => isTrue trivial
  | .record _ r => inferInstanceAs (Decidable (r.type = .handshakeKey → s.status ≠ .connected ∧
      (Derives s.status → (sessionKeyOf ssl s.ec_key r.data).isSome)))

section Step

variable {ssl buddy} {s s' : SmkexSessionInfo K}

/-- A key that was just stored has its session key. -/
theorem keyed_derived (s : SmkexSessionInfo K) {r : SmkexT4mRecord}
    (h : (sessionKeyOf ssl s.ec_key r.data).isSome) : KeyDerived ssl (keyed ssl s r) := by
  obtain ⟨secret, hsecret⟩ := Option.isSome_iff_exists.1 h
  show sessionKeyOf ssl s.ec_key (keyed ssl s r).remoteKey = _
  rw [keyed_remoteKey, keyed_session_key s hsecret, hsecret]

/-- The session key is a matter of the keys. -/
theorem KeyDerived.congr {s t : SmkexSessionInfo K} (h : SameKeys s t)
    (hs : KeyDerived ssl s) : KeyDerived ssl t := by
  unfold KeyDerived SmkexSessionInfo.remoteKey at *
  rw [h.ec_key, h.remote_pub_key, h.remote_pub_key_len, h.session_key]
  exact hs

/-- What `sessionStep` says about an answered record. -/
theorem sessionStep_record {env : Env K} {r : SmkexT4mRecord}
    (h : sessionStep ssl buddy s (.record env r) = some s') :
    ∃ records, Answer ssl env buddy s r s' records := by
  obtain ⟨⟨t, records⟩, hanswer, ht⟩ := Option.map_eq_some_iff.1 h
  cases ht
  exact ⟨records, answer_cases ssl env buddy hanswer⟩

/-- An answer keeps the session key with the key where the key exchange succeeds
on what is stored, and a renewed key is the old one. -/
theorem KeyInv.answer {env : Env K} {r : SmkexT4mRecord} {records : List SmkexT4mRecord}
    (hs : KeyInv ssl s) (h : Answer ssl env buddy s r s' records)
    (hsecret : r.type = .handshakeKey → Derives s.status →
      (sessionKeyOf ssl s.ec_key r.data).isSome)
    (hsame : r.type = .handshakeKey → s.status = .connected →
      (rekeyed env s r).remoteKey = s.remoteKey) : KeyInv ssl s' := by
  refine h.held (fun _ _ hkeys => KeyDerived.congr hkeys) ?_ ?_ hs
  · intro type derives t hec
    have hsome := hsecret type derives
    rw [← hec] at hsome
    exact keyed_derived t hsome
  · intro type status hold
    show sessionKeyOf ssl s.ec_key (rekeyed env s r).remoteKey = some s.session_key
    rw [hsame type status]
    exact hold

theorem KeyInv.step {e : SessionEvent K} (hs : KeyInv ssl s)
    (hstep : sessionStep ssl buddy s e = some s') (hkeep : KeepsKey ssl s e) :
    KeyInv ssl s' := by
  cases e with
  | initSession env =>
      intro hkey
      rw [sessionStep, initiate_eq, Option.map_some, Option.some.injEq] at hstep
      rw [← hstep, restarted_status] at hkey
      exact hkey.elim
  | record env r =>
      obtain ⟨records, h⟩ := sessionStep_record hstep
      exact hs.answer h (fun type => (hkeep type).2)
        (fun type status => absurd status (hkeep type).1)

end Step

/-! ## Runs -/

/-- **The session key follows the key.**  From a fresh session, after any
records and any calls of `initSession` that meet `KeepsKey` and overrun no
buffer, a connected session holds the session key of the key pair and the key
that it stores. -/
theorem session_key_follows (c : CtorInput K)
    (es : List (SessionEvent K × Option (SmkexSessionInfo K))) {s : SmkexSessionInfo K}
    (hkeep : Steps (sessionRun ssl buddy) (fun s e _ => e.1.Stays s ∧ KeepsKey ssl s e.1)
      (SmkexSessionInfo.new c) es)
    (hrun : exec (sessionRun ssl buddy) (SmkexSessionInfo.new c) es = some s)
    (hconnected : s.status = .connected) :
    sessionKeyOf ssl s.ec_key s.remoteKey = some s.session_key := by
  have hfresh : KeyInv ssl (SmkexSessionInfo.new c) := fun hkey => hkey.elim
  have hinv : KeyInv ssl s :=
    havoc_keeps (C := fun s e _ => KeepsKey ssl s e)
      (fun s e s' hs _ hstep hc => KeyInv.step hs hstep hc) hfresh hkeep hrun
  exact hinv (by simp [hconnected, HasKey])

/-- Key, nonce, and nonce with a hash: the records that connect a responder. -/
def sampleHandshake (key : Bytes) (nonce : UInt8) : List (SessionEvent UInt8) :=
  let env := sampleEnv 1 2
  [.record env (buildRecord env [98] .handshakeKey key),
    .record env (buildRecord env [98] .handshakeNonce (sampleNonce nonce).1),
    .record env (buildRecord env [98] .handshakeNonceH ((sampleNonce nonce).1 ++ [1]))]

/-- A responder connected with the key 7. -/
theorem session_key_follows_first :
    ∃ s, exec (sessionRun sampleOpenSSL [98]) (SmkexSessionInfo.new (sampleDraws 5))
        (plain (sampleHandshake (sampleOpenSSL.pub 7) 1)) = some s ∧ s.status = .connected ∧
      sessionKeyOf sampleOpenSSL s.ec_key s.remoteKey = some s.session_key := by
  have hstatus : (exec (sessionRun sampleOpenSSL [98]) (SmkexSessionInfo.new (sampleDraws 5))
      (plain (sampleHandshake (sampleOpenSSL.pub 7) 1))).map (·.status) = some .connected := by
    decide +kernel
  obtain ⟨s, hrun, hconnected⟩ := Option.map_eq_some_iff.1 hstatus
  exact ⟨s, hrun, hconnected, session_key_follows sampleOpenSSL [98] (sampleDraws 5) _
    (by decide +kernel) hrun hconnected⟩

/-- The point at infinity, one zero byte, is a point but gives no secret.  A
responder stores it, no copy leaves its buffer, and the responder is connected
with the zeros of the constructor for a session key. -/
theorem no_secret_no_session_key :
    ¬ ∀ (c : CtorInput UInt8) (es : List (SessionEvent UInt8 × Option (SmkexSessionInfo UInt8)))
      (s : SmkexSessionInfo UInt8),
      Defined (fun s e => e.Stays s) (sessionStep sampleOpenSSL [98]) (SmkexSessionInfo.new c) es →
        exec (sessionRun sampleOpenSSL [98]) (SmkexSessionInfo.new c) es = some s →
          s.status = .connected →
            sessionKeyOf sampleOpenSSL s.ec_key s.remoteKey = some s.session_key := by
  intro hall
  have hzeros : (exec (sessionRun sampleOpenSSL [98]) (SmkexSessionInfo.new (sampleDraws 5))
      (plain (sampleHandshake [0] 1))).map
        (fun s => (s.status, sessionKeyOf sampleOpenSSL s.ec_key s.remoteKey)) =
      some (.connected, none) := by
    decide +kernel
  obtain ⟨s, hrun, hs⟩ := Option.map_eq_some_iff.1 hzeros
  rw [Prod.mk.injEq] at hs
  have hmatch := hall _ _ s (by decide +kernel) hrun hs.1
  rw [hs.2] at hmatch
  cases hmatch

end EndToEndSmkex.Smkex.SessionKey
