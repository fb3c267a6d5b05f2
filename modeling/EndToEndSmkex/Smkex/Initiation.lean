import EndToEndSmkex.Smkex.Keychain

/-!
# The two branches of `initSession`

A user may start a handshake with a buddy who has a session and with one who
has none.  The two branches are written separately.  The first wraps the key in
a record whose type `printRecord` refuses, so that it never gets to the nonce;
the second sends key and nonce, both on channel 1.
-/

namespace EndToEndSmkex.Smkex.Initiation

open EndToEndSmkex.Lib.CBuffer
open EndToEndSmkex.Lib.Loads hiding run_bind run_pure
open EndToEndSmkex.Lib.Actions
open EndToEndSmkex.AutoResend.MsgPayload
open EndToEndSmkex.Smkex.Record
open EndToEndSmkex.Smkex.Framing
open EndToEndSmkex.Smkex.SessionInfo
open EndToEndSmkex.Smkex.Handshake
open EndToEndSmkex.Smkex.Transitions
open EndToEndSmkex.Smkex.Keychain

variable {K : Type} (ssl : OpenSSL K) (env : Env K) (keychain : SmkexKeychain K)
  (buddy : MpString)

/-- The calls of `sendKeyOrNonce`: payload, buddy and channel. -/
def calls (log : List Event) : List (Bytes × MpString × Nat) :=
  log.filterMap fun
    | .sendKeyOrNonce payload buddy chan => some (payload, buddy, chan)
    | .copy _ => none

/-- The peer decodes the payload to the record, whatever surrounds it. -/
def DecodesTo (payload : Bytes) (r : SmkexT4mRecord) : Prop :=
  ∀ (t : mp_msg_type_t) (behind : Memory),
    (getRecordFromSerial.run (received (setPayload t payload) behind)).1 = r

/-- A handshake is started: the session becomes an initiator that waits, key
and nonce go out on channels 1 and 2 as records that the peer can read, and the
other sessions stay as they are. -/
structure Starts (keychain' : SmkexKeychain K) (n : Int) (log : List Event) : Prop where
  returns : n = 1
  session : ∃ s, keychain' buddy = some s ∧ s.iAmSessionInitiator = true ∧
    s.status = .waitKeyNonceHDest ∧
      ∃ key nonce, calls log = [(key, buddy, 1), (nonce, buddy, 2)] ∧
        key = SerializeSmkexT4mRecord (buildRecord env buddy .handshakeKey (ssl.pub s.ec_key)) ∧
        nonce = SerializeSmkexT4mRecord (buildRecord env buddy .handshakeNonce s.local_nonce.1) ∧
        DecodesTo key (buildRecord env buddy .handshakeKey (ssl.pub s.ec_key)) ∧
        DecodesTo nonce (buildRecord env buddy .handshakeNonce s.local_nonce.1)
  others : ∀ b, b ≠ buddy → keychain' b = keychain b

/-- The keychain with a fresh session for the buddy. -/
def withSession : SmkexKeychain K :=
  (addSessionInfo keychain buddy (SmkexSessionInfo.new env.fresh) 1).1

/-- Without a session, a handshake is started as with a fresh one. -/
structure BranchesAgree : Prop where
  same : (initSession ssl env keychain buddy).run =
    (initSession ssl env (withSession env keychain buddy) buddy).run
  starts : ∃ keychain' n log, (initSession ssl env keychain buddy).run =
      some ((keychain', n), log) ∧ Starts ssl env keychain buddy keychain' n log

/-- The first branch does not return. -/
theorem run_initSession_none (h : keychain buddy = none) :
    (initSession ssl env keychain buddy).run = none := by
  have heffect := effect_initSession_none ssl env keychain buddy h
  rwa [effect, Option.map_eq_none_iff] at heffect

/-- The second branch, on a session that is not waiting already: what it leaves
and what it sends. -/
theorem run_initSession_some {s : SmkexSessionInfo K} (h : keychain buddy = some s)
    (hs : s.status ≠ .waitKeyNonceHDest) :
    (initSession ssl env keychain buddy).run =
      some ((store keychain buddy
          { s with
            iAmSessionInitiator := true
            local_nonce := env.nonce
            status := .waitKeyNonceHDest }, 1),
        [.sendKeyOrNonce (SerializeSmkexT4mRecord
            (buildRecord env buddy .handshakeKey (ssl.pub s.ec_key))) buddy 1,
          .sendKeyOrNonce (SerializeSmkexT4mRecord
            (buildRecord env buddy .handshakeNonce env.nonce.1)) buddy 1]) := by
  have hrestart : (restartSession ssl env buddy s).run =
      some ({ s with
          iAmSessionInitiator := true
          local_nonce := env.nonce
          status := .waitKeyNonceHDest },
        [.sendKeyOrNonce (SerializeSmkexT4mRecord
            (buildRecord env buddy .handshakeKey (ssl.pub s.ec_key))) buddy 1,
          .sendKeyOrNonce (SerializeSmkexT4mRecord
            (buildRecord env buddy .handshakeNonce env.nonce.1)) buddy 1]) := by
    unfold restartSession
    dsimp only
    rw [if_pos hs]
    rfl
  unfold initSession
  rw [getSessionInfo_eq, h]
  dsimp only
  rw [run_bind, hrestart]
  rfl

/-- A buddy without a session gets the fresh one. -/
theorem withSession_self (h : keychain buddy = none) :
    withSession env keychain buddy buddy = some (SmkexSessionInfo.new env.fresh) := by
  simp [withSession, addSessionInfo, Keychain.insert, hasSessionInfo, h]

/-- **The branches never agree.**  For a buddy without a session the first
branch ends the process.  The second, on the session that the first would have
made, returns 1 and sends the two records, but the nonce on channel 1 as well. -/
theorem branches_never_agree (h : keychain buddy = none) :
    ¬ BranchesAgree ssl env keychain buddy ∧
      (initSession ssl env keychain buddy).run = none ∧
      ∃ keychain' log,
        (initSession ssl env (withSession env keychain buddy) buddy).run =
            some ((keychain', 1), log) ∧
          calls log =
            [(SerializeSmkexT4mRecord
                (buildRecord env buddy .handshakeKey (ssl.pub env.fresh.ec_key)), buddy, 1),
              (SerializeSmkexT4mRecord
                (buildRecord env buddy .handshakeNonce env.nonce.1), buddy, 1)] := by
  have hnone := run_initSession_none ssl env keychain buddy h
  refine ⟨?_, hnone, ?_⟩
  · intro hagree
    obtain ⟨keychain', n, log, hrun, -⟩ := hagree.starts
    rw [hnone] at hrun
    cases hrun
  · have hsome := run_initSession_some ssl env (withSession env keychain buddy) buddy
      (withSession_self env keychain buddy h) (by simp [SmkexSessionInfo.new])
    exact ⟨_, _, hsome, rfl⟩

/-- A client that has never heard of the buddy `b`. -/
theorem branches_never_agree_stranger :
    ¬ BranchesAgree sampleOpenSSL (sampleEnv 1 2) (fun _ => none) [98] ∧
      (initSession sampleOpenSSL (sampleEnv 1 2) (fun _ => none) [98]).run = none :=
  have h := branches_never_agree sampleOpenSSL (sampleEnv 1 2) (fun _ => none) [98] rfl
  ⟨h.1, h.2.1⟩

/-- Starting a handshake with a stranger ends the process. -/
theorem initSession_exits :
    ¬ BranchesAgree sampleOpenSSL (sampleEnv 1 2) (fun _ => none) [98] := by
  intro hagree
  obtain ⟨keychain', n, log, hrun, -⟩ := hagree.starts
  have hnone : (initSession sampleOpenSSL (sampleEnv 1 2) (fun _ => none) [98]).run.isNone =
      true := by decide +kernel
  rw [hrun] at hnone
  cases hnone

end EndToEndSmkex.Smkex.Initiation
