import EndToEndSmkex.Smkex.Client

/-!
# Do the copies of the handshake fit?

Every `memcpy` between a record and a session buffer is an event of the
handlers.  How much a record has is its own length; how much a buffer has is
what was last allocated for it, and only one branch allocates a key buffer.
The copies that an event makes are compared with a condition on the record and
on the session as they were before.

## Main results

* `copies_message` — the copies made for a record, by its type and the status.
* `copies_of_run` — they are the copies that a call which returns has made.
* `contained_iff` — along a whole run, all copies stay in their buffers and the
  stored length within the key buffer exactly where `Fits` holds at each event.
-/

namespace EndToEndSmkex.Smkex.Copies

open EndToEndSmkex.Lib.CBuffer
open EndToEndSmkex.Lib.Actions
open EndToEndSmkex.Lib.Run
open EndToEndSmkex.Smkex.Record
open EndToEndSmkex.Smkex.SessionInfo
open EndToEndSmkex.Smkex.Handshake
open EndToEndSmkex.Smkex.Transitions
open EndToEndSmkex.Smkex.Keychain
open EndToEndSmkex.Smkex.Client

variable {K : Type}

/-! ## Copies of an action -/

/-- Nothing is read behind the record and nothing written behind the buffer. -/
def Within (c : Copy) : Prop :=
  c.count ≤ c.readable ∧ ∃ size, c.writable = some size ∧ c.count ≤ size

/-- The copies among the events. -/
def copiesIn (log : List Event) : List Copy :=
  log.filterMap fun
    | .copy c => some c
    | .sendKeyOrNonce _ _ _ => none

theorem copiesIn_append (l₁ l₂ : List Event) :
    copiesIn (l₁ ++ l₂) = copiesIn l₁ ++ copiesIn l₂ :=
  List.filterMap_append

/-- Where the action returns, these are its copies. -/
def Copying {α : Type} (a : Action α) (cs : List Copy) : Prop :=
  ∀ x log, a.run = some (x, log) → copiesIn log = cs

section Rules

variable {α β : Type} {a : Action α} {f : α → Action β} {cs ds : List Copy}

theorem copying_of_run {x : α} {log : List Event} (h : a.run = some (x, log)) :
    Copying a (copiesIn log) := by
  intro y log' h'
  rw [h] at h'
  cases h'
  rfl

theorem Copying.bind (ha : Copying a cs) (hf : ∀ x, Copying (f x) ds) :
    Copying (a >>= f) (cs ++ ds) := by
  intro y log h
  obtain ⟨x, l₁, l₂, hrun, hrest, rfl⟩ := run_bind_eq_some.1 h
  rw [copiesIn_append, ha x l₁ hrun, hf x y l₂ hrest]

/-- After a part whose result is known. -/
theorem Copying.after {x : α} {l : List Event} (ha : a.run = some (x, l))
    (hf : Copying (f x) ds) : Copying (a >>= f) (copiesIn l ++ ds) := by
  intro y log h
  obtain ⟨x', l₁, l₂, hrun, hrest, rfl⟩ := run_bind_eq_some.1 h
  rw [ha] at hrun
  cases hrun
  rw [copiesIn_append, hf y l₂ hrest]

/-- An action that copies nothing. -/
theorem Copying.silent (ha : Copying a []) (hf : ∀ x, Copying (f x) ds) :
    Copying (a >>= f) ds := ha.bind hf

theorem copying_pure (x : α) : Copying (pure x) [] := copying_of_run (run_pure x)

theorem copying_exit : Copying (exit : Action α) cs := by
  intro x log h
  cases h

end Rules

section Parts

variable (ssl : OpenSSL K) (env : Env K) (buddy : MpString) (s : SmkexSessionInfo K)
  (r : SmkexT4mRecord)

theorem copying_showRecord : Copying (showRecord r) [] := by
  intro x log h
  obtain ⟨u, -, hu⟩ := Option.map_eq_some_iff.1 h
  cases hu
  rfl

theorem copying_sendRecord (chan : Nat) : Copying (sendRecord buddy r chan) [] :=
  copying_of_run rfl

theorem copying_sendAlert : Copying (sendAlert env buddy) [] :=
  (copying_showRecord _).silent fun _ => copying_sendRecord buddy _ 1

theorem copying_sendNonceH : Copying (sendNonceH ssl env buddy s) [] := by
  unfold sendNonceH
  dsimp only
  split
  · exact copying_pure false
  · split
    · exact copying_pure false
    · exact (copying_showRecord _).silent fun _ =>
        (copying_sendRecord buddy _ 2).silent fun _ => copying_pure true

theorem copying_concludeHandshake : Copying (concludeHandshake ssl env buddy s) [] := by
  unfold concludeHandshake
  split
  · exact copying_pure _
  · exact (copying_sendAlert env buddy).silent fun _ => copying_pure _

theorem copying_restartSession : Copying (restartSession ssl env buddy s) [] := by
  unfold restartSession
  dsimp only
  split
  · exact (copying_showRecord _).silent fun _ => (copying_sendRecord buddy _ 1).silent fun _ =>
      (copying_sendRecord buddy _ 1).silent fun _ => copying_pure _
  · exact copying_pure _

theorem copying_computeAndStoreSessionKey :
    Copying (computeAndStoreSessionKey ssl env s) [] := by
  unfold computeAndStoreSessionKey
  dsimp only
  split
  · split
    · exact copying_pure _
    · exact copying_pure _
  · exact copying_exit

end Parts

/-! ## The copies made for a record -/

/-- All of the record into a buffer. -/
def whole (r : SmkexT4mRecord) (size : Option Nat) : Copy :=
  ⟨r.length.toNat, r.length.toNat, size⟩

/-- A nonce out of the record into the nonce buffer. -/
def nonceCopy (s : SmkexSessionInfo K) (r : SmkexT4mRecord) : Copy :=
  ⟨NONCE_LEN, r.length.toNat, some s.remote_nonce.size⟩

/-- The copies by record type and status. -/
def copiesFor (s : SmkexSessionInfo K) (r : SmkexT4mRecord) : List Copy :=
  match r.type, s.status with
  | .handshakeKey, .notConnected => [whole r (some r.length.toNat)]
  | .handshakeKey, .waitKeyNonceHDest => [whole r (some s.remote_pub_key.size)]
  | .handshakeKey, .waitKeyDest => [whole r (some s.remote_pub_key.size)]
  | .handshakeKey, .connected => [⟨PUB_KEY_LEN, r.length.toNat, some s.remote_pub_key.size⟩]
  | .handshakeNonce, .waitNonceInit => [nonceCopy s r]
  | .handshakeNonce, .waitKeyNonceHDest =>
      [nonceCopy s r, whole r (s.receivedNonceHValue.map Block.size)]
  | .handshakeNonce, .connected => [nonceCopy s r]
  | .handshakeNonceH, .waitKeyNonceHDest => [whole r (some r.length.toNat), nonceCopy s r]
  | .handshakeNonceH, .waitNonceHDest => [whole r (some r.length.toNat), nonceCopy s r]
  | .handshakeNonceH, .waitNonce2HInit =>
      [whole r (some r.length.toNat), nonceCopy s r, whole r (some r.length.toNat)]
  | .handshakeNonceH, _ => [whole r (some r.length.toNat)]
  | _, _ => []

section Handlers

variable (ssl : OpenSSL K) (env : Env K) (buddy : MpString) (s : SmkexSessionInfo K)
  (r : SmkexT4mRecord)

private theorem copying_onHandshakeKey (type : r.type = .handshakeKey) :
    Copying (onHandshakeKey ssl env buddy s r) (copiesFor s r) := by
  have derive := copying_computeAndStoreSessionKey ssl env
  cases status : s.status with
  | notConnected =>
      simp only [onHandshakeKey, copiesFor, type, status]
      exact Copying.after (l := [.copy (whole r (some r.length.toNat))]) rfl
        ((derive _).silent fun _ => (copying_showRecord _).silent fun _ =>
          (copying_sendRecord buddy _ 1).silent fun _ => copying_pure _)
  | waitKeyNonceHDest =>
      simp only [onHandshakeKey, copiesFor, type, status]
      exact Copying.after (l := [.copy (whole r (some s.remote_pub_key.size))]) rfl
        ((derive _).silent fun _ => copying_pure _)
  | waitKeyDest =>
      simp only [onHandshakeKey, copiesFor, type, status]
      exact Copying.after (l := [.copy (whole r (some s.remote_pub_key.size))]) rfl
        ((derive _).silent fun t => (copying_sendNonceH ssl env buddy t).silent fun _ =>
          copying_concludeHandshake ssl env buddy t)
  | connected =>
      simp only [onHandshakeKey, copiesFor, type, status]
      exact Copying.after
        (l := [.copy ⟨PUB_KEY_LEN, r.length.toNat, some s.remote_pub_key.size⟩]) rfl
        (copying_pure _)
  | waitNonceHDest | waitNonceInit | waitKeyInit | waitNonce2HInit =>
      simp only [onHandshakeKey, copiesFor, type, status]
      exact copying_pure s

private theorem copying_onHandshakeNonce (type : r.type = .handshakeNonce) :
    Copying (onHandshakeNonce ssl env buddy s r) (copiesFor s r) := by
  have store : (storeRemoteNonce env s r).run = some (nonced env s r, [.copy (nonceCopy s r)]) :=
    rfl
  cases status : s.status with
  | waitNonceInit =>
      simp only [onHandshakeNonce, copiesFor, type, status]
      exact Copying.after store
        ((copying_sendNonceH ssl env buddy _).silent fun _ => copying_pure _)
  | waitKeyNonceHDest =>
      simp only [onHandshakeNonce, copiesFor, type, status]
      exact Copying.after store (Copying.after
        (l := [.copy (whole r (s.receivedNonceHValue.map Block.size))]) rfl (copying_pure _))
  | connected =>
      simp only [onHandshakeNonce, copiesFor, type, status]
      exact Copying.after store (copying_pure _)
  | notConnected | waitNonceHDest | waitKeyDest | waitKeyInit | waitNonce2HInit =>
      simp only [onHandshakeNonce, copiesFor, type, status]
      exact (copying_sendAlert env buddy).silent fun _ => copying_pure _

private theorem copying_onHandshakeNonceH (type : r.type = .handshakeNonceH) :
    Copying (onHandshakeNonceH ssl env buddy s r) (copiesFor s r) := by
  have keep : (storeNonceHValue s r).run =
      some (hashed s r, [.copy (whole r (some r.length.toNat))]) := rfl
  have store : (storeRemoteNonce env (hashed s r) r).run =
      some (nonced env (hashed s r) r, [.copy (nonceCopy s r)]) := rfl
  have conclude := copying_concludeHandshake ssl env buddy
  unfold onHandshakeNonceH
  cases status : s.status with
  | waitKeyNonceHDest =>
      simp only [copiesFor, type, status]
      refine Copying.after keep ?_
      rw [show (hashed s r).status = .waitKeyNonceHDest from status]
      exact copying_of_run store
  | waitNonceHDest =>
      simp only [copiesFor, type, status]
      refine Copying.after keep ?_
      rw [show (hashed s r).status = .waitNonceHDest from status]
      exact (copying_sendNonceH ssl env buddy _).silent fun _ =>
        Copying.after store (conclude _)
  | waitNonce2HInit =>
      simp only [copiesFor, type, status]
      refine Copying.after keep ?_
      rw [show (hashed s r).status = .waitNonce2HInit from status]
      exact Copying.after store (Copying.after
        (l := [.copy (whole r (some r.length.toNat))]) rfl (conclude _))
  | notConnected | waitKeyDest | waitNonceInit | waitKeyInit | connected =>
      simp only [copiesFor, type, status]
      refine Copying.after keep ?_
      simp only [show (hashed s r).status = s.status from rfl, status]
      exact copying_pure _

/-- What is copied while a record is answered. -/
theorem copying_receive : Copying (receive ssl env buddy s r) (copiesFor s r) := by
  unfold receive
  refine (copying_showRecord r).silent fun _ => ?_
  cases type : r.type with
  | handshakeKey => exact copying_onHandshakeKey ssl env buddy s r type
  | handshakeNonce => exact copying_onHandshakeNonce ssl env buddy s r type
  | handshakeNonceH => exact copying_onHandshakeNonceH ssl env buddy s r type
  | handshakeH => exact copying_exit
  | alert =>
      simp only [copiesFor, type, onAlert]
      split
      · exact copying_restartSession ssl env buddy _
      · exact copying_pure _
  | application_data | handshake | unassigned =>
      simp only [copiesFor, type]
      exact copying_pure s

end Handlers

/-! ## The copies made by an event -/

/-- OpenSSL that takes all bytes for a point. -/
def lenient (ssl : OpenSSL K) : OpenSSL K := { ssl with oct2point := fun _ => true }

/-- The copies made while a client handles an event.  A key is copied before it
is looked at, so the copies of a call that ends on bytes that are no point are
those of a call that does not. -/
def copies (ssl : OpenSSL K) (keychain : SmkexKeychain K) (e : ClientEvent K) : List Copy :=
  match (entry (lenient ssl) keychain e).run with
  | some (_, log) => copiesIn log
  | none => []

section Events

variable (ssl : OpenSSL K) (env : Env K) (keychain : SmkexKeychain K) (buddy : MpString)

private theorem copying_initSession :
    Copying (entry ssl keychain (.initSession env buddy)) [] := by
  cases hs : keychain buddy with
  | none =>
      intro x log h
      have heffect := effect_initSession_none ssl env keychain buddy hs
      rw [effect, show (initSession ssl env keychain buddy).run = _ from h] at heffect
      cases heffect
  | some s =>
      show Copying (initSession ssl env keychain buddy) []
      unfold initSession
      rw [getSessionInfo_eq, hs]
      exact (copying_restartSession ssl env buddy s).silent fun _ => copying_pure _

private theorem copying_message (t : AutoResend.MsgPayload.mp_msg_type_t)
    (r : SmkexT4mRecord) (behind : Lib.Loads.Memory) :
    Copying (entry ssl keychain (.message env buddy t r behind))
      (copiesFor (sessionFor env keychain buddy) r) := by
  intro x log h
  rw [show (entry ssl keychain (.message env buddy t r behind)).run = _ from
    run_onMsgReceived ssl env keychain buddy t r behind] at h
  have hprocess : Copying (processRecord ssl env keychain buddy r)
      (copiesFor (sessionFor env keychain buddy) r ++ []) :=
    (copying_receive ssl env buddy _ r).bind fun _ => copying_pure _
  rw [hprocess x log h, List.append_nil]

/-- Starting a handshake copies nothing out of a record. -/
theorem copies_initSession : copies ssl keychain (.initSession env buddy) = [] := by
  unfold copies
  split
  · next x log hrun => exact copying_initSession (lenient ssl) env keychain buddy x log hrun
  · rfl

/-- What is copied for a record is a matter of its type and the status. -/
theorem copies_message (t : AutoResend.MsgPayload.mp_msg_type_t) (r : SmkexT4mRecord)
    (behind : Lib.Loads.Memory) :
    copies ssl keychain (.message env buddy t r behind) =
      copiesFor (sessionFor env keychain buddy) r := by
  unfold copies
  split
  · next x log hrun => exact copying_message (lenient ssl) env keychain buddy t r behind x log hrun
  · next hrun =>
    rw [message_ends_iff] at hrun
    rcases hrun with hnamed | type | type | ⟨-, hpoint, -⟩
    · cases type : r.type with
      | unassigned => simp [copiesFor, type]
      | _ => simp [type, SMKEX_T4M_Type.Named] at hnamed
    · simp [copiesFor, type]
    · simp [copiesFor, type]
    · exact absurd rfl hpoint

/-- A call that returns has made these copies. -/
theorem copies_of_run {e : ClientEvent K} {x : SmkexKeychain K × Int} {log : List Event}
    (h : (entry ssl keychain e).run = some (x, log)) :
    copiesIn log = copies ssl keychain e := by
  cases e with
  | initSession env buddy =>
      rw [copies_initSession]
      exact copying_initSession ssl env keychain buddy x log h
  | message env buddy t r behind =>
      rw [copies_message]
      exact copying_message ssl env keychain buddy t r behind x log h

end Events

/-! ## When the copies fit -/

/-- The stored length is within the key buffer. -/
def LengthFits (s : SmkexSessionInfo K) : Prop :=
  s.remote_pub_key_len ≤ s.remote_pub_key.size

/-- The record and the buffers are long enough for what the branch copies. -/
def Fits (s : SmkexSessionInfo K) (r : SmkexT4mRecord) : Prop :=
  match r.type, s.status with
  | .handshakeKey, .waitKeyNonceHDest => r.length.toNat ≤ s.remote_pub_key.size
  | .handshakeKey, .waitKeyDest => r.length.toNat ≤ s.remote_pub_key.size
  | .handshakeKey, .connected =>
      PUB_KEY_LEN ≤ r.length.toNat ∧ PUB_KEY_LEN ≤ s.remote_pub_key.size
  | .handshakeNonce, .waitNonceInit => NONCE_LEN ≤ r.length.toNat
  | .handshakeNonce, .waitKeyNonceHDest =>
      NONCE_LEN ≤ r.length.toNat ∧
        ∃ value, s.receivedNonceHValue = some value ∧ r.length.toNat ≤ value.size
  | .handshakeNonce, .connected => NONCE_LEN ≤ r.length.toNat
  | .handshakeNonceH, .waitKeyNonceHDest => NONCE_LEN ≤ r.length.toNat
  | .handshakeNonceH, .waitNonceHDest => NONCE_LEN ≤ r.length.toNat
  | .handshakeNonceH, .waitNonce2HInit => NONCE_LEN ≤ r.length.toNat
  | _, _ => True

/-- The condition on an event: the copies for its record fit, and where the
record makes a new session and brings no key for it, the length that the
constructor does not set is no more than the 65 bytes it allocates. -/
def EventFits (ssl : OpenSSL K) (keychain : SmkexKeychain K) : ClientEvent K → Prop
  | .initSession _ _ => True
  | .message env buddy _ r _ =>
      Fits (sessionFor env keychain buddy) r ∧
        (keychain buddy = none → r.type ≠ .handshakeKey →
          ¬ Exits ssl (sessionFor env keychain buddy) r → env.fresh.remote_pub_key_len ≤ 65)

/-- All copies of the event stay inside, and afterwards every session's stored
length is within its key buffer. -/
structure Contained (ssl : OpenSSL K) (c : Process K) (e : ClientEvent K) (c' : Process K) :
    Prop where
  copies : ∀ keychain, c = some keychain → ∀ m ∈ copies ssl keychain e, Within m
  length : ∀ keychain', c' = some keychain' →
    ∀ b s, keychain' b = some s → LengthFits s

section Fit

variable {ssl : OpenSSL K} {env : Env K} {buddy : MpString} {s s' : SmkexSessionInfo K}
  {r : SmkexT4mRecord} {records : List SmkexT4mRecord}

theorem within_some {count readable size : Nat} :
    Within ⟨count, readable, some size⟩ ↔ count ≤ readable ∧ count ≤ size := by
  simp [Within]

theorem within_whole {size : Option Nat} :
    Within (whole r size) ↔ ∃ n, size = some n ∧ r.length.toNat ≤ n := by
  simp [Within, whole]

theorem within_nonceCopy (hs : s.remote_nonce.size = NONCE_LEN) :
    Within (nonceCopy s r) ↔ NONCE_LEN ≤ r.length.toNat := by
  simp [Within, nonceCopy, hs]

/-- **The copies for a record fit exactly where `Fits` says so.** -/
theorem fits_iff (hs : s.remote_nonce.size = NONCE_LEN) :
    (∀ m ∈ copiesFor s r, Within m) ↔ Fits s r := by
  have hnonce := within_nonceCopy (r := r) hs
  cases type : r.type with
  | handshakeKey =>
      cases status : s.status <;> simp [copiesFor, Fits, type, status, within_whole, within_some]
  | handshakeNonce =>
      cases status : s.status <;> simp [copiesFor, Fits, type, status, within_whole, hnonce]
  | handshakeNonceH =>
      cases status : s.status <;> simp [copiesFor, Fits, type, status, within_whole, hnonce]
  | handshakeH | alert | application_data | handshake | unassigned =>
      simp [copiesFor, Fits, type]

/-- The nonce buffer is never allocated again. -/
theorem answer_nonce_size (h : Answer ssl env buddy s r s' records) :
    s'.remote_nonce.size = s.remote_nonce.size := by
  cases h with
  | keyLast | nonceHToInitiator | nonceHToResponder =>
      rw [concluded_remote_nonce]
      rfl
  | alertRestart => rw [restarted_remote_nonce]
  | keyFirst | keyToInitiator | keyRenewed | keyIgnored | nonceToResponder
  | nonceToInitiator | nonceRenewed | nonceRefused | nonceHEarly | nonceHIgnored | alertIdle
  | dataIgnored => rfl

@[simp] theorem concluded_lengthFits {t : SmkexSessionInfo K} :
    LengthFits (concluded ssl env buddy t).1 ↔ LengthFits t := by
  unfold concluded
  split <;> rfl

@[simp] theorem restarted_lengthFits {t : SmkexSessionInfo K} :
    LengthFits (restarted ssl env buddy t).1 ↔ LengthFits t := by
  unfold restarted
  split <;> rfl

/-- Only a key changes the key buffer or the stored length. -/
theorem answer_lengthFits_iff (h : Answer ssl env buddy s r s' records)
    (type : r.type ≠ .handshakeKey) : LengthFits s' ↔ LengthFits s := by
  cases h with
  | keyFirst keyType | keyToInitiator keyType | keyLast keyType | keyRenewed keyType
  | keyIgnored keyType => exact absurd keyType type
  | nonceHToInitiator | nonceHToResponder =>
      rw [concluded_lengthFits]
      rfl
  | alertRestart =>
      rw [restarted_lengthFits]
      rfl
  | nonceToResponder | nonceToInitiator | nonceRenewed | nonceRefused | nonceHEarly
  | nonceHIgnored | alertIdle | dataIgnored => rfl

/-- A key that fits keeps the length within the buffer; the first key makes its
own room. -/
theorem answer_lengthFits_key (h : Answer ssl env buddy s r s' records)
    (type : r.type = .handshakeKey) (hs : s.status ≠ .notConnected → LengthFits s)
    (hfits : Fits s r) : LengthFits s' := by
  have stored : r.length.toNat ≤ s.remote_pub_key.size → LengthFits (keyed ssl s r) := id
  cases h with
  | keyFirst => exact Nat.le_refl r.length.toNat
  | keyToInitiator _ status =>
      simp only [Fits, type, status] at hfits
      exact stored hfits
  | keyLast _ status =>
      simp only [Fits, type, status] at hfits
      rw [concluded_lengthFits]
      exact stored hfits
  | keyRenewed _ status => exact hs (by simp [status])
  | keyIgnored _ status =>
      apply hs
      rcases status with status | status | status | status <;> simp [status]
  | nonceToResponder other | nonceToInitiator other | nonceRenewed other | nonceRefused other
  | nonceHEarly other | nonceHToInitiator other | nonceHToResponder other
  | nonceHIgnored other | alertRestart other | alertIdle other | dataIgnored other =>
      rw [other] at type
      cases type

end Fit

/-! ## Runs -/

/-- Every session's stored length is within its key buffer, and its nonce
buffer holds a nonce. -/
def Sound (c : Process K) : Prop :=
  ∀ keychain, c = some keychain → ∀ b s, keychain b = some s →
    LengthFits s ∧ s.remote_nonce.size = NONCE_LEN

section Step

variable {ssl : OpenSSL K} {env : Env K} {keychain : SmkexKeychain K} {c' : Process K}

/-- The session of an event: one that is there, or a new one. -/
theorem sessionFor_cases (env : Env K) (keychain : SmkexKeychain K) (buddy : MpString) :
    keychain buddy = some (sessionFor env keychain buddy) ∨
      keychain buddy = none ∧
        sessionFor env keychain buddy = SmkexSessionInfo.new env.fresh := by
  unfold sessionFor
  rw [getSessionInfo_eq]
  cases keychain buddy with
  | none => exact Or.inr ⟨rfl, rfl⟩
  | some s => exact Or.inl rfl

theorem Sound.sessionFor (h : Sound (some keychain)) (env : Env K) (buddy : MpString) :
    (sessionFor env keychain buddy).remote_nonce.size = NONCE_LEN ∧
      (keychain buddy ≠ none → LengthFits (sessionFor env keychain buddy)) := by
  rcases sessionFor_cases env keychain buddy with hs | ⟨hnone, hs⟩
  · have hsound := h keychain rfl buddy _ hs
    exact ⟨hsound.2, fun _ => hsound.1⟩
  · rw [hs]
    exact ⟨rfl, fun hne => absurd hnone hne⟩

/-- A record whose event fits leaves a length that fits. -/
private theorem length_of_fits (h : Sound (some keychain)) {buddy : MpString}
    {t : AutoResend.MsgPayload.mp_msg_type_t} {r : SmkexT4mRecord} {behind : Lib.Loads.Memory}
    {s' : SmkexSessionInfo K} {records : List SmkexT4mRecord}
    (hfits : EventFits ssl keychain (.message env buddy t r behind))
    (hanswer : Answer ssl env buddy (sessionFor env keychain buddy) r s' records) :
    LengthFits s' := by
  obtain ⟨hrecord, hfresh⟩ := hfits
  by_cases type : r.type = .handshakeKey
  · apply answer_lengthFits_key hanswer type _ hrecord
    intro hstatus
    apply (h.sessionFor env buddy).2
    intro hnone
    apply hstatus
    unfold Keychain.sessionFor
    rw [getSessionInfo_eq, hnone]
    rfl
  · rw [answer_lengthFits_iff hanswer type]
    rcases sessionFor_cases env keychain buddy with hs | ⟨hnone, hs⟩
    · exact (h keychain rfl buddy _ hs).1
    · rw [hs]
      exact hfresh hnone type hanswer.not_exits

private theorem contained_message_iff (h : Sound (some keychain)) {buddy : MpString}
    {t : AutoResend.MsgPayload.mp_msg_type_t} {r : SmkexT4mRecord} {behind : Lib.Loads.Memory}
    (hstep : Process.step ssl (some keychain) (.message env buddy t r behind) = some c') :
    Contained ssl (some keychain) (.message env buddy t r behind) c' ↔
      EventFits ssl keychain (.message env buddy t r behind) := by
  have hcopies := copies_message ssl env keychain buddy t r behind
  have hnonce := (h.sessionFor env buddy).1
  constructor
  · intro hcontained
    have hwithin := hcontained.copies keychain rfl
    rw [hcopies] at hwithin
    refine ⟨(fits_iff hnonce).1 hwithin, ?_⟩
    intro hnone type hexits
    -- the call returns, so that the new session can be looked at
    obtain ⟨s', records, hanswer⟩ := answer_isSome ssl env buddy hexits
    have hreturns := (message_ends_iff ssl env keychain buddy t r behind).not.2 hexits
    obtain ⟨⟨⟨keychain', n⟩, log⟩, hrun⟩ := Option.ne_none_iff_exists'.1 hreturns
    rw [Process.step, Option.map_some, hrun, Option.map_some, Option.some.injEq] at hstep
    have hchanges : Changes ssl keychain (.message env buddy t r behind) keychain' := by
      apply step_cases
      rw [Process.step, Option.map_some, hrun, Option.map_some]
    cases hchanges with
    | @answered _ _ _ _ _ s'' records'' hchange =>
        have hlen := hcontained.length _ hstep.symm buddy s'' (Function.update_self _ _ _)
        rw [answer_lengthFits_iff hchange type] at hlen
        rcases sessionFor_cases env keychain buddy with hs | ⟨-, hs⟩
        · rw [hnone] at hs
          cases hs
        · rw [hs] at hlen
          exact hlen
  · intro hfits
    refine ⟨?_, ?_⟩
    · rintro _ ⟨⟩
      rw [hcopies]
      exact (fits_iff hnonce).2 hfits.1
    · rintro keychain' rfl b s hs
      have hchanges := step_cases ssl hstep
      by_cases hb : b = buddy
      · cases hchanges with
        | answered hanswer =>
            rw [hb, store, Function.update_self, Option.some.injEq] at hs
            rw [← hs]
            exact length_of_fits h hfits hanswer
      · rw [hchanges.other ssl hb] at hs
        exact (h keychain rfl b s hs).1

private theorem contained_initSession (h : Sound (some keychain)) {buddy : MpString}
    (hstep : Process.step ssl (some keychain) (.initSession env buddy) = some c') :
    Contained ssl (some keychain) (.initSession env buddy) c' := by
  refine ⟨?_, ?_⟩
  · rintro _ ⟨⟩ m hm
    rw [copies_initSession] at hm
    cases hm
  · rintro keychain' rfl b s hs
    have hchanges := step_cases ssl hstep
    by_cases hb : b = buddy
    · cases hchanges with
      | started before =>
          rw [hb, store, Function.update_self, Option.some.injEq] at hs
          rw [← hs, restarted_lengthFits]
          exact (h keychain rfl buddy _ before).1
    · rw [hchanges.other ssl hb] at hs
      exact (h keychain rfl b s hs).1

/-- **One event is contained exactly where it fits.** -/
theorem contained_step_iff {c : Process K} {e : ClientEvent K} (h : Sound c)
    (hstep : c.step ssl e = some c') :
    Contained ssl c e c' ↔ ∀ keychain, c = some keychain → EventFits ssl keychain e := by
  obtain ⟨keychain, rfl, -⟩ := Option.map_eq_some_iff.1 hstep
  have hall : (∀ keychain', some keychain = some keychain' → EventFits ssl keychain' e) ↔
      EventFits ssl keychain e := by
    constructor
    · intro hfits
      exact hfits keychain rfl
    · rintro hfits _ ⟨⟩
      exact hfits
  rw [hall]
  cases e with
  | initSession env buddy =>
      exact ⟨fun _ => trivial, fun _ => contained_initSession h hstep⟩
  | message env buddy t r behind => exact contained_message_iff h hstep

/-- Contained events keep the sessions sound. -/
theorem Sound.step {c : Process K} {e : ClientEvent K} (h : Sound c)
    (hstep : c.step ssl e = some c') (hcontained : Contained ssl c e c') : Sound c' := by
  obtain ⟨keychain, rfl, -⟩ := Option.map_eq_some_iff.1 hstep
  rintro keychain' rfl b s hs
  refine ⟨hcontained.length keychain' rfl b s hs, ?_⟩
  have hchanges := step_cases ssl hstep
  by_cases hb : b = e.buddy
  · cases hchanges with
    | @started env buddy t before =>
        rw [hb, store, ClientEvent.buddy, Function.update_self, Option.some.injEq] at hs
        rw [← hs, restarted_remote_nonce]
        exact (h keychain rfl buddy t before).2
    | @answered env buddy _ _ _ _ _ hanswer =>
        rw [hb, store, ClientEvent.buddy, Function.update_self, Option.some.injEq] at hs
        rw [← hs, answer_nonce_size hanswer]
        exact (h.sessionFor env buddy).1
  · rw [hchanges.other ssl hb] at hs
    exact (h keychain rfl b s hs).2

end Step

/-- **The copies stay in their buffers exactly where every event fits.**  For a
client that starts without a session, any calls of `initSession` and any
records from any buddies. -/
theorem contained_iff (ssl : OpenSSL K) (es : List (ClientEvent K)) :
    Steps (Process.step ssl) (Contained ssl) Process.initial es ↔
      Steps (Process.step ssl)
        (fun c e _ => ∀ keychain, c = some keychain → EventFits ssl keychain e)
        Process.initial es := by
  apply steps_iff_of_inv (I := Sound) (E := fun _ => True)
  · intro c e c' h _ hstep
    exact contained_step_iff h hstep
  · intro c e c' h _ hstep hfits
    exact h.step hstep ((contained_step_iff h hstep).2 hfits)
  · rintro keychain ⟨⟩ b s hs
    cases hs
  · intro e _
    trivial

/-- A message from the buddy `b`. -/
def sampleMessage (type : SMKEX_T4M_Type) (data : Bytes) : ClientEvent UInt8 :=
  .message (sampleEnv 1 2) [98] .MP_TYPE_MESSAGE (buildRecord (sampleEnv 2 3) [97] type data)
    fun _ => 0

/-- Key, nonce, and nonce with a hash: what connects a buddy. -/
def sampleConnecting : List (ClientEvent UInt8) :=
  [sampleMessage .handshakeKey (sampleOpenSSL.pub 7),
    sampleMessage .handshakeNonce (sampleNonce 1).1,
    sampleMessage .handshakeNonceH ((sampleNonce 1).1 ++ [1])]

/-- A buddy connects and then sends their key once more: 256 bytes are copied
out of a record that has 65 into a buffer that has 65. -/
theorem renewed_key_overflows :
    ¬ Steps (Process.step sampleOpenSSL) (Contained sampleOpenSSL) Process.initial
      (sampleConnecting ++ [sampleMessage .handshakeKey (sampleOpenSSL.pub 7)]) := by
  intro hsteps
  have hrun : (exec (Process.step sampleOpenSSL) Process.initial sampleConnecting).map
      (Option.map fun keychain => copies sampleOpenSSL keychain
        (sampleMessage .handshakeKey (sampleOpenSSL.pub 7))) =
      some (some [⟨256, 65, some 65⟩]) := by decide +kernel
  obtain ⟨c, hexec, hc⟩ := Option.map_eq_some_iff.1 hrun
  obtain ⟨keychain, rfl, hcopies⟩ := Option.map_eq_some_iff.1 hc
  have hcontained := hsteps.last hexec rfl
  have hwithin := hcontained.copies keychain rfl ⟨256, 65, some 65⟩ (by simp [hcopies])
  exact absurd hwithin.1 (by decide)

end EndToEndSmkex.Smkex.Copies
