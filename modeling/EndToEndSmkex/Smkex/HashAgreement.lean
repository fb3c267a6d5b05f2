import EndToEndSmkex.Smkex.Attack

/-!
# The two ends of one hash

`sendNonceH` and `verifyH` hash mirrored fields, except for two slips: the
sender hashes `local_nonce2` and sends `local_nonce`, and the initiator hashes
before it has stored the nonce that came with the record it answers.  This file
follows every hash of a run from the call that made it to the call that checks
it.

The network is watched: next to its state stands the list of all calls of
`sendNonceH` so far, each with the session it was made for.

## Main results

* `Inv.step` — every hash on its way comes from a call in the list, made over
  the sender's own key and the peer's.
* `hashes_agree_iff` — whatever the order of a run, sender and receiver have the
  same hash where each pair of mirrored fields is the same to `strlen`, and
  nowhere else as long as the digest tells the fields apart.
* `nonce2_breaks_agreement` — a handshake, all in order, in which they do not.
-/

namespace EndToEndSmkex.Smkex.HashAgreement

open EndToEndSmkex.Lib.CBuffer
open EndToEndSmkex.Lib.Run
open EndToEndSmkex.Lib.Undefined
open EndToEndSmkex.Smkex.Record
open EndToEndSmkex.Smkex.SessionInfo
open EndToEndSmkex.Smkex.Handshake
open EndToEndSmkex.Smkex.Transitions
open EndToEndSmkex.Smkex.Network
open EndToEndSmkex.Smkex.Attack
open EndToEndSmkex.Smkex.Overruns

variable {K : Type}

/-! ## Making and checking a hash -/

/-- What a record of type `handshakeNonceH` carries behind the nonce. -/
def hashOf (r : SmkexT4mRecord) : Bytes := r.data.drop NONCE_LEN

/-- The four strings `calculateH` reads. -/
def texts (behind : HashArg → Bytes) (key1 nonce1 key2 nonce2 : Bytes) : List Bytes :=
  [cString nonce1 (behind .nonce1), cString key1 (behind .key1),
    cString nonce2 (behind .nonce2), cString key2 (behind .key2)]

theorem hashInput_eq (behind : HashArg → Bytes) (key1 nonce1 key2 nonce2 : Bytes) :
    hashInput behind key1 nonce1 key2 nonce2 = (texts behind key1 nonce1 key2 nonce2).flatten := by
  simp [hashInput, texts]

section Strings

variable (ssl : OpenSSL K) (env : Env K) (s : SmkexSessionInfo K)

/-- What `sendNonceH` hashes. -/
def sentTexts : List Bytes :=
  texts (env.heap ∘ .sendNonceH) s.remote_pub_key.bytes s.remote_nonce.bytes (ssl.pub s.ec_key)
    s.local_nonce2.1

/-- What `verifyH` hashes. -/
def checkedTexts : List Bytes :=
  texts (env.heap ∘ .verifyH) (ssl.pub s.ec_key) s.local_nonce.1 s.remote_pub_key.bytes
    s.remote_nonce.bytes

theorem sentH_eq : sentH ssl env s = ssl.sha256 (sentTexts ssl env s).flatten := by
  rw [sentH, hashInput_eq, sentTexts]

end Strings

section Session

variable {ssl : OpenSSL K} {env : Env K} {buddy : MpString} {s s' v w : SmkexSessionInfo K}
  {r : SmkexT4mRecord} {records : List SmkexT4mRecord}

/-- What `verifyH` recomputes once a key is there. -/
theorem expectedH_eq (h : v.remote_pub_key_len = 65) :
    expectedH ssl env v = some (ssl.sha256 (checkedTexts ssl env v).flatten) := by
  unfold expectedH calculateH
  rw [if_neg (by decide), if_neg (by omega), hashInput_eq]
  rfl

/-- A hash is checked by a session that holds a key, after its nonce has been
stored. -/
theorem verified_nonceH (type : r.type = .handshakeNonceH)
    (h : verified ssl env s r = some v) :
    HasKey s.status ∧ v = nonced env (hashed s r) r := by
  unfold verified at h
  split at h
  · next _ keyType =>
    rw [type] at keyType
    cases keyType
  · next status _ => exact ⟨by simp [status, HasKey], (Option.some.inj h).symm⟩
  · next status _ => exact ⟨by simp [status, HasKey], (Option.some.inj h).symm⟩
  · cases h

/-! ### Buffers that are full -/

/-- The buffers of the peer's values have the sizes the constructor gives them,
and nothing lies behind the values. -/
structure Sized (s : SmkexSessionInfo K) : Prop where
  nonce : s.remote_nonce.bytes.length = NONCE_LEN
  room : s.remote_pub_key.size = 65
  key : s.remote_pub_key.bytes.length = 65

theorem sized_new (c : CtorInput K) : Sized (SmkexSessionInfo.new c) :=
  ⟨readN_length _ _ _, rfl, readN_length _ _ _⟩

theorem Sized.remoteNonce (h : Sized s) : s.remoteNonce = s.remote_nonce.bytes :=
  List.take_of_length_le h.nonce.le

theorem Sized.remoteKey (h : Sized s) {pub : Bytes} (hholds : Holds pub s) :
    s.remote_pub_key.bytes = pub := by
  rw [← hholds.2, SmkexSessionInfo.remoteKey, hholds.1, List.take_of_length_le h.key.le]

theorem Sized.nonced (h : Sized s) (env : Env K) (r : SmkexT4mRecord) :
    Sized (nonced env s r) := by
  refine ⟨?_, h.room, h.key⟩
  have hwrite : (readN r.data (env.heap .recData) NONCE_LEN).length ≤
      s.remote_nonce.bytes.length := by rw [readN_length, h.nonce]
  exact (Block.length_write hwrite).trans h.nonce

theorem Sized.keyed (h : Sized s) (hr : r.data.length = 65) : Sized (keyed ssl s r) := by
  refine ⟨h.nonce, h.room, ?_⟩
  exact (Block.length_write (by rw [hr, h.key])).trans h.key

theorem Sized.congr (h : Sized s) (hnonce : s'.remote_nonce = s.remote_nonce)
    (hkey : s'.remote_pub_key = s.remote_pub_key) : Sized s' :=
  ⟨by rw [hnonce]; exact h.nonce, by rw [hkey]; exact h.room, by rw [hkey]; exact h.key⟩

theorem Sized.hashed (h : Sized s) : Sized (hashed s r) := h.congr rfl rfl

theorem Sized.concluded (h : Sized v) : Sized (concluded ssl env buddy v).1 := by
  rcases concluded_cases ssl env buddy v with ⟨-, heq⟩ | ⟨-, heq⟩ <;> rw [heq] <;>
    exact h.congr rfl rfl

/-- The buffers stay full as long as no copy leaves them and keys have the length
of keys. -/
theorem Sized.answer (h : Sized s) (answer : Answer ssl env buddy s r s' records)
    (hstay : Stay s r)
    (hr : r.type = .handshakeKey → ¬ IgnoresKeys s.status → r.data.length = 65) :
    Sized s' := by
  cases answer with
  | keyFirst type status =>
      have hlen := hr type (by rw [status]; exact id)
      have hroom : Sized (reallocated s r) := by
        refine ⟨h.nonce, ?_, ?_⟩
        · exact r.data_size.symm.trans hlen
        · show (s.remote_pub_key.bytes.take r.length.toNat).length = 65
          rw [← r.data_size, hlen, List.length_take, h.key]
          rfl
      have hkeyed : Sized (Transitions.keyed ssl (reallocated s r) r) := hroom.keyed hlen
      exact hkeyed.congr rfl rfl
  | keyToInitiator type status =>
      have hkeyed : Sized (Transitions.keyed ssl s r) :=
        h.keyed (hr type (by rw [status]; exact id))
      exact hkeyed.congr rfl rfl
  | keyLast type status => exact (h.keyed (hr type (by rw [status]; exact id))).concluded
  | keyRenewed type status =>
      -- 256 bytes do not fit
      have hroom := room_of_renewed hstay type status
      rw [h.room] at hroom
      exact absurd hroom (by decide)
  | nonceToResponder | nonceToInitiator | nonceRenewed =>
      exact (h.nonced env r).congr rfl rfl
  | nonceHEarly => exact h.hashed.nonced env r
  | nonceHToInitiator | nonceHToResponder =>
      exact (h.hashed.nonced env r).concluded
  | alertRestart =>
      unfold restarted
      split <;> exact h.congr rfl rfl
  | keyIgnored | nonceRefused | nonceHIgnored | alertIdle | dataIgnored => exact h.congr rfl rfl

end Session

/-! ## The watched network -/

/-- One call of `sendNonceH`, with the record it sent. -/
structure Call (K : Type) where
  side : Side
  env : Env K
  session : SmkexSessionInfo K
  record : SmkexT4mRecord

/-- The network and the calls so far. -/
structure Watched (K : Type) where
  net : Net K
  calls : List (Call K)

/-- The record an event hands to the party. -/
def received : NetEvent K → Option (SmkexT4mRecord × Env K)
  | .initSession _ _ => none
  | .deliver _ r env | .inject _ r env => some (r, env)

/-- The call of `sendNonceH` that an event leads to, if it sends a record. -/
def callsOf (u : Setup K) (n : Net K) (e : NetEvent K) : List (Call K) :=
  match received e, n.session u e.side with
  | some (r, env), some s =>
      match hashing u.ssl (u.env e.side env) s r with
      | none => []
      | some w => (nonceHRecords u.ssl (u.env e.side env) (u.serial e.side.other) w).map
          fun q => ⟨e.side, u.env e.side env, w, q⟩
  | _, _ => []

def Watched.step (u : Setup K) (m : Watched K) (e : NetEvent K) : Option (Watched K) :=
  (m.net.step u e).map fun n => ⟨n, m.calls ++ callsOf u m.net e⟩

/-- The event makes the party, in session `s`, check the hash in a record, and
`v` is the session in which it does. -/
structure Checks (u : Setup K) (n : Net K) (e : NetEvent K) (r : SmkexT4mRecord) (env : Env K)
    (s v : SmkexSessionInfo K) : Prop where
  brings : e.Brings n r env
  type : r.type = .handshakeNonceH
  session : n.session u e.side = some s
  verified : verified u.ssl (u.env e.side env) s r = some v

/-! ## What is known of every call -/

/-- A call of `sendNonceH` is made with the own key pair and the peer's key in
hand, and sends a record over them. -/
structure Honest (u : Setup K) (c : Call K) : Prop where
  own : c.session.ec_key = u.key c.side
  peer : Holds (u.pub c.side.other) c.session
  sized : Sized c.session
  record : c.record ∈ nonceHRecords u.ssl c.env (u.serial c.side.other) c.session

/-- What holds of the network and the calls so far: keys as in `KeysInv`, every
hash that was sent comes from a call, and no buffer has another size. -/
structure Inv (u : Setup K) (m : Watched K) : Prop where
  keys : KeysInv u m.net
  sized : ∀ p s, m.net.session u p = some s → Sized s
  honest : ∀ c ∈ m.calls, Honest u c
  sent : ∀ p r, r ∈ m.net.sent p → r.type = .handshakeNonceH →
    ∃ c ∈ m.calls, c.side = p ∧ c.record = r

section Invariant

variable {u : Setup K} {n n' : Net K} {m m' : Watched K} {e : NetEvent K}

theorem Inv.initial (h : n.Initial u) : Inv u ⟨n, []⟩ where
  keys := KeysInv.initial h
  sized p s hs := by
    obtain ⟨c, -, rfl⟩ := h.fresh p s hs
    exact sized_new c
  honest c hc := by cases hc
  sent p r hr _ := by
    rw [show n.sent p = [] from h.silent p] at hr
    cases hr

theorem received_of_brings {r : SmkexT4mRecord} {env : Env K} (h : e.Brings n r env) :
    received e = some (r, env) := by
  rcases h with ⟨he, -⟩ | ⟨he, -⟩ <;> rw [he] <;> rfl

theorem brings_of_received {r : SmkexT4mRecord} {env : Env K} (hstep : n.step u e = some n')
    (h : received e = some (r, env)) : e.Brings n r env := by
  cases e with
  | initSession => cases h
  | deliver p q env' =>
      cases h
      refine Or.inl ⟨rfl, ?_⟩
      by_contra hr
      have hr' : r ∉ n.sent p.other := hr
      rw [Net.step, if_neg hr'] at hstep
      cases hstep
  | inject p q env' =>
      cases h
      refine Or.inr ⟨rfl, ?_⟩
      by_contra hr
      rw [Net.step, if_neg hr] at hstep
      cases hstep

theorem mem_callsOf {c : Call K} : c ∈ callsOf u n e ↔
    ∃ r env s, received e = some (r, env) ∧ n.session u e.side = some s ∧
      hashing u.ssl (u.env e.side env) s r = some c.session ∧ c.side = e.side ∧
        c.env = u.env e.side env ∧
          c.record ∈ nonceHRecords u.ssl (u.env e.side env) (u.serial e.side.other) c.session := by
  unfold callsOf
  constructor
  · intro hc
    split at hc
    · next r env s hr hs =>
      split at hc
      · cases hc
      · next w hw =>
        obtain ⟨q, hq, rfl⟩ := List.mem_map.1 hc
        exact ⟨r, env, s, hr, hs, hw, rfl, rfl, hq⟩
    · cases hc
  · obtain ⟨side, env', w, q⟩ := c
    rintro ⟨r, env, s, hr, hs, hw, rfl, rfl, hq⟩
    simp only [hr, hs, hw]
    exact List.mem_map.2 ⟨q, hq, rfl⟩

/-- Every call that an event leads to is honest. -/
theorem honest_of_mem_callsOf {c : Call K} (h : Inv u m) (hgenuine : Genuine u e)
    (hstep : m.net.step u e = some n') (hc : c ∈ callsOf u m.net e) : Honest u c := by
  obtain ⟨r, env, s, hr, hs, hw, hside, henv, hrecord⟩ := mem_callsOf.1 hc
  have hbrings := brings_of_received hstep hr
  have hown := (h.keys e.side).ownKey s hs
  have hpeer := (h.keys e.side).peerKey s hs
  have hsized := h.sized e.side s hs
  have hmade : c.session.ec_key = u.key e.side ∧ Holds (u.pub e.side.other) c.session ∧
      Sized c.session := by
    unfold hashing at hw
    split at hw
    · next status type =>
      split_ifs at hw
      have hdata := h.keys.received (Genuine.unsubstituted hgenuine m.net) hbrings (Or.inl hs) type
        (by rw [status]; exact id)
      have hlen : r.data.length = 65 := by
        rw [hdata]
        exact u.ssl.pub_size _
      rw [← Option.some.inj hw]
      refine ⟨hown, ⟨?_, by rw [keyed_remoteKey, hdata]⟩, hsized.keyed hlen⟩
      exact r.data_size.symm.trans hlen
    · next status type =>
      rw [← Option.some.inj hw]
      exact ⟨hown, hpeer (by simp [status, HasKey]), hsized.nonced _ r⟩
    · next status type =>
      rw [← Option.some.inj hw]
      exact ⟨hown, hpeer (by simp [status, HasKey]), hsized.congr rfl rfl⟩
    · cases hw
  exact ⟨by rw [hside]; exact hmade.1, by rw [hside]; exact hmade.2.1, hmade.2.2,
    by rw [hside, henv]; exact hrecord⟩

private theorem sized_step (h : Inv u m) (hgenuine : Genuine u e)
    (hstays : EventStays u m.net e) (hn : m.net.step u e = some n') :
    ∀ p s, n'.session u p = some s → Sized s := by
  refine step_local (I := fun _ session _ => ∀ s, session = some s → Sized s) hn h.sized ?_
  cases step_cases hn with
  | exited ended _ _ =>
      rw [session_of_ended ended]
      intro s hs
      cases hs
  | started env s _ before after _ =>
      rw [after]
      rintro _ ⟨rfl⟩
      unfold restarted
      split <;> exact (h.sized _ s before).congr rfl rfl
  | answered env r s s' records brings before answer after _ =>
      rw [after]
      rintro _ ⟨rfl⟩
      have hsized : Sized s := by
        rcases before with before | ⟨-, rfl⟩
        · exact h.sized _ s before
        · exact sized_new _
      refine hsized.answer answer (hstays.answered hn brings before) fun type hstores => ?_
      rw [h.keys.received (Genuine.unsubstituted hgenuine m.net) brings before type hstores]
      exact u.ssl.pub_size _

/-- A hash that an event adds to the history comes from its call. -/
private theorem sent_step {p : Side} {r : SmkexT4mRecord} (hn : n.step u e = some n')
    (hr : r ∈ n'.sent p) (type : r.type = .handshakeNonceH) :
    r ∈ n.sent p ∨ ∃ c ∈ callsOf u n e, c.side = p ∧ c.record = r := by
  by_cases hp : p = e.side
  · subst hp
    cases step_cases hn with
    | exited _ sent _ =>
        rw [sent] at hr
        exact Or.inl hr
    | started env s _ before after sent =>
        rw [sent] at hr
        exact Or.inl ((List.mem_append.1 hr).resolve_right fun hr =>
          restarted_not_nonceH hr type)
    | answered env q s s' records brings before answer after sent =>
        rw [sent] at hr
        refine (List.mem_append.1 hr).imp_right fun hr => ?_
        obtain ⟨w, hw, hrecord⟩ := answer.nonceH_records hr type
        rcases before with before | ⟨-, rfl⟩
        · exact ⟨⟨e.side, u.env e.side env, w, r⟩, mem_callsOf.2 ⟨q, env, s,
            received_of_brings brings, before, hw, rfl, rfl, hrecord⟩, rfl, rfl⟩
        · cases hw
  · rw [(step_other hn hp).2] at hr
    exact Or.inl hr

theorem Inv.step (h : Inv u m) (hgenuine : Genuine u e) (hstays : EventStays u m.net e)
    (hstep : m.step u e = some m') : Inv u m' := by
  obtain ⟨n', hn, rfl⟩ := Option.map_eq_some_iff.1 hstep
  refine ⟨h.keys.step (Genuine.unsubstituted hgenuine m.net) hn,
    sized_step h hgenuine hstays hn, ?_, ?_⟩
  · intro c hc
    rcases List.mem_append.1 hc with hc | hc
    · exact h.honest c hc
    · exact honest_of_mem_callsOf h hgenuine hn hc
  · intro p r hr type
    rcases sent_step hn hr type with hr | ⟨c, hc, hside, hrecord⟩
    · obtain ⟨c, hc, hside, hrecord⟩ := h.sent p r hr type
      exact ⟨c, List.mem_append_left _ hc, hside, hrecord⟩
    · exact ⟨c, List.mem_append_right _ hc, hside, hrecord⟩

end Invariant

/-! ## Where a hash is checked -/

/-- The receiver recomputes, in session `v`, the hash that the call sent. -/
def Agree (u : Setup K) (c : Call K) (env : Env K) (v : SmkexSessionInfo K) : Prop :=
  expectedH u.ssl env v = some (hashOf c.record)

/-- Each field that is hashed is, to `strlen`, the same at the two ends: for the
sender in the session of the call, for the receiver in session `s`.  The sender
has the receiver's nonce from a record, and the receiver has the sender's
`local_nonce`; the keys are the same, and only what lies behind them can
differ. -/
structure SameFields (u : Setup K) (c : Call K) (env : Env K) (s : SmkexSessionInfo K) :
    Prop where
  nonce1 : SameText c.session.remoteNonce (c.env.heap (.sendNonceH .nonce1))
    s.local_nonce.1 (env.heap (.verifyH .nonce1))
  key1 : SameText (u.pub c.side.other) (c.env.heap (.sendNonceH .key1))
    (u.pub c.side.other) (env.heap (.verifyH .key1))
  nonce2 : SameText c.session.local_nonce2.1 (c.env.heap (.sendNonceH .nonce2))
    c.session.local_nonce.1 (env.heap (.verifyH .nonce2))
  key2 : SameText (u.pub c.side) (c.env.heap (.sendNonceH .key2))
    (u.pub c.side) (env.heap (.verifyH .key2))

/-- The digest tells the fields of the two ends apart. -/
def TellsApart (u : Setup K) (c : Call K) (env : Env K) (v : SmkexSessionInfo K) : Prop :=
  u.ssl.sha256 (sentTexts u.ssl c.env c.session).flatten =
      u.ssl.sha256 (checkedTexts u.ssl env v).flatten →
    sentTexts u.ssl c.env c.session = checkedTexts u.ssl env v

section Check

variable {u : Setup K} {n n' : Net K} {m m' : Watched K} {e : NetEvent K} {c : Call K}
  {r : SmkexT4mRecord} {env : Env K} {s v : SmkexSessionInfo K}

/-- The session that checks has the peer's key, the nonce of the record and its
own values. -/
theorem Checks.session_eq (hcheck : Checks u n e r env s v) :
    HasKey s.status ∧ v = nonced (u.env e.side env) (hashed s r) r :=
  verified_nonceH hcheck.type hcheck.verified

/-- Sender and receiver agree where what they hash has the same digest. -/
theorem Checks.agree_iff_digests (hsize : ∀ bs, (u.ssl.sha256 bs).length = 32)
    (h : KeysInv u n) (hcall : Honest u c) (hcheck : Checks u n e c.record env s v) :
    Agree u c (u.env e.side env) v ↔
      u.ssl.sha256 (sentTexts u.ssl c.env c.session).flatten =
        u.ssl.sha256 (checkedTexts u.ssl (u.env e.side env) v).flatten := by
  obtain ⟨hkey, rfl⟩ := hcheck.session_eq
  have hholds := (h e.side).peerKey s hcheck.session hkey
  have hhash : hashOf c.record = u.ssl.sha256 (sentTexts u.ssl c.env c.session).flatten := by
    rw [hashOf, nonceHRecords_data hsize hcall.record,
      List.drop_left' c.session.local_nonce.2, sentH_eq]
  rw [Agree, expectedH_eq (v := nonced _ (hashed s _) _) hholds.1, hhash, Option.some.injEq]
  exact eq_comm

/-- What is hashed at the two ends is the same where the fields are. -/
theorem Checks.texts_iff (hsize : ∀ bs, (u.ssl.sha256 bs).length = 32) (h : Inv u m)
    (hcall : Honest u c) (hside : c.side = e.side.other)
    (hcheck : Checks u m.net e c.record env s v) :
    sentTexts u.ssl c.env c.session = checkedTexts u.ssl (u.env e.side env) v ↔
      SameFields u c (u.env e.side env) s := by
  obtain ⟨hkey, rfl⟩ := hcheck.session_eq
  have hown : s.ec_key = u.key e.side := (h.keys e.side).ownKey s hcheck.session
  have hpeer := (h.sized _ s hcheck.session).remoteKey
    ((h.keys e.side).peerKey s hcheck.session hkey)
  have hnonce : (nonced (u.env e.side env) (hashed s c.record) c.record).remote_nonce.bytes =
      c.session.local_nonce.1 := by
    have hsized : Sized (hashed s c.record) := (h.sized _ s hcheck.session).hashed
    rw [← (hsized.nonced (u.env e.side env) c.record).remoteNonce]
    exact nonced_remoteNonce ⟨_, (nonceHRecords_data hsize hcall.record).symm⟩
  have hkeyC := hcall.sized.remoteKey hcall.peer
  have hlen : c.session.remoteNonce.length = s.local_nonce.1.length := by
    rw [hcall.sized.remoteNonce, hcall.sized.nonce, s.local_nonce.2]
  have hlen2 : c.session.local_nonce2.1.length = c.session.local_nonce.1.length := by
    rw [c.session.local_nonce2.2, c.session.local_nonce.2]
  have hownC : u.ssl.pub c.session.ec_key = u.pub c.side := by rw [hcall.own]; rfl
  have hside' : u.ssl.pub s.ec_key = u.pub c.side.other := by
    rw [hown, hside, Side.other_other]
    rfl
  rw [sentTexts, checkedTexts, hnonce, hkeyC, hownC, ← hcall.sized.remoteNonce]
  show texts _ (u.pub c.side.other) c.session.remoteNonce (u.pub c.side) c.session.local_nonce2.1 =
    texts _ (u.ssl.pub s.ec_key) s.local_nonce.1 s.remote_pub_key.bytes c.session.local_nonce.1 ↔ _
  rw [hside', hpeer, ← hside]
  simp only [texts, List.cons.injEq, and_true, Function.comp_apply]
  rw [cString_eq_iff _ _ hlen, cString_eq_iff _ _ rfl, cString_eq_iff _ _ hlen2,
    cString_eq_iff _ _ rfl]
  constructor
  · rintro ⟨h₁, h₂, h₃, h₄⟩
    exact ⟨h₁, h₂, h₃, h₄⟩
  · rintro ⟨h₁, h₂, h₃, h₄⟩
    exact ⟨h₁, h₂, h₃, h₄⟩

end Check

/-- What a check of a hash comes to.  The record was sent by calls of
`sendNonceH`, and for each of them the two ends agree where their fields are the
same, and only there as long as the digest tells these apart. -/
def ChecksExactly (u : Setup K) (m : Watched K) (e : NetEvent K) : Prop :=
  ∀ r env s v, Checks u m.net e r env s v →
    (∃ c ∈ m.calls, c.side = e.side.other ∧ c.record = r) ∧
      ∀ c ∈ m.calls, c.side = e.side.other → c.record = r →
        (SameFields u c (u.env e.side env) s → Agree u c (u.env e.side env) v) ∧
          (TellsApart u c (u.env e.side env) v →
            (Agree u c (u.env e.side env) v ↔ SameFields u c (u.env e.side env) s))

theorem Inv.checksExactly {u : Setup K} {m : Watched K} {e : NetEvent K}
    (hsize : ∀ bs, (u.ssl.sha256 bs).length = 32) (h : Inv u m) : ChecksExactly u m e := by
  intro r env s v hcheck
  constructor
  · rcases hcheck.brings with ⟨-, hr⟩ | ⟨-, type⟩
    · exact h.sent _ r hr hcheck.type
    · rw [hcheck.type] at type
      cases type
  · rintro c hc hside rfl
    have hcall := h.honest c hc
    have hdigests := hcheck.agree_iff_digests hsize h.keys hcall
    have htexts := hcheck.texts_iff hsize h hcall hside
    have hsame : SameFields u c (u.env e.side env) s → Agree u c (u.env e.side env) v := by
      intro hfields
      rw [hdigests, htexts.2 hfields]
    exact ⟨hsame, fun happart => ⟨fun hagree => htexts.1 (happart (hdigests.1 hagree)), hsame⟩⟩

/-- One event of the watched network.  Nothing is known of what follows a copy
that leaves its buffer. -/
abbrev watchedStep (u : Setup K) :
    Watched K → NetEvent K × Option (Watched K) → Option (Watched K) :=
  havoc (fun m e => EventStays u m.net e) (Watched.step u)

/-- **The two ends of the hash.**  In every run of two parties whose keys and
nonces arrive as they were sent, in any order and any number of times, and in
which no copy leaves its buffer, every hash that is checked was sent by
`sendNonceH`.  It is the one the receiver recomputes where every field is the
same at the two ends: the nonce of each party up to its first zero byte, and
where a nonce or a key has none, what lies behind it. -/
theorem hashes_agree_iff (u : Setup K) (hsize : ∀ bs, (u.ssl.sha256 bs).length = 32)
    (n : Net K) (hinit : n.Initial u) (es : List (NetEvent K × Option (Watched K)))
    (hgenuine : ∀ e ∈ es, Genuine u e.1)
    (hstays : Defined (fun m e => EventStays u m.net e) (Watched.step u) ⟨n, []⟩ es) :
    Steps (watchedStep u) (fun m e _ => ChecksExactly u m e.1) ⟨n, []⟩ es := by
  have hsteps : Steps (watchedStep u) (fun m e _ => EventStays u m.net e.1 ∧ Genuine u e.1)
      ⟨n, []⟩ es := hstays.combine (fun _ _ _ h he => ⟨h, he⟩) (steps_of_forall hgenuine)
  refine steps_havoc_of_inv (C := fun _ e _ => Genuine u e)
    (Q := fun m e _ => ChecksExactly u m e) (fun m e m' (hm : Inv u m) hs hstep hc => ?_)
    (Inv.initial hinit) hsteps
  exact ⟨hm.step hc hs hstep, hm.checksExactly hsize⟩

/-! ## A handshake -/

/-- The handshake up to the point where alice checks bob's hash. -/
def orderly : List (NetEvent UInt8) :=
  [.initSession .alice (sampleEnv 1 11),
    .deliver .bob alicesKey (sampleEnv 2 12),
    .deliver .bob alicesNonce (sampleEnv 2 12),
    .deliver .alice bobsKey (sampleEnv 1 11)]

def orderlyCheck : NetEvent UInt8 := .deliver .alice bobsDigest (sampleEnv 1 11)

theorem hashes_agree_iff_orderly :
    Steps (watchedStep digestSetup) (fun m e _ => ChecksExactly digestSetup m e.1)
      ⟨sampleNet, []⟩ (plain (orderly ++ [orderlyCheck])) :=
  hashes_agree_iff digestSetup (fun _ => List.length_replicate) sampleNet
    ⟨sampleNet_initial.fresh, sampleNet_initial.silent⟩ _
    (by simp [plain, orderly, orderlyCheck, Genuine]) (by decide +kernel)

/-- Every hash that is checked is the one the receiver recomputes. -/
def HashesAgree (u : Setup K) (m : Watched K) (e : NetEvent K) : Prop :=
  ∀ r env s v, Checks u m.net e r env s v →
    ∀ c ∈ m.calls, c.side = e.side.other → c.record = r → Agree u c (u.env e.side env) v

/-- All records arrive once and in order, no copy leaves its buffer, and alice
finds another hash than bob's. -/
theorem nonce2_breaks_agreement :
    Defined (fun m e => EventStays digestSetup m.net e) (Watched.step digestSetup)
        ⟨sampleNet, []⟩ (plain orderly ++ [(orderlyCheck, none)]) ∧
      ¬ Steps (watchedStep digestSetup) (fun m e _ => HashesAgree digestSetup m e.1)
        ⟨sampleNet, []⟩ (plain orderly ++ [(orderlyCheck, none)]) := by
  refine ⟨by decide +kernel, ?_⟩
  intro hsteps
  have hrun : ((exec (watchedStep digestSetup) ⟨sampleNet, []⟩ (plain orderly)).bind fun m =>
      (watchedStep digestSetup m (orderlyCheck, none)).bind fun _ =>
        (m.net.session digestSetup .alice).bind fun s =>
          (verified digestSetup.ssl (digestSetup.env .alice (sampleEnv 1 11)) s bobsDigest).map
            fun v => (m.calls.map fun c => (c.side, c.record),
              decide (bobsDigest ∈ m.net.sent .bob),
              expectedH digestSetup.ssl (digestSetup.env .alice (sampleEnv 1 11)) v ==
                some (hashOf bobsDigest))) =
      some ([(Side.bob, bobsDigest)], true, false) := by
    decide +kernel
  obtain ⟨m, hm, hrun⟩ := Option.bind_eq_some_iff.1 hrun
  obtain ⟨m', hm', hrun⟩ := Option.bind_eq_some_iff.1 hrun
  obtain ⟨s, hs, hrun⟩ := Option.bind_eq_some_iff.1 hrun
  obtain ⟨v, hv, hrun⟩ := Option.map_eq_some_iff.1 hrun
  rw [Prod.mk.injEq, Prod.mk.injEq, decide_eq_true_eq, beq_eq_false_iff_ne] at hrun
  obtain ⟨hcalls, hsent, hdiffer⟩ := hrun
  have hc : (Side.bob, bobsDigest) ∈ m.calls.map fun c => (c.side, c.record) := by
    rw [hcalls]
    exact List.mem_singleton_self _
  obtain ⟨c, hc, hcall⟩ := List.mem_map.1 hc
  rw [Prod.mk.injEq] at hcall
  have hcheck : Checks digestSetup m.net orderlyCheck bobsDigest (sampleEnv 1 11) s v :=
    ⟨Or.inl ⟨rfl, hsent⟩, rfl, hs, hv⟩
  have hagree := hsteps.last hm hm' _ _ _ _ hcheck c hc hcall.1 hcall.2
  rw [Agree, hcall.2] at hagree
  exact hdiffer hagree

end EndToEndSmkex.Smkex.HashAgreement
