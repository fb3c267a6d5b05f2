import EndToEndSmkex.Smkex.Attack

/-!
# Agreement of two honest parties

Without an attacker the keys take care of themselves: whoever is connected
holds the peer's key and the session key derived from it.  Nonces do not.  They
are renewed with every handshake, old records can be delivered again, and the
hash that covers both nonces is checked by a comparison that accepts what
differs.

What a party may still use is followed along the run: the records its peer sent
since the last handshake was started.

## Main results

* `agreement` — two connected parties agree in every state of a run in which no
  record of an earlier handshake is used in a later one.
* `stale_nonce_connects` — a run in which one is.
-/

namespace EndToEndSmkex.Smkex.Agreement

open EndToEndSmkex.Lib.CBuffer
open EndToEndSmkex.Lib.Run
open EndToEndSmkex.Lib.Undefined
open EndToEndSmkex.Smkex.Record
open EndToEndSmkex.Smkex.SessionInfo
open EndToEndSmkex.Smkex.Handshake
open EndToEndSmkex.Smkex.Transitions
open EndToEndSmkex.Smkex.SessionKey
open EndToEndSmkex.Smkex.Network
open EndToEndSmkex.Smkex.Attack
open EndToEndSmkex.Smkex.Overruns

variable {K : Type}

/-! ## Statement -/

/-- Two connected sessions agree on keys, nonces and session key. -/
def Agreed (u : Setup K) (n : Net K) : Prop :=
  ∀ p s t, n.session u p = some s → n.session u p.other = some t →
    s.status = .connected → t.status = .connected →
      s.remoteKey = u.ssl.pub t.ec_key ∧ s.remoteNonce = t.local_nonce.1 ∧
        s.session_key = t.session_key

/-- An event of a network that invents nothing. -/
def ByNetwork (e : NetEvent K) : Prop := ∀ p r env, e ≠ .inject p r env

/-- `ECDH_compute_key` gives both sides of two matching key pairs one secret. -/
def EcdhAgrees (ssl : OpenSSL K) : Prop :=
  ∀ a b, ∃ z, ssl.ecdh a (ssl.pub b) = some z ∧ ssl.ecdh b (ssl.pub a) = some z

/-! ## Invariants -/

/-- The session key of one party belongs to the key it holds. -/
def PartyDerived (u : Setup K) (_ : Side) (session : Option (SmkexSessionInfo K))
    (_ : List SmkexT4mRecord) : Prop :=
  ∀ s, session = some s → KeyInv u.ssl s

/-- Keys as in `KeysInv`, and session keys that belong to them. -/
structure Inv (u : Setup K) (n : Net K) : Prop where
  keys : KeysInv u n
  derived : ∀ p, PartyDerived u p (n.session u p) (n.sent p)

section Invariant

variable {u : Setup K} {n n' : Net K} {e : NetEvent K}

theorem ByNetwork.genuine (h : ByNetwork e) : Genuine u e := by
  intro p r env he
  exact absurd he (h p r env)

theorem Inv.initial (h : n.Initial u) : Inv u n where
  keys := KeysInv.initial h
  derived p s hs := by
    obtain ⟨c, -, rfl⟩ := h.fresh p s hs
    exact fun hkey => hkey.elim

/-- An answer to a record that carries no key but the peer's keeps the session
key with the key. -/
private theorem derived_answer (hecdh : EcdhAgrees u.ssl) {p : Side} {env : Env K}
    {buddy : MpString} {r : SmkexT4mRecord} {s s' : SmkexSessionInfo K}
    {records : List SmkexT4mRecord} (hs : KeyInv u.ssl s)
    (answer : Answer u.ssl env buddy s r s' records) (hown : s.ec_key = u.key p)
    (hpeer : HasKey s.status → Holds (u.pub p.other) s)
    (hr : r.type = .handshakeKey → ¬ IgnoresKeys s.status → r.data = u.pub p.other) :
    KeyInv u.ssl s' := by
  refine hs.answer answer ?_ ?_
  · intro type derives
    obtain ⟨z, hz, -⟩ := hecdh (u.key p) (u.key p.other)
    rw [hr type (not_ignoresKeys_of_derives derives), hown, sessionKeyOf,
      show u.pub p.other = u.ssl.pub (u.key p.other) from rfl, hz]
    rfl
  · intro type status
    have hold := hpeer (by simp [status, HasKey])
    have hnew := rekeyed_holds env (u.ssl.pub_size _) (hr type (by rw [status]; exact id)) hold
    rw [hold.2]
    exact hnew.2

theorem Inv.step (hecdh : EcdhAgrees u.ssl) (h : Inv u n) (he : ByNetwork e)
    (hstep : n.step u e = some n') : Inv u n' := by
  have hkeys : Unsubstituted u n e := Genuine.unsubstituted he.genuine n
  refine ⟨h.keys.step hkeys hstep, step_local hstep h.derived ?_⟩
  have hside := h.keys e.side
  cases step_cases hstep with
  | exited ended _ _ =>
      rw [session_of_ended ended]
      intro s hs
      cases hs
  | started env s _ _ after _ =>
      rw [after]
      rintro _ ⟨rfl⟩ hkey
      rw [restarted_status] at hkey
      exact hkey.elim
  | answered env r s s' records brings before answer after _ =>
      rw [after]
      rintro _ ⟨rfl⟩
      have hr := h.keys.received hkeys brings before
      rcases before with before | ⟨-, rfl⟩
      · exact derived_answer hecdh (h.derived _ s before) answer (hside.ownKey s before)
          (hside.peerKey s before) hr
      · have hnew : ¬ HasKey (SmkexSessionInfo.new (u.env e.side env).fresh).status := id
        exact derived_answer hecdh (fun hkey => absurd hkey hnew) answer rfl
          (fun hkey => absurd hkey hnew) hr

/-- What the invariant says of two connected parties. -/
theorem Inv.agreed (hecdh : EcdhAgrees u.ssl) (h : Inv u n) {p : Side}
    {s t : SmkexSessionInfo K} (hs : n.session u p = some s)
    (ht : n.session u p.other = some t) (hsc : s.status = .connected)
    (htc : t.status = .connected) :
    s.remoteKey = u.ssl.pub t.ec_key ∧ s.session_key = t.session_key := by
  have hkey : ∀ q w, n.session u q = some w → w.status = .connected →
      w.ec_key = u.key q ∧ w.remoteKey = u.pub q.other ∧
        sessionKeyOf u.ssl (u.key q) (u.pub q.other) = some w.session_key := by
    intro q w hw hwc
    have hheld := (h.keys q).peerKey w hw (by simp [hwc, HasKey])
    have hown := (h.keys q).ownKey w hw
    have hderived : KeyDerived u.ssl w := h.derived q w hw (by simp [hwc, HasKey])
    rw [KeyDerived, hown, hheld.2] at hderived
    exact ⟨hown, hheld.2, hderived⟩
  obtain ⟨-, hsheld, hsderived⟩ := hkey p s hs hsc
  obtain ⟨htown, -, htderived⟩ := hkey p.other t ht htc
  refine ⟨by rw [hsheld, htown]; rfl, ?_⟩
  obtain ⟨z, hz, hz'⟩ := hecdh (u.key p) (u.key p.other)
  rw [Side.other_other] at htderived
  have hs' : some s.session_key = some (nist_800_kdf u.ssl z) := by
    rw [← hsderived, sessionKeyOf, Setup.pub, hz]
    rfl
  have ht' : some t.session_key = some (nist_800_kdf u.ssl z) := by
    rw [← htderived, sessionKeyOf, Setup.pub, hz']
    rfl
  exact Option.some.inj (hs'.trans ht'.symm)

end Invariant

/-! ## Which records are old -/

/-- The event starts a handshake: its party draws a new nonce. -/
def Starts (u : Setup K) (n : Net K) : NetEvent K → Prop
  | .initSession p _ => ∃ s ∈ n.session u p, s.status ≠ .waitKeyNonceHDest
  | .deliver p r _ | .inject p r _ =>
      r.type = .alert ∧ ∃ s ∈ n.session u p, s.iAmSessionInitiator = true

instance (u : Setup K) (n : Net K) : (e : NetEvent K) → Decidable (Starts u n e)
  | .initSession p _ =>
      inferInstanceAs (Decidable (∃ s ∈ n.session u p, s.status ≠ .waitKeyNonceHDest))
  | .deliver p r _ | .inject p r _ => inferInstanceAs (Decidable
      (r.type = .alert ∧ ∃ s ∈ n.session u p, s.iAmSessionInitiator = true))

/-- The states in which the nonce of the peer is in hand that a connected party
ends up with. -/
def HoldsNonce (status : State) : Prop := status = .waitKeyDest ∨ status = .connected

instance (status : State) : Decidable (HoldsNonce status) := inferInstanceAs (Decidable (_ ∨ _))

/-- The network, and the records of each party that are not old. -/
structure Dated (K : Type) where
  net : Net K
  recent : Side → List SmkexT4mRecord

/-- A handshake that is started makes old what its party has sent, and what the
peer has sent if the peer has taken a nonce from it. -/
def recentAfter (u : Setup K) (d : Dated K) (e : NetEvent K) (n' : Net K) (p : Side) :
    List SmkexT4mRecord :=
  let new := (n'.sent p).drop (d.net.sent p).length
  if Starts u d.net e ∧ (p = e.side ∨ ∃ s ∈ d.net.session u p, HoldsNonce s.status) then new
  else d.recent p ++ new

def Dated.step (u : Setup K) (d : Dated K) (e : NetEvent K) : Option (Dated K) :=
  (d.net.step u e).map fun n' => ⟨n', recentAfter u d e n'⟩

/-- The records that bring a waiting party closer to being connected. -/
def Uses : State → SMKEX_T4M_Type → Prop
  | .waitKeyNonceHDest, .handshakeKey | .waitKeyNonceHDest, .handshakeNonce => True
  | .waitNonceHDest, .handshakeNonceH | .waitNonce2HInit, .handshakeNonceH => True
  | _, _ => False

instance (status : State) (type : SMKEX_T4M_Type) : Decidable (Uses status type) := by
  unfold Uses
  split <;> infer_instance

/-- A record that is used is not an old one. -/
def Timely (u : Setup K) (d : Dated K) : NetEvent K → Prop
  | .deliver p r _ => ∀ s ∈ d.net.session u p, Uses s.status r.type → r ∈ d.recent p.other
  | _ => True

instance (u : Setup K) (d : Dated K) : (e : NetEvent K) → Decidable (Timely u d e)
  | .deliver p r _ => inferInstanceAs (Decidable
      (∀ s ∈ d.net.session u p, Uses s.status r.type → r ∈ d.recent p.other))
  | .initSession _ _ | .inject _ _ _ => isTrue trivial

/-! ## What a party does with nonces -/

/-- The records that carry a nonce carry this one. -/
def Carry (nonce : Nonce) (records : List SmkexT4mRecord) : Prop :=
  ∀ q ∈ records, q.type = .handshakeNonce ∨ q.type = .handshakeNonceH → nonce.1 <+: q.data

/-- None of the records could take a party out of the state it waits in after it
has started a handshake. -/
def NothingToUse (records : List SmkexT4mRecord) : Prop :=
  ∀ q ∈ records, q.type ≠ .handshakeKey ∧ q.type ≠ .handshakeNonce

/-- How a session goes on in a handshake that it does not start again. -/
structure Continues (env : Env K) (s : SmkexSessionInfo K) (r : SmkexT4mRecord)
    (s' : SmkexSessionInfo K) (records : List SmkexT4mRecord) : Prop where
  nonce : s'.local_nonce = s.local_nonce
  carry : Carry s.local_nonce records
  initiator : s'.status = .waitKeyNonceHDest →
    s.status = .waitKeyNonceHDest ∧ s'.iAmSessionInitiator = s.iAmSessionInitiator
  held : HoldsNonce s'.status →
    HoldsNonce s.status ∧ s'.remoteNonce = s.remoteNonce ∧ NothingToUse records ∨
      Uses s.status r.type ∧ (r.type = .handshakeNonce ∨ r.type = .handshakeNonceH) ∧
        s'.remoteNonce = (nonced env s r).remoteNonce
  waits : s.status = .waitKeyNonceHDest → r.type ≠ .alert → ¬ Uses s.status r.type →
    s'.status = .waitKeyNonceHDest

section Session

variable {ssl : OpenSSL K} {env : Env K} {buddy : MpString} {s s' : SmkexSessionInfo K}
  {r : SmkexT4mRecord} {records : List SmkexT4mRecord}

theorem carry_append {nonce : Nonce} {l₁ l₂ : List SmkexT4mRecord} :
    Carry nonce (l₁ ++ l₂) ↔ Carry nonce l₁ ∧ Carry nonce l₂ := List.forall_mem_append

theorem carry_of_types {nonce : Nonce}
    (h : ∀ q ∈ records, q.type ≠ .handshakeNonce ∧ q.type ≠ .handshakeNonceH) :
    Carry nonce records := by
  intro q hq htype
  rcases htype with htype | htype
  · exact absurd htype (h q hq).1
  · exact absurd htype (h q hq).2

theorem carry_nonceH (hsize : ∀ bs, (ssl.sha256 bs).length = 32) :
    Carry s.local_nonce (nonceHRecords ssl env buddy s) := by
  intro q hq _
  exact ⟨_, (nonceHRecords_data hsize hq).symm⟩

theorem carry_concluded {nonce : Nonce} {v : SmkexSessionInfo K} :
    Carry nonce (concluded ssl env buddy v).2 :=
  carry_of_types fun q hq => by simp [concluded_type hq]

/-- A handshake that is started is started with its nonce. -/
theorem carry_restarted : Carry (restarted ssl env buddy s).1.local_nonce
    (restarted ssl env buddy s).2 := by
  by_cases hstatus : s.status = .waitKeyNonceHDest
  · rw [restarted_waiting hstatus]
    exact fun q hq => absurd hq (List.not_mem_nil)
  · rw [restarted_anew hstatus]
    intro q hq htype
    rcases List.mem_cons.1 hq with rfl | hq
    · rcases htype with htype | htype <;> cases htype
    · have hdata := buildRecord_data env buddy .handshakeNonce (by rw [env.nonce.2]; decide)
      rw [List.mem_singleton.1 hq]
      exact ⟨[], by rw [List.append_nil, hdata]⟩

@[simp] theorem concluded_local_nonce (v : SmkexSessionInfo K) :
    (concluded ssl env buddy v).1.local_nonce = v.local_nonce := by
  unfold concluded
  split <;> rfl

theorem concluded_ne_waiting (v : SmkexSessionInfo K) :
    (concluded ssl env buddy v).1.status ≠ .waitKeyNonceHDest := by
  unfold concluded
  split <;> simp

private theorem answer_local_nonce (h : Answer ssl env buddy s r s' records)
    (hstart : ¬ (r.type = .alert ∧ s.iAmSessionInitiator = true)) :
    s'.local_nonce = s.local_nonce := by
  cases h with
  | alertRestart type initiator => exact absurd ⟨type, initiator⟩ hstart
  | keyLast | nonceHToInitiator | nonceHToResponder =>
      rw [concluded_local_nonce]
      rfl
  | keyFirst | keyToInitiator | keyRenewed | keyIgnored | nonceToResponder | nonceToInitiator
  | nonceRenewed | nonceRefused | nonceHEarly | nonceHIgnored | alertIdle | dataIgnored => rfl

private theorem answer_carry (hsize : ∀ bs, (ssl.sha256 bs).length = 32)
    (h : Answer ssl env buddy s r s' records)
    (hstart : ¬ (r.type = .alert ∧ s.iAmSessionInitiator = true)) :
    Carry s.local_nonce records := by
  have hnil : Carry s.local_nonce [] := fun q hq => absurd hq List.not_mem_nil
  cases h with
  | alertRestart type initiator => exact absurd ⟨type, initiator⟩ hstart
  | keyFirst | nonceRefused =>
      refine carry_of_types fun q hq => ?_
      rw [List.mem_singleton.1 hq]
      constructor <;> simp [keyRecord, buildRecord, getSmkexT4mRecord2]
  | keyLast => exact carry_append.2 ⟨carry_nonceH (s := keyed ssl s r) hsize, carry_concluded⟩
  | nonceToResponder => exact carry_nonceH (s := nonced env s r) hsize
  | nonceHToInitiator => exact carry_append.2 ⟨carry_nonceH hsize, carry_concluded⟩
  | nonceHToResponder => exact carry_concluded
  | keyToInitiator | keyRenewed | keyIgnored | nonceToInitiator | nonceRenewed | nonceHEarly
  | nonceHIgnored | alertIdle | dataIgnored => exact hnil

private theorem answer_initiator (h : Answer ssl env buddy s r s' records)
    (hstart : ¬ (r.type = .alert ∧ s.iAmSessionInitiator = true))
    (hs' : s'.status = .waitKeyNonceHDest) :
    s.status = .waitKeyNonceHDest ∧ s'.iAmSessionInitiator = s.iAmSessionInitiator := by
  cases h with
  | alertRestart type initiator => exact absurd ⟨type, initiator⟩ hstart
  | keyLast | nonceHToInitiator | nonceHToResponder =>
      exact absurd hs' (concluded_ne_waiting _)
  | keyIgnored | nonceHEarly | nonceHIgnored | dataIgnored => exact ⟨hs', rfl⟩
  | keyFirst | keyToInitiator | keyRenewed | nonceToResponder | nonceToInitiator
  | nonceRenewed | nonceRefused | alertIdle => cases hs'

private theorem answer_held (h : Answer ssl env buddy s r s' records)
    (hs' : HoldsNonce s'.status) :
    HoldsNonce s.status ∧ s'.remoteNonce = s.remoteNonce ∧ NothingToUse records ∨
      Uses s.status r.type ∧ (r.type = .handshakeNonce ∨ r.type = .handshakeNonceH) ∧
        s'.remoteNonce = (nonced env s r).remoteNonce := by
  have hnil : NothingToUse [] := fun q hq => absurd hq List.not_mem_nil
  have conclude : ∀ v : SmkexSessionInfo K,
      (concluded ssl env buddy v).1.remoteNonce = v.remoteNonce := by
    intro v
    unfold SmkexSessionInfo.remoteNonce
    rw [concluded_remote_nonce]
  cases h with
  | keyLast type status =>
      refine Or.inl ⟨Or.inl status, conclude _, ?_⟩
      intro q hq
      rcases List.mem_append.1 hq with hq | hq
      · simp [nonceHRecords_type hq]
      · simp [concluded_type hq]
  | nonceToInitiator type status => exact Or.inr ⟨by simp [Uses, type, status], Or.inl type, rfl⟩
  | nonceHToInitiator type status =>
      exact Or.inr ⟨by simp [Uses, type, status], Or.inr type, conclude _⟩
  | nonceHToResponder type status =>
      exact Or.inr ⟨by simp [Uses, type, status], Or.inr type, conclude _⟩
  | keyIgnored | nonceHIgnored | dataIgnored => exact Or.inl ⟨hs', rfl, hnil⟩
  | nonceHEarly _ status =>
      have hwaiting : HoldsNonce s.status := hs'
      simp [HoldsNonce, status] at hwaiting
  | alertRestart =>
      rw [restarted_status] at hs'
      simp [HoldsNonce] at hs'
  | keyFirst | keyToInitiator | keyRenewed | nonceToResponder | nonceRenewed | nonceRefused
  | alertIdle => simp [HoldsNonce, rekeyed] at hs'

private theorem answer_waits (h : Answer ssl env buddy s r s' records)
    (hs : s.status = .waitKeyNonceHDest) (htype : r.type ≠ .alert)
    (huses : ¬ Uses s.status r.type) : s'.status = .waitKeyNonceHDest := by
  cases h with
  | keyToInitiator type | nonceToInitiator type => exact absurd (by simp [Uses, hs, type]) huses
  | alertRestart type | alertIdle type => exact absurd type htype
  | nonceHEarly | dataIgnored | keyIgnored | nonceHIgnored => exact hs
  | keyFirst _ status | keyLast _ status | keyRenewed _ status | nonceToResponder _ status
  | nonceRenewed _ status | nonceHToInitiator _ status | nonceHToResponder _ status =>
      rw [hs] at status
      cases status
  | nonceRefused _ status => simp [hs] at status

/-- **What an answer does with nonces**, unless it starts a handshake. -/
theorem continues_of_answer (hsize : ∀ bs, (ssl.sha256 bs).length = 32)
    (h : Answer ssl env buddy s r s' records)
    (hstart : ¬ (r.type = .alert ∧ s.iAmSessionInitiator = true)) :
    Continues env s r s' records where
  nonce := answer_local_nonce h hstart
  carry := answer_carry hsize h hstart
  initiator := answer_initiator h hstart
  held := answer_held h
  waits := answer_waits h

end Session

/-! ## One event of the network -/

/-- What an event does to its party, as far as nonces go. -/
inductive Turn (u : Setup K) (n : Net K) (e : NetEvent K) (n' : Net K) : Prop where
  | ended (ended : n'.party e.side = none) (sent : n'.sent e.side = n.sent e.side)
  | started (s' : SmkexSessionInfo K) (records : List SmkexT4mRecord) (starts : Starts u n e)
      (after : n'.session u e.side = some s') (sent : n'.sent e.side = n.sent e.side ++ records)
      (waiting : s'.status = .waitKeyNonceHDest) (initiator : s'.iAmSessionInitiator = true)
      (carry : Carry s'.local_nonce records)
  | waited (s : SmkexSessionInfo K) (keeps : ¬ Starts u n e)
      (before : n.session u e.side = some s) (waiting : s.status = .waitKeyNonceHDest)
      (after : n'.session u e.side = some { s with iAmSessionInitiator := true })
      (sent : n'.sent e.side = n.sent e.side)
  | continued (env : Env K) (r : SmkexT4mRecord) (s s' : SmkexSessionInfo K)
      (records : List SmkexT4mRecord) (keeps : ¬ Starts u n e) (brings : e.Brings n r env)
      (before : n.session u e.side = some s ∨ n.session u e.side = none ∧
        s = SmkexSessionInfo.new (u.env e.side env).fresh)
      (after : n'.session u e.side = some s') (sent : n'.sent e.side = n.sent e.side ++ records)
      (alert : ¬ (r.type = .alert ∧ s.iAmSessionInitiator = true))
      (continues : Continues (u.env e.side env) s r s' records)

section Step

variable {u : Setup K} {n n' : Net K} {e : NetEvent K}

theorem starts_of_brings {r : SmkexT4mRecord} {env : Env K} (h : e.Brings n r env) :
    Starts u n e ↔
      r.type = .alert ∧ ∃ s ∈ n.session u e.side, s.iAmSessionInitiator = true := by
  rcases h with ⟨he, -⟩ | ⟨he, -⟩ <;> rw [he] <;> rfl

theorem turn_of_step (hsize : ∀ bs, (u.ssl.sha256 bs).length = 32)
    (h : n.step u e = some n') : Turn u n e n' := by
  cases step_cases h with
  | exited ended sent _ => exact .ended ended sent
  | started env s event before after sent =>
      by_cases hstatus : s.status = .waitKeyNonceHDest
      · rw [restarted_waiting hstatus] at after sent
        rw [List.append_nil] at sent
        refine .waited s ?_ before hstatus after sent
        rw [event]
        rintro ⟨t, ht, hne⟩
        rw [event] at before
        have hst : t = s := Option.some.inj (ht.symm.trans before)
        exact hne (hst ▸ hstatus)
      · refine .started _ _ ?_ after sent (restarted_status s) (restarted_initiator s)
          carry_restarted
        rw [event] at before ⊢
        exact ⟨s, before, hstatus⟩
  | answered env r s s' records brings before answer after sent =>
      by_cases halert : r.type = .alert ∧ s.iAmSessionInitiator = true
      · have hbefore : n.session u e.side = some s := by
          rcases before with before | ⟨-, rfl⟩
          · exact before
          · cases halert.2
        have hanswer := answer.unique (.alertRestart halert.1 halert.2)
        refine .started s' records ((starts_of_brings brings).2 ⟨halert.1, s, hbefore, halert.2⟩)
          after sent ?_ ?_ ?_
        · rw [hanswer.1]
          exact restarted_status _
        · rw [hanswer.1]
          exact restarted_initiator _
        · rw [hanswer.1, hanswer.2]
          exact carry_restarted
      · refine .continued env r s s' records ?_ brings before after sent halert
          (continues_of_answer hsize answer halert)
        rw [starts_of_brings brings]
        rintro ⟨htype, t, ht, hinitiator⟩
        have hsession : n.session u e.side = some t := ht
        rcases before with before | ⟨before, -⟩ <;> rw [hsession] at before <;> cases before
        exact halert ⟨htype, hinitiator⟩

/-! ### The records that are not old -/

variable {d d' : Dated K} {p : Side} {records : List SmkexT4mRecord}

private theorem recent_started (starts : Starts u d.net e)
    (sent : n'.sent e.side = d.net.sent e.side ++ records) :
    recentAfter u d e n' e.side = records := by
  rw [recentAfter, sent, List.drop_left]
  exact if_pos ⟨starts, Or.inl rfl⟩

private theorem recent_kept (keeps : ¬ Starts u d.net e)
    (sent : n'.sent p = d.net.sent p ++ records) :
    recentAfter u d e n' p = d.recent p ++ records := by
  rw [recentAfter, sent, List.drop_left]
  exact if_neg fun h => keeps h.1

/-- Of the other party's records, a handshake makes all old or none. -/
private theorem recent_other (hstep : d.net.step u e = some n') (hp : p ≠ e.side) :
    recentAfter u d e n' p =
      if Starts u d.net e ∧ ∃ s ∈ d.net.session u p, HoldsNonce s.status then []
      else d.recent p := by
  have hsent := (step_other hstep hp).2
  rw [recentAfter, hsent, List.drop_length, List.append_nil]
  simp only [hp, false_or]

private theorem recent_other_subset (hstep : d.net.step u e = some n') (hp : p ≠ e.side)
    {r : SmkexT4mRecord} (hr : r ∈ recentAfter u d e n' p) : r ∈ d.recent p := by
  rw [recent_other hstep hp] at hr
  split at hr
  · cases hr
  · exact hr

end Step

/-! ## The invariant -/

/-- What is known of nonces in a run in which no old record is used.  The first
four clauses say what the records that are not old carry; the last one says that
a nonce in hand is the peer's, or that the peer has drawn another one and waits
for a record it will not get. -/
structure Present (u : Setup K) (d : Dated K) : Prop where
  sent : ∀ p, ∀ r ∈ d.recent p, r ∈ d.net.sent p
  carry : ∀ p s, d.net.session u p = some s → Carry s.local_nonce (d.recent p)
  sender : ∀ p, d.net.sent p ≠ [] → d.net.party p = none ∨ ∃ s, d.net.session u p = some s
  initiator : ∀ p s, d.net.session u p = some s → s.status = .waitKeyNonceHDest →
    s.iAmSessionInitiator = true
  held : ∀ p s, d.net.session u p = some s → HoldsNonce s.status →
    d.net.party p.other = none ∨ ∃ t, d.net.session u p.other = some t ∧
      (s.remoteNonce = t.local_nonce.1 ∨
        t.status = .waitKeyNonceHDest ∧ NothingToUse (d.recent p))

section Invariant

variable {u : Setup K} {n n' : Net K} {d d' : Dated K} {e : NetEvent K}

theorem Present.initial (h : n.Initial u) : Present u ⟨n, fun _ => []⟩ where
  sent p r hr := by cases hr
  carry p s _ q hq := by cases hq
  sender p hp := absurd (h.silent p) hp
  initiator p s hs hwaiting := by
    obtain ⟨c, -, rfl⟩ := h.fresh p s hs
    cases hwaiting
  held p s hs hholds := by
    obtain ⟨c, -, rfl⟩ := h.fresh p s hs
    rcases hholds with hholds | hholds <;> cases hholds

/-- A record that is used is not old. -/
private theorem used (he : ByNetwork e) (htimely : Timely u d e) {r : SmkexT4mRecord}
    {env : Env K} {s : SmkexSessionInfo K} (brings : e.Brings d.net r env)
    (hs : d.net.session u e.side = some s) (huses : Uses s.status r.type) :
    r ∈ d.recent e.side.other := by
  rcases brings with ⟨hdeliver, -⟩ | ⟨hinject, -⟩
  · rw [hdeliver] at htimely
    exact htimely s hs huses
  · exact absurd hinject (he _ _ _)

/-- A party without a session has sent nothing. -/
private theorem Present.recent_eq_nil (h : Present u d) (hn : d.net.step u e = some n')
    (hs : d.net.session u e.side = none) : d.recent e.side = [] := by
  obtain ⟨keychain, hparty⟩ := party_of_step hn
  rw [List.eq_nil_iff_forall_not_mem]
  intro r hr
  have hne : d.net.sent e.side ≠ [] := List.ne_nil_of_mem (h.sent _ r hr)
  rcases h.sender _ hne with hnone | ⟨s, hsome⟩
  · rw [hparty] at hnone
    cases hnone
  · rw [hs] at hsome
    cases hsome

private theorem Present.step_sent (h : Present u d) (hn : d.net.step u e = some n')
    (hturn : Turn u d.net e n') (p : Side) : ∀ r ∈ recentAfter u d e n' p, r ∈ n'.sent p := by
  intro r hr
  have hgrows : ∃ records, n'.sent p = d.net.sent p ++ records := by
    by_cases hp : p = e.side
    · subst hp
      cases hturn with
      | ended _ sent | waited _ _ _ _ _ sent => exact ⟨[], by rw [sent, List.append_nil]⟩
      | started _ records _ _ sent | continued _ _ _ _ records _ _ _ _ sent =>
          exact ⟨records, sent⟩
    · exact ⟨[], by rw [(step_other hn hp).2, List.append_nil]⟩
  obtain ⟨records, hsent⟩ := hgrows
  unfold recentAfter at hr
  dsimp only at hr
  rw [hsent, List.drop_left] at hr
  rw [hsent]
  split at hr
  · exact List.mem_append_right _ hr
  · exact (List.mem_append.1 hr).elim (fun hr => List.mem_append_left _ (h.sent p r hr))
      (List.mem_append_right _)

private theorem Present.step_carry (h : Present u d) (hn : d.net.step u e = some n')
    (hturn : Turn u d.net e n') (p : Side) (s : SmkexSessionInfo K)
    (hs : n'.session u p = some s) : Carry s.local_nonce (recentAfter u d e n' p) := by
  by_cases hp : p = e.side
  · subst hp
    cases hturn with
    | ended ended _ =>
        rw [session_of_ended ended] at hs
        cases hs
    | started s' records starts after sent _ _ carry =>
        rw [recent_started starts sent]
        rw [after] at hs
        cases hs
        exact carry
    | waited t keeps before _ after sent =>
        have hsent : n'.sent e.side = d.net.sent e.side ++ [] := by rw [sent, List.append_nil]
        rw [recent_kept keeps hsent, List.append_nil]
        rw [after] at hs
        cases hs
        exact h.carry _ t before
    | continued env r t s' records keeps _ before after sent _ continues =>
        rw [recent_kept keeps sent]
        rw [after] at hs
        cases hs
        rw [continues.nonce]
        refine carry_append.2 ⟨?_, continues.carry⟩
        rcases before with before | ⟨before, -⟩
        · exact h.carry _ t before
        · rw [h.recent_eq_nil hn before]
          exact fun q hq => absurd hq List.not_mem_nil
  · rw [(step_other hn hp).1] at hs
    exact fun q hq => h.carry p s hs q (recent_other_subset hn hp hq)

private theorem Present.step_sender (h : Present u d) (hn : d.net.step u e = some n')
    (hturn : Turn u d.net e n') (p : Side) (hsent : n'.sent p ≠ []) :
    n'.party p = none ∨ ∃ s, n'.session u p = some s := by
  by_cases hp : p = e.side
  · subst hp
    cases hturn with
    | ended ended _ => exact Or.inl ended
    | started s' _ _ after => exact Or.inr ⟨s', after⟩
    | waited _ _ _ _ after => exact Or.inr ⟨_, after⟩
    | continued _ _ _ s' _ _ _ _ after => exact Or.inr ⟨s', after⟩
  · rw [(party_other hn hp).1, (step_other hn hp).1]
    rw [(step_other hn hp).2] at hsent
    exact h.sender p hsent

private theorem Present.step_initiator (h : Present u d) (hn : d.net.step u e = some n')
    (hturn : Turn u d.net e n') (p : Side) (s : SmkexSessionInfo K)
    (hs : n'.session u p = some s) (hwaiting : s.status = .waitKeyNonceHDest) :
    s.iAmSessionInitiator = true := by
  by_cases hp : p = e.side
  · subst hp
    cases hturn with
    | ended ended _ =>
        rw [session_of_ended ended] at hs
        cases hs
    | started s' _ _ after _ _ initiator =>
        rw [after] at hs
        cases hs
        exact initiator
    | waited _ _ _ _ after =>
        rw [after] at hs
        cases hs
        rfl
    | continued env r t s' records _ _ before after _ _ continues =>
        rw [after] at hs
        cases hs
        obtain ⟨hstatus, hsame⟩ := continues.initiator hwaiting
        rw [hsame]
        rcases before with before | ⟨-, rfl⟩
        · exact h.initiator _ t before hstatus
        · cases hstatus
  · rw [(step_other hn hp).1] at hs
    exact h.initiator p s hs hwaiting

/-- The party of the event, if it holds a nonce afterwards, has the peer's. -/
private theorem Present.step_held (h : Present u d) (he : ByNetwork e) (htimely : Timely u d e)
    (hn : d.net.step u e = some n') (hturn : Turn u d.net e n') (s : SmkexSessionInfo K)
    (hs : n'.session u e.side = some s) (hholds : HoldsNonce s.status) :
    n'.party e.side.other = none ∨ ∃ t, n'.session u e.side.other = some t ∧
      (s.remoteNonce = t.local_nonce.1 ∨
        t.status = .waitKeyNonceHDest ∧ NothingToUse (recentAfter u d e n' e.side)) := by
  have hother := Side.other_ne e.side
  rw [(party_other hn hother).1, (step_other hn hother).1]
  cases hturn with
  | ended ended _ =>
      rw [session_of_ended ended] at hs
      cases hs
  | started s' _ _ after _ waiting =>
      rw [after] at hs
      cases hs
      rcases hholds with hholds | hholds <;> rw [waiting] at hholds <;> cases hholds
  | waited t _ _ waiting after =>
      rw [after] at hs
      cases hs
      have hstatus : HoldsNonce t.status := hholds
      rcases hstatus with hstatus | hstatus <;> rw [waiting] at hstatus <;> cases hstatus
  | continued env r w s' records keeps brings before after sent _ continues =>
      rw [after] at hs
      cases hs
      have hbefore : HoldsNonce w.status ∨ Uses w.status r.type →
          d.net.session u e.side = some w := by
        rcases before with before | ⟨-, rfl⟩
        · exact fun _ => before
        · rintro (hstatus | huses)
          · rcases hstatus with hstatus | hstatus <;> cases hstatus
          · exact huses.elim
      rcases continues.held hholds with ⟨hstatus, hnonce, hrecords⟩ | ⟨huses, htype, hnonce⟩
      · -- nothing has changed: neither the nonce nor what the peer waits for
        rcases h.held _ w (hbefore (Or.inl hstatus)) hstatus with hgone | ⟨t, ht, hcase⟩
        · exact Or.inl hgone
        · refine Or.inr ⟨t, ht, hcase.imp (fun hw => hnonce.trans hw) ?_⟩
          rintro ⟨hwaiting, hnothing⟩
          rw [recent_kept keeps sent]
          exact ⟨hwaiting, List.forall_mem_append.2 ⟨hnothing, hrecords⟩⟩
      · -- the nonce comes from a record that is not old
        have hr := used he htimely brings (hbefore (Or.inr huses)) huses
        rcases h.sender _ (List.ne_nil_of_mem (h.sent _ r hr)) with hgone | ⟨t, ht⟩
        · exact Or.inl hgone
        · refine Or.inr ⟨t, ht, Or.inl ?_⟩
          rw [hnonce]
          exact nonced_remoteNonce (h.carry _ t ht r hr htype)

/-- The nonce that the other party holds stays the present one of the party of the
event, or that party has drawn another and waits. -/
private theorem Present.step_other_held (h : Present u d) (he : ByNetwork e)
    (htimely : Timely u d e) (hn : d.net.step u e = some n') (hturn : Turn u d.net e n')
    (s : SmkexSessionInfo K) (hs : d.net.session u e.side.other = some s)
    (hholds : HoldsNonce s.status) :
    n'.party e.side = none ∨ ∃ t, n'.session u e.side = some t ∧
      (s.remoteNonce = t.local_nonce.1 ∨
        t.status = .waitKeyNonceHDest ∧ NothingToUse (recentAfter u d e n' e.side.other)) := by
  have hother := Side.other_ne e.side
  obtain ⟨keychain, hparty⟩ := party_of_step hn
  have hheld := h.held _ s hs hholds
  rw [Side.other_other, hparty] at hheld
  obtain ⟨t, ht, hcase⟩ := hheld.resolve_left (by simp)
  have hkept : ¬ Starts u d.net e →
      recentAfter u d e n' e.side.other = d.recent e.side.other := by
    intro keeps
    rw [recent_other hn hother]
    exact if_neg fun hstarts => keeps hstarts.1
  cases hturn with
  | ended ended _ => exact Or.inl ended
  | started s' _ starts after _ waiting =>
      refine Or.inr ⟨s', after, Or.inr ⟨waiting, ?_⟩⟩
      rw [recent_other hn hother, if_pos ⟨starts, s, hs, hholds⟩]
      exact fun q hq => absurd hq List.not_mem_nil
  | waited w keeps before waiting after =>
      rw [ht] at before
      cases before
      rw [hkept keeps]
      exact Or.inr ⟨_, after, hcase⟩
  | continued env r w s' records keeps brings before after _ alert continues =>
      have hw : t = w := by
        rcases before with before | ⟨before, -⟩ <;> rw [ht] at before <;> cases before
        rfl
      subst hw
      rw [hkept keeps]
      refine Or.inr ⟨s', after, hcase.imp (fun hnonce => ?_) ?_⟩
      · rw [continues.nonce]
        exact hnonce
      · rintro ⟨hwaiting, hnothing⟩
        refine ⟨continues.waits hwaiting ?_ ?_, hnothing⟩
        · exact fun htype => alert ⟨htype, h.initiator _ t ht hwaiting⟩
        · intro huses
          have hr := used he htimely brings ht huses
          have hne := hnothing r hr
          rw [hwaiting] at huses
          unfold Uses at huses
          split at huses
          · next heq => exact hne.1 heq
          · next heq => exact hne.2 heq
          · next hstatus _ => cases hstatus
          · next hstatus _ => cases hstatus
          · exact huses

/-- **An event that uses no old record keeps the nonces in place.** -/
theorem Present.step (hsize : ∀ bs, (u.ssl.sha256 bs).length = 32) (h : Present u d)
    (he : ByNetwork e) (htimely : Timely u d e) (hstep : d.step u e = some d') :
    Present u d' := by
  obtain ⟨n', hn, rfl⟩ := Option.map_eq_some_iff.1 hstep
  have hturn := turn_of_step hsize hn
  refine ⟨h.step_sent hn hturn, h.step_carry hn hturn, h.step_sender hn hturn,
    h.step_initiator hn hturn, ?_⟩
  intro p s hs hholds
  by_cases hp : p = e.side
  · subst hp
    exact h.step_held he htimely hn hturn s hs hholds
  · rw [(step_other hn hp).1] at hs
    have hside := Side.eq_other hp
    subst hside
    rw [Side.other_other]
    exact h.step_other_held he htimely hn hturn s hs hholds

/-- Parties whose nonces are in place agree, since they agree on the keys. -/
theorem Present.agreed (hecdh : EcdhAgrees u.ssl) (h : Present u d) (hkeys : Inv u d.net) :
    Agreed u d.net := by
  intro p s t hs ht hsc htc
  obtain ⟨hkey, hsession⟩ := hkeys.agreed hecdh hs ht hsc htc
  refine ⟨hkey, ?_, hsession⟩
  rcases h.held p s hs (Or.inr hsc) with hgone | ⟨t', ht', hcase⟩
  · rw [session_of_ended hgone] at ht
    cases ht
  · rw [ht] at ht'
    cases ht'
    rcases hcase with hnonce | ⟨hwaiting, -⟩
    · exact hnonce
    · rw [htc] at hwaiting
      cases hwaiting

end Invariant

/-! ## Runs -/

/-- One event of the dated network.  Nothing is known of what follows a copy that
leaves its buffer. -/
abbrev datedStep (u : Setup K) : Dated K → NetEvent K × Option (Dated K) → Option (Dated K) :=
  havoc (fun d e => EventStays u d.net e) (Dated.step u)

/-- **Agreement.**  In every run of two honest parties over a network that
invents nothing, in which no record of an earlier handshake is used in a later
one and no copy leaves its buffer, two connected parties agree on both keys, both
nonces and the session key in every state. -/
theorem agreement (u : Setup K) (hecdh : EcdhAgrees u.ssl)
    (hsize : ∀ bs, (u.ssl.sha256 bs).length = 32) (n : Net K) (hinit : n.Initial u)
    (es : List (NetEvent K × Option (Dated K))) (hnet : ∀ e ∈ es, ByNetwork e.1)
    (htimely : Steps (datedStep u) (fun d e _ => EventStays u d.net e.1 ∧ Timely u d e.1)
      ⟨n, fun _ => []⟩ es) :
    Steps (datedStep u) (fun _ _ d' => Agreed u d'.net) ⟨n, fun _ => []⟩ es := by
  have hsteps : Steps (datedStep u)
      (fun d e _ => EventStays u d.net e.1 ∧ Timely u d e.1 ∧ ByNetwork e.1)
        ⟨n, fun _ => []⟩ es :=
    htimely.combine (fun _ _ _ h he => ⟨h.1, h.2, he⟩) (steps_of_forall hnet)
  refine steps_havoc_of_inv (I := fun d => Inv u d.net ∧ Present u d)
    (C := fun d e _ => Timely u d e ∧ ByNetwork e) (Q := fun _ _ d' => Agreed u d'.net)
    (fun d e d' hd _ hstep hc => ?_) ⟨Inv.initial hinit, Present.initial hinit⟩ hsteps
  obtain ⟨n', hn, rfl⟩ := Option.map_eq_some_iff.1 hstep
  have hkeys := hd.1.step hecdh hc.2 hn
  have hpresent := hd.2.step hsize hc.2 hc.1 hstep
  exact ⟨⟨hkeys, hpresent⟩, hpresent.agreed hecdh hkeys⟩

/-! ## Stale nonces -/

theorem sampleOpenSSL_ecdh : EcdhAgrees sampleOpenSSL := by
  intro a b
  refine ⟨[a * b], rfl, ?_⟩
  rw [UInt8.mul_comm]
  rfl

/-- A handshake in which every record arrives once and in order. -/
def exchange (bobsNonceH alicesNonceH : SmkexT4mRecord) : List (NetEvent UInt8) :=
  [.initSession .alice (sampleEnv 1 11),
    .deliver .bob alicesKey (sampleEnv 2 12),
    .deliver .bob alicesNonce (sampleEnv 2 12),
    .deliver .alice bobsKey (sampleEnv 1 11),
    .deliver .alice bobsNonceH (sampleEnv 1 11),
    .deliver .bob alicesNonceH (sampleEnv 2 12)]

/-- Both parties are connected at its end, and agree. -/
theorem agreement_exchange :
    let es : List (NetEvent UInt8 × Option (Dated UInt8)) :=
      plain (exchange bobsDigest alicesDigest)
    ((exec (datedStep digestSetup) ⟨sampleNet, fun _ => []⟩ es).map fun d =>
        ((d.net.session digestSetup .alice).map (·.status),
          (d.net.session digestSetup .bob).map (·.status))) =
      some (some .connected, some .connected) ∧
    Steps (datedStep digestSetup) (fun _ _ d' => Agreed digestSetup d'.net)
      ⟨sampleNet, fun _ => []⟩ es := by
  intro es
  refine ⟨by decide +kernel, agreement digestSetup sampleOpenSSL_ecdh
    (fun _ => List.length_replicate) sampleNet ⟨sampleNet_initial.fresh, sampleNet_initial.silent⟩
    es ?_ (by decide +kernel)⟩
  simp [es, plain, exchange, ByNetwork]

/-- Alice starts again; what she sends is lost, and what bob sent before is
delivered once more. -/
def staleExchange : List (NetEvent UInt8) :=
  exchange (bobsNonceH (sampleSetup.pub .alice)) alicesNonceH ++
    [.initSession .alice (sampleEnv 1 21), .deliver .alice bobsKey (sampleEnv 1 21)]

def staleNonceH : NetEvent UInt8 :=
  .deliver .alice (bobsNonceH (sampleSetup.pub .alice)) (sampleEnv 1 21)

/-- Bob's old nonce and hash connect alice, whose own nonce is new.  No copy
leaves its buffer. -/
theorem stale_nonce_connects :
    ¬ ∀ (n : Net UInt8) (es : List (NetEvent UInt8 × Option (Net UInt8))),
      n.Initial sampleSetup → (∀ e ∈ es, ByNetwork e.1) →
        Defined (EventStays sampleSetup) (Net.step sampleSetup) n es →
          Steps (netStep sampleSetup) (fun _ _ n' => Agreed sampleSetup n') n es := by
  intro hall
  have hnet : ∀ e ∈ (plain staleExchange ++ [(staleNonceH, none)] :
      List (NetEvent UInt8 × Option (Net UInt8))), ByNetwork e.1 := by
    simp [plain, staleExchange, staleNonceH, exchange, ByNetwork]
  have hsteps := hall sampleNet _ sampleNet_initial hnet (by decide +kernel)
  have hrun : ((exec (netStep sampleSetup) sampleNet (plain staleExchange)).bind fun n =>
      (netStep sampleSetup n (staleNonceH, none)).map fun n' =>
        ((n'.session sampleSetup .alice).map fun s => (s.status, s.local_nonce.1),
          (n'.session sampleSetup .bob).map fun s => (s.status, s.remoteNonce))) =
      some (some (.connected, (sampleNonce 21).1), some (.connected, (sampleNonce 11).1)) := by
    decide +kernel
  obtain ⟨n, hn, hrun⟩ := Option.bind_eq_some_iff.1 hrun
  obtain ⟨n', hn', hrun⟩ := Option.map_eq_some_iff.1 hrun
  rw [Prod.mk.injEq] at hrun
  obtain ⟨s, hs, hsv⟩ := Option.map_eq_some_iff.1 hrun.1
  obtain ⟨t, ht, htv⟩ := Option.map_eq_some_iff.1 hrun.2
  rw [Prod.mk.injEq] at hsv htv
  have hagreed : Agreed sampleSetup n' := hsteps.last hn hn'
  have hnonce := (hagreed .bob t s ht hs htv.1 hsv.1).2.1
  rw [htv.2, hsv.2] at hnonce
  exact absurd hnonce (by decide)

end EndToEndSmkex.Smkex.Agreement
