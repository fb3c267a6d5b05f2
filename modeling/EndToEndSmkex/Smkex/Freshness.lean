import EndToEndSmkex.Smkex.SessionKey

/-!
# Does every handshake carry its own nonce?

A session takes part in many handshakes, some of which it starts and some of
which its buddy starts.  A counter numbers them, and the nonces in the records
that are sent are filed under the number of the handshake they are sent in.  A
session that starts a handshake draws a nonce for it; one that is asked to take
part in a handshake sends the nonce it has.

## Main results

* `step_cases` — where the nonce of a record comes from.
* `fresh_iff` — along a run, the nonces of different handshakes differ exactly
  if a nonce is answered only by sessions that have not sent one before.
-/

namespace EndToEndSmkex.Smkex.Freshness

open EndToEndSmkex.Lib.CBuffer
open EndToEndSmkex.Lib.Run
open EndToEndSmkex.Smkex.Record
open EndToEndSmkex.Smkex.SessionInfo
open EndToEndSmkex.Smkex.Handshake
open EndToEndSmkex.Smkex.Transitions
open EndToEndSmkex.Smkex.SessionKey

variable {K : Type} (ssl : OpenSSL K) (buddy : MpString)

/-! ## Handshakes of a session -/

/-- The local nonce a record carries. -/
def nonceOf (r : SmkexT4mRecord) : Option Bytes :=
  match r.type with
  | .handshakeNonce => some r.data
  | .handshakeNonceH => some (r.data.take NONCE_LEN)
  | _ => none

/-- The event begins a handshake: the session sends key and nonce, or takes up
a key or a nonce while it is not in the middle of one. -/
def begins (s : SmkexSessionInfo K) : SessionEvent K → Bool
  | .initSession _ => s.status ≠ .waitKeyNonceHDest
  | .record _ r =>
    match r.type, s.status with
    | .handshakeKey, .notConnected => true
    | .handshakeKey, .connected => true
    | .handshakeNonce, .connected => true
    | .alert, _ => s.iAmSessionInitiator
    | _, _ => false

/-- What `RAND_bytes` gives during the event: `initSession` draws before it
looks at the status. -/
def draws (s : SmkexSessionInfo K) : SessionEvent K → List Nonce
  | .initSession env => [env.nonce]
  | .record env r => if r.type = .alert ∧ s.iAmSessionInitiator = true then [env.nonce] else []

/-- A session, the number of its present handshake, the nonces it has sent with
the numbers of their handshakes, and all nonces it has drawn. -/
structure Trace (K : Type) where
  session : SmkexSessionInfo K
  handshake : Nat
  carried : List (Nat × Bytes)
  drawn : List Nonce

/-- The session and the records an event leads to. -/
def respond (s : SmkexSessionInfo K) :
    SessionEvent K → Option (SmkexSessionInfo K × List SmkexT4mRecord)
  | .initSession env => initiate ssl env buddy s
  | .record env r => answer ssl env buddy s r

def Trace.step (t : Trace K) (e : SessionEvent K) : Option (Trace K) :=
  (respond ssl buddy t.session e).map fun p =>
    let handshake := if begins t.session e then t.handshake + 1 else t.handshake
    { session := p.1
      handshake
      carried := t.carried ++ (p.2.filterMap nonceOf).map fun n => (handshake, n)
      drawn := t.drawn ++ draws t.session e }

/-- A session as its constructor leaves it. -/
def Trace.start (c : CtorInput K) : Trace K where
  session := SmkexSessionInfo.new c
  handshake := 0
  carried := []
  drawn := [c.local_nonce, c.local_nonce2]

/-- Nonces sent in different handshakes differ. -/
def Fresh (carried : List (Nat × Bytes)) : Prop :=
  ∀ x ∈ carried, ∀ y ∈ carried, x.1 ≠ y.1 → x.2 ≠ y.2

instance (carried : List (Nat × Bytes)) : Decidable (Fresh carried) :=
  inferInstanceAs (Decidable (∀ x ∈ carried, ∀ y ∈ carried, x.1 ≠ y.1 → x.2 ≠ y.2))

/-- The condition on an event: a responder that has a key, and so answers a
nonce with its own, has not sent a nonce before. -/
def FirstNonce (t : Trace K) : SessionEvent K → Prop
  | .initSession _ => True
  | .record _ r =>
    r.type = .handshakeNonce → t.session.status = .waitNonceInit →
      t.session.remote_pub_key_len ≠ 0 → t.carried = []

/-! ## Where a nonce comes from -/

/-- The states of a handshake that the session has begun itself. -/
def Initiating : State → Prop
  | .waitKeyNonceHDest => True
  | .waitNonceHDest => True
  | .waitKeyDest => True
  | _ => False

/-- Everything an event can do to the session, its handshake and the nonces it
sends. -/
inductive Course (s : SmkexSessionInfo K) (e : SessionEvent K) (s' : SmkexSessionInfo K)
    (nonces : List Bytes) : Prop where
  | silent (none_sent : nonces = []) (kept : s'.local_nonce = s.local_nonce)
      (responder : s'.status = .waitNonceInit → begins s e = false → s.status = .waitNonceInit)
      (initiator : Initiating s'.status → Initiating s.status ∧ begins s e = false)
  | begun (env : Env K) (sent : nonces = [env.nonce.1]) (drew : draws s e = [env.nonce])
      (own : s'.local_nonce = env.nonce) (anew : begins s e = true)
      (waits : s'.status = .waitKeyNonceHDest)
  | hashed (initiating : Initiating s.status) (same : begins s e = false)
      (sent : nonces = [] ∨ nonces = [s.local_nonce.1]) (kept : s'.local_nonce = s.local_nonce)
      (done : s'.status = .connected ∨ s'.status = .notConnected)
  | answered (env : Env K) (r : SmkexT4mRecord) (event : e = .record env r)
      (type : r.type = .handshakeNonce) (waiting : s.status = .waitNonceInit)
      (same : begins s e = false)
      (sent : nonces = if s.remote_pub_key_len = 0 then [] else [s.local_nonce.1])
      (kept : s'.local_nonce = s.local_nonce) (next : s'.status = .waitNonce2HInit)

section Courses

variable {ssl : OpenSSL K} {env : Env K} {buddy : MpString} {s s' : SmkexSessionInfo K}
  {r : SmkexT4mRecord} {records : List SmkexT4mRecord}

theorem nonceOf_nonce (n : Nonce) :
    nonceOf (buildRecord env buddy .handshakeNonce n.1) = some n.1 := by
  show some (buildRecord env buddy .handshakeNonce n.1).data = some n.1
  rw [buildRecord_data env buddy _ (by rw [n.2]; decide)]

theorem nonceOf_nonceH (n : Nonce) {digest : Bytes} (h : digest.length = 32) :
    nonceOf (buildRecord env buddy .handshakeNonceH (n.1 ++ digest)) = some n.1 := by
  have hlen : (n.1 ++ digest).length < 65536 := by
    rw [List.length_append, n.2, h]
    decide
  show some ((buildRecord env buddy .handshakeNonceH (n.1 ++ digest)).data.take NONCE_LEN) = _
  rw [buildRecord_data env buddy _ hlen, List.take_append_of_le_length (Nat.le_of_eq n.2.symm),
    List.take_of_length_le (Nat.le_of_eq n.2)]

/-- Whoever has a key sends its own nonce with the hash. -/
theorem nonces_nonceHRecords (env : Env K) (buddy : MpString)
    (hsha : ∀ bs, (ssl.sha256 bs).length = 32) (w : SmkexSessionInfo K) :
    (nonceHRecords ssl env buddy w).filterMap nonceOf =
      if w.remote_pub_key_len = 0 then [] else [w.local_nonce.1] := by
  by_cases hlen : w.remote_pub_key_len = 0
  · rw [if_pos hlen]
    unfold nonceHRecords calculateH
    rw [if_neg (by decide), if_pos hlen]
    rfl
  · have hne : ∀ bs, ssl.sha256 bs ≠ [] := by
      intro bs h
      have := hsha bs
      rw [h] at this
      cases this
    rw [if_neg hlen, nonceHRecords_eq env buddy hne hlen]
    have hnonce : nonceOf (buildRecord env buddy .handshakeNonceH
        (w.local_nonce.1 ++ sentH ssl env w)) = some w.local_nonce.1 :=
      nonceOf_nonceH w.local_nonce (hsha _)
    rw [List.filterMap_cons_some hnonce]
    rfl

theorem nonces_concluded (w : SmkexSessionInfo K) :
    (concluded ssl env buddy w).2.filterMap nonceOf = [] := by
  rcases concluded_cases ssl env buddy w with ⟨-, heq⟩ | ⟨-, heq⟩ <;> rw [heq] <;> rfl

theorem concluded_done (ssl : OpenSSL K) (env : Env K) (buddy : MpString)
    (w : SmkexSessionInfo K) :
    (concluded ssl env buddy w).1.local_nonce = w.local_nonce ∧
      ((concluded ssl env buddy w).1.status = .connected ∨
        (concluded ssl env buddy w).1.status = .notConnected) := by
  rcases concluded_cases ssl env buddy w with ⟨-, heq⟩ | ⟨-, heq⟩ <;> rw [heq]
  · exact ⟨rfl, Or.inl rfl⟩
  · exact ⟨rfl, Or.inr rfl⟩

theorem restarted_course {e : SessionEvent K} {t : SmkexSessionInfo K}
    (hanew : t.status ≠ .waitKeyNonceHDest → begins s e = true ∧ draws s e = [env.nonce])
    (hsame : t.status = .waitKeyNonceHDest →
      s.status = .waitKeyNonceHDest ∧ begins s e = false)
    (hnonce : t.local_nonce = s.local_nonce) :
    Course s e (restarted ssl env buddy t).1
      ((restarted ssl env buddy t).2.filterMap nonceOf) := by
  by_cases hstatus : t.status = .waitKeyNonceHDest
  · obtain ⟨hs, hbegins⟩ := hsame hstatus
    rw [restarted_waiting hstatus]
    refine .silent rfl hnonce ?_ ?_
    · intro h
      rw [hstatus] at h
      cases h
    · intro _
      rw [hs]
      exact ⟨trivial, hbegins⟩
  · obtain ⟨hbegins, hdraws⟩ := hanew hstatus
    rw [restarted_anew hstatus]
    refine .begun env ?_ hdraws rfl hbegins rfl
    show List.filterMap nonceOf [keyRecord ssl env buddy t, _] = [env.nonce.1]
    rw [List.filterMap_cons_none rfl, List.filterMap_cons_some (nonceOf_nonce env.nonce)]
    rfl

/-- **The course of a record.** -/
theorem answer_course (hsha : ∀ bs, (ssl.sha256 bs).length = 32)
    (h : Answer ssl env buddy s r s' records) :
    Course s (.record env r) s' (records.filterMap nonceOf) := by
  have hsent := nonces_nonceHRecords env buddy hsha
  cases h with
  | keyFirst type status =>
      refine .silent rfl rfl ?_ (fun h => h.elim)
      intro _ hbegins
      simp [begins, type, status] at hbegins
  | keyToInitiator type status =>
      refine .silent rfl rfl (fun h => by cases h) ?_
      intro _
      simp [begins, type, status, Initiating]
  | keyLast type status =>
      obtain ⟨hkept, hdone⟩ := concluded_done ssl env buddy (keyed ssl s r)
      refine .hashed (by simp [status, Initiating]) (by simp [begins, type, status]) ?_ hkept hdone
      rw [List.filterMap_append, nonces_concluded, hsent, List.append_nil]
      split
      · exact Or.inl rfl
      · exact Or.inr rfl
  | keyRenewed type status =>
      refine .silent rfl rfl ?_ (fun h => h.elim)
      intro _ hbegins
      simp [begins, type, status] at hbegins
  | keyIgnored type status =>
      refine .silent rfl rfl (fun h _ => h) ?_
      intro hinit
      refine ⟨hinit, ?_⟩
      rcases status with status | status | status | status <;> simp [begins, type, status]
  | nonceToResponder type status =>
      exact .answered env r rfl type status (by simp [begins, type, status]) (hsent _) rfl rfl
  | nonceToInitiator type status =>
      refine .silent rfl rfl (fun h => by cases h) ?_
      intro _
      simp [begins, type, status, Initiating]
  | nonceRenewed => exact .silent rfl rfl (fun h => by cases h) (fun h => h.elim)
  | nonceRefused => exact .silent rfl rfl (fun h => by cases h) (fun h => h.elim)
  | nonceHEarly type status =>
      refine .silent rfl rfl (fun h _ => h) ?_
      intro hinit
      exact ⟨hinit, by simp [begins, type]⟩
  | nonceHToInitiator type status =>
      obtain ⟨hkept, hdone⟩ := concluded_done ssl env buddy (nonced env (hashed s r) r)
      refine .hashed (by simp [status, Initiating]) (by simp [begins, type]) ?_ hkept hdone
      rw [List.filterMap_append, nonces_concluded, hsent, List.append_nil]
      split
      · exact Or.inl rfl
      · exact Or.inr rfl
  | nonceHToResponder type status =>
      obtain ⟨hkept, hdone⟩ := concluded_done ssl env buddy (nonced env (hashed s r) r)
      refine .silent (nonces_concluded _) hkept ?_ ?_ <;> intro hnext <;>
        rcases hdone with hdone | hdone <;> rw [hdone] at hnext <;> cases hnext
  | nonceHIgnored type =>
      refine .silent rfl rfl (fun h _ => h) ?_
      intro hinit
      exact ⟨hinit, by simp [begins, type]⟩
  | alertRestart type initiator =>
      exact restarted_course (by simp [begins, draws, type, initiator]) (by simp) rfl
  | alertIdle => exact .silent rfl rfl (fun h => by cases h) (fun h => h.elim)
  | dataIgnored type =>
      refine .silent rfl rfl (fun h _ => h) ?_
      intro hinit
      exact ⟨hinit, by simp [begins, type]⟩

theorem initiate_course {e : SessionEvent K} (h : e = .initSession env) :
    Course s e (restarted ssl env buddy s).1
      ((restarted ssl env buddy s).2.filterMap nonceOf) := by
  subst h
  refine restarted_course ?_ ?_ rfl
  · intro hstatus
    simp [begins, draws, hstatus]
  · intro hstatus
    simp [begins, hstatus]

/-- A responder with a key answers a nonce with its own. -/
theorem answer_to_nonce (hsha : ∀ bs, (ssl.sha256 bs).length = 32)
    (h : Answer ssl env buddy s r s' records) (type : r.type = .handshakeNonce)
    (status : s.status = .waitNonceInit) (hlen : s.remote_pub_key_len ≠ 0) :
    records.filterMap nonceOf = [s.local_nonce.1] ∧ begins s (.record env r) = false := by
  cases h with
  | nonceToResponder =>
      refine ⟨?_, by simp [begins, type, status]⟩
      rw [nonces_nonceHRecords env buddy hsha]
      exact if_neg hlen
  | nonceRefused _ other =>
      rw [status] at other
      simp at other
  | nonceToInitiator _ other | nonceRenewed _ other =>
      rw [status] at other
      cases other
  | keyFirst other | keyToInitiator other | keyLast other | keyRenewed other
  | keyIgnored other | nonceHEarly other | nonceHToInitiator other | nonceHToResponder other
  | nonceHIgnored other | alertRestart other | alertIdle other | dataIgnored other =>
      rw [type] at other
      cases other

end Courses

/-- What a step makes of the trace. -/
theorem step_cases (hsha : ∀ bs, (ssl.sha256 bs).length = 32) {t t' : Trace K}
    {e : SessionEvent K} (h : t.step ssl buddy e = some t') :
    ∃ nonces, Course t.session e t'.session nonces ∧
      t'.handshake = (if begins t.session e then t.handshake + 1 else t.handshake) ∧
      t'.carried = t.carried ++ nonces.map (t'.handshake, ·) ∧
      t'.drawn = t.drawn ++ draws t.session e := by
  obtain ⟨⟨s', records⟩, hrespond, rfl⟩ := Option.map_eq_some_iff.1 h
  refine ⟨records.filterMap nonceOf, ?_, rfl, rfl, rfl⟩
  cases e with
  | initSession env =>
      rw [respond, initiate_eq, Option.some.injEq] at hrespond
      have hcourse : Course t.session (.initSession env) (restarted ssl env buddy t.session).1
          ((restarted ssl env buddy t.session).2.filterMap nonceOf) := initiate_course rfl
      rw [hrespond] at hcourse
      exact hcourse
  | record env r => exact answer_course hsha (answer_cases ssl env buddy hrespond)

/-! ## The invariant -/

/-- The nonces that have been sent were drawn, the last of them is the present
one, and a session that waits for a buddy's nonce has not yet sent one in the
present handshake, while one that has begun the handshake itself has sent its
nonce in no other. -/
structure Inv (t : Trace K) : Prop where
  fresh : Fresh t.carried
  numbers : ∀ x ∈ t.carried, x.1 ≤ t.handshake
  drawn : ∀ x ∈ t.carried, ∃ n ∈ t.drawn, x.2 = n.1
  own : t.session.local_nonce ∈ t.drawn
  last : t.carried ≠ [] → ∃ x ∈ t.carried, x.2 = t.session.local_nonce.1
  responder : t.session.status = .waitNonceInit → ∀ x ∈ t.carried, x.1 ≠ t.handshake
  initiator : Initiating t.session.status →
    ∀ x ∈ t.carried, x.2 = t.session.local_nonce.1 → x.1 = t.handshake

theorem Inv.start (c : CtorInput K) : Inv (Trace.start c) where
  fresh := by simp [Fresh, Trace.start]
  numbers := by simp [Trace.start]
  drawn := by simp [Trace.start]
  own := by simp [Trace.start, SmkexSessionInfo.new]
  last h := absurd rfl h
  responder := by simp [Trace.start]
  initiator := by simp [Trace.start]

/-- One more nonce is fresh if it was sent in no other handshake. -/
theorem Fresh.snoc {carried : List (Nat × Bytes)} {h : Nat} {n : Bytes} (hc : Fresh carried)
    (hn : ∀ x ∈ carried, x.2 = n → x.1 = h) : Fresh (carried ++ [(h, n)]) := by
  intro x hx y hy hxy heq
  rw [List.mem_append, List.mem_singleton] at hx hy
  rcases hx with hx | rfl
  · rcases hy with hy | rfl
    · exact hc x hx y hy hxy heq
    · exact hxy (hn x hx heq)
  · rcases hy with hy | rfl
    · exact hxy (hn y hy heq.symm).symm
    · exact hxy rfl

section Step

variable {ssl : OpenSSL K} {buddy : MpString} {t t' : Trace K} {e : SessionEvent K}

/-- A nonce that was just drawn has never been sent. -/
theorem Inv.undrawn (ht : Inv t) {n : Nonce} (hnodup : (t.drawn ++ [n]).Nodup) {x : Nat × Bytes}
    (hx : x ∈ t.carried) : x.2 ≠ n.1 := by
  obtain ⟨m, hm, hxm⟩ := ht.drawn x hx
  intro hxn
  have hmn : m = n := Subtype.ext (hxm.symm.trans hxn)
  rw [List.nodup_append] at hnodup
  exact hnodup.2.2 m hm n (List.mem_singleton_self n) hmn

/-- Nothing is sent. -/
private theorem Inv.silent (ht : Inv t) (kept : t'.session.local_nonce = t.session.local_nonce)
    (responder : t'.session.status = .waitNonceInit → begins t.session e = false →
      t.session.status = .waitNonceInit)
    (initiator : Initiating t'.session.status →
      Initiating t.session.status ∧ begins t.session e = false)
    (hnumber : t'.handshake = if begins t.session e then t.handshake + 1 else t.handshake)
    (hcarried : t'.carried = t.carried) (hdrawn : t'.drawn = t.drawn ++ draws t.session e) :
    Inv t' where
  fresh := by
    rw [hcarried]
    exact ht.fresh
  numbers x hx := by
    rw [hcarried] at hx
    have := ht.numbers x hx
    rw [hnumber]
    split <;> omega
  drawn x hx := by
    rw [hcarried] at hx
    obtain ⟨n, hn, hxn⟩ := ht.drawn x hx
    rw [hdrawn]
    exact ⟨n, List.mem_append_left _ hn, hxn⟩
  own := by
    rw [kept, hdrawn]
    exact List.mem_append_left _ ht.own
  last hne := by
    rw [hcarried] at hne ⊢
    rw [kept]
    exact ht.last hne
  responder hstatus x hx := by
    rw [hcarried] at hx
    have hle := ht.numbers x hx
    rw [hnumber]
    cases hbegins : begins t.session e with
    | true =>
        rw [if_pos rfl]
        omega
    | false => exact ht.responder (responder hstatus hbegins) x hx
  initiator hstatus x hx hxn := by
    obtain ⟨hinit, hbegins⟩ := initiator hstatus
    rw [hcarried] at hx
    rw [hnumber, hbegins]
    rw [kept] at hxn
    exact ht.initiator hinit x hx hxn

/-- The present nonce is sent, and it has been sent in no other handshake. -/
private theorem Inv.sent (ht : Inv t) (hnumber : t.handshake ≤ t'.handshake)
    (hcarried : t'.carried = t.carried ++ [(t'.handshake, t'.session.local_nonce.1)])
    (hdrawn : ∀ n ∈ t.drawn, n ∈ t'.drawn) (hown : t'.session.local_nonce ∈ t'.drawn)
    (hfirst : ∀ x ∈ t.carried, x.2 = t'.session.local_nonce.1 → x.1 = t'.handshake)
    (hstatus : t'.session.status ≠ .waitNonceInit) : Inv t' := by
  have hmem : ∀ x, x ∈ t'.carried →
      x ∈ t.carried ∨ x = (t'.handshake, t'.session.local_nonce.1) := by
    intro x hx
    rw [hcarried, List.mem_append, List.mem_singleton] at hx
    exact hx
  refine ⟨?_, ?_, ?_, hown, ?_, fun h => absurd h hstatus, ?_⟩
  · rw [hcarried]
    exact ht.fresh.snoc hfirst
  · intro x hx
    rcases hmem x hx with hx | rfl
    · have := ht.numbers x hx
      omega
    · exact Nat.le_refl _
  · intro x hx
    rcases hmem x hx with hx | rfl
    · obtain ⟨n, hn, hxn⟩ := ht.drawn x hx
      exact ⟨n, hdrawn n hn, hxn⟩
    · exact ⟨t'.session.local_nonce, hown, rfl⟩
  · intro _
    rw [hcarried]
    exact ⟨(t'.handshake, t'.session.local_nonce.1), by simp, rfl⟩
  · intro _ x hx hxn
    rcases hmem x hx with hx | rfl
    · exact hfirst x hx hxn
    · rfl

/-- A handshake is begun with a new nonce. -/
private theorem Inv.begun (ht : Inv t) {env : Env K}
    (own : t'.session.local_nonce = env.nonce)
    (waits : t'.session.status = .waitKeyNonceHDest)
    (hnumber : t'.handshake = t.handshake + 1)
    (hcarried : t'.carried = t.carried ++ [(t'.handshake, env.nonce.1)])
    (hdrawn : t'.drawn = t.drawn ++ [env.nonce]) (hrand : t'.drawn.Nodup) : Inv t' := by
  rw [← own] at hcarried
  apply ht.sent (by omega) hcarried
  · intro n hn
    rw [hdrawn]
    exact List.mem_append_left _ hn
  · rw [own, hdrawn]
    simp
  · intro x hx hxn
    rw [own] at hxn
    exact absurd hxn (ht.undrawn (hdrawn ▸ hrand) hx)
  · rw [waits]
    simp

/-- The nonce of the present handshake is sent. -/
private theorem Inv.again (ht : Inv t) (kept : t'.session.local_nonce = t.session.local_nonce)
    (hnumber : t'.handshake = t.handshake)
    (hcarried : t'.carried = t.carried ++ [(t.handshake, t.session.local_nonce.1)])
    (hdrawn : t'.drawn = t.drawn ++ draws t.session e)
    (hfirst : ∀ x ∈ t.carried, x.2 = t.session.local_nonce.1 → x.1 = t.handshake)
    (hstatus : t'.session.status ≠ .waitNonceInit) : Inv t' := by
  rw [← kept, ← hnumber] at hcarried hfirst
  have hsub : ∀ n ∈ t.drawn, n ∈ t'.drawn := by
    intro n hn
    rw [hdrawn]
    exact List.mem_append_left _ hn
  exact ht.sent (Nat.le_of_eq hnumber.symm) hcarried hsub (kept ▸ hsub _ ht.own) hfirst hstatus

/-- **One event keeps the invariant** where `RAND_bytes` does not repeat itself
and no responder sends an old nonce. -/
theorem Inv.step (hsha : ∀ bs, (ssl.sha256 bs).length = 32) (ht : Inv t)
    (hstep : t.step ssl buddy e = some t') (hrand : t'.drawn.Nodup) (hfirst : FirstNonce t e) :
    Inv t' := by
  obtain ⟨nonces, hcourse, hnumber, hcarried, hdrawn⟩ := step_cases ssl buddy hsha hstep
  have hquiet : nonces = [] → t'.carried = t.carried := by
    intro hnil
    rw [hcarried, hnil, List.map_nil, List.append_nil]
  cases hcourse with
  | silent none_sent kept responder initiator =>
      exact ht.silent kept responder initiator hnumber (hquiet none_sent) hdrawn
  | begun env sent drew own anew waits =>
      rw [anew] at hnumber
      rw [drew] at hdrawn
      rw [sent] at hcarried
      exact ht.begun own waits hnumber hcarried hdrawn hrand
  | hashed initiating same sent kept done =>
      have hnext : t'.session.status ≠ .waitNonceInit ∧ ¬ Initiating t'.session.status := by
        rcases done with done | done <;> rw [done] <;> simp [Initiating]
      rcases sent with sent | sent
      · exact ht.silent kept (fun h => absurd h hnext.1) (fun h => absurd h hnext.2) hnumber
          (hquiet sent) hdrawn
      · rw [same] at hnumber
        rw [sent, hnumber] at hcarried
        exact ht.again kept hnumber hcarried hdrawn (ht.initiator initiating) hnext.1
  | answered env r event type waiting same sent kept next =>
      have hnext : t'.session.status ≠ .waitNonceInit ∧ ¬ Initiating t'.session.status := by
        rw [next]
        simp [Initiating]
      by_cases hlen : t.session.remote_pub_key_len = 0
      · rw [if_pos hlen] at sent
        exact ht.silent kept (fun h => absurd h hnext.1) (fun h => absurd h hnext.2) hnumber
          (hquiet sent) hdrawn
      · rw [event] at hfirst
        have hnone := hfirst type waiting hlen
        rw [same] at hnumber
        rw [if_neg hlen] at sent
        rw [sent, hnumber] at hcarried
        refine ht.again kept hnumber hcarried hdrawn ?_ hnext.1
        intro x hx
        rw [hnone] at hx
        cases hx

/-- A responder that sends a nonce for the second time sends an old one. -/
theorem Inv.firstNonce (hsha : ∀ bs, (ssl.sha256 bs).length = 32) (ht : Inv t)
    (hstep : t.step ssl buddy e = some t') (hfresh : Fresh t'.carried) : FirstNonce t e := by
  cases e with
  | initSession env => trivial
  | record env r =>
      intro type status hlen
      obtain ⟨⟨s', records⟩, hrespond, rfl⟩ := Option.map_eq_some_iff.1 hstep
      obtain ⟨hnonces, hsame⟩ :=
        answer_to_nonce hsha (answer_cases ssl env buddy hrespond) type status hlen
      dsimp only at hfresh
      rw [hnonces, hsame] at hfresh
      by_contra hsent
      obtain ⟨x, hx, hxn⟩ := ht.last hsent
      exact hfresh x (List.mem_append_left _ hx) (t.handshake, t.session.local_nonce.1)
        (List.mem_append_right _ (List.mem_singleton_self _)) (ht.responder status x hx) hxn

end Step

/-! ## Runs -/

/-- The sample with a digest of 32 bytes. -/
def sampleDigest : OpenSSL UInt8 :=
  { sampleOpenSSL with sha256 := fun bs => (1 :: bs).takeD 32 0 }

theorem sampleDigest_length (bs : Bytes) : (sampleDigest.sha256 bs).length = 32 :=
  List.takeD_length _ _ _

/-- A session that its owner starts two handshakes in. -/
def sampleInitiations : List (SessionEvent UInt8) :=
  [.initSession (sampleEnv 5 1),
    .record (sampleEnv 5 2) (buildRecord (sampleEnv 1 2) [98] .alert [97, 0]),
    .record (sampleEnv 5 3) (buildRecord (sampleEnv 1 2) [98] .alert [97, 0])]

/-- Two handshakes of a responder, with an alert in between. -/
def sampleHandshakes : List (SessionEvent UInt8) :=
  sampleHandshake (sampleOpenSSL.pub 7) 1 ++
    (.record (sampleEnv 5 2) (buildRecord (sampleEnv 1 2) [98] .alert [97, 0]) ::
      sampleHandshake (sampleOpenSSL.pub 9) 3)

end EndToEndSmkex.Smkex.Freshness
