import EndToEndSmkex.Smkex.Delivery
import Mathlib.Order.OrderIsoNat

/-!
# Does a handshake come to its end?

One party starts a handshake, and every record is delivered once.  Besides keys
there is always one record in flight that carries the handshake on: the nonce
to the responder, an alert back that makes the initiator start again, nonce and
hash to the initiator, nonce and hash to the responder.  Three things take it
out of the game without an answer: nonce and hash that reach the initiator
before the key, keys and nonces that reach a connected party, and a hash that
is what it should be.  Where none of them happens the handshake comes to its
end.

## Main results

* `handshake_completes` — from two unconnected sessions, no run that avoids the
  three goes on for ever, ends a process, or leaves nothing in flight before
  both parties are connected; from two connected sessions no run connects both
  again.
* `early_nonceH_hangs` — a complete order of a first handshake that does not.
-/

namespace EndToEndSmkex.Smkex.Completion

open EndToEndSmkex.Lib.Run
open EndToEndSmkex.Smkex.Record
open EndToEndSmkex.Smkex.SessionInfo
open EndToEndSmkex.Smkex.Handshake
open EndToEndSmkex.Smkex.Transitions
open EndToEndSmkex.Smkex.Network
open EndToEndSmkex.Smkex.Delivery

variable {K : Type}

/-! ## Statement -/

/-- An arrival at which the record is not dropped: no hash before the key, no
key and no nonce for a connected party, and no hash that matches. -/
def Unharmed (ssl : OpenSSL K) (w : Pipe K) (a : Arrival K) : Prop :=
  ∀ s, w.session a.message.dest = some s →
    (s.status = .waitKeyNonceHDest → a.message.record.type ≠ .handshakeNonceH) ∧
      (s.status = .connected → a.message.record.type ≠ .handshakeKey ∧
        a.message.record.type ≠ .handshakeNonce) ∧
      ∀ v, verified ssl a.env s a.message.record = some v → ¬ HashMatches ssl a.env v

instance (ssl : OpenSSL K) (w : Pipe K) (a : Arrival K) : Decidable (Unharmed ssl w a) :=
  match hs : w.session a.message.dest with
  | none => isTrue fun s h => by rw [hs] at h; cases h
  | some s =>
    decidable_of_iff
      ((s.status = .waitKeyNonceHDest → a.message.record.type ≠ .handshakeNonceH) ∧
        (s.status = .connected → a.message.record.type ≠ .handshakeKey ∧
          a.message.record.type ≠ .handshakeNonce) ∧
        (verified ssl a.env s a.message.record).all (verifyH ssl a.env) = true) <| by
      simp [Unharmed, hs, Option.all_eq_true, verifyH_iff]

/-- Both parties are running and have this status. -/
def Both (w : Pipe K) (status : State) : Prop :=
  ∀ p, ∃ s, w.session p = some s ∧ s.status = status

/-! ## Traffic -/

/-- A record that carries the handshake on. -/
def isToken (m : Flying) : Bool := m.record.type ≠ .handshakeKey

def isKeyTo (p : Side) (m : Flying) : Bool := m.dest = p && m.record.type = .handshakeKey

/-- A key that its receiver can use. -/
def ValidKey (ssl : OpenSSL K) (m : Flying) : Prop :=
  m.record.type = .handshakeKey → ssl.oct2point m.record.data ∧ m.record.data.length = 65

/-- What is in flight: keys, and so many records of the kind `T`; and how many
keys are on their way to `p`. -/
structure Traffic (ssl : OpenSSL K) (p : Side) (flight : List Flying) (T : Flying → Prop)
    (tokens keys : Nat) : Prop where
  kind : ∀ m ∈ flight, m.record.type = .handshakeKey ∨ T m
  tokens : flight.countP isToken = tokens
  keys : flight.countP (isKeyTo p) = keys
  valid : ∀ m ∈ flight, ValidKey ssl m

section Traffic

variable {ssl : OpenSSL K} {p : Side} {l l' new : List Flying} {m : Flying}
  {T T' : Flying → Prop} {tokens keys : Nat}

theorem Side.eq_or_other (p q : Side) : q = p ∨ q = p.other := by
  cases p <;> cases q <;> decide

/-- A key arrives: the tokens stay. -/
theorem Traffic.key (h : Traffic ssl p l T tokens keys) (hm : m ∈ l)
    (type : m.record.type = .handshakeKey) (hl : l' = l.erase m ++ new)
    (hnew : ∀ q ∈ new, q.record.type = .handshakeKey) (hvalid : ∀ q ∈ new, ValidKey ssl q) :
    Traffic ssl p l' T tokens
      (keys + new.countP (isKeyTo p) - if isKeyTo p m then 1 else 0) where
  kind q hq := by
    rcases mem_arrival hl hq with hq | hq
    · exact h.kind q hq
    · exact Or.inl (hnew q hq)
  tokens := by
    have hcount := countP_arrival isToken hm hl
    have hnone : new.countP isToken = 0 := by
      rw [List.countP_eq_zero]
      intro q hq
      simp [isToken, hnew q hq]
    have hkey : isToken m = false := by simp [isToken, type]
    rw [hnone, hkey, h.tokens] at hcount
    simpa using hcount
  keys := by
    have hcount := countP_arrival (isKeyTo p) hm hl
    rw [h.keys] at hcount
    omega
  valid q hq := by
    rcases mem_arrival hl hq with hq | hq
    · exact h.valid q hq
    · exact hvalid q hq

/-- The only token arrives and gives way to the records sent in answer. -/
theorem Traffic.token (h : Traffic ssl p l T 1 keys) (hm : m ∈ l)
    (type : m.record.type ≠ .handshakeKey) (hl : l' = l.erase m ++ new)
    (hnew : ∀ q ∈ new, q.record.type = .handshakeKey ∨ T' q)
    (hvalid : ∀ q ∈ new, ValidKey ssl q) :
    Traffic ssl p l' T' (new.countP isToken) (keys + new.countP (isKeyTo p)) := by
  have htoken : isToken m = true := by simpa [isToken] using type
  have hcount := countP_arrival isToken hm hl
  rw [htoken, h.tokens, if_pos rfl] at hcount
  have hrest : (l.erase m).countP isToken = 0 := by
    rw [hl, List.countP_append] at hcount
    omega
  refine ⟨?_, by omega, ?_, ?_⟩
  · intro q hq
    rw [hl] at hq
    rcases List.mem_append.1 hq with hq | hq
    · left
      have := List.countP_eq_zero.1 hrest q hq
      simpa [isToken] using this
    · exact hnew q hq
  · have hkeys := countP_arrival (isKeyTo p) hm hl
    have hnot : isKeyTo p m = false := by simp [isKeyTo, type]
    rw [h.keys, hnot] at hkeys
    simpa using hkeys
  · intro q hq
    rcases mem_arrival hl hq with hq | hq
    · exact h.valid q hq
    · exact hvalid q hq

/-- One token gives way to another. -/
theorem Traffic.reply (h : Traffic ssl p l T 1 keys) (hm : m ∈ l)
    (type : m.record.type ≠ .handshakeKey) {q : Side} {x : SmkexT4mRecord}
    (hl : l' = l.erase m ++ toward q [x]) (hx : x.type ≠ .handshakeKey) (hT : T' ⟨q, x⟩) :
    Traffic ssl p l' T' 1 keys := by
  have hmem : ∀ y ∈ toward q [x], y = ⟨q, x⟩ := fun y hy => List.mem_singleton.1 hy
  have hkind : ∀ y ∈ toward q [x], y.record.type = .handshakeKey ∨ T' y := by
    intro y hy
    rw [hmem y hy]
    exact Or.inr hT
  have hvalid : ∀ y ∈ toward q [x], ValidKey ssl y := by
    intro y hy htype
    rw [hmem y hy] at htype
    exact absurd htype hx
  simpa [toward, isToken, isKeyTo, hx] using h.token hm type hl hkind hvalid

/-- The last token is not answered. -/
theorem Traffic.last (h : Traffic ssl p l T 1 keys) (hm : m ∈ l)
    (type : m.record.type ≠ .handshakeKey) {q : Side} (hl : l' = l.erase m ++ toward q []) :
    Traffic ssl p l' T' 0 keys :=
  h.token hm type hl (by simp [toward]) (by simp [toward])

/-- A key is not answered. -/
theorem Traffic.key_ignored (h : Traffic ssl p l T tokens keys) (hm : m ∈ l)
    (type : m.record.type = .handshakeKey) {q : Side} (hl : l' = l.erase m ++ toward q []) :
    Traffic ssl p l' T tokens (keys - if isKeyTo p m then 1 else 0) :=
  h.key hm type hl (by simp [toward]) (by simp [toward])

/-- Where no key is on its way to `p`, none arrives there. -/
theorem Traffic.no_key (h : Traffic ssl p l T tokens 0) (hm : m ∈ l) (hdest : m.dest = p) :
    m.record.type ≠ .handshakeKey := by
  intro type
  have := List.countP_eq_zero.1 h.keys m hm
  simp [isKeyTo, hdest, type] at this

end Traffic

/-! ## Stages -/

/-- The initiator's nonce on its way to the responder, or an alert back. -/
def Opening (p : Side) (m : Flying) : Prop :=
  m.dest = p.other ∧ m.record.type = .handshakeNonce ∨ m.dest = p ∧ m.record.type = .alert

/-- Nonce and hash on their way to a party. -/
def NonceHTo (p : Side) (m : Flying) : Prop := m.dest = p ∧ m.record.type = .handshakeNonceH

/-- An initiator that waits for the responder, with `keys` keys on their way to
it. -/
def Ready (s : SmkexSessionInfo K) (keys : Nat) : Prop :=
  s.iAmSessionInitiator = true ∧
    (s.status = .waitKeyNonceHDest ∧ keys ≤ 1 ∨
      s.status = .waitNonceHDest ∧ keys = 0 ∧ s.remote_pub_key_len = 65)

/-- The responder has not seen a key yet; one is on its way. -/
structure Offered (ssl : OpenSSL K) (p : Side) (w : Pipe K) : Prop where
  sessions : ∃ s t, w.session p = some s ∧ w.session p.other = some t ∧
    s.iAmSessionInitiator = true ∧ s.status = .waitKeyNonceHDest ∧ t.status = .notConnected
  key : ∃ m ∈ w.flight, m.dest = p.other ∧ m.record.type = .handshakeKey
  traffic : Traffic ssl p w.flight (Opening p) 1 0

/-- The stages after that. -/
inductive Later (ssl : OpenSSL K) (p : Side) (w : Pipe K) : Prop where
  | keyed (s t : SmkexSessionInfo K) (keys : Nat) (initiator : w.session p = some s)
      (responder : w.session p.other = some t) (ready : Ready s keys)
      (status : t.status = .waitNonceInit) (len : t.remote_pub_key_len = 65)
      (traffic : Traffic ssl p w.flight (Opening p) 1 keys)
  | nonced (s t : SmkexSessionInfo K) (keys : Nat) (initiator : w.session p = some s)
      (responder : w.session p.other = some t) (ready : Ready s keys)
      (status : t.status = .waitNonce2HInit)
      (traffic : Traffic ssl p w.flight (NonceHTo p) 1 keys)
  | verified (s t : SmkexSessionInfo K) (initiator : w.session p = some s)
      (responder : w.session p.other = some t) (connected : s.status = .connected)
      (status : t.status = .waitNonce2HInit)
      (traffic : Traffic ssl p w.flight (NonceHTo p.other) 1 0)
  | done (s t : SmkexSessionInfo K) (initiator : w.session p = some s)
      (responder : w.session p.other = some t) (connected : s.status = .connected)
      (status : t.status = .connected) (traffic : Traffic ssl p w.flight (fun _ => False) 0 0)

/-- What a record can still set off. -/
def weight (p : Side) (m : Flying) : Nat :=
  match m.record.type with
  | .alert => 5
  | .handshakeNonce => 3
  | .handshakeNonceH => if m.dest = p then 2 else 1
  | _ => 1

def totalWeight (p : Side) (l : List Flying) : Nat := (l.map (weight p)).sum

theorem totalWeight_arrival {p : Side} {l l' new : List Flying} {m : Flying} (hm : m ∈ l)
    (hl : l' = l.erase m ++ new) (h : totalWeight p new < weight p m) :
    totalWeight p l' < totalWeight p l := by
  have hsum := sum_arrival (weight p) hm hl
  unfold totalWeight at *
  omega

section Stages

variable {ssl : OpenSSL K} {serial : Side → MpString} {p : Side} {w w' : Pipe K}
  {a : Arrival K}

/-- The records of a new handshake. -/
theorem restarted_toward (hpoint : ∀ k, ssl.oct2point (ssl.pub k)) (p : Side) (env : Env K)
    (buddy : MpString) (s : SmkexSessionInfo K) (hs : s.status ≠ .waitKeyNonceHDest) :
    (∃ m ∈ toward p.other (restarted ssl env buddy s).2,
        m.dest = p.other ∧ m.record.type = .handshakeKey) ∧
      (∀ m ∈ toward p.other (restarted ssl env buddy s).2,
        m.record.type = .handshakeKey ∨ Opening p m) ∧
      (∀ m ∈ toward p.other (restarted ssl env buddy s).2, ValidKey ssl m) ∧
      (toward p.other (restarted ssl env buddy s).2).countP isToken = 1 ∧
      (toward p.other (restarted ssl env buddy s).2).countP (isKeyTo p) = 0 ∧
      totalWeight p (toward p.other (restarted ssl env buddy s).2) = 4 := by
  have hkey : (keyRecord ssl env buddy s).type = .handshakeKey := rfl
  have hnonce : (buildRecord env buddy .handshakeNonce env.nonce.1).type = .handshakeNonce := rfl
  rw [restarted_anew hs]
  simp only [toward, List.map_cons, List.map_nil]
  refine ⟨⟨_, List.mem_cons_self, rfl, hkey⟩, ?_, ?_, ?_, ?_, ?_⟩
  · intro m hm
    simp only [List.mem_cons, List.not_mem_nil, or_false] at hm
    rcases hm with rfl | rfl
    · exact Or.inl hkey
    · exact Or.inr (Or.inl ⟨rfl, hnonce⟩)
  · intro m hm type
    simp only [List.mem_cons, List.not_mem_nil, or_false] at hm
    rcases hm with rfl | rfl
    · rw [keyRecord_data]
      exact ⟨hpoint _, ssl.pub_size _⟩
    · rw [show (_ : Flying).record.type = _ from hnonce] at type
      cases type
  · simp [isToken, hkey, hnonce]
  · simp [isKeyTo, hkey, hnonce, Side.other_ne]
  · simp [totalWeight, weight, hkey, hnonce]

/-- An alert makes the initiator start again. -/
theorem alert_restarts (hpoint : ∀ k, ssl.oct2point (ssl.pub k)) {env : Env K}
    {r : SmkexT4mRecord} (hstep : w.step ssl serial ⟨⟨p, r⟩, env⟩ = some w')
    (type : r.type = .alert) {s : SmkexSessionInfo K} (hs : w.session p = some s)
    (initiator : s.iAmSessionInitiator = true) {keys : Nat}
    (h : Traffic ssl p w.flight (Opening p) 1 keys) :
    (∃ s', w'.session p = some s' ∧ s'.iAmSessionInitiator = true ∧
        s'.status = .waitKeyNonceHDest) ∧
      w'.session p.other = w.session p.other ∧
      (∃ m ∈ w'.flight, m.dest = p.other ∧ m.record.type = .handshakeKey) ∧
      Traffic ssl p w'.flight (Opening p) 1 keys ∧
      totalWeight p w'.flight < totalWeight p w.flight := by
  have hm := mem_of_step hstep
  have hexits : ¬ Exits ssl s r := by simp [Exits, type, SMKEX_T4M_Type.Named]
  obtain ⟨s', records, answer, hs', hother, hflight⟩ := step_answers hstep hs hexits
  obtain ⟨rfl, rfl⟩ := answer.unique (.alertRestart type initiator)
  obtain ⟨⟨m, hmem, hkey⟩, hkind, hvalid, htokens, hkeys, hweight⟩ :=
    restarted_toward hpoint p env (serial p.other) { s with status := .notConnected } (by simp)
  refine ⟨⟨_, hs', restarted_initiator _, restarted_status _⟩, hother, ?_, ?_, ?_⟩
  · refine ⟨m, ?_, hkey⟩
    rw [hflight]
    exact List.mem_append_right _ hmem
  · have htraffic := h.token hm (by simp [type]) hflight hkind hvalid
    rw [htokens, hkeys] at htraffic
    exact htraffic
  · refine totalWeight_arrival hm hflight ?_
    rw [hweight]
    simp [weight, type]

/-- The key that a party sends is valid wherever it goes. -/
theorem keyRecord_valid (hpoint : ∀ k, ssl.oct2point (ssl.pub k)) (env : Env K)
    (buddy : MpString) (s : SmkexSessionInfo K) (q : Side) :
    ValidKey ssl ⟨q, keyRecord ssl env buddy s⟩ := by
  intro _
  show ssl.oct2point (keyRecord ssl env buddy s).data ∧ (keyRecord ssl env buddy s).data.length = 65
  rw [keyRecord_data]
  exact ⟨hpoint _, ssl.pub_size _⟩

/-- The stored key has the length of a valid key. -/
theorem keyed_len (ssl : OpenSSL K) (s : SmkexSessionInfo K) {r : SmkexT4mRecord}
    (h : r.data.length = 65) :
    (keyed ssl s r).remote_pub_key_len = 65 := by
  show r.length.toNat = 65
  rw [← r.data_size, h]

/-- The key reaches the responder, who answers with theirs. -/
private theorem Offered.key_arrives (hpoint : ∀ k, ssl.oct2point (ssl.pub k))
    (h : Offered ssl p w) {r : SmkexT4mRecord} {env : Env K}
    (hstep : w.step ssl serial ⟨⟨p.other, r⟩, env⟩ = some w') (type : r.type = .handshakeKey) :
    Later ssl p w' := by
  obtain ⟨s, t, hs, ht, initiator, hsw, htn⟩ := h.sessions
  have hm := mem_of_step hstep
  have hvalid := h.traffic.valid _ hm type
  have hexits : ¬ Exits ssl t r := by simp [Exits, type, hvalid.1, SMKEX_T4M_Type.Named]
  obtain ⟨t', records, answer, ht', hother, hflight⟩ := step_answers hstep ht hexits
  rw [Side.other_other] at answer hother hflight
  obtain ⟨rfl, rfl⟩ := answer.unique (.keyFirst type htn hvalid.1)
  refine .keyed s _ 1 (hother.trans hs) ht' ⟨initiator, Or.inl ⟨hsw, Nat.le_refl 1⟩⟩ rfl
    (keyed_len ssl (reallocated t r) hvalid.2) ?_
  have htraffic := h.traffic.key hm type hflight (by simp [toward]; rfl) ?_
  · have hcount : (toward p [keyRecord ssl env (serial p) t]).countP
        (isKeyTo p) = 1 := by
      simp [toward, isKeyTo, keyRecord, buildRecord, getSmkexT4mRecord2]
    rw [hcount] at htraffic
    have hno : isKeyTo p ⟨p.other, r⟩ = false := by simp [isKeyTo, Side.other_ne]
    rw [hno] at htraffic
    exact htraffic
  · intro m hmem
    rw [List.mem_singleton.1 hmem]
    exact keyRecord_valid hpoint env _ t p

/-- A nonce that comes too early is answered with an alert. -/
private theorem Offered.nonce_arrives (h : Offered ssl p w) {r : SmkexT4mRecord} {env : Env K}
    (hstep : w.step ssl serial ⟨⟨p.other, r⟩, env⟩ = some w') (hnonce : r.type = .handshakeNonce) :
    Offered ssl p w' := by
  obtain ⟨s, t, hs, ht, initiator, hsw, htn⟩ := h.sessions
  have hm := mem_of_step hstep
  have type : r.type ≠ .handshakeKey := by
    rw [hnonce]
    decide
  have hexits : ¬ Exits ssl t r := by simp [Exits, hnonce, SMKEX_T4M_Type.Named]
  obtain ⟨t', records, answer, ht', hother, hflight⟩ := step_answers hstep ht hexits
  rw [Side.other_other] at answer hother hflight
  obtain ⟨rfl, rfl⟩ := answer.unique (.nonceRefused hnonce (Or.inl htn))
  obtain ⟨m, hmem, hmdest, hmkey⟩ := h.key
  refine ⟨⟨s, _, hother.trans hs, ht', initiator, hsw, rfl⟩, ⟨m, ?_, hmdest, hmkey⟩, ?_⟩
  · rw [hflight]
    refine List.mem_append_left _ ((List.mem_erase_of_ne ?_).2 hmem)
    rintro rfl
    exact type hmkey
  · exact h.traffic.reply hm type hflight (fun htype => by cases htype)
      (Or.inr ⟨rfl, rfl⟩)

theorem Offered.step (hpoint : ∀ k, ssl.oct2point (ssl.pub k)) (h : Offered ssl p w)
    (hstep : w.step ssl serial a = some w') :
    (isKeyTo p.other a.message = true → Later ssl p w') ∧
      (isKeyTo p.other a.message = false → Offered ssl p w') := by
  obtain ⟨⟨q, r⟩, env⟩ := a
  have hm := mem_of_step hstep
  by_cases type : r.type = .handshakeKey
  · -- a key, and none is on its way to the initiator
    obtain rfl : q = p.other :=
      (Side.eq_or_other p q).resolve_left fun hq => h.traffic.no_key hm hq type
    exact ⟨fun _ => h.key_arrives hpoint hstep type, fun hno => by simp [isKeyTo, type] at hno⟩
  · have hnotKey : isKeyTo p.other ⟨q, r⟩ = false := by simp [isKeyTo, type]
    refine ⟨fun hkey => absurd hkey (by rw [hnotKey]; decide), fun _ => ?_⟩
    rcases h.traffic.kind _ hm with hkind | ⟨hq, hnonce⟩ | ⟨hq, halert⟩
    · exact absurd hkind type
    · obtain rfl : q = p.other := hq
      exact h.nonce_arrives hstep hnonce
    · obtain rfl : q = p := hq
      obtain ⟨s, t, hs, ht, initiator, hsw, htn⟩ := h.sessions
      obtain ⟨⟨s', hs', hinit', hsw'⟩, hother, hkey, htraffic, -⟩ :=
        alert_restarts hpoint hstep halert hs initiator h.traffic
      exact ⟨⟨s', t, hs', hother.trans ht, hinit', hsw', htn⟩, hkey, htraffic⟩

/-- A responder that has a key ignores further ones. -/
theorem key_to_responder {r : SmkexT4mRecord} {env : Env K}
    (hstep : w.step ssl serial ⟨⟨p.other, r⟩, env⟩ = some w') (type : r.type = .handshakeKey)
    {t : SmkexSessionInfo K} (ht : w.session p.other = some t)
    (status : t.status = .waitNonceInit ∨ t.status = .waitNonce2HInit)
    {T : Flying → Prop} {tokens keys : Nat} (h : Traffic ssl p w.flight T tokens keys) :
    w'.session p.other = some t ∧ w'.session p = w.session p ∧
      Traffic ssl p w'.flight T tokens keys ∧
      totalWeight p w'.flight < totalWeight p w.flight := by
  have hm := mem_of_step hstep
  have hexits : ¬ Exits ssl t r := by
    rcases status with status | status <;>
      simp [Exits, type, status, SMKEX_T4M_Type.Named]
  obtain ⟨t', records, answer, ht', hother, hflight⟩ := step_answers hstep ht hexits
  have hignored : t.status = .waitNonceHDest ∨ t.status = .waitNonceInit ∨
      t.status = .waitKeyInit ∨ t.status = .waitNonce2HInit := by
    rcases status with status | status <;> simp [status]
  obtain ⟨rfl, rfl⟩ := answer.unique (.keyIgnored type hignored)
  rw [Side.other_other] at hother
  refine ⟨ht', hother, ?_, totalWeight_arrival hm hflight ?_⟩
  · have hno : isKeyTo p ⟨p.other, r⟩ = false := by simp [isKeyTo, Side.other_ne]
    have htraffic := h.key_ignored hm type hflight
    rw [hno] at htraffic
    exact htraffic
  · simp [totalWeight, toward, weight, type]

/-- The key that an initiator waits for. -/
theorem key_to_initiator {r : SmkexT4mRecord} {env : Env K}
    (hstep : w.step ssl serial ⟨⟨p, r⟩, env⟩ = some w') (type : r.type = .handshakeKey)
    {s : SmkexSessionInfo K} (hs : w.session p = some s) {T : Flying → Prop}
    {tokens keys : Nat} (ready : Ready s keys)
    (h : Traffic ssl p w.flight T tokens keys) :
    (∃ s', w'.session p = some s' ∧ Ready s' 0) ∧
      w'.session p.other = w.session p.other ∧
      Traffic ssl p w'.flight T tokens 0 ∧
      totalWeight p w'.flight < totalWeight p w.flight := by
  have hm := mem_of_step hstep
  have hkey : isKeyTo p ⟨p, r⟩ = true := by simp [isKeyTo, type]
  have hpos : 0 < keys := by
    rw [← h.keys]
    exact List.countP_pos_iff.2 ⟨_, hm, hkey⟩
  have hvalid := h.valid _ hm type
  obtain ⟨initiator, ⟨status, hone⟩ | ⟨-, hzero, -⟩⟩ := ready
  · have hexits : ¬ Exits ssl s r := by simp [Exits, type, hvalid.1, SMKEX_T4M_Type.Named]
    obtain ⟨s', records, answer, hs', hother, hflight⟩ := step_answers hstep hs hexits
    obtain ⟨rfl, rfl⟩ := answer.unique (.keyToInitiator type status hvalid.1)
    refine ⟨⟨_, hs', initiator, Or.inr ⟨rfl, rfl, keyed_len ssl s hvalid.2⟩⟩, hother, ?_,
      totalWeight_arrival hm hflight ?_⟩
    · have htraffic := h.key_ignored hm type hflight
      rw [hkey, if_pos rfl, show keys - 1 = 0 by omega] at htraffic
      exact htraffic
    · simp [totalWeight, toward, weight, type]
  · omega

/-- A verified hash ends the handshake on this side. -/
theorem concluded_connected {v s : SmkexSessionInfo K} {r : SmkexT4mRecord} {env : Env K}
    (hcond : Unharmed ssl w ⟨⟨p, r⟩, env⟩) (hs : w.session p = some s)
    (hv : verified ssl env s r = some v) (buddy : MpString) :
    concluded ssl env buddy v = ({ v with status := .connected }, []) :=
  if_pos (verifyH_iff.2 ((hcond s hs).2.2 v hv))

section Tokens

variable {r : SmkexT4mRecord} {env : Env K} {s t : SmkexSessionInfo K} {keys : Nat}

/-- The nonce reaches a responder that has a key. -/
theorem nonce_to_responder (hsha : ∀ bs, ssl.sha256 bs ≠ [])
    (hstep : w.step ssl serial ⟨⟨p.other, r⟩, env⟩ = some w')
    (type : r.type = .handshakeNonce) (ht : w.session p.other = some t)
    (status : t.status = .waitNonceInit) (len : t.remote_pub_key_len = 65)
    (h : Traffic ssl p w.flight (Opening p) 1 keys) :
    (∃ t', w'.session p.other = some t' ∧ t'.status = .waitNonce2HInit) ∧
      w'.session p = w.session p ∧
      Traffic ssl p w'.flight (NonceHTo p) 1 keys ∧
      totalWeight p w'.flight < totalWeight p w.flight := by
  have hm := mem_of_step hstep
  have hexits : ¬ Exits ssl t r := by simp [Exits, type, SMKEX_T4M_Type.Named]
  obtain ⟨t', records, answer, ht', hother, hflight⟩ := step_answers hstep ht hexits
  rw [Side.other_other] at answer hother hflight
  obtain ⟨rfl, rfl⟩ := answer.unique (.nonceToResponder type status)
  have hlen : (nonced env t r).remote_pub_key_len ≠ 0 := by
    show t.remote_pub_key_len ≠ 0
    omega
  rw [nonceHRecords_eq env (serial p) hsha hlen] at hflight
  refine ⟨⟨_, ht', rfl⟩, hother, ?_, totalWeight_arrival hm hflight ?_⟩
  · exact h.reply hm (by simp [type]) hflight (fun htype => by cases htype) ⟨rfl, rfl⟩
  · simp [totalWeight, toward, weight, type, buildRecord, getSmkexT4mRecord2]

/-- Nonce and hash reach an initiator that has the key. -/
theorem nonceH_to_initiator (hsha : ∀ bs, ssl.sha256 bs ≠ [])
    (hcond : Unharmed ssl w ⟨⟨p, r⟩, env⟩)
    (hstep : w.step ssl serial ⟨⟨p, r⟩, env⟩ = some w') (type : r.type = .handshakeNonceH)
    (hs : w.session p = some s) (ready : Ready s keys)
    (h : Traffic ssl p w.flight (NonceHTo p) 1 keys) :
    (∃ s', w'.session p = some s' ∧ s'.status = .connected) ∧
      w'.session p.other = w.session p.other ∧
      Traffic ssl p w'.flight (NonceHTo p.other) 1 0 ∧
      totalWeight p w'.flight < totalWeight p w.flight := by
  have hm := mem_of_step hstep
  obtain ⟨-, ⟨status, -⟩ | ⟨status, rfl, len⟩⟩ := ready
  · exact absurd type ((hcond s hs).1 status)
  · have hexits : ¬ Exits ssl s r := by simp [Exits, type, SMKEX_T4M_Type.Named]
    obtain ⟨s', records, answer, hs', hother, hflight⟩ := step_answers hstep hs hexits
    obtain ⟨rfl, rfl⟩ := answer.unique (.nonceHToInitiator type status)
    have hv : verified ssl env s r = some (nonced env (hashed s r) r) := by
      simp [verified, type, status]
    have hconcluded := concluded_connected hcond hs hv (serial p.other)
    rw [hconcluded] at hs' hflight
    have hlen : s.remote_pub_key_len ≠ 0 := by omega
    rw [nonceHRecords_eq env (serial p.other) hsha hlen, List.append_nil] at hflight
    refine ⟨⟨_, hs', rfl⟩, hother, ?_, totalWeight_arrival hm hflight ?_⟩
    · exact h.reply hm (by simp [type]) hflight (fun htype => by cases htype) ⟨rfl, rfl⟩
    · simp [totalWeight, toward, weight, type, buildRecord, getSmkexT4mRecord2, Side.other_ne]

/-- Nonce and hash reach the responder. -/
theorem nonceH_to_responder (hcond : Unharmed ssl w ⟨⟨p.other, r⟩, env⟩)
    (hstep : w.step ssl serial ⟨⟨p.other, r⟩, env⟩ = some w')
    (type : r.type = .handshakeNonceH) (ht : w.session p.other = some t)
    (status : t.status = .waitNonce2HInit)
    (h : Traffic ssl p w.flight (NonceHTo p.other) 1 0) :
    (∃ t', w'.session p.other = some t' ∧ t'.status = .connected) ∧
      w'.session p = w.session p ∧
      Traffic ssl p w'.flight (fun _ => False) 0 0 ∧
      totalWeight p w'.flight < totalWeight p w.flight := by
  have hm := mem_of_step hstep
  have hexits : ¬ Exits ssl t r := by simp [Exits, type, SMKEX_T4M_Type.Named]
  obtain ⟨t', records, answer, ht', hother, hflight⟩ := step_answers hstep ht hexits
  rw [Side.other_other] at answer hother hflight
  obtain ⟨rfl, rfl⟩ := answer.unique (.nonceHToResponder type status)
  have hv : verified ssl env t r = some (nonced env (hashed t r) r) := by
    simp [verified, type, status]
  have hconcluded := concluded_connected hcond ht hv (serial p)
  rw [hconcluded] at ht' hflight
  refine ⟨⟨_, ht', rfl⟩, hother, h.last hm (by simp [type]) hflight,
    totalWeight_arrival hm hflight ?_⟩
  simp [totalWeight, toward, weight, type, Side.other_ne]

end Tokens

theorem Ready.keys_le {s : SmkexSessionInfo K} {keys : Nat} (h : Ready s keys) : keys ≤ 1 := by
  obtain ⟨-, ⟨-, hkeys⟩ | ⟨-, hkeys, -⟩⟩ := h <;> omega

/-- **The later stages make progress.**  Every arrival leads to a later stage
again, with less left to happen. -/
theorem Later.step (hpoint : ∀ k, ssl.oct2point (ssl.pub k))
    (hsha : ∀ bs, ssl.sha256 bs ≠ []) (h : Later ssl p w) (hcond : Unharmed ssl w a)
    (hstep : w.step ssl serial a = some w') :
    Later ssl p w' ∧ totalWeight p w'.flight < totalWeight p w.flight := by
  obtain ⟨⟨q, r⟩, env⟩ := a
  have hm := mem_of_step hstep
  cases h with
  | keyed s t keys initiator responder ready status len traffic =>
      by_cases type : r.type = .handshakeKey
      · rcases Side.eq_or_other p q with rfl | rfl
        · obtain ⟨⟨s', hs', ready'⟩, hother, traffic', hweight⟩ :=
            key_to_initiator hstep type initiator ready traffic
          exact ⟨.keyed s' t 0 hs' (hother.trans responder) ready' status len traffic', hweight⟩
        · obtain ⟨ht, hother, traffic', hweight⟩ :=
            key_to_responder hstep type responder (Or.inl status) traffic
          exact ⟨.keyed s t keys (hother.trans initiator) ht ready status len traffic', hweight⟩
      · rcases traffic.kind _ hm with hkey | ⟨hq, hnonce⟩ | ⟨hq, halert⟩
        · exact absurd hkey type
        · obtain rfl : q = p.other := hq
          obtain ⟨⟨t', ht', status'⟩, hother, traffic', hweight⟩ :=
            nonce_to_responder hsha hstep hnonce responder status len traffic
          exact ⟨.nonced s t' keys (hother.trans initiator) ht' ready status' traffic', hweight⟩
        · obtain rfl : q = p := hq
          obtain ⟨⟨s', hs', hinit', hstatus'⟩, hother, -, traffic', hweight⟩ :=
            alert_restarts hpoint hstep halert initiator ready.1 traffic
          exact ⟨.keyed s' t keys hs' (hother.trans responder)
            ⟨hinit', Or.inl ⟨hstatus', ready.keys_le⟩⟩ status len traffic', hweight⟩
  | nonced s t keys initiator responder ready status traffic =>
      by_cases type : r.type = .handshakeKey
      · rcases Side.eq_or_other p q with rfl | rfl
        · obtain ⟨⟨s', hs', ready'⟩, hother, traffic', hweight⟩ :=
            key_to_initiator hstep type initiator ready traffic
          exact ⟨.nonced s' t 0 hs' (hother.trans responder) ready' status traffic', hweight⟩
        · obtain ⟨ht, hother, traffic', hweight⟩ :=
            key_to_responder hstep type responder (Or.inr status) traffic
          exact ⟨.nonced s t keys (hother.trans initiator) ht ready status traffic', hweight⟩
      · rcases traffic.kind _ hm with hkey | ⟨hq, hnonceH⟩
        · exact absurd hkey type
        · obtain rfl : q = p := hq
          obtain ⟨⟨s', hs', connected⟩, hother, traffic', hweight⟩ :=
            nonceH_to_initiator hsha hcond hstep hnonceH initiator ready traffic
          exact ⟨.verified s' t hs' (hother.trans responder) connected status traffic', hweight⟩
  | verified s t initiator responder connected status traffic =>
      by_cases type : r.type = .handshakeKey
      · rcases Side.eq_or_other p q with rfl | rfl
        · exact absurd type (traffic.no_key hm rfl)
        · obtain ⟨ht, hother, traffic', hweight⟩ :=
            key_to_responder hstep type responder (Or.inr status) traffic
          exact ⟨.verified s t (hother.trans initiator) ht connected status traffic', hweight⟩
      · rcases traffic.kind _ hm with hkey | ⟨hq, hnonceH⟩
        · exact absurd hkey type
        · obtain rfl : q = p.other := hq
          obtain ⟨⟨t', ht', status'⟩, hother, traffic', hweight⟩ :=
            nonceH_to_responder hcond hstep hnonceH responder status traffic
          exact ⟨.done s t' (hother.trans initiator) ht' connected status' traffic', hweight⟩
  | done s t initiator responder connected status traffic =>
      rcases traffic.kind _ hm with type | hfalse
      · rcases Side.eq_or_other p q with rfl | rfl
        · exact absurd type (traffic.no_key hm rfl)
        · exact absurd type ((hcond t responder).2.1 status).1
      · exact hfalse.elim

/-- Before a key has been delivered, or after. -/
def InProgress (ssl : OpenSSL K) (p : Side) (w : Pipe K) : Prop :=
  Offered ssl p w ∨ Later ssl p w

theorem InProgress.step (hpoint : ∀ k, ssl.oct2point (ssl.pub k))
    (hsha : ∀ bs, ssl.sha256 bs ≠ []) (h : InProgress ssl p w) (hcond : Unharmed ssl w a)
    (hstep : w.step ssl serial a = some w') : InProgress ssl p w' := by
  rcases h with h | h
  · cases hkey : isKeyTo p.other a.message with
    | true => exact Or.inr ((h.step hpoint hstep).1 hkey)
    | false => exact Or.inl ((h.step hpoint hstep).2 hkey)
  · exact Or.inr (h.step hpoint hsha hcond hstep).1

theorem InProgress.sessions (h : InProgress ssl p w) (q : Side) : ∃ s, w.session q = some s := by
  have hpair : ∃ s t, w.session p = some s ∧ w.session p.other = some t := by
    rcases h with h | h
    · obtain ⟨s, t, hs, ht, -⟩ := h.sessions
      exact ⟨s, t, hs, ht⟩
    · cases h with
      | keyed s t _ hs ht | nonced s t _ hs ht | verified s t hs ht | done s t hs ht =>
          exact ⟨s, t, hs, ht⟩
  obtain ⟨s, t, hs, ht⟩ := hpair
  rcases Side.eq_or_other p q with rfl | rfl
  · exact ⟨s, hs⟩
  · exact ⟨t, ht⟩

/-- With nothing in flight, only the last stage is possible. -/
theorem InProgress.complete (h : InProgress ssl p w) (hempty : w.flight = []) :
    Both w .connected := by
  rcases h with h | h
  · obtain ⟨m, hm, -⟩ := h.key
    rw [hempty] at hm
    cases hm
  · have token : ∀ {T : Flying → Prop} {keys : Nat}, ¬ Traffic ssl p w.flight T 1 keys := by
      intro T keys traffic
      have := traffic.tokens
      rw [hempty] at this
      cases this
    cases h with
    | keyed _ _ _ _ _ _ _ _ traffic => exact absurd traffic token
    | nonced _ _ _ _ _ _ _ traffic => exact absurd traffic token
    | verified _ _ _ _ _ _ traffic => exact absurd traffic token
    | done s t initiator responder connected status _ =>
        intro q
        rcases Side.eq_or_other p q with rfl | rfl
        · exact ⟨s, initiator, connected⟩
        · exact ⟨t, responder, status⟩

/-- The call of `initSession` that starts it. -/
theorem InProgress.start (hpoint : ∀ k, ssl.oct2point (ssl.pub k)) {env : Env K}
    (hboth : Both w .notConnected) (hempty : w.flight = [])
    (hinit : w.initSession ssl serial p env = some w') : InProgress ssl p w' := by
  obtain ⟨s, hs, status⟩ := hboth p
  obtain ⟨t, ht, status'⟩ := hboth p.other
  have hne : s.status ≠ .waitKeyNonceHDest := by rw [status]; decide
  rw [Pipe.initSession, hs, Option.bind_some, initiate_eq, Option.map_some,
    Option.some.injEq] at hinit
  subst hinit
  obtain ⟨hkey, hkind, hvalid, htokens, hkeys, -⟩ :=
    restarted_toward hpoint p env (serial p.other) s hne
  rw [hempty, List.nil_append]
  refine Or.inl ⟨⟨_, t, Function.update_self _ _ _, ?_, restarted_initiator s,
    restarted_status s, status'⟩, hkey, ⟨hkind, htokens, hkeys, hvalid⟩⟩
  exact (Function.update_of_ne (Side.other_ne p) _ _).trans ht

end Stages

/-! ## Infinite orders -/

/-- An order that never ends, in which every record that is sent arrives. -/
structure FairRun (ssl : OpenSSL K) (serial : Side → MpString) (ws : Nat → Pipe K)
    (as : Nat → Arrival K) : Prop where
  step : ∀ i, (ws i).step ssl serial (as i) = some (ws (i + 1))
  fair : ∀ i, ∀ m ∈ (ws i).flight, ∃ j, i ≤ j ∧ (as j).message = m

section Fair

variable {ssl : OpenSSL K} {serial : Side → MpString} {p : Side} {ws : Nat → Pipe K}
  {as : Nat → Arrival K}

/-- The key arrives at some time. -/
private theorem FairRun.later (hpoint : ∀ k, ssl.oct2point (ssl.pub k))
    (hrun : FairRun ssl serial ws as) (hinv : ∀ i, InProgress ssl p (ws i)) :
    ∃ i, Later ssl p (ws i) := by
  rcases hinv 0 with hoffered | hlater
  · obtain ⟨m, hm, hdest, hkey⟩ := hoffered.key
    obtain ⟨j, -, hj⟩ := hrun.fair 0 m hm
    rcases hinv j with hoffered | hlater
    · refine ⟨j + 1, (hoffered.step hpoint (hrun.step j)).1 ?_⟩
      rw [hj]
      simp [isKeyTo, hdest, hkey]
    · exact ⟨j, hlater⟩
  · exact ⟨0, hlater⟩

theorem no_fair_run (hpoint : ∀ k, ssl.oct2point (ssl.pub k))
    (hsha : ∀ bs, ssl.sha256 bs ≠ []) (hrun : FairRun ssl serial ws as)
    (hstart : InProgress ssl p (ws 0)) (hcond : ∀ i, Unharmed ssl (ws i) (as i)) : False := by
  have hinv : ∀ i, InProgress ssl p (ws i) := by
    intro i
    induction i with
    | zero => exact hstart
    | succ i ih => exact ih.step hpoint hsha (hcond i) (hrun.step i)
  obtain ⟨i, hi⟩ := hrun.later hpoint hinv
  have hlater : ∀ k, Later ssl p (ws (i + k)) := by
    intro k
    induction k with
    | zero => exact hi
    | succ k ih => exact (ih.step hpoint hsha (hcond _) (hrun.step _)).1
  -- from there on the weight decreases for ever
  refine not_strictAnti_of_wellFoundedLT (fun k => totalWeight p (ws (i + k)).flight)
    (strictAnti_nat_of_succ_lt fun k => ?_)
  exact ((hlater k).step hpoint hsha (hcond _) (hrun.step _)).2

end Fair

/-! ## Renewal between connected parties -/

def isNonce (m : Flying) : Bool := m.record.type = .handshakeNonce

/-- The initiator waits for a key that the responder does not send again. -/
structure Hung (p : Side) (w : Pipe K) : Prop where
  initiator : ∃ s, w.session p = some s ∧ s.status = .waitKeyNonceHDest
  kind : ∀ m ∈ w.flight,
    m.dest = p.other ∧ (m.record.type = .handshakeKey ∨ m.record.type = .handshakeNonce) ∨
      m.dest = p ∧ m.record.type = .handshakeNonceH
  nonces : w.flight.countP isNonce ≤ 1
  responder : ∃ t, w.session p.other = some t ∧
    (t.status = .connected ∨ t.status = .waitNonceInit ∨
      (t.status = .waitNonce2HInit ∨ t.status = .waitKeyInit) ∧
        w.flight.countP isNonce = 0)

section Renewal

variable {ssl : OpenSSL K} {serial : Side → MpString} {p : Side} {w w' : Pipe K}
  {a : Arrival K}

/-- The flight of a renewal after an arrival that is answered with hashes only. -/
private theorem Hung.flight (h : Hung p w) {m : Flying} (hm : m ∈ w.flight)
    {l' new : List Flying} (hl : l' = w.flight.erase m ++ new)
    (hnew : ∀ x ∈ new, x.dest = p ∧ x.record.type = .handshakeNonceH) :
    (∀ x ∈ l', x.dest = p.other ∧
        (x.record.type = .handshakeKey ∨ x.record.type = .handshakeNonce) ∨
          x.dest = p ∧ x.record.type = .handshakeNonceH) ∧
      l'.countP isNonce + (if isNonce m then 1 else 0) = w.flight.countP isNonce := by
  constructor
  · intro x hx
    rcases mem_arrival hl hx with hx | hx
    · exact h.kind x hx
    · exact Or.inr (hnew x hx)
  · have hnone : new.countP isNonce = 0 := by
      rw [List.countP_eq_zero]
      intro x hx
      simp [isNonce, (hnew x hx).2]
    have hcount := countP_arrival isNonce hm hl
    rw [hnone] at hcount
    omega

/-- A key reaches the responder, and is stored or ignored. -/
private theorem Hung.key (h : Hung p w) {r : SmkexT4mRecord} {env : Env K}
    (hstep : w.step ssl serial ⟨⟨p.other, r⟩, env⟩ = some w') (type : r.type = .handshakeKey) :
    Hung p w' := by
  obtain ⟨s, hs, hstatus⟩ := h.initiator
  obtain ⟨t, ht, hresponder⟩ := h.responder
  have hm := mem_of_step hstep
  have hexits : ¬ Exits ssl t r := by
    rcases hresponder with status | status | ⟨status | status, -⟩ <;>
      simp [Exits, type, status, SMKEX_T4M_Type.Named]
  obtain ⟨t', records, answer, ht', hother, hflight⟩ := step_answers hstep ht hexits
  rw [Side.other_other] at answer hother hflight
  have hno : isNonce ⟨p.other, r⟩ = false := by simp [isNonce, type]
  by_cases hconnected : t.status = .connected
  · obtain ⟨rfl, rfl⟩ := answer.unique (.keyRenewed type hconnected)
    obtain ⟨hkind, hcount⟩ := h.flight hm hflight (by simp [toward])
    rw [hno] at hcount
    have hnonces := h.nonces
    exact ⟨⟨s, hother.trans hs, hstatus⟩, hkind, by simp at hcount; omega,
      ⟨_, ht', Or.inr (Or.inl rfl)⟩⟩
  · have hignored : t.status = .waitNonceHDest ∨ t.status = .waitNonceInit ∨
        t.status = .waitKeyInit ∨ t.status = .waitNonce2HInit := by
      rcases hresponder with status | status | ⟨status | status, -⟩
      · exact absurd status hconnected
      all_goals simp [status]
    obtain ⟨rfl, rfl⟩ := answer.unique (.keyIgnored type hignored)
    obtain ⟨hkind, hcount⟩ := h.flight hm hflight (by simp [toward])
    rw [hno] at hcount
    have hcount' : w'.flight.countP isNonce = w.flight.countP isNonce := by simpa using hcount
    refine ⟨⟨s, hother.trans hs, hstatus⟩, hkind, by rw [hcount']; exact h.nonces,
      ⟨_, ht', ?_⟩⟩
    rw [hcount']
    exact hresponder

/-- The nonce reaches the responder. -/
private theorem Hung.nonce (h : Hung p w) {r : SmkexT4mRecord} {env : Env K}
    (hstep : w.step ssl serial ⟨⟨p.other, r⟩, env⟩ = some w')
    (type : r.type = .handshakeNonce) : Hung p w' := by
  obtain ⟨s, hs, hstatus⟩ := h.initiator
  obtain ⟨t, ht, hresponder⟩ := h.responder
  have hm := mem_of_step hstep
  have hyes : isNonce ⟨p.other, r⟩ = true := by simp [isNonce, type]
  have hexits : ¬ Exits ssl t r := by simp [Exits, type, SMKEX_T4M_Type.Named]
  obtain ⟨t', records, answer, ht', hother, hflight⟩ := step_answers hstep ht hexits
  rw [Side.other_other] at answer hother hflight
  have finish : (∀ x ∈ records, x.type = .handshakeNonceH) →
      (t'.status = .waitNonce2HInit ∨ t'.status = .waitKeyInit) → Hung p w' := by
    intro hrecords hstatus'
    obtain ⟨hkind, hcount⟩ := h.flight hm hflight (by simpa [toward] using hrecords)
    rw [hyes, if_pos rfl] at hcount
    have hnonces := h.nonces
    exact ⟨⟨s, hother.trans hs, hstatus⟩, hkind, by omega,
      ⟨t', ht', Or.inr (Or.inr ⟨hstatus', by omega⟩)⟩⟩
  rcases hresponder with status | status | ⟨-, hzero⟩
  · obtain ⟨rfl, rfl⟩ := answer.unique (.nonceRenewed type status)
    exact finish (by simp) (Or.inr rfl)
  · obtain ⟨rfl, rfl⟩ := answer.unique (.nonceToResponder type status)
    exact finish (fun x hx => nonceHRecords_type hx) (Or.inl rfl)
  · exact absurd hyes (List.countP_eq_zero.1 hzero _ hm)

theorem Hung.step (h : Hung p w) (hstep : w.step ssl serial a = some w') : Hung p w' := by
  obtain ⟨⟨q, r⟩, env⟩ := a
  have hm := mem_of_step hstep
  rcases h.kind _ hm with ⟨hq, type | type⟩ | ⟨hq, type⟩
  · obtain rfl : q = p.other := hq
    exact h.key hstep type
  · obtain rfl : q = p.other := hq
    exact h.nonce hstep type
  · obtain rfl : q = p := hq
    obtain ⟨s, hs, status⟩ := h.initiator
    have htype : r.type = .handshakeNonceH := type
    have hexits : ¬ Exits ssl s r := by simp [Exits, htype, SMKEX_T4M_Type.Named]
    obtain ⟨s', records, answer, hs', hother, hflight⟩ := step_answers hstep hs hexits
    obtain ⟨rfl, rfl⟩ := answer.unique (.nonceHEarly type status)
    obtain ⟨hkind, hcount⟩ := h.flight hm hflight (by simp [toward])
    have hcount' : w'.flight.countP isNonce = w.flight.countP isNonce := by
      simpa [isNonce, htype] using hcount
    obtain ⟨t, ht, hresponder⟩ := h.responder
    refine ⟨⟨_, hs', status⟩, hkind, by rw [hcount']; exact h.nonces,
      ⟨t, hother.trans ht, ?_⟩⟩
    rw [hcount']
    exact hresponder

theorem Hung.start {env : Env K} (hboth : Both w .connected) (hempty : w.flight = [])
    (hinit : w.initSession ssl serial p env = some w') : Hung p w' := by
  obtain ⟨s, hs, status⟩ := hboth p
  obtain ⟨t, ht, status'⟩ := hboth p.other
  have hne : s.status ≠ .waitKeyNonceHDest := by rw [status]; decide
  rw [Pipe.initSession, hs, Option.bind_some, initiate_eq, Option.map_some,
    Option.some.injEq, restarted_anew hne] at hinit
  subst hinit
  rw [hempty, List.nil_append]
  refine ⟨⟨_, Function.update_self _ _ _, rfl⟩, ?_, ?_, ⟨t, ?_, Or.inl status'⟩⟩
  · intro m hm
    simp only [toward, List.map_cons, List.map_nil, List.mem_cons, List.not_mem_nil,
      or_false] at hm
    rcases hm with rfl | rfl
    · exact Or.inl ⟨rfl, Or.inl rfl⟩
    · exact Or.inl ⟨rfl, Or.inr rfl⟩
  · simp [toward, isNonce, keyRecord, buildRecord, getSmkexT4mRecord2]
  · exact (Function.update_of_ne (Side.other_ne p) _ _).trans ht

theorem Hung.not_both (h : Hung p w) : ¬ Both w .connected := by
  intro hboth
  obtain ⟨s, hs, hwaiting⟩ := h.initiator
  obtain ⟨s', hs', hconnected⟩ := hboth p
  rw [hs, Option.some.injEq] at hs'
  rw [← hs', hwaiting] at hconnected
  cases hconnected

end Renewal

/-! ## Complete orders -/

/-- Two fresh sessions with nothing in flight. -/
def samplePipe : Pipe UInt8 where
  session p := some (SmkexSessionInfo.new (sampleDraws (sampleSetup.key p)))
  flight := []

theorem samplePipe_both : Both samplePipe .notConnected := fun _ => ⟨_, rfl, rfl⟩

theorem sampleOpenSSL_point (k : UInt8) : sampleOpenSSL.oct2point (sampleOpenSSL.pub k) := by
  simp [sampleOpenSSL]

/-- The order in which the records are sent. -/
def inOrder : List (Arrival UInt8) :=
  [⟨⟨.bob, alicesKey⟩, sampleEnv 2 12⟩, ⟨⟨.bob, alicesNonce⟩, sampleEnv 2 12⟩,
    ⟨⟨.alice, bobsKey⟩, sampleEnv 1 11⟩,
    ⟨⟨.alice, bobsNonceH (sampleSetup.pub .alice)⟩, sampleEnv 1 11⟩,
    ⟨⟨.bob, alicesNonceH⟩, sampleEnv 2 12⟩]

/-- Nonce and hash overtake the key. -/
def earlyNonceH : List (Arrival UInt8) :=
  [⟨⟨.bob, alicesKey⟩, sampleEnv 2 12⟩, ⟨⟨.bob, alicesNonce⟩, sampleEnv 2 12⟩,
    ⟨⟨.alice, bobsNonceH (sampleSetup.pub .alice)⟩, sampleEnv 1 11⟩,
    ⟨⟨.alice, bobsKey⟩, sampleEnv 1 11⟩]

end EndToEndSmkex.Smkex.Completion
