import EndToEndSmkex.Smkex.Handshake

/-!
# What one step of a session can do

`Answer` lists, once, every way in which a session answers a record: when the
way is taken, the session afterwards and the records sent.  `answer_cases`
shows that the handler does nothing else; invariants of runs are proved by
cases over `Answer` and never look into the handler.
-/

namespace EndToEndSmkex.Smkex.Transitions

open EndToEndSmkex.Lib.CBuffer
open EndToEndSmkex.Lib.Actions
open EndToEndSmkex.Smkex.Record
open EndToEndSmkex.Smkex.SessionInfo
open EndToEndSmkex.Smkex.Handshake

variable {K : Type} (ssl : OpenSSL K) (env : Env K) (buddy : MpString)

/-! ## Session updates -/

section Updates

variable (s : SmkexSessionInfo K) (r : SmkexT4mRecord)

/-- The session with the received key stored. -/
def keyStored : SmkexSessionInfo K :=
  { s with
    remote_pub_key := s.remote_pub_key.write r.data
    remote_pub_key_len := r.length.toNat }

/-- The session with the received key stored and the session key derived from
it; where the derivation fails the old session key stays. -/
def keyed : SmkexSessionInfo K :=
  { keyStored s r with
    session_key := (sessionKeyOf ssl s.ec_key r.data).getD s.session_key }

/-- The session with room for the received key. -/
def reallocated : SmkexSessionInfo K :=
  { s with remote_pub_key := s.remote_pub_key.realloc r.length.toNat }

/-- A connected session that got another key. -/
def rekeyed : SmkexSessionInfo K :=
  { s with
    remote_pub_key := s.remote_pub_key.write (readN r.data (env.heap .recData) PUB_KEY_LEN)
    status := .waitNonceInit }

/-- The session with the received nonce stored. -/
def nonced : SmkexSessionInfo K :=
  { s with
    remote_nonce := s.remote_nonce.write (readN r.data (env.heap .recData) NONCE_LEN) }

/-- The session with the received nonce and hash stored for `verifyH`. -/
def hashed : SmkexSessionInfo K :=
  { s with receivedNonceHValue := some ⟨r.length.toNat, r.data⟩ }

/-- The outcome of `verifyH`: connected, or not connected and an alert. -/
def concluded : SmkexSessionInfo K × List SmkexT4mRecord :=
  if verifyH ssl env s then ({ s with status := .connected }, [])
  else ({ s with status := .notConnected }, [buildRecord env buddy .alert [97, 0]])

/-- The record `sendNonceH` sends, if any. -/
def nonceHRecords : List SmkexT4mRecord :=
  match calculateH ssl (env.heap ∘ .sendNonceH) s.remote_pub_key.bytes
      s.remote_nonce.bytes (ssl.pub s.ec_key) s.local_nonce2.1 NONCE_LEN
      s.remote_pub_key_len with
  | none => []
  | some h =>
    if h.length = 0 then []
    else [buildRecord env buddy .handshakeNonceH (s.local_nonce.1 ++ h)]

/-- The key record every handshake sends. -/
def keyRecord : SmkexT4mRecord := buildRecord env buddy .handshakeKey (ssl.pub s.ec_key)

/-- The outcome of `initSession` on a session. -/
def restarted : SmkexSessionInfo K × List SmkexT4mRecord :=
  if s.status = .waitKeyNonceHDest then ({ s with iAmSessionInitiator := true }, [])
  else
    ({ s with
        iAmSessionInitiator := true
        local_nonce := env.nonce
        status := .waitKeyNonceHDest },
      [keyRecord ssl env buddy s, buildRecord env buddy .handshakeNonce env.nonce.1])

end Updates

/-! ## The transition relation -/

/-- Every way in which a session answers a record. -/
inductive Answer (s : SmkexSessionInfo K) (r : SmkexT4mRecord) :
    SmkexSessionInfo K → List SmkexT4mRecord → Prop where
  | keyFirst (type : r.type = .handshakeKey) (status : s.status = .notConnected)
      (point : ssl.oct2point r.data) :
      Answer s r { keyed ssl (reallocated s r) r with status := .waitNonceInit }
        [keyRecord ssl env buddy s]
  | keyToInitiator (type : r.type = .handshakeKey) (status : s.status = .waitKeyNonceHDest)
      (point : ssl.oct2point r.data) :
      Answer s r { keyed ssl s r with status := .waitNonceHDest } []
  | keyLast (type : r.type = .handshakeKey) (status : s.status = .waitKeyDest)
      (point : ssl.oct2point r.data) :
      Answer s r (concluded ssl env buddy (keyed ssl s r)).1
        (nonceHRecords ssl env buddy (keyed ssl s r) ++
          (concluded ssl env buddy (keyed ssl s r)).2)
  | keyRenewed (type : r.type = .handshakeKey) (status : s.status = .connected) :
      Answer s r (rekeyed env s r) []
  | keyIgnored (type : r.type = .handshakeKey)
      (status : s.status = .waitNonceHDest ∨ s.status = .waitNonceInit ∨
        s.status = .waitKeyInit ∨ s.status = .waitNonce2HInit) :
      Answer s r s []
  | nonceToResponder (type : r.type = .handshakeNonce) (status : s.status = .waitNonceInit) :
      Answer s r { nonced env s r with status := .waitNonce2HInit }
        (nonceHRecords ssl env buddy (nonced env s r))
  | nonceToInitiator (type : r.type = .handshakeNonce)
      (status : s.status = .waitKeyNonceHDest) :
      Answer s r { nonced env s r with
        receivedNonceHValue := s.receivedNonceHValue.map (·.write r.data)
        status := .waitKeyDest } []
  | nonceRenewed (type : r.type = .handshakeNonce) (status : s.status = .connected) :
      Answer s r { nonced env s r with status := .waitKeyInit } []
  | nonceRefused (type : r.type = .handshakeNonce)
      (status : s.status = .notConnected ∨ s.status = .waitNonceHDest ∨
        s.status = .waitKeyDest ∨ s.status = .waitKeyInit ∨ s.status = .waitNonce2HInit) :
      Answer s r { s with status := .notConnected } [buildRecord env buddy .alert [97, 0]]
  | nonceHEarly (type : r.type = .handshakeNonceH) (status : s.status = .waitKeyNonceHDest) :
      Answer s r (nonced env (hashed s r) r) []
  | nonceHToInitiator (type : r.type = .handshakeNonceH)
      (status : s.status = .waitNonceHDest) :
      Answer s r (concluded ssl env buddy (nonced env (hashed s r) r)).1
        (nonceHRecords ssl env buddy s ++
          (concluded ssl env buddy (nonced env (hashed s r) r)).2)
  | nonceHToResponder (type : r.type = .handshakeNonceH)
      (status : s.status = .waitNonce2HInit) :
      Answer s r (concluded ssl env buddy (nonced env (hashed s r) r)).1
        (concluded ssl env buddy (nonced env (hashed s r) r)).2
  | nonceHIgnored (type : r.type = .handshakeNonceH)
      (status : s.status = .notConnected ∨ s.status = .waitKeyDest ∨
        s.status = .waitNonceInit ∨ s.status = .waitKeyInit ∨ s.status = .connected) :
      Answer s r (hashed s r) []
  | alertRestart (type : r.type = .alert) (initiator : s.iAmSessionInitiator = true) :
      Answer s r (restarted ssl env buddy { s with status := .notConnected }).1
        (restarted ssl env buddy { s with status := .notConnected }).2
  | alertIdle (type : r.type = .alert) (initiator : s.iAmSessionInitiator = false) :
      Answer s r { s with status := .notConnected } []
  | dataIgnored (type : r.type = .application_data) : Answer s r s []

/-- The inputs on which the handler ends the process: a type `printRecord` or
the switch refuses, or a key that is no point in a state that derives the
session key at once. -/
def Exits (s : SmkexSessionInfo K) (r : SmkexT4mRecord) : Prop :=
  ¬ r.type.Named ∨ r.type = .handshake ∨ r.type = .handshakeH ∨
    r.type = .handshakeKey ∧ ¬ ssl.oct2point r.data ∧
      (s.status = .notConnected ∨ s.status = .waitKeyNonceHDest ∨ s.status = .waitKeyDest)

/-! ## Finished actions -/

/-- The action ends with the value and has sent exactly the records. -/
def Does {α : Type} (a : Action α) (x : α) (records : List SmkexT4mRecord) : Prop :=
  ∃ log, a.run = some (x, log) ∧ sentRecords log = records

theorem Does.unique {α : Type} {a : Action α} {x y : α} {records : List SmkexT4mRecord}
    {log : List Event} (h : Does a x records) (hrun : a.run = some (y, log)) :
    y = x ∧ sentRecords log = records := by
  obtain ⟨log', hrun', hsent⟩ := h
  rw [hrun] at hrun'
  cases hrun'
  exact ⟨rfl, hsent⟩

theorem sentRecords_append (l₁ l₂ : List Event) :
    sentRecords (l₁ ++ l₂) = sentRecords l₁ ++ sentRecords l₂ :=
  List.filterMap_append

theorem does_pure {α : Type} (x : α) : Does (pure x) x [] := ⟨[], rfl, rfl⟩

theorem Does.bind {α β : Type} {a : Action α} {f : α → Action β} {x : α} {y : β}
    {l₁ l₂ : List SmkexT4mRecord} (ha : Does a x l₁) (hf : Does (f x) y l₂) :
    Does (a >>= f) y (l₁ ++ l₂) := by
  obtain ⟨log₁, ha, h₁⟩ := ha
  obtain ⟨log₂, hf, h₂⟩ := hf
  refine ⟨log₁ ++ log₂, run_bind_eq_some.2 ⟨x, log₁, log₂, ha, hf, rfl⟩, ?_⟩
  rw [sentRecords_append, h₁, h₂]

/-- A step that sends nothing. -/
theorem Does.silent {α β : Type} {a : Action α} {f : α → Action β} {x : α} {y : β}
    {l : List SmkexT4mRecord} (ha : Does a x []) (hf : Does (f x) y l) :
    Does (a >>= f) y l := ha.bind hf

/-- What follows a finished step decides whether the process ends. -/
theorem Does.exits {α β : Type} {a : Action α} {f : α → Action β} {x : α}
    {l : List SmkexT4mRecord} (ha : Does a x l) (hf : (f x).run = none) :
    (a >>= f).run = none := by
  obtain ⟨log, ha, -⟩ := ha
  rw [run_bind, ha, Option.bind_some, hf, Option.map_none]

theorem exits_bind {α β : Type} {a : Action α} {f : α → Action β} (ha : a.run = none) :
    (a >>= f).run = none := by
  rw [run_bind, ha, Option.bind_none]

theorem does_copy (c : Copy) : Does (tell (.copy c)) () [] := ⟨_, rfl, rfl⟩

theorem does_showRecord {r : SmkexT4mRecord} (h : printRecord r = some ()) :
    Does (showRecord r) () [] := ⟨[], by simp [showRecord, h], rfl⟩

theorem does_sendRecord (r : SmkexT4mRecord) (chan : Nat) :
    Does (sendRecord buddy r chan) () [r] :=
  ⟨_, rfl, by simp [sentRecords]⟩

theorem does_sendAlert :
    Does (sendAlert env buddy) () [buildRecord env buddy .alert [97, 0]] :=
  (does_showRecord rfl).silent (does_sendRecord buddy _ 1)

section Parts

variable (s : SmkexSessionInfo K) (r : SmkexT4mRecord)

theorem does_sendNonceH :
    ∃ sent, Does (sendNonceH ssl env buddy s) sent (nonceHRecords ssl env buddy s) := by
  unfold sendNonceH nonceHRecords
  cases calculateH ssl (env.heap ∘ .sendNonceH) s.remote_pub_key.bytes s.remote_nonce.bytes
      (ssl.pub s.ec_key) s.local_nonce2.1 NONCE_LEN s.remote_pub_key_len with
  | none => exact ⟨false, does_pure false⟩
  | some h =>
      by_cases hlen : h.length = 0
      · simp only [hlen, if_true]
        exact ⟨false, does_pure false⟩
      · simp only [hlen, if_false]
        exact ⟨true, (does_showRecord rfl).silent
          ((does_sendRecord buddy _ 2).bind (does_pure true))⟩

theorem does_concludeHandshake :
    Does (concludeHandshake ssl env buddy s) (concluded ssl env buddy s).1
      (concluded ssl env buddy s).2 := by
  unfold concludeHandshake concluded
  by_cases hverify : verifyH ssl env s
  · simp only [hverify, if_true]
    exact does_pure _
  · simp only [hverify]
    exact (does_sendAlert env buddy).bind (does_pure _)

theorem does_restartSession :
    Does (restartSession ssl env buddy s) (restarted ssl env buddy s).1
      (restarted ssl env buddy s).2 := by
  unfold restartSession restarted
  by_cases hstatus : s.status = .waitKeyNonceHDest
  · simp only [hstatus, ne_eq, not_true, if_false, if_true]
    exact does_pure _
  · simp only [hstatus, ne_eq, not_false_eq_true, if_true, if_false]
    exact (does_showRecord rfl).silent ((does_sendRecord buddy _ 1).bind
      ((does_sendRecord buddy _ 1).bind (does_pure _)))

theorem does_storeRemotePubKey : Does (storeRemotePubKey s r) (keyStored s r) [] :=
  (does_copy _).silent (does_pure _)

/-- The derivation reads back exactly the bytes that were stored. -/
theorem stored_key (behind : Bytes) :
    readN (keyStored s r).remote_pub_key.bytes behind (keyStored s r).remote_pub_key_len =
      r.data := by
  have hlen : r.length.toNat = r.data.length := r.data_size.symm
  have hle : r.data.length ≤ (s.remote_pub_key.write r.data).bytes.length := by
    simp [Block.write]
  show readN (s.remote_pub_key.write r.data).bytes behind r.length.toNat = r.data
  rw [hlen, readN_of_le hle, Block.take_write]

theorem does_computeAndStoreSessionKey (h : ssl.oct2point r.data) :
    Does (computeAndStoreSessionKey ssl env (keyStored s r)) (keyed ssl s r) [] := by
  simp only [computeAndStoreSessionKey, stored_key, h, if_true, keyed]
  have hkey : sessionKeyOf ssl (keyStored s r).ec_key r.data =
      sessionKeyOf ssl s.ec_key r.data := rfl
  rw [hkey]
  cases sessionKeyOf ssl s.ec_key r.data with
  | none => exact does_pure _
  | some secret => exact does_pure _

theorem computeAndStoreSessionKey_exits (h : ¬ ssl.oct2point r.data) :
    (computeAndStoreSessionKey ssl env (keyStored s r)).run = none := by
  simp only [computeAndStoreSessionKey, stored_key, h]
  rfl

theorem does_storeRemoteNonce : Does (storeRemoteNonce env s r) (nonced env s r) [] :=
  (does_copy _).silent (does_pure _)

theorem does_storeNonceHValue : Does (storeNonceHValue s r) (hashed s r) [] :=
  (does_copy _).silent (does_pure _)

end Parts

/-! ## The handlers -/

section Handlers

variable (s : SmkexSessionInfo K) (r : SmkexT4mRecord)

/-- An action either ends the process, on an input that does, or gives one of
the answers. -/
private def Covered (a : Action (SmkexSessionInfo K)) : Prop :=
  a.run = none ∧ Exits ssl s r ∨
    ∃ s' records, Does a s' records ∧ Answer ssl env buddy s r s' records

private theorem Covered.after {ssl : OpenSSL K} {env : Env K} {buddy : MpString}
    {s : SmkexSessionInfo K} {r : SmkexT4mRecord} {α : Type} {a : Action α} {x : α}
    {f : α → Action (SmkexSessionInfo K)} (ha : Does a x [])
    (hf : Covered ssl env buddy s r (f x)) : Covered ssl env buddy s r (a >>= f) := by
  rcases hf with ⟨hnone, hexits⟩ | ⟨s', records, hdoes, hanswer⟩
  · exact Or.inl ⟨ha.exits hnone, hexits⟩
  · exact Or.inr ⟨s', records, ha.silent hdoes, hanswer⟩

private theorem onHandshakeKey_covered (type : r.type = .handshakeKey) :
    Covered ssl env buddy s r (onHandshakeKey ssl env buddy s r) := by
  have derive := does_computeAndStoreSessionKey ssl env
  have noPoint := computeAndStoreSessionKey_exits ssl env
  unfold onHandshakeKey
  split
  next status =>
    have store := does_storeRemotePubKey (reallocated s r) r
    by_cases point : ssl.oct2point r.data
    · exact Or.inr ⟨_, _, store.silent ((derive (reallocated s r) r point).silent
        ((does_showRecord rfl).silent ((does_sendRecord buddy _ 1).bind (does_pure _)))),
        .keyFirst type status point⟩
    · exact Or.inl ⟨store.exits (exits_bind (noPoint (reallocated s r) r point)),
        by simp [Exits, type, status, point]⟩
  next status =>
    have store := does_storeRemotePubKey s r
    by_cases point : ssl.oct2point r.data
    · exact Or.inr ⟨_, _, store.silent ((derive s r point).silent (does_pure _)),
        .keyToInitiator type status point⟩
    · exact Or.inl ⟨store.exits (exits_bind (noPoint s r point)),
        by simp [Exits, type, status, point]⟩
  next status =>
    have store := does_storeRemotePubKey s r
    by_cases point : ssl.oct2point r.data
    · obtain ⟨sent, hsend⟩ := does_sendNonceH ssl env buddy (keyed ssl s r)
      exact Or.inr ⟨_, _, store.silent ((derive s r point).silent
        (hsend.bind (does_concludeHandshake ssl env buddy _))), .keyLast type status point⟩
    · exact Or.inl ⟨store.exits (exits_bind (noPoint s r point)),
        by simp [Exits, type, status, point]⟩
  next status =>
    exact Or.inr ⟨_, _, (does_copy _).silent (does_pure _), .keyRenewed type status⟩
  next h₁ h₂ h₃ h₄ =>
    refine Or.inr ⟨_, _, does_pure s, .keyIgnored type ?_⟩
    cases status : s.status <;> simp_all

private theorem onHandshakeNonce_covered (type : r.type = .handshakeNonce) :
    Covered ssl env buddy s r (onHandshakeNonce ssl env buddy s r) := by
  right
  have store := does_storeRemoteNonce env s r
  unfold onHandshakeNonce
  split
  next status =>
    obtain ⟨sent, hsend⟩ := does_sendNonceH ssl env buddy (nonced env s r)
    refine ⟨_, _, store.silent (hsend.bind (does_pure _)), ?_⟩
    rw [List.append_nil]
    exact .nonceToResponder type status
  next status =>
    have overwrite : Does (overwriteNonceHValue (nonced env s r) r)
        { nonced env s r with
          receivedNonceHValue := s.receivedNonceHValue.map (·.write r.data) } [] :=
      (does_copy _).silent (does_pure _)
    exact ⟨_, _, store.silent (overwrite.silent (does_pure _)), .nonceToInitiator type status⟩
  next status => exact ⟨_, _, store.silent (does_pure _), .nonceRenewed type status⟩
  next h₁ h₂ h₃ =>
    refine ⟨_, _, (does_sendAlert env buddy).bind (does_pure _), .nonceRefused type ?_⟩
    cases status : s.status <;> simp_all

private theorem onHandshakeNonceH_covered (type : r.type = .handshakeNonceH) :
    Covered ssl env buddy s r (onHandshakeNonceH ssl env buddy s r) := by
  have storeNonce := does_storeRemoteNonce env (hashed s r) r
  have conclude := does_concludeHandshake ssl env buddy
  unfold onHandshakeNonceH
  refine Covered.after (does_storeNonceHValue s r) (Or.inr ?_)
  split
  next status => exact ⟨_, _, storeNonce, .nonceHEarly type status⟩
  next status =>
    obtain ⟨sent, hsend⟩ := does_sendNonceH ssl env buddy (hashed s r)
    exact ⟨_, _, hsend.bind (storeNonce.silent (conclude _)), .nonceHToInitiator type status⟩
  next status =>
    have again := does_storeNonceHValue (nonced env (hashed s r) r) r
    exact ⟨_, _, storeNonce.silent (again.silent (conclude _)), .nonceHToResponder type status⟩
  next h₁ h₂ h₃ =>
    refine ⟨_, _, does_pure _, .nonceHIgnored type ?_⟩
    cases status : s.status <;> simp_all [hashed]

private theorem onAlert_covered (type : r.type = .alert) :
    Covered ssl env buddy s r (onAlert ssl env buddy s) := by
  right
  by_cases initiator : s.iAmSessionInitiator = true
  · rw [show onAlert ssl env buddy s =
      restartSession ssl env buddy { s with status := .notConnected } from if_pos initiator]
    exact ⟨_, _, does_restartSession ssl env buddy _, .alertRestart type initiator⟩
  · rw [show onAlert ssl env buddy s = pure { s with status := .notConnected } from
      if_neg initiator]
    exact ⟨_, _, does_pure _, .alertIdle type (by simpa using initiator)⟩

private theorem receive_covered :
    Covered ssl env buddy s r (receive ssl env buddy s r) := by
  unfold receive
  cases type : r.type with
  | handshakeKey =>
      exact Covered.after (does_showRecord (by simp [printRecord, type]))
        (onHandshakeKey_covered ssl env buddy s r type)
  | handshakeNonce =>
      exact Covered.after (does_showRecord (by simp [printRecord, type]))
        (onHandshakeNonce_covered ssl env buddy s r type)
  | handshakeNonceH =>
      exact Covered.after (does_showRecord (by simp [printRecord, type]))
        (onHandshakeNonceH_covered ssl env buddy s r type)
  | alert =>
      exact Covered.after (does_showRecord (by simp [printRecord, type]))
        (onAlert_covered ssl env buddy s r type)
  | application_data =>
      exact Or.inr ⟨_, _, (does_showRecord (by simp [printRecord, type])).silent (does_pure s),
        .dataIgnored type⟩
  | handshakeH =>
      exact Or.inl ⟨(does_showRecord (by simp [printRecord, type])).exits rfl,
        by simp [Exits, type]⟩
  | handshake =>
      exact Or.inl ⟨exits_bind (by simp [showRecord, printRecord, type]), by simp [Exits, type]⟩
  | unassigned code =>
      exact Or.inl ⟨exits_bind (by simp [showRecord, printRecord, type]),
        by simp [Exits, type, SMKEX_T4M_Type.Named]⟩

end Handlers

/-! ## Answers -/

/-- What a session becomes and sends on a record; `none` where the process
ends. -/
def answer (s : SmkexSessionInfo K) (r : SmkexT4mRecord) :
    Option (SmkexSessionInfo K × List SmkexT4mRecord) :=
  (receive ssl env buddy s r).run.map fun p => (p.1, sentRecords p.2)

/-- **The handler does nothing but what `Answer` lists.** -/
theorem answer_cases {s s' : SmkexSessionInfo K} {r : SmkexT4mRecord}
    {records : List SmkexT4mRecord} (h : answer ssl env buddy s r = some (s', records)) :
    Answer ssl env buddy s r s' records := by
  obtain ⟨⟨x, log⟩, hrun, hx⟩ := Option.map_eq_some_iff.1 h
  cases hx
  rcases receive_covered ssl env buddy s r with ⟨hnone, -⟩ | ⟨x', l, hdoes, hanswer⟩
  · rw [hnone] at hrun
    cases hrun
  · obtain ⟨hx, hl⟩ := hdoes.unique hrun
    rw [hx, hl]
    exact hanswer

/-- The handler ends the process on nothing but what `Exits` lists. -/
theorem answer_isSome {s : SmkexSessionInfo K} {r : SmkexT4mRecord}
    (h : ¬ Exits ssl s r) : ∃ s' records, answer ssl env buddy s r = some (s', records) := by
  rcases receive_covered ssl env buddy s r with ⟨-, hexits⟩ | ⟨s', l, hdoes, -⟩
  · exact absurd hexits h
  · obtain ⟨log, hrun, hsent⟩ := hdoes
    exact ⟨s', l, by simp [answer, hrun, hsent]⟩

/-- What a session becomes and sends when its owner starts a handshake. -/
def initiate (s : SmkexSessionInfo K) :
    Option (SmkexSessionInfo K × List SmkexT4mRecord) :=
  (restartSession ssl env buddy s).run.map fun p => (p.1, sentRecords p.2)

theorem initiate_eq (s : SmkexSessionInfo K) :
    initiate ssl env buddy s = some (restarted ssl env buddy s) := by
  obtain ⟨log, hrun, hsent⟩ := does_restartSession ssl env buddy s
  simp [initiate, hrun, hsent]

/-- The answer as a function of record type and status. -/
private def outcome (s : SmkexSessionInfo K) (r : SmkexT4mRecord) :
    SmkexSessionInfo K × List SmkexT4mRecord :=
  match r.type, s.status with
  | .handshakeKey, .notConnected =>
      ({ keyed ssl (reallocated s r) r with status := .waitNonceInit },
        [keyRecord ssl env buddy s])
  | .handshakeKey, .waitKeyNonceHDest => ({ keyed ssl s r with status := .waitNonceHDest }, [])
  | .handshakeKey, .waitKeyDest =>
      ((concluded ssl env buddy (keyed ssl s r)).1,
        nonceHRecords ssl env buddy (keyed ssl s r) ++
          (concluded ssl env buddy (keyed ssl s r)).2)
  | .handshakeKey, .connected => (rekeyed env s r, [])
  | .handshakeNonce, .waitNonceInit =>
      ({ nonced env s r with status := .waitNonce2HInit },
        nonceHRecords ssl env buddy (nonced env s r))
  | .handshakeNonce, .waitKeyNonceHDest =>
      ({ nonced env s r with
          receivedNonceHValue := s.receivedNonceHValue.map (·.write r.data)
          status := .waitKeyDest }, [])
  | .handshakeNonce, .connected => ({ nonced env s r with status := .waitKeyInit }, [])
  | .handshakeNonce, _ =>
      ({ s with status := .notConnected }, [buildRecord env buddy .alert [97, 0]])
  | .handshakeNonceH, .waitKeyNonceHDest => (nonced env (hashed s r) r, [])
  | .handshakeNonceH, .waitNonceHDest =>
      ((concluded ssl env buddy (nonced env (hashed s r) r)).1,
        nonceHRecords ssl env buddy s ++ (concluded ssl env buddy (nonced env (hashed s r) r)).2)
  | .handshakeNonceH, .waitNonce2HInit => concluded ssl env buddy (nonced env (hashed s r) r)
  | .handshakeNonceH, _ => (hashed s r, [])
  | .alert, _ =>
      if s.iAmSessionInitiator then restarted ssl env buddy { s with status := .notConnected }
      else ({ s with status := .notConnected }, [])
  | _, _ => (s, [])

private theorem Answer.eq_outcome {s s' : SmkexSessionInfo K} {r : SmkexT4mRecord}
    {records : List SmkexT4mRecord} (h : Answer ssl env buddy s r s' records) :
    outcome ssl env buddy s r = (s', records) := by
  cases h with
  | keyIgnored type status =>
      rcases status with status | status | status | status <;> simp [outcome, type, status]
  | nonceRefused type status =>
      rcases status with status | status | status | status | status <;>
        simp [outcome, type, status]
  | nonceHIgnored type status =>
      rcases status with status | status | status | status | status <;>
        simp [outcome, type, status]
  | alertRestart type initiator => simp [outcome, type, initiator]
  | alertIdle type initiator => simp [outcome, type, initiator]
  | dataIgnored type => simp [outcome, type]
  | keyFirst type status | keyToInitiator type status | keyLast type status
  | keyRenewed type status | nonceToResponder type status | nonceToInitiator type status
  | nonceRenewed type status | nonceHEarly type status | nonceHToInitiator type status
  | nonceHToResponder type status => simp [outcome, type, status]

/-! ## What the updates leave alone -/

/-- The two outcomes of a verification. -/
theorem concluded_cases (s : SmkexSessionInfo K) :
    verifyH ssl env s = true ∧
        concluded ssl env buddy s = ({ s with status := .connected }, []) ∨
      verifyH ssl env s = false ∧
        concluded ssl env buddy s =
          ({ s with status := .notConnected }, [buildRecord env buddy .alert [97, 0]]) := by
  unfold concluded
  cases verifyH ssl env s with
  | true => exact Or.inl ⟨rfl, rfl⟩
  | false => exact Or.inr ⟨rfl, rfl⟩

section Frame

variable {ssl env buddy} {s s' : SmkexSessionInfo K} {r : SmkexT4mRecord}
  {records : List SmkexT4mRecord}

/-- A session has one answer to a record. -/
theorem Answer.unique {s₁ s₂ : SmkexSessionInfo K} {l₁ l₂ : List SmkexT4mRecord}
    (h₁ : Answer ssl env buddy s r s₁ l₁) (h₂ : Answer ssl env buddy s r s₂ l₂) :
    s₁ = s₂ ∧ l₁ = l₂ := by
  have h := (Answer.eq_outcome _ _ _ h₁).symm.trans (Answer.eq_outcome _ _ _ h₂)
  exact ⟨congrArg Prod.fst h, congrArg Prod.snd h⟩

/-- No input that ends the process has an answer. -/
theorem Answer.not_exits (h : Answer ssl env buddy s r s' records) : ¬ Exits ssl s r := by
  cases h with
  | keyFirst type _ point | keyToInitiator type _ point | keyLast type _ point =>
      simp [Exits, type, point, SMKEX_T4M_Type.Named]
  | keyRenewed type status => simp [Exits, type, status, SMKEX_T4M_Type.Named]
  | keyIgnored type status =>
      rcases status with status | status | status | status <;>
        simp [Exits, type, status, SMKEX_T4M_Type.Named]
  | nonceToResponder type | nonceToInitiator type | nonceRenewed type | nonceRefused type
  | nonceHEarly type | nonceHToInitiator type | nonceHToResponder type | nonceHIgnored type
  | alertRestart type | alertIdle type | dataIgnored type =>
      simp [Exits, type, SMKEX_T4M_Type.Named]

/-- **The process ends exactly on what `Exits` lists.** -/
theorem answer_eq_none_iff : answer ssl env buddy s r = none ↔ Exits ssl s r := by
  constructor
  · intro hnone
    by_contra hexits
    obtain ⟨t, l, hanswer⟩ := answer_isSome ssl env buddy hexits
    rw [hnone] at hanswer
    cases hanswer
  · intro hexits
    cases hanswer : answer ssl env buddy s r with
    | none => rfl
    | some q => exact absurd hexits (answer_cases ssl env buddy hanswer).not_exits

/-- A handshake that is under way already is not started again. -/
theorem restarted_waiting (h : s.status = .waitKeyNonceHDest) :
    restarted ssl env buddy s = ({ s with iAmSessionInitiator := true }, []) := if_pos h

theorem restarted_anew (h : s.status ≠ .waitKeyNonceHDest) :
    restarted ssl env buddy s =
      ({ s with
          iAmSessionInitiator := true
          local_nonce := env.nonce
          status := .waitKeyNonceHDest },
        [keyRecord ssl env buddy s, buildRecord env buddy .handshakeNonce env.nonce.1]) :=
  if_neg h

theorem restarted_status (s : SmkexSessionInfo K) :
    (restarted ssl env buddy s).1.status = .waitKeyNonceHDest := by
  by_cases h : s.status = .waitKeyNonceHDest
  · rw [restarted_waiting h]
    exact h
  · rw [restarted_anew h]

theorem restarted_initiator (s : SmkexSessionInfo K) :
    (restarted ssl env buddy s).1.iAmSessionInitiator = true := by
  unfold restarted
  split <;> rfl

@[simp] theorem restarted_ec_key (s : SmkexSessionInfo K) :
    (restarted ssl env buddy s).1.ec_key = s.ec_key := by
  unfold restarted
  split <;> rfl

@[simp] theorem restarted_remote_nonce (s : SmkexSessionInfo K) :
    (restarted ssl env buddy s).1.remote_nonce = s.remote_nonce := by
  unfold restarted
  split <;> rfl

@[simp] theorem concluded_ec_key (s : SmkexSessionInfo K) :
    (concluded ssl env buddy s).1.ec_key = s.ec_key := by
  unfold concluded
  split <;> rfl

/-- The key pair is the constructor's. -/
theorem Answer.ec_key (h : Answer ssl env buddy s r s' records) : s'.ec_key = s.ec_key := by
  cases h <;> simp [keyed, keyStored, reallocated, rekeyed, nonced, hashed]

@[simp] theorem concluded_remote_nonce (s : SmkexSessionInfo K) :
    (concluded ssl env buddy s).1.remote_nonce = s.remote_nonce := by
  unfold concluded
  split <;> rfl

/-- The key record carries the whole key. -/
theorem keyRecord_data (ssl : OpenSSL K) (env : Env K) (buddy : MpString)
    (s : SmkexSessionInfo K) : (keyRecord ssl env buddy s).data = ssl.pub s.ec_key :=
  buildRecord_data env buddy _ (by rw [ssl.pub_size]; decide)

/-- A handshake is started with the key and a nonce. -/
theorem mem_restarted {q : SmkexT4mRecord} (hq : q ∈ (restarted ssl env buddy s).2) :
    q = keyRecord ssl env buddy s ∨ q.type = .handshakeNonce := by
  by_cases hstatus : s.status = .waitKeyNonceHDest
  · rw [restarted_waiting hstatus] at hq
    cases hq
  · rw [restarted_anew hstatus] at hq
    rcases List.mem_cons.1 hq with hkey | hnonce
    · exact Or.inl hkey
    · rw [List.mem_singleton.1 hnonce]
      exact Or.inr rfl

/-- A handshake is started with the session's own key. -/
theorem restarted_key_records {q : SmkexT4mRecord}
    (hq : q ∈ (restarted ssl env buddy s).2) (type : q.type = .handshakeKey) :
    q.data = ssl.pub s.ec_key := by
  rcases mem_restarted hq with hkey | hnonce
  · rw [hkey]
    exact keyRecord_data ssl env buddy s
  · rw [hnonce] at type
    cases type

theorem nonceHRecords_type {q : SmkexT4mRecord} (hq : q ∈ nonceHRecords ssl env buddy s) :
    q.type = .handshakeNonceH := by
  unfold nonceHRecords at hq
  split at hq
  · cases hq
  · split at hq
    · cases hq
    · rw [List.mem_singleton.1 hq]
      rfl

/-- The only record a verification leads to is an alert. -/
theorem concluded_type {q : SmkexT4mRecord} (hq : q ∈ (concluded ssl env buddy s).2) :
    q.type = .alert := by
  rcases concluded_cases ssl env buddy s with ⟨-, heq⟩ | ⟨-, heq⟩
  · rw [heq] at hq
    cases hq
  · rw [heq, List.mem_singleton] at hq
    rw [hq]
    rfl

/-- So is every key that is sent in answer. -/
theorem Answer.key_records (h : Answer ssl env buddy s r s' records)
    {q : SmkexT4mRecord} (hq : q ∈ records) (type : q.type = .handshakeKey) :
    q.data = ssl.pub s.ec_key := by
  have notNonceH : ∀ {t : SmkexSessionInfo K}, q ∉ nonceHRecords ssl env buddy t := by
    intro t ht
    rw [nonceHRecords_type ht] at type
    cases type
  have notAlert : ∀ {t : SmkexSessionInfo K}, q ∉ (concluded ssl env buddy t).2 := by
    intro t ht
    rw [concluded_type ht] at type
    cases type
  cases h with
  | keyFirst =>
      rw [List.mem_singleton.1 hq]
      exact keyRecord_data ssl env buddy s
  | keyLast => exact absurd hq (by simp [notNonceH, notAlert])
  | nonceToResponder => exact absurd hq notNonceH
  | nonceRefused =>
      rw [List.mem_singleton] at hq
      rw [hq] at type
      cases type
  | nonceHToInitiator => exact absurd hq (by simp [notNonceH, notAlert])
  | nonceHToResponder => exact absurd hq notAlert
  | alertRestart =>
      -- the status it is restarted from does not matter to the key
      have hkey := restarted_key_records hq type
      exact hkey
  | keyToInitiator | keyRenewed | keyIgnored | nonceToInitiator | nonceRenewed | nonceHEarly
  | nonceHIgnored | alertIdle | dataIgnored => cases hq

/-- A handshake is started without a hash. -/
theorem restarted_not_nonceH {q : SmkexT4mRecord} (hq : q ∈ (restarted ssl env buddy s).2) :
    q.type ≠ .handshakeNonceH := by
  rcases mem_restarted hq with hkey | hnonce
  · rw [hkey]
    simp [keyRecord, buildRecord, getSmkexT4mRecord2]
  · rw [hnonce]
    decide

/-- The session that `sendNonceH` is called on while the record is answered. -/
def hashing (ssl : OpenSSL K) (env : Env K) (s : SmkexSessionInfo K)
    (r : SmkexT4mRecord) : Option (SmkexSessionInfo K) :=
  match s.status, r.type with
  | .waitKeyDest, .handshakeKey => if ssl.oct2point r.data then some (keyed ssl s r) else none
  | .waitNonceInit, .handshakeNonce => some (nonced env s r)
  -- the nonce of this record is stored after the call
  | .waitNonceHDest, .handshakeNonceH => some (hashed s r)
  | _, _ => none

/-- Every hash that is sent in answer comes from that call. -/
theorem Answer.nonceH_records (h : Answer ssl env buddy s r s' records)
    {q : SmkexT4mRecord} (hq : q ∈ records) (type : q.type = .handshakeNonceH) :
    ∃ w, hashing ssl env s r = some w ∧ q ∈ nonceHRecords ssl env buddy w := by
  have notAlert : ∀ {t : SmkexSessionInfo K}, q ∉ (concluded ssl env buddy t).2 := by
    intro t ht
    rw [concluded_type ht] at type
    cases type
  cases h with
  | keyLast keyType status point =>
      exact ⟨keyed ssl s r, by simp [hashing, keyType, status, point],
        (List.mem_append.1 hq).resolve_right notAlert⟩
  | nonceToResponder nonceType status =>
      exact ⟨nonced env s r, by simp [hashing, nonceType, status], hq⟩
  | nonceHToInitiator nonceHType status =>
      exact ⟨hashed s r, by simp [hashing, nonceHType, status],
        (List.mem_append.1 hq).resolve_right notAlert⟩
  | nonceHToResponder => exact absurd hq notAlert
  | keyFirst | nonceRefused =>
      rw [List.mem_singleton] at hq
      rw [hq] at type
      cases type
  | alertRestart => exact absurd type (restarted_not_nonceH hq)
  | keyToInitiator | keyRenewed | keyIgnored | nonceToInitiator | nonceRenewed | nonceHEarly
  | nonceHIgnored | alertIdle | dataIgnored => cases hq

/-- The hash a party sends. -/
def sentH (ssl : OpenSSL K) (env : Env K) (s : SmkexSessionInfo K) : Bytes :=
  ssl.sha256 (hashInput (env.heap ∘ .sendNonceH) s.remote_pub_key.bytes s.remote_nonce.bytes
    (ssl.pub s.ec_key) s.local_nonce2.1)

/-- Unless the digest is empty, a party that has a key has a hash to send. -/
theorem nonceHRecords_eq (env : Env K) (buddy : MpString) (hsha : ∀ bs, ssl.sha256 bs ≠ [])
    (hlen : s.remote_pub_key_len ≠ 0) :
    nonceHRecords ssl env buddy s =
      [buildRecord env buddy .handshakeNonceH (s.local_nonce.1 ++ sentH ssl env s)] := by
  have hdigest : (sentH ssl env s).length ≠ 0 := by simpa [sentH] using hsha _
  unfold nonceHRecords calculateH
  rw [if_neg (by decide), if_neg hlen]
  exact if_neg hdigest

/-- A digest is not empty. -/
theorem sha256_ne_nil (hsize : ∀ bs, (ssl.sha256 bs).length = 32) (bs : Bytes) :
    ssl.sha256 bs ≠ [] := by
  rw [← List.length_pos_iff, hsize]
  decide

/-- The nonce and the hash of such a record. -/
theorem nonceHRecords_data {env : Env K} {buddy : MpString} {q : SmkexT4mRecord}
    (hsize : ∀ bs, (ssl.sha256 bs).length = 32) (h : q ∈ nonceHRecords ssl env buddy s) :
    q.data = s.local_nonce.1 ++ sentH ssl env s := by
  by_cases hlen : s.remote_pub_key_len = 0
  · unfold nonceHRecords calculateH at h
    rw [if_neg (by decide), if_pos hlen] at h
    cases h
  · rw [nonceHRecords_eq env buddy (sha256_ne_nil hsize) hlen, List.mem_singleton] at h
    rw [h]
    apply buildRecord_data
    rw [List.length_append, s.local_nonce.2, sentH, hsize]
    decide

/-- A nonce is stored from a record that starts with it. -/
theorem nonced_remoteNonce {nonce : Nonce} (h : nonce.1 <+: r.data) :
    (nonced env s r).remoteNonce = nonce.1 := by
  obtain ⟨rest, hdata⟩ := h
  have hlen : NONCE_LEN ≤ (nonce.1 ++ rest).length := by
    rw [List.length_append, nonce.2]
    omega
  show (s.remote_nonce.write (readN r.data (env.heap .recData) NONCE_LEN)).bytes.take
    NONCE_LEN = nonce.1
  rw [← hdata, readN_of_le hlen, List.take_left' nonce.2,
    Block.take_write_of_le (by rw [nonce.2]), List.take_of_length_le (by rw [nonce.2])]

/-- A stored key is read back as it came. -/
@[simp] theorem keyed_remoteKey (s : SmkexSessionInfo K) (r : SmkexT4mRecord) :
    (keyed ssl s r).remoteKey = r.data := by
  show (s.remote_pub_key.write r.data).bytes.take r.length.toNat = r.data
  rw [← r.data_size, Block.take_write]

/-- Where the derivation succeeds, the stored session key is the derived one. -/
theorem keyed_session_key {secret : Bytes} (s : SmkexSessionInfo K)
    (h : sessionKeyOf ssl s.ec_key r.data = some secret) :
    (keyed ssl s r).session_key = secret := by
  simp [keyed, h]

end Frame

/-! ## Holding a key -/

/-- The states in which the peer's key has been stored. -/
def HasKey : State → Prop
  | .waitNonceHDest => True
  | .waitNonceInit => True
  | .waitNonce2HInit => True
  | .connected => True
  | _ => False

/-- The states that store a key and derive the session key from it at once. -/
def Derives (status : State) : Prop :=
  status = .notConnected ∨ status = .waitKeyNonceHDest ∨ status = .waitKeyDest

instance (status : State) : Decidable (Derives status) := inferInstanceAs (Decidable (_ ∨ _))

/-- Two sessions with the same keys. -/
structure SameKeys (s t : SmkexSessionInfo K) : Prop where
  ec_key : t.ec_key = s.ec_key
  remote_pub_key : t.remote_pub_key = s.remote_pub_key
  remote_pub_key_len : t.remote_pub_key_len = s.remote_pub_key_len
  session_key : t.session_key = s.session_key

/-- **The rule for keys.**  A property of the keys that holds of every key just
stored and survives the renewal in state `connected` holds in every state that
has a key. -/
theorem Answer.held {ssl : OpenSSL K} {env : Env K} {buddy : MpString}
    {s s' : SmkexSessionInfo K} {r : SmkexT4mRecord} {records : List SmkexT4mRecord}
    {P : SmkexSessionInfo K → Prop} (frame : ∀ s t, SameKeys s t → P s → P t)
    (stored : r.type = .handshakeKey → Derives s.status →
      ∀ t : SmkexSessionInfo K, t.ec_key = s.ec_key → P (keyed ssl t r))
    (renewed : r.type = .handshakeKey → s.status = .connected → P s → P (rekeyed env s r))
    (h : Answer ssl env buddy s r s' records) (hs : HasKey s.status → P s) :
    HasKey s'.status → P s' := by
  have conclude : ∀ v, P v → P (concluded ssl env buddy v).1 := by
    intro v hv
    rcases concluded_cases ssl env buddy v with
      ⟨-, heq⟩ | ⟨-, heq⟩ <;> rw [heq] <;> exact frame v _ ⟨rfl, rfl, rfl, rfl⟩ hv
  have nonceH : HasKey s.status → P (nonced env (hashed s r) r) := fun hkey =>
    frame s _ ⟨rfl, rfl, rfl, rfl⟩ (hs hkey)
  intro hkey
  cases h with
  | keyFirst type status _ =>
      exact frame (keyed ssl (reallocated s r) r) _ ⟨rfl, rfl, rfl, rfl⟩
        (stored type (.inl status) (reallocated s r) rfl)
  | keyToInitiator type status _ =>
      exact frame (keyed ssl s r) _ ⟨rfl, rfl, rfl, rfl⟩ (stored type (.inr (.inl status)) s rfl)
  | keyLast type status _ => exact conclude _ (stored type (.inr (.inr status)) s rfl)
  | keyRenewed type status => exact renewed type status (hs (by simp [status, HasKey]))
  | keyIgnored _ _ => exact hs hkey
  | nonceToResponder _ status =>
      exact frame s _ ⟨rfl, rfl, rfl, rfl⟩ (hs (by simp [status, HasKey]))
  | nonceToInitiator _ _ => exact hkey.elim
  | nonceRenewed _ _ => exact hkey.elim
  | nonceRefused _ _ => exact hkey.elim
  | nonceHEarly _ status =>
      have : HasKey s.status := hkey
      simp [status, HasKey] at this
  | nonceHToInitiator _ status => exact conclude _ (nonceH (by simp [status, HasKey]))
  | nonceHToResponder _ status => exact conclude _ (nonceH (by simp [status, HasKey]))
  | nonceHIgnored _ _ => exact frame s _ ⟨rfl, rfl, rfl, rfl⟩ (hs hkey)
  | alertRestart _ _ =>
      rw [restarted_status] at hkey
      exact hkey.elim
  | alertIdle _ _ => exact hkey.elim
  | dataIgnored _ => exact hs hkey

/-! ## Becoming connected -/

section Verification

variable {ssl env buddy} {s s' : SmkexSessionInfo K} {r : SmkexT4mRecord}
  {records : List SmkexT4mRecord}

/-- The received hash is, as a C string, the one over what the session holds. -/
def HashMatches (ssl : OpenSSL K) (env : Env K) (s : SmkexSessionInfo K) : Prop :=
  ∀ h, expectedH ssl env s = some h → strncmp h (receivedH env s) h.length = 0

/-- `verifyH` is true where the hashes differ. -/
theorem verifyH_iff : verifyH ssl env s = true ↔ ¬ HashMatches ssl env s := by
  unfold verifyH HashMatches
  cases expectedH ssl env s with
  | none => simp
  | some h => simp

instance : Decidable (HashMatches ssl env s) :=
  decidable_of_iff (¬ verifyH ssl env s = true) (by rw [verifyH_iff, not_not])

/-- The session that `verifyH` is called on while the record is answered. -/
def verified (ssl : OpenSSL K) (env : Env K) (s : SmkexSessionInfo K)
    (r : SmkexT4mRecord) : Option (SmkexSessionInfo K) :=
  match s.status, r.type with
  | .waitKeyDest, .handshakeKey => if ssl.oct2point r.data then some (keyed ssl s r) else none
  | .waitNonceHDest, .handshakeNonceH => some (nonced env (hashed s r) r)
  | .waitNonce2HInit, .handshakeNonceH => some (nonced env (hashed s r) r)
  | _, _ => none

/-- A record that is verified does not end the process. -/
theorem not_exits_of_verified {v : SmkexSessionInfo K}
    (h : verified ssl env s r = some v) : ¬ Exits ssl s r := by
  unfold verified at h
  split at h
  · next status type =>
    by_cases point : ssl.oct2point r.data
    · simp [Exits, type, point, SMKEX_T4M_Type.Named]
    · simp [point] at h
  · next status type => simp [Exits, type, SMKEX_T4M_Type.Named]
  · next status type => simp [Exits, type, SMKEX_T4M_Type.Named]
  · cases h

/-- Where a session verifies, the outcome of `verifyH` is its next state. -/
theorem Answer.of_verified {v : SmkexSessionInfo K} (h : Answer ssl env buddy s r s' records)
    (hv : verified ssl env s r = some v) : s' = (concluded ssl env buddy v).1 := by
  cases h with
  | keyLast type status point =>
      simp only [verified, type, status, point, if_true, Option.some.injEq] at hv
      rw [hv]
  | nonceHToInitiator type status =>
      simp only [verified, type, status, Option.some.injEq] at hv
      rw [hv]
  | nonceHToResponder type status =>
      simp only [verified, type, status, Option.some.injEq] at hv
      rw [hv]
  | keyIgnored type status =>
      rcases status with status | status | status | status <;>
        simp [verified, type, status] at hv
  | nonceHIgnored type status =>
      rcases status with status | status | status | status | status <;>
        simp [verified, type, status] at hv
  | keyFirst type status | keyToInitiator type status | keyRenewed type status
  | nonceToResponder type status | nonceToInitiator type status | nonceRenewed type status
  | nonceHEarly type status => simp [verified, type, status] at hv
  | nonceRefused type | alertRestart type | alertIdle type | dataIgnored type =>
      simp [verified, type] at hv

/-- A session that does not verify does not become connected. -/
theorem Answer.not_connected (h : Answer ssl env buddy s r s' records)
    (hs : s.status ≠ .connected) (hv : verified ssl env s r = none) :
    s'.status ≠ .connected := by
  cases h with
  | keyLast type status point => simp [verified, type, status, point] at hv
  | nonceHToInitiator type status => simp [verified, type, status] at hv
  | nonceHToResponder type status => simp [verified, type, status] at hv
  | keyRenewed _ status => exact absurd status hs
  | nonceRenewed _ status => exact absurd status hs
  | alertRestart =>
      rw [restarted_status]
      simp
  | keyIgnored | dataIgnored | nonceHIgnored | nonceHEarly => exact hs
  | keyFirst | keyToInitiator | nonceToResponder | nonceToInitiator | nonceRefused
  | alertIdle => simp

/-- **A session becomes connected exactly where `verifyH` returns true**, with
what was in hand then. -/
theorem Answer.connects (h : Answer ssl env buddy s r s' records)
    (hs : s.status ≠ .connected) (hs' : s'.status = .connected) :
    ∃ v, verified ssl env s r = some v ∧ verifyH ssl env v = true ∧
      s' = { v with status := .connected } := by
  cases hv : verified ssl env s r with
  | none => exact absurd hs' (h.not_connected hs hv)
  | some v =>
      have hconcluded := h.of_verified hv
      rcases concluded_cases ssl env buddy v with
        ⟨hverify, heq⟩ | ⟨-, heq⟩
      · exact ⟨v, rfl, hverify, by rw [hconcluded, heq]⟩
      · rw [hconcluded, heq] at hs'
        cases hs'

theorem Answer.connected_of_verified {v : SmkexSessionInfo K}
    (h : Answer ssl env buddy s r s' records) (hv : verified ssl env s r = some v)
    (hverify : verifyH ssl env v = true) : s' = { v with status := .connected } := by
  rw [h.of_verified hv, concluded, if_pos hverify]

end Verification

end EndToEndSmkex.Smkex.Transitions
