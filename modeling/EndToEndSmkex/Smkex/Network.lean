import EndToEndSmkex.Smkex.Keychain
import EndToEndSmkex.Lib.Run

/-!
# Two parties and a network with a memory

The state is the keychain of each party and everything each of them has ever
sent.  Any record of that history can be delivered at any time and any number
of times, so delay, loss, reordering and duplication are all choices of the
run.  An attacker of the key channel can make a `handshakeKey` record out of
nothing.

Each party has one session for the other, made at the first record or put
there by the application, and that session keeps its key pair for good: the
key pairs are parameters of the network.

## Main results

* `step_cases` — what an event does to the two sessions and to the history.
* `connected_of_verified`, `connected_cases` — a party becomes connected exactly
  by verifying a hash.
-/

namespace EndToEndSmkex.Smkex.Network

open EndToEndSmkex.Lib.CBuffer
open EndToEndSmkex.Lib.Run
open EndToEndSmkex.Smkex.Record
open EndToEndSmkex.Smkex.SessionInfo
open EndToEndSmkex.Smkex.Handshake
open EndToEndSmkex.Smkex.Transitions
open EndToEndSmkex.Smkex.Keychain

variable {K : Type}

/-- The two parties. -/
inductive Side where
  | alice
  | bob
  deriving DecidableEq

def Side.other : Side → Side
  | .alice => .bob
  | .bob => .alice

@[simp] theorem Side.other_other (p : Side) : p.other.other = p := by cases p <;> rfl

theorem Side.other_ne (p : Side) : p.other ≠ p := by cases p <;> decide

theorem Side.eq_other {p q : Side} (h : p ≠ q) : p = q.other := by
  cases p <;> cases q <;> simp_all [Side.other]

/-- What stays fixed during a run: OpenSSL, the serials under which the parties
know each other, and their key pairs. -/
structure Setup (K : Type) where
  ssl : OpenSSL K
  serial : Side → MpString
  key : Side → K

/-- The encoded public key of a party, its `local_pub_key`. -/
def Setup.pub (u : Setup K) (p : Side) : Bytes := u.ssl.pub (u.key p)

/-- A party's surroundings: its constructor draws its key pair. -/
def Setup.env (u : Setup K) (p : Side) (env : Env K) : Env K :=
  { env with fresh := { env.fresh with ec_key := u.key p } }

/-- The keychain of each party, `none` once its process has ended, and all
records it has sent. -/
structure Net (K : Type) where
  party : Side → Option (SmkexKeychain K)
  sent : Side → List SmkexT4mRecord

/-- The session a party has for the other. -/
def Net.session (u : Setup K) (n : Net K) (p : Side) : Option (SmkexSessionInfo K) :=
  (n.party p).bind fun keychain => keychain (u.serial p.other)

inductive NetEvent (K : Type) where
  | initSession (p : Side) (env : Env K)
  | deliver (p : Side) (r : SmkexT4mRecord) (env : Env K)
  | inject (p : Side) (r : SmkexT4mRecord) (env : Env K)

/-- Let a party run one of its entry points. -/
def Net.act (n : Net K) (p : Side)
    (entry : SmkexKeychain K → Option (SmkexKeychain K × List SmkexT4mRecord)) :
    Option (Net K) :=
  (n.party p).map fun keychain =>
    match entry keychain with
    | none => { n with party := Function.update n.party p none }
    | some (keychain', records) =>
      { party := Function.update n.party p (some keychain')
        sent := Function.update n.sent p (n.sent p ++ records) }

/-- One event.  Delivered records were sent by the other party; injected ones
have the type of the channel the attacker owns. -/
def Net.step (u : Setup K) (n : Net K) : NetEvent K → Option (Net K)
  | .initSession p env => n.act p fun keychain =>
      effect (initSession u.ssl (u.env p env) keychain (u.serial p.other))
  | .deliver p r env =>
      if r ∈ n.sent p.other then
        n.act p fun keychain =>
          effect (processRecord u.ssl (u.env p env) keychain (u.serial p.other) r)
      else none
  | .inject p r env =>
      if r.type = .handshakeKey then
        n.act p fun keychain =>
          effect (processRecord u.ssl (u.env p env) keychain (u.serial p.other) r)
      else none

/-- Both parties run, nothing has been sent, and the session for the other
party, where there is one, is as its constructor left it. -/
structure Net.Initial (u : Setup K) (n : Net K) : Prop where
  fresh : ∀ p s, n.session u p = some s →
    ∃ c : CtorInput K, c.ec_key = u.key p ∧ s = SmkexSessionInfo.new c
  silent : ∀ p, n.sent p = []

/-- Two parties with the keys 1 and 2, each with a fresh session for the other. -/
def sampleSetup : Setup UInt8 where
  ssl := sampleOpenSSL
  serial p := if p = .alice then [97] else [98]
  key p := if p = .alice then 1 else 2

def sampleNet : Net UInt8 where
  party p := some fun serial =>
    if serial = sampleSetup.serial p.other then
      some (SmkexSessionInfo.new (sampleDraws (sampleSetup.key p)))
    else none
  sent _ := []

theorem sampleNet_initial : sampleNet.Initial sampleSetup where
  fresh p s hs := by
    refine ⟨sampleDraws (sampleSetup.key p), rfl, ?_⟩
    simp only [Net.session, sampleNet, Option.bind_some, if_true, Option.some.injEq] at hs
    exact hs.symm
  silent _ := rfl

/-! The records of a handshake that alice starts with the nonce 11. -/

def alicesKey : SmkexT4mRecord :=
  buildRecord (sampleEnv 1 11) [98] .handshakeKey (sampleSetup.pub .alice)

def alicesNonce : SmkexT4mRecord :=
  buildRecord (sampleEnv 1 11) [98] .handshakeNonce (sampleNonce 11).1

def bobsKey : SmkexT4mRecord :=
  buildRecord (sampleEnv 2 12) [97] .handshakeKey (sampleSetup.pub .bob)

/-- Bob's nonce, and the hash he takes over the key in his hand. -/
def bobsNonceH (aliceKey : Bytes) : SmkexT4mRecord :=
  buildRecord (sampleEnv 2 12) [97] .handshakeNonceH
    ((sampleNonce 102).1 ++ (1 :: (sampleNonce 11).1 ++ (aliceKey ++
      ((sampleNonce 202).1 ++ sampleSetup.pub .bob))))

def alicesNonceH : SmkexT4mRecord :=
  buildRecord (sampleEnv 1 11) [98] .handshakeNonceH
    ((sampleNonce 11).1 ++ (1 :: sampleSetup.pub .bob ++
      ((sampleNonce 201).1 ++ sampleSetup.pub .alice)))

/-! The same with a digest of 32 bytes. -/

/-- A digest of 32 bytes: a checksum. -/
def sampleDigest (bs : Bytes) : Bytes := List.replicate 32 (bs.foldr (· + ·) 0)

def digestSetup : Setup UInt8 :=
  { sampleSetup with ssl := { sampleOpenSSL with sha256 := sampleDigest } }

/-- What bob sends once he has alice's key and nonce. -/
def bobsDigest : SmkexT4mRecord :=
  buildRecord (sampleEnv 2 12) [97] .handshakeNonceH
    ((sampleNonce 102).1 ++ sampleDigest ((sampleNonce 11).1 ++ (digestSetup.pub .alice ++
      ((sampleNonce 202).1 ++ digestSetup.pub .bob))))

/-- What alice sends when she has got it: her nonce buffer is still as the
constructor left it. -/
def alicesDigest : SmkexT4mRecord :=
  buildRecord (sampleEnv 1 11) [98] .handshakeNonceH
    ((sampleNonce 11).1 ++ sampleDigest (digestSetup.pub .bob ++
      ((sampleNonce 201).1 ++ digestSetup.pub .alice)))

/-- The party an event happens to. -/
def NetEvent.side : NetEvent K → Side
  | .initSession p _ => p
  | .deliver p _ _ => p
  | .inject p _ _ => p

/-! ## What one event does -/

/-- The record an event hands to the party, if it does, and from where. -/
def NetEvent.Brings (n : Net K) (r : SmkexT4mRecord) (env : Env K) (e : NetEvent K) : Prop :=
  e = .deliver e.side r env ∧ r ∈ n.sent e.side.other ∨
    e = .inject e.side r env ∧ r.type = .handshakeKey

/-- The ways in which an event changes the network at the party `p`. -/
inductive Move (u : Setup K) (n : Net K) (p : Side) (e : NetEvent K) (n' : Net K) : Prop where
  | exited (ended : n'.party p = none) (sent : n'.sent p = n.sent p)
      (reason : ∀ r env s, e.Brings n r env → n.session u p = some s → Exits u.ssl s r)
  | started (env : Env K) (s : SmkexSessionInfo K) (event : e = .initSession p env)
      (before : n.session u p = some s)
      (after : n'.session u p = some (restarted u.ssl (u.env p env) (u.serial p.other) s).1)
      (sent : n'.sent p =
        n.sent p ++ (restarted u.ssl (u.env p env) (u.serial p.other) s).2)
  | answered (env : Env K) (r : SmkexT4mRecord) (s s' : SmkexSessionInfo K)
      (records : List SmkexT4mRecord) (brings : e.Brings n r env)
      (before : n.session u p = some s ∨ n.session u p = none ∧
        s = SmkexSessionInfo.new (u.env p env).fresh)
      (answer : Answer u.ssl (u.env p env) (u.serial p.other) s r s' records)
      (after : n'.session u p = some s') (sent : n'.sent p = n.sent p ++ records)

section Step

variable {u : Setup K} {n n' : Net K} {p : Side} {e : NetEvent K}

/-- A party whose process has ended has no session. -/
theorem session_of_ended (h : n.party p = none) : n.session u p = none := by
  rw [Net.session, h, Option.bind_none]

/-- An event brings one record. -/
theorem NetEvent.Brings.unique {r r' : SmkexT4mRecord} {env env' : Env K}
    (h : e.Brings n r env) (h' : e.Brings n r' env') : r' = r ∧ env' = env := by
  rcases h with ⟨h, -⟩ | ⟨h, -⟩ <;> rcases h' with ⟨h', -⟩ | ⟨h', -⟩ <;>
    rw [h] at h' <;> cases h' <;> exact ⟨rfl, rfl⟩

private theorem act_some
    {entry : SmkexKeychain K → Option (SmkexKeychain K × List SmkexT4mRecord)}
    (h : n.act p entry = some n') :
    ∃ keychain, n.party p = some keychain ∧
      (entry keychain = none ∧ n' = { n with party := Function.update n.party p none } ∨
        ∃ keychain' records, entry keychain = some (keychain', records) ∧
          n' = { party := Function.update n.party p (some keychain')
                 sent := Function.update n.sent p (n.sent p ++ records) }) := by
  obtain ⟨keychain, hparty, hact⟩ := Option.map_eq_some_iff.1 h
  refine ⟨keychain, hparty, ?_⟩
  cases hentry : entry keychain with
  | none =>
      rw [hentry] at hact
      exact Or.inl ⟨rfl, hact.symm⟩
  | some q =>
      rw [hentry] at hact
      exact Or.inr ⟨q.1, q.2, rfl, hact.symm⟩

private theorem processRecord_moves {env : Env K} {r : SmkexT4mRecord}
    (brings : e.Brings n r env)
    (h : (n.act p fun keychain =>
      effect (processRecord u.ssl (u.env p env) keychain (u.serial p.other) r)) = some n') :
    Move u n p e n' := by
  obtain ⟨keychain, hparty, ⟨hnone, rfl⟩ | ⟨keychain', records, hentry, rfl⟩⟩ := act_some h
  · refine .exited (by simp) rfl ?_
    intro r' env' s hbrings hs
    obtain ⟨rfl, rfl⟩ := brings.unique hbrings
    have hs' : keychain (u.serial p.other) = some s := by simpa [Net.session, hparty] using hs
    rw [effect_processRecord, sessionFor, getSessionInfo_eq, hs'] at hnone
    by_contra hexits
    obtain ⟨s', records, hanswer⟩ := answer_isSome u.ssl (u.env p env') (u.serial p.other) hexits
    simp [hanswer] at hnone
  · rw [effect_processRecord] at hentry
    obtain ⟨⟨s', l⟩, hanswer, heq⟩ := Option.map_eq_some_iff.1 hentry
    cases heq
    refine .answered env r _ s' l brings ?_ (answer_cases _ _ _ hanswer)
      (by simp [Net.session, store]) (by simp)
    unfold sessionFor
    rw [getSessionInfo_eq]
    cases hs : keychain (u.serial p.other) with
    | none => exact Or.inr ⟨by simp [Net.session, hparty, hs], rfl⟩
    | some s => exact Or.inl (by simp [Net.session, hparty, hs])

/-- **One event, seen from the sessions.** -/
theorem step_cases (h : n.step u e = some n') : Move u n e.side e n' := by
  cases e with
  | initSession p env =>
      obtain ⟨keychain, hparty, ⟨-, rfl⟩ | ⟨keychain', records, hentry, rfl⟩⟩ := act_some h
      · refine .exited (by simp [NetEvent.side]) rfl ?_
        rintro r env' s (⟨hbrings, -⟩ | ⟨hbrings, -⟩) - <;> cases hbrings
      · cases hs : keychain (u.serial p.other) with
        | none =>
            rw [effect_initSession_none _ _ _ _ hs] at hentry
            cases hentry
        | some s =>
            rw [effect_initSession _ _ _ _ hs] at hentry
            cases hentry
            exact .started env s rfl (by simp [Net.session, NetEvent.side, hparty, hs])
              (by simp [Net.session, NetEvent.side, store]) (by simp [NetEvent.side])
  | deliver p r env =>
      by_cases hr : r ∈ n.sent p.other
      · rw [Net.step, if_pos hr] at h
        exact processRecord_moves (Or.inl ⟨rfl, hr⟩) h
      · rw [Net.step, if_neg hr] at h
        cases h
  | inject p r env =>
      by_cases hr : r.type = .handshakeKey
      · rw [Net.step, if_pos hr] at h
        exact processRecord_moves (Or.inr ⟨rfl, hr⟩) h
      · rw [Net.step, if_neg hr] at h
        cases h

private theorem act_other
    {entry : SmkexKeychain K → Option (SmkexKeychain K × List SmkexT4mRecord)}
    (h : n.act p entry = some n') {q : Side} (hq : q ≠ p) :
    n'.party q = n.party q ∧ n'.sent q = n.sent q := by
  obtain ⟨keychain, -, ⟨-, rfl⟩ | ⟨keychain', records, -, rfl⟩⟩ := act_some h <;>
    simp [Function.update_of_ne hq]

/-- An event at one party leaves the other's process alone. -/
theorem party_other (h : n.step u e = some n') {q : Side} (hq : q ≠ e.side) :
    n'.party q = n.party q ∧ n'.sent q = n.sent q := by
  cases e with
  | initSession p env => exact act_other h hq
  | deliver p r env =>
      by_cases hr : r ∈ n.sent p.other
      · rw [Net.step, if_pos hr] at h
        exact act_other h hq
      · rw [Net.step, if_neg hr] at h
        cases h
  | inject p r env =>
      by_cases hr : r.type = .handshakeKey
      · rw [Net.step, if_pos hr] at h
        exact act_other h hq
      · rw [Net.step, if_neg hr] at h
        cases h

/-- An event at one party leaves the other alone. -/
theorem step_other (h : n.step u e = some n') {q : Side} (hq : q ≠ e.side) :
    n'.session u q = n.session u q ∧ n'.sent q = n.sent q := by
  obtain ⟨hparty, hsent⟩ := party_other h hq
  exact ⟨by rw [Net.session, hparty, Net.session], hsent⟩

/-- An event happens to a party that runs. -/
theorem party_of_step (h : n.step u e = some n') :
    ∃ keychain, n.party e.side = some keychain := by
  have hact : ∀ {p : Side} {entry}, n.act p entry = some n' →
      ∃ keychain, n.party p = some keychain := by
    intro p entry h
    obtain ⟨keychain, hparty, -⟩ := act_some h
    exact ⟨keychain, hparty⟩
  cases e with
  | initSession p env => exact hact h
  | deliver p r env =>
      rw [Net.step] at h
      split at h
      · exact hact h
      · cases h
  | inject p r env =>
      rw [Net.step] at h
      split at h
      · exact hact h
      · cases h

/-- An invariant that speaks of each party by itself has to be checked only at
the party the event happens to. -/
theorem step_local
    {I : Side → Option (SmkexSessionInfo K) → List SmkexT4mRecord → Prop}
    (h : n.step u e = some n') (hn : ∀ p, I p (n.session u p) (n.sent p))
    (hside : I e.side (n'.session u e.side) (n'.sent e.side)) (p : Side) :
    I p (n'.session u p) (n'.sent p) := by
  by_cases hp : p = e.side
  · rw [hp]
    exact hside
  · rw [(step_other h hp).1, (step_other h hp).2]
    exact hn p

/-! ### Becoming connected -/

/-- A session that a first record creates has nothing to verify. -/
private theorem verified_new {env : Env K} {c : CtorInput K} {r : SmkexT4mRecord} :
    verified u.ssl env (SmkexSessionInfo.new c) r = none := by
  simp [verified, SmkexSessionInfo.new]

/-- A record whose hash is verified connects the party. -/
theorem connected_of_verified {r : SmkexT4mRecord} {env : Env K} {s v : SmkexSessionInfo K}
    (hstep : n.step u e = some n') (hbrings : e.Brings n r env)
    (hs : n.session u e.side = some s)
    (hv : verified u.ssl (u.env e.side env) s r = some v)
    (hverify : verifyH u.ssl (u.env e.side env) v = true) :
    n'.session u e.side = some { v with status := .connected } := by
  cases step_cases hstep with
  | exited _ _ reason => exact absurd (reason r env s hbrings hs) (not_exits_of_verified hv)
  | started _ _ event _ _ _ =>
      rcases hbrings with ⟨he, -⟩ | ⟨he, -⟩ <;> rw [event] at he <;> cases he
  | answered env' r' s₀ s' records brings before answer after _ =>
      obtain ⟨rfl, rfl⟩ := hbrings.unique brings
      have hs₀ : s₀ = s := by
        rcases before with before | ⟨before, -⟩ <;> rw [before] at hs <;> cases hs
        rfl
      subst hs₀
      rw [after, answer.connected_of_verified hv hverify]

/-- A party is connected after an event because it was before, and has answered a
record, or because the event made it verify a hash. -/
theorem connected_cases {s' : SmkexSessionInfo K} (hstep : n.step u e = some n')
    (hs' : n'.session u e.side = some s') (hconnected : s'.status = .connected) :
    (∃ r env s records, n.session u e.side = some s ∧ s.status = .connected ∧
        Answer u.ssl (u.env e.side env) (u.serial e.side.other) s r s' records) ∨
      ∃ r env s v, e.Brings n r env ∧ n.session u e.side = some s ∧ s.status ≠ .connected ∧
        verified u.ssl (u.env e.side env) s r = some v ∧
          verifyH u.ssl (u.env e.side env) v = true ∧
            s' = { v with status := .connected } := by
  cases step_cases hstep with
  | exited ended _ _ =>
      rw [session_of_ended ended] at hs'
      cases hs'
  | started env s _ _ after _ =>
      rw [after, Option.some.injEq] at hs'
      rw [← hs', restarted_status] at hconnected
      cases hconnected
  | answered env r s s₁ records brings before answer after _ =>
      rw [after, Option.some.injEq] at hs'
      subst hs'
      rcases before with before | ⟨-, rfl⟩
      · by_cases hold : s.status = .connected
        · exact Or.inl ⟨r, env, s, records, before, hold, answer⟩
        · obtain ⟨v, hv, hverify, hs₁⟩ := answer.connects hold hconnected
          exact Or.inr ⟨r, env, s, v, brings, before, hold, hv, hverify, hs₁⟩
      · exact absurd hconnected
          (answer.not_connected (by simp [SmkexSessionInfo.new]) verified_new)

end Step

end EndToEndSmkex.Smkex.Network
