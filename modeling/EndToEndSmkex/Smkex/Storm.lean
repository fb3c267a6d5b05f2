import EndToEndSmkex.Smkex.Client
import EndToEndSmkex.Smkex.Delivery
import EndToEndSmkex.Lib.InfiniteRuns

/-!
# Can two parties answer each other for ever?

Two clients, the records in flight between them, and their users.  Records are
neither lost nor duplicated.  A record that is answered is heavier than what it
is answered with, once the status of the session is weighed with it; the one
exception is an alert that reaches a session initiator, who starts again with a
key and a nonce.

## Main results

* `storm_needs_restarts` — the number of deliveries is bounded by the weight at
  the start and the number of restarts; an endless sequence restarts again and
  again.
* `crossing_initiations_storm` — two users who start at the same time set off
  such a sequence.
-/

namespace EndToEndSmkex.Smkex.Storm

open EndToEndSmkex.Lib.Run
open EndToEndSmkex.Lib.InfiniteRuns
open EndToEndSmkex.Smkex.Record
open EndToEndSmkex.Smkex.SessionInfo
open EndToEndSmkex.Smkex.Handshake
open EndToEndSmkex.Smkex.Transitions
open EndToEndSmkex.Smkex.Keychain
open EndToEndSmkex.Smkex.Client
open EndToEndSmkex.Smkex.Network
open EndToEndSmkex.Smkex.Delivery

variable {K : Type}

/-! ## Two clients and what is between them -/

/-- The client of each party and the records on their way. -/
structure Wire (K : Type) where
  party : Side → Process K
  flight : List Flying

/-- Let a party run one of its entry points and send what it sends. -/
def Wire.act (w : Wire K) (p : Side)
    (call : SmkexKeychain K → Option (SmkexKeychain K × List SmkexT4mRecord)) :
    Option (Wire K) :=
  (w.party p).map fun keychain =>
    match call keychain with
    | none => { w with party := Function.update w.party p none }
    | some (keychain', records) =>
      { party := Function.update w.party p (some keychain')
        flight := w.flight ++ toward p.other records }

section Steps

variable (ssl : OpenSSL K) (serial : Side → MpString)

/-- A user starts a handshake. -/
def Wire.initSession (w : Wire K) (call : Side × Env K) : Option (Wire K) :=
  w.act call.1 fun keychain =>
    effect (Keychain.initSession ssl call.2 keychain (serial call.1.other))

/-- A record arrives at a party whose process is running. -/
def Wire.deliver (w : Wire K) (a : Arrival K) : Option (Wire K) :=
  if a.message ∈ w.flight then
    ({ w with flight := w.flight.erase a.message } : Wire K).act a.message.dest
      fun keychain => effect (processRecord ssl a.env keychain
        (serial a.message.dest.other) a.message.record)
  else none

end Steps

/-- The session a party has for the other. -/
def Wire.session (serial : Side → MpString) (w : Wire K) (p : Side) :
    Option (SmkexSessionInfo K) :=
  (w.party p).bind fun keychain => keychain (serial p.other)

/-- The delivery makes its receiver start again. -/
def Restarts (serial : Side → MpString) (w : Wire K) (a : Arrival K) : Prop :=
  a.message.record.type = .alert ∧
    (w.session serial a.message.dest).any (·.iAmSessionInitiator) = true

instance (serial : Side → MpString) (w : Wire K) (a : Arrival K) :
    Decidable (Restarts serial w a) := inferInstanceAs (Decidable (_ ∧ _))

/-! ## Weights -/

/-- What a record can still bring about. -/
def weight : SMKEX_T4M_Type → Nat
  | .handshakeKey => 8
  | .handshakeNonce => 5
  | .handshakeNonceH => 4
  | .alert => 2
  | _ => 1

/-- What a session can still bring about on the next record. -/
def level : State → Nat
  | .waitNonceHDest => 4
  | .waitKeyDest => 3
  | .notConnected => 1
  | _ => 0

def totalWeight (records : List SmkexT4mRecord) : Nat :=
  (records.map fun r => weight r.type).sum

theorem weight_pos (t : SMKEX_T4M_Type) : 0 < weight t := by
  cases t <;> simp [weight]

@[simp] theorem totalWeight_nil : totalWeight [] = 0 := rfl

@[simp] theorem totalWeight_cons (r : SmkexT4mRecord) (l : List SmkexT4mRecord) :
    totalWeight (r :: l) = weight r.type + totalWeight l := by simp [totalWeight]

@[simp] theorem totalWeight_append (l₁ l₂ : List SmkexT4mRecord) :
    totalWeight (l₁ ++ l₂) = totalWeight l₁ + totalWeight l₂ := by simp [totalWeight]

section Answers

variable {ssl : OpenSSL K} {env : Env K} {buddy : MpString} {s s' : SmkexSessionInfo K}
  {r : SmkexT4mRecord} {records : List SmkexT4mRecord}

@[simp] theorem buildRecord_type (type : SMKEX_T4M_Type) (data : Lib.CBuffer.Bytes) :
    (buildRecord env buddy type data).type = type := rfl

@[simp] theorem keyRecord_type (t : SmkexSessionInfo K) :
    (keyRecord ssl env buddy t).type = .handshakeKey := rfl

/-- At most one hash is sent at a time. -/
theorem totalWeight_nonceHRecords (t : SmkexSessionInfo K) :
    totalWeight (nonceHRecords ssl env buddy t) ≤ 4 := by
  unfold nonceHRecords
  split
  · simp
  · split
    · simp
    · simp [weight]

/-- A failed verification leaves an alert and an unconnected session. -/
theorem weight_concluded (t : SmkexSessionInfo K) :
    level (concluded ssl env buddy t).1.status + totalWeight (concluded ssl env buddy t).2 ≤
      3 := by
  rcases concluded_cases ssl env buddy t with ⟨-, heq⟩ | ⟨-, heq⟩ <;> rw [heq] <;>
    simp [weight, level]

theorem weight_restarted (t : SmkexSessionInfo K) :
    level (restarted ssl env buddy t).1.status + totalWeight (restarted ssl env buddy t).2 ≤
      13 := by
  rw [restarted_status]
  by_cases h : t.status = .waitKeyNonceHDest
  · rw [restarted_waiting h]
    simp [level]
  · rw [restarted_anew h]
    simp [weight, level]

/-- **An answer is lighter than the record and the session it answers**, unless
the record is an alert that makes an initiator start again. -/
theorem answer_lighter (h : Answer ssl env buddy s r s' records)
    (hrestart : ¬ (r.type = .alert ∧ s.iAmSessionInitiator = true)) :
    level s'.status + totalWeight records < level s.status + weight r.type := by
  have hsent : ∀ t, totalWeight (nonceHRecords ssl env buddy t) ≤ 4 :=
    totalWeight_nonceHRecords
  have hconcluded : ∀ t, level (concluded ssl env buddy t).1.status +
      totalWeight (concluded ssl env buddy t).2 ≤ 3 := weight_concluded
  cases h with
  | keyFirst type status => simp [type, status, weight, level]
  | keyToInitiator type status => simp [type, status, weight, level]
  | keyLast type status =>
      have := hsent (keyed ssl s r)
      have := hconcluded (keyed ssl s r)
      have hlevel : level s.status = 3 := by rw [status]; rfl
      have hweight : weight r.type = 8 := by rw [type]; rfl
      rw [totalWeight_append]
      omega
  | keyRenewed type status => simp [rekeyed, type, status, weight, level]
  | keyIgnored type => simp [type, weight]
  | nonceToResponder type status =>
      have := hsent (nonced env s r)
      simp only [type, status, weight, level]
      omega
  | nonceToInitiator type status => simp [type, status, weight, level]
  | nonceRenewed type status => simp [type, status, weight, level]
  | nonceRefused type =>
      simp only [type, weight, level, totalWeight_cons, totalWeight_nil, buildRecord_type]
      omega
  | nonceHEarly type => simp [nonced, hashed, type, weight]
  | nonceHToInitiator type status =>
      have := hsent s
      have := hconcluded (nonced env (hashed s r) r)
      have hlevel : level s.status = 4 := by rw [status]; rfl
      have hweight : weight r.type = 4 := by rw [type]; rfl
      rw [totalWeight_append]
      omega
  | nonceHToResponder type status =>
      have := hconcluded (nonced env (hashed s r) r)
      have hweight : weight r.type = 4 := by rw [type]; rfl
      omega
  | nonceHIgnored type => simp [hashed, type, weight]
  | alertRestart type initiator => exact absurd ⟨type, initiator⟩ hrestart
  | alertIdle type =>
      simp only [type, weight, level, totalWeight_nil]
      omega
  | dataIgnored type => simp [type, weight]

/-- A restart adds no more than a key and a nonce. -/
theorem answer_refill (h : Answer ssl env buddy s r s' records) (type : r.type = .alert) :
    level s'.status + totalWeight records < level s.status + weight r.type + 12 := by
  by_cases initiator : s.iAmSessionInitiator = true
  · cases h with
    | alertRestart =>
        have hrestarted : level (restarted ssl env buddy _).1.status +
            totalWeight (restarted ssl env buddy _).2 ≤ 13 :=
          weight_restarted { s with status := .notConnected }
        have hweight : weight r.type = 2 := by rw [type]; rfl
        omega
    | alertIdle _ idle => simp [initiator] at idle
    | keyFirst other | keyToInitiator other | keyLast other | keyRenewed other
    | keyIgnored other | nonceToResponder other | nonceToInitiator other | nonceRenewed other
    | nonceRefused other | nonceHEarly other | nonceHToInitiator other
    | nonceHToResponder other | nonceHIgnored other | dataIgnored other =>
        rw [other] at type
        cases type
  · have := answer_lighter h fun hrestart => initiator hrestart.2
    omega

end Answers

/-! ## One delivery -/

/-- What a client can still bring about in its session with a buddy; one that
is missing would be made unconnected, and a process that has ended answers
nothing. -/
def processLevel (buddy : MpString) : Process K → Nat
  | none => 0
  | some keychain =>
    match keychain buddy with
    | none => level .notConnected
    | some s => level s.status

def flightWeight (l : List Flying) : Nat := (l.map fun m => weight m.record.type).sum

/-- The weight of everything in flight and of both parties. -/
def potential (serial : Side → MpString) (w : Wire K) : Nat :=
  flightWeight w.flight +
    (processLevel (serial .bob) (w.party .alice) + processLevel (serial .alice) (w.party .bob))

theorem flightWeight_arrival {l n : List Flying} {m : Flying} (hm : m ∈ l) :
    flightWeight (l.erase m ++ n) + weight m.record.type =
      flightWeight l + flightWeight n :=
  sum_arrival (fun m => weight m.record.type) hm rfl

theorem flightWeight_toward (p : Side) (records : List SmkexT4mRecord) :
    flightWeight (toward p records) = totalWeight records := by
  rw [flightWeight, toward, List.map_map]
  rfl

section Delivery

variable {ssl : OpenSSL K} {serial : Side → MpString} {w w' : Wire K} {a : Arrival K}

/-- The weight seen from one of the parties. -/
theorem potential_eq (serial : Side → MpString) (w : Wire K) (p : Side) :
    potential serial w = flightWeight w.flight +
      (processLevel (serial p.other) (w.party p) +
        processLevel (serial p) (w.party p.other)) := by
  cases p with
  | alice => rfl
  | bob =>
      unfold potential
      rw [Nat.add_comm (processLevel (serial .bob) (w.party .alice))]
      rfl

/-- The weight once one of the parties has acted. -/
theorem potential_update (w : Wire K) (p : Side) (c : Process K) (flight : List Flying) :
    potential serial { party := Function.update w.party p c, flight := flight } =
      flightWeight flight + (processLevel (serial p.other) c +
        processLevel (serial p) (w.party p.other)) := by
  rw [potential_eq serial _ p]
  dsimp only
  rw [Function.update_self, Function.update_of_ne (Side.other_ne p)]

/-- What a delivery does: the record ends its receiver or is answered. -/
theorem deliver_cases (h : w.deliver ssl serial a = some w') :
    a.message ∈ w.flight ∧ ∃ keychain, w.party a.message.dest = some keychain ∧
      (w' = { party := Function.update w.party a.message.dest none
              flight := w.flight.erase a.message } ∨
        ∃ s' records, Answer ssl a.env (serial a.message.dest.other)
            (sessionFor a.env keychain (serial a.message.dest.other)) a.message.record s'
            records ∧
          w' = { party := Function.update w.party a.message.dest
                   (some (store keychain (serial a.message.dest.other) s'))
                 flight := w.flight.erase a.message ++ toward a.message.dest.other records }) := by
  by_cases hm : a.message ∈ w.flight
  · rw [Wire.deliver, if_pos hm] at h
    obtain ⟨keychain, hparty, hact⟩ := Option.map_eq_some_iff.1 h
    refine ⟨hm, keychain, hparty, ?_⟩
    dsimp only at hact
    rw [effect_processRecord] at hact
    cases hanswer : answer ssl a.env (serial a.message.dest.other)
        (sessionFor a.env keychain (serial a.message.dest.other)) a.message.record with
    | none =>
        rw [hanswer] at hact
        exact Or.inl hact.symm
    | some q =>
        rw [hanswer] at hact
        exact Or.inr ⟨q.1, q.2, answer_cases _ _ _ hanswer, hact.symm⟩
  · rw [Wire.deliver, if_neg hm] at h
    cases h

/-- The level of a running client is that of the session a record would be
processed in. -/
theorem processLevel_some (env : Env K) (keychain : SmkexKeychain K) (buddy : MpString) :
    processLevel buddy (some keychain) = level (sessionFor env keychain buddy).status := by
  unfold processLevel sessionFor
  rw [getSessionInfo_eq]
  dsimp only
  cases keychain buddy <;> rfl

/-- The session an initiator restarts in is the one that answers. -/
theorem restarts_iff {keychain : SmkexKeychain K}
    (hparty : w.party a.message.dest = some keychain) :
    Restarts serial w a ↔ a.message.record.type = .alert ∧
      (sessionFor a.env keychain (serial a.message.dest.other)).iAmSessionInitiator = true := by
  unfold Restarts Wire.session sessionFor
  rw [hparty, getSessionInfo_eq, Option.bind_some]
  cases keychain (serial a.message.dest.other) <;> simp

/-- **A delivery changes the weight by what its answer weighs.** -/
theorem potential_deliver (h : w.deliver ssl serial a = some w') :
    potential serial w' < potential serial w ∨
      Restarts serial w a ∧ potential serial w' < potential serial w + 12 := by
  obtain ⟨hm, keychain, hparty, hcases⟩ := deliver_cases h
  have hbefore := potential_eq serial w a.message.dest
  rw [hparty, processLevel_some a.env] at hbefore
  rcases hcases with rfl | ⟨s', records, hanswer, rfl⟩
  · -- the process of the receiver has ended
    have hflight := flightWeight_arrival (n := []) hm
    rw [List.append_nil, show flightWeight [] = 0 from rfl] at hflight
    have hpos := weight_pos a.message.record.type
    left
    rw [potential_update, show processLevel _ (none : Process K) = 0 from rfl]
    omega
  · have hflight := flightWeight_arrival
      (n := toward a.message.dest.other records) hm
    rw [flightWeight_toward] at hflight
    have hstored : processLevel (serial a.message.dest.other)
        (some (store keychain (serial a.message.dest.other) s')) = level s'.status := by
      simp [processLevel, store]
    rw [potential_update, hstored]
    by_cases hrestart : Restarts serial w a
    · have := answer_refill hanswer hrestart.1
      right
      refine ⟨hrestart, ?_⟩
      omega
    · have := answer_lighter hanswer fun hr => hrestart ((restarts_iff hparty).2 hr)
      left
      omega

end Delivery

/-! ## Sequences of deliveries -/

/-- **Only restarts keep the parties busy.**  Whatever the parties have been
doing, a sequence of deliveries is no longer than the weight at its start and
twelve for every restart in it; so an endless one restarts again and again. -/
theorem storm_needs_restarts (ssl : OpenSSL K) (serial : Side → MpString) (w : Wire K) :
    (∀ as w', exec (Wire.deliver ssl serial) w as = some w' →
      as.length ≤ potential serial w +
        12 * refills (Wire.deliver ssl serial) (Restarts serial) w as) ∧
      ∀ ws as, Endless (Wire.deliver ssl serial) w ws as →
        ∀ i, ∃ j, i ≤ j ∧ Restarts serial (ws j) (as j) := by
  have hlower : ∀ w a w', Wire.deliver ssl serial w a = some w' → ¬ Restarts serial w a →
      potential serial w' < potential serial w := by
    intro w a w' h hrestart
    rcases potential_deliver h with hlt | ⟨hr, -⟩
    · exact hlt
    · exact absurd hr hrestart
  have hrefill : ∀ w a w', Wire.deliver ssl serial w a = some w' → Restarts serial w a →
      potential serial w' < potential serial w + 12 := by
    intro w a w' h _
    rcases potential_deliver h with hlt | ⟨-, hlt⟩ <;> omega
  constructor
  · intro as w' h
    have := length_le_of_refills hlower hrefill h
    omega
  · intro ws as h i
    exact h.refills hlower i

/-! ## Parties that have a session -/

/-- Every party that is running has a session for the other. -/
def HaveSessions (serial : Side → MpString) (w : Wire K) : Prop :=
  ∀ p keychain, w.party p = some keychain → keychain (serial p.other) ≠ none

/-- The sessions alone. -/
def Wire.pipe (serial : Side → MpString) (w : Wire K) : Pipe K where
  session := w.session serial
  flight := w.flight

/-- A user's call, seen from the sessions. -/
def callStep (ssl : OpenSSL K) (serial : Side → MpString) (w : Pipe K) (call : Side × Env K) :
    Option (Pipe K) :=
  w.initSession ssl serial call.1 call.2

section Sessions

variable {ssl : OpenSSL K} {serial : Side → MpString} {w : Wire K}

/-- The sessions once a party has acted. -/
theorem pipe_update (p : Side) (c : Process K) (flight : List Flying) :
    Wire.pipe serial { party := Function.update w.party p c, flight := flight } =
      { session := Function.update (w.session serial) p
          (c.bind fun keychain => keychain (serial p.other))
        flight := flight } := by
  unfold Wire.pipe
  congr 1
  funext q
  unfold Wire.session
  dsimp only
  by_cases hq : q = p
  · rw [hq, Function.update_self, Function.update_self]
  · rw [Function.update_of_ne hq, Function.update_of_ne hq]

@[simp] theorem store_self (keychain : SmkexKeychain K) (buddy : MpString)
    (s : SmkexSessionInfo K) : store keychain buddy s buddy = some s :=
  Function.update_self _ _ _

theorem HaveSessions.update (h : HaveSessions serial w) (p : Side) {c : Process K}
    (hc : ∀ keychain, c = some keychain → keychain (serial p.other) ≠ none)
    (flight : List Flying) :
    HaveSessions serial { party := Function.update w.party p c, flight := flight } := by
  intro q keychain hq
  dsimp only at hq
  by_cases hqp : q = p
  · rw [hqp, Function.update_self] at hq
    rw [hqp]
    exact hc keychain hq
  · rw [Function.update_of_ne hqp] at hq
    exact h q keychain hq

/-- A party without a process has no session; one with a process has the one
that its records are processed in. -/
theorem HaveSessions.cases (h : HaveSessions serial w) (p : Side) :
    w.party p = none ∧ w.session serial p = none ∨
      ∃ keychain s, w.party p = some keychain ∧ keychain (serial p.other) = some s ∧
        w.session serial p = some s := by
  unfold Wire.session
  cases hparty : w.party p with
  | none => exact Or.inl ⟨rfl, rfl⟩
  | some keychain =>
      obtain ⟨s, hs⟩ := Option.ne_none_iff_exists'.1 (h p keychain hparty)
      exact Or.inr ⟨keychain, s, rfl, hs, hs⟩

/-- **Where the sessions are there, records are delivered as between sessions.** -/
theorem deliver_simulates (ssl : OpenSSL K) (serial : Side → MpString) :
    Simulates (Wire.deliver ssl serial) (Pipe.step ssl serial) (HaveSessions serial)
      (Wire.pipe serial) where
  map w a h := by
    unfold Wire.deliver Pipe.step Wire.act
    by_cases hm : a.message ∈ w.flight
    · rw [if_pos hm, if_pos (show a.message ∈ (w.pipe serial).flight from hm)]
      dsimp only [Wire.pipe]
      rcases h.cases a.message.dest with ⟨hparty, hsession⟩ | ⟨keychain, s, hparty, hs, hsession⟩
      · rw [hparty, hsession]
        rfl
      · have hfor : sessionFor a.env keychain (serial a.message.dest.other) = s := by
          rw [sessionFor, getSessionInfo_eq, hs]
        rw [hparty, hsession, Option.map_some, Option.map_some, Option.map_some,
          effect_processRecord, hfor]
        cases answer ssl a.env (serial a.message.dest.other) s a.message.record with
        | none => simp only [Option.map_none, pipe_update, Option.bind_none]
        | some q =>
            simp only [Option.map_some, pipe_update, Option.bind_some, store_self]
    · rw [if_neg hm, if_neg (show a.message ∉ (w.pipe serial).flight from hm)]
      rfl
  keep w a w' h hstep := by
    obtain ⟨-, keychain, hparty, rfl | ⟨s', records, -, rfl⟩⟩ := deliver_cases hstep
    · exact h.update _ (by simp) _
    · exact h.update _ (by simp) _

/-- So are handshakes started. -/
theorem initSession_simulates (ssl : OpenSSL K) (serial : Side → MpString) :
    Simulates (Wire.initSession ssl serial) (callStep ssl serial) (HaveSessions serial)
      (Wire.pipe serial) where
  map w call h := by
    unfold Wire.initSession callStep Pipe.initSession Wire.act
    dsimp only [Wire.pipe]
    rcases h.cases call.1 with ⟨hparty, hsession⟩ | ⟨keychain, s, hparty, hs, hsession⟩
    · rw [hparty, hsession]
      rfl
    · rw [hparty, hsession, Option.map_some, Option.map_some, Option.bind_some, initiate_eq,
        effect_initSession _ _ _ _ hs, Option.map_some]
      simp only [pipe_update, Option.bind_some, store_self]
  keep w call w' h hstep := by
    obtain ⟨keychain, hparty, hact⟩ := Option.map_eq_some_iff.1 hstep
    have hs := h call.1 keychain hparty
    obtain ⟨s, hs⟩ := Option.ne_none_iff_exists'.1 hs
    dsimp only at hact
    rw [effect_initSession _ _ _ _ hs] at hact
    rw [← hact]
    exact h.update _ (by simp) _

end Sessions

/-! ## Crossing initiations -/

/-- Two clients, each with a fresh session for the other, and nothing sent. -/
def sampleWire : Wire UInt8 where
  party p := sampleNet.party p
  flight := []

/-- Both users start a handshake. -/
def sampleCalls : List (Side × Env UInt8) := [(.alice, sampleEnv 1 9), (.bob, sampleEnv 2 9)]

def sampleArrival (dest : Side) (type : SMKEX_T4M_Type) (data : Lib.CBuffer.Bytes) :
    Arrival UInt8 :=
  let env := sampleEnv (sampleSetup.key dest.other) 9
  ⟨⟨dest, buildRecord env (sampleSetup.serial dest) type data⟩,
    sampleEnv (sampleSetup.key dest) 9⟩

/-- Each party gets the key and the nonce of the other, and then the alert that
the other answered its nonce with. -/
def samplePeriod : List (Arrival UInt8) :=
  [sampleArrival .alice .handshakeKey (sampleSetup.pub .bob),
    sampleArrival .alice .handshakeNonce (sampleNonce 9).1,
    sampleArrival .bob .handshakeKey (sampleSetup.pub .alice),
    sampleArrival .bob .handshakeNonce (sampleNonce 9).1,
    sampleArrival .alice .alert [97, 0],
    sampleArrival .bob .alert [97, 0]]

theorem sampleWire_haveSessions : HaveSessions sampleSetup.serial sampleWire := by
  intro p keychain hp
  cases hp
  simp

private theorem pipe_ext {v w : Pipe K} (halice : v.session .alice = w.session .alice)
    (hbob : v.session .bob = w.session .bob) (hflight : v.flight = w.flight) : v = w := by
  cases v
  cases w
  simp only [Pipe.mk.injEq]
  refine ⟨?_, hflight⟩
  funext p
  cases p with
  | alice => exact halice
  | bob => exact hbob

/-- After one period the parties are where they will be after every further
one. -/
private theorem period_repeats :
    ∃ v t, exec (callStep sampleOpenSSL sampleSetup.serial)
        (sampleWire.pipe sampleSetup.serial) sampleCalls = some v ∧
      exec (Pipe.step sampleOpenSSL sampleSetup.serial) v samplePeriod = some t ∧
      exec (Pipe.step sampleOpenSSL sampleSetup.serial) t samplePeriod = some t := by
  have hrun : ((exec (callStep sampleOpenSSL sampleSetup.serial)
      (sampleWire.pipe sampleSetup.serial) sampleCalls).bind fun v =>
        (exec (Pipe.step sampleOpenSSL sampleSetup.serial) v samplePeriod).bind fun t =>
          (exec (Pipe.step sampleOpenSSL sampleSetup.serial) t samplePeriod).map fun t' =>
            (t'.session .alice == t.session .alice, t'.session .bob == t.session .bob,
              t'.flight == t.flight)) = some (true, true, true) := by decide +kernel
  obtain ⟨v, hv, hrun⟩ := Option.bind_eq_some_iff.1 hrun
  obtain ⟨t, ht, hrun⟩ := Option.bind_eq_some_iff.1 hrun
  obtain ⟨t', ht', heq⟩ := Option.map_eq_some_iff.1 hrun
  simp only [Prod.mk.injEq, beq_iff_eq] at heq
  rw [pipe_ext heq.1 heq.2.1 heq.2.2] at ht'
  exact ⟨v, t, hv, ht, ht'⟩

/-- Both users start a handshake at the same time.  Each party waits for a hash
when the other's nonce reaches it, answers with an alert, and starts again on
the alert it gets. -/
theorem crossing_initiations_storm :
    ∃ w, exec (Wire.initSession sampleOpenSSL sampleSetup.serial) sampleWire sampleCalls =
        some w ∧
      ∃ ws as, Endless (Wire.deliver sampleOpenSSL sampleSetup.serial) w ws as := by
  obtain ⟨v, t, hv, ht, hcycle⟩ := period_repeats
  obtain ⟨w, hw, rfl, hsessions⟩ :=
    (initSession_simulates sampleOpenSSL sampleSetup.serial).exec sampleWire_haveSessions hv
  obtain ⟨ps, as, hendless⟩ := endless_of_cycle ht hcycle
  exact ⟨w, hw, (deliver_simulates sampleOpenSSL sampleSetup.serial).endless hsessions hendless⟩

end EndToEndSmkex.Smkex.Storm
