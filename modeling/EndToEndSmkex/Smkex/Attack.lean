import EndToEndSmkex.Smkex.SessionKey

/-!
# An attacker on the key channel

Nonces and hashes travel untouched while the attacker hands out keys of its
own.  The hash is what should notice: `verifyH` recomputes it over the key in
hand.  But `verifyH` returns the value of `strncmp`, which is true where the
two hashes differ, so a foreign key passes exactly where it should not.

## Main results

* `KeysInv` — as long as no foreign key is stored, every session that holds a key
  holds the peer's.
* `attacked_connections` — as long as none is stored, parties connect with the
  peer's key only.
* `substituted_key_connects` — a run in which the attacker's key is accepted.
-/

namespace EndToEndSmkex.Smkex.Attack

open EndToEndSmkex.Lib.CBuffer
open EndToEndSmkex.Lib.Run
open EndToEndSmkex.Lib.Undefined
open EndToEndSmkex.Smkex.Record
open EndToEndSmkex.Smkex.SessionInfo
open EndToEndSmkex.Smkex.Handshake
open EndToEndSmkex.Smkex.Transitions
open EndToEndSmkex.Smkex.Keychain
open EndToEndSmkex.Smkex.Network
open EndToEndSmkex.Smkex.Overruns

variable {K : Type}

/-! ## Runs without substitution -/

/-- The session has stored this key, encoded in 65 bytes. -/
def Holds (pub : Bytes) (s : SmkexSessionInfo K) : Prop :=
  s.remote_pub_key_len = 65 ∧ s.remoteKey = pub

theorem Holds.congr {pub : Bytes} {s t : SmkexSessionInfo K} (h : SameKeys s t)
    (hs : Holds pub s) : Holds pub t := by
  unfold Holds SmkexSessionInfo.remoteKey at *
  rw [h.remote_pub_key, h.remote_pub_key_len]
  exact hs

/-- The renewal in state `connected` copies 256 bytes, but the old length keeps
the session to the key. -/
theorem rekeyed_holds {pub : Bytes} (env : Env K) {s : SmkexSessionInfo K}
    {r : SmkexT4mRecord} (hpub : pub.length = 65) (hr : r.data = pub) (hs : Holds pub s) :
    Holds pub (rekeyed env s r) := by
  refine ⟨hs.1, ?_⟩
  show (s.remote_pub_key.write (readN r.data (env.heap .recData) PUB_KEY_LEN)).bytes.take
    s.remote_pub_key_len = pub
  have hread : 65 ≤ (readN r.data (env.heap .recData) PUB_KEY_LEN).length := by
    rw [readN_length]
    decide
  calc (s.remote_pub_key.write (readN r.data (env.heap .recData) PUB_KEY_LEN)).bytes.take
        s.remote_pub_key_len
      = (readN r.data (env.heap .recData) PUB_KEY_LEN).take 65 := by
        rw [hs.1, Block.take_write_of_le hread]
    _ = r.data.take 65 := take_readN _ (by decide) (by rw [hr, hpub])
    _ = pub := by rw [hr, ← hpub, List.take_length]

/-- What holds of the keys of one party while no key is replaced: every key it
sent is its own, and where it holds a key, it holds the peer's. -/
structure PartyKeys (u : Setup K) (p : Side) (session : Option (SmkexSessionInfo K))
    (sent : List SmkexT4mRecord) : Prop where
  sentKey : ∀ r ∈ sent, r.type = .handshakeKey → r.data = u.pub p
  ownKey : ∀ s, session = some s → s.ec_key = u.key p
  peerKey : ∀ s, session = some s → HasKey s.status → Holds (u.pub p.other) s

/-- The same of both parties. -/
def KeysInv (u : Setup K) (n : Net K) : Prop :=
  ∀ p, PartyKeys u p (n.session u p) (n.sent p)

/-- An injected key is the one the peer would have sent. -/
def Genuine (u : Setup K) (e : NetEvent K) : Prop :=
  ∀ p r env, e = .inject p r env → r.data = u.pub p.other

/-- The states that do nothing with a key. -/
def IgnoresKeys : State → Prop
  | .waitNonceHDest | .waitNonceInit | .waitKeyInit | .waitNonce2HInit => True
  | _ => False

instance : (status : State) → Decidable (IgnoresKeys status)
  | .waitNonceHDest | .waitNonceInit | .waitKeyInit | .waitNonce2HInit => isTrue trivial
  | .notConnected | .waitKeyNonceHDest | .waitKeyDest | .connected => isFalse id

/-- No foreign key is stored: what is injected is the peer's key, or comes to a
session that ignores it. -/
def Unsubstituted (u : Setup K) (n : Net K) : NetEvent K → Prop
  | .inject p r _ => r.data = u.pub p.other ∨ ∃ s ∈ n.session u p, IgnoresKeys s.status
  | _ => True

instance (u : Setup K) (n : Net K) : (e : NetEvent K) → Decidable (Unsubstituted u n e)
  | .inject p r _ => inferInstanceAs (Decidable
      (r.data = u.pub p.other ∨ ∃ s ∈ n.session u p, IgnoresKeys s.status))
  | .initSession _ _ | .deliver _ _ _ => isTrue trivial

section Invariant

variable {u : Setup K} {n n' : Net K} {e : NetEvent K}

theorem KeysInv.initial (h : n.Initial u) : KeysInv u n := by
  intro p
  refine ⟨?_, ?_, ?_⟩
  · intro r hr
    rw [h.silent p] at hr
    cases hr
  · intro s hs
    obtain ⟨c, hc, rfl⟩ := h.fresh p s hs
    exact hc
  · intro s hs hkey
    obtain ⟨c, -, rfl⟩ := h.fresh p s hs
    exact hkey.elim

theorem Genuine.unsubstituted (h : Genuine u e) (n : Net K) : Unsubstituted u n e := by
  cases e with
  | inject p r env => exact Or.inl (h p r env rfl)
  | initSession | deliver => trivial

/-- Any key that is stored is the peer's. -/
theorem KeysInv.received (h : KeysInv u n) (hkeys : Unsubstituted u n e) {r : SmkexT4mRecord}
    {env : Env K} {s : SmkexSessionInfo K} (brings : e.Brings n r env)
    (before : n.session u e.side = some s ∨ n.session u e.side = none ∧
      s = SmkexSessionInfo.new (u.env e.side env).fresh)
    (type : r.type = .handshakeKey) (hstores : ¬ IgnoresKeys s.status) :
    r.data = u.pub e.side.other := by
  rcases brings with ⟨-, hr⟩ | ⟨he, -⟩
  · exact (h _).sentKey r hr type
  · rw [he] at hkeys
    rcases hkeys with hr | ⟨t, ht, hignores⟩
    · exact hr
    · have hsession : n.session u e.side = some t := ht
      rcases before with before | ⟨before, -⟩ <;> rw [hsession] at before <;> cases before
      exact absurd hignores hstores

theorem not_ignoresKeys_of_derives {status : State} (h : Derives status) :
    ¬ IgnoresKeys status := by
  rcases h with rfl | rfl | rfl <;> exact id

theorem KeysInv.step (h : KeysInv u n) (hkeys : Unsubstituted u n e)
    (hstep : n.step u e = some n') : KeysInv u n' := by
  refine step_local hstep h ?_
  have hside := h e.side
  cases step_cases hstep with
  | exited ended sent _ =>
      rw [session_of_ended ended, sent]
      exact ⟨hside.sentKey, by simp, by simp⟩
  | started env s _ before after sent =>
      rw [after, sent]
      have hown := hside.ownKey s before
      refine ⟨?_, ?_, ?_⟩
      · intro r hr type
        rcases List.mem_append.1 hr with hr | hr
        · exact hside.sentKey r hr type
        · rw [restarted_key_records hr type, hown]
          rfl
      · rintro _ ⟨rfl⟩
        rw [restarted_ec_key, hown]
      · rintro _ ⟨rfl⟩ hkey
        rw [restarted_status] at hkey
        exact hkey.elim
  | answered env r s s' records brings before answer after sent =>
      rw [after, sent]
      have hown : s.ec_key = u.key e.side := by
        rcases before with before | ⟨-, rfl⟩
        · exact hside.ownKey s before
        · rfl
      have hpeer : HasKey s.status → Holds (u.pub e.side.other) s := by
        rcases before with before | ⟨-, rfl⟩
        · exact hside.peerKey s before
        · exact fun hkey => hkey.elim
      have hlen : (u.pub e.side.other).length = 65 := u.ssl.pub_size _
      have hr := h.received hkeys brings before
      refine ⟨?_, ?_, ?_⟩
      · intro q hq type
        rcases List.mem_append.1 hq with hq | hq
        · exact hside.sentKey q hq type
        · rw [answer.key_records hq type, hown]
          rfl
      · rintro _ ⟨rfl⟩
        rw [answer.ec_key, hown]
      · rintro _ ⟨rfl⟩
        refine answer.held (fun _ _ hsame => Holds.congr hsame) ?_ ?_ hpeer
        · intro type derives t _
          have hdata := hr type (not_ignoresKeys_of_derives derives)
          refine ⟨?_, by rw [keyed_remoteKey, hdata]⟩
          show r.length.toNat = 65
          rw [← r.data_size, hdata, hlen]
        · intro type status hold
          exact rekeyed_holds _ hlen (hr type (by rw [status]; exact id)) hold

end Invariant

/-! ## Runs under attack -/

/-- A party that becomes connected has the peer's key. -/
def ConnectsToPeer (u : Setup K) (n : Net K) (e : NetEvent K) (n' : Net K) : Prop :=
  ∀ s', n'.session u e.side = some s' →
    (∀ s, n.session u e.side = some s → s.status ≠ .connected) →
    s'.status = .connected → s'.remoteKey = u.pub e.side.other

section Attack

variable {u : Setup K} {n n' : Net K} {e : NetEvent K}

/-- Where no foreign key has been stored, none is connected to. -/
theorem KeysInv.connectsToPeer (h : KeysInv u n') : ConnectsToPeer u n e n' := by
  intro s' hs' _ hconnected
  exact ((h e.side).peerKey s' hs' (by simp [hconnected, HasKey])).2

end Attack

/-- **What keeps a foreign key out.**  In every run of the two parties in which
no foreign key is stored and no copy leaves its buffer, each of them connects
with the peer's key only. -/
theorem attacked_connections (u : Setup K) (n : Net K) (hinit : n.Initial u)
    (es : List (NetEvent K × Option (Net K)))
    (hkeys : Steps (netStep u) (fun n e _ => EventStays u n e.1 ∧ Unsubstituted u n e.1) n es) :
    Steps (netStep u) (fun n e n' => ConnectsToPeer u n e.1 n') n es := by
  refine steps_havoc_of_inv (C := fun n e _ => Unsubstituted u n e)
    (fun m e m' hm _ hstep hc => ?_) (KeysInv.initial hinit) hkeys
  have hm' := hm.step hc hstep
  exact ⟨hm', hm'.connectsToPeer⟩

/-- An attacker who passes alice's key on. -/
theorem attacked_connections_honest :
    Steps (netStep sampleSetup) (fun n e n' => ConnectsToPeer sampleSetup n e.1 n') sampleNet
      (plain [.initSession .alice (sampleEnv 1 11),
        .inject .bob alicesKey (sampleEnv 2 12)]) := by
  exact attacked_connections sampleSetup sampleNet sampleNet_initial _ (by decide +kernel)

/-! ## A substituted key -/

/-- The attacker's key goes to both parties in place of the peer's, and the
nonces arrive untouched. -/
def substitution : List (NetEvent UInt8) :=
  let foreign := sampleSetup.ssl.pub 9
  [.initSession .alice (sampleEnv 1 11),
    .inject .bob (buildRecord (sampleEnv 9 9) [98] .handshakeKey foreign) (sampleEnv 2 12),
    .deliver .bob alicesNonce (sampleEnv 2 12),
    .inject .alice (buildRecord (sampleEnv 9 9) [97] .handshakeKey foreign) (sampleEnv 1 11)]

/-- Bob's hash over the foreign key. -/
def substitutionNonceH : NetEvent UInt8 :=
  .deliver .alice (bobsNonceH (sampleSetup.ssl.pub 9)) (sampleEnv 1 11)

/-- The hash arrives, alice compares it with one over the key she holds, finds
them different, and is connected with the attacker's key. -/
theorem substituted_key_connects :
    Function.Injective sampleSetup.ssl.sha256 ∧
      ¬ ∀ (n : Net UInt8) (es : List (NetEvent UInt8 × Option (Net UInt8))),
        n.Initial sampleSetup →
          Defined (EventStays sampleSetup) (Net.step sampleSetup) n es →
            Steps (netStep sampleSetup) (fun n e n' => ConnectsToPeer sampleSetup n e.1 n')
              n es := by
  refine ⟨List.cons_injective, ?_⟩
  intro hall
  have hdefined : Defined (EventStays sampleSetup) (Net.step sampleSetup) sampleNet
      (plain substitution ++ [(substitutionNonceH, none)]) := by decide +kernel
  have hsteps := hall sampleNet _ sampleNet_initial hdefined
  have hrun : ((exec (netStep sampleSetup) sampleNet (plain substitution)).bind fun n =>
      (netStep sampleSetup n (substitutionNonceH, none)).map fun n' =>
        ((n.session sampleSetup .alice).map (·.status),
          (n'.session sampleSetup .alice).map fun s => (s.status, s.remoteKey))) =
      some (some .waitNonceHDest, some (.connected, sampleSetup.ssl.pub 9)) := by
    decide +kernel
  obtain ⟨n, hn, hrun⟩ := Option.bind_eq_some_iff.1 hrun
  obtain ⟨n', hn', hrun⟩ := Option.map_eq_some_iff.1 hrun
  rw [Prod.mk.injEq] at hrun
  obtain ⟨s', hs', hconnected⟩ := Option.map_eq_some_iff.1 hrun.2
  rw [Prod.mk.injEq] at hconnected
  have hright := hsteps.last hn hn'
  have hkey : s'.remoteKey = sampleSetup.pub .bob := by
    refine hright s' hs' ?_ hconnected.1
    intro s hs
    have hstatus : s.status = .waitNonceHDest := by
      have := hrun.1
      rw [show n.session sampleSetup .alice = some s from hs] at this
      simpa using this
    rw [hstatus]
    decide
  rw [hconnected.2] at hkey
  exact absurd hkey (by decide +kernel)

end EndToEndSmkex.Smkex.Attack
