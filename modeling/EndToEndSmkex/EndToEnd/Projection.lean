import EndToEndSmkex.EndToEnd.Clients
import EndToEndSmkex.Smkex.Agreement

/-!
# Two of many clients

Seen from two users, everything between the records of one `Smkex` and the
decoder of the other is a network with a memory: the engine queues, sorts and
repeats, the transport tries again, the SIP network delays and duplicates, and
other users come and go.  None of it brings a record to the peer that was not
sent for the peer, and none of it reaches the session of the two, unless a copy
leaves its buffer.

The applications of the two may use the same way for messages of their own, but
not to each other: the receiver would take them for records.

## Main results

* `pairwise_network` — every run of all clients is, for any two of them, a run
  of the network of two parties.
* `keys_agree` — two connected users hold each other's key and the same
  session key.
-/

namespace EndToEndSmkex.EndToEnd.Projection

open EndToEndSmkex.Lib.CBuffer
open EndToEndSmkex.Lib.Run
open EndToEndSmkex.Lib.Undefined
open EndToEndSmkex.Lib.Loads hiding run_bind run_pure
open EndToEndSmkex.Smkex.Record
open EndToEndSmkex.Smkex.SessionInfo
open EndToEndSmkex.Smkex.Handshake (buildRecord)
open EndToEndSmkex.Smkex.Keychain
open EndToEndSmkex.Smkex.Isolation hiding Client Client.step sampleCalls sampleMessage
open EndToEndSmkex.Smkex.Network
open EndToEndSmkex.Smkex.Overruns
open EndToEndSmkex.Smkex.Agreement
open EndToEndSmkex.AutoResend.MsgPayload
open EndToEndSmkex.AutoResend.Composition (System)
open EndToEndSmkex.AutoResend.Supply
open EndToEndSmkex.DataMsg.MsgTransport (SipSend sipSend)
open EndToEndSmkex.DataMsg.Receiving (Delivery)
open EndToEndSmkex.Utils.Uri
open EndToEndSmkex.EndToEnd.Clients hiding Setup Setup.env Setup.uri

variable {K : Type}

/-! ## The network of two users -/

/-- The user on each side. -/
def pick (a b : User) : Side → User
  | .alice => a
  | .bob => b

/-- The two users under their serials, with the key pairs they draw for each
other. -/
def pair (o : Clients.Setup K) (a b : User) : Smkex.Network.Setup K where
  ssl := o.ssl
  serial p := (pick a b p).1
  key p := o.key (pick a b p) (pick a b p.other).1

theorem pick_injective {a b : User} (hab : a ≠ b) {p q : Side} (h : pick a b p = pick a b q) :
    p = q := by
  cases p <;> cases q
  · rfl
  · exact absurd h hab
  · exact absurd h.symm hab
  · rfl

/-- A call that goes to this serial carries one of these records. -/
def Carries (records : List SmkexT4mRecord) (dest : MpString) (c : SipSend) : Prop :=
  c.serial = dest →
    ∃ r ∈ records, c.msg = setPayload .MP_TYPE_MESSAGE (SerializeSmkexT4mRecord r)

theorem Carries.mono {records records' : List SmkexT4mRecord} {dest : MpString} {c : SipSend}
    (h : Carries records dest c) (hsub : records ⊆ records') : Carries records' dest c := by
  intro hdest
  obtain ⟨r, hr, hmsg⟩ := h hdest
  exact ⟨r, hsub hr, hmsg⟩

/-- A client as the party `p` of the network: while its process runs, the two
have the same session for the peer, and what is on its way to the peer are
records the party has sent. -/
structure Tracks (u : Smkex.Network.Setup K) (n : Net K) (p : Side) (c : Client K) : Prop where
  session : ∀ keychain, c.keychain = some keychain →
    ∃ kept, n.party p = some kept ∧ kept (u.serial p.other) = keychain (u.serial p.other)
  buddies : ∀ keychain, c.keychain = some keychain → ∀ buddy, keychain buddy ≠ none → 0 ∉ buddy
  carried : Supplied (Carries (n.sent p) (u.serial p.other)) c.system

/-- The network has moved on at `p` alone. -/
structure MovesAt (n : Net K) (p : Side) (n' : Net K) : Prop where
  party : n'.party p.other = n.party p.other
  sent : n'.sent p.other = n.sent p.other
  grows : n.sent p ⊆ n'.sent p

theorem MovesAt.refl (n : Net K) (p : Side) : MovesAt n p n :=
  ⟨rfl, rfl, fun _ h => h⟩

theorem MovesAt.trans {n n' n'' : Net K} {p : Side} (h : MovesAt n p n')
    (h' : MovesAt n' p n'') : MovesAt n p n'' :=
  ⟨h'.party.trans h.party, h'.sent.trans h.sent, fun _ hr => h'.grows (h.grows hr)⟩

/-- One event of the network; none whose copies leave their buffers. -/
abbrev safeStep (u : Smkex.Network.Setup K) : Net K → NetEvent K → Option (Net K) :=
  strict (EventStays u) (Net.step u)

/-! ## One call -/

section Call

variable {u : Smkex.Network.Setup K} {n : Net K} {p : Side} {c c' : Client K} {e : Call K}

theorem Tracks.ended (h : Tracks u n p c) : Tracks u n p { c with keychain := none } where
  session _ hk := by cases hk
  buddies _ hk := by cases hk
  carried := h.carried

/-- The process has ended, or it returns from the call. -/
theorem call_of_some {replies : List Reply} (h : c.call u.ssl e replies = some c') :
    c.keychain = none ∧ c' = c ∨
      ∃ keychain, c.keychain = some keychain ∧ Called u.ssl c keychain e c' := by
  cases hk : c.keychain with
  | none =>
      rw [Client.call, hk] at h
      cases h
      exact Or.inl ⟨rfl, rfl⟩
  | some keychain => exact Or.inr ⟨keychain, rfl, call_cases hk h⟩

/-- A call about somebody else does not show in the network. -/
theorem Tracks.elsewhere {replies : List Reply} (h : Tracks u n p c)
    (hcall : c.call u.ssl e replies = some c') (hother : e.buddy ≠ u.serial p.other)
    (hzero : ∀ keychain, c.keychain = some keychain →
      (handle u.ssl keychain e).run ≠ none → 0 ∉ e.buddy) : Tracks u n p c' := by
  rcases call_of_some hcall with ⟨-, rfl⟩ | ⟨keychain, hk, hcalled⟩
  · exact h
  · cases hcalled with
    | ended run state =>
        rw [state]
        exact h.ended
    | returned session count log system run sent state =>
        have hbuddy : 0 ∉ e.buddy := hzero keychain hk (by rw [run keychain rfl]; simp)
        have hname : (c_str e.buddy).bytes = e.buddy := c_str_of_noZero hbuddy
        obtain ⟨kept, hparty, hsame⟩ := h.session keychain hk
        rw [state]
        constructor
        · rintro _ ⟨rfl⟩
          refine ⟨kept, hparty, hsame.trans ?_⟩
          exact (Function.update_of_ne hother.symm _ _).symm
        · rintro _ ⟨rfl⟩ buddy hstored
          by_cases hb : buddy = e.buddy
          · rw [hb]
            exact hbuddy
          · rw [store, Function.update_of_ne hb] at hstored
            exact h.buddies keychain hk buddy hstored
        · refine sent h.carried ?_
          intro r _ tag hdest
          exact absurd (hname.symm.trans hdest) hother

/-- A call about the peer is an event of the network. -/
theorem Tracks.together {replies : List Reply} (h : Tracks u n p c)
    (hcall : c.call u.ssl e replies = some c') (hpeer : e.buddy = u.serial p.other)
    (hzero : 0 ∉ u.serial p.other) (hstays : c.Stays e) (ne : NetEvent K) (hnet : ByNetwork ne)
    (hin : ∀ kept, n.party p = some kept → CallStays kept e → EventStays u n ne)
    (hstep : n.step u ne = n.act p fun keychain => effect (handle u.ssl keychain e)) :
    Reaches (safeStep u) ByNetwork n fun n' => Tracks u n' p c' ∧ MovesAt n p n' := by
  rcases call_of_some hcall with ⟨-, rfl⟩ | ⟨keychain, hk, hcalled⟩
  · exact reaches_refl ⟨h, MovesAt.refl n p⟩
  · cases hcalled with
    | ended run state =>
        rw [state]
        exact reaches_refl ⟨h.ended, MovesAt.refl n p⟩
    | returned session count log system run sent state =>
        obtain ⟨kept, hparty, hsame⟩ := h.session keychain hk
        -- the call does the same in the keychain of the party
        have hkept := run kept (by rw [hpeer]; exact hsame)
        have heffect : effect (handle u.ssl kept e) =
            some (store kept e.buddy session, sentRecords log) := by
          rw [effect, hkept]
          rfl
        have hnext : n.step u ne = some
            { party := Function.update n.party p (some (store kept e.buddy session))
              sent := Function.update n.sent p (n.sent p ++ sentRecords log) } := by
          rw [hstep, Net.act, hparty, Option.map_some, heffect]
        have hgrows : n.sent p ⊆ n.sent p ++ sentRecords log := by simp
        have hcopies : CallStays kept e := by
          simp only [Client.Stays, hk] at hstays
          exact hstays.congr (by rw [hpeer]; exact hsame)
        refine reaches_step hnet (strict_eq_some.2 ⟨hin kept hparty hcopies, hnext⟩) ⟨?_, ?_⟩
        · rw [state]
          constructor
          · rintro _ ⟨rfl⟩
            refine ⟨_, Function.update_self .., ?_⟩
            simp only [store, hpeer, Function.update_self]
          · rintro _ ⟨rfl⟩ buddy hat
            by_cases hb : buddy = e.buddy
            · rw [hb, hpeer]
              exact hzero
            · rw [store, Function.update_of_ne hb] at hat
              exact h.buddies keychain hk buddy hat
          · dsimp only
            rw [Function.update_self]
            refine sent (h.carried.mono fun d hd => hd.mono hgrows) ?_
            intro r hr tag _
            exact ⟨r, by simp [hr], rfl⟩
        · refine ⟨Function.update_of_ne (Side.other_ne p) .., Function.update_of_ne
            (Side.other_ne p) .., ?_⟩
          dsimp only
          rw [Function.update_self]
          exact hgrows

end Call

/-! ## One event -/

/-- The network as two users see it. -/
structure Projects (o : Clients.Setup K) (a b : User) (w : World K) (n : Net K) : Prop where
  tracks : ∀ p, Tracks (pair o a b) n p (w.client (pick a b p))
  wire : ∀ p, ∀ m ∈ w.wire (pick a b p), Carries (n.sent p) (pick a b p.other).1 m

/-- The applications of the two users send nothing of their own to the other. -/
def QuietBetween (a b : User) : WorldEvent K → Prop
  | .service x i => ∀ p, x = pick a b p →
      ∀ m ∈ newMessages i.event, (c_str m.userSerial_).bytes ≠ (pick a b p.other).1
  | _ => True

section Step

variable {o : Clients.Setup K} {a b : User} {w w' : World K} {n n' : Net K}

theorem Tracks.moved {p : Side} {c : Client K} (h : Tracks (pair o a b) n p.other c)
    (hmoves : MovesAt n p n') : Tracks (pair o a b) n' p.other c where
  session keychain hk := by
    obtain ⟨kept, hparty, hsame⟩ := h.session keychain hk
    exact ⟨kept, hmoves.party.trans hparty, hsame⟩
  buddies := h.buddies
  carried := by
    rw [hmoves.sent]
    exact h.carried

/-- The other side of a side. -/
private theorem eq_other {p q : Side} (h : q ≠ p) : q = p.other := by
  cases p <;> cases q <;> simp_all [Side.other]

/-- The client of one of the two has changed. -/
theorem Projects.put (hab : a ≠ b) (h : Projects o a b w n) (p : Side) {c : Client K}
    (kept : Nat) (hc : Tracks (pair o a b) n' p c) (hmoves : MovesAt n p n') :
    Projects o a b (w.put (pick a b p) c kept) n' := by
  constructor
  · intro q
    by_cases hq : q = p
    · rw [hq, World.put]
      dsimp only
      rw [Function.update_self]
      exact hc
    · have hne : pick a b q ≠ pick a b p := fun heq => hq (pick_injective hab heq)
      rw [World.put]
      dsimp only
      rw [Function.update_of_ne hne, eq_other hq]
      exact (h.tracks p.other).moved hmoves
  · intro q m hm
    rw [World.put] at hm
    dsimp only at hm
    by_cases hq : q = p
    · rw [hq, Function.update_self] at hm
      rw [hq]
      obtain hm | hm := List.mem_append.1 hm
      · exact (h.wire p m hm).mono hmoves.grows
      · exact hc.carried.calls m (List.mem_of_mem_drop hm)
    · have hne : pick a b q ≠ pick a b p := fun heq => hq (pick_injective hab heq)
      rw [Function.update_of_ne hne] at hm
      rw [eq_other hq, hmoves.sent, ← eq_other hq]
      exact h.wire q m hm

/-- The client of somebody else has changed. -/
theorem Projects.put_stranger (h : Projects o a b w n) {x : User}
    (hx : ∀ p, pick a b p ≠ x) (c : Client K) (kept : Nat) :
    Projects o a b (w.put x c kept) n := by
  constructor
  · intro p
    rw [World.put]
    dsimp only
    rw [Function.update_of_ne (hx p)]
    exact h.tracks p
  · intro p m hm
    rw [World.put] at hm
    dsimp only at hm
    rw [Function.update_of_ne (hx p)] at hm
    exact h.wire p m hm

/-- A user who calls `initSession` for somebody without a session does not come
back, so nobody with a zero byte in the name gets a message. -/
theorem initSession_buddy {c : Client K} {p : Side} {env : Env K} {buddy : MpString}
    (h : Tracks (pair o a b) n p c) :
    ∀ keychain, c.keychain = some keychain →
      (handle o.ssl keychain (.initSession env buddy)).run ≠ none → 0 ∉ buddy := by
  intro keychain hk hrun
  apply h.buddies keychain hk buddy
  intro hnone
  have heffect := effect_initSession_none o.ssl env keychain buddy hnone
  rw [effect, Option.map_eq_none_iff] at heffect
  exact hrun heffect

/-- A client at `p` and how far the network has moved there. -/
def At (o : Clients.Setup K) (a b : User) (n : Net K) (p : Side) (c : Client K) (n' : Net K) :
    Prop :=
  Tracks (pair o a b) n' p c ∧ MovesAt n p n'

/-- A framed record does what the record does. -/
theorem effect_handle_framed (ssl : OpenSSL K) (env : Env K) (buddy : MpString)
    (r : SmkexT4mRecord) (behind : Memory) (keychain : SmkexKeychain K) :
    effect (handle ssl keychain (.onMsgReceived env buddy
        (ofBytes (setPayload .MP_TYPE_MESSAGE (SerializeSmkexT4mRecord r)) behind)
        (UInt32.ofNat (setPayload .MP_TYPE_MESSAGE (SerializeSmkexT4mRecord r)).length))) =
      effect (processRecord ssl env keychain buddy r) := by
  rw [handle, effect_onMsgReceived]

/-- What the peer has sent arrives as one of its records. -/
theorem together_deliver {p : Side} {c c' : Client K} {r : SmkexT4mRecord} {env : Env K}
    {behind : Memory} {replies : List Reply} (hc : At o a b n p c n')
    (hr : r ∈ n.sent p.other)
    (hstays : c.Stays (.onMsgReceived ((pair o a b).env p env) (pick a b p.other).1
      (ofBytes (setPayload .MP_TYPE_MESSAGE (SerializeSmkexT4mRecord r)) behind)
      (UInt32.ofNat (setPayload .MP_TYPE_MESSAGE (SerializeSmkexT4mRecord r)).length)))
    (hcall : c.call o.ssl (.onMsgReceived ((pair o a b).env p env) (pick a b p.other).1
      (ofBytes (setPayload .MP_TYPE_MESSAGE (SerializeSmkexT4mRecord r)) behind)
      (UInt32.ofNat (setPayload .MP_TYPE_MESSAGE (SerializeSmkexT4mRecord r)).length)) replies =
        some c') :
    Reaches (safeStep (pair o a b)) ByNetwork n' (At o a b n p c') := by
  have hsent : r ∈ n'.sent p.other := by
    rw [hc.2.sent]
    exact hr
  have hstep : n'.step (pair o a b) (.deliver p r env) = n'.act p fun keychain =>
      effect (processRecord o.ssl ((pair o a b).env p env) keychain (pick a b p.other).1 r) := by
    rw [Net.step, if_pos hsent]
    rfl
  simp only [← effect_handle_framed _ _ _ r behind] at hstep
  have hreaches := hc.1.together hcall rfl (pick a b p.other).2.2 hstays (.deliver p r env)
    (fun q r' env' heq => by cases heq) ?_ hstep
  · refine hreaches.trans ?_
    rintro n₂ ⟨htracks, hmoves⟩
    exact reaches_refl ⟨htracks, hc.2.trans hmoves⟩
  · intro kept hparty hcopies
    change Stay _ (recordIn _ _ _) at hcopies
    rw [recordIn, getRecordFromSerial_msgCpy] at hcopies
    simp only [EventStays, hparty]
    exact hcopies

/-- One callback at one of the two users. -/
theorem receive_reaches {p : Side} {y : User} {c c' : Client K} {d : Delivery × Reception K}
    (hpeer : y = pick a b p.other →
      ∃ r ∈ n.sent p.other, d.1.msg = setPayload .MP_TYPE_MESSAGE (SerializeSmkexT4mRecord r))
    (hserial : d.1.serial = y.1) (hc : At o a b n p c n')
    (hstays : c.ReceptionStays o (pick a b p) d)
    (hstep : c.receive o (pick a b p) d = some c') :
    Reaches (safeStep (pair o a b)) ByNetwork n' (At o a b n p c') := by
  unfold Client.receive at hstep
  split at hstep
  · next hsmkex =>
    have hcopies := hstays hsmkex
    rw [smkexCall, hserial] at hstep hcopies
    by_cases hy : y = pick a b p.other
    · obtain ⟨r, hr, hmsg⟩ := hpeer hy
      rw [hmsg, hy] at hstep hcopies
      exact together_deliver hc hr hcopies hstep
    · have hother : y.1 ≠ (pair o a b).serial p.other := fun heq => hy (Subtype.ext heq)
      exact reaches_refl ⟨hc.1.elsewhere hstep hother fun _ _ _ => y.2.2, hc.2⟩
  · cases hstep
    exact reaches_refl hc

/-- A message from anybody, at one of the two users. -/
theorem on_pager_reaches {p : Side} {y : User} {uri : MpString} {m : SipSend} {pre post : Bytes}
    {receptions : List (Reception K)} {c' : Client K} (h : Projects o a b w n)
    (huri : o.uri y = some uri) (hm : m ∈ w.wire y)
    (hdest : m.serial = (pick a b p).1) (hsurrounds : Surrounds pre post)
    (hstays : (w.client (pick a b p)).PagerStays o (pick a b p) (pre ++ uri ++ post) m.msg
      receptions)
    (hstep : (w.client (pick a b p)).on_pager o (pick a b p) (pre ++ uri ++ post) m.msg receptions
      = some c') :
    Reaches (safeStep (pair o a b)) ByNetwork n (At o a b n p c') := by
  unfold Client.on_pager at hstep
  unfold Client.PagerStays at hstays
  rw [run_on_pager_framed o huri hsurrounds] at hstep hstays
  dsimp only at hstep hstays
  split at hstep
  · refine exec_simulates (C := fun d : Delivery × Reception K =>
      d.1.serial = y.1 ∧ d.1.msg = m.msg) ?_ ?_ ⟨h.tracks p, MovesAt.refl n p⟩
      (exec_strict hstays hstep)
    · rintro c d c₁ n₁ ⟨hserial, hmsg⟩ hc hreceive
      obtain ⟨hcopies, hreceive⟩ := strict_eq_some.1 hreceive
      refine receive_reaches ?_ hserial hc hcopies hreceive
      rintro rfl
      rw [hmsg]
      exact h.wire p.other m hm (by rw [Side.other_other]; exact hdest)
    · intro d hd
      obtain ⟨cb, -, hcb⟩ := List.mem_map.1 (List.of_mem_zip hd).1
      rw [← hcb]
      exact ⟨rfl, rfl⟩
  · cases hstep

/-- **One event of all clients** is nothing to two of them, or a run of their
network. -/
theorem Projects.step (hab : a ≠ b) (h : Projects o a b w n) {e : WorldEvent K}
    (hquiet : QuietBetween a b e) (hstays : w.Stays o e) (hstep : w.step o e = some w') :
    Reaches (safeStep (pair o a b)) ByNetwork n (Projects o a b w') := by
  -- what an event at one of the two needs
  have hput : ∀ {p : Side} {c : Client K} (kept : Nat),
      Reaches (safeStep (pair o a b)) ByNetwork n (At o a b n p c) →
        Reaches (safeStep (pair o a b)) ByNetwork n
          (Projects o a b (w.put (pick a b p) c kept)) := by
    intro p c kept hreaches
    refine hreaches.trans ?_
    rintro n₁ ⟨htracks, hmoves⟩
    exact reaches_refl (h.put hab p kept htracks hmoves)
  have hstranger : ∀ {x : User} {c : Client K} (kept : Nat), (∀ p, pick a b p ≠ x) →
      Reaches (safeStep (pair o a b)) ByNetwork n (Projects o a b (w.put x c kept)) := by
    intro x c kept hx
    exact reaches_refl (h.put_stranger hx c kept)
  have hsame : ∀ {x : User} {c : Client K} (kept : Nat),
      (∀ p, pick a b p = x → Tracks (pair o a b) n p c) →
      Reaches (safeStep (pair o a b)) ByNetwork n (Projects o a b (w.put x c kept)) := by
    intro x c kept hc
    by_cases hx : ∀ p, pick a b p ≠ x
    · exact hstranger kept hx
    · obtain ⟨p, hp⟩ := not_forall_not.1 hx
      subst hp
      exact hput kept (reaches_refl ⟨hc p rfl, MovesAt.refl n p⟩)
  cases e with
  | initSession x buddy env replies =>
      obtain ⟨c', hcall, rfl⟩ := Option.map_eq_some_iff.1 hstep
      by_cases hx : ∀ p, pick a b p ≠ x
      · exact hstranger _ hx
      · obtain ⟨p, hp⟩ := not_forall_not.1 hx
        subst hp
        apply hput
        have hc := h.tracks p
        by_cases hbuddy : buddy = (pick a b p.other).1
        · subst hbuddy
          have hnothing : (w.client (pick a b p)).Stays (.initSession
              (o.env (pick a b p) (pick a b p.other).1 env) (pick a b p.other).1) := by
            unfold Client.Stays
            split <;> trivial
          refine hc.together hcall rfl (pick a b p.other).2.2 hnothing (.initSession p env) ?_
            (fun _ _ _ => trivial) rfl
          intro q r env' heq
          cases heq
        · exact reaches_refl ⟨hc.elsewhere hcall hbuddy (initSession_buddy hc), MovesAt.refl n p⟩
  | on_pager x y m pre post receptions =>
      obtain ⟨uri, huri, hstep⟩ := Option.bind_eq_some_iff.1 hstep
      split at hstep
      · next hguard =>
        obtain ⟨c', hpager, rfl⟩ := Option.map_eq_some_iff.1 hstep
        by_cases hx : ∀ p, pick a b p ≠ x
        · exact hstranger _ hx
        · obtain ⟨p, hp⟩ := not_forall_not.1 hx
          subst hp
          exact hput _ (on_pager_reaches h huri hguard.1 hguard.2.1 hguard.2.2
            (hstays uri huri) hpager)
      · cases hstep
  | service x i =>
      rw [World.step] at hstep
      split at hstep
      · obtain ⟨system, hsystem, rfl⟩ := Option.map_eq_some_iff.1 hstep
        apply hsame
        rintro p rfl
        have hc := h.tracks p
        refine ⟨hc.session, hc.buddies, hc.carried.step hsystem ?_⟩
        intro m hm hdest
        exact absurd hdest (hquiet p rfl m hm)
      · cases hstep
  | addMsgCb x mcb | rmMsgCb x mcb =>
      cases hstep
      apply hsame
      rintro p rfl
      have hc := h.tracks p
      exact ⟨hc.session, hc.buddies, hc.carried⟩

/-- Before the first event. -/
theorem projects_initial (hinit : w.Initial o) :
    ∃ n : Net K, n.Initial (pair o a b) ∧ Projects o a b w n := by
  refine ⟨{ party := fun p => (w.client (pick a b p)).keychain, sent := fun _ => [] },
    ⟨?_, fun _ => rfl⟩, ?_, ?_⟩
  · intro p s hs
    obtain ⟨keychain, hk, hs⟩ := Option.bind_eq_some_iff.1 hs
    exact (hinit.fresh hk hs).2
  · intro p
    refine ⟨fun keychain hk => ⟨keychain, hk, rfl⟩, ?_, ?_⟩
    · intro keychain hk buddy hne
      obtain ⟨s, hs⟩ := Option.ne_none_iff_exists'.1 hne
      exact (hinit.fresh hk hs).1
    · obtain ⟨dbConnectors, hsystem⟩ := hinit.systems (pick a b p)
      rw [hsystem]
      exact supplied_new dbConnectors
  · intro p m hm
    rw [hinit.silent] at hm
    cases hm

end Step

/-! ## Whole runs -/

/-- What is left of a run whose copies all stay. -/
private theorem projected {o : Clients.Setup K} {w w' : World K} (hinit : w.Initial o)
    {a b : User} (hab : a ≠ b) {es : List (WorldEvent K × Option (World K))}
    (hquiet : ∀ e ∈ es, QuietBetween a b e.1)
    (hstays : Defined (World.Stays o) (World.step o) w es)
    (hrun : exec (worldStep o) w es = some w') :
    ∃ n nes n', n.Initial (pair o a b) ∧ (∀ e ∈ nes, ByNetwork e) ∧
      exec (safeStep (pair o a b)) n nes = some n' ∧ Projects o a b w' n' := by
  obtain ⟨n, hn, hprojects⟩ := projects_initial (a := a) (b := b) hinit
  have hevents : ∀ e ∈ es.map Prod.fst, QuietBetween a b e := by
    intro e he
    obtain ⟨p, hp, rfl⟩ := List.mem_map.1 he
    exact hquiet p hp
  obtain ⟨nes, n', hnet, hexec, h⟩ := exec_simulates
    (fun v e v' m he hm hv => Projects.step hab hm he (strict_eq_some.1 hv).1
      (strict_eq_some.1 hv).2) hevents hprojects (exec_havoc hstays hrun)
  exact ⟨n, nes, n', hn, hnet, hexec, h⟩

/-- **Two of many clients.**  In every run of any number of complete clients in
which every copy stays in its buffer, any two users whose applications do not
write to each other go through such a run of the network of two parties: their
sessions are those of its parties, and what is on its way from one to the other
are records the one has sent. -/
theorem pairwise_network (o : Clients.Setup K) (w w' : World K) (hinit : w.Initial o)
    (a b : User) (hab : a ≠ b) (es : List (WorldEvent K × Option (World K)))
    (hquiet : ∀ e ∈ es, QuietBetween a b e.1)
    (hstays : Defined (World.Stays o) (World.step o) w es)
    (hrun : exec (worldStep o) w es = some w') :
    ∃ n nes n', n.Initial (pair o a b) ∧ (∀ e ∈ nes, ByNetwork e) ∧
      exec (safeStep (pair o a b)) n nes = some n' ∧
      ∀ p, (∀ keychain, (w'.client (pick a b p)).keychain = some keychain →
          n'.session (pair o a b) p = keychain (pick a b p.other).1) ∧
        ∀ m ∈ w'.wire (pick a b p), Carries (n'.sent p) (pick a b p.other).1 m := by
  obtain ⟨n, nes, n', hn, hnet, hexec, h⟩ := projected hinit hab hquiet hstays hrun
  refine ⟨n, nes, n', hn, hnet, hexec, fun p => ⟨?_, h.wire p⟩⟩
  intro keychain hk
  obtain ⟨kept, hparty, hsame⟩ := (h.tracks p).session keychain hk
  rw [Net.session, hparty]
  exact hsame

/-- The session of `a` for `b`. -/
def session (w : World K) (a b : User) : Option (SmkexSessionInfo K) :=
  (w.client a).keychain.bind fun keychain => keychain b.1

/-- **Agreement of two of many.**  Two users who are connected with each other hold
each other's public key and the same session key, whatever engines, transports,
the network and all other users have done, as long as every copy stays in its
buffer. -/
theorem keys_agree (o : Clients.Setup K) (hecdh : EcdhAgrees o.ssl) (w w' : World K)
    (hinit : w.Initial o) (a b : User) (hab : a ≠ b)
    (es : List (WorldEvent K × Option (World K))) (hquiet : ∀ e ∈ es, QuietBetween a b e.1)
    (hstays : Defined (World.Stays o) (World.step o) w es)
    (hrun : exec (worldStep o) w es = some w')
    (s t : SmkexSessionInfo K) (hs : session w' a b = some s) (ht : session w' b a = some t)
    (hsc : s.status = .connected) (htc : t.status = .connected) :
    s.remoteKey = o.ssl.pub t.ec_key ∧ t.remoteKey = o.ssl.pub s.ec_key ∧
      s.session_key = t.session_key := by
  obtain ⟨n, nes, n', hn, hnet, hexec, h⟩ := projected hinit hab hquiet hstays hrun
  have hinv : Inv (pair o a b) n' := Steps.exec
    (C := fun _ e _ => ByNetwork e) (fun m e m' hm hstep he => hm.step hecdh he hstep)
    (Inv.initial hn) (steps_of_forall hnet) (exec_of_strict hexec)
  have hsession : ∀ p v, session w' (pick a b p) (pick a b p.other) = some v →
      n'.session (pair o a b) p = some v := by
    intro p v hv
    obtain ⟨keychain, hk, hv⟩ := Option.bind_eq_some_iff.1 hv
    obtain ⟨kept, hparty, hsame⟩ := (h.tracks p).session keychain hk
    rw [Net.session, hparty]
    exact hsame.trans hv
  have hs' := hsession .alice s hs
  have ht' := hsession .bob t ht
  obtain ⟨hkey, hsession_key⟩ := hinv.agreed hecdh hs' ht' hsc htc
  obtain ⟨hkey', -⟩ := hinv.agreed hecdh ht' hs' htc hsc
  exact ⟨hkey, hkey', hsession_key⟩

/-! ## A handshake with a third user in between -/

def sampleClients : Clients.Setup UInt8 where
  ssl := sampleOpenSSL
  key x _ := x.1.headD 0
  smkex := 7
  address := [104]
  port := 5061
  noAt := by decide

def alice : User := ⟨[97], by decide⟩

def bob : User := ⟨[98], by decide⟩

def stranger : User := ⟨[99], by decide⟩

/-- Everybody has a fresh session for alice and for bob. -/
def sampleWorld : World UInt8 where
  client x :=
    { keychain := some fun buddy =>
        if buddy = alice.1 ∨ buddy = bob.1 then
          some (SmkexSessionInfo.new (sampleDraws (sampleClients.key x buddy)))
        else none
      msgCb := [7]
      system := System.new [] }
  wire _ := []

theorem sampleWorld_initial : sampleWorld.Initial sampleClients where
  running x := by
    refine ⟨_, rfl, ?_⟩
    intro buddy s hs
    split at hs
    · next hbuddy =>
      cases hs
      refine ⟨?_, sampleDraws (sampleClients.key x buddy), rfl, rfl⟩
      rcases hbuddy with rfl | rfl <;> decide
    · cases hs
  systems _ := ⟨[], rfl⟩
  silent _ := rfl

/-- An engine that waits sends a message at once, one that is busy queues it. -/
def sentAtOnce : Reply := ⟨⟨true, []⟩, some true⟩

def queuedOnly : Reply := ⟨⟨true, []⟩, none⟩

/-- A record of `y`, the message `tag` of its engine, arrives at `x` in brackets. -/
def arrives (x y : User) (r : SmkexT4mRecord) (tag : Nat) (replies : List Reply) :
    WorldEvent UInt8 :=
  let m := MpMsgPayload.new x.1 (SerializeSmkexT4mRecord r) 1 5 .MP_TYPE_MESSAGE false tag
  .on_pager x y (sipSend m) [60] [62] [⟨sampleEnv 0 11, fun _ => 0, replies⟩]

/-- A message has been delivered, and the engine sends the next one. -/
def reported (x : User) : WorldEvent UInt8 :=
  .service x ⟨.on_pager_status 0 200, ⟨true, []⟩, some true⟩

def keyOf (x y : User) : SmkexT4mRecord :=
  buildRecord (sampleEnv 0 0) y.1 .handshakeKey (sampleClients.ssl.pub (sampleClients.key x y.1))

def nonceOfAlice : SmkexT4mRecord :=
  buildRecord (sampleEnv 0 0) bob.1 .handshakeNonce (sampleNonce 11).1

def nonceHOfBob : SmkexT4mRecord :=
  buildRecord (sampleEnv 0 0) alice.1 .handshakeNonceH
    ((sampleNonce 198).1 ++ (1 :: (sampleNonce 11).1 ++ (sampleOpenSSL.pub 97 ++
      ((sampleNonce 42).1 ++ sampleOpenSSL.pub 98))))

def nonceHOfAlice : SmkexT4mRecord :=
  buildRecord (sampleEnv 0 0) bob.1 .handshakeNonceH
    ((sampleNonce 11).1 ++ (1 :: sampleOpenSSL.pub 98 ++
      ((sampleNonce 41).1 ++ sampleOpenSSL.pub 97)))

/-- Alice and a stranger start handshakes; her answer to the stranger waits between her
messages to bob. -/
def sampleEvents : List (WorldEvent UInt8) :=
  [.initSession stranger alice.1 (sampleEnv 0 13) [sentAtOnce, queuedOnly],
    .initSession alice bob.1 (sampleEnv 0 11) [sentAtOnce, queuedOnly],
    arrives bob alice (keyOf alice bob) 0 [sentAtOnce],
    reported alice,
    arrives bob alice nonceOfAlice 1 [queuedOnly],
    arrives alice bob (keyOf bob alice) 0 [],
    reported bob,
    arrives alice stranger (keyOf stranger alice) 0 [queuedOnly],
    arrives alice bob nonceHOfBob 1 [queuedOnly],
    reported alice,
    reported alice,
    arrives bob alice nonceHOfAlice 3 []]

theorem sampleEvents_quiet :
    ∀ e ∈ (plain sampleEvents : List (WorldEvent UInt8 × Option (World UInt8))),
      QuietBetween alice bob e.1 := by
  simp [plain, sampleEvents, QuietBetween, arrives, reported, newMessages]

theorem sampleEvents_stay :
    Defined (World.Stays sampleClients) (World.step sampleClients) sampleWorld
      (plain sampleEvents) := by
  decide +kernel

theorem sampleEvents_connect :
    ∃ w s t, exec (worldStep sampleClients) sampleWorld (plain sampleEvents) = some w ∧
      session w alice bob = some s ∧ session w bob alice = some t ∧
        s.status = .connected ∧ t.status = .connected := by
  have hrun : ((exec (worldStep sampleClients) sampleWorld (plain sampleEvents)).bind fun w =>
      (session w alice bob).bind fun s => (session w bob alice).map fun t =>
        (s.status, t.status)) = some (.connected, .connected) := by
    decide +kernel
  obtain ⟨w, hw, hrun⟩ := Option.bind_eq_some_iff.1 hrun
  obtain ⟨s, hs, hrun⟩ := Option.bind_eq_some_iff.1 hrun
  obtain ⟨t, ht, hrun⟩ := Option.map_eq_some_iff.1 hrun
  rw [Prod.mk.injEq] at hrun
  exact ⟨w, s, t, hw, hs, ht, hrun.1, hrun.2⟩

theorem pairwise_network_sample :
    ∃ w n nes n', exec (worldStep sampleClients) sampleWorld (plain sampleEvents) = some w ∧
      n.Initial (pair sampleClients alice bob) ∧ (∀ e ∈ nes, ByNetwork e) ∧
        exec (safeStep (pair sampleClients alice bob)) n nes = some n' := by
  obtain ⟨w, -, -, hw, -⟩ := sampleEvents_connect
  obtain ⟨n, nes, n', hn, hnet, hexec, -⟩ := pairwise_network sampleClients sampleWorld w
    sampleWorld_initial alice bob (by decide) _ sampleEvents_quiet sampleEvents_stay hw
  exact ⟨w, n, nes, n', hw, hn, hnet, hexec⟩

theorem keys_agree_sample :
    ∃ w s t, exec (worldStep sampleClients) sampleWorld (plain sampleEvents) = some w ∧
      session w alice bob = some s ∧ session w bob alice = some t ∧
        s.remoteKey = sampleOpenSSL.pub t.ec_key ∧ t.remoteKey = sampleOpenSSL.pub s.ec_key ∧
          s.session_key = t.session_key := by
  obtain ⟨w, s, t, hw, hs, ht, hsc, htc⟩ := sampleEvents_connect
  exact ⟨w, s, t, hw, hs, ht, keys_agree sampleClients sampleOpenSSL_ecdh sampleWorld w
    sampleWorld_initial alice bob (by decide) _ sampleEvents_quiet sampleEvents_stay hw
    s t hs ht hsc htc⟩

end EndToEndSmkex.EndToEnd.Projection
