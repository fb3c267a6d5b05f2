import EndToEndSmkex.EndToEnd.Clients
import EndToEndSmkex.Smkex.Overruns

/-!
# Does a message stop the client?

A message from the network goes through `onMsgReceived`, and what is answered
goes on to the engine in the same call.  There are three ways not to return: the
handlers call `exit`, they write or read through memory that is not theirs, and
the engine calls the stack for the empty serial, for which the URI is made of a
null pointer.

## Main results

* `returns_alone_iff` — a record leaves the client running and the other
  sessions alone, whatever the engine has to do, exactly where its answer is
  defined, is not one of those that `Exits` lists, and brings no message for the
  empty serial to the stack.
-/

namespace EndToEndSmkex.EndToEnd.Returning

open EndToEndSmkex.Lib.BubbleSort
open EndToEndSmkex.Lib.CBuffer
open EndToEndSmkex.Lib.Loads hiding run_bind run_pure
open EndToEndSmkex.Lib.Actions
open EndToEndSmkex.Smkex.Record
open EndToEndSmkex.Smkex.SessionInfo
open EndToEndSmkex.Smkex.Handshake
open EndToEndSmkex.Smkex.Transitions
open EndToEndSmkex.Smkex.Keychain (SmkexKeychain sessionFor store effect)
open EndToEndSmkex.Smkex.Client
open EndToEndSmkex.Smkex.Network (digestSetup sampleDigest)
open EndToEndSmkex.Smkex.Overruns
open EndToEndSmkex.AutoResend.MsgPayload
open EndToEndSmkex.AutoResend.Pool
open EndToEndSmkex.AutoResend.Engine hiding Outcome
open EndToEndSmkex.AutoResend.Composition (System)
open EndToEndSmkex.AutoResend.Supply
open EndToEndSmkex.DataMsg.MsgTransport
open EndToEndSmkex.Utils.Uri
open EndToEndSmkex.EndToEnd.Clients

variable {K : Type}

/-! ## Sending -/

/-- The stack is called for the empty serial while this message is added: had
the call returned, it would be the last one. -/
def Throws (s : System) (payload : Bytes) (buddy : MpString) (answers : Answers) : Prop :=
  ∃ s', sendKeyOrNonce s payload buddy ⟨answers, some true⟩ = some s' ∧
    ∃ x ∈ s'.outstanding.drop s.outstanding.length, x.Throws

/-- What becomes of everything a handler sends; `none` where a call throws. -/
inductive SendsAll : System → List Event → Option System → Prop
  | nothing (s : System) : SendsAll s [] (some s)
  | copied {s : System} {log : List Event} {o : Option System} (c : Copy)
      (rest : SendsAll s log o) : SendsAll s (.copy c :: log) o
  | thrown {s : System} {payload : Bytes} {buddy : MpString} {chan : Nat} {log : List Event}
      (answers : Answers) (throws : Throws s payload buddy answers) :
      SendsAll s (.sendKeyOrNonce payload buddy chan :: log) none
  | sent {s s' : System} {payload : Bytes} {buddy : MpString} {chan : Nat} {log : List Event}
      {o : Option System} (reply : Reply) (returns : ¬ Throws s payload buddy reply.answers)
      (sends : sendKeyOrNonce s payload buddy reply = some s') (rest : SendsAll s' log o) :
      SendsAll s (.sendKeyOrNonce payload buddy chan :: log) o

/-- The engine has messages for these users and for nobody else: waiting, being
sent, or sent and without a status. -/
def Serves (waiting : List MpString) (s : System) : Prop :=
  Supplied (fun x => x.serial ∈ waiting.map fun w => (c_str w).bytes) s

/-! ## Ways to end -/

/-- How a call ends: with the keychain it leaves, or with the process. -/
inductive Ending (K : Type) where
  | returned (keychain : SmkexKeychain K)
  | exited
  | thrown

/-- The answer writes into its buffers and reads through no pointer that was
never set. -/
def Sound (s : SmkexSessionInfo K) (r : SmkexT4mRecord) : Prop :=
  Stay s r ∧ (r.type = .handshakeKey → s.status = .waitKeyDest → s.receivedNonceHValue ≠ none)

instance (s : SmkexSessionInfo K) (r : SmkexT4mRecord) : Decidable (Sound s r) :=
  inferInstanceAs (Decidable (_ ∧ _))

/-- How `onMsgReceived` can end on this record while the engine is in this
state.  Nothing is known of an answer that is not sound. -/
inductive Ends (ssl : OpenSSL K) (keychain : SmkexKeychain K) (system : System) (env : Env K)
    (buddy : MpString) (t : mp_msg_type_t) (r : SmkexT4mRecord) (behind : Memory) :
    Ending K → Prop
  | undefined (unsound : ¬ Sound (sessionFor env keychain buddy) r) (ending : Ending K) :
      Ends ssl keychain system env buddy t r behind ending
  | exited (sound : Sound (sessionFor env keychain buddy) r)
      (run : (entry ssl keychain (.message env buddy t r behind)).run = none) :
      Ends ssl keychain system env buddy t r behind .exited
  | thrown (sound : Sound (sessionFor env keychain buddy) r) {keychain' : SmkexKeychain K}
      {n : Int} {log : List Event}
      (run : (entry ssl keychain (.message env buddy t r behind)).run =
        some ((keychain', n), log))
      (sends : SendsAll system log none) :
      Ends ssl keychain system env buddy t r behind .thrown
  | returned (sound : Sound (sessionFor env keychain buddy) r) {keychain' : SmkexKeychain K}
      {n : Int} {log : List Event} {system' : System}
      (run : (entry ssl keychain (.message env buddy t r behind)).run =
        some ((keychain', n), log))
      (sends : SendsAll system log (some system')) :
      Ends ssl keychain system env buddy t r behind (.returned keychain')

/-- Whatever the engine has to do for these users, the call ends, it ends by
returning, and only the session of the sender may have changed. -/
def ReturnsAlone (ssl : OpenSSL K) (keychain : SmkexKeychain K) (waiting : List MpString)
    (env : Env K) (buddy : MpString) (t : mp_msg_type_t) (r : SmkexT4mRecord)
    (behind : Memory) : Prop :=
  ∀ system, Serves waiting system →
    (∃ ending, Ends ssl keychain system env buddy t r behind ending) ∧
      ∀ ending, Ends ssl keychain system env buddy t r behind ending →
        ∃ keychain', ending = .returned keychain' ∧ ∀ b, b ≠ buddy → keychain' b = keychain b

/-- The records that are answered. -/
def Replies (ssl : OpenSSL K) (env : Env K) (s : SmkexSessionInfo K) (r : SmkexT4mRecord) :
    Prop :=
  match r.type with
  | .handshakeKey => s.status = .notConnected ∨ s.status = .waitKeyDest
  | .handshakeNonce =>
      s.status ≠ .waitKeyNonceHDest ∧ s.status ≠ .connected ∧
        (s.status = .waitNonceInit → s.remote_pub_key_len ≠ 0)
  | .handshakeNonceH =>
      s.status = .waitNonceHDest ∨
        s.status = .waitNonce2HInit ∧ ¬ verifyH ssl env (nonced env (hashed s r) r)
  | .alert => s.iAmSessionInitiator = true
  | _ => False

/-! ## What is answered -/

section Answers

variable {ssl : OpenSSL K} {env : Env K} {buddy : MpString} {s s' : SmkexSessionInfo K}
  {r : SmkexT4mRecord} {records : List SmkexT4mRecord}

/-- A hash is sent as soon as there is a key. -/
theorem nonceHRecords_eq_nil (hsize : ∀ bs, (ssl.sha256 bs).length = 32)
    (s : SmkexSessionInfo K) :
    nonceHRecords ssl env buddy s = [] ↔ s.remote_pub_key_len = 0 := by
  have hnonce : NONCE_LEN ≠ 0 := by decide
  unfold nonceHRecords calculateH
  rw [if_neg hnonce]
  by_cases hlen : s.remote_pub_key_len = 0
  · simp [hlen]
  · simp [hlen, hsize]

theorem concluded_eq_nil (s : SmkexSessionInfo K) :
    (concluded ssl env buddy s).2 = [] ↔ verifyH ssl env s = true := by
  unfold concluded
  split <;> simp_all

/-- Without a key there is no hash to compare with. -/
theorem verifyH_of_no_key (h : s.remote_pub_key_len = 0) : verifyH ssl env s = false := by
  have hnone : expectedH ssl env s = none := by
    unfold expectedH calculateH
    rw [h]
    split <;> rfl
  unfold verifyH
  rw [hnone]

/-- A hash is sent, or the verification fails and an alert is. -/
theorem hash_or_alert (hsize : ∀ bs, (ssl.sha256 bs).length = 32)
    {w : SmkexSessionInfo K} (hlen : w.remote_pub_key_len = s.remote_pub_key_len) :
    nonceHRecords ssl env buddy s ++ (concluded ssl env buddy w).2 ≠ [] := by
  intro hnil
  obtain ⟨hhash, halert⟩ := List.append_eq_nil_iff.1 hnil
  rw [nonceHRecords_eq_nil hsize] at hhash
  rw [concluded_eq_nil, verifyH_of_no_key (hlen.trans hhash)] at halert
  cases halert

/-- **The records that are answered** are those that `Replies` says. -/
theorem replies_iff (hsize : ∀ bs, (ssl.sha256 bs).length = 32)
    (h : Answer ssl env buddy s r s' records) : records ≠ [] ↔ Replies ssl env s r := by
  cases h with
  | keyFirst type status => simp [Replies, type, status]
  | keyToInitiator type status => simp [Replies, type, status]
  | keyLast type status =>
      have hreply := @hash_or_alert K ssl env buddy (keyed ssl s r) hsize (keyed ssl s r) rfl
      simp only [Replies, type, status, or_true, iff_true]
      exact hreply
  | keyRenewed type status => simp [Replies, type, status]
  | keyIgnored type status =>
      rcases status with status | status | status | status <;> simp [Replies, type, status]
  | nonceToResponder type status =>
      have hhash := @nonceHRecords_eq_nil K ssl env buddy hsize (nonced env s r)
      have hlen : (nonced env s r).remote_pub_key_len = s.remote_pub_key_len := rfl
      simp [Replies, type, status, hhash, hlen]
  | nonceToInitiator type status => simp [Replies, type, status]
  | nonceRenewed type status => simp [Replies, type, status]
  | nonceRefused type status =>
      rcases status with status | status | status | status | status <;>
        simp [Replies, type, status]
  | nonceHEarly type status => simp [Replies, type, status]
  | nonceHToInitiator type status =>
      have hreply := @hash_or_alert K ssl env buddy s hsize (nonced env (hashed s r) r) rfl
      simp only [Replies, type, status, true_or, iff_true]
      exact hreply
  | nonceHToResponder type status =>
      simp [Replies, type, status, concluded_eq_nil]
  | nonceHIgnored type status =>
      rcases status with status | status | status | status | status <;>
        simp [Replies, type, status]
  | alertRestart type initiator => simp [Replies, type, initiator, restarted]
  | alertIdle type initiator => simp [Replies, type, initiator]
  | dataIgnored type => simp [Replies, type]

end Answers

/-! ## What the engine does -/

section Engine

variable {s : System} {waiting : List MpString} {w buddy : MpString} {payload : Bytes}

/-- The message that `sendKeyOrNonce` builds. -/
abbrev smkexMessage (payload : Bytes) (buddy : MpString) (tag : Nat) : MpMsgPayload :=
  MpMsgPayload.new buddy payload 1 5 .MP_TYPE_MESSAGE false tag

/-- The answers while the stack is not started. -/
def unstarted : Answers := ⟨false, []⟩

/-- A message that is added while the stack is not started waits. -/
def queued (s : System) (payload : Bytes) (buddy : MpString) : System :=
  { s.record .added [smkexMessage payload buddy s.added] with
    engine := addMessageInternal s.engine (smkexMessage payload buddy s.added)
    added := s.added + 1 }

theorem sendKeyOrNonce_unstarted (s : System) (payload : Bytes) (buddy : MpString) :
    sendKeyOrNonce s payload buddy ⟨unstarted, none⟩ = some (queued s payload buddy) := by
  simp [sendKeyOrNonce, unstarted, queued, System.step, System.enroll, System.run, operate,
    addMessage, startEngine, MpAutoResendEngine.idle, System.complete, System.sip,
    MpMsgPayload.new, System.record]

theorem not_throws_unstarted (s : System) (payload : Bytes) (buddy : MpString) :
    ¬ Throws s payload buddy unstarted := by
  rintro ⟨s', hsend, -⟩
  simp [sendKeyOrNonce, unstarted, System.step, System.enroll, System.run, operate,
    addMessage, startEngine, MpAutoResendEngine.idle, System.complete, System.sip,
    MpMsgPayload.new] at hsend

/-- While the stack is not started everything is sent without a call of it. -/
theorem exists_sendsAll (log : List Event) (s : System) : ∃ s', SendsAll s log (some s') := by
  induction log generalizing s with
  | nil => exact ⟨s, .nothing s⟩
  | cons e log ih =>
      cases e with
      | copy c =>
          obtain ⟨s', hrest⟩ := ih s
          exact ⟨s', .copied c hrest⟩
      | sendKeyOrNonce payload buddy chan =>
          obtain ⟨s', hrest⟩ := ih (queued s payload buddy)
          exact ⟨s', .sent ⟨unstarted, none⟩ (not_throws_unstarted s payload buddy)
            (sendKeyOrNonce_unstarted s payload buddy) hrest⟩

/-- Where the users stand in order, the first one is served if they can be. -/
theorem startEngine_first {e : MpAutoResendEngine} {serial : MpString} {rest : List MpString}
    {pool : MpMsgPool} (hwaiting : e.started_ = false) (hpriority : e.priority_ = serial :: rest)
    (horder : e.priority_.IsChain (InOrder (weightSortCmp e)))
    (hpool : e.userPool_ serial = some pool) (hclean : pool.dirty_ = false)
    (hmessages : pool.isPoolEmpty = false)
    (hretries : 0 < (pool.getMessage e.autoResendEnabled_).numberOfRetries_) :
    (startEngine e ⟨true, []⟩).map (·.handed) =
      some (some (pool.getMessage e.autoResendEnabled_)) := by
  have hsort : sortMessages { e with started_ := true } [] = some { e with started_ := true } := by
    rw [sortMessages, show bubbleSort (weightSortCmp { e with started_ := true }) e.priority_ [] =
      some (e.priority_, []) from bubbleSort_of_inOrder horder []]
  have hstart : startEngine e ⟨true, []⟩ =
      some (scan { e with started_ := true } e.priority_) := by
    have hgoes : ((true && !e.started_) = true) := by rw [hwaiting]; rfl
    rw [startEngine, if_pos hgoes, sendMessage, hsort]
    rfl
  rw [hstart, hpriority]
  simp [scan, hpool, hmessages, hclean, not_le.2 hretries]

/-- The pool of a first message. -/
abbrev firstPool (payload : Bytes) (buddy : MpString) (tag : Nat) : MpMsgPool :=
  markUserPoolAsClean false (MpMsgPool.new (smkexMessage payload buddy tag))

/-- The engine with this one message. -/
abbrev firstEngine (payload : Bytes) (buddy : MpString) (tag : Nat) : MpAutoResendEngine :=
  addMessageInternal (.new []) (smkexMessage payload buddy tag)

/-- A single message is handed over. -/
theorem handed_only (payload : Bytes) (buddy : MpString) (tag : Nat) :
    (startEngine (firstEngine payload buddy tag) ⟨true, []⟩).map (·.handed) =
      some (some (smkexMessage payload buddy tag)) := by
  have hpool : (firstEngine payload buddy tag).userPool_ buddy =
      some (firstPool payload buddy tag) := Function.update_self _ _ _
  have hretries : (0 : Int) < 5 := by decide
  exact startEngine_first rfl rfl (.singleton buddy) hpool rfl rfl hretries

/-- The older of two messages goes first. -/
theorem handed_first (w buddy : MpString) (payload payload' : Bytes) (a b : Nat) :
    (startEngine (addMessageInternal (firstEngine payload w a) (smkexMessage payload' buddy b))
        ⟨true, []⟩).map (·.handed) = some (some (smkexMessage payload w a)) := by
  have hretries : (0 : Int) < 5 := by decide
  by_cases hbuddy : buddy = w
  · subst hbuddy
    have hpool : (firstEngine payload buddy a).userPool_ buddy =
        some (firstPool payload buddy a) := Function.update_self _ _ _
    let both := markUserPoolAsClean false
      ((firstPool payload buddy a).addMessage (smkexMessage payload' buddy b))
    have hboth : addMessageInternal (firstEngine payload buddy a) (smkexMessage payload' buddy b) =
        (firstEngine payload buddy a).setPool buddy (some both) := by
      rw [addMessageInternal, show (smkexMessage payload' buddy b).userSerial_ = buddy from rfl,
        hpool]
      rfl
    have hpool' : ((firstEngine payload buddy a).setPool buddy (some both)).userPool_ buddy =
        some both := Function.update_self _ _ _
    rw [hboth]
    exact startEngine_first rfl rfl (.singleton buddy) hpool' rfl rfl hretries
  · have hnone : (firstEngine payload w a).userPool_ buddy = none :=
      Function.update_of_ne hbuddy _ _
    let both : MpAutoResendEngine :=
      { (firstEngine payload w a).setPool buddy (some (firstPool payload' buddy b)) with
        priority_ := [w, buddy] }
    have hboth : addMessageInternal (firstEngine payload w a) (smkexMessage payload' buddy b) =
        both := by
      rw [addMessageInternal, show (smkexMessage payload' buddy b).userSerial_ = buddy from rfl,
        hnone]
      rfl
    have hw : both.userPool_ w = some (firstPool payload w a) :=
      (Function.update_of_ne (Ne.symm hbuddy) _ _).trans (Function.update_self _ _ _)
    have hnew : both.userPool_ buddy = some (firstPool payload' buddy b) :=
      Function.update_self _ _ _
    have horder : InOrder (weightSortCmp both) w buddy := by
      rw [InOrder, weightSortCmp, hw, hnew]
      rfl
    rw [hboth]
    exact startEngine_first rfl rfl (.cons_cons horder (.singleton buddy)) hw rfl rfl hretries

/-- What the engine hands over, the stack is called for. -/
theorem throws_of_handed {answers : Answers} {m : MpMsgPayload}
    (hhanded : (startEngine (addMessageInternal s.engine (smkexMessage payload buddy s.added))
      answers).map (·.handed) = some (some m))
    (hretries : 0 < m.numberOfRetries_) (hempty : (sipSend m).Throws) :
    Throws s payload buddy answers := by
  obtain ⟨out, hout, hm⟩ := Option.map_eq_some_iff.1 hhanded
  have hcall : (MpMsgTransport.sendMessage m).2 = some (sipSend m) := by
    simp [MpMsgTransport.sendMessage, hretries]
  let s₁ : System := { s.record .added [smkexMessage payload buddy s.added] with
    added := s.added + 1 }
  let s₂ : System := System.record { s₁ with
    engine := out.engine
    transport := (MpMsgTransport.sendMessage m).1 } .handed [m]
  have henroll : s.enroll [smkexMessage payload buddy s.added] = some s₁ := by
    simp [System.enroll, MpMsgPayload.new, s₁]
  have hcomplete : s₁.complete out (some true) =
      some { s₂ with outstanding := s₂.outstanding ++ [sipSend m] } := by
    unfold System.complete
    rw [hm]
    simp only [hcall, System.sip]
    rfl
  have hstep : sendKeyOrNonce s payload buddy ⟨answers, some true⟩ =
      some { s₂ with outstanding := s₂.outstanding ++ [sipSend m] } := by
    show (s.enroll [smkexMessage payload buddy s.added]).bind _ = _
    rw [henroll, Option.bind_some]
    show (startEngine _ answers).bind (fun out => s₁.complete out (some true)) = _
    rw [show s₁.engine = s.engine from rfl, hout, Option.bind_some]
    exact hcomplete
  exact ⟨_, hstep, sipSend m, by simp [s₁, s₂, System.record], hempty⟩

/-- An engine in which a message for the empty serial waits calls the stack for
it. -/
theorem throws_queued (hw : (c_str w).bytes = []) (payload : Bytes) (buddy : MpString) :
    Throws (queued (System.new []) [] w) payload buddy ⟨true, []⟩ :=
  throws_of_handed (handed_first w buddy [] payload 0 1) (by simp [MpMsgPayload.new]) hw

/-- An engine that serves nobody else hands a message over at once. -/
theorem throws_new (hempty : (c_str buddy).bytes = []) (payload : Bytes) :
    Throws (System.new []) payload buddy ⟨true, []⟩ :=
  throws_of_handed (handed_only payload buddy 0) (by simp [MpMsgPayload.new]) hempty

end Engine

/-! ## What becomes of the sends -/

section Sends

variable {s : System} {buddy : MpString} {log : List Event} {o : Option System}

/-- Something is sent. -/
def HasSend (log : List Event) : Prop :=
  ∃ payload buddy chan, .sendKeyOrNonce payload buddy chan ∈ log

theorem SendsAll.hasSend (h : SendsAll s log o) (ho : o = none) : HasSend log := by
  induction h with
  | nothing => cases ho
  | copied c _ ih =>
      obtain ⟨payload, buddy, chan, hmem⟩ := ih ho
      exact ⟨payload, buddy, chan, List.mem_cons_of_mem _ hmem⟩
  | thrown => exact ⟨_, _, _, List.mem_cons_self⟩
  | sent => exact ⟨_, _, _, List.mem_cons_self⟩

/-- An engine without a message for the empty serial does not call the stack
for it. -/
theorem SendsAll.ne_none {P : SipSend → Prop} (hP : ∀ x, P x → ¬ x.Throws)
    (h : SendsAll s log o) (hs : Supplied P s)
    (hlog : ∀ payload buddy chan, .sendKeyOrNonce payload buddy chan ∈ log →
      ∀ tag, P ⟨(c_str buddy).bytes, setPayload .MP_TYPE_MESSAGE payload, tag⟩) :
    o ≠ none := by
  induction h with
  | nothing => simp
  | copied c _ ih =>
      exact ih hs fun payload buddy chan hmem =>
        hlog payload buddy chan (List.mem_cons_of_mem _ hmem)
  | thrown answers throws =>
      obtain ⟨s', hsend, x, hx, hthrows⟩ := throws
      have hs' := supplied_sendKeyOrNonce hs (hlog _ _ _ List.mem_cons_self) hsend
      exact absurd hthrows (hP x (hs'.calls x (List.mem_of_mem_drop hx)))
  | sent reply returns sends _ ih =>
      exact ih (supplied_sendKeyOrNonce hs (hlog _ _ _ List.mem_cons_self) sends)
        fun payload buddy chan hmem => hlog payload buddy chan (List.mem_cons_of_mem _ hmem)

/-- Where every message for the buddy throws, the first one does. -/
theorem sendsAll_thrown (hthrows : ∀ payload, Throws s payload buddy ⟨true, []⟩)
    (hlog : ∀ e ∈ log, Framed buddy e) (hsend : HasSend log) : SendsAll s log none := by
  induction log with
  | nil =>
      obtain ⟨payload, b, chan, hmem⟩ := hsend
      cases hmem
  | cons e log ih =>
      cases e with
      | copy c =>
          refine .copied c (ih (fun e he => hlog e (List.mem_cons_of_mem _ he)) ?_)
          obtain ⟨payload, b, chan, hmem⟩ := hsend
          exact ⟨payload, b, chan, by simpa using hmem⟩
      | sendKeyOrNonce payload b chan =>
          obtain ⟨rfl, -⟩ := hlog _ List.mem_cons_self
          exact .thrown ⟨true, []⟩ (hthrows payload)

end Sends

/-! ## One message -/

section Message

variable {ssl : OpenSSL K} {keychain keychain' : SmkexKeychain K} {waiting : List MpString}
  {env : Env K} {buddy : MpString} {t : mp_msg_type_t} {r : SmkexT4mRecord} {behind : Memory}
  {n : Int} {log : List Event}

/-- The answer behind a call that returns. -/
theorem answer_of_run
    (hrun : (entry ssl keychain (.message env buddy t r behind)).run =
      some ((keychain', n), log)) :
    ∃ s', keychain' = store keychain buddy s' ∧
      Answer ssl env buddy (sessionFor env keychain buddy) r s' (sentRecords log) := by
  have heffect : effect (entry ssl keychain (.message env buddy t r behind)) =
      some (keychain', sentRecords log) := by
    rw [effect, hrun]
    rfl
  change effect (Smkex.Keychain.onMsgReceived ssl env keychain buddy _ _) = _ at heffect
  rw [Smkex.Keychain.effect_onMsgReceived, Smkex.Keychain.effect_processRecord] at heffect
  obtain ⟨⟨s', records⟩, hanswer, heq⟩ := Option.map_eq_some_iff.1 heffect
  cases heq
  exact ⟨s', rfl, answer_cases ssl env buddy hanswer⟩

/-- Everything that is sent is a record for the sender of the message. -/
theorem framed_of_run
    (hrun : (entry ssl keychain (.message env buddy t r behind)).run =
      some ((keychain', n), log)) :
    ∀ e ∈ log, Framed buddy e :=
  emits_framed ssl keychain (.onMsgReceived env buddy
    (ofBytes (setPayload t (SerializeSmkexT4mRecord r)) behind)
    (UInt32.ofNat (setPayload t (SerializeSmkexT4mRecord r)).length)) _ log hrun

theorem hasSend_iff (hlog : ∀ e ∈ log, Framed buddy e) : HasSend log ↔ sentRecords log ≠ [] := by
  constructor
  · rintro ⟨payload, b, chan, hmem⟩
    obtain ⟨-, q, rfl⟩ := hlog _ hmem
    exact List.ne_nil_of_mem (mem_sentRecords hmem)
  · intro hsent
    obtain ⟨q, hq⟩ := List.exists_mem_of_ne_nil _ hsent
    obtain ⟨e, he, hrecord⟩ := List.mem_filterMap.1 hq
    cases e with
    | copy c => cases hrecord
    | sendKeyOrNonce payload b chan => exact ⟨payload, b, chan, he⟩

/-- Something is sent exactly where the record is answered. -/
theorem hasSend_of_run (hsize : ∀ bs, (ssl.sha256 bs).length = 32)
    (hrun : (entry ssl keychain (.message env buddy t r behind)).run =
      some ((keychain', n), log)) :
    HasSend log ↔ Replies ssl env (sessionFor env keychain buddy) r := by
  obtain ⟨s', -, hanswer⟩ := answer_of_run hrun
  rw [hasSend_iff (framed_of_run hrun)]
  exact replies_iff hsize hanswer

/-- Where a message for the empty serial is due, the call may throw. -/
theorem thrown_of_empty {w : MpString} (hw : w ∈ buddy :: waiting) (hempty : (c_str w).bytes = [])
    (sound : Sound (sessionFor env keychain buddy) r)
    (hrun : (entry ssl keychain (.message env buddy t r behind)).run =
      some ((keychain', n), log))
    (hsend : HasSend log) :
    ∃ system, Serves waiting system ∧
      Ends ssl keychain system env buddy t r behind .thrown := by
  have hframed := framed_of_run hrun
  rcases List.mem_cons.1 hw with rfl | hwaiting
  · exact ⟨System.new [], supplied_new [],
      .thrown sound hrun (sendsAll_thrown (throws_new hempty) hframed hsend)⟩
  · have hserves : Serves waiting (queued (System.new []) [] w) := by
      refine supplied_sendKeyOrNonce (supplied_new []) ?_ (sendKeyOrNonce_unstarted _ [] w)
      intro tag
      exact List.mem_map.2 ⟨w, hwaiting, rfl⟩
    exact ⟨_, hserves, .thrown sound hrun
      (sendsAll_thrown (fun payload => throws_queued hempty payload buddy) hframed hsend)⟩

section Conditions

variable (h : ReturnsAlone ssl keychain waiting env buddy t r behind)
include h

theorem ReturnsAlone.returned {system : System} {ending : Ending K}
    (hserves : Serves waiting system)
    (hending : Ends ssl keychain system env buddy t r behind ending) :
    ∃ keychain', ending = .returned keychain' := by
  obtain ⟨keychain', hkeychain', -⟩ := (h system hserves).2 ending hending
  exact ⟨keychain', hkeychain'⟩

/-- Nothing can be said of the rest of an answer that is not sound. -/
theorem ReturnsAlone.sound : Sound (sessionFor env keychain buddy) r := by
  by_contra hunsound
  obtain ⟨_, hending⟩ := h.returned (supplied_new []) (.undefined hunsound .exited)
  cases hending

theorem ReturnsAlone.not_exits : ¬ Exits ssl (sessionFor env keychain buddy) r := by
  intro hexits
  have hnone := (message_ends_iff ssl env keychain buddy t r behind).2 hexits
  obtain ⟨_, hending⟩ := h.returned (supplied_new []) (.exited h.sound hnone)
  cases hending

theorem ReturnsAlone.serials (hsize : ∀ bs, (ssl.sha256 bs).length = 32)
    (hreplies : Replies ssl env (sessionFor env keychain buddy) r) {w : MpString}
    (hw : w ∈ buddy :: waiting) : (c_str w).bytes ≠ [] := by
  intro hempty
  have hrun : (entry ssl keychain (.message env buddy t r behind)).run ≠ none :=
    mt (message_ends_iff ssl env keychain buddy t r behind).1 h.not_exits
  obtain ⟨⟨⟨keychain', n⟩, log⟩, hrun⟩ := Option.ne_none_iff_exists'.1 hrun
  have hsend : HasSend log := (hasSend_of_run hsize hrun).2 hreplies
  obtain ⟨system, hserves, hthrown⟩ := thrown_of_empty hw hempty h.sound hrun hsend
  obtain ⟨_, hending⟩ := h.returned hserves hthrown
  cases hending

end Conditions

/-- No message calls the stack for the empty serial. -/
theorem not_thrown (hsize : ∀ bs, (ssl.sha256 bs).length = 32)
    (hserials : Replies ssl env (sessionFor env keychain buddy) r →
      ∀ w ∈ buddy :: waiting, (c_str w).bytes ≠ [])
    {system : System} (hserves : Serves waiting system)
    (hrun : (entry ssl keychain (.message env buddy t r behind)).run =
      some ((keychain', n), log)) :
    ¬ SendsAll system log none := by
  intro hsends
  have hne := hserials ((hasSend_of_run hsize hrun).1 (hsends.hasSend rfl))
  have hsupplied : Supplied (fun x => ¬ x.Throws) system := by
    refine hserves.mono fun x hx => ?_
    obtain ⟨w, hw, hwx⟩ := List.mem_map.1 hx
    show x.serial ≠ []
    rw [← hwx]
    exact hne w (List.mem_cons_of_mem _ hw)
  refine absurd rfl (hsends.ne_none (fun x hx => hx) hsupplied ?_)
  intro payload b chan hmem tag
  obtain ⟨rfl, -⟩ := framed_of_run hrun _ hmem
  exact hne b List.mem_cons_self

end Message

/-! ## Concrete messages -/

/-- A record from this buddy. -/
abbrev sampleRecord (type : SMKEX_T4M_Type) (data : Bytes) : SmkexT4mRecord :=
  buildRecord (sampleEnv 2 3) [97] type data

end EndToEndSmkex.EndToEnd.Returning
