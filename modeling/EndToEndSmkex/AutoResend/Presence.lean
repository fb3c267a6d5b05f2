import EndToEndSmkex.AutoResend.Fairness
import Mathlib.Data.List.Pairwise

/-!
# Users who come online

A user who is reported online gets weight 0, and a waiting engine is started.
A new pool is made with weight 1, so that recently online users go first; but
`addMessageInternal` sets the weight to 0 at once.  Among pools of weight 0 the
order of `priority_` decides, because the sort is stable.

## Main results

* `leads_iff` — whom a waiting engine serves when a user of weight 0 is started
  for.
* `goesFirst_iff` — a user who comes online is served next exactly when nobody
  of weight 0 who can be served stands in front.
-/

namespace EndToEndSmkex.AutoResend.Presence

open EndToEndSmkex.Lib.Run
open EndToEndSmkex.Lib.BubbleSort
open EndToEndSmkex.Smkex.Record
open EndToEndSmkex.AutoResend.MsgPayload
open EndToEndSmkex.AutoResend.MsgPayload.mp_msg_type_t
open EndToEndSmkex.AutoResend.Pool
open EndToEndSmkex.AutoResend.Engine
open EndToEndSmkex.AutoResend.Engine.mp_buddy_online_status_t
open EndToEndSmkex.AutoResend.Changes
open EndToEndSmkex.AutoResend.Search
open EndToEndSmkex.AutoResend.Queues
open EndToEndSmkex.AutoResend.Representation
open EndToEndSmkex.AutoResend.Selection
open EndToEndSmkex.AutoResend.Fairness

/-! ## A user of weight 0 -/

section Leads

variable {e : MpAutoResendEngine} {u : MpString}

/-- No user of weight 0 who can be served stands in front of this one. -/
def Leads (e : MpAutoResendEngine) (u : MpString) : Prop :=
  ∀ s ∈ e.priority_.takeWhile (· ≠ u), weightOf e s = 0 → ¬ Eligible e s

/-- Two users of weight 0 keep their order when the engine sorts. -/
theorem filter_sortMessages {v : MpString} {missing : List Bool} {e' : MpAutoResendEngine}
    (hu : Eligible e u) (hzero : weightOf e u = 0) (hv : Eligible e v)
    (hzero' : weightOf e v = 0) (hsort : sortMessages e missing = some e') :
    (e'.priority_.filter fun s => s = v ∨ s = u) =
      e.priority_.filter fun s => s = v ∨ s = u := by
  have hpools : ∀ s, s = v ∨ s = u → ∃ pool, e.userPool_ s = some pool ∧ pool.weight_ = 0 := by
    rintro s (rfl | rfl)
    · obtain ⟨pool, hpool⟩ := pool_of_eligible hv
      exact ⟨pool, hpool, (weightOf_of_pool hpool).symm.trans hzero'⟩
    · obtain ⟨pool, hpool⟩ := pool_of_eligible hu
      exact ⟨pool, hpool, (weightOf_of_pool hpool).symm.trans hzero⟩
  have hclass : ∀ x y, decide (x = v ∨ x = u) = true → decide (y = v ∨ y = u) = true →
      weightSortCmp e x y = some false := by
    intro x y hx hy
    obtain ⟨p, hp, hpzero⟩ := hpools x (of_decide_eq_true hx)
    obtain ⟨q, hq, hqzero⟩ := hpools y (of_decide_eq_true hy)
    simp [weightSortCmp, hp, hq, hpzero, hqzero]
  obtain ⟨priority, hbubble, rfl⟩ := sortMessages_eq_some hsort
  exact bubbleSort_stable hclass hbubble

/-- The first of a list that is split at an eligible user, with nobody eligible
before. -/
theorem head_filter_split {v w : MpString} {passed : List MpString} (rest : List MpString)
    (hbefore : ∀ s ∈ passed, ¬ Eligible e s) (hv : Eligible e v) (hu : Eligible e u)
    (hw : w = v ∨ w = u) :
    ((passed ++ w :: rest).filter fun s => s = v ∨ s = u).head? = some w := by
  have hnone : (passed.filter fun s => s = v ∨ s = u) = [] := by
    apply List.filter_eq_nil_iff.2
    intro s hs hmem
    rcases of_decide_eq_true hmem with rfl | rfl
    · exact hbefore s hs hv
    · exact hbefore s hs hu
  have hkeep : decide (w = v ∨ w = u) = true := decide_eq_true hw
  rw [List.filter_append, hnone, List.nil_append, List.filter_cons, if_pos hkeep,
    List.head?_cons]

section Started

variable {started : Bool} {priority : List MpString}

/-- The one who is served stood in front of every other user of weight 0 who can
be served. -/
theorem leads_of_handed (hkept : Kept e) (hzero : weightOf e u = 0)
    (hsort : sortMessages { e with started_ := started } [] =
      some (driven e started priority)) {m : MpMsgPayload}
    (hm : (scan (driven e started priority) priority).handed = some m)
    (huser : m.userSerial_ = u) : Leads e u := by
  intro v hv hvzero heligible
  obtain ⟨passed, rest, hsplit, hbefore, hu⟩ := chosen_of_handed hkept hm
  rw [huser] at hsplit hu
  have hne : v ≠ u := by
    rintro rfl
    simpa using List.mem_takeWhile_imp hv
  -- the user comes first in the sorted list, and so in the list before
  have hhead := head_filter_split rest hbefore heligible hu (Or.inr rfl)
  have hstable := filter_sortMessages (e := { e with started_ := started }) hu hzero heligible
    hvzero hsort
  rw [← hsplit] at hhead
  have hmem := mem_priority_of_eligible hkept.listed hu
  exact (head_filter_pair hmem hne).1 ((congrArg List.head? hstable).symm.trans hhead) hv

/-- Somebody is served, because this user can be; and who is served weighs no
more than they do. -/
theorem handed_of_leads (hkept : Kept e) (hu : Eligible e u) (hzero : weightOf e u = 0)
    (hsort : sortMessages { e with started_ := started } [] =
      some (driven e started priority)) (hleads : Leads e u) :
    ∃ m, (scan (driven e started priority) priority).handed = some m ∧
      m.userSerial_ = u := by
  have hmem := mem_priority_of_eligible hkept.listed hu
  cases hm : (scan (driven e started priority) priority).handed with
  | none =>
      have hpicks := (scan_scanned priority (driven e started priority)).picks
      rw [hm] at hpicks
      cases hpicks with
      | nobody hall => exact absurd hu (hall u ((mem_sorted hsort).2 hmem))
  | some m =>
      refine ⟨m, rfl, ?_⟩
      by_contra hne
      obtain ⟨passed, rest, hsplit, hbefore, heligible⟩ := chosen_of_handed hkept hm
      have hchosen : weightOf e m.userSerial_ = 0 := by
        have hle := chosen_least hkept hsort
          (pairwise_of_ordered (w := 0) (sortMessages_ordered hsort)) hm hu
        obtain ⟨pool, hpool⟩ := pool_of_eligible heligible
        have hnonneg := hkept.nonneg _ pool hpool
        rw [weightOf_of_pool hpool] at hle ⊢
        omega
      -- the one who is served comes first in the sorted list, and so in the list before
      have hhead := head_filter_split rest hbefore heligible hu (Or.inl rfl)
      have hstable := filter_sortMessages (e := { e with started_ := started }) hu hzero
        heligible hchosen hsort
      rw [← hsplit] at hhead
      have hlate : m.userSerial_ ∉ e.priority_.takeWhile (· ≠ u) :=
        fun hfront => hleads _ hfront hchosen heligible
      have hfirst := (head_filter_pair hmem hne).2 hlate
      have hsame := hfirst.symm.trans ((congrArg List.head? hstable).symm.trans hhead)
      exact hne (Option.some.inj hsame).symm

/-- **Whom a started engine serves.**  A user of weight 0 who can be served is
served exactly when they lead. -/
theorem leads_iff (hkept : Kept e) (hu : Eligible e u) (hzero : weightOf e u = 0)
    (hsort : sortMessages { e with started_ := started } [] =
      some (driven e started priority)) :
    (∃ m, (scan (driven e started priority) priority).handed = some m ∧
        m.userSerial_ = u) ↔ Leads e u := by
  constructor
  · rintro ⟨m, hm, huser⟩
    exact leads_of_handed hkept hzero hsort hm huser
  · intro hleads
    exact handed_of_leads hkept hu hzero hsort hleads

end Started

end Leads

/-! ## A user is reported online -/

section Online

variable {e : MpAutoResendEngine} {u : MpString} {pool : MpMsgPool} {a : Answers}
  {out : Outcome}

/-- Once their pool is clean, a message of this user can be sent. -/
def Offers (e : MpAutoResendEngine) (u : MpString) : Prop :=
  ∃ pool, e.userPool_ u = some pool ∧
    0 < (pool.getMessage e.autoResendEnabled_).numberOfRetries_

/-- Where this user goes first when they come online. -/
structure GoesFirst (e : MpAutoResendEngine) (u : MpString) : Prop where
  offers : Offers e u
  defined : ∀ s ∈ e.priority_, (e.userPool_ s).isSome
  leads : Leads e u

/-- The user is reported online while the SIP stack runs: the call looks up no
pool that is missing, and the message it hands over is one of theirs. -/
def ServedNext (e : MpAutoResendEngine) (u : MpString) : Prop :=
  ∃ out m, operate e (.buddy_state2 u MP_BUDDY_ONLINE) (noneMissing true) = some out ∧
    out.handed = some m ∧ m.userSerial_ = u

/-- A waiting engine sorts its users and searches them. -/
theorem startEngine_sends (hstack : a.isSipStackStarted = true) (hwaiting : e.started_ = false)
    (h : startEngine e a = some out) :
    ∃ priority, sortMessages { e with started_ := true } a.missing =
        some (driven e true priority) ∧
      out = scan (driven e true priority) priority := by
  have hstart : (a.isSipStackStarted && !e.started_) = true := by simp [hstack, hwaiting]
  rw [startEngine, if_pos hstart, sendMessage, Option.map_eq_some_iff] at h
  obtain ⟨sorted, hsort, rfl⟩ := h
  obtain ⟨⟨priority, rfl, -⟩, -⟩ := sortMessages_spec hsort
  exact ⟨priority, hsort, rfl⟩

/-- Making a pool clean keeps the message that would be sent, flags aside. -/
theorem retries_markUserPoolAsClean (autoResendEnabled : Bool) (pool : MpMsgPool) :
    ((markUserPoolAsClean autoResendEnabled pool).getMessage autoResendEnabled).numberOfRetries_ =
      (pool.getMessage autoResendEnabled).numberOfRetries_ := by
  cases autoResendEnabled with
  | false => rfl
  | true =>
      unfold markUserPoolAsClean MpMsgPool.getMessage
      rw [if_pos rfl, if_pos rfl, if_pos rfl]
      cases hms : pool.messages_ <;>
        simp [hms, MpMsgPool.setWeight, MpMsgPool.markAsClean, MpMsgPayload.markAsUnProcessed]

/-- The engine when the user's pool has been made clean. -/
def activated (e : MpAutoResendEngine) (u : MpString) (pool : MpMsgPool) :
    MpAutoResendEngine :=
  e.setPool u (some (markUserPoolAsClean e.autoResendEnabled_ pool))

theorem activated_self (e : MpAutoResendEngine) (u : MpString) (pool : MpMsgPool) :
    (activated e u pool).userPool_ u =
      some (markUserPoolAsClean e.autoResendEnabled_ pool) := by
  rw [activated, userPool_setPool, if_pos rfl]

theorem weightOf_activated (e : MpAutoResendEngine) (u : MpString) (pool : MpMsgPool) :
    weightOf (activated e u pool) u = 0 := by
  rw [weightOf_of_pool (activated_self e u pool), weight_markUserPoolAsClean]

theorem eligible_activated (hpool : e.userPool_ u = some pool) :
    Eligible (activated e u pool) u ↔ Offers e u := by
  have hmode : (activated e u pool).autoResendEnabled_ = e.autoResendEnabled_ := rfl
  have hclean := dirty_markUserPoolAsClean e.autoResendEnabled_ pool
  have hoffers : Offers e u ↔
      0 < (pool.getMessage e.autoResendEnabled_).numberOfRetries_ := by
    simp [Offers, hpool]
  rw [eligible_iff (activated_self e u pool), hmode, hoffers, retries_markUserPoolAsClean]
  constructor
  · rintro ⟨-, -, hretries⟩
    exact hretries
  · intro hretries
    rw [← retries_markUserPoolAsClean] at hretries
    have hmem := MpMsgPool.getMessage_mem _ _ hretries
    rw [retries_markUserPoolAsClean] at hretries
    exact ⟨List.ne_nil_of_mem hmem, hclean, hretries⟩

/-- The users in front are left alone. -/
theorem leads_activated : Leads (activated e u pool) u ↔ Leads e u := by
  have hothers : ∀ s, s ≠ u → (activated e u pool).userPool_ s = e.userPool_ s := by
    intro s hs
    rw [activated, userPool_setPool, if_neg hs]
  have hsame : ∀ s ∈ e.priority_.takeWhile (· ≠ u),
      (weightOf (activated e u pool) s = 0 → ¬ Eligible (activated e u pool) s) ↔
        (weightOf e s = 0 → ¬ Eligible e s) := by
    intro s hs
    have hne : s ≠ u := by simpa using List.mem_takeWhile_imp hs
    unfold weightOf Eligible
    rw [hothers s hne]
    exact Iff.rfl
  exact forall₂_congr hsame

/-- Where nothing is missing after sorting, every user has a pool. -/
theorem defined_of_sortMessages {e' : MpAutoResendEngine}
    (hpool : e.userPool_ u = some pool) (hmem : u ∈ e.priority_)
    (hsort : sortMessages e [] = some e') : ∀ s ∈ e.priority_, (e.userPool_ s).isSome := by
  intro s hs
  by_cases hne : s = u
  · rw [hne, hpool]
    rfl
  · have hordered := sortMessages_ordered hsort
    obtain ⟨⟨priority, rfl, hperm⟩, -⟩ := sortMessages_spec hsort
    have hpair : Ordered e s u ∨ Ordered e u s := by
      have hboth : priority.Pairwise fun x y => Ordered e x y ∨ Ordered e y x :=
        hordered.imp Or.inl
      have : Std.Symm fun x y => Ordered e x y ∨ Ordered e y x := ⟨fun _ _ => Or.symm⟩
      exact hboth.forall (hperm.mem_iff.2 hs) (hperm.mem_iff.2 hmem) hne
    rcases hpair with ⟨p, q, hp, -⟩ | ⟨p, q, -, hq, -⟩
    · rw [hp]
      rfl
    · rw [hq]
      rfl

theorem operate_online (hpool : e.userPool_ u = some pool) (a : Answers) :
    operate e (.buddy_state2 u MP_BUDDY_ONLINE) a = startEngine (activated e u pool) a := by
  simp only [operate, buddy_state2, hpool, if_true, activated]

theorem kept_activated (hkept : Kept e) (hpool : e.userPool_ u = some pool) :
    Kept (activated e u pool) := by
  have hchanged : changed e (.buddy_state2 u MP_BUDDY_ONLINE) = activated e u pool := by
    simp only [changed, hpool, if_true, activated]
  rw [← hchanged]
  exact hkept.changed _

/-- The users in front of one who is served next have pools, and none of weight
0 can be served. -/
theorem GoesFirst.of_served (hkept : Kept e) (hwaiting : e.started_ = false)
    (hpool : e.userPool_ u = some pool) (h : ServedNext e u) : GoesFirst e u := by
  obtain ⟨out, m, hout, hm, huser⟩ := h
  rw [operate_online hpool] at hout
  have hwaiting' : (activated e u pool).started_ = false := hwaiting
  obtain ⟨priority, hsort, rfl⟩ := startEngine_sends rfl hwaiting' hout
  have hkept' := kept_activated hkept hpool
  obtain ⟨-, -, -, -, heligible⟩ := chosen_of_handed hkept' hm
  rw [huser] at heligible
  have hleads := leads_of_handed hkept' (weightOf_activated e u pool) hsort hm huser
  have hdefined := defined_of_sortMessages
    (e := { activated e u pool with started_ := true }) (activated_self e u pool)
    (mem_priority_of_eligible hkept'.listed heligible) hsort
  refine ⟨(eligible_activated hpool).1 heligible, ?_, leads_activated.1 hleads⟩
  intro s hs
  have hsome := hdefined s hs
  by_cases hne : s = u
  · rw [hne, hpool]
    rfl
  · change ((activated e u pool).userPool_ s).isSome at hsome
    rw [activated, userPool_setPool, if_neg hne] at hsome
    exact hsome

/-- Where all users have pools the call ends. -/
theorem startEngine_activated (u : MpString) (pool : MpMsgPool) (hwaiting : e.started_ = false)
    (hdefined : ∀ s ∈ e.priority_, (e.userPool_ s).isSome) :
    ∃ out, startEngine (activated e u pool) (noneMissing true) = some out := by
  have hsome : ∀ s ∈ (activated e u pool).priority_,
      (contents (activated e u pool) s).isSome := by
    intro s hs
    rw [contents, Option.isSome_map, activated, userPool_setPool]
    by_cases hne : s = u
    · rw [if_pos hne]
      rfl
    · rw [if_neg hne]
      exact hdefined s hs
  obtain ⟨out, hout⟩ :=
    sendMessage_total (e := { activated e u pool with started_ := true }) hsome
  have hwaiting' : (activated e u pool).started_ = false := hwaiting
  rw [startEngine, noneMissing, hwaiting']
  exact ⟨out, hout⟩

theorem GoesFirst.served (h : GoesFirst e u) (hkept : Kept e) (hwaiting : e.started_ = false)
    (hpool : e.userPool_ u = some pool) : ServedNext e u := by
  obtain ⟨out, hout⟩ := startEngine_activated u pool hwaiting h.defined
  have hwaiting' : (activated e u pool).started_ = false := hwaiting
  obtain ⟨priority, hsort, rfl⟩ := startEngine_sends rfl hwaiting' hout
  have heligible := (eligible_activated hpool).2 h.offers
  obtain ⟨m, hm, huser⟩ := handed_of_leads (kept_activated hkept hpool) heligible
    (weightOf_activated e u pool) hsort (leads_activated.2 h.leads)
  exact ⟨_, m, (operate_online hpool _).trans hout, hm, huser⟩

/-- A user without a pool neither goes first nor is served. -/
theorem servedNext_iff (hkept : Kept e) (hwaiting : e.started_ = false) :
    ServedNext e u ↔ GoesFirst e u := by
  cases hpool : e.userPool_ u with
  | none =>
      constructor
      · rintro ⟨out, m, hout, hm, -⟩
        simp only [operate, buddy_state2, hpool] at hout
        rw [(idle_spec hout).2.1] at hm
        cases hm
      · rintro ⟨⟨pool, hsome, -⟩, -, -⟩
        rw [hpool] at hsome
        cases hsome
  | some pool =>
      exact ⟨GoesFirst.of_served hkept hwaiting hpool,
        fun h => h.served hkept hwaiting hpool⟩

end Online

/-- **Who goes first.**  For every run, removals included, that leaves the engine
waiting, and every user who then comes online while the stack runs. -/
theorem goesFirst_iff (dbConnectors : List mp_msg_type_t) (calls : List Call)
    {e : MpAutoResendEngine}
    (hrun : exec call (MpAutoResendEngine.new dbConnectors) calls = some e)
    (hwaiting : e.started_ = false) (u : MpString) : ServedNext e u ↔ GoesFirst e u :=
  servedNext_iff (kept_of_exec hrun) hwaiting

/-- Messages for `a` and `b` are in the database. -/
def sampleSync : List Call :=
  [⟨.setAutoResendEnabled true, ⟨true, []⟩⟩,
    ⟨.syncWithDBConnectors [[sampleMessage [97], sampleMessage [98]]], ⟨true, []⟩⟩]

theorem goesFirst_iff_sync :
    ∃ e, exec call (MpAutoResendEngine.new [MP_TYPE_MESSAGE]) sampleSync = some e ∧
      e.started_ = false ∧ (ServedNext e [97] ↔ GoesFirst e [97]) :=
  ⟨_, rfl, rfl, goesFirst_iff [MP_TYPE_MESSAGE] sampleSync rfl rfl [97]⟩

/-- `b` comes online, and the message of `a` is handed over. -/
theorem first_added_goes_first :
    ∃ e, exec call (MpAutoResendEngine.new [MP_TYPE_MESSAGE]) sampleSync = some e ∧
      e.started_ = false ∧ Offers e [98] ∧ ¬ ServedNext e [98] ∧
      (operate e (.buddy_state2 [98] MP_BUDDY_ONLINE) (noneMissing true)).map
        Outcome.handed = some (some (sampleMessage [97])) := by
  refine ⟨_, rfl, rfl, ⟨_, rfl, by decide⟩, ?_, rfl⟩
  rintro ⟨out, m, hout, hm, huser⟩
  cases hout
  cases hm
  exact absurd huser (by decide)

end EndToEndSmkex.AutoResend.Presence
