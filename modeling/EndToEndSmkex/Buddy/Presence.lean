import EndToEndSmkex.Buddy.BuddyList
import EndToEndSmkex.Lib.OrderedMaps

/-!
# Presence updates

pjsua reports a change of presence by the id of a subscription.  `buddy_state`
goes through the map of `MpBuddyList`, which is keyed by serials, until it meets
a buddy with that id, writes the new state into it and tells the callbacks.

The map is an ordered one here.  Read as a function it is the map of
`BuddyList`, and `addBuddy`, `rmBuddy` and `reset` do to it what they do there.

## Main results

* `addBuddy_refines`, `rmBuddy_refines`, `reset_refines` — the two models agree.
* `outcome_cases` — what each call does.
* `updates_buddy_state` — an update reaches one buddy or nobody.
* `presence_sound_iff` — the list is well formed and every update reaches one
  buddy along exactly those runs in which no serial with a zero byte is
  subscribed.
-/

namespace EndToEndSmkex.Buddy.Presence

open EndToEndSmkex.Lib.Actions
open EndToEndSmkex.Lib.CBuffer
open EndToEndSmkex.Lib.OrderedMaps
open EndToEndSmkex.Lib.PartialMaps
open EndToEndSmkex.Lib.Run
open EndToEndSmkex.Smkex.Record
open EndToEndSmkex.AutoResend.Engine (mp_status_t)
open EndToEndSmkex.AutoResend.Engine.mp_status_t
open EndToEndSmkex.SipStack.Stack
open EndToEndSmkex.Buddy.BuddyList (serialIsValid zero_not_mem_of_valid Pjsua.alive)

/-! ## The list -/

/-- A callback, by its address. -/
abbrev MpIPresence := Nat

/-- The buddies by serial, and the callbacks in the order they were added. -/
structure MpBuddyList where
  buddyList_ : Std.TreeMap MpString MpBuddy
  presenceCb_ : List MpIPresence

/-- The status in a `pjsua_buddy_info`. -/
inductive pjsua_buddy_status where
  | PJSUA_BUDDY_STATUS_UNKNOWN
  | PJSUA_BUDDY_STATUS_ONLINE
  | PJSUA_BUDDY_STATUS_OFFLINE
  deriving DecidableEq

/-- A call of one of the callbacks. -/
inductive Notice where
  | buddy_state (cb : MpIPresence) (buddy_id : pjsua_buddy_id)
  | buddy_state2 (cb : MpIPresence) (buddy : MpBuddy)
  deriving DecidableEq

/-- `MpBuddy::setState`. -/
def MpBuddy.setState (buddy : MpBuddy) (state : mp_buddy_online_status_t) : MpBuddy :=
  { buddy with state_ := state }

/-- The state that is written for a status. -/
def onlineState (status : pjsua_buddy_status) : mp_buddy_online_status_t :=
  if status = .PJSUA_BUDDY_STATUS_ONLINE then .MP_BUDDY_ONLINE else .MP_BUDDY_OFFLINE

/-- What the callbacks hear of a buddy. -/
def notices (l : MpBuddyList) (buddy_id : pjsua_buddy_id) (buddy : MpBuddy) : List Notice :=
  l.presenceCb_.flatMap fun cb => [.buddy_state cb buddy_id, .buddy_state2 cb buddy]

/-- The state of the SIP stack and the list as `BuddyList` has it. -/
def MpBuddyList.service (started : Bool) (l : MpBuddyList) : MpService :=
  ⟨started, lookup l.buddyList_⟩

section Operations

variable (ans : Answers) (started : Bool) (l : MpBuddyList)

/-- `addBuddy`.  The serial is checked as a C string, up to a zero byte. -/
def addBuddy (buddy : MpBuddy) : Action (MpBuddyList × mp_status_t) :=
  if serialIsValid (buddy.serial_.takeWhile (· ≠ 0)) = false then
    return (l, MP_GENERAL_ERR)
  -- no duplicates
  else if (lookup l.buddyList_ buddy.serial_).isSome then return (l, MP_GENERAL_ERR)
  else do
    let (buddy, status) ← subscribe ans (l.service started) buddy
    if status = MP_SUCCESS then
      return ({ l with buddyList_ := l.buddyList_.insertIfNew buddy.serial_ buddy }, status)
    else return (l, status)

/-- `rmBuddy`. -/
def rmBuddy (serial : MpString) : Action (MpBuddyList × mp_status_t) :=
  match lookup l.buddyList_ serial with
  | none => return (l, MP_SUCCESS)
  | some buddy => do
      let status ← unsubscribe ans (l.service started) buddy.pjsuaId_
      if status = MP_SUCCESS then
        return ({ l with buddyList_ := l.buddyList_.erase serial }, status)
      else return (l, status)

/-- `reset`. -/
def reset : MpBuddyList := { l with buddyList_ := ∅ }

/-- `buddy_state`: the list afterwards, and what the callbacks hear. -/
def buddy_state (buddy_id : pjsua_buddy_id) (status : pjsua_buddy_status) :
    MpBuddyList × List Notice :=
  match first MpBuddy.pjsuaId_ buddy_id l.buddyList_ with
  | none => (l, [])
  | some (serial, buddy) =>
      -- the buddy is changed in its place
      let mark (buddy : MpBuddy) := MpBuddy.setState buddy (onlineState status)
      ({ l with buddyList_ := l.buddyList_.modify serial mark }, notices l buddy_id (mark buddy))

/-- `addPresenceCb`. -/
def addPresenceCb (presCb : MpIPresence) : MpBuddyList :=
  { l with presenceCb_ := l.presenceCb_ ++ [presCb] }

/-- `rmPresenceCb`. -/
def rmPresenceCb (presCb : MpIPresence) : MpBuddyList :=
  { l with presenceCb_ := l.presenceCb_.erase presCb }

end Operations

/-! ## The list as a function -/

section Refinement

variable (ans : Answers) (started : Bool) (l : MpBuddyList)

/-- `addBuddy` is that of `BuddyList`. -/
theorem addBuddy_refines (buddy : MpBuddy) :
    (addBuddy ans started l buddy).run.map (fun p => ((p.1.1.service started, p.1.2), p.2)) =
      (BuddyList.addBuddy ans (l.service started) buddy).run := by
  unfold addBuddy BuddyList.addBuddy
  by_cases hvalid : serialIsValid (buddy.serial_.takeWhile (· ≠ 0)) = false
  · rw [if_pos hvalid, if_pos hvalid]
    rfl
  rw [if_neg hvalid, if_neg hvalid]
  show _ = (if (lookup l.buddyList_ buddy.serial_).isSome then _ else _ : Action _).run
  cases hnew : lookup l.buddyList_ buddy.serial_ with
  | some b => rfl
  | none =>
      rw [if_neg (by simp), if_neg (by simp), run_bind, run_bind]
      cases hsub : (subscribe ans (l.service started) buddy).run with
      | none => rfl
      | some p =>
          obtain ⟨⟨buddy', status⟩, log⟩ := p
          rcases run_subscribe ans hsub ⟨true, []⟩ with ⟨-, rfl, -⟩ | ⟨-, rfl, rfl, -⟩
          · rfl
          · simp [MpBuddyList.service, lookup_insertIfNew hnew]

/-- `rmBuddy` is that of `BuddyList`. -/
theorem rmBuddy_refines (serial : MpString) :
    (rmBuddy ans started l serial).run.map (fun p => ((p.1.1.service started, p.1.2), p.2)) =
      (BuddyList.rmBuddy ans (l.service started) serial).run := by
  unfold rmBuddy BuddyList.rmBuddy
  show _ = (match lookup l.buddyList_ serial with
    | none => _
    | some buddy => _ : Action (MpService × mp_status_t)).run
  cases hpresent : lookup l.buddyList_ serial with
  | none => rfl
  | some buddy =>
      simp only [run_bind]
      cases hunsub : (unsubscribe ans (l.service started) buddy.pjsuaId_).run with
      | none => rfl
      | some p =>
          obtain ⟨status, log⟩ := p
          rcases run_unsubscribe ans hunsub ⟨true, []⟩ with ⟨rfl, -⟩ | ⟨rfl, -⟩
          · rfl
          · simp [MpBuddyList.service, lookup_erase]

/-- `reset` is that of `BuddyList`. -/
theorem reset_refines :
    (reset l).service started = SipStack.Stack.reset (l.service started) := by
  simp [reset, MpBuddyList.service, SipStack.Stack.reset, funext_iff]

end Refinement

/-! ## Runs -/

inductive Event where
  | addBuddy (ans : Answers) (buddy : MpBuddy)
  | rmBuddy (ans : Answers) (serial : MpString)
  | reset
  | buddy_state (buddy_id : pjsua_buddy_id) (status : pjsua_buddy_status)
  | addPresenceCb (presCb : MpIPresence)
  | rmPresenceCb (presCb : MpIPresence)

/-- The list, `MpSIPStack::started_` and pjsua. -/
structure System where
  list : MpBuddyList
  started_ : Bool
  pjsua : Pjsua

/-- No buddies yet; the stack, pjsua and the callbacks are in any state. -/
def System.start (started : Bool) (pjsua : Pjsua) (presenceCb : List MpIPresence) : System :=
  ⟨⟨∅, presenceCb⟩, started, pjsua⟩

/-- What a call of the list leaves. -/
def System.after (s : System)
    (m : Option ((MpBuddyList × mp_status_t) × List (PjsuaCall × Bool))) :
    Option (System × mp_status_t × List Notice) :=
  m.map fun p => (⟨p.1.1, s.started_, p.2.foldl Pjsua.after s.pjsua⟩, p.1.2, [])

/-- The state after a call, what it returns and what the callbacks hear.  An id
that `pjsua_buddy_add` gives is not that of a live subscription. -/
def System.outcome (s : System) : Event → Option (System × mp_status_t × List Notice)
  | .addBuddy ans buddy =>
      if ans.succeeds (.buddy_add ans.buddy_id) ∧ ans.buddy_id ∈ s.pjsua.buddies then none
      else s.after (addBuddy ans s.started_ s.list buddy).run
  | .rmBuddy ans serial => s.after (rmBuddy ans s.started_ s.list serial).run
  | .reset => some ({ s with list := Presence.reset s.list }, MP_SUCCESS, [])
  | .buddy_state buddy_id status =>
      let (list, heard) := Presence.buddy_state s.list buddy_id status
      some ({ s with list := list }, MP_SUCCESS, heard)
  | .addPresenceCb presCb =>
      some ({ s with list := Presence.addPresenceCb s.list presCb }, MP_SUCCESS, [])
  | .rmPresenceCb presCb =>
      some ({ s with list := Presence.rmPresenceCb s.list presCb }, MP_SUCCESS, [])

def System.step (s : System) (e : Event) : Option System := (s.outcome e).map Prod.fst

/-! ## What should hold -/

/-- An update reaches the one buddy with the id, or nobody. -/
inductive Updates (l : MpBuddyList) (buddy_id : pjsua_buddy_id) (status : pjsua_buddy_status) :
    MpBuddyList → List Notice → Prop where
  | nobody
      (unknown : ∀ serial buddy, lookup l.buddyList_ serial = some buddy →
        buddy.pjsuaId_ ≠ buddy_id) : Updates l buddy_id status l []
  | one {serial : MpString} {buddy : MpBuddy} {l' : MpBuddyList}
      (entry : lookup l.buddyList_ serial = some buddy)
      (reported : buddy.pjsuaId_ = buddy_id)
      (only : ∀ serial' buddy', lookup l.buddyList_ serial' = some buddy' →
        buddy'.pjsuaId_ = buddy_id → serial' = serial)
      (changed : lookup l'.buddyList_ = Function.update (lookup l.buddyList_) serial
        (some (MpBuddy.setState buddy (onlineState status))))
      (callbacks : l'.presenceCb_ = l.presenceCb_) :
      Updates l buddy_id status l'
        (notices l buddy_id (MpBuddy.setState buddy (onlineState status)))

/-- The list is well formed after the call, an error has not changed it, and an
update of the presence reaches one buddy. -/
structure Sound (s : System) (e : Event) (s' : System) : Prop where
  serials : ∀ serial buddy, lookup s'.list.buddyList_ serial = some buddy →
    buddy.serial_ = serial ∧ serialIsValid serial = true
  distinct : Distinct MpBuddy.pjsuaId_ (lookup s'.list.buddyList_)
  unchanged : ∀ status heard, s.outcome e = some (s', status, heard) → status ≠ MP_SUCCESS →
    s'.list = s.list
  updates : ∀ buddy_id info status heard, e = .buddy_state buddy_id info →
    s.outcome e = some (s', status, heard) → Updates s.list buddy_id info s'.list heard

/-- The call subscribes the buddy: its serial is valid up to a zero byte and
new, the stack runs, and pjsua answers with success. -/
def Adds (s : System) (ans : Answers) (buddy : MpBuddy) : Prop :=
  serialIsValid (buddy.serial_.takeWhile (· ≠ 0)) = true ∧
    lookup s.list.buddyList_ buddy.serial_ = none ∧ s.started_ = true ∧
      ans.succeeds (.buddy_add ans.buddy_id) = true

/-- A serial that is subscribed has no zero byte. -/
def NoZeroByte (s : System) : Event → Prop
  | .addBuddy ans buddy => Adds s ans buddy → 0 ∉ buddy.serial_
  | _ => True

/-! ## One call -/

/-- What a call does. -/
inductive Outcome (s : System) : Event → System → mp_status_t → List Notice → Prop where
  | add_refused {ans : Answers} {buddy : MpBuddy} (refused : ¬ Adds s ans buddy) :
      Outcome s (.addBuddy ans buddy) s MP_GENERAL_ERR []
  | added {ans : Answers} {buddy : MpBuddy} (adds : Adds s ans buddy)
      (fresh : ans.buddy_id ∉ s.pjsua.buddies) :
      Outcome s (.addBuddy ans buddy)
        ⟨{ s.list with
            buddyList_ := s.list.buddyList_.insertIfNew buddy.serial_
              { buddy with pjsuaId_ := ans.buddy_id } },
          s.started_, { s.pjsua with buddies := ans.buddy_id :: s.pjsua.buddies }⟩ MP_SUCCESS []
  | rm_kept {ans : Answers} {serial : MpString} {status : mp_status_t} :
      Outcome s (.rmBuddy ans serial) s status []
  | removed {ans : Answers} {serial : MpString} {buddy : MpBuddy}
      (present : lookup s.list.buddyList_ serial = some buddy) :
      Outcome s (.rmBuddy ans serial)
        ⟨{ s.list with buddyList_ := s.list.buddyList_.erase serial }, s.started_,
          { s.pjsua with buddies := s.pjsua.buddies.filter (· ≠ buddy.pjsuaId_) }⟩ MP_SUCCESS []
  | reset : Outcome s .reset { s with list := Presence.reset s.list } MP_SUCCESS []
  | buddy_state {buddy_id : pjsua_buddy_id} {status : pjsua_buddy_status} :
      Outcome s (.buddy_state buddy_id status)
        { s with list := (Presence.buddy_state s.list buddy_id status).1 } MP_SUCCESS
        (Presence.buddy_state s.list buddy_id status).2
  | addPresenceCb {presCb : MpIPresence} :
      Outcome s (.addPresenceCb presCb)
        { s with list := Presence.addPresenceCb s.list presCb } MP_SUCCESS []
  | rmPresenceCb {presCb : MpIPresence} :
      Outcome s (.rmPresenceCb presCb)
        { s with list := Presence.rmPresenceCb s.list presCb } MP_SUCCESS []

section Calls

variable {s s' : System} {ans : Answers} {l : MpBuddyList} {status : mp_status_t}
  {log : List (PjsuaCall × Bool)} {heard : List Notice}

/-- The buddy is added where the stack runs, the serial is new and valid and the
subscription succeeds. -/
theorem outcome_addBuddy {buddy : MpBuddy}
    (hfresh : ¬ (ans.succeeds (.buddy_add ans.buddy_id) ∧ ans.buddy_id ∈ s.pjsua.buddies))
    (h : (Presence.addBuddy ans s.started_ s.list buddy).run = some ((l, status), log)) :
    Outcome s (.addBuddy ans buddy) ⟨l, s.started_, log.foldl Pjsua.after s.pjsua⟩ status [] := by
  unfold Presence.addBuddy at h
  split at h
  next hinvalid =>
    cases h
    exact .add_refused fun hadds => Bool.false_ne_true (hinvalid.symm.trans hadds.1)
  next hvalid =>
  split at h
  next hknown =>
    cases h
    refine .add_refused fun hadds => ?_
    rw [hadds.2.1] at hknown
    cases hknown
  next hnew =>
  have hvalid : serialIsValid (buddy.serial_.takeWhile (· ≠ 0)) = true := by simpa using hvalid
  have hnew : lookup s.list.buddyList_ buddy.serial_ = none := by simpa using hnew
  obtain ⟨⟨buddy', status'⟩, l₁, l₂, hsub, hrest, rfl⟩ := run_bind_eq_some.1 h
  have hcases := run_subscribe ans hsub s.pjsua
  rw [List.foldl_append]
  rcases hcases with ⟨hrefused, rfl, hlog⟩ | ⟨hdone, rfl, rfl, hlog⟩
  · cases hrest
    rw [hlog]
    exact .add_refused fun hadds => hrefused hadds.2.2
  · cases hrest
    rw [hlog]
    exact .added ⟨hvalid, hnew, hdone⟩ fun hin => hfresh ⟨hdone.2, hin⟩

/-- The buddy is removed where the stack runs, the serial is known and
unsubscribing succeeds. -/
theorem outcome_rmBuddy {serial : MpString}
    (h : (Presence.rmBuddy ans s.started_ s.list serial).run = some ((l, status), log)) :
    Outcome s (.rmBuddy ans serial) ⟨l, s.started_, log.foldl Pjsua.after s.pjsua⟩ status [] := by
  unfold Presence.rmBuddy at h
  cases hpresent : lookup s.list.buddyList_ serial with
  | none =>
      rw [hpresent] at h
      cases h
      exact .rm_kept
  | some buddy =>
      rw [hpresent] at h
      obtain ⟨status', l₁, l₂, hunsub, hrest, rfl⟩ := run_bind_eq_some.1 h
      have hcases := run_unsubscribe ans hunsub s.pjsua
      rw [List.foldl_append]
      rcases hcases with ⟨rfl, hlog⟩ | ⟨rfl, hlog⟩
      · cases hrest
        rw [hlog]
        exact .rm_kept
      · cases hrest
        rw [hlog]
        exact .removed hpresent

/-- **What each call does.** -/
theorem outcome_cases {e : Event} (h : s.outcome e = some (s', status, heard)) :
    Outcome s e s' status heard := by
  cases e with
  | addBuddy ans buddy =>
      unfold System.outcome at h
      simp only at h
      split at h
      case isTrue => cases h
      case isFalse hfresh =>
      obtain ⟨⟨⟨l, status'⟩, log⟩, hrun, hsame⟩ := Option.map_eq_some_iff.1 h
      cases hsame
      exact outcome_addBuddy hfresh hrun
  | rmBuddy ans serial =>
      obtain ⟨⟨⟨l, status'⟩, log⟩, hrun, hsame⟩ := Option.map_eq_some_iff.1 h
      cases hsame
      exact outcome_rmBuddy hrun
  | reset =>
      cases h
      exact .reset
  | buddy_state buddy_id info =>
      cases h
      exact .buddy_state
  | addPresenceCb presCb =>
      cases h
      exact .addPresenceCb
  | rmPresenceCb presCb =>
      cases h
      exact .rmPresenceCb

end Calls

/-! ## The invariant -/

/-- Each buddy is listed under its valid serial, and has a live subscription of
its own. -/
structure Inv (s : System) : Prop where
  serials : ∀ serial buddy, lookup s.list.buddyList_ serial = some buddy →
    buddy.serial_ = serial ∧ serialIsValid serial = true
  distinct : Distinct MpBuddy.pjsuaId_ (lookup s.list.buddyList_)
  alive : values MpBuddy.pjsuaId_ (lookup s.list.buddyList_) ⊆ Pjsua.alive s.pjsua

theorem Inv.of_empty {s : System} (h : s.list.buddyList_ = ∅) : Inv s := by
  have hnone (serial : MpString) : lookup s.list.buddyList_ serial = none := by simp [h]
  refine ⟨?_, distinct_of_empty hnone, ?_⟩
  · intro serial buddy hbuddy
    rw [hnone] at hbuddy
    cases hbuddy
  · rw [values_eq_empty_iff.2 hnone]
    exact Set.empty_subset _

/-- A new buddy has the id of the new subscription. -/
theorem Inv.added {s : System} (hinv : Inv s) {ans : Answers} {buddy : MpBuddy}
    (hadds : Adds s ans buddy) (hfresh : ans.buddy_id ∉ s.pjsua.buddies)
    (hzero : 0 ∉ buddy.serial_) :
    Inv ⟨{ s.list with
          buddyList_ := s.list.buddyList_.insertIfNew buddy.serial_
            { buddy with pjsuaId_ := ans.buddy_id } },
        s.started_, { s.pjsua with buddies := ans.buddy_id :: s.pjsua.buddies }⟩ where
  serials := by
    have hvalid : serialIsValid buddy.serial_ = true := takeWhile_of_zero_not_mem hzero ▸ hadds.1
    intro serial b hb
    rw [lookup_insertIfNew hadds.2.1] at hb
    by_cases hserial : serial = buddy.serial_
    · subst hserial
      rw [Function.update_self] at hb
      cases hb
      exact ⟨rfl, hvalid⟩
    · rw [Function.update_of_ne hserial] at hb
      exact hinv.serials serial b hb
  distinct := by
    rw [lookup_insertIfNew hadds.2.1]
    exact hinv.distinct.insert fun hin => hfresh (hinv.alive hin)
  alive := by
    rw [lookup_insertIfNew hadds.2.1, values_insert hadds.2.1]
    rintro id (rfl | hid)
    · exact List.mem_cons_self
    · exact List.mem_cons_of_mem _ (hinv.alive hid)

/-- A buddy goes with the subscription of its id. -/
theorem Inv.removed {s : System} (hinv : Inv s) {serial : MpString} {buddy : MpBuddy}
    (present : lookup s.list.buddyList_ serial = some buddy) :
    Inv ⟨{ s.list with buddyList_ := s.list.buddyList_.erase serial }, s.started_,
      { s.pjsua with buddies := s.pjsua.buddies.filter (· ≠ buddy.pjsuaId_) }⟩ where
  serials := by
    intro serial' b hb
    rw [lookup_erase] at hb
    exact hinv.serials serial' b (of_update_none hb).2
  distinct := by
    rw [lookup_erase]
    exact hinv.distinct.erase
  alive := by
    rw [lookup_erase, values_erase hinv.distinct present]
    rintro id ⟨hid, hne⟩
    exact List.mem_filter.2 ⟨hinv.alive hid, by simpa using hne⟩

/-- **One update of the presence.** -/
theorem updates_buddy_state {l : MpBuddyList}
    (hd : Distinct MpBuddy.pjsuaId_ (lookup l.buddyList_)) (buddy_id : pjsua_buddy_id)
    (status : pjsua_buddy_status) :
    Updates l buddy_id status (buddy_state l buddy_id status).1
      (buddy_state l buddy_id status).2 := by
  unfold Presence.buddy_state
  cases hfirst : first MpBuddy.pjsuaId_ buddy_id l.buddyList_ with
  | none =>
      refine .nobody ?_
      intro serial buddy hbuddy hid
      exact first_eq_none_iff.1 hfirst ⟨serial, buddy, hbuddy, hid⟩
  | some entry =>
      obtain ⟨serial, buddy⟩ := entry
      obtain ⟨hentry, hid⟩ := (first_eq_some_iff hd).1 hfirst
      refine .one hentry hid ?_ (lookup_modify _ hentry) rfl
      intro serial' buddy' hentry' hid'
      exact hd hentry' hentry (hid'.trans hid.symm)

theorem Inv.buddy_state {s : System} (hinv : Inv s) (buddy_id : pjsua_buddy_id)
    (status : pjsua_buddy_status) :
    Inv { s with list := (Presence.buddy_state s.list buddy_id status).1 } := by
  have hupdates := updates_buddy_state hinv.distinct buddy_id status
  generalize Presence.buddy_state s.list buddy_id status = p at hupdates ⊢
  obtain ⟨l, heard⟩ := p
  cases hupdates with
  | nobody unknown => exact hinv
  | @one serial buddy _ entry reported only changed callbacks =>
      have hid : (MpBuddy.setState buddy (onlineState status)).pjsuaId_ = buddy.pjsuaId_ := rfl
      refine ⟨?_, ?_, ?_⟩
      · intro serial' b hb
        have hb : lookup l.buddyList_ serial' = some b := hb
        rw [changed] at hb
        by_cases hserial : serial' = serial
        · subst hserial
          rw [Function.update_self] at hb
          cases hb
          exact hinv.serials serial' buddy entry
        · rw [Function.update_of_ne hserial] at hb
          exact hinv.serials serial' b hb
      · show Distinct _ (lookup l.buddyList_)
        rw [changed]
        exact hinv.distinct.replace entry hid
      · show values _ (lookup l.buddyList_) ⊆ _
        rw [changed]
        exact (values_replace entry hid).trans hinv.alive

/-! ## Whole runs -/

private theorem step_cases {s s' : System} {e : Event} (h : s.step e = some s') :
    ∃ status heard, s.outcome e = some (s', status, heard) ∧ Outcome s e s' status heard := by
  obtain ⟨⟨t, status, heard⟩, houtcome, rfl⟩ := Option.map_eq_some_iff.1 h
  exact ⟨status, heard, houtcome, outcome_cases houtcome⟩

/-- A call that subscribes no zero byte keeps the invariant. -/
theorem Inv.step {s s' : System} {e : Event} (hinv : Inv s) (h : s.step e = some s')
    (hzero : NoZeroByte s e) : Inv s' := by
  obtain ⟨status, heard, -, hcases⟩ := step_cases h
  cases hcases with
  | add_refused | rm_kept => exact hinv
  | added adds fresh => exact hinv.added adds fresh (hzero adds)
  | removed present => exact hinv.removed present
  | reset => exact Inv.of_empty rfl
  | buddy_state => exact hinv.buddy_state _ _
  | addPresenceCb | rmPresenceCb => exact ⟨hinv.serials, hinv.distinct, hinv.alive⟩

/-- Between two states with the invariant a call does what it should. -/
theorem Inv.sound {s s' : System} {e : Event} (hinv : Inv s) (hinv' : Inv s') :
    Sound s e s' where
  serials := hinv'.serials
  distinct := hinv'.distinct
  unchanged := by
    intro status heard houtcome hstatus
    have hcases := outcome_cases houtcome
    cases hcases with
    | add_refused | rm_kept => rfl
    | added | removed | reset | buddy_state | addPresenceCb | rmPresenceCb =>
        exact absurd rfl hstatus
  updates := by
    rintro buddy_id info status heard rfl houtcome
    cases houtcome
    exact updates_buddy_state hinv.distinct buddy_id info

/-- One call does what it should exactly where it subscribes no zero byte. -/
theorem sound_step_iff {s s' : System} {e : Event} (hinv : Inv s) (h : s.step e = some s') :
    Sound s e s' ↔ NoZeroByte s e := by
  constructor
  · intro hsound
    obtain ⟨status, heard, -, hcases⟩ := step_cases h
    cases hcases with
    | add_refused refused =>
        intro hadds
        exact absurd hadds refused
    | @added ans buddy adds fresh =>
        intro _
        have hlisted := hsound.serials buddy.serial_ { buddy with pjsuaId_ := ans.buddy_id } (by
          rw [lookup_insertIfNew adds.2.1, Function.update_self])
        exact zero_not_mem_of_valid hlisted.2
    | rm_kept | removed | reset | buddy_state | addPresenceCb | rmPresenceCb => trivial
  · intro hzero
    exact hinv.sound (hinv.step h hzero)

/-- **Along every run in which no serial with a zero byte is subscribed, and
along no other, the list stays well formed, an error leaves it alone, and an
update of the presence reaches the one buddy with the id, or nobody.** -/
theorem presence_sound_iff (started : Bool) (pjsua : Pjsua) (presenceCb : List MpIPresence)
    (es : List Event) :
    Steps System.step Sound (System.start started pjsua presenceCb) es ↔
      Steps System.step (fun s e _ => NoZeroByte s e)
        (System.start started pjsua presenceCb) es :=
  steps_iff_of_inv (Q := Sound) (C := fun s e _ => NoZeroByte s e) (E := fun _ => True)
    (I := Inv) (fun _ _ _ hinv _ h => sound_step_iff hinv h)
    (fun _ _ _ hinv _ h => hinv.step h) (Inv.of_empty rfl) fun _ _ => trivial

/-- The serial `a\0!` is subscribed. -/
theorem zero_byte_is_listed :
    ¬ Steps System.step Sound (System.start true ⟨true, []⟩ [])
      [.addBuddy ⟨fun _ => true, 0, 0⟩ (.new [97, 0, 33])] := by
  intro hsteps
  obtain ⟨hsound, -⟩ := hsteps _ rfl
  have hvalid := (hsound.serials [97, 0, 33] ⟨[97, 0, 33], .MP_BUDDY_OFFLINE, 0⟩ (by decide)).2
  exact Bool.false_ne_true hvalid

end EndToEndSmkex.Buddy.Presence
