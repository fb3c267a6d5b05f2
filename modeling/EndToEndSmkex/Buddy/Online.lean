import EndToEndSmkex.Buddy.Presence
import EndToEndSmkex.DataMsg.Receiving
import EndToEndSmkex.Lib.Registers

/-!
# Who is online

`isUserOnline`, `getBuddy` and `getBuddyUri` read what the list holds of a serial.
The state they find there was written by the last update of the subscription, and
the list is emptied when the stack is stopped, whether pjsua is destroyed or not.

What the application knows are the calls and what they have returned.  From those
alone it can tell who is online: `lastReport` goes back to the last update since the
buddy was added.

## Main results

* `lookup_buddy_state` — an update, found by its id, changes the entry with that id.
* `Inv.step` — the entry of a serial is what the calls have left of it.
* `Inv.getBuddyUri_reads_back` — the URI of a buddy leads back to its serial.
* `online_as_reported` — a user is online where the last report says so, and a
  callback is told what `getBuddy` returns from then on.
-/

namespace EndToEndSmkex.Buddy.Online

open EndToEndSmkex.Lib.Actions
open EndToEndSmkex.Lib.OrderedMaps
open EndToEndSmkex.Lib.PartialMaps
open EndToEndSmkex.Lib.Registers
open EndToEndSmkex.Lib.Run
open EndToEndSmkex.Smkex.Record
open EndToEndSmkex.AutoResend.Engine (mp_status_t)
open EndToEndSmkex.AutoResend.Engine.mp_status_t
open EndToEndSmkex.SipStack.Stack hiding reset stopSIPStack
open EndToEndSmkex.Buddy.BuddyList (Pjsua.alive)
open EndToEndSmkex.Buddy.Presence hiding Event Inv
open EndToEndSmkex.Utils.Uri

/-! ## Reading the list -/

section Readers

variable (l : MpBuddyList) (serial : MpString)

/-- `getBuddy`: one without a serial if there is none. -/
def getBuddy : MpBuddy := (lookup l.buddyList_ serial).getD (MpBuddy.new [])

/-- `isUserOnline`. -/
def isUserOnline : Bool :=
  match lookup l.buddyList_ serial with
  | none => false
  | some buddy => buddy.state_ = .MP_BUDDY_ONLINE

/-- `MpBuddy::getBuddyUri`, with the server of the account. -/
def MpBuddy.getBuddyUri (address : MpString) (port : UInt32) (buddy : MpBuddy) :
    Act Wrapped MpString :=
  getUriFromSerial (some (c_str buddy.serial_)) (c_str address) port

/-- `getBuddyUri`, which is empty if there is no buddy. -/
def getBuddyUri (address : MpString) (port : UInt32) : Act Wrapped MpString :=
  match lookup l.buddyList_ serial with
  | none => return []
  | some buddy => MpBuddy.getBuddyUri address port buddy

variable {l serial}

theorem isUserOnline_iff : isUserOnline l serial = true ↔
    ∃ buddy, lookup l.buddyList_ serial = some buddy ∧ buddy.state_ = .MP_BUDDY_ONLINE := by
  unfold isUserOnline
  cases lookup l.buddyList_ serial with
  | none => simp
  | some buddy => simp

end Readers

/-! ## Runs -/

/-- `stopSIPStack`, for the list and `started_`. -/
def stopSIPStack (ans : Answers) (started : Bool) (l : MpBuddyList) :
    Action ((MpBuddyList × Bool) × mp_status_t) :=
  if started = false then return ((l, started), MP_SUCCESS)
  else do
    let l := Presence.reset l
    if !(← call ans .destroy2) then return ((l, started), MP_SIP_DESTROY_ERR)
    return ((l, false), MP_SUCCESS)

/-- `stopSIPStack` is that of the SIP stack. -/
theorem stopSIPStack_refines (ans : Answers) (started : Bool) (l : MpBuddyList) :
    (stopSIPStack ans started l).run.map (fun p => ((p.1.1.1.service p.1.1.2, p.1.2), p.2)) =
      (SipStack.Stack.stopSIPStack ans (l.service started)).run := by
  unfold stopSIPStack SipStack.Stack.stopSIPStack
  cases started with
  | false => rfl
  | true =>
      rw [if_neg (by decide), if_neg (by simp [MpBuddyList.service]), run_bind, run_bind, run_call,
        ← reset_refines]
      cases ans.succeeds .destroy2 <;> rfl

/-- A call of the list, or the stack is started or stopped. -/
inductive Event where
  | list (e : Presence.Event)
  | startSIPStack (ans : Answers) (networkState : mp_network_state_t)
  | stopSIPStack (ans : Answers)

/-- The state after a call, what it returns and what the callbacks hear. -/
def outcome (s : System) : Event → Option (System × mp_status_t × List Notice)
  | .list e => s.outcome e
  -- its own call of `stopSIPStack` finds nothing to stop
  | .startSIPStack ans networkState =>
      (startSIPStack ans networkState (s.list.service s.started_)).run.map fun p =>
        (⟨s.list, p.1.1.started_, p.2.foldl Pjsua.after s.pjsua⟩, p.1.2, [])
  | .stopSIPStack ans =>
      (stopSIPStack ans s.started_ s.list).run.map fun p =>
        (⟨p.1.1.1, p.1.1.2, p.2.foldl Pjsua.after s.pjsua⟩, p.1.2, [])

/-- A call and what it has returned. -/
abbrev Returned := Event × mp_status_t

/-- The state with the calls so far, the last one first, and what the callbacks heard
in the last one. -/
structure Watched where
  system : System
  calls : List Returned
  heard : List Notice

def Watched.start (started : Bool) (pjsua : Pjsua) (presenceCb : List MpIPresence) : Watched :=
  ⟨System.start started pjsua presenceCb, [], []⟩

def Watched.step (w : Watched) (e : Event) : Option Watched :=
  (outcome w.system e).map fun p => ⟨p.1, (e, p.2.1) :: w.calls, p.2.2⟩

/-! ## What the calls say -/

/-- What the calls do to the buddy with a serial. -/
def entry (serial : MpString) : Register Returned MpBuddy where
  opens
    | (.list (.addBuddy ans buddy), status) =>
        if status = MP_SUCCESS ∧ buddy.serial_ = serial then
          some { buddy with pjsuaId_ := ans.buddy_id }
        else none
    | _ => none
  closes
    | (.list (.rmBuddy _ serial'), status) => status = MP_SUCCESS ∧ serial' = serial
    | (.list .reset, _) => true
    -- also where pjsua is not destroyed
    | (.stopSIPStack _, _) => true
    | _ => false
  changes
    | (.list (.buddy_state buddy_id info), _), buddy =>
        if buddy.pjsuaId_ = buddy_id then MpBuddy.setState buddy (onlineState info) else buddy
    | _, buddy => buddy

/-- The last update of a subscription. -/
def lastReport (buddy_id : pjsua_buddy_id) : List Returned → Option pjsua_buddy_status
  | [] => none
  | (.list (.buddy_state id info), _) :: calls =>
      if id = buddy_id then some info else lastReport buddy_id calls
  | _ :: calls => lastReport buddy_id calls

/-- The state last reported, or the one the buddy was added with. -/
def stateAfter (buddy_id : pjsua_buddy_id) (buddy : MpBuddy) (after : List Returned) :
    mp_buddy_online_status_t :=
  ((lastReport buddy_id after).map onlineState).getD buddy.state_

/-- The buddy was added with this id, and the calls since then have neither removed
the serial nor added it again. -/
def Added (calls : List Returned) (serial : MpString) (buddy : MpBuddy)
    (buddy_id : pjsua_buddy_id) (after : List Returned) : Prop :=
  ∃ ans before, calls = after ++ (.list (.addBuddy ans buddy), MP_SUCCESS) :: before ∧
    buddy.serial_ = serial ∧ ans.buddy_id = buddy_id ∧ ∀ x ∈ after, (entry serial).Keeps x

/-- The answers fit what was reported. -/
structure Reported (w : Watched) : Prop where
  online : ∀ serial, isUserOnline w.system.list serial = true ↔
    ∃ buddy buddy_id after, Added w.calls serial buddy buddy_id after ∧
      stateAfter buddy_id buddy after = .MP_BUDDY_ONLINE
  heard : ∀ cb buddy, .buddy_state2 cb buddy ∈ w.heard →
    getBuddy w.system.list buddy.serial_ = buddy

/-! ## One call -/

section Calls

variable {s s' : System} {status : mp_status_t} {heard : List Notice}

/-- A serial that was removed is not listed. -/
theorem rmBuddy_success {ans : Answers} {started : Bool} {l l' : MpBuddyList} {serial : MpString}
    {log : List (PjsuaCall × Bool)}
    (h : (Presence.rmBuddy ans started l serial).run = some ((l', MP_SUCCESS), log)) :
    lookup l'.buddyList_ serial = none := by
  unfold Presence.rmBuddy at h
  cases hlisted : lookup l.buddyList_ serial with
  | none =>
      rw [hlisted] at h
      cases h
      exact hlisted
  | some buddy =>
      rw [hlisted] at h
      obtain ⟨status, l₁, l₂, -, hrest, -⟩ := run_bind_eq_some.1 h
      split at hrest
      · cases hrest
        show lookup (l.buddyList_.erase serial) serial = none
        rw [lookup_erase, Function.update_self]
      next hfailed =>
        cases hrest
        exact absurd rfl hfailed

/-- **An update changes the entry with the id**, wherever the search meets it. -/
theorem lookup_buddy_state {l : MpBuddyList}
    (hd : Distinct MpBuddy.pjsuaId_ (lookup l.buddyList_)) (buddy_id : pjsua_buddy_id)
    (info : pjsua_buddy_status) (serial : MpString) :
    lookup (buddy_state l buddy_id info).1.buddyList_ serial =
      (lookup l.buddyList_ serial).map
        ((entry serial).changes (.list (.buddy_state buddy_id info), status)) := by
  have hupdates := updates_buddy_state hd buddy_id info
  generalize buddy_state l buddy_id info = p at hupdates ⊢
  obtain ⟨l', heard⟩ := p
  cases hupdates with
  | nobody unknown =>
      cases hlisted : lookup l'.buddyList_ serial with
      | none => rfl
      | some buddy =>
          show some buddy = some (if _ then _ else buddy)
          rw [if_neg (unknown serial buddy hlisted)]
  | @one serial' buddy' _ listed reported only changed callbacks =>
      show lookup l'.buddyList_ serial = _
      rw [changed]
      by_cases hserial : serial = serial'
      · subst hserial
        rw [Function.update_self, listed]
        show _ = some (if _ then _ else buddy')
        rw [if_pos reported]
      · rw [Function.update_of_ne hserial]
        cases hlisted : lookup l.buddyList_ serial with
        | none => rfl
        | some buddy =>
            have hother : ¬ buddy.pjsuaId_ = buddy_id := fun hid =>
              hserial (only serial buddy hlisted hid)
            show some buddy = some (if _ then _ else buddy)
            rw [if_neg hother]

/-- What a callback hears of is what is listed from then on. -/
theorem heard_buddy_state {l : MpBuddyList}
    (hd : Distinct MpBuddy.pjsuaId_ (lookup l.buddyList_))
    (hserials : ∀ serial buddy, lookup l.buddyList_ serial = some buddy → buddy.serial_ = serial)
    {buddy_id : pjsua_buddy_id} {info : pjsua_buddy_status} {cb : MpIPresence} {buddy : MpBuddy}
    (h : .buddy_state2 cb buddy ∈ (buddy_state l buddy_id info).2) :
    lookup (buddy_state l buddy_id info).1.buddyList_ buddy.serial_ = some buddy := by
  have hupdates := updates_buddy_state hd buddy_id info
  generalize buddy_state l buddy_id info = p at hupdates h ⊢
  obtain ⟨l', heard⟩ := p
  cases hupdates with
  | nobody unknown => cases h
  | @one serial buddy' _ listed reported only changed callbacks =>
      obtain ⟨cb', -, hnotice⟩ := List.mem_flatMap.1 h
      have hnotice : cb = cb' ∧ buddy = MpBuddy.setState buddy' (onlineState info) := by
        simpa using hnotice
      have hbuddy := hnotice.2
      have hserial : buddy.serial_ = serial := by
        rw [hbuddy]
        exact hserials serial buddy' listed
      show lookup l'.buddyList_ buddy.serial_ = some buddy
      rw [changed, hserial, Function.update_self, hbuddy]

/-- The stack stops with an empty list, or it does nothing. -/
theorem run_stopSIPStack {ans : Answers} {started started' : Bool} {l l' : MpBuddyList}
    {log : List (PjsuaCall × Bool)}
    (h : (stopSIPStack ans started l).run = some (((l', started'), status), log)) :
    (started = false ∧ l' = l ∧ started' = false) ∨ l' = Presence.reset l := by
  unfold stopSIPStack at h
  cases started with
  | false =>
      cases h
      exact Or.inl ⟨rfl, rfl, rfl⟩
  | true =>
      rw [if_neg (by decide), run_bind, run_call] at h
      cases hok : ans.succeeds .destroy2 with
      | false =>
          rw [hok] at h
          cases h
          exact Or.inr rfl
      | true =>
          rw [hok] at h
          cases h
          exact Or.inr rfl

end Calls

/-! ## The entry of a serial -/

section Entry

variable {serial : MpString} {calls : List Returned} {w w' : Watched}

/-- The updates write the state and nothing else. -/
theorem foldr_changes (buddy_id : pjsua_buddy_id) (buddy : MpBuddy) (after : List Returned) :
    after.foldr (entry serial).changes { buddy with pjsuaId_ := buddy_id } =
      { buddy with pjsuaId_ := buddy_id, state_ := stateAfter buddy_id buddy after } := by
  induction after with
  | nil => rfl
  | cons x after ih =>
      rw [List.foldr_cons, ih]
      obtain ⟨e, status⟩ := x
      cases e with
      | startSIPStack | stopSIPStack => rfl
      | list e =>
          cases e with
          | addBuddy | rmBuddy | reset | addPresenceCb | rmPresenceCb => rfl
          | buddy_state id info =>
              have hlast : lastReport buddy_id ((.list (.buddy_state id info), status) :: after) =
                  if id = buddy_id then some info else lastReport buddy_id after := rfl
              unfold stateAfter
              rw [hlast]
              by_cases hid : buddy_id = id
              · rw [if_pos hid.symm]
                exact if_pos hid
              · rw [if_neg (Ne.symm hid)]
                exact if_neg hid

/-- What the calls leave of a serial: the buddy that was added, with the state last
reported. -/
theorem content_iff {b : MpBuddy} : (entry serial).content calls = some b ↔
    ∃ buddy buddy_id after, Added calls serial buddy buddy_id after ∧
      b = { buddy with pjsuaId_ := buddy_id, state_ := stateAfter buddy_id buddy after } := by
  rw [Register.content_eq_some_iff]
  constructor
  · rintro ⟨after, ⟨e, status⟩, before, a₀, rfl, hopens, hall, rfl⟩
    cases e with
    | startSIPStack | stopSIPStack => cases hopens
    | list e =>
        cases e with
        | rmBuddy | reset | buddy_state | addPresenceCb | rmPresenceCb => cases hopens
        | addBuddy ans buddy =>
            unfold entry at hopens
            dsimp only at hopens
            split at hopens
            · next hadds =>
              obtain ⟨rfl, hserial⟩ := hadds
              cases hopens
              exact ⟨buddy, ans.buddy_id, after, ⟨ans, before, rfl, hserial, rfl, hall⟩,
                foldr_changes _ _ _⟩
            · cases hopens
  · rintro ⟨buddy, buddy_id, after, ⟨ans, before, rfl, hserial, rfl, hall⟩, rfl⟩
    exact ⟨after, _, before, _, rfl, if_pos ⟨rfl, hserial⟩, hall, foldr_changes _ _ _⟩

end Entry

/-! ## The invariant -/

/-- The entry of a serial is what the calls have left of it, and each entry has a live
subscription of its own.  A stopped stack has none. -/
structure Inv (w : Watched) : Prop where
  distinct : Distinct MpBuddy.pjsuaId_ (lookup w.system.list.buddyList_)
  alive : values MpBuddy.pjsuaId_ (lookup w.system.list.buddyList_) ⊆ Pjsua.alive w.system.pjsua
  stopped : w.system.started_ = false → ∀ serial, lookup w.system.list.buddyList_ serial = none
  follows : ∀ serial, lookup w.system.list.buddyList_ serial = (entry serial).content w.calls

section Invariant

variable {w w' : Watched}

theorem Inv.serials (hinv : Inv w) {serial : MpString} {b : MpBuddy}
    (h : lookup w.system.list.buddyList_ serial = some b) : b.serial_ = serial := by
  rw [hinv.follows serial, content_iff] at h
  obtain ⟨buddy, buddy_id, after, hadded, rfl⟩ := h
  obtain ⟨-, -, -, hserial, -, -⟩ := hadded
  exact hserial

/-- An empty list, where the calls have left nothing either. -/
theorem Inv.of_empty (hempty : ∀ serial, lookup w.system.list.buddyList_ serial = none)
    (hcalls : ∀ serial, (entry serial).content w.calls = none) : Inv w where
  distinct := distinct_of_empty hempty
  alive := by
    rw [values_eq_empty_iff.2 hempty]
    exact Set.empty_subset _
  stopped := fun _ => hempty
  follows := fun serial => (hempty serial).trans (hcalls serial).symm

theorem Inv.start (started : Bool) (pjsua : Pjsua) (presenceCb : List MpIPresence) :
    Inv (Watched.start started pjsua presenceCb) :=
  Inv.of_empty (fun _ => lookup_empty) fun _ => rfl

/-- A call that changes neither the list nor what the calls say of it. -/
theorem Inv.unchanged (hinv : Inv w) {s' : System} {x : Returned} {heard : List Notice}
    (hlist : s'.list.buddyList_ = w.system.list.buddyList_)
    (halive : values MpBuddy.pjsuaId_ (lookup w.system.list.buddyList_) ⊆ Pjsua.alive s'.pjsua)
    (hstopped : s'.started_ = false → w.system.started_ = false)
    (hkeeps : ∀ serial, (entry serial).Keeps x)
    (hsame : ∀ serial b, (entry serial).changes x b = b) :
    Inv ⟨s', x :: w.calls, heard⟩ where
  distinct := by
    rw [hlist]
    exact hinv.distinct
  alive := by
    rw [hlist]
    exact halive
  stopped := by
    intro hs'
    rw [hlist]
    exact hinv.stopped (hstopped hs')
  follows := by
    intro serial
    rw [hlist, hinv.follows serial]
    exact (Register.content_of_idle (hkeeps serial) (hsame serial)).symm

/-- A buddy is added with a new id, under a serial that was not listed. -/
theorem Inv.added (hinv : Inv w) {ans : Answers} {buddy : MpBuddy} {heard : List Notice}
    (hadds : Adds w.system ans buddy) (hfresh : ans.buddy_id ∉ w.system.pjsua.buddies) :
    Inv ⟨⟨{ w.system.list with
          buddyList_ := w.system.list.buddyList_.insertIfNew buddy.serial_
            { buddy with pjsuaId_ := ans.buddy_id } },
        w.system.started_, { w.system.pjsua with
          buddies := ans.buddy_id :: w.system.pjsua.buddies }⟩,
      (.list (.addBuddy ans buddy), MP_SUCCESS) :: w.calls, heard⟩ where
  distinct := by
    rw [lookup_insertIfNew hadds.2.1]
    exact hinv.distinct.insert fun hin => hfresh (hinv.alive hin)
  alive := by
    rw [lookup_insertIfNew hadds.2.1, values_insert hadds.2.1]
    rintro id (rfl | hid)
    · exact List.mem_cons_self
    · exact List.mem_cons_of_mem _ (hinv.alive hid)
  stopped := fun hstopped => Bool.noConfusion (hadds.2.2.1.symm.trans hstopped)
  follows := by
    intro serial
    show lookup (w.system.list.buddyList_.insertIfNew buddy.serial_ _) serial = _
    rw [lookup_insertIfNew hadds.2.1]
    by_cases hserial : serial = buddy.serial_
    · subst hserial
      rw [Function.update_self]
      exact (Register.content_of_opens (if_pos ⟨rfl, rfl⟩)).symm
    · rw [Function.update_of_ne hserial, hinv.follows serial]
      have hopens : (entry serial).opens (.list (.addBuddy ans buddy), MP_SUCCESS) = none :=
        if_neg fun h => hserial h.2.symm
      exact (Register.content_of_idle ⟨hopens, rfl⟩ fun _ => rfl).symm

/-- A removal that succeeds leaves no entry, one that fails changes none. -/
theorem follows_rmBuddy (hinv : Inv w) {s' : System} {ans : Answers} {serial : MpString}
    {status : mp_status_t}
    (hremoved : status = MP_SUCCESS → lookup s'.list.buddyList_ serial = none)
    (hkept : status ≠ MP_SUCCESS → s'.list = w.system.list)
    (hothers : ∀ k, k ≠ serial →
      lookup s'.list.buddyList_ k = lookup w.system.list.buddyList_ k) (k : MpString) :
    lookup s'.list.buddyList_ k =
      (entry k).content ((.list (.rmBuddy ans serial), status) :: w.calls) := by
  by_cases hcloses : status = MP_SUCCESS ∧ serial = k
  · obtain ⟨hstatus, rfl⟩ := hcloses
    rw [hremoved hstatus]
    have hcloses : (entry serial).closes (.list (.rmBuddy ans serial), status) = true :=
      decide_eq_true ⟨hstatus, rfl⟩
    exact (Register.content_of_closes rfl hcloses).symm
  · have hkeeps : (entry k).Keeps (.list (.rmBuddy ans serial), status) :=
      ⟨rfl, decide_eq_false hcloses⟩
    rw [Register.content_of_idle hkeeps fun _ => rfl, ← hinv.follows k]
    by_cases hstatus : status = MP_SUCCESS
    · exact hothers k fun hk => hcloses ⟨hstatus, hk.symm⟩
    · rw [hkept hstatus]

/-- An update of the presence. -/
theorem Inv.buddy_state (hinv : Inv w) (buddy_id : pjsua_buddy_id) (info : pjsua_buddy_status)
    {status : mp_status_t} {heard : List Notice} :
    Inv ⟨{ w.system with list := (Presence.buddy_state w.system.list buddy_id info).1 },
      (.list (.buddy_state buddy_id info), status) :: w.calls, heard⟩ := by
  have hlookup := @lookup_buddy_state status _ hinv.distinct buddy_id info
  have hid (serial : MpString) (b : MpBuddy) :
      ((entry serial).changes (.list (.buddy_state buddy_id info), status) b).pjsuaId_ =
        b.pjsuaId_ := by
    show MpBuddy.pjsuaId_ (if _ then _ else b) = _
    split <;> rfl
  -- the new entries are the old ones with another state
  have hold (serial : MpString) (b : MpBuddy)
      (hb : lookup (Presence.buddy_state w.system.list buddy_id info).1.buddyList_ serial =
        some b) :
      ∃ a, lookup w.system.list.buddyList_ serial = some a ∧ a.pjsuaId_ = b.pjsuaId_ := by
    rw [hlookup serial] at hb
    obtain ⟨a, ha, rfl⟩ := Option.map_eq_some_iff.1 hb
    exact ⟨a, ha, (hid serial a).symm⟩
  refine ⟨?_, ?_, ?_, ?_⟩
  · intro k k' b b' hb hb' hsame
    obtain ⟨a, ha, hab⟩ := hold k b hb
    obtain ⟨a', ha', hab'⟩ := hold k' b' hb'
    exact hinv.distinct ha ha' (hab.trans (hsame.trans hab'.symm))
  · rintro id ⟨serial, b, hb, rfl⟩
    obtain ⟨a, ha, hab⟩ := hold serial b hb
    exact hinv.alive ⟨serial, a, ha, hab⟩
  · intro hstopped serial
    show lookup (Presence.buddy_state w.system.list buddy_id info).1.buddyList_ serial = none
    rw [hlookup serial, hinv.stopped hstopped serial]
    rfl
  · intro serial
    show lookup (Presence.buddy_state w.system.list buddy_id info).1.buddyList_ serial = _
    rw [hlookup serial, hinv.follows serial]
    exact (Register.content_of_keeps ⟨rfl, rfl⟩).symm

end Invariant

/-! ## Whole runs -/

section Runs

variable {w w' : Watched} {e : Event}

/-- Starting leaves the list alone. -/
theorem Inv.startSIPStack (hinv : Inv w) {ans : Answers} {networkState : mp_network_state_t}
    {service : MpService} {status : mp_status_t} {log : List (PjsuaCall × Bool)}
    {heard : List Notice}
    (h : (SipStack.Stack.startSIPStack ans networkState
      (w.system.list.service w.system.started_)).run = some ((service, status), log)) :
    Inv ⟨⟨w.system.list, service.started_, log.foldl Pjsua.after w.system.pjsua⟩,
      (.startSIPStack ans networkState, status) :: w.calls, heard⟩ := by
  cases hstarted : w.system.started_ with
  | false =>
      have hempty := hinv.stopped hstarted
      refine Inv.of_empty hempty ?_
      intro serial
      have hkeeps : (entry serial).Keeps (.startSIPStack ans networkState, status) := ⟨rfl, rfl⟩
      rw [Register.content_of_idle hkeeps fun _ => rfl, ← hinv.follows serial]
      exact hempty serial
  | true =>
      rw [hstarted] at h
      cases h
      exact hinv.unchanged rfl hinv.alive nofun (fun _ => ⟨rfl, rfl⟩) fun _ _ => rfl

/-- Stopping empties the list. -/
theorem Inv.stopSIPStack (hinv : Inv w) {ans : Answers} {l : MpBuddyList} {started : Bool}
    {status : mp_status_t} {log : List (PjsuaCall × Bool)} {heard : List Notice}
    (h : (stopSIPStack ans w.system.started_ w.system.list).run =
      some (((l, started), status), log)) :
    Inv ⟨⟨l, started, log.foldl Pjsua.after w.system.pjsua⟩,
      (.stopSIPStack ans, status) :: w.calls, heard⟩ := by
  refine Inv.of_empty ?_ fun serial => Register.content_of_closes rfl rfl
  rcases run_stopSIPStack h with ⟨hstopped, rfl, -⟩ | rfl
  · exact hinv.stopped hstopped
  · exact fun serial => lookup_empty

/-- A call of the list. -/
theorem Inv.list (hinv : Inv w) {e : Presence.Event} {s' : System} {status : mp_status_t}
    {heard : List Notice} (h : w.system.outcome e = some (s', status, heard)) :
    Inv ⟨s', (.list e, status) :: w.calls, heard⟩ := by
  have hcases := outcome_cases h
  cases hcases with
  | @add_refused ans buddy refused =>
      have hopens (serial : MpString) :
          (entry serial).opens (.list (.addBuddy ans buddy), MP_GENERAL_ERR) = none := by
        simp [entry]
      exact hinv.unchanged rfl hinv.alive id (fun serial => ⟨hopens serial, rfl⟩) fun _ _ => rfl
  | added adds fresh => exact hinv.added adds fresh
  | @rm_kept ans serial status =>
      obtain ⟨⟨⟨l, status'⟩, log⟩, hrun, hsame⟩ := Option.map_eq_some_iff.1 h
      have hlist : l = w.system.list := congrArg (fun p => p.1.list) hsame
      have hstatus : status' = status := congrArg (fun p => p.2.1) hsame
      subst hlist hstatus
      refine ⟨hinv.distinct, hinv.alive, hinv.stopped, ?_⟩
      refine follows_rmBuddy hinv ?_ (fun _ => rfl) fun _ _ => rfl
      rintro rfl
      exact rmBuddy_success hrun
  | @removed ans serial buddy present =>
      refine ⟨?_, ?_, ?_, ?_⟩
      · rw [lookup_erase]
        exact hinv.distinct.erase
      · rw [lookup_erase, values_erase hinv.distinct present]
        rintro id ⟨hid, hne⟩
        exact List.mem_filter.2 ⟨hinv.alive hid, by simpa using hne⟩
      · intro hstopped
        rw [hinv.stopped hstopped serial] at present
        cases present
      · refine follows_rmBuddy hinv ?_ (fun hne => absurd rfl hne) ?_
        · intro _
          rw [lookup_erase, Function.update_self]
        · intro k hk
          rw [lookup_erase, Function.update_of_ne hk]
  | reset =>
      exact Inv.of_empty (fun _ => lookup_empty) fun _ => Register.content_of_closes rfl rfl
  | buddy_state => exact hinv.buddy_state _ _
  | addPresenceCb | rmPresenceCb =>
      exact hinv.unchanged rfl hinv.alive id (fun _ => ⟨rfl, rfl⟩) fun _ _ => rfl

/-- **Every call keeps the entries in step with the calls.** -/
theorem Inv.step (hinv : Inv w) (h : w.step e = some w') : Inv w' := by
  obtain ⟨⟨s', status, heard⟩, houtcome, rfl⟩ := Option.map_eq_some_iff.1 h
  cases e with
  | list e => exact hinv.list houtcome
  | startSIPStack ans networkState =>
      obtain ⟨⟨⟨service, status'⟩, log⟩, hrun, hsame⟩ := Option.map_eq_some_iff.1 houtcome
      cases hsame
      exact hinv.startSIPStack hrun
  | stopSIPStack ans =>
      obtain ⟨⟨⟨⟨l, started⟩, status'⟩, log⟩, hrun, hsame⟩ := Option.map_eq_some_iff.1 houtcome
      cases hsame
      exact hinv.stopSIPStack hrun

/-- A callback is told what is listed. -/
theorem Inv.told (hinv : Inv w) (h : w.step e = some w') {cb : MpIPresence} {buddy : MpBuddy}
    (hheard : .buddy_state2 cb buddy ∈ w'.heard) :
    lookup w'.system.list.buddyList_ buddy.serial_ = some buddy := by
  obtain ⟨⟨s', status, heard⟩, houtcome, rfl⟩ := Option.map_eq_some_iff.1 h
  cases e with
  | startSIPStack | stopSIPStack =>
      obtain ⟨p, -, hsame⟩ := Option.map_eq_some_iff.1 houtcome
      cases hsame
      cases hheard
  | list e =>
      have hcases := outcome_cases houtcome
      cases hcases with
      | add_refused | added | rm_kept | removed | reset | addPresenceCb | rmPresenceCb =>
          cases hheard
      | buddy_state =>
          exact heard_buddy_state hinv.distinct (fun _ _ => hinv.serials) hheard

/-- What the answers are, where the entries are in step with the calls. -/
theorem Inv.online_iff (hinv : Inv w) (serial : MpString) :
    isUserOnline w.system.list serial = true ↔
      ∃ buddy buddy_id after, Added w.calls serial buddy buddy_id after ∧
        stateAfter buddy_id buddy after = .MP_BUDDY_ONLINE := by
  rw [isUserOnline_iff, hinv.follows serial]
  constructor
  · rintro ⟨b, hcontent, honline⟩
    obtain ⟨buddy, buddy_id, after, hadded, rfl⟩ := content_iff.1 hcontent
    exact ⟨buddy, buddy_id, after, hadded, honline⟩
  · rintro ⟨buddy, buddy_id, after, hadded, honline⟩
    exact ⟨_, content_iff.2 ⟨buddy, buddy_id, after, hadded, rfl⟩, honline⟩

/-- Who is called is the buddy: the URI has its serial. -/
theorem Inv.getBuddyUri_reads_back (hinv : Inv w) {serial address : MpString} {port : UInt32}
    {buddy : MpBuddy} (hlisted : lookup w.system.list.buddyList_ serial = some buddy)
    (hserial : serial ≠ []) (hzero : 0 ∉ serial) (haddress : 64 ∉ address) :
    ∃ uri, (getBuddyUri w.system.list serial address port).run = some (uri, []) ∧
      (getSerialFromUri (some (c_str uri))).run = some (serial, []) := by
  have hbytes : (c_str serial).bytes = serial := c_str_of_noZero hzero
  have huri := @run_getUriFromSerial (c_str address) (c_str serial) port (by rwa [hbytes])
  rw [hbytes] at huri
  have hrun : (getBuddyUri w.system.list serial address port).run =
      (getUriFromSerial (some (c_str serial)) (c_str address) port).run := by
    unfold getBuddyUri
    rw [hlisted]
    show (getUriFromSerial (some (c_str buddy.serial_)) _ _).run = _
    rw [hinv.serials hlisted]
  refine ⟨_, hrun.trans huri, ?_⟩
  have hread := @DataMsg.Receiving.read_back serial address port [] [] hzero haddress
    (by decide) (by decide) (by decide) (by decide)
  rwa [List.nil_append, List.append_nil] at hread

/-- **In every state of every run a user is online exactly where the user was added,
not removed since, and last reported to be online**, and what a callback is told of a
buddy is what `getBuddy` returns from then on. -/
theorem online_as_reported (started : Bool) (pjsua : Pjsua) (presenceCb : List MpIPresence)
    (es : List Event) :
    Steps Watched.step (fun _ _ w => Reported w) (Watched.start started pjsua presenceCb) es := by
  refine steps_of_inv (Q := fun _ _ w => Reported w) (C := fun _ _ _ => True) (I := Inv) ?_
    (Inv.start started pjsua presenceCb) (steps_of_forall fun _ _ => trivial)
  intro w e w' hinv h _
  have hinv' := hinv.step h
  refine ⟨hinv', hinv'.online_iff, ?_⟩
  intro cb buddy hheard
  unfold getBuddy
  rw [hinv.told h hheard]
  rfl

end Runs

end EndToEndSmkex.Buddy.Online
