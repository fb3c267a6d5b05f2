import EndToEndSmkex.SipStack.Recovery
import EndToEndSmkex.Utils.Uri

/-!
# Logging in and out

`MpUserAccount` starts and stops the SIP stack, keeps the settings of the
account, and tells its callbacks about every registration state.  Any call of
pjsua may fail, and the registrar answers at any time while there is an
instance, also one that a failed start has left behind.

`login` asks for the state online before it starts the stack, and a stack that
is already started makes it succeed whatever the settings are.

## Main results

* `settings_of_account_iff` — the settings that URIs are made from are those of
  the account pjsua has, exactly where nobody logs in to another account in
  between.
* `told_online_iff` — who believes to be online is, exactly where no account of a
  failed start is reported as registered and no callback comes back that has
  missed a logout.
-/

namespace EndToEndSmkex.UserAccount.Account

open EndToEndSmkex.Lib.Actions
open EndToEndSmkex.Lib.Run
open EndToEndSmkex.Smkex.Record
open EndToEndSmkex.AutoResend.Engine (mp_status_t)
open EndToEndSmkex.AutoResend.Engine.mp_status_t
open EndToEndSmkex.SipStack.Stack
open EndToEndSmkex.SipStack.Recovery hiding Event System System.new System.step handle
open EndToEndSmkex.Utils.Uri

/-! ## The account -/

inductive mp_online_state_t where
  | MP_ONLINE
  | MP_OFFLINE
  deriving DecidableEq

open mp_online_state_t

structure MpAccSettings where
  serverAddress_ : MpString
  port_ : UInt32
  userName_ : MpString
  pjsipLogLevel_ : UInt32
  networkState_ : mp_network_state_t
  verifyServer_ : Bool
  deriving DecidableEq

/-- `operator=`: log level, network state and verification stay. -/
def MpAccSettings.assign (s accSettings : MpAccSettings) : MpAccSettings :=
  { s with
    serverAddress_ := accSettings.serverAddress_
    port_ := accSettings.port_
    userName_ := accSettings.userName_ }

/-- What `setSIPAccountConfig` hands to `pjsua_acc_add`: the URI of the account and
that of the registrar. -/
structure AccConfig where
  id : MpString
  reg_uri : MpString
  deriving DecidableEq

def setSIPAccountConfig (accSettings : MpAccSettings) : AccConfig :=
  let server := accSettings.serverAddress_ ++ [58] ++ decimal accSettings.port_ ++
    MP_SIP_TRANSPORT
  { id := (c_str (MP_SIP_SCHEMA ++ accSettings.userName_ ++ [64] ++ server)).bytes
    reg_uri := (c_str (MP_SIP_SCHEMA ++ server)).bytes }

/-- **The account is known under the URI that others write to**: the one they make
from its user name, as long as they have the same server. -/
theorem id_eq_uri {accSettings : MpAccSettings} (hname : accSettings.userName_ ≠ [])
    (hzero : 0 ∉ accSettings.userName_) (hserver : 0 ∉ accSettings.serverAddress_) :
    (getUriFromSerial (some (c_str accSettings.userName_)) (c_str accSettings.serverAddress_)
      accSettings.port_).run = some ((setSIPAccountConfig accSettings).id, []) := by
  have hbytes : (c_str accSettings.userName_).bytes = accSettings.userName_ :=
    c_str_of_noZero hzero
  have htail : accSettings.serverAddress_ ++ [58] ++ decimal accSettings.port_ ++
      MP_SIP_TRANSPORT = uriTail (c_str accSettings.serverAddress_) accSettings.port_ := by
    rw [uriTail, c_str_of_noZero hserver]
    simp
  have hall : 0 ∉ MP_SIP_SCHEMA ++ accSettings.userName_ ++ [64] ++
      uriTail (c_str accSettings.serverAddress_) accSettings.port_ := by
    have hschema : 0 ∉ MP_SIP_SCHEMA := by decide
    simp [hschema, hzero, zero_not_mem_uriTail]
  rw [run_getUriFromSerial (by rw [hbytes]; exact hname), hbytes, setSIPAccountConfig]
  dsimp only
  rw [htail, c_str_of_noZero hall]
  simp

/-- A registration callback, by its address. -/
abbrev MpIRegistration := Nat

structure MpUserAccount where
  reqStatus_ : mp_online_state_t
  accSettings_ : MpAccSettings
  regCb_ : List MpIRegistration

/-- The constructor. -/
def MpUserAccount.new : MpUserAccount :=
  ⟨MP_OFFLINE, ⟨[], 0, [], 0, .MP_NETWORK_UNREACHABLE, true⟩, []⟩

/-- What a callback is told. -/
structure Told where
  cb : MpIRegistration
  userStatus : mp_online_state_t
  deriving DecidableEq

/-- `registration_state`. -/
def registration_state (u : MpUserAccount) (status : mp_status_t) : List Told :=
  let userStatus := if status = MP_SUCCESS then u.reqStatus_ else MP_OFFLINE
  u.regCb_.map fun cb => ⟨cb, userStatus⟩

def addRegCallback (u : MpUserAccount) (reg : MpIRegistration) : MpUserAccount × mp_status_t :=
  if reg = 0 then (u, MP_INPUT_ERR) else ({ u with regCb_ := u.regCb_ ++ [reg] }, MP_SUCCESS)

/-- `rmRegCallback`; of the lock it keeps nothing is seen here. -/
def rmRegCallback (u : MpUserAccount) (reg : MpIRegistration) : MpUserAccount × mp_status_t :=
  if reg = 0 then (u, MP_INPUT_ERR) else ({ u with regCb_ := u.regCb_.erase reg }, MP_SUCCESS)

def login (ans : Answers) (service : MpService) (u : MpUserAccount)
    (accSettings : MpAccSettings) : Action ((MpService × MpUserAccount) × mp_status_t) := do
  let u := { u with reqStatus_ := MP_ONLINE }
  let (service, status) ← startSIPStack ans accSettings.networkState_ service
  if status ≠ MP_SUCCESS then return ((service, u), status)
  return ((service, { u with accSettings_ := u.accSettings_.assign accSettings }), status)

/-- `logout` with what it tells the callbacks. -/
def logout (ans : Answers) (service : MpService) (u : MpUserAccount) :
    Action ((MpService × MpUserAccount × List Told) × mp_status_t) := do
  let u := { u with reqStatus_ := MP_OFFLINE }
  let (service, status) ← stopSIPStack ans service
  return ((service, u, registration_state u status), status)

/-- `on_reg_state`; a status of 0 counts as success. -/
def on_reg_state (u : MpUserAccount) (status : Nat) : List Told :=
  if status = 200 ∨ status = 0 then registration_state u MP_SUCCESS
  else registration_state u MP_STATUS_ERR

/-! ## Runs -/

/-- What a callback has been told last. -/
def lastTold (told : List Told) (cb : MpIRegistration) : Option mp_online_state_t :=
  told.foldl (fun last t => if t.cb = cb then some t.userStatus else last) none

/-- `account` are the settings of the account added last, `told` is everything
the callbacks have been told, and `missed` are the callbacks that believed to be
online, were not registered when somebody logged out, and have not seen a login
succeed since. -/
structure System where
  service : MpService
  pjsua : Pjsua
  account : Option MpAccSettings
  user : MpUserAccount
  told : List Told
  missed : List MpIRegistration

def System.new : System := ⟨MpService.new, Pjsua.new, none, MpUserAccount.new, [], []⟩

/-- Who believes to be online and is not registered. -/
def System.absent (s : System) : List MpIRegistration :=
  (s.told.map Told.cb).filter fun cb => lastTold s.told cb = some MP_ONLINE ∧ cb ∉ s.user.regCb_

inductive Event where
  | login (ans : Answers) (accSettings : MpAccSettings)
  | logout (ans : Answers)
  | on_reg_state (status : Nat)
  | addRegCallback (reg : MpIRegistration)
  | rmRegCallback (reg : MpIRegistration)

/-- One event.  Nothing is registered without an instance. -/
def System.step (s : System) : Event → Option System
  | .login ans accSettings =>
      (Account.login ans s.service s.user accSettings).run.map fun p =>
        { s with
          service := p.1.1.1
          pjsua := p.2.foldl Pjsua.after s.pjsua
          account := if (.acc_add, true) ∈ p.2 then some accSettings else s.account
          user := p.1.1.2
          missed := if p.1.1.1.started_ then [] else s.missed }
  | .logout ans =>
      (Account.logout ans s.service s.user).run.map fun p =>
        { s with
          service := p.1.1.1
          pjsua := p.2.foldl Pjsua.after s.pjsua
          user := p.1.1.2.1
          told := s.told ++ p.1.1.2.2
          missed := s.missed ++ s.absent }
  | .on_reg_state status =>
      if s.pjsua.undestroyed then
        some { s with told := s.told ++ Account.on_reg_state s.user status }
      else none
  | .addRegCallback reg => some { s with user := (Account.addRegCallback s.user reg).1 }
  | .rmRegCallback reg => some { s with user := (Account.rmRegCallback s.user reg).1 }

/-! ## What the two calls do -/

section Calls

variable (ans : Answers) (networkState : mp_network_state_t) (service : MpService)

/-- A start that succeeds on a stopped stack has added the account. -/
theorem acc_add_of_started {service' : MpService} {log : List (PjsuaCall × Bool)}
    (h : service.started_ = false)
    (hrun : (startSIPStack ans networkState service).run = some ((service', MP_SUCCESS), log)) :
    (.acc_add, true) ∈ log := by
  have hcompletes : completes ans networkState = true := by
    obtain ⟨cs, hstopped, -⟩ := run_startSIPStack_stopped ans networkState service h
    rw [hstopped] at hrun
    by_contra hnot
    rw [if_neg hnot] at hrun
    cases hrun
  simp only [completes, launches, registers, Bool.and_eq_true] at hcompletes
  obtain ⟨⟨hcreate, ⟨hinit, htransport⟩, hstart⟩, ⟨hacc, honline⟩, hset⟩ := hcompletes
  obtain ⟨cs, hcodecs⟩ := run_of_value (value_setCodecsPriorities ans networkState)
  have hstop := run_stopSIPStack_stopped ans service h
  simp [startSIPStack, h, hstop, run_bind, run_call, hcreate, hinit, htransport, hstart, hacc,
    honline, hcodecs, hset] at hrun
  rw [← hrun.2]
  simp

/-- What a start leaves: `started_` after a success, and the same as before
otherwise. -/
theorem run_startSIPStack_cases (s : MpService) :
    ∃ s' status log, (startSIPStack ans networkState s).run = some ((s', status), log) ∧
      (s.started_ = true ∧ s' = s ∧ status = MP_SUCCESS ∧ log = [] ∨
        s.started_ = false ∧ (status = MP_SUCCESS ∧ s'.started_ = true ∧ (.acc_add, true) ∈ log ∨
          status ≠ MP_SUCCESS ∧ s'.started_ = false)) := by
  cases hstarted : s.started_ with
  | true => exact ⟨s, MP_SUCCESS, [], run_startSIPStack_started ans networkState s hstarted,
      Or.inl ⟨rfl, rfl, rfl, rfl⟩⟩
  | false =>
      obtain ⟨cs, hrun, -⟩ := run_startSIPStack_stopped ans networkState s hstarted
      refine ⟨_, _, _, hrun, Or.inr ⟨rfl, ?_⟩⟩
      cases hcompletes : completes ans networkState with
      | true =>
          rw [hcompletes] at hrun
          exact Or.inl ⟨rfl, rfl, acc_add_of_started ans networkState s hstarted hrun⟩
      | false => exact Or.inr ⟨nofun, rfl⟩

end Calls

section Step

variable {s s' : System}

/-- What a login changes. -/
structure LoggedIn (s s' : System) (accSettings : MpAccSettings) : Prop where
  told : s'.told = s.told
  regCb : s'.user.regCb_ = s.user.regCb_
  reqStatus : s'.user.reqStatus_ = MP_ONLINE
  missed : s'.missed = if s'.service.started_ then [] else s.missed
  outcome :
    s.service.started_ = true ∧ s'.service.started_ = true ∧ s'.account = s.account ∧
        s'.user.accSettings_ = s.user.accSettings_.assign accSettings ∨
      s.service.started_ = false ∧
        (s'.service.started_ = true ∧ s'.account = some accSettings ∧
            s'.user.accSettings_ = s.user.accSettings_.assign accSettings ∨
          s'.service.started_ = false)

theorem step_login {ans : Answers} {accSettings : MpAccSettings}
    (h : s.step (.login ans accSettings) = some s') : LoggedIn s s' accSettings := by
  obtain ⟨service', status, log, hrun, hcases⟩ :=
    run_startSIPStack_cases ans accSettings.networkState_ s.service
  simp only [System.step, Account.login, run_bind, hrun, Option.bind_some] at h
  rcases hcases with ⟨hstarted, rfl, rfl, rfl⟩ |
    ⟨hstopped, ⟨rfl, hstarted, hacc⟩ | ⟨hfail, hstopped'⟩⟩
  · cases h
    exact ⟨rfl, rfl, rfl, rfl, Or.inl ⟨hstarted, hstarted, rfl, rfl⟩⟩
  · cases h
    refine ⟨rfl, rfl, rfl, rfl, Or.inr ⟨hstopped, Or.inl ⟨hstarted, ?_, rfl⟩⟩⟩
    simp [hacc]
  · rw [if_pos hfail] at h
    cases h
    exact ⟨rfl, rfl, rfl, rfl, Or.inr ⟨hstopped, Or.inr hstopped'⟩⟩

/-- What a logout changes. -/
structure LoggedOut (s s' : System) : Prop where
  account : s'.account = s.account
  accSettings : s'.user.accSettings_ = s.user.accSettings_
  regCb : s'.user.regCb_ = s.user.regCb_
  reqStatus : s'.user.reqStatus_ = MP_OFFLINE
  started : s'.service.started_ = true → s.service.started_ = true
  told : s'.told = s.told ++ s.user.regCb_.map fun cb => ⟨cb, MP_OFFLINE⟩
  missed : s'.missed = s.missed ++ s.absent

theorem registration_state_offline {u : MpUserAccount} (h : u.reqStatus_ = MP_OFFLINE)
    (status : mp_status_t) :
    registration_state u status = u.regCb_.map fun cb => ⟨cb, MP_OFFLINE⟩ := by
  unfold registration_state
  rw [h, ite_self]

theorem step_logout {ans : Answers} (h : s.step (.logout ans) = some s') : LoggedOut s s' := by
  cases hstarted : s.service.started_ with
  | true =>
      obtain ⟨status, hrun⟩ := run_stopSIPStack_started ans s.service hstarted
      simp only [System.step, Account.logout, run_bind, hrun, Option.bind_some] at h
      cases h
      exact ⟨rfl, rfl, rfl, rfl, fun _ => hstarted,
        congrArg (s.told ++ ·) (registration_state_offline rfl status), rfl⟩
  | false =>
      have hrun := run_stopSIPStack_stopped ans s.service hstarted
      simp only [System.step, Account.logout, run_bind, hrun, Option.bind_some] at h
      cases h
      exact ⟨rfl, rfl, rfl, rfl, id,
        congrArg (s.told ++ ·) (registration_state_offline rfl MP_SUCCESS), rfl⟩

theorem step_on_reg_state {status : Nat} (h : s.step (.on_reg_state status) = some s') :
    s' = { s with told := s.told ++ Account.on_reg_state s.user status } := by
  rw [System.step] at h
  split at h
  · exact (Option.some.inj h).symm
  · cases h

end Step

/-! ## The settings of the account -/

/-- The settings that the account's URIs and the buddies' URIs are made from. -/
def SameServer (a b : MpAccSettings) : Prop :=
  a.serverAddress_ = b.serverAddress_ ∧ a.port_ = b.port_ ∧ a.userName_ = b.userName_

instance (a b : MpAccSettings) : Decidable (SameServer a b) :=
  inferInstanceAs (Decidable (_ ∧ _))

theorem SameServer.assign (s a : MpAccSettings) : SameServer a (s.assign a) := ⟨rfl, rfl, rfl⟩

/-- While the stack is started, the account of pjsua has the settings that are
kept. -/
def SettingsOfAccount (s : System) : Prop :=
  s.service.started_ = true → ∃ a, s.account = some a ∧ SameServer a s.user.accSettings_

/-- Nobody logs in to another account while the stack is started. -/
def SameAgain (s : System) (e : Event) : Prop :=
  ∀ ans accSettings, e = .login ans accSettings → s.service.started_ = true →
    SameServer accSettings s.user.accSettings_

theorem settings_step_iff {s s' : System} {e : Event} (h : SettingsOfAccount s)
    (hstep : s.step e = some s') : SettingsOfAccount s' ↔ SameAgain s e := by
  cases e with
  | login ans accSettings =>
      have hlogin := step_login hstep
      rcases hlogin.outcome with ⟨hstarted, hstarted', haccount, hsettings⟩ |
        ⟨hstopped, ⟨-, haccount, hsettings⟩ | hstopped'⟩
      · obtain ⟨a, ha, haddress, hport, hname⟩ := h hstarted
        constructor
        · rintro hafter ans' accSettings' ⟨rfl, rfl⟩ -
          obtain ⟨b, hb, hbaddress, hbport, hbname⟩ := hafter hstarted'
          rw [haccount, ha, Option.some.injEq] at hb
          subst hb
          rw [hsettings] at hbaddress hbport hbname
          exact ⟨hbaddress.symm.trans haddress, hbport.symm.trans hport, hbname.symm.trans hname⟩
        · intro hsame _
          obtain ⟨hsaddress, hsport, hsname⟩ := hsame ans accSettings rfl hstarted
          refine ⟨a, haccount.trans ha, ?_⟩
          rw [hsettings]
          exact ⟨haddress.trans hsaddress.symm, hport.trans hsport.symm, hname.trans hsname.symm⟩
      · refine iff_of_true (fun _ => ⟨accSettings, haccount, ?_⟩) ?_
        · rw [hsettings]
          exact SameServer.assign _ accSettings
        · rintro ans' accSettings' - hstarted
          rw [hstopped] at hstarted
          cases hstarted
      · refine iff_of_true ?_ ?_
        · intro hstarted
          rw [hstopped'] at hstarted
          cases hstarted
        · rintro ans' accSettings' - hstarted
          rw [hstopped] at hstarted
          cases hstarted
  | logout ans =>
      have hlogout := step_logout hstep
      refine iff_of_true ?_ nofun
      intro hstarted
      rw [hlogout.account, hlogout.accSettings]
      exact h (hlogout.started hstarted)
  | on_reg_state status =>
      rw [step_on_reg_state hstep]
      exact iff_of_true h nofun
  | addRegCallback reg =>
      cases hstep
      refine iff_of_true ?_ nofun
      unfold SettingsOfAccount Account.addRegCallback
      split <;> exact h
  | rmRegCallback reg =>
      cases hstep
      refine iff_of_true ?_ nofun
      unfold SettingsOfAccount Account.rmRegCallback
      split <;> exact h

/-- **URIs are made from the settings of the account pjsua has**, in every state of
a run, exactly where nobody logs in to another account while the stack is
started: that login succeeds, and the stack keeps the old account. -/
theorem settings_of_account_iff (es : List Event) :
    Steps System.step (fun _ _ s' => SettingsOfAccount s') System.new es ↔
      Steps System.step (fun s e _ => SameAgain s e) System.new es := by
  have hnew : SettingsOfAccount System.new := by
    intro hstarted
    cases hstarted
  refine steps_iff_of_inv (E := fun _ => True) ?_ ?_ hnew fun _ _ => trivial
  · intro s e s' hs _ hstep
    exact settings_step_iff hs hstep
  · intro s e s' hs _ hstep hc
    exact (settings_step_iff hs hstep).2 hc

/-- A second account: the login succeeds, the stack keeps the first. -/
example :
    let settings (user : MpString) : MpAccSettings :=
      ⟨[104], 5061, user, 0, .MP_NETWORK_UNREACHABLE, true⟩
    let ans : Answers := ⟨fun _ => true, 0, 0⟩
    (exec System.step System.new [.login ans (settings [97]), .login ans (settings [98])]).map
      (fun s => (s.account.map MpAccSettings.userName_, s.user.accSettings_.userName_)) =
        some (some [97], [98]) := by
  decide +kernel

/-! ## What the callbacks believe -/

/-- Everybody on a list has been told the same. -/
theorem lastTold_append (told : List Told) (cbs : List MpIRegistration)
    (userStatus : mp_online_state_t) (cb : MpIRegistration) :
    lastTold (told ++ cbs.map fun cb => ⟨cb, userStatus⟩) cb =
      if cb ∈ cbs then some userStatus else lastTold told cb := by
  unfold lastTold
  rw [List.foldl_append, List.foldl_map]
  generalize told.foldl _ none = last
  induction cbs generalizing last with
  | nil => rfl
  | cons c cbs ih =>
      rw [List.foldl_cons, ih]
      by_cases hrest : cb ∈ cbs
      · simp [hrest]
      · by_cases hc : c = cb
        · simp [hc]
        · have hne : cb ≠ c := fun heq => hc heq.symm
          simp [hrest, hc, hne]

/-- The stack is started, and online is what was asked for. -/
def Online (s : System) : Prop := s.service.started_ = true ∧ s.user.reqStatus_ = MP_ONLINE

/-- Who is registered and has been told to be online is. -/
def ToldOnline (s : System) : Prop :=
  ∀ cb ∈ s.user.regCb_, lastTold s.told cb = some MP_ONLINE → Online s

/-- What must not happen: that a status of 200 or 0 is reported to somebody while
online is asked for and the stack is not started, as it is for an account that a
failed start has left behind; and that a callback comes back that has missed a
logout. -/
def Timely (s : System) : Event → Prop
  | .on_reg_state status => (status = 200 ∨ status = 0) → s.user.reqStatus_ = MP_ONLINE →
      s.user.regCb_ ≠ [] → s.service.started_ = true
  | .addRegCallback reg => reg ≠ 0 → reg ∉ s.missed
  | _ => True

/-- Believing to be online is wrong for those who have missed a logout, and for
nobody else. -/
structure Remembers (s : System) : Prop where
  believers : ∀ cb, lastTold s.told cb = some MP_ONLINE → Online s ∨ cb ∈ s.missed
  missed : ∀ cb ∈ s.missed,
    lastTold s.told cb = some MP_ONLINE ∧ cb ∉ s.user.regCb_ ∧ ¬ Online s

section Belief

variable {s s' : System}

theorem remembers_new : Remembers System.new where
  believers _ h := by cases h
  missed _ h := by cases h

theorem Remembers.toldOnline (h : Remembers s) : ToldOnline s := by
  intro cb hcb hlast
  exact (h.believers cb hlast).resolve_right fun hmissed => (h.missed cb hmissed).2.1 hcb

/-- Those who are on a list have been told something. -/
theorem mem_told_of_lastTold {told : List Told} {cb : MpIRegistration}
    {userStatus : mp_online_state_t} (h : lastTold told cb = some userStatus) :
    cb ∈ told.map Told.cb := by
  by_contra hnot
  have hskip : ∀ t ∈ told, t.cb ≠ cb := fun t ht heq => hnot (List.mem_map.2 ⟨t, ht, heq⟩)
  have hnone : lastTold told cb = none :=
    List.foldlRecOn (motive := fun last => last = none) told _ rfl fun last hlast t ht => by
      rw [if_neg (hskip t ht), hlast]
  rw [hnone] at h
  cases h

/-- A login tells nobody anything; who has missed a logout may come back when it
succeeds. -/
private theorem remembers_login {ans : Answers} {accSettings : MpAccSettings} (h : Remembers s)
    (hstep : s.step (.login ans accSettings) = some s') : Remembers s' := by
  have hlogin := step_login hstep
  have hnot : s'.service.started_ = false → ¬ Online s := by
    rintro hstopped' ⟨hstarted, -⟩
    rcases hlogin.outcome with ⟨-, hstarted', -⟩ | ⟨hstopped, -⟩
    · rw [hstopped'] at hstarted'
      cases hstarted'
    · rw [hstopped] at hstarted
      cases hstarted
  cases hstarted' : s'.service.started_ with
  | true =>
      have hmissed : s'.missed = [] := by rw [hlogin.missed, if_pos hstarted']
      refine ⟨fun _ _ => Or.inl ⟨hstarted', hlogin.reqStatus⟩, fun cb hcb => ?_⟩
      rw [hmissed] at hcb
      cases hcb
  | false =>
      have hmissed : s'.missed = s.missed := by
        rw [hlogin.missed, hstarted', if_neg Bool.false_ne_true]
      constructor
      · intro cb hlast
        rw [hlogin.told] at hlast
        rw [hmissed]
        exact Or.inr ((h.believers cb hlast).resolve_left (hnot hstarted'))
      · intro cb hcb
        rw [hmissed] at hcb
        obtain ⟨hlast, hregistered, -⟩ := h.missed cb hcb
        rw [hlogin.told, hlogin.regCb]
        exact ⟨hlast, hregistered, fun honline => by rw [honline.1] at hstarted'; cases hstarted'⟩

/-- Whoever is registered hears of a logout, and the others are remembered. -/
private theorem remembers_logout {ans : Answers} (h : Remembers s)
    (hstep : s.step (.logout ans) = some s') : Remembers s' := by
  have hlogout := step_logout hstep
  have hlast : ∀ cb, lastTold s'.told cb = some MP_ONLINE ↔
      lastTold s.told cb = some MP_ONLINE ∧ cb ∉ s.user.regCb_ := by
    intro cb
    rw [hlogout.told, lastTold_append]
    by_cases hcb : cb ∈ s.user.regCb_ <;> simp [hcb]
  have hoffline : ¬ Online s' := by
    rintro ⟨-, honline⟩
    rw [hlogout.reqStatus] at honline
    cases honline
  constructor
  · intro cb hbelieves
    obtain ⟨hbefore, hregistered⟩ := (hlast cb).1 hbelieves
    refine Or.inr ?_
    rw [hlogout.missed]
    exact List.mem_append_right _
      (List.mem_filter.2 ⟨mem_told_of_lastTold hbefore, by simp [hbefore, hregistered]⟩)
  · intro cb hcb
    rw [hlogout.missed] at hcb
    rw [hlogout.regCb, hlast]
    obtain hcb | hcb := List.mem_append.1 hcb
    · obtain ⟨hbefore, hregistered, -⟩ := h.missed cb hcb
      exact ⟨⟨hbefore, hregistered⟩, hregistered, hoffline⟩
    · have habsent := of_decide_eq_true (List.mem_filter.1 hcb).2
      exact ⟨habsent, habsent.2, hoffline⟩

/-- A report to everybody who is registered. -/
private theorem remembers_report (h : Remembers s) (userStatus : mp_online_state_t)
    (hright : userStatus = MP_ONLINE → s.user.regCb_ ≠ [] → Online s) :
    Remembers { s with told := s.told ++ s.user.regCb_.map fun cb => ⟨cb, userStatus⟩ } := by
  constructor
  · intro cb hlast
    change Online s ∨ cb ∈ s.missed
    change lastTold (s.told ++ _) cb = _ at hlast
    rw [lastTold_append] at hlast
    split at hlast
    · next hcb => exact Or.inl (hright (Option.some.inj hlast) (List.ne_nil_of_mem hcb))
    · exact h.believers cb hlast
  · intro cb hcb
    obtain ⟨hlast, hregistered, honline⟩ := h.missed cb hcb
    refine ⟨?_, hregistered, honline⟩
    change lastTold (s.told ++ _) cb = _
    rw [lastTold_append, if_neg hregistered]
    exact hlast

/-- What is reported for a status. -/
theorem on_reg_state_eq (u : MpUserAccount) (status : Nat) :
    Account.on_reg_state u status = u.regCb_.map fun cb =>
      ⟨cb, if status = 200 ∨ status = 0 then u.reqStatus_ else MP_OFFLINE⟩ := by
  unfold Account.on_reg_state
  split <;> rfl

theorem Remembers.step {e : Event} (h : Remembers s) (hstep : s.step e = some s')
    (htimely : Timely s e) : Remembers s' := by
  cases e with
  | login ans accSettings => exact remembers_login h hstep
  | logout ans => exact remembers_logout h hstep
  | on_reg_state status =>
      rw [step_on_reg_state hstep, on_reg_state_eq]
      refine remembers_report h _ ?_
      intro honline hne
      split at honline
      · next hok => exact ⟨htimely hok honline hne, honline⟩
      · cases honline
  | addRegCallback reg =>
      cases hstep
      unfold Account.addRegCallback
      split
      · exact h
      · next hreg =>
        refine ⟨h.believers, fun cb hcb => ?_⟩
        obtain ⟨hlast, hregistered, honline⟩ := h.missed cb hcb
        refine ⟨hlast, ?_, honline⟩
        rw [List.mem_append, List.mem_singleton, not_or]
        exact ⟨hregistered, fun heq => htimely hreg (heq ▸ hcb)⟩
  | rmRegCallback reg =>
      cases hstep
      unfold Account.rmRegCallback
      split
      · exact h
      · refine ⟨h.believers, fun cb hcb => ?_⟩
        obtain ⟨hlast, hregistered, honline⟩ := h.missed cb hcb
        exact ⟨hlast, fun hmem => hregistered (List.mem_of_mem_erase hmem), honline⟩

/-- An event that is not timely makes somebody believe what is wrong. -/
theorem timely_of_toldOnline {e : Event} (h : Remembers s) (hstep : s.step e = some s')
    (hafter : ToldOnline s') : Timely s e := by
  cases e with
  | on_reg_state status =>
      rw [step_on_reg_state hstep] at hafter
      intro hok honline hne
      obtain ⟨cb, hcb⟩ := List.exists_mem_of_ne_nil _ hne
      have hlast : lastTold (s.told ++ Account.on_reg_state s.user status) cb =
          some MP_ONLINE := by
        rw [on_reg_state_eq, if_pos hok, lastTold_append, if_pos hcb, honline]
      exact (hafter cb hcb hlast).1
  | addRegCallback reg =>
      cases hstep
      intro hreg hmissed
      obtain ⟨hlast, -, honline⟩ := h.missed reg hmissed
      unfold Account.addRegCallback at hafter
      rw [if_neg hreg] at hafter
      exact honline (hafter reg (by simp) hlast)
  | login | logout | rmRegCallback => trivial

end Belief

/-- **Who believes to be online is**: in every state of a run the stack is started
and online is what was asked for, whenever a registered callback was told so
last; exactly where nobody is told of a status of 200 or 0 while online is asked
for and the stack is not started, and no callback comes back that has missed a
logout and not seen a login succeed since. -/
theorem told_online_iff (es : List Event) :
    Steps System.step (fun _ _ s' => ToldOnline s') System.new es ↔
      Steps System.step (fun s e _ => Timely s e) System.new es := by
  refine steps_iff_of_inv (E := fun _ => True) ?_ ?_ remembers_new fun _ _ => trivial
  · intro s e s' hs _ hstep
    constructor
    · exact timely_of_toldOnline hs hstep
    · exact fun htimely => (hs.step hstep htimely).toldOnline
  · intro s e s' hs _ hstep htimely
    exact hs.step hstep htimely

/-- A login fails behind `pjsua_acc_add`, the registrar answers, and the callback
is told to be online. -/
example :
    let settings : MpAccSettings := ⟨[104], 5061, [97], 0, .MP_NETWORK_UNREACHABLE, true⟩
    let ans : Answers := ⟨fun c => c ≠ .acc_set_online_status, 0, 0⟩
    (exec System.step System.new
      [.addRegCallback 7, .login ans settings, .on_reg_state 200]).map
      (fun s => (s.service.started_, lastTold s.told 7)) = some (false, some MP_ONLINE) := by
  decide +kernel

end EndToEndSmkex.UserAccount.Account
