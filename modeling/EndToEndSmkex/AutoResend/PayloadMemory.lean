import EndToEndSmkex.Utils.Buffer

/-!
# The memory of messages

An `MpMsgPayload` owns one buffer.  Its copy constructor and `operator=` go
through `getPayload`, which returns a temporary.  Here the messages of a program
are named by `ι`, and the temporary is `none`.

The constructor puts the type byte in front, so that no message holds an empty
block, the one kind of block a buffer forgets.

## Main results

* `messages_are_values` — messages are values, and no memory is lost.
-/

namespace EndToEndSmkex.AutoResend.PayloadMemory

open EndToEndSmkex.AutoResend.MsgPayload
open EndToEndSmkex.Lib.CBuffer
open EndToEndSmkex.Lib.Heaps
open EndToEndSmkex.Lib.Run
open EndToEndSmkex.Utils.Buffer

inductive MsgOp (ι : Type) where
  | new (o : ι) (messageType : mp_msg_type_t) (payload : Bytes)
  | copy (o msgPayload : ι)
  | assign (o msgPayload : ι)
  | getTransportPayload (o : ι)
  | delete (o : ι)

/-- `setPayload` of a message, after the constructor of its buffer. -/
def newPayload {ι : Type} (o : ι) (messageType : mp_msg_type_t) (payload : Bytes) :
    List (Op (Option ι)) :=
  [.ctor (some o),
    .setPayload (some o) (some (setPayload messageType payload))
      (UInt32.ofNat payload.length + 1)]

/-- `payload_ = msgPayload.getPayload()`. -/
def copyMsgPayload {ι : Type} (o msgPayload : ι) : List (Op (Option ι)) :=
  [.copyCtor none (some msgPayload), .assign (some o) none, .dtor none]

variable {ι : Type} [DecidableEq ι]

def step (s : Memory (Option ι)) : MsgOp ι → Option (Memory (Option ι))
  | .new o messageType payload =>
    -- for a longer payload the length wraps around and the type byte is written out of bounds
    if payload.length + 1 < 2 ^ 32 then
      exec Memory.step s (newPayload o messageType payload)
    else none
  | .copy o msgPayload =>
    -- no object is copied while it is being constructed
    if o = msgPayload then none
    else exec Memory.step s (.ctor (some o) :: copyMsgPayload o msgPayload)
  | .assign o msgPayload =>
    if o = msgPayload then (s.objects (some o)).map fun _ => s
    else exec Memory.step s (copyMsgPayload o msgPayload)
  | .getTransportPayload o => exec Memory.step s [.copyCtor none (some o), .dtor none]
  | .delete o => exec Memory.step s [.dtor (some o)]

/-! ## Messages as values -/

/-- What the messages hold. -/
abbrev Messages (ι : Type) := ι → Option Bytes

def Messages.step (m : Messages ι) : MsgOp ι → Option (Messages ι)
  | .new o messageType payload =>
    if payload.length + 1 < 2 ^ 32 ∧ m o = none then
      some (Function.update m o (some (setPayload messageType payload)))
    else none
  | .copy o msgPayload =>
    if m o = none then (m msgPayload).map fun x => Function.update m o (some x) else none
  | .assign o msgPayload =>
    if m o = none then none
    else (m msgPayload).map fun x => Function.update m o (some x)
  | .getTransportPayload o => (m o).map fun _ => m
  | .delete o => if m o = none then none else some (Function.update m o none)

/-- The messages in memory. -/
def contents (s : Memory (Option ι)) : Messages ι := fun o => (s.values (some o)).join

/-- No temporary is left, and every message has its block. -/
def held (m : Messages ι) : Values (Option ι) := fun o => (o.bind m).map some

/-- Memory that holds these messages and nothing else. -/
structure Holds (s : Memory (Option ι)) (m : Messages ι) : Prop where
  valid : Valid s
  leakFree : LeakFree s.heap s.owns
  values : s.values = held m
  nonempty : ∀ o, m o ≠ some []

omit [DecidableEq ι] in
theorem Holds.contents {s : Memory (Option ι)} {m : Messages ι} (hm : Holds s m) :
    contents s = m := by
  funext o
  simp only [PayloadMemory.contents, hm.values, held, Option.bind_some]
  cases m o with
  | none => rfl
  | some bytes => rfl

omit [DecidableEq ι] in
theorem holds_new : Holds (Memory.new : Memory (Option ι)) fun _ => none where
  valid := valid_new
  leakFree := leakFree_empty
  values := by
    funext o
    cases o with
    | none => rfl
    | some o => rfl
  nonempty _ := nofun

theorem held_update (m : Messages ι) (o : ι) (x : Option Bytes) :
    held (Function.update m o x) = Function.update (held m) (some o) (x.map some) := by
  funext j
  cases j with
  | none => simp [held]
  | some j =>
    by_cases hj : j = o
    · simp [held, hj]
    · have hne : some j ≠ some o := fun h => hj (Option.some.inj h)
      simp [held, hj, hne]

section Operations

variable {s s' : Memory (Option ι)} {m m' : Messages ι} {o : ι}

/-- The operation cannot be made on the messages nor in memory, or it is the
same in both. -/
def Follows (s : Memory (Option ι)) (m : Messages ι) (e : MsgOp ι) : Prop :=
  (step s e = none ∧ m.step e = none) ∨
    ∃ s' m', step s e = some s' ∧ m.step e = some m' ∧ Holds s' m'

/-- A row of operations on buffers that is right on values is right in memory. -/
theorem exec_of_holds {ops : List (Op (Option ι))} (hm : Holds s m)
    (hops : exec Values.step (held m) ops = some (held m'))
    (hkeeps : Steps Values.step (fun v e _ => ¬ v.forgets e) (held m) ops)
    (hnonempty : ∀ o, m' o ≠ some []) :
    ∃ s', exec Memory.step s ops = some s' ∧ Holds s' m' := by
  rw [← hm.values] at hops hkeeps
  obtain ⟨s', hs', hvalid, hfree, hvalues⟩ := exec_of_values hm.valid hm.leakFree hops hkeeps
  exact ⟨s', hs', hvalid, hfree, hvalues, hnonempty⟩

theorem exec_eq_none {ops : List (Op (Option ι))} (hm : Holds s m)
    (hops : exec Values.step (held m) ops = none) : exec Memory.step s ops = none := by
  rw [← hm.values, ← exec_map (fun _ e hs => step_eq_values hs e)
    (fun _ _ _ hs hstep => (step_valid hs hstep).1) hm.valid, Option.map_eq_none_iff] at hops
  exact hops

/-- A row of operations that is made without forgetting anything. -/
def Makes (v : Values (Option ι)) (ops : List (Op (Option ι))) (v' : Values (Option ι)) : Prop :=
  exec Values.step v ops = some v' ∧ Steps Values.step (fun v e _ => ¬ v.forgets e) v ops

theorem makes_nil (v : Values (Option ι)) : Makes v [] v := ⟨rfl, trivial⟩

theorem Makes.cons {v v₁ v₂ : Values (Option ι)} {e : Op (Option ι)} {ops : List (Op (Option ι))}
    (hops : Makes v₁ ops v₂) (hstep : v.step e = some v₁) (hkeeps : ¬ v.forgets e) :
    Makes v (e :: ops) v₂ := by
  refine ⟨by rw [exec_cons, hstep, Option.bind_some, hops.1], fun v' hv' => ?_⟩
  rw [hstep, Option.some.injEq] at hv'
  exact ⟨hkeeps, hv' ▸ hops.2⟩

theorem makes_newPayload {messageType : mp_msg_type_t} {payload : Bytes} (ho : m o = none)
    (hlen : payload.length + 1 < 2 ^ 32) :
    Makes (held m) (newPayload o messageType payload)
      (held (Function.update m o (some (setPayload messageType payload)))) := by
  have hnat : (UInt32.ofNat payload.length + 1).toNat = payload.length + 1 := by
    rw [UInt32.toNat_add, UInt32.toNat_ofNat', UInt32.toNat_one]
    omega
  have hwhole : external (setPayload messageType payload) (UInt32.ofNat payload.length + 1) =
      some (setPayload messageType payload) := by
    have hsize : (setPayload messageType payload).length = payload.length + 1 := rfl
    rw [external, hnat, ← hsize, List.take_length, if_pos (Nat.le_refl _)]
  have hnonzero : UInt32.ofNat payload.length + 1 ≠ 0 := by
    intro hzero
    rw [hzero] at hnat
    cases hnat
  rw [held_update]
  have hctor : (held m).step (.ctor (some o)) =
      some (Function.update (held m) (some o) (some none)) := by
    simp [Values.step, held, ho]
  refine ((makes_nil _).cons ?_ id).cons hctor id
  simp [Values.step, hnonzero, hwhole]

theorem makes_copyMsgPayload {v : Values (Option ι)} {msgPayload : ι} {bytes : Bytes}
    {x : Option Bytes} (hnone : v none = none) (ho : v (some o) = some x) (hx : x ≠ some [])
    (hv : v (some msgPayload) = some (some bytes)) (hbytes : bytes ≠ []) :
    Makes v (copyMsgPayload o msgPayload) (Function.update v (some o) (some (some bytes))) := by
  -- the temporary, the assignment, and the values without the temporary
  let v₁ : Values (Option ι) := Function.update v none (some (some bytes))
  let v₂ : Values (Option ι) := Function.update v₁ (some o) (some (some bytes))
  have ho₁ : v₁ (some o) = some x := by simp [v₁, ho]
  have htemp₂ : v₂ none = some (some bytes) := by simp [v₂, v₁]
  have hcopy : v.step (.copyCtor none (some msgPayload)) = some v₁ := by
    simp [Values.step, hnone, hv, v₁]
  have hassign : v₁.step (.assign (some o) none) = some v₂ := by
    simp [Values.step, v₁, v₂, ho]
  have hdtor : v₂.step (.dtor none) =
      some (Function.update v (some o) (some (some bytes))) := by
    have hback : Function.update v₂ none none = Function.update v (some o) (some (some bytes)) := by
      rw [Function.update_comm (by simp), Function.update_idem, ← hnone,
        Function.update_eq_self]
    simp [Values.step, htemp₂, hback]
  refine (((makes_nil _).cons hdtor ?_).cons hassign ?_).cons hcopy id
  · simp [Values.forgets, htemp₂, hbytes]
  · simp [Values.forgets, ho₁, hx]

omit [DecidableEq ι] in
theorem Holds.ne_nil (hm : Holds s m) {bytes : Bytes} (ho : m o = some bytes) : bytes ≠ [] := by
  rintro rfl
  exact hm.nonempty o ho

theorem Holds.update_nonempty (hm : Holds s m) {bytes : Bytes} (hbytes : bytes ≠ []) (j : ι) :
    Function.update m o (some bytes) j ≠ some [] := by
  by_cases hj : j = o
  · rw [hj, Function.update_self]
    exact fun h => hbytes (Option.some.inj h)
  · rw [Function.update_of_ne hj]
    exact hm.nonempty j

/-- The operations that are made on buffers alone. -/
theorem follows_of_makes {e : MsgOp ι} {ops : List (Op (Option ι))} (hm : Holds s m)
    (hmemory : step s e = exec Memory.step s ops) (hvalues : m.step e = some m')
    (hmakes : Makes (held m) ops (held m')) (hnonempty : ∀ o, m' o ≠ some []) :
    Follows s m e := by
  obtain ⟨s', hs', hholds⟩ := exec_of_holds hm hmakes.1 hmakes.2 hnonempty
  exact .inr ⟨s', m', hmemory.trans hs', hvalues, hholds⟩

theorem follows_of_none {e : MsgOp ι} {ops : List (Op (Option ι))} (hm : Holds s m)
    (hmemory : step s e = exec Memory.step s ops) (hvalues : m.step e = none)
    (hops : exec Values.step (held m) ops = none) : Follows s m e :=
  .inl ⟨hmemory.trans (exec_eq_none hm hops), hvalues⟩

theorem follows_new (hm : Holds s m) {messageType : mp_msg_type_t} {payload : Bytes} :
    Follows s m (.new o messageType payload) := by
  by_cases hlen : payload.length + 1 < 2 ^ 32
  · have hmemory : step s (.new o messageType payload) =
        exec Memory.step s (newPayload o messageType payload) := if_pos hlen
    cases ho : m o with
    | some bytes =>
      refine follows_of_none hm hmemory (by simp [Messages.step, ho]) ?_
      simp [newPayload, exec_cons, Values.step, held, ho]
    | none =>
      exact follows_of_makes hm hmemory (if_pos ⟨hlen, ho⟩) (makes_newPayload ho hlen)
        (hm.update_nonempty (List.cons_ne_nil _ _))
  · exact .inl ⟨if_neg hlen, if_neg fun h => hlen h.1⟩

theorem follows_copy (hm : Holds s m) {msgPayload : ι} : Follows s m (.copy o msgPayload) := by
  by_cases hself : o = msgPayload
  · refine .inl ⟨if_pos hself, ?_⟩
    cases ho : m o with
    | none => simp [Messages.step, ← hself, ho]
    | some bytes => simp [Messages.step, ho]
  · have hmemory : step s (.copy o msgPayload) =
        exec Memory.step s (.ctor (some o) :: copyMsgPayload o msgPayload) := if_neg hself
    cases ho : m o with
    | some bytes =>
      refine follows_of_none hm hmemory (by simp [Messages.step, ho]) ?_
      simp [exec_cons, Values.step, held, ho]
    | none =>
      have hne : msgPayload ≠ o := Ne.symm hself
      cases hp : m msgPayload with
      | none =>
        refine follows_of_none hm hmemory (by simp [Messages.step, hp]) ?_
        simp [copyMsgPayload, exec_cons, Values.step, held, ho, hp, hne]
      | some bytes =>
        have hbytes : bytes ≠ [] := hm.ne_nil hp
        have hctor : (held m).step (.ctor (some o)) =
            some (Function.update (held m) (some o) (some none)) := by
          simp [Values.step, held, ho]
        have hsource : Function.update (held m) (some o) (some none) (some msgPayload) =
            some (some bytes) := by
          simp [held, hp, hne]
        have hcopy := makes_copyMsgPayload (o := o) (x := none) (by simp [held]) (by simp)
          (by simp)
          hsource hbytes
        rw [Function.update_idem] at hcopy
        have hvalues : m.step (.copy o msgPayload) = some (Function.update m o (some bytes)) := by
          simp [Messages.step, ho, hp]
        refine follows_of_makes hm hmemory hvalues ?_ (hm.update_nonempty hbytes)
        rw [held_update]
        exact hcopy.cons hctor id

theorem follows_assign (hm : Holds s m) {msgPayload : ι} :
    Follows s m (.assign o msgPayload) := by
  by_cases hself : o = msgPayload
  · have hmemory : step s (.assign o msgPayload) = (s.objects (some o)).map fun _ => s :=
      if_pos hself
    subst hself
    have hvalue : s.values (some o) = (m o).map some := by rw [hm.values, held, Option.bind_some]
    cases hb : s.objects (some o) with
    | none =>
      rw [values_eq_none hb, eq_comm, Option.map_eq_none_iff] at hvalue
      exact .inl ⟨by rw [hmemory, hb, Option.map_none], by simp [Messages.step, hvalue]⟩
    | some b =>
      cases ho : m o with
      | none =>
        rw [ho, Option.map_none] at hvalue
        exact absurd hvalue (values_ne_none hb)
      | some bytes =>
        refine .inr ⟨s, m, by rw [hmemory, hb, Option.map_some], ?_, hm⟩
        rw [Messages.step, if_neg (by simp [ho]), ho, Option.map_some, ← ho,
          Function.update_eq_self]
  · have hmemory : step s (.assign o msgPayload) =
        exec Memory.step s (copyMsgPayload o msgPayload) := if_neg hself
    cases hp : m msgPayload with
    | none =>
      refine follows_of_none hm hmemory (by simp [Messages.step, hp]) ?_
      simp [copyMsgPayload, exec_cons, Values.step, held, hp]
    | some bytes =>
      cases ho : m o with
      | none =>
        refine follows_of_none hm hmemory (by simp [Messages.step, ho]) ?_
        simp [copyMsgPayload, exec_cons, Values.step, held, ho, hp]
      | some old =>
        have hvalues : m.step (.assign o msgPayload) = some (Function.update m o (some bytes)) := by
          simp [Messages.step, ho, hp]
        refine follows_of_makes hm hmemory hvalues ?_ (hm.update_nonempty (hm.ne_nil hp))
        rw [held_update]
        refine makes_copyMsgPayload (x := some old) (by simp [held]) (by simp [held, ho]) ?_
          (by simp [held, hp]) (hm.ne_nil hp)
        exact fun h => hm.ne_nil ho (Option.some.inj h)

theorem follows_getTransportPayload (hm : Holds s m) : Follows s m (.getTransportPayload o) := by
  have hmemory : step s (.getTransportPayload o) =
      exec Memory.step s [.copyCtor none (some o), .dtor none] := rfl
  cases ho : m o with
  | none =>
    refine follows_of_none hm hmemory (by simp [Messages.step, ho]) ?_
    simp [exec_cons, Values.step, held, ho]
  | some bytes =>
    have hback : Function.update (held m) none none = held m :=
      Function.update_eq_self_iff.mpr (by simp [held])
    have hvalues : m.step (.getTransportPayload o) = some m := by simp [Messages.step, ho]
    have hcopy : (held m).step (.copyCtor none (some o)) =
        some (Function.update (held m) none (some (some bytes))) := by
      simp [Values.step, held, ho]
    refine follows_of_makes hm hmemory hvalues ?_ hm.nonempty
    refine ((makes_nil _).cons ?_ ?_).cons hcopy id
    · simp [Values.step, hback]
    · simp [Values.forgets, hm.ne_nil ho]

theorem follows_delete (hm : Holds s m) : Follows s m (.delete o) := by
  have hmemory : step s (.delete o) = exec Memory.step s [.dtor (some o)] := rfl
  cases ho : m o with
  | none =>
    refine follows_of_none hm hmemory (if_pos ho) ?_
    simp [exec_cons, Values.step, held, ho]
  | some bytes =>
    have hbytes : bytes ≠ [] := hm.ne_nil ho
    have hvalues : m.step (.delete o) = some (Function.update m o none) := by
      simp [Messages.step, ho]
    refine follows_of_makes hm hmemory hvalues ?_ fun j => ?_
    · rw [held_update]
      refine (makes_nil _).cons ?_ ?_
      · simp [Values.step, held, ho]
      · simp [Values.forgets, held, ho, hbytes]
    · by_cases hj : j = o
      · simp [hj]
      · rw [Function.update_of_ne hj]
        exact hm.nonempty j

theorem follows (hm : Holds s m) : ∀ e : MsgOp ι, Follows s m e
  | .new .. => follows_new hm
  | .copy .. => follows_copy hm
  | .assign .. => follows_assign hm
  | .getTransportPayload _ => follows_getTransportPayload hm
  | .delete _ => follows_delete hm

theorem follows_exec :
    ∀ (es : List (MsgOp ι)) {s : Memory (Option ι)} {m : Messages ι}, Holds s m →
      (exec step s es = none ∧ exec Messages.step m es = none) ∨
        ∃ s' m', exec step s es = some s' ∧ exec Messages.step m es = some m' ∧ Holds s' m' := by
  intro es
  induction es with
  | nil =>
    intro s m hm
    exact .inr ⟨s, m, rfl, rfl, hm⟩
  | cons e es ih =>
    intro s m hm
    obtain ⟨hmemory, hvalues⟩ | ⟨s₁, m₁, hmemory, hvalues, hm₁⟩ := follows hm e
    · exact .inl ⟨by rw [exec_cons, hmemory]; rfl, by rw [exec_cons, hvalues]; rfl⟩
    · rw [exec_cons, exec_cons, hmemory, hvalues, Option.bind_some, Option.bind_some]
      exact ih hm₁

end Operations

/-- **Messages are values.**  However messages are built, copied, assigned, sent
and destroyed, each holds its type byte and payload until it is assigned to or
destroyed, and every block belongs to one of them. -/
theorem messages_are_values (es : List (MsgOp ι)) :
    (exec step Memory.new es).map contents = exec Messages.step (fun _ => none) es ∧
      ∀ s, exec step Memory.new es = some s →
        LeakFree s.heap s.owns ∧ Apart s.heap s.owns ∧ s.owns none = none := by
  obtain ⟨hmemory, hvalues⟩ | ⟨s, m, hmemory, hvalues, hm⟩ := follows_exec es holds_new
  · refine ⟨by rw [hmemory, hvalues, Option.map_none], fun s hs => ?_⟩
    rw [hmemory] at hs
    cases hs
  · refine ⟨by rw [hmemory, hvalues, Option.map_some, hm.contents], fun t ht => ?_⟩
    rw [hmemory, Option.some.injEq] at ht
    subst ht
    refine ⟨hm.leakFree, hm.valid.apart, ?_⟩
    have hnone : s.values none = none := by
      rw [hm.values]
      rfl
    cases hb : s.objects none with
    | none => simp [Memory.owns, hb]
    | some b => exact absurd hnone (values_ne_none hb)

end EndToEndSmkex.AutoResend.PayloadMemory
