import EndToEndSmkex.AutoResend.MsgPayload
import EndToEndSmkex.Lib.Heaps
import EndToEndSmkex.Lib.Run

/-!
# Buffers that own their memory

An `MpBuffer` is a pointer and a length.  The objects of a program are named by
`ι`; what they point to is a heap.  An operation is `none` where it would free
or touch memory that is not there, or works on an object that has not been
constructed or constructs it twice.

An empty buffer that is copied gets a block of its own, of length 0.  The
destructor and `operator=` free a block only if the length is positive.

## Main results

* `step_eq_values` — buffers are values: one operation changes one object, and
  never fails where the program may use it.
* `leaks_iff` — memory is lost exactly where an empty buffer with a block goes.
-/

namespace EndToEndSmkex.Utils.Buffer

open EndToEndSmkex.Lib.CBuffer
open EndToEndSmkex.Lib.Heaps
open EndToEndSmkex.Lib.Run

/-! ## The class -/

structure MpBuffer where
  payload_ : Option Nat
  len_ : UInt32
  deriving DecidableEq

/-- What a `memcpy` of `len` bytes reads from the caller's memory. -/
def external (payload : Bytes) (len : UInt32) : Option Bytes :=
  if len.toNat ≤ payload.length then some (payload.take len.toNat) else none

/-- What it reads from another buffer; nothing is read from a null pointer. -/
def MpBuffer.load (b : MpBuffer) (h : Heap UInt8) : Option Bytes :=
  match b.payload_ with
  | none => if b.len_ = 0 then some [] else none
  | some a => h.read a b.len_.toNat

/-- `new uint8_t[len]` and the `memcpy` into it. -/
def newCopy (h : Heap UInt8) (len : UInt32) (source : Heap UInt8 → Option Bytes) :
    Option (Nat × Heap UInt8) :=
  let (payload, h) := h.alloc (List.replicate len.toNat 0)
  (source h).bind fun bytes => (h.write payload bytes).map fun h => (payload, h)

/-- `MP_FREE_CHAR_ARRAY`: a null pointer may be deleted. -/
def freeCharArray (h : Heap UInt8) (payload : Option Nat) : Option (Heap UInt8) :=
  match payload with
  | none => some h
  | some a => h.free a

/-- The test in the destructor and in `operator=`. -/
def MpBuffer.release (b : MpBuffer) (h : Heap UInt8) : Option (Heap UInt8) :=
  if 0 < b.len_ ∧ b.payload_ ≠ none then freeCharArray h b.payload_ else some h

/-- `operator==` compares `len_` bytes of both. -/
def MpBuffer.eq (b buffer : MpBuffer) (h : Heap UInt8) : Option Bool :=
  (b.load h).bind fun xs =>
    (({ buffer with len_ := b.len_ } : MpBuffer).load h).map fun ys => xs == ys

/-! ## A program with buffers -/

/-- The heap and the objects that have been constructed and not destroyed. -/
structure Memory (ι : Type) where
  heap : Heap UInt8
  objects : ι → Option MpBuffer

inductive Op (ι : Type) where
  | ctor (o : ι)
  | ctorPayload (o : ι) (payload : Bytes) (len : UInt32)
  | copyCtor (o buffer : ι)
  | assign (o buffer : ι)
  | setPayload (o : ι) (payload : Option Bytes) (payloadLen : UInt32)
  | dtor (o : ι)

variable {ι : Type}

section Operations

variable [DecidableEq ι]

def Memory.new : Memory ι := ⟨Heap.empty, fun _ => none⟩

/-- The object gets a new block. -/
def Memory.fill (s : Memory ι) (o : ι) (h : Heap UInt8) (len : UInt32)
    (source : Heap UInt8 → Option Bytes) : Option (Memory ι) :=
  (newCopy h len source).map fun p =>
    { heap := p.2, objects := Function.update s.objects o (some ⟨some p.1, len⟩) }

def Memory.step (s : Memory ι) : Op ι → Option (Memory ι)
  | .ctor o =>
    match s.objects o with
    | some _ => none
    | none => some { s with objects := Function.update s.objects o (some ⟨none, 0⟩) }
  | .ctorPayload o payload len =>
    match s.objects o with
    | some _ => none
    | none => s.fill o s.heap len fun _ => external payload len
  | .copyCtor o buffer =>
    match s.objects o, s.objects buffer with
    | none, some b => s.fill o s.heap b.len_ b.load
    | _, _ => none
  | .assign o buffer =>
    match s.objects o, s.objects buffer with
    | some this, some b =>
      if o = buffer then some s
      else (this.release s.heap).bind fun h => s.fill o h b.len_ b.load
    | _, _ => none
  | .setPayload o payload payloadLen =>
    match s.objects o, payload with
    | none, _ => none
    | some _, none => some s
    | some this, some payload =>
      if payloadLen = 0 then some s
      else (freeCharArray s.heap this.payload_).bind fun h =>
        s.fill o h payloadLen fun _ => external payload payloadLen
  | .dtor o =>
    match s.objects o with
    | none => none
    | some this => (this.release s.heap).map fun heap =>
        { heap, objects := Function.update s.objects o none }

/-! ## Buffers as values -/

/-- What the objects hold: nothing before the constructor, a null pointer, or a
block of bytes. -/
abbrev Values (ι : Type) := ι → Option (Option Bytes)

/-- The same operations on values.  A copy is never a null pointer. -/
def Values.step (v : Values ι) : Op ι → Option (Values ι)
  | .ctor o => if v o = none then some (Function.update v o (some none)) else none
  | .ctorPayload o payload len =>
    if v o = none then
      (external payload len).map fun bytes => Function.update v o (some (some bytes))
    else none
  | .copyCtor o buffer =>
    if v o = none then
      (v buffer).map fun x => Function.update v o (some (some (x.getD [])))
    else none
  | .assign o buffer =>
    if v o = none then none
    else (v buffer).map fun x =>
      if o = buffer then v else Function.update v o (some (some (x.getD [])))
  | .setPayload o payload payloadLen =>
    match v o, payload with
    | none, _ => none
    | some _, none => some v
    | some _, some payload =>
      if payloadLen = 0 then some v
      else (external payload payloadLen).map fun bytes =>
        Function.update v o (some (some bytes))
  | .dtor o => if v o = none then none else some (Function.update v o none)

end Operations

/-- The block an object points to. -/
def Memory.owns (s : Memory ι) (o : ι) : Option Nat := (s.objects o).bind MpBuffer.payload_

/-- What the objects hold in memory. -/
def Memory.values (s : Memory ι) : Values ι := fun o =>
  (s.objects o).map fun b => b.payload_.bind s.heap.block

/-- Everything that is owned lives, has one owner, and is as long as its owner
says. -/
structure Valid (s : Memory ι) : Prop where
  apart : Apart s.heap s.owns
  null : ∀ o b, s.objects o = some b → b.payload_ = none → b.len_ = 0
  sized : ∀ o b a, s.objects o = some b → b.payload_ = some a →
    ∃ bytes, s.heap.block a = some bytes ∧ bytes.length = b.len_.toNat

theorem valid_new : Valid (Memory.new : Memory ι) where
  apart := apart_none
  null _ _ ho := by cases ho
  sized _ _ _ ho := by cases ho

theorem values_eq_none {s : Memory ι} {o : ι} (ho : s.objects o = none) : s.values o = none := by
  simp [Memory.values, ho]

/-! ## Pieces of an operation -/

section Pieces

variable {s : Memory ι} {o : ι} {b : MpBuffer} {h : Heap UInt8} {bytes : Bytes} {len : UInt32}

theorem length_external {payload : Bytes} (hbytes : external payload len = some bytes) :
    bytes.length = len.toNat := by
  unfold external at hbytes
  split at hbytes
  · next hle =>
    cases hbytes
    exact List.length_take_of_le hle
  · cases hbytes

theorem newCopy_spec {source : Heap UInt8 → Option Bytes} (hlen : bytes.length = len.toNat)
    (hsource : source (h.alloc (List.replicate len.toNat 0)).2 = some bytes) :
    ∃ h', newCopy h len source = some (h.next, h') ∧
      h'.block = Function.update h.block h.next (some bytes) := by
  have hblock : (h.alloc (List.replicate len.toNat 0)).2.block h.next =
      some (List.replicate len.toNat 0) := by
    rw [Heap.block_alloc, Function.update_self]
  obtain ⟨h', hwrite, hafter⟩ :=
    Heap.write_of_block hblock (hlen.trans List.length_replicate.symm)
  refine ⟨h', ?_, by rw [hafter, Heap.block_alloc, Function.update_idem]⟩
  have hnext : (h.alloc (List.replicate len.toNat (0 : UInt8))).1 = h.next := rfl
  simp only [newCopy, hsource, Option.bind_some, hnext, hwrite, Option.map_some]

/-- The object that is written to keeps what it points to for itself. -/
def Untouched (s : Memory ι) (o : ι) (h : Heap UInt8) : Prop :=
  ∀ a, s.owns o ≠ some a → h.block a = s.heap.block a

theorem untouched_refl : Untouched s o s.heap := fun _ _ => rfl

/-- What is left of the other objects' blocks when one object is written to. -/
theorem Untouched.others (hs : Valid s) (huntouched : Untouched s o h) {j : ι} {a : Nat}
    (hj : j ≠ o) (ha : s.owns j = some a) : h.block a = s.heap.block a :=
  huntouched a fun ho => hj (hs.apart.single j o a ha ho)

theorem Untouched.ne_next (hs : Valid s) (huntouched : Untouched s o h) {j : ι} {a : Nat}
    (hj : j ≠ o) (ha : s.owns j = some a) : a ≠ h.next := by
  have hlive := hs.apart.live j a ha
  unfold Heap.Live at hlive
  rw [← huntouched.others hs hj ha] at hlive
  exact Heap.Live.ne_next hlive

/-- What another buffer holds is there to be copied. -/
theorem load_alloc (hs : Valid s) (huntouched : Untouched s o h) {j : ι} (hj : j ≠ o)
    (hb : s.objects j = some b) {ys : Bytes} :
    ∃ x, s.values j = some x ∧ (x.getD []).length = b.len_.toNat ∧
      b.load (h.alloc ys).2 = some (x.getD []) := by
  refine ⟨b.payload_.bind s.heap.block, by simp [Memory.values, hb], ?_⟩
  cases hpayload : b.payload_ with
  | none =>
    have hlen : b.len_ = 0 := hs.null j b hb hpayload
    simp [MpBuffer.load, hpayload, hlen]
  | some a =>
    obtain ⟨bytes, hbytes, hlen⟩ := hs.sized j b a hb hpayload
    have howns : s.owns j = some a := by simp [Memory.owns, hb, hpayload]
    have hblock : (h.alloc ys).2.block a = some bytes := by
      rw [Heap.block_alloc, Function.update_of_ne (huntouched.ne_next hs hj howns),
        huntouched.others hs hj howns, hbytes]
    have hread : (h.alloc ys).2.read a bytes.length = some bytes := Heap.read_of_block hblock
    refine ⟨by simp [hbytes, hlen], ?_⟩
    simp [MpBuffer.load, hpayload, hbytes, ← hlen, hread]

/-- `delete[]` on what an object points to. -/
theorem freeCharArray_spec (hs : Valid s) (ho : s.objects o = some b) :
    ∃ h, freeCharArray s.heap b.payload_ = some h ∧ Untouched s o h ∧
      ∀ a, s.owns o = some a → ¬ h.Live a := by
  have howns : s.owns o = b.payload_ := by simp [Memory.owns, ho]
  cases hpayload : b.payload_ with
  | none =>
    refine ⟨s.heap, rfl, untouched_refl, fun a ha => ?_⟩
    rw [howns, hpayload] at ha
    cases ha
  | some a =>
    obtain ⟨h, hfree, hblock⟩ := Heap.free_of_live (hs.apart.live o a (howns.trans hpayload))
    refine ⟨h, hfree, fun c hc => ?_, fun c hc => ?_⟩
    · have hca : c ≠ a := by
        rintro rfl
        exact hc (howns.trans hpayload)
      rw [hblock, Function.update_of_ne hca]
    · rw [howns, hpayload, Option.some.injEq] at hc
      unfold Heap.Live
      rw [hblock, hc, Function.update_self]
      exact nofun

/-- The destructor keeps a block of length 0. -/
theorem release_spec (hs : Valid s) (ho : s.objects o = some b) :
    ∃ h, b.release s.heap = some h ∧ Untouched s o h ∧
      ((∀ a, s.owns o = some a → ¬ h.Live a) ↔ s.values o ≠ some (some [])) := by
  have howns : s.owns o = b.payload_ := by simp [Memory.owns, ho]
  unfold MpBuffer.release
  split
  · next hfrees =>
    obtain ⟨h, hfree, hothers, hdead⟩ := freeCharArray_spec hs ho
    refine ⟨h, hfree, hothers, iff_of_true hdead fun hvalue => ?_⟩
    obtain ⟨a, ha⟩ := Option.ne_none_iff_exists'.mp hfrees.2
    obtain ⟨bytes, hbytes, hlen⟩ := hs.sized o b a ho ha
    have hempty : bytes = [] := by simpa [Memory.values, ho, ha, hbytes] using hvalue
    rw [hempty, List.length_nil] at hlen
    have hpos : 0 < b.len_.toNat := UInt32.lt_iff_toNat_lt.mp hfrees.1
    omega
  · next hkeeps =>
    refine ⟨s.heap, rfl, untouched_refl, ?_⟩
    cases hpayload : b.payload_ with
    | none =>
      refine iff_of_true (fun a ha => ?_) fun hvalue => ?_
      · rw [howns, hpayload] at ha
        cases ha
      · simp [Memory.values, ho, hpayload] at hvalue
    | some a =>
      refine iff_of_false (fun hdead => ?_) fun hvalue => hvalue ?_
      · exact hdead a (howns.trans hpayload) (hs.apart.live o a (howns.trans hpayload))
      · obtain ⟨bytes, hbytes, hlen⟩ := hs.sized o b a ho hpayload
        have hzero : b.len_.toNat = 0 := by
          have hnot : ¬ 0 < b.len_ := fun hpos => hkeeps ⟨hpos, by rw [hpayload]; exact nofun⟩
          rw [UInt32.lt_iff_toNat_lt] at hnot
          exact Nat.eq_zero_of_not_pos hnot
        have hempty : bytes = [] := List.length_eq_zero_iff.mp (hlen.trans hzero)
        simp [Memory.values, ho, hpayload, hbytes, hempty]

/-- Memory as the values see it. -/
theorem load_eq (hs : Valid s) (ho : s.objects o = some b) (n : UInt32) :
    ∃ x, s.values o = some x ∧ (x.getD []).length = b.len_.toNat ∧
      ({ b with len_ := n } : MpBuffer).load s.heap =
        if n.toNat ≤ (x.getD []).length then some ((x.getD []).take n.toNat) else none := by
  refine ⟨b.payload_.bind s.heap.block, by simp [Memory.values, ho], ?_⟩
  cases hpayload : b.payload_ with
  | none =>
    have hlen : b.len_ = 0 := hs.null o b ho hpayload
    have hzero : n = 0 ↔ n.toNat = 0 := by rw [← UInt32.toNat_inj, UInt32.toNat_zero]
    simp [MpBuffer.load, hlen, hzero]
  | some a =>
    obtain ⟨bytes, hbytes, hlen⟩ := hs.sized o b a ho hpayload
    simp [MpBuffer.load, Heap.read, hbytes, hlen]

/-- **`operator==` does not compare lengths.**  A buffer is equal to every
longer one that begins with it, and a comparison with a shorter one reads past
its end. -/
theorem eq_iff_prefix (hs : Valid s) {o' : ι} {b' : MpBuffer} (ho : s.objects o = some b)
    (ho' : s.objects o' = some b') :
    ∃ x y, s.values o = some x ∧ s.values o' = some y ∧
      b.eq b' s.heap =
        if (x.getD []).length ≤ (y.getD []).length then some (decide (x.getD [] <+: y.getD []))
        else none := by
  obtain ⟨x, hx, hxlen, hxload⟩ := load_eq hs ho b.len_
  obtain ⟨y, hy, hylen, hyload⟩ := load_eq hs ho' b.len_
  refine ⟨x, y, hx, hy, ?_⟩
  rw [← hxlen, if_pos (Nat.le_refl _), List.take_length] at hxload
  rw [← hxlen] at hyload
  rw [MpBuffer.eq, hxload, Option.bind_some, hyload]
  split
  · rw [Option.map_some, Option.some.injEq, Bool.eq_iff_iff, beq_iff_eq, decide_eq_true_iff,
      List.prefix_iff_eq_take]
  · rfl

end Pieces

/-! ## One operation -/

section Steps

variable [DecidableEq ι] {s s' : Memory ι} {o : ι} {b : MpBuffer} {h : Heap UInt8} {bytes : Bytes}
  {len : UInt32}

/-- An object that holds a block of length 0 loses it. -/
def Values.forgets (v : Values ι) : Op ι → Prop
  | .assign o buffer => o ≠ buffer ∧ v o = some (some [])
  | .dtor o => v o = some (some [])
  | _ => False

/-- What is to be known of a step: `v` are the values after it, and `dead` says
that what was pointed to before has been freed. -/
structure Done (s s' : Memory ι) (v : Values ι) (dead : Prop) : Prop where
  valid : Valid s'
  values : s'.values = v
  leakFree_iff : LeakFree s.heap s.owns → (LeakFree s'.heap s'.owns ↔ dead)

theorem owns_update (v : Option MpBuffer) :
    ({ heap := h, objects := Function.update s.objects o v } : Memory ι).owns =
      Function.update s.owns o (v.bind MpBuffer.payload_) := by
  funext j
  by_cases hj : j = o
  · simp [Memory.owns, hj]
  · simp [Memory.owns, hj]

theorem values_update {v : Option MpBuffer}
    (hkeeps : ∀ j a, j ≠ o → s.owns j = some a → h.block a = s.heap.block a) :
    ({ heap := h, objects := Function.update s.objects o v } : Memory ι).values =
      Function.update s.values o (v.map fun b => b.payload_.bind h.block) := by
  funext j
  by_cases hj : j = o
  · simp [Memory.values, hj]
  · rw [Function.update_of_ne hj]
    simp only [Memory.values, Function.update_of_ne hj]
    cases hb : s.objects j with
    | none => rfl
    | some b =>
      cases ha : b.payload_ with
      | none => simp [ha]
      | some a =>
        have howns : s.owns j = some a := by simp [Memory.owns, hb, ha]
        simp [ha, hkeeps j a hj howns]

theorem valid_update (hs : Valid s) {v : Option MpBuffer}
    (hkeeps : ∀ j a, j ≠ o → s.owns j = some a → h.block a = s.heap.block a)
    (hapart : Apart h (Function.update s.owns o (v.bind MpBuffer.payload_)))
    (hnull : ∀ b, v = some b → b.payload_ = none → b.len_ = 0)
    (hsized : ∀ b a, v = some b → b.payload_ = some a →
      ∃ bytes, h.block a = some bytes ∧ bytes.length = b.len_.toNat) :
    Valid { heap := h, objects := Function.update s.objects o v } where
  apart := by
    rw [owns_update]
    exact hapart
  null j b hb hpayload := by
    change Function.update s.objects o v j = some b at hb
    by_cases hj : j = o
    · rw [hj, Function.update_self] at hb
      exact hnull b hb hpayload
    · rw [Function.update_of_ne hj] at hb
      exact hs.null j b hb hpayload
  sized j b a hb hpayload := by
    change Function.update s.objects o v j = some b at hb
    by_cases hj : j = o
    · rw [hj, Function.update_self] at hb
      exact hsized b a hb hpayload
    · rw [Function.update_of_ne hj] at hb
      have howns : s.owns j = some a := by simp [Memory.owns, hb, hpayload]
      rw [hkeeps j a hj howns]
      exact hs.sized j b a hb hpayload

/-- An object gets a block of its own, whatever it pointed to before. -/
theorem fill_spec (hs : Valid s) (huntouched : Untouched s o h)
    (source : Heap UInt8 → Option Bytes) (hlen : bytes.length = len.toNat)
    (hsource : source (h.alloc (List.replicate len.toNat 0)).2 = some bytes) :
    ∃ s', s.fill o h len source = some s' ∧
      Done s s' (Function.update s.values o (some (some bytes)))
        (∀ a, s.owns o = some a → ¬ h.Live a) := by
  obtain ⟨h', hcopy, hblock⟩ := newCopy_spec hlen hsource
  have hothers : ∀ j a, j ≠ o → s.owns j = some a → h'.block a = s.heap.block a := by
    intro j a hj ha
    rw [hblock, Function.update_of_ne (huntouched.ne_next hs hj ha), huntouched.others hs hj ha]
  have hdropped : Apart h (Function.update s.owns o none) := hs.apart.drop huntouched
  have hgiven : Apart h' (Function.update s.owns o (some h.next)) := by
    simpa only [Function.update_idem] using hdropped.give (i := o) hblock
  have hnew : h'.block h.next = some bytes := by rw [hblock, Function.update_self]
  refine ⟨⟨h', Function.update s.objects o (some ⟨some h.next, len⟩)⟩,
    by simp [Memory.fill, hcopy], ?_, ?_, fun hfree => ?_⟩
  · refine valid_update hs hothers hgiven (fun b hb hpayload => ?_) fun b a hb hpayload => ?_
    · cases hb
      cases hpayload
    · cases hb
      cases hpayload
      exact ⟨bytes, hnew, hlen⟩
  · rw [values_update hothers]
    simp [hnew]
  · have hnone : Function.update s.owns o none o = none := Function.update_self ..
    rw [owns_update, Option.bind_some, ← leakFree_drop_iff hs.apart huntouched hfree,
      ← leakFree_give_iff hnone hblock, Function.update_idem]

/-- A constructor's first block: nothing is freed. -/
theorem fill_new_spec (hs : Valid s) (ho : s.objects o = none)
    (source : Heap UInt8 → Option Bytes) (hlen : bytes.length = len.toNat)
    (hsource : source (s.heap.alloc (List.replicate len.toNat 0)).2 = some bytes) :
    ∃ s', s.fill o s.heap len source = some s' ∧
      Done s s' (Function.update s.values o (some (some bytes))) True := by
  obtain ⟨s', hfill, hdone⟩ := fill_spec hs (untouched_refl (o := o)) source hlen hsource
  have hdead : ∀ a, s.owns o = some a → ¬ s.heap.Live a := by
    intro a ha
    simp [Memory.owns, ho] at ha
  exact ⟨s', hfill, hdone.valid, hdone.values, fun hfree => by
    simp only [hdone.leakFree_iff hfree, iff_true]
    exact hdead⟩

theorem ctor_spec (hs : Valid s) (ho : s.objects o = none) :
    Done s { s with objects := Function.update s.objects o (some ⟨none, 0⟩) }
      (Function.update s.values o (some none)) True := by
  have howns : Function.update s.owns o none = s.owns :=
    Function.update_eq_self_iff.mpr (by simp [Memory.owns, ho])
  refine ⟨?_, ?_, fun hfree => ?_⟩
  · refine valid_update hs (fun _ _ _ _ => rfl) ?_ (fun b hb _ => ?_) fun b a hb ha => ?_
    · rw [Option.bind_some, howns]
      exact hs.apart
    · cases hb
      rfl
    · cases hb
      cases ha
  · exact values_update fun _ _ _ _ => rfl
  · rw [owns_update, Option.bind_some, howns]
    exact iff_true_intro hfree

theorem dtor_spec (hs : Valid s) (huntouched : Untouched s o h) :
    Done s { heap := h, objects := Function.update s.objects o none }
      (Function.update s.values o none) (∀ a, s.owns o = some a → ¬ h.Live a) := by
  refine ⟨?_, ?_, fun hfree => ?_⟩
  · refine valid_update hs (fun _ _ hj ha => huntouched.others hs hj ha) ?_ nofun nofun
    exact hs.apart.drop huntouched
  · exact values_update fun _ _ hj ha => huntouched.others hs hj ha
  · rw [owns_update, Option.bind_none]
    exact leakFree_drop_iff hs.apart huntouched hfree

/-- The operation cannot be made, neither in memory nor on values, or it can be
made in both with the same result. -/
def Agrees (s : Memory ι) (e : Op ι) : Prop :=
  (s.step e = none ∧ s.values.step e = none) ∨
    ∃ s' v, s.step e = some s' ∧ s.values.step e = some v ∧ Done s s' v (¬ s.values.forgets e)

omit [DecidableEq ι] in
theorem Done.congr {v : Values ι} {dead dead' : Prop} (hdone : Done s s' v dead)
    (hdead : dead ↔ dead') : Done s s' v dead' :=
  ⟨hdone.valid, hdone.values, fun hfree => (hdone.leakFree_iff hfree).trans hdead⟩

omit [DecidableEq ι] in
theorem done_refl (hs : Valid s) : Done s s s.values True :=
  ⟨hs, rfl, fun hfree => iff_true_intro hfree⟩

omit [DecidableEq ι] in
theorem values_ne_none (ho : s.objects o = some b) : s.values o ≠ none := by
  simp [Memory.values, ho]

theorem agrees_ctor (hs : Valid s) : Agrees s (.ctor o) := by
  cases ho : s.objects o with
  | some b =>
    refine .inl ⟨by simp [Memory.step, ho], ?_⟩
    simp only [Values.step, if_neg (values_ne_none ho)]
  | none =>
    refine .inr ⟨_, _, by simp only [Memory.step, ho], ?_, (ctor_spec hs ho).congr ?_⟩
    · simp only [Values.step, if_pos (values_eq_none ho)]
    · exact iff_of_true trivial id

theorem agrees_ctorPayload (hs : Valid s) {payload : Bytes} :
    Agrees s (.ctorPayload o payload len) := by
  cases ho : s.objects o with
  | some b =>
    refine .inl ⟨by simp [Memory.step, ho], ?_⟩
    simp only [Values.step, if_neg (values_ne_none ho)]
  | none =>
    cases hbytes : external payload len with
    | none =>
      refine .inl ⟨by simp [Memory.step, ho, Memory.fill, newCopy, hbytes], ?_⟩
      simp [Values.step, hbytes]
    | some bytes =>
      obtain ⟨s', hfill, hdone⟩ :=
        fill_new_spec hs ho (fun _ => external payload len) (length_external hbytes) hbytes
      refine .inr ⟨s', _, by simp only [Memory.step, ho, hfill], ?_, hdone.congr ?_⟩
      · simp [Values.step, values_eq_none ho, hbytes]
      · exact iff_of_true trivial id

theorem agrees_copyCtor (hs : Valid s) {buffer : ι} : Agrees s (.copyCtor o buffer) := by
  cases ho : s.objects o with
  | some b =>
    refine .inl ⟨by simp [Memory.step, ho], ?_⟩
    simp only [Values.step, if_neg (values_ne_none ho)]
  | none =>
    cases hb : s.objects buffer with
    | none =>
      refine .inl ⟨by simp only [Memory.step, ho, hb], ?_⟩
      simp [Values.step, values_eq_none hb]
    | some b =>
      have hne : buffer ≠ o := by
        rintro rfl
        rw [ho] at hb
        cases hb
      obtain ⟨x, hx, hlen, hsource⟩ := load_alloc hs (untouched_refl (o := o)) hne hb
      obtain ⟨s', hfill, hdone⟩ := fill_new_spec hs ho b.load hlen hsource
      refine .inr ⟨s', _, by simp only [Memory.step, ho, hb, hfill], ?_, hdone.congr ?_⟩
      · simp [Values.step, values_eq_none ho, hx]
      · exact iff_of_true trivial id

theorem agrees_assign (hs : Valid s) {buffer : ι} : Agrees s (.assign o buffer) := by
  cases ho : s.objects o with
  | none =>
    refine .inl ⟨by simp only [Memory.step, ho], ?_⟩
    simp [Values.step, values_eq_none ho]
  | some this =>
    cases hb : s.objects buffer with
    | none =>
      refine .inl ⟨by simp only [Memory.step, ho, hb], ?_⟩
      simp [Values.step, values_eq_none hb]
    | some b =>
      by_cases hself : o = buffer
      · obtain ⟨x, hx⟩ := Option.ne_none_iff_exists'.mp (values_ne_none hb)
        refine .inr ⟨s, s.values, by simp [Memory.step, hb, hself], ?_, (done_refl hs).congr ?_⟩
        · simp [Values.step, hx, hself]
        · exact iff_of_true trivial fun hforgets => hforgets.1 hself
      · obtain ⟨h, hrelease, huntouched, hdead⟩ := release_spec hs ho
        obtain ⟨x, hx, hlen, hsource⟩ := load_alloc hs huntouched (Ne.symm hself) hb
        obtain ⟨s', hfill, hdone⟩ := fill_spec hs huntouched b.load hlen hsource
        refine .inr ⟨s', _, ?_, ?_, hdone.congr (hdead.trans ?_)⟩
        · simp only [Memory.step, ho, hb, if_neg hself, hrelease, Option.bind_some, hfill]
        · simp [Values.step, values_ne_none ho, hx, hself]
        · exact not_congr ⟨fun hv => ⟨hself, hv⟩, And.right⟩

theorem agrees_setPayload (hs : Valid s) {payload : Option Bytes} :
    Agrees s (.setPayload o payload len) := by
  cases ho : s.objects o with
  | none =>
    refine .inl ⟨by simp only [Memory.step, ho], ?_⟩
    simp only [Values.step, values_eq_none ho]
  | some this =>
    obtain ⟨x, hx⟩ := Option.ne_none_iff_exists'.mp (values_ne_none ho)
    cases payload with
    | none =>
      refine .inr ⟨s, s.values, by simp only [Memory.step, ho], ?_, (done_refl hs).congr ?_⟩
      · simp only [Values.step, hx]
      · exact iff_of_true trivial id
    | some payload =>
      by_cases hzero : len = 0
      · refine .inr ⟨s, s.values, by simp only [Memory.step, ho, if_pos hzero], ?_,
          (done_refl hs).congr ?_⟩
        · simp only [Values.step, hx, if_pos hzero]
        · exact iff_of_true trivial id
      · obtain ⟨h, hfree, huntouched, hdead⟩ := freeCharArray_spec hs ho
        cases hbytes : external payload len with
        | none =>
          refine .inl ⟨?_, by simp only [Values.step, hx, if_neg hzero, hbytes, Option.map_none]⟩
          simp [Memory.step, ho, hzero, hfree, Memory.fill, newCopy, hbytes]
        | some bytes =>
          obtain ⟨s', hfill, hdone⟩ := fill_spec hs huntouched
            (fun _ => external payload len) (length_external hbytes) hbytes
          refine .inr ⟨s', _, ?_, ?_, hdone.congr (iff_of_true hdead id)⟩
          · simp only [Memory.step, ho, if_neg hzero, hfree, Option.bind_some, hfill]
          · simp only [Values.step, hx, if_neg hzero, hbytes, Option.map_some]

theorem agrees_dtor (hs : Valid s) : Agrees s (.dtor o) := by
  cases ho : s.objects o with
  | none =>
    refine .inl ⟨by simp only [Memory.step, ho], ?_⟩
    simp only [Values.step, if_pos (values_eq_none ho)]
  | some this =>
    obtain ⟨h, hrelease, huntouched, hdead⟩ := release_spec hs ho
    refine .inr ⟨_, _, by simp only [Memory.step, ho, hrelease, Option.map_some], ?_,
      (dtor_spec hs huntouched).congr hdead⟩
    simp only [Values.step, if_neg (values_ne_none ho)]

theorem agrees (hs : Valid s) : ∀ e : Op ι, Agrees s e
  | .ctor _ => agrees_ctor hs
  | .ctorPayload .. => agrees_ctorPayload hs
  | .copyCtor .. => agrees_copyCtor hs
  | .assign .. => agrees_assign hs
  | .setPayload .. => agrees_setPayload hs
  | .dtor _ => agrees_dtor hs

theorem step_eq_values (hs : Valid s) (e : Op ι) :
    (s.step e).map Memory.values = s.values.step e := by
  obtain ⟨hmemory, hvalues⟩ | ⟨s', v, hmemory, hvalues, hdone⟩ := agrees hs e
  · rw [hmemory, hvalues, Option.map_none]
  · rw [hmemory, hvalues, Option.map_some, hdone.values]

theorem step_valid {e : Op ι} (hs : Valid s) (hstep : s.step e = some s') :
    Valid s' ∧ (LeakFree s.heap s.owns → (LeakFree s'.heap s'.owns ↔ ¬ s.values.forgets e)) := by
  obtain ⟨hnone, _⟩ | ⟨t, v, ht, _, hdone⟩ := agrees hs e
  · rw [hnone] at hstep
    cases hstep
  · rw [ht, Option.some.injEq] at hstep
    exact hstep ▸ ⟨hdone.valid, hdone.leakFree_iff⟩

end Steps

/-! ## Programs -/

section Programs

variable [DecidableEq ι]

/-- **Buffers are values.**  However they are built, copied, assigned and
destroyed, no memory is freed twice or used after it is freed, the objects hold
what they would hold if every copy were made of the bytes themselves, and no two
of them share a block. -/
theorem buffers_are_values (es : List (Op ι)) :
    (exec Memory.step Memory.new es).map Memory.values = exec Values.step (fun _ => none) es ∧
      ∀ s, exec Memory.step Memory.new es = some s → Valid s := by
  constructor
  · exact exec_map (fun _ e hs => step_eq_values hs e)
      (fun _ _ _ hs hstep => (step_valid hs hstep).1) valid_new
  · intro s hrun
    exact Steps.exec (C := fun _ _ _ => True) (fun _ _ _ hs hstep _ => (step_valid hs hstep).1)
      valid_new (steps_of_forall fun _ _ => trivial) hrun

/-- **What is lost.**  All memory is owned as long as no object that holds a
block of length 0 is destroyed or assigned to. -/
theorem leaks_iff (es : List (Op ι)) :
    Steps Memory.step (fun _ _ s' => LeakFree s'.heap s'.owns) Memory.new es ↔
      Steps Memory.step (fun s e _ => ¬ s.values.forgets e) Memory.new es := by
  refine steps_iff_of_inv (I := fun s => Valid s ∧ LeakFree s.heap s.owns) (E := fun _ => True)
    ?_ ?_ ⟨valid_new, leakFree_empty⟩ fun _ _ => trivial
  · intro s e s' hs _ hstep
    exact (step_valid hs.1 hstep).2 hs.2
  · intro s e s' hs _ hstep hkeeps
    obtain ⟨hvalid, hiff⟩ := step_valid hs.1 hstep
    exact ⟨hvalid, (hiff hs.2).mpr hkeeps⟩

/-- Operations that can be made on values, and forget nothing there. -/
theorem exec_of_values :
    ∀ {es : List (Op ι)} {s : Memory ι} {v : Values ι}, Valid s → LeakFree s.heap s.owns →
      exec Values.step s.values es = some v →
      Steps Values.step (fun v e _ => ¬ v.forgets e) s.values es →
      ∃ s', exec Memory.step s es = some s' ∧ Valid s' ∧ LeakFree s'.heap s'.owns ∧
        s'.values = v := by
  intro es
  induction es with
  | nil =>
    intro s v hs hfree hexec _
    cases hexec
    exact ⟨s, rfl, hs, hfree, rfl⟩
  | cons e es ih =>
    intro s v hs hfree hexec hkeeps
    rw [exec_cons, Option.bind_eq_some_iff] at hexec
    obtain ⟨v₁, hv₁, hrest⟩ := hexec
    obtain ⟨_, hnone⟩ | ⟨s₁, v₂, hmemory, hvalues, hdone⟩ := agrees hs e
    · rw [hnone] at hv₁
      cases hv₁
    · rw [hvalues, Option.some.injEq] at hv₁
      subst hv₁
      obtain ⟨hnot, hkeeps⟩ := hkeeps v₂ hvalues
      rw [← hdone.values] at hrest hkeeps
      obtain ⟨s', hs', hgood⟩ :=
        ih hdone.valid ((hdone.leakFree_iff hfree).mpr hnot) hrest hkeeps
      exact ⟨s', by rw [exec_cons, hmemory, Option.bind_some, hs'], hgood⟩

end Programs

end EndToEndSmkex.Utils.Buffer
