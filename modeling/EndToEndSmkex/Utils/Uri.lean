import EndToEndSmkex.Lib.Actions
import EndToEndSmkex.Lib.Substrings
import EndToEndSmkex.Smkex.Record

/-!
# Serials and SIP URIs

`getUriFromSerial` writes the URI of a buddy, and `getSerialFromUri` reads the
serial back from what a peer has sent: everything between the first `sip:` and
the last `@`.

A string that is made of a null pointer ends the process.  A subtraction of
unsigned numbers that goes below zero does not, but it is reported (`Wrapped`).

## Main results

* `getSerialFromUri_of_framed` — the serial is read back from a URI with text
  around it.
* `safe_getSerialFromUri_iff` — reading is safe where a `sip:` is followed by an
  `@`.
* `safe_getUriFromSerial_iff` — writing is safe where there is a serial.
-/

namespace EndToEndSmkex.Utils.Uri

open EndToEndSmkex.Lib.CBuffer
open EndToEndSmkex.Lib.Actions
open EndToEndSmkex.Lib.Substrings
open EndToEndSmkex.Smkex.Record

/-! ## Strings and pointers -/

/-- The bytes in front of a terminator. -/
structure CString where
  bytes : Bytes
  noZero : 0 ∉ bytes

/-- A `const char*`, null or not. -/
abbrev CharPtr := Option CString

/-- What `c_str` points to, as far as a reader gets. -/
def c_str (s : MpString) : CString where
  bytes := s.takeWhile (· ≠ 0)
  noZero := by
    intro h
    simpa using List.mem_takeWhile_imp h

theorem c_str_of_noZero {s : MpString} (h : 0 ∉ s) : (c_str s).bytes = s :=
  takeWhile_of_zero_not_mem h

/-- A subtraction of unsigned numbers that went below zero. -/
structure Wrapped where
  minuend : Nat
  subtrahend : Nat
  deriving DecidableEq

/-- `a - b` in the type `size_t`. -/
def sub (a b : Nat) : Act Wrapped Nat :=
  if b ≤ a then return a - b
  else do
    tell ⟨a, b⟩
    return 2 ^ 64 - (b - a)

/-- The constructor of `MpString`. -/
def ofCharPtr : CharPtr → Act Wrapped MpString
  | none => exit
  | some s => return s.bytes

/-- `substr`; a position behind the end is an exception. -/
def substr (s : MpString) (pos n : Nat) : Act Wrapped MpString :=
  if pos ≤ s.length then return (s.drop pos).take n else exit

/-! ## The two functions -/

/-- `sip:` -/
def MP_SIP_SCHEMA : MpString := [115, 105, 112, 58]

/-- `;transport=tls` -/
def MP_SIP_TRANSPORT : MpString :=
  [59, 116, 114, 97, 110, 115, 112, 111, 114, 116, 61, 116, 108, 115]

/-- An unsigned number as a stream prints it. -/
def decimal (n : UInt32) : MpString :=
  (Nat.toDigits 10 n.toNat).map fun digit => digit.toNat.toUInt8

/-- `getSerialFromUri`; `MP_NULL` is what the checks return. -/
def getSerialFromUri (uri : CharPtr) : Act Wrapped MpString :=
  let MP_NULL : Act Wrapped MpString := ofCharPtr none
  match uri with
  | none => MP_NULL
  | some s =>
    if s.bytes.length = 0 then MP_NULL
    else do
      let serial ← ofCharPtr uri
      match find MP_SIP_SCHEMA serial with
      | none => MP_NULL
      | some beg_ =>
        match rfind [64] serial with
        | none => MP_NULL
        | some end_ => do
          let n ← sub (← sub end_ beg_) MP_SIP_SCHEMA.length
          substr serial (beg_ + MP_SIP_SCHEMA.length) n

/-- `getUriFromSerial`. -/
def getUriFromSerial (serial : CharPtr) (address : CString) (port : UInt32) :
    Act Wrapped MpString :=
  let MP_NULL : Act Wrapped MpString := ofCharPtr none
  match serial with
  | none => MP_NULL
  | some s =>
    if s.bytes.length = 0 then MP_NULL
    else return MP_SIP_SCHEMA ++ s.bytes ++ [64] ++ address.bytes ++ [58] ++ decimal port ++
      MP_SIP_TRANSPORT

/-- A string is returned, and no number has gone below zero. -/
def Safe (m : Act Wrapped MpString) : Prop := ∃ s, m.run = some (s, [])

/-! ## Reading -/

section Reading

variable {s : CString}

/-- The two searches succeed, the first one in front of the second. -/
theorem run_getSerialFromUri {beg_ end_ : Nat} (hbeg : find MP_SIP_SCHEMA s.bytes = some beg_)
    (hend : rfind [64] s.bytes = some end_) (hle : beg_ + MP_SIP_SCHEMA.length ≤ end_) :
    (getSerialFromUri (some s)).run =
      some ((s.bytes.drop (beg_ + MP_SIP_SCHEMA.length)).take
        (end_ - (beg_ + MP_SIP_SCHEMA.length)), []) := by
  have hlen : end_ ≤ s.bytes.length := (at_of_rfind hend).1
  have hpos : 0 < MP_SIP_SCHEMA.length := by decide
  have hne : s.bytes.length ≠ 0 := by omega
  have hsub : beg_ ≤ end_ := by omega
  have hsub' : MP_SIP_SCHEMA.length ≤ end_ - beg_ := by omega
  have hbound : beg_ + MP_SIP_SCHEMA.length ≤ s.bytes.length := by omega
  simp [getSerialFromUri, ofCharPtr, hne, hbeg, hend, run_bind, sub, hsub, hsub', substr, hbound,
    Nat.sub_sub]

/-- A difference that is not reported has not gone below zero. -/
theorem run_sub {a b n : Nat} (h : (sub a b).run = some (n, [])) : b ≤ a ∧ n = a - b := by
  unfold sub at h
  split at h
  next hle =>
    cases h
    exact ⟨hle, rfl⟩
  next => cases h

/-- A safe reading has found both, in this order. -/
theorem found_of_safe (h : Safe (getSerialFromUri (some s))) :
    ∃ beg_ end_, find MP_SIP_SCHEMA s.bytes = some beg_ ∧ rfind [64] s.bytes = some end_ ∧
      beg_ + MP_SIP_SCHEMA.length ≤ end_ := by
  obtain ⟨serial, hrun⟩ := h
  by_cases hne : s.bytes.length = 0
  · simp [getSerialFromUri, ofCharPtr, exit, hne] at hrun
  cases hbeg : find MP_SIP_SCHEMA s.bytes with
  | none => simp [getSerialFromUri, ofCharPtr, exit, hne, hbeg, run_bind] at hrun
  | some beg_ =>
      cases hend : rfind [64] s.bytes with
      | none => simp [getSerialFromUri, ofCharPtr, exit, hne, hbeg, hend, run_bind] at hrun
      | some end_ =>
          rw [getSerialFromUri, if_neg hne, run_bind_eq_some] at hrun
          obtain ⟨bytes, l₁, l₂, hbytes, hrun, hlog⟩ := hrun
          cases hbytes
          simp only [hbeg, hend, List.nil_append] at hrun hlog
          subst hlog
          -- no part of the log is more than the whole
          obtain ⟨d, l₁, l₂, hd, hrun, hlog⟩ := run_bind_eq_some.1 hrun
          obtain ⟨rfl, rfl⟩ := List.append_eq_nil_iff.1 hlog.symm
          obtain ⟨n, l₁, l₂, hn, -, hlog⟩ := run_bind_eq_some.1 hrun
          obtain ⟨rfl, rfl⟩ := List.append_eq_nil_iff.1 hlog.symm
          obtain ⟨hle, rfl⟩ := run_sub hd
          obtain ⟨hle', -⟩ := run_sub hn
          exact ⟨beg_, end_, rfl, rfl, by omega⟩

/-- **Reading is safe exactly where a `sip:` is followed by an `@`.** -/
theorem safe_getSerialFromUri_iff :
    Safe (getSerialFromUri (some s)) ↔
      ∃ pre mid post, s.bytes = pre ++ (MP_SIP_SCHEMA ++ (mid ++ ([64] ++ post))) := by
  rw [← found_in_order_iff]
  constructor
  · intro h
    obtain ⟨beg_, end_, hbeg, hend, hle⟩ := found_of_safe h
    exact ⟨beg_, end_, hbeg, hend, hle⟩
  · rintro ⟨beg_, end_, hbeg, hend, hle⟩
    exact ⟨_, run_getSerialFromUri hbeg hend hle⟩

theorem unbordered_schema : Unbordered MP_SIP_SCHEMA := by decide

/-- **The serial is read back from a URI with text around it.** -/
theorem getSerialFromUri_of_framed {pre serial post : Bytes}
    (hpre : ¬ MP_SIP_SCHEMA <:+: pre) (hpost : 64 ∉ post)
    (hs : s.bytes = pre ++ (MP_SIP_SCHEMA ++ (serial ++ ([64] ++ post)))) :
    (getSerialFromUri (some s)).run = some (serial, []) := by
  have hbeg : find MP_SIP_SCHEMA s.bytes = some pre.length := by
    rw [hs, find_append unbordered_schema hpre]
  have hassoc : s.bytes = (pre ++ MP_SIP_SCHEMA ++ serial) ++ ([64] ++ post) := by
    rw [hs, List.append_assoc, List.append_assoc]
  have hend : rfind [64] s.bytes = some (pre ++ MP_SIP_SCHEMA ++ serial).length := by
    rw [hassoc, rfind_append hpost]
  have hlen : (pre ++ MP_SIP_SCHEMA ++ serial).length =
      pre.length + MP_SIP_SCHEMA.length + serial.length := by
    rw [List.length_append, List.length_append]
  rw [run_getSerialFromUri hbeg hend (by omega), hlen, hs, ← List.drop_drop, List.drop_left,
    List.drop_left, Nat.add_sub_cancel_left, List.take_left]

end Reading

/-! ## Writing -/

section Writing

variable {address s : CString} {port : UInt32}

/-- What is written behind the `@`. -/
def uriTail (address : CString) (port : UInt32) : MpString :=
  address.bytes ++ ([58] ++ (decimal port ++ MP_SIP_TRANSPORT))

/-- The characters of a number are digits. -/
theorem mem_decimal {b : UInt8} (h : b ∈ decimal port) : 48 ≤ b.toNat ∧ b.toNat ≤ 57 := by
  obtain ⟨digit, hdigit, rfl⟩ := List.mem_map.1 h
  have hisDigit := Nat.isDigit_of_mem_toDigits (by decide) (by decide) hdigit
  obtain ⟨hlow, hhigh⟩ := Char.isDigit_iff_toNat.1 hisDigit
  have hlow : 48 ≤ digit.toNat := hlow
  have hhigh : digit.toNat ≤ 57 := hhigh
  have hbyte : (digit.toNat.toUInt8).toNat = digit.toNat := by
    rw [Nat.toUInt8, UInt8.toNat_ofNat']
    omega
  rw [hbyte]
  exact ⟨hlow, hhigh⟩

theorem at_not_mem_uriTail (h : 64 ∉ address.bytes) : 64 ∉ uriTail address port := by
  have hdecimal : 64 ∉ decimal port := by
    intro hmem
    have hdigit := mem_decimal hmem
    simp at hdigit
  have htransport : 64 ∉ MP_SIP_TRANSPORT := by decide
  simp [uriTail, h, hdecimal, htransport]

theorem zero_not_mem_uriTail : 0 ∉ uriTail address port := by
  have hdecimal : 0 ∉ decimal port := by
    intro hmem
    have hdigit := mem_decimal hmem
    simp at hdigit
  have htransport : 0 ∉ MP_SIP_TRANSPORT := by decide
  simp [uriTail, address.noZero, hdecimal, htransport]

theorem run_getUriFromSerial (h : s.bytes ≠ []) :
    (getUriFromSerial (some s) address port).run =
      some (MP_SIP_SCHEMA ++ (s.bytes ++ ([64] ++ uriTail address port)), []) := by
  simp [getUriFromSerial, h, uriTail]

/-- **Writing is safe exactly where there is a serial.** -/
theorem safe_getUriFromSerial_iff :
    Safe (getUriFromSerial (some s) address port) ↔ s.bytes ≠ [] := by
  constructor
  · rintro ⟨uri, hrun⟩ hempty
    simp [getUriFromSerial, ofCharPtr, exit, hempty] at hrun
  · intro h
    exact ⟨_, run_getUriFromSerial h⟩

end Writing

end EndToEndSmkex.Utils.Uri
