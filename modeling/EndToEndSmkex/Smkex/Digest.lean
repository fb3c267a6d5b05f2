import EndToEndSmkex.Smkex.Handshake

/-!
# What the hash covers and what is compared with it

`calculateH` and `verifyH` treat binary values as C strings.  A zero byte in a
key or a nonce ends what is hashed of it, and where there is none, hashing goes
on behind the buffer.  `verifyH` compares up to a common zero byte, and returns
true where a difference was found.

## Main results

* `hashed_completely_iff` — when the hash is taken over the four values.
* `verifyH_exact_iff` — when `verifyH` tells whether the digest was received.
-/

namespace EndToEndSmkex.Smkex.Digest

open EndToEndSmkex.Lib.CBuffer
open EndToEndSmkex.Smkex.SessionInfo
open EndToEndSmkex.Smkex.Handshake

variable {K : Type}

/-! ## The input of the hash -/

/-- The values `calculateH` is called with. -/
structure Values where
  key1 : Bytes
  nonce1 : Bytes
  key2 : Bytes
  nonce2 : Bytes
  deriving DecidableEq

namespace Values

/-- Nonces and keys of these lengths. -/
structure Sized (v : Values) (nonce_length key_length : Nat) : Prop where
  nonce1 : v.nonce1.length = nonce_length
  key1 : v.key1.length = key_length
  nonce2 : v.nonce2.length = nonce_length
  key2 : v.key2.length = key_length

/-- What SHA-256 is fed with. -/
def fed (v : Values) (behind : HashArg → Bytes) : Bytes :=
  hashInput behind v.key1 v.nonce1 v.key2 v.nonce2

/-- The four values in full. -/
def full (v : Values) : Bytes := v.nonce1 ++ (v.key1 ++ (v.nonce2 ++ v.key2))

/-- No value has a zero byte, and the byte behind each buffer is zero. -/
structure Terminated (v : Values) (behind : HashArg → Bytes) : Prop where
  no_zero : 0 ∉ v.full
  zero_behind : ∀ arg, (behind arg).headD 0 = 0

theorem not_mem_full {v : Values} :
    0 ∉ v.full ↔ 0 ∉ v.nonce1 ∧ 0 ∉ v.key1 ∧ 0 ∉ v.nonce2 ∧ 0 ∉ v.key2 := by
  simp [full]

theorem zero_not_mem_fed (v : Values) (behind : HashArg → Bytes) : 0 ∉ v.fed behind := by
  simp [fed, hashInput, zero_not_mem_cString]

/-- Without zero bytes all of each value is hashed, and whatever lies behind. -/
theorem fed_of_no_zero {v : Values} (h : 0 ∉ v.full) (behind : HashArg → Bytes) :
    v.fed behind =
      (v.nonce1 ++ (behind .nonce1).takeWhile (· ≠ 0)) ++
      ((v.key1 ++ (behind .key1).takeWhile (· ≠ 0)) ++
      ((v.nonce2 ++ (behind .nonce2).takeWhile (· ≠ 0)) ++
      (v.key2 ++ (behind .key2).takeWhile (· ≠ 0)))) := by
  obtain ⟨h₁, h₂, h₃, h₄⟩ := not_mem_full.1 h
  unfold fed hashInput
  rw [cString_eq_append h₁, cString_eq_append h₂, cString_eq_append h₃, cString_eq_append h₄]

theorem fed_eq_full_iff {v : Values} {behind : HashArg → Bytes} :
    v.fed behind = v.full ↔ v.Terminated behind := by
  constructor
  · intro h
    have hzero : 0 ∉ v.full := by
      rw [← h]
      exact zero_not_mem_fed v behind
    refine ⟨hzero, ?_⟩
    -- nothing may be hashed but the values, so nothing behind them is
    have hlength := congrArg List.length h
    rw [fed_of_no_zero hzero] at hlength
    simp only [full, List.length_append] at hlength
    intro arg
    rw [← takeWhile_eq_nil_iff_headD, ← List.length_eq_zero_iff]
    cases arg <;> omega
  · rintro ⟨hzero, hbehind⟩
    have hnil (arg : HashArg) : (behind arg).takeWhile (· ≠ 0) = [] :=
      (takeWhile_eq_nil_iff_headD _).2 (hbehind arg)
    rw [fed_of_no_zero hzero]
    simp only [hnil, List.append_nil, full]

/-- Values of fixed lengths can be told from their concatenation. -/
theorem full_injective {v w : Values} {nonce_length key_length : Nat}
    (hv : v.Sized nonce_length key_length) (hw : w.Sized nonce_length key_length)
    (h : v.full = w.full) : v = w := by
  obtain ⟨hnonce1, h⟩ := List.append_inj h (hv.nonce1.trans hw.nonce1.symm)
  obtain ⟨hkey1, h⟩ := List.append_inj h (hv.key1.trans hw.key1.symm)
  obtain ⟨hnonce2, hkey2⟩ := List.append_inj h (hv.nonce2.trans hw.nonce2.symm)
  cases v
  cases w
  simp_all

end Values

/-- The values are hashed completely: the hash is taken over the concatenation,
and over no other values of the same lengths that are hashed so. -/
structure HashedCompletely (v : Values) (behind : HashArg → Bytes) : Prop where
  input : v.fed behind = v.full
  binding : ∀ (w : Values) (behind' : HashArg → Bytes) (nonce_length key_length : Nat),
    v.Sized nonce_length key_length → w.Sized nonce_length key_length →
      w.fed behind' = w.full → w.fed behind' = v.fed behind → w = v

/-- **The four values are hashed completely exactly where none of them has a
zero byte and the byte behind each buffer is zero.** -/
theorem hashed_completely_iff (ssl : OpenSSL K) (v : Values) (behind : HashArg → Bytes)
    {nonce_length key_length : Nat} (hnonce : 0 < nonce_length) (hkey : 0 < key_length) :
    calculateH ssl behind v.key1 v.nonce1 v.key2 v.nonce2 nonce_length key_length =
        some (ssl.sha256 (v.fed behind)) ∧
      (HashedCompletely v behind ↔ v.Terminated behind) := by
  constructor
  · unfold calculateH
    rw [if_neg (by omega), if_neg (by omega)]
    rfl
  · constructor
    · intro h
      exact Values.fed_eq_full_iff.1 h.input
    · intro h
      have hfull := Values.fed_eq_full_iff.2 h
      refine ⟨hfull, ?_⟩
      intro w behind' nonce_length key_length hv hw hw' heq
      rw [hw', hfull] at heq
      exact Values.full_injective hw hv heq

/-- Two nonces of two bytes and two keys of three, the first nonce with a zero
byte; and the same with another byte behind it. -/
def sampleValues (b : UInt8) : Values := ⟨[1, 2, 3], [0, b], [4, 5, 6], [7, 8]⟩

/-- The same values without the zero byte, followed by zeros. -/
theorem hashed_completely_iff_sample :
    let v : Values := { sampleValues 9 with nonce1 := [8, 9] }
    calculateH sampleOpenSSL (fun _ => []) v.key1 v.nonce1 v.key2 v.nonce2 2 3 =
        some (sampleOpenSSL.sha256 [8, 9, 1, 2, 3, 7, 8, 4, 5, 6]) ∧
      HashedCompletely v fun _ => [] := by
  intro v
  obtain ⟨hcalculate, hiff⟩ :=
    hashed_completely_iff sampleOpenSSL v (fun _ => []) (show 0 < 2 by decide)
      (show 0 < 3 by decide)
  exact ⟨hcalculate, hiff.2 ⟨by decide, fun _ => rfl⟩⟩

/-- A nonce that begins with a zero byte is not hashed at all, so all such nonces
have the same hash. -/
theorem zero_byte_hides_nonce :
    (sampleValues 9).Sized 2 3 ∧ (sampleValues 8).Sized 2 3 ∧
      sampleValues 9 ≠ sampleValues 8 ∧
      (sampleValues 9).fed (fun _ => []) = (sampleValues 8).fed (fun _ => []) ∧
      (sampleValues 9).fed (fun _ => []) ≠ (sampleValues 9).full :=
  ⟨⟨rfl, rfl, rfl, rfl⟩, ⟨rfl, rfl, rfl, rfl⟩, by decide, by decide, by decide⟩

/-! ## The comparison -/

/-- The two agree up to and including a zero byte, and differ behind it. -/
def DifferBehindZero (a b : Bytes) : Prop :=
  ∃ start u v, a = start ++ 0 :: u ∧ b = start ++ 0 :: v ∧ u ≠ v

section Verify

variable (ssl : OpenSSL K) (env : Env K) (s : SmkexSessionInfo K)

/-- What `verifyH` makes of a received value of the right length. -/
theorem verifyH_eq_true_iff {digest : Bytes} {value : Block}
    (hdigest : expectedH ssl env s = some digest) (hvalue : s.receivedNonceHValue = some value)
    (hlength : value.bytes.length = NONCE_LEN + digest.length) :
    verifyH ssl env s = true ↔
      digest ≠ value.bytes.drop NONCE_LEN ∧
        ¬ DifferBehindZero digest (value.bytes.drop NONCE_LEN) := by
  have hreceived : receivedH env s =
      value.bytes.drop NONCE_LEN ++ env.heap .receivedNonceH := by
    unfold receivedH
    rw [hvalue]
    have hnonce : NONCE_LEN ≤ value.bytes.length := by omega
    exact List.drop_append_of_le_length hnonce
  have hlength' : digest.length = (value.bytes.drop NONCE_LEN).length := by
    rw [List.length_drop]
    omega
  have hcompare := strncmp_eq_zero_iff (env.heap .receivedNonceH) hlength'
  unfold verifyH
  rw [hdigest, hreceived]
  simp only [ne_eq, decide_eq_true_eq]
  rw [hcompare, not_or, DifferBehindZero]
  constructor
  · rintro ⟨hne, hstart⟩
    exact ⟨hne, fun ⟨start, u, v, hu, hv, _⟩ => hstart ⟨start, u, v, hu, hv⟩⟩
  · rintro ⟨hne, hstart⟩
    refine ⟨hne, ?_⟩
    rintro ⟨start, u, v, hu, hv⟩
    refine hstart ⟨start, u, v, hu, hv, ?_⟩
    rintro rfl
    exact hne (hu.trans hv.symm)

/-- **`verifyH` tells whether the digest was received exactly where it was not,
and the difference lies behind a zero byte.**  It is true where the comparison
finds a difference and false where it finds none. -/
theorem verifyH_exact_iff {digest : Bytes} {value : Block}
    (hdigest : expectedH ssl env s = some digest) (hvalue : s.receivedNonceHValue = some value)
    (hlength : value.bytes.length = NONCE_LEN + digest.length) :
    (verifyH ssl env s = true ↔ value.bytes.drop NONCE_LEN = digest) ↔
      DifferBehindZero digest (value.bytes.drop NONCE_LEN) := by
  rw [verifyH_eq_true_iff ssl env s hdigest hvalue hlength]
  constructor
  · intro h
    by_contra hbehind
    by_cases heq : digest = value.bytes.drop NONCE_LEN
    · exact (h.2 heq.symm).1 heq
    · exact heq (h.1 ⟨heq, hbehind⟩).symm
  · intro hbehind
    have hne : value.bytes.drop NONCE_LEN ≠ digest := by
      obtain ⟨start, u, v, hu, hv, huv⟩ := hbehind
      rw [hu, hv]
      simpa using huv.symm
    exact ⟨fun h => absurd hbehind h.2, fun h => absurd h hne⟩

end Verify

/-- OpenSSL with one digest, which has a zero byte. -/
def sampleZeroDigest : OpenSSL UInt8 :=
  { sampleOpenSSL with sha256 := fun _ => 5 :: 0 :: List.replicate 30 7 }

/-- A session that has received this value behind a nonce. -/
def sampleReceived (h : Bytes) : SmkexSessionInfo UInt8 :=
  { SmkexSessionInfo.new (sampleDraws 5) with
    remote_pub_key_len := 65
    receivedNonceHValue := some ⟨40, (sampleNonce 9).1 ++ h⟩ }

/-- A value that differs from the digest behind its zero byte is refused, as it
should be. -/
theorem verifyH_exact_iff_sample :
    verifyH sampleZeroDigest (sampleEnv 1 2) (sampleReceived (5 :: 0 :: List.replicate 30 8)) =
        true ↔
      (5 :: 0 :: List.replicate 30 8 : Bytes) = 5 :: 0 :: List.replicate 30 7 :=
  (verifyH_exact_iff sampleZeroDigest (sampleEnv 1 2)
    (sampleReceived (5 :: 0 :: List.replicate 30 8)) rfl rfl rfl).2
    ⟨[5], List.replicate 30 7, List.replicate 30 8, rfl, rfl, by decide⟩

/-- The digest itself is refused, and another value is taken for it. -/
theorem verifyH_inverted :
    expectedH sampleZeroDigest (sampleEnv 1 2) (sampleReceived (5 :: 0 :: List.replicate 30 7)) =
        some (5 :: 0 :: List.replicate 30 7) ∧
      verifyH sampleZeroDigest (sampleEnv 1 2)
        (sampleReceived (5 :: 0 :: List.replicate 30 7)) = false ∧
      verifyH sampleZeroDigest (sampleEnv 1 2)
        (sampleReceived (List.replicate 32 6)) = true := by
  decide +kernel

end EndToEndSmkex.Smkex.Digest
