import EndToEndSmkex.Lib.Actions
import EndToEndSmkex.Lib.Pointers

/-!
# AES-GCM on buffers

`mp_aesgcm_encrypt` writes the ciphertext and behind it the tag;
`mp_aesgcm_decrypt` takes such a buffer apart again.  The cipher is OpenSSL's and
a parameter here (`Evp`), with what its manual says of it as `Evp.Ideal`.

The length of the body is the length of the buffer less that of the tag, as an
unsigned number, and is converted to `int`.

## Main results

* `run_mp_aesgcm_encrypt`, `run_mp_aesgcm_decrypt` — what the two functions do.
* `aead_iff` — what was encrypted is decrypted, and for any buffer it is said
  when decryption tells the outputs of encryption from other buffers.
-/

namespace EndToEndSmkex.Smkex.Crypto

open EndToEndSmkex.Lib.CBuffer
open EndToEndSmkex.Lib.Actions
open EndToEndSmkex.Lib.Pointers

def SESSION_KEY_LENGTH : Nat := 32
def SESSION_IV_LENGTH : Nat := 12
def SESSION_TAG_LENGTH : Nat := 16

/-- The bytes a key pointer stands for. -/
abbrev Key := { bs : Bytes // bs.length = SESSION_KEY_LENGTH }

/-- The bytes the pointer to an initialisation vector stands for. -/
abbrev Iv := { bs : Bytes // bs.length = SESSION_IV_LENGTH }

/-! ## OpenSSL -/

/-- `EVP_aes_256_gcm`: the two lengths it declares, what an encryption gives as
ciphertext and tag, what a decryption puts out, and which tags the final call
accepts.  Of a negative length the manual says nothing. -/
structure Evp where
  key_length : Nat
  iv_length : Nat
  encrypt : Key → Iv → Bytes → Bytes × Bytes
  decrypt : Key → Iv → Bytes → Bytes
  final : Key → Iv → Bytes → Bytes → Bool
  negative : Key → Iv → Int → Option Bytes

/-- An ideal authenticated encryption. -/
structure Evp.Ideal (g : Evp) : Prop where
  key_length : g.key_length = SESSION_KEY_LENGTH
  iv_length : g.iv_length = SESSION_IV_LENGTH
  length_ciphertext : ∀ key iv p, (g.encrypt key iv p).1.length = p.length
  length_tag : ∀ key iv p, (g.encrypt key iv p).2.length = SESSION_TAG_LENGTH
  inverts : ∀ key iv p, g.decrypt key iv (g.encrypt key iv p).1 = p
  accepts : ∀ key iv p, g.final key iv (g.encrypt key iv p).1 (g.encrypt key iv p).2 = true
  rejects : ∀ key iv c tag, g.final key iv c tag = true → ∃ p, g.encrypt key iv p = (c, tag)

/-- A context: direction, key and vector, and what it was given. -/
structure EVP_CIPHER_CTX where
  enc : Bool
  key : Key
  iv : Iv
  data : Bytes
  tag : Bytes

/-- `EVP_CipherInit_ex`. -/
def EVP_CipherInit_ex (enc : Bool) (key : Key) (iv : Iv) : EVP_CIPHER_CTX := ⟨enc, key, iv, [], []⟩

/-- `OPENSSL_assert`. -/
def OPENSSL_assert (b : Bool) : Act Access Unit := if b then return else exit

section Calls

variable (g : Evp) (ctx : EVP_CIPHER_CTX)

/-- `EVP_CipherUpdate`: the input is read, and as many bytes are written. -/
def EVP_CipherUpdate (input : Pointer) (inl : Int) :
    Act Access (Option (EVP_CIPHER_CTX × Bytes)) := do
  tell ⟨0, inl⟩
  if inl < 0 then return (g.negative ctx.key ctx.iv inl).map fun out => (ctx, out)
  else
    let data := read input 0 inl.toNat
    let out := if ctx.enc then (g.encrypt ctx.key ctx.iv data).1
      else g.decrypt ctx.key ctx.iv data
    return some ({ ctx with data := data }, out)

/-- `EVP_CipherFinal_ex`: nothing is left to write, but a tag may be wrong. -/
def EVP_CipherFinal_ex : Option Bytes :=
  if ctx.enc || g.final ctx.key ctx.iv ctx.data ctx.tag then some [] else none

/-- `EVP_CTRL_GCM_GET_TAG`. -/
def EVP_CTRL_GCM_GET_TAG : Bytes := (g.encrypt ctx.key ctx.iv ctx.data).2

/-- `EVP_CTRL_GCM_SET_TAG`. -/
def EVP_CTRL_GCM_SET_TAG (p : Pointer) (offset : Int) : Act Access EVP_CIPHER_CTX := do
  tell ⟨offset, SESSION_TAG_LENGTH⟩
  return { ctx with tag := read p offset SESSION_TAG_LENGTH }

end Calls

/-! ## The two functions -/

/-- What is returned, what was written to the output buffer, and the length that
is reported. -/
structure Result where
  ret : Int
  out : Bytes
  outlen : Nat
  deriving DecidableEq

section Functions

variable (g : Evp)

/-- `mp_aesgcm_encrypt`. -/
def mp_aesgcm_encrypt (ptext : Pointer) (plen : Nat) (key : Key) (iv : Iv) :
    Act Access Result := do
  let ctx := EVP_CipherInit_ex true key iv
  OPENSSL_assert (g.key_length = SESSION_KEY_LENGTH)
  OPENSSL_assert (g.iv_length = SESSION_IV_LENGTH)
  let clen := 0
  match ← EVP_CipherUpdate g ctx ptext (toInt plen) with
  | none => return ⟨-1, [], clen⟩
  | some (ctx, ctext) =>
      let clen := clen + ctext.length
      match EVP_CipherFinal_ex g ctx with
      | none => return ⟨-1, ctext, clen⟩
      | some final =>
          let clen := clen + final.length
          return ⟨1, ctext ++ final ++ EVP_CTRL_GCM_GET_TAG g ctx, clen + SESSION_TAG_LENGTH⟩

/-- `mp_aesgcm_decrypt`. -/
def mp_aesgcm_decrypt (ctext : Pointer) (clen : Nat) (key : Key) (iv : Iv) :
    Act Access Result := do
  let ctx := EVP_CipherInit_ex false key iv
  OPENSSL_assert (g.key_length = SESSION_KEY_LENGTH)
  OPENSSL_assert (g.iv_length = SESSION_IV_LENGTH)
  -- the tag is the end of the buffer
  let ctx ← EVP_CTRL_GCM_SET_TAG ctx ctext ((clen : Int) - SESSION_TAG_LENGTH)
  let plen := 0
  match ← EVP_CipherUpdate g ctx ctext (toInt (sizeSub clen SESSION_TAG_LENGTH)) with
  | none => return ⟨-1, [], plen⟩
  | some (ctx, ptext) =>
      let plen := plen + ptext.length
      match EVP_CipherFinal_ex g ctx with
      | none => return ⟨-1, ptext, plen⟩
      | some final => return ⟨1, ptext ++ final, plen + final.length⟩

end Functions

/-! ## What the functions do -/

section Runs

variable {g : Evp} {key : Key} {iv : Iv}

theorem run_EVP_CipherUpdate (ctx : EVP_CIPHER_CTX) (input : Pointer) (n : Nat) :
    (EVP_CipherUpdate g ctx input n).run =
      some (some ({ ctx with data := read input 0 n },
        if ctx.enc then (g.encrypt ctx.key ctx.iv (read input 0 n)).1
        else g.decrypt ctx.key ctx.iv (read input 0 n)), [⟨0, n⟩]) := by
  have hpos : ¬ (n : Int) < 0 := by omega
  rw [EVP_CipherUpdate, if_neg hpos, Int.toNat_natCast]
  rfl

theorem run_EVP_CipherUpdate_of_neg (ctx : EVP_CIPHER_CTX) (input : Pointer) {inl : Int}
    (h : inl < 0) :
    (EVP_CipherUpdate g ctx input inl).run =
      some ((g.negative ctx.key ctx.iv inl).map fun out => (ctx, out), [⟨0, inl⟩]) := by
  rw [EVP_CipherUpdate, if_pos h]
  rfl

theorem run_mp_aesgcm_encrypt (h : g.Ideal) {ptext : Bytes} (hlen : ptext.length < 2 ^ 31)
    (around : Pointer) :
    (mp_aesgcm_encrypt g (pointer ptext around) ptext.length key iv).run =
      some (⟨1, (g.encrypt key iv ptext).1 ++ (g.encrypt key iv ptext).2,
        ptext.length + SESSION_TAG_LENGTH⟩, [⟨0, ptext.length⟩]) := by
  have hread : read (pointer ptext around) 0 ptext.length = ptext := by
    have hwhole := @read_pointer ptext 0 ptext.length around (by omega)
    rwa [List.drop_zero, List.take_length] at hwhole
  have hint : toInt ptext.length = ptext.length := toInt_of_lt hlen
  simp [mp_aesgcm_encrypt, OPENSSL_assert, EVP_CipherInit_ex, EVP_CipherFinal_ex,
    EVP_CTRL_GCM_GET_TAG, run_bind, run_EVP_CipherUpdate, h.key_length, h.iv_length, hint,
    hread, h.length_ciphertext]

/-- A body whose length is not negative is decrypted, and the tag decides. -/
theorem run_mp_aesgcm_decrypt (h : g.Ideal) {ctext : Pointer} {clen n : Nat}
    (hlen : toInt (sizeSub clen SESSION_TAG_LENGTH) = n) :
    (mp_aesgcm_decrypt g ctext clen key iv).run =
      some (⟨if g.final key iv (read ctext 0 n)
            (read ctext ((clen : Int) - SESSION_TAG_LENGTH) SESSION_TAG_LENGTH) then 1 else -1,
          g.decrypt key iv (read ctext 0 n), (g.decrypt key iv (read ctext 0 n)).length⟩,
        [⟨(clen : Int) - SESSION_TAG_LENGTH, SESSION_TAG_LENGTH⟩, ⟨0, n⟩]) := by
  cases hfinal : g.final key iv (read ctext 0 n)
    (read ctext ((clen : Int) - SESSION_TAG_LENGTH) SESSION_TAG_LENGTH) <;>
  simp [mp_aesgcm_decrypt, OPENSSL_assert, EVP_CipherInit_ex, EVP_CTRL_GCM_SET_TAG,
    EVP_CipherFinal_ex, run_bind, run_tell, run_EVP_CipherUpdate, h.key_length, h.iv_length, hlen,
    hfinal]

/-- A negative length is handed on, whatever comes of it. -/
theorem run_mp_aesgcm_decrypt_of_neg (h : g.Ideal) {ctext : Pointer} {clen : Nat}
    (hlen : toInt (sizeSub clen SESSION_TAG_LENGTH) < 0) :
    ∃ r, (mp_aesgcm_decrypt g ctext clen key iv).run =
      some (r, [⟨(clen : Int) - SESSION_TAG_LENGTH, SESSION_TAG_LENGTH⟩,
        ⟨0, toInt (sizeSub clen SESSION_TAG_LENGTH)⟩]) := by
  cases hout : g.negative key iv (toInt (sizeSub clen SESSION_TAG_LENGTH)) with
  | none =>
      simp [mp_aesgcm_decrypt, OPENSSL_assert, EVP_CipherInit_ex, EVP_CTRL_GCM_SET_TAG, run_bind,
        run_tell, run_EVP_CipherUpdate_of_neg _ _ hlen, h.key_length, h.iv_length, hout]
  | some out =>
      cases hfinal : g.final key iv []
        (read ctext ((clen : Int) - SESSION_TAG_LENGTH) SESSION_TAG_LENGTH) <;>
      simp [mp_aesgcm_decrypt, OPENSSL_assert, EVP_CipherInit_ex, EVP_CTRL_GCM_SET_TAG,
        EVP_CipherFinal_ex, run_bind, run_tell, run_EVP_CipherUpdate_of_neg _ _ hlen, h.key_length,
        h.iv_length, hout, hfinal]

end Runs

/-! ## Authenticated encryption -/

/-- The body and the tag are those of some plaintext. -/
def Sealed (g : Evp) (key : Key) (iv : Iv) (body tag : Bytes) : Prop :=
  ∃ p, g.encrypt key iv p = (body, tag)

/-- The buffer is what `mp_aesgcm_encrypt` writes for some plaintext. -/
def Output (g : Evp) (key : Key) (iv : Iv) (ctext : Bytes) : Prop :=
  ∃ ptext around log, ptext.length < 2 ^ 31 ∧
    (mp_aesgcm_encrypt g (pointer ptext around) ptext.length key iv).run =
      some (⟨1, ctext, ptext.length + SESSION_TAG_LENGTH⟩, log)

/-- Decryption accepts the buffer exactly if it is an output, and is only led to
bytes of the buffer. -/
def Meets (g : Evp) (key : Key) (iv : Iv) (ctext : Bytes) (around : Pointer) : Prop :=
  ∃ r log, (mp_aesgcm_decrypt g (pointer ctext around) ctext.length key iv).run = some (r, log) ∧
    (Output g key iv ctext ∧ r.ret = 1 ∨ ¬ Output g key iv ctext ∧ r.ret = -1) ∧
      ∀ a ∈ log, a.Inside ctext.length

/-- How long the body is, going by the length of the buffer. -/
def bodyLength (ctext : Bytes) : Nat := ctext.length - SESSION_TAG_LENGTH

/-- The buffer has room for a tag, and its body is not too long for an `int`; or
it is, what is left of the length is not negative, and the part of that length is
not what the tag belongs to. -/
def Decryptable (g : Evp) (key : Key) (iv : Iv) (ctext : Bytes) : Prop :=
  SESSION_TAG_LENGTH ≤ ctext.length ∧
    (bodyLength ctext < 2 ^ 31 ∨
      bodyLength ctext % 2 ^ 32 < 2 ^ 31 ∧
        ¬ Sealed g key iv (ctext.take (bodyLength ctext % 2 ^ 32)) (ctext.drop (bodyLength ctext)))

section Aead

variable {g : Evp} {key : Key} {iv : Iv} {ctext : Bytes}

/-- The final call accepts what was sealed. -/
theorem final_iff_sealed (h : g.Ideal) {body tag : Bytes} :
    g.final key iv body tag = true ↔ Sealed g key iv body tag := by
  constructor
  · exact h.rejects key iv body tag
  · rintro ⟨p, hp⟩
    have haccepts := h.accepts key iv p
    rwa [hp] at haccepts

theorem output_iff (h : g.Ideal) :
    Output g key iv ctext ↔ ∃ p, p.length < 2 ^ 31 ∧
      ctext = (g.encrypt key iv p).1 ++ (g.encrypt key iv p).2 := by
  constructor
  · rintro ⟨p, around, log, hlen, hrun⟩
    rw [run_mp_aesgcm_encrypt h hlen] at hrun
    cases hrun
    exact ⟨p, hlen, rfl⟩
  · rintro ⟨p, hlen, rfl⟩
    exact ⟨p, fun _ => 0, _, hlen, run_mp_aesgcm_encrypt h hlen _⟩

/-- The length of an output. -/
theorem length_of_output (h : g.Ideal) (hout : Output g key iv ctext) :
    SESSION_TAG_LENGTH ≤ ctext.length ∧ bodyLength ctext < 2 ^ 31 := by
  obtain ⟨p, hlen, rfl⟩ := (output_iff h).1 hout
  have hbody := h.length_ciphertext key iv p
  have htag := h.length_tag key iv p
  rw [bodyLength, List.length_append]
  omega

/-- A buffer of the right length is an output where body and tag belong together. -/
theorem output_iff_sealed (h : g.Ideal) (hlen : SESSION_TAG_LENGTH ≤ ctext.length)
    (hbody : bodyLength ctext < 2 ^ 31) :
    Output g key iv ctext ↔
      Sealed g key iv (ctext.take (bodyLength ctext)) (ctext.drop (bodyLength ctext)) := by
  rw [output_iff h]
  constructor
  · rintro ⟨p, -, rfl⟩
    have htag := h.length_tag key iv p
    have hlength : bodyLength ((g.encrypt key iv p).1 ++ (g.encrypt key iv p).2) =
        (g.encrypt key iv p).1.length := by
      rw [bodyLength, List.length_append]
      omega
    rw [hlength, List.take_left, List.drop_left]
    exact ⟨p, rfl⟩
  · rintro ⟨p, hp⟩
    have hciphertext := h.length_ciphertext key iv p
    rw [hp, List.length_take] at hciphertext
    have hshort : bodyLength ctext ≤ ctext.length := Nat.sub_le _ _
    refine ⟨p, by omega, ?_⟩
    rw [hp, List.take_append_drop]

/-- What decryption does with a buffer whose length is not turned negative. -/
theorem run_decrypt_buffer (h : g.Ideal) (around : Pointer)
    (hlen : SESSION_TAG_LENGTH ≤ ctext.length) (hbody : bodyLength ctext % 2 ^ 32 < 2 ^ 31) :
    ∃ log, (mp_aesgcm_decrypt g (pointer ctext around) ctext.length key iv).run =
        some (⟨if g.final key iv (ctext.take (bodyLength ctext % 2 ^ 32))
              (ctext.drop (bodyLength ctext)) then 1 else -1,
          g.decrypt key iv (ctext.take (bodyLength ctext % 2 ^ 32)),
          (g.decrypt key iv (ctext.take (bodyLength ctext % 2 ^ 32))).length⟩, log) ∧
      ∀ a ∈ log, a.Inside ctext.length := by
  have hadd : bodyLength ctext + SESSION_TAG_LENGTH = ctext.length := Nat.sub_add_cancel hlen
  have hmod : bodyLength ctext % 2 ^ 32 ≤ bodyLength ctext := Nat.mod_le _ _
  have hint : toInt (sizeSub ctext.length SESSION_TAG_LENGTH) =
      (bodyLength ctext % 2 ^ 32 : Nat) := by
    rw [toInt_sizeSub_of_le hlen]
    exact if_pos hbody
  have hoffset : (ctext.length : Int) - SESSION_TAG_LENGTH = bodyLength ctext := by omega
  have hhead : read (pointer ctext around) 0 (bodyLength ctext % 2 ^ 32) =
      ctext.take (bodyLength ctext % 2 ^ 32) := by
    have hread := @read_pointer ctext 0 (bodyLength ctext % 2 ^ 32) around (by omega)
    rwa [List.drop_zero] at hread
  have htail : read (pointer ctext around) (bodyLength ctext) SESSION_TAG_LENGTH =
      ctext.drop (bodyLength ctext) := by
    rw [read_pointer around (by omega)]
    apply List.take_of_length_le
    rw [List.length_drop]
    omega
  have hrun := @run_mp_aesgcm_decrypt g key iv h (pointer ctext around) ctext.length _ hint
  rw [hoffset, hhead, htail] at hrun
  refine ⟨_, hrun, ?_⟩
  intro a ha
  simp only [List.mem_cons, List.not_mem_nil, or_false] at ha
  rcases ha with rfl | rfl
  · exact inside_of_le (by omega)
  · exact @inside_of_le ctext.length 0 _ (by omega)

/-- What was encrypted is decrypted. -/
theorem round_trip (h : g.Ideal) {ptext : Bytes} (hlen : ptext.length < 2 ^ 31)
    (around around' : Pointer) :
    ∃ ctext log log', ctext.length = ptext.length + SESSION_TAG_LENGTH ∧
      (mp_aesgcm_encrypt g (pointer ptext around) ptext.length key iv).run =
        some (⟨1, ctext, ctext.length⟩, log) ∧
      (mp_aesgcm_decrypt g (pointer ctext around') ctext.length key iv).run =
        some (⟨1, ptext, ptext.length⟩, log') := by
  have hciphertext := h.length_ciphertext key iv ptext
  have htag := h.length_tag key iv ptext
  have hlength : ((g.encrypt key iv ptext).1 ++ (g.encrypt key iv ptext).2).length =
      ptext.length + SESSION_TAG_LENGTH := by
    rw [List.length_append, hciphertext, htag]
  have hbody : bodyLength ((g.encrypt key iv ptext).1 ++ (g.encrypt key iv ptext).2) =
      (g.encrypt key iv ptext).1.length := by
    rw [bodyLength, hlength, hciphertext, Nat.add_sub_cancel]
  have hmod : (g.encrypt key iv ptext).1.length % 2 ^ 32 = (g.encrypt key iv ptext).1.length :=
    Nat.mod_eq_of_lt (by omega)
  obtain ⟨log', hdecrypt, -⟩ := @run_decrypt_buffer g key iv
    ((g.encrypt key iv ptext).1 ++ (g.encrypt key iv ptext).2) h around' (by omega)
    (by rw [hbody, hmod]; omega)
  rw [hbody, hmod, List.take_left, List.drop_left, h.accepts, h.inverts] at hdecrypt
  have hencrypt := @run_mp_aesgcm_encrypt g key iv h ptext hlen around
  rw [← hlength] at hencrypt
  exact ⟨_, _, log', hlength, hencrypt, hdecrypt⟩

/-- Every pointer stays in a buffer that is handled correctly. -/
theorem length_of_meets (h : g.Ideal) {around : Pointer} (hmeets : Meets g key iv ctext around) :
    SESSION_TAG_LENGTH ≤ ctext.length ∧ bodyLength ctext % 2 ^ 32 < 2 ^ 31 := by
  obtain ⟨r, log, hrun, -, hinside⟩ := hmeets
  have hpos : ¬ toInt (sizeSub ctext.length SESSION_TAG_LENGTH) < 0 := by
    intro hneg
    obtain ⟨r', hrun'⟩ :=
      @run_mp_aesgcm_decrypt_of_neg g key iv h (pointer ctext around) ctext.length hneg
    rw [hrun'] at hrun
    generalize toInt (sizeSub ctext.length SESSION_TAG_LENGTH) = inl at hneg hrun
    cases hrun
    have hcount : 0 ≤ inl := (hinside ⟨0, inl⟩ (by simp)).2.1
    omega
  obtain ⟨n, hn⟩ := Int.eq_ofNat_of_zero_le (Int.not_lt.1 hpos)
  have hrun' := @run_mp_aesgcm_decrypt g key iv h (pointer ctext around) ctext.length n hn
  rw [hrun'] at hrun
  cases hrun
  have hoffset : (0 : Int) ≤ (ctext.length : Int) - SESSION_TAG_LENGTH :=
    (hinside _ List.mem_cons_self).1
  have hlen : SESSION_TAG_LENGTH ≤ ctext.length := by omega
  refine ⟨hlen, ?_⟩
  by_contra hlong
  have hlong : ¬ (ctext.length - SESSION_TAG_LENGTH) % 2 ^ 32 < 2 ^ 31 := hlong
  rw [toInt_sizeSub_of_le hlen, if_neg hlong] at hn
  omega

/-- **Encryption and decryption are inverse, and a buffer is told from an output
exactly where it is long enough for a tag and its body is not too long.** -/
theorem aead_iff (h : g.Ideal) (key : Key) (iv : Iv) :
    (∀ (ptext : Bytes) (around around' : Pointer), ptext.length < 2 ^ 31 →
      ∃ ctext log log', ctext.length = ptext.length + SESSION_TAG_LENGTH ∧
        (mp_aesgcm_encrypt g (pointer ptext around) ptext.length key iv).run =
          some (⟨1, ctext, ctext.length⟩, log) ∧
        (mp_aesgcm_decrypt g (pointer ctext around') ctext.length key iv).run =
          some (⟨1, ptext, ptext.length⟩, log')) ∧
    ∀ (ctext : Bytes) (around : Pointer),
      Meets g key iv ctext around ↔ Decryptable g key iv ctext := by
  refine ⟨fun ptext around around' hlen => round_trip h hlen around around', ?_⟩
  intro ctext around
  constructor
  · intro hmeets
    obtain ⟨hlen, hshort⟩ := length_of_meets h hmeets
    refine ⟨hlen, ?_⟩
    by_cases hbody : bodyLength ctext < 2 ^ 31
    · exact Or.inl hbody
    · -- too long for an output, so the tag has to be wrong
      refine Or.inr ⟨hshort, fun hsealed => ?_⟩
      obtain ⟨r, log, hrun, hret, -⟩ := hmeets
      obtain ⟨log', hrun', -⟩ := run_decrypt_buffer h around hlen hshort
      rw [hrun', if_pos ((final_iff_sealed h).2 hsealed)] at hrun
      cases hrun
      rcases hret with ⟨hout, -⟩ | ⟨-, hret⟩
      · exact hbody (length_of_output h hout).2
      · cases hret
  · rintro ⟨hlen, hbody⟩
    have hshort : bodyLength ctext % 2 ^ 32 < 2 ^ 31 := by
      rcases hbody with hbody | hbody
      · rwa [Nat.mod_eq_of_lt (by omega)]
      · exact hbody.1
    obtain ⟨log, hrun, hinside⟩ := run_decrypt_buffer h around hlen hshort
    refine ⟨_, log, hrun, ?_, hinside⟩
    have hsealed : Output g key iv ctext ↔ Sealed g key iv
        (ctext.take (bodyLength ctext % 2 ^ 32)) (ctext.drop (bodyLength ctext)) := by
      rcases hbody with hbody | ⟨-, hnot⟩
      · rw [Nat.mod_eq_of_lt (by omega)]
        exact output_iff_sealed h hlen hbody
      · by_cases hbody : bodyLength ctext < 2 ^ 31
        · rw [Nat.mod_eq_of_lt (by omega)]
          exact output_iff_sealed h hlen hbody
        · exact ⟨fun hout => absurd (length_of_output h hout).2 hbody, fun hs => absurd hs hnot⟩
    rw [hsealed, ← final_iff_sealed h]
    cases g.final key iv (ctext.take (bodyLength ctext % 2 ^ 32))
      (ctext.drop (bodyLength ctext)) <;> simp

end Aead

/-! ## One zero byte under the zero key -/

def zeroKey : Key := ⟨List.replicate 32 0, rfl⟩
def zeroIv : Iv := ⟨List.replicate 12 0, rfl⟩

/-- The tag of one zero byte under the zero key and vector. -/
def zeroTag : Bytes :=
  [51, 174, 75, 125, 167, 39, 154, 101, 123, 178, 144, 118, 160, 148, 212, 62]

/-- A cipher that agrees with AES-256-GCM there. -/
def zeroCipher : Evp where
  key_length := 32
  iv_length := 12
  encrypt _ _ p := (p.map (206 ^^^ ·), zeroTag)
  decrypt _ _ c := c.map (206 ^^^ ·)
  final _ _ _ tag := tag = zeroTag
  negative _ _ _ := none

theorem xor_twice (bs : Bytes) : (bs.map (206 ^^^ ·)).map (206 ^^^ ·) = bs := by
  rw [List.map_map]
  apply List.map_id''
  intro b
  rw [Function.comp_apply, ← UInt8.xor_assoc, UInt8.xor_self, UInt8.zero_xor]

theorem zeroCipher_ideal : zeroCipher.Ideal where
  key_length := rfl
  iv_length := rfl
  length_ciphertext _ _ p := List.length_map _
  length_tag _ _ _ := rfl
  inverts _ _ p := xor_twice p
  accepts _ _ _ := by simp [zeroCipher]
  rejects key iv c tag h := by
    have htag : tag = zeroTag := by simpa [zeroCipher] using h
    rw [htag]
    exact ⟨c.map (206 ^^^ ·), Prod.ext (xor_twice c) rfl⟩

theorem aead_iff_zero :
    (∃ ctext log log', ctext.length = 17 ∧
      (mp_aesgcm_encrypt zeroCipher (pointer [0] fun _ => 0) 1 zeroKey zeroIv).run =
        some (⟨1, ctext, ctext.length⟩, log) ∧
      (mp_aesgcm_decrypt zeroCipher (pointer ctext fun _ => 0) ctext.length zeroKey zeroIv).run =
        some (⟨1, [0], 1⟩, log')) ∧
    (Meets zeroCipher zeroKey zeroIv (206 :: zeroTag) (fun _ => 0) ↔
      Decryptable zeroCipher zeroKey zeroIv (206 :: zeroTag)) :=
  ⟨(aead_iff zeroCipher_ideal zeroKey zeroIv).1 [0] _ _ (by decide),
    (aead_iff zeroCipher_ideal zeroKey zeroIv).2 (206 :: zeroTag) _⟩

/-- An empty buffer: the tag is read in front of it. -/
theorem empty_buffer_read_outside : ¬ Meets zeroCipher zeroKey zeroIv [] fun _ => 0 := by
  intro hmeets
  exact absurd (length_of_meets zeroCipher_ideal hmeets).1 (by decide)

end EndToEndSmkex.Smkex.Crypto
