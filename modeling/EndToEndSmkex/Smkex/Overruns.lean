import EndToEndSmkex.Smkex.Copies
import EndToEndSmkex.Smkex.Network
import EndToEndSmkex.Lib.Undefined

/-!
# Where a copy leaves its buffer

The handlers compute on, whatever a `memcpy` wrote behind a buffer or through a
pointer that was never set.  In the program the neighbours of the buffer are
overwritten, and these are other fields and the sessions of other buddies, so
that nothing is known of what follows.  The runs of this module take any state
for the outcome of such a step.

What is read behind a buffer is no concern here: it is read, and it is whatever
the surroundings have there.

## Main results

* `EventStays.answered` — where a record is answered in a step that is defined,
  the session has room for it.
-/

namespace EndToEndSmkex.Smkex.Overruns

open EndToEndSmkex.Lib.CBuffer
open EndToEndSmkex.Lib.Run
open EndToEndSmkex.Lib.Undefined
open EndToEndSmkex.Smkex.Record
open EndToEndSmkex.Smkex.SessionInfo
open EndToEndSmkex.Smkex.Handshake
open EndToEndSmkex.Smkex.Transitions
open EndToEndSmkex.Smkex.Keychain
open EndToEndSmkex.Smkex.Copies
open EndToEndSmkex.Smkex.Network

variable {K : Type}

/-! ## Copies that stay -/

/-- All that is written goes into memory that was allocated for it. -/
def InBuffer (c : Copy) : Prop := ∃ size, c.writable = some size ∧ c.count ≤ size

theorem inBuffer_some {count readable size : Nat} :
    InBuffer ⟨count, readable, some size⟩ ↔ count ≤ size := by
  simp [InBuffer]

instance : (c : Copy) → Decidable (InBuffer c)
  | ⟨_, _, none⟩ => isFalse (by simp [InBuffer])
  | ⟨_, _, some _⟩ => decidable_of_iff _ inBuffer_some.symm

/-- The copies made for the record stay in their buffers. -/
def Stay (s : SmkexSessionInfo K) (r : SmkexT4mRecord) : Prop := ∀ c ∈ copiesFor s r, InBuffer c

instance (s : SmkexSessionInfo K) (r : SmkexT4mRecord) : Decidable (Stay s r) :=
  inferInstanceAs (Decidable (∀ c ∈ copiesFor s r, InBuffer c))

/-- A key that comes to a connected session needs room for 256 bytes. -/
theorem room_of_renewed {s : SmkexSessionInfo K} {r : SmkexT4mRecord} (h : Stay s r)
    (type : r.type = .handshakeKey) (status : s.status = .connected) :
    PUB_KEY_LEN ≤ s.remote_pub_key.size := by
  have hcopy := h ⟨PUB_KEY_LEN, r.length.toNat, some s.remote_pub_key.size⟩
    (by simp [copiesFor, type, status])
  exact inBuffer_some.1 hcopy

/-! ## Two parties -/

/-- The copies an event of the network makes stay in their buffers. -/
def EventStays (u : Setup K) (n : Net K) : NetEvent K → Prop
  | .initSession _ _ => True
  | .deliver p r env | .inject p r env =>
      match n.party p with
      | none => True
      | some keychain => Stay (sessionFor (u.env p env) keychain (u.serial p.other)) r

instance (u : Setup K) (n : Net K) : (e : NetEvent K) → Decidable (EventStays u n e)
  | .initSession _ _ => isTrue trivial
  | .deliver p r env | .inject p r env =>
      match h : n.party p with
      | none => isTrue (by simp only [EventStays, h])
      | some keychain =>
          decidable_of_iff (Stay (sessionFor (u.env p env) keychain (u.serial p.other)) r)
            (by simp only [EventStays, h])

/-- One event of the network.  Nothing is known of what follows a copy that
leaves its buffer. -/
abbrev netStep (u : Setup K) : Net K → NetEvent K × Option (Net K) → Option (Net K) :=
  havoc (EventStays u) (Net.step u)

/-- A run as its events give it, where no copy leaves its buffer. -/
abbrev plain {ε σ : Type*} (es : List ε) : List (ε × Option σ) := es.map fun e => (e, none)

section Step

variable {u : Setup K} {n n' : Net K} {e : NetEvent K}

/-- The session a record is answered in has room for it. -/
theorem EventStays.answered {r : SmkexT4mRecord} {env : Env K} {s : SmkexSessionInfo K}
    (h : EventStays u n e) (hstep : n.step u e = some n') (brings : e.Brings n r env)
    (before : n.session u e.side = some s ∨ n.session u e.side = none ∧
      s = SmkexSessionInfo.new (u.env e.side env).fresh) : Stay s r := by
  obtain ⟨keychain, hparty⟩ := party_of_step hstep
  have hsession : sessionFor (u.env e.side env) keychain (u.serial e.side.other) = s := by
    have hs : n.session u e.side = keychain (u.serial e.side.other) := by
      rw [Net.session, hparty, Option.bind_some]
    rw [hs] at before
    rw [sessionFor, getSessionInfo_eq]
    rcases before with before | ⟨before, rfl⟩ <;> rw [before]
    rfl
  have hstay : Stay (sessionFor (u.env e.side env) keychain (u.serial e.side.other)) r := by
    rcases brings with ⟨he, -⟩ | ⟨he, -⟩ <;> rw [he] at h <;>
      simp only [EventStays, hparty] at h <;> exact h
  rwa [hsession] at hstay

end Step

end EndToEndSmkex.Smkex.Overruns
