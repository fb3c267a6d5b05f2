import EndToEndSmkex.Smkex.Network

/-!
# Two parties and records delivered once

The records in flight are a list from which every delivery takes one away, so
that nothing is lost, duplicated or altered; which record arrives next is free.
An order of delivery is complete when nothing is left in flight.
-/

namespace EndToEndSmkex.Smkex.Delivery

open EndToEndSmkex.Lib.Run
open EndToEndSmkex.Smkex.Record
open EndToEndSmkex.Smkex.SessionInfo
open EndToEndSmkex.Smkex.Handshake
open EndToEndSmkex.Smkex.Transitions
open EndToEndSmkex.Smkex.Network

variable {K : Type}

/-- A record on its way. -/
structure Flying where
  dest : Side
  record : SmkexT4mRecord
  deriving DecidableEq

/-- The session of each party, `none` once its process has ended, and the
records on their way. -/
structure Pipe (K : Type) where
  session : Side → Option (SmkexSessionInfo K)
  flight : List Flying

/-- The arrival of a record. -/
structure Arrival (K : Type) where
  message : Flying
  env : Env K

/-- Records on their way to a party. -/
def toward (p : Side) (records : List SmkexT4mRecord) : List Flying := records.map (⟨p, ·⟩)

section Steps

variable (ssl : OpenSSL K) (serial : Side → MpString)

/-- A party starts a handshake. -/
def Pipe.initSession (w : Pipe K) (p : Side) (env : Env K) : Option (Pipe K) :=
  (w.session p).bind fun s =>
    (initiate ssl env (serial p.other) s).map fun q =>
      { session := Function.update w.session p (some q.1)
        flight := w.flight ++ toward p.other q.2 }

/-- A record arrives at a party whose process is running. -/
def Pipe.step (w : Pipe K) (a : Arrival K) : Option (Pipe K) :=
  if a.message ∈ w.flight then
    (w.session a.message.dest).map fun s =>
      match answer ssl a.env (serial a.message.dest.other) s a.message.record with
      | none =>
        { session := Function.update w.session a.message.dest none
          flight := w.flight.erase a.message }
      | some q =>
        { session := Function.update w.session a.message.dest (some q.1)
          flight := w.flight.erase a.message ++ toward a.message.dest.other q.2 }
  else none

end Steps

section Cases

variable {ssl : OpenSSL K} {serial : Side → MpString} {w w' : Pipe K} {p : Side}
  {r : SmkexT4mRecord} {env : Env K}

theorem mem_of_step (h : w.step ssl serial ⟨⟨p, r⟩, env⟩ = some w') : ⟨p, r⟩ ∈ w.flight := by
  by_contra hm
  rw [Pipe.step, if_neg hm] at h
  cases h

/-- A record that does not end the process is answered. -/
theorem step_answers (h : w.step ssl serial ⟨⟨p, r⟩, env⟩ = some w')
    {s : SmkexSessionInfo K} (hs : w.session p = some s) (hexits : ¬ Exits ssl s r) :
    ∃ s' records, Answer ssl env (serial p.other) s r s' records ∧
      w'.session p = some s' ∧ w'.session p.other = w.session p.other ∧
      w'.flight = w.flight.erase ⟨p, r⟩ ++ toward p.other records := by
  obtain ⟨s', records, hanswer⟩ := answer_isSome ssl env (serial p.other) hexits
  rw [Pipe.step, if_pos (mem_of_step h), hs, Option.map_some, hanswer, Option.some.injEq] at h
  subst h
  exact ⟨s', records, answer_cases _ _ _ hanswer, Function.update_self _ _ _,
    Function.update_of_ne (Side.other_ne _) _ _, rfl⟩

/-- What is in flight after an arrival, counted. -/
theorem countP_arrival (f : Flying → Bool) {l l' new : List Flying} {m : Flying} (hm : m ∈ l)
    (hl : l' = l.erase m ++ new) :
    l'.countP f + (if f m then 1 else 0) = l.countP f + new.countP f := by
  have hperm := (List.perm_cons_erase hm).countP_eq f
  rw [List.countP_cons] at hperm
  rw [hl, List.countP_append]
  omega

/-- What is in flight after an arrival, weighed. -/
theorem sum_arrival (f : Flying → Nat) {l l' new : List Flying} {m : Flying} (hm : m ∈ l)
    (hl : l' = l.erase m ++ new) :
    (l'.map f).sum + f m = (l.map f).sum + (new.map f).sum := by
  have hperm := ((List.perm_cons_erase hm).map f).sum_nat
  rw [List.map_cons, List.sum_cons] at hperm
  rw [hl, List.map_append, List.sum_append]
  omega

/-- What is in flight after an arrival was there before or is new. -/
theorem mem_arrival {l l' new : List Flying} {m q : Flying} (hl : l' = l.erase m ++ new)
    (hq : q ∈ l') : q ∈ l ∨ q ∈ new := by
  rw [hl] at hq
  rcases List.mem_append.1 hq with hq | hq
  · exact Or.inl (List.mem_of_mem_erase hq)
  · exact Or.inr hq

end Cases

end EndToEndSmkex.Smkex.Delivery
