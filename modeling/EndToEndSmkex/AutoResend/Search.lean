import EndToEndSmkex.AutoResend.Engine

/-!
# The search for the next message

A driven engine sorts its users by weight and goes through them.  It marks the
dirty pools it passes and stops at the first user it can send to.

## Main results

* `sortMessages_ordered` — after sorting the users stand by weight.
* `scan_scanned` — what the search through the sorted users does.
-/

namespace EndToEndSmkex.AutoResend.Search

open EndToEndSmkex.Lib.BubbleSort
open EndToEndSmkex.Smkex.Record
open EndToEndSmkex.AutoResend.MsgPayload
open EndToEndSmkex.AutoResend.Pool
open EndToEndSmkex.AutoResend.Engine

/-! ## Sorting -/

/-- Both users have pools, and the first one's is not the heavier. -/
def Ordered (e : MpAutoResendEngine) (s t : MpString) : Prop :=
  ∃ p q, e.userPool_ s = some p ∧ e.userPool_ t = some q ∧ p.weight_ ≤ q.weight_

instance (e : MpAutoResendEngine) : IsTrans MpString (Ordered e) where
  trans := by
    rintro s t u ⟨p, q, hp, hq, hpq⟩ ⟨q', r, hq', hr, hqr⟩
    rw [hq, Option.some.injEq] at hq'
    subst hq'
    exact ⟨p, r, hp, hr, le_trans hpq hqr⟩

theorem inOrder_iff (e : MpAutoResendEngine) (s t : MpString) :
    InOrder (weightSortCmp e) s t ↔ Ordered e s t := by
  unfold InOrder weightSortCmp Ordered
  cases hs : e.userPool_ s with
  | none => simp
  | some p =>
      cases ht : e.userPool_ t with
      | none => simp
      | some q => simp

/-- Sorting changes the order of the users, and uses up the answers. -/
theorem sortMessages_eq_some {e e' : MpAutoResendEngine} {missing : List Bool}
    (h : sortMessages e missing = some e') :
    ∃ priority, bubbleSort (weightSortCmp e) e.priority_ missing = some (priority, []) ∧
      e' = { e with priority_ := priority } := by
  unfold sortMessages at h
  cases hsort : bubbleSort (weightSortCmp e) e.priority_ missing with
  | none => simp [hsort] at h
  | some p =>
      rcases p with ⟨priority, left⟩
      cases left with
      | cons b left => simp [hsort] at h
      | nil =>
          simp only [hsort, Option.some.injEq] at h
          exact ⟨priority, rfl, h.symm⟩

/-- Where no comparison missed a pool, the users stand by weight. -/
theorem sortMessages_ordered {e e' : MpAutoResendEngine} (h : sortMessages e [] = some e') :
    e'.priority_.Pairwise (Ordered e') := by
  obtain ⟨priority, hsort, rfl⟩ := sortMessages_eq_some h
  apply List.isChain_iff_pairwise.1
  apply (bubbleSort_inOrder hsort).imp
  intro s t hst
  exact (inOrder_iff e s t).1 hst

/-! ## Marking -/

section Marking

variable (dbConnectors : List mp_msg_type_t) {pool : MpMsgPool}

/-- A pool is processed as a whole, or left alone: without messages, and with
the weight of processed pools. -/
theorem markUserPoolProcessed_cases (pool : MpMsgPool) :
    (markUserPoolProcessed dbConnectors pool = (pool, []) ∧
        (pool.messages_ = [] ∨ pool.weight_ = INT_MAX)) ∨
      (pool.messages_ ≠ [] ∧ pool.weight_ ≠ INT_MAX ∧
        (markUserPoolProcessed dbConnectors pool).1 =
          MpMsgPool.setWeight
            { pool with messages_ := pool.messages_.map MpMsgPayload.markAsProcessed }
            INT_MAX) := by
  unfold markUserPoolProcessed
  by_cases hempty : pool.messages_.isEmpty = true
  · rw [if_pos hempty]
    exact Or.inl ⟨rfl, Or.inl (List.isEmpty_iff.1 hempty)⟩
  · have hmessages : pool.messages_ ≠ [] := by simpa using hempty
    by_cases hweight : pool.weight_ = INT_MAX
    · rw [if_neg hempty, if_pos hweight]
      exact Or.inl ⟨rfl, Or.inr hweight⟩
    · rw [if_neg hempty, if_neg hweight]
      exact Or.inr ⟨hmessages, hweight, rfl⟩

/-- A pool with the weight of processed pools is not processed again. -/
theorem markUserPoolProcessed_max (h : pool.weight_ = INT_MAX) :
    markUserPoolProcessed dbConnectors pool = (pool, []) := by
  rcases markUserPoolProcessed_cases dbConnectors pool with ⟨hsame, -⟩ | ⟨-, hne, -⟩
  · exact hsame
  · exact absurd h hne

@[simp] theorem dirty_markUserPoolProcessed (pool : MpMsgPool) :
    (markUserPoolProcessed dbConnectors pool).1.dirty_ = pool.dirty_ := by
  rcases markUserPoolProcessed_cases dbConnectors pool with ⟨hsame, -⟩ | ⟨-, -, hmarked⟩
  · rw [hsame]
  · rw [hmarked]
    rfl

theorem weight_markUserPoolProcessed (h : pool.messages_ ≠ []) :
    (markUserPoolProcessed dbConnectors pool).1.weight_ = INT_MAX := by
  rcases markUserPoolProcessed_cases dbConnectors pool with ⟨hsame, hwhy⟩ | ⟨-, -, hmarked⟩
  · rw [hsame]
    exact hwhy.resolve_left h
  · rw [hmarked]
    rfl

theorem markUserPoolProcessed_contents (pool : MpMsgPool) :
    (markUserPoolProcessed dbConnectors pool).1.contents = pool.contents := by
  rcases markUserPoolProcessed_cases dbConnectors pool with ⟨hsame, -⟩ | ⟨-, -, hmarked⟩
  · rw [hsame]
  · rw [hmarked]
    simp [MpMsgPool.contents, Function.comp_def, MpMsgPool.setWeight,
      MpMsgPayload.markAsProcessed, MpMsgPayload.markAsUnProcessed]

/-- A marked pool is not marked again. -/
theorem markUserPoolProcessed_again (pool : MpMsgPool) :
    markUserPoolProcessed dbConnectors (markUserPoolProcessed dbConnectors pool).1 =
      ((markUserPoolProcessed dbConnectors pool).1, []) := by
  rcases markUserPoolProcessed_cases dbConnectors pool with ⟨hsame, -⟩ | ⟨-, -, hmarked⟩
  · rw [hsame]
    exact hsame
  · apply markUserPoolProcessed_max
    rw [hmarked]
    rfl

/-- What the search does to a pool it passes. -/
def marked (dbConnectors : List mp_msg_type_t) (pool : MpMsgPool) : MpMsgPool :=
  if pool.dirty_ then (markUserPoolProcessed dbConnectors pool).1 else pool

@[simp] theorem dirty_marked (pool : MpMsgPool) :
    (marked dbConnectors pool).dirty_ = pool.dirty_ := by
  unfold marked
  by_cases hdirty : pool.dirty_ = true
  · rw [if_pos hdirty, dirty_markUserPoolProcessed]
  · rw [if_neg hdirty]

theorem marked_clean (h : pool.dirty_ = false) : marked dbConnectors pool = pool := by
  simp [marked, h]

theorem marked_dirty (h : pool.dirty_ = true) :
    marked dbConnectors pool = (markUserPoolProcessed dbConnectors pool).1 := by
  simp [marked, h]

theorem marked_marked (pool : MpMsgPool) :
    marked dbConnectors (marked dbConnectors pool) = marked dbConnectors pool := by
  by_cases hdirty : pool.dirty_ = true
  · rw [marked_dirty dbConnectors (by simpa using hdirty), marked_dirty dbConnectors hdirty,
      markUserPoolProcessed_again]
  · rw [marked_clean dbConnectors (Bool.eq_false_iff.2 hdirty)]
    exact marked_clean dbConnectors (Bool.eq_false_iff.2 hdirty)

theorem marked_contents (pool : MpMsgPool) :
    (marked dbConnectors pool).contents = pool.contents := by
  unfold marked
  by_cases hdirty : pool.dirty_ = true
  · rw [if_pos hdirty, markUserPoolProcessed_contents]
  · rw [if_neg hdirty]

end Marking

/-! ## The search -/

/-- The search stops at this user. -/
def Eligible (e : MpAutoResendEngine) (serial : MpString) : Prop :=
  ∃ pool, e.userPool_ serial = some pool ∧ pool.messages_ ≠ [] ∧ pool.dirty_ = false ∧
    0 < (pool.getMessage e.autoResendEnabled_).numberOfRetries_

/-- The message of the first user the search can stop at. -/
inductive Picks (e : MpAutoResendEngine) (serials : List MpString) :
    Option MpMsgPayload → Prop
  | nobody (all : ∀ s ∈ serials, ¬ Eligible e s) : Picks e serials none
  | first {passed rest : List MpString} {serial : MpString} {pool : MpMsgPool}
      (split : serials = passed ++ serial :: rest) (before : ∀ s ∈ passed, ¬ Eligible e s)
      (eligible : Eligible e serial) (found : e.userPool_ serial = some pool) :
      Picks e serials (some (pool.getMessage e.autoResendEnabled_))

/-- What the search does. -/
structure Scanned (e : MpAutoResendEngine) (serials : List MpString) (out : Outcome) :
    Prop where
  priority : out.engine.priority_ = e.priority_
  autoResend : out.engine.autoResendEnabled_ = e.autoResendEnabled_
  pools : ∀ serial, out.engine.userPool_ serial = e.userPool_ serial ∨
    out.engine.userPool_ serial = (e.userPool_ serial).map (marked e.dbConnectors_)
  picks : Picks e serials out.handed
  reports : ∀ r ∈ out.reports, ∃ serial pool, e.userPool_ serial = some pool ∧
    pool.dirty_ = true ∧ r ∈ (markUserPoolProcessed e.dbConnectors_ pool).2

section Search

variable {e : MpAutoResendEngine} {serial : MpString} {serials : List MpString}
  {pool : MpMsgPool} {out : Outcome}

theorem eligible_iff (hpool : e.userPool_ serial = some pool) :
    Eligible e serial ↔ pool.messages_ ≠ [] ∧ pool.dirty_ = false ∧
      0 < (pool.getMessage e.autoResendEnabled_).numberOfRetries_ := by
  simp [Eligible, hpool]

/-- Passing over a user. -/
theorem Picks.skip {o : Option MpMsgPayload} (h : Picks e serials o)
    (hserial : ¬ Eligible e serial) : Picks e (serial :: serials) o := by
  cases h with
  | nobody hall =>
      apply Picks.nobody
      intro s hs
      rcases List.mem_cons.1 hs with rfl | hs
      · exact hserial
      · exact hall s hs
  | @first passed rest chosen p split before eligible found =>
      have hsplit : serial :: serials = (serial :: passed) ++ chosen :: rest := by
        rw [split, List.cons_append]
      apply Picks.first hsplit ?_ eligible found
      intro s hs
      rcases List.mem_cons.1 hs with rfl | hs
      · exact hserial
      · exact before s hs

theorem Scanned.skip (h : Scanned e serials out) (hserial : ¬ Eligible e serial) :
    Scanned e (serial :: serials) out :=
  ⟨h.priority, h.autoResend, h.pools, h.picks.skip hserial, h.reports⟩

theorem not_eligible (hpool : e.userPool_ serial = some pool) (hdirty : pool.dirty_ = true) :
    ¬ Eligible e serial := by
  rw [eligible_iff hpool, hdirty]
  rintro ⟨-, hclean, -⟩
  cases hclean

/-- Marking a dirty pool makes nobody eligible and keeps everybody who is. -/
theorem eligible_setPool (hpool : e.userPool_ serial = some pool) (hdirty : pool.dirty_ = true)
    (s : MpString) :
    Eligible (e.setPool serial (some (marked e.dbConnectors_ pool))) s ↔ Eligible e s := by
  by_cases hs : s = serial
  · subst hs
    have hmarked : (marked e.dbConnectors_ pool).dirty_ = true := by
      rw [dirty_marked, hdirty]
    exact iff_of_false (not_eligible (by rw [userPool_setPool, if_pos rfl]) hmarked)
      (not_eligible hpool hdirty)
  · unfold Eligible
    simp only [userPool_setPool, hs, if_false]
    exact Iff.rfl

theorem Picks.marked {o : Option MpMsgPayload} (hpool : e.userPool_ serial = some pool)
    (hdirty : pool.dirty_ = true)
    (h : Picks (e.setPool serial (some (Search.marked e.dbConnectors_ pool))) serials o) :
    Picks e serials o := by
  cases h with
  | nobody hall =>
      apply Picks.nobody
      intro s hs heligible
      exact hall s hs ((eligible_setPool hpool hdirty s).2 heligible)
  | @first passed rest chosen p split before eligible found =>
      have heligible := (eligible_setPool hpool hdirty chosen).1 eligible
      have hne : chosen ≠ serial := fun heq => not_eligible hpool hdirty (heq ▸ heligible)
      rw [userPool_setPool, if_neg hne] at found
      apply Picks.first split ?_ heligible found
      intro s hs hs'
      exact before s hs ((eligible_setPool hpool hdirty s).2 hs')

/-- Marking a dirty pool and searching on. -/
theorem Scanned.mark (hpool : e.userPool_ serial = some pool) (hdirty : pool.dirty_ = true)
    (h : Scanned (e.setPool serial (some (marked e.dbConnectors_ pool))) serials out) :
    Scanned e (serial :: serials)
      { out with reports := (markUserPoolProcessed e.dbConnectors_ pool).2 ++ out.reports } := by
  refine ⟨h.priority, h.autoResend, ?_,
    (h.picks.marked hpool hdirty).skip (not_eligible hpool hdirty), ?_⟩
  · intro s
    have hpools := h.pools s
    by_cases hs : s = serial
    · subst hs
      rw [userPool_setPool, if_pos rfl, Option.map_some] at hpools
      right
      rw [hpool, Option.map_some]
      rcases hpools with hsame | hmarked
      · exact hsame
      · rw [hmarked]
        exact congrArg some (marked_marked e.dbConnectors_ pool)
    · rw [userPool_setPool, if_neg hs] at hpools
      exact hpools
  · intro r hr
    rcases List.mem_append.1 hr with hown | hrest
    · exact ⟨serial, pool, hpool, hdirty, hown⟩
    · obtain ⟨s, p, hp, hpdirty, hmem⟩ := h.reports r hrest
      by_cases hs : s = serial
      · -- a pool that has just been marked is not reported
        rw [userPool_setPool, if_pos hs, Option.some.injEq] at hp
        rw [← hp, marked_dirty e.dbConnectors_ hdirty] at hmem
        change r ∈ (markUserPoolProcessed e.dbConnectors_ _).2 at hmem
        rw [markUserPoolProcessed_again] at hmem
        cases hmem
      · rw [userPool_setPool, if_neg hs] at hp
        exact ⟨s, p, hp, hpdirty, hmem⟩

/-- What the search does with a user: it passes over one who cannot be served,
marks a dirty pool, or stops. -/
inductive Visits (e : MpAutoResendEngine) (serial : MpString) (rest : List MpString) :
    Outcome → Prop
  | passes (skipped : ¬ Eligible e serial) : Visits e serial rest (scan e rest)
  | marks {pool : MpMsgPool} (found : e.userPool_ serial = some pool)
      (dirty : pool.dirty_ = true) :
      Visits e serial rest
        (let searched := scan (e.setPool serial (some (marked e.dbConnectors_ pool))) rest
        { searched with
          reports := (markUserPoolProcessed e.dbConnectors_ pool).2 ++ searched.reports })
  | stops {pool : MpMsgPool} (found : e.userPool_ serial = some pool)
      (eligible : Eligible e serial) :
      Visits e serial rest
        { engine := e, handed := some (pool.getMessage e.autoResendEnabled_), reports := [] }

theorem scan_visits (e : MpAutoResendEngine) (serial : MpString) (rest : List MpString) :
    Visits e serial rest (scan e (serial :: rest)) := by
  unfold scan
  cases hpool : e.userPool_ serial with
  | none =>
      apply Visits.passes
      rintro ⟨p, hp, -⟩
      rw [hpool] at hp
      cases hp
  | some pool =>
      by_cases hempty : pool.isPoolEmpty = true
      · simp only [hempty, if_true]
        apply Visits.passes
        rw [eligible_iff hpool]
        rintro ⟨hne, -⟩
        exact hne (List.isEmpty_iff.1 hempty)
      · by_cases hdirty : pool.dirty_ = true
        · simp only [hempty, hdirty, Bool.not_true, Bool.false_eq_true, if_false]
          rw [← marked_dirty e.dbConnectors_ hdirty]
          exact Visits.marks hpool hdirty
        · have hclean : pool.dirty_ = false := Bool.eq_false_iff.2 hdirty
          by_cases hretries : (pool.getMessage e.autoResendEnabled_).numberOfRetries_ ≤ 0
          · simp only [hempty, hdirty, hretries, Bool.not_false, Bool.false_eq_true,
              if_false, if_true]
            apply Visits.passes
            rw [eligible_iff hpool]
            rintro ⟨-, -, hpos⟩
            omega
          · simp only [hempty, hdirty, hretries, Bool.not_false, Bool.false_eq_true,
              if_false, if_true]
            have hmessages : pool.messages_ ≠ [] := by
              simpa [MpMsgPool.isPoolEmpty] using hempty
            exact Visits.stops hpool
              ((eligible_iff hpool).2 ⟨hmessages, hclean, not_le.1 hretries⟩)

/-- **The search.** -/
theorem scan_scanned (serials : List MpString) :
    ∀ e : MpAutoResendEngine, Scanned e serials (scan e serials) := by
  induction serials with
  | nil =>
      intro e
      exact ⟨rfl, rfl, fun _ => Or.inl rfl, .nobody (by simp), by simp [scan]⟩
  | cons serial rest ih =>
      intro e
      have hvisits := scan_visits e serial rest
      generalize scan e (serial :: rest) = out at hvisits ⊢
      cases hvisits with
      | passes skipped => exact (ih e).skip skipped
      | marks found dirty => exact Scanned.mark found dirty (ih _)
      | stops found eligible =>
          have hsplit : serial :: rest = [] ++ serial :: rest := rfl
          exact ⟨rfl, rfl, fun _ => Or.inl rfl, .first hsplit (by simp) eligible found,
            by simp⟩

/-- A search that finds nobody stops the engine. -/
theorem scan_started (serials : List MpString) : ∀ e : MpAutoResendEngine,
    (scan e serials).engine.started_ =
      if (scan e serials).handed.isSome then e.started_ else false := by
  induction serials with
  | nil => intro e; rfl
  | cons serial rest ih =>
      intro e
      have hvisits := scan_visits e serial rest
      generalize scan e (serial :: rest) = out at hvisits ⊢
      cases hvisits with
      | passes skipped => exact ih e
      | marks found dirty => exact ih _
      | stops found eligible => rfl

/-- The search leaves clean pools alone. -/
theorem Scanned.clean (h : Scanned e serials out) (hpool : e.userPool_ serial = some pool)
    (hclean : pool.dirty_ = false) : out.engine.userPool_ serial = some pool := by
  rcases h.pools serial with hsame | hmarked
  · rw [hsame, hpool]
  · rw [hmarked, hpool, Option.map_some, marked_clean e.dbConnectors_ hclean]

end Search

end EndToEndSmkex.AutoResend.Search
