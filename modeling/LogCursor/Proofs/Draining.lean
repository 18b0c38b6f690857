import LogCursor.Drain
import LogCursor.Proofs.Advance
import LogCursor.Proofs.CheckpointGrammar
import LogCursor.Proofs.ExactAllocation
import LogCursor.Proofs.RoundTrip
import Mathlib.Algebra.Order.BigOperators.Group.List
import Mathlib.Data.List.Chain
/-!
Draining towards fixed heads. A step from any checkpoint that is read deals its budget exactly
(`step_dealt`), and the next step goes on where it stopped, also where the earliest retained offset lies past
the head (`startAt_reached`); so what one step deals is missing from what the next finds unread
(`unread_reached`). Steps in a row thus leave no gap, and together deal the sum of their budgets until all is read;
they fail only where a partition that has no name has lost records, and then at once (`run_gapless`).
-/
namespace LogCursor.Draining
open LogCursor.Advance LogCursor.Allocation LogCursor.Checkpoint LogCursor.CheckpointText
open LogCursor.CheckpointReading LogCursor.RoundTrip LogCursor.ExactAllocation

/-- Records are gone of a partition whose index has no numeral. -/
def Barred (earliest : OffsetMap) : Prop := ∃ entry ∈ earliest.entries, 0 < entry.2 ∧ Numeral.Overlong entry.1.index

/-- Where a partition is read from: the offset it has reached, but not before what is retained and not past
    the head. -/
def startAt (reached earliest : OffsetMap) (p : Partition) (head : Int) : Int :=
  min (max (reached.offset p) (earliest.offset p)) head

/-- The records between the offsets reached and the heads. -/
def unread (reached earliest heads : OffsetMap) : Int :=
  (heads.entries.map fun entry => entry.2 - startAt reached earliest entry.1 entry.2).sum

/-- The ranges of one step: one for each head, from the offset reached and not past the head, which share the
    budget exactly. -/
structure Dealt (heads earliest reached : OffsetMap) (budget : Int) (rs : List Range) : Prop where
  order : rs.map Range.partition = (inOrder heads).map Prod.fst
  start : ∀ r ∈ rs, (r.start : Int) = startAt reached earliest r.partition (heads.offset r.partition)
  stop : ∀ r ∈ rs, (r.stop : Int) ≤ heads.offset r.partition
  total : (Range.total rs : Int) = min budget (unread reached earliest heads)

/-- The offsets that ranges have reached. -/
def ReachedBy (rs : List Range) (m : OffsetMap) : Prop := m.entries = rs.map fun r => (r.partition, (r.stop : Int))

variable {topic : String} {heads earliest reached next : OffsetMap} {budget : Int} {rs rs' : List Range}

private theorem startOf_advance {p : Partition} (nonneg : 0 ≤ reached.offset p) (head : Int) :
    startOf (advance reached earliest) p head = startAt reached earliest p head := by
  rw [startOf, startAt, offset_advance_eq nonneg]

private theorem advance_nonneg {p : Partition} (nonneg : 0 ≤ reached.offset p) :
    0 ≤ (advance reached earliest).offset p := by
  rw [offset_advance_eq nonneg]
  omega

private theorem compute_dealt (earliest : OffsetMap) (recordable : Recordable topic heads)
    (reachedNonneg : ∀ p, 0 ≤ reached.offset p) (budgetNonneg : 0 ≤ budget) :
    ∃ rs, (compute (advance reached earliest) heads budget).result = .ok rs ∧
      Dealt heads earliest reached budget rs := by
  have accepted : Accepted (advance reached earliest) heads budget :=
    ⟨budgetNonneg, fun entry member => (recordable.own entry member).2,
      fun entry _ => advance_nonneg (reachedNonneg entry.1),
      fun entry member unnamed => named_of_recordable recordable entry.1 (List.mem_map_of_mem member) unnamed.2⟩
  obtain ⟨rs, run, allotted⟩ := compute_allotted accepted
  refine ⟨rs, run, allotted.order, ?_, ?_, ?_⟩
  · intro r member
    obtain ⟨head, found, start, _⟩ := allotted.within r member
    rw [start, startOf_advance (reachedNonneg _), OffsetMap.offset_of_mem (OffsetMap.get?_eq_some_iff.mp found)]
  · intro r member
    obtain ⟨head, found, _, stop⟩ := allotted.within r member
    rwa [OffsetMap.offset_of_mem (OffsetMap.get?_eq_some_iff.mp found)]
  · rw [allotted.total, backlog, unread]
    congr 2
    exact List.map_congr_left fun entry _ => by rw [startOf_advance (reachedNonneg _)]

private theorem short_of_dealt (dealt : Dealt heads earliest reached budget rs) (recordable : Recordable topic heads) :
    Short rs := by
  intro r member
  obtain ⟨index, head⟩ := recordable.short _ (entry_of_order dealt.order member)
  have := dealt.stop r member
  exact ⟨index, writable_of_le head (by omega)⟩

private theorem step_result (heads earliest : OffsetMap) (checkpoint : String) (budget : Int) :
    (Drain.step heads earliest checkpoint budget).result = do
      let starts ← decode checkpoint
      let moved ← (Retention.advanceReported starts earliest).result
      let ranges ← (allocate moved heads budget).result
      let summary ← Summary.ofRanges ranges
      return (ranges, summary) := by
  unfold Drain.step
  simp only [Outcome.result_bind]
  rfl

/-- What is read says nothing about partitions that have no name, so these are moved just when records are gone. -/
theorem barred_iff {checkpoint : String} (read : decode checkpoint = .ok reached) :
    (∃ entry ∈ earliest.entries, Untold reached entry) ↔ Barred earliest := by
  refine exists_congr fun entry => and_congr_right fun _ => and_congr_left fun overlong => ?_
  have absent : entry.1 ∉ reached.partitions := by
    intro present
    obtain ⟨entry', member, same⟩ := List.mem_map.mp present
    have short := (CheckpointGrammar.writable_of_read read entry' member).1
    rw [same] at short
    exact not_overlong_iff.mpr short overlong
  rw [OffsetMap.offset_of_not_mem absent]

private theorem step_barred {checkpoint : String} (barred : Barred earliest) (read : decode checkpoint = .ok reached) :
    (Drain.step heads earliest checkpoint budget).result = .error .overlongNumber := by
  rw [step_result, read]
  change ((Retention.advanceReported reached earliest).result >>= _) = _
  rw [advanceReported_result, if_pos ((barred_iff read).mpr barred)]
  rfl

/-- A step from a checkpoint that is read deals its budget. -/
theorem step_dealt {checkpoint : String} (named : topic ≠ "") (nameable : Nameable topic)
    (recordable : Recordable topic heads) (clear : ¬ Barred earliest) (read : decode checkpoint = .ok reached)
    (nonneg : 0 ≤ budget) :
    ∃ rs, (Drain.step heads earliest checkpoint budget).result =
        .ok (rs, ⟨Range.total rs, write topic (pairs rs)⟩) ∧ Dealt heads earliest reached budget rs ∧
      ∃ next, decode (write topic (pairs rs)) = .ok next ∧ ReachedBy rs next := by
  obtain ⟨rs, run, dealt⟩ := compute_dealt earliest recordable (offset_nonneg (decode_own read)) nonneg
  have own := topic_of_own recordable.own
  have shared := shared_of_order dealt.order own
  have short := short_of_dealt dealt recordable
  refine ⟨rs, ?_, dealt, decode_pairs shared short named nameable⟩
  rw [step_result, read]
  change ((Retention.advanceReported reached earliest).result >>= _) = _
  rw [advanceReported_result, if_neg (mt (barred_iff read).mp clear)]
  change ((allocate (advance reached earliest) heads budget).result >>= _) = _
  rw [allocate_result (named_of_recordable recordable), run]
  change (Summary.ofRanges rs >>= _) = _
  rw [summary_of_order dealt.order own recordable.some nameable short]
  rfl

private theorem startAt_reached (dealt : Dealt heads earliest reached budget rs) (by' : ReachedBy rs next) {r : Range}
    (member : r ∈ rs) : startAt next earliest r.partition (heads.offset r.partition) = r.stop := by
  have start := dealt.start r member
  have stop := dealt.stop r member
  have forward := r.start_le_stop
  rw [startAt, offset_stop by' member]
  unfold startAt at start
  -- Below the earliest retained offset, a range can only have started at its head, and so stopped there.
  omega

private theorem unread_eq_sum (order : rs.map Range.partition = (inOrder heads).map Prod.fst) (m : OffsetMap) :
    unread m earliest heads = (rs.map fun r =>
      heads.offset r.partition - startAt m earliest r.partition (heads.offset r.partition)).sum := by
  have entries : heads.entries.map (fun entry => entry.2 - startAt m earliest entry.1 entry.2) =
      heads.partitions.map fun p => heads.offset p - startAt m earliest p (heads.offset p) := by
    rw [OffsetMap.partitions, List.map_map]
    refine List.map_congr_left fun entry member => ?_
    rw [Function.comp_apply, OffsetMap.offset_of_mem (p := entry.1) member]
  rw [unread, entries, ← ((perm_of_order order).map _).sum_eq, List.map_map]
  rfl

private theorem unread_reached (dealt : Dealt heads earliest reached budget rs) (by' : ReachedBy rs next) :
    unread next earliest heads = unread reached earliest heads - Range.total rs := by
  have before : unread reached earliest heads = (rs.map fun r => heads.offset r.partition - r.start).sum := by
    rw [unread_eq_sum dealt.order]
    exact congrArg List.sum (List.map_congr_left fun r member => by rw [dealt.start r member])
  have after : unread next earliest heads = (rs.map fun r => heads.offset r.partition - r.stop).sum := by
    rw [unread_eq_sum dealt.order]
    exact congrArg List.sum (List.map_congr_left fun r member => by rw [startAt_reached dealt by' member])
  have := sum_stops (fun r => heads.offset r.partition) rs
  omega

private theorem unread_nonneg (reached earliest heads : OffsetMap) : 0 ≤ unread reached earliest heads := by
  refine List.sum_nonneg fun n member => ?_
  obtain ⟨entry, _, rfl⟩ := List.mem_map.mp member
  unfold startAt
  omega

/-- A batch begins, partition by partition, where another one stopped. -/
def Follows (batch later : List Range × Summary) : Prop :=
  later.1.map (fun r => (r.partition, r.start)) = batch.1.map fun r => (r.partition, r.stop)

private theorem dealt_follows {budget' : Int} {s s' : Summary} (dealt : Dealt heads earliest reached budget rs)
    (by' : ReachedBy rs next) (dealt' : Dealt heads earliest next budget' rs') : Follows (rs, s) (rs', s') := by
  let begin (p : Partition) : Partition × Nat := (p, (startAt next earliest p (heads.offset p)).toNat)
  have later : rs'.map (fun r => (r.partition, r.start)) = (rs'.map Range.partition).map begin := by
    rw [List.map_map]
    refine List.map_congr_left fun r member => ?_
    show (r.partition, r.start) = (r.partition, (startAt next earliest r.partition _).toNat)
    rw [← dealt'.start r member, Int.toNat_natCast]
  have earlier : rs.map (fun r => (r.partition, r.stop)) = (rs.map Range.partition).map begin := by
    rw [List.map_map]
    refine List.map_congr_left fun r member => ?_
    show (r.partition, r.stop) = (r.partition, (startAt next earliest r.partition _).toNat)
    rw [startAt_reached dealt by' member, Int.toNat_natCast]
  show rs'.map _ = rs.map _
  rw [later, earlier, dealt.order, dealt'.order]

private theorem pairs_of_follows {batch later : List Range × Summary} (follows : Follows batch later)
    (none : Range.total later.1 = 0) : pairs later.1 = pairs batch.1 := by
  have still : later.1.map (fun r => (r.partition, r.stop)) = later.1.map fun r => (r.partition, r.start) := by
    refine List.map_congr_left fun r member => ?_
    have empty := total_eq_zero.mp none r member
    have := r.start_le_stop
    unfold Range.count at empty
    rw [show r.stop = r.start by omega]
  have mapped := congrArg (List.map fun entry : Partition × Nat => (entry.1.index, entry.2)) (still.trans follows)
  rwa [List.map_map, List.map_map] at mapped

/-- Batches that deal their budgets one after the other, each from where the one before it stopped. -/
inductive Drained (topic : String) (heads earliest : OffsetMap) :
    OffsetMap → List Int → List (List Range × Summary) → Prop
  | done (reached : OffsetMap) : Drained topic heads earliest reached [] []
  | step {reached next : OffsetMap} {budget : Int} {rs : List Range} {budgets : List Int}
      {later : List (List Range × Summary)} (dealt : Dealt heads earliest reached budget rs)
      (by' : ReachedBy rs next) (rest : Drained topic heads earliest next budgets later) :
      Drained topic heads earliest reached (budget :: budgets)
        ((rs, ⟨Range.total rs, write topic (pairs rs)⟩) :: later)

variable {budgets : List Int} {batches : List (List Range × Summary)}

/-- Steps in a row come to an end, one batch for each budget. -/
theorem run_drained {checkpoint : String} (named : topic ≠ "") (nameable : Nameable topic)
    (recordable : Recordable topic heads) (clear : budgets = [] ∨ ¬ Barred earliest)
    (read : decode checkpoint = .ok reached) (nonneg : ∀ budget ∈ budgets, 0 ≤ budget) :
    ∃ batches, (Drain.run heads earliest checkpoint budgets).result = .ok batches ∧
      Drained topic heads earliest reached budgets batches := by
  -- Each step leaves a checkpoint that is read again, as the offsets that its ranges have reached.
  induction budgets generalizing checkpoint reached with
  | nil => exact ⟨[], rfl, .done reached⟩
  | cons budget rest ih =>
    have clear : ¬ Barred earliest := clear.resolve_left (List.cons_ne_nil _ _)
    obtain ⟨rs, stepped, dealt, next, readNext, by'⟩ :=
      step_dealt named nameable recordable clear read (nonneg budget (by simp))
    obtain ⟨later, ran, drained⟩ := ih (.inr clear) readNext fun b member => nonneg b (by simp [member])
    refine ⟨_, ?_, .step dealt by' drained⟩
    unfold Drain.run
    rw [Outcome.result_bind, stepped]
    change ((Drain.run heads earliest (write topic (pairs rs)) rest) >>= _ : Outcome _).result = _
    rw [Outcome.result_bind, ran]
    rfl

/-- Without the name of a partition whose records are gone, no first step is made. -/
theorem run_barred {checkpoint : String} (barred : Barred earliest) (some : budgets ≠ [])
    (read : decode checkpoint = .ok reached) :
    (Drain.run heads earliest checkpoint budgets).result = .error .overlongNumber := by
  cases budgets with
  | nil => exact absurd rfl some
  | cons budget rest =>
    unfold Drain.run
    rw [Outcome.result_bind, step_barred barred read]
    rfl

private theorem drained_length (drained : Drained topic heads earliest reached budgets batches) :
    batches.length = budgets.length := by
  induction drained with
  | done => rfl
  | step _ _ _ ih => rw [List.length_cons, List.length_cons, ih]

private theorem drained_batch (drained : Drained topic heads earliest reached budgets batches) :
    ∀ batch ∈ batches, (batch.1.map Range.partition).Perm heads.partitions ∧
      batch.2 = ⟨Range.total batch.1, write topic (pairs batch.1)⟩ := by
  induction drained with
  | done => simp
  | step dealt _ _ ih =>
    intro batch member
    rcases List.mem_cons.mp member with rfl | later
    · exact ⟨perm_of_order dealt.order, rfl⟩
    · exact ih batch later

private theorem drained_follows (drained : Drained topic heads earliest reached budgets batches) :
    batches.IsChain Follows := by
  induction drained with
  | done => exact .nil
  | step dealt by' rest ih =>
    cases rest with
    | done => exact .singleton _
    | step dealt' _ _ => exact .cons_cons (dealt_follows dealt by' dealt') ih

/-- The first batches deal their budgets, or all that was unread when that is less. -/
theorem drained_total (drained : Drained topic heads earliest reached budgets batches)
    (nonneg : ∀ budget ∈ budgets, 0 ≤ budget) (j : Nat) :
    ((batches.take j).map fun batch => (Range.total batch.1 : Int)).sum =
      min (budgets.take j).sum (unread reached earliest heads) := by
  induction drained generalizing j with
  | done reached =>
    have := unread_nonneg reached earliest heads
    simp only [List.take_nil, List.map_nil, List.sum_nil]
    omega
  | @step reached next budget rs budgets later dealt by' rest ih =>
    cases j with
    | zero =>
      have := unread_nonneg reached earliest heads
      simp only [List.take_zero, List.map_nil, List.sum_nil]
      omega
    | succ j =>
      have first := nonneg budget (by simp)
      have others : 0 ≤ (budgets.take j).sum :=
        List.sum_nonneg fun b member => nonneg b (by simp [List.mem_of_mem_take member])
      -- The later steps share what the first one has left unread.
      have further := ih (fun b member => nonneg b (by simp [member])) j
      rw [unread_reached dealt by'] at further
      rw [List.take_succ_cons, List.take_succ_cons, List.map_cons, List.sum_cons, List.sum_cons, further,
        dealt.total]
      omega

/-- Heads of two partitions, the later one listed first. -/
def clicks : OffsetMap := .ofList [(⟨"clicks", 5⟩, 12), (⟨"clicks", 2⟩, 4)]

/-- Retention past the head of one partition, and of a partition without a head. -/
def trimmed : OffsetMap := .ofList [(⟨"clicks", 2⟩, 9), (⟨"clicks", 7⟩, 1)]

private theorem recordable_clicks : Recordable "clicks" clicks := by
  refine ⟨by decide, by unfold Own; decide, fun entry member => ?_⟩
  have within : entry.1.index < 10 ^ 4 ∧ entry.2.toNat < 10 ^ 4 :=
    (by decide : ∀ entry ∈ clicks.entries, entry.1.index < 10 ^ 4 ∧ entry.2.toNat < 10 ^ 4) entry member
  exact ⟨writable_of_lt within.1 (by decide), writable_of_lt within.2 (by decide)⟩

end LogCursor.Draining
