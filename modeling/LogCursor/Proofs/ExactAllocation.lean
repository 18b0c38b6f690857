import LogCursor.Proofs.CheckpointText
import LogCursor.Proofs.PartitionOrder
import LogCursor.Proofs.Rounds
import LogCursor.Proofs.Traversal
/-!
What an allocation gives out. It is accepted where nothing that it reads is negative and every partition that it
has to warn about has a name (`compute_eq`, `accepted_of_compute`). Then there is one range for each head, in
order, from where the partition was left off and never past its head; together they cover the budget, or the
whole backlog when that is less (`compute_exact`).
-/
namespace LogCursor.ExactAllocation
open LogCursor.Allocation LogCursor.CheckpointText LogCursor.Rounds LogCursor.PartitionOrder

/-- The records between the starts and the heads. -/
def backlog (starts heads : OffsetMap) : Int :=
  (heads.entries.map fun entry => entry.2 - startOf starts entry.1 entry.2).sum

/-- Ranges that share a budget exactly. -/
structure Allotted (starts heads : OffsetMap) (budget : Int) (ranges : List Range) : Prop where
  order : ranges.map Range.partition = (inOrder heads).map Prod.fst
  within : ∀ r ∈ ranges, ∃ head, heads.get? r.partition = some head ∧
    (r.start : Int) = startOf starts r.partition head ∧ (r.stop : Int) ≤ head
  total : (Range.total ranges : Int) = min budget (backlog starts heads)

theorem inOrder_perm (heads : OffsetMap) : (inOrder heads).Perm heads.entries := List.mergeSort_perm _ _

private theorem inOrder_sorted (heads : OffsetMap) :
    ((inOrder heads).map Prod.fst).Pairwise fun p q => p.precedes q = true := by
  refine List.pairwise_map.mpr (List.pairwise_mergeSort ?_ ?_ heads.entries)
  · exact fun a b c => precedes_trans a.1 b.1 c.1
  · exact fun a b => precedes_total a.1 b.1

/-- The lanes are served strictly in order. -/
theorem inOrder_strict (heads : OffsetMap) : ((inOrder heads).map Prod.fst).Pairwise Before := by
  have distinct : ((inOrder heads).map Prod.fst).Nodup :=
    ((inOrder_perm heads).map Prod.fst).nodup_iff.mpr heads.distinct
  exact (inOrder_sorted heads).imp₂ (fun _ _ precedes apart => before_of_precedes precedes apart) distinct

private theorem inOrder_congr {m m' : OffsetMap} (perm : m.entries.Perm m'.entries) : inOrder m = inOrder m' := by
  have order (m : OffsetMap) : (inOrder m).Pairwise fun a b => Before a.1 b.1 :=
    List.pairwise_map.mp (inOrder_strict m)
  exact List.Perm.eq_of_pairwise (fun a b _ _ ab ba => absurd ba (before_asymm ab)) (order m) (order m')
    ((inOrder_perm m).trans (perm.trans (inOrder_perm m').symm))

/-! ### Checks -/

/-- The warnings about starts ahead of their heads. -/
def warnings (starts heads : OffsetMap) : List Notice :=
  heads.entries.filterMap fun entry =>
    if entry.2 < starts.offset entry.1 then some (.aheadOfHead entry.1 (starts.offset entry.1) entry.2) else none

/-- A partition that the warnings would have to name, though its index has no numeral. -/
def Unnamed (starts : OffsetMap) (entry : Partition × Int) : Prop :=
  entry.2 < starts.offset entry.1 ∧ Numeral.Overlong entry.1.index

instance (starts : OffsetMap) (entry : Partition × Int) : Decidable (Unnamed starts entry) :=
  inferInstanceAs (Decidable (_ ∧ _))

private theorem check_eq {starts : OffsetMap} {entry : Partition × Int} (nonneg : 0 ≤ entry.2)
    (named : ¬ Unnamed starts entry) : check starts entry.1 entry.2 =
      ⟨if entry.2 < starts.offset entry.1 then [.aheadOfHead entry.1 (starts.offset entry.1) entry.2] else [],
        .ok ⟨⟩⟩ := by
  rw [check, if_neg (Int.not_lt.mpr nonneg)]
  split
  · rename_i ahead
    exact Outcome.say_eq fun p member => List.mem_singleton.mp member ▸ fun overlong => named ⟨ahead, overlong⟩
  · rfl

private theorem check_negative (starts : OffsetMap) (p : Partition) {head : Int} (negative : head < 0) :
    check starts p head = .fail (Fault.negativeHead p head).worded := if_pos negative

private theorem check_unnamed {starts : OffsetMap} {entry : Partition × Int} (nonneg : 0 ≤ entry.2)
    (unnamed : Unnamed starts entry) : check starts entry.1 entry.2 = .fail .overlongNumber := by
  rw [check, if_neg (Int.not_lt.mpr nonneg), if_pos unnamed.1]
  exact Outcome.say_overlong (List.mem_singleton.mpr rfl) unnamed.2

/-- The checks go through where no head is negative and no partition lacks a name. -/
theorem checks_eq {starts : OffsetMap} {entries : List (Partition × Int)} (nonneg : ∀ entry ∈ entries, 0 ≤ entry.2)
    (named : ∀ entry ∈ entries, ¬ Unnamed starts entry) :
    (entries.forM fun entry => check starts entry.1 entry.2) =
      ⟨entries.filterMap fun entry => if entry.2 < starts.offset entry.1 then
        some (.aheadOfHead entry.1 (starts.offset entry.1) entry.2) else none, .ok ⟨⟩⟩ := by
  induction entries with
  | nil => rfl
  | cons entry rest ih =>
    obtain ⟨nonnegHere, nonnegLater⟩ := List.forall_mem_cons.mp nonneg
    obtain ⟨namedHere, namedLater⟩ := List.forall_mem_cons.mp named
    show (check starts entry.1 entry.2 >>= fun _ => rest.forM fun entry => check starts entry.1 entry.2) = _
    rw [check_eq nonnegHere namedHere, ih nonnegLater namedLater, Outcome.ok_bind, List.filterMap_cons]
    split <;> rfl

/-- Where no head is negative, the checks stop at a partition without a name. -/
theorem checks_unnamed {starts : OffsetMap} {entries : List (Partition × Int)}
    (nonneg : ∀ entry ∈ entries, 0 ≤ entry.2) (unnamed : ∃ entry ∈ entries, Unnamed starts entry) :
    (entries.forM fun entry => check starts entry.1 entry.2).result = .error .overlongNumber := by
  induction entries with
  | nil =>
    obtain ⟨_, member, _⟩ := unnamed
    cases member
  | cons entry rest ih =>
    obtain ⟨nonnegHere, nonnegLater⟩ := List.forall_mem_cons.mp nonneg
    show (check starts entry.1 entry.2 >>= fun _ => rest.forM fun entry => check starts entry.1 entry.2).result = _
    by_cases here : Unnamed starts entry
    · rw [check_unnamed nonnegHere here]
      rfl
    · obtain ⟨other, member, later⟩ := unnamed
      rcases List.mem_cons.mp member with rfl | member
      · exact absurd later here
      · rw [check_eq nonnegHere here]
        exact ih nonnegLater ⟨other, member, later⟩

private theorem of_checks {starts : OffsetMap} {entries : List (Partition × Int)}
    (done : (entries.forM fun entry => check starts entry.1 entry.2).result = .ok ⟨⟩) :
    (∀ entry ∈ entries, 0 ≤ entry.2) ∧ ∀ entry ∈ entries, ¬ Unnamed starts entry := by
  have nonneg : ∀ entry ∈ entries, 0 ≤ entry.2 := by
    induction entries with
    | nil => simp
    | cons entry rest ih =>
      change (check starts entry.1 entry.2 >>= fun _ => rest.forM fun entry => check starts entry.1 entry.2).result =
        _ at done
      rw [Outcome.result_bind, Traversal.bind_ok_iff] at done
      obtain ⟨_, first, later⟩ := done
      refine List.forall_mem_cons.mpr ⟨Int.not_lt.mp fun negative => ?_, ih later⟩
      rw [check_negative starts entry.1 negative] at first
      cases first
  refine ⟨nonneg, fun entry member unnamed => ?_⟩
  rw [checks_unnamed nonneg ⟨entry, member, unnamed⟩] at done
  cases done

private theorem kind_worded {f : Fault} (value : f.kind = .value) : f.worded.kind = .value := by
  unfold Fault.worded
  split
  · rfl
  · exact value

private theorem kind_of_check {starts : OffsetMap} {p : Partition} {head : Int} {e : Fault}
    (failed : (check starts p head).result = .error e) : e.kind = .value := by
  unfold check at failed
  split at failed
  · cases failed
    exact kind_worded rfl
  · split at failed
    · unfold Outcome.say at failed
      split at failed <;> cases failed
      rfl
    · cases failed

private theorem kind_of_checks {starts : OffsetMap} {entries : List (Partition × Int)} {e : Fault}
    (failed : (entries.forM fun entry => check starts entry.1 entry.2).result = .error e) : e.kind = .value := by
  induction entries with
  | nil => cases failed
  | cons entry rest ih =>
    change (check starts entry.1 entry.2 >>= fun _ => rest.forM fun entry => check starts entry.1 entry.2).result =
      _ at failed
    rw [Outcome.result_bind, Traversal.bind_error_iff] at failed
    rcases failed with here | ⟨_, _, later⟩
    · exact kind_of_check here
    · exact ih later

/-! ### Lanes -/

/-- The range of a lane that starts at an offset that is not negative. -/
def extent (l : Lane) : Range := ⟨l.partition, l.start.toNat, l.start.toNat + l.given, Nat.le_add_right _ _⟩

theorem range_eq {l : Lane} (nonneg : 0 ≤ l.start) : l.range = .ok (extent l) := by
  have inside : ¬ l.start + (l.given : Int) < l.start := by omega
  have stop : (l.start + (l.given : Int)).toNat = l.start.toNat + l.given := by omega
  simp only [Lane.range, Range.of, Int.not_lt.mpr nonneg, inside, if_false, dif_neg, not_false_eq_true, stop]
  rfl

private theorem range_negative {l : Lane} (negative : l.start < 0) : l.range = .error (Fault.negativeStart l.start).worded :=
  if_pos negative

theorem count_extent (l : Lane) : (extent l).count = l.given := by simp [extent, Range.count]

/-- The lanes once the budget is dealt. -/
def dealt (starts heads : OffsetMap) (budget : Int) : List Lane :=
  deal budget.toNat (lanesOf starts heads).length (lanesOf starts heads)

theorem untouched_lanesOf (starts heads : OffsetMap) : ∀ l ∈ lanesOf starts heads, Untouched l := by
  intro l member
  obtain ⟨entry, _, rfl⟩ := List.mem_map.mp member
  exact ⟨rfl, rfl⟩

theorem length_lanesOf (starts heads : OffsetMap) : (lanesOf starts heads).length = heads.entries.length := by
  rw [lanesOf, List.length_map, (inOrder_perm heads).length_eq]

theorem given_dealt_le (starts heads : OffsetMap) (budget : Int) :
    given (dealt starts heads budget) ≤ budget.toNat :=
  given_deal_le _ (given_of_untouched (untouched_lanesOf starts heads) ▸ Nat.zero_le _)

/-- Lanes that are closed in the end have nothing left to read. -/
theorem dealt_honest (starts heads : OffsetMap) (budget : Int) : Honest (dealt starts heads budget) :=
  deal_honest _ _ fun l member closed => by simp [(untouched_lanesOf starts heads l member).2] at closed

/-- What no round changes about the lanes that are dealt to. -/
theorem dealt_bounds (starts heads : OffsetMap) (budget : Int) : (dealt starts heads budget).map bounds =
    (inOrder heads).map fun entry => (entry.1, startOf starts entry.1 entry.2, entry.2) := by
  rw [dealt, deal_bounds, lanesOf, List.map_map]
  rfl

theorem dealt_partitions (starts heads : OffsetMap) (budget : Int) :
    (dealt starts heads budget).map Lane.partition = (inOrder heads).map Prod.fst := by
  have partitions := congrArg (List.map Prod.fst) (dealt_bounds starts heads budget)
  rwa [List.map_map, List.map_map] at partitions

theorem dealt_entry {starts heads : OffsetMap} {budget : Int} {d : Lane} (member : d ∈ dealt starts heads budget) :
    (d.partition, d.head) ∈ heads.entries ∧ d.start = startOf starts d.partition d.head := by
  have inside := List.mem_map_of_mem (f := bounds) member
  rw [dealt_bounds] at inside
  obtain ⟨⟨p, head⟩, entered, same⟩ := List.mem_map.mp inside
  simp only [bounds, Prod.mk.injEq] at same
  obtain ⟨rfl, start, rfl⟩ := same
  exact ⟨(inOrder_perm heads).mem_iff.mp entered, start.symm⟩

private theorem dealt_of_entry {starts heads : OffsetMap} (budget : Int) {entry : Partition × Int}
    (member : entry ∈ heads.entries) : ∃ d ∈ dealt starts heads budget, d.start = startOf starts entry.1 entry.2 := by
  have inside := List.mem_map_of_mem (f := fun entry => (entry.1, startOf starts entry.1 entry.2, entry.2))
    ((inOrder_perm heads).mem_iff.mpr member)
  rw [← dealt_bounds starts heads budget] at inside
  obtain ⟨d, dealt, same⟩ := List.mem_map.mp inside
  simp only [bounds, Prod.mk.injEq] at same
  exact ⟨d, dealt, same.2.1⟩

/-- The heads, in any order, and where each of them is read from decide the lanes. -/
theorem dealt_congr {starts starts' heads heads' : OffsetMap} (budget : Int)
    (perm : heads'.entries.Perm heads.entries)
    (same : ∀ entry ∈ heads.entries, startOf starts' entry.1 entry.2 = startOf starts entry.1 entry.2) :
    dealt starts' heads' budget = dealt starts heads budget := by
  have lanes : lanesOf starts' heads' = lanesOf starts heads := by
    rw [lanesOf, inOrder_congr perm]
    refine List.map_congr_left fun entry member => ?_
    simp only [laneOf, same entry ((inOrder_perm heads).mem_iff.mp member)]
  rw [dealt, dealt, lanes]

/-! ### What is accepted -/

/-- What an allocation reads without refusing any of it. -/
structure Accepted (starts heads : OffsetMap) (budget : Int) : Prop where
  budgetNonneg : 0 ≤ budget
  headsNonneg : ∀ entry ∈ heads.entries, 0 ≤ entry.2
  startsNonneg : ∀ entry ∈ heads.entries, 0 ≤ starts.offset entry.1
  named : ∀ entry ∈ heads.entries, ¬ Unnamed starts entry

variable {starts starts' heads heads' : OffsetMap} {budget : Int} {rs : List Range}

/-- The order of the heads, and of what is found for them, does not matter to what is accepted. -/
theorem accepted_congr (accepted : Accepted starts heads budget) (perm : heads'.entries.Perm heads.entries)
    (same : ∀ p ∈ heads.partitions, starts'.offset p = starts.offset p) : Accepted starts' heads' budget := by
  have inside : ∀ {entry}, entry ∈ heads'.entries → entry ∈ heads.entries := perm.mem_iff.mp
  have equal : ∀ entry ∈ heads'.entries, starts'.offset entry.1 = starts.offset entry.1 := fun entry member =>
    same entry.1 (List.mem_map_of_mem (inside member))
  refine ⟨accepted.budgetNonneg, fun entry member => accepted.headsNonneg entry (inside member), fun entry member => ?_,
    fun entry member => ?_⟩
  · exact equal entry member ▸ accepted.startsNonneg entry (inside member)
  · rw [Unnamed, equal entry member]
    exact accepted.named entry (inside member)

theorem dealt_nonneg (headsNonneg : ∀ entry ∈ heads.entries, 0 ≤ entry.2)
    (startsNonneg : ∀ entry ∈ heads.entries, 0 ≤ starts.offset entry.1) :
    ∀ d ∈ dealt starts heads budget, 0 ≤ d.start := by
  intro d member
  obtain ⟨entered, start⟩ := dealt_entry member
  rw [start, startOf]
  exact Int.le_min.mpr ⟨startsNonneg _ entered, headsNonneg _ entered⟩

private theorem compute_checked (nonneg : 0 ≤ budget) : compute starts heads budget = (do
    heads.entries.forM fun entry => check starts entry.1 entry.2
    Outcome.ofExcept ((dealt starts heads budget).mapM Lane.range)) := if_neg (Int.not_lt.mpr nonneg)

/-- After the checks it is the ranges of the lanes that decide. -/
theorem compute_ranged (nonneg : 0 ≤ budget) (headsNonneg : ∀ entry ∈ heads.entries, 0 ≤ entry.2)
    (named : ∀ entry ∈ heads.entries, ¬ Unnamed starts entry) :
    (compute starts heads budget).result = (dealt starts heads budget).mapM Lane.range := by
  rw [compute_checked nonneg, checks_eq headsNonneg named]
  rfl

/-- What is accepted comes to the ranges of a deal. -/
theorem compute_eq (accepted : Accepted starts heads budget) :
    compute starts heads budget = ⟨warnings starts heads, .ok ((dealt starts heads budget).map extent)⟩ := by
  have nonneg : ∀ d ∈ dealt starts heads budget, 0 ≤ d.start :=
    dealt_nonneg accepted.headsNonneg accepted.startsNonneg
  have ranges := Traversal.mapM_map fun d member => range_eq (nonneg d member)
  rw [compute_checked accepted.budgetNonneg, checks_eq accepted.headsNonneg accepted.named, Outcome.ok_bind, ranges]
  exact congrArg (Outcome.mk · _) (List.append_nil _)

/-- Where ranges were computed, all that was read is accepted. -/
theorem accepted_of_compute (done : (compute starts heads budget).result = .ok rs) :
    Accepted starts heads budget ∧ rs = (dealt starts heads budget).map extent := by
  have nonneg : 0 ≤ budget := by
    by_contra negative
    rw [compute, if_pos (Int.not_le.mp negative)] at done
    cases done
  have run := done
  rw [compute_checked nonneg, Outcome.result_bind, Traversal.bind_ok_iff] at run
  obtain ⟨_, checked, ranged⟩ := run
  obtain ⟨headsNonneg, named⟩ := of_checks checked
  have accepted : Accepted starts heads budget := by
    refine ⟨nonneg, headsNonneg, fun entry member => ?_, named⟩
    obtain ⟨d, dealt, start⟩ : ∃ d ∈ dealt starts heads budget, d.start = startOf starts entry.1 entry.2 :=
      dealt_of_entry budget member
    obtain ⟨r, opened⟩ := Traversal.mapM_each ranged d dealt
    have startNonneg : 0 ≤ d.start := by
      by_contra negative
      rw [range_negative (Int.not_le.mp negative)] at opened
      cases opened
    rw [start, startOf] at startNonneg
    exact (Int.le_min.mp startNonneg).1
  rw [compute_eq accepted] at done
  exact ⟨accepted, (Except.ok.inj done).symm⟩

/-- An allocation is refused for a value that is out of range. -/
theorem kind_of_compute {e : Fault} (refused : (compute starts heads budget).result = .error e) : e.kind = .value := by
  by_cases negative : budget < 0
  · rw [compute, if_pos negative] at refused
    cases refused
    exact kind_worded rfl
  · rw [compute_checked (Int.not_lt.mp negative), Outcome.result_bind, Traversal.bind_error_iff] at refused
    rcases refused with checked | ⟨_, _, ranged⟩
    · exact kind_of_checks checked
    · obtain ⟨d, _, fault⟩ := Traversal.mapM_fault ranged
      by_cases below : d.start < 0
      · rw [range_negative below] at fault
        cases fault
        exact kind_worded rfl
      · rw [range_eq (Int.not_lt.mp below)] at fault
        cases fault

/-- Where nothing is negative, an allocation fails at a partition that it cannot name. -/
theorem compute_unnamed (budgetNonneg : 0 ≤ budget) (headsNonneg : ∀ entry ∈ heads.entries, 0 ≤ entry.2)
    (unnamed : ∃ entry ∈ heads.entries, Unnamed starts entry) :
    (compute starts heads budget).result = .error .overlongNumber := by
  rw [compute_checked budgetNonneg, Outcome.result_bind, checks_unnamed headsNonneg unnamed]
  rfl

/-- The heads, in any order, and what is found for them decide the ranges. -/
theorem compute_congr (done : (compute starts heads budget).result = .ok rs)
    (perm : heads'.entries.Perm heads.entries) (same : ∀ p ∈ heads.partitions, starts'.offset p = starts.offset p) :
    (compute starts' heads' budget).result = .ok rs := by
  obtain ⟨accepted, rfl⟩ := accepted_of_compute done
  rw [compute_eq (accepted_congr accepted perm same), dealt_congr budget perm fun entry member => ?_]
  rw [startOf, same entry.1 (List.mem_map_of_mem member), startOf]

/-- Nothing is reported of partitions that all have a name but in words. -/
theorem allocate_eq (named : ∀ p ∈ heads.partitions, ¬ Numeral.Overlong p.index) :
    allocate starts heads budget = (do
      let rs ← compute starts heads budget
      ⟨(if newPartitions starts heads ≠ [] ∧ starts.isEmpty = false then
        [.newPartitions (newPartitions starts heads)] else []) ++ [.allocated rs.length budget (Range.total rs)],
        .ok rs⟩) := by
  have listed : Outcome.say (.newPartitions (newPartitions starts heads)) =
      ⟨[.newPartitions (newPartitions starts heads)], .ok ⟨⟩⟩ := Outcome.say_eq fun p member =>
    named p (List.mem_filter.mp ((List.mergeSort_perm _ _).mem_iff.mp member)).1
  have summed (rs : List Range) : Outcome.say (.allocated rs.length budget (Range.total rs)) =
      ⟨[.allocated rs.length budget (Range.total rs)], .ok ⟨⟩⟩ := Outcome.say_eq fun _ none => nomatch none
  unfold allocate
  congr
  funext rs
  simp only [listed, summed]
  split <;> rfl

/-- A partition that cannot be named only ever turns ranges into a fault. -/
theorem allocate_cases (starts heads : OffsetMap) (budget : Int) :
    (allocate starts heads budget).result = (compute starts heads budget).result ∨
      (allocate starts heads budget).result = .error .overlongNumber := by
  unfold allocate
  rw [Outcome.result_bind]
  cases (compute starts heads budget).result with
  | error e => exact .inl rfl
  | ok rs =>
    by_cases fresh : newPartitions starts heads ≠ [] ∧ starts.isEmpty = false
    · by_cases long : ∃ p ∈ newPartitions starts heads, Numeral.Overlong p.index
      · obtain ⟨p, member, overlong⟩ := long
        have unsaid : Outcome.say (.newPartitions (newPartitions starts heads)) = .fail .overlongNumber :=
          Outcome.say_overlong member overlong
        simp only [if_pos fresh, unsaid]
        exact .inr rfl
      · have said : Outcome.say (.newPartitions (newPartitions starts heads)) =
            ⟨[.newPartitions (newPartitions starts heads)], .ok ⟨⟩⟩ :=
          Outcome.say_eq fun p member overlong => long ⟨p, member, overlong⟩
        simp only [if_pos fresh, said]
        exact .inl rfl
    · simp only [if_neg fresh]
      exact .inl rfl

theorem allocate_result (named : ∀ p ∈ heads.partitions, ¬ Numeral.Overlong p.index) :
    (allocate starts heads budget).result = (compute starts heads budget).result := by
  rw [allocate_eq named, Outcome.result_bind]
  cases (compute starts heads budget).result <;> rfl

/-! ### What is given out -/

theorem total_eq_sum (rs : List Range) : Range.total rs = (rs.map Range.count).sum := by
  induction rs with
  | nil => rfl
  | cons r rest ih => simpa [Range.total] using ih

/-- What is behind the starts is behind the stops or in the ranges. -/
theorem sum_stops (head : Range → Int) (rs : List Range) :
    (rs.map fun r => head r - r.start).sum = (rs.map fun r => head r - r.stop).sum + Range.total rs := by
  induction rs with
  | nil => rfl
  | cons r rest ih =>
    have count : ((Range.total (r :: rest) : Nat) : Int) = r.stop - r.start + Range.total rest := by
      have := r.start_le_stop
      show ((r.stop - r.start + Range.total rest : Nat) : Int) = _
      omega
    rw [List.map_cons, List.map_cons, List.sum_cons, List.sum_cons, count, ih]
    omega

theorem total_eq_zero {rs : List Range} : Range.total rs = 0 ↔ ∀ r ∈ rs, r.count = 0 := by
  rw [total_eq_sum, List.sum_eq_zero_iff_forall_eq_nat]
  simp

private theorem total_extent (lanes : List Lane) : Range.total (lanes.map extent) = given lanes := by
  induction lanes with
  | nil => rfl
  | cons l rest ih =>
    rw [given_cons, ← ih, ← count_extent l]
    rfl

private theorem unread_lanesOf (starts heads : OffsetMap) :
    (((lanesOf starts heads).map unread).sum : Int) = backlog starts heads := by
  have each : ∀ entries : List (Partition × Int),
      (((entries.map fun entry => laneOf starts entry.1 entry.2).map unread).sum : Int) =
        (entries.map fun entry => entry.2 - startOf starts entry.1 entry.2).sum := by
    intro entries
    induction entries with
    | nil => rfl
    | cons entry rest ih =>
      have within := (laneOf starts entry.1 entry.2).within
      have first : (unread (laneOf starts entry.1 entry.2) : Int) = entry.2 - startOf starts entry.1 entry.2 :=
        Int.toNat_of_nonneg (by simp only [laneOf] at within ⊢; omega)
      simp only [List.map_cons, List.sum_cons, Int.natCast_add, first, ih]
  rw [lanesOf, each, backlog]
  exact ((inOrder_perm heads).map _).sum_eq

/-- What is accepted shares the budget exactly. -/
theorem allotted_of_accepted (accepted : Accepted starts heads budget) :
    Allotted starts heads budget ((dealt starts heads budget).map extent) := by
  refine ⟨?_, ?_, ?_⟩
  · rw [← dealt_partitions starts heads budget, List.map_map]
    rfl
  · intro r member
    obtain ⟨d, dealt, rfl⟩ := List.mem_map.mp member
    obtain ⟨entered, start⟩ := dealt_entry dealt
    have nonneg : 0 ≤ d.start := dealt_nonneg accepted.headsNonneg accepted.startsNonneg d dealt
    have within := d.within
    refine ⟨d.head, OffsetMap.get?_eq_some_iff.mpr entered, ?_, ?_⟩
    · exact (Int.toNat_of_nonneg nonneg).trans start
    · show ((d.start.toNat + d.given : Nat) : Int) ≤ d.head
      omega
  · have whole := given_deal budget.toNat (untouched_lanesOf starts heads)
    have unread := unread_lanesOf starts heads
    have nonneg := accepted.budgetNonneg
    rw [total_extent, dealt, whole]
    omega

/-- Allocating succeeds and shares the budget exactly. -/
theorem compute_allotted (accepted : Accepted starts heads budget) :
    ∃ rs, (compute starts heads budget).result = .ok rs ∧ Allotted starts heads budget rs :=
  ⟨_, congrArg Outcome.result (compute_eq accepted), allotted_of_accepted accepted⟩

/-- Ranges that were computed share the budget exactly. -/
theorem allotted_of_compute (done : (compute starts heads budget).result = .ok rs) :
    Allotted starts heads budget rs := by
  obtain ⟨accepted, rfl⟩ := accepted_of_compute done
  exact allotted_of_accepted accepted

theorem perm_of_order (order : rs.map Range.partition = (inOrder heads).map Prod.fst) :
    (rs.map Range.partition).Perm heads.partitions := by
  rw [order]
  exact (inOrder_perm heads).map Prod.fst

/-- Every range has its head among the entries. -/
theorem entry_of_order (order : rs.map Range.partition = (inOrder heads).map Prod.fst) {r : Range}
    (member : r ∈ rs) : (r.partition, heads.offset r.partition) ∈ heads.entries := by
  have listed : r.partition ∈ heads.partitions :=
    (perm_of_order order).mem_iff.mp (List.mem_map_of_mem member)
  obtain ⟨⟨p, head⟩, inside, same⟩ := List.mem_map.mp listed
  cases same
  rwa [OffsetMap.offset_of_mem inside]

theorem nonempty_of_order (order : rs.map Range.partition = (inOrder heads).map Prod.fst)
    (some : heads.entries ≠ []) : rs ≠ [] := by
  rintro rfl
  have none := perm_of_order order
  rw [List.map_nil, List.nil_perm] at none
  exact some (List.map_eq_nil_iff.mp none)

/-- Heads of two topics; one of the partitions has nothing to read. -/
def burst : OffsetMap := ⟨[(⟨"clicks", 1⟩, 100), (⟨"views", 0⟩, 40), (⟨"clicks", 0⟩, 10)], by simp⟩

/-- Positions in the partitions of `burst`, one of them past its head. -/
def positions : OffsetMap := ⟨[(⟨"views", 0⟩, 7), (⟨"clicks", 0⟩, 300)], by simp⟩

end LogCursor.ExactAllocation
