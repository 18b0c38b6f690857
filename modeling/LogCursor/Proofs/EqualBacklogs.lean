import LogCursor.Proofs.ExactAllocation
/-!
What decides a split. A round looks at the order of the lanes, at what each of them has left to read and at
whether it is closed. So lanes that are alike in these (`Twin`) are given the same in a round
(`round_twins`) and in a whole deal (`deal_twins`), wherever they start. Two allocations with equal backlogs
thus give every partition the same number of records; the order in which offsets were entered, positions in
partitions without a head, and whether a position of zero was entered make no difference, and a partition
whose position and head both move takes its range along (`compute_of_backlogs`).
-/
namespace LogCursor.EqualBacklogs
open LogCursor.Allocation LogCursor.Rounds LogCursor.ExactAllocation LogCursor.PartitionOrder

/-- Lanes of one partition that have been given the same and have the same left to read. -/
structure Twin (l m : Lane) : Prop where
  partition : l.partition = m.partition
  backlog : l.backlog = m.backlog
  given : l.given = m.given
  closed : l.closed = m.closed

/-- The unread records of a partition, zero where it is past its head. -/
def backlogAt (starts heads : OffsetMap) (p : Partition) : Int :=
  heads.offset p - min (starts.offset p) (heads.offset p)

variable {lanes others : List Lane} {l m : Lane}

private theorem serve_twin (twin : Twin l m) (grant : Nat) : Twin (l.serve grant) (m.serve grant) := by
  cases h : l.closed with
  | true =>
    rw [serve_of_closed h, serve_of_closed (twin.closed ▸ h)]
    exact twin
  | false =>
    have h' : m.closed = false := twin.closed ▸ h
    refine ⟨?_, ?_, ?_, ?_⟩
    · simp [Lane.serve, h, h', twin.partition]
    · rw [serve_backlog h, serve_backlog h', twin.backlog]
    · rw [serve_given h, serve_given h', twin.given, twin.backlog]
    · rw [serve_closed h, serve_closed h', twin.backlog]

private theorem serveAll_twins (share left : Nat) (twins : List.Forall₂ Twin lanes others) :
    List.Forall₂ Twin (serveAll share left lanes) (serveAll share left others) := by
  induction twins generalizing left with
  | nil => exact .nil
  | @cons l m _ _ first _ ih =>
    have served := serve_twin first (min share left)
    have less : (l.serve (min share left)).given - l.given = (m.serve (min share left)).given - m.given := by
      rw [served.given, first.given]
    simp only [serveAll, less]
    exact .cons served (ih _)

private theorem given_twins (twins : List.Forall₂ Twin lanes others) : given lanes = given others := by
  induction twins with
  | nil => rfl
  | cons first _ ih => rw [given_cons, given_cons, first.given, ih]

private theorem openCount_twins (twins : List.Forall₂ Twin lanes others) : openCount lanes = openCount others := by
  induction twins with
  | nil => rfl
  | cons first _ ih => rw [openCount_cons, openCount_cons, first.closed, ih]

private theorem round_twins (budget : Nat) (twins : List.Forall₂ Twin lanes others) :
    List.Forall₂ Twin (round budget lanes) (round budget others) := by
  rw [round_eq, round_eq, given_twins twins, openCount_twins twins]
  exact serveAll_twins _ _ twins

private theorem deal_twins (budget rounds : Nat) (twins : List.Forall₂ Twin lanes others) :
    List.Forall₂ Twin (deal budget rounds lanes) (deal budget rounds others) := by
  induction rounds generalizing lanes others with
  | zero => exact twins
  | succ rounds ih =>
    -- Both deals stop after the same round.
    have same : Settled budget lanes ↔ Settled budget others := by
      simp only [Settled, given_twins twins, openCount_twins twins]
    unfold deal
    by_cases settled : Settled budget lanes
    · rw [if_pos settled, if_pos (same.mp settled)]
      exact twins
    · rw [if_neg settled, if_neg fun settled' => settled (same.mpr settled')]
      exact ih (round_twins budget twins)

private theorem counts_twins (twins : List.Forall₂ Twin lanes others) :
    (lanes.map extent).map (fun r => (r.partition, r.count)) =
      (others.map extent).map fun r => (r.partition, r.count) := by
  induction twins with
  | nil => rfl
  | @cons l m _ _ first _ ih =>
    have here : ((extent l).partition, (extent l).count) = ((extent m).partition, (extent m).count) := by
      rw [count_extent, count_extent, first.given]
      exact congrArg (·, m.given) first.partition
    simp only [List.map_cons, here, ih]

section
variable {starts starts' heads heads' : OffsetMap} {budget : Int} {rs rs' : List Range}

private theorem order_eq (perm : heads'.partitions.Perm heads.partitions) :
    (inOrder heads').map Prod.fst = (inOrder heads).map Prod.fst := by
  have keys (m : OffsetMap) : ((inOrder m).map Prod.fst).Perm m.partitions := (inOrder_perm m).map Prod.fst
  refine List.Perm.eq_of_pairwise (fun p q _ _ pq qp => absurd qp (before_asymm pq)) (inOrder_strict heads')
    (inOrder_strict heads) ?_
  exact (keys heads').trans (perm.trans (keys heads).symm)

private theorem backlog_laneOf (starts : OffsetMap) (p : Partition) (head : Int) :
    (laneOf starts p head).backlog = (head - min (starts.offset p) head).toNat := by
  simp only [Lane.backlog, laneOf, startOf, Int.natCast_zero, Int.add_zero]

private theorem lanesOf_eq (starts heads : OffsetMap) :
    lanesOf starts heads = ((inOrder heads).map Prod.fst).map fun p => laneOf starts p (heads.offset p) := by
  rw [lanesOf, List.map_map]
  refine List.map_congr_left fun entry member => ?_
  have head := OffsetMap.offset_of_mem (p := entry.1) ((inOrder_perm heads).mem_iff.mp member)
  rw [Function.comp_apply, head]

private theorem lanesOf_twins (perm : heads'.partitions.Perm heads.partitions)
    (same : ∀ p ∈ heads.partitions, backlogAt starts' heads' p = backlogAt starts heads p) :
    List.Forall₂ Twin (lanesOf starts' heads') (lanesOf starts heads) := by
  rw [lanesOf_eq, lanesOf_eq, order_eq perm, List.forall₂_map_left_iff, List.forall₂_map_right_iff,
    List.forall₂_same]
  intro p member
  have listed : p ∈ heads.partitions := ((inOrder_perm heads).map Prod.fst).mem_iff.mp member
  have equal := same p listed
  unfold backlogAt at equal
  exact ⟨rfl, by rw [backlog_laneOf, backlog_laneOf, equal], rfl, rfl⟩

private theorem counts_eq (done : (compute starts heads budget).result = .ok rs)
    (done' : (compute starts' heads' budget).result = .ok rs') (perm : heads'.partitions.Perm heads.partitions)
    (same : ∀ p ∈ heads.partitions, backlogAt starts' heads' p = backlogAt starts heads p) :
    rs'.map (fun r => (r.partition, r.count)) = rs.map fun r => (r.partition, r.count) := by
  obtain ⟨_, rfl⟩ := accepted_of_compute done
  obtain ⟨_, rfl⟩ := accepted_of_compute done'
  have twins := lanesOf_twins perm same
  rw [dealt, dealt, twins.length_eq]
  exact counts_twins (deal_twins _ _ twins)

private theorem start_eq (accepted : (compute starts heads budget).result = .ok rs) {r : Range} (member : r ∈ rs) :
    (r.start : Int) = min (starts.offset r.partition) (heads.offset r.partition) := by
  obtain ⟨head, found, start, _⟩ := (allotted_of_compute accepted).within r member
  rw [start, OffsetMap.offset_of_mem (OffsetMap.get?_eq_some_iff.mp found)]
  rfl

/-- A partition and the interval that is read of it. -/
def interval (r : Range) : Partition × Int × Int := (r.partition, r.start, r.stop)

private theorem interval_eq (accepted : (compute starts heads budget).result = .ok rs) :
    rs.map interval = (rs.map fun r => (r.partition, r.count)).map fun entry =>
      let start := min (starts.offset entry.1) (heads.offset entry.1)
      (entry.1, start, start + entry.2) := by
  rw [List.map_map]
  refine List.map_congr_left fun r member => ?_
  have start := start_eq accepted member
  have := r.start_le_stop
  simp only [interval, Function.comp_apply, Range.count, ← start, Prod.mk.injEq, true_and]
  omega

/-- Where position and head of one partition both move, the ranges are accepted as long as neither becomes
    negative. -/
theorem accepted_of_moved (done : (compute starts heads budget).result = .ok rs) {p : Partition}
    (known : p ∈ heads.partitions) {d : Int} (start : 0 ≤ starts.offset p + d) (head : 0 ≤ heads.offset p + d) :
    Accepted (starts.put p (starts.offset p + d)) (heads.put p (heads.offset p + d)) budget := by
  obtain ⟨accepted, _⟩ := accepted_of_compute done
  -- An entry of the moved heads is that of the partition, or one that was there before.
  have entered : ∀ entry ∈ (heads.put p (heads.offset p + d)).entries,
      entry = (p, heads.offset p + d) ∨ entry.1 ≠ p ∧ entry ∈ heads.entries := by
    rintro ⟨q, o⟩ member
    rw [← OffsetMap.get?_eq_some_iff, OffsetMap.get?_put] at member
    split at member
    · rename_i here
      cases member
      exact .inl (here ▸ rfl)
    · rename_i apart
      exact .inr ⟨Ne.symm apart, OffsetMap.get?_eq_some_iff.mp member⟩
  have moved : (starts.put p (starts.offset p + d)).offset p = starts.offset p + d := by
    rw [OffsetMap.offset_put, if_pos rfl]
  have kept : ∀ {q}, q ≠ p → (starts.put p (starts.offset p + d)).offset q = starts.offset q := fun apart => by
    rw [OffsetMap.offset_put, if_neg (Ne.symm apart)]
  refine ⟨accepted.budgetNonneg, fun entry member => ?_, fun entry member => ?_, fun entry member => ?_⟩
  · rcases entered entry member with rfl | ⟨_, before⟩
    · exact head
    · exact accepted.headsNonneg entry before
  · rcases entered entry member with rfl | ⟨apart, before⟩
    · rwa [moved]
    · exact kept apart ▸ accepted.startsNonneg entry before
  · rcases entered entry member with rfl | ⟨apart, before⟩
    · obtain ⟨⟨q, o⟩, before, rfl⟩ := List.mem_map.mp known
      have named := accepted.named _ before
      rw [OffsetMap.offset_of_mem before]
      simp only [Unnamed, moved] at named ⊢
      exact fun unnamed => named ⟨by omega, unnamed.2⟩
    · rw [Unnamed, kept apart]
      exact accepted.named entry before

private theorem intervals_moved (accepted : (compute starts heads budget).result = .ok rs) {p : Partition}
    (known : p ∈ heads.partitions) {d : Int}
    (accepted' : (compute (starts.put p (starts.offset p + d)) (heads.put p (heads.offset p + d)) budget).result =
      .ok rs') :
    rs'.map interval = rs.map fun r =>
      if r.partition = p then (p, (r.start : Int) + d, (r.stop : Int) + d) else interval r := by
  have same : ∀ q ∈ heads.partitions,
      backlogAt (starts.put p (starts.offset p + d)) (heads.put p (heads.offset p + d)) q =
        backlogAt starts heads q := by
    intro q _
    simp only [backlogAt, OffsetMap.offset_put]
    split
    · rename_i here
      subst here
      omega
    · rfl
  have counts := counts_eq accepted accepted' (List.Perm.of_eq (OffsetMap.partitions_put known _)) same
  rw [interval_eq accepted', counts, List.map_map]
  refine List.map_congr_left fun r member => ?_
  have start := start_eq accepted member
  have := r.start_le_stop
  simp only [Function.comp_apply, OffsetMap.offset_put, Range.count, interval]
  by_cases here : r.partition = p
  · subst here
    simp only [if_true, Prod.mk.injEq, true_and]
    omega
  · simp only [here, Ne.symm here, if_false, Prod.mk.injEq, true_and]
    omega

end

/-- Only backlogs decide how a budget is split. Any other offsets with the same partitions and the same backlogs
    give each partition the same number of records. In particular the ranges themselves do not depend on the
    order of the entries, nor on anything but the offsets, zero where there is none, of partitions with a head;
    and where position and head of one partition both move, its range moves along and the others stay. -/
theorem compute_of_backlogs (starts heads : OffsetMap) (budget : Int) (rs : List Range)
    (accepted : (compute starts heads budget).result = .ok rs) :
    (∀ starts' heads' rs', (compute starts' heads' budget).result = .ok rs' →
      heads'.partitions.Perm heads.partitions →
      (∀ p ∈ heads.partitions, heads'.offset p - min (starts'.offset p) (heads'.offset p) =
        heads.offset p - min (starts.offset p) (heads.offset p)) →
      rs'.map (fun r => (r.partition, r.count)) = rs.map fun r => (r.partition, r.count)) ∧
    (∀ starts' heads', starts'.entries.Perm starts.entries → heads'.entries.Perm heads.entries →
      (compute starts' heads' budget).result = .ok rs) ∧
    (∀ starts', (∀ p ∈ heads.partitions, (starts'.get? p).getD 0 = (starts.get? p).getD 0) →
      (compute starts' heads budget).result = .ok rs) ∧
    ∀ p ∈ heads.partitions, ∀ d, 0 ≤ starts.offset p + d → 0 ≤ heads.offset p + d →
      ∃ rs', (compute (starts.put p (starts.offset p + d)) (heads.put p (heads.offset p + d)) budget).result =
          .ok rs' ∧
        rs'.map interval = rs.map fun r =>
          if r.partition = p then (p, (r.start : Int) + d, (r.stop : Int) + d) else interval r := by
  refine ⟨?_, ?_, ?_, ?_⟩
  · intro starts' heads' rs' accepted' perm same
    exact counts_eq accepted accepted' perm same
  · intro starts' heads' permStarts perm
    exact compute_congr accepted perm fun p _ => OffsetMap.offset_perm permStarts p
  · intro starts' same
    exact compute_congr accepted (.refl _) same
  · intro p known d start head
    obtain ⟨rs', accepted', _⟩ := compute_allotted (accepted_of_moved accepted known start head)
    exact ⟨rs', accepted', intervals_moved accepted known accepted'⟩

/-- Positions in two partitions. -/
def marks : OffsetMap := ⟨[(⟨"clicks", 0⟩, 4)], by simp⟩

/-- Heads of these partitions, six and three records ahead. -/
def tops : OffsetMap := ⟨[(⟨"clicks", 0⟩, 10), (⟨"clicks", 1⟩, 3)], by simp⟩

/-- Other positions, one of them in a partition without a head. -/
def strayed : OffsetMap := ⟨[(⟨"views", 0⟩, 9), (⟨"clicks", 1⟩, 2)], by simp⟩

/-- Heads that are six and three records ahead of the other positions, the later one listed first. -/
def lowered : OffsetMap := ⟨[(⟨"clicks", 1⟩, 5), (⟨"clicks", 0⟩, 6)], by simp⟩

theorem compute_of_backlogs_strayed :
    (compute marks tops 7).result = .ok [⟨⟨"clicks", 0⟩, 4, 8, by decide⟩, ⟨⟨"clicks", 1⟩, 0, 3, by decide⟩] ∧
    (∃ rs, (compute strayed lowered 7).result = .ok rs ∧
      rs.map (fun r => (r.partition, r.count)) = [(⟨"clicks", 0⟩, 4), (⟨"clicks", 1⟩, 3)]) ∧
    ∃ rs, (compute (marks.put ⟨"clicks", 0⟩ 2) (tops.put ⟨"clicks", 0⟩ 8) 7).result = .ok rs ∧
      rs.map interval = [(⟨"clicks", 0⟩, 2, 6), (⟨"clicks", 1⟩, 0, 3)] := by
  have accepted : (compute marks tops 7).result =
      .ok [⟨⟨"clicks", 0⟩, 4, 8, by decide⟩, ⟨⟨"clicks", 1⟩, 0, 3, by decide⟩] := by
    have sorted : inOrder tops = tops.entries := List.mergeSort_of_pairwise (by decide)
    rw [compute_eq ⟨by decide, by decide, by decide, by decide⟩, dealt, lanesOf, sorted]
    rfl
  obtain ⟨rs, accepted', _⟩ : ∃ rs, (compute strayed lowered 7).result = .ok rs ∧ Allotted strayed lowered 7 rs :=
    compute_allotted ⟨by decide, by decide, by decide, by decide⟩
  obtain ⟨counts, _, _, moved⟩ := compute_of_backlogs marks tops 7 _ accepted
  have split := counts strayed lowered rs accepted' (by decide) (by decide)
  obtain ⟨rs', accepted'', intervals⟩ := moved ⟨"clicks", 0⟩ (by decide) (-2) (by decide) (by decide)
  refine ⟨accepted, ⟨rs, accepted', split⟩, rs', accepted'', ?_⟩
  rw [intervals]
  decide

end LogCursor.EqualBacklogs
