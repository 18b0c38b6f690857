import LogCursor.Proofs.Advance
import Mathlib.Data.List.Basic
import Mathlib.Order.Closure
/-!
Moving past what is gone, as a closure. Starts are within what is retained if none of them lies before its earliest
retained offset; to move is to take the least such starts above the given ones (`offset_eq_retention`, with the closure
operator `retention`). Two moves are one move to the later of both limits (`get?_advance_advance`), the partitions
that a move enters are those without a start that have to move (`partitions_advance`), and each partition that moves is told
of once (`warnings_advance`). A move fails just when one of these has no name (`stuck_iff`).
-/
namespace LogCursor.RetentionClosure
open LogCursor.Retention LogCursor.Advance
open LogCursor.CheckpointText (beyond overlong_beyond remote)

variable {starts earliest earliest' : OffsetMap} {p q : Partition}

/-- Where every partition starts. -/
def Starts : Type := Partition → Int

/-- Starts are compared partition by partition. -/
instance : PartialOrder Starts where
  le f g := ∀ p, f p ≤ g p
  le_refl f p := Int.le_refl (f p)
  le_trans _ _ _ le le' p := Int.le_trans (le p) (le' p)
  le_antisymm _ _ le ge := funext fun p => Int.le_antisymm (le p) (ge p)

/-- Starts from which nothing is read that is gone. -/
def Within (earliest : OffsetMap) (f : Starts) : Prop := ∀ entry ∈ earliest.entries, entry.2 ≤ f entry.1

/-- An offset, moved up to a limit if there is one. -/
def above (start : Int) (limit : Option Int) : Int := limit.elim start (max start)

private theorem le_above (start : Int) (limit : Option Int) : start ≤ above start limit := by
  cases limit with
  | none => exact Int.le_refl start
  | some o => exact Int.le_max_left start o

private theorem above_within (f : Starts) : Within earliest fun p => above (f p) (earliest.get? p) := by
  rintro ⟨p, o⟩ member
  simp only [OffsetMap.get?_eq_some_iff.mpr member, above, Option.elim_some]
  exact Int.le_max_right (f p) o

/-- Whatever is within what is retained and not before a start is not before the start that is moved up. -/
theorem above_le {start : Int} {f : Starts} (within : Within earliest f) (le : start ≤ f p) :
    above start (earliest.get? p) ≤ f p := by
  cases limit : earliest.get? p with
  | none => exact le
  | some o => exact Int.max_le.mpr ⟨le, within (p, o) (OffsetMap.get?_eq_some_iff.mp limit)⟩

/-- The least starts within what is retained, above given ones. -/
def retention (earliest : OffsetMap) : ClosureOperator Starts :=
  .ofPred (fun f p => above (f p) (earliest.get? p)) (Within earliest) (fun f p => le_above (f p) (earliest.get? p))
    above_within (fun _ _ le within p => above_le within (le p))

/-- A move finds the least starts within what is retained. -/
theorem offset_eq_retention (starts earliest : OffsetMap) :
    (advance starts earliest).offset = retention earliest starts.offset := by
  funext p
  change _ = above (starts.offset p) (earliest.get? p)
  rw [OffsetMap.offset, get?_advance]
  cases earliest.get? p with
  | none => rfl
  | some o => exact getD_raised (starts.get? p) o

private theorem within_advance (starts earliest : OffsetMap) : Within earliest (advance starts earliest).offset := by
  rw [offset_eq_retention]
  exact (retention earliest).isClosed_closure starts.offset

/-- Later limits on the same partitions move at least as far. -/
theorem retention_le (same : ∀ p, p ∈ earliest'.partitions ↔ p ∈ earliest.partitions)
    (later : ∀ p ∈ earliest.partitions, earliest.offset p ≤ earliest'.offset p) (f : Starts) :
    retention earliest f ≤ retention earliest' f := by
  refine ClosureOperator.closure_min ((retention earliest').le_closure f) ?_
  rintro ⟨p, o⟩ member
  have present : p ∈ earliest.partitions := List.mem_map_of_mem (f := Prod.fst) member
  obtain ⟨⟨q, o'⟩, member', rfl⟩ := List.mem_map.mp ((same p).mpr present)
  have further := later _ present
  rw [OffsetMap.offset_of_mem member, OffsetMap.offset_of_mem member'] at further
  exact Int.le_trans further ((retention earliest').isClosed_closure f _ member')

private theorem partitions_raise (starts : OffsetMap) (p : Partition) (o : Int) :
    (raise starts p o).partitions =
      if p ∉ starts.partitions ∧ 0 < o then starts.partitions ++ [p] else starts.partitions := by
  unfold raise
  by_cases present : p ∈ starts.partitions
  · have stays : ¬ (p ∉ starts.partitions ∧ 0 < o) := fun fresh => fresh.1 present
    rw [if_neg stays]
    split
    · exact OffsetMap.partitions_put present o
    · rfl
  · rw [OffsetMap.offset_of_not_mem present]
    by_cases past : 0 < o
    · rw [if_pos past, if_pos ⟨present, past⟩, OffsetMap.partitions, OffsetMap.entries_put_of_fresh present,
        List.map_append]
      rfl
    · have stays : ¬ (p ∉ starts.partitions ∧ 0 < o) := fun fresh => past fresh.2
      rw [if_neg past, if_neg stays]

private theorem mem_partitions_raise (other : q ≠ p) (starts : OffsetMap) (o : Int) :
    q ∈ (raise starts p o).partitions ↔ q ∈ starts.partitions := by
  rw [partitions_raise]
  split <;> simp [other]

private theorem partitions_foldl {entries : List (Partition × Int)} (distinct : (entries.map Prod.fst).Nodup)
    (starts : OffsetMap) :
    (entries.foldl (fun m entry => raise m entry.1 entry.2) starts).partitions = starts.partitions ++
      (entries.filter fun entry => entry.1 ∉ starts.partitions ∧ 0 < entry.2).map Prod.fst := by
  induction entries generalizing starts with
  | nil => exact (List.append_nil _).symm
  | cons entry rest ih =>
    obtain ⟨p, o⟩ := entry
    obtain ⟨fresh, others⟩ := List.nodup_cons.mp distinct
    -- The first partition does not come again, so having entered it makes no difference to the others.
    have apart : rest.filter (fun entry => entry.1 ∉ (raise starts p o).partitions ∧ 0 < entry.2) =
        rest.filter fun entry => entry.1 ∉ starts.partitions ∧ 0 < entry.2 := by
      refine List.filter_congr fun entry member => ?_
      have other : entry.1 ≠ p := fun same => fresh (List.mem_map.mpr ⟨entry, member, same⟩)
      simp only [mem_partitions_raise other]
    rw [List.foldl_cons, ih others, apart, partitions_raise, List.filter_cons]
    by_cases enters : p ∉ starts.partitions ∧ 0 < o
    · simp [enters]
    · rw [if_neg enters, if_neg (by simpa using enters)]

/-- The partitions without a start whose earliest retained offset is past zero are entered, in their order. -/
theorem partitions_advance (starts earliest : OffsetMap) :
    (advance starts earliest).partitions = starts.partitions ++
      earliest.partitions.filter fun p => p ∉ starts.partitions ∧ 0 < earliest.offset p := by
  rw [advance, partitions_foldl earliest.distinct, OffsetMap.partitions, OffsetMap.partitions, List.filter_map]
  congr 2
  refine List.filter_congr fun entry member => ?_
  simp [OffsetMap.offset_of_mem (p := entry.1) (o := entry.2) member]

/-- Limits with one more, which counts where it is later than the limit of its partition. -/
def extend (limits : OffsetMap) (p : Partition) (o : Int) : OffsetMap := limits.put p (above o (limits.get? p))

/-- The later of two limits, on the partitions that have either. -/
def join (earliest later : OffsetMap) : OffsetMap :=
  later.entries.foldl (fun limits entry => extend limits entry.1 entry.2) earliest

private theorem get?_extend (limits : OffsetMap) (p : Partition) (o : Int) (q : Partition) :
    (extend limits p o).get? q = if p = q then some (above o (limits.get? q)) else limits.get? q := by
  rw [extend, OffsetMap.get?_put]
  by_cases same : p = q
  · subst same; rfl
  · rw [if_neg same, if_neg same]

private theorem get?_join (earliest later : OffsetMap) (p : Partition) :
    (join earliest later).get? p = (earliest.get? p).merge max (later.get? p) := by
  refine (@OffsetMap.get?_foldl extend (fun limit o => some (above o limit)) get?_extend earliest later p).trans ?_
  cases earliest.get? p <;> cases later.get? p <;> simp [Option.merge, above, Int.max_comm]

private theorem raised_raised (start : Option Int) (o o' : Int) : raised (raised start o) o' = raised start (max o o') := by
  unfold raised
  by_cases low : start.getD 0 < o
  · have both : start.getD 0 < max o o' := by omega
    rw [if_pos low, if_pos both, Option.getD_some]
    split
    · rw [Int.max_eq_right (by omega)]
    · rw [Int.max_eq_left (by omega)]
  · rw [if_neg low]
    by_cases low' : start.getD 0 < o'
    · rw [if_pos low', Int.max_eq_right (by omega), if_pos low']
    · have neither : ¬ start.getD 0 < max o o' := by omega
      rw [if_neg low', if_neg neither]

/-- Moving up to one limit and then to another finds what moving up to the later of them finds. -/
theorem get?_advance_advance (starts earliest later : OffsetMap) (p : Partition) :
    (advance (advance starts earliest) later).get? p = (advance starts (join earliest later)).get? p := by
  rw [get?_advance, get?_advance, get?_advance, get?_join]
  cases earliest.get? p with
  | none => cases later.get? p <;> rfl
  | some o =>
    cases later.get? p with
    | none => rfl
    | some o' => exact raised_raised (starts.get? p) o o'

/-- Each partition that moves is told of once, in the order of the limits, and no other is. -/
theorem warnings_advance (starts earliest : OffsetMap) :
    warnings starts earliest =
      (earliest.partitions.filter fun p => starts.offset p < (advance starts earliest).offset p).map
        fun p => .behindEarliest p (starts.offset p) ((advance starts earliest).offset p) := by
  rw [← List.filterMap_eq_map, List.filterMap_filter, OffsetMap.partitions, List.filterMap_map]
  refine List.filterMap_congr fun entry member => ?_
  have moved := offset_advance (p := entry.1) (o := entry.2) member starts
  simp only [Function.comp_apply, moved, decide_eq_true_eq, told]
  by_cases low : starts.offset entry.1 < entry.2
  · rw [if_pos low, if_pos (by omega), Int.max_eq_right (by omega)]
  · rw [if_neg low, if_neg (by omega)]

/-- Starts within what is retained stay, and nothing is told. -/
theorem advanceReported_of_within (within : Within earliest starts.offset) :
    advanceReported starts earliest = ⟨[], .ok starts⟩ := by
  have stays : ∀ entry ∈ earliest.entries, ¬ starts.offset entry.1 < entry.2 := fun entry member =>
    Int.not_lt.mpr (within entry member)
  have told : warnings starts earliest = [] :=
    List.filterMap_eq_nil_iff.mpr fun entry member => if_neg (stays entry member)
  have moved : advance starts earliest = starts := by
    have still : ∀ entries : List (Partition × Int), (∀ entry ∈ entries, ¬ starts.offset entry.1 < entry.2) →
        entries.foldl (fun m entry => raise m entry.1 entry.2) starts = starts := by
      intro entries
      induction entries with
      | nil => intro _; rfl
      | cons entry rest ih =>
        intro stays
        obtain ⟨first, later⟩ := List.forall_mem_cons.mp stays
        rw [List.foldl_cons, raise, if_neg first, ih later]
    exact still earliest.entries stays
  rw [advanceReported_eq fun entry member untold => stays entry member untold.1, told, moved]

/-- A move that fails for want of a numeral. -/
def Stuck (starts earliest : OffsetMap) : Prop := ∃ entry ∈ earliest.entries, Untold starts entry

/-- A move gets stuck at partitions that change their offset. -/
theorem stuck_iff : Stuck starts earliest ↔
    ∃ p : Partition, starts.offset p < (advance starts earliest).offset p ∧ Numeral.Overlong p.index := by
  constructor
  · rintro ⟨⟨p, o⟩, member, low, overlong⟩
    refine ⟨p, ?_, overlong⟩
    rw [offset_advance member]
    exact Int.lt_of_lt_of_le low (Int.le_max_right _ _)
  · rintro ⟨p, low, overlong⟩
    by_cases present : p ∈ earliest.partitions
    · obtain ⟨⟨q, o⟩, member, rfl⟩ := List.mem_map.mp present
      rw [offset_advance member] at low
      exact ⟨_, member, Int.not_le.mp fun high => absurd low (by rw [Int.max_eq_left high]; omega), overlong⟩
    · rw [offset_advance_of_absent present] at low
      exact absurd low (Int.lt_irrefl _)

/-- Two moves get stuck just when the one move to the later of both limits does. -/
theorem stuck_join (starts earliest later : OffsetMap) :
    Stuck starts (join earliest later) ↔ Stuck starts earliest ∨ Stuck (advance starts earliest) later := by
  have same (p : Partition) : (advance starts (join earliest later)).offset p =
      (advance (advance starts earliest) later).offset p := by
    rw [OffsetMap.offset, ← get?_advance_advance, OffsetMap.offset]
  have up (m limits : OffsetMap) (p : Partition) : m.offset p ≤ (advance m limits).offset p := by
    rw [offset_eq_retention]
    exact (retention limits).le_closure m.offset p
  simp only [stuck_iff, same, ← exists_or, ← or_and_right]
  refine exists_congr fun p => and_congr_left fun _ => ?_
  have first := up starts earliest p
  have second := up (advance starts earliest) later p
  omega

/-- Where two partitions were left off. -/
def reached : OffsetMap := .ofList [(⟨"clicks", 0⟩, 3), (⟨"clicks", 1⟩, 50)]

/-- What is retained of them and of two more, of which one has lost records. -/
def retained : OffsetMap :=
  .ofList [(⟨"clicks", 3⟩, 7), (⟨"clicks", 0⟩, 20), (⟨"clicks", 1⟩, 10), (⟨"clicks", 4⟩, 0)]

/-- The same limits in another order. -/
def reordered : OffsetMap :=
  .ofList [(⟨"clicks", 0⟩, 20), (⟨"clicks", 1⟩, 10), (⟨"clicks", 3⟩, 7), (⟨"clicks", 4⟩, 0)]

end LogCursor.RetentionClosure
