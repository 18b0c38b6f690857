import LogCursor.Retention
import LogCursor.Proofs.CheckpointText
import LogCursor.Proofs.Offsets
/-!
Moving past what retention has dropped. What is found for a partition afterwards depends on its own start and its
own earliest retained offset only (`get?_advance`): with such an offset it starts there at the earliest
(`offset_advance`), and without one it stays where it is (`get?_advance_of_absent`). A move that is reported comes to
this (`advanceReported_eq`) unless a partition that has to move has no name to report it by
(`advanceReported_untold`).
-/
namespace LogCursor.Advance
open LogCursor.Retention

/-- Moves one partition up to its earliest retained offset. -/
def raise (starts : OffsetMap) (p : Partition) (earliest : Int) : OffsetMap :=
  if starts.offset p < earliest then starts.put p earliest else starts

/-- Moves every partition up to its earliest retained offset. -/
def advance (starts earliest : OffsetMap) : OffsetMap :=
  earliest.entries.foldl (fun m entry => raise m entry.1 entry.2) starts

/-- What is told of a partition that starts before its earliest retained offset. -/
def told (starts : OffsetMap) (entry : Partition × Int) : Option Notice :=
  if starts.offset entry.1 < entry.2 then some (.behindEarliest entry.1 (starts.offset entry.1) entry.2) else none

/-- The warnings of the moves, in the order of the retained offsets. -/
def warnings (starts earliest : OffsetMap) : List Notice := earliest.entries.filterMap (told starts)

/-- A partition that has to move, though its index has no numeral to tell it by. -/
def Untold (starts : OffsetMap) (entry : Partition × Int) : Prop :=
  starts.offset entry.1 < entry.2 ∧ Numeral.Overlong entry.1.index

instance (starts : OffsetMap) (entry : Partition × Int) : Decidable (Untold starts entry) :=
  inferInstanceAs (Decidable (_ ∧ _))

variable {starts earliest : OffsetMap} {p q : Partition} {o : Int}

/-- What is found for a partition once it does not start before this offset. A missing start counts as zero. -/
def raised (start : Option Int) (earliest : Int) : Option Int :=
  if start.getD 0 < earliest then some earliest else start

theorem getD_raised (start : Option Int) (earliest : Int) :
    (raised start earliest).getD 0 = max (start.getD 0) earliest := by
  unfold raised
  split
  · rw [Option.getD_some]; omega
  · omega

private theorem get?_raise (starts : OffsetMap) (p : Partition) (o : Int) (q : Partition) :
    (raise starts p o).get? q = if p = q then raised (starts.get? q) o else starts.get? q := by
  unfold raise raised
  by_cases same : p = q
  · subst same
    rw [if_pos rfl, ← OffsetMap.offset]
    split
    · rw [OffsetMap.get?_put, if_pos rfl]
    · rfl
  · rw [if_neg same]
    split
    · rw [OffsetMap.get?_put, if_neg same]
    · rfl

/-- A move is read one partition at a time. -/
theorem get?_advance (starts earliest : OffsetMap) (p : Partition) :
    (advance starts earliest).get? p = (earliest.get? p).elim (starts.get? p) (raised (starts.get? p)) :=
  OffsetMap.get?_foldl get?_raise starts earliest p

/-- A partition does not start before its earliest retained offset. -/
theorem offset_advance (member : (p, o) ∈ earliest.entries) (starts : OffsetMap) :
    (advance starts earliest).offset p = max (starts.offset p) o := by
  rw [OffsetMap.offset, get?_advance, OffsetMap.get?_eq_some_iff.mpr member, Option.elim_some, getD_raised,
    ← OffsetMap.offset]

theorem offset_advance_of_present (present : p ∈ earliest.partitions) (starts : OffsetMap) :
    (advance starts earliest).offset p = max (starts.offset p) (earliest.offset p) := by
  obtain ⟨⟨q, o⟩, member, rfl⟩ := List.mem_map.mp present
  rw [offset_advance member, OffsetMap.offset_of_mem member]

/-- A partition without an earliest retained offset stays where it is. -/
theorem get?_advance_of_absent (absent : p ∉ earliest.partitions) (starts : OffsetMap) :
    (advance starts earliest).get? p = starts.get? p := by
  rw [get?_advance, OffsetMap.get?_eq_none_iff.mpr absent, Option.elim_none]

theorem offset_advance_of_absent (absent : p ∉ earliest.partitions) (starts : OffsetMap) :
    (advance starts earliest).offset p = starts.offset p := by
  rw [OffsetMap.offset, get?_advance_of_absent absent, OffsetMap.offset]

/-- Where no offset is negative, a missing one counts as zero on both sides. -/
theorem offset_advance_eq (nonneg : 0 ≤ starts.offset p) (earliest : OffsetMap) :
    (advance starts earliest).offset p = max (starts.offset p) (earliest.offset p) := by
  by_cases present : p ∈ earliest.partitions
  · exact offset_advance_of_present present starts
  · rw [offset_advance_of_absent present, OffsetMap.offset_of_not_mem present, Int.max_eq_left nonneg]

private theorem visit_eq {starts : OffsetMap} {entry : Partition × Int} (named : ¬ Untold starts entry) :
    visit starts entry.1 entry.2 = ⟨(told starts entry).toList, .ok (raise starts entry.1 entry.2)⟩ := by
  unfold visit told raise
  split
  · rename_i low
    have said : Outcome.say (.behindEarliest entry.1 (starts.offset entry.1) entry.2) =
        ⟨[.behindEarliest entry.1 (starts.offset entry.1) entry.2], .ok ⟨⟩⟩ :=
      Outcome.say_eq fun p member => List.mem_singleton.mp member ▸ fun overlong => named ⟨low, overlong⟩
    rw [said]
    rfl
  · rfl

private theorem visit_untold {starts : OffsetMap} {entry : Partition × Int} (untold : Untold starts entry) :
    visit starts entry.1 entry.2 = .fail .overlongNumber := by
  rw [visit, if_pos untold.1, Outcome.say_overlong (List.mem_singleton.mpr rfl) untold.2]
  rfl

private theorem offset_raise_of_ne {entry other : Partition × Int} (apart : other.1 ≠ entry.1) (starts : OffsetMap) :
    (raise starts entry.1 entry.2).offset other.1 = starts.offset other.1 := by
  rw [OffsetMap.offset, get?_raise, if_neg apart.symm, OffsetMap.offset]

private theorem told_raise {entry other : Partition × Int} (apart : other.1 ≠ entry.1) (starts : OffsetMap) :
    told (raise starts entry.1 entry.2) other = told starts other := by
  rw [told, offset_raise_of_ne apart, told]

private theorem untold_raise {entry other : Partition × Int} (apart : other.1 ≠ entry.1) (starts : OffsetMap) :
    Untold (raise starts entry.1 entry.2) other ↔ Untold starts other := by
  rw [Untold, offset_raise_of_ne apart, Untold]

/-- A run over limits with distinct partitions goes on with the rest as if the first had not moved. -/
private theorem visits_cons {entry : Partition × Int} {rest : List (Partition × Int)}
    (named : ¬ Untold starts entry) :
    (entry :: rest).foldlM (fun m entry => visit m entry.1 entry.2) starts =
      ⟨(told starts entry).toList ++
          (rest.foldlM (fun m entry => visit m entry.1 entry.2) (raise starts entry.1 entry.2)).notices,
        (rest.foldlM (fun m entry => visit m entry.1 entry.2) (raise starts entry.1 entry.2)).result⟩ := by
  rw [List.foldlM_cons, visit_eq named, Outcome.ok_bind]

private theorem told_toList_append (starts : OffsetMap) (entry : Partition × Int) (rest : List (Partition × Int)) :
    (told starts entry).toList ++ rest.filterMap (told starts) = (entry :: rest).filterMap (told starts) := by
  cases warned : told starts entry with
  | none => rw [List.filterMap_cons_none warned]; rfl
  | some n => rw [List.filterMap_cons_some warned]; rfl

private theorem apart_of_nodup {entry other : Partition × Int} {rest : List (Partition × Int)}
    (distinct : ((entry :: rest).map Prod.fst).Nodup) (member : other ∈ rest) : other.1 ≠ entry.1 :=
  fun same => (List.nodup_cons.mp distinct).1 (List.mem_map.mpr ⟨other, member, same⟩)

private theorem visits_eq {entries : List (Partition × Int)} (distinct : (entries.map Prod.fst).Nodup)
    (starts : OffsetMap) (named : ∀ entry ∈ entries, ¬ Untold starts entry) :
    entries.foldlM (fun m entry => visit m entry.1 entry.2) starts = ⟨entries.filterMap (told starts),
      .ok (entries.foldl (fun m entry => raise m entry.1 entry.2) starts)⟩ := by
  induction entries generalizing starts with
  | nil => rfl
  | cons entry rest ih =>
    obtain ⟨here, later⟩ := List.forall_mem_cons.mp named
    have apart : ∀ other ∈ rest, other.1 ≠ entry.1 := fun _ => apart_of_nodup distinct
    have same : rest.filterMap (told (raise starts entry.1 entry.2)) = rest.filterMap (told starts) :=
      List.filterMap_congr fun other member => told_raise (apart other member) starts
    have rested := ih (List.nodup_cons.mp distinct).2 (raise starts entry.1 entry.2) fun other member =>
      (untold_raise (apart other member) starts).not.mpr (later other member)
    rw [visits_cons here, rested, same, told_toList_append]
    rfl

private theorem visits_untold {front back : List (Partition × Int)} {entry : Partition × Int}
    (distinct : ((front ++ entry :: back).map Prod.fst).Nodup) (starts : OffsetMap)
    (named : ∀ other ∈ front, ¬ Untold starts other) (untold : Untold starts entry) :
    (front ++ entry :: back).foldlM (fun m entry => visit m entry.1 entry.2) starts =
      ⟨front.filterMap (told starts), .error .overlongNumber⟩ := by
  induction front generalizing starts with
  | nil => rw [List.nil_append, List.foldlM_cons, visit_untold untold]; rfl
  | cons first rest ih =>
    obtain ⟨here, later⟩ := List.forall_mem_cons.mp named
    rw [List.cons_append] at distinct
    have apart : ∀ other ∈ rest ++ entry :: back, other.1 ≠ first.1 := fun _ => apart_of_nodup distinct
    have same : rest.filterMap (told (raise starts first.1 first.2)) = rest.filterMap (told starts) :=
      List.filterMap_congr fun other member => told_raise (apart other (List.mem_append_left _ member)) starts
    have rested := ih (List.nodup_cons.mp distinct).2 (raise starts first.1 first.2)
      (fun other member =>
        (untold_raise (apart other (List.mem_append_left _ member)) starts).not.mpr (later other member))
      ((untold_raise (apart entry (by simp)) starts).mpr untold)
    rw [List.cons_append, visits_cons here, rested, same, told_toList_append]

/-- Where every partition that has to move has a name, all of them move and are told of. -/
theorem advanceReported_eq (named : ∀ entry ∈ earliest.entries, ¬ Untold starts entry) :
    advanceReported starts earliest = ⟨warnings starts earliest, .ok (advance starts earliest)⟩ :=
  visits_eq earliest.distinct starts named

/-- The first partition that has to move without a name stops the run, after what was told before it. -/
theorem advanceReported_untold {front back : List (Partition × Int)} {entry : Partition × Int}
    (split : earliest.entries = front ++ entry :: back) (named : ∀ other ∈ front, ¬ Untold starts other)
    (untold : Untold starts entry) :
    advanceReported starts earliest = ⟨front.filterMap (told starts), .error .overlongNumber⟩ := by
  have distinct := earliest.distinct
  rw [split] at distinct
  rw [advanceReported, split]
  exact visits_untold distinct starts named untold

/-- A run either moves everything or stops for want of a numeral. -/
theorem advanceReported_result (starts earliest : OffsetMap) :
    (advanceReported starts earliest).result =
      if ∃ entry ∈ earliest.entries, Untold starts entry then .error .overlongNumber
      else .ok (advance starts earliest) := by
  split
  · rename_i some
    have finds : (earliest.entries.find? fun entry => Untold starts entry).isSome :=
      List.find?_isSome.mpr (by simpa using some)
    obtain ⟨entry, found⟩ := Option.isSome_iff_exists.mp finds
    obtain ⟨untold, front, back, split, named⟩ := List.find?_eq_some_iff_append.mp found
    rw [advanceReported_untold split (by simpa using named) (by simpa using untold)]
  · rename_i none
    rw [advanceReported_eq fun entry member untold => none ⟨entry, member, untold⟩]

end LogCursor.Advance
