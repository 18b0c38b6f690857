import LogCursor.OffsetMap
/-!
Facts on offset maps. A look-up finds exactly the entries (`get?_eq_some_iff`), a partition that is entered
anew comes last (`entries_put_of_fresh`), and pairs with distinct partitions are entered as they stand
(`entries_ofList`). A run over a map whose steps keep to their own partitions is read one partition at a time
(`get?_foldl`).
-/
namespace LogCursor.OffsetMap

theorem eq_of_entries {m m' : OffsetMap} (same : m.entries = m'.entries) : m = m' := by
  cases m
  cases m'
  cases same
  rfl

private theorem assoc_get?_iff {entries : List (Partition × Int)} (distinct : (entries.map Prod.fst).Nodup)
    (p : Partition) (o : Int) : Assoc.get? p entries = some o ↔ (p, o) ∈ entries := by
  induction entries with
  | nil => simp
  | cons entry rest ih =>
    obtain ⟨q, v⟩ := entry
    obtain ⟨fresh, others⟩ := List.nodup_cons.mp distinct
    rw [Assoc.get?_cons, List.mem_cons]
    by_cases same : q = p
    · subst same
      constructor
      · intro found; simp at found; simp [found]
      · rintro (here | later)
        · cases here; simp
        · exact absurd (List.mem_map_of_mem (f := Prod.fst) later) fresh
    · simp only [beq_eq_false_iff_ne.mpr same, Bool.false_eq_true, if_false, ih others]
      constructor
      · exact .inr
      · rintro (here | later)
        · cases here; exact absurd rfl same
        · exact later

theorem get?_eq_some_iff {m : OffsetMap} {p : Partition} {o : Int} :
    m.get? p = some o ↔ (p, o) ∈ m.entries := assoc_get?_iff m.distinct p o

theorem nodup_partitions (m : OffsetMap) : m.partitions.Nodup := m.distinct

theorem contains_iff {m : OffsetMap} {p : Partition} : m.contains p = true ↔ p ∈ m.partitions := by
  unfold contains partitions
  rw [Option.isSome_iff_exists, List.mem_map]
  constructor
  · rintro ⟨o, found⟩; exact ⟨(p, o), get?_eq_some_iff.mp found, rfl⟩
  · rintro ⟨⟨q, o⟩, member, rfl⟩; exact ⟨o, get?_eq_some_iff.mpr member⟩

theorem offset_of_mem {m : OffsetMap} {p : Partition} {o : Int} (member : (p, o) ∈ m.entries) :
    m.offset p = o := by
  simp [offset, get?_eq_some_iff.mpr member]

theorem get?_eq_none_iff {m : OffsetMap} {p : Partition} : m.get? p = none ↔ p ∉ m.partitions := by
  rw [← contains_iff, contains, Bool.not_eq_true, Option.isSome_eq_false_iff, Option.isNone_iff_eq_none]

theorem offset_of_not_mem {m : OffsetMap} {p : Partition} (absent : p ∉ m.partitions) : m.offset p = 0 := by
  rw [offset, get?_eq_none_iff.mpr absent, Option.getD_none]

/-- Entries are their partitions with the offsets of these. -/
theorem map_offset {m : OffsetMap} {entries : List (Partition × Int)} (inside : ∀ entry ∈ entries, entry ∈ m.entries) :
    (entries.map Prod.fst).map (fun p => (p, m.offset p)) = entries := by
  rw [List.map_map]
  refine (List.map_congr_left fun entry member => ?_).trans (List.map_id _)
  show (entry.1, m.offset entry.1) = entry
  rw [offset_of_mem (p := entry.1) (inside entry member)]

theorem offset_nonneg {m : OffsetMap} (nonneg : ∀ entry ∈ m.entries, 0 ≤ entry.2) (p : Partition) :
    0 ≤ m.offset p := by
  cases found : m.get? p with
  | none => simp [offset, found]
  | some o => simpa [offset, found] using nonneg _ (get?_eq_some_iff.mp found)

/-- The order of the entries does not matter to a look-up. -/
theorem get?_perm {m m' : OffsetMap} (perm : m.entries.Perm m'.entries) (p : Partition) : m.get? p = m'.get? p :=
  Option.ext fun o => by rw [get?_eq_some_iff, get?_eq_some_iff, perm.mem_iff]

theorem offset_perm {m m' : OffsetMap} (perm : m.entries.Perm m'.entries) (p : Partition) :
    m.offset p = m'.offset p := by
  rw [offset, get?_perm perm, offset]

theorem get?_put (m : OffsetMap) (p q : Partition) (o : Int) :
    (m.put p o).get? q = if p = q then some o else m.get? q := by
  by_cases same : p = q
  · subst same; simp [get?_put_self]
  · simp [get?_put_of_ne m same, same]

theorem offset_put (m : OffsetMap) (p q : Partition) (o : Int) :
    (m.put p o).offset q = if p = q then o else m.offset q := by
  rw [offset, get?_put]
  split <;> rfl

theorem partitions_put {m : OffsetMap} {p : Partition} (present : p ∈ m.partitions) (o : Int) :
    (m.put p o).partitions = m.partitions := by
  have found : m.partitions.any (· == p) = true := List.any_eq_true.mpr ⟨p, present, by simp⟩
  exact (Assoc.keys_put p o m.entries).trans (if_pos found)

theorem entries_put_of_fresh {m : OffsetMap} {p : Partition} (fresh : p ∉ m.partitions) (o : Int) :
    (m.put p o).entries = m.entries ++ [(p, o)] :=
  Assoc.put_fresh (fun entry member =>
    beq_eq_false_iff_ne.mpr fun same => fresh (List.mem_map.mpr ⟨entry, member, same⟩)) o

/-- Pairs with distinct partitions are entered as they stand. -/
theorem entries_ofList {pairs : List (Partition × Int)} (distinct : (pairs.map Prod.fst).Nodup) :
    (ofList pairs).entries = pairs := by
  have entered : ∀ (pairs : List (Partition × Int)) (m : OffsetMap),
      (m.partitions ++ pairs.map Prod.fst).Nodup →
      (pairs.foldl (fun m pair => m.put pair.1 pair.2) m).entries = m.entries ++ pairs := by
    intro pairs
    induction pairs with
    | nil => simp
    | cons pair rest ih =>
      intro m distinct
      have fresh : pair.1 ∉ m.partitions := fun member =>
        (List.nodup_append.mp distinct).2.2 _ member _ (by simp) rfl
      have put := entries_put_of_fresh fresh pair.2
      rw [List.foldl_cons, ih, put]
      · simp
      · simpa [partitions, put] using distinct
  simpa [ofList, empty] using entered pairs empty (by simpa [partitions, empty] using distinct)

/-- Where each step changes what is found for its own partition only, a run over a map changes each partition by the
    one step that is its own. -/
theorem get?_foldl {step : OffsetMap → Partition → Int → OffsetMap} {change : Option Int → Int → Option Int}
    (own : ∀ m p o q, (step m p o).get? q = if p = q then change (m.get? q) o else m.get? q)
    (m limits : OffsetMap) (p : Partition) :
    (limits.entries.foldl (fun m entry => step m entry.1 entry.2) m).get? p =
      (limits.get? p).elim (m.get? p) (change (m.get? p)) := by
  have run : ∀ (entries : List (Partition × Int)) (m : OffsetMap), (entries.map Prod.fst).Nodup →
      (entries.foldl (fun m entry => step m entry.1 entry.2) m).get? p =
        (Assoc.get? p entries).elim (m.get? p) (change (m.get? p)) := by
    intro entries
    induction entries with
    | nil => intro m _; rfl
    | cons entry rest ih =>
      intro m distinct
      obtain ⟨q, o⟩ := entry
      obtain ⟨fresh, others⟩ := List.nodup_cons.mp distinct
      rw [List.foldl_cons, ih _ others, own, Assoc.get?_cons]
      by_cases same : q = p
      · subst same
        have later : Assoc.get? q rest = none := Assoc.get?_fresh fun other member =>
          beq_eq_false_iff_ne.mpr fun again => fresh (List.mem_map.mpr ⟨other, member, again⟩)
        simp [later]
      · simp [same]
  exact run limits.entries m limits.distinct

end LogCursor.OffsetMap
