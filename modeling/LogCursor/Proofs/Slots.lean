import LogCursor.Settings
/-!
Slots: the places where mappings hold values, each of them a key of a mapping. Setting a path writes one slot of
a mapping that was there before, and behind it hangs a chain of new mappings for the segments that led nowhere
(`file_eq`). Whoever does not read that slot finds what he found before (`find?_put`).
-/
namespace LogCursor.Slots

/-- A value that is at hand: its number, if it is a collection, has occurred. -/
def Held (cells : Cells) (v : Strand) : Prop := ∀ n, v = .inner n → n < cells.fresh

/-- Segments of which neither begin with the others. -/
def Diverge (p q : List String) : Prop := ¬ p <+: q ∧ ¬ q <+: p

/-- The slots that are read where segments are followed. -/
def slots (cells : Cells) : List String → Strand → List (Nat × String)
  | [], _ => []
  | x :: rest, v => match cells.mapping? v with
    | none => []
    | some n => (n, x) :: (match cells.child? n (.text x) with
      | some w => slots cells rest w
      | none => [])

/-- The last slot on the way along the first segments is read along the second ones only where they have led the same
    way to it. -/
def Clear (cells : Cells) (n : Nat) (p q : List String) : Prop :=
  ∀ front slot, (slots cells p (.inner n)).getLast? = some slot → front ++ [slot] <+: slots cells q (.inner n) →
    front ++ [slot] = slots cells p (.inner n)

/-- The slot that is written, and the segments that lead nowhere behind it. -/
structure Target where
  slot : Nat × String
  rest : List String

/-- Where filing writes: the last slot that can be reached. -/
def target (cells : Cells) (x : String) : List String → Nat → Target
  | [], n => ⟨(n, x), []⟩
  | y :: rest, n => match (cells.child? n (.text x)).bind cells.mapping? with
    | some m => target cells y rest m
    | none => ⟨(n, x), y :: rest⟩

/-- The value in front of a chain: the first of its mappings, or what would be at its end. -/
def link (v : Strand) (base : Nat) : List String → Strand
  | [] => v
  | _ :: _ => .inner base

/-- New mappings with one entry each, down to a value. -/
def chain (v : Strand) : Nat → List String → Cells
  | _, [] => []
  | base, x :: rest => (base, .map [(.text x, link v (base + 1) rest)]) :: chain v (base + 1) rest

variable {cells new : Cells} {c : Cell} {n m i bound : Nat} {key : Key} {v w r : Strand} {x y : String}
  {p q rest : List String} {entries : List (Key × Strand)}

/-! ### Numbers -/

private theorem bound_le_iff (numbers : List Nat) (start : Nat) :
    numbers.foldl (fun bound n => max bound (n + 1)) start ≤ bound ↔ start ≤ bound ∧ ∀ i ∈ numbers, i < bound := by
  induction numbers generalizing start with
  | nil => simp
  | cons i rest ih =>
    rw [List.foldl_cons, ih, Nat.max_le, List.forall_mem_cons, and_assoc]
    rfl

theorem fresh_le_iff : cells.fresh ≤ bound ↔ ∀ i ∈ cells.numbers, i < bound := by
  rw [Cells.fresh, bound_le_iff]
  exact and_iff_right (Nat.zero_le _)

theorem lt_fresh (member : i ∈ cells.numbers) : i < cells.fresh := fresh_le_iff.mp (Nat.le_refl _) i member

theorem mem_numbers : i ∈ cells.numbers ↔ ∃ entry ∈ cells, i = entry.1 ∨ i ∈ entry.2.inner := by
  simp [Cells.numbers]

theorem number_lt (found : cells.cell? n = some c) : n < cells.fresh :=
  lt_fresh (mem_numbers.mpr ⟨_, Assoc.mem_of_get? found, .inl rfl⟩)

theorem inner_lt (found : cells.cell? n = some c) (held : m ∈ c.inner) : m < cells.fresh :=
  lt_fresh (mem_numbers.mpr ⟨_, Assoc.mem_of_get? found, .inr held⟩)

private theorem key_lt {entry : Nat × Cell} (member : entry ∈ cells) : entry.1 < cells.fresh :=
  lt_fresh (mem_numbers.mpr ⟨entry, member, .inl rfl⟩)

private theorem cell?_eq_none (le : cells.fresh ≤ n) : cells.cell? n = none :=
  Assoc.get?_fresh fun _ member => beq_false_of_ne (Nat.ne_of_lt (Nat.lt_of_lt_of_le (key_lt member) le))

theorem entries?_eq_some_iff : cells.entries? n = some entries ↔ cells.cell? n = some (.map entries) := by
  rw [Cells.entries?]
  split
  · rename_i found
    simp [found]
  · rename_i other
    exact ⟨nofun, fun found => absurd found (other entries)⟩

theorem mem_inner : m ∈ (Cell.map entries).inner ↔ ∃ key, (key, Strand.inner m) ∈ entries := by
  rw [Cell.inner, Cell.strands, List.mem_filterMap]
  constructor
  · rintro ⟨s, member, number⟩
    obtain ⟨⟨key, s⟩, entered, rfl⟩ := List.mem_map.mp member
    cases s with
    | inner m' =>
      cases number
      exact ⟨key, entered⟩
    | _ => cases number
  · rintro ⟨key, entered⟩
    exact ⟨.inner m, List.mem_map_of_mem entered, rfl⟩

theorem child?_eq_some (found : cells.child? n key = some v) :
    ∃ entries, cells.entries? n = some entries ∧ Assoc.get? key entries = some v := Option.bind_eq_some_iff.mp found

theorem held_child (found : cells.child? n key = some v) : Held cells v := by
  rintro m rfl
  obtain ⟨entries, mapping, entered⟩ := child?_eq_some found
  obtain ⟨j, member, _⟩ := Assoc.exists_mem_of_get? entered
  exact inner_lt (entries?_eq_some_iff.mp mapping) (mem_inner.mpr ⟨j, member⟩)

theorem mapping?_eq_some_iff : cells.mapping? v = some n ↔ v = .inner n ∧ (cells.entries? n).isSome := by
  cases v with
  | inner m =>
    rw [Cells.mapping?]
    split
    · rename_i mapping
      constructor
      · rintro ⟨⟩
        exact ⟨rfl, mapping⟩
      · rintro ⟨⟨⟩, _⟩
        rfl
    · rename_i other
      exact ⟨nofun, fun ⟨same, mapping⟩ => absurd (Strand.inner.inj same ▸ mapping) other⟩
  | _ => exact ⟨nofun, nofun⟩

/-! ### More cells -/

theorem cell?_append (lt : n < cells.fresh) (beyond : ∀ entry ∈ new, cells.fresh ≤ entry.1) :
    (cells ++ new).cell? n = cells.cell? n := by
  have absent : Assoc.get? n new = none :=
    Assoc.get?_fresh fun entry member => beq_false_of_ne (Nat.ne_of_gt (Nat.lt_of_lt_of_le lt (beyond entry member)))
  rw [Cells.cell?, Assoc.get?_append, absent, Option.or_none, Cells.cell?]

theorem cell?_append_new (le : cells.fresh ≤ n) : (cells ++ new).cell? n = new.cell? n := by
  rw [Cells.cell?, Assoc.get?_append, ← Cells.cell?, cell?_eq_none le, Option.none_or, Cells.cell?]

/-! ### Writing a slot -/

theorem put_eq (mapping : cells.entries? n = some entries) :
    cells.put n key v = Assoc.put n (.map (Assoc.put key v entries)) cells := by
  rw [Cells.put, mapping]

theorem put_none (mapping : cells.entries? n = none) : cells.put n key v = cells := by
  rw [Cells.put, mapping]

theorem cell?_put_self (mapping : cells.entries? n = some entries) :
    (cells.put n key v).cell? n = some (.map (Assoc.put key v entries)) := by
  rw [put_eq mapping]
  exact Assoc.get?_put_self (beq_self_eq_true n) _ _

theorem cell?_put_of_ne (ne : m ≠ n) : (cells.put n key v).cell? m = cells.cell? m := by
  cases mapping : cells.entries? n with
  | none => rw [put_none mapping]
  | some entries =>
    rw [put_eq mapping]
    refine Assoc.get?_put_other (beq_false_of_ne ne.symm) (fun j same => ?_) _ _
    rw [eq_of_beq same]
    exact beq_false_of_ne ne.symm

theorem entries?_put_self (mapping : cells.entries? n = some entries) :
    (cells.put n key v).entries? n = some (Assoc.put key v entries) :=
  entries?_eq_some_iff.mpr (cell?_put_self mapping)

theorem entries?_congr {cells' : Cells} (same : cells'.cell? n = cells.cell? n) :
    cells'.entries? n = cells.entries? n := by
  rw [Cells.entries?, same, Cells.entries?]

private theorem isSome_put (m : Nat) : ((cells.put n key v).entries? m).isSome = (cells.entries? m).isSome := by
  by_cases same : m = n
  · subst same
    cases mapping : cells.entries? m with
    | none => rw [put_none mapping, mapping]
    | some entries => rw [entries?_put_self mapping]; rfl
  · rw [entries?_congr (cell?_put_of_ne same)]

theorem mapping?_congr {cells' : Cells} (same : ∀ n, v = .inner n → (cells'.entries? n).isSome = (cells.entries? n).isSome) :
    cells'.mapping? v = cells.mapping? v := by
  cases v with
  | inner n => rw [Cells.mapping?, Cells.mapping?, same n rfl]
  | _ => rfl

theorem mapping?_put (w : Strand) : (cells.put n key v).mapping? w = cells.mapping? w :=
  mapping?_congr fun _ _ => isSome_put _

theorem child?_congr {cells' : Cells} (same : cells'.cell? n = cells.cell? n) (key : Key) :
    cells'.child? n key = cells.child? n key := by
  rw [Cells.child?, entries?_congr same, Cells.child?]

theorem child?_put_self (mapping : (cells.entries? n).isSome) :
    (cells.put n (.text x) v).child? n (.text x) = some v := by
  obtain ⟨entries, mapping⟩ := Option.isSome_iff_exists.mp mapping
  rw [Cells.child?, entries?_put_self mapping, Option.bind_some]
  exact Assoc.get?_put_self (by simp) v entries

private theorem child?_put_of_ne (apart : (m, y) ≠ (n, x)) :
    (cells.put n (.text x) v).child? m (.text y) = cells.child? m (.text y) := by
  by_cases same : m = n
  · subst same
    have other : x ≠ y := fun same => apart (by rw [same])
    cases mapping : cells.entries? m with
    | none => rw [put_none mapping]
    | some entries =>
      rw [Cells.child?, entries?_put_self mapping, Cells.child?, mapping]
      exact Assoc.get?_put_apart (by simpa using other) v entries
  · exact child?_congr (cell?_put_of_ne same) _

private theorem mem_numbers_put (member : i ∈ (cells.put n key v).numbers) : i ∈ cells.numbers ∨ v = .inner i := by
  cases mapping : cells.entries? n with
  | none => exact .inl (put_none mapping ▸ member)
  | some entries =>
    have here := Assoc.mem_of_get? (entries?_eq_some_iff.mp mapping)
    rw [put_eq mapping, mem_numbers] at member
    obtain ⟨entry, member, occurs⟩ := member
    rcases Assoc.mem_put member with old | ⟨value, number⟩
    · exact .inl (mem_numbers.mpr ⟨entry, old, occurs⟩)
    · rcases occurs with rfl | held
      · have known : entry.1 ∈ cells.map Prod.fst := number.elim (· ▸ List.mem_map_of_mem here) id
        obtain ⟨other, member, same⟩ := List.mem_map.mp known
        exact .inl (mem_numbers.mpr ⟨other, member, .inl same.symm⟩)
      · rw [value] at held
        obtain ⟨j, entered⟩ := mem_inner.mp held
        rcases Assoc.mem_put entered with old | ⟨same, _⟩
        · exact .inl (mem_numbers.mpr ⟨_, here, .inr (mem_inner.mpr ⟨j, old⟩)⟩)
        · exact .inr same.symm

private theorem keys_lt_put {entry : Nat × Cell} (member : entry ∈ cells.put n key v) : entry.1 < cells.fresh := by
  cases mapping : cells.entries? n with
  | none => exact key_lt (put_none mapping ▸ member)
  | some entries =>
    rw [put_eq mapping] at member
    rcases Assoc.mem_put member with old | ⟨_, same | known⟩
    · exact key_lt old
    · exact same ▸ number_lt (entries?_eq_some_iff.mp mapping)
    · obtain ⟨other, member, same⟩ := List.mem_map.mp known
      exact same ▸ key_lt member

private theorem put_append (mapping : (cells.entries? n).isSome) (new : Cells) :
    Cells.put (cells ++ new) n key v = cells.put n key v ++ new := by
  obtain ⟨entries, mapping⟩ := Option.isSome_iff_exists.mp mapping
  have found := entries?_eq_some_iff.mp mapping
  have more : Cells.entries? (cells ++ new) n = some entries := by
    refine entries?_eq_some_iff.mpr ?_
    rw [Cells.cell?, Assoc.get?_append, ← Cells.cell?, found, Option.some_or]
  rw [put_eq more, put_eq mapping, Assoc.put_append_of_get? found]

/-! ### Filing -/

/-- The number after those of new mappings. -/
private theorem fresh_started (cells : Cells) (n : Nat) (key : Key) :
    Cells.fresh (cells.put n key (.inner cells.fresh) ++ [(cells.fresh, .map [])]) = cells.fresh + 1 := by
  refine Nat.le_antisymm (fresh_le_iff.mpr fun i member => ?_) (lt_fresh ?_)
  · obtain ⟨entry, member, occurs⟩ := mem_numbers.mp member
    rcases List.mem_append.mp member with old | new
    · rcases mem_numbers_put (mem_numbers.mpr ⟨entry, old, occurs⟩) with known | same
      · exact Nat.lt_succ_of_lt (lt_fresh known)
      · exact Strand.inner.inj same ▸ Nat.lt_succ_self _
    · rw [List.mem_singleton.mp new] at occurs
      rcases occurs with rfl | held
      · exact Nat.lt_succ_self _
      · cases held
  · exact mem_numbers.mpr ⟨(cells.fresh, .map []), by simp, .inl rfl⟩

private theorem entries?_started {old : Cells} {f : Nat} (below : ∀ entry ∈ old, entry.1 < f)
    (m : List (Key × Strand)) (new : Cells) : Cells.entries? (old ++ (f, .map m) :: new) f = some m := by
  have absent : ∀ entry ∈ old, (entry.1 == f) = false := fun entry member =>
    beq_false_of_ne (Nat.ne_of_lt (below entry member))
  rw [entries?_eq_some_iff, Cells.cell?, Assoc.get?_append, Assoc.get?_fresh absent, Option.none_or, Assoc.get?_cons,
    if_pos (beq_self_eq_true f)]

private theorem put_started {old : Cells} {f : Nat} (below : ∀ entry ∈ old, entry.1 < f) (m : List (Key × Strand)) :
    Cells.put (old ++ (f, .map m) :: new) f key v = old ++ (f, .map (Assoc.put key v m)) :: new := by
  have absent : ∀ entry ∈ old, (entry.1 == f) = false := fun entry member =>
    beq_false_of_ne (Nat.ne_of_lt (below entry member))
  rw [put_eq (entries?_started below m new), Assoc.put_append_of_fresh absent, Assoc.put, if_pos (beq_self_eq_true f)]

/-- Filing from a mapping writes the slot that it reaches, and hangs new mappings behind it for the segments that
    are left. -/
theorem file_eq (v : Strand) (x : String) (rest : List String) (mapping : (cells.entries? n).isSome) :
    cells.file v (x :: rest) n =
      let t := target cells x rest n
      Cells.put (cells ++ chain v cells.fresh t.rest) t.slot.1 (.text t.slot.2) (link v cells.fresh t.rest) := by
  induction rest generalizing x n cells with
  | nil =>
    show _ = Cells.put (cells ++ []) n (.text x) v
    rw [Cells.file_one, List.append_nil]
  | cons y rest ih =>
    cases leads : (cells.child? n (.text x)).bind cells.mapping? with
    | some m =>
      obtain ⟨w, _, maps⟩ := Option.bind_eq_some_iff.mp leads
      rw [Cells.file_cons, Cells.enter_some leads, ih y (mapping?_eq_some_iff.mp maps).2, target, leads]
    | none =>
      -- The first new mapping has no entries yet, so filing goes on in it, and writes its only slot.
      have below : ∀ entry ∈ cells.put n (.text x) (.inner cells.fresh), entry.1 < cells.fresh := fun _ => keys_lt_put
      have empty := entries?_started below [] []
      have reached : target (cells.put n (.text x) (.inner cells.fresh) ++ [(cells.fresh, .map [])]) y rest cells.fresh =
          ⟨(cells.fresh, y), rest⟩ := by
        cases rest with
        | nil => rfl
        | cons z rest =>
          rw [target, Cells.child?, empty]
          rfl
      rw [Cells.file_cons, Cells.enter_none leads, put_append mapping, ih y (Option.isSome_iff_exists.mpr ⟨_, empty⟩),
        reached, fresh_started, target, leads]
      show Cells.put (_ ++ [_] ++ chain v (cells.fresh + 1) rest) cells.fresh (.text y) (link v (cells.fresh + 1) rest) =
        Cells.put (cells ++ _) n (.text x) (.inner cells.fresh)
      rw [List.append_assoc, List.singleton_append, put_started below [], put_append mapping]
      rfl

/-! ### Reading -/

theorem find?_cons (mapping : cells.mapping? r = some n) :
    cells.find? (x :: p) r = (cells.child? n (.text x)).bind (cells.find? p) := by
  rw [Cells.find?, mapping, Option.bind_some]

theorem find?_plain (x : String) (p : List String) (plain : cells.mapping? r = none) : cells.find? (x :: p) r = none := by
  rw [Cells.find?, plain, Option.bind_none]

theorem slots_cons (mapping : cells.mapping? r = some n) : slots cells (x :: p) r =
    (n, x) :: (match cells.child? n (.text x) with
      | some w => slots cells p w
      | none => []) := by
  rw [slots, mapping]

private theorem mapping?_append (beyond : ∀ entry ∈ new, cells.fresh ≤ entry.1) (held : Held cells r) :
    Cells.mapping? (cells ++ new) r = cells.mapping? r :=
  mapping?_congr fun _ same => congrArg Option.isSome (entries?_congr (cell?_append (held _ same) beyond))

theorem number_of_mapping (mapping : cells.mapping? r = some n) : r = .inner n ∧ n < cells.fresh := by
  obtain ⟨same, maps⟩ := mapping?_eq_some_iff.mp mapping
  obtain ⟨entries, maps⟩ := Option.isSome_iff_exists.mp maps
  exact ⟨same, number_lt (entries?_eq_some_iff.mp maps)⟩

/-- What is found is in the cells. -/
theorem held_found (held : Held cells r) (found : cells.find? q r = some v) : Held cells v := by
  induction q generalizing r with
  | nil => exact Option.some.inj found ▸ held
  | cons x q ih =>
    cases mapping : cells.mapping? r with
    | none =>
      rw [find?_plain x q mapping] at found
      cases found
    | some n =>
      rw [find?_cons mapping] at found
      obtain ⟨w, child, found⟩ := Option.bind_eq_some_iff.mp found
      exact ih (held_child child) found

/-- What is read of cells is not touched by more cells, nor by a slot that is not read. -/
theorem read_put (beyond : ∀ entry ∈ new, cells.fresh ≤ entry.1) (held : Held cells r)
    (apart : (n, x) ∉ slots cells q r) :
    Cells.find? (Cells.put (cells ++ new) n (.text x) v) q r = cells.find? q r ∧
    slots (Cells.put (cells ++ new) n (.text x) v) q r = slots cells q r := by
  induction q generalizing r with
  | nil => exact ⟨rfl, rfl⟩
  | cons y q ih =>
    have maps : Cells.mapping? (Cells.put (cells ++ new) n (.text x) v) r = cells.mapping? r :=
      (mapping?_put r).trans (mapping?_append beyond held)
    cases mapping : cells.mapping? r with
    | none =>
      rw [mapping] at maps
      rw [Cells.find?, maps, Cells.find?, mapping, slots, maps, slots, mapping]
      exact ⟨rfl, rfl⟩
    | some m =>
      rw [slots_cons mapping, List.mem_cons, not_or] at apart
      have same : Cells.child? (Cells.put (cells ++ new) n (.text x) v) m (.text y) = cells.child? m (.text y) :=
        (child?_put_of_ne (Ne.symm apart.1)).trans
          (child?_congr (cell?_append (number_of_mapping mapping).2 beyond) _)
      rw [mapping] at maps
      rw [find?_cons maps, find?_cons mapping, slots_cons maps, slots_cons mapping, same]
      cases found : cells.child? m (.text y) with
      | none => exact ⟨rfl, rfl⟩
      | some w =>
        rw [found] at apart
        obtain ⟨finds, reads⟩ := ih (held_child found) apart.2
        exact ⟨finds, congrArg _ reads⟩

/-! ### New mappings -/

theorem diverge_cons (diverge : Diverge (x :: p) (y :: q)) (same : x = y) : Diverge p q := by
  subst same
  simpa [Diverge, List.cons_prefix_cons] using diverge

theorem diverge_nonempty (diverge : Diverge p q) : p ≠ [] ∧ q ≠ [] := by
  constructor <;> rintro rfl
  · exact diverge.1 List.nil_prefix
  · exact diverge.2 List.nil_prefix

private theorem chain_beyond {base : Nat} (v : Strand) (rest : List String) :
    ∀ entry ∈ chain v base rest, base ≤ entry.1 := by
  induction rest generalizing base with
  | nil => nofun
  | cons x rest ih =>
    intro entry member
    rcases List.mem_cons.mp member with rfl | later
    · exact Nat.le_refl _
    · exact Nat.le_of_succ_le (ih entry later)

/-- From their first number on, some cells are new mappings in a row. -/
def Hangs (cells : Cells) (v : Strand) (base : Nat) (rest : List String) : Prop :=
  ∀ i, base ≤ i → cells.cell? i = (chain v base rest).cell? i

theorem hangs_cons {base : Nat} (hangs : Hangs cells v base (x :: rest)) :
    cells.entries? base = some [(.text x, link v (base + 1) rest)] ∧ Hangs cells v (base + 1) rest := by
  constructor
  · rw [entries?_eq_some_iff, hangs base (Nat.le_refl _), chain, Cells.cell?, Assoc.get?_cons,
      if_pos (beq_self_eq_true base)]
  · intro i le
    rw [hangs i (Nat.le_of_succ_le le), chain, Cells.cell?, Assoc.get?_cons,
      if_neg (by simpa using Nat.ne_of_lt le), Cells.cell?]

theorem mapping?_of_entries? (mapping : cells.entries? n = some entries) : cells.mapping? (.inner n) = some n := by
  rw [Cells.mapping?, mapping]
  rfl

/-! ### What filing does -/

/-- The slots that are read on the way end with the one that is written, and behind it nothing is a mapping, if
    there are segments left. -/
theorem target_reads (x : String) (p : List String) (mapping : (cells.entries? n).isSome) :
    ∃ front, slots cells (x :: p) (.inner n) = front ++ [(target cells x p n).slot] ∧
      x :: p = front.map Prod.snd ++ (target cells x p n).slot.2 :: (target cells x p n).rest ∧
      (cells.entries? (target cells x p n).slot.1).isSome ∧
      ((target cells x p n).rest ≠ [] →
        (cells.child? (target cells x p n).slot.1 (.text (target cells x p n).slot.2)).bind cells.mapping? = none) := by
  obtain ⟨entries, maps⟩ := Option.isSome_iff_exists.mp mapping
  induction p generalizing x n entries with
  | nil =>
    refine ⟨[], ?_, rfl, mapping, fun some => absurd rfl some⟩
    rw [slots_cons (mapping?_of_entries? maps)]
    cases cells.child? n (.text x) <;> rfl
  | cons y p ih =>
    rw [slots_cons (mapping?_of_entries? maps), target]
    cases leads : (cells.child? n (.text x)).bind cells.mapping? with
    | none =>
      refine ⟨[], ?_, rfl, mapping, fun _ => leads⟩
      cases found : cells.child? n (.text x) with
      | none => rfl
      | some w =>
        rw [found, Option.bind_some] at leads
        dsimp only
        rw [slots, leads]
        rfl
    | some m =>
      obtain ⟨w, found, leads⟩ := Option.bind_eq_some_iff.mp leads
      obtain ⟨rfl, mapping⟩ := mapping?_eq_some_iff.mp leads
      obtain ⟨entries, maps⟩ := Option.isSome_iff_exists.mp mapping
      obtain ⟨front, reads, keys, rest⟩ := ih y mapping entries maps
      rw [found]
      exact ⟨(n, x) :: front, congrArg _ reads, congrArg _ keys, rest⟩

section
variable (v : Strand) (mapping : (cells.entries? n).isSome)
include mapping

private theorem target_lt : (target cells x p n).slot.1 < cells.fresh := by
  obtain ⟨_, _, _, maps, _⟩ := target_reads x p mapping
  obtain ⟨entries, maps⟩ := Option.isSome_iff_exists.mp maps
  exact number_lt (entries?_eq_some_iff.mp maps)

theorem hangs_file : Hangs (cells.file v (x :: p) n) v cells.fresh (target cells x p n).rest := by
  intro i le
  rw [file_eq v x p mapping]
  exact (cell?_put_of_ne (Nat.ne_of_gt (Nat.lt_of_lt_of_le (target_lt mapping) le))).trans (cell?_append_new le)

theorem cell?_file (lt : m < cells.fresh) (other : m ≠ (target cells x p n).slot.1) :
    (cells.file v (x :: p) n).cell? m = cells.cell? m := by
  rw [file_eq v x p mapping]
  exact (cell?_put_of_ne other).trans (cell?_append lt (chain_beyond v _))

theorem entries?_file {entries : List (Key × Strand)} (maps : cells.entries? (target cells x p n).slot.1 = some entries) :
    (cells.file v (x :: p) n).entries? (target cells x p n).slot.1 =
      some (Assoc.put (.text (target cells x p n).slot.2) (link v cells.fresh (target cells x p n).rest) entries) := by
  rw [file_eq v x p mapping]
  exact entries?_put_self ((entries?_congr (cell?_append (target_lt mapping) (chain_beyond v _))).trans maps)

theorem mapping?_file (held : Held cells r) : (cells.file v (x :: p) n).mapping? r = cells.mapping? r := by
  rw [file_eq v x p mapping]
  exact (mapping?_put r).trans (mapping?_append (chain_beyond v _) held)

theorem child?_file (lt : m < cells.fresh) (apart : (m, y) ≠ (target cells x p n).slot) :
    (cells.file v (x :: p) n).child? m (.text y) = cells.child? m (.text y) := by
  rw [file_eq v x p mapping]
  exact (child?_put_of_ne apart).trans (child?_congr (cell?_append lt (chain_beyond v _)) _)

theorem child?_file_self : (cells.file v (x :: p) n).child? (target cells x p n).slot.1 (.text (target cells x p n).slot.2) =
    some (link v cells.fresh (target cells x p n).rest) := by
  obtain ⟨_, _, _, maps, _⟩ := target_reads x p mapping
  obtain ⟨entries, maps⟩ := Option.isSome_iff_exists.mp maps
  rw [Cells.child?, entries?_file v mapping maps, Option.bind_some]
  exact Assoc.get?_put_self (by simp) _ _

/-- What does not read the slot that is written finds what it found before. -/
theorem read_file (held : Held cells r) (apart : (target cells x p n).slot ∉ slots cells q r) :
    (cells.file v (x :: p) n).find? q r = cells.find? q r ∧ slots (cells.file v (x :: p) n) q r = slots cells q r := by
  rw [file_eq v x p mapping]
  exact read_put (chain_beyond v _) held apart

end

end LogCursor.Slots
