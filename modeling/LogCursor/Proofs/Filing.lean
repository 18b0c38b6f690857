import LogCursor.Proofs.Holding
/-!
The laws of filing, along the segments of a path. Entering a mapping leads to the same laws from there (`behind`), and
where two paths part, they write and read different slots. To file what is found changes nothing (`file_found`). A
value that is filed is found, and the second of two values stays, if the slot that is written is not passed on the way
to it (`find?_file`, `file_file`). What is found on another way stays as it was, if that slot is not read there
(`find?_file_apart`).
-/
namespace LogCursor.Filing
open Slots

variable {cells cells' : Cells} {n m : Nat} {x y z : String} {p q : List String} {v w u : Strand}

theorem mapping?_inner (mapping : (cells.entries? n).isSome) : cells.mapping? (.inner n) = some n :=
  mapping?_eq_some_iff.mpr ⟨rfl, mapping⟩

theorem held_mapping (mapping : (cells.entries? n).isSome) : Held cells (.inner n) := by
  obtain ⟨entries, maps⟩ := Option.isSome_iff_exists.mp mapping
  exact fun m same => Strand.inner.inj same ▸ number_lt (entries?_eq_some_iff.mp maps)

/-- What is a mapping stays one. -/
theorem isSome_file (v : Strand) (x : String) (p : List String) (mapping : (cells.entries? n).isSome)
    (inner : (cells.entries? m).isSome) : ((cells.file v (x :: p) n).entries? m).isSome := by
  have same := mapping?_file (x := x) (p := p) v mapping (held_mapping inner)
  rw [mapping?_inner inner] at same
  exact (mapping?_eq_some_iff.mp same).2

/-- The last slot is the one that is written. -/
theorem last_slot (x : String) (p : List String) (mapping : (cells.entries? n).isSome) :
    (slots cells (x :: p) (.inner n)).getLast? = some (target cells x p n).slot := by
  obtain ⟨front, reads, _⟩ := target_reads x p mapping
  rw [reads, List.getLast?_append, List.getLast?_singleton, Option.some_or]

/-- A way that begins elsewhere than a clear one does not read the slot that is written there. -/
theorem unread_of_clear (mapping : (cells.entries? n).isSome) (clear : Clear cells n (x :: p) (y :: q)) (other : x ≠ y) :
    (target cells x p n).slot ∉ slots cells (y :: q) (.inner n) := by
  intro read
  obtain ⟨front, back, split⟩ := List.append_of_mem read
  have same := clear front _ (last_slot x p mapping) ⟨back, by rw [split, List.append_assoc, List.singleton_append]⟩
  rw [slots_cons (mapping?_inner mapping)] at same split
  cases front with
  | nil =>
    have first : (n, x) = (n, y) := (List.cons.inj same).1.symm.trans (List.cons.inj split).1.symm
    exact other (Prod.mk.inj first).2
  | cons slot front =>
    have first : (n, x) = (n, y) := (List.cons.inj same).1.symm.trans (List.cons.inj split).1.symm
    exact other (Prod.mk.inj first).2

/-- What is known of the cells in which filing goes on behind a segment, and of the mapping from which it does. -/
structure Behind (cells : Cells) (n : Nat) (x : String) (cells' : Cells) (m : Nat) : Prop where
  mapping : (cells'.entries? m).isSome
  child : cells'.child? n (.text x) = some (.inner m)
  file : ∀ v y p, cells.file v (x :: y :: p) n = cells'.file v (y :: p) m
  find : ∀ y q, cells'.find? (y :: q) (.inner m) = cells.find? (x :: y :: q) (.inner n)
  clear : ∀ y p z q, Clear cells n (x :: y :: p) (x :: z :: q) →
    (n, x) ≠ (target cells' y p m).slot ∧ Clear cells' m (y :: p) (z :: q)
  kept : ∀ i, (cells.cell? i).isSome → (cells'.cell? i).isSome

/-- Behind a segment under which there is a mapping, filing goes on in the same cells. -/
theorem behind_mapping (maps : cells.mapping? (.inner n) = some n) (child : cells.child? n (.text x) = some (.inner m))
    (mapping : (cells.entries? m).isSome) : Behind cells n x cells m where
  mapping := mapping
  child := child
  file v y p := by rw [Cells.file_cons, Cells.enter_some (by rw [child, Option.bind_some, mapping?_inner mapping])]
  find y q := by rw [find?_cons (x := x) maps, child, Option.bind_some]
  clear y p z q clear := by
    have further (q : List String) : slots cells (x :: q) (.inner n) = (n, x) :: slots cells q (.inner m) := by
      rw [slots_cons maps, child]
    have last : (slots cells (x :: y :: p) (.inner n)).getLast? = some (target cells y p m).slot := by
      obtain ⟨front, reads, _⟩ := target_reads y p mapping
      rw [further, reads, ← List.cons_append, List.getLast?_append, List.getLast?_singleton, Option.some_or]
    constructor
    · intro same
      have short := clear [] _ last (by rw [further, ← same]; exact List.prefix_append [_] _)
      rw [further] at short
      obtain ⟨front, reads, _⟩ := target_reads y p mapping
      rw [reads] at short
      simp at short
    · intro front slot written reads
      rw [last_slot y p mapping] at written
      have same := clear ((n, x) :: front) slot (last.trans written)
        (by rw [further, List.cons_append, List.cons_prefix_cons]; exact ⟨rfl, reads⟩)
      rw [further, List.cons_append] at same
      exact (List.cons.inj same).2
  kept _ some := some

private theorem slots_empty (empty : cells.entries? m = some []) (y : String) (q : List String) :
    slots cells (y :: q) (.inner m) = [(m, y)] := by
  rw [slots_cons (mapping?_of_entries? empty), Cells.child?, empty]
  rfl

private theorem target_empty (empty : cells.entries? m = some []) (y : String) (q : List String) :
    target cells y q m = ⟨(m, y), q⟩ := by
  cases q with
  | nil => rfl
  | cons z q =>
    rw [target, Cells.child?, empty]
    rfl

/-- Behind any other segment a new mapping is put. -/
private theorem behind_new (mapping : (cells.entries? n).isSome)
    (leads : (cells.child? n (.text x)).bind cells.mapping? = none) :
    Behind cells n x (Cells.put (cells ++ [(cells.fresh, .map [])]) n (.text x) (.inner cells.fresh)) cells.fresh := by
  obtain ⟨entries, maps⟩ := Option.isSome_iff_exists.mp mapping
  have lt : n < cells.fresh := number_lt (entries?_eq_some_iff.mp maps)
  have cell {i} (other : i ≠ n) :
      Cells.cell? (Cells.put (cells ++ [(cells.fresh, .map [])]) n (.text x) (.inner cells.fresh)) i =
        Cells.cell? (cells ++ [(cells.fresh, .map [])]) i := cell?_put_of_ne other
  have empty : Cells.entries? (Cells.put (cells ++ [(cells.fresh, .map [])]) n (.text x) (.inner cells.fresh))
      cells.fresh = some [] := by
    rw [entries?_eq_some_iff, cell (Nat.ne_of_gt lt), cell?_append_new (Nat.le_refl _), Cells.cell?, Assoc.get?_cons,
      if_pos (beq_self_eq_true _)]
  have more : (Cells.entries? (cells ++ [(cells.fresh, .map [])]) n).isSome := by
    rw [entries?_congr (cell?_append lt (by simp))]
    exact mapping
  exact {
    mapping := by rw [empty]; rfl
    child := child?_put_self more
    file := fun v y p => by rw [Cells.file_cons, Cells.enter_none leads]
    find := fun y q => by
      rw [find?_cons (mapping?_of_entries? empty), Cells.child?, empty, find?_cons (mapping?_inner mapping)]
      cases found : cells.child? n (.text x) with
      | none => rfl
      | some w =>
        rw [found, Option.bind_some] at leads
        exact (find?_plain y q leads).symm
    clear := fun y p z q _ => by
      rw [target_empty empty]
      refine ⟨fun same => Nat.ne_of_lt lt (Prod.mk.inj same).1, fun front slot last reads => ?_⟩
      rw [slots_empty empty] at last ⊢
      rw [slots_empty empty] at reads
      have short : front = [] := by
        have := reads.length_le
        simpa using this
      rw [List.getLast?_singleton] at last
      rw [short, Option.some.inj last, List.nil_append]
    kept := fun i some => by
      by_cases same : i = n
      · subst same
        have maps : Cells.entries? (cells ++ [(cells.fresh, .map [])]) i = .some entries := by
          rw [entries?_congr (cell?_append lt (by simp)), maps]
        rw [cell?_put_self maps]
        rfl
      · obtain ⟨c, found⟩ := Option.isSome_iff_exists.mp some
        rw [cell same, cell?_append (number_lt found) (by simp)]
        exact some }

theorem behind (mapping : (cells.entries? n).isSome) (x : String) : ∃ cells' m, Behind cells n x cells' m := by
  cases leads : (cells.child? n (.text x)).bind cells.mapping? with
  | some m =>
    obtain ⟨w, child, maps⟩ := Option.bind_eq_some_iff.mp leads
    obtain ⟨rfl, inner⟩ := mapping?_eq_some_iff.mp maps
    exact ⟨cells, m, behind_mapping (mapping?_inner mapping) child inner⟩
  | none => exact ⟨_, _, behind_new mapping leads⟩

/-- After filing behind a segment, the same mapping is behind it. -/
theorem Behind.after (further : Behind cells n x cells' m) (v : Strand) (y : String) (p : List String)
    (apart : (n, x) ≠ (target cells' y p m).slot) :
    ((cells'.file v (y :: p) m).entries? n).isSome ∧
    (cells'.file v (y :: p) m).child? n (.text x) = some (.inner m) ∧
    ((cells'.file v (y :: p) m).entries? m).isSome := by
  obtain ⟨entries, maps, _⟩ := child?_eq_some further.child
  have known : n < cells'.fresh := number_lt (entries?_eq_some_iff.mp maps)
  refine ⟨isSome_file v y p further.mapping (by rw [maps]; rfl), ?_, isSome_file v y p further.mapping further.mapping⟩
  rw [child?_file v further.mapping known apart, further.child]

/-- What is filed is found. -/
theorem find?_file (v : Strand) (mapping : (cells.entries? n).isSome) (clear : Clear cells n (x :: p) (x :: p)) :
    (cells.file v (x :: p) n).find? (x :: p) (.inner n) = some v := by
  induction p generalizing cells n x with
  | nil =>
    rw [Cells.file_one, find?_cons ((mapping?_put _).trans (mapping?_inner mapping)), child?_put_self mapping]
    rfl
  | cons y p ih =>
    obtain ⟨cells', m, further⟩ := behind mapping x
    obtain ⟨apart, clear⟩ := further.clear y p y p clear
    obtain ⟨maps, child, _⟩ := further.after v y p apart
    rw [further.file, find?_cons (mapping?_inner maps), child, Option.bind_some]
    exact ih further.mapping clear

private theorem put_put (n : Nat) (key : Key) (v w : Strand) (cells : Cells) :
    Cells.put (cells.put n key v) n key w = cells.put n key w := by
  cases mapping : cells.entries? n with
  | none => rw [put_none mapping]
  | some entries =>
    rw [put_eq (entries?_put_self mapping), put_eq mapping, put_eq mapping, Assoc.put_put (by simp),
      Assoc.put_put (BEq.refl key)]

/-- The second of two values stays. -/
theorem file_file (v w : Strand) (mapping : (cells.entries? n).isSome) (clear : Clear cells n (x :: p) (x :: p)) :
    Cells.file w (x :: p) n (cells.file v (x :: p) n) = cells.file w (x :: p) n := by
  induction p generalizing cells n x with
  | nil => rw [Cells.file_one, Cells.file_one, Cells.file_one, put_put]
  | cons y p ih =>
    obtain ⟨cells', m, further⟩ := behind mapping x
    obtain ⟨apart, clear⟩ := further.clear y p y p clear
    obtain ⟨maps, child, inner⟩ := further.after v y p apart
    rw [further.file, (behind_mapping (mapping?_inner maps) child inner).file, further.file]
    exact ih further.mapping clear

/-- To file what is found changes nothing. -/
theorem file_found (found : cells.find? (x :: p) (.inner n) = some v) : cells.file v (x :: p) n = cells := by
  induction p generalizing n x with
  | nil =>
    cases maps : cells.mapping? (.inner n) with
    | none =>
      rw [find?_plain x [] maps] at found
      cases found
    | some m =>
      cases (number_of_mapping maps).1
      rw [find?_cons maps] at found
      obtain ⟨w, child, found⟩ := Option.bind_eq_some_iff.mp found
      cases found
      obtain ⟨entries, mapping, entered⟩ := child?_eq_some child
      rw [Cells.file_one, put_eq mapping, Assoc.put_of_get? entered, Assoc.put_of_get? (entries?_eq_some_iff.mp mapping)]
  | cons y p ih =>
    cases maps : cells.mapping? (.inner n) with
    | none =>
      rw [find?_plain x _ maps] at found
      cases found
    | some m =>
      cases (number_of_mapping maps).1
      rw [find?_cons maps] at found
      obtain ⟨w, child, found⟩ := Option.bind_eq_some_iff.mp found
      cases inner : cells.mapping? w with
      | none =>
        rw [find?_plain y p inner] at found
        cases found
      | some m =>
        obtain ⟨rfl, mapping⟩ := mapping?_eq_some_iff.mp inner
        rw [(behind_mapping maps child mapping).file]
        exact ih found

/-- What is found on another way stays as it was. -/
theorem find?_file_apart (v : Strand) (mapping : (cells.entries? n).isSome) (diverge : Diverge (x :: p) q)
    (clear : Clear cells n (x :: p) q) : (cells.file v (x :: p) n).find? q (.inner n) = cells.find? q (.inner n) := by
  induction p generalizing cells n x q with
  | nil =>
    obtain ⟨y, q, rfl⟩ := List.exists_cons_of_ne_nil (diverge_nonempty diverge).2
    have other : x ≠ y := fun same => (diverge_nonempty (diverge_cons diverge same)).1 rfl
    exact (read_file v mapping (held_mapping mapping) (unread_of_clear mapping clear other)).1
  | cons z p ih =>
    obtain ⟨y, q, rfl⟩ := List.exists_cons_of_ne_nil (diverge_nonempty diverge).2
    by_cases same : x = y
    · subst same
      have diverge := diverge_cons diverge rfl
      obtain ⟨y, q, rfl⟩ := List.exists_cons_of_ne_nil (diverge_nonempty diverge).2
      obtain ⟨cells', m, further⟩ := behind mapping x
      obtain ⟨apart, clear⟩ := further.clear z p y q clear
      obtain ⟨maps, child, _⟩ := further.after v z p apart
      rw [further.file, find?_cons (mapping?_inner maps), child, Option.bind_some, ← further.find]
      exact ih further.mapping diverge clear
    · exact (read_file v mapping (held_mapping mapping) (unread_of_clear mapping clear same)).1

end LogCursor.Filing
