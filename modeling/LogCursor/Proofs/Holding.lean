import LogCursor.Proofs.Slots
import Mathlib.Data.List.Basic
import Mathlib.Data.List.Induction
import Mathlib.Logic.Relation
/-!
Which collections hold a mapping. A mapping on the way to a path that is held at no second place is reached on one
way only (`route_unique`). So the slot that is written there is read by whoever comes the same way, and by nobody
else (`clear_of_own`), and no value that is found on another way leads to its mapping (`apart_of_own`). To file what
is no collection keeps it so (`own_file`).
-/
namespace LogCursor.Holding
open Slots

/-- How often a collection holds another one. -/
def places (cells : Cells) (z m : Nat) : Nat := ((cells.cell? z).map fun c => c.inner.count m).getD 0

/-- A collection holds another one. -/
def Holds (cells : Cells) (z m : Nat) : Prop := 0 < places cells z m

/-- A collection leads to another one. -/
abbrev Reaches (cells : Cells) : Nat → Nat → Prop := Relation.ReflTransGen (Holds cells)

/-- Of all that a mapping leads to, at most one collection holds a given one, and that one only once; and the mapping
    itself is held by none. -/
def Sole (cells : Cells) (root m : Nat) : Prop :=
  ∀ z, Reaches cells root z → Holds cells z m →
    m ≠ root ∧ places cells z m = 1 ∧ ∀ z', Reaches cells root z' → Holds cells z' m → z' = z

/-- The slots on the way from one mapping to another collection. -/
inductive Route (cells : Cells) : Nat → List (Nat × String) → Nat → Prop
  | nil (n : Nat) : Route cells n [] n
  | cons {n m t : Nat} {x : String} {slots : List (Nat × String)} (first : cells.child? n (.text x) = some (.inner m))
      (rest : Route cells m slots t) : Route cells n ((n, x) :: slots) t

variable {cells : Cells} {root n m t z : Nat} {x y : String} {p q : List String} {l l' : List (Nat × String)}
  {v w r : Strand} {entries : List (Key × Strand)}

theorem holds_iff : Holds cells z m ↔ ∃ c, cells.cell? z = some c ∧ m ∈ c.inner := by
  rw [Holds, places]
  cases cells.cell? z with
  | none => simp
  | some c => simp [List.count_pos_iff]

private theorem holds_child (found : cells.child? n (.text x) = some (.inner m)) : Holds cells n m := by
  obtain ⟨entries, mapping, entered⟩ := child?_eq_some found
  obtain ⟨j, member, _⟩ := Assoc.exists_mem_of_get? entered
  exact holds_iff.mpr ⟨_, entries?_eq_some_iff.mp mapping, mem_inner.mpr ⟨j, member⟩⟩

private theorem count_map (entries : List (Key × Strand)) (m : Nat) :
    (Cell.map entries).inner.count m = entries.countP fun entry => entry.2 == .inner m := by
  induction entries with
  | nil => rfl
  | cons entry rest ih =>
    obtain ⟨key, s⟩ := entry
    cases s with
    | inner i =>
      show (i :: (Cell.map rest).inner).count m = _
      rw [List.count_cons, ih, List.countP_cons]
      simp
    | _ =>
      show (Cell.map rest).inner.count m = _
      rw [ih, List.countP_cons_of_neg (by simp)]

private theorem places_map (mapping : cells.entries? z = some entries) :
    places cells z m = entries.countP fun entry => entry.2 == .inner m := by
  rw [places, entries?_eq_some_iff.mp mapping, Option.map_some, Option.getD_some, count_map]

private theorem text_unique (once : places cells n m = 1) (first : cells.child? n (.text x) = some (.inner m))
    (second : cells.child? n (.text y) = some (.inner m)) : x = y := by
  obtain ⟨entries, mapping, first⟩ := child?_eq_some first
  rw [Cells.child?, mapping, Option.bind_some] at second
  rw [places_map mapping] at once
  by_contra other
  clear mapping
  induction entries with
  | nil => cases first
  | cons entry rest ih =>
    obtain ⟨j, s⟩ := entry
    rw [Assoc.get?_cons] at first second
    have later : ∀ {z}, Assoc.get? (Key.text z) rest = some (.inner m) →
        0 < rest.countP fun entry => entry.2 == .inner m := by
      intro z found
      obtain ⟨k, member, _⟩ := Assoc.exists_mem_of_get? found
      exact List.countP_pos_iff.mpr ⟨_, member, beq_self_eq_true _⟩
    by_cases here : j == .text x
    · rw [if_pos here] at first
      obtain rfl := Key.eq_of_beq_text here
      rw [if_neg (by simpa using other)] at second
      cases first
      have := later second
      rw [List.countP_cons_of_pos (by simp)] at once
      omega
    · rw [if_neg here] at first
      by_cases there : j == .text y
      · rw [if_pos there] at second
        cases second
        have := later first
        rw [List.countP_cons_of_pos (by simp)] at once
        omega
      · rw [if_neg there] at second
        have := later first
        rw [List.countP_cons] at once
        exact ih (by omega) second first

private theorem reaches_route (route : Route cells n l t) : Reaches cells n t := by
  induction route with
  | nil => exact .refl
  | cons first _ ih => exact .head (holds_child first) ih

private theorem route_snoc_iff : Route cells n (l ++ [(z, x)]) t ↔
    Route cells n l z ∧ cells.child? z (.text x) = some (.inner t) := by
  induction l generalizing n with
  | nil =>
    constructor
    · rintro (_ | ⟨first, rest⟩)
      cases rest
      exact ⟨.nil _, first⟩
    · rintro ⟨way, last⟩
      cases way
      exact .cons last (.nil _)
  | cons slot l ih =>
    constructor
    · rintro (_ | ⟨first, rest⟩)
      obtain ⟨way, last⟩ := ih.mp rest
      exact ⟨.cons first way, last⟩
    · rintro ⟨_ | ⟨first, way⟩, last⟩
      exact .cons first (ih.mpr ⟨way, last⟩)

theorem slots_mapping (reads : slots cells q v ≠ []) : ∃ n, v = .inner n ∧ cells.mapping? v = some n := by
  cases q with
  | nil => exact absurd rfl reads
  | cons x q =>
    cases mapping : cells.mapping? v with
    | none =>
      rw [slots, mapping] at reads
      exact absurd rfl reads
    | some n => exact ⟨n, (number_of_mapping mapping).1, rfl⟩

/-- The slots that are read have the segments in their order. -/
theorem slots_begin (q : List String) : (slots cells q v).map Prod.snd <+: q := by
  induction q generalizing v with
  | nil => exact List.prefix_refl _
  | cons x q ih =>
    cases mapping : cells.mapping? v with
    | none =>
      rw [slots, mapping]
      exact List.nil_prefix
    | some n =>
      rw [slots_cons mapping, List.map_cons, List.cons_prefix_cons]
      refine ⟨rfl, ?_⟩
      cases cells.child? n (.text x) with
      | none => exact List.nil_prefix
      | some w => exact ih

private theorem route_of_slots {front back : List (Nat × String)}
    (reads : slots cells q (.inner n) = front ++ (t, y) :: back) :
    Route cells n front t := by
  induction q generalizing n front with
  | nil => cases front <;> cases reads
  | cons x q ih =>
    obtain ⟨m, same, mapping⟩ := slots_mapping (q := x :: q) (by rw [reads]; simp)
    cases same
    rw [slots_cons mapping] at reads
    cases front with
    | nil =>
      cases (List.cons.inj reads).1
      exact .nil _
    | cons slot front =>
      have later := (List.cons.inj reads).2
      obtain rfl := (List.cons.inj reads).1
      cases found : cells.child? n (.text x) with
      | none =>
        rw [found] at later
        cases front <;> cases later
      | some w =>
        rw [found] at later
        have reads : slots cells q w = front ++ (t, y) :: back := later
        have some : slots cells q w ≠ [] := by simp [reads]
        obtain ⟨m, rfl, _⟩ := slots_mapping some
        exact .cons found (ih later)

private theorem route_of_find? (found : cells.find? q (.inner n) = some (.inner t)) :
    Route cells n (slots cells q (.inner n)) t ∧ (slots cells q (.inner n)).map Prod.snd = q := by
  induction q generalizing n with
  | nil =>
    cases found
    exact ⟨.nil _, rfl⟩
  | cons x q ih =>
    cases mapping : cells.mapping? (.inner n) with
    | none =>
      rw [Cells.find?, mapping] at found
      cases found
    | some m =>
      cases (number_of_mapping mapping).1
      rw [find?_cons mapping] at found
      obtain ⟨w, first, further⟩ := Option.bind_eq_some_iff.mp found
      rw [slots_cons mapping, first]
      cases w with
      | inner m =>
        obtain ⟨route, keys⟩ := ih further
        exact ⟨.cons first route, congrArg _ keys⟩
      | _ => cases q <;> cases further

/-- To a collection that is held at one place only there is one way. -/
theorem route_unique (route : Route cells root l t) (route' : Route cells root l' t)
    (sole : ∀ slot ∈ l, Sole cells root slot.1) (last : Sole cells root t) : l = l' := by
  induction l using List.reverseRecOn generalizing t l' with
  | nil =>
    cases route
    rcases List.eq_nil_or_concat' l' with rfl | ⟨l', ⟨z, y⟩, rfl⟩
    · rfl
    · obtain ⟨way, next⟩ := route_snoc_iff.mp route'
      exact absurd rfl (last z (reaches_route way) (holds_child next)).1
  | append_singleton l slot ih =>
    obtain ⟨n, x⟩ := slot
    obtain ⟨way, next⟩ := route_snoc_iff.mp route
    obtain ⟨other, once, only⟩ := last n (reaches_route way) (holds_child next)
    rcases List.eq_nil_or_concat' l' with rfl | ⟨l', ⟨z, y⟩, rfl⟩
    · cases route'
      exact absurd rfl other
    · obtain ⟨way', next'⟩ := route_snoc_iff.mp route'
      obtain rfl := only z (reaches_route way') (holds_child next')
      obtain rfl := text_unique once next next'
      rw [ih way way' (fun slot member => sole slot (by simp [member])) (sole (z, x) (by simp))]

/-- Whatever leads to the end of such a way lies on it. -/
theorem on_way (route : Route cells root l t) (sole : ∀ slot ∈ l, Sole cells root slot.1) (last : Sole cells root t)
    (reached : Reaches cells root z) (leads : Reaches cells z t) :
    ∃ front, front <+: l ∧ Route cells root front z ∧ Sole cells root z := by
  induction leads using Relation.ReflTransGen.head_induction_on with
  | refl => exact ⟨l, List.prefix_refl _, route, last⟩
  | head holds _ ih =>
    obtain ⟨front, before, way, single⟩ := ih (reached.tail holds)
    obtain ⟨other, _, only⟩ := single _ reached holds
    rcases List.eq_nil_or_concat' front with rfl | ⟨front, ⟨n, x⟩, rfl⟩
    · cases way
      exact absurd rfl other
    · obtain ⟨way, next⟩ := route_snoc_iff.mp way
      obtain rfl := only n (reaches_route way) (holds_child next)
      have member : (n, x) ∈ l := before.subset (by simp)
      exact ⟨front, (List.prefix_append _ _).trans before, way, sole _ member⟩

/-- Every mapping on the way from a mapping is held at one place only. -/
def Own (cells : Cells) (root : Nat) (p : List String) : Prop :=
  ∀ slot ∈ slots cells p (.inner root), Sole cells root slot.1

instance : Decidable (Holds cells z m) := inferInstanceAs (Decidable (0 < _))

/-- It is enough to look at collections among which every way stays. -/
theorem own_of_within {within : List Nat} (start : root ∈ within)
    (closed : ∀ z ∈ within, ((cells.cell? z).map Cell.inner).getD [] ⊆ within)
    (single : ∀ slot ∈ slots cells p (.inner root), ∀ z ∈ within, Holds cells z slot.1 →
      slot.1 ≠ root ∧ places cells z slot.1 = 1 ∧ ∀ z' ∈ within, Holds cells z' slot.1 → z' = z) : Own cells root p := by
  have inside {z : Nat} (reached : Reaches cells root z) : z ∈ within := by
    induction reached with
    | refl => exact start
    | tail _ holds ih =>
      obtain ⟨c, cell, inner⟩ := holds_iff.mp holds
      refine closed _ ih ?_
      rw [cell]
      exact inner
  intro slot member z reached holds
  obtain ⟨other, once, only⟩ := single slot member z (inside reached) holds
  exact ⟨other, once, fun z' reached' => only z' (inside reached')⟩

/-- On such a way, whatever slot is read is reached on one way only. -/
private theorem front_unique (own : Own cells root p) {front front' : List (Nat × String)} {slot : Nat × String}
    (reads : front ++ [slot] <+: slots cells p (.inner root))
    (reads' : front' ++ [slot] <+: slots cells q (.inner root)) : front = front' := by
  obtain ⟨back, split⟩ := reads
  obtain ⟨back', split'⟩ := reads'
  rw [List.append_assoc, List.singleton_append] at split split'
  refine route_unique (route_of_slots split.symm) (route_of_slots split'.symm) (fun other member => ?_) ?_
  · exact own other (split ▸ by simp [member])
  · exact own slot (split ▸ by simp)

theorem clear_of_own (own : Own cells root p) (q : List String) : Clear cells root p q := by
  intro front slot last reads
  obtain ⟨way, split⟩ := List.getLast?_eq_some_iff.mp last
  have reads' : way ++ [slot] <+: slots cells p (.inner root) := ⟨[], by rw [split, List.append_nil]⟩
  rw [split, front_unique own reads' reads]

theorem clear_own (own : Own cells root p) (q : List String) : Clear cells root q p := by
  intro front slot last reads
  obtain ⟨way, split⟩ := List.getLast?_eq_some_iff.mp last
  have reads' : way ++ [slot] <+: slots cells q (.inner root) := ⟨[], by rw [split, List.append_nil]⟩
  rw [split, front_unique own reads reads']

/-- What is found on another way does not lead back to the mapping that is written. -/
theorem apart_of_own (own : Own cells root p) (diverge : Diverge p q) {slot : Nat × String}
    (last : (slots cells p (.inner root)).getLast? = some slot) (found : cells.find? q (.inner root) = some (.inner t)) :
    ¬ Reaches cells t slot.1 := by
  intro leads
  obtain ⟨way, split⟩ := List.getLast?_eq_some_iff.mp last
  obtain ⟨route, keys⟩ := route_of_find? found
  have sole : ∀ other ∈ way, Sole cells root other.1 := fun other member => own other (split ▸ by simp [member])
  obtain ⟨front, before, route', single⟩ :=
    on_way (route_of_slots split) sole (own slot (split ▸ by simp)) (reaches_route route) leads
  -- It lies on the way itself, so the other way is the beginning of this one.
  have same := route_unique route' route (fun other member => sole other (before.subset member)) single
  refine diverge.2 ?_
  rw [← keys, ← same]
  refine (before.map Prod.snd).trans ?_
  have begins : way <+: slots cells p (.inner root) := split ▸ List.prefix_append _ _
  exact (begins.map Prod.snd).trans (slots_begin p)

/-- A value that is no collection. -/
def Bare (v : Strand) : Prop := ∀ n, v ≠ .inner n

private theorem countP_put (key : Key) (w : Strand) (entries : List (Key × Strand)) :
    (Assoc.put key w entries).countP (fun entry => entry.2 == .inner m) ≤
      entries.countP (fun entry => entry.2 == .inner m) + if w = .inner m then 1 else 0 := by
  induction entries with
  | nil => simp [Assoc.put, List.countP_cons]
  | cons entry rest ih =>
    obtain ⟨j, u⟩ := entry
    rw [Assoc.put]
    split
    · simp only [List.countP_cons, beq_iff_eq]
      omega
    · simp only [List.countP_cons]
      omega

private theorem chain_places {base : Nat} {rest : List String} (bare : Bare v)
    (held : 0 < places (chain v base rest) z m) : base ≤ z ∧ m = z + 1 ∧ places (chain v base rest) z m = 1 := by
  induction rest generalizing base with
  | nil => cases held
  | cons x rest ih =>
    by_cases first : base = z
    · subst first
      have mapping : Cells.entries? (chain v base (x :: rest)) base = some [(.text x, link v (base + 1) rest)] :=
        (hangs_cons fun _ _ => rfl).1
      rw [places_map mapping] at held ⊢
      cases rest with
      | nil => exact absurd held (by simp [link, bare m])
      | cons y rest =>
        by_cases next : base + 1 = m
        · exact ⟨Nat.le_refl _, next.symm, by simp [link, next]⟩
        · exact absurd held (by simp [link, next])
    · have later : places (chain v base (x :: rest)) z m = places (chain v (base + 1) rest) z m := by
        rw [places, places, chain, Cells.cell?, Assoc.get?_cons, if_neg (by simpa using first), Cells.cell?]
      rw [later] at held ⊢
      obtain ⟨le, next⟩ := ih held
      exact ⟨Nat.le_of_succ_le le, next⟩

section
variable (mapping : (cells.entries? root).isSome) (bare : Bare v)
include mapping bare

/-- Where a value is filed that is no collection, what is held was held before, or is a new mapping, which is held
    once: the first of them by the one that is written, any other by the one before it. -/
private theorem holds_file (held : Holds (cells.file v (x :: p) root) z m) :
    (z < cells.fresh ∧ m < cells.fresh ∧ Holds cells z m ∧ places (cells.file v (x :: p) root) z m ≤ places cells z m) ∨
    (cells.fresh ≤ m ∧ places (cells.file v (x :: p) root) z m = 1 ∧
      z = if m = cells.fresh then (target cells x p root).slot.1 else m - 1) := by
  have known {z m} (held : Holds cells z m) : z < cells.fresh ∧ m < cells.fresh := by
    obtain ⟨c, cell, inner⟩ := holds_iff.mp held
    exact ⟨number_lt cell, inner_lt cell inner⟩
  by_cases new : cells.fresh ≤ z
  · have same : places (cells.file v (x :: p) root) z m = places (chain v cells.fresh (target cells x p root).rest) z m := by
      rw [places, places, hangs_file v mapping z new]
    rw [Holds, same] at held
    obtain ⟨_, rfl, once⟩ := chain_places bare held
    exact .inr ⟨Nat.le_succ_of_le new, same.trans once, by rw [if_neg (Nat.ne_of_gt (Nat.lt_succ_of_le new))]; rfl⟩
  · by_cases written : z = (target cells x p root).slot.1
    · obtain ⟨_, _, _, maps, _⟩ := target_reads x p mapping
      obtain ⟨entries, maps⟩ := Option.isSome_iff_exists.mp maps
      have before : places cells z m = _ := written ▸ places_map maps
      have after : places (cells.file v (x :: p) root) z m = _ := written ▸ places_map (entries?_file v mapping maps)
      have most := countP_put (m := m) (.text (target cells x p root).slot.2)
        (link v cells.fresh (target cells x p root).rest) entries
      rw [← after, ← before] at most
      by_cases linked : link v cells.fresh (target cells x p root).rest = .inner m
      · have first : m = cells.fresh := by
          cases rest : (target cells x p root).rest with
          | nil =>
            rw [rest] at linked
            exact absurd linked (bare m)
          | cons =>
            rw [rest] at linked
            exact (Strand.inner.inj linked).symm
        have none : places cells z m = 0 :=
          Nat.eq_zero_of_not_pos fun held => Nat.lt_irrefl _ (first ▸ (known held).2)
        rw [if_pos linked, none] at most
        exact .inr ⟨Nat.le_of_eq first.symm, Nat.le_antisymm most held, by rw [if_pos first, written]⟩
      · rw [if_neg linked, Nat.add_zero] at most
        have held := Nat.lt_of_lt_of_le held most
        exact .inl ⟨(known held).1, (known held).2, held, most⟩
    · have same : places (cells.file v (x :: p) root) z m = places cells z m := by
        rw [places, places, cell?_file v mapping (Nat.not_le.mp new) written]
      rw [Holds, same] at held
      exact .inl ⟨(known held).1, (known held).2, held, Nat.le_of_eq same⟩

private theorem reaches_file (reached : Reaches (cells.file v (x :: p) root) root z) :
    cells.fresh ≤ z ∨ Reaches cells root z := by
  induction reached with
  | refl => exact .inr .refl
  | tail _ held ih =>
    rcases holds_file mapping bare held with ⟨old, _, held, _⟩ | ⟨new, _⟩
    · exact .inr ((ih.resolve_left (Nat.not_le.mpr old)).tail held)
    · exact .inl new

private theorem sole_file (sole : m < cells.fresh → Sole cells root m) : Sole (cells.file v (x :: p) root) root m := by
  intro z reached held
  rcases holds_file mapping bare held with ⟨old, known, before, most⟩ | ⟨new, once, only⟩
  · have reached := (reaches_file mapping bare reached).resolve_left (Nat.not_le.mpr old)
    obtain ⟨other, once, only⟩ := sole known z reached before
    refine ⟨other, Nat.le_antisymm (once ▸ most) held, fun z' reached' held' => ?_⟩
    rcases holds_file mapping bare held' with ⟨old, _, before, _⟩ | ⟨new, _⟩
    · exact only z' ((reaches_file mapping bare reached').resolve_left (Nat.not_le.mpr old)) before
    · exact absurd new (Nat.not_le.mpr known)
  · obtain ⟨entries, maps⟩ := Option.isSome_iff_exists.mp mapping
    have root : root < cells.fresh := number_lt (entries?_eq_some_iff.mp maps)
    refine ⟨Nat.ne_of_gt (Nat.lt_of_lt_of_le root new), once, fun z' _ held' => ?_⟩
    rcases holds_file mapping bare held' with ⟨_, known, _⟩ | ⟨_, _, only'⟩
    · exact absurd new (Nat.not_le.mpr known)
    · rw [only, only']

/-- From a new mapping only new ones are read. -/
private theorem slots_new (new : cells.fresh ≤ n) {slot : Nat × String}
    (member : slot ∈ slots (cells.file v (x :: p) root) q (.inner n)) : cells.fresh ≤ slot.1 := by
  induction q generalizing n with
  | nil => cases member
  | cons y q ih =>
    obtain ⟨_, same, maps⟩ := slots_mapping (List.ne_nil_of_mem member)
    cases same
    rw [slots_cons maps] at member
    rcases List.mem_cons.mp member with rfl | later
    · exact new
    · cases found : (cells.file v (x :: p) root).child? n (.text y) with
      | none =>
        rw [found] at later
        cases later
      | some w =>
        rw [found] at later
        obtain ⟨m, rfl, _⟩ := slots_mapping (List.ne_nil_of_mem later)
        rcases holds_file mapping bare (holds_child found) with ⟨old, _⟩ | ⟨next, _⟩
        · exact absurd new (Nat.not_le.mpr old)
        · exact ih next later

/-- What is read after filing was read before, or is new. -/
private theorem slots_file (old : n < cells.fresh) {slot : Nat × String}
    (member : slot ∈ slots (cells.file v (x :: p) root) q (.inner n)) :
    slot ∈ slots cells q (.inner n) ∨ cells.fresh ≤ slot.1 := by
  induction q generalizing n with
  | nil => cases member
  | cons y q ih =>
    obtain ⟨_, same, maps⟩ := slots_mapping (List.ne_nil_of_mem member)
    cases same
    rw [slots_cons maps] at member
    rw [mapping?_file v mapping (fun m same => Strand.inner.inj same ▸ old)] at maps
    rw [slots_cons maps]
    rcases List.mem_cons.mp member with rfl | later
    · exact .inl List.mem_cons_self
    · cases found : (cells.file v (x :: p) root).child? n (.text y) with
      | none =>
        rw [found] at later
        cases later
      | some w =>
        rw [found] at later
        obtain ⟨m, rfl, _⟩ := slots_mapping (List.ne_nil_of_mem later)
        by_cases written : (n, y) = (target cells x p root).slot
        · -- Behind the slot that is written there is the first of the new mappings.
          have link := child?_file_self (x := x) (p := p) v mapping
          rw [← written, found] at link
          rcases holds_file mapping bare (holds_child found) with ⟨_, known, _⟩ | ⟨new, _⟩
          · cases rest : (target cells x p root).rest with
            | nil =>
              rw [rest] at link
              exact absurd (Option.some.inj link).symm (bare m)
            | cons =>
              rw [rest] at link
              cases link
              exact absurd known (Nat.lt_irrefl _)
          · exact .inr (slots_new mapping bare new later)
        · rw [child?_file v mapping old written] at found
          rw [found]
          exact (ih (held_child found m rfl) later).imp_left (List.mem_cons_of_mem _)

/-- To file what is no collection, under any path, leaves every mapping that is held at one place only so. -/
theorem own_file (own : Own cells root q) : Own (cells.file v (x :: p) root) root q := by
  intro slot member
  obtain ⟨entries, maps⟩ := Option.isSome_iff_exists.mp mapping
  refine sole_file mapping bare fun old => ?_
  have lt := number_lt (entries?_eq_some_iff.mp maps)
  exact own slot ((slots_file mapping bare lt member).resolve_right (Nat.not_le.mpr old))

end

end LogCursor.Holding
