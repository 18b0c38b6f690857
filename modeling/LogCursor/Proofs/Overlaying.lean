import LogCursor.Proofs.Slots
import LogCursor.Proofs.Traversal
import Mathlib.Data.Finset.Card
import Mathlib.Data.Finset.Prod
/-!
Merged settings by path. What is found under a path after a merge depends on what both sides have there and on
the way: the upper value wins unless it is a mapping below which the lower side has one too, and these are merged
in turn (`Overlaid`, `merge_overlaid`). A merge goes down to a depth that is fixed beforehand, and fails there. It does
so only where it would have no end: a path along which both sides have mappings either is shorter than that or can be
made as long as one likes (`walk_forever`, `merge_fails_iff`).
-/
namespace LogCursor.Overlaying
open Slots

/-! ### Walks -/

section
universe u
variable {σ : Type u} {R : σ → σ → Prop} {s : σ} {m n : Nat}

/-- So many steps can be taken from a place. -/
def Walk (R : σ → σ → Prop) : Nat → σ → Prop
  | 0, _ => True
  | n + 1, s => ∃ t, R s t ∧ Walk R n t

private theorem walk_shorter (walk : Walk R (n + 1) s) : Walk R n s := by
  induction n generalizing s with
  | zero => trivial
  | succ n ih =>
    obtain ⟨t, step, rest⟩ := walk
    exact ⟨t, step, ih rest⟩

private theorem walk_le (walk : Walk R n s) (le : m ≤ n) : Walk R m s := by
  induction le with
  | refl => exact walk
  | step _ ih => exact ih (walk_shorter walk)

/-- Whoever can take so many steps can take one more, wherever he is. -/
def Steady (R : σ → σ → Prop) (n : Nat) : Prop := ∀ s, Walk R n s → Walk R (n + 1) s

private theorem steady_forever (steady : Steady R m) (walk : Walk R m s) (n : Nat) : Walk R n s := by
  have always : ∀ i, Steady R (m + i) := by
    intro i
    induction i with
    | zero => exact steady
    | succ i ih =>
      rintro s ⟨t, step, rest⟩
      exact ⟨t, step, ih t rest⟩
  have further : ∀ i, Walk R (m + i) s := by
    intro i
    induction i with
    | zero => exact walk
    | succ i ih => exact always i s ih
  exact walk_le (further n) (Nat.le_add_left n m)

open Classical in
/-- A walk with more steps than there are places to step from can be as long as one likes. -/
theorem walk_forever (places : Finset σ) (within : ∀ s t, R s t → s ∈ places)
    (walk : Walk R (places.card + 1) s) (n : Nat) : Walk R n s := by
  -- The places with longer and longer walks become fewer, until they stay the same or there are none.
  have fewer : ∀ m, (∃ i ≤ m, Steady R i) ∨ (places.filter (Walk R (m + 1))).card + m ≤ places.card := by
    intro m
    induction m with
    | zero => exact .inr (Finset.card_filter_le _ _)
    | succ m ih =>
      rcases ih with ⟨i, le, steady⟩ | few
      · exact .inl ⟨i, Nat.le_succ_of_le le, steady⟩
      · by_cases steady : Steady R (m + 1)
        · exact .inl ⟨m + 1, Nat.le_refl _, steady⟩
        · have less : (places.filter (Walk R (m + 1 + 1))).card < (places.filter (Walk R (m + 1))).card := by
            refine Finset.card_lt_card (Finset.ssubset_iff_subset_ne.mpr ⟨?_, fun same => steady fun t walk => ?_⟩)
            · exact Finset.monotone_filter_right _ fun _ _ => walk_shorter
            · obtain ⟨next, step, _⟩ := id walk
              have member : t ∈ places.filter (Walk R (m + 1)) := Finset.mem_filter.mpr ⟨within t next step, walk⟩
              rw [← same] at member
              exact (Finset.mem_filter.mp member).2
          exact .inr (by omega)
  rcases fewer places.card with ⟨i, le, steady⟩ | few
  · exact steady_forever steady (walk_le walk (Nat.le_succ_of_le le)) n
  · obtain ⟨t, step, rest⟩ := walk
    have member : s ∈ places.filter (Walk R (places.card + 1)) :=
      Finset.mem_filter.mpr ⟨within s t step, t, step, rest⟩
    have positive := Finset.card_pos.mpr ⟨s, member⟩
    omega

end

/-! ### Growing cells -/

/-- Every key once. -/
def Distinct (m : List (Key × Strand)) : Prop := m.Pairwise fun a b => (a.1 == b.1) = false

/-- Every mapping among some cells has distinct keys. -/
def Tidy (cells : Cells) : Prop := ∀ n entries, cells.entries? n = some entries → Distinct entries

/-- Cells that were there before are as they were. -/
structure Grows (cells cells' : Cells) : Prop where
  kept : ∀ n, n < cells.fresh → cells'.cell? n = cells.cell? n
  fresh_le : cells.fresh ≤ cells'.fresh

variable {cells cells' before after base : Cells} {fuel n m lower upper : Nat} {key : Key} {x : String} {p q : List String}
  {v w r : Strand} {entries entries' : List (Key × Strand)}

theorem distinct_put (key : Key) (v : Strand) (distinct : Distinct entries) : Distinct (Assoc.put key v entries) := by
  induction entries with
  | nil => exact List.pairwise_singleton ..
  | cons entry rest ih =>
    obtain ⟨j, w⟩ := entry
    obtain ⟨first, later⟩ := List.pairwise_cons.mp distinct
    by_cases same : j == key
    · rw [Assoc.put, if_pos same]
      exact List.pairwise_cons.mpr ⟨first, later⟩
    · rw [Assoc.put, if_neg same]
      refine List.pairwise_cons.mpr ⟨fun entry member => ?_, ih later⟩
      rcases Assoc.mem_put member with old | ⟨_, new | known⟩
      · exact first entry old
      · simpa [new] using same
      · obtain ⟨other, member, name⟩ := List.mem_map.mp known
        exact name ▸ first other member

theorem Grows.refl (cells : Cells) : Grows cells cells := ⟨fun _ _ => rfl, Nat.le_refl _⟩

theorem Grows.trans (first : Grows cells before) (second : Grows before after) : Grows cells after where
  kept n lt := (second.kept n (Nat.lt_of_lt_of_le lt first.fresh_le)).trans (first.kept n lt)
  fresh_le := Nat.le_trans first.fresh_le second.fresh_le

theorem grows_add (cells : Cells) (c : Cell) : Grows cells (cells.add c).1 where
  kept _ lt := cell?_append lt (by simp)
  fresh_le := fresh_le_iff.mpr fun i member => by
    obtain ⟨entry, member, occurs⟩ := mem_numbers.mp member
    exact lt_fresh (mem_numbers.mpr ⟨entry, List.mem_append_left _ member, occurs⟩)

theorem cell?_add (cells : Cells) (c : Cell) : (cells.add c).1.cell? cells.fresh = some c := by
  rw [Cells.add, cell?_append_new (Nat.le_refl _), Cells.cell?, Assoc.get?_cons, if_pos (beq_self_eq_true _)]

section
variable (grows : Grows cells cells')
include grows

theorem Grows.held (held : Held cells v) : Held cells' v := fun n same => Nat.lt_of_lt_of_le (held n same) grows.fresh_le

theorem Grows.entries? (lt : n < cells.fresh) : cells'.entries? n = cells.entries? n := entries?_congr (grows.kept n lt)

theorem Grows.child? (lt : n < cells.fresh) (key : Key) : cells'.child? n key = cells.child? n key :=
  child?_congr (grows.kept n lt) key

theorem Grows.mapping? (held : Held cells v) : cells'.mapping? v = cells.mapping? v :=
  mapping?_congr fun n same => congrArg Option.isSome (grows.entries? (held n same))

theorem Grows.find? (held : Held cells v) : cells'.find? p v = cells.find? p v := by
  induction p generalizing v with
  | nil => rfl
  | cons x p ih =>
    have maps := grows.mapping? held
    cases mapping : cells.mapping? v with
    | none => rw [find?_plain x p mapping, find?_plain x p (maps.trans mapping)]
    | some n =>
      rw [find?_cons mapping, find?_cons (maps.trans mapping), grows.child? (number_of_mapping mapping).2]
      cases found : cells.child? n (.text x) with
      | none => rfl
      | some w => exact ih (held_child found)

end

/-! ### Merging -/

/-- What an upper value comes to above a lower one: it stays, unless both are mappings, and these are merged. -/
inductive Rise (fuel : Nat) (base cells' : Cells) (lower : Option Strand) (v : Strand) : Strand → Prop
  | alone (apart : lower.bind base.mapping? = none ∨ base.mapping? v = none) : Rise fuel base cells' lower v v
  | merged {b o n : Nat} {before after : Cells} (below : lower.bind base.mapping? = some b)
      (above : base.mapping? v = some o)
      (grown : Grows base before) (made : Cells.merge fuel before b o = some (after, n)) (kept : Grows after cells') :
      Rise fuel base cells' lower v (.inner n)

theorem Rise.grow {lower : Option Strand} (rise : Rise fuel base cells lower v r) (grows : Grows cells cells') :
    Rise fuel base cells' lower v r := by
  cases rise with
  | alone apart => exact .alone apart
  | merged below above grown made kept => exact .merged below above grown made (kept.trans grows)

private theorem merge_some (merged : Cells.merge (fuel + 1) cells lower upper = some (cells', n)) :
    ∃ before entries, ((cells.entries? upper).getD []).foldlM (Cells.overlay (Cells.merge fuel))
        (cells, (cells.entries? lower).getD []) = some (before, entries) ∧
      before.add (.map entries) = (cells', n) := by
  rw [Cells.merge_succ] at merged
  obtain ⟨⟨before, entries⟩, folded, added⟩ := Option.bind_eq_some_iff.mp merged
  exact ⟨before, entries, folded, Option.some.inj added⟩

/-- How an entry is laid over others. -/
private theorem overlay_cases
    (done : Cells.overlay (Cells.merge fuel) (cells, entries) (key, v) = some (cells', entries')) :
    (cells' = cells ∧ entries' = Assoc.put key v entries ∧
      ((Assoc.get? key entries).bind cells.mapping? = none ∨ cells.mapping? v = none)) ∨
    ∃ b o n, (Assoc.get? key entries).bind cells.mapping? = some b ∧ cells.mapping? v = some o ∧
      Cells.merge fuel cells b o = some (cells', n) ∧ entries' = Assoc.put key (.inner n) entries := by
  rw [Cells.overlay] at done
  split at done
  · rename_i below above here there
    obtain ⟨⟨after, n⟩, made, result⟩ := Option.map_eq_some_iff.mp done
    cases result
    exact .inr ⟨below, above, n, here, there, made, rfl⟩
  · rename_i other
    cases done
    refine .inl ⟨rfl, rfl, ?_⟩
    cases here : (Assoc.get? key entries).bind cells.mapping? with
    | none => exact .inl rfl
    | some b => exact .inr (Option.eq_none_iff_forall_ne_some.mpr fun o there => other b o here there)

/-- A merge only adds cells. -/
theorem merge_grows (merged : Cells.merge fuel cells lower upper = some (cells', n)) :
    Grows cells cells' ∧ n < cells'.fresh := by
  induction fuel generalizing cells lower upper cells' n with
  | zero => cases merged
  | succ fuel ih =>
    obtain ⟨before, entries, folded, added⟩ := merge_some merged
    have grows : Grows cells before := by
      refine Traversal.foldlM_some_keeps (P := fun state => Grows cells state.1) (fun {state entry state'} grows done => ?_)
        (.refl _) folded
      rcases overlay_cases done with ⟨same, _⟩ | ⟨_, _, _, _, _, made, _⟩
      · exact same ▸ grows
      · exact grows.trans (ih made).1
    cases added
    exact ⟨grows.trans (grows_add _ _), number_lt (cell?_add _ _)⟩

theorem tidy_of_mem (each : ∀ entry ∈ cells, ∀ entries, entry.2 = .map entries → Distinct entries) : Tidy cells :=
  fun _ _ mapping => each _ (Assoc.mem_of_get? (entries?_eq_some_iff.mp mapping)) _ rfl

private theorem tidy_getD (tidy : Tidy cells) (n : Nat) : Distinct ((cells.entries? n).getD []) := by
  cases mapping : cells.entries? n with
  | none => exact .nil
  | some entries => exact tidy n entries mapping

theorem tidy_add (tidy : Tidy cells) (distinct : Distinct entries) : Tidy (cells.add (.map entries)).1 := by
  intro n entries' mapping
  by_cases old : n < cells.fresh
  · exact tidy n entries' ((grows_add cells _).entries? old ▸ mapping)
  · have le := Nat.not_lt.mp old
    rw [entries?_eq_some_iff, Cells.add, cell?_append_new le, Cells.cell?, Assoc.get?_cons] at mapping
    split at mapping
    · cases mapping
      exact distinct
    · cases mapping

/-- A merge keeps keys distinct. -/
theorem merge_tidy (tidy : Tidy cells) (merged : Cells.merge fuel cells lower upper = some (cells', n)) : Tidy cells' := by
  induction fuel generalizing cells lower upper cells' n with
  | zero => cases merged
  | succ fuel ih =>
    obtain ⟨before, entries, folded, added⟩ := merge_some merged
    have kept : Tidy before ∧ Distinct entries := by
      refine Traversal.foldlM_some_keeps (P := fun state => Tidy state.1 ∧ Distinct state.2)
        (fun {state entry state'} start done => ?_) ⟨tidy, tidy_getD tidy lower⟩ folded
      obtain ⟨tidy, distinct⟩ := start
      rcases overlay_cases done with ⟨same, put, _⟩ | ⟨_, _, _, _, _, made, put⟩
      · exact ⟨same ▸ tidy, put ▸ distinct_put _ _ distinct⟩
      · exact ⟨ih tidy made, put ▸ distinct_put _ _ distinct⟩
    cases added
    exact tidy_add kept.1 kept.2

section
variable (grown : Grows base cells)
include grown

private theorem under_mapping (under : ∀ w, Assoc.get? key entries = some w → Held base w) :
    (Assoc.get? key entries).bind cells.mapping? = (Assoc.get? key entries).bind base.mapping? := by
  cases found : Assoc.get? key entries with
  | none => rfl
  | some w => exact grown.mapping? (under w found)

variable (held : Held base v) (under : ∀ w, Assoc.get? key entries = some w → Held base w)
include held under

/-- What an entry comes to that is laid over others. -/
private theorem overlay_some
    (done : Cells.overlay (Cells.merge fuel) (cells, entries) (key, v) = some (cells', entries')) :
    ∃ r, entries' = Assoc.put key r entries ∧ Grows cells cells' ∧ Rise fuel base cells' (Assoc.get? key entries) v r := by
  have same := under_mapping grown under
  rcases overlay_cases done with ⟨rfl, put, apart⟩ | ⟨b, o, n, here, there, made, put⟩
  · rw [same, grown.mapping? held] at apart
    exact ⟨v, put, .refl _, .alone apart⟩
  · exact ⟨_, put, (merge_grows made).1, .merged (same ▸ here) (grown.mapping? held ▸ there) grown made (.refl _)⟩

/-- It fails where a merge does. -/
private theorem overlay_none : Cells.overlay (Cells.merge fuel) (cells, entries) (key, v) = none ↔
    ∃ b o, (Assoc.get? key entries).bind base.mapping? = some b ∧ base.mapping? v = some o ∧
      Cells.merge fuel cells b o = none := by
  rw [← under_mapping grown under, ← grown.mapping? held, Cells.overlay]
  split
  · rename_i below above here there
    rw [Option.map_eq_none_iff]
    constructor
    · exact fun failed => ⟨below, above, here, there, failed⟩
    · rintro ⟨b, o, here', there', failed⟩
      cases here.symm.trans here'
      cases there.symm.trans there'
      exact failed
  · rename_i other
    exact ⟨nofun, fun ⟨b, o, here, there, _⟩ => absurd there (other b o here)⟩

end

/-- What laying entries over others comes to, key by key. -/
private theorem fold_some {upper : List (Key × Strand)} (distinct : Distinct upper) (grown : Grows base cells)
    (held : ∀ entry ∈ upper, Held base entry.2)
    (under : ∀ entry ∈ upper, ∀ w, Assoc.get? entry.1 entries = some w → Held base w)
    (done : upper.foldlM (Cells.overlay (Cells.merge fuel)) (cells, entries) = some (cells', entries')) :
    Grows cells cells' ∧ ∀ key, (Assoc.get? key upper = none → Assoc.get? key entries' = Assoc.get? key entries) ∧
      ∀ v, Assoc.get? key upper = some v →
        ∃ r, Assoc.get? key entries' = some r ∧ Rise fuel base cells' (Assoc.get? key entries) v r := by
  induction upper generalizing cells entries with
  | nil =>
    cases done
    exact ⟨.refl _, fun key => ⟨fun _ => rfl, nofun⟩⟩
  | cons entry rest ih =>
    obtain ⟨key, v⟩ := entry
    obtain ⟨fresh, distinct⟩ := List.pairwise_cons.mp distinct
    obtain ⟨held, laterHeld⟩ := List.forall_mem_cons.mp held
    obtain ⟨under, laterUnder⟩ := List.forall_mem_cons.mp under
    rw [List.foldlM_cons] at done
    obtain ⟨⟨next, entries'⟩, first, done⟩ := Option.bind_eq_some_iff.mp done
    obtain ⟨r, rfl, grows, rise⟩ := overlay_some grown held under first
    obtain ⟨grows', each⟩ := ih distinct (grown.trans grows) laterHeld (fun entry member w found =>
      laterUnder entry member w (Assoc.get?_put_apart (fresh entry member) r entries ▸ found)) done
    refine ⟨grows.trans grows', fun other => ?_⟩
    obtain ⟨absent, present⟩ := each other
    rw [Assoc.get?_cons]
    by_cases same : key == other
    · -- What is filed under a key stays, since the entries behind it have other keys.
      have none : Assoc.get? other rest = none := Assoc.get?_fresh fun entry member => by
        rw [← BEq.congr_right same, BEq.comm, fresh entry member]
      rw [if_pos same]
      refine ⟨nofun, fun _ found => ?_⟩
      cases found
      refine ⟨r, (absent none).trans (Assoc.get?_put_same same r entries), ?_⟩
      exact Assoc.get?_congr same entries ▸ rise.grow grows'
    · rw [if_neg same]
      rw [Assoc.get?_put_apart (by simpa using same)] at absent present
      exact ⟨absent, present⟩

private theorem child?_eq (cells : Cells) (n : Nat) (key : Key) :
    cells.child? n key = Assoc.get? key ((cells.entries? n).getD []) := by
  rw [Cells.child?]
  cases cells.entries? n <;> rfl

private theorem held_entry (member : (key, v) ∈ (cells.entries? n).getD []) : Held cells v := by
  cases mapping : cells.entries? n with
  | none =>
    rw [mapping] at member
    cases member
  | some entries =>
    rw [mapping] at member
    exact fun m same => inner_lt (entries?_eq_some_iff.mp mapping) (mem_inner.mpr ⟨key, same ▸ member⟩)

section
variable (tidy : Tidy base) (grown : Grows base cells) (lower_lt : lower < base.fresh) (upper_lt : upper < base.fresh)
include tidy grown lower_lt upper_lt

/-- What a merge has under a key. -/
theorem merge_each (merged : Cells.merge (fuel + 1) cells lower upper = some (cells', n)) :
    (cells'.entries? n).isSome ∧
    ∀ key, (base.child? upper key = none → cells'.child? n key = base.child? lower key) ∧
      ∀ v, base.child? upper key = some v →
        ∃ r, cells'.child? n key = some r ∧ Rise fuel base cells' (base.child? lower key) v r := by
  obtain ⟨before, entries, folded, added⟩ := merge_some merged
  rw [grown.entries? lower_lt, grown.entries? upper_lt] at folded
  obtain ⟨_, each⟩ := fold_some (tidy_getD tidy upper) grown (fun entry => held_entry)
    (fun entry _ w found => held_child (child?_eq base lower entry.1 ▸ found)) folded
  obtain rfl : (before.add (.map entries)).1 = cells' := congrArg Prod.fst added
  obtain rfl : before.fresh = n := congrArg Prod.snd added
  have mapping : (before.add (.map entries)).1.entries? before.fresh = some entries :=
    entries?_eq_some_iff.mpr (cell?_add _ _)
  refine ⟨by rw [mapping]; rfl, fun key => ?_⟩
  obtain ⟨absent, present⟩ := each key
  have under : (before.add (.map entries)).1.child? before.fresh key = Assoc.get? key entries := by
    rw [child?_eq, mapping, Option.getD_some]
  rw [child?_eq base upper, child?_eq base lower, under]
  refine ⟨absent, fun v found => ?_⟩
  obtain ⟨r, found, rise⟩ := present v found
  exact ⟨r, found, rise.grow (grows_add _ _)⟩

end

/-! ### Merges without end -/

/-- Both sides have a mapping under one key. -/
def Both (cells : Cells) (s t : Nat × Nat) : Prop :=
  ∃ key, (cells.child? s.1 key).bind cells.mapping? = some t.1 ∧ (cells.child? s.2 key).bind cells.mapping? = some t.2

/-- The paths along which both sides have mappings are bounded. -/
def Ends (cells : Cells) (lower upper : Nat) : Prop := ∃ n, ¬ Walk (Both cells) n (lower, upper)

private theorem get?_of_mem (distinct : Distinct entries) (member : (key, v) ∈ entries) :
    Assoc.get? key entries = some v := by
  induction entries with
  | nil => cases member
  | cons entry rest ih =>
    obtain ⟨fresh, distinct⟩ := List.pairwise_cons.mp distinct
    rw [Assoc.get?_cons]
    rcases List.mem_cons.mp member with rfl | later
    · exact if_pos (BEq.refl key)
    · rw [fresh _ later]
      exact ih distinct later

/-- Laying entries over others fails where a merge does, if that is the same from all cells that have grown. -/
private theorem fold_none (fuel : Nat) {fails : Nat → Nat → Prop} {upper : List (Key × Strand)} (distinct : Distinct upper)
    (grown : Grows base cells) (held : ∀ entry ∈ upper, Held base entry.2)
    (under : ∀ entry ∈ upper, ∀ w, Assoc.get? entry.1 entries = some w → Held base w)
    (settled : ∀ {cells b o}, Grows base cells → b < base.fresh → o < base.fresh →
      (Cells.merge fuel cells b o = none ↔ fails b o)) :
    upper.foldlM (Cells.overlay (Cells.merge fuel)) (cells, entries) = none ↔
      ∃ entry ∈ upper, ∃ b o, (Assoc.get? entry.1 entries).bind base.mapping? = some b ∧
        base.mapping? entry.2 = some o ∧ fails b o := by
  induction upper generalizing cells entries with
  | nil => exact ⟨nofun, nofun⟩
  | cons entry rest ih =>
    obtain ⟨key, v⟩ := entry
    obtain ⟨fresh, distinct⟩ := List.pairwise_cons.mp distinct
    obtain ⟨held, laterHeld⟩ := List.forall_mem_cons.mp held
    obtain ⟨under, laterUnder⟩ := List.forall_mem_cons.mp under
    have here : Cells.overlay (Cells.merge fuel) (cells, entries) (key, v) = none ↔
        ∃ b o, (Assoc.get? key entries).bind base.mapping? = some b ∧ base.mapping? v = some o ∧ fails b o := by
      rw [overlay_none grown held under]
      refine exists_congr fun b => exists_congr fun o => and_congr_right fun below => and_congr_right fun above => ?_
      obtain ⟨w, _, below⟩ := Option.bind_eq_some_iff.mp below
      exact settled grown (number_of_mapping below).2 (number_of_mapping above).2
    rw [List.foldlM_cons, List.exists_mem_cons_iff, ← here]
    cases first : Cells.overlay (Cells.merge fuel) (cells, entries) (key, v) with
    | none => exact ⟨fun _ => .inl rfl, fun _ => rfl⟩
    | some state =>
      obtain ⟨next, entries'⟩ := state
      obtain ⟨r, rfl, grows, _⟩ := overlay_some grown held under first
      have same : ∀ entry ∈ rest, Assoc.get? entry.1 (Assoc.put key r entries) = Assoc.get? entry.1 entries :=
        fun entry member => Assoc.get?_put_apart (fresh entry member) r entries
      have later := @ih next (Assoc.put key r entries) distinct (grown.trans grows) laterHeld
        fun entry member w found => laterUnder entry member w (same entry member ▸ found)
      rw [or_iff_right nofun]
      refine later.trans (exists_congr fun entry => and_congr_right fun member => ?_)
      rw [same entry member]

/-- A merge fails where both sides have mappings along a path that is as long as the merge goes deep. -/
theorem merge_none (tidy : Tidy base) (grown : Grows base cells) (lower_lt : lower < base.fresh)
    (upper_lt : upper < base.fresh) :
    Cells.merge fuel cells lower upper = none ↔ Walk (Both base) fuel (lower, upper) := by
  induction fuel generalizing cells lower upper with
  | zero => exact ⟨fun _ => trivial, fun _ => rfl⟩
  | succ fuel ih =>
    have folded := fold_none fuel (tidy_getD tidy upper) grown (fun entry => held_entry)
      (fun entry _ w found => held_child (child?_eq base lower entry.1 ▸ found)) (fun grown b o => ih grown b o)
    rw [Cells.merge_succ, grown.entries? lower_lt, grown.entries? upper_lt, Option.bind_eq_none_iff]
    refine Iff.trans ⟨fun none => ?_, fun none => by rw [none]; nofun⟩ (folded.trans ?_)
    · exact Option.eq_none_iff_forall_ne_some.mpr fun state done => nomatch none state done
    · constructor
      · rintro ⟨⟨key, v⟩, member, b, o, below, above, walk⟩
        refine ⟨(b, o), ⟨key, by rwa [child?_eq], ?_⟩, walk⟩
        rw [child?_eq, get?_of_mem (tidy_getD tidy upper) member]
        exact above
      · rintro ⟨⟨b, o⟩, ⟨key, below, above⟩, walk⟩
        obtain ⟨v, found, above⟩ := Option.bind_eq_some_iff.mp above
        rw [child?_eq] at below found
        obtain ⟨j, member, same⟩ := Assoc.exists_mem_of_get? found
        exact ⟨(j, v), member, b, o, by rwa [Assoc.get?_congr same], above, walk⟩

/-- The numbers of cells. -/
def places (cells : Cells) : Finset Nat := (cells.map Prod.fst).toFinset

private theorem card_places (cells : Cells) : (places cells).card ≤ cells.length := by
  simpa [places] using List.toFinset_card_le (cells.map Prod.fst)

private theorem mem_places (found : cells.child? n key = some v) : n ∈ places cells := by
  obtain ⟨entries, mapping, _⟩ := child?_eq_some found
  simpa [places] using ⟨_, Assoc.mem_of_get? (entries?_eq_some_iff.mp mapping)⟩

/-- Merging over settings fails only where it has no end. -/
theorem merge_fails_iff {s : Settings} (tidy : Tidy s.cells) (root : s.root < s.cells.fresh)
    (upper_lt : upper < s.cells.fresh) :
    s.merge upper = .error .endlessMerge ↔ ¬ Ends s.cells s.root upper := by
  have none : Cells.merge (s.cells.length * s.cells.length + 1) s.cells s.root upper = none ↔ _ :=
    merge_none tidy (.refl _) root upper_lt
  have within : ∀ s' t, Both s.cells s' t → s' ∈ places s.cells ×ˢ places s.cells := by
    rintro s' t ⟨key, below, above⟩
    obtain ⟨_, below, _⟩ := Option.bind_eq_some_iff.mp below
    obtain ⟨_, above, _⟩ := Option.bind_eq_some_iff.mp above
    exact Finset.mem_product.mpr ⟨mem_places below, mem_places above⟩
  have few : (places s.cells ×ˢ places s.cells).card ≤ s.cells.length * s.cells.length := by
    rw [Finset.card_product]
    exact Nat.mul_le_mul (card_places _) (card_places _)
  have forever : Walk (Both s.cells) (s.cells.length * s.cells.length + 1) (s.root, upper) ↔
      ¬ Ends s.cells s.root upper := by
    rw [Ends, not_exists_not]
    exact ⟨fun walk => walk_forever _ within (walk_le walk (Nat.succ_le_succ few)), fun always => always _⟩
  rw [← forever, ← none, Settings.merge]
  cases Cells.merge (s.cells.length * s.cells.length + 1) s.cells s.root upper with
  | none => exact ⟨fun _ => rfl, fun _ => rfl⟩
  | some state => exact ⟨nofun, nofun⟩

theorem ends_of_merge (fuel : Nat) (tidy : Tidy base) (lower_lt : lower < base.fresh) (upper_lt : upper < base.fresh)
    (merged : Cells.merge fuel base lower upper ≠ none) : Ends base lower upper :=
  ⟨fuel, fun walk => merged ((merge_none tidy (.refl _) lower_lt upper_lt).mpr walk)⟩

theorem merge_ends {s : Settings} (tidy : Tidy s.cells) (root : s.root < s.cells.fresh) (upper_lt : upper < s.cells.fresh)
    (ends : Ends s.cells s.root upper) :
    ∃ fuel merged, s.merge upper = .ok merged ∧
      Cells.merge fuel s.cells s.root upper = some (merged.cells, merged.root) := by
  have ends := not_imp_not.mpr (merge_fails_iff tidy root upper_lt).mp (not_not.mpr ends)
  rw [Settings.merge] at ends ⊢
  cases made : Cells.merge (s.cells.length * s.cells.length + 1) s.cells s.root upper with
  | none =>
    rw [made] at ends
    exact absurd rfl ends
  | some state => exact ⟨_, _, rfl, made⟩

/-- The same paths are common to both sides, whatever is added to the cells. -/
theorem walk_grows (grows : Grows cells cells') (lower_lt : lower < cells.fresh) (upper_lt : upper < cells.fresh) :
    Walk (Both cells') n (lower, upper) ↔ Walk (Both cells) n (lower, upper) := by
  have maps {i : Nat} (lt : i < cells.fresh) (key : Key) :
      (cells'.child? i key).bind cells'.mapping? = (cells.child? i key).bind cells.mapping? := by
    rw [grows.child? lt]
    cases found : cells.child? i key with
    | none => rfl
    | some w => exact grows.mapping? (held_child found)
  induction n generalizing lower upper with
  | zero => exact Iff.rfl
  | succ n ih =>
    refine exists_congr fun ⟨b, o⟩ => ?_
    have both : Both cells' (lower, upper) (b, o) ↔ Both cells (lower, upper) (b, o) := by
      simp only [Both, maps lower_lt, maps upper_lt]
    rw [both]
    refine and_congr_right fun ⟨key, below, above⟩ => ?_
    obtain ⟨_, _, below⟩ := Option.bind_eq_some_iff.mp below
    obtain ⟨_, _, above⟩ := Option.bind_eq_some_iff.mp above
    exact ih (number_of_mapping below).2 (number_of_mapping above).2

/-! ### What is found after a merge -/

/-- A value that is no mapping stands on the way. -/
def Blocked (cells : Cells) (u : Strand) (path : List String) : Prop :=
  ∃ front, front <+: path ∧ front ≠ path ∧ ∃ v, cells.find? front u = some v ∧ cells.mapping? v = none

/-- A mapping has been made by merging two others, which are still there. -/
def Merged (cells : Cells) (lower upper n : Nat) : Prop :=
  ∃ fuel before after, Cells.merge fuel before lower upper = some (after, n) ∧ lower < before.fresh ∧
    upper < before.fresh ∧ Grows after cells

/-- What is found under a path where a value has been laid over another, if there is one: the upper value, if it is
    no mapping; nothing behind an upper value that is no mapping; the merge of two mappings; the upper mapping, if it
    is the only one; and else the lower value. -/
structure Overlaid (cells : Cells) (lower : Option Strand) (u : Strand) (r : Option Strand) (path : List String) : Prop where
  value : ∀ v, cells.find? path u = some v → cells.mapping? v = none → r.bind (cells.find? path) = some v
  blocked : Blocked cells u path → r.bind (cells.find? path) = none
  both : ∀ o b, cells.find? path u = some (.inner o) → lower.bind (cells.find? path) = some (.inner b) →
    cells.mapping? (.inner o) = some o → cells.mapping? (.inner b) = some b →
    ∃ n, r.bind (cells.find? path) = some (.inner n) ∧ Merged cells b o n
  upper : ∀ v, cells.find? path u = some v → (cells.mapping? v).isSome →
    (lower.bind (cells.find? path)).bind cells.mapping? = none → r.bind (cells.find? path) = some v
  lower : cells.find? path u = none → ¬ Blocked cells u path →
    r.bind (cells.find? path) = lower.bind (cells.find? path)

section
variable {u d : Strand} {below : Option Strand} {o b : Nat}

private theorem not_blocked_nil : ¬ Blocked cells u [] := by
  rintro ⟨front, before, short, _⟩
  exact short (List.prefix_nil.mp before)

private theorem blocked_plain (plain : cells.mapping? u = none) (x : String) (p : List String) : Blocked cells u (x :: p) :=
  ⟨[], List.nil_prefix, nofun, u, rfl, plain⟩

private theorem blocked_cons (mapping : cells.mapping? u = some o) :
    Blocked cells u (x :: p) ↔ ∃ v, cells.child? o (.text x) = some v ∧ Blocked cells v p := by
  constructor
  · rintro ⟨front, before, short, v, found, plain⟩
    cases front with
    | nil =>
      cases found
      rw [mapping] at plain
      cases plain
    | cons y front =>
      obtain ⟨rfl, further⟩ := List.cons_prefix_cons.mp before
      rw [find?_cons mapping] at found
      obtain ⟨w, here, found⟩ := Option.bind_eq_some_iff.mp found
      exact ⟨w, here, front, further, fun same => short (congrArg _ same), v, found, plain⟩
  · rintro ⟨w, here, front, before, short, v, found, plain⟩
    refine ⟨x :: front, List.cons_prefix_cons.mpr ⟨rfl, before⟩, by simpa using short, v, ?_, plain⟩
    rw [find?_cons mapping, here, Option.bind_some, found]

private theorem find?_blocked (blocked : Blocked cells u p) : cells.find? p u = none := by
  induction p generalizing u with
  | nil => exact absurd blocked not_blocked_nil
  | cons x p ih =>
    cases mapping : cells.mapping? u with
    | none => exact find?_plain x p mapping
    | some o =>
      obtain ⟨v, here, blocked⟩ := (blocked_cons mapping).mp blocked
      rw [find?_cons mapping, here, Option.bind_some, ih blocked]

/-- An upper value stands alone, unless there is a mapping below it and it is one itself. -/
theorem overlaid_alone (apart : below.bind cells.mapping? = none ∨ cells.mapping? v = none) :
    Overlaid cells below v (some v) p where
  value _ found _ := found
  blocked := find?_blocked
  both o b found under above lower := by
    cases p with
    | nil =>
      cases found
      rcases apart with none | none
      · have same : below = some (.inner b) := by simpa [Cells.find?] using under
        rw [same, Option.bind_some, lower] at none
        cases none
      · rw [none] at above
        cases above
    | cons x p =>
      rcases apart with none | none
      · obtain ⟨w, same, under⟩ := Option.bind_eq_some_iff.mp under
        rw [same, Option.bind_some] at none
        rw [find?_plain x p none] at under
        cases under
      · rw [find?_plain x p none] at found
        cases found
  upper _ found _ _ := found
  lower none clear := by
    cases p with
    | nil => cases none
    | cons x p =>
      rcases apart with plain | plain
      · refine none.trans (Option.eq_none_iff_forall_ne_some.mpr fun w found => ?_).symm
        obtain ⟨w, same, found⟩ := Option.bind_eq_some_iff.mp found
        rw [same, Option.bind_some] at plain
        rw [find?_plain x p plain] at found
        cases found
      · exact absurd (blocked_plain plain x p) clear

private theorem overlaid_missing (mapping : cells.mapping? u = some o) (missing : cells.child? o (.text x) = none)
    (same : cells.find? (x :: p) r = below.bind (cells.find? (x :: p))) : Overlaid cells below u (some r) (x :: p) := by
  have none : cells.find? (x :: p) u = none := by rw [find?_cons mapping, missing, Option.bind_none]
  have clear : ¬ Blocked cells u (x :: p) := by
    rintro blocked
    obtain ⟨v, here, _⟩ := (blocked_cons mapping).mp blocked
    rw [missing] at here
    cases here
  exact {
    value := fun _ found => by rw [none] at found; cases found
    blocked := fun blocked => absurd blocked clear
    both := fun _ _ found => by rw [none] at found; cases found
    upper := fun _ found => by rw [none] at found; cases found
    lower := fun _ _ => same }

/-- Of the lower side only what is found under the path matters. -/
theorem Overlaid.congr {below' above : Option Strand} (overlaid : Overlaid cells below u above p)
    (same : below'.bind (cells.find? p) = below.bind (cells.find? p)) : Overlaid cells below' u above p where
  value := overlaid.value
  blocked := overlaid.blocked
  both := same ▸ overlaid.both
  upper := same ▸ overlaid.upper
  lower := same ▸ overlaid.lower

private theorem overlaid_cons (mapping : cells.mapping? u = some o) (here : cells.child? o (.text x) = some v)
    (under : cells.mapping? d = some b) (above : cells.mapping? r = some n)
    (overlaid : Overlaid cells (cells.child? b (.text x)) v (cells.child? n (.text x)) p) :
    Overlaid cells (some d) u (some r) (x :: p) := by
  have further : cells.find? (x :: p) u = cells.find? p v := by rw [find?_cons mapping, here, Option.bind_some]
  have further' : cells.find? (x :: p) d = (cells.child? b (.text x)).bind (cells.find? p) := find?_cons under
  have result : cells.find? (x :: p) r = (cells.child? n (.text x)).bind (cells.find? p) := find?_cons above
  have blocked : Blocked cells u (x :: p) ↔ Blocked cells v p := by
    rw [blocked_cons mapping, here]
    exact ⟨fun ⟨_, same, blocked⟩ => Option.some.inj same ▸ blocked, fun blocked => ⟨v, rfl, blocked⟩⟩
  exact {
    value := by simpa only [Option.bind_some, result, further] using overlaid.value
    blocked := by simpa only [Option.bind_some, result, blocked] using overlaid.blocked
    both := by simpa only [Option.bind_some, result, further, further'] using overlaid.both
    upper := by simpa only [Option.bind_some, result, further, further'] using overlaid.upper
    lower := by simpa only [Option.bind_some, result, further, further', blocked] using overlaid.lower }

private theorem overlaid_merged (below : cells.mapping? (.inner lower) = some lower)
    (above : cells.mapping? (.inner upper) = some upper)
    (merged : Merged cells lower upper n) :
    Overlaid cells (some (.inner lower)) (.inner upper) (some (.inner n)) [] where
  value _ found plain := by
    cases found
    rw [above] at plain
    cases plain
  blocked blocked := absurd blocked not_blocked_nil
  both _ _ found under _ _ := by
    cases found
    cases under
    exact ⟨n, rfl, merged⟩
  upper _ _ _ alone := by
    have alone : cells.mapping? (.inner lower) = none := alone
    rw [below] at alone
    cases alone
  lower := nofun

/-- What is found after a merge, in cells that have grown since. -/
theorem merge_overlaid (tidy : Tidy base) (grown : Grows base before) (below : (base.entries? lower).isSome)
    (above : (base.entries? upper).isSome) (merged : Cells.merge fuel before lower upper = some (after, n))
    (kept : Grows after cells) : Overlaid cells (some (.inner lower)) (.inner upper) (some (.inner n)) p := by
  obtain ⟨grows, made⟩ := merge_grows merged
  have all : Grows base cells := (grown.trans grows).trans kept
  have maps {i : Nat} (mapping : (base.entries? i).isSome) : i < base.fresh ∧ cells.mapping? (.inner i) = some i := by
    have found : base.mapping? (.inner i) = some i := mapping?_eq_some_iff.mpr ⟨rfl, mapping⟩
    obtain ⟨_, lt⟩ := number_of_mapping found
    exact ⟨lt, (all.mapping? fun j same => Strand.inner.inj same ▸ lt).trans found⟩
  obtain ⟨lower_lt, lower_maps⟩ := maps below
  obtain ⟨upper_lt, upper_maps⟩ := maps above
  induction p generalizing fuel before after lower upper n with
  | nil =>
    exact overlaid_merged lower_maps upper_maps ⟨fuel, before, after, merged, Nat.lt_of_lt_of_le lower_lt grown.fresh_le,
      Nat.lt_of_lt_of_le upper_lt grown.fresh_le, kept⟩
  | cons x p ih =>
    cases fuel with
    | zero => cases merged
    | succ fuel =>
      obtain ⟨mapping, each⟩ := merge_each tidy grown lower_lt upper_lt merged
      obtain ⟨absent, present⟩ := each (.text x)
      have result : cells.mapping? (.inner n) = some n :=
        mapping?_eq_some_iff.mpr ⟨rfl, by rwa [kept.entries? made]⟩
      rw [← kept.child? made, ← all.child? upper_lt, ← all.child? lower_lt] at absent
      rw [← kept.child? made, ← all.child? upper_lt] at present
      cases here : cells.child? upper (.text x) with
      | none =>
        refine overlaid_missing upper_maps here ?_
        rw [Option.bind_some, find?_cons result, find?_cons lower_maps, absent here]
      | some v =>
        obtain ⟨r, found, rise⟩ := present v here
        refine overlaid_cons upper_maps here lower_maps result ?_
        rw [found]
        have held : Held base v := held_child (all.child? upper_lt (.text x) ▸ here)
        cases rise with
        | alone apart =>
          refine overlaid_alone (apart.imp (fun none => ?_) (all.mapping? held).trans)
          rw [all.child? lower_lt]
          cases under : base.child? lower (.text x) with
          | none => rfl
          | some w =>
            rw [under] at none
            exact (all.mapping? (held_child under)).trans none
        | @merged b o i before' after' below above grown' merged kept' =>
          obtain ⟨w, under, below⟩ := Option.bind_eq_some_iff.mp below
          obtain ⟨rfl, first⟩ := mapping?_eq_some_iff.mp below
          obtain ⟨rfl, second⟩ := mapping?_eq_some_iff.mp above
          rw [all.child? lower_lt, under]
          obtain ⟨grows', made'⟩ := merge_grows merged
          exact ih grown' first second merged (kept'.trans kept) grows' made' (maps first).1 (maps first).2 (maps second).1
            (maps second).2

end

end LogCursor.Overlaying
