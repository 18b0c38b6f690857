import LogCursor.Proofs.Filing
import LogCursor.Proofs.Holding
import LogCursor.Proofs.Traversal
import LogCursor.Settings.Layers
import Mathlib.Data.List.Forall2
/-!
The laws of paths. Values can be filed under two paths in any order, if each way leaves alone what is written on the
other: where the paths part, the two slots are different, and the new mappings behind them change numbers
(`exchange_parted`). So settings obey the laws of a lens with a frame (`set_lawful`). Where a mapping on the way to a
path is held at a second place, a value is found from there as well (`shared_disturbed`), and a value that is filed on
the way to itself is not found (`circle_unfound`).
-/
namespace LogCursor.PathLaws
open Slots Holding Filing

/-- Strands that are the same, where collections are paired. -/
inductive Match (pair : Nat → Nat → Prop) : Strand → Strand → Prop
  | same {v : Strand} (bare : Bare v) : Match pair v v
  | inner {i j : Nat} (paired : pair i j) : Match pair (.inner i) (.inner j)

/-- The same keys in their order, with values that match. -/
abbrev Level (pair : Nat → Nat → Prop) : List (Key × Strand) → List (Key × Strand) → Prop :=
  List.Forall₂ fun a b => a.1 = b.1 ∧ Match pair a.2 b.2

/-- Cells that hold the same, mappings in any order. -/
inductive Like (pair : Nat → Nat → Prop) : Cell → Cell → Prop
  | list {items items' : List Strand} (each : List.Forall₂ (Match pair) items items') :
      Like pair (.list items) (.list items')
  | map {entries entries' entries'' : List (Key × Strand)} (each : Level pair entries entries')
      (order : entries'.Perm entries'') : Like pair (.map entries) (.map entries'')
  | set (members : List Key) : Like pair (.set members) (.set members)
  | pairs {entries entries' : List (Strand × Strand)}
      (each : List.Forall₂ (fun a b => Match pair a.1 b.1 ∧ Match pair a.2 b.2) entries entries') :
      Like pair (.pairs entries) (.pairs entries')

/-- Cells are paired one to one, and hold the same. -/
structure Paired (pair : Nat → Nat → Prop) (cells cells' : Cells) : Prop where
  single : ∀ {i j i' j'}, pair i j → pair i' j' → (i = i' ↔ j = j')
  like : ∀ {i j}, pair i j → Option.Rel (Like pair) (cells.cell? i) (cells'.cell? j)

/-- The same settings, but for the numbers of collections and the order of the entries of mappings. -/
def Alike (s s' : Settings) : Prop := ∃ pair, Paired pair s.cells s'.cells ∧ pair s.root s'.root

/-- A value that is in the cells, if it is a collection. -/
def AtHand (cells : Cells) (v : Strand) : Prop := ∀ n, v = .inner n → (cells.cell? n).isSome

variable {pair : Nat → Nat → Prop} {cells cells' : Cells} {c : Cell} {n m i : Nat} {x y : String} {p q rest : List String}
  {v w : Strand} {key key' : Key} {entries entries' : List (Key × Strand)}

private theorem match_refl (paired : ∀ n, v = .inner n → pair n n) : Match pair v v := by
  cases v with
  | inner n => exact .inner (paired n rfl)
  | _ => exact .same nofun

private theorem like_refl (paired : ∀ m ∈ c.inner, pair m m) : Like pair c c := by
  have each : ∀ v ∈ c.strands, Match pair v v := by
    rintro v member
    exact match_refl fun n same => paired n (List.mem_filterMap.mpr ⟨v, member, by rw [same]⟩)
  cases c with
  | list items => exact .list (List.forall₂_same.mpr each)
  | map entries =>
    exact .map (List.forall₂_same.mpr fun entry member => ⟨rfl, each _ (List.mem_map_of_mem member)⟩) (.refl _)
  | set members => exact .set members
  | pairs entries =>
    refine .pairs (List.forall₂_same.mpr fun entry member => ⟨each _ ?_, each _ ?_⟩) <;>
    exact List.mem_flatMap.mpr ⟨entry, member, by simp⟩

/-- The entries that stay when a value is filed under a key. -/
def others (key : Key) (entries : List (Key × Strand)) : List (Key × Strand) := entries.eraseP fun entry => entry.1 == key

private theorem others_cons (key j : Key) (u : Strand) (rest : List (Key × Strand)) :
    others key ((j, u) :: rest) = if j == key then rest else (j, u) :: others key rest := by
  rw [others, List.eraseP_cons, cond_eq_ite, others]

private theorem mem_put_of_others {entry : Key × Strand} (v : Strand) (member : entry ∈ others key entries) :
    entry ∈ Assoc.put key v entries := by
  induction entries with
  | nil => cases member
  | cons first rest ih =>
    obtain ⟨j, u⟩ := first
    rw [others_cons] at member
    by_cases same : j == key
    · rw [if_pos same] at member
      simp [Assoc.put, same, member]
    · rw [if_neg same, List.mem_cons] at member
      simpa [Assoc.put, same] using member.imp_right ih

private theorem others_put (apart : ∀ j : Key, ¬ (j == key ∧ j == key')) (other : (key == key') = false) (v : Strand)
    (entries : List (Key × Strand)) : others key' (Assoc.put key v entries) = Assoc.put key v (others key' entries) := by
  induction entries with
  | nil => simp [Assoc.put, others, other]
  | cons first rest ih =>
    obtain ⟨j, u⟩ := first
    by_cases same : j == key
    · have other : ¬ j == key' := fun also => apart j ⟨same, also⟩
      simp [Assoc.put, others_cons, same, other]
    · by_cases also : j == key'
      · simp [Assoc.put, others_cons, same, also]
      · simp [Assoc.put, others_cons, same, also, ih]

/-- Values that match can be put in two mappings that match, but for what they replace. -/
private theorem level_put (matched : Match pair v w) (keys : entries.map Prod.fst = entries'.map Prod.fst)
    (level : Level pair (others key entries) (others key entries')) :
    Level pair (Assoc.put key v entries) (Assoc.put key w entries') := by
  induction entries generalizing entries' with
  | nil =>
    cases entries' with
    | nil => exact .cons ⟨rfl, matched⟩ .nil
    | cons => cases keys
  | cons first rest ih =>
    cases entries' with
    | nil => cases keys
    | cons first' rest' =>
      obtain ⟨j, u⟩ := first
      obtain ⟨j', u'⟩ := first'
      obtain ⟨first, later⟩ := List.cons.inj keys
      obtain rfl : j = j' := first
      rw [others_cons, others_cons] at level
      by_cases same : j == key
      · rw [if_pos same, if_pos same] at level
        simpa [Assoc.put, same, matched] using level
      · rw [if_neg same, if_neg same] at level
        cases level with
        | cons first level => simpa [Assoc.put, same, first] using ih later level

private theorem link_match {base base' : Nat} (matched : Match pair v v)
    (linked : ∀ k < rest.length, pair (base + k) (base' + k)) : Match pair (link v base rest) (link v base' rest) := by
  cases rest with
  | nil => exact matched
  | cons => exact .inner (linked 0 (Nat.zero_lt_succ _))

private theorem cell?_chain_succ (base k : Nat) (x : String) : (chain v base (x :: rest)).cell? (base + (k + 1)) =
    (chain v (base + 1) rest).cell? (base + 1 + k) := by
  rw [chain, Cells.cell?, Assoc.get?_cons, if_neg (by simp), Cells.cell?]
  congr 1
  omega

private theorem cell?_chain_zero (base : Nat) (x : String) :
    (chain v base (x :: rest)).cell? (base + 0) = some (.map [(.text x, link v (base + 1) rest)]) := by
  rw [chain, Cells.cell?, Assoc.get?_cons, Nat.add_zero, if_pos (beq_self_eq_true base)]

private theorem chain_like {base base' k : Nat} (matched : Match pair v v)
    (linked : ∀ k < rest.length, pair (base + k) (base' + k)) (lt : k < rest.length) :
    Option.Rel (Like pair) ((chain v base rest).cell? (base + k)) ((chain v base' rest).cell? (base' + k)) := by
  induction rest generalizing base base' k with
  | nil => cases lt
  | cons x rest ih =>
    have linked : ∀ k < rest.length, pair (base + 1 + k) (base' + 1 + k) := by
      intro k lt
      have := linked (k + 1) (Nat.succ_lt_succ lt)
      rwa [← Nat.add_assoc, Nat.add_right_comm, ← Nat.add_assoc base', Nat.add_right_comm base'] at this
    cases k with
    | zero =>
      rw [cell?_chain_zero, cell?_chain_zero]
      have each : Level pair [(.text x, link v (base + 1) rest)] [(.text x, link v (base' + 1) rest)] :=
        .cons ⟨rfl, link_match matched linked⟩ .nil
      exact .some (.map each (.refl _))
    | succ k =>
      rw [cell?_chain_succ, cell?_chain_succ]
      exact ih linked (Nat.lt_of_succ_lt_succ lt)

private theorem isSome_chain {base k : Nat} (lt : k < rest.length) : ((chain v base rest).cell? (base + k)).isSome := by
  induction rest generalizing base k with
  | nil => cases lt
  | cons x rest ih =>
    cases k with
    | zero => rw [cell?_chain_zero]; rfl
    | succ k =>
      rw [cell?_chain_succ]
      exact ih (Nat.lt_of_succ_lt_succ lt)

/-- Cells before and after a value is filed in a slot, at the end of the new mappings behind it. -/
private structure Filed (cells : Cells) (v : Strand) (t : Target) (cells' : Cells) : Prop where
  written : ∃ entries, cells.entries? t.slot.1 = some entries ∧
    cells'.entries? t.slot.1 = some (Assoc.put (.text t.slot.2) (link v cells.fresh t.rest) entries)
  old : ∀ i, i < cells.fresh → i ≠ t.slot.1 → cells'.cell? i = cells.cell? i
  new : ∀ i, cells.fresh ≤ i → cells'.cell? i = (chain v cells.fresh t.rest).cell? i

private theorem filed (v : Strand) (x : String) (p : List String) (mapping : (cells.entries? n).isSome) :
    Filed cells v (target cells x p n) (cells.file v (x :: p) n) where
  written := by
    obtain ⟨_, _, _, maps, _⟩ := target_reads x p mapping
    obtain ⟨entries, maps⟩ := Option.isSome_iff_exists.mp maps
    exact ⟨entries, maps, entries?_file v mapping maps⟩
  old _ lt other := cell?_file v mapping lt other
  new := hangs_file v mapping

/-- How numbers change with the order in which two values are filed: what is old stays, and the new mappings behind the
    one slot change places with those behind the other. -/
private inductive Swap (base first second length length' : Nat) : Nat → Nat → Prop
  | old {i : Nat} (known : i < base) (left : i < first) (right : i < second) : Swap base first second length length' i i
  | before {k : Nat} (lt : k < length) : Swap base first second length length' (base + k) (second + k)
  | behind {k : Nat} (lt : k < length') : Swap base first second length length' (first + k) (base + k)

private theorem swap_single {base first second length length' i j i' j' : Nat}
    (le : 0 < length → base + length ≤ first) (le' : 0 < length' → base + length' ≤ second)
    (pair : Swap base first second length length' i j) (pair' : Swap base first second length length' i' j') :
    i = i' ↔ j = j' := by
  cases pair <;> cases pair' <;> omega

section
variable {t t' : Target} {once twice once' twice' : Cells}

private theorem Filed.isSome (filed : Filed cells v t cells') (some : (cells.cell? i).isSome) : (cells'.cell? i).isSome := by
  by_cases written : i = t.slot.1
  · obtain ⟨entries, _, maps⟩ := filed.written
    rw [written, entries?_eq_some_iff.mp maps]
    rfl
  · obtain ⟨c, found⟩ := Option.isSome_iff_exists.mp some
    rw [filed.old i (number_lt found) written]
    exact some

private theorem Filed.length_le (filed : Filed cells v t cells') (some : 0 < t.rest.length) :
    cells.fresh + t.rest.length ≤ cells'.fresh := by
  have last : (cells'.cell? (cells.fresh + (t.rest.length - 1))).isSome := by
    rw [filed.new _ (Nat.le_add_right _ _)]
    exact isSome_chain (Nat.sub_lt some Nat.one_pos)
  obtain ⟨c, found⟩ := Option.isSome_iff_exists.mp last
  have := number_lt found
  omega

private theorem entry_lt {entry : Key × Strand} (mapping : cells.entries? i = some entries) (member : entry ∈ entries)
    (inner : entry.2 = .inner m) : m < cells.fresh :=
  inner_lt (entries?_eq_some_iff.mp mapping) (mem_inner.mpr ⟨entry.1, inner ▸ member⟩)

private theorem texts_apart (other : x ≠ y) (j : Key) : ¬ (j == .text x ∧ j == .text y) := by
  rintro ⟨first, second⟩
  rw [Key.eq_of_beq_text first] at second
  exact other (by simpa using second)

private theorem written_like (matched : Match pair v w) (stay : ∀ entry ∈ others key entries, Match pair entry.2 entry.2) :
    Like pair (.map (Assoc.put key v entries)) (.map (Assoc.put key w entries)) :=
  .map (level_put matched rfl (List.forall₂_same.mpr fun entry member => ⟨rfl, stay entry member⟩)) (.refl _)

/-- Two keys of one mapping can be written in any order. -/
private theorem both_like {v' w' : Strand} (matched : Match pair v v') (matched' : Match pair w w') (other : x ≠ y)
    (stay : ∀ entry ∈ others (.text x) entries, entry ∈ others (.text y) entries → Match pair entry.2 entry.2) :
    Like pair (.map (Assoc.put (.text y) w (Assoc.put (.text x) v entries)))
      (.map (Assoc.put (.text x) v' (Assoc.put (.text y) w' entries))) := by
  have apart : (Key.text x == Key.text y) = false := by simpa using other
  have apart' : (Key.text y == Key.text x) = false := by simpa using other.symm
  have inner : Level pair (others (.text y) (Assoc.put (.text x) v entries))
      (others (.text y) (Assoc.put (.text x) v' entries)) := by
    rw [others_put (texts_apart other) apart, others_put (texts_apart other) apart]
    refine level_put matched rfl (List.forall₂_same.mpr fun entry member => ⟨rfl, stay entry ?_ ?_⟩)
    · exact (List.eraseP_sublist.eraseP).subset member
    · exact List.mem_of_mem_eraseP member
  exact .map (level_put matched' (by rw [Assoc.keys_put, Assoc.keys_put]) inner)
    (Assoc.put_comm (texts_apart other) apart apart' _ _ _)

/-- Two values can be filed in two slots in any order. -/
private theorem exchange_filed (first : Filed cells v t once) (second : Filed once w t' twice)
    (first' : Filed cells w t' once') (second' : Filed once' v t twice') (apart : t.slot ≠ t'.slot)
    (hand : AtHand cells v) (hand' : AtHand cells w) :
    ∃ pair, (∀ i, (cells.cell? i).isSome → pair i i) ∧ Paired pair twice twice' := by
  have lt {cells : Cells} {i : Nat} (some : (cells.cell? i).isSome) : i < cells.fresh := by
    obtain ⟨c, found⟩ := Option.isSome_iff_exists.mp some
    exact number_lt found
  have known : ∀ i, (cells.cell? i).isSome → Swap cells.fresh once.fresh once'.fresh t.rest.length t'.rest.length i i :=
    fun i some => .old (lt some) (lt (first.isSome some)) (lt (first'.isSome some))
  have linked : Match (Swap cells.fresh once.fresh once'.fresh t.rest.length t'.rest.length)
      (link v cells.fresh t.rest) (link v once'.fresh t.rest) :=
    link_match (match_refl fun n same => known n (hand n same)) fun k => .before
  have linked' : Match (Swap cells.fresh once.fresh once'.fresh t.rest.length t'.rest.length)
      (link w once.fresh t'.rest) (link w cells.fresh t'.rest) :=
    link_match (match_refl fun n same => known n (hand' n same)) fun k => .behind
  obtain ⟨entries, maps, put⟩ := first.written
  obtain ⟨entries', maps', put'⟩ := first'.written
  obtain ⟨left, left_maps, left_put⟩ := second.written
  obtain ⟨right, right_maps, right_put⟩ := second'.written
  have slot : t.slot.1 < cells.fresh := number_lt (entries?_eq_some_iff.mp maps)
  have slot' : t'.slot.1 < cells.fresh := number_lt (entries?_eq_some_iff.mp maps')
  refine ⟨_, known, swap_single first.length_le first'.length_le, @fun i j pair => ?_⟩
  cases pair with
  | before lt =>
    have le := first.length_le (Nat.zero_lt_of_lt lt)
    rw [second.old _ (by omega) (by omega), first.new _ (Nat.le_add_right _ _), second'.new _ (Nat.le_add_right _ _)]
    exact chain_like (match_refl fun n same => known n (hand n same)) (fun k => .before) lt
  | behind lt =>
    have le := first'.length_le (Nat.zero_lt_of_lt lt)
    rw [second.new _ (Nat.le_add_right _ _), second'.old _ (by omega) (by omega), first'.new _ (Nat.le_add_right _ _)]
    exact chain_like (match_refl fun n same => known n (hand' n same)) (fun k => .behind) lt
  | old base_lt once_lt once_lt' =>
    by_cases here : i = t.slot.1
    · by_cases there : i = t'.slot.1
      · -- Both values go into one mapping, under different keys.
        rw [← here] at maps put right_put right_maps
        rw [← there] at maps' put' left_put left_maps
        obtain rfl := Option.some.inj (maps'.symm.trans maps)
        obtain rfl := Option.some.inj (left_maps.symm.trans put)
        obtain rfl := Option.some.inj (right_maps.symm.trans put')
        have other : t.slot.2 ≠ t'.slot.2 := fun same => apart (Prod.ext (here.symm.trans there) same)
        rw [entries?_eq_some_iff.mp left_put, entries?_eq_some_iff.mp right_put]
        refine .some (both_like linked linked' other fun entry stays stays' => match_refl fun m same => ?_)
        exact .old (entry_lt maps (List.mem_of_mem_eraseP stays) same) (entry_lt put (mem_put_of_others _ stays) same)
          (entry_lt put' (mem_put_of_others _ stays') same)
      · rw [← here] at maps put right_put right_maps
        have same := (entries?_congr (first'.old i base_lt there)).trans maps
        obtain rfl := Option.some.inj (right_maps.symm.trans same)
        rw [second.old i once_lt there, entries?_eq_some_iff.mp put, entries?_eq_some_iff.mp right_put]
        refine .some (written_like linked fun entry stays => match_refl fun m inner => ?_)
        exact .old (entry_lt maps (List.mem_of_mem_eraseP stays) inner) (entry_lt put (mem_put_of_others _ stays) inner)
          (entry_lt same (List.mem_of_mem_eraseP stays) inner)
    · by_cases there : i = t'.slot.1
      · rw [← there] at maps' put' left_put left_maps
        have same := (entries?_congr (first.old i base_lt here)).trans maps'
        obtain rfl := Option.some.inj (left_maps.symm.trans same)
        rw [second'.old i once_lt' here, entries?_eq_some_iff.mp put', entries?_eq_some_iff.mp left_put]
        refine .some (written_like linked' fun entry stays => match_refl fun m inner => ?_)
        exact .old (entry_lt maps' (List.mem_of_mem_eraseP stays) inner) (entry_lt same (List.mem_of_mem_eraseP stays) inner)
          (entry_lt put' (mem_put_of_others _ stays) inner)
      · have same := (second.old i once_lt there).trans (first.old i base_lt here)
        have same' := (second'.old i once_lt' here).trans (first'.old i base_lt there)
        rw [same, same']
        cases found : cells.cell? i with
        | none => exact .none
        | some c =>
          refine .some (like_refl fun m inner => .old (inner_lt found inner) ?_ ?_)
          · exact inner_lt ((first.old i base_lt here).trans found) inner
          · exact inner_lt ((first'.old i base_lt there).trans found) inner

end

/-- Whoever reads the same slots writes the same one. -/
private theorem target_congr (mapping : (cells.entries? n).isSome) (mapping' : (cells'.entries? n).isSome)
    (same : slots cells' (x :: p) (.inner n) = slots cells (x :: p) (.inner n)) :
    target cells' x p n = target cells x p n := by
  obtain ⟨front, reads, keys, _⟩ := target_reads x p mapping
  obtain ⟨front', reads', keys', _⟩ := target_reads x p mapping'
  rw [same, reads] at reads'
  obtain ⟨rfl, slot⟩ := List.append_inj' reads' rfl
  rw [keys, ← List.singleton_inj.mp slot] at keys'
  have rest := (List.cons.inj (List.append_cancel_left keys')).2
  cases one : target cells x p n
  cases other : target cells' x p n
  rw [one, other] at slot rest
  cases slot
  cases rest
  rfl

/-- Where the first segments are different, two ways write different slots. -/
private theorem exchange_parted (mapping : (cells.entries? n).isSome) (parted : x ≠ y)
    (clear : Clear cells n (x :: p) (y :: q))
    (clear' : Clear cells n (y :: q) (x :: p)) (hand : AtHand cells v) (hand' : AtHand cells w) :
    ∃ pair, (∀ i, (cells.cell? i).isSome → pair i i) ∧
      Paired pair (Cells.file w (y :: q) n (cells.file v (x :: p) n))
        (Cells.file v (x :: p) n (cells.file w (y :: q) n)) := by
  have unread := unread_of_clear mapping clear parted
  have unread' := unread_of_clear mapping clear' parted.symm
  have second := filed w y q (isSome_file v x p mapping mapping)
  have second' := filed v x p (isSome_file w y q mapping mapping)
  rw [target_congr mapping (isSome_file v x p mapping mapping)
    (read_file v mapping (held_mapping mapping) unread).2] at second
  rw [target_congr mapping (isSome_file w y q mapping mapping)
    (read_file w mapping (held_mapping mapping) unread').2] at second'
  refine exchange_filed (filed v x p mapping) second (filed w y q mapping) second' (fun same => unread ?_) hand hand'
  exact same ▸ List.mem_of_getLast? (last_slot y q mapping)

/-- Two values can be filed under two paths in any order. -/
theorem exchange_file (mapping : (cells.entries? n).isSome) (diverge : Diverge (x :: p) (y :: q))
    (clear : Clear cells n (x :: p) (y :: q)) (clear' : Clear cells n (y :: q) (x :: p)) (hand : AtHand cells v)
    (hand' : AtHand cells w) :
    ∃ pair, (∀ i, (cells.cell? i).isSome → pair i i) ∧
      Paired pair (Cells.file w (y :: q) n (cells.file v (x :: p) n))
        (Cells.file v (x :: p) n (cells.file w (y :: q) n)) := by
  induction p generalizing cells n x y q with
  | nil =>
    have parted : x ≠ y := fun same => (diverge_nonempty (diverge_cons diverge same)).1 rfl
    exact exchange_parted mapping parted clear clear' hand hand'
  | cons z p ih =>
    by_cases same : x = y
    · -- Both ways lead into one mapping, which is old or new, and go on from there.
      subst same
      have diverge := diverge_cons diverge rfl
      obtain ⟨y, q, rfl⟩ := List.exists_cons_of_ne_nil (diverge_nonempty diverge).2
      obtain ⟨cells', m, further⟩ := behind mapping x
      obtain ⟨apart, clear⟩ := further.clear z p y q clear
      obtain ⟨apart', clear'⟩ := further.clear y q z p clear'
      obtain ⟨maps, child, inner⟩ := further.after v z p apart
      obtain ⟨maps', child', inner'⟩ := further.after w y q apart'
      obtain ⟨pair, known, paired⟩ := ih further.mapping diverge clear clear'
        (fun i same => further.kept i (hand i same)) (fun i same => further.kept i (hand' i same))
      refine ⟨pair, fun i some => known i (further.kept i some), ?_⟩
      rwa [further.file, further.file, (behind_mapping (mapping?_inner maps) child inner).file,
        (behind_mapping (mapping?_inner maps') child' inner').file]
    · exact exchange_parted mapping same clear clear' hand hand'

/-- Paths of which neither leads through the other. -/
def Apart (path path' : String) : Prop := Diverge (segments path) (segments path')

/-- The place that is written under a path is not passed on the way to it. -/
def Straight (s : Settings) (path : String) : Prop := Clear s.cells s.root (segments path) (segments path)

/-- No mapping on the way to a path is held at a second place. -/
def Unshared (s : Settings) (path : String) : Prop := Own s.cells s.root (segments path)

/-- A path leads to what it led to, and nothing that can be reached from there has changed. -/
structure Unmoved (s s' : Settings) (path : String) : Prop where
  found : s'.find? path = s.find? path
  within : ∀ n, s.find? path = some (.inner n) → ∀ z, Reaches s.cells n z → s'.cells.cell? z = s.cells.cell? z

variable {s s' : Settings} {path path' : String}

/-- A value of which nothing that can be reached has changed is the same to any depth. -/
theorem value?_congr (same : ∀ z, Reaches cells n z → cells'.cell? z = cells.cell? z) (fuel : Nat) :
    cells'.value? fuel (.inner n) = cells.value? fuel (.inner n) := by
  induction fuel generalizing n with
  | zero => rfl
  | succ fuel ih =>
    rw [Cells.value?, same n .refl, Cells.value?]
    cases cell : cells.cell? n with
    | none => rfl
    | some c =>
      have each : ∀ v ∈ c.strands, cells'.value? fuel v = cells.value? fuel v := by
        rintro v member
        cases v with
        | inner m =>
          have holds : Holds cells n m := holds_iff.mpr ⟨c, cell, List.mem_filterMap.mpr ⟨_, member, rfl⟩⟩
          exact ih fun z reached => same z (.head holds reached)
        | _ => simp only [Cells.value?]
      cases c with
      | list items => exact congrArg (Option.map _) (Traversal.mapM_congr each)
      | map entries =>
        refine congrArg (Option.map _) (Traversal.mapM_congr fun entry member => ?_)
        rw [each _ (List.mem_map_of_mem member)]
      | set members => rfl
      | pairs entries =>
        refine congrArg (Option.map _) (Traversal.mapM_congr fun entry member => ?_)
        rw [each entry.1 (List.mem_flatMap.mpr ⟨entry, member, by simp⟩),
          each entry.2 (List.mem_flatMap.mpr ⟨entry, member, by simp⟩)]

theorem Unmoved.value? (unmoved : Unmoved s s' path) (fuel : Nat) :
    (s'.find? path).bind (s'.cells.value? fuel) = (s.find? path).bind (s.cells.value? fuel) := by
  rw [unmoved.found]
  cases found : s.find? path with
  | none => rfl
  | some v =>
    cases v with
    | inner n => exact value?_congr (unmoved.within n found) fuel
    | _ => simp only [Option.bind_some, Cells.value?]

theorem Unmoved.refl (s : Settings) (path : String) : Unmoved s s path := ⟨rfl, fun _ _ _ _ => rfl⟩

theorem Unmoved.trans {s' s'' : Settings} (first : Unmoved s s' path) (second : Unmoved s' s'' path) :
    Unmoved s s'' path where
  found := second.found.trans first.found
  within n found z reached := by
    have same : Reaches s'.cells n z := by
      induction reached with
      | refl => exact .refl
      | tail reached held ih =>
        refine ih.tail ?_
        rwa [Holds, places, first.within n found _ reached]
    rw [second.within n (first.found.trans found) z same, first.within n found z reached]

theorem exists_segments (path : String) : ∃ x p, segments path = x :: p :=
  List.exists_cons_of_ne_nil (by simp [segments, List.splitOn_ne_nil])

theorem set_eq (split : segments path = x :: p) (v : Strand) :
    s.set path v = { s with cells := s.cells.file v (x :: p) s.root } := by
  rw [Settings.set, split]

theorem mapping_set (mapping : (s.cells.entries? s.root).isSome) (path : String) (v : Strand) :
    ((s.set path v).cells.entries? (s.set path v).root).isSome := by
  obtain ⟨x, p, split⟩ := exists_segments path
  rw [set_eq split]
  exact isSome_file v x p mapping mapping

theorem find?_set (mapping : (s.cells.entries? s.root).isSome) (straight : Straight s path) (v : Strand) :
    (s.set path v).find? path = some v := by
  obtain ⟨x, p, split⟩ := exists_segments path
  rw [Straight, split] at straight
  rw [set_eq split, Settings.find?, split]
  exact find?_file v mapping straight

theorem find?_set_apart (mapping : (s.cells.entries? s.root).isSome) (apart : Apart path path')
    (clear : Clear s.cells s.root (segments path) (segments path')) (v : Strand) :
    (s.set path v).find? path' = s.find? path' := by
  obtain ⟨x, p, split⟩ := exists_segments path
  rw [split] at clear
  rw [Apart, split] at apart
  rw [set_eq split]
  exact find?_file_apart v mapping apart clear

theorem unmoved_set (mapping : (s.cells.entries? s.root).isSome) (unshared : Unshared s path) (apart : Apart path path')
    (v : Strand) : Unmoved s (s.set path v) path' := by
  refine ⟨find?_set_apart mapping apart (clear_of_own unshared _) v, fun n found z reached => ?_⟩
  obtain ⟨x, p, split⟩ := exists_segments path
  rw [Unshared, split] at unshared
  rw [Apart, split] at apart
  rw [set_eq split]
  have away := apart_of_own unshared apart (last_slot x p mapping) found
  -- The mapping that is written cannot be reached from there, and neither can a new one.
  refine cell?_file v mapping ?_ fun same => away (same ▸ reached)
  rcases Relation.ReflTransGen.cases_tail reached with rfl | ⟨_, _, held⟩
  · exact held_found (held_mapping mapping) found z rfl
  · obtain ⟨c, cell, inner⟩ := holds_iff.mp held
    exact inner_lt cell inner

private theorem straight_of_unshared (unshared : Unshared s path) : Straight s path := clear_of_own unshared _

/-- To file what is found under a path changes nothing. If the place that is written is not passed on the way, the value
    that is filed is found, and the second of two values stays. If no mapping on the way is held at a second place,
    what is found under a path apart from it does not change, and values can be filed under both in any order. -/
theorem set_lawful (s : Settings) (mapping : (s.cells.entries? s.root).isSome) (path : String) :
    (∀ v, s.find? path = some v → s.set path v = s) ∧
    (Straight s path →
      (∀ v, (s.set path v).find? path = some v) ∧
      ∀ v w, (s.set path v).set path w = s.set path w) ∧
    (Unshared s path → ∀ path', Apart path path' →
      (∀ v, Unmoved s (s.set path v) path') ∧
      ∀ v w, AtHand s.cells v → AtHand s.cells w →
        Alike ((s.set path v).set path' w) ((s.set path' w).set path v)) := by
  obtain ⟨x, p, split⟩ := exists_segments path
  refine ⟨fun v found => ?_, fun straight => ⟨find?_set mapping straight, fun v w => ?_⟩,
    fun unshared path' apart => ⟨unmoved_set mapping unshared apart, fun v w hand hand' => ?_⟩⟩
  · rw [Settings.find?, split] at found
    rw [set_eq split, file_found found]
  · rw [Straight, split] at straight
    rw [set_eq split, set_eq split, set_eq split]
    exact congrArg (Settings.mk · s.root) (file_file v w mapping straight)
  · obtain ⟨y, q, split'⟩ := exists_segments path'
    rw [Unshared, split] at unshared
    rw [Apart, split, split'] at apart
    rw [set_eq split, set_eq split', set_eq split', set_eq split]
    obtain ⟨pair, known, paired⟩ :=
      exchange_file mapping apart (clear_of_own unshared _) (clear_own unshared _) hand hand'
    refine ⟨pair, paired, known _ ?_⟩
    obtain ⟨entries, maps⟩ := Option.isSome_iff_exists.mp mapping
    rw [entries?_eq_some_iff.mp maps]
    rfl

/-- Settings in which a number stands where a mapping will be needed. -/
def clicks : Settings where
  cells := [
    (0, .map [(.text "source", .inner 1), (.text "auto", .scalar (.int 3))]),
    (1, .map [(.text "topic", .scalar (.text "clicks"))])]
  root := 0

theorem set_lawful_clicks : (clicks.cells.entries? clicks.root).isSome ∧
    Straight clicks "source.topic" ∧ Unshared clicks "auto.offset.reset" ∧ Apart "auto.offset.reset" "source.topic" ∧
    Apart "auto.offset.reset" "auto.reset" ∧
    clicks.set "auto" (.scalar (.int 3)) = clicks ∧
    (clicks.set "source.topic" (.scalar .null)).find? "source.topic" = some (.scalar .null) ∧
    Unmoved clicks (clicks.set "auto.offset.reset" (.inner 1)) "source.topic" ∧
    AtHand clicks.cells (.inner 1) ∧ AtHand clicks.cells (.scalar .null) ∧
    Alike ((clicks.set "auto.offset.reset" (.inner 1)).set "auto.reset" (.scalar .null))
      ((clicks.set "auto.reset" (.scalar .null)).set "auto.offset.reset" (.inner 1)) := by
  have mapping : (clicks.cells.entries? clicks.root).isSome := rfl
  have within (path : String) (single : ∀ slot ∈ slots clicks.cells (segments path) (.inner 0), ∀ z ∈ [0, 1],
      Holds clicks.cells z slot.1 → slot.1 ≠ 0 ∧ places clicks.cells z slot.1 = 1 ∧
        ∀ z' ∈ [0, 1], Holds clicks.cells z' slot.1 → z' = z) : Unshared clicks path :=
    own_of_within (by decide) (by decide) single
  have source : Unshared clicks "source.topic" := within _ (by decide +kernel)
  have reset : Unshared clicks "auto.offset.reset" := within _ (by decide +kernel)
  have apart : Apart "auto.offset.reset" "source.topic" := by unfold Apart Diverge; decide
  have apart' : Apart "auto.offset.reset" "auto.reset" := by unfold Apart Diverge; decide
  have hand : AtHand clicks.cells (.inner 1) := by rintro n ⟨⟩; rfl
  have hand' : AtHand clicks.cells (.scalar .null) := nofun
  obtain ⟨unchanged, _⟩ := set_lawful clicks mapping "auto"
  obtain ⟨_, found, _⟩ := set_lawful clicks mapping "source.topic"
  obtain ⟨_, _, frame⟩ := set_lawful clicks mapping "auto.offset.reset"
  have straight := straight_of_unshared source
  exact ⟨mapping, straight, reset, apart, apart', unchanged _ (by decide +kernel), (found straight).1 _,
    (frame reset _ apart).1 _, hand, hand', (frame reset _ apart').2 _ _ hand hand'⟩

/-- The settings in a file alone. -/
def settingsOf (path text : String) : Except Fault Settings :=
  Settings.Layers.settings { chosen := some ⟨path, .bytes text.toUTF8.toList⟩ }

/-- What is filed in a mapping that is held twice is found from both places, and the last value that is filed there is
    found. In a circle, what is filed on the way to itself is not found, and a second value goes elsewhere. -/
theorem shared_disturbed :
    (∃ s, settingsOf "shared.yaml" "a: &m {b: 1}\nc: *m\n" = .ok s ∧ Apart "a.b" "c.b" ∧
      s.find? "c.b" = some (.scalar (.int 1)) ∧
      (s.set "a.b" (.scalar (.int 2))).find? "c.b" = some (.scalar (.int 2)) ∧
      ((s.set "a.b" (.scalar (.int 2))).set "c.b" (.scalar (.int 3))).find? "a.b" = some (.scalar (.int 3)) ∧
      ((s.set "c.b" (.scalar (.int 3))).set "a.b" (.scalar (.int 2))).find? "a.b" = some (.scalar (.int 2))) ∧
    ∃ s, settingsOf "circle.yaml" "a: &m {b: *m}\n" = .ok s ∧
      (s.set "a.b.b" (.scalar (.int 1))).find? "a.b.b" = none ∧
      ((s.set "a.b.b" (.scalar (.int 1))).set "a.b.b" (.scalar (.int 2))).find? "a.b.b" = some (.scalar (.int 2)) ∧
      (s.set "a.b.b" (.scalar (.int 2))).find? "a.b.b" = none := by
  constructor
  · have told : (settingsOf "shared.yaml" "a: &m {b: 1}\nc: *m\n").toOption.any (fun s => decide (
        s.find? "c.b" = some (.scalar (.int 1)) ∧
        (s.set "a.b" (.scalar (.int 2))).find? "c.b" = some (.scalar (.int 2)) ∧
        ((s.set "a.b" (.scalar (.int 2))).set "c.b" (.scalar (.int 3))).find? "a.b" = some (.scalar (.int 3)) ∧
        ((s.set "c.b" (.scalar (.int 3))).set "a.b" (.scalar (.int 2))).find? "a.b" = some (.scalar (.int 2)))) = true := by
      decide +kernel
    obtain ⟨s, read, told⟩ := Traversal.ok_of_any told
    exact ⟨s, read, by unfold Apart Diverge; decide, of_decide_eq_true told⟩
  · have told : (settingsOf "circle.yaml" "a: &m {b: *m}\n").toOption.any (fun s => decide (
        (s.set "a.b.b" (.scalar (.int 1))).find? "a.b.b" = none ∧
        ((s.set "a.b.b" (.scalar (.int 1))).set "a.b.b" (.scalar (.int 2))).find? "a.b.b" = some (.scalar (.int 2)) ∧
        (s.set "a.b.b" (.scalar (.int 2))).find? "a.b.b" = none)) = true := by decide +kernel
    obtain ⟨s, read, told⟩ := Traversal.ok_of_any told
    exact ⟨s, read, of_decide_eq_true told⟩

end LogCursor.PathLaws
