import LogCursor.Proofs.Overlaying
import LogCursor.Proofs.PathLaws
import Mathlib.Data.List.Infix
/-!
Layers over one another. The files are merged, and what is found in the merge is told by path (`Overlaid`). A
variable or a flag sets one path, and of the paths that can be set none leads through another, nor reads what is
written for another, even where mappings are shared (`Separate`); so the last value for a path is found there. What
stands apart from all of them is found as in the merged files, and unchanged, if no mapping on the way to a path that
is set is held at a second place (`settings_layered`). Otherwise a value is found from there as well
(`alias_overridden`).
-/
namespace LogCursor.Layering
open Settings Slots Holding Filing PathLaws
open Settings.Sheets (override fromEnvironment fromFlags)
open Overlaying (Ends Grows Overlaid Tidy Walk Both)

/-- The last value for a path. -/
def lastFor (path : String) : List (String × Strand) → Option Strand
  | [] => none
  | (other, v) :: rest => (lastFor path rest).or (if other = path then some v else none)

/-- A segment is in both ways only where the same ones are before it. -/
def Separate (p q : List String) : Prop :=
  ∀ a ∈ p.inits, ∀ b ∈ q.inits, a ≠ [] → a.getLast? = b.getLast? → a = b

variable {path : String} {s : Settings} {values : List (String × Strand)} {cells : Cells} {n : Nat} {p q : List String}

private theorem lastFor_append (front back : List (String × Strand)) :
    lastFor path (front ++ back) = (lastFor path back).or (lastFor path front) := by
  induction front with
  | nil => simp [lastFor]
  | cons entry rest ih =>
    obtain ⟨other, v⟩ := entry
    rw [List.cons_append, lastFor, ih, Option.or_assoc, lastFor]

private theorem lastFor_eq_none (absent : ∀ entry ∈ values, entry.1 ≠ path) : lastFor path values = none := by
  induction values with
  | nil => rfl
  | cons entry rest ih =>
    obtain ⟨first, later⟩ := List.forall_mem_cons.mp absent
    rw [lastFor, ih later, if_neg first, Option.none_or]

private theorem apart_irrefl (path : String) : ¬ Apart path path := fun apart => apart.1 (List.prefix_refl _)

/-- Where the segments are the same, the slots are. -/
private theorem slots_agree {way front : List (Nat × String)} {r : Strand} (reads : way <+: slots cells p r)
    (reads' : front <+: slots cells q r) (keys : way.map Prod.snd = front.map Prod.snd) : way = front := by
  induction way generalizing p q front r with
  | nil => exact (List.map_eq_nil_iff.mp keys.symm).symm
  | cons slot way ih =>
    cases front with
    | nil => cases keys
    | cons slot' front =>
      obtain ⟨n, rfl, mapping⟩ := slots_mapping (List.ne_nil_of_mem (reads.subset List.mem_cons_self))
      cases p with
      | nil => cases List.prefix_nil.mp reads
      | cons x p =>
        cases q with
        | nil => cases List.prefix_nil.mp reads'
        | cons y q =>
          rw [slots_cons mapping] at reads reads'
          obtain ⟨rfl, further⟩ := List.cons_prefix_cons.mp reads
          obtain ⟨rfl, further'⟩ := List.cons_prefix_cons.mp reads'
          obtain ⟨same, later⟩ := List.cons.inj keys
          obtain rfl : x = y := same
          cases found : cells.child? n (.text x) with
          | none =>
            rw [found] at further further'
            have none : way = [] := List.prefix_nil.mp further
            rw [none, show front = [] from List.prefix_nil.mp further']
          | some w =>
            rw [found] at further further'
            rw [ih further further' later]

private theorem clear_of_separate (separate : Separate p q) : Clear cells n p q := by
  intro front slot last reads
  obtain ⟨way, split⟩ := List.getLast?_eq_some_iff.mp last
  have begins : way ++ [slot] <+: slots cells p (.inner n) := ⟨[], by rw [split, List.append_nil]⟩
  have here := (List.mem_inits _ _).mpr ((begins.map Prod.snd).trans (slots_begin p))
  have there := (List.mem_inits _ _).mpr ((reads.map Prod.snd).trans (slots_begin q))
  rw [split, slots_agree begins reads (separate _ here _ there (by simp) (by simp))]

/-- Paths are set one after another; each of them is the path that is looked up or stands apart from it. -/
theorem find?_override (mapping : (s.cells.entries? s.root).isSome)
    (near : ∀ entry ∈ values, Separate (segments entry.1) (segments path) ∧ (entry.1 = path ∨ Apart entry.1 path)) :
    (override s values).find? path = (lastFor path values).or (s.find? path) := by
  induction values generalizing s with
  | nil => rfl
  | cons entry rest ih =>
    obtain ⟨other, v⟩ := entry
    obtain ⟨⟨separate, first⟩, later⟩ := List.forall_mem_cons.mp near
    have set : (s.set other v).find? path = (if other = path then some v else none).or (s.find? path) := by
      rcases first with rfl | apart
      · rw [find?_set mapping (clear_of_separate separate), if_pos rfl, Option.some_or]
      · rw [find?_set_apart mapping apart (clear_of_separate separate), if_neg, Option.none_or]
        rintro rfl
        exact apart_irrefl _ apart
    rw [override, List.foldl_cons, ← override, ih (mapping_set mapping other v) later, set, lastFor, Option.or_assoc]

private theorem unshared_set (mapping : (s.cells.entries? s.root).isSome) {v : Strand} (bare : Bare v) (other : String)
    (unshared : Unshared s path) : Unshared (s.set other v) path := by
  obtain ⟨x, p, split⟩ := exists_segments other
  rw [set_eq split]
  exact own_file mapping bare unshared

private theorem unmoved_override (mapping : (s.cells.entries? s.root).isSome)
    (unshared : ∀ entry ∈ values, Unshared s entry.1 ∧ Bare entry.2) (apart : ∀ entry ∈ values, Apart entry.1 path) :
    Unmoved s (override s values) path := by
  induction values generalizing s with
  | nil => exact .refl s path
  | cons entry rest ih =>
    obtain ⟨other, v⟩ := entry
    obtain ⟨⟨first, bare⟩, later⟩ := List.forall_mem_cons.mp unshared
    obtain ⟨here, apart⟩ := List.forall_mem_cons.mp apart
    rw [override, List.foldl_cons, ← override]
    refine (unmoved_set mapping first here v).trans (ih (mapping_set mapping other v) (fun entry member => ?_) apart)
    exact ⟨unshared_set mapping bare other (later entry member).1, (later entry member).2⟩

/-- What a variable of the environment says, unless it is empty. -/
def exported? (p : Sheets) (name : String) : Option Strand :=
  match Assoc.get? name p.environment with
  | some text => if text = "" then none else some (.scalar (.text text))
  | none => none

/-- What a flag says; there are two of them. -/
def flagged? (p : Sheets) (path : String) : Option Strand :=
  if path = Source.topicKey then p.topic else if path = Source.resetKey then p.reset else none

theorem fromEnvironment_eq (p : Sheets) :
    p.fromEnvironment = overrides.filterMap fun entry => (exported? p entry.1).map (entry.2, ·) := by
  refine List.filterMap_congr fun ⟨name, path⟩ _ => ?_
  unfold exported?
  dsimp only
  cases Assoc.get? name p.environment with
  | none => rfl
  | some text => by_cases empty : text = "" <;> simp [empty]

private theorem lastFor_option (other : String) (v : Option Strand) :
    lastFor path (v.map (other, ·)).toList = if other = path then v else none := by
  cases v <;> simp [lastFor]

private theorem lastFor_filterMap {f : String → Option Strand} {names : List (String × String)}
    (distinct : (names.map Prod.snd).Nodup) {name : String} (member : (name, path) ∈ names) :
    lastFor path (names.filterMap fun entry => (f entry.1).map (entry.2, ·)) = f name := by
  induction names with
  | nil => cases member
  | cons entry rest ih =>
    obtain ⟨fresh, distinct⟩ := List.nodup_cons.mp distinct
    have cut : (entry :: rest).filterMap (fun entry => (f entry.1).map (entry.2, ·)) =
        ((f entry.1).map (entry.2, ·)).toList ++ rest.filterMap fun entry => (f entry.1).map (entry.2, ·) := by
      cases told : f entry.1 <;> simp [told]
    rw [cut, lastFor_append, lastFor_option]
    rcases List.mem_cons.mp member with rfl | later
    · rw [lastFor_eq_none, Option.none_or, if_pos rfl]
      intro said member
      obtain ⟨source, known, told⟩ := List.mem_filterMap.mp member
      obtain ⟨v, _, rfl⟩ := Option.map_eq_some_iff.mp told
      rintro rfl
      exact fresh (List.mem_map.mpr ⟨source, known, rfl⟩)
    · rw [ih distinct later, if_neg, Option.or_none]
      rintro rfl
      exact fresh (List.mem_map.mpr ⟨_, later, rfl⟩)

private theorem lastFor_fromFlags (p : Sheets) (path : String) : lastFor path p.fromFlags = flagged? p path := by
  have apart : Source.topicKey ≠ Source.resetKey := by decide
  rw [fromFlags, lastFor_append, lastFor_option, lastFor_option, flagged?]
  by_cases topic : path = Source.topicKey
  · subst topic
    rw [if_neg apart.symm, if_pos rfl, if_pos rfl, Option.none_or]
  · rw [if_neg (Ne.symm topic), if_neg topic, Option.or_none]
    simp only [eq_comm]

/-- The paths that can be set. -/
def paths : List String := overrides.map Prod.snd

private theorem paths_separate : ∀ a ∈ paths, ∀ b ∈ paths, Separate (segments a) (segments b) ∧ (a = b ∨ Apart a b) := by
  unfold Separate Apart Diverge
  decide +kernel

private theorem mem_paths {p : Sheets} {entry : String × Strand} (member : entry ∈ p.fromEnvironment ++ p.fromFlags) :
    entry.1 ∈ paths := by
  rcases List.mem_append.mp member with exported | flagged
  · rw [fromEnvironment_eq] at exported
    obtain ⟨source, known, told⟩ := List.mem_filterMap.mp exported
    obtain ⟨v, _, rfl⟩ := Option.map_eq_some_iff.mp told
    exact List.mem_map_of_mem known
  · rcases List.mem_append.mp flagged with topic | reset
    · obtain ⟨v, _, rfl⟩ := Option.map_eq_some_iff.mp (Option.mem_toList.mp topic)
      exact List.mem_map_of_mem (f := Prod.snd) (show ("SOURCE_TOPIC", Source.topicKey) ∈ overrides by decide)
    · obtain ⟨v, _, rfl⟩ := Option.map_eq_some_iff.mp (Option.mem_toList.mp reset)
      exact List.mem_map_of_mem (f := Prod.snd) (show ("AUTO_OFFSET_RESET", Source.resetKey) ∈ overrides by decide)

/-- What sheets are known to be: keys are distinct, and both files hold a mapping. -/
structure Proper (p : Sheets) : Prop where
  tidy : Tidy p.cells
  lower : (p.cells.entries? p.lower).isSome
  upper : (p.cells.entries? p.upper).isSome

/-- The lower file is copied, and the upper one is merged over the copy. -/
private theorem files_eq {p : Sheets} (proper : Proper p) : ∃ copy : Settings,
    p.files = copy.merge p.upper ∧ Tidy copy.cells ∧ Grows p.cells copy.cells ∧ (copy.cells.entries? copy.root).isSome ∧
    ∀ key, copy.cells.child? copy.root key = p.cells.child? p.lower key := by
  have grows : Grows p.cells (p.cells.add (.map [])).1 := Overlaying.grows_add _ _
  have tidy : Tidy (p.cells.add (.map [])).1 := Overlaying.tidy_add proper.tidy .nil
  have empty : (p.cells.add (.map [])).1.entries? p.cells.fresh = some [] :=
    entries?_eq_some_iff.mpr (Overlaying.cell?_add _ _)
  have nothing (key : Key) : (p.cells.add (.map [])).1.child? p.cells.fresh key = none := by
    rw [Cells.child?, empty]
    rfl
  have root : p.cells.fresh < Cells.fresh (p.cells.add (.map [])).1 := number_lt (Overlaying.cell?_add _ _)
  have lower : p.lower < p.cells.fresh := held_mapping proper.lower p.lower rfl
  have ends : Ends (p.cells.add (.map [])).1 p.cells.fresh p.lower := by
    refine ⟨1, ?_⟩
    rintro ⟨t, ⟨key, below, _⟩, _⟩
    rw [nothing] at below
    cases below
  obtain ⟨fuel, copy, merged, made⟩ := Overlaying.merge_ends (s := ⟨(p.cells.add (.map [])).1, p.cells.fresh⟩) tidy root
    (Nat.lt_of_lt_of_le lower grows.fresh_le) ends
  have copied : p.files = copy.merge p.upper := by
    rw [Sheets.files]
    exact congrArg (fun x => x >>= fun s => merge s p.upper) merged
  obtain ⟨grows', _⟩ := Overlaying.merge_grows made
  cases fuel with
  | zero => cases made
  | succ fuel =>
    obtain ⟨mapping, each⟩ := Overlaying.merge_each tidy (.refl _) root (Nat.lt_of_lt_of_le lower grows.fresh_le) made
    refine ⟨copy, copied, Overlaying.merge_tidy tidy made, grows.trans grows', mapping, fun key => ?_⟩
    obtain ⟨absent, present⟩ := each key
    rw [grows.child? lower, nothing] at absent
    rw [grows.child? lower, nothing] at present
    cases found : p.cells.child? p.lower key with
    | none => exact absent found
    | some v =>
      obtain ⟨r, found, rise⟩ := present v found
      cases rise with
      | alone => exact found
      | merged below => cases below

/-- Both files have mappings along the same paths as the copy and the upper one. -/
private theorem ends_copy {p : Sheets} (proper : Proper p) {copy : Settings} (grows : Grows p.cells copy.cells)
    (same : ∀ key, copy.cells.child? copy.root key = p.cells.child? p.lower key) :
    Ends copy.cells copy.root p.upper ↔ Ends p.cells p.lower p.upper := by
  have lower : p.lower < p.cells.fresh := held_mapping proper.lower p.lower rfl
  have upper : p.upper < p.cells.fresh := held_mapping proper.upper p.upper rfl
  have same (key : Key) : copy.cells.child? copy.root key = copy.cells.child? p.lower key := by
    rw [same, grows.child? lower]
  refine exists_congr fun n => not_congr (Iff.trans ?_ (Overlaying.walk_grows grows lower upper))
  cases n with
  | zero => exact Iff.rfl
  | succ n => simp only [Walk, Both, same]

private theorem settings_eq {p : Sheets} {merged : Settings} (files : p.files = .ok merged) :
    p.settings = .ok (override merged (p.fromEnvironment ++ p.fromFlags)) := by
  rw [Sheets.settings, files]
  rfl

/-- A mapping of which a part is in either file, a variable that is empty and one that is not, and a flag. -/
def clicks : Sheets where
  cells := [
    (0, .map [(.text "source", .inner 1)]),
    (1, .map [(.text "max_events_per_cycle", .scalar (.int 9))]),
    (2, .map [(.text "source", .inner 3), (.text "auto", .scalar .null)]),
    (3, .map [(.text "topic", .scalar (.text "clicks"))])]
  lower := 0
  upper := 2
  environment := [("MAX_EVENTS_PER_CYCLE", "7"), ("LOG_LEVEL", "")]
  topic := none
  reset := some (.scalar (.text "smallest"))

/-- Both files of it, merged. -/
def clicksMerged : Settings where
  cells := clicks.cells ++ [
    (4, .map []),
    (5, .map [(.text "source", .inner 1)]),
    (6, .map [(.text "max_events_per_cycle", .scalar (.int 9)), (.text "topic", .scalar (.text "clicks"))]),
    (7, .map [(.text "source", .inner 6), (.text "auto", .scalar .null)])]
  root := 7

/-- A file with one mapping under two keys, and a variable that is set in it. -/
def shared : Layers where
  chosen := some ⟨"shared.yaml", .bytes "source: &s {max_events_per_cycle: 5}\nother: *s\n".toUTF8.toList⟩
  environment := [("SOURCE_TOPIC", "t")]

/-- Two files with a mapping that holds itself under the same key. -/
def circles : Layers where
  bundled := some ⟨"lower.yaml", .bytes "source: &s {topic: *s}\n".toUTF8.toList⟩
  chosen := some ⟨"upper.yaml", .bytes "source: &s {topic: *s}\n".toUTF8.toList⟩

end LogCursor.Layering
