import LogCursor.Proofs.Layering
/-!
Distinct keys. A mapping in a file has every key once, however deep it lies, since its entries are filed one by
one. The steps that fill cells keep this of all cells so far (`cells_sound`), and so does bringing the cells of files
together; hence what layers hold are proper sheets (`sheets_proper`).
-/
namespace LogCursor.DistinctKeys
open Yaml Yaml.Graph Slots Overlaying
open Traversal (bind_ok_iff)
open Settings (Layers Sheets)
open Layering (Proper)

/-- A cell has distinct keys. -/
def Fine : Cell → Prop
  | .map entries => Distinct entries
  | _ => True

/-- Every cell has distinct keys. -/
def Sound (cells : Cells) : Prop := ∀ entry ∈ cells, Fine entry.2

section
variable {α β : Type}

/-- A step whose result has a property, and that leaves every cell with distinct keys. -/
def Yields (P : α → Prop) (x : Build α) : Prop :=
  ∀ b a b', Sound b.cells → x.run b = .ok (a, b') → P a ∧ Sound b'.cells

/-- A step that leaves every cell with distinct keys. -/
abbrev Keeps (x : Build α) : Prop := Yields (fun _ => True) x

variable {P : α → Prop} {Q : β → Prop}

private theorem yields_pure {a : α} (holds : P a) : Yields P (pure a) := by
  intro b a' b' sound ran
  cases ran
  exact ⟨holds, sound⟩

private theorem yields_bind {x : Build α} {f : α → Build β} (first : Yields P x) (next : ∀ a, P a → Yields Q (f a)) :
    Yields Q (x >>= f) := by
  intro b a b' sound ran
  rw [StateT.run_bind] at ran
  cases went : x.run b with
  | error e => rw [went] at ran; cases ran
  | ok pair =>
    obtain ⟨c, mid⟩ := pair
    rw [went] at ran
    obtain ⟨holds, kept⟩ := first b c mid sound went
    exact next c holds mid a b' kept ran

private theorem keeps_bind {x : Build α} {f : α → Build β} (first : Keeps x) (next : ∀ a, Yields Q (f a)) :
    Yields Q (x >>= f) := yields_bind first fun a _ => next a

private theorem yields_throw (e : Problem) : Yields P (throw e : Build α) := by
  intro b a b' _ ran
  cases ran

private theorem keeps_get : Keeps (get : Build Builder) := by
  intro b a b' sound ran
  cases ran
  exact ⟨trivial, sound⟩

private theorem keeps_modify {f : Builder → Builder} (kept : ∀ b, Sound b.cells → Sound (f b).cells) :
    Keeps (modify f : Build PUnit) := by
  intro b a b' sound ran
  cases ran
  exact ⟨trivial, kept b sound⟩

private theorem keeps_lift (x : Except Problem α) : Keeps (liftM x : Build α) := by
  intro b a b' sound ran
  cases x with
  | error e => cases ran
  | ok c => cases ran; exact ⟨trivial, sound⟩

private theorem keeps_mapM {f : α → Build β} (each : ∀ a, Keeps (f a)) (xs : List α) : Keeps (xs.mapM f) := by
  induction xs with
  | nil => exact yields_pure trivial
  | cons x xs ih =>
    rw [List.mapM_cons]
    exact keeps_bind (each x) fun _ => keeps_bind ih fun _ => yields_pure trivial

private theorem yields_foldlM {f : β → α → Build β} (each : ∀ b a, Q b → Yields Q (f b a)) {start : β}
    (holds : Q start) (xs : List α) : Yields Q (xs.foldlM f start) := by
  induction xs generalizing start with
  | nil => exact yields_pure holds
  | cons x xs ih =>
    rw [List.foldlM_cons]
    exact yields_bind (each start x holds) fun _ holds => ih holds

private theorem keeps_forM {f : α → Build PUnit} (each : ∀ a, Keeps (f a)) (xs : List α) : Keeps (xs.forM f) := by
  induction xs with
  | nil => exact yields_pure trivial
  | cons x xs ih => exact keeps_bind (each x) fun _ => ih

end

private theorem scalar_keeps (n : Nat) (tag : Tag) : Keeps (Build.scalar n tag) := by
  unfold Build.scalar
  refine keeps_bind keeps_get fun b => ?_
  dsimp only
  split
  · exact yields_throw _
  · split
    · exact keeps_lift _
    · exact keeps_bind keeps_get fun _ => keeps_bind (keeps_lift _) fun _ => yields_pure trivial

private theorem strand_keeps (n : Nat) : Keeps (Build.strand n) := by
  have noted : ∀ s : Strand, Keeps (do
      modify fun b : Builder => { b with found := b.found.setIfInBounds n (some s) }
      pure s : Build Strand) := fun s => keeps_bind (keeps_modify fun _ sound => sound) fun _ => yields_pure trivial
  have queued : Keeps (modify fun b : Builder => { b with waiting := n :: b.waiting }) :=
    keeps_modify fun _ sound => sound
  unfold Build.strand
  refine keeps_bind keeps_get fun b => ?_
  split
  · exact yields_pure trivial
  · refine keeps_bind keeps_get fun b => ?_
    dsimp only
    split
    all_goals first
      | exact keeps_bind queued fun _ => noted _
      | exact keeps_bind (scalar_keeps n _) noted

private theorem key_keeps (n : Nat) : Keeps (Build.key n) := by
  refine keeps_bind (strand_keeps n) fun s => ?_
  cases s with
  | scalar k => exact yields_pure trivial
  | _ => exact yields_throw _

private theorem entries_yields (n : Nat) : Yields Distinct (Build.entries n) := by
  have filed : ∀ (found : List (Key × Strand)) (entry : Nat × Nat), Distinct found → Yields Distinct (do
      let k ← Build.key entry.1
      return Assoc.put k (← Build.strand entry.2) found) := fun found entry distinct =>
    keeps_bind (key_keeps _) fun k => keeps_bind (strand_keeps _) fun _ => yields_pure (distinct_put k _ distinct)
  unfold Build.entries
  refine keeps_bind keeps_get fun b => ?_
  dsimp only
  split
  · exact yields_bind (P := fun _ => False) (yields_throw _) fun _ never => never.elim
  · refine keeps_bind keeps_get fun b => keeps_bind keeps_get fun b' => keeps_bind (keeps_lift _) fun g => ?_
    exact keeps_bind (keeps_modify fun _ sound => sound) fun _ => yields_foldlM filed .nil _

private theorem single_keeps (n : Nat) : Keeps (Build.single n) := by
  refine keeps_bind keeps_get fun b => ?_
  split
  · exact keeps_bind (strand_keeps _) fun _ => keeps_bind (strand_keeps _) fun _ => yields_pure trivial
  · exact yields_throw _

private theorem items_keeps (n : Nat) : Keeps (Build.items n) := by
  refine keeps_bind keeps_get fun b => ?_
  split
  · exact yields_pure trivial
  · exact yields_throw _

private theorem cell_yields (n : Nat) : Yields Fine (Build.cell n) := by
  unfold Build.cell
  refine keeps_bind keeps_get fun b => ?_
  split
  · exact yields_bind (entries_yields n) fun _ distinct => yields_pure distinct
  · exact yields_bind (entries_yields n) fun _ _ => yields_pure trivial
  · exact keeps_bind (items_keeps n) fun _ => keeps_bind (keeps_mapM single_keeps _) fun _ => yields_pure trivial
  · exact keeps_bind (items_keeps n) fun _ => keeps_bind (keeps_mapM strand_keeps _) fun _ => yields_pure trivial

private theorem fill_keeps (fuel : Nat) : Keeps (Build.fill fuel) := by
  induction fuel with
  | zero => exact yields_pure trivial
  | succ fuel ih =>
    have row : ∀ n, Keeps (do
        let c ← Build.cell n
        modify fun b => { b with cells := (n, c) :: b.cells }) := fun n =>
      yields_bind (cell_yields n) fun c fine => keeps_modify fun b sound => by
        intro entry member
        rcases List.mem_cons.mp member with rfl | old
        · exact fine
        · exact sound entry old
    unfold Build.fill
    refine keeps_bind keeps_get fun b => ?_
    dsimp only
    split
    · exact yields_pure trivial
    · exact keeps_bind (keeps_modify fun _ sound => sound) fun _ => keeps_bind (keeps_forM row _) fun _ => ih

private theorem cells_sound {g : Graph} {document : String} {root : Nat} {s : Strand} {cells : Cells}
    (filled : g.cells document root = .ok (s, cells)) : Sound cells := by
  have run : Keeps (do
      let s ← Build.strand root
      Build.fill (g.size + 1)
      return s) :=
    keeps_bind (strand_keeps root) fun _ => keeps_bind (fill_keeps _) fun _ => yields_pure trivial
  simp only [Graph.cells] at filled
  obtain ⟨⟨s', b⟩, ran, same⟩ := bind_ok_iff.mp filled
  cases same
  exact (run _ _ _ (by nofun) ran).2

private theorem sound_tidy {cells : Cells} (sound : Sound cells) : Tidy cells :=
  tidy_of_mem fun entry member entries same => by
    have fine := sound entry member
    rwa [same] at fine

/-- A file holds a mapping, and every mapping in it has distinct keys. -/
theorem mapping_sound {f : Settings.File} {k : Knot} (read : f.mapping = .ok k) :
    Sound k.cells ∧ (k.cells.entries? k.here).isSome := by
  obtain ⟨⟨v, cells⟩, value, read⟩ := bind_ok_iff.mp read
  have sound : Sound cells := by
    obtain ⟨bytes, _, value⟩ := bind_ok_iff.mp value
    dsimp only at value
    split at value
    · rename_i found
      cases value
      obtain ⟨⟨g, root⟩, _, found⟩ := bind_ok_iff.mp found
      cases root with
      | none =>
        cases found
        nofun
      | some root => exact cells_sound found
    · cases value
    · cases value
  split at read
  · cases read
    exact ⟨by simp [Sound, Fine, Distinct], rfl⟩
  · rename_i v' cells' _ same
    cases same
    split at read
    · rename_i n mapping
      cases read
      exact ⟨sound, (mapping?_eq_some_iff.mp mapping).2⟩
    · cases read

variable {cells : Cells} {k : Knot}

private theorem absorb_eq (cells : Cells) (k : Knot) : cells.absorb k =
    (cells ++ k.cells.map fun entry => (cells.fresh + entry.1, entry.2.renumber (cells.fresh + ·)),
      cells.fresh + k.here) := rfl

private theorem fine_renumber {c : Cell} (fine : Fine c) (number : Nat → Nat) : Fine (c.renumber number) := by
  cases c with
  | map entries => exact List.pairwise_map.mpr fine
  | _ => trivial

private theorem absorb_sound (sound : Sound cells) (sound' : Sound k.cells) : Sound (cells.absorb k).1 := by
  intro entry member
  rw [absorb_eq] at member
  rcases List.mem_append.mp member with old | new
  · exact sound entry old
  · obtain ⟨other, known, rfl⟩ := List.mem_map.mp new
    exact fine_renumber (sound' other known) _

private theorem cell?_shift (base n : Nat) (number : Nat → Nat) (cells : Cells) :
    Cells.cell? (cells.map fun entry => (base + entry.1, entry.2.renumber number)) (base + n) =
      (cells.cell? n).map (Cell.renumber number) := by
  induction cells with
  | nil => rfl
  | cons entry rest ih =>
    rw [List.map_cons, Cells.cell?, Assoc.get?_cons, ← Cells.cell?, ih, Cells.cell?, Cells.cell?, Assoc.get?_cons]
    by_cases same : entry.1 = n
    · simp [same]
    · simp [same]

private theorem absorb_mapping (cells : Cells) (mapping : (k.cells.entries? k.here).isSome) :
    ((cells.absorb k).1.entries? (cells.absorb k).2).isSome := by
  obtain ⟨entries, maps⟩ := Option.isSome_iff_exists.mp mapping
  have found : (cells.absorb k).1.cell? (cells.absorb k).2 =
      some ((Cell.map entries).renumber (cells.fresh + ·)) := by
    rw [absorb_eq, cell?_append_new (Nat.le_add_right _ _), cell?_shift, entries?_eq_some_iff.mp maps, Option.map_some]
  rw [entries?_eq_some_iff.mpr found]
  rfl

private theorem absorb_kept {n : Nat} (mapping : (cells.entries? n).isSome) : ((cells.absorb k).1.entries? n).isSome := by
  obtain ⟨entries, maps⟩ := Option.isSome_iff_exists.mp mapping
  have beyond : ∀ entry ∈ k.cells.map fun entry => (cells.fresh + entry.1, entry.2.renumber (cells.fresh + ·)),
      cells.fresh ≤ entry.1 := by
    intro entry member
    obtain ⟨entry, _, rfl⟩ := List.mem_map.mp member
    exact Nat.le_add_right _ _
  rw [absorb_eq, entries?_congr (cell?_append (number_lt (entries?_eq_some_iff.mp maps)) beyond)]
  exact mapping

private theorem optional_sound {f : Option Settings.File} (read : Layers.optional f = .ok k) :
    Sound k.cells ∧ (k.cells.entries? k.here).isSome := by
  cases f with
  | none =>
    cases read
    exact ⟨by simp [Sound, Fine, Distinct], rfl⟩
  | some f => exact mapping_sound read

/-- A flag that says a text needs no cells. -/
theorem layFlag_text (cells : Cells) {flag : Option Setting} (text : ∀ v, flag = some v → ∃ s, v = .text s) :
    (Layers.layFlag cells flag).1 = cells ∧ ∀ v, (Layers.layFlag cells flag).2 = some v → Holding.Bare v := by
  cases flag with
  | none => exact ⟨rfl, nofun⟩
  | some v =>
    obtain ⟨s, rfl⟩ := text v rfl
    exact ⟨rfl, by rintro v ⟨⟩ n ⟨⟩⟩

/-- What layers hold whose flags are texts: proper sheets, with values of variables and flags that are no
    collections. -/
theorem sheets_proper {l : Layers} {p : Sheets} (topic : ∀ v, l.topic = some v → ∃ s, v = .text s)
    (reset : ∀ v, l.reset = some v → ∃ s, v = .text s) (read : l.sheets = .ok p) :
    Proper p ∧ ∀ entry ∈ p.fromEnvironment ++ p.fromFlags, Holding.Bare entry.2 := by
  obtain ⟨lower, bundled, read⟩ := bind_ok_iff.mp read
  obtain ⟨sound, mapping⟩ := optional_sound bundled
  have below := absorb_sound (show Sound [] from nofun) sound
  have here := absorb_mapping [] mapping
  cases one : Cells.absorb [] lower with
  | mk cells n =>
  rw [one] at read below here
  obtain ⟨upper, chosen, read⟩ := bind_ok_iff.mp read
  obtain ⟨sound', mapping'⟩ := optional_sound chosen
  have above := absorb_sound below sound'
  have here' := absorb_mapping cells mapping'
  have stays := absorb_kept (k := upper) here
  cases two : cells.absorb upper with
  | mk cells n' =>
  rw [two] at read above here' stays
  dsimp only at read
  obtain ⟨same, bare⟩ := layFlag_text cells topic
  cases three : Layers.layFlag cells l.topic with
  | mk cells t =>
  rw [three] at read same bare
  dsimp only at read
  obtain rfl := same
  obtain ⟨same, bare'⟩ := layFlag_text cells reset
  cases four : Layers.layFlag cells l.reset with
  | mk cells r =>
  rw [four] at read same bare'
  obtain rfl := same
  cases read
  refine ⟨⟨?_, ?_, ?_⟩, fun entry member => ?_⟩
  · exact sound_tidy above
  · exact stays
  · exact here'
  · rcases List.mem_append.mp member with exported | flagged
    · rw [Layering.fromEnvironment_eq] at exported
      obtain ⟨source, _, told⟩ := List.mem_filterMap.mp exported
      obtain ⟨v, said, rfl⟩ := Option.map_eq_some_iff.mp told
      rw [Layering.exported?] at said
      split at said
      · split at said
        · cases said
        · cases said
          exact nofun
      · cases said
    · rcases List.mem_append.mp flagged with topic | reset
      · obtain ⟨v, said, rfl⟩ := Option.map_eq_some_iff.mp (Option.mem_toList.mp topic)
        exact bare v said
      · obtain ⟨v, said, rfl⟩ := Option.map_eq_some_iff.mp (Option.mem_toList.mp reset)
        exact bare' v said

end LogCursor.DistinctKeys
