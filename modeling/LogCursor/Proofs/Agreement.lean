import LogCursor.Planner
import LogCursor.Proofs.CheckpointGrammar
import LogCursor.Proofs.Polling
/-!
Planning from text agrees with a cycle over a client that reports what the text says. The two go separate ways
to their starts, by the reset strategy or from the checkpoint, and refuse a foreign checkpoint in words of
their own. They come to the same starts where there are heads (`starts_agree`), which is all that an
allocation reads (`close_congr`); so they plan the same ranges and the same checkpoint (`plan_agrees`).
-/
namespace LogCursor.Agreement
open LogCursor.Advance LogCursor.Allocation LogCursor.Checkpoint LogCursor.CheckpointReading
open LogCursor.CheckpointText LogCursor.ExactAllocation LogCursor.PartitionOrder LogCursor.Polling LogCursor.RoundTrip
variable {σ : Type}

/-- The offsets at each end of the logs. -/
def ends (heads earliest : OffsetMap) : Edge → OffsetMap
  | .earliest => earliest
  | .latest => heads

/-- Whatever its state, the client lists the partitions that have heads, and tells the offset at either end
    for any of them, zero where there is none. -/
structure Reports (client : Client σ) (topic : String) (heads earliest : OffsetMap) : Prop where
  listed : ∀ s, ∃ ps, (client.listPartitions topic s).1.result = .ok ps ∧ ∀ p, p ∈ ps ↔ p ∈ heads.partitions
  found : ∀ edge ps s, (∀ p ∈ ps, p ∈ heads.partitions) → ∃ m, (client.offsets edge ps s).1.result = .ok m ∧
    ∀ p ∈ ps, m.get? p = some ((ends heads earliest edge).offset p)

/-- The offsets of the given partitions, zero where there is none. -/
def table (m : OffsetMap) (ps : List Partition) : OffsetMap := .ofList (ps.map fun p => (p, m.offset p))

theorem entries_table (m : OffsetMap) {ps : List Partition} (distinct : ps.Nodup) :
    (table m ps).entries = ps.map fun p => (p, m.offset p) := by
  refine OffsetMap.entries_ofList ?_
  rw [List.map_map]
  simpa [Function.comp_def] using distinct

theorem offset_table (m : OffsetMap) {ps : List Partition} (distinct : ps.Nodup) {p : Partition}
    (member : p ∈ ps) : (table m ps).offset p = m.offset p := by
  refine OffsetMap.offset_of_mem ?_
  rw [entries_table m distinct]
  exact List.mem_map_of_mem (f := fun p => (p, m.offset p)) member

private theorem table_perm {m : OffsetMap} {ps : List Partition} (perm : ps.Perm m.partitions) :
    (table m ps).entries.Perm m.entries := by
  have again : m.partitions.map (fun p => (p, m.offset p)) = m.entries := OffsetMap.map_offset fun _ => id
  rw [entries_table m (perm.nodup_iff.mpr m.nodup_partitions)]
  exact again ▸ perm.map _

variable {client : Client σ} {source : Source} {heads earliest : OffsetMap} {ps : List Partition}

theorem call_result {α : Type} {c : Call} {answer : σ → Outcome α × σ} {kind : Kind} {wrap : Fault → Fault}
    {s : σ} {a : α} (answered : (answer s).1.result = .ok a) :
    (Cycle.call c answer kind wrap s).outcome.result = .ok a := by
  simp [Cycle.call, answered]

theorem bind_result {α β : Type} {x : Cycle σ α} {s : σ} {a : α} (first : (x s).outcome.result = .ok a)
    (f : α → Cycle σ β) : ((x >>= f) s).outcome.result = (f a (x s).state).outcome.result := by
  rw [Cycle.result_bind, first]
  rfl

private theorem list_result (reports : Reports client source.topic heads earliest) (some : heads.entries ≠ []) (s : σ) :
    ∃ ps, (Cycle.list client source.title s).outcome.result = .ok ps ∧ ps.Perm heads.partitions := by
  obtain ⟨ps, answered, same⟩ := reports.listed s
  have nonempty : ps.isEmpty = false := by
    obtain ⟨entry, member⟩ := List.exists_mem_of_ne_nil heads.entries some
    have listed := (same entry.1).mpr (List.mem_map_of_mem member)
    rw [List.isEmpty_eq_false_iff]
    exact List.ne_nil_of_mem listed
  refine ⟨ps.eraseDups.mergeSort Partition.precedes, ?_, ?_⟩
  · refine (bind_result (call_result answered) _).trans ?_
    simp only [nonempty]
    rfl
  · refine (List.mergeSort_perm _ _).trans ?_
    refine (List.perm_ext_iff_of_nodup (nodup_eraseDups ps) heads.distinct).mpr fun p => ?_
    rw [List.mem_eraseDups]
    exact same p

private theorem lookup_result (reports : Reports client source.topic heads earliest) (edge : Edge)
    (inside : ∀ p ∈ ps, p ∈ heads.partitions) (s : σ) :
    (Cycle.lookup client source.title edge ps s).outcome.result = .ok (table (ends heads earliest edge) ps) := by
  obtain ⟨m, answered, found⟩ := reports.found edge ps s inside
  obtain ⟨none, picked⟩ := Planning.select_found found
  refine (bind_result (call_result answered) _).trans ?_
  simp only [none, picked]
  rfl

private theorem resolve_result (reports : Reports client source.topic heads earliest) (edge : Edge)
    (distinct : ps.Nodup) (inside : ∀ p ∈ ps, p ∈ heads.partitions) (s : σ) :
    (Cycle.resolve client edge ps s).outcome.result = .ok (table (ends heads earliest edge) ps) := by
  obtain ⟨m, answered, found⟩ := reports.found edge ps s inside
  obtain ⟨none, picked⟩ := Planning.select_found found
  unfold Cycle.resolve
  rw [eraseDups_of_nodup distinct]
  refine (bind_result (call_result answered) _).trans ?_
  simp only [none, picked, List.mergeSort_nil]
  rfl

/-- The last stages of a plan, which its starts and heads decide. -/
def close (starts heads : OffsetMap) (budget : Int) : Except Fault (List Range × Summary) := do
  let ranges ← (allocate starts heads budget).result
  let summary ← Summary.ofRanges ranges
  return (ranges, summary)

/-- The last stages go by the heads, in any order, and by what is found for them. -/
theorem close_congr {starts starts' heads heads' : OffsetMap} {budget : Int} {batch : List Range × Summary}
    (named : ∀ p ∈ heads.partitions, ¬ Numeral.Overlong p.index) (perm : heads'.entries.Perm heads.entries)
    (same : ∀ p ∈ heads.partitions, starts'.offset p = starts.offset p)
    (closed : close starts heads budget = .ok batch) : close starts' heads' budget = .ok batch := by
  obtain ⟨rs, run, summed⟩ := Traversal.bind_ok_iff.mp closed
  rw [allocate_result named] at run
  have named' : ∀ p ∈ heads'.partitions, ¬ Numeral.Overlong p.index := fun p member =>
    named p ((perm.map Prod.fst).mem_iff.mp member)
  rw [close, allocate_result named', compute_congr run perm same]
  exact summed

/-- From starts that are not negative the last stages come to ranges that share the budget. -/
theorem close_allotted {topic : String} {starts : OffsetMap} {budget : Int} (nonneg : 0 ≤ budget)
    (recordable : Recordable topic heads) (nameable : Nameable topic)
    (startsNonneg : ∀ p ∈ heads.partitions, 0 ≤ starts.offset p) :
    ∃ rs summary, close starts heads budget = .ok (rs, summary) ∧ Allotted starts heads budget rs := by
  have named := named_of_recordable recordable
  obtain ⟨rs, run, allotted⟩ := compute_allotted ⟨nonneg, fun entry member => (recordable.own entry member).2,
    fun entry member => startsNonneg entry.1 (List.mem_map_of_mem member),
    fun entry member unnamed => named entry.1 (List.mem_map_of_mem member) unnamed.2⟩
  have summary := summary_of_order allotted.order (topic_of_own recordable.own) recordable.some nameable
    (short_of_allotted allotted recordable.short)
  have closed : close starts heads budget = .ok (rs, ⟨Range.total rs, write topic (pairs rs)⟩) := by
    rw [close, allocate_result named, run]
    show (Summary.ofRanges rs >>= _) = _
    rw [summary]
    rfl
  exact ⟨rs, _, closed, allotted⟩

/-- Both are refused, each with a fault about a text and both of one kind, or both succeed and are related. -/
inductive Agree {α β : Type} (R : α → β → Prop) : Except Fault α → Except Fault β → Prop
  | refused {e e' : Fault} (unreadable : Unreadable e) (unreadable' : Unreadable e') (kind : e.kind = e'.kind) :
      Agree R (.error e) (.error e')
  | related {a : α} {b : β} (related : R a b) : Agree R (.ok a) (.ok b)

theorem Agree.bind {α β γ δ : Type} {R : α → β → Prop} {S : γ → δ → Prop} {x : Except Fault α}
    {y : Except Fault β} {f : α → Except Fault γ} {g : β → Except Fault δ} (first : Agree R x y)
    (next : ∀ a b, R a b → Agree S (f a) (g b)) : Agree S (x >>= f) (y >>= g) := by
  cases first with
  | refused unreadable unreadable' kind => exact .refused unreadable unreadable' kind
  | related related => exact next _ _ related

theorem Agree.of_ok {α β : Type} {R : α → β → Prop} {x : Except Fault α} {y : Except Fault β} {a : α}
    (agree : Agree R x y) (ok : x = .ok a) : ∃ b, y = .ok b ∧ R a b := by
  cases agree with
  | refused => cases ok
  | related related => cases ok; exact ⟨_, rfl, related⟩

/-- A checkpoint is resumed by both or refused by both. -/
theorem resume_agree (title : Title) (text : String) :
    Agree (fun m m' => m' = m ∧ ∀ p, 0 ≤ m.offset p) (Planner.resume title.name text)
      (Cycle.resume title text) := by
  cases decoded : decode text with
  | error e =>
    have unreadable := decode_fault decoded
    simp only [Planner.resume, Cycle.resume, decoded]
    exact .refused unreadable unreadable rfl
  | ok m =>
    by_cases own : ∀ p ∈ m.partitions, p.topic = title.name
    · have none : m.partitions.any (fun p => decide (p.topic ≠ title.name)) = false :=
        List.any_eq_false.mpr fun p member => by simpa using own p member
      rw [Planning.resume_eq decoded own]
      simp only [Planner.resume, decoded, bind, Except.bind, none]
      exact .related ⟨rfl, offset_nonneg (decode_own decoded)⟩
    · -- The planner looks for any foreign partition, the cycle collects their topics.
      obtain ⟨p, foreign⟩ := not_forall.mp own
      obtain ⟨member, apart⟩ := Classical.not_imp.mp foreign
      have any : m.partitions.any (fun p => decide (p.topic ≠ title.name)) = true :=
        List.any_eq_true.mpr ⟨p, member, by simpa using apart⟩
      obtain ⟨topics, refused⟩ := Planning.resume_foreign decoded member apart
      rw [refused]
      simp only [Planner.resume, decoded, bind, Except.bind, any]
      exact .refused (.inl rfl) (.inl rfl) rfl

theorem untold_table (distinct : ps.Nodup) (m earliest : OffsetMap) :
    (∃ entry ∈ (table earliest ps).entries, Untold m entry) ↔
      ∃ p ∈ ps, m.offset p < earliest.offset p ∧ Numeral.Overlong p.index := by
  simp only [entries_table earliest distinct, List.mem_map, exists_exists_and_eq_and, Untold]

private theorem advance_table (distinct : ps.Nodup) (named : ∀ p ∈ ps, Writable p.index) (m earliest : OffsetMap) :
    (Retention.advanceReported m (table earliest ps)).result = .ok (advance m (table earliest ps)) := by
  rw [advanceReported_result, if_neg]
  rw [untold_table distinct]
  rintro ⟨p, listed, _, overlong⟩
  exact not_overlong_iff.mpr (named p listed) overlong

theorem planner_starts (source : Source) (checkpoint : Option String) (earliest : OffsetMap)
    (named : ∀ p ∈ heads.partitions, Writable p.index) :
    (Planner.starts source (checkpoint.getD "") heads earliest).result =
      if Reset.IsDue checkpoint then .ok (match source.edge with
        | .earliest => table earliest heads.partitions
        | .latest => heads)
      else (Planner.resume source.topic (checkpoint.getD "")).map fun m =>
        advance m (table earliest heads.partitions) := by
  have same : Reset.IsDue (some (checkpoint.getD "")) = Reset.IsDue checkpoint := rfl
  unfold Planner.starts
  simp only [same]
  by_cases due : Reset.IsDue checkpoint
  · rw [if_pos due, if_pos due]
    cases source.edge <;> rfl
  · rw [if_neg due, if_neg due, Outcome.result_bind]
    cases Planner.resume source.topic (checkpoint.getD "") with
    | error e => rfl
    | ok m => exact advance_table heads.nodup_partitions named m earliest

private theorem cycle_starts (reports : Reports client source.topic heads earliest) (checkpoint : Option String)
    (distinct : ps.Nodup) (named : ∀ p ∈ ps, Writable p.index) (inside : ∀ p ∈ ps, p ∈ heads.partitions) (s : σ) :
    (Cycle.starts client source checkpoint ps s).outcome.result =
      if Reset.IsDue checkpoint then .ok (table (ends heads earliest source.edge) ps)
      else (Cycle.resume source.title (checkpoint.getD "")).map fun m => advance m (table earliest ps) := by
  unfold Cycle.starts
  by_cases due : Reset.IsDue checkpoint
  · rw [if_pos due, if_pos due]
    exact resolve_result reports source.edge distinct inside s
  · rw [if_neg due, if_neg due, Cycle.result_bind]
    show (Cycle.resume source.title (checkpoint.getD "") >>= _) = _
    cases Cycle.resume source.title (checkpoint.getD "") with
    | error e => rfl
    | ok m =>
      refine (bind_result (lookup_result reports .earliest inside _) _).trans ?_
      exact advance_table distinct named m earliest

/-- Both come to the same starts where there are heads, or both are refused. -/
theorem starts_agree {topic : String} (reports : Reports client source.topic heads earliest)
    (own : Own topic heads) (ownEarliest : Own topic earliest)
    (named : ∀ p ∈ heads.partitions, Writable p.index) (checkpoint : Option String)
    (perm : ps.Perm heads.partitions) (s : σ) :
    Agree (fun m m' => ∀ p ∈ heads.partitions, m'.offset p = m.offset p ∧ 0 ≤ m.offset p)
      (Planner.starts source (checkpoint.getD "") heads earliest).result
      (Cycle.starts client source checkpoint ps s).outcome.result := by
  have distinct : ps.Nodup := perm.nodup_iff.mpr heads.nodup_partitions
  rw [planner_starts source checkpoint earliest named, cycle_starts reports checkpoint distinct
    (fun p member => named p (perm.mem_iff.mp member)) (fun p => perm.mem_iff.mp)]
  by_cases due : Reset.IsDue checkpoint
  · rw [if_pos due, if_pos due]
    refine .related fun p member => ?_
    rw [offset_table _ distinct (perm.mem_iff.mpr member)]
    cases source.edge with
    | earliest =>
      rw [offset_table earliest heads.nodup_partitions member]
      exact ⟨rfl, offset_nonneg ownEarliest p⟩
    | latest => exact ⟨rfl, offset_nonneg own p⟩
  · rw [if_neg due, if_neg due]
    refine (resume_agree source.title _).bind ?_
    rintro m _ ⟨rfl, nonneg⟩
    refine .related fun p member => ?_
    have position := nonneg p
    rw [offset_advance_eq position, offset_advance_eq position,
      offset_table earliest heads.nodup_partitions member, offset_table earliest distinct (perm.mem_iff.mpr member)]
    exact ⟨rfl, by omega⟩

theorem planner_result (source : Source) (r : Request) : (Planner.plan source r).result = do
    let heads ← Planner.offsets source.topic r.heads
    let earliest ← Planner.offsets source.topic r.earliest
    let starts ← (Planner.starts source r.checkpoint heads earliest).result
    let budget ← Planner.budget source r.budget
    let batch ← close starts heads budget
    return ⟨source.topic, budget, batch.1, batch.2⟩ := by
  unfold Planner.plan close
  simp only [Outcome.result_bind, bind_assoc, pure_bind]
  rfl

private theorem cycle_result (reports : Reports client source.topic heads earliest) (some : heads.entries ≠ [])
    (checkpoint : Option String) (limit : Int) (s : σ) :
    ∃ ps s', ps.Perm heads.partitions ∧ (Cycle.plan client source checkpoint limit s).outcome.result =
      ((Cycle.starts client source checkpoint ps s').outcome.result >>= fun starts =>
        close starts (table heads ps) (Cycle.budget source limit)) := by
  obtain ⟨ps, listed, perm⟩ := list_result reports some s
  refine ⟨ps, (Cycle.list client source.title s).state, perm, ?_⟩
  refine (bind_result listed _).trans ?_
  rw [Cycle.result_bind]
  refine bind_congr fun starts => ?_
  refine (bind_result (lookup_result reports .latest (fun p => perm.mem_iff.mp) _) _).trans ?_
  rw [Cycle.result_bind, close]
  refine bind_congr fun rs => ?_
  rw [Cycle.result_bind]
  rfl

theorem offsets_own {pairs : String} {m : OffsetMap} (read : Planner.offsets source.topic pairs = .ok m) :
    Own source.topic m := by
  unfold Planner.offsets at read
  split at read
  · cases read
    exact empty_own _
  · have own := decode_own read
    rwa [Source.topic, topicOf_join source.isTopic.2.1] at own

/-- Offsets that are read have numerals within the limit, and so have their partitions. -/
theorem offsets_short {topic pairs : String} {m : OffsetMap} (read : Planner.offsets topic pairs = .ok m) :
    ∀ entry ∈ m.entries, Writable entry.1.index ∧ Writable entry.2.toNat := by
  unfold Planner.offsets at read
  split at read
  · cases read
    exact fun entry member => nomatch member
  · exact CheckpointGrammar.writable_of_read read

theorem offsets_named {topic pairs : String} {m : OffsetMap} (read : Planner.offsets topic pairs = .ok m) :
    ∀ p ∈ m.partitions, Writable p.index := by
  intro p member
  obtain ⟨entry, inside, rfl⟩ := List.mem_map.mp member
  exact (offsets_short read entry inside).1

/-- What the planner is asked for where a cycle has a limit, or none of its own. -/
def asked : Option Int → Budget
  | none => .ofSource
  | some limit => .count limit

private theorem budget_asked (source : Source) (limit : Option Int) :
    Planner.budget source (asked limit) = .ok (Cycle.budget source (limit.getD source.cap)) := by
  cases limit <;> rfl

/-- A planner that is given heads and retained offsets as text, and a cycle over a client that reports them,
    refuse the same checkpoints, each with a fault of the same kind; from any other they plan the same ranges
    with the same summary. -/
theorem plan_agrees (source : Source) (client : Client σ) (s : σ) (headsText earliestText : String)
    (checkpoint : Option String) (limit : Option Int) (heads earliest : OffsetMap)
    (read : Planner.offsets source.topic headsText = .ok heads) (some : heads.entries ≠ [])
    (readEarliest : Planner.offsets source.topic earliestText = .ok earliest)
    (reports : Reports client source.topic heads earliest) :
    Agree (fun p batch => batch = (p.ranges, p.summary))
      (Planner.plan source ⟨headsText, checkpoint.getD "", earliestText, asked limit⟩).result
      (Cycle.plan client source checkpoint (limit.getD source.cap) s).outcome.result := by
  have recordable : Recordable source.topic heads := ⟨some, offsets_own read, offsets_short read⟩
  have named := named_of_recordable recordable
  have nonneg := Cycle.budget_nonneg source (limit.getD source.cap)
  obtain ⟨ps, s', perm, cycle⟩ := cycle_result reports some checkpoint (limit.getD source.cap) s
  have planner := planner_result source ⟨headsText, checkpoint.getD "", earliestText, asked limit⟩
  rw [read, readEarliest, budget_asked] at planner
  rw [planner, cycle]
  -- Past the starts nothing can fail: the heads are those of the topic, which can name a checkpoint.
  refine (starts_agree reports recordable.own (offsets_own readEarliest)
    (offsets_named read) checkpoint perm s').bind fun m m' same => ?_
  obtain ⟨rs, summary, closed, _⟩ := close_allotted nonneg recordable source.isTopic.2 fun p member => (same p member).2
  rw [close_congr named (table_perm perm) (fun p member => (same p member).1) closed]
  show Agree _ (close m heads _ >>= _) _
  rw [closed]
  exact .related rfl

/-- A client that knows some offsets and nothing else. -/
def teller (heads earliest : OffsetMap) : Client Unit where
  listPartitions _ _ := (.ok heads.partitions, ())
  offsets edge _ _ := (.ok (table (ends heads earliest edge) heads.partitions), ())
  fetch _ _ := (.ok [], ())

private theorem teller_reports (topic : String) (heads earliest : OffsetMap) :
    Reports (teller heads earliest) topic heads earliest := by
  refine ⟨fun _ => ⟨heads.partitions, rfl, fun _ => .rfl⟩, fun edge ps _ inside => ⟨_, rfl, fun p member => ?_⟩⟩
  rw [OffsetMap.get?_eq_some_iff, entries_table _ heads.nodup_partitions]
  exact List.mem_map_of_mem (inside p member)

/-- The head of one partition. -/
def known : OffsetMap := ⟨[(⟨"clicks", 3⟩, 9)], by decide⟩

/-- Its earliest retained offset, and that of a partition without a head. -/
def dropped : OffsetMap := ⟨[(⟨"clicks", 7⟩, 1), (⟨"clicks", 3⟩, 4)], by decide⟩

/-- Two records are asked for, from a position that is no longer retained. -/
def request : Request := ⟨"3:9", "clicks,3:1", "7:1,3:4", .count 2⟩

theorem plan_agrees_teller : Planner.offsets clicks.topic request.heads = .ok known ∧
    Planner.offsets clicks.topic request.earliest = .ok dropped ∧
    Reports (teller known dropped) clicks.topic known dropped ∧
    ∃ p, (Planner.plan clicks request).result = .ok p ∧ p.summary = ⟨2, "clicks,3:6"⟩ ∧
      (Cycle.plan (teller known dropped) clicks (some request.checkpoint) 2 ()).outcome.result =
        .ok (p.ranges, p.summary) := by
  have read : Planner.offsets clicks.topic request.heads = .ok known := rfl
  have readEarliest : Planner.offsets clicks.topic request.earliest = .ok dropped := rfl
  have reports := teller_reports clicks.topic known dropped
  have agree := plan_agrees clicks (teller known dropped) () request.heads request.earliest
    (some request.checkpoint) (some 2) known dropped read (by decide) readEarliest reports
  have summed : (Planner.plan clicks request).result.toOption.map Plan.summary = some ⟨2, "clicks,3:6"⟩ := by
    decide +kernel
  cases ran : (Planner.plan clicks request).result with
  | error e => rw [ran] at summed; cases summed
  | ok p =>
    rw [ran] at summed
    obtain ⟨_, cycled, rfl⟩ := agree.of_ok ran
    exact ⟨read, readEarliest, reports, p, rfl, Option.some.inj summed, cycled⟩

end LogCursor.Agreement
