import LogCursor.Proofs.Stages
/-!
Checkpoints of another topic. A text says which topic it is for before its first separator, but it is the
topics of the offsets read from it that are checked. So a foreign checkpoint with offsets is refused, and so is
one that cannot be read (`foreign_refused`). A bare name has no offsets (`decode_bare_iff`). Whatever topic it
names, it passes for a checkpoint of any other, which is then planned to be read again from the first record
that is retained.
-/
namespace LogCursor.ForeignCheckpoint
open LogCursor.Agreement LogCursor.Allocation LogCursor.Answers LogCursor.Checkpoint LogCursor.CheckpointGrammar
open LogCursor.CheckpointReading LogCursor.ExactAllocation LogCursor.History LogCursor.Planning
open LogCursor.PartitionOrder LogCursor.Polling

/-- A checkpoint that does not begin with the topic. -/
structure Foreign (topic text : String) : Prop where
  given : text ≠ ""
  apart : topicOf text ≠ topic

/-- How a text is refused: for the length of a numeral where its first pair in error overruns the limit, and for
    its form in every other case. -/
inductive Refusal (text : String) : Fault → Prop
  | form {e : Fault} (within : ∀ count, ¬ Overruns text count) (form : e.kind = .format) : Refusal text e
  | length {count : Nat} (overruns : Overruns text count) : Refusal text (.overlongNumeral count)

variable {σ : Type} {client : Client σ} {s s' : σ} {b : Broker} {source : Source} {title : Title}
  {text topic : String} {m heads earliest : OffsetMap} {e : Fault} {r : Request}

private theorem refusal_of_fault (refused : decode text = .error e) : Refusal text e := by
  rcases decode_fault refused with form | ⟨count, rfl⟩
  · refine .form (fun count overruns => ?_) form
    rw [decode_overlong_iff.mpr overruns] at refused
    cases refused
    cases form
  · exact .length (decode_overlong_iff.mp refused)

private theorem refusal_of_read (read : decode text = .ok m) (form : e.kind = .format) : Refusal text e := by
  refine .form (fun count overruns => ?_) form
  rw [decode_overlong_iff.mpr overruns] at read
  cases read

/-- Bare names are the only texts without offsets. -/
theorem decode_bare_iff (given : text ≠ "") : decode text = .ok ∅ ↔ Nameable text := by
  constructor
  · intro read
    have spells : Spells text (∅ : OffsetMap).entries := decode_ok_iff.mp ⟨∅, read, rfl⟩
    generalize none : (∅ : OffsetMap).entries = entries at spells
    cases spells with
    | empty => exact absurd rfl given
    | pairs sound =>
      cases List.map_eq_nil_iff.mp none.symm
      simpa [body] using sound.nameable
  · intro nameable
    have sound : Sound text [] := ⟨given, nameable, by simp, List.nodup_nil⟩
    obtain ⟨m, read, none⟩ := decode_ok_iff.mpr (.pairs sound)
    have empty : m = ∅ := OffsetMap.eq_of_entries none
    simpa [body, empty] using read

/-- A foreign checkpoint that is read, and is no bare name, has an offset of another topic. -/
theorem exists_foreign (foreign : Foreign topic text) (more : ¬ Nameable text) (read : decode text = .ok m) :
    ∃ p ∈ m.partitions, p.topic ≠ topic := by
  have some : m.entries ≠ [] := by
    intro none
    have empty : m = ∅ := OffsetMap.eq_of_entries none
    exact more ((decode_bare_iff foreign.given).mp (empty ▸ read))
  obtain ⟨entry, member⟩ := List.exists_mem_of_ne_nil _ some
  refine ⟨entry.1, List.mem_map_of_mem member, ?_⟩
  rw [(decode_own read entry member).1]
  exact foreign.apart

private theorem cycle_refuses (foreign : Foreign title.name text) (more : ¬ Nameable text) :
    ∃ e, Cycle.resume title text = .error e ∧ Refusal text e := by
  cases read : decode text with
  | error e =>
    refine ⟨e, ?_, refusal_of_fault read⟩
    rw [Cycle.resume, read]
    rfl
  | ok m =>
    obtain ⟨p, member, apart⟩ := exists_foreign foreign more read
    obtain ⟨topics, refused⟩ := resume_foreign read member apart
    exact ⟨_, refused, refusal_of_read read rfl⟩

private theorem planner_refuses (foreign : Foreign topic text) (more : ¬ Nameable text) :
    ∃ e, Planner.resume topic text = .error e ∧ Refusal text e := by
  cases read : decode text with
  | error e =>
    refine ⟨e, ?_, refusal_of_fault read⟩
    rw [Planner.resume, read]
    rfl
  | ok m =>
    obtain ⟨p, member, apart⟩ := exists_foreign foreign more read
    have any : m.partitions.any (fun p => decide (p.topic ≠ topic)) = true :=
      List.any_eq_true.mpr ⟨p, member, by simpa using apart⟩
    refine ⟨.foreignCheckpoint topic, ?_, refusal_of_read read rfl⟩
    simp only [Planner.resume, read, bind, Except.bind, any]
    rfl

private theorem plan_of_refused (mirrors : Mirrors client s b s') (known : 0 < count b source.topic)
    (given : text ≠ "") (refused : Cycle.resume source.title text = .error e) (limit : Int) :
    (Cycle.plan client source (some text) limit s).outcome.result = .error e := by
  have listed := congrArg (fun t => t.outcome.result) (list_eq mirrors known)
  -- The checkpoint is read before any offset is looked up, whatever the listing was.
  have started : ∀ ps s, (Cycle.starts client source (some text) ps s).outcome.result = .error e := by
    intro ps s
    unfold Cycle.starts
    rw [if_neg (show ¬ Reset.IsDue (some text) from given), Cycle.result_bind]
    show (Cycle.resume source.title text >>= _) = _
    rw [refused]
    rfl
  refine (bind_result listed _).trans ?_
  rw [Cycle.result_bind, started]
  rfl

/-- From a bare name the topic is planned to be read from the first records that are retained. -/
theorem plan_of_bare (mirrors : Mirrors client s b s) (numbered : Numbered b) (known : 0 < count b source.topic)
    (given : text ≠ "") (bare : Nameable text) (limit : Int) :
    ∃ rs summary, (Cycle.plan client source (some text) limit s).outcome.result = .ok (rs, summary) ∧
      rs.map Range.partition = listing source.topic (count b source.topic) ∧
      ∀ r ∈ rs, r.start = edgeOf b .earliest r.partition := by
  have reads : Reads source.topic (some text) (some ∅) :=
    ⟨given, (decode_bare_iff given).mpr bare, fun p member => by cases member⟩
  obtain ⟨ns, rs, planned, plan⟩ := plan_eq mirrors mirrors mirrors known (Nat.le_refl _) (Nat.le_refl _)
    (writable_count numbered source.topic) (fun p _ => writable_edge numbered .latest p) reads limit
  refine ⟨rs, _, by rw [planned], plan.partitions, fun r member => ?_⟩
  have start := plan.start r member
  have within := edgeOf_le_latest b .earliest r.partition
  have none : (∅ : OffsetMap).offset r.partition = 0 := rfl
  simp only [firstOffset, startAt, none] at start
  omega

private theorem told_of_resume (read : Planner.offsets source.topic r.heads = .ok heads)
    (readEarliest : Planner.offsets source.topic r.earliest = .ok earliest) (given : r.checkpoint ≠ "") :
    (Planner.plan source r).result = (Planner.resume source.topic r.checkpoint >>= fun m => do
      let budget ← Planner.budget source r.budget
      let batch ← close (Advance.advance m (table earliest heads.partitions)) heads budget
      return ⟨source.topic, budget, batch.1, batch.2⟩) := by
  have started := planner_starts source (some r.checkpoint) earliest (offsets_named read)
  rw [if_neg (show ¬ Reset.IsDue (some r.checkpoint) from given)] at started
  change (Planner.starts source r.checkpoint heads earliest).result =
    (Planner.resume source.topic r.checkpoint).map _ at started
  rw [planner_result, read, readEarliest]
  show ((Planner.starts source r.checkpoint heads earliest).result >>= _) = _
  rw [started]
  cases Planner.resume source.topic r.checkpoint <;> rfl

/-- The planner, too, begins with what is retained. -/
theorem told_of_bare (read : Planner.offsets source.topic r.heads = .ok heads)
    (readEarliest : Planner.offsets source.topic r.earliest = .ok earliest) (given : r.checkpoint ≠ "")
    (bare : Nameable r.checkpoint) (some : heads.entries ≠ []) (number : r.budget ≠ .list) :
    ∃ p, (Planner.plan source r).result = .ok p ∧ (p.ranges.map Range.partition).Perm heads.partitions ∧
      ∀ q ∈ p.ranges, (q.start : Int) = min (earliest.offset q.partition) (heads.offset q.partition) := by
  have resumed : Planner.resume source.topic r.checkpoint = .ok ∅ := by
    rw [Planner.resume, (decode_bare_iff given).mpr bare]
    rfl
  obtain ⟨budget, asked, nonneg⟩ : ∃ budget, Planner.budget source r.budget = .ok budget ∧ 0 ≤ budget := by
    cases asked : r.budget with
    | ofSource => exact ⟨_, rfl, Cycle.budget_nonneg _ _⟩
    | count n => exact ⟨_, rfl, Cycle.budget_nonneg _ _⟩
    | list => exact absurd asked number
  have starts : ∀ p ∈ heads.partitions,
      (Advance.advance ∅ (table earliest heads.partitions)).offset p = earliest.offset p := by
    intro p member
    have none : (∅ : OffsetMap).offset p = 0 := rfl
    rw [Advance.offset_advance_eq (Int.le_of_eq none.symm), none,
      offset_table earliest heads.nodup_partitions member,
      Int.max_eq_right (offset_nonneg (offsets_own readEarliest) p)]
  obtain ⟨rs, summary, closed, allotted⟩ := close_allotted nonneg
    ⟨some, offsets_own read, offsets_short read⟩ source.isTopic.2
    fun p member => starts p member ▸ offset_nonneg (offsets_own readEarliest) p
  refine ⟨⟨source.topic, budget, rs, summary⟩, ?_, perm_of_order allotted.order, fun q member => ?_⟩
  · rw [told_of_resume read readEarliest given, resumed, asked]
    show (close _ heads budget >>= _) = _
    rw [closed]
    rfl
  · obtain ⟨head, found, start, _⟩ := allotted.within q member
    have entered := OffsetMap.get?_eq_some_iff.mp found
    rw [start, startOf, starts q.partition (List.mem_map_of_mem entered), OffsetMap.offset_of_mem entered]

/-- A checkpoint that does not begin with the topic is refused by the cycle over any broker that has the topic, and
    by the planner, unless it is a bare name. From a bare name both plan to read from what is retained. -/
theorem foreign_refused (ops : List Operation) (source : Source) (limit : Int) (r : Request)
    (heads earliest : OffsetMap) (known : ((Chronicle.empty.run ops).broker.logs? source.topic).isSome)
    (read : Planner.offsets source.topic r.heads = .ok heads)
    (readEarliest : Planner.offsets source.topic r.earliest = .ok earliest)
    (foreign : Foreign source.topic r.checkpoint) :
    let b := (Chronicle.empty.run ops).broker
    let planned := (Cycle.plan Broker.client source (some r.checkpoint) limit b).outcome.result
    let told := (Planner.plan source r).result
    (¬ Nameable r.checkpoint →
      (∃ e, planned = .error e ∧ Refusal r.checkpoint e) ∧ ∃ e, told = .error e ∧ Refusal r.checkpoint e) ∧
    (Nameable r.checkpoint →
      (∃ rs summary, planned = .ok (rs, summary) ∧
        rs.map Range.partition = listing source.topic (count b source.topic) ∧
        ∀ q ∈ rs, q.start = edgeOf b .earliest q.partition) ∧
      (heads.entries ≠ [] → r.budget ≠ .list →
        ∃ p, told = .ok p ∧ (p.ranges.map Range.partition).Perm heads.partitions ∧
          ∀ q ∈ p.ranges, (q.start : Int) = min (earliest.offset q.partition) (heads.offset q.partition))) := by
  intro b planned told
  have some : 0 < count b source.topic := count_pos (run_keeps empty_keeps ops) known
  constructor
  · intro more
    obtain ⟨e, refused, refusal⟩ := cycle_refuses foreign more
    obtain ⟨e', refused', refusal'⟩ := planner_refuses foreign more
    refine ⟨⟨e, plan_of_refused (client_mirrors b) some foreign.given refused limit, refusal⟩, e', ?_, refusal'⟩
    show (Planner.plan source r).result = _
    rw [told_of_resume read readEarliest foreign.given, refused']
    rfl
  · intro bare
    exact ⟨plan_of_bare (client_mirrors b) (run_numbered empty_numbered ops) some foreign.given bare limit,
      fun headed number => told_of_bare read readEarliest foreign.given bare headed number⟩

/-- A topic with two records in one partition, of which the first is no longer retained. -/
def viewed : List Operation := [
  .createTopic "clicks" 1, .append "clicks" 0 [7] none 1, .append "clicks" 0 [8] none 2, .truncate "clicks" 0 1]

/-- The same offsets as text, with a checkpoint. -/
def wanted (checkpoint : String) : Request := ⟨"0:2", checkpoint, "0:1", .count 10⟩

theorem foreign_refused_orders :
    let b := (Chronicle.empty.run viewed).broker
    (b.logs? clicks.topic).isSome ∧ Foreign clicks.topic (wanted "orders,0:1").checkpoint ∧
    (∃ e, (Cycle.plan Broker.client clicks (some "orders,0:1") 10 b).outcome.result = .error e ∧ e.kind = .format) ∧
    ∃ e, (Planner.plan clicks (wanted "orders,0:1")).result = .error e ∧ e.kind = .format := by
  intro b
  have known : (b.logs? clicks.topic).isSome := by decide
  have foreign : Foreign clicks.topic (wanted "orders,0:1").checkpoint := ⟨by decide, by decide⟩
  have read : Planner.offsets clicks.topic (wanted "orders,0:1").heads = .ok ⟨[(⟨"clicks", 0⟩, 2)], by simp⟩ := rfl
  have readEarliest : Planner.offsets clicks.topic (wanted "orders,0:1").earliest =
    .ok ⟨[(⟨"clicks", 0⟩, 1)], by simp⟩ := rfl
  have form : ∀ e, Refusal (wanted "orders,0:1").checkpoint e → e.kind = .format := by
    intro e refusal
    cases refusal with
    | form _ form => exact form
    | length overruns =>
      have overlong := decode_overlong_iff.mpr overruns
      cases overlong
  obtain ⟨refused, _⟩ := foreign_refused viewed clicks 10 (wanted "orders,0:1") _ _ known read readEarliest foreign
  obtain ⟨⟨e, planned, refusal⟩, e', told, refusal'⟩ := refused (by decide)
  exact ⟨known, foreign, ⟨e, planned, form e refusal⟩, e', told, form e' refusal'⟩

/-- The name of another topic is accepted, and all that is retained is read again. -/
theorem bare_replayed :
    Foreign clicks.topic "orders" ∧
    (Cycle.plan Broker.client clicks (some "orders") 10
        (Chronicle.empty.run viewed).broker).outcome.result.toOption.map Prod.fst =
      some [⟨⟨"clicks", 0⟩, 1, 2, by decide⟩] ∧
    (Planner.plan clicks (wanted "orders")).result.toOption.map Plan.ranges =
      some [⟨⟨"clicks", 0⟩, 1, 2, by decide⟩] :=
  ⟨⟨by decide, by decide⟩, by decide +kernel, by decide +kernel⟩

end LogCursor.ForeignCheckpoint
