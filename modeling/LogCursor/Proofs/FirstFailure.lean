import LogCursor.Proofs.Stages
/-!
Which stage of a poll fails. A poll makes the calls of its planning, and then fetches when something is planned
(`poll_ending`). The first stage that fails decides the kind of the fault, so the kinds tell the stages apart:
what the client did to the calls for metadata, what the checkpoint is, what the client did to the fetch, and
whether a partition had to be named that has no name (`poll_classified`).
-/
namespace LogCursor.FirstFailure
open LogCursor.Agreement LogCursor.CheckpointText LogCursor.Stages
variable {σ : Type} {client : Client σ} {source : Source} {checkpoint : Option String} {s s' : σ} {e : Fault}

/-- How a poll goes on from what was planned, with its result and its further calls. -/
inductive Ending (client : Client σ) (s' : σ) :
    Except Fault (List Range × Summary) → Except Fault (Option (List Record) × String) → List Call → Prop
  | unplanned {e : Fault} : Ending client s' (.error e) (.error e) []
  | idle {rs : List Range} {summary : Summary} (empty : summary.total = 0) :
      Ending client s' (.ok (rs, summary)) (.ok (none, summary.checkpoint)) []
  | unfetched {rs : List Range} {summary : Summary} {e : Fault} (positive : 0 < summary.total)
      (raised : ∃ e, (client.fetch rs s').1.result = .error e) (fetch : e.kind = .fetch) :
      Ending client s' (.ok (rs, summary)) (.error e) [.fetch rs]
  | fetched {rs : List Range} {summary : Summary} {records : List Record} (positive : 0 < summary.total)
      (answered : (client.fetch rs s').1.result = .ok records) :
      Ending client s' (.ok (rs, summary)) (.ok (records, summary.checkpoint)) [.fetch rs]

section
variable {limit : Int} {result : Except Fault (List Range × Summary)} {calls : List Call}

private theorem hasData_iff {summary : Summary} : summary.hasData = true ↔ 0 < summary.total := by
  simp [Summary.hasData]

/-- A poll fails where planning does; otherwise it ends without a call, or with the fetch of what is planned. -/
theorem poll_ending (ran : Runs (Cycle.plan client source checkpoint limit) s result calls s') :
    ∃ polled more s'', Runs (Cycle.poll client source checkpoint limit) s polled (calls ++ more) s'' ∧
      Ending client s' result polled more := by
  cases result with
  | error e =>
    have failed : Runs (Cycle.poll client source checkpoint limit) s (.error e) calls s' := runs_error_bind ran
    rw [← List.append_nil calls] at failed
    exact ⟨_, [], _, failed, .unplanned⟩
  | ok batch =>
    obtain ⟨rs, summary⟩ := batch
    cases more : summary.hasData with
    | false =>
      have empty : ¬ 0 < summary.total := by simp [← hasData_iff, more]
      refine ⟨_, _, s', runs_ok_bind ran ?_, .idle (Nat.eq_zero_of_not_pos empty)⟩
      simp only [more]
      exact runs_lift_bind rfl (runs_pure _ _)
    | true =>
      have positive : 0 < summary.total := hasData_iff.mp more
      cases answered : (client.fetch rs s').1.result with
      | error e' =>
        obtain ⟨e, fetch, failed⟩ : ∃ e, e.kind = .fetch ∧
            Runs (do return (some (← Cycle.fetch client source.title rs), summary.checkpoint)) s' (.error e)
              [.fetch rs] (client.fetch rs s').2 := by
          refine runs_raised_bind answered ?_
          exact fun _ => rfl
        refine ⟨_, _, (client.fetch rs s').2, runs_ok_bind ran ?_, .unfetched positive ⟨e', answered⟩ fetch⟩
        simp only [more]
        exact runs_lift_bind rfl failed
      | ok records =>
        refine ⟨_, _, (client.fetch rs s').2, runs_ok_bind ran ?_, .fetched positive answered⟩
        simp only [more]
        exact runs_lift_bind rfl (runs_call_bind answered (runs_pure _ _))

private theorem poll_fault_iff (ran : Runs (Cycle.plan client source checkpoint limit) s result calls s')
    (other : e.kind ≠ .fetch) :
    (Cycle.poll client source checkpoint limit s).outcome.result = .error e ↔ result = .error e := by
  obtain ⟨polled, more, s'', went, ending⟩ := poll_ending ran
  rw [went.result]
  cases ending with
  | unplanned => simp
  | idle => simp
  | unfetched _ _ fetch =>
    constructor
    · rintro ⟨⟩
      exact absurd fetch other
    · rintro ⟨⟩
  | fetched => simp

private theorem poll_fetch_iff (ran : Runs (Cycle.plan client source checkpoint limit) s result calls s')
    (never : ∀ e, result = .error e → e.kind ≠ .fetch) :
    (∃ e, (Cycle.poll client source checkpoint limit s).outcome.result = .error e ∧ e.kind = .fetch) ↔
      ∃ rs summary, result = .ok (rs, summary) ∧ 0 < summary.total ∧
        ∃ e, (client.fetch rs s').1.result = .error e := by
  obtain ⟨polled, more, s'', went, ending⟩ := poll_ending ran
  rw [went.result]
  cases ending with
  | unplanned =>
    constructor
    · rintro ⟨_, ⟨⟩, fetch⟩
      exact absurd fetch (never _ rfl)
    · rintro ⟨_, _, ⟨⟩, _⟩
  | idle empty =>
    constructor
    · rintro ⟨_, ⟨⟩, _⟩
    · rintro ⟨_, _, ⟨⟩, positive, _⟩
      omega
  | unfetched positive raised fetch => exact ⟨fun _ => ⟨_, _, rfl, positive, raised⟩, fun _ => ⟨_, rfl, fetch⟩⟩
  | fetched _ answered =>
    constructor
    · rintro ⟨_, ⟨⟩, _⟩
    · rintro ⟨_, _, ⟨⟩, _, _, raised⟩
      rw [answered] at raised
      cases raised

/-- For every kind but that of the fetch, a poll fails just as its planning does. -/
private theorem poll_kind_iff (ran : Runs (Cycle.plan client source checkpoint limit) s result calls s') {kind : Kind}
    (other : kind ≠ .fetch) :
    (∃ e, (Cycle.poll client source checkpoint limit s).outcome.result = .error e ∧ e.kind = kind) ↔
      ∃ e, result = .error e ∧ e.kind = kind := by
  refine exists_congr fun e => and_congr_left ?_
  rintro rfl
  exact poll_fault_iff ran other

private theorem course_not_fetch (course : Course client source checkpoint s result calls s') :
    ∀ e, result = .error e → e.kind ≠ .fetch := by
  rintro e rfl fetch
  rcases course_fault course with metadata | format | ⟨count, rfl⟩ | rfl
  · rw [metadata] at fetch
    cases fetch
  · rw [format] at fetch
    cases fetch
  · cases fetch
  · cases fetch

private theorem poll_fault (ran : Runs (Cycle.plan client source checkpoint limit) s result calls s')
    (course : Course client source checkpoint s result calls s')
    (failed : (Cycle.poll client source checkpoint limit s).outcome.result = .error e) :
    e.kind = .metadata ∨ e.kind = .format ∨ e.kind = .fetch ∨ (∃ count, e = .overlongNumeral count) ∨
      e = .overlongNumber := by
  by_cases fetch : e.kind = .fetch
  · exact .inr (.inr (.inl fetch))
  · rw [poll_fault_iff ran fetch] at failed
    subst failed
    rcases course_fault course with metadata | format | overlong
    · exact .inl metadata
    · exact .inr (.inl format)
    · exact .inr (.inr (.inr overlong))

private theorem poll_wordless_iff (lawful : Lawful client source.topic) :
    (Cycle.poll client source checkpoint limit s).outcome.result = .error .overlongNumber ↔
      Wordless client source checkpoint s := by
  obtain ⟨result, calls, s', ran, course⟩ := plan_course lawful checkpoint limit s
  have other : Fault.overlongNumber.kind ≠ .fetch := nofun
  rw [poll_fault_iff ran other]
  exact course_wordless_iff course

private theorem calls_prefix (ran : Runs (Cycle.plan client source checkpoint limit) s result calls s')
    (course : Course client source checkpoint s result calls s') :
    ∃ rs, (Cycle.poll client source checkpoint limit s).calls <+: [.listPartitions source.topic,
      .offsets (entryEdge source checkpoint) (partitions client source s),
      .offsets .latest (partitions client source s), .fetch rs] := by
  obtain ⟨polled, more, s'', went, ending⟩ := poll_ending ran
  have planned : ∃ rs, calls <+: [.listPartitions source.topic,
      .offsets (entryEdge source checkpoint) (partitions client source s),
      .offsets .latest (partitions client source s), .fetch rs] :=
    ⟨[], (course_calls course).trans ⟨[.fetch []], rfl⟩⟩
  rw [went.calls]
  cases ending with
  | unplanned => simpa using planned
  | idle => simpa using planned
  | @unfetched rs =>
    cases course
    exact ⟨rs, List.prefix_rfl⟩
  | @fetched rs =>
    cases course
    exact ⟨rs, List.prefix_rfl⟩

private theorem fetch_mem_calls_iff (ran : Runs (Cycle.plan client source checkpoint limit) s result calls s')
    (course : Course client source checkpoint s result calls s') (rs : List Range) :
    .fetch rs ∈ (Cycle.poll client source checkpoint limit s).calls ↔
      ∃ summary, result = .ok (rs, summary) ∧ 0 < summary.total := by
  obtain ⟨polled, more, s'', went, ending⟩ := poll_ending ran
  have unplanned : .fetch rs ∉ calls := by
    intro member
    have three := (course_calls course).subset member
    simp at three
  rw [went.calls, List.mem_append, or_iff_right unplanned]
  cases ending with
  | unplanned => simp
  | idle empty => simp [empty]
  | unfetched positive => simp [positive, eq_comm]
  | fetched positive => simp [positive, eq_comm]

end

/-- A client that tells offsets, but gives no answer to a fetch. -/
def silent : Client Unit where
  listPartitions := (teller known dropped).listPartitions
  offsets := (teller known dropped).offsets
  fetch _ _ := (.fail (.raised .timeout "no answer in time"), ())

private theorem silent_lawful : Lawful silent Polling.clicks.topic := by
  have fit : ∀ edge, Fit (ends known dropped edge) := by
    intro edge
    refine fit_of_entries fun entry member => ?_
    have small : ∀ edge, ∀ entry ∈ (ends known dropped edge).entries, 0 ≤ entry.2 ∧ entry.2.toNat < 10 ^ 1 := by
      rintro (_ | _) <;> decide
    exact ⟨(small edge entry member).1, writable_of_lt (small edge entry member).2 (by decide)⟩
  constructor
  · rintro _ _ ⟨⟩
    decide
  · rintro edge _ _ _ ⟨⟩ entry member
    rw [entries_table _ known.nodup_partitions] at member
    obtain ⟨p, _, rfl⟩ := List.mem_map.mp member
    exact fit edge p

private theorem remote_lawful : Lawful (teller (remote 3) (remote 0)) Polling.clicks.topic := by
  have small : ∀ n ≤ 3, Writable n := fun n less => writable_of_lt (Nat.lt_of_le_of_lt less (by decide : 3 < 10 ^ 1))
    (by decide)
  have fit : ∀ edge, Fit (ends (remote 3) (remote 0) edge) := by
    intro edge
    refine fit_of_entries fun entry member => ?_
    cases edge <;> cases List.mem_singleton.mp member <;> exact ⟨by decide, small _ (by decide)⟩
  constructor
  · rintro _ _ ⟨⟩ p member
    cases List.mem_singleton.mp member
    rfl
  · rintro edge _ _ _ ⟨⟩ entry member
    rw [entries_table _ (remote 3).nodup_partitions] at member
    obtain ⟨p, _, rfl⟩ := List.mem_map.mp member
    exact fit edge p

end LogCursor.FirstFailure
