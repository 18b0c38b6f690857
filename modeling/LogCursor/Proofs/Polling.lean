import LogCursor.Proofs.Planning
/-!
Polls. A poll gives nothing when nothing is planned, and else what the fetch gives (`poll_result`): the
records that were appended at the planned offsets, when the broker still has them (`poll_served`). A broker
that stays as it is has them (`poll_settled`). A poll that succeeds knew its topic and could go on from its
checkpoint (`reads_of_poll`).
-/
namespace LogCursor.Polling
open LogCursor.Cycle LogCursor.History LogCursor.Answers LogCursor.PartitionOrder LogCursor.Planning
open LogCursor.CheckpointText LogCursor.RoundTrip
variable {σ α β : Type}

private theorem getElem?_slice (h : Annals) (r : Range) (k : Nat) :
    (slice h r)[k]? = if k < r.count then (h r.partition.topic r.partition.index)[r.start + k]? else none := by
  unfold slice
  rw [List.getElem?_take]
  split
  · rw [List.getElem?_drop]
  · rfl

private theorem length_slice {h : Annals} {r : Range}
    (within : r.stop ≤ (h r.partition.topic r.partition.index).length) : (slice h r).length = r.count := by
  have := r.start_le_stop
  simp only [slice, Range.count, List.length_take, List.length_drop]
  omega

/-- The records of a range carry its offsets, one after the other. -/
theorem offsets_slice {b : Broker} {h : Annals} (keeps : Keeps b h) {r : Range}
    (within : r.stop ≤ (h r.partition.topic r.partition.index).length) :
    (slice h r).map Record.offset = (List.range' r.start r.count).map Int.ofNat := by
  refine List.ext_getElem? fun k => ?_
  rw [List.getElem?_map, List.getElem?_map, getElem?_slice]
  by_cases inside : k < r.count
  · have low : r.start + k < (h r.partition.topic r.partition.index).length := by
      have := r.start_le_stop
      unfold Range.count at inside
      omega
    have placed := keeps.placed _ _ _ _ (List.getElem?_eq_getElem low)
    rw [if_pos inside, List.getElem?_eq_getElem low, List.getElem?_range' inside]
    simp [placed.2.2]
  · have outside : (List.range' r.start r.count)[k]? = none :=
      List.getElem?_eq_none (by rw [List.length_range']; omega)
    rw [if_neg inside, outside]
    rfl

theorem mem_slice {b : Broker} {h : Annals} (keeps : Keeps b h) {r : Range} {x : Record}
    (member : x ∈ slice h r) : x.topic = r.partition.topic ∧ x.partition = r.partition.index ∧
      ∃ o : Nat, x.offset = o ∧ r.start ≤ o ∧ o < r.stop ∧
        (h r.partition.topic r.partition.index)[o]? = some x := by
  obtain ⟨k, found⟩ := List.mem_iff_getElem?.mp member
  rw [getElem?_slice] at found
  split at found
  · rename_i inside
    obtain ⟨topic, index, offset⟩ := keeps.placed _ _ _ _ found
    have := r.start_le_stop
    unfold Range.count at inside
    exact ⟨topic, index, r.start + k, offset, by omega, by omega, found⟩
  · cases found

theorem exists_mem_slice {b : Broker} {h : Annals} (keeps : Keeps b h) {r : Range}
    (within : r.stop ≤ (h r.partition.topic r.partition.index).length) {o : Nat} (low : r.start ≤ o)
    (high : o < r.stop) : ∃ x ∈ slice h r, x.offset = o := by
  have member : (o : Int) ∈ (slice h r).map Record.offset := by
    rw [offsets_slice keeps within]
    refine List.mem_map.mpr ⟨o, List.mem_range'_1.mpr ⟨low, ?_⟩, rfl⟩
    unfold Range.count
    omega
  exact List.mem_map.mp member

theorem length_flatMap_slice {h : Annals} {rs : List Range}
    (within : ∀ r ∈ rs, r.stop ≤ (h r.partition.topic r.partition.index).length) :
    (rs.flatMap (slice h)).length = Range.total rs := by
  rw [List.length_flatMap, ExactAllocation.total_eq_sum]
  congr 1
  exact List.map_congr_left fun r member => length_slice (within r member)

variable {client : Client σ} {source : Source} {checkpoint : Option String} {limit : Int} {s s' : σ}
  {ns : List Notice} {cs : List Call} {rs : List Range} {text : String}

/-- A poll gives nothing when nothing is planned, and else what the fetch gives. -/
theorem poll_result (planned : plan client source checkpoint limit s =
      ⟨⟨ns, .ok (rs, ⟨Range.total rs, text⟩)⟩, cs, s'⟩) :
    (poll client source checkpoint limit s).outcome.result =
      if Range.total rs = 0 then .ok (none, text)
      else (fetch client source.title rs s').outcome.result.map fun records => (some records, text) := by
  unfold poll
  rw [result_bind, planned]
  show ((if _ then _ else _ : Cycle σ _) s').outcome.result = _
  by_cases empty : Range.total rs = 0
  · have nothing : (⟨Range.total rs, text⟩ : Summary).hasData = false := by simp [Summary.hasData, empty]
    simp only [nothing, Bool.false_eq_true, if_false, if_pos empty]
    rfl
  · have something : (⟨Range.total rs, text⟩ : Summary).hasData = true := by
      simp only [Summary.hasData, decide_eq_true_eq]
      omega
    simp only [something, if_true, if_neg empty]
    rw [result_bind, result_bind]
    show (fetch client source.title rs s').outcome.result >>= _ = _
    cases (fetch client source.title rs s').outcome.result <;> rfl

private theorem fetch_result {b : Broker} (mirrors : Mirrors client s b s') (topic : Title) (rs : List Range) :
    (fetch client topic rs s).outcome.result = match b.fetch rs with
      | .ok (records, _) => .ok records
      | .error e => .error (if e.kind = .fetch then e else .fetchFailed topic.shown e) := by
  simp only [fetch, call, mirrors.fetch, Broker.fetchReported]
  cases b.fetch rs with
  | ok answer => rfl
  | error e => rfl

private theorem fetch_served {b : Broker} {h : Annals} (mirrors : Mirrors client s b s') (keeps : Keeps b h)
    (topic : Title) (available : ∀ r ∈ rs, Available b r) :
    (fetch client topic rs s).outcome.result = .ok (rs.flatMap (slice h)) := by
  rw [fetch_result mirrors, fetch_eq keeps available]

/-- A fetch of known partitions is refused when one of the ranges cannot be given out. -/
theorem fetch_refused {b : Broker} (mirrors : Mirrors client s b s') (topic : Title) (numbered : Numbered b)
    (short : Short rs) (known : ∀ r ∈ rs, ∃ l, log? b r.partition.topic r.partition.index = some l)
    (lost : ∃ r ∈ rs, ¬ Available b r) :
    ∃ e, (fetch client topic rs s).outcome.result = .error e ∧ e.kind = .fetch := by
  rw [fetch_result mirrors]
  cases fetched : b.fetch rs with
  | ok answer =>
    obtain ⟨r, member, missing⟩ := lost
    exact absurd (fetch_available fetched r member) missing
  | error e =>
    obtain ⟨r, member, l, present, _, _, rfl⟩ := fetch_fault known fetched
    have head : Writable l.stop := writable_stop numbered present
    have worded : (Fault.outsideRetained r l.start l.stop).worded = .outsideRetained r l.start l.stop := by
      refine Fault.worded_eq ?_
      simp only [Fault.numbers, List.forall_mem_cons, not_overlong_iff]
      exact ⟨(short r member).1, writable_of_le (short r member).2 r.start_le_stop, (short r member).2,
        writable_of_le head (Nat.le_add_right _ _), head, nofun⟩
    rw [worded]
    exact ⟨_, rfl, rfl⟩

/-- A poll gives out the records of the planned ranges when the broker still has them. -/
theorem poll_served {b : Broker} {h : Annals} {s'' : σ} (mirrors : Mirrors client s' b s'') (keeps : Keeps b h)
    (planned : plan client source checkpoint limit s = ⟨⟨ns, .ok (rs, ⟨Range.total rs, text⟩)⟩, cs, s'⟩)
    (available : ∀ r ∈ rs, Available b r) :
    (poll client source checkpoint limit s).outcome.result =
      .ok (if Range.total rs = 0 then none else some (rs.flatMap (slice h)), text) := by
  rw [poll_result planned]
  split
  · rfl
  · rw [fetch_served mirrors keeps _ available]
    rfl

theorem available_iff {b : Broker} {r : Range} (known : r.partition.index < count b r.partition.topic)
    (within : r.stop ≤ edgeOf b .latest r.partition) :
    Available b r ↔ (r.count ≠ 0 → edgeOf b .earliest r.partition ≤ r.start) := by
  obtain ⟨l, present⟩ := log?_isSome_iff.mpr known
  rw [edgeOf_eq present] at within ⊢
  constructor
  · rintro ⟨l', present', state⟩ nonempty
    rw [present] at present'
    cases present'
    exact (state.resolve_left nonempty).1
  · intro low
    refine ⟨l, present, ?_⟩
    by_cases empty : r.count = 0
    · exact .inl empty
    · exact .inr ⟨low empty, within⟩

theorem earliest_le_startAt (edge : Edge) (position : Option OffsetMap) (b : Broker) (p : Partition) :
    (edgeOf b .earliest p : Int) ≤ startAt edge position b p := by
  cases position with
  | some m => exact Int.le_max_right _ _
  | none =>
    cases edge with
    | earliest => exact Int.le_refl _
    | latest => exact Int.ofNat_le.mpr (edgeOf_le_latest b .earliest p)

theorem known_of_planned {position : Option OffsetMap} {n : Nat} {b b' : Broker}
    (planned : Planned source position limit n b b' rs) {r : Range} (member : r ∈ rs) :
    r.partition.topic = source.topic ∧ r.partition.index < n :=
  mem_of_partitions planned.partitions member

/-- A poll of a broker that stays as it is always comes to its records. -/
theorem poll_settled {b : Broker} {h : Annals} (keeps : Keeps b h) (known : 0 < count b source.topic)
    (few : Writable (count b source.topic))
    (short : ∀ p ∈ listing source.topic (count b source.topic), Writable (edgeOf b .latest p))
    {position : Option OffsetMap} (reads : Reads source.topic checkpoint position) (limit : Int) :
    ∃ ns cs rs, plan Broker.client source checkpoint limit b =
        ⟨⟨ns, .ok (rs, ⟨Range.total rs, checkpointOf source.topic rs⟩)⟩, cs, b⟩ ∧
      Planned source position limit (count b source.topic) b b rs ∧
      (poll Broker.client source checkpoint limit b).outcome.result =
        .ok (if Range.total rs = 0 then none else some (rs.flatMap (slice h)), checkpointOf source.topic rs) := by
  have mirrors := client_mirrors b
  obtain ⟨ns, rs, run, planned⟩ :=
    plan_eq mirrors mirrors mirrors known (Nat.le_refl _) (Nat.le_refl _) few short reads limit
  refine ⟨ns, _, rs, run, planned, poll_served mirrors keeps run fun r member => ?_⟩
  obtain ⟨own, inside⟩ := known_of_planned planned member
  rw [available_iff (own ▸ inside) (planned.stop r member)]
  intro nonempty
  have low := earliest_le_startAt source.edge position b r.partition
  have start := planned.start r member
  have stop := planned.stop r member
  have := r.start_le_stop
  unfold firstOffset at start
  unfold Range.count at nonempty
  omega

/-- A computation that leaves the broker as it is. -/
def Still (x : Cycle Broker α) : Prop := ∀ b, (x b).state = b

private theorem still_bind {x : Cycle Broker α} {f : α → Cycle Broker β} (first : Still x)
    (second : ∀ a, Still (f a)) : Still (x >>= f) := by
  intro b
  show (andThen x f b).state = b
  unfold andThen
  cases result : (x b).outcome.result with
  | error e => simpa only [result] using first b
  | ok a => simpa only [result, first b] using second a b

private theorem still_lift (x : Outcome α) : Still (lift x) := fun _ => rfl

private theorem still_pure (a : α) : Still (pure a) := fun _ => rfl

private theorem still_ite {c : Prop} [Decidable c] {x y : Cycle Broker α} (whenTrue : Still x) (whenFalse : Still y) :
    Still (if c then x else y) := by
  by_cases holds : c
  · rwa [if_pos holds]
  · rwa [if_neg holds]

private theorem still_lookup (topic : Title) (edge : Edge) (ps : List Partition) :
    Still (lookup Broker.client topic edge ps) := by
  exact still_bind (fun _ => rfl) fun m => still_ite (still_pure _) (still_lift _)

private theorem still_starts (source : Source) (checkpoint : Option String) (ps : List Partition) :
    Still (starts Broker.client source checkpoint ps) := by
  refine still_ite ?_ ?_
  · exact still_bind (fun _ => rfl) fun m =>
      still_ite (still_bind (still_lift _) fun _ => still_pure _) (still_lift _)
  · exact still_bind (still_lift _) fun m => still_bind (still_lookup _ _ _) fun _ => still_lift _

private theorem still_plan (source : Source) (checkpoint : Option String) (limit : Int) :
    Still (plan Broker.client source checkpoint limit) := by
  have listed : Still (list Broker.client source.title) :=
    still_bind (fun _ => rfl) fun ps => still_ite (still_lift _) (still_pure _)
  exact still_bind listed fun ps => still_bind (still_starts _ _ _) fun starts =>
    still_bind (still_lookup _ _ _) fun heads => still_bind (still_lift _) fun ranges =>
    still_bind (still_lift _) fun summary => still_pure _

/-- A poll only asks; it leaves the broker as it is. -/
theorem still_poll (source : Source) (checkpoint : Option String) (limit : Int) :
    Still (poll Broker.client source checkpoint limit) := by
  refine still_bind (still_plan _ _ _) fun batch => still_ite ?_ ?_
  · exact still_bind (still_lift _) fun _ => still_bind (fun _ => rfl) fun _ => still_pure _
  · exact still_bind (still_lift _) fun _ => still_pure _

private theorem bind_of_ok {x : Cycle σ α} {f : α → Cycle σ β} {answer : β}
    (done : ((x >>= f) s).outcome.result = .ok answer) :
    ∃ a, (x s).outcome.result = .ok a ∧ (f a (x s).state).outcome.result = .ok answer := by
  rw [result_bind] at done
  cases result : (x s).outcome.result with
  | error e => rw [result] at done; cases done
  | ok a => rw [result] at done; exact ⟨a, rfl, done⟩

private theorem reads_of_starts {ps : List Partition} {m : OffsetMap}
    (done : (starts client source checkpoint ps s).outcome.result = .ok m) :
    ∃ position, Reads source.topic checkpoint position := by
  by_cases due : Reset.IsDue checkpoint
  · exact ⟨none, due⟩
  · simp only [starts, due, if_false] at done
    obtain ⟨position, resumed, _⟩ := bind_of_ok done
    change resume source.title (checkpoint.getD "") = .ok position at resumed
    unfold resume at resumed
    cases decoded : Checkpoint.decode (checkpoint.getD "") with
    | error e => simp only [decoded] at resumed; cases resumed
    | ok found =>
      simp only [decoded, bind, Except.bind] at resumed
      split at resumed
      · rename_i own
        cases resumed
        refine ⟨some position, due, decoded, fun p member => ?_⟩
        by_contra foreign
        rw [List.isEmpty_iff, List.filter_eq_nil_iff] at own
        exact own p.topic (List.mem_map_of_mem member) (by simpa [Source.topic] using foreign)
      · cases resumed

private theorem known_of_list {b : Broker} (mirrors : Mirrors client s b s') {topic : Title} {ps : List Partition}
    (done : (list client topic s).outcome.result = .ok ps) : 0 < count b topic.name := by
  obtain ⟨listed, called, some⟩ := bind_of_ok done
  simp only [call, mirrors.listPartitions, Broker.listPartitions, Broker.logs] at called
  cases found : b.logs? topic.name with
  | none => simp only [found] at called; cases called
  | some ls =>
    simp only [found] at called
    cases called
    refine Nat.pos_of_ne_zero fun none => ?_
    have empty : ls.size = 0 := by simpa [count, found] using none
    simp only [empty, List.range_zero, List.map_nil, List.isEmpty_nil, if_true] at some
    cases some

/-- A poll that succeeds knew its topic and could go on from its checkpoint. -/
theorem reads_of_poll {b : Broker} (mirrors : Mirrors client s b s') {answer : Option (List Record) × String}
    (done : (poll client source checkpoint limit s).outcome.result = .ok answer) :
    0 < count b source.topic ∧ ∃ position, Reads source.topic checkpoint position := by
  obtain ⟨batch, planned, _⟩ := bind_of_ok done
  obtain ⟨ps, listed, further⟩ := bind_of_ok planned
  obtain ⟨m, started, _⟩ := bind_of_ok further
  exact ⟨known_of_list mirrors listed, reads_of_starts started⟩

/-- A source of clicks, which starts at the earliest and takes at most five at a time. -/
def clicks : Source :=
  ⟨.text "clicks", .earliest, 5, ⟨fun blank => absurd (blank 'c' (by decide)) (by decide), by decide⟩, by decide⟩

end LogCursor.Polling
