import LogCursor.Proofs.Answers
/-!
A broker as its history. Beside a broker that changes are made to and records are fetched from stands all that
was ever appended. After any steps the logs are that history from their starts on (`Recorded`), the next step
changes what it names and nothing else (`Orderly`), and a fetch gives the history at the offsets of its ranges
or is refused because one of them is not at hand (`Answered`). `serve_refines` says all of it.
-/
namespace LogCursor.AppendHistory
open LogCursor.History LogCursor.Answers LogCursor.CheckpointText

/-- What is asked of a broker: a change or records. -/
inductive Step where
  | change (op : Operation)
  | fetch (ranges : List Range)

/-- Carries out a step, which changes nothing when it fails. -/
def serve (c : Chronicle) : Step → Chronicle
  | .change op => c.carryOut op
  | .fetch ranges => ⟨(Broker.client.fetch ranges c.broker).2, c.annals⟩

/-- Carries out steps in their order. -/
def serveAll (c : Chronicle) (steps : List Step) : Chronicle := steps.foldl serve c

/-- Every log is the history of its partition from its start on, and the history tells the place of each
    record. -/
structure Recorded (c : Chronicle) : Prop where
  stop : ∀ topic index l, log? c.broker topic index = some l → l.stop = (c.annals topic index).length
  start : ∀ topic index l, log? c.broker topic index = some l → l.start ≤ l.stop
  retained : ∀ topic index l, log? c.broker topic index = some l →
    l.records.toList = (c.annals topic index).drop l.start
  unknown : ∀ topic index, log? c.broker topic index = none → c.annals topic index = []
  placed : ∀ topic index (i : Nat) r, (c.annals topic index)[i]? = some r →
    r.topic = topic ∧ r.partition = index ∧ r.offset = i

private theorem serve_keeps {c : Chronicle} (keeps : Keeps c.broker c.annals) (step : Step) :
    Keeps (serve c step).broker (serve c step).annals := by
  cases step with
  | change op => exact carryOut_keeps keeps op
  | fetch ranges => exact keeps

private theorem serveAll_keeps {c : Chronicle} (keeps : Keeps c.broker c.annals) (steps : List Step) :
    Keeps (serveAll c steps).broker (serveAll c steps).annals := by
  induction steps generalizing c with
  | nil => exact keeps
  | cons step rest ih => exact ih (serve_keeps keeps step)

private theorem keeps_recorded {c : Chronicle} (keeps : Keeps c.broker c.annals) : Recorded c where
  stop topic index l present := retains_stop (keeps.retained topic index l present)
  start _ _ l _ := Nat.le_add_right l.start l.records.size
  retained topic index l present := (keeps.retained topic index l present).2
  unknown := keeps.unborn
  placed := keeps.placed

/-- A range that the broker cannot give out: its partition is not there, or it is not empty and leaves what
    the log retains. -/
def Unservable (b : Broker) (r : Range) : Prop :=
  log? b r.partition.topic r.partition.index = none ∨
    ∃ l, log? b r.partition.topic r.partition.index = some l ∧ r.count ≠ 0 ∧
      ¬ (l.start ≤ r.start ∧ r.stop ≤ l.stop)

/-- A range of a known topic that cannot be spoken of: the index of its partition has no numeral, or the range or
    its log goes beyond the offsets that have one. -/
def Untold (b : Broker) (r : Range) : Prop :=
  (b.logs? r.partition.topic).isSome ∧ (Numeral.Overlong r.partition.index ∨
    ∃ l, log? b r.partition.topic r.partition.index = some l ∧ (Numeral.Overlong r.stop ∨ Numeral.Overlong l.stop))

/-- What a fetch answers. When some of the ranges cannot be given out, the first of them is told of in a fault of
    its kind, unless it cannot be spoken of; otherwise the answer is what was appended at the offsets of the ranges,
    range after range. -/
structure Answered (c : Chronicle) (ranges : List Range) : Prop where
  refused : ∀ front r back, ranges = front ++ r :: back → (∀ q ∈ front, ¬ Unservable c.broker q) →
    Unservable c.broker r → ∃ e, (Broker.client.fetch ranges c.broker).1.result = .error e ∧
      (Untold c.broker r → e = .overlongNumber) ∧ (¬ Untold c.broker r → e.kind = .fetch)
  served : (∀ r ∈ ranges, ¬ Unservable c.broker r) →
    (Broker.client.fetch ranges c.broker).1.result = .ok (ranges.flatMap (slice c.annals))

private theorem available_of_not {b : Broker} {r : Range} (servable : ¬ Unservable b r) : Available b r := by
  cases present : log? b r.partition.topic r.partition.index with
  | none => exact absurd (.inl present) servable
  | some l =>
    refine ⟨l, present, ?_⟩
    by_contra lacking
    rw [not_or] at lacking
    exact servable (.inr ⟨l, present, lacking⟩)

private theorem not_unservable {b : Broker} {r : Range} (available : Available b r) : ¬ Unservable b r := by
  obtain ⟨l, present, state⟩ := available
  rintro (unknown | ⟨l', present', some, outside⟩)
  · rw [present] at unknown
    cases unknown
  · cases present.symm.trans present'
    exact outside (state.resolve_left some)

/-- A fetch fails just when one of its ranges cannot be given out. -/
theorem fetch_fails_iff {b : Broker} {h : Annals} (keeps : Keeps b h) (ranges : List Range) :
    (∃ e, b.fetch ranges = .error e) ↔ ∃ r ∈ ranges, Unservable b r := by
  constructor
  · rintro ⟨e, failed⟩
    by_contra none
    have servable : ∀ r ∈ ranges, ¬ Unservable b r := fun r member unservable => none ⟨r, member, unservable⟩
    rw [fetch_eq keeps fun r member => available_of_not (servable r member)] at failed
    cases failed
  · rintro ⟨r, member, unservable⟩
    cases run : b.fetch ranges with
    | error e => exact ⟨e, rfl⟩
    | ok answer => exact absurd unservable (not_unservable (fetch_available run r member))

private theorem client_fetch (b : Broker) (ranges : List Range) :
    (Broker.client.fetch ranges b).1.result = (b.fetch ranges).map Prod.fst := by
  show (b.fetchReported ranges).result = _
  unfold Broker.fetchReported
  cases b.fetch ranges <;> rfl

/-- A number that a message shows decides whether there is one. -/
private theorem worded_outside {r : Range} {l : PartitionLog} :
    (Fault.outsideRetained r l.start l.stop).worded =
      if Numeral.Overlong r.partition.index ∨ Numeral.Overlong r.stop ∨ Numeral.Overlong l.stop then .overlongNumber
      else .outsideRetained r l.start l.stop := by
  split
  · rename_i overlong
    rcases overlong with index | stop | stop
    · exact Fault.worded_overlong (by simp [Fault.numbers]) index
    · exact Fault.worded_overlong (n := r.stop) (by simp [Fault.numbers]) stop
    · exact Fault.worded_overlong (n := l.stop) (by simp [Fault.numbers]) stop
  · rename_i short
    simp only [not_or, not_overlong_iff] at short
    obtain ⟨index, stop, head⟩ := short
    refine Fault.worded_eq ?_
    -- What starts a range or a log is no longer than what ends it.
    simp only [Fault.numbers, List.forall_mem_cons, not_overlong_iff]
    exact ⟨index, writable_of_le stop r.start_le_stop, stop, writable_of_le head (Nat.le_add_right _ _), head, nofun⟩

private theorem fetchRange_refused {b : Broker} {r : Range} (unservable : Unservable b r) :
    ∃ e, b.fetchRange r = .error e ∧ (Untold b r → e = .overlongNumber) ∧ (¬ Untold b r → e.kind = .fetch) := by
  rcases unservable with absent | ⟨l, present, nonempty, outside⟩
  · rw [Broker.fetchRange, log_of_absent absent]
    by_cases known : (b.logs? r.partition.topic).isSome
    · by_cases overlong : Numeral.Overlong r.partition.index
      · have told : (Fault.unknownPartition r.partition.topic r.partition.index).worded = .overlongNumber :=
          Fault.worded_overlong (List.mem_singleton_self _) overlong
        simp only [if_pos known, told]
        exact ⟨_, rfl, fun _ => rfl, fun spoken => absurd ⟨known, .inl overlong⟩ spoken⟩
      · have told : (Fault.unknownPartition r.partition.topic r.partition.index).worded =
            .unknownPartition r.partition.topic r.partition.index :=
          Fault.worded_eq fun n member => List.mem_singleton.mp member ▸ overlong
        simp only [if_pos known, told]
        refine ⟨_, rfl, fun untold => ?_, fun _ => rfl⟩
        rcases untold.2 with index | ⟨l, present, _⟩
        · exact absurd index overlong
        · rw [absent] at present
          cases present
    · simp only [if_neg known]
      exact ⟨_, rfl, fun untold => absurd untold.1 known, fun _ => rfl⟩
  · have left : r.start < l.start ∨ l.stop < r.stop := by omega
    obtain ⟨ls, found, _⟩ := log?_eq_some_iff.mp present
    have refused : b.fetchRange r = .error (Fault.outsideRetained r l.start l.stop).worded := by
      simp only [Broker.fetchRange, log_of_log? present, if_neg nonempty, if_pos left]
    rw [worded_outside] at refused
    refine ⟨_, refused, fun untold => if_pos ?_, fun told => ?_⟩
    · rcases untold.2 with index | ⟨l', present', long⟩
      · exact .inl index
      · cases present.symm.trans present'
        exact .inr long
    · rw [if_neg fun overlong => told ⟨by rw [found]; rfl, overlong.imp_right fun long => ⟨l, present, long⟩⟩]
      rfl

private theorem keeps_answered {c : Chronicle} (keeps : Keeps c.broker c.annals) (ranges : List Range) :
    Answered c ranges := by
  refine ⟨fun front r back split servable unservable => ?_, fun servable => ?_⟩
  · obtain ⟨e, failed, cases⟩ := fetchRange_refused unservable
    refine ⟨e, ?_, cases⟩
    rw [client_fetch, split, fetch_first (fun q member => ?_) failed]
    · rfl
    · exact ⟨_, fetchRange_eq keeps (available_of_not (servable q member))⟩
  · rw [client_fetch, fetch_eq keeps fun r member => available_of_not (servable r member)]
    rfl

/-- A step that fails. -/
def Fails (b : Broker) : Step → Prop
  | .change op => ∃ e, op.apply b = .error e
  | .fetch ranges => ∃ e, b.fetch ranges = .error e

/-- What cannot be done: to create a topic without partitions or one that is there already, to change what is
    not there, or to fetch what cannot be given out. -/
def Refused (b : Broker) : Step → Prop
  | .change (.createTopic topic count) => count < 1 ∨ b.logs? topic ≠ none
  | .change (.addPartitions topic _) => b.logs? topic = none
  | .change (.append topic index _ _ _) | .change (.truncate topic index _) =>
    ∀ i : Nat, index = i → log? b topic i = none
  | .fetch ranges => ∃ r ∈ ranges, Unservable b r

/-- A step may touch the partition that it names, or one that is not there yet. -/
def Concerns (b : Broker) (topic : String) (index : Nat) : Step → Prop
  | .change (.createTopic t _) | .change (.addPartitions t _) => topic = t ∧ log? b topic index = none
  | .change (.append t i _ _ _) | .change (.truncate t i _) => topic = t ∧ (index : Int) = i
  | .fetch _ => False

/-- The start of a log after a step: only truncating moves it, up to the head at most. -/
def startAfter (topic : String) (index : Nat) (l : PartitionLog) : Step → Int
  | .change (.truncate t i before) =>
    if topic = t ∧ (index : Int) = i then max l.start (min before l.stop) else l.start
  | _ => l.start

/-- What one step does: nothing when it fails, because it cannot be done, and otherwise nothing to the
    partitions that it does not concern; no log is lost, no start goes back, and what was appended stays. -/
structure Orderly (c : Chronicle) (step : Step) : Prop where
  fails : Fails c.broker step ↔ Refused c.broker step
  failed : Fails c.broker step → serve c step = c
  start : ∀ topic index l, log? c.broker topic index = some l →
    ∃ l', log? (serve c step).broker topic index = some l' ∧
      (l'.start : Int) = startAfter topic index l step ∧ l.start ≤ l'.start
  apart : ∀ topic index, ¬ Concerns c.broker topic index step →
    log? (serve c step).broker topic index = log? c.broker topic index ∧
      (serve c step).annals topic index = c.annals topic index
  kept : ∀ topic index, c.annals topic index <+: (serve c step).annals topic index

private theorem log_fails_iff {b : Broker} {topic : String} {index : Int} :
    (∃ e, b.log topic index = .error e) ↔ ∀ i : Nat, index = i → log? b topic i = none := by
  constructor
  · rintro ⟨e, failed⟩ i rfl
    cases present : log? b topic i with
    | none => rfl
    | some l => rw [log_of_log? present] at failed; cases failed
  · intro absent
    cases known : b.log topic index with
    | error e => exact ⟨e, rfl⟩
    | ok l =>
      obtain ⟨i, same, present⟩ := log_eq_ok known
      rw [absent i same] at present
      cases present

private theorem apply_fails_iff (b : Broker) (op : Operation) :
    (∃ e, op.apply b = .error e) ↔ Refused b (.change op) := by
  cases op with
  | createTopic topic count =>
    simp only [Operation.apply, Broker.createTopic, Refused]
    by_cases few : count < 1
    · simp [few, throw, throwThe, MonadExceptOf.throw, bind, Except.bind, Except.map]
    · cases b.logs? topic <;>
        simp [few, throw, throwThe, MonadExceptOf.throw, bind, Except.bind, Except.map, pure, Except.pure]
  | addPartitions topic count =>
    simp only [Operation.apply, Broker.addPartitions, Broker.logs, Refused]
    cases b.logs? topic <;> simp [bind, Except.bind, Except.map, pure, Except.pure]
  | append topic index value key timestamp =>
    simp only [Operation.apply, Broker.append, Refused, ← log_fails_iff]
    cases b.log topic index <;> simp [bind, Except.bind, Except.map, pure, Except.pure]
  | truncate topic index before =>
    simp only [Operation.apply, Broker.truncate, Refused, ← log_fails_iff]
    cases b.log topic index with
    | error e => simp [bind, Except.bind, Except.map]
    | ok l =>
      simp only [bind, Except.bind]
      split <;> simp [Except.map, pure, Except.pure]

private theorem carryOut_of_fault {c : Chronicle} {op : Operation} {e : Fault} (failed : op.apply c.broker = .error e) :
    c.carryOut op = c := by
  simp only [Chronicle.carryOut, failed]

private theorem carryOut_of_ok {c : Chronicle} {op : Operation} {b : Broker} (done : op.apply c.broker = .ok b) :
    c.carryOut op = ⟨b, c.annals.after op⟩ := by
  simp only [Chronicle.carryOut, done]

private theorem start_logAfter (op : Operation) (topic : String) (index : Nat) (l : PartitionLog) :
    ((op.logAfter topic index l).start : Int) = startAfter topic index l (.change op) := by
  cases op with
  | append t i value key timestamp =>
    simp only [Operation.logAfter, startAfter]
    split <;> rfl
  | truncate t i before =>
    simp only [Operation.logAfter, startAfter]
    by_cases here : topic = t ∧ (index : Int) = i
    · by_cases ahead : (l.start : Int) < min before l.stop
      · rw [if_pos ⟨here, ahead⟩, if_pos here]
        show ((min before (l.stop : Int)).toNat : Int) = _
        omega
      · rw [if_neg (fun both => ahead both.2), if_pos here]
        omega
    · rw [if_neg (fun both => here both.1), if_neg here]
  | _ => rfl

private theorem logAfter_apart {b : Broker} {op : Operation} {topic : String} {index : Nat} {l : PartitionLog}
    (apart : ¬ Concerns b topic index (.change op)) : op.logAfter topic index l = l := by
  cases op with
  | append t i value key timestamp => exact if_neg apart
  | truncate t i before => exact if_neg fun both => apart both.1
  | _ => rfl

private theorem unknown_apart {b b' : Broker} {op : Operation} (done : op.apply b = .ok b') {topic : String} {index : Nat}
    (apart : ¬ Concerns b topic index (.change op)) (unknown : log? b topic index = none) :
    log? b' topic index = none := by
  rcases apply_cases done with ⟨t, count, rfl, _, _, rfl⟩ | ⟨t, count, ls, rfl, _, rfl⟩ |
    ⟨t, i, value, key, timestamp, l, rfl, present, rfl⟩ | ⟨t, i, before, l, rfl, present, moved⟩
  · rw [log?_withLogs, if_neg fun same => apart ⟨same.symm, unknown⟩]
    exact unknown
  · rw [log?_withLogs, if_neg fun same => apart ⟨same.symm, unknown⟩]
    exact unknown
  · rw [log?_withLog present, if_neg fun here => apart ⟨here.1, congrArg Int.ofNat here.2⟩]
    exact unknown
  · split at moved
    · rw [moved]
      exact unknown
    · rw [moved, log?_withLog present, if_neg fun here => apart ⟨here.1, congrArg Int.ofNat here.2⟩]
      exact unknown

private theorem annals_apart {b b' : Broker} {op : Operation} (done : op.apply b = .ok b') {topic : String} {index : Nat}
    (apart : ¬ Concerns b topic index (.change op)) (h : Annals) : h.after op topic index = h topic index := by
  rcases apply_cases done with ⟨t, count, rfl, _, _, _⟩ | ⟨t, count, ls, rfl, _, _⟩ |
    ⟨t, i, value, key, timestamp, l, rfl, _, _⟩ | ⟨t, i, before, l, rfl, _, _⟩
  · rfl
  · rfl
  · exact if_neg fun here => apart ⟨here.1, by rw [here.2]; rfl⟩
  · rfl

/-- A step that fails has named no partition that is there, so it would not have moved its start. -/
theorem startAfter_of_fault {b : Broker} {op : Operation} {e : Fault} (failed : op.apply b = .error e)
    {topic : String} {index : Nat} {l : PartitionLog} (present : log? b topic index = some l) :
    startAfter topic index l (.change op) = l.start := by
  cases op with
  | truncate t i before =>
    refine if_neg fun here => ?_
    have absent := (apply_fails_iff b (.truncate t i before)).mp ⟨e, failed⟩ index here.2.symm
    rw [← here.1, present] at absent
    cases absent
  | _ => rfl

private theorem change_orderly (c : Chronicle) (op : Operation) : Orderly c (.change op) := by
  cases done : op.apply c.broker with
  | error e =>
    have same : serve c (.change op) = c := carryOut_of_fault done
    refine ⟨apply_fails_iff c.broker op, fun _ => same, ?_, ?_, ?_⟩ <;> rw [same]
    · intro topic index l present
      exact ⟨l, present, (startAfter_of_fault done present).symm, Nat.le_refl _⟩
    · exact fun _ _ _ => ⟨rfl, rfl⟩
    · exact fun _ _ => List.prefix_rfl
  | ok b =>
    have next : serve c (.change op) = ⟨b, c.annals.after op⟩ := carryOut_of_ok done
    refine ⟨apply_fails_iff c.broker op, ?_, ?_, ?_, ?_⟩
    · rintro ⟨e, failed⟩
      rw [done] at failed
      cases failed
    · intro topic index l present
      rw [next]
      exact ⟨_, apply_log done present, start_logAfter op topic index l, logAfter_start op topic index l⟩
    · intro topic index apart
      rw [next]
      refine ⟨?_, annals_apart done apart c.annals⟩
      -- Only a partition that is not there yet can be new; a log that is there is told by `apply_log`.
      cases present : log? c.broker topic index with
      | none => exact unknown_apart done apart present
      | some l => rw [apply_log done present, logAfter_apart apart]
    · rw [next]
      exact annals_after c.annals op

private theorem fetch_orderly {c : Chronicle} (keeps : Keeps c.broker c.annals) (ranges : List Range) :
    Orderly c (.fetch ranges) where
  fails := fetch_fails_iff keeps ranges
  failed _ := rfl
  start _ _ l present := ⟨l, present, rfl, Nat.le_refl _⟩
  apart _ _ _ := ⟨rfl, rfl⟩
  kept _ _ := List.prefix_rfl

/-- After any steps from an empty broker, succeeding or failing, its logs are the history of what was appended,
    any next step changes what it names and nothing else, and any fetch is answered from the history. -/
theorem serve_refines (steps : List Step) :
    Recorded (serveAll .empty steps) ∧ (∀ step, Orderly (serveAll .empty steps) step) ∧
      ∀ ranges, Answered (serveAll .empty steps) ranges := by
  have keeps := serveAll_keeps empty_keeps steps
  refine ⟨keeps_recorded keeps, ?_, keeps_answered keeps⟩
  intro step
  cases step with
  | change op => exact change_orderly _ op
  | fetch ranges => exact fetch_orderly keeps ranges

/-- A range of the partition of a topic whose index has no numeral. -/
def remote (topic : String) : Range := ⟨⟨topic, beyond⟩, 0, 1, by decide⟩

/-- An unknown partition without a name is not refused with a fault of the fetch. -/
theorem remote_untold :
    let c := serveAll .empty [.change (.createTopic "clicks" 1)]
    Unservable c.broker (remote "clicks") ∧
      (Broker.client.fetch [remote "clicks"] c.broker).1.result = .error .overlongNumber ∧
      Fault.overlongNumber.kind ≠ .fetch := by
  intro c
  have one : count c.broker "clicks" = 1 := by decide
  have absent : log? c.broker "clicks" beyond = none := by
    cases found : log? c.broker "clicks" beyond with
    | none => rfl
    | some l =>
      have less : beyond < 1 := one ▸ log?_isSome_iff.mp ⟨l, found⟩
      exact absurd less (Nat.not_lt.mpr (Nat.one_le_pow _ _ (by decide)))
  have answered : Answered c [remote "clicks"] :=
    keeps_answered (serveAll_keeps empty_keeps [.change (.createTopic "clicks" 1)]) _
  obtain ⟨e, failed, untold, _⟩ := answered.refused [] (remote "clicks") [] rfl (by simp) (.inl absent)
  refine ⟨.inl absent, ?_, by decide⟩
  rw [failed, untold ⟨by decide, .inl overlong_beyond⟩]

end LogCursor.AppendHistory
