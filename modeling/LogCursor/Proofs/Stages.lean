import LogCursor.Proofs.Agreement
import LogCursor.Proofs.CheckpointGrammar
/-!
The stages of planning over any client. Planning lists the partitions, reads the checkpoint, looks up where to
start, and looks up the heads. Whatever the client does, planning takes one of a few courses (`plan_course`):
it ends with the first of these stages that fails, or it comes to a plan. Past the lookups nothing fails but for
want of a numeral, because the allocation gets offsets that are not negative and the new checkpoint the partitions
of one topic (`finish_runs`).
-/
namespace LogCursor.Stages
open LogCursor.Agreement LogCursor.CheckpointText LogCursor.ExactAllocation LogCursor.PartitionOrder
open LogCursor.Planning (Reads)
open LogCursor.RoundTrip (Short)
variable {σ α β : Type}

/-! ### Runs -/

/-- A computation over a client, with its result, its calls and the state that is left. -/
structure Runs (x : Cycle σ α) (s : σ) (result : Except Fault α) (calls : List Call) (s' : σ) : Prop where
  result : (x s).outcome.result = result
  calls : (x s).calls = calls
  state : (x s).state = s'

variable {x : Cycle σ α} {f : α → Cycle σ β} {s s' s'' : σ} {a : α} {e : Fault} {cs ds : List Call}

theorem runs_ok_bind {r : Except Fault β} (first : Runs x s (.ok a) cs s') (second : Runs (f a) s' r ds s'') :
    Runs (x >>= f) s r (cs ++ ds) s'' := by
  obtain ⟨ended, rfl, rfl⟩ := first
  obtain ⟨rfl, rfl, rfl⟩ := second
  constructor <;> simp only [bind, Cycle.andThen, ended]

theorem runs_error_bind (first : Runs x s (.error e) cs s') : Runs (x >>= f) s (.error e) cs s' := by
  obtain ⟨ended, rfl, rfl⟩ := first
  constructor <;> simp only [bind, Cycle.andThen, ended]

private theorem runs_lift (y : Outcome α) (s : σ) : Runs (Cycle.lift y) s y.result [] s := ⟨rfl, rfl, rfl⟩

theorem runs_lift_bind {r : Except Fault β} {y : Outcome α} (ended : y.result = .ok a)
    (next : Runs (f a) s r cs s') : Runs (Cycle.lift y >>= f) s r cs s' := by
  have first : Runs (Cycle.lift y) s (.ok a) [] s := by
    rw [← ended]
    exact runs_lift y s
  exact runs_ok_bind first next

theorem runs_pure (a : α) (s : σ) : Runs (pure a : Cycle σ α) s (.ok a) [] s := ⟨rfl, rfl, rfl⟩

variable {c : Call} {answer : σ → Outcome α × σ} {kind : Kind} {wrap : Fault → Fault}

private theorem runs_call (answered : (answer s).1.result = .ok a) :
    Runs (Cycle.call c answer kind wrap) s (.ok a) [c] (answer s).2 :=
  ⟨call_result answered, rfl, rfl⟩

theorem runs_call_bind {r : Except Fault β} (answered : (answer s).1.result = .ok a)
    (next : Runs (f a) (answer s).2 r [] s') : Runs (Cycle.call c answer kind wrap >>= f) s r [c] s' :=
  runs_ok_bind (runs_call answered) next

/-- Whatever a client raises, it becomes a fault of the stage, and nothing follows. -/
theorem runs_raised_bind (raised : (answer s).1.result = .error e) (wraps : ∀ f, (wrap f).kind = kind) :
    ∃ e', e'.kind = kind ∧ Runs (Cycle.call c answer kind wrap >>= f) s (.error e') [c] (answer s).2 := by
  by_cases same : e.kind = kind
  · exact ⟨e, same, runs_error_bind ⟨by simp [Cycle.call, raised, same], rfl, rfl⟩⟩
  · exact ⟨wrap e, wraps e, runs_error_bind ⟨by simp [Cycle.call, raised, same], rfl, rfl⟩⟩

/-! ### The answers -/

/-- A listing that raises, or that is empty. -/
def Unlisted (answer : Outcome (List Partition)) : Prop :=
  (∃ e, answer.result = .error e) ∨ answer.result = .ok []

/-- A lookup that raises, or that leaves out one of the partitions. -/
def Missed (answer : Outcome OffsetMap) (ps : List Partition) : Prop :=
  (∃ e, answer.result = .error e) ∨ ∃ m, answer.result = .ok m ∧ ∃ p ∈ ps, p ∉ m.partitions

/-- A partition whose index has no numeral, so that it cannot be named. -/
def Nameless (ps : List Partition) : Prop := ∃ p ∈ ps, Numeral.Overlong p.index

/-- A lookup that leaves out a partition that cannot be named. -/
def Unspoken (answer : Outcome OffsetMap) (ps : List Partition) : Prop :=
  ∃ m, answer.result = .ok m ∧ ∃ p ∈ ps, p ∉ m.partitions ∧ Numeral.Overlong p.index

/-- Offsets that are not negative and have numerals within the limit. -/
def Fit (m : OffsetMap) : Prop := ∀ p, 0 ≤ m.offset p ∧ Writable (m.offset p).toNat

/-- In every state a client may raise, but it lists partitions of the topic only and tells offsets that are not
    negative, with numerals within the limit. -/
structure Lawful (client : Client σ) (topic : String) : Prop where
  own : ∀ s ps, (client.listPartitions topic s).1.result = .ok ps → ∀ p ∈ ps, p.topic = topic
  offsets : ∀ edge ps s m, (client.offsets edge ps s).1.result = .ok m →
    ∀ entry ∈ m.entries, 0 ≤ entry.2 ∧ Writable entry.2.toNat

section
variable (client : Client σ) (source : Source) (checkpoint : Option String) (s : σ)

/-- What the client answers first, and the state after it. -/
def listing : Outcome (List Partition) × σ := client.listPartitions source.topic s

/-- The partitions that are listed, in their order. -/
def partitions : List Partition :=
  match (listing client source s).1.result with
  | .ok ps => ps.eraseDups.mergeSort Partition.precedes
  | .error _ => []

/-- The end at which the first lookup asks: that of the reset strategy, or where retention begins. -/
def entryEdge : Edge := if Reset.IsDue checkpoint then source.edge else .earliest

/-- What the client answers to the first lookup, and the state after it. -/
def entry : Outcome OffsetMap × σ :=
  client.offsets (entryEdge source checkpoint) (partitions client source s) (listing client source s).2

/-- What the client answers to the second lookup, and the state after it. -/
def heads : Outcome OffsetMap × σ :=
  client.offsets .latest (partitions client source s) (entry client source checkpoint s).2

/-- A checkpoint that is behind what is retained of a partition that cannot be named. -/
def Unmoved : Prop :=
  checkpoint.getD "" ≠ "" ∧ ∃ m m', Checkpoint.decode (checkpoint.getD "") = .ok m ∧
    (entry client source checkpoint s).1.result = .ok m' ∧
    ∃ p ∈ partitions client source s, m.offset p < m'.offset p ∧ Numeral.Overlong p.index

/-- A checkpoint that is malformed, or that belongs to another topic. -/
def Misfit (topic : String) : Prop :=
  checkpoint.getD "" ≠ "" ∧ ((∃ e, Checkpoint.decode (checkpoint.getD "") = .error e ∧ e.kind = .format) ∨
    ∃ m, Checkpoint.decode (checkpoint.getD "") = .ok m ∧ ∃ p ∈ m.partitions, p.topic ≠ topic)

/-- A checkpoint with a numeral beyond the limit. -/
def Overlong (count : Nat) : Prop :=
  checkpoint.getD "" ≠ "" ∧ Checkpoint.decode (checkpoint.getD "") = .error (.overlongNumeral count)

/-- A checkpoint from which the topic can be resumed, or none at all. -/
def Usable (topic : String) : Prop := ∃ position, Reads topic checkpoint position

end

variable {client : Client σ} {source : Source} {checkpoint : Option String} {topic : String}
  {ps : List Partition} {m m' : OffsetMap}

/-- Why a checkpoint is refused. -/
inductive Refused (checkpoint : Option String) (topic : String) : Fault → Prop
  | misfit {e : Fault} (misfit : Misfit checkpoint topic) (format : e.kind = .format) : Refused checkpoint topic e
  | overlong {count : Nat} (overlong : Overlong checkpoint count) : Refused checkpoint topic (.overlongNumeral count)

private theorem not_misfit_of_usable (usable : Usable checkpoint topic) : ¬ Misfit checkpoint topic := by
  rintro ⟨given, misfit⟩
  obtain ⟨none | m, reads⟩ := usable
  · exact given reads
  · obtain ⟨_, decoded, own⟩ := reads
    rcases misfit with ⟨e, refused, _⟩ | ⟨m', decoded', p, member, foreign⟩
    · rw [decoded] at refused
      cases refused
    · rw [decoded] at decoded'
      cases decoded'
      exact foreign (own p member)

private theorem not_overlong_of_usable (usable : Usable checkpoint topic) (count : Nat) : ¬ Overlong checkpoint count := by
  rintro ⟨given, overlong⟩
  obtain ⟨none | m, reads⟩ := usable
  · exact given reads
  · obtain ⟨_, decoded, _⟩ := reads
    rw [decoded] at overlong
    cases overlong

private theorem not_overlong_of_misfit (misfit : Misfit checkpoint topic) (count : Nat) : ¬ Overlong checkpoint count := by
  rintro ⟨_, overlong⟩
  obtain ⟨_, ⟨e, refused, format⟩ | ⟨m, decoded, _⟩⟩ := misfit
  · rw [overlong] at refused
    cases refused
    cases format
  · rw [overlong] at decoded
    cases decoded

theorem not_refused_of_usable (usable : Usable checkpoint topic) : ¬ Refused checkpoint topic e := by
  rintro (misfit | overlong)
  · exact not_misfit_of_usable usable misfit
  · exact not_overlong_of_usable usable _ overlong

private theorem refused_format_iff (refused : Refused checkpoint topic e) : e.kind = .format ↔ Misfit checkpoint topic := by
  cases refused with
  | misfit misfit format => exact ⟨fun _ => misfit, fun _ => format⟩
  | overlong overlong => exact ⟨nofun, fun misfit => absurd overlong (not_overlong_of_misfit misfit _)⟩

private theorem refused_overlong_iff (refused : Refused checkpoint topic e) (count : Nat) :
    e = .overlongNumeral count ↔ Overlong checkpoint count := by
  cases refused with
  | misfit misfit format =>
    constructor
    · rintro rfl
      cases format
    · exact fun overlong => absurd overlong (not_overlong_of_misfit misfit count)
  | overlong overlong =>
    constructor
    · rintro ⟨⟩
      exact overlong
    · rintro ⟨_, again⟩
      rw [overlong.2] at again
      cases again
      rfl

/-! ### Offsets -/

theorem fit_of_entries (fits : ∀ entry ∈ m.entries, 0 ≤ entry.2 ∧ Writable entry.2.toNat) : Fit m := by
  intro p
  cases found : m.get? p with
  | none =>
    rw [OffsetMap.offset, found]
    exact ⟨Int.le_refl 0, Nat.pow_pos (by decide)⟩
  | some o =>
    rw [OffsetMap.offset, found]
    exact fits (p, o) (OffsetMap.get?_eq_some_iff.mp found)

theorem entry_fit (fit : Fit m) {entry : Partition × Int} (member : entry ∈ m.entries) :
    0 ≤ entry.2 ∧ Writable entry.2.toNat := by
  have bounds := fit entry.1
  rwa [OffsetMap.offset_of_mem (p := entry.1) member] at bounds

theorem fit_table (fit : Fit m) (distinct : ps.Nodup) : Fit (table m ps) := by
  refine fit_of_entries fun entry member => ?_
  rw [entries_table m distinct] at member
  obtain ⟨p, _, rfl⟩ := List.mem_map.mp member
  exact fit p

theorem fit_advance (fit : Fit m) (fit' : Fit m') : Fit (Advance.advance m m') := by
  intro p
  obtain ⟨nonneg, writable⟩ := fit p
  obtain ⟨nonneg', writable'⟩ := fit' p
  rw [Advance.offset_advance_eq nonneg]
  rcases Int.le_total (m.offset p) (m'.offset p) with less | more
  · rw [Int.max_eq_right less]
    exact ⟨nonneg', writable'⟩
  · rw [Int.max_eq_left more]
    exact ⟨nonneg, writable⟩

theorem fit_of_read {text : String} (read : Checkpoint.decode text = .ok m) : Fit m := by
  refine fit_of_entries fun entry member => ⟨(CheckpointReading.decode_own read entry member).2, ?_⟩
  exact (CheckpointGrammar.writable_of_read read entry member).2

/-! ### One stage after the other -/

private theorem missed_or_found (answer : Outcome OffsetMap) (ps : List Partition) :
    Missed answer ps ∨ ∃ m, answer.result = .ok m ∧ ∀ p ∈ ps, p ∈ m.partitions := by
  cases answered : answer.result with
  | error e => exact .inl (.inl ⟨e, answered⟩)
  | ok m =>
    by_cases found : ∀ p ∈ ps, p ∈ m.partitions
    · exact .inr ⟨m, rfl, found⟩
    · obtain ⟨p, member, absent⟩ := by simpa using found
      exact .inl (.inr ⟨m, answered, p, member, absent⟩)

theorem not_missed {answer : Outcome OffsetMap} (answered : answer.result = .ok m)
    (found : ∀ p ∈ ps, p ∈ m.partitions) : ¬ Missed answer ps := by
  rintro (⟨e, raised⟩ | ⟨m', answered', p, member, absent⟩)
  · rw [answered] at raised
    cases raised
  · rw [answered] at answered'
    cases answered'
    exact absent (found p member)

private theorem select_table (found : ∀ p ∈ ps, p ∈ m.partitions) :
    Cycle.omitted m ps = [] ∧ Cycle.select m ps = table m ps := by
  refine Planning.select_found fun p member => ?_
  obtain ⟨⟨_, o⟩, entered, rfl⟩ := List.mem_map.mp (found p member)
  rw [OffsetMap.offset_of_mem entered]
  exact OffsetMap.get?_eq_some_iff.mpr entered

private theorem omitted_of_absent {p : Partition} (member : p ∈ ps) (absent : p ∉ m.partitions) :
    p ∈ Cycle.omitted m ps := by
  refine List.mem_filter.mpr ⟨member, ?_⟩
  simpa using mt OffsetMap.contains_iff.mp absent

/-- How a lookup fails that raises or leaves out partitions: with a fault about the metadata, or for want of a numeral
    to name one of these. -/
def Astray (answer : Outcome OffsetMap) (ps : List Partition) (e : Fault) : Prop :=
  (¬ Unspoken answer ps ∧ e.kind = .metadata) ∨ (Unspoken answer ps ∧ e = .overlongNumber)

private theorem not_unspoken_of_raised {answer : Outcome OffsetMap} (raised : answer.result = .error e) :
    ¬ Unspoken answer ps := by
  rintro ⟨m, answered, _⟩
  rw [raised] at answered
  cases answered

private theorem astray_omitted {answer : Outcome OffsetMap} (answered : answer.result = .ok m) (edge : Edge)
    {missing : List Partition} (perm : missing.Perm (Cycle.omitted m ps)) :
    Astray answer ps (Fault.offsetsOmitted edge missing).worded := by
  have inside : ∀ p, p ∈ missing ↔ p ∈ ps ∧ p ∉ m.partitions := by
    intro p
    rw [perm.mem_iff, Cycle.omitted, List.mem_filter, ← OffsetMap.contains_iff, Bool.not_eq_true, Bool.not_eq_true']
  by_cases unspoken : Unspoken answer ps
  · obtain ⟨m', answered', p, member, absent, overlong⟩ := unspoken
    rw [answered] at answered'
    cases answered'
    refine .inr ⟨⟨m, answered, p, member, absent, overlong⟩, Fault.worded_overlong (n := p.index) ?_ overlong⟩
    exact List.mem_map_of_mem (f := fun p : Partition => (p.index : Int)) ((inside p).mpr ⟨member, absent⟩)
  · refine .inl ⟨unspoken, ?_⟩
    rw [Fault.worded_eq]
    · rfl
    · intro n number overlong
      obtain ⟨p, left, rfl⟩ := List.mem_map.mp number
      obtain ⟨member, absent⟩ := (inside p).mp left
      exact unspoken ⟨m, answered, p, member, absent, overlong⟩

private theorem astray_of_raised {answer : σ → Outcome OffsetMap × σ} {wrap : Fault → Fault} {f : OffsetMap → Cycle σ β}
    (raised : (answer s).1.result = .error e) (wraps : ∀ f, (wrap f).kind = .metadata) :
    ∃ e', Astray (answer s).1 ps e' ∧ Runs (Cycle.call c answer .metadata wrap >>= f) s (.error e') [c] (answer s).2 := by
  obtain ⟨e', metadata, ran⟩ := runs_raised_bind raised wraps
  exact ⟨e', .inl ⟨not_unspoken_of_raised raised, metadata⟩, ran⟩

private theorem lookup_missed (title : Title) (edge : Edge) (missed : Missed (client.offsets edge ps s).1 ps) :
    ∃ e, Astray (client.offsets edge ps s).1 ps e ∧
      Runs (Cycle.lookup client title edge ps) s (.error e) [.offsets edge ps] (client.offsets edge ps s).2 := by
  rcases missed with ⟨e, raised⟩ | ⟨m, answered, p, member, absent⟩
  · exact astray_of_raised raised fun _ => rfl
  · have some : (Cycle.omitted m ps).isEmpty = false := by
      rw [List.isEmpty_eq_false_iff]
      exact List.ne_nil_of_mem (omitted_of_absent member absent)
    refine ⟨_, astray_omitted answered edge (.refl _), runs_call_bind answered ?_⟩
    simp only [some]
    exact runs_lift _ _

private theorem lookup_found (title : Title) (edge : Edge) (answered : (client.offsets edge ps s).1.result = .ok m)
    (found : ∀ p ∈ ps, p ∈ m.partitions) :
    Runs (Cycle.lookup client title edge ps) s (.ok (table m ps)) [.offsets edge ps] (client.offsets edge ps s).2 := by
  obtain ⟨none, whole⟩ := select_table found
  refine runs_call_bind answered ?_
  simp only [none, whole]
  exact runs_pure _ _

private theorem resolve_missed (edge : Edge) (distinct : ps.Nodup) (missed : Missed (client.offsets edge ps s).1 ps) :
    ∃ e, Astray (client.offsets edge ps s).1 ps e ∧
      Runs (Cycle.resolve client edge ps) s (.error e) [.offsets edge ps] (client.offsets edge ps s).2 := by
  unfold Cycle.resolve
  rw [eraseDups_of_nodup distinct]
  rcases missed with ⟨e, raised⟩ | ⟨m, answered, p, member, absent⟩
  · exact astray_of_raised raised fun _ => rfl
  · have some : ((Cycle.omitted m ps).mergeSort Partition.precedesByName).isEmpty = false := by
      rw [List.isEmpty_eq_false_iff]
      exact List.ne_nil_of_mem ((List.mergeSort_perm _ _).mem_iff.mpr (omitted_of_absent member absent))
    refine ⟨_, astray_omitted answered edge (List.mergeSort_perm _ Partition.precedesByName),
      runs_call_bind answered ?_⟩
    simp only [some]
    exact runs_lift _ _

private theorem resolve_found (edge : Edge) (distinct : ps.Nodup) (answered : (client.offsets edge ps s).1.result = .ok m)
    (found : ∀ p ∈ ps, p ∈ m.partitions) :
    Runs (Cycle.resolve client edge ps) s (.ok (table m ps)) [.offsets edge ps] (client.offsets edge ps s).2 := by
  obtain ⟨none, whole⟩ := select_table found
  unfold Cycle.resolve
  rw [eraseDups_of_nodup distinct]
  refine runs_call_bind answered ?_
  simp only [none, whole, List.mergeSort_nil]
  exact runs_lift_bind rfl (runs_pure _ _)

/-- What is listed is kept, whatever its order. -/
theorem mem_partitions (answered : (listing client source s).1.result = .ok ps) {p : Partition} :
    p ∈ partitions client source s ↔ p ∈ ps := by
  simp only [partitions, answered]
  rw [(List.mergeSort_perm _ _).mem_iff, List.mem_eraseDups]

/-- Listing fails, or gives the partitions of the topic. -/
theorem list_cases (lawful : Lawful client source.topic) (s : σ) :
    (Unlisted (listing client source s).1 ∧ ∃ e, e.kind = .metadata ∧
      Runs (Cycle.list client source.title) s (.error e) [.listPartitions source.topic] (listing client source s).2) ∨
    (¬ Unlisted (listing client source s).1 ∧ partitions client source s ≠ [] ∧
      (partitions client source s).Nodup ∧ (∀ p ∈ partitions client source s, p.topic = source.topic) ∧
      Runs (Cycle.list client source.title) s (.ok (partitions client source s))
        [.listPartitions source.topic] (listing client source s).2) := by
  cases answered : (listing client source s).1.result with
  | error e => exact .inl ⟨.inl ⟨e, answered⟩, runs_raised_bind answered fun _ => rfl⟩
  | ok ps =>
    by_cases none : ps = []
    · subst none
      exact .inl ⟨.inr answered, .noPartitions source.title.shown, rfl,
        runs_call_bind answered (runs_lift _ _)⟩
    · have listed : partitions client source s = ps.eraseDups.mergeSort Partition.precedes := by
        simp only [partitions, answered]
      refine .inr ⟨?_, ?_, ?_, fun p member => lawful.own s ps answered p ((mem_partitions answered).mp member), ?_⟩
      · rintro (⟨e, raised⟩ | empty)
        · rw [answered] at raised
          cases raised
        · rw [answered] at empty
          cases empty
          exact none rfl
      · obtain ⟨p, member⟩ := List.exists_mem_of_ne_nil ps none
        exact List.ne_nil_of_mem ((mem_partitions answered).mpr member)
      · rw [listed]
        exact (List.mergeSort_perm _ _).nodup_iff.mpr (nodup_eraseDups ps)
      · have some : ps.isEmpty = false := List.isEmpty_eq_false_iff.mpr none
        refine runs_call_bind answered ?_
        simp only [some, listed]
        exact runs_pure _ _

/-- A checkpoint is refused, or the topic is resumed from it. -/
theorem resume_cases (given : checkpoint.getD "" ≠ "") (title : Title) :
    (∃ e, Refused checkpoint title.name e ∧ Cycle.resume title (checkpoint.getD "") = .error e) ∨
    ∃ m, Reads title.name checkpoint (some m) ∧ Fit m ∧ Cycle.resume title (checkpoint.getD "") = .ok m := by
  cases decoded : Checkpoint.decode (checkpoint.getD "") with
  | error e =>
    have failed : Cycle.resume title (checkpoint.getD "") = .error e := by
      rw [Cycle.resume, decoded]
      rfl
    rcases CheckpointReading.decode_fault decoded with format | ⟨count, rfl⟩
    · exact .inl ⟨e, .misfit ⟨given, .inl ⟨e, decoded, format⟩⟩ format, failed⟩
    · exact .inl ⟨_, .overlong ⟨given, decoded⟩, failed⟩
  | ok m =>
    by_cases own : ∀ p ∈ m.partitions, p.topic = title.name
    · exact .inr ⟨m, ⟨given, decoded, own⟩, fit_of_read decoded, Planning.resume_eq decoded own⟩
    · obtain ⟨p, member, foreign⟩ := by simpa using own
      obtain ⟨topics, failed⟩ := Planning.resume_foreign decoded member foreign
      exact .inl ⟨_, .misfit ⟨given, .inr ⟨m, decoded, p, member, foreign⟩⟩ rfl, failed⟩

/-- How planning goes: its result, its calls and the state that is left, by the first stage that fails. -/
inductive Course (client : Client σ) (source : Source) (checkpoint : Option String) (s : σ) :
    Except Fault (List Range × Summary) → List Call → σ → Prop
  | unlisted {e : Fault} (unlisted : Unlisted (listing client source s).1) (metadata : e.kind = .metadata) :
      Course client source checkpoint s (.error e) [.listPartitions source.topic] (listing client source s).2
  | refused {e : Fault} (listed : ¬ Unlisted (listing client source s).1)
      (refused : Refused checkpoint source.topic e) :
      Course client source checkpoint s (.error e) [.listPartitions source.topic] (listing client source s).2
  | startless {e : Fault} (listed : ¬ Unlisted (listing client source s).1) (usable : Usable checkpoint source.topic)
      (missed : Missed (entry client source checkpoint s).1 (partitions client source s))
      (astray : Astray (entry client source checkpoint s).1 (partitions client source s) e) :
      Course client source checkpoint s (.error e) [.listPartitions source.topic,
        .offsets (entryEdge source checkpoint) (partitions client source s)] (entry client source checkpoint s).2
  | unmoved (listed : ¬ Unlisted (listing client source s).1) (usable : Usable checkpoint source.topic)
      (started : ¬ Missed (entry client source checkpoint s).1 (partitions client source s))
      (unmoved : Unmoved client source checkpoint s) :
      Course client source checkpoint s (.error .overlongNumber) [.listPartitions source.topic,
        .offsets (entryEdge source checkpoint) (partitions client source s)] (entry client source checkpoint s).2
  | headless {e : Fault} (listed : ¬ Unlisted (listing client source s).1) (usable : Usable checkpoint source.topic)
      (started : ¬ Missed (entry client source checkpoint s).1 (partitions client source s))
      (moved : ¬ Unmoved client source checkpoint s)
      (missed : Missed (heads client source checkpoint s).1 (partitions client source s))
      (astray : Astray (heads client source checkpoint s).1 (partitions client source s) e) :
      Course client source checkpoint s (.error e) [.listPartitions source.topic,
        .offsets (entryEdge source checkpoint) (partitions client source s),
        .offsets .latest (partitions client source s)] (heads client source checkpoint s).2
  | nameless (listed : ¬ Unlisted (listing client source s).1) (usable : Usable checkpoint source.topic)
      (started : ¬ Missed (entry client source checkpoint s).1 (partitions client source s))
      (moved : ¬ Unmoved client source checkpoint s)
      (headed : ¬ Missed (heads client source checkpoint s).1 (partitions client source s))
      (nameless : Nameless (partitions client source s)) :
      Course client source checkpoint s (.error .overlongNumber) [.listPartitions source.topic,
        .offsets (entryEdge source checkpoint) (partitions client source s),
        .offsets .latest (partitions client source s)] (heads client source checkpoint s).2
  | planned {rs : List Range} {summary : Summary} (listed : ¬ Unlisted (listing client source s).1)
      (usable : Usable checkpoint source.topic)
      (started : ¬ Missed (entry client source checkpoint s).1 (partitions client source s))
      (moved : ¬ Unmoved client source checkpoint s)
      (headed : ¬ Missed (heads client source checkpoint s).1 (partitions client source s))
      (named : ¬ Nameless (partitions client source s)) (short : Short rs) :
      Course client source checkpoint s (.ok (rs, summary)) [.listPartitions source.topic,
        .offsets (entryEdge source checkpoint) (partitions client source s),
        .offsets .latest (partitions client source s)] (heads client source checkpoint s).2

/-- Where reading starts is found by one lookup, unless the checkpoint is refused, or is behind what is retained of a
    partition that cannot be named. -/
theorem starts_cases (lawful : Lawful client source.topic) (checkpoint : Option String) (distinct : ps.Nodup) (s : σ) :
    let answer := client.offsets (entryEdge source checkpoint) ps s
    let calls := [.offsets (entryEdge source checkpoint) ps]
    let behind := checkpoint.getD "" ≠ "" ∧ ∃ m m', Checkpoint.decode (checkpoint.getD "") = .ok m ∧
      answer.1.result = .ok m' ∧ ∃ p ∈ ps, m.offset p < m'.offset p ∧ Numeral.Overlong p.index
    (∃ e, Refused checkpoint source.topic e ∧ Runs (Cycle.starts client source checkpoint ps) s (.error e) [] s) ∨
    (Usable checkpoint source.topic ∧ Missed answer.1 ps ∧
      ∃ e, Astray answer.1 ps e ∧ Runs (Cycle.starts client source checkpoint ps) s (.error e) calls answer.2) ∨
    (Usable checkpoint source.topic ∧ ¬ Missed answer.1 ps ∧ behind ∧
      Runs (Cycle.starts client source checkpoint ps) s (.error .overlongNumber) calls answer.2) ∨
    (Usable checkpoint source.topic ∧ ¬ Missed answer.1 ps ∧ ¬ behind ∧
      ∃ m, Fit m ∧ Runs (Cycle.starts client source checkpoint ps) s (.ok m) calls answer.2) := by
  intro answer calls behind
  by_cases due : Reset.IsDue checkpoint
  · have usable : Usable checkpoint source.topic := ⟨none, due⟩
    have edge : entryEdge source checkpoint = source.edge := if_pos due
    simp only [answer, calls, Cycle.starts, if_pos due, edge]
    rcases missed_or_found (client.offsets source.edge ps s).1 ps with missed | ⟨m, answered, found⟩
    · exact .inr (.inl ⟨usable, missed, resolve_missed source.edge distinct missed⟩)
    · have fit := fit_table (fit_of_entries (lawful.offsets _ _ _ m answered)) distinct
      exact .inr (.inr (.inr ⟨usable, not_missed answered found, fun late => late.1 due, _, fit,
        resolve_found source.edge distinct answered found⟩))
  · have edge : entryEdge source checkpoint = .earliest := if_neg due
    simp only [answer, calls, behind, Cycle.starts, if_neg due, edge]
    rcases resume_cases due source.title with ⟨e, refused, failed⟩ | ⟨m, reads, fit, resumed⟩
    · refine .inl ⟨e, refused, runs_error_bind ?_⟩
      rw [failed]
      exact runs_lift _ _
    · have usable : Usable checkpoint source.topic := ⟨some m, reads⟩
      rw [resumed]
      rcases missed_or_found (client.offsets .earliest ps s).1 ps with missed | ⟨m', answered, found⟩
      · obtain ⟨e, astray, failed⟩ := lookup_missed source.title .earliest missed
        exact .inr (.inl ⟨usable, missed, e, astray, runs_lift_bind rfl (runs_error_bind failed)⟩)
      · have fit' := fit_table (fit_of_entries (lawful.offsets _ _ _ m' answered)) distinct
        have moving := runs_ok_bind (f := fun earliest => Cycle.lift (Retention.advanceReported m earliest))
          (lookup_found source.title .earliest answered found) (runs_lift _ _)
        have moved := Advance.advanceReported_result m (table m' ps)
        simp only [untold_table distinct] at moved
        by_cases late : ∃ p ∈ ps, m.offset p < m'.offset p ∧ Numeral.Overlong p.index
        · rw [moved, if_pos late] at moving
          exact .inr (.inr (.inl ⟨usable, not_missed answered found, ⟨due, m, m', reads.2.1, answered, late⟩,
            runs_lift_bind rfl moving⟩))
        · rw [moved, if_neg late] at moving
          refine .inr (.inr (.inr ⟨usable, not_missed answered found, ?_, _, fit_advance fit fit',
            runs_lift_bind rfl moving⟩))
          rintro ⟨_, _, _, decoded, answered', behind⟩
          rw [reads.2.1] at decoded
          cases decoded
          rw [answered] at answered'
          cases answered'
          exact late behind

/-- Past the lookups nothing fails unless a partition cannot be named, and then something does: the checkpoint has to
    name them all. -/
theorem finish_runs {starts heads : OffsetMap} {budget : Int} (nonneg : 0 ≤ budget) (fit : Fit starts)
    (fit' : Fit heads) (own : ∀ p ∈ heads.partitions, p.topic = topic) (some : heads.entries ≠ [])
    (nameable : Checkpoint.Nameable topic) (s : σ) :
    ∃ result, (Nameless heads.partitions → result = .error .overlongNumber) ∧
      (¬ Nameless heads.partitions → ∃ rs summary, result = .ok (rs, summary) ∧ Short rs) ∧
      Runs (do
        let ranges ← Cycle.lift (Allocation.allocate starts heads budget)
        let summary ← Cycle.lift (.ofExcept (Summary.ofRanges ranges))
        return (ranges, summary)) s result [] s := by
  have headsNonneg : ∀ entry ∈ heads.entries, 0 ≤ entry.2 := fun _ member => (entry_fit fit' member).1
  have failing {x : Outcome (List Range)} (failed : x.result = .error .overlongNumber) :
      Runs (do
        let ranges ← Cycle.lift x
        let summary ← Cycle.lift (.ofExcept (Summary.ofRanges ranges))
        return (ranges, summary)) s (.error .overlongNumber) [] s := runs_error_bind (failed ▸ runs_lift x s)
  by_cases unnamed : ∃ entry ∈ heads.entries, Unnamed starts entry
  · have nameless : Nameless heads.partitions := by
      obtain ⟨entry, member, _, overlong⟩ := unnamed
      exact ⟨entry.1, List.mem_map_of_mem member, overlong⟩
    have failed := compute_unnamed nonneg headsNonneg unnamed
    refine ⟨_, fun _ => rfl, fun named => absurd nameless named, failing ?_⟩
    rcases allocate_cases starts heads budget with same | failed'
    · rw [same, failed]
    · exact failed'
  · obtain ⟨rs, run, allotted⟩ := compute_allotted ⟨nonneg, headsNonneg, fun entry _ => (fit entry.1).1,
      fun entry member left => unnamed ⟨entry, member, left⟩⟩
    by_cases nameless : Nameless heads.partitions
    · refine ⟨_, fun _ => rfl, fun named => absurd nameless named, ?_⟩
      rcases allocate_cases starts heads budget with same | failed
      · have long : ¬ Short rs := by
          obtain ⟨p, member, overlong⟩ := nameless
          obtain ⟨r, listed, rfl⟩ := List.mem_map.mp ((perm_of_order allotted.order).mem_iff.mpr member)
          exact fun short => not_overlong_iff.mpr (short r listed).1 overlong
        have summed : Summary.ofRanges rs = .error .overlongNumber := by
          rw [Summary.ofRanges, RoundTrip.encode_overlong (RoundTrip.shared_of_order allotted.order own).own
            (nonempty_of_order allotted.order some) nameable long]
          rfl
        refine runs_lift_bind (same.trans run) (runs_error_bind ?_)
        rw [summed]
        exact runs_lift _ s
      · exact failing failed
    · have named : ∀ p ∈ heads.partitions, ¬ Numeral.Overlong p.index := fun p member overlong =>
        nameless ⟨p, member, overlong⟩
      have short : Short rs := RoundTrip.short_of_allotted allotted fun entry member =>
        ⟨not_overlong_iff.mp (named entry.1 (List.mem_map_of_mem member)), (entry_fit fit' member).2⟩
      have summed := RoundTrip.summary_of_order allotted.order own some nameable short
      exact ⟨_, fun left => absurd left nameless, fun _ => ⟨rs, _, rfl, short⟩,
        runs_lift_bind ((allocate_result named).trans run) (runs_lift_bind summed (runs_pure _ s))⟩

/-- Planning takes one of its courses. -/
theorem plan_course (lawful : Lawful client source.topic) (checkpoint : Option String) (limit : Int) (s : σ) :
    ∃ result calls s', Runs (Cycle.plan client source checkpoint limit) s result calls s' ∧
      Course client source checkpoint s result calls s' := by
  rcases list_cases lawful s with ⟨unlisted, e, metadata, failed⟩ | ⟨listed, some, distinct, own, ran⟩
  · exact ⟨_, _, _, runs_error_bind failed, .unlisted unlisted metadata⟩
  rcases starts_cases lawful checkpoint distinct (listing client source s).2 with ⟨e, refused, failed⟩ |
    ⟨usable, missed, e, astray, failed⟩ | ⟨usable, started, unmoved, failed⟩ | ⟨usable, started, moved, starts, fit, first⟩
  · exact ⟨_, _, _, runs_ok_bind ran (runs_error_bind failed), .refused listed refused⟩
  · exact ⟨_, _, _, runs_ok_bind ran (runs_error_bind failed), .startless listed usable missed astray⟩
  · exact ⟨_, _, _, runs_ok_bind ran (runs_error_bind failed), .unmoved listed usable started unmoved⟩
  rcases missed_or_found (heads client source checkpoint s).1 (partitions client source s) with
    missed | ⟨m, answered, found⟩
  · obtain ⟨e, astray, failed⟩ := lookup_missed source.title .latest missed
    exact ⟨_, _, _, runs_ok_bind ran (runs_ok_bind first (runs_error_bind failed)),
      .headless listed usable started moved missed astray⟩
  · have entries := entries_table m distinct
    have keys : (table m (partitions client source s)).partitions = partitions client source s := by
      rw [OffsetMap.partitions, entries, List.map_map]
      exact List.map_id _
    have fit' := fit_table (fit_of_entries (lawful.offsets _ _ _ m answered)) distinct
    obtain ⟨result, unnamed, planned, finished⟩ := finish_runs (Cycle.budget_nonneg source limit) fit fit'
      (fun p member => own p (keys ▸ member)) (by simpa [entries] using some) source.isTopic.2
      (heads client source checkpoint s).2
    rw [keys] at unnamed planned
    have looked := lookup_found source.title .latest answered found
    have headed := not_missed answered found
    refine ⟨_, _, _, runs_ok_bind ran (runs_ok_bind first (runs_ok_bind looked finished)), ?_⟩
    by_cases nameless : Nameless (partitions client source s)
    · rw [unnamed nameless]
      exact .nameless listed usable started moved headed nameless
    · obtain ⟨rs, summary, rfl, short⟩ := planned nameless
      exact .planned listed usable started moved headed nameless short

/-! ### What a course tells -/

section
variable {result : Except Fault (List Range × Summary)} {calls : List Call}

/-- A call for metadata raises, or its answer is of no use, and the partitions that it leaves out can be named. -/
def Lost (client : Client σ) (source : Source) (checkpoint : Option String) (s : σ) : Prop :=
  Unlisted (listing client source s).1 ∨ Usable checkpoint source.topic ∧
    (Missed (entry client source checkpoint s).1 (partitions client source s) ∧
        ¬ Unspoken (entry client source checkpoint s).1 (partitions client source s) ∨
      ¬ Missed (entry client source checkpoint s).1 (partitions client source s) ∧
        ¬ Unmoved client source checkpoint s ∧
        Missed (heads client source checkpoint s).1 (partitions client source s) ∧
        ¬ Unspoken (heads client source checkpoint s).1 (partitions client source s))

/-- A partition has to be named and cannot: it was left out, it is moved past what is gone, or it comes to stand in
    the checkpoint. -/
def Wordless (client : Client σ) (source : Source) (checkpoint : Option String) (s : σ) : Prop :=
  ¬ Unlisted (listing client source s).1 ∧ Usable checkpoint source.topic ∧
    (Unspoken (entry client source checkpoint s).1 (partitions client source s) ∨
      ¬ Missed (entry client source checkpoint s).1 (partitions client source s) ∧
        (Unmoved client source checkpoint s ∨
          Unspoken (heads client source checkpoint s).1 (partitions client source s) ∨
          ¬ Missed (heads client source checkpoint s).1 (partitions client source s) ∧
            Nameless (partitions client source s)))

private theorem missed_of_unspoken {answer : Outcome OffsetMap} (unspoken : Unspoken answer ps) : Missed answer ps := by
  obtain ⟨m, answered, p, member, absent, _⟩ := unspoken
  exact .inr ⟨m, answered, p, member, absent⟩

private theorem not_wordless_of_lost (lost : Lost client source checkpoint s) : ¬ Wordless client source checkpoint s := by
  rintro ⟨listed, _, unspoken | ⟨started, later⟩⟩
  · rcases lost with unlisted | ⟨_, ⟨_, spoken⟩ | ⟨started, _⟩⟩
    · exact listed unlisted
    · exact spoken unspoken
    · exact started (missed_of_unspoken unspoken)
  · rcases lost with unlisted | ⟨_, ⟨missed, _⟩ | ⟨_, moved, missed, spoken⟩⟩
    · exact listed unlisted
    · exact started missed
    · rcases later with unmoved | unspoken | ⟨headed, _⟩
      · exact moved unmoved
      · exact spoken unspoken
      · exact headed missed

private theorem usable_of_lost (lost : Lost client source checkpoint s) (listed : ¬ Unlisted (listing client source s).1) :
    Usable checkpoint source.topic := (lost.resolve_left listed).1

/-- Planning fails for its metadata, because the checkpoint is refused, or for want of a numeral. -/
theorem course_error (course : Course client source checkpoint s (.error e) calls s') :
    (Lost client source checkpoint s ∧ e.kind = .metadata) ∨
      (¬ Unlisted (listing client source s).1 ∧ Refused checkpoint source.topic e) ∨
      (Wordless client source checkpoint s ∧ e = .overlongNumber) := by
  cases course with
  | unlisted unlisted metadata => exact .inl ⟨.inl unlisted, metadata⟩
  | refused listed refused => exact .inr (.inl ⟨listed, refused⟩)
  | startless listed usable missed astray =>
    rcases astray with ⟨spoken, metadata⟩ | ⟨unspoken, wordless⟩
    · exact .inl ⟨.inr ⟨usable, .inl ⟨missed, spoken⟩⟩, metadata⟩
    · exact .inr (.inr ⟨⟨listed, usable, .inl unspoken⟩, wordless⟩)
  | unmoved listed usable started unmoved =>
    exact .inr (.inr ⟨⟨listed, usable, .inr ⟨started, .inl unmoved⟩⟩, rfl⟩)
  | headless listed usable started moved missed astray =>
    rcases astray with ⟨spoken, metadata⟩ | ⟨unspoken, wordless⟩
    · exact .inl ⟨.inr ⟨usable, .inr ⟨started, moved, missed, spoken⟩⟩, metadata⟩
    · exact .inr (.inr ⟨⟨listed, usable, .inr ⟨started, .inr (.inl unspoken)⟩⟩, wordless⟩)
  | nameless listed usable started _ headed nameless =>
    exact .inr (.inr ⟨⟨listed, usable, .inr ⟨started, .inr (.inr ⟨headed, nameless⟩)⟩⟩, rfl⟩)

private theorem course_ok {batch : List Range × Summary} (course : Course client source checkpoint s (.ok batch) calls s') :
    Usable checkpoint source.topic ∧ ¬ Lost client source checkpoint s ∧ ¬ Wordless client source checkpoint s := by
  cases course with
  | planned listed usable started moved headed named =>
    refine ⟨usable, ?_, ?_⟩
    · rintro (unlisted | ⟨_, ⟨missed, _⟩ | ⟨_, _, missed, _⟩⟩)
      · exact listed unlisted
      · exact started missed
      · exact headed missed
    · rintro ⟨_, _, unspoken | ⟨_, unmoved | unspoken | ⟨_, nameless⟩⟩⟩
      · exact started (missed_of_unspoken unspoken)
      · exact moved unmoved
      · exact headed (missed_of_unspoken unspoken)
      · exact named nameless

theorem course_metadata_iff (course : Course client source checkpoint s result calls s') :
    (∃ e, result = .error e ∧ e.kind = .metadata) ↔ Lost client source checkpoint s := by
  cases result with
  | error e =>
    rcases course_error course with ⟨lost, metadata⟩ | ⟨listed, refused⟩ | ⟨wordless, rfl⟩
    · exact ⟨fun _ => lost, fun _ => ⟨e, rfl, metadata⟩⟩
    · constructor
      · rintro ⟨_, ⟨⟩, metadata⟩
        cases refused with
        | misfit _ format =>
          rw [format] at metadata
          cases metadata
        | overlong => cases metadata
      · exact fun lost => absurd refused (not_refused_of_usable (usable_of_lost lost listed))
    · constructor
      · rintro ⟨_, ⟨⟩, metadata⟩
        cases metadata
      · exact fun lost => absurd wordless (not_wordless_of_lost lost)
  | ok batch =>
    constructor
    · rintro ⟨_, ⟨⟩, _⟩
    · exact fun lost => absurd lost (course_ok course).2.1

theorem course_format_iff (course : Course client source checkpoint s result calls s') :
    (∃ e, result = .error e ∧ e.kind = .format) ↔
      ¬ Unlisted (listing client source s).1 ∧ Misfit checkpoint source.topic := by
  cases result with
  | error e =>
    rcases course_error course with ⟨lost, metadata⟩ | ⟨listed, refused⟩ | ⟨wordless, rfl⟩
    · constructor
      · rintro ⟨_, ⟨⟩, format⟩
        rw [metadata] at format
        cases format
      · exact fun right => absurd right.2 (not_misfit_of_usable (usable_of_lost lost right.1))
    · rw [← refused_format_iff refused]
      constructor
      · rintro ⟨_, ⟨⟩, format⟩
        exact ⟨listed, format⟩
      · exact fun right => ⟨e, rfl, right.2⟩
    · constructor
      · rintro ⟨_, ⟨⟩, format⟩
        cases format
      · exact fun right => absurd right.2 (not_misfit_of_usable wordless.2.1)
  | ok batch =>
    constructor
    · rintro ⟨_, ⟨⟩, _⟩
    · exact fun right => absurd right.2 (not_misfit_of_usable (course_ok course).1)

theorem course_overlong_iff (course : Course client source checkpoint s result calls s') (count : Nat) :
    result = .error (.overlongNumeral count) ↔
      ¬ Unlisted (listing client source s).1 ∧ Overlong checkpoint count := by
  cases result with
  | error e =>
    rcases course_error course with ⟨lost, metadata⟩ | ⟨listed, refused⟩ | ⟨wordless, rfl⟩
    · constructor
      · rintro ⟨⟩
        cases metadata
      · exact fun right => absurd right.2 (not_overlong_of_usable (usable_of_lost lost right.1) count)
    · rw [Except.error.injEq, refused_overlong_iff refused]
      exact ⟨fun overlong => ⟨listed, overlong⟩, And.right⟩
    · exact ⟨nofun, fun right => absurd right.2 (not_overlong_of_usable wordless.2.1 count)⟩
  | ok batch =>
    constructor
    · rintro ⟨⟩
    · exact fun right => absurd right.2 (not_overlong_of_usable (course_ok course).1 count)

theorem course_wordless_iff (course : Course client source checkpoint s result calls s') :
    result = .error .overlongNumber ↔ Wordless client source checkpoint s := by
  cases result with
  | error e =>
    rcases course_error course with ⟨lost, metadata⟩ | ⟨listed, refused⟩ | ⟨wordless, rfl⟩
    · constructor
      · rintro ⟨⟩
        cases metadata
      · exact fun wordless => absurd wordless (not_wordless_of_lost lost)
    · constructor
      · rintro ⟨⟩
        cases refused with
        | misfit _ format => cases format
      · exact fun wordless => absurd refused (not_refused_of_usable wordless.2.1)
    · exact ⟨fun _ => wordless, fun _ => rfl⟩
  | ok batch => exact ⟨nofun, fun wordless => absurd wordless (course_ok course).2.2⟩

/-- There is no other way for planning to fail. -/
theorem course_fault (course : Course client source checkpoint s (.error e) calls s') :
    e.kind = .metadata ∨ e.kind = .format ∨ (∃ count, e = .overlongNumeral count) ∨ e = .overlongNumber := by
  rcases course_error course with ⟨_, metadata⟩ | ⟨_, refused⟩ | ⟨_, wordless⟩
  · exact .inl metadata
  · cases refused with
    | misfit _ format => exact .inr (.inl format)
    | overlong => exact .inr (.inr (.inl ⟨_, rfl⟩))
  · exact .inr (.inr (.inr wordless))

theorem course_calls (course : Course client source checkpoint s result calls s') :
    calls <+: [.listPartitions source.topic, .offsets (entryEdge source checkpoint) (partitions client source s),
      .offsets .latest (partitions client source s)] := by
  cases course with
  | unlisted => exact ⟨_, rfl⟩
  | refused => exact ⟨_, rfl⟩
  | startless => exact ⟨_, rfl⟩
  | unmoved => exact ⟨_, rfl⟩
  | headless => exact ⟨_, rfl⟩
  | nameless => exact ⟨[], rfl⟩
  | planned => exact ⟨[], rfl⟩

end

end LogCursor.Stages
