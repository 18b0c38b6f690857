import LogCursor.Demonstration
import LogCursor.Proofs.StableCycle
import Mathlib.Algebra.BigOperators.Ring.Finset
/-!
Polls in a row, each from the checkpoint of the one before it, until one of them finds nothing (`Loop`). Over a
broker that nobody else changes, a poll that reads makes the backlog smaller by what it gives out, and leaves the
rest of the records for the polls after it (`backlog_stepped`, `rest_stepped`). So such a row comes to its end,
after as many polls as the backlog has budgets and one more, and gives out every record once (`loop_drains`).
-/
namespace LogCursor.PollLoop
open LogCursor.Cycle LogCursor.History LogCursor.Answers LogCursor.PartitionOrder LogCursor.Planning
open LogCursor.Polling LogCursor.Resumption LogCursor.CheckpointText LogCursor.StableCycle

section
variable {σ : Type}

/-- Polls in a row with what they return: the last of them finds no records, and every other one is followed by a
    poll from its checkpoint. -/
inductive Loop (client : Client σ) (source : Source) (limit : Int) :
    Option String → σ → List (Option (List Record) × String) → Prop where
  | last {checkpoint : Option String} {s : σ} {text : String}
      (polled : (poll client source checkpoint limit s).outcome.result = .ok (none, text)) :
      Loop client source limit checkpoint s [(none, text)]
  | more {checkpoint : Option String} {s : σ} {records : List Record} {text : String}
      {later : List (Option (List Record) × String)}
      (polled : (poll client source checkpoint limit s).outcome.result = .ok (some records, text))
      (rest : Loop client source limit (some text) (poll client source checkpoint limit s).state later) :
      Loop client source limit checkpoint s ((some records, text) :: later)

variable {client : Client σ} {source : Source} {limit : Int} {checkpoint : Option String} {s : σ}
  {batches : List (Option (List Record) × String)}

/-- A loop runs in one way only. -/
theorem loop_unique {other : List (Option (List Record) × String)}
    (loop : Loop client source limit checkpoint s batches) (loop' : Loop client source limit checkpoint s other) :
    other = batches := by
  induction loop generalizing other with
  | last polled =>
    cases loop' with
    | last polled' =>
      rw [polled] at polled'
      cases polled'
      rfl
    | more polled' _ =>
      rw [polled] at polled'
      cases polled'
  | more polled _ ih =>
    cases loop' with
    | last polled' =>
      rw [polled] at polled'
      cases polled'
    | more polled' rest' =>
      rw [polled] at polled'
      cases polled'
      rw [ih rest']

/-- Polling as often as the loop does, or more often, gives the loop. -/
theorem pollAll_of_loop (loop : Loop client source limit checkpoint s batches) {fuel : Nat}
    (enough : batches.length ≤ fuel) :
    (pollAll client source limit fuel checkpoint s).outcome.result = .ok batches := by
  induction loop generalizing fuel with
  | last polled =>
    cases fuel with
    | zero => cases enough
    | succ fuel =>
      rw [pollAll, result_bind, polled]
      rfl
  | more polled _ ih =>
    cases fuel with
    | zero => cases enough
    | succ fuel =>
      rw [pollAll, result_bind, polled]
      change ((pollAll client source limit fuel _ >>= _ : Cycle σ _) _).outcome.result = _
      rw [result_bind, ih (Nat.le_of_succ_le_succ enough)]
      rfl

end

variable {b : Broker} {h : Annals} {source : Source} {checkpoint : Option String} {position next : Option OffsetMap}
  {limit : Int} {rs : List Range}

/-- The records between where partitions are read from and their heads. -/
def backlog (b : Broker) (source : Source) (position : Option OffsetMap) : Int :=
  ((listing source.topic (count b source.topic)).map fun p =>
    edgeOf b .latest p - start b source.edge position p).sum

/-- The records of a partition from where it is read to its head. -/
def waiting (b : Broker) (h : Annals) (source : Source) (position : Option OffsetMap) (p : Partition) : List Record :=
  ((h p.topic p.index).take (edgeOf b .latest p)).drop (start b source.edge position p).toNat

/-- The records of all partitions of a topic that are not yet read. -/
def rest (b : Broker) (h : Annals) (source : Source) (position : Option OffsetMap) : List Record :=
  (listing source.topic (count b source.topic)).flatMap (waiting b h source position)

/-- A poll in which ranges are read from one position and leave the next one where they stop. -/
structure Stepped (b : Broker) (source : Source) (limit : Int) (position next : Option OffsetMap)
    (rs : List Range) : Prop where
  partitions : rs.map Range.partition = listing source.topic (count b source.topic)
  start : ∀ r ∈ rs, (r.start : Int) = StableCycle.start b source.edge position r.partition
  next : ∀ r ∈ rs, (r.stop : Int) = StableCycle.start b source.edge next r.partition
  stop : ∀ r ∈ rs, r.stop ≤ edgeOf b .latest r.partition
  total : (Range.total rs : Int) = min (budget source limit) (backlog b source position)

/-- A broker whose topic has few enough partitions, with heads that are short enough, for its checkpoints to be
    read again. -/
structure Recorded (b : Broker) (h : Annals) (source : Source) : Prop where
  keeps : Keeps b h
  known : 0 < count b source.topic
  few : Writable (count b source.topic)
  short : ∀ p ∈ listing source.topic (count b source.topic), Writable (edgeOf b .latest p)

/-- A poll gives out the records of its ranges, unless there are none, with a checkpoint that is read again. -/
theorem poll_step (recorded : Recorded b h source) (reads : Reads source.topic checkpoint position) (limit : Int) :
    ∃ rs text m, (poll Broker.client source checkpoint limit b).outcome.result =
        .ok (if Range.total rs = 0 then none else some (rs.flatMap (slice h)), text) ∧
      Reads source.topic (some text) (some m) ∧ Stepped b source limit position (some m) rs := by
  obtain ⟨ns, cs, rs, run, planned, polled⟩ :=
    poll_settled recorded.keeps recorded.known recorded.few recorded.short reads limit
  obtain ⟨m, reads', entries⟩ := reads_checkpointOf source.isTopic planned.partitions recorded.few fun r member =>
    writable_of_le (recorded.short _ (listed_of_partitions planned.partitions member)) (planned.stop r member)
  refine ⟨rs, _, m, polled, reads', planned.partitions, ?_, ?_, planned.stop, ?_⟩
  · intro r member
    rw [planned.start r member, firstOffset_eq]
  · -- A range begins within what is retained, so where it stops is not moved up again.
    intro r member
    have low := earliest_le_start b source.edge position r.partition
    rw [← firstOffset_eq, ← planned.start r member] at low
    have high := planned.stop r member
    have forward := r.start_le_stop
    show (r.stop : Int) = min (max (m.offset r.partition) _) _
    rw [RoundTrip.offset_stop entries member]
    omega
  · rw [planned.total, unread, backlog]
    simp only [firstOffset_eq]

private theorem backlog_eq (partitions : rs.map Range.partition = listing source.topic (count b source.topic))
    {at' : Range → Nat} (reached : ∀ r ∈ rs, (at' r : Int) = start b source.edge position r.partition) :
    backlog b source position = (rs.map fun r => (edgeOf b .latest r.partition : Int) - at' r).sum := by
  rw [backlog, ← partitions, List.map_map]
  refine congrArg List.sum (List.map_congr_left fun r member => ?_)
  rw [Function.comp_apply, reached r member]

private theorem backlog_stepped (stepped : Stepped b source limit position next rs) :
    backlog b source next = backlog b source position - Range.total rs := by
  have split := ExactAllocation.sum_stops (fun r => edgeOf b .latest r.partition) rs
  rw [backlog_eq stepped.partitions stepped.next, backlog_eq stepped.partitions stepped.start]
  omega

private theorem waiting_split (r : Range) (within : r.stop ≤ edgeOf b .latest r.partition)
    (first : (r.start : Int) = start b source.edge position r.partition)
    (last : (r.stop : Int) = start b source.edge next r.partition) :
    waiting b h source position r.partition = slice h r ++ waiting b h source next r.partition := by
  have forward := r.start_le_stop
  have begins : (start b source.edge position r.partition).toNat = r.start := by omega
  have ends : (start b source.edge next r.partition).toNat = r.start + r.count := by
    unfold Range.count
    omega
  have inside : r.count ≤ edgeOf b .latest r.partition - r.start := by
    unfold Range.count
    omega
  rw [waiting, waiting, begins, ends, ← List.drop_drop, slice, List.drop_take, ← Nat.min_eq_left inside,
    ← List.take_take, Nat.min_eq_left inside]
  exact (List.take_append_drop r.count _).symm

private theorem rest_stepped (stepped : Stepped b source limit position next rs) :
    (rs.flatMap (slice h) ++ rest b h source next).Perm (rest b h source position) := by
  have split : rest b h source position =
      rs.flatMap fun r => slice h r ++ waiting b h source next r.partition := by
    rw [rest, ← stepped.partitions, List.flatMap_map]
    exact List.flatMap_congr fun r member =>
      waiting_split r (stepped.stop r member) (stepped.start r member) (stepped.next r member)
  rw [split, rest, ← stepped.partitions, List.flatMap_map]
  exact List.flatMap_append_perm rs (slice h) fun r => waiting b h source next r.partition

private theorem length_rest (recorded : Recorded b h source) (position : Option OffsetMap) :
    ((rest b h source position).length : Int) = backlog b source position := by
  rw [rest, List.length_flatMap, backlog, Nat.cast_list_sum, List.map_map]
  refine congrArg List.sum (List.map_congr_left fun p member => ?_)
  have low := earliest_le_start b source.edge position p
  have high := start_le_latest b source.edge position p
  have whole := latest_eq_length recorded.keeps (known_of_listing (Nat.le_refl _) p member)
  rw [Function.comp_apply, waiting, List.length_drop, List.length_take, ← whole]
  omega

/-- How many polls it takes to read a backlog and to find nothing after it. -/
def polls (budget backlog : Nat) : Nat := (backlog + budget - 1) / budget + 1

private theorem polls_zero (budget : Nat) : polls budget 0 = 1 := by
  have none : (0 + budget - 1) / budget = 0 := Nat.div_eq_zero_iff.mpr (by omega)
  rw [polls, none]

private theorem polls_step {budget backlog : Nat} (positive : 0 < budget) (some : 0 < backlog) :
    polls budget backlog = polls budget (backlog - min budget backlog) + 1 := by
  by_cases less : backlog ≤ budget
  · have one : backlog + budget - 1 = backlog - 1 + budget := by omega
    rw [Nat.min_eq_right less, Nat.sub_self, polls_zero, polls, one, Nat.add_div_right _ positive,
      Nat.div_eq_of_lt (by omega)]
  · have split : backlog + budget - 1 = backlog - budget + budget - 1 + budget := by omega
    rw [Nat.min_eq_left (by omega), polls, polls, split, Nat.add_div_right _ positive]

private theorem polls_le {budget : Nat} (positive : 0 < budget) (backlog : Nat) : polls budget backlog ≤ backlog + 1 := by
  cases backlog with
  | zero => exact (polls_zero budget).le
  | succ n =>
    have := Nat.le_mul_of_pos_left n positive
    refine Nat.succ_le_succ (Nat.div_le_of_le_mul ?_)
    rw [Nat.mul_succ]
    omega

private theorem polls_cast {budget : Nat} (positive : 0 < budget) (backlog : Nat) :
    (polls budget backlog : Int) = (backlog + budget - 1) / budget + 1 := by
  have whole : ((backlog + budget - 1 : Nat) : Int) = backlog + budget - 1 := by omega
  rw [polls, Nat.cast_add, Int.natCast_div, whole]
  rfl

private theorem loop_of_backlog (recorded : Recorded b h source) (positive : 0 < budget source limit) {n : Nat}
    (reads : Reads source.topic checkpoint position) (unread : backlog b source position = n) :
    ∃ batches, Loop Broker.client source limit checkpoint b batches ∧
      batches.length = polls (budget source limit).toNat n ∧
      (batches.flatMap fun batch => batch.1.getD []).Perm (rest b h source position) := by
  -- What is left of the backlog after a poll is less; the loop goes on with it.
  induction n using Nat.strongRecOn generalizing checkpoint position with
  | ind n ih =>
    obtain ⟨rs, text, m, polled, reads', stepped⟩ := poll_step recorded reads limit
    have total := stepped.total
    have length := length_rest recorded position
    rw [unread] at total length
    by_cases empty : Range.total rs = 0
    · have none : n = 0 := by omega
      have nothing : rest b h source position = [] := List.length_eq_zero_iff.mp (by omega)
      rw [if_pos empty] at polled
      refine ⟨_, .last polled, ?_, ?_⟩
      · rw [none, polls_zero]
        rfl
      · rw [nothing]
        exact .nil
    · have left := backlog_stepped stepped
      rw [unread] at left
      have given : Range.total rs = min (budget source limit).toNat n := by omega
      rw [if_neg empty] at polled
      obtain ⟨later, loop, length, perm⟩ := ih (n - Range.total rs) (by omega) reads' (by omega)
      rw [← still_poll source checkpoint limit b] at loop
      refine ⟨_, .more polled loop, ?_, ?_⟩
      · rw [List.length_cons, length, given, ← polls_step (by omega) (by omega)]
      · exact (perm.append_left _).trans (rest_stepped stepped)

private theorem loop_of_no_budget (recorded : Recorded b h source) (spent : budget source limit = 0)
    (reads : Reads source.topic checkpoint position) :
    ∃ text, Loop Broker.client source limit checkpoint b [(none, text)] := by
  obtain ⟨rs, text, _, polled, _, stepped⟩ := poll_step recorded reads limit
  have total := stepped.total
  have length := length_rest recorded position
  rw [if_pos (by omega)] at polled
  exact ⟨text, .last polled⟩

/-- More polls than there are records to read are enough, whatever the limit. -/
theorem pollAll_ends (recorded : Recorded b h source) (reads : Reads source.topic checkpoint position) (limit : Int)
    {fuel : Nat} (enough : backlog b source position < fuel) :
    ∃ batches, Loop Broker.client source limit checkpoint b batches ∧
      (pollAll Broker.client source limit fuel checkpoint b).outcome.result = .ok batches := by
  have length := length_rest recorded position
  have nonneg := budget_nonneg source limit
  by_cases positive : 0 < budget source limit
  · obtain ⟨batches, loop, polled, _⟩ := loop_of_backlog recorded positive reads length.symm
    have few := polls_le (by omega : 0 < (budget source limit).toNat) (rest b h source position).length
    exact ⟨batches, loop, pollAll_of_loop loop (by omega)⟩
  · have spent : budget source limit = 0 := by omega
    obtain ⟨text, loop⟩ := loop_of_no_budget recorded spent reads
    refine ⟨_, loop, pollAll_of_loop loop ?_⟩
    rw [List.length_singleton]
    omega

/-- In any broker that operations lead to, polling a topic that exists, from any checkpoint that its source can go
    on from, and going on from each returned checkpoint until a poll finds nothing, comes to its end. With a budget
    it takes as many polls as the backlog has budgets, rounded up, and one more; together they give out, once each,
    the records from where reading starts to the heads. Without a budget the first poll is the last. -/
theorem loop_drains (ops : List Operation) (source : Source) (checkpoint : Option String)
    (position : Option OffsetMap) (limit : Int)
    (known : ((Chronicle.empty.run ops).broker.logs? source.topic).isSome)
    (few : Writable (count (Chronicle.empty.run ops).broker source.topic))
    (short : ∀ p ∈ listing source.topic (count (Chronicle.empty.run ops).broker source.topic),
      Writable (edgeOf (Chronicle.empty.run ops).broker .latest p))
    (reads : Reads source.topic checkpoint position) :
    let c := Chronicle.empty.run ops
    let ps := listing source.topic (count c.broker source.topic)
    let start p := StableCycle.start c.broker source.edge position p
    let backlog := (ps.map fun p => edgeOf c.broker .latest p - start p).sum
    let budget := min (source.cap : Int) limit
    ∃ batches, Loop Broker.client source limit checkpoint c.broker batches ∧
      (∀ other, Loop Broker.client source limit checkpoint c.broker other → other = batches) ∧
      (∀ fuel, batches.length ≤ fuel →
        (pollAll Broker.client source limit fuel checkpoint c.broker).outcome.result = .ok batches) ∧
      (0 < limit → 0 ≤ backlog ∧ 0 < budget ∧
        (batches.length : Int) = (backlog + budget - 1) / budget + 1 ∧
        (batches.flatMap fun batch => batch.1.getD []).Perm (ps.flatMap fun p =>
          ((c.annals p.topic p.index).take (edgeOf c.broker .latest p)).drop (start p).toNat)) ∧
      (limit ≤ 0 → ∃ text, batches = [(none, text)]) := by
  intro c ps start backlog budget
  have keeps : Keeps c.broker c.annals := run_keeps empty_keeps ops
  have recorded : Recorded c.broker c.annals source := ⟨keeps, count_pos keeps known, few, short⟩
  have length : ((rest c.broker c.annals source position).length : Int) = backlog := length_rest recorded position
  have cap := source.cap_pos
  have share : Cycle.budget source limit = max 0 budget := rfl
  by_cases positive : 0 < limit
  · have granted : 0 < Cycle.budget source limit := by omega
    obtain ⟨batches, loop, polled, perm⟩ := loop_of_backlog recorded granted reads length.symm
    refine ⟨batches, loop, fun other => loop_unique loop, fun fuel => pollAll_of_loop loop, fun _ => ?_, ?_⟩
    · refine ⟨by omega, by omega, ?_, perm⟩
      have whole : ((Cycle.budget source limit).toNat : Int) = budget := by omega
      rw [polled, polls_cast (by omega), length, whole]
    · omega
  · have spent : Cycle.budget source limit = 0 := by omega
    obtain ⟨text, loop⟩ := loop_of_no_budget recorded spent reads
    refine ⟨_, loop, fun other => loop_unique loop, fun fuel => pollAll_of_loop loop, ?_, fun _ => ⟨text, rfl⟩⟩
    omega

theorem loop_drains_clicked :
    let b := (Chronicle.empty.run clicked).broker
    (b.logs? clicks.topic).isSome ∧ Writable (count b clicks.topic) ∧
    (∀ p ∈ listing clicks.topic (count b clicks.topic), Writable (edgeOf b .latest p)) ∧
    Reads clicks.topic none none ∧
    (∃ batches, Loop Broker.client clicks 1 none b batches ∧ batches.length = 3 ∧
      (pollAll Broker.client clicks 1 3 none b).outcome.result = .ok batches ∧
      (batches.flatMap fun batch => batch.1.getD []).Perm
        [⟨"clicks", 0, 1, 2, none, [8]⟩, ⟨"clicks", 1, 0, 3, some [1], [9]⟩]) ∧
    ∃ text, Loop Broker.client clicks (-2) none b [(none, text)] := by
  intro b
  have known : (b.logs? clicks.topic).isSome := by decide
  have few : Writable (count b clicks.topic) :=
    writable_of_lt (by decide : count b clicks.topic < 10 ^ 4) (by decide)
  have short : ∀ p ∈ listing clicks.topic (count b clicks.topic), Writable (edgeOf b .latest p) := by
    intro p member
    have within : edgeOf b .latest p < 10 ^ 4 :=
      (by decide : ∀ p ∈ listing clicks.topic (count b clicks.topic), edgeOf b .latest p < 10 ^ 4) p member
    exact writable_of_lt within (by decide)
  have reads : Reads clicks.topic none none := rfl
  obtain ⟨batches, loop, _, ran, drained, _⟩ := loop_drains clicked clicks none none 1 known few short reads
  obtain ⟨_, _, length, perm⟩ := drained (by decide)
  obtain ⟨batches', loop', _, _, _, first⟩ := loop_drains clicked clicks none none (-2) known few short reads
  obtain ⟨text, rfl⟩ := first (by decide)
  have three : batches.length = 3 := by
    have counted : (batches.length : Int) = 3 := length.trans (by decide)
    exact_mod_cast counted
  exact ⟨known, few, short, reads, ⟨batches, loop, three, ran 3 three.le, perm⟩, text, loop'⟩

end LogCursor.PollLoop
