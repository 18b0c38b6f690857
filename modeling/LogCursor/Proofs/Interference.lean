import LogCursor.Proofs.Polling
/-!
Cycles over a broker that others change between the calls. Partitions, starts and heads only ever move
forward, so a plan is always made, and its ranges stay below the heads; the one thing that can happen is that
retention drops records which were planned and not yet fetched. A poll fails exactly then, with a fault of the
fetch, and the next one succeeds (`poll_contended`).
-/
namespace LogCursor.Interference
open LogCursor.Cycle LogCursor.History LogCursor.Answers LogCursor.PartitionOrder LogCursor.Planning
open LogCursor.Polling

/-- A broker that others change, with what they are going to do before each of the calls to come. -/
structure Contended where
  chronicle : Chronicle
  coming : List (List Operation)

namespace Contended

/-- The others go first. -/
def arrive (s : Contended) : Contended := ⟨s.chronicle.run (s.coming.headD []), s.coming.tail⟩

/-- The broker as a call finds it. -/
def broker (s : Contended) : Broker := s.arrive.chronicle.broker

/-- The client of a broker that others change. -/
def client : Client Contended where
  listPartitions topic s := ((Broker.client.listPartitions topic s.broker).1, s.arrive)
  offsets edge ps s := ((Broker.client.offsets edge ps s.broker).1, s.arrive)
  fetch ranges s := ((Broker.client.fetch ranges s.broker).1, s.arrive)

theorem mirrors (s : Contended) : Mirrors client s s.broker s.arrive :=
  ⟨fun _ => rfl, fun _ _ => rfl, fun _ => rfl⟩

end Contended

variable {σ : Type} {client : Client σ} {source : Source} {checkpoint : Option String} {position : Option OffsetMap}
  {limit : Int} {rs : List Range} {s s' s'' : σ} {ns : List Notice} {cs : List Call} {text : String}

/-- Truncation has taken records of a range that is not empty. -/
def Overtaken (b : Broker) (r : Range) : Prop := r.count ≠ 0 ∧ r.start < edgeOf b .earliest r.partition

private theorem available_of_not_overtaken {b : Broker} {r : Range} (known : r.partition.index < count b r.partition.topic)
    (within : r.stop ≤ edgeOf b .latest r.partition) (kept : ¬ Overtaken b r) : Available b r := by
  rw [available_iff known within]
  intro nonempty
  exact Nat.le_of_not_lt fun low => kept ⟨nonempty, low⟩

/-- A poll whose ranges have been overtaken is refused by the fetch. -/
theorem poll_overtaken {b : Broker} (mirrors : Mirrors client s' b s'') (numbered : Numbered b)
    (short : RoundTrip.Short rs)
    (planned : plan client source checkpoint limit s = ⟨⟨ns, .ok (rs, ⟨Range.total rs, text⟩)⟩, cs, s'⟩)
    (known : ∀ r ∈ rs, r.partition.index < count b r.partition.topic)
    (within : ∀ r ∈ rs, r.stop ≤ edgeOf b .latest r.partition) (overtaken : ∃ r ∈ rs, Overtaken b r) :
    ∃ e, (poll client source checkpoint limit s).outcome.result = .error e ∧ e.kind = .fetch := by
  obtain ⟨r, member, nonempty, low⟩ := overtaken
  have some : Range.total rs ≠ 0 := fun empty => nonempty (ExactAllocation.total_eq_zero.mp empty r member)
  obtain ⟨e, refused, kind⟩ := fetch_refused mirrors source.title numbered short
    (fun r member => log?_isSome_iff.mpr (known r member))
    ⟨r, member, fun available => absurd ((available_iff (known r member) (within r member)).mp available nonempty)
      (Nat.not_le_of_lt low)⟩
  refine ⟨e, ?_, kind⟩
  rw [poll_result planned, if_neg some, refused]
  rfl

/-- However others change the broker before and between the calls of a poll, the plan is made, with no range
    beyond the heads that it saw. The poll fails, with a fault of the fetch, exactly when a range has been
    overtaken by then; else it returns the records that were appended at the planned offsets. Left alone, the
    next poll from the same checkpoint succeeds. -/
theorem poll_contended (ops₁ ops₂ ops₃ ops₄ : List Operation) (source : Source) (checkpoint : Option String)
    (position : Option OffsetMap) (limit : Int)
    (known : ((Chronicle.empty.run ops₁).broker.logs? source.topic).isSome)
    (reads : Reads source.topic checkpoint position) :
    let c₁ := Chronicle.empty.run ops₁
    let c₃ := (c₁.run ops₂).run ops₃
    let c₄ := c₃.run ops₄
    let s : Contended := ⟨.empty, [ops₁, ops₂, ops₃, ops₄]⟩
    ∃ rs summary, (plan Contended.client source checkpoint limit s).outcome.result = .ok (rs, summary) ∧
      rs.map Range.partition = listing source.topic (count c₁.broker source.topic) ∧
      (∀ r ∈ rs, r.stop ≤ edgeOf c₃.broker .latest r.partition ∧
        (slice c₄.annals r).map Record.offset = (List.range' r.start r.count).map Int.ofNat) ∧
      ((∃ e, (poll Contended.client source checkpoint limit s).outcome.result = .error e ∧ e.kind = .fetch) ↔
        ∃ r ∈ rs, Overtaken c₄.broker r) ∧
      ((¬ ∃ r ∈ rs, Overtaken c₄.broker r) →
        (poll Contended.client source checkpoint limit s).outcome.result =
          .ok (if Range.total rs = 0 then none else some (rs.flatMap (slice c₄.annals)), summary.checkpoint)) ∧
      ∀ later, ∃ answer,
        (poll Broker.client source checkpoint limit (c₄.run later).broker).outcome.result = .ok answer := by
  intro c₁ c₃ c₄ s
  have keeps₁ : Keeps c₁.broker c₁.annals := run_keeps empty_keeps ops₁
  have keeps₃ : Keeps c₃.broker c₃.annals := run_keeps (run_keeps keeps₁ ops₂) ops₃
  have keeps₄ : Keeps c₄.broker c₄.annals := run_keeps keeps₃ ops₄
  have grows₂ : Grows c₁ (c₁.run ops₂) := run_grows c₁ ops₂
  have grows₃ : Grows c₁ c₃ := grows₂.trans (run_grows _ ops₃)
  have grows₄ : Grows c₃ c₄ := run_grows c₃ ops₄
  have numbered₁ : Numbered c₁.broker := run_numbered empty_numbered ops₁
  have numbered₃ : Numbered c₃.broker := run_numbered (run_numbered numbered₁ ops₂) ops₃
  have numbered₄ : Numbered c₄.broker := run_numbered numbered₃ ops₄
  have few := writable_count numbered₁ source.topic
  obtain ⟨ns, rs, run, planned⟩ := plan_eq s.mirrors s.arrive.mirrors s.arrive.arrive.mirrors
    (count_pos keeps₁ known) (grows₂.count _) (grows₃.count _) few (fun p _ => writable_edge numbered₃ .latest p)
    reads limit
  have short := short_planned planned few fun p _ => writable_edge numbered₃ .latest p
  have known₃ : ∀ r ∈ rs, r.partition.index < count c₃.broker r.partition.topic := by
    intro r member
    obtain ⟨own, inside⟩ := known_of_planned planned member
    rw [own]
    exact Nat.lt_of_lt_of_le inside (grows₃.count _)
  have known₄ : ∀ r ∈ rs, r.partition.index < count c₄.broker r.partition.topic := fun r member =>
    Nat.lt_of_lt_of_le (known₃ r member) (grows₄.count _)
  have within : ∀ r ∈ rs, r.stop ≤ edgeOf c₄.broker .latest r.partition := fun r member =>
    Nat.le_trans (planned.stop r member) (latest_grows grows₄ keeps₃ keeps₄ (known₃ r member))
  have served : (¬ ∃ r ∈ rs, Overtaken c₄.broker r) →
      (poll Contended.client source checkpoint limit s).outcome.result =
        .ok (if Range.total rs = 0 then none else some (rs.flatMap (slice c₄.annals)),
          checkpointOf source.topic rs) := by
    intro kept
    refine poll_served s.arrive.arrive.arrive.mirrors keeps₄ run fun r member => ?_
    exact available_of_not_overtaken (known₄ r member) (within r member) fun taken => kept ⟨r, member, taken⟩
  refine ⟨rs, _, by rw [run], planned.partitions, ?_, ⟨?_, ?_⟩, served, ?_⟩
  · intro r member
    refine ⟨planned.stop r member, offsets_slice keeps₄ ?_⟩
    rw [← latest_eq_length keeps₄ (known₄ r member)]
    exact within r member
  · rintro ⟨e, failed, _⟩
    by_contra kept
    rw [served kept] at failed
    cases failed
  · exact poll_overtaken s.arrive.arrive.arrive.mirrors numbered₄ short run known₄ within
  · intro later
    have keeps := run_keeps keeps₄ later
    have numbered := run_numbered numbered₄ later
    have grows : Grows c₁ (c₄.run later) := (grows₃.trans grows₄).trans (run_grows c₄ later)
    have known := Nat.lt_of_lt_of_le (count_pos keeps₁ known) (grows.count source.topic)
    obtain ⟨_, _, _, _, _, polled⟩ := poll_settled keeps known (writable_count numbered source.topic)
      (fun p _ => writable_edge numbered .latest p) reads limit
    exact ⟨_, polled⟩

/-- What happens before a poll: a topic with two records. -/
def filled : List Operation := [
  .createTopic "clicks" 1, .append "clicks" 0 [7] none 1, .append "clicks" 0 [8] none 2]

/-- What happens between its look-ups. -/
def grown : List Operation := [.addPartitions "clicks" 1]

/-- What happens before its fetch: the first record is dropped. -/
def dropped : List Operation := [.truncate "clicks" 0 1]

theorem poll_contended_dropped :
    ((Chronicle.empty.run filled).broker.logs? clicks.topic).isSome ∧ Reads clicks.topic none none ∧
    (∃ e, (poll Contended.client clicks none 10 ⟨.empty, [filled, [], grown, dropped]⟩).outcome.result = .error e ∧
      e.kind = .fetch) ∧
    ∃ answer, (poll Broker.client clicks none 10
      (Chronicle.empty.run (filled ++ grown ++ dropped)).broker).outcome.result = .ok answer := by
  have known : ((Chronicle.empty.run filled).broker.logs? clicks.topic).isSome := by decide
  obtain ⟨rs, summary, planned, _, _, failed, _, again⟩ :=
    poll_contended filled [] grown dropped clicks none none 10 known rfl
  have range : (plan Contended.client clicks none 10
      ⟨.empty, [filled, [], grown, dropped]⟩).outcome.result.toOption.map Prod.fst =
        some [⟨⟨"clicks", 0⟩, 0, 2, by decide⟩] := by decide +kernel
  rw [planned] at range
  cases Option.some.inj range
  refine ⟨known, rfl, failed.mpr ⟨_, List.mem_singleton_self _, ?_, ?_⟩, again []⟩
  · decide
  · decide

end LogCursor.Interference
