import LogCursor.Proofs.Polling
import Mathlib.Data.List.TakeWhile
/-!
What a plan makes of a position. Where a checkpoint stands at or before the earliest retained records, the plan is
that of a reset to the earliest end, and where it stands at the heads or past them, that of a reset to the latest
(`plan_at_edge`). A partition that is moved is reported, as behind what is retained or as ahead of its head, and
by how far; every other one is read from where it was left off, and a reset moves nothing (`plan_warns`).
-/
namespace LogCursor.Positions
open LogCursor.Cycle LogCursor.History LogCursor.Answers LogCursor.PartitionOrder LogCursor.Planning
open LogCursor.Polling LogCursor.CheckpointText
open LogCursor.Advance (advance)
open LogCursor.ExactAllocation (accepted_of_compute)

variable {b : Broker} {m : OffsetMap} {p q : Partition} {ps : List Partition}

/-- A position from which reading begins where a reset to this end begins: nowhere past what is retained, or at the
    head or past it. -/
def StandsAt (b : Broker) (m : OffsetMap) (p : Partition) : Edge → Prop
  | .earliest => m.offset p ≤ edgeOf b .earliest p
  | .latest => edgeOf b .latest p ≤ m.offset p

private theorem start_of_standsAt {edge : Edge} (stands : StandsAt b m p edge) :
    min (max (m.offset p) (edgeOf b .earliest p)) (edgeOf b .latest p : Int) =
      min (edgeOf b edge p : Int) (edgeOf b .latest p) := by
  have within := edgeOf_le_latest b .earliest p
  cases edge with
  | earliest =>
    change m.offset p ≤ edgeOf b .earliest p at stands
    omega
  | latest =>
    change (edgeOf b .latest p : Int) ≤ m.offset p at stands
    omega

private theorem dealt_at_edge {edge : Edge} (budget : Int) (distinct : ps.Nodup) (stands : ∀ p ∈ ps, StandsAt b m p edge) :
    ExactAllocation.dealt (advance m (OffsetMap.ofList (edges b .earliest ps)))
        (OffsetMap.ofList (edges b .latest ps)) budget =
      ExactAllocation.dealt (OffsetMap.ofList (edges b edge ps)) (OffsetMap.ofList (edges b .latest ps)) budget := by
  refine ExactAllocation.dealt_congr budget (.refl _) fun entry member => ?_
  rw [entries_edges b .latest distinct] at member
  obtain ⟨p, listed, rfl⟩ := List.mem_map.mp member
  simp only [Allocation.startOf, offset_retained m b distinct listed, offset_edges b edge distinct listed]
  exact start_of_standsAt (stands p listed)

/-- In any broker that operations lead to, with or without an empty checkpoint a reset plans the same ranges with the
    same summary as a checkpoint of the topic, if in every partition the checkpoint stands where the reset begins. -/
theorem plan_at_edge (ops : List Operation) (source : Source) (text : String) (m : OffsetMap) (limit : Int)
    (known : ((Chronicle.empty.run ops).broker.logs? source.topic).isSome)
    (reads : Reads source.topic (some text) (some m))
    (stands : ∀ p ∈ listing source.topic (count (Chronicle.empty.run ops).broker source.topic),
      StandsAt (Chronicle.empty.run ops).broker m p source.edge) :
    let b := (Chronicle.empty.run ops).broker
    ∃ batch, (plan Broker.client source none limit b).outcome.result = .ok batch ∧
      (plan Broker.client source (some "") limit b).outcome.result = .ok batch ∧
      (plan Broker.client source (some text) limit b).outcome.result = .ok batch := by
  intro b
  have some : 0 < count b source.topic := count_pos (run_keeps empty_keeps ops) known
  have numbered : Numbered b := run_numbered empty_numbered ops
  have few := writable_count numbered source.topic
  have mirrors := client_mirrors b
  have distinct := listing_nodup source.topic (count b source.topic)
  have inside := known_of_listing (Nat.le_refl (count b source.topic))
  obtain ⟨rs, run, planned⟩ := ranges_planned none limit b few fun p => offset_edges b source.edge distinct
  have short := short_planned planned few fun p _ => writable_edge numbered .latest p
  have reset : ∀ {checkpoint}, Reads source.topic checkpoint none →
      (plan Broker.client source checkpoint limit b).outcome.result =
        .ok (rs, ⟨Range.total rs, checkpointOf source.topic rs⟩) := by
    intro checkpoint due
    have started := starts_reset mirrors due distinct inside
    rw [plan_of_starts mirrors mirrors some (Nat.le_refl _) few started run planned.partitions short]
  refine ⟨_, reset rfl, reset rfl, ?_⟩
  -- The starts of the checkpoint are other offsets, but the same once they are cut at the heads.
  have started := starts_resumed mirrors reads distinct (named_listing few) inside
  obtain ⟨rs', run', _⟩ := ranges_planned (.some m) limit b few fun p => offset_retained m b distinct
  have same : rs' = rs := by
    rw [(accepted_of_compute run').2, (accepted_of_compute run).2, dealt_at_edge _ distinct stands]
  rw [plan_of_starts mirrors mirrors some (Nat.le_refl _) few started (same ▸ run') planned.partitions short]

/-- A source of clicks that starts at the latest end. -/
def latecomer : Source := { clicks with edge := .latest }

/-- A partition that has lost two of its three records, and one that never had any. -/
def trimmed : List Operation := [
  .createTopic "clicks" 2, .append "clicks" 0 [7] none 1, .append "clicks" 0 [8] none 2,
  .append "clicks" 0 [9] none 3, .truncate "clicks" 0 2]

theorem plan_at_edge_trimmed :
    let b := (Chronicle.empty.run trimmed).broker
    (∃ m, Reads clicks.topic (some "clicks,7:4,0:1") (some m) ∧
      (∀ p ∈ listing "clicks" 2, m.offset p ≤ edgeOf b .earliest p)) ∧
    (∃ batch, (plan Broker.client clicks none 10 b).outcome.result = .ok batch ∧
      (plan Broker.client clicks (some "clicks,7:4,0:1") 10 b).outcome.result = .ok batch) ∧
    (∃ m, Reads latecomer.topic (some "clicks,0:9") (some m) ∧
      (∀ p ∈ listing "clicks" 2, edgeOf b .latest p ≤ m.offset p)) ∧
    ∃ batch, (plan Broker.client latecomer (some "") 10 b).outcome.result = .ok batch ∧
      (plan Broker.client latecomer (some "clicks,0:9") 10 b).outcome.result = .ok batch := by
  intro b
  have known : (b.logs? "clicks").isSome := by decide
  have reads : Reads clicks.topic (some "clicks,7:4,0:1")
      (some (.ofList [(⟨"clicks", 7⟩, 4), (⟨"clicks", 0⟩, 1)])) := ⟨by decide, rfl, by decide⟩
  have reads' : Reads latecomer.topic (some "clicks,0:9") (some (.ofList [(⟨"clicks", 0⟩, 9)])) :=
    ⟨by decide, rfl, by decide⟩
  have early : ∀ p ∈ listing "clicks" 2,
      (OffsetMap.ofList [(⟨"clicks", 7⟩, 4), (⟨"clicks", 0⟩, 1)]).offset p ≤ edgeOf b .earliest p := by decide
  have late : ∀ p ∈ listing "clicks" 2,
      (edgeOf b .latest p : Int) ≤ (OffsetMap.ofList [(⟨"clicks", 0⟩, 9)]).offset p := by decide
  obtain ⟨batch, reset, _, resumed⟩ := plan_at_edge trimmed clicks _ _ 10 known reads early
  obtain ⟨batch', _, reset', resumed'⟩ := plan_at_edge trimmed latecomer _ _ 10 known reads' late
  exact ⟨⟨_, reads, early⟩, ⟨batch, reset, resumed⟩, ⟨_, reads', late⟩, batch', reset', resumed'⟩

/-- The warnings among notices. -/
def warnings (ns : List Notice) : List Notice := ns.filter fun n => n.level = .warning

/-- The partition whose position a notice is about. -/
def subject? : Notice → Option Partition
  | .behindEarliest p _ _ => some p
  | .aheadOfHead p _ _ => some p
  | _ => none

/-- The notices about the position of one partition. -/
def about (p : Partition) (ns : List Notice) : List Notice := ns.filter fun n => subject? n = some p

/-- How far a notice says that reading was moved: forward past what is gone, or back to the head. -/
def moved (n : Notice) : Int :=
  match n with
  | .behindEarliest .. => n.skipped
  | .aheadOfHead .. => -n.skipped
  | _ => 0

/-- The warning about a position before what is retained. -/
def behind (b : Broker) (m : OffsetMap) (p : Partition) : Option Notice :=
  if m.offset p < edgeOf b .earliest p then some (.behindEarliest p (m.offset p) (edgeOf b .earliest p)) else none

/-- The warning about a position past the head. -/
def ahead (b : Broker) (m : OffsetMap) (p : Partition) : Option Notice :=
  if edgeOf b .latest p < m.offset p then some (.aheadOfHead p (m.offset p) (edgeOf b .latest p)) else none

private theorem retention_warnings (distinct : ps.Nodup) :
    Advance.warnings m (OffsetMap.ofList (edges b .earliest ps)) = ps.filterMap (behind b m) := by
  rw [Advance.warnings, entries_edges b .earliest distinct, edges, List.filterMap_map]
  rfl

private theorem allocation_warnings (starts : OffsetMap) (distinct : ps.Nodup) :
    ExactAllocation.warnings starts (OffsetMap.ofList (edges b .latest ps)) = ps.filterMap (ahead b starts) := by
  rw [ExactAllocation.warnings, entries_edges b .latest distinct, edges, List.filterMap_map]
  rfl

/-- Moving a position past what is gone makes no difference to the warning about its head, and does not count
    twice. -/
theorem ahead_retained (distinct : ps.Nodup) (member : p ∈ ps) :
    ahead b (advance m (OffsetMap.ofList (edges b .earliest ps))) p = ahead b m p := by
  have within := edgeOf_le_latest b .earliest p
  unfold ahead
  rw [offset_retained m b distinct member]
  by_cases past : (edgeOf b .latest p : Int) < m.offset p
  · have stays : max (m.offset p) (edgeOf b .earliest p : Int) = m.offset p := by omega
    rw [stays]
  · rw [if_neg past, if_neg (by omega)]

private theorem ahead_edges (edge : Edge) (distinct : ps.Nodup) (member : p ∈ ps) :
    ahead b (OffsetMap.ofList (edges b edge ps)) p = none := by
  have within := edgeOf_le_latest b edge p
  rw [ahead, offset_edges b edge distinct member, if_neg (by omega)]

/-- What is told about a partition is a warning about its own position. -/
def Warns (f : Partition → Option Notice) : Prop :=
  ∀ p n, f p = some n → n.level = .warning ∧ subject? n = some p

private theorem warns_ite {c : Partition → Prop} [DecidablePred c] {n : Partition → Notice}
    (own : ∀ p, (n p).level = .warning ∧ subject? (n p) = some p) :
    Warns fun p => if c p then some (n p) else none := by
  intro p told warned
  change (if c p then some (n p) else none) = some told at warned
  by_cases holds : c p
  · rw [if_pos holds] at warned
    cases warned
    exact own p
  · rw [if_neg holds] at warned
    cases warned

private theorem warns_behind : Warns (behind b m) := warns_ite fun _ => ⟨rfl, rfl⟩

private theorem warns_ahead : Warns (ahead b m) := warns_ite fun _ => ⟨rfl, rfl⟩

private theorem warnings_filterMap {f : Partition → Option Notice} (warns : Warns f) (ps : List Partition) :
    warnings (ps.filterMap f) = ps.filterMap f := by
  refine List.filter_eq_self.mpr fun n member => ?_
  obtain ⟨p, _, warned⟩ := List.mem_filterMap.mp member
  simpa using (warns p n warned).1

private theorem about_of_not_mem {f : Partition → Option Notice} (warns : Warns f) (absent : p ∉ ps) :
    about p (ps.filterMap f) = [] := by
  refine List.filter_eq_nil_iff.mpr fun n inside => ?_
  obtain ⟨q, listed, warned⟩ := List.mem_filterMap.mp inside
  have apart : q ≠ p := fun same => absent (same ▸ listed)
  simpa [(warns q n warned).2] using apart

/-- Nobody is told of twice. -/
theorem about_filterMap {f : Partition → Option Notice} (warns : Warns f) (distinct : ps.Nodup) (member : p ∈ ps) :
    about p (ps.filterMap f) = (f p).toList := by
  obtain ⟨before, after, rfl⟩ := List.append_of_mem member
  obtain ⟨fresh, _⟩ := List.nodup_cons.mp (List.nodup_middle.mp distinct)
  rw [List.mem_append, not_or] at fresh
  have none := about_of_not_mem warns fresh.1
  have none' := about_of_not_mem warns fresh.2
  unfold about at none none' ⊢
  rw [List.filterMap_append, List.filter_append, none, List.nil_append]
  cases warned : f p with
  | none => rw [List.filterMap_cons_none warned, none', Option.toList_none]
  | some n =>
    have own := (warns p n warned).2
    rw [List.filterMap_cons_some warned, List.filter_cons_of_pos (by simpa using own), none', Option.toList_some]

private theorem warnings_append (ns ns' : List Notice) : warnings (ns ++ ns') = warnings ns ++ warnings ns' :=
  List.filter_append ns ns'

private theorem warnings_allocate {starts : OffsetMap} {budget : Int} {rs : List Range} (distinct : ps.Nodup)
    (named : ∀ p ∈ ps, Writable p.index)
    (run : (Allocation.compute starts (OffsetMap.ofList (edges b .latest ps)) budget).result = .ok rs) :
    warnings (Allocation.allocate starts (OffsetMap.ofList (edges b .latest ps)) budget).notices =
      ps.filterMap (ahead b starts) := by
  rw [ExactAllocation.allocate_eq (named_edges distinct named b .latest),
    ExactAllocation.compute_eq (accepted_of_compute run).1, Outcome.ok_bind, warnings_append, warnings_append,
    allocation_warnings starts distinct, warnings_filterMap warns_ahead]
  split
  · exact List.append_nil _
  · exact List.append_nil _

variable {source : Source} {checkpoint : Option String}

/-- A plan from a checkpoint warns of the partitions that are behind, then of those that are ahead. -/
theorem warnings_resumed (numbered : Numbered b) (known : 0 < count b source.topic)
    (reads : Reads source.topic checkpoint (some m)) (limit : Int) :
    warnings (plan Broker.client source checkpoint limit b).outcome.notices =
      (listing source.topic (count b source.topic)).filterMap (behind b m) ++
        (listing source.topic (count b source.topic)).filterMap (ahead b m) := by
  have mirrors := client_mirrors b
  have distinct := listing_nodup source.topic (count b source.topic)
  have few := writable_count numbered source.topic
  have named : ∀ p ∈ listing source.topic (count b source.topic), Writable p.index := named_listing few
  have started := starts_resumed mirrors reads distinct named (known_of_listing (Nat.le_refl _))
  obtain ⟨rs, run, planned⟩ := ranges_planned (some m) limit b few fun p => offset_retained m b distinct
  have short := short_planned planned few fun p _ => writable_edge numbered .latest p
  rw [plan_of_starts mirrors mirrors known (Nat.le_refl _) few started run planned.partitions short]
  change warnings (_ ++ _) = _
  rw [warnings_append, warnings_allocate distinct named run, retention_warnings distinct,
    warnings_filterMap warns_behind]
  exact congrArg _ (List.filterMap_congr fun p member => ahead_retained distinct member)

private theorem warnings_reset (numbered : Numbered b) (known : 0 < count b source.topic)
    (reads : Reads source.topic checkpoint none) (limit : Int) :
    warnings (plan Broker.client source checkpoint limit b).outcome.notices = [] := by
  have mirrors := client_mirrors b
  have distinct := listing_nodup source.topic (count b source.topic)
  have started := starts_reset mirrors reads distinct (known_of_listing (Nat.le_refl _))
  have few := writable_count numbered source.topic
  obtain ⟨rs, run, planned⟩ := ranges_planned none limit b few fun p => offset_edges b source.edge distinct
  have short := short_planned planned few fun p _ => writable_edge numbered .latest p
  rw [plan_of_starts mirrors mirrors known (Nat.le_refl _) few started run planned.partitions short]
  change warnings (_ ++ _) = _
  rw [warnings_append, warnings_allocate distinct (named_listing few) run]
  refine List.append_eq_nil_iff.mpr ⟨rfl, List.filterMap_eq_nil_iff.mpr fun p member => ?_⟩
  exact ahead_edges source.edge distinct member

/-- Without its topic a source comes to no plan, and says nothing on the way. -/
theorem plan_unknown (unknown : b.logs? source.topic = none) (limit : Int) :
    (plan Broker.client source checkpoint limit b).outcome.notices = [] := by
  change b.logs? source.title.name = none at unknown
  have refused : b.listPartitions source.title.name = .error (.unknownTopic source.topic) := by
    rw [Broker.listPartitions, Broker.logs, unknown]
    rfl
  simp only [plan, list, bind, andThen, call, Broker.client, refused, Outcome.ofExcept]

private theorem about_warnings (distinct : ps.Nodup) (member : p ∈ ps) :
    about p (ps.filterMap (behind b m) ++ ps.filterMap (ahead b m)) =
      (behind b m p).toList ++ (ahead b m p).toList := by
  rw [← about_filterMap warns_behind distinct member, ← about_filterMap warns_ahead distinct member]
  exact List.filter_append _ _

private theorem start_moved (b : Broker) (m : OffsetMap) (p : Partition) :
    let told := (behind b m p).toList ++ (ahead b m p).toList
    let start : Int := min (max (m.offset p) (edgeOf b .earliest p)) (edgeOf b .latest p)
    told.length ≤ 1 ∧ start = m.offset p + (told.map moved).sum ∧ (start ≠ m.offset p ↔ told ≠ []) := by
  -- What is retained never begins past the head, so a position that is behind is not ahead as well.
  have within := edgeOf_le_latest b .earliest p
  intro told start
  by_cases low : m.offset p < edgeOf b .earliest p
  · have high : ¬ (edgeOf b .latest p : Int) < m.offset p := by omega
    have one : told = [.behindEarliest p (m.offset p) (edgeOf b .earliest p)] := by
      simp only [told, behind, ahead, if_pos low, if_neg high]
      rfl
    have raised : start = edgeOf b .earliest p := by omega
    simp [one, raised, moved, Notice.skipped]
    omega
  · by_cases high : (edgeOf b .latest p : Int) < m.offset p
    · have one : told = [.aheadOfHead p (m.offset p) (edgeOf b .latest p)] := by
        simp only [told, behind, ahead, if_neg low, if_pos high]
        rfl
      have lowered : start = edgeOf b .latest p := by omega
      simp [one, lowered, moved, Notice.skipped]
      omega
    · have none : told = [] := by
        simp only [told, behind, ahead, if_neg low, if_neg high]
        rfl
      have kept : start = m.offset p := by omega
      simp [none, kept]

/-- In any broker that operations lead to, the warnings of a plan are those about the positions of its checkpoint.
    No partition has two of them, and each planned range starts where the checkpoint left its partition off, moved
    by as much as the warnings about it say; without a checkpoint there are none. -/
theorem plan_warns (ops : List Operation) (source : Source) (checkpoint : Option String)
    (position : Option OffsetMap) (limit : Int) (reads : Reads source.topic checkpoint position) :
    let b := (Chronicle.empty.run ops).broker
    let ps := listing source.topic (count b source.topic)
    let ws := warnings (plan Broker.client source checkpoint limit b).outcome.notices
    (position = none → ws = []) ∧ ∀ m, position = some m →
      ws = ps.filterMap (behind b m) ++ ps.filterMap (ahead b m) ∧
      (∀ p ∈ ps, (about p ws).length ≤ 1) ∧
      ((b.logs? source.topic).isSome → ∃ rs summary,
        (plan Broker.client source checkpoint limit b).outcome.result = .ok (rs, summary) ∧
        rs.map Range.partition = ps ∧
        ∀ r ∈ rs, (r.start : Int) = m.offset r.partition + ((about r.partition ws).map moved).sum ∧
          ((r.start : Int) ≠ m.offset r.partition ↔ about r.partition ws ≠ [])) := by
  intro b ps ws
  have keeps : Keeps b (Chronicle.empty.run ops).annals := run_keeps empty_keeps ops
  have numbered : Numbered b := run_numbered empty_numbered ops
  cases topic : b.logs? source.topic with
  | none =>
    have no : ps = [] := by simp [ps, count, topic, listing]
    have silent : ws = [] := by
      simp only [ws, plan_unknown topic limit]
      rfl
    refine ⟨fun _ => silent, fun m _ => ⟨by simp [no, silent], by simp [no], fun known => ?_⟩⟩
    cases known
  | some logs =>
    have known : 0 < count b source.topic := count_pos keeps (by simp [topic])
    refine ⟨?_, ?_⟩
    · rintro rfl
      exact warnings_reset numbered known reads limit
    · rintro m rfl
      have distinct : ps.Nodup := listing_nodup source.topic (count b source.topic)
      have told : ws = ps.filterMap (behind b m) ++ ps.filterMap (ahead b m) :=
        warnings_resumed numbered known reads limit
      refine ⟨told, fun p member => ?_, fun _ => ?_⟩
      · rw [told, about_warnings distinct member]
        exact (start_moved b m p).1
      · obtain ⟨ns, cs, rs, run, planned, _⟩ := poll_settled keeps known
          (writable_count numbered source.topic) (fun p _ => writable_edge numbered .latest p) reads limit
        refine ⟨rs, _, by rw [run], planned.partitions, fun r member => ?_⟩
        have listed : r.partition ∈ ps := listed_of_partitions planned.partitions member
        rw [told, about_warnings distinct listed, planned.start r member]
        exact (start_moved b m r.partition).2

theorem plan_warns_trimmed :
    let b := (Chronicle.empty.run trimmed).broker
    (∃ m, Reads clicks.topic (some "clicks,0:0,1:4") (some m)) ∧
    warnings (plan Broker.client clicks (some "clicks,0:0,1:4") 10 b).outcome.notices =
      [.behindEarliest ⟨"clicks", 0⟩ 0 2, .aheadOfHead ⟨"clicks", 1⟩ 4 0] ∧
    (∃ rs summary, (plan Broker.client clicks (some "clicks,0:0,1:4") 10 b).outcome.result = .ok (rs, summary) ∧
      rs.map Range.partition = listing "clicks" 2) ∧
    Reads clicks.topic (some "") none ∧ warnings (plan Broker.client clicks (some "") 10 b).outcome.notices = [] := by
  intro b
  have reads : Reads clicks.topic (some "clicks,0:0,1:4")
      (some (.ofList [(⟨"clicks", 0⟩, 0), (⟨"clicks", 1⟩, 4)])) := ⟨by decide, rfl, by decide⟩
  obtain ⟨told, _, planned⟩ := (plan_warns trimmed clicks _ _ 10 reads).2 _ rfl
  obtain ⟨rs, summary, run, partitions, _⟩ := planned (by decide)
  refine ⟨⟨_, reads⟩, ?_, ⟨rs, summary, run, partitions⟩, rfl,
    (plan_warns trimmed clicks (some "") none 10 rfl).1 rfl⟩
  rw [told]
  decide

end LogCursor.Positions
