import LogCursor.Proofs.ExactAllocation
/-!
How long a deal goes on. Rounds are dealt until the lanes are settled, with no limit to their number
(`Dealing`). Each of them finds budget left and a lane open, and either closes a lane or spends the budget
(`Sound`); so there are no more rounds than lanes, whatever the signs of the offsets (`dealing_of_deal`). An
allocation is refused exactly where something that it reads is negative or a partition has no name to warn with,
and comes to the ranges of such a deal in every other case (`compute_settles`). For any number of partitions
there are backlogs that take as many rounds (`rounds_reached`).
-/
namespace LogCursor.Settling
open LogCursor.Allocation LogCursor.CheckpointText LogCursor.Rounds LogCursor.ExactAllocation
open LogCursor.PartitionOrder

/-- A lane that has been given everything up to its head. -/
def AtHead (l : Lane) : Prop := l.start + l.given = l.head

/-- Rounds until the lanes are settled: how the lanes are before each round, and how they are in the end. -/
inductive Dealing (budget : Nat) : List Lane → List (List Lane) → List Lane → Prop
  | settled {lanes : List Lane} (settled : Settled budget lanes) : Dealing budget lanes [] lanes
  | round {lanes last : List Lane} {later : List (List Lane)} (unsettled : ¬ Settled budget lanes)
      (next : Dealing budget (round budget lanes) later last) : Dealing budget lanes (lanes :: later) last

/-- Lanes before a round: budget is left to divide, there is a lane to divide it by, and the round keeps to the
    budget, which it spends unless it closes a lane. After the round the lanes at their heads are closed, and no
    others. -/
structure Sound (budget : Nat) (lanes : List Lane) : Prop where
  under : given lanes < budget
  opened : openCount lanes ≠ 0
  within : given (round budget lanes) ≤ budget
  progress : openCount (round budget lanes) < openCount lanes ∨ given (round budget lanes) = budget
  closes : ∀ l ∈ round budget lanes, l.closed = true ↔ AtHead l

variable {budget : Nat} {lanes last last' : List Lane} {before before' : List (List Lane)}

private theorem atHead_iff (l : Lane) : AtHead l ↔ l.backlog = 0 := by
  have := l.within
  unfold AtHead Lane.backlog
  omega

private theorem serve_closes {l : Lane} (honest : l.closed = true → l.backlog = 0) (grant : Nat) :
    (l.serve grant).closed = true ↔ AtHead (l.serve grant) := by
  rw [atHead_iff]
  cases h : l.closed with
  | true => simp [serve_of_closed h, h, honest h]
  | false =>
    rw [serve_closed h, serve_backlog h, decide_eq_true_eq]
    omega

private theorem serveAll_closes (share left : Nat) (honest : Honest lanes) :
    ∀ l ∈ serveAll share left lanes, l.closed = true ↔ AtHead l := by
  induction lanes generalizing left with
  | nil => simp [serveAll]
  | cons first rest ih =>
    obtain ⟨here, later⟩ := List.forall_mem_cons.mp honest
    exact List.forall_mem_cons.mpr ⟨serve_closes here _, ih _ later⟩

private theorem sound_of_unsettled (honest : Honest lanes) (unsettled : ¬ Settled budget lanes) : Sound budget lanes := by
  have progress := round_progress unsettled
  simp only [Settled, not_or, Nat.not_le] at unsettled
  obtain ⟨under, opened⟩ := unsettled
  have within := given_round_le (Nat.le_of_lt under)
  exact ⟨under, opened, within, progress.imp_right fun spent => Nat.le_antisymm within spent,
    serveAll_closes _ _ honest⟩

private theorem dealing_sound (dealing : Dealing budget lanes before last) (honest : Honest lanes) :
    ∀ state ∈ before, Sound budget state := by
  induction dealing with
  | settled => simp
  | round unsettled _ ih =>
    intro state member
    rcases List.mem_cons.mp member with rfl | later
    · exact sound_of_unsettled honest unsettled
    · exact ih (serveAll_honest _ _ honest) state later

private theorem dealing_unique (dealing : Dealing budget lanes before last) (dealing' : Dealing budget lanes before' last') :
    before = before' ∧ last = last' := by
  induction dealing generalizing before' with
  | settled settled =>
    cases dealing' with
    | settled => exact ⟨rfl, rfl⟩
    | round unsettled => exact absurd settled unsettled
  | round unsettled _ ih =>
    cases dealing' with
    | settled settled => exact absurd settled unsettled
    | round _ next =>
      obtain ⟨rfl, rfl⟩ := ih next
      exact ⟨rfl, rfl⟩

/-- With as many rounds as there are open lanes a deal comes to its end, since a round that closes no lane is the
    last one. -/
theorem dealing_of_deal (budget : Nat) {rounds : Nat} (enough : openCount lanes ≤ rounds) :
    ∃ before, Dealing budget lanes before (deal budget rounds lanes) ∧ before.length ≤ openCount lanes := by
  induction rounds generalizing lanes with
  | zero => exact ⟨[], .settled (.inr (Nat.le_zero.mp enough)), Nat.zero_le _⟩
  | succ rounds ih =>
    unfold deal
    split
    · exact ⟨[], .settled ‹_›, Nat.zero_le _⟩
    · rename_i unsettled
      rcases round_progress unsettled with closes | spent
      · have fewer : openCount (round budget lanes) ≤ rounds := by omega
        obtain ⟨before, dealing, few⟩ := ih fewer
        refine ⟨lanes :: before, .round unsettled dealing, ?_⟩
        rw [List.length_cons]
        omega
      · have settled : Settled budget (round budget lanes) := .inl spent
        rw [deal_of_settled settled]
        simp only [Settled, not_or] at unsettled
        exact ⟨[lanes], .round (not_or.mpr unsettled) (.settled settled), Nat.pos_of_ne_zero unsettled.2⟩

/-- What an allocation refuses to read: a negative budget, a negative head, or a negative start of a partition that
    has a head. -/
def Negative (starts heads : OffsetMap) (budget : Int) : Prop :=
  budget < 0 ∨ (∃ entry ∈ heads.entries, entry.2 < 0) ∨
    ∃ entry ∈ starts.entries, entry.1 ∈ heads.partitions ∧ entry.2 < 0

private theorem nonneg_iff {starts heads : OffsetMap} {budget : Int} : ¬ Negative starts heads budget ↔
    0 ≤ budget ∧ (∀ entry ∈ heads.entries, 0 ≤ entry.2) ∧
      ∀ entry ∈ heads.entries, 0 ≤ starts.offset entry.1 := by
  have started : (¬ ∃ entry ∈ starts.entries, entry.1 ∈ heads.partitions ∧ entry.2 < 0) ↔
      ∀ entry ∈ heads.entries, 0 ≤ starts.offset entry.1 := by
    constructor
    · intro none entry member
      cases found : starts.get? entry.1 with
      | none => rw [OffsetMap.offset, found]; exact Int.le_refl 0
      | some start =>
        rw [OffsetMap.offset, found]
        by_contra negative
        have headed : entry.1 ∈ heads.partitions := List.mem_map_of_mem member
        exact none ⟨_, OffsetMap.get?_eq_some_iff.mp found, headed, Int.not_le.mp negative⟩
    · rintro nonneg ⟨⟨p, start⟩, started, headed, negative⟩
      obtain ⟨entry, member, rfl⟩ := List.mem_map.mp headed
      have := nonneg entry member
      rw [OffsetMap.offset_of_mem started] at this
      omega
  simp only [Negative, not_or, not_exists, not_and, Int.not_lt, ← started]

private theorem refused_iff {starts heads : OffsetMap} {budget : Int} :
    (∃ e, (compute starts heads budget).result = .error e) ↔
      Negative starts heads budget ∨ ∃ entry ∈ heads.entries, Unnamed starts entry := by
  constructor
  · rintro ⟨e, refused⟩
    by_contra fine
    rw [not_or, nonneg_iff] at fine
    obtain ⟨⟨budgetNonneg, headsNonneg, startsNonneg⟩, named⟩ := fine
    have accepted : Accepted starts heads budget :=
      ⟨budgetNonneg, headsNonneg, startsNonneg, fun entry member unnamed => named ⟨entry, member, unnamed⟩⟩
    rw [compute_eq accepted] at refused
    cases refused
  · intro amiss
    cases result : (compute starts heads budget).result with
    | error e => exact ⟨e, rfl⟩
    | ok rs =>
      obtain ⟨accepted, _⟩ := accepted_of_compute result
      rcases amiss with negative | ⟨entry, member, unnamed⟩
      · exact absurd negative (nonneg_iff.mpr ⟨accepted.budgetNonneg, accepted.headsNonneg, accepted.startsNonneg⟩)
      · exact absurd unnamed (accepted.named entry member)

/-- The deal of any allocation comes to its end, after no more rounds than there are lanes. -/
theorem dealing_dealt (starts heads : OffsetMap) (budget : Int) : ∃ before,
    Dealing budget.toNat (lanesOf starts heads) before (dealt starts heads budget) ∧
      before.length ≤ heads.entries.length := by
  have few : openCount (lanesOf starts heads) ≤ (lanesOf starts heads).length := List.countP_le_length
  have count := length_lanesOf starts heads
  obtain ⟨before, dealing, bound⟩ := dealing_of_deal budget.toNat few
  exact ⟨before, dealing, by omega⟩

/-- In the end the budget is spent or every lane is at its head. -/
theorem dealt_exhausted (starts heads : OffsetMap) (budget : Int) :
    given (dealt starts heads budget) = budget.toNat ∨ ∀ l ∈ dealt starts heads budget, AtHead l := by
  have within := given_dealt_le starts heads budget
  rcases deal_settled budget.toNat _ (lanesOf starts heads) List.countP_le_length with spent | closed
  · exact .inl (Nat.le_antisymm within spent)
  · refine .inr fun l member => (atHead_iff l).mpr (dealt_honest starts heads budget l member ?_)
    simpa using List.countP_eq_zero.mp closed l member

private theorem range_of_nonneg {starts heads : OffsetMap} {budget : Int} (nonneg : ¬ Negative starts heads budget) :
    ∀ l ∈ dealt starts heads budget, ∃ r, l.range = .ok r := by
  obtain ⟨_, headsNonneg, startsNonneg⟩ := nonneg_iff.mp nonneg
  exact fun l member => ⟨_, range_eq (dealt_nonneg headsNonneg startsNonneg l member)⟩

/-- The unread records of the lanes that are open. -/
def backlogs (lanes : List Lane) : List Nat := (lanes.filter fun l => !l.closed).map Lane.backlog

/-- What is left of a budget before as many rounds as this. -/
def purse : Nat → Nat
  | 0 => 0
  | rounds + 1 => (rounds + 1) * (purse rounds + 1)

/-- Backlogs of which each round closes only the first: the share is the purse of the rounds behind it and one
    more record. -/
def rungs : Nat → List Nat
  | 0 => []
  | rounds + 1 => 1 :: (rungs rounds).map (· + (purse rounds + 1))

private theorem backlogs_cons (l : Lane) (lanes : List Lane) :
    backlogs (l :: lanes) = if l.closed then backlogs lanes else l.backlog :: backlogs lanes := by
  cases h : l.closed <;> simp [backlogs, h]

private theorem openCount_eq_length (lanes : List Lane) : openCount lanes = (backlogs lanes).length := by
  rw [backlogs, List.length_map, openCount, List.countP_eq_length_filter]

private theorem length_rungs (n : Nat) : (rungs n).length = n := by
  induction n with
  | zero => rfl
  | succ n ih => simp [rungs, ih]

private theorem rungs_pos (n : Nat) : ∀ r ∈ rungs n, 0 < r := by
  cases n with
  | zero => simp [rungs]
  | succ n => simp +arith [rungs]

/-- A share takes one record from the first rung, and a whole share from each of the others. -/
theorem sum_min_rungs (n : Nat) :
    ((rungs (n + 1)).map (min (purse n + 1))).sum = 1 + n * (purse n + 1) := by
  have whole : (rungs n).map (fun r => min (purse n + 1) (r + (purse n + 1))) = List.replicate n (purse n + 1) := by
    refine List.eq_replicate_iff.mpr ⟨by rw [List.length_map, length_rungs], fun taken member => ?_⟩
    obtain ⟨r, _, rfl⟩ := List.mem_map.mp member
    omega
  rw [rungs, List.map_cons, List.map_map, List.sum_cons]
  show _ + ((rungs n).map fun r => min (purse n + 1) (r + (purse n + 1))).sum = _
  rw [whole, List.sum_replicate_nat]
  omega

private theorem rungs_left (n : Nat) :
    ((rungs (n + 1)).filter (purse n + 1 < ·)).map (· - (purse n + 1)) = rungs n := by
  have stay : ((rungs n).map (· + (purse n + 1))).filter (purse n + 1 < ·) = (rungs n).map (· + (purse n + 1)) := by
    refine List.filter_eq_self.mpr fun r member => ?_
    obtain ⟨r, inside, rfl⟩ := List.mem_map.mp member
    simpa using rungs_pos n r inside
  rw [rungs, List.filter_cons_of_neg (by simp), stay, List.map_map]
  refine (List.map_congr_left fun r _ => ?_).trans (List.map_id _)
  exact Nat.add_sub_cancel r (purse n + 1)

private theorem serveAll_covered {share left : Nat} (covered : share * openCount lanes ≤ left) :
    serveAll share left lanes = lanes.map (·.serve share) := by
  induction lanes generalizing left with
  | nil => rfl
  | cons l rest ih =>
    rw [openCount_cons] at covered
    cases h : l.closed with
    | true =>
      simp only [h, if_true, Nat.add_zero] at covered
      simp only [serveAll, List.map_cons, serve_of_closed h, Nat.sub_self, Nat.sub_zero, ih covered]
    | false =>
      simp only [h, Bool.false_eq_true, if_false, Nat.mul_succ] at covered
      have whole : min share left = share := by omega
      have granted := serve_given_le l share
      have later : share * openCount rest ≤ left - ((l.serve share).given - l.given) := by omega
      simp only [serveAll, List.map_cons, whole, ih later]

private theorem backlogs_served (share : Nat) (lanes : List Lane) :
    backlogs (lanes.map (·.serve share)) = ((backlogs lanes).filter (share < ·)).map (· - share) := by
  induction lanes with
  | nil => rfl
  | cons l rest ih =>
    rw [List.map_cons, backlogs_cons, backlogs_cons, ih]
    cases h : l.closed with
    | true => rw [serve_of_closed h, h, if_pos rfl, if_pos rfl]
    | false =>
      rw [serve_closed h, serve_backlog h]
      by_cases long : share < l.backlog
      · simp [long, Nat.not_le.mpr long]
      · simp [long, Nat.not_lt.mp long]

private theorem given_served (share : Nat) (lanes : List Lane) :
    given (lanes.map (·.serve share)) = given lanes + ((backlogs lanes).map (min share)).sum := by
  induction lanes with
  | nil => rfl
  | cons l rest ih =>
    rw [List.map_cons, given_cons, given_cons, backlogs_cons, ih]
    cases h : l.closed with
    | true =>
      rw [serve_of_closed h, if_pos rfl]
      omega
    | false =>
      rw [serve_given h, if_neg (by simp), List.map_cons, List.sum_cons]
      omega

private theorem share_mul (n share : Nat) : Allocation.share ((n + 1) * share) (n + 1) = share := by
  have split : (n + 1) * share + (n + 1) - 1 = n + (n + 1) * share := by omega
  rw [Allocation.share, split, Nat.add_mul_div_left _ _ (Nat.succ_pos n), Nat.div_eq_of_lt (Nat.lt_succ_self n),
    Nat.zero_add]

/-- With backlogs and a budget of this kind, a round closes one lane and leaves the same kind behind. -/
theorem round_rungs {rounds : Nat} (left : backlogs lanes = rungs (rounds + 1)) :
    backlogs (round (given lanes + purse (rounds + 1)) lanes) = rungs rounds ∧
      given (round (given lanes + purse (rounds + 1)) lanes) + purse rounds = given lanes + purse (rounds + 1) := by
  have opened : openCount lanes = rounds + 1 := by rw [openCount_eq_length, left, length_rungs]
  have whole : share (purse (rounds + 1)) (rounds + 1) = purse rounds + 1 := share_mul rounds (purse rounds + 1)
  -- The purse is divided without a rest, so no lane is cut short.
  have dealt : round (given lanes + purse (rounds + 1)) lanes = lanes.map (·.serve (purse rounds + 1)) := by
    rw [round_eq, Nat.add_sub_cancel_left, opened, whole]
    refine serveAll_covered ?_
    rw [opened, Nat.mul_comm]
    rfl
  rw [dealt, backlogs_served, given_served, left, rungs_left, sum_min_rungs]
  refine ⟨rfl, ?_⟩
  show _ + purse rounds = given lanes + (rounds + 1) * (purse rounds + 1)
  rw [Nat.succ_mul]
  omega

private theorem dealing_rungs (rounds : Nat) (lanes : List Lane) (left : backlogs lanes = rungs rounds) :
    ∃ before last, Dealing (given lanes + purse rounds) lanes before last ∧ before.length = rounds := by
  induction rounds generalizing lanes with
  | zero =>
    have closed : openCount lanes = 0 := by rw [openCount_eq_length, left]; rfl
    exact ⟨[], lanes, .settled (.inr closed), rfl⟩
  | succ rounds ih =>
    obtain ⟨behind, spent⟩ := round_rungs left
    obtain ⟨before, last, dealing, count⟩ := ih _ behind
    rw [spent] at dealing
    refine ⟨lanes :: before, last, .round ?_ dealing, congrArg (· + 1) count⟩
    have opened : openCount lanes = rounds + 1 := by rw [openCount_eq_length, left, length_rungs]
    have some : 0 < purse (rounds + 1) := Nat.mul_pos (Nat.succ_pos _) (Nat.succ_pos _)
    rintro (all | closed) <;> omega

/-- Heads of one topic with these backlogs. -/
def ladder (n : Nat) : OffsetMap where
  entries := (listing "clicks" n).zip ((rungs n).map Int.ofNat)
  distinct := by
    rw [List.map_fst_zip (by simp [listing, length_rungs])]
    exact listing_nodup "clicks" n

private theorem inOrder_ladder (n : Nat) : inOrder (ladder n) = (ladder n).entries := by
  have keys : (ladder n).entries.map Prod.fst = listing "clicks" n :=
    List.map_fst_zip (by simp [listing, length_rungs])
  have sorted := listing_sorted "clicks" n
  rw [← keys] at sorted
  exact List.mergeSort_of_pairwise (List.pairwise_map.mp sorted)

private theorem backlogs_lanesOf {heads : OffsetMap} (sorted : inOrder heads = heads.entries)
    (nonneg : ∀ entry ∈ heads.entries, 0 ≤ entry.2) :
    (backlogs (lanesOf .empty heads)).map Int.ofNat = heads.entries.map Prod.snd := by
  rw [lanesOf, sorted]
  generalize heads.entries = entries at nonneg
  induction entries with
  | nil => rfl
  | cons entry rest ih =>
    obtain ⟨head, later⟩ := List.forall_mem_cons.mp nonneg
    have whole : Int.ofNat (laneOf .empty entry.1 entry.2).backlog = entry.2 := by
      have start : startOf .empty entry.1 entry.2 = 0 := Int.min_eq_left head
      simp only [Lane.backlog, laneOf, start, Int.natCast_zero, Int.add_zero, Int.sub_zero]
      exact Int.toNat_of_nonneg head
    rw [List.map_cons, backlogs_cons, if_neg (by simp [laneOf]), List.map_cons, List.map_cons, ih later, whole]

/-- For any number of partitions there are heads and a budget that take as many rounds. -/
theorem rounds_reached (n : Nat) : (ladder n).entries.length = n ∧
    ∃ before last, Dealing (purse n) (lanesOf .empty (ladder n)) before last ∧ before.length = n := by
  have heads : (ladder n).entries.map Prod.snd = (rungs n).map Int.ofNat :=
    List.map_snd_zip (by simp [listing, length_rungs])
  have nonneg : ∀ entry ∈ (ladder n).entries, 0 ≤ entry.2 := by
    intro entry member
    have listed := List.mem_map_of_mem (f := Prod.snd) member
    rw [heads] at listed
    obtain ⟨r, _, same⟩ := List.mem_map.mp listed
    exact same ▸ Int.natCast_nonneg r
  have left : backlogs (lanesOf .empty (ladder n)) = rungs n := by
    have same := backlogs_lanesOf (inOrder_ladder n) nonneg
    rw [heads] at same
    exact List.map_injective_iff.mpr (fun _ _ => Int.ofNat.inj) same
  have none := given_of_untouched (untouched_lanesOf .empty (ladder n))
  obtain ⟨before, last, dealing, count⟩ := dealing_rungs n _ left
  rw [none, Nat.zero_add] at dealing
  refine ⟨?_, before, last, dealing, count⟩
  have size := congrArg List.length heads
  rwa [List.length_map, List.length_map, length_rungs] at size

-- Three rounds take a budget of fifteen.
example : purse 3 = 15 ∧ rungs 3 = [1, 6, 8] := by decide

end LogCursor.Settling
