import LogCursor.Proofs.ExactAllocation
/-!
Fairness of a deal. As long as there is budget left, every open lane has been given the same, and no closed
lane more (`Level`). A round keeps the lanes level (`serveAll_level`) unless it spends the budget. In that
case it serves whole shares up to some lane and nothing behind it, so that an open lane has no less than those
after it (`serveAll_ordered`); and since shares are rounded up, it lacks at most one record for each other lane
to a whole share (`serveAll_near`). Hence the ranges are fair to every partition with records left
(`compute_fair`).
-/
namespace LogCursor.Fairness
open LogCursor.Allocation LogCursor.Rounds LogCursor.ExactAllocation LogCursor.PartitionOrder

/-- Every open lane has been given the same, and no closed lane more. -/
structure Level (level : Nat) (lanes : List Lane) : Prop where
  le : ∀ l ∈ lanes, l.given ≤ level
  eq : ∀ l ∈ lanes, l.closed = false → l.given = level

/-- No lane has been given more than an open lane before it, nor much more than an open lane behind it. -/
structure Fair (slack : Nat) (lanes : List Lane) : Prop where
  ordered : lanes.Pairwise fun p q => p.closed = false → q.given ≤ p.given
  near : ∀ p ∈ lanes, ∀ q ∈ lanes, q.closed = false → p.given ≤ q.given + slack

variable {level share left slack budget : Nat} {lanes rest : List Lane} {l : Lane}

private theorem level_tail (even : Level level (l :: rest)) : Level level rest := by
  constructor
  · intro m member
    exact even.le m (by simp [member])
  · intro m member
    exact even.eq m (by simp [member])

private theorem fair_of_level (even : Level level lanes) (slack : Nat) : Fair slack lanes := by
  constructor
  · refine List.pairwise_of_forall_mem_list ?_
    intro p memberP q memberQ opened
    rw [even.eq p memberP opened]
    exact even.le q memberQ
  · intro p memberP q memberQ opened
    have := even.le p memberP
    rw [even.eq q memberQ opened]
    omega

/-- A lane that is still open after it was served was open before, and has taken all it was granted. -/
theorem given_of_stays {grant : Nat} (stays : (l.serve grant).closed = false) :
    l.closed = false ∧ (l.serve grant).given = l.given + grant := by
  cases h : l.closed with
  | true =>
    rw [serve_of_closed h, h] at stays
    cases stays
  | false =>
    rw [serve_closed h, decide_eq_false_iff_not] at stays
    refine ⟨rfl, ?_⟩
    rw [serve_given h]
    omega

/-- A round serves nobody beyond the level and a share, nor beyond the level and what is left. -/
theorem serveAll_given_le (le : ∀ l ∈ lanes, l.given ≤ level) :
    ∀ q ∈ serveAll share left lanes, q.given ≤ level + min share left := by
  induction lanes generalizing left with
  | nil => simp [serveAll]
  | cons l rest ih =>
    intro q member
    rcases List.mem_cons.mp member with rfl | later
    · have granted := serve_given_le l (min share left)
      have := le l (by simp)
      omega
    · have bounded := ih (fun m inside => le m (by simp [inside])) q later
      omega

/-- Where an open lane stands before another one, it has taken no less. -/
theorem serveAll_ordered (even : Level level lanes) :
    (serveAll share left lanes).Pairwise fun p q => p.closed = false → q.given ≤ p.given := by
  induction lanes generalizing left with
  | nil => exact List.Pairwise.nil
  | cons l rest ih =>
    refine List.Pairwise.cons ?_ (ih (level_tail even))
    intro q later stays
    obtain ⟨opened, takes⟩ := given_of_stays stays
    have bounded := serveAll_given_le (level_tail even).le q later
    have start := even.eq l (by simp) opened
    rw [takes, start] at bounded ⊢
    omega

/-- Where shares cover little more than what is left, no open lane is far from a whole share. -/
theorem serveAll_near (even : Level level lanes) (covered : share * openCount lanes ≤ left + slack) :
    ∀ q ∈ serveAll share left lanes, q.closed = false → level + share ≤ q.given + slack := by
  induction lanes generalizing left with
  | nil => simp [serveAll]
  | cons l rest ih =>
    intro q member stays
    rw [openCount_cons] at covered
    rcases List.mem_cons.mp member with rfl | later
    · obtain ⟨opened, takes⟩ := given_of_stays stays
      have start := even.eq l (by simp) opened
      simp only [opened, Bool.false_eq_true, if_false, Nat.mul_succ] at covered
      omega
    · refine ih (level_tail even) ?_ q later stays
      -- A closed lane costs nothing, and an open one no more than its share.
      cases h : l.closed with
      | true =>
        rw [serve_of_closed h, Nat.sub_self]
        simpa [h] using covered
      | false =>
        have granted := serve_given_le l (min share left)
        simp only [h, Bool.false_eq_true, if_false, Nat.mul_succ] at covered
        omega

private theorem le_given_serveAll (share left : Nat) (lanes : List Lane) :
    given lanes ≤ given (serveAll share left lanes) := by
  induction lanes generalizing left with
  | nil => simp [serveAll]
  | cons l rest ih =>
    have kept := le_serve_given l (min share left)
    have later := ih (left - ((l.serve (min share left)).given - l.given))
    simp only [serveAll, given_cons]
    omega

/-- A round that leaves some of the budget raises every open lane by a whole share. -/
theorem serveAll_level (even : Level level lanes)
    (unspent : given (serveAll share left lanes) < given lanes + left) :
    Level (level + share) (serveAll share left lanes) := by
  constructor
  · intro q member
    have bounded := serveAll_given_le even.le q member
    omega
  · induction lanes generalizing left with
    | nil => simp [serveAll]
    | cons l rest ih =>
      intro q member stays
      have granted := serve_given_le l (min share left)
      have kept := le_serve_given l (min share left)
      have later := le_given_serveAll share (left - ((l.serve (min share left)).given - l.given)) rest
      simp only [serveAll, given_cons] at unspent
      rcases List.mem_cons.mp member with rfl | inside
      · obtain ⟨opened, takes⟩ := given_of_stays stays
        have start := even.eq l (by simp) opened
        omega
      · exact ih (level_tail even) (by omega) q inside stays

private theorem share_mul_le (left : Nat) {lanes : Nat} (some : 0 < lanes) :
    Allocation.share left lanes * lanes ≤ left + (lanes - 1) := by
  have below : (left + lanes - 1) / lanes * lanes ≤ left + lanes - 1 := Nat.div_mul_le_self _ _
  unfold Allocation.share
  omega

/-- From level lanes, whatever number of rounds is dealt, the deal is fair. -/
theorem deal_fair (rounds : Nat) (even : Level level lanes) (few : openCount lanes ≤ slack + 1) :
    Fair slack (deal budget rounds lanes) := by
  induction rounds generalizing level lanes with
  | zero => exact fair_of_level even slack
  | succ rounds ih =>
    unfold deal
    split
    · exact fair_of_level even slack
    · rename_i unsettled
      simp only [Settled, not_or, Nat.not_le] at unsettled
      obtain ⟨under, opened⟩ := unsettled
      rw [round_eq]
      -- With budget left the lanes are level again; without, the round was the last one.
      by_cases unspent : given (round budget lanes) < budget
      · rw [round_eq] at unspent
        refine ih (serveAll_level even (by omega)) ?_
        exact Nat.le_trans (openCount_serveAll_le _ _ lanes) few
      · have settled : Settled budget (round budget lanes) := .inl (Nat.not_lt.mp unspent)
        rw [round_eq] at settled
        rw [deal_of_settled settled]
        refine ⟨serveAll_ordered even, ?_⟩
        have covered : Allocation.share (budget - given lanes) (openCount lanes) * openCount lanes ≤
            (budget - given lanes) + slack := by
          have covers := share_mul_le (budget - given lanes) (Nat.pos_of_ne_zero opened)
          omega
        intro p memberP q memberQ stays
        have bounded := serveAll_given_le even.le p memberP
        have near := serveAll_near even covered q memberQ stays
        omega

private theorem level_of_untouched (untouched : ∀ l ∈ lanes, Untouched l) : Level 0 lanes := by
  constructor
  · intro l member
    rw [(untouched l member).1]
  · intro l member _
    exact (untouched l member).1

private theorem not_before_self (p : Partition) : ¬ Before p p := fun before => before_asymm before before

private theorem given_le_of_before (fair : Fair slack lanes) (strict : (lanes.map Lane.partition).Pairwise Before)
    {p q : Lane} (memberP : p ∈ lanes) (memberQ : q ∈ lanes) (before : Before p.partition q.partition)
    (opened : p.closed = false) : q.given ≤ p.given := by
  have all : ∀ p ∈ lanes, ∀ q ∈ lanes,
      Before p.partition q.partition → p.closed = false → q.given ≤ p.given := by
    refine List.Pairwise.forall_of_forall_of_flip ?_ ?_ ?_
    · intro l _ before
      exact absurd before (not_before_self _)
    · exact fair.ordered.imp fun given _ opened => given opened
    · exact (List.pairwise_map.mp strict).imp fun before after => absurd after (before_asymm before)
  exact all p memberP q memberQ before opened

private theorem open_of_stop_lt {l : Lane} (honest : l.closed = true → l.backlog = 0)
    (left : ((extent l).stop : Int) < l.head) : l.closed = false := by
  cases closed : l.closed with
  | false => rfl
  | true =>
    have none := honest closed
    change ((l.start.toNat + l.given : Nat) : Int) < l.head at left
    unfold Lane.backlog at none
    omega

/-- Whenever the ranges are computed, every head has one, and they are fair to each partition that does not
    reach its head: no later partition is given more, and an earlier one at most one record more for each
    partition besides it. -/
theorem compute_fair (starts heads : OffsetMap) (budget : Int) (rs : List Range)
    (accepted : (compute starts heads budget).result = .ok rs) :
    (rs.map Range.partition).Perm heads.partitions ∧
    ∀ p ∈ rs, ∀ q ∈ rs, ∀ head, heads.get? p.partition = some head → (p.stop : Int) < head →
      (Before p.partition q.partition → q.count ≤ p.count) ∧
      (Before q.partition p.partition → q.count ≤ p.count + (heads.entries.length - 1)) := by
  obtain ⟨_, rfl⟩ := accepted_of_compute accepted
  have partitions := dealt_partitions starts heads budget
  have strict : ((dealt starts heads budget).map Lane.partition).Pairwise Before := by
    rw [partitions]
    exact inOrder_strict heads
  have untouched := untouched_lanesOf starts heads
  have fair : Fair (heads.entries.length - 1) (dealt starts heads budget) := by
    have count := length_lanesOf starts heads
    have few : openCount (lanesOf starts heads) ≤ (lanesOf starts heads).length := List.countP_le_length
    exact deal_fair _ (level_of_untouched untouched) (by omega)
  constructor
  · refine perm_of_order ?_
    rw [← partitions, List.map_map]
    rfl
  · intro p memberP q memberQ head found short
    obtain ⟨a, dealtA, rfl⟩ := List.mem_map.mp memberP
    obtain ⟨b, dealtB, rfl⟩ := List.mem_map.mp memberQ
    have stays : a.closed = false := by
      have entered := OffsetMap.get?_eq_some_iff.mpr (dealt_entry dealtA).1
      change heads.get? a.partition = some head at found
      rw [entered] at found
      cases found
      exact open_of_stop_lt (dealt_honest starts heads budget a dealtA) short
    rw [count_extent, count_extent]
    exact ⟨fun before => given_le_of_before fair strict dealtA dealtB before stays,
      fun _ => fair.near b dealtB a dealtA stays⟩

/-- Three partitions with a backlog of seven each. -/
def queue : OffsetMap := ⟨[(⟨"clicks", 0⟩, 7), (⟨"clicks", 1⟩, 8), (⟨"clicks", 2⟩, 9)], by simp⟩

/-- Positions in the partitions of `queue`. -/
def marks : OffsetMap := ⟨[(⟨"clicks", 1⟩, 1), (⟨"clicks", 2⟩, 2)], by simp⟩

/-- What a budget of four gives out: the last partition goes without. -/
def granted : List Range :=
  [⟨⟨"clicks", 0⟩, 0, 2, by decide⟩, ⟨⟨"clicks", 1⟩, 1, 3, by decide⟩, ⟨⟨"clicks", 2⟩, 2, 2, by decide⟩]

theorem compute_fair_queue : (compute marks queue 4).result = .ok granted ∧
    ∀ q ∈ granted, Before q.partition ⟨"clicks", 2⟩ → q.count ≤ 0 + 2 := by
  have accepted : (compute marks queue 4).result = .ok granted := by
    have sorted : inOrder queue = queue.entries := List.mergeSort_of_pairwise (by decide)
    rw [compute_eq ⟨by decide, by decide, by decide, by decide⟩, dealt, lanesOf, sorted]
    rfl
  refine ⟨accepted, fun q member before => ?_⟩
  have fair := compute_fair marks queue 4 granted accepted
  exact (fair.2 ⟨⟨"clicks", 2⟩, 2, 2, by decide⟩ (by decide) q member 9 (by decide) (by decide)).2 before

end LogCursor.Fairness
