import LogCursor.Proofs.Fairness
/-!
How far an even share is kept. In the first round a lane finds at least what is left of the budget when every
lane before it takes a whole share (`serveAll_place`), and no later round takes anything back (`deal_given_le`).
So a partition is given its backlog, a share that is rounded up, or what is left at its place, whichever is
least (`le_given_deal`). Where every lane takes a whole share the first round is the last one, and the bound is
met exactly (`given_deal_long`). The last places may thus get less than an even share that is rounded down
(`compute_even_share`), and nothing at all while others read on (`burst_starves`).
-/
namespace LogCursor.EvenShare
open LogCursor.Allocation LogCursor.Rounds LogCursor.ExactAllocation LogCursor.PartitionOrder

/-- What is left of a budget at a place in the order when every place before it takes a whole share. -/
def leftAt (budget lanes place : Nat) : Nat := budget - place * share budget lanes

/-- The records between the start of a range and the head of its partition. -/
def backlogOf (heads : OffsetMap) (r : Range) : Nat := (heads.offset r.partition - r.start).toNat

variable {budget place : Nat} {lanes : List Lane} {d : Lane}

/-- A lane is granted a share, out of no less than what is left by whole shares before it. -/
theorem serveAll_place {share left : Nat} (found : (serveAll share left lanes)[place]? = some d) :
    ∃ l left', lanes[place]? = some l ∧ left - place * share ≤ left' ∧ d = l.serve (min share left') := by
  induction lanes generalizing left place with
  | nil => cases found
  | cons first rest ih =>
    cases place with
    | zero =>
      cases found
      exact ⟨first, left, rfl, Nat.sub_le _ _, rfl⟩
    | succ place =>
      obtain ⟨l, left', inside, enough, served⟩ := ih found
      -- The first lane takes a share at most, and the place behind it counts one place less.
      have granted := serve_given_le first (min share left)
      refine ⟨l, left', inside, ?_, served⟩
      rw [Nat.succ_mul]
      omega

private theorem serveAll_long (share left : Nat) (long : ∀ l ∈ lanes, l.closed = false ∧ share ≤ l.backlog) (place : Nat) :
    (serveAll share left lanes)[place]? =
      lanes[place]?.map fun l : Lane => l.serve (min share (left - place * share)) := by
  induction lanes generalizing left place with
  | nil => rfl
  | cons first rest ih =>
    cases place with
    | zero => simp [serveAll]
    | succ place =>
      obtain ⟨opened, wide⟩ := long first (by simp)
      have later := ih (left - ((first.serve (min share left)).given - first.given))
        (fun l member => long l (by simp [member])) place
      have less : left - ((first.serve (min share left)).given - first.given) - place * share =
          left - (place + 1) * share := by
        rw [serve_given opened, Nat.succ_mul]
        omega
      rw [less] at later
      exact later

/-- Together such lanes take all that is left, or all of their shares. -/
theorem given_serveAll_long (share left : Nat) (long : ∀ l ∈ lanes, l.closed = false ∧ share ≤ l.backlog) :
    given (serveAll share left lanes) = given lanes + min left (share * lanes.length) := by
  induction lanes generalizing left with
  | nil => simp [serveAll]
  | cons first rest ih =>
    obtain ⟨opened, wide⟩ := long first (by simp)
    have later := ih (left - ((first.serve (min share left)).given - first.given))
      fun l member => long l (by simp [member])
    rw [serve_given opened] at later
    simp only [serveAll, given_cons, List.length_cons, Nat.mul_succ, serve_given opened]
    omega

/-- A deal takes nothing back. -/
theorem deal_given_le {rounds : Nat} (found : (deal budget rounds lanes)[place]? = some d) :
    ∃ l, lanes[place]? = some l ∧ l.given ≤ d.given := by
  induction rounds generalizing lanes with
  | zero => exact ⟨d, found, Nat.le_refl _⟩
  | succ rounds ih =>
    unfold deal at found
    split at found
    · exact ⟨d, found, Nat.le_refl _⟩
    · obtain ⟨q, served, kept⟩ := ih found
      rw [round_eq] at served
      obtain ⟨l, left, inside, _, rfl⟩ := serveAll_place served
      exact ⟨l, inside, Nat.le_trans (le_serve_given l _) kept⟩

private theorem unread_deal {rounds : Nat} {l : Lane} (found : (deal budget rounds lanes)[place]? = some d)
    (inside : lanes[place]? = some l) : unread d = unread l := by
  have same := congrArg (·[place]?) (unread_of_bounds (deal_bounds budget rounds lanes))
  simpa [found, inside] using same

private theorem openCount_of_untouched (untouched : ∀ l ∈ lanes, Untouched l) : openCount lanes = lanes.length :=
  List.countP_eq_length.mpr fun l member => by simp [(untouched l member).2]

private theorem round_untouched (untouched : ∀ l ∈ lanes, Untouched l) :
    round budget lanes = serveAll (share budget lanes.length) budget lanes := by
  rw [round_eq, given_of_untouched untouched, openCount_of_untouched untouched, Nat.sub_zero]

private theorem deal_of_nothing (untouched : ∀ l ∈ lanes, Untouched l) (settled : Settled budget lanes) (some : lanes ≠ []) :
    budget = 0 := by
  rcases settled with spent | closed
  · rw [given_of_untouched untouched] at spent
    omega
  · rw [openCount_of_untouched untouched, List.length_eq_zero_iff] at closed
    exact absurd closed some

/-- A deal begins with the round that divides the whole budget by all lanes, if there is anything to divide. -/
theorem deal_untouched (budget : Nat) (untouched : ∀ l ∈ lanes, Untouched l) (some : lanes ≠ []) :
    (budget = 0 ∧ deal budget lanes.length lanes = lanes) ∨ ∃ rounds, deal budget lanes.length lanes =
      deal budget rounds (serveAll (share budget lanes.length) budget lanes) := by
  by_cases settled : Settled budget lanes
  · exact .inl ⟨deal_of_nothing untouched settled some, deal_of_settled settled _⟩
  · obtain ⟨rounds, count⟩ := Nat.exists_eq_succ_of_ne_zero (mt List.length_eq_zero_iff.mp some)
    refine .inr ⟨rounds, ?_⟩
    rw [← round_untouched untouched, count, deal, if_neg settled]

/-- A lane is given its backlog, a share, or what is left at its place. -/
theorem le_given_deal (untouched : ∀ l ∈ lanes, Untouched l)
    (found : (deal budget lanes.length lanes)[place]? = some d) :
    min (unread d) (min (share budget lanes.length) (leftAt budget lanes.length place)) ≤ d.given := by
  obtain ⟨l, inside, _⟩ := deal_given_le found
  have fresh := untouched l (List.mem_of_getElem? inside)
  rw [unread_deal found inside]
  rcases deal_untouched budget untouched (List.ne_nil_of_mem (List.mem_of_getElem? inside)) with
    ⟨nothing, _⟩ | ⟨rounds, begins⟩
  · simp [leftAt, nothing]
  · rw [begins] at found
    obtain ⟨q, served, kept⟩ := deal_given_le found
    obtain ⟨l', left, inside', enough, rfl⟩ := serveAll_place served
    cases inside.symm.trans inside'
    rw [serve_given fresh.2, backlog_of_untouched fresh] at kept
    unfold leftAt
    omega

private theorem given_deal_long (untouched : ∀ l ∈ lanes, Untouched l)
    (long : ∀ l ∈ lanes, share budget lanes.length ≤ unread l)
    (found : (deal budget lanes.length lanes)[place]? = some d) :
    d.given = min (share budget lanes.length) (leftAt budget lanes.length place) := by
  have wide : ∀ l ∈ lanes, l.closed = false ∧ share budget lanes.length ≤ l.backlog := fun l member =>
    ⟨(untouched l member).2, backlog_of_untouched (untouched l member) ▸ long l member⟩
  obtain ⟨l, inside, _⟩ := deal_given_le found
  have member := List.mem_of_getElem? inside
  rcases deal_untouched budget untouched (List.ne_nil_of_mem member) with ⟨nothing, ends⟩ | ⟨rounds, begins⟩
  · rw [ends, inside] at found
    cases found
    simp [leftAt, nothing, (untouched d member).1]
  · -- The shares cover the budget, so nothing is left after the first round.
    have covers := le_share_mul budget (List.length_pos_of_mem member)
    have spent : Settled budget (serveAll (share budget lanes.length) budget lanes) := by
      left
      rw [given_serveAll_long _ _ wide]
      omega
    rw [begins, deal_of_settled spent, serveAll_long _ _ wide, inside] at found
    cases found
    have opened := wide l member
    show (l.serve _).given = _
    rw [serve_given opened.1, (untouched l member).1]
    unfold leftAt
    omega

private theorem even_le_share (budget lanes : Nat) : budget / lanes ≤ share budget lanes := by
  unfold share
  cases lanes with
  | zero => simp
  | succ lanes => exact Nat.div_le_div_right (by omega)

private theorem share_le {lanes even : Nat} (positive : 0 < lanes) (covered : budget ≤ lanes * even) :
    share budget lanes ≤ even := by
  rw [share, Nat.div_le_iff_le_mul_add_pred positive]
  omega

/-- Where the budget divides evenly, or lacks a single record, no place goes short. -/
theorem even_le_leftAt {lanes : Nat} (inside : place < lanes)
    (divides : lanes ∣ budget ∨ lanes ∣ budget + 1) : budget / lanes ≤ leftAt budget lanes place := by
  have positive : 0 < lanes := by omega
  have room : ∀ even, (place + 1) * even ≤ lanes * even := fun even => Nat.mul_le_mul_right even inside
  rcases divides with ⟨even, whole⟩ | ⟨even, whole⟩
  · have few := Nat.mul_le_mul_left place (share_le positive (Nat.le_of_eq whole))
    have enough := room even
    rw [Nat.succ_mul] at enough
    rw [leftAt, Nat.div_eq_of_eq_mul_right positive whole]
    omega
  · have few := Nat.mul_le_mul_left place (share_le positive (Nat.le_of_succ_le (Nat.le_of_eq whole)))
    have enough := room even
    have below : budget / lanes < even := Nat.div_lt_of_lt_mul (Nat.lt_of_succ_le (Nat.le_of_eq whole))
    rw [Nat.succ_mul] at enough
    rw [leftAt]
    omega

section
variable {starts heads : OffsetMap} {budget : Int} {rs : List Range}

private theorem backlogOf_dealt (accepted : Accepted starts heads budget) (member : d ∈ dealt starts heads budget) :
    backlogOf heads (extent d) = unread d := by
  have nonneg : 0 ≤ d.start := dealt_nonneg accepted.headsNonneg accepted.startsNonneg d member
  have headed : heads.offset (extent d).partition = d.head := OffsetMap.offset_of_mem (dealt_entry member).1
  have start : ((extent d).start : Int) = d.start := Int.toNat_of_nonneg nonneg
  rw [backlogOf, headed, start, unread]

private theorem lanes_of_accepted (done : (compute starts heads budget).result = .ok rs) :
    rs = (deal budget.toNat (lanesOf starts heads).length (lanesOf starts heads)).map extent ∧
      ∀ d ∈ deal budget.toNat (lanesOf starts heads).length (lanesOf starts heads),
        backlogOf heads (extent d) = unread d := by
  obtain ⟨accepted, same⟩ := accepted_of_compute done
  exact ⟨same, fun _ => backlogOf_dealt accepted⟩

private theorem le_count {place : Nat} {r : Range} (accepted : (compute starts heads budget).result = .ok rs)
    (found : rs[place]? = some r) :
    min (backlogOf heads r) (min (share budget.toNat heads.entries.length)
      (leftAt budget.toNat heads.entries.length place)) ≤ r.count := by
  obtain ⟨rfl, backlogs⟩ := lanes_of_accepted accepted
  have untouched := untouched_lanesOf starts heads
  have count := length_lanesOf starts heads
  rw [List.getElem?_map] at found
  obtain ⟨d, dealt, rfl⟩ := Option.map_eq_some_iff.mp found
  rw [backlogs d (List.mem_of_getElem? dealt), count_extent, ← count]
  exact le_given_deal untouched dealt

private theorem count_eq_of_long {place : Nat} {r : Range} (accepted : (compute starts heads budget).result = .ok rs)
    (long : ∀ q ∈ rs, share budget.toNat heads.entries.length ≤ backlogOf heads q) (found : rs[place]? = some r) :
    r.count = min (share budget.toNat heads.entries.length) (leftAt budget.toNat heads.entries.length place) := by
  obtain ⟨rfl, backlogs⟩ := lanes_of_accepted accepted
  have untouched := untouched_lanesOf starts heads
  have count := length_lanesOf starts heads
  have wide : ∀ l ∈ lanesOf starts heads, share budget.toNat (lanesOf starts heads).length ≤ unread l := by
    intro l member
    have listed := List.mem_map_of_mem (f := unread) member
    rw [← unread_of_bounds (deal_bounds budget.toNat (lanesOf starts heads).length (lanesOf starts heads))] at listed
    obtain ⟨d, dealt, kept⟩ := List.mem_map.mp listed
    rw [← kept, ← backlogs d dealt, count]
    exact long _ (List.mem_map_of_mem dealt)
  rw [List.getElem?_map] at found
  obtain ⟨d, dealt, rfl⟩ := Option.map_eq_some_iff.mp found
  rw [count_extent, ← count]
  exact given_deal_long untouched wide dealt

end

/-- Whenever the ranges are computed, every head has one. At each place in their order a range covers its backlog,
    or a share that is rounded up, or what whole shares before it have left, whichever is least; so it covers its
    backlog or an even share that is rounded down, if there is as much left at its place. Where all backlogs
    have a whole share, it covers that much only if there is. No place goes short for a budget that divides
    evenly, or that lacks a single record. -/
theorem compute_even_share (starts heads : OffsetMap) (budget : Int) (rs : List Range)
    (accepted : (compute starts heads budget).result = .ok rs) :
    let b := budget.toNat
    let n := heads.entries.length
    (rs.map Range.partition).Perm heads.partitions ∧ (rs.map Range.partition).Pairwise Before ∧
    (∀ place r, rs[place]? = some r →
      min (backlogOf heads r) (min (share b n) (leftAt b n place)) ≤ r.count ∧
      (b / n ≤ leftAt b n place → min (backlogOf heads r) (b / n) ≤ r.count) ∧
      ((∀ q ∈ rs, share b n ≤ backlogOf heads q) →
        (min (backlogOf heads r) (b / n) ≤ r.count ↔ b / n ≤ leftAt b n place))) ∧
    (n ∣ b ∨ n ∣ b + 1 → ∀ r ∈ rs, min (backlogOf heads r) (b / n) ≤ r.count) := by
  intro b n
  have order := (allotted_of_compute accepted).order
  have even := even_le_share b n
  have least : ∀ {place : Nat} {r : Range}, rs[place]? = some r →
      min (backlogOf heads r) (min (share b n) (leftAt b n place)) ≤ r.count := le_count accepted
  refine ⟨perm_of_order order, order ▸ inOrder_strict heads, fun place r found => ?_, fun divides r member => ?_⟩
  · have bound := least found
    refine ⟨bound, fun enough => by omega, fun long => ?_⟩
    have whole := long r (List.mem_of_getElem? found)
    have taken : r.count = min (share b n) (leftAt b n place) := count_eq_of_long accepted long found
    omega
  · obtain ⟨place, inside, found⟩ := List.mem_iff_getElem.mp member
    have listed : rs.length = n := by simpa [OffsetMap.partitions] using (perm_of_order order).length_eq
    have enough := even_le_leftAt (listed ▸ inside) divides
    have bound := least (List.getElem?_eq_some_iff.mpr ⟨inside, found⟩)
    omega

/-- Three partitions: two of them are quiet, and the first has a burst of this many records. -/
def crowd (burst : Nat) : OffsetMap :=
  ⟨[(⟨"clicks", 0⟩, burst), (⟨"clicks", 1⟩, 2), (⟨"clicks", 2⟩, 1)], by simp⟩

private theorem compute_crowd (burst budget : Nat) : (compute .empty (crowd burst) budget).result =
    .ok ((deal budget 3 ((crowd burst).entries.map fun entry => laneOf .empty entry.1 entry.2)).map extent) := by
  have sorted : inOrder (crowd burst) = (crowd burst).entries :=
    List.mergeSort_of_pairwise (by simp [crowd, precedes_iff])
  have headsNonneg : ∀ entry ∈ (crowd burst).entries, 0 ≤ entry.2 := by simp [crowd]
  have named : ∀ entry ∈ (crowd burst).entries, ¬ Unnamed .empty entry := fun entry member unnamed =>
    absurd unnamed.1 (Int.not_lt.mpr (headsNonneg entry member))
  have accepted : Accepted .empty (crowd burst) budget :=
    ⟨Int.natCast_nonneg budget, headsNonneg, fun _ _ => Int.le_refl 0, named⟩
  rw [compute_eq accepted, dealt, lanesOf, sorted, Int.toNat_natCast]
  rfl

/-- What each partition of a crowd is given. -/
def served (first second third : Nat) : List Range :=
  [⟨⟨"clicks", 0⟩, 0, first, Nat.zero_le _⟩, ⟨⟨"clicks", 1⟩, 0, second, Nat.zero_le _⟩,
    ⟨⟨"clicks", 2⟩, 0, third, Nat.zero_le _⟩]

/-- A budget of five lacks a single record, so each partition gets at least the record that is its even share. -/
theorem compute_even_share_crowd : (compute .empty (crowd 100) 5).result = .ok (served 2 2 1) ∧
    ∀ r ∈ served 2 2 1, min (backlogOf (crowd 100) r) 1 ≤ r.count := by
  have accepted : (compute .empty (crowd 100) 5).result = .ok (served 2 2 1) := by
    exact (compute_crowd 100 5).trans rfl
  obtain ⟨_, _, _, even⟩ := compute_even_share .empty (crowd 100) 5 (served 2 2 1) accepted
  exact ⟨accepted, even (.inr ⟨2, rfl⟩)⟩

/-- With a budget of four the burst leaves the last partition nothing, though its one record is less than its even
    share; without the burst that record is read. -/
theorem burst_starves :
    (compute .empty (crowd 100) 4).result = .ok (served 2 2 0) ∧
    (compute .empty (crowd 0) 4).result = .ok (served 0 2 1) ∧
    ∃ r ∈ served 2 2 0, r.count < min (backlogOf (crowd 100) r) (4 / (crowd 100).entries.length) :=
  ⟨(compute_crowd 100 4).trans rfl, (compute_crowd 0 4).trans rfl, by decide⟩

end LogCursor.EvenShare
