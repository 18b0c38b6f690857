import LogCursor.Allocation
import Mathlib.Algebra.BigOperators.Group.List.Basic
import Mathlib.Algebra.Order.Ring.Int
/-!
Dealing a budget in rounds. No round deals more than is left, and a round that closes no lane deals all of
it (`round_progress`). So the deal is settled after as many rounds as there are lanes (`deal_settled`), and
lanes that start empty have then been given the whole budget or all that is unread, whichever is less
(`given_deal`). The partition, the start and the head of a lane stay as they are (`deal_bounds`).
-/
namespace LogCursor.Rounds
open LogCursor.Allocation

/-- What no round changes about a lane. -/
def bounds (l : Lane) : Partition × Int × Int := (l.partition, l.start, l.head)

/-- The records of a lane that are unread before anything is dealt. -/
def unread (l : Lane) : Nat := (l.head - l.start).toNat

/-- A closed lane has nothing left to read. -/
def Honest (lanes : List Lane) : Prop := ∀ l ∈ lanes, l.closed = true → l.backlog = 0

/-- A lane before anything is dealt. -/
def Untouched (l : Lane) : Prop := l.given = 0 ∧ l.closed = false

@[simp] theorem given_nil : given [] = 0 := rfl
@[simp] theorem given_cons (l : Lane) (lanes : List Lane) : given (l :: lanes) = l.given + given lanes := rfl
@[simp] theorem openCount_nil : openCount [] = 0 := rfl
theorem openCount_cons (l : Lane) (lanes : List Lane) :
    openCount (l :: lanes) = openCount lanes + if l.closed then 0 else 1 := by
  cases h : l.closed <;> simp [openCount, h]

private theorem given_add_backlog (l : Lane) : l.given + l.backlog = unread l := by
  have := l.within
  unfold Lane.backlog unread
  omega

theorem backlog_of_untouched {l : Lane} (untouched : Untouched l) : l.backlog = unread l := by
  have whole := given_add_backlog l
  rwa [untouched.1, Nat.zero_add] at whole

private theorem serve_bounds (l : Lane) (grant : Nat) : bounds (l.serve grant) = bounds l := by
  unfold Lane.serve
  split <;> rfl

theorem serve_of_closed {l : Lane} (closed : l.closed = true) (grant : Nat) : l.serve grant = l := by
  simp [Lane.serve, closed]

theorem serve_given {l : Lane} (opened : l.closed = false) (grant : Nat) :
    (l.serve grant).given = l.given + min grant l.backlog := by
  simp [Lane.serve, opened]

theorem serve_closed {l : Lane} (opened : l.closed = false) (grant : Nat) :
    (l.serve grant).closed = decide (l.backlog ≤ grant) := by
  simp [Lane.serve, opened]

theorem serve_backlog {l : Lane} (opened : l.closed = false) (grant : Nat) :
    (l.serve grant).backlog = l.backlog - grant := by
  simp only [Lane.serve, opened, Lane.backlog, Bool.false_eq_true, if_false]
  omega

/-- A lane is given no more than it is granted. -/
theorem serve_given_le (l : Lane) (grant : Nat) : (l.serve grant).given ≤ l.given + grant := by
  cases h : l.closed with
  | true => rw [serve_of_closed h]; omega
  | false => rw [serve_given h]; omega

theorem le_serve_given (l : Lane) (grant : Nat) : l.given ≤ (l.serve grant).given := by
  cases h : l.closed with
  | true => exact Nat.le_of_eq (congrArg Lane.given (serve_of_closed h grant)).symm
  | false => exact serve_given h grant ▸ Nat.le_add_right _ _

private theorem serve_honest {l : Lane} (honest : l.closed = true → l.backlog = 0) (grant : Nat) :
    (l.serve grant).closed = true → (l.serve grant).backlog = 0 := by
  cases h : l.closed with
  | true => rw [serve_of_closed h]; exact honest
  | false =>
    intro closes
    rw [serve_closed h, decide_eq_true_eq] at closes
    have kept := given_add_backlog (l.serve grant)
    have before := given_add_backlog l
    have same : unread (l.serve grant) = unread l := by
      have := serve_bounds l grant
      simp only [bounds, Prod.mk.injEq] at this
      simp [unread, this]
    rw [serve_given h] at kept
    omega

private theorem serveAll_bounds (share left : Nat) (lanes : List Lane) :
    (serveAll share left lanes).map bounds = lanes.map bounds := by
  induction lanes generalizing left with
  | nil => rfl
  | cons l rest ih => simp [serveAll, ih, serve_bounds]

theorem serveAll_honest (share left : Nat) {lanes : List Lane} (honest : Honest lanes) :
    Honest (serveAll share left lanes) := by
  induction lanes generalizing left with
  | nil => simp [serveAll, Honest]
  | cons l rest ih =>
    intro served member
    rcases List.mem_cons.mp member with rfl | later
    · exact serve_honest (honest l (by simp)) _
    · exact ih _ (fun l member => honest l (by simp [member])) served later

/-- A round deals no more than is left. -/
theorem given_serveAll_le (share left : Nat) (lanes : List Lane) :
    given (serveAll share left lanes) ≤ given lanes + left := by
  induction lanes generalizing left with
  | nil => simp [serveAll]
  | cons l rest ih =>
    have granted := serve_given_le l (min share left)
    have kept := le_serve_given l (min share left)
    have later := ih (left - ((l.serve (min share left)).given - l.given))
    simp only [serveAll, given_cons]
    omega

theorem openCount_serveAll_le (share left : Nat) (lanes : List Lane) :
    openCount (serveAll share left lanes) ≤ openCount lanes := by
  induction lanes generalizing left with
  | nil => simp [serveAll]
  | cons l rest ih =>
    have later := ih (left - ((l.serve (min share left)).given - l.given))
    simp only [serveAll, openCount_cons]
    cases h : l.closed with
    | true => rw [serve_of_closed h] at later ⊢; simpa [h] using later
    | false => simp only [Bool.false_eq_true, if_false]; split <;> omega

/-- While no lane closes, each open one takes its whole share of what is left. -/
theorem serveAll_spends (share left : Nat) (lanes : List Lane)
    (noneCloses : openCount (serveAll share left lanes) = openCount lanes) :
    given lanes + min left (share * openCount lanes) ≤ given (serveAll share left lanes) := by
  induction lanes generalizing left with
  | nil => simp [serveAll]
  | cons l rest ih =>
    have later := openCount_serveAll_le share (left - ((l.serve (min share left)).given - l.given)) rest
    simp only [serveAll, openCount_cons, given_cons] at noneCloses ⊢
    cases h : l.closed with
    | true =>
      rw [serve_of_closed h, Nat.sub_self, Nat.sub_zero] at noneCloses ⊢
      simp only [h, if_true, Nat.add_zero] at noneCloses ⊢
      have := ih left noneCloses
      omega
    | false =>
      simp only [h, Bool.false_eq_true, if_false] at noneCloses ⊢
      have stays : (l.serve (min share left)).closed = false := by
        cases closes : (l.serve (min share left)).closed with
        | false => rfl
        | true => rw [closes] at noneCloses; simp only [if_true] at noneCloses; omega
      have long : min share left < l.backlog := by
        rw [serve_closed h, decide_eq_false_iff_not] at stays; omega
      have takes : (l.serve (min share left)).given - l.given = min share left := by
        rw [serve_given h]; omega
      rw [stays, takes] at noneCloses
      rw [takes]
      have rest := ih _ (by simpa using noneCloses)
      rw [serve_given h, Nat.mul_succ]
      omega

/-- Shares that are rounded up cover what is left. -/
theorem le_share_mul (left : Nat) {lanes : Nat} (some : 0 < lanes) : left ≤ share left lanes * lanes := by
  have below : left + lanes - 1 < lanes * ((left + lanes - 1) / lanes + 1) := Nat.lt_mul_div_succ _ some
  rw [Nat.mul_succ, Nat.mul_comm] at below
  unfold share
  omega

theorem round_eq (budget : Nat) (lanes : List Lane) :
    round budget lanes =
      serveAll (share (budget - given lanes) (openCount lanes)) (budget - given lanes) lanes := rfl

/-- A round keeps to the budget. -/
theorem given_round_le {budget : Nat} {lanes : List Lane} (under : given lanes ≤ budget) :
    given (round budget lanes) ≤ budget := by
  have dealt := given_serveAll_le (share (budget - given lanes) (openCount lanes)) (budget - given lanes) lanes
  rw [round_eq]
  omega

/-- A round either closes a lane or spends the budget. -/
theorem round_progress {budget : Nat} {lanes : List Lane} (unsettled : ¬ Settled budget lanes) :
    openCount (round budget lanes) < openCount lanes ∨ budget ≤ given (round budget lanes) := by
  simp only [Settled, not_or, Nat.not_le] at unsettled
  obtain ⟨under, opened⟩ := unsettled
  by_cases closes : openCount (round budget lanes) < openCount lanes
  · exact .inl closes
  · right
    have same := Nat.le_antisymm (openCount_serveAll_le _ _ lanes) (Nat.le_of_not_lt closes)
    have spent := serveAll_spends _ _ lanes same
    have covers := le_share_mul (budget - given lanes) (Nat.pos_of_ne_zero opened)
    rw [round_eq]
    omega

theorem deal_bounds (budget rounds : Nat) (lanes : List Lane) :
    (deal budget rounds lanes).map bounds = lanes.map bounds := by
  induction rounds generalizing lanes with
  | zero => rfl
  | succ rounds ih =>
    unfold deal
    split
    · rfl
    · rw [ih]; exact serveAll_bounds _ _ _

theorem deal_honest (budget rounds : Nat) {lanes : List Lane} (honest : Honest lanes) :
    Honest (deal budget rounds lanes) := by
  induction rounds generalizing lanes with
  | zero => exact honest
  | succ rounds ih =>
    unfold deal
    split
    · exact honest
    · exact ih (serveAll_honest _ _ honest)

theorem given_deal_le {budget : Nat} (rounds : Nat) {lanes : List Lane} (under : given lanes ≤ budget) :
    given (deal budget rounds lanes) ≤ budget := by
  induction rounds generalizing lanes with
  | zero => exact under
  | succ rounds ih =>
    unfold deal
    split
    · exact under
    · exact ih (given_round_le under)

/-- Nothing more is dealt once the lanes are settled. -/
theorem deal_of_settled {budget : Nat} {lanes : List Lane} (settled : Settled budget lanes) (rounds : Nat) :
    deal budget rounds lanes = lanes := by
  cases rounds with
  | zero => rfl
  | succ rounds => rw [deal, if_pos settled]

/-- As many rounds as there are open lanes settle the deal. -/
theorem deal_settled (budget rounds : Nat) (lanes : List Lane) (enough : openCount lanes ≤ rounds) :
    Settled budget (deal budget rounds lanes) := by
  induction rounds generalizing lanes with
  | zero => exact .inr (Nat.le_zero.mp enough)
  | succ rounds ih =>
    unfold deal
    split
    · assumption
    · rename_i unsettled
      rcases round_progress unsettled with closes | spent
      · exact ih _ (by omega)
      · have settled : Settled budget (round budget lanes) := .inl spent
        rw [deal_of_settled settled]
        exact settled

private theorem unread_sum (lanes : List Lane) :
    given lanes + (lanes.map Lane.backlog).sum = (lanes.map unread).sum := by
  induction lanes with
  | nil => rfl
  | cons l rest ih =>
    have := given_add_backlog l
    simp only [given_cons, List.map_cons, List.sum_cons]
    omega

theorem unread_of_bounds {lanes others : List Lane} (same : lanes.map bounds = others.map bounds) :
    lanes.map unread = others.map unread := by
  have := congrArg (List.map fun b : Partition × Int × Int => (b.2.2 - b.2.1).toNat) same
  rw [List.map_map, List.map_map] at this
  exact this

theorem given_of_untouched {lanes : List Lane} (untouched : ∀ l ∈ lanes, Untouched l) : given lanes = 0 := by
  induction lanes with
  | nil => rfl
  | cons l rest ih =>
    rw [given_cons, (untouched l (by simp)).1, ih fun l member => untouched l (by simp [member])]

/-- The deal gives out the budget, or all that is unread when that is less. -/
theorem given_deal (budget : Nat) {lanes : List Lane} (untouched : ∀ l ∈ lanes, Untouched l) :
    given (deal budget lanes.length lanes) = min budget (lanes.map unread).sum := by
  have settled := deal_settled budget lanes.length lanes List.countP_le_length
  have honest : Honest (deal budget lanes.length lanes) :=
    deal_honest _ _ fun l member closed => by simp [(untouched l member).2] at closed
  have within : given (deal budget lanes.length lanes) ≤ budget :=
    given_deal_le _ (by rw [given_of_untouched untouched]; omega)
  have whole := unread_sum (deal budget lanes.length lanes)
  rw [unread_of_bounds (deal_bounds budget lanes.length lanes)] at whole
  rcases settled with spent | closed
  · omega
  · have caughtUp : ((deal budget lanes.length lanes).map Lane.backlog).sum = 0 := by
      apply List.sum_eq_zero
      intro rest member
      obtain ⟨l, inside, rfl⟩ := List.mem_map.mp member
      apply honest l inside
      simpa using List.countP_eq_zero.mp closed l inside
    omega

end LogCursor.Rounds
