import Mathlib.Data.List.Forall2
/-!
Traversals that can fail. A traversal succeeds when every element does (`mapM_related`), and a fault that
ends it is the fault of one of its elements (`mapM_fault`). Likewise for a traversal that carries something
along (`foldlM_keeps`, `foldlM_error_iff`), and for one step after another (`bind_ok_iff`, `bind_error_iff`).
-/
namespace LogCursor.Traversal
universe u v w
variable {ε : Type u} {α : Type v} {β : Type w}

theorem bind_ok_iff {ε : Type u} {α : Type v} {β : Type v} {x : Except ε α} {f : α → Except ε β} {b : β} :
    (x >>= f) = .ok b ↔ ∃ a, x = .ok a ∧ f a = .ok b := by
  cases x with
  | error e => exact ⟨nofun, fun ⟨_, failed, _⟩ => nomatch failed⟩
  | ok a => exact ⟨fun done => ⟨a, rfl, done⟩, fun ⟨_, same, done⟩ => Except.ok.inj same ▸ done⟩

theorem bind_error_iff {ε : Type u} {α : Type v} {β : Type v} {x : Except ε α} {f : α → Except ε β} {e : ε} :
    (x >>= f) = .error e ↔ x = .error e ∨ ∃ a, x = .ok a ∧ f a = .error e := by
  cases x with
  | error e' =>
    constructor
    · intro failed
      cases failed
      exact .inl rfl
    · rintro (failed | ⟨_, done, _⟩)
      · cases failed
        rfl
      · cases done
  | ok a =>
    exact ⟨fun failed => .inr ⟨a, rfl, failed⟩,
      fun failed => failed.elim nofun fun ⟨_, same, failed⟩ => Except.ok.inj same ▸ failed⟩

/-- A result that exists and passes a test. -/
theorem ok_of_any {x : Except ε α} {test : α → Bool} (told : x.toOption.any test = true) :
    ∃ a, x = .ok a ∧ test a = true := by
  cases x with
  | error e => cases told
  | ok a => exact ⟨a, rfl, told⟩

private theorem mapM_cons_ok {f : α → Except ε β} {x : α} {xs : List α} {y : β} {ys : List β}
    (first : f x = .ok y) (rest : xs.mapM f = .ok ys) : (x :: xs).mapM f = .ok (y :: ys) := by
  rw [List.mapM_cons, first, rest]
  rfl

/-- Results that exist one by one exist together. -/
theorem mapM_related {f : α → Except ε β} {R : α → β → Prop} {xs : List α}
    (each : ∀ x ∈ xs, ∃ y, f x = .ok y ∧ R x y) : ∃ ys, xs.mapM f = .ok ys ∧ List.Forall₂ R xs ys := by
  induction xs with
  | nil => exact ⟨[], rfl, .nil⟩
  | cons x xs ih =>
    obtain ⟨y, first, related⟩ := each x (by simp)
    obtain ⟨ys, rest, all⟩ := ih fun x member => each x (by simp [member])
    exact ⟨y :: ys, mapM_cons_ok first rest, .cons related all⟩

theorem mapM_map {f : α → Except ε β} {g : α → β} {xs : List α} (each : ∀ x ∈ xs, f x = .ok (g x)) :
    xs.mapM f = .ok (xs.map g) := by
  induction xs with
  | nil => rfl
  | cons x xs ih => exact mapM_cons_ok (each x (by simp)) (ih fun x member => each x (by simp [member]))

theorem mapM_congr {m : Type w → Type u} [Monad m] [LawfulMonad m] {f g : α → m β} {xs : List α}
    (same : ∀ x ∈ xs, f x = g x) : xs.mapM f = xs.mapM g := by
  induction xs with
  | nil => rfl
  | cons x xs ih =>
    rw [List.mapM_cons, List.mapM_cons, same x (by simp), ih fun z member => same z (by simp [member])]

/-- A traversal that fails has failed at one of its elements. -/
theorem mapM_fault {f : α → Except ε β} {xs : List α} {e : ε} (failed : xs.mapM f = .error e) :
    ∃ x ∈ xs, f x = .error e := by
  induction xs with
  | nil => cases failed
  | cons x xs ih =>
    rw [List.mapM_cons] at failed
    cases first : f x with
    | error e' =>
      rw [first] at failed
      cases failed
      exact ⟨x, by simp, first⟩
    | ok y =>
      rw [first] at failed
      cases rest : xs.mapM f with
      | error e' =>
        rw [rest] at failed
        cases failed
        obtain ⟨z, member, fault⟩ := ih rest
        exact ⟨z, by simp [member], fault⟩
      | ok ys => rw [rest] at failed; cases failed

/-- A traversal that succeeds has succeeded at every element. -/
theorem mapM_each {f : α → Except ε β} {xs : List α} {ys : List β} (done : xs.mapM f = .ok ys) :
    ∀ x ∈ xs, ∃ y, f x = .ok y := by
  induction xs generalizing ys with
  | nil => simp
  | cons x xs ih =>
    rw [List.mapM_cons] at done
    cases first : f x with
    | error e => rw [first] at done; cases done
    | ok y =>
      rw [first] at done
      cases rest : xs.mapM f with
      | error e => rw [rest] at done; cases done
      | ok zs =>
        intro z member
        rcases List.mem_cons.mp member with rfl | later
        · exact ⟨y, first⟩
        · exact ih rest z later

/-- What every step keeps is kept to the end. -/
theorem foldlM_keeps {f : β → α → Except ε β} {P : β → Prop}
    (step : ∀ {b x b'}, P b → f b x = .ok b' → P b') {xs : List α} {b b' : β} (start : P b)
    (done : xs.foldlM f b = .ok b') : P b' := by
  induction xs generalizing b with
  | nil => cases done; exact start
  | cons x xs ih =>
    rw [List.foldlM_cons] at done
    cases first : f b x with
    | error e => rw [first] at done; cases done
    | ok next => rw [first] at done; exact ih (step start first) done

/-- Likewise for steps that give nothing when they fail. -/
theorem foldlM_some_keeps {f : β → α → Option β} {P : β → Prop}
    (step : ∀ {b x b'}, P b → f b x = some b' → P b') {xs : List α} {b b' : β} (start : P b)
    (done : xs.foldlM f b = some b') : P b' := by
  induction xs generalizing b with
  | nil => exact Option.some.inj done ▸ start
  | cons x xs ih =>
    rw [List.foldlM_cons] at done
    obtain ⟨next, first, done⟩ := Option.bind_eq_some_iff.mp done
    exact ih (step start first) done

/-- A traversal that carries something along ends with a fault when it comes to a step that has it. -/
theorem foldlM_error_iff {f : β → α → Except ε β} {xs : List α} {b : β} {e : ε} :
    xs.foldlM f b = .error e ↔
      ∃ front x back b', xs = front ++ x :: back ∧ front.foldlM f b = .ok b' ∧ f b' x = .error e := by
  induction xs generalizing b with
  | nil =>
    constructor
    · intro failed
      cases failed
    · rintro ⟨front, x, back, b', split, _⟩
      simp at split
  | cons x xs ih =>
    rw [List.foldlM_cons]
    cases first : f b x with
    | error e' =>
      constructor
      · intro failed
        cases failed
        exact ⟨[], x, xs, b, rfl, rfl, first⟩
      · rintro ⟨front, y, back, b', split, before, fault⟩
        cases front with
        | nil =>
          cases split
          cases before
          exact first.symm.trans fault
        | cons z front =>
          cases split
          rw [List.foldlM_cons, first] at before
          cases before
    | ok next =>
      constructor
      · intro failed
        obtain ⟨front, y, back, b', split, before, fault⟩ := ih.mp failed
        refine ⟨x :: front, y, back, b', congrArg _ split, ?_, fault⟩
        rw [List.foldlM_cons, first]
        exact before
      · rintro ⟨front, y, back, b', split, before, fault⟩
        cases front with
        | nil =>
          cases split
          cases before
          rw [first] at fault
          cases fault
        | cons z front =>
          cases split
          rw [List.foldlM_cons, first] at before
          exact ih.mpr ⟨front, y, back, b', rfl, before, fault⟩

/-- A fault that ends such a traversal is that of one of its steps. -/
theorem foldlM_fault {f : β → α → Except ε β} {xs : List α} {b : β} {e : ε}
    (failed : xs.foldlM f b = .error e) : ∃ b' x, f b' x = .error e := by
  obtain ⟨_, x, _, b', _, _, fault⟩ := foldlM_error_iff.mp failed
  exact ⟨b', x, fault⟩

end LogCursor.Traversal
