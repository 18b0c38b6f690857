import LogCursor.Fault
import LogCursor.Notice
/-!
Outcomes: a value or a fault, with the notices given on the way. A fault keeps the notices before it and
stops what follows.
-/
namespace LogCursor
universe u v

/-- The result of a computation and what it reported. -/
structure Outcome (α : Type u) where
  notices : List Notice
  result : Except Fault α

namespace Outcome
variable {α : Type u} {β : Type v}

def ok (a : α) : Outcome α := ⟨[], .ok a⟩

def fail (f : Fault) : Outcome α := ⟨[], .error f⟩

def ofExcept (r : Except Fault α) : Outcome α := ⟨[], r⟩

/-- A single notice. It names its partitions, which fails where an index has no numeral. -/
def say (n : Notice) : Outcome Unit :=
  if n.named.any (Numeral.Overlong ·.index) then fail .overlongNumber else ⟨[n], .ok ⟨⟩⟩

/-- An outcome as it is shown where a topic has a title. -/
def titled (t : Title) (x : Outcome α) : Outcome α :=
  ⟨x.notices.map (Notice.titled t), x.result.mapError (Fault.titled t)⟩

/-- Goes on with the value, if there is one. -/
def andThen (x : Outcome α) (f : α → Outcome β) : Outcome β :=
  match x.result with
  | .ok a => ⟨x.notices ++ (f a).notices, (f a).result⟩
  | .error e => ⟨x.notices, .error e⟩

instance : Monad Outcome where
  pure := ok
  bind := andThen

theorem say_eq {n : Notice} (short : ∀ p ∈ n.named, ¬ Numeral.Overlong p.index) : say n = ⟨[n], .ok ⟨⟩⟩ :=
  if_neg (by simpa using short)

theorem say_overlong {n : Notice} {p : Partition} (member : p ∈ n.named) (overlong : Numeral.Overlong p.index) :
    say n = fail .overlongNumber :=
  if_pos (List.any_eq_true.mpr ⟨p, member, decide_eq_true overlong⟩)

@[simp] theorem pure_eq (a : α) : (pure a : Outcome α) = ⟨[], .ok a⟩ := rfl

@[simp] theorem ok_bind {α β : Type u} (ns : List Notice) (a : α) (f : α → Outcome β) :
    ((⟨ns, .ok a⟩ : Outcome α) >>= f) = ⟨ns ++ (f a).notices, (f a).result⟩ := rfl

@[simp] theorem error_bind {α β : Type u} (ns : List Notice) (e : Fault) (f : α → Outcome β) :
    ((⟨ns, .error e⟩ : Outcome α) >>= f) = ⟨ns, .error e⟩ := rfl

/-- Apart from the notices, outcomes follow one another as their results do. -/
theorem result_bind {α β : Type u} (x : Outcome α) (f : α → Outcome β) :
    (x >>= f).result = x.result >>= fun a => (f a).result := by
  obtain ⟨ns, result⟩ := x
  cases result <;> rfl

end Outcome
end LogCursor
