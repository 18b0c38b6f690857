/-!
Lookup and update in insertion order. A list of pairs serves as a finite map: an update keeps the place of
a key that is present and appends one that is not. Keys are compared by `==`, which need not be lawful.
-/
namespace LogCursor.Assoc
universe u v
variable {κ : Type u} {ν : Type v} [BEq κ]

def get? (k : κ) : List (κ × ν) → Option ν
  | [] => none
  | (j, v) :: rest => if j == k then some v else get? k rest

def put (k : κ) (v : ν) : List (κ × ν) → List (κ × ν)
  | [] => [(k, v)]
  | (j, w) :: rest => if j == k then (j, v) :: rest else (j, w) :: put k v rest

@[simp] theorem get?_nil (k : κ) : get? k ([] : List (κ × ν)) = none := rfl

theorem get?_cons (k j : κ) (v : ν) (m : List (κ × ν)) :
    get? k ((j, v) :: m) = if j == k then some v else get? k m := rfl

theorem get?_put_self {k : κ} (self : k == k) (v : ν) (m : List (κ × ν)) : get? k (put k v m) = some v := by
  induction m with
  | nil => simp [put, get?, self]
  | cons entry rest ih =>
    obtain ⟨j, w⟩ := entry
    by_cases h : j == k <;> simp [put, get?, h, ih]

theorem get?_put_other {k k' : κ} (apart : (k == k') = false)
    (split : ∀ j : κ, j == k → (j == k') = false) (v : ν) (m : List (κ × ν)) :
    get? k' (put k v m) = get? k' m := by
  induction m with
  | nil => simp [put, get?, apart]
  | cons entry rest ih =>
    obtain ⟨j, w⟩ := entry
    by_cases h : j == k
    · simp [put, get?, h, split j h]
    · by_cases h' : j == k' <;> simp [put, get?, h, h', ih]

theorem get?_put_apart [EquivBEq κ] {k k' : κ} (apart : (k == k') = false) (v : ν) (m : List (κ × ν)) :
    get? k' (put k v m) = get? k' m := by
  refine get?_put_other apart (fun j same => Bool.eq_false_iff.mpr fun also => ?_) v m
  exact Bool.false_ne_true (apart.symm.trans (BEq.trans (BEq.symm same) also))

theorem get?_congr [EquivBEq κ] {j k : κ} (same : j == k) (m : List (κ × ν)) : get? j m = get? k m := by
  induction m with
  | nil => rfl
  | cons entry rest ih =>
    obtain ⟨i, v⟩ := entry
    rw [get?_cons, get?_cons, ih, BEq.congr_right same]

theorem get?_put_same [EquivBEq κ] {j k : κ} (same : j == k) (v : ν) (m : List (κ × ν)) :
    get? k (put j v m) = some v := by
  rw [← get?_congr same, get?_put_self (BEq.refl j)]

/-- An update keeps the keys, apart from a new one at the end. -/
theorem keys_put (k : κ) (v : ν) (m : List (κ × ν)) :
    (put k v m).map Prod.fst =
      if (m.map Prod.fst).any (· == k) then m.map Prod.fst else m.map Prod.fst ++ [k] := by
  induction m with
  | nil => simp [put]
  | cons entry rest ih =>
    obtain ⟨j, w⟩ := entry
    by_cases h : j == k
    · simp [put, h]
    · by_cases h' : (rest.map Prod.fst).any (· == k)
      · simp_all [put]
      · simp_all [put]
        exact h'

theorem nodup_keys_put [LawfulBEq κ] (k : κ) (v : ν) (m : List (κ × ν))
    (distinct : (m.map Prod.fst).Nodup) : ((put k v m).map Prod.fst).Nodup := by
  rw [keys_put]
  split
  · exact distinct
  · rename_i fresh
    rw [List.nodup_append]
    refine ⟨distinct, by simp, ?_⟩
    intro a inside b last same
    simp only [List.mem_singleton] at last
    subst last; subst same
    exact fresh (List.any_eq_true.2 ⟨a, inside, by simp⟩)

/-- What is found stands in an entry, under a key that equals the one that was looked up. -/
theorem exists_mem_of_get? {k : κ} {v : ν} {m : List (κ × ν)} (found : get? k m = some v) :
    ∃ j, (j, v) ∈ m ∧ j == k := by
  induction m with
  | nil => cases found
  | cons entry rest ih =>
    obtain ⟨j, w⟩ := entry
    rw [get?_cons] at found
    split at found
    · rename_i same
      cases found
      exact ⟨j, List.mem_cons_self, same⟩
    · obtain ⟨j', member, same⟩ := ih found
      exact ⟨j', List.mem_cons_of_mem _ member, same⟩

theorem mem_of_get? [LawfulBEq κ] {k : κ} {v : ν} {m : List (κ × ν)} (found : get? k m = some v) : (k, v) ∈ m := by
  obtain ⟨j, member, same⟩ := exists_mem_of_get? found
  exact eq_of_beq same ▸ member

theorem get?_append (k : κ) (front back : List (κ × ν)) : get? k (front ++ back) = (get? k front).or (get? k back) := by
  induction front with
  | nil => rfl
  | cons entry rest ih =>
    rw [List.cons_append, get?_cons, get?_cons, ih]
    split <;> rfl

theorem get?_fresh {k : κ} {m : List (κ × ν)} (fresh : ∀ entry ∈ m, (entry.1 == k) = false) : get? k m = none := by
  induction m with
  | nil => rfl
  | cons entry rest ih =>
    obtain ⟨first, later⟩ := List.forall_mem_cons.mp fresh
    rw [get?_cons, first, ih later]
    rfl

theorem put_fresh {k : κ} {m : List (κ × ν)} (fresh : ∀ entry ∈ m, (entry.1 == k) = false) (v : ν) :
    put k v m = m ++ [(k, v)] := by
  induction m with
  | nil => rfl
  | cons entry rest ih =>
    obtain ⟨j, w⟩ := entry
    obtain ⟨first, later⟩ := List.forall_mem_cons.mp fresh
    rw [put, first, ih later]
    rfl

theorem put_append_of_get? {k : κ} {w : ν} {front : List (κ × ν)} (found : get? k front = some w) (v : ν)
    (back : List (κ × ν)) : put k v (front ++ back) = put k v front ++ back := by
  induction front with
  | nil => cases found
  | cons entry rest ih =>
    obtain ⟨j, u⟩ := entry
    rw [get?_cons] at found
    by_cases same : j == k
    · simp [put, same]
    · simp [same] at found
      simp [put, same, ih found]

/-- An update keeps what precedes the entry. -/
theorem put_append_of_fresh {k : κ} {front : List (κ × ν)} (fresh : ∀ entry ∈ front, (entry.1 == k) = false) (v : ν)
    (back : List (κ × ν)) : put k v (front ++ back) = front ++ put k v back := by
  induction front with
  | nil => rfl
  | cons entry rest ih =>
    obtain ⟨j, u⟩ := entry
    obtain ⟨first, later⟩ := List.forall_mem_cons.mp fresh
    rw [List.cons_append, put, first, ih later]
    rfl

/-- An entry after an update is an old one, or has the new value under its own key or an old one. -/
theorem mem_put {k : κ} {v : ν} {m : List (κ × ν)} {entry : κ × ν} (member : entry ∈ put k v m) :
    entry ∈ m ∨ entry.2 = v ∧ (entry.1 = k ∨ entry.1 ∈ m.map Prod.fst) := by
  induction m with
  | nil =>
    rw [List.mem_singleton.mp member]
    exact .inr ⟨rfl, .inl rfl⟩
  | cons first rest ih =>
    obtain ⟨j, u⟩ := first
    rw [put] at member
    split at member
    · rcases List.mem_cons.mp member with rfl | old
      · exact .inr ⟨rfl, .inr List.mem_cons_self⟩
      · exact .inl (List.mem_cons_of_mem _ old)
    · rcases List.mem_cons.mp member with rfl | later
      · exact .inl List.mem_cons_self
      · exact (ih later).imp (List.mem_cons_of_mem _) fun ⟨value, key⟩ => ⟨value, key.imp_right (List.mem_cons_of_mem _)⟩

theorem put_put {k : κ} (self : k == k) (v w : ν) (m : List (κ × ν)) : put k w (put k v m) = put k w m := by
  induction m with
  | nil => simp [put, self]
  | cons entry rest ih =>
    obtain ⟨j, u⟩ := entry
    by_cases same : j == k <;> simp [put, same, ih]

theorem put_of_get? {k : κ} {v : ν} {m : List (κ × ν)} (found : get? k m = some v) : put k v m = m := by
  induction m with
  | nil => cases found
  | cons entry rest ih =>
    obtain ⟨j, u⟩ := entry
    by_cases same : j == k
    · simp [get?, same] at found
      simp [put, same, found]
    · simp [get?, same] at found
      simp [put, same, ih found]

/-- Two keys that no key equals both can be filed in any order. -/
theorem put_comm {k k' : κ} (apart : ∀ j : κ, ¬ (j == k ∧ j == k')) (kk' : (k == k') = false) (k'k : (k' == k) = false)
    (v w : ν) (m : List (κ × ν)) : (put k' w (put k v m)).Perm (put k v (put k' w m)) := by
  induction m with
  | nil => simp [put, kk', k'k, List.Perm.swap]
  | cons entry rest ih =>
    obtain ⟨j, u⟩ := entry
    by_cases same : j == k
    · have other : (j == k') = false := by simpa using fun also => apart j ⟨same, also⟩
      simp [put, same, other]
    · by_cases same' : j == k'
      · simp [put, same, same']
      · simp [put, same, same', ih]

end LogCursor.Assoc
