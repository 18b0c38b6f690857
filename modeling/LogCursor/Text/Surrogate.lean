/-!
Halves of surrogate pairs. Escapes can name the code of half a pair, which no character has. In a text such a half is
held by two characters: a mark, and a stand-in from a plane without characters. Where the mark stands for itself it is
doubled. So different codes have different texts (`codes_ofCodes`), and wherever codes are written, the pair is written
by the code of the half.
-/
namespace LogCursor.Text

/-- The mark, a code that is no character and never will be. -/
def mark : Char := Char.ofNat 0x7ffff

/-- How far a stand-in lies above the half it stands for. -/
def standInDistance : Nat := 0x70000

/-- The code of half a surrogate pair. -/
def isHalf (n : Nat) : Bool := 0xd800 ≤ n && n < 0xe000

def ofCode (n : Nat) : List Char :=
  if isHalf n then [mark, Char.ofNat (n + standInDistance)]
  else if n = mark.toNat then [mark, mark]
  else [Char.ofNat n]

def ofChars (cs : List Char) : List Char := cs.flatMap fun c => ofCode c.toNat

def codes : List Char → List Nat
  | [] => []
  | [c] => [c.toNat]
  | c :: d :: rest =>
    if c = mark then (if d = mark then mark.toNat else d.toNat - standInDistance) :: codes rest
    else c.toNat :: codes (d :: rest)

theorem toNat_ofNat {n : Nat} (valid : n.isValidChar) : (Char.ofNat n).toNat = n := by
  rw [Char.ofNat, dif_pos valid]
  rfl

/-- Whatever the code, it is held by characters that no others begin with. -/
theorem codes_ofCode_append {n : Nat} (lt : n < 0x110000) (rest : List Char) :
    codes (ofCode n ++ rest) = n :: codes rest := by
  rw [ofCode]
  split
  · rename_i half
    have bounds : 0xd800 ≤ n ∧ n < 0xe000 := by simpa [isHalf] using half
    have valid : (n + standInDistance).isValidChar := by
      unfold standInDistance
      exact .inr (by omega)
    have other : Char.ofNat (n + standInDistance) ≠ mark := by
      intro same
      have := congrArg Char.toNat same
      rw [toNat_ofNat valid] at this
      have : mark.toNat = 0x7ffff := rfl
      unfold standInDistance at *
      omega
    rw [List.cons_append, List.singleton_append, codes, if_pos rfl, if_neg other, toNat_ofNat valid, Nat.add_sub_cancel]
  · rename_i whole
    split
    · rename_i same
      rw [List.cons_append, List.singleton_append, codes, if_pos rfl, if_pos rfl, same]
    · rename_i other
      have valid : n.isValidChar := by
        have bounds : ¬ (0xd800 ≤ n ∧ n < 0xe000) := by simpa [isHalf] using whole
        rcases Nat.lt_or_ge n 0xd800 with low | high
        · exact .inl low
        · exact .inr (by omega)
      have different : Char.ofNat n ≠ mark := fun same => other (by rw [← same, toNat_ofNat valid])
      cases rest with
      | nil =>
        show [(Char.ofNat n).toNat] = [n]
        rw [toNat_ofNat valid]
      | cons d rest => rw [List.singleton_append, codes, if_neg different, toNat_ofNat valid]

theorem codes_ofCodes {ns : List Nat} (each : ∀ n ∈ ns, n < 0x110000) : codes (ns.flatMap ofCode) = ns := by
  induction ns with
  | nil => rfl
  | cons n rest ih =>
    obtain ⟨first, later⟩ := List.forall_mem_cons.mp each
    rw [List.flatMap_cons, codes_ofCode_append first, ih later]

end LogCursor.Text
