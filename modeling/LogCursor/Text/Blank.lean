/-!
Blank characters. Stripping text removes the blanks of both ends; a numeral may stand between the
smaller class of margin characters, which leaves out the four information separators.
-/
namespace LogCursor.Text

/-- The blanks outside ASCII, from the next-line control to the ideographic space. -/
def isWideBlank (c : Char) : Bool :=
  let n := c.toNat
  n == 0x85 || n == 0xa0 || n == 0x1680 || (0x2000 ≤ n && n ≤ 0x200a) || n == 0x2028 ||
    n == 0x2029 || n == 0x202f || n == 0x205f || n == 0x3000

/-- The blanks a numeral may stand between: tab to carriage return, the space, and the wide blanks. -/
def isMargin (c : Char) : Bool :=
  (0x9 ≤ c.toNat && c.toNat ≤ 0xd) || c.toNat == 0x20 || isWideBlank c

/-- Every blank: the margin characters and the four information separators. -/
def isBlank (c : Char) : Bool :=
  isMargin c || (0x1c ≤ c.toNat && c.toNat ≤ 0x1f)

def trimBy (p : Char → Bool) (cs : List Char) : List Char :=
  ((cs.dropWhile p).reverse.dropWhile p).reverse

def strip (s : String) : String :=
  String.ofList (trimBy isBlank s.toList)

def IsBlankText (s : String) : Prop := ∀ c ∈ s.toList, isBlank c

instance (s : String) : Decidable (IsBlankText s) :=
  -- Named, because other instances in scope would try every character there is.
  List.decidableBAll (isBlank · = true) s.toList

end LogCursor.Text
