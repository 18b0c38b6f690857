import LogCursor.Yaml.Graph.Cells
import LogCursor.Yaml.Graph.Reader
/-!
The value of a document.
-/
namespace LogCursor.Yaml

/-- The value of the only document in a text of some name, with the cells that it needs; a text without a
document has the value null. -/
def read (name : String) (s : Supply) : Except Problem (Strand × Cells) := do
  match ← Graph.ofTokens (Token.ofSupply s) with
  | (_, none) => return (.scalar .null, [])
  | (g, some root) => g.cells name root

end LogCursor.Yaml
