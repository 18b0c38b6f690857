import LogCursor.Yaml.Graph
/-!
Merged mappings. An entry that asks for a merge is replaced by the entries of the mapping it names, or of
several of them, the last one first; they come before the own entries of the mapping, which so go over
them. A mapping that is merged is itself made up first, and it stays so wherever else it stands.
-/
namespace LogCursor.Yaml.Graph

/-- Takes the first entry that asks for a merge out of some entries. -/
def takeMerge? (g : Graph) : List (Nat × Nat) → Option (Nat × List (Nat × Nat))
  | [] => none
  | (k, v) :: rest =>
    if g.tag k == .merge then some (v, rest)
    else (takeMerge? g rest).map fun (found, others) => (found, (k, v) :: others)

/-- Makes text of the keys that stand for a default value. -/
def nameDefaults (g : Graph) (entries : List (Nat × Nat)) : Graph :=
  entries.foldl (fun g entry => if g.tag entry.1 == .value then g.retag entry.1 .text else g) g

/-- Makes up a mapping from what has been merged so far, what is still to be merged, and its own entries.
Each step takes an entry that asks for a merge out of the graph, so the number of those is enough fuel. -/
def mergeInto : Nat → Graph → Nat → List (Nat × Nat) → Except Problem Graph
  | 0, _, _, _ => .error .malformed
  | fuel + 1, g, n, merged => do
    let own := (g.entries? n).getD []
    match takeMerge? g own with
    | none => return (g.refill n (.mapping (merged ++ own))).nameDefaults own
    | some (source, others) =>
      let g := g.refill n (.mapping others)
      if (g.entries? source).isSome then
        let g ← mergeInto fuel g source []
        mergeInto fuel g n (merged ++ (g.entries? source).getD [])
      else match g.items? source with
        | none => throw .malformed
        | some items =>
          let (g, parts) ← items.foldlM (fun (g, parts) item => do
            if (g.entries? item).isNone then throw .malformed
            let g ← mergeInto fuel g item []
            return (g, (g.entries? item).getD [] :: parts)) (g, [])
          mergeInto fuel g n (merged ++ parts.flatten)

/-- Makes up a mapping, with fuel for every merge in the graph. -/
def merge (g : Graph) (fuel n : Nat) : Except Problem Graph := mergeInto fuel g n []

end LogCursor.Yaml.Graph
