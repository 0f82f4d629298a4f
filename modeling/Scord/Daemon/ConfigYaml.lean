/-
  Scord.Daemon.ConfigYaml

  How the daemon reads its configuration (`config_yaml` in `scord.cpp`): the tree
  of a YAML document becomes a flat list of items for the command-line parser.

  The recursion carries the name of a node apart from the names above it, and
  puts it behind them one level further down.
-/
import Scord.Lib.YamlTree

namespace Scord

open Yaml (Node)

/-- `CLI::ConfigItem` -/
structure ConfigItem where
  parents : List String
  name : String
  inputs : List String
deriving DecidableEq, Repr

namespace ConfigYaml

/-- `CLI::ConversionError("Missing name")` -/
def missingName : String := "Missing name"

/-- The texts of the children with `has_val()`; a null has the empty one. -/
def values (items : List Node) : List String :=
  items.filterMap fun
    | .scalar text _ => some (text.getD "")
    | _ => none

mutual

/-- `parse_node(node, parent_name, prefix)`, where `key` is the key of the node
    itself. -/
def parseNode (key : Option String) : Node → String → List String →
    Except String (List ConfigItem)
  | .map entries, parentName, parents =>
      parseEntries entries (if parentName ≠ "" then parents ++ [parentName] else parents)
  | .seq items, parentName, parents =>
      if parentName ≠ "" then .ok [⟨parents, parentName, values items⟩]
      else .error missingName
  | .scalar text _, parentName, parents =>
      -- `is_keyval()`
      if parentName ≠ "" ∧ key.isSome then .ok [⟨parents, parentName, [text.getD ""]⟩]
      else .error missingName
termination_by structural node => node

/-- The loop over the children of a map, with the same copy of the prefix for each
    of them. -/
def parseEntries : List (String × Node) → List String → Except String (List ConfigItem)
  | [], _ => .ok []
  | (name, c) :: entries, copyPrefix => do
      let subResults ← parseNode (some name) c name copyPrefix
      let results ← parseEntries entries copyPrefix
      return subResults ++ results
termination_by structural entries => entries

end

/-- `from_config`, for the tree that was parsed. -/
def fromConfig (root : Node) : Except String (List ConfigItem) := parseNode none root "" []

/-- The configurations: every key has a name, and sequences have scalars only. -/
inductive Flattens : Node → Prop
  | scalar (text : Option String) (quoted : Bool) : Flattens (.scalar text quoted)
  | seq {items : List Node} (hitems : ∀ i ∈ items, ∃ text quoted, i = .scalar text quoted) :
      Flattens (.seq items)
  | map {entries : List (String × Node)} (hkeys : ∀ e ∈ entries, e.1 ≠ "")
      (hnodes : ∀ e ∈ entries, Flattens e.2) : Flattens (.map entries)

/-- The texts at a leaf: of the scalar, or of all that are in the sequence. -/
def inputs : Node → List String
  | .seq items => items.map fun i => i.val.getD ""
  | leaf => [leaf.val.getD ""]

/-- The item of a leaf: its own key is the last one on the path to it. -/
def itemOf (leaf : List String × Node) : ConfigItem :=
  ⟨leaf.1.dropLast, leaf.1.getLast?.getD "", inputs leaf.2⟩

/-- Of scalars, no text is passed over. -/
theorem values_eq {items : List Node} (h : ∀ i ∈ items, ∃ text quoted, i = .scalar text quoted) :
    values items = items.map fun i => i.val.getD "" := by
  induction items with
  | nil => rfl
  | cons i items ih =>
      obtain ⟨⟨text, quoted, rfl⟩, hitems⟩ := List.forall_mem_cons.mp h
      exact congrArg (text.getD "" :: ·) (ih hitems)

/-- The loop over the entries of a map, where each of them makes one item for each
    of its leaves. -/
theorem parseEntries_eq {entries : List (String × Node)} {names : List String}
    (h : ∀ e ∈ entries, parseNode (some e.1) e.2 e.1 names
      = .ok (e.2.leaves.map fun l => itemOf (names ++ e.1 :: l.1, l.2))) :
    parseEntries entries names
      = .ok ((Node.map entries).leaves.map fun l => itemOf (names ++ l.1, l.2)) := by
  rw [Node.leaves_map]
  induction entries with
  | nil => rfl
  | cons e entries ih =>
      obtain ⟨hfirst, hrest⟩ := List.forall_mem_cons.mp h
      rw [parseEntries, hfirst, ih hrest, List.flatMap_cons, List.map_append, List.map_map]
      rfl

/-- **A node below others** makes one item for each of its leaves, with its name
    behind the names above it. -/
theorem parseNode_eq {node : Node} (h : Flattens node) (name : String) (hname : name ≠ "")
    (parents : List String) :
    parseNode (some name) node name parents
      = .ok (node.leaves.map fun l => itemOf (parents ++ name :: l.1, l.2)) := by
  induction h generalizing name parents with
  | scalar text quoted => simp [parseNode, hname, Node.leaves, itemOf, inputs, Node.val]
  | seq hitems => simp [parseNode, hname, Node.leaves, itemOf, inputs, values_eq hitems]
  | @map entries hkeys hnodes ih =>
      -- the name of the map is put behind the others before its entries are read
      rw [parseNode, if_pos hname, parseEntries_eq fun e he => ih e he e.1 (hkeys e he) _]
      simp only [List.append_assoc, List.singleton_append]

/-- **A configuration is flattened without loss**: one item for each leaf, in the
    order of the document. -/
theorem fromConfig_eq {root : Node} (h : Flattens root) (hmap : root.isMap = true) :
    fromConfig root = .ok (root.leaves.map itemOf) := by
  cases h with
  | scalar text quoted => cases hmap
  | seq hitems => cases hmap
  | map hkeys hnodes =>
      rw [fromConfig, parseNode, if_neg (by simp),
        parseEntries_eq fun e he => parseNode_eq (hnodes e he) e.1 (hkeys e he) []]
      rfl

/-- A section with an address and a list, and a scalar beside it. -/
def sampleConfig : Node :=
  .map [("global", .map [("address", .scalar (some "tcp://[::1]:52000") false),
      ("tags", .seq [.scalar (some "a") false, .scalar none false])]),
    ("logging", .scalar (some "file") true)]

theorem fromConfig_sample :
    fromConfig sampleConfig = .ok [⟨["global"], "address", ["tcp://[::1]:52000"]⟩,
      ⟨["global"], "tags", ["a", ""]⟩, ⟨[], "logging", ["file"]⟩] := by
  have htags : Flattens (.seq [.scalar (some "a") false, .scalar none false]) := by
    refine .seq fun i hi => ?_
    rcases List.mem_cons.mp hi with rfl | hi
    · exact ⟨_, _, rfl⟩
    · exact ⟨_, _, List.mem_singleton.mp hi⟩
  have hglobal : Flattens (.map [("address", .scalar (some "tcp://[::1]:52000") false),
      ("tags", .seq [.scalar (some "a") false, .scalar none false])]) :=
    .map (by simp) (List.forall_mem_cons.mpr ⟨.scalar .., List.forall_mem_singleton.mpr htags⟩)
  have hroot : Flattens sampleConfig :=
    .map (by simp) (List.forall_mem_cons.mpr ⟨hglobal, List.forall_mem_singleton.mpr (.scalar ..)⟩)
  exact fromConfig_eq hroot rfl

end ConfigYaml

end Scord
