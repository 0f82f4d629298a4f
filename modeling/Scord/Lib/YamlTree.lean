/-
  Scord.Lib.YamlTree

  YAML documents as the trees of a parser: scalars, sequences, and maps whose
  entries keep the order of the document and may repeat a key.

  A scalar may have no text at all (`key:` and nothing behind it), and it knows
  whether it was quoted.  The leaves of a tree are what is not a map, each with the
  keys on its path.
-/
import Mathlib.Init

namespace Yaml

inductive Node
  | scalar (text : Option String) (quoted : Bool)
  | seq (items : List Node)
  | map (entries : List (String × Node))

namespace Node

/-! ## One node -/

def isMap : Node → Bool
  | map _ => true
  | _ => false

/-- The children that have a key. -/
def entries : Node → List (String × Node)
  | map es => es
  | _ => []

/-- The text of a node: none if it is no scalar, or an empty one. -/
def val : Node → Option String
  | scalar text _ => text
  | _ => none

/-- What a parser may take for a null: no text, or one of these that is not
    quoted. -/
def valIsNull : Node → Bool
  | scalar (some text) quoted => !quoted && decide (text ∈ ["~", "null", "Null", "NULL"])
  | _ => true

/-- What the maps with this key hold, in document order. -/
def under (key : String) (es : List (String × Node)) : List (String × Node) :=
  es.flatMap fun e => if e.1 = key then e.2.entries else []

theorem mem_under {key : String} {es : List (String × Node)} {e : String × Node} :
    e ∈ under key es ↔ ∃ parent ∈ es, parent.1 = key ∧ e ∈ parent.2.entries := by
  unfold under
  rw [List.mem_flatMap]
  refine exists_congr fun parent => and_congr_right fun _ => ?_
  by_cases hkey : parent.1 = key <;> simp [hkey]

/-! ## Induction -/

/-- **The induction rule**: what holds of a map if it holds of the nodes in it. -/
theorem induction {motive : Node → Prop} (scalar : ∀ text quoted, motive (scalar text quoted))
    (seq : ∀ items, motive (seq items))
    (map : ∀ es, (∀ e ∈ es, motive e.2) → motive (map es)) (node : Node) : motive node := by
  refine Node.rec (motive_1 := motive) (motive_2 := fun _ => True)
    (motive_3 := fun es => ∀ e ∈ es, motive e.2) (motive_4 := fun e => motive e.2)
    scalar (fun items _ => seq items) map trivial (fun _ _ _ _ => trivial)
    (fun e he => absurd he List.not_mem_nil) ?_ (fun _ _ h => h) node
  intro e es he hes f hf
  rcases List.mem_cons.mp hf with rfl | hf
  · exact he
  · exact hes f hf

/-! ## Leaves -/

mutual

/-- What is not a map, with the keys on the path to it, in document order. -/
def leaves : Node → List (List String × Node)
  | map es => leavesOf es
  | leaf => [([], leaf)]
termination_by structural node => node

def leavesOf : List (String × Node) → List (List String × Node)
  | [] => []
  | (key, node) :: es => (leaves node).map (fun l => (key :: l.1, l.2)) ++ leavesOf es
termination_by structural es => es

end

theorem leavesOf_eq_flatMap (es : List (String × Node)) :
    leavesOf es = es.flatMap fun e => (leaves e.2).map fun l => (e.1 :: l.1, l.2) := by
  induction es with
  | nil => rfl
  | cons e es ih => rw [leavesOf, ih, List.flatMap_cons]

theorem leaves_map (es : List (String × Node)) :
    (map es).leaves = es.flatMap fun e => (leaves e.2).map fun l => (e.1 :: l.1, l.2) := by
  rw [leaves, leavesOf_eq_flatMap]

end Node

end Yaml
