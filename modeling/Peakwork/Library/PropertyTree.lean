/-
This file gives trees of texts and their dotted paths.
-/

import Mathlib.Tactic

namespace Peakwork

/-- A node has a text and a list of named children; a name may occur again. -/
inductive PropertyTree where
  | node (data : String) (children : List (String × PropertyTree))
  deriving Repr

namespace PropertyTree

def data : PropertyTree → String
  | .node data _ => data

def children : PropertyTree → List (String × PropertyTree)
  | .node _ children => children

@[simp] theorem data_node (text : String) (entries : List (String × PropertyTree)) :
    (node text entries).data = text := rfl

@[simp] theorem children_node (text : String) (entries : List (String × PropertyTree)) :
    (node text entries).children = entries := rfl

@[simp] theorem node_data_children (tree : PropertyTree) : node tree.data tree.children = tree := by
  cases tree
  rfl

def empty : PropertyTree := .node "" []

def leaf (data : String) : PropertyTree := .node data []

/-- What holds of a node as soon as it holds of its children holds of every tree. -/
@[elab_as_elim]
theorem induction {motive : PropertyTree → Prop}
    (node : ∀ data children, (∀ entry ∈ children, motive entry.2) → motive (.node data children))
    (tree : PropertyTree) : motive tree := by
  refine @PropertyTree.rec motive (fun children => ∀ entry ∈ children, motive entry.2)
    (fun entry => motive entry.2) ?_ ?_ ?_ ?_ tree
  · exact node
  · intro entry member
    exact absurd member List.not_mem_nil
  · intro head tail first others entry member
    rcases List.mem_cons.mp member with rfl | later
    · exact first
    · exact others entry later
  · intro key tree holds
    exact holds

/-- The first direct child whose name is the whole key. -/
def find (tree : PropertyTree) (key : String) : Option PropertyTree :=
  (tree.children.find? (·.1 = key)).map (·.2)

/-- The parts of a dotted path. -/
def segments (path : String) : List String := (path.toList.splitOn '.').map String.ofList

/-- A walk ends where the text of the path ends, so it does not look for an empty last part. -/
def steps (path : String) : List String :=
  if (segments path).getLast? = some "" then (segments path).dropLast else segments path

def walk : PropertyTree → List String → Option PropertyTree
  | tree, [] => some tree
  | tree, key :: rest => (tree.find key).bind (walk · rest)

def getChild (tree : PropertyTree) (path : String) : Option PropertyTree := tree.walk (steps path)

/-- The text at a path, or the default where there is no node. -/
def get (tree : PropertyTree) (path defValue : String) : String :=
  ((tree.getChild path).map data).getD defValue

def pushBack (tree : PropertyTree) (key : String) (child : PropertyTree) : PropertyTree :=
  .node tree.data (tree.children ++ [(key, child)])

def setData (tree : PropertyTree) (data : String) : PropertyTree := .node data tree.children

/-- A loop that pushes one child for each item appends them in order. -/
theorem foldl_pushBack {α : Type} (child : α → PropertyTree) (key : String) (items : List α)
    (tree : PropertyTree) :
    items.foldl (fun tree item => tree.pushBack key (child item)) tree =
      .node tree.data (tree.children ++ items.map fun item => (key, child item)) := by
  induction items generalizing tree with
  | nil => rw [List.foldl_nil, List.map_nil, List.append_nil, node_data_children]
  | cons item rest ih =>
      rw [List.foldl_cons, ih]
      simp [pushBack, data, children]

/-- The first child of the name is replaced. -/
def replaceFirst (key : String) (child : PropertyTree) :
    List (String × PropertyTree) → List (String × PropertyTree)
  | [] => []
  | entry :: rest =>
      if entry.1 = key then (key, child) :: rest else entry :: replaceFirst key child rest

/-- The first child of the name is changed, and a missing one is made. -/
def descend (tree : PropertyTree) (key : String) (change : PropertyTree → PropertyTree) : PropertyTree :=
  match tree.find key with
  | some child => .node tree.data (replaceFirst key (change child) tree.children)
  | none => tree.pushBack key (change empty)

/-- The data of the first node at the path is set. -/
def putAt (value : String) : List String → PropertyTree → PropertyTree
  | [], tree => tree.setData value
  | key :: rest, tree => tree.descend key (putAt value rest)

def put (tree : PropertyTree) (path value : String) : PropertyTree :=
  if (tree.getChild path).isSome then putAt value (steps path) tree
  else putAt value (segments path) tree

/-- A new node is appended at the path, whatever is there already. -/
def addChildAt (child : PropertyTree) : List String → PropertyTree → PropertyTree
  | [], tree => tree
  | [key], tree => tree.pushBack key child
  | key :: next :: rest, tree => tree.descend key (addChildAt child (next :: rest))

def addChild (tree : PropertyTree) (path : String) (child : PropertyTree) : PropertyTree :=
  addChildAt child (segments path) tree

end PropertyTree

end Peakwork
