/-!
# Syntax trees of scripts

A script is read into a tree of nodes.  A node has a kind, its children in the order of the text,
and, where its parent tells its children apart, the role it plays for the parent.  Kinds are named
only where an outline asks for them; every other construct is a node of the kind `other`, there for
the sake of what it contains.  The text is kept for the nodes whose wording is read: names, literal
texts and parameter lists.
-/

set_option autoImplicit false

namespace ChangeContext

namespace Script

/-- What a node is. -/
inductive Kind where
  | identifier
  | string
  | templateString
  | comment
  | arguments
  | formalParameters
  | callExpression
  | functionExpression
  | generatorFunction
  | arrowFunction
  | functionDeclaration
  | generatorFunctionDeclaration
  | classDeclaration
  | lexicalDeclaration
  | variableDeclaration
  | variableDeclarator
  | importStatement
  | exportStatement
  | exportClause
  | exportSpecifier
  | other
deriving DecidableEq, Inhabited

/-- What a node is for its parent. -/
inductive Role where
  | name
  | newName
  | value
  | source
  | callee
  | arguments
  | parameters
  | parameter
  | declaration
deriving DecidableEq, Inhabited

/-- A node with everything below it. -/
inductive Tree where
  | node (kind : Kind) (role : Option Role) (text : String) (children : List Tree)

namespace Tree

instance : Inhabited Tree := ⟨node .other none "" []⟩

/-- What the node is. -/
def kind : Tree → Kind
  | node k _ _ _ => k

/-- What the node is for its parent. -/
def role : Tree → Option Role
  | node _ r _ _ => r

/-- The wording of the node. -/
def text : Tree → String
  | node _ _ s _ => s

/-- The nodes directly below. -/
def children : Tree → List Tree
  | node _ _ _ cs => cs

/-- The same node in another role. -/
def as (t : Tree) (r : Role) : Tree :=
  node t.kind (some r) t.text t.children

/-- The first child in a role. -/
def child? (t : Tree) (r : Role) : Option Tree :=
  t.children.find? fun c ↦ c.role == some r

/-- A node without children. -/
def leaf (k : Kind) (s : String) : Tree :=
  node k none s []

/-- A node that stands for its children. -/
def branch (k : Kind) (cs : List Tree) : Tree :=
  node k none "" cs

/-- A construct of no kind of its own. -/
def group (cs : List Tree) : Tree :=
  branch .other cs

mutual

/-- The number of nodes. -/
def size : Tree → Nat
  | node _ _ _ cs => 1 + sizes cs

/-- The number of nodes of several trees. -/
def sizes : List Tree → Nat
  | [] => 0
  | t :: rest => t.size + sizes rest

end

theorem sizes_append (l m : List Tree) : sizes (l ++ m) = sizes l + sizes m := by
  induction l with
  | nil => simp [sizes]
  | cons t rest ih => simp [sizes, ih, Nat.add_assoc]

theorem size_eq (t : Tree) : t.size = 1 + sizes t.children := by
  cases t; simp [size, children]

end Tree

end Script

end ChangeContext
