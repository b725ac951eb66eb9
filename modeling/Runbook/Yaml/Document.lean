import Runbook.Yaml.Lexer
import Runbook.Yaml.Node

set_option autoImplicit false
set_option relaxedAutoImplicit false

/-!
Documents with their aliases linked. An anchor gets a number when it is met, the count of the names
known so far; an alias means the number that its name has at that place, and a number means the
last node that got it.
-/

namespace Runbook.Yaml

/-- The anchors met so far: the numbers of the names, the latest first; how many names there are;
for each number its nodes, the latest first, by the order in which they began; and those nodes. -/
structure Anchors where
  numbers : List (String × Nat)
  names : Nat
  begun : List (Nat × Nat)
  nodes : List (Nat × Node Nat)
  count : Nat

namespace Anchors

def none : Anchors := ⟨[], 0, [], [], 0⟩

def number? (a : Anchors) (name : String) : Option Nat :=
  (a.numbers.find? (·.1 == name)).map (·.2)

/-- A node with an anchor begins; it is known by the order in which it began. -/
def start (a : Anchors) (name : String) : Nat × Anchors :=
  (a.count, {
    numbers := (name, a.names) :: a.numbers
    names := if (a.number? name).isSome then a.names else a.names + 1
    begun := (a.names, a.count) :: a.begun
    nodes := a.nodes
    count := a.count + 1 })

/-- A node has properties, of which the anchor matters. -/
def startNode (a : Anchors) (p : Properties) : Option Nat × Anchors :=
  match p.anchor with
  | some name => ((a.start name).1, (a.start name).2)
  | Option.none => (Option.none, a)

def endNode (a : Anchors) (order : Option Nat) (n : Node Nat) : Anchors :=
  match order with
  | some k => { a with nodes := (k, n) :: a.nodes }
  | Option.none => a

def node? (a : Anchors) (number : Nat) : Option (Node Nat) := do
  let (_, order) ← a.begun.find? (·.1 == number)
  (a.nodes.find? (·.1 == order)).map (·.2)

end Anchors

mutual

/-- A node with its aliases linked, and the anchors met up to its end. -/
def link (a : Anchors) : Written → Option (Node Nat × Anchors)
  | .alias name => (a.number? name).map fun n => (.alias n, a)
  | .scalar p style text =>
    let (order, a) := a.startNode p
    let n : Node Nat := .scalar p style text
    some (n, a.endNode order n)
  | .sequence p items => do
    let (order, a) := a.startNode p
    let (items, a) ← linkItems a items
    let n : Node Nat := .sequence p items
    return (n, a.endNode order n)
  | .mapping p entries => do
    let (order, a) := a.startNode p
    let (entries, a) ← linkEntries a entries
    let n : Node Nat := .mapping p entries
    return (n, a.endNode order n)

def linkItems (a : Anchors) : List Written → Option (List (Node Nat) × Anchors)
  | [] => some ([], a)
  | n :: ns => do
    let (n, a) ← link a n
    let (ns, a) ← linkItems a ns
    return (n :: ns, a)

def linkEntries (a : Anchors) : List (Written × Written) →
    Option (List (Node Nat × Node Nat) × Anchors)
  | [] => some ([], a)
  | (k, v) :: rest => do
    let (k, a) ← link a k
    let (v, a) ← link a v
    let (rest, a) ← linkEntries a rest
    return ((k, v) :: rest, a)

end

mutual

/-- The size of a node: one for what stands alone, and two for the ends of a collection. -/
def size {Link : Type} : Node Link → Nat
  | .alias _ => 1
  | .scalar _ _ _ => 1
  | .sequence _ items => sizeOfItems items + 2
  | .mapping _ entries => sizeOfEntries entries + 2

def sizeOfItems {Link : Type} : List (Node Link) → Nat
  | [] => 0
  | n :: ns => size n + sizeOfItems ns

def sizeOfEntries {Link : Type} : List (Node Link × Node Link) → Nat
  | [] => 0
  | (k, v) :: rest => size k + size v + sizeOfEntries rest

end

/-- A document: its root, its anchors, and its size. -/
structure Document where
  root : Node Nat
  anchors : Anchors
  size : Nat

/-- The document of a text, which may have none but no more than one. -/
def Document.read? (s : String) : Option (Option Document) := do
  let tokens ← Token.lex? s.toList
  match ← Written.ofTokens? tokens with
  | none => return none
  | some written =>
    let (root, anchors) ← link .none written
    return some ⟨root, anchors, Yaml.size written⟩

end Runbook.Yaml
