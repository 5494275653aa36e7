import StockFlow.Error
import StockFlow.Variable.Record

/-! The graph of dependencies between variables. Each record holds the names of its parents and of
its children, so that cycles need no care. Children are the parents' edges turned around; a parent
that no record has for its name stays with its child and is listed as dangling. -/
namespace StockFlow

def DanglingEdge.key (r : DanglingEdge) : List Text := [r.source, r.target]

structure Graph where
  records : Catalog Record.name
  dangling : Catalog DanglingEdge.key

namespace Graph

def find? (g : Graph) (name : Text) : Option Record := g.records.find? name

def contains (g : Graph) (name : Text) : Bool := g.records.contains name

def parents? (g : Graph) (name : Text) : Option NameSet := (g.find? name).map Record.parents

def children? (g : Graph) (name : Text) : Option NameSet := (g.find? name).map Record.children

def connect (child : Text) (g : Graph) (parent : Text) : Graph :=
  if g.contains parent then
    { g with
      records := g.records.adjust parent
        (fun r => { r with children := r.children.insert child }) fun _ => rfl }
  else { g with dangling := g.dangling.insert ⟨child, parent⟩ }

def disconnect (child : Text) (g : Graph) (parent : Text) : Graph :=
  if g.contains parent then
    { g with
      records := g.records.adjust parent
        (fun r => { r with children := r.children.erase child }) fun _ => rfl }
  else { g with dangling := g.dangling.erase [child, parent] }

/-- The graph of records whose own children are forgotten, with every edge added one by one. -/
def link (records : Catalog Record.name) : Graph :=
  let bare := records.map (fun r => { r with children := Catalog.empty }) fun _ => rfl
  bare.items.foldl (fun g r => r.parents.items.foldl (connect r.name) g) ⟨bare, Catalog.empty⟩

/-- Puts a new definition in the place of the one with its name, and changes only the edges that
start there: nobody else's parents changed, so the children stay. -/
def redefine? (g : Graph) (r : Record) : Option Graph :=
  match g.find? r.name with
  | none => none
  | some old =>
    let swapped : Graph :=
      { g with records := g.records.insert { r with children := old.children, role := old.role } }
    let detached := old.parents.items.foldl (disconnect r.name) swapped
    some (r.parents.items.foldl (connect r.name) detached)

/-- Records on their way into a graph. -/
structure Builder where
  records : Catalog Record.name

namespace Builder

def empty : Builder := ⟨Catalog.empty⟩

/-- A record whose name is taken is refused. -/
def add? (b : Builder) (r : Record) : Option Builder :=
  if b.records.contains r.name then none else some ⟨b.records.insert r⟩

def build (b : Builder) : Graph := link b.records

/-- Adds the records in order, and says of each whether it was refused. -/
def addAll (b : Builder) : List Record → Builder × List (Option Record)
  | [] => (b, [])
  | r :: records =>
    match b.add? r with
    | some next => let (b, refused) := next.addAll records; (b, none :: refused)
    | none => let (b, refused) := b.addAll records; (b, some r :: refused)

end Builder

def ofRecords (records : List Record) : Graph := (Builder.empty.addAll records).1.build

end Graph

end StockFlow
