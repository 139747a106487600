import Scorecard.Json.Value

/-!
# Tables under construction

A TOML table grows while its document is read: a header opens a table, a dotted key makes tables on
its way.  Which of them may still grow depends on how a table came about, so each carries its
`Origin` until the document ends.
-/

namespace Scorecard.Toml

/-- How a table came about. -/
inductive Origin where
  /-- It has a header of its own, or braces. -/
  | explicit
  /-- The header of a table inside it was read. -/
  | implied
  /-- A dotted key leads through it. -/
  | dotted
  deriving DecidableEq, Repr

mutual

/-- What stands under a key. -/
inductive Item where
  /-- A value that is complete. -/
  | value (v : Json)
  /-- A table. -/
  | table (t : Table)
  /-- The tables of an array of tables, last first. -/
  | tables (last : Table) (before : List Table)

/-- A table: its origin, and its keys and items. -/
inductive Table where
  | mk (origin : Origin) (members : List (String × Item))

end

namespace Table

/-- How the table came about. -/
def origin : Table → Origin
  | mk o _ => o

/-- The keys of the table and what stands under them, in the order of the document. -/
def members : Table → List (String × Item)
  | mk _ ms => ms

/-- A table without members. -/
def empty (o : Origin) : Table := mk o []

/-- The table with an item under a key: in the place of what stood there, or else as its last. -/
def put (key : String) (item : Item) (t : Table) : Table :=
  mk t.origin <|
    if t.members.any (·.1 = key) then t.members.map fun m => if m.1 = key then (key, item) else m
    else t.members ++ [(key, item)]

/-- The table with an item under a key as its last member. -/
def putLast (key : String) (item : Item) (t : Table) : Table :=
  mk t.origin ((t.members.filter fun m => m.1 ≠ key) ++ [(key, item)])

/-- Changes the table that a path leads to.  Missing tables are made with the origin `made`.  The
last table of an array of tables stands for the array, and a path of a dotted key does not lead
through a table that has a header or braces. -/
def change (made : Origin) (f : Table → Option Table) : List String → Table → Option Table
  | [], t => f t
  | key :: path, t =>
      match t.members.lookup key with
      | none => (change made f path (empty made)).map fun u => t.put key (.table u)
      | some (.value _) => none
      | some (.table u) =>
          if made = .dotted ∧ u.origin = .explicit then none
          else (change made f path u).map fun u => t.put key (.table u)
      | some (.tables last before) =>
          (change made f path last).map fun u => t.put key (.tables u before)

/-- Adds a member, whose key must be new. -/
def add (key : String) (v : Json) (t : Table) : Option Table :=
  match t.members.lookup key with
  | none => some (t.put key (.value v))
  | some _ => none

/-- Adds a value under a dotted key.  Only tables made by dotted keys take members from one. -/
def addDotted (path : List String) (key : String) (v : Json) (t : Table) : Option Table :=
  change .dotted (fun u => if path ≠ [] ∧ u.origin ≠ .dotted then none else u.add key v) path t

/-- Opens the table of a header.  It may have been implied before, but not opened; either way it
becomes the last member of the table around it. -/
def openTable (path : List String) (key : String) (t : Table) : Option Table :=
  change .implied (fun u =>
    match u.members.lookup key with
    | none => some (u.put key (.table (empty .explicit)))
    | some (.table (mk .implied ms)) => some (u.putLast key (.table (mk .explicit ms)))
    | some _ => none) path t

/-- Opens one more table of an array of tables. -/
def openItem (path : List String) (key : String) (t : Table) : Option Table :=
  change .implied (fun u =>
    match u.members.lookup key with
    | none => some (u.put key (.tables (empty .explicit) []))
    | some (.tables last before) => some (u.put key (.tables (empty .explicit) (last :: before)))
    | some _ => none) path t

end Table

mutual

/-- An item as a value. -/
def Item.toJson : Item → Json
  | .value v => v
  | .table t => t.toJson
  | .tables last before => .array ((jsonTables before).reverse ++ [last.toJson])

/-- A table as a value, with its members in the order of the document. -/
def Table.toJson : Table → Json
  | .mk _ members => .object (jsonMembers members)

/-- Tables as values. -/
def jsonTables : List Table → List Json
  | [] => []
  | t :: ts => t.toJson :: jsonTables ts

/-- Members with their items as values. -/
def jsonMembers : List (String × Item) → List (String × Json)
  | [] => []
  | (key, item) :: ms => (key, item.toJson) :: jsonMembers ms

end

end Scorecard.Toml
