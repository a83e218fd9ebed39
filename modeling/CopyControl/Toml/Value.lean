/-!
TOML values, and how the statements of a document build one table.

A table can be written by a header, implied by the header of a table below it, made by a dotted
key, or written between braces. Which of these it is decides what may still be added to it.
-/

namespace CopyControl.Toml

/-- How a table has come to be. -/
inductive TableForm where
  /-- By a header of its own, or as the top level. -/
  | header
  /-- By the header of a table below it. -/
  | implied
  /-- By a dotted key. -/
  | dotted
  /-- Between braces. -/
  | inline
deriving DecidableEq, Repr, Inhabited

inductive Value where
  | text (s : String)
  | integer (n : Int)
  | float
  | boolean (b : Bool)
  | dateTime
  | array (items : List Value)
  | table (form : TableForm) (entries : List (String × Value))
  /-- The tables of one array header, latest first. -/
  | tables (items : List Value)
deriving Repr, Inhabited

/-- The names of a key, outermost first, up to the last. -/
abbrev Path := List String

namespace Value

/-- A table without entries. -/
def emptyTable (form : TableForm) : Value :=
  .table form []

def entries : Value → List (String × Value)
  | .table _ entries => entries
  | _ => []

/-- The value of a name in a table. -/
def get? (v : Value) (name : String) : Option Value :=
  v.entries.lookup name

/-- Puts a value in place of the one with the same name, or at the end. -/
def setEntry (name : String) (v : Value) : List (String × Value) → List (String × Value)
  | [] => [(name, v)]
  | (k, old) :: rest => if k = name then (k, v) :: rest else (k, old) :: setEntry name v rest

/-- Whether a dotted key may go through a table that is there already. -/
def TableForm.isImplicit : TableForm → Bool
  | .implied => true
  | .dotted => true
  | _ => false

/-- Changes a table, or the latest of the tables of an array header. -/
def onTable (table : Value) (change : TableForm → List (String × Value) → Option Value) :
    Option Value :=
  match table with
  | .table form entries => change form entries
  | .tables (.table form entries :: former) =>
    (change form entries).map fun v => .tables (v :: former)
  | _ => none

/-- What a path goes into under a name: a new table where there is nothing. With `dotted` it is
the path of a dotted key, which goes through no table that was written out; no path goes into a
table between braces. -/
def below? (dotted : Bool) : Option Value → Option Value
  | none => some (emptyTable (if dotted then .dotted else .implied))
  | some (.table form entries) =>
    if form = .inline || dotted && !TableForm.isImplicit form then none
    else some (.table form entries)
  | some (.tables items) => some (.tables items)
  | some _ => none

/-- Changes the table at a path. -/
def atPath (table : Value) (dotted : Bool) (path : Path)
    (change : TableForm → List (String × Value) → Option Value) : Option Value :=
  match path with
  | [] => table.onTable change
  | name :: path =>
    table.onTable fun form entries => do
      let below ← below? dotted (entries.lookup name)
      let below ← below.atPath dotted path change
      some (.table form (setEntry name below entries))

/-- Adds a value under a key. The last name must be new, and the table it is in must be one made
by dotted keys exactly if the key has more than one name. -/
def addPair (table : Value) (path : Path) (name : String) (v : Value) : Option Value :=
  table.atPath true path fun form entries =>
    if (form = .dotted) ≠ (path ≠ []) || (entries.lookup name).isSome then none
    else some (.table form (entries ++ [(name, v)]))

/-- Adds the table of a header, which may so far have been implied at most. -/
def addTable (table : Value) (path : Path) (name : String) : Option Value :=
  table.atPath false path fun form entries =>
    match entries.lookup name with
    | none => some (.table form (entries ++ [(name, emptyTable .header)]))
    | some (.table .implied inner) =>
      some (.table form (setEntry name (.table .header inner) entries))
    | some _ => none

/-- Adds a table to those of an array header. -/
def addItem (table : Value) (path : Path) (name : String) : Option Value :=
  table.atPath false path fun form entries =>
    match entries.lookup name with
    | none => some (.table form (entries ++ [(name, .tables [emptyTable .header])]))
    | some (.tables items) =>
      some (.table form (setEntry name (.tables (emptyTable .header :: items)) entries))
    | some _ => none

/-- Adds a value under a key of the table at `header`. -/
def addPairBelow (table : Value) (header path : Path) (name : String) (v : Value) :
    Option Value :=
  table.atPath false header fun form entries => (Value.table form entries).addPair path name v

end Value

end CopyControl.Toml
