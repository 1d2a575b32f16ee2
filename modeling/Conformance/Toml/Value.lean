/-!
# TOML documents as trees

A TOML document is a table: keys in the order they were first written, each holding a scalar,
an array, a table or an array of tables. Each table remembers how it came to be, because TOML
lets a table grow only in the way it was begun: a table named by a header may not be named
again, one made by dotted keys grows only through dotted keys, and one written between braces
is closed. `Entries.within` walks a path of keys from a table to the table it names, making
the missing steps, and is the single place where these rules are checked.
-/

namespace Conformance.Toml

/-- A value that holds no other value. Numbers other than integers and dates keep the text
they were written with. -/
inductive Scalar where
  | str (s : String)
  | int (n : Int)
  | float (text : String)
  | bool (b : Bool)
  | datetime (text : String)
  deriving DecidableEq, Repr

/-- How a table came to be. -/
inductive Shape where
  /-- Named by a header of its own, or an element of an array of tables. -/
  | header
  /-- Named only as a step on the way to a longer header. -/
  | implicit
  /-- Made by a dotted key. -/
  | dotted
  /-- Written between braces; nothing may be added to it afterwards. -/
  | inline
  deriving DecidableEq, Repr

/-- A node of a document: a scalar, an array written with brackets, a table, or an array of
tables whose elements are kept with the latest first. -/
inductive Node where
  | scalar (s : Scalar)
  | array (items : List Node)
  | table (shape : Shape) (entries : List (String × Node))
  | tables (latestFirst : List (List (String × Node)))
  deriving Repr

/-- The entries of a table, in the order their keys were first written. -/
abbrev Entries := List (String × Node)

/-- How a walk along a path of keys treats the tables it meets. -/
inductive Walk where
  /-- The walk of a table header: it goes through any table not written with braces. -/
  | header
  /-- The walk of a dotted key in a table: it goes only through tables that no header
  named. -/
  | dotted
  /-- The walk of a dotted key between braces: it goes only through tables made by dotted
  keys. -/
  | inline
  deriving DecidableEq, Repr

namespace Walk

/-- The shape of a table that a walk makes for a missing step. -/
def made : Walk → Shape
  | .header => .implicit
  | .dotted => .dotted
  | .inline => .dotted

/-- Whether a walk may go through a table of a shape. -/
def enters : Walk → Shape → Bool
  | .header, s => s != .inline
  | .dotted, s => s == .implicit || s == .dotted
  | .inline, s => s == .dotted

/-- Whether a walk may go into the latest element of an array of tables. -/
def entersArrays : Walk → Bool
  | .inline => false
  | _ => true

/-- The shape a table has once a walk has gone through it: a dotted key that goes through a
table only named on the way to a longer header defines it, as if dotted keys had made it. -/
def passes : Walk → Shape → Shape
  | .dotted, .implicit => .dotted
  | _, s => s

end Walk

namespace Entries

/-- Replaces the node of a key that is present, keeping its place. -/
def set (es : Entries) (k : String) (n : Node) : Entries :=
  es.map fun (k', n') => if k' = k then (k', n) else (k', n')

/-- Changes the entries of the table reached from `es` by a path of keys: each step goes
into the table of its key, made with the walk's shape when the key is missing, or into the
latest element of an array of tables. `f` is given the shape of the table it changes,
`start` for `es` itself, and the walk fails on any step the walk may not take. -/
def within (w : Walk) (start : Shape) (f : Shape → Entries → Option Entries) :
    List String → Entries → Option Entries
  | [], es => f start es
  | k :: ks, es =>
    match es.lookup k with
    | none => do
      let inner ← within w w.made f ks []
      pure (es ++ [(k, .table w.made inner)])
    | some (.table s inner) =>
      if w.enters s then do
        let inner ← within w (w.passes s) f ks inner
        pure (es.set k (.table (w.passes s) inner))
      else none
    | some (.tables (latest :: older)) =>
      if w.entersArrays then do
        let latest ← within w .header f ks latest
        pure (es.set k (.tables (latest :: older)))
      else none
    | some _ => none

/-- Adds a key that is not yet present. -/
def insertNew (es : Entries) (k : String) (n : Node) : Option Entries :=
  match es.lookup k with
  | none => some (es ++ [(k, n)])
  | some _ => none

/-- Sets a key reached by a dotted path: the path's tables must all have been made by dotted
keys, and the key itself must be new. A key without a dotted path goes straight into the
table. -/
def assign (w : Walk) (path : List String) (k : String) (n : Node) (es : Entries) :
    Option Entries :=
  within w .header (fun shape inner =>
    if (shape == .dotted) == path.isEmpty then none else insertNew inner k n) path es

/-- Names a table by a header: its key must be new or name a table that only longer headers
named before. -/
def defineTable (path : List String) (k : String) (es : Entries) : Option Entries :=
  within .header .header (fun _ inner =>
    match inner.lookup k with
    | none => some (inner ++ [(k, .table .header [])])
    | some (.table .implicit t) => some (inner.set k (.table .header t))
    | some _ => none) path es

/-- Starts a new element of the array of tables a header names, making the array when its
key is new. -/
def appendTable (path : List String) (k : String) (es : Entries) : Option Entries :=
  within .header .header (fun _ inner =>
    match inner.lookup k with
    | none => some (inner ++ [(k, .tables [[]])])
    | some (.tables ts) => some (inner.set k (.tables ([] :: ts)))
    | some _ => none) path es

end Entries

/-- A table header names a table that dotted keys made: refused. -/
example :
    ((Entries.assign .dotted ["a"] "b" (.scalar (.int 1)) []).bind
      (Entries.defineTable [] "a")).isNone := by decide

/-- A header may name a table that a longer header went through. -/
example :
    ((Entries.defineTable ["a"] "b" []).bind (Entries.defineTable [] "a")).isSome := by decide

/-- A dotted key may go through a table that a longer header went through, and a header may
not name that table afterwards. -/
example :
    ((Entries.defineTable ["a"] "b" []).bind
      (Entries.assign .dotted ["a"] "c" (.scalar (.int 1)))).isSome ∧
    (((Entries.defineTable ["a"] "b" []).bind
      (Entries.assign .dotted ["a"] "c" (.scalar (.int 1)))).bind
      (Entries.defineTable [] "a")).isNone := by decide

end Conformance.Toml
