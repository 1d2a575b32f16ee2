/-!
# Ascending lists as sets and maps

A set is a strictly ascending list and a map is a list of entries with strictly ascending
keys, both ordered by `compare`. Inserting keeps the order, so two sets with the same members
are the same list and listing a set gives its members in order.
-/

namespace Conformance.Sorted

variable {α β : Type} [Ord α]

/-- Inserts into an ascending list; an element already there is left alone. -/
def insert (x : α) : List α → List α
  | [] => [x]
  | y :: ys =>
    match compare x y with
    | .lt => x :: y :: ys
    | .eq => y :: ys
    | .gt => y :: insert x ys

/-- The ascending list of the members of a list. -/
def ofList (xs : List α) : List α :=
  xs.foldl (fun acc x => insert x acc) []

/-- The members of either list. -/
def union (xs ys : List α) : List α :=
  ys.foldl (fun acc y => insert y acc) xs

section Eq

variable [BEq α]

/-- The members of the first list that are not in the second. -/
def diff (xs ys : List α) : List α :=
  xs.filter (fun x => !ys.contains x)

/-- The members of the first list that are also in the second. -/
def inter (xs ys : List α) : List α :=
  xs.filter (fun x => ys.contains x)

end Eq

/-! ## Maps -/

/-- The value under a key. -/
def find? (k : α) : List (α × β) → Option β
  | [] => none
  | (k', v) :: rest =>
    match compare k k' with
    | .lt => none
    | .eq => some v
    | .gt => find? k rest

/-- Changes the value under a key: `f` sees the old value, if any, and gives the new one, or
none to leave the key out. -/
def alter (k : α) (f : Option β → Option β) : List (α × β) → List (α × β)
  | [] =>
    match f none with
    | some v => [(k, v)]
    | none => []
  | (k', v') :: rest =>
    match compare k k' with
    | .lt =>
      match f none with
      | some v => (k, v) :: (k', v') :: rest
      | none => (k', v') :: rest
    | .eq =>
      match f (some v') with
      | some v => (k, v) :: rest
      | none => rest
    | .gt => (k', v') :: alter k f rest

/-- Puts a value under a key, replacing the old one. -/
def put (k : α) (v : β) (m : List (α × β)) : List (α × β) :=
  alter k (fun _ => some v) m

/-- Changes the value under a key, starting from `init` when the key is new. -/
def modify (k : α) (init : β) (f : β → β) (m : List (α × β)) : List (α × β) :=
  alter k (fun old => some (f (old.getD init))) m

end Conformance.Sorted
