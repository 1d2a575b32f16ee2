/-!
# Similar names

How alike two names are, by the Jaro similarity: a character of the first name matches the
first unmatched equal character of the second that stands no further than half the longer
length, less one, from it, and with `m` matches of which `t` pairs stand in a different order
the similarity is the mean of `m / |a|`, `m / |b|` and `(m - t/2) / m`, computed in binary64
arithmetic, or nothing when no character matches. A name is offered for another when their
similarity is above `0.7`; of several, the most alike, and of equally alike ones the last.
-/

namespace Conformance.Text

/-- The first place in `[lo, hi)` where `b` holds `c` and is not taken yet. -/
def firstFree (b : List Char) (taken : List Bool) (c : Char) (lo hi : Nat) : Option Nat :=
  ((List.range hi).drop lo).find? fun j => b[j]? == some c && !taken.getD j true

/-- Which characters of `a` and of `b` match, matching the characters of `a` left to
right. -/
def matchFlags (a b : List Char) : List Bool × List Bool :=
  let reach := max a.length b.length / 2 - 1
  (a.zipIdx.foldl (fun (flags : List Bool × List Bool) (c, i) =>
    match firstFree b flags.2 c (i - reach) (min b.length (i + reach + 1)) with
    | some j => (true :: flags.1, flags.2.set j true)
    | none => (false :: flags.1, flags.2)) ([], List.replicate b.length false)).map
    List.reverse id

/-- The characters of a name whose flag is set, in order. -/
def flagged (cs : List Char) (flags : List Bool) : List Char :=
  (cs.zip flags).filterMap fun (c, f) => if f then some c else none

/-- The Jaro similarity of two names. -/
def jaro (a b : String) : Float :=
  let a := a.toList
  let b := b.toList
  if a.isEmpty && b.isEmpty then 1.0
  else if a.isEmpty || b.isEmpty then 0.0
  else
    let (aFlags, bFlags) := matchFlags a b
    let m := (aFlags.filter id).length
    if m = 0 then 0.0
    else
      let swapped := (((flagged a aFlags).zip (flagged b bFlags)).filter fun (x, y) => x != y).length
      let t := swapped / 2
      (m.toFloat / a.length.toFloat + m.toFloat / b.length.toFloat +
        (m - t).toFloat / m.toFloat) / 3.0

/-- The names alike enough to a name to be offered for it, least alike first; equally alike
ones keep their order. -/
def alike (name : String) (candidates : List String) : List String :=
  let scored := (candidates.map fun c => (jaro name c, c)).filter fun (s, _) => s > 0.7
  (scored.mergeSort fun x y => decide (x.1 ≤ y.1)).map (·.2)

/-- The name most alike to a name, the last of equally alike ones, if any is alike
enough. -/
def mostAlike? (name : String) (candidates : List String) : Option String :=
  (alike name candidates).getLast?

end Conformance.Text
