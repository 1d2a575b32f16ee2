import Conformance.Markup.Reader
import Conformance.Markup.Entity
import Conformance.Outcome
import Conformance.CaseId

/-!
# Result payloads

Between a block's begin and end markers a log holds a markup document describing the case.
Its status is the `StatusCode` of the first `Result` element directly under the root that
carries one, or else the root's own `StatusCode`. The root's `CasePath` names the case. A
document that cannot be read, has a second root, leaves an element open, or carries no
status is a parse failure; the case path found before that point is still reported.
-/

namespace Conformance.Log

open Markup

/-- What a payload tells: the outcome and, if the root names one, the case. -/
structure PayloadReport where
  outcome : Outcome
  casePath : Option CaseId
  deriving DecidableEq, Repr

/-- One attribute's unescaped value: `some (some v)`, `some none` when absent, and `none`
when the attributes cannot be read up to it or its value is malformed. -/
def attrValue (key : String) (attrs : List Char) : Option (Option String) :=
  match lookup key.toList attrs with
  | none => none
  | some none => some none
  | some (some raw) => (unescape raw).map (fun v => some (String.ofList v))

/-- The `StatusCode` and `CasePath` of an element, or none when either cannot be read. -/
def statusAndPath (attrs : List Char) : Option (Option String × Option String) := do
  let status ← attrValue "StatusCode" attrs
  let path ← attrValue "CasePath" attrs
  return (status, path)

/-- What the walk over a document's events has found so far. -/
structure Walk where
  depth : Nat
  rootSeen : Bool
  rootStatus : Option String
  resultStatus : Option String
  casePath : Option CaseId
  deriving DecidableEq, Repr

/-- The walk before any event. -/
def Walk.initial : Walk := ⟨0, false, none, none, none⟩

/-- An element at `depth + 1`: the root is read for its status and case path, a `Result`
element right under it for its status; a second root fails. Failing gives the case path
found so far. -/
def Walk.element (w : Walk) (name attrs : List Char) (isEmpty : Bool) :
    Except (Option CaseId) Walk := do
  let w' ← if w.depth = 0 then
      if w.rootSeen then .error w.casePath
      else match statusAndPath attrs with
        | some (status, path) =>
          pure { w with rootSeen := true, rootStatus := status,
                        casePath := path.bind CaseId.ofString? }
        | none => .error w.casePath
    else if w.depth = 1 ∧ name = "Result".toList then
      match statusAndPath attrs with
      | some (status, _) => pure { w with resultStatus := w.resultStatus <|> status }
      | none => .error w.casePath
    else pure w
  return if isEmpty then w' else { w' with depth := w.depth + 1 }

/-- One event of the walk. -/
def Walk.visit (w : Walk) : Event → Except (Option CaseId) Walk
  | .start name attrs => w.element name attrs false
  | .empty name attrs => w.element name attrs true
  | .close _ =>
    match w.depth with
    | 0 => .error w.casePath
    | d + 1 => .ok { w with depth := d }
  | _ => .ok w

/-- The report of a payload. -/
def readPayload (text : String) : PayloadReport :=
  let r := read text.toList
  match r.events.foldlM Walk.visit Walk.initial with
  | .error path => ⟨.parseFailure, path⟩
  | .ok w =>
    if r.error.isSome || !w.rootSeen || w.depth != 0 then ⟨.parseFailure, w.casePath⟩
    else
      match w.resultStatus <|> w.rootStatus with
      | some s => ⟨Outcome.parse s, w.casePath⟩
      | none => ⟨.parseFailure, w.casePath⟩

end Conformance.Log
