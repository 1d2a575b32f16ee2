import Conformance.Log.Payload

/-!
A payload's report read off the reader's event stream. The walk over the events stops at the
first thing it refuses, and its answer is yet a property of the whole stream: the outcome is
the status the document declares exactly when the reader ends without an error, the tags form
one element tree, and every attribute list the walk reads holds a readable `StatusCode` and
`CasePath`; otherwise it is a parse failure. The case path is the root's whenever the walk got
to read the root's attributes, even when the outcome is a parse failure
(`readPayload_reads_one_tree`).

The stream is described by the number of elements open before each event (`withOpen`): an
element with `d` elements open before it stands at depth `d + 1`.
-/

namespace Conformance.Markup

/-- Whether an event is an end tag. -/
def Event.isClose : Event → Bool
  | .close _ => true
  | _ => false

/-- The name and attributes of an element's event, start or empty. -/
def Event.element? : Event → Option (List Char × List Char)
  | .start name attrs => some (name, attrs)
  | .empty name attrs => some (name, attrs)
  | _ => none

/-- Whether an event is a tag: an element's or an end tag. -/
def Event.isTag (e : Event) : Bool := e.isClose || e.element?.isSome

/-- How many elements are open after an event, from how many were open before it; an end tag
with nothing open leaves nothing open. -/
def Event.openAfter (n : Nat) : Event → Nat
  | .start _ _ => n + 1
  | .close _ => n - 1
  | _ => n

/-- How many elements are open after a stream. -/
def openCount (events : List Event) : Nat := events.foldl Event.openAfter 0

/-- Each event of a stream with the number of elements open before it. -/
def withOpen : Nat → List Event → List (Nat × Event)
  | _, [] => []
  | n, e :: rest => (n, e) :: withOpen (e.openAfter n) rest

/-- The elements at a depth, in order, each with its name and attributes. -/
def elementsAt (depth : Nat) (events : List Event) : List (List Char × List Char) :=
  (withOpen 0 events).filterMap fun p => if p.1 + 1 = depth then p.2.element? else none

/-- The tags of a stream form one element tree: no end tag comes with nothing open, nothing is
left open, and one element stands at depth 1. -/
structure OneTree (events : List Event) : Prop where
  closesOpen : ∀ p ∈ withOpen 0 events, p.2.isClose → 0 < p.1
  allClosed : openCount events = 0
  oneRoot : (elementsAt 1 events).length = 1

instance (events : List Event) : Decidable (OneTree events) :=
  decidable_of_iff ((∀ p ∈ withOpen 0 events, p.2.isClose → 0 < p.1) ∧ openCount events = 0 ∧
      (elementsAt 1 events).length = 1)
    ⟨fun ⟨a, b, c⟩ => ⟨a, b, c⟩, fun ⟨a, b, c⟩ => ⟨a, b, c⟩⟩

theorem Event.not_close_of_element {e : Event} {x : List Char × List Char} (h : e.element? = some x) :
    e.isClose = false := by
  cases e <;> simp_all [Event.isClose, Event.element?]

theorem Event.openAfter_of_not_tag {e : Event} (h : e.isTag = false) (n : Nat) : e.openAfter n = n := by
  cases e <;> simp_all [Event.isTag, Event.isClose, Event.element?, Event.openAfter]

theorem Event.element?_of_not_tag {e : Event} (h : e.isTag = false) : e.element? = none := by
  cases e <;> simp_all [Event.isTag, Event.isClose, Event.element?]

theorem mem_of_mem_withOpen {n : Nat} {events : List Event} {p : Nat × Event}
    (h : p ∈ withOpen n events) : p.2 ∈ events := by
  induction events generalizing n with
  | nil => cases h
  | cons e events ih =>
    rcases List.mem_cons.mp h with rfl | h
    · exact List.mem_cons_self
    · exact List.mem_cons_of_mem _ (ih h)

theorem withOpen_append_single (n : Nat) (events : List Event) (e : Event) :
    withOpen n (events ++ [e]) = withOpen n events ++ [(events.foldl Event.openAfter n, e)] := by
  induction events generalizing n with
  | nil => rfl
  | cons e' events ih => simp [withOpen, ih]

theorem openCount_append_single (events : List Event) (e : Event) :
    openCount (events ++ [e]) = e.openAfter (openCount events) := by
  simp [openCount]

theorem elementsAt_append_single (depth : Nat) (events : List Event) (e : Event) :
    elementsAt depth (events ++ [e]) =
      elementsAt depth events ++ if openCount events + 1 = depth then e.element?.toList else [] := by
  rw [elementsAt, withOpen_append_single, List.filterMap_append, ← elementsAt]
  congr 1
  unfold openCount
  by_cases at_ : events.foldl Event.openAfter 0 + 1 = depth
  · cases h : e.element? <;> simp [at_, h]
  · simp [at_]

theorem elementsAt_append_of_ne {depth : Nat} {events : List Event} (e : Event)
    (h : openCount events + 1 ≠ depth) : elementsAt depth (events ++ [e]) = elementsAt depth events := by
  rw [elementsAt_append_single, if_neg h, List.append_nil]

theorem elementsAt_append_not_element {depth : Nat} {events : List Event} {e : Event}
    (h : e.element? = none) : elementsAt depth (events ++ [e]) = elementsAt depth events := by
  rw [elementsAt_append_single, h]
  split <;> simp

theorem closesOpen_append_single {events : List Event} {e : Event}
    (closes : ∀ p ∈ withOpen 0 events, p.2.isClose → 0 < p.1) (h : e.isClose → 0 < openCount events) :
    ∀ p ∈ withOpen 0 (events ++ [e]), p.2.isClose → 0 < p.1 := by
  rw [withOpen_append_single]
  intro p mem close
  rcases List.mem_append.mp mem with mem | last
  · exact closes p mem close
  · rw [List.mem_singleton.mp last] at close ⊢
    exact h close

theorem exists_tag_of_mem_elementsAt {depth : Nat} {events : List Event} {x : List Char × List Char}
    (h : x ∈ elementsAt depth events) : ∃ e ∈ events, e.isTag := by
  obtain ⟨p, mem, found⟩ := List.mem_filterMap.mp h
  have element : p.2.element? = some x := by
    by_cases at_ : p.1 + 1 = depth <;> simp_all
  exact ⟨p.2, mem_of_mem_withOpen mem, by simp [Event.isTag, element]⟩

theorem elementsAt_of_no_tag {events : List Event} (h : ∀ e ∈ events, e.isTag = false) (depth : Nat) :
    elementsAt depth events = [] :=
  List.eq_nil_iff_forall_not_mem.mpr fun _ mem => by
    obtain ⟨e, mem, tag⟩ := exists_tag_of_mem_elementsAt mem
    simp [h e mem] at tag

theorem openCount_of_no_tag {events : List Event} (h : ∀ e ∈ events, e.isTag = false) :
    openCount events = 0 := by
  suffices ∀ n, events.foldl Event.openAfter n = n from this 0
  induction events with
  | nil => simp
  | cons e events ih =>
    intro n
    rw [List.foldl_cons, Event.openAfter_of_not_tag (h e List.mem_cons_self)]
    exact ih (fun e' he => h e' (List.mem_cons_of_mem _ he)) n

theorem no_tag_of_no_root {events : List Event}
    (closes : ∀ p ∈ withOpen 0 events, p.2.isClose → 0 < p.1) (noRoot : elementsAt 1 events = []) :
    ∀ e ∈ events, e.isTag = false := by
  induction events with
  | nil => simp
  | cons e events ih =>
    cases he : e.isTag with
    | true =>
      -- the first tag has nothing open before it: an end tag there closes nothing, an element
      -- there stands at depth 1
      exfalso
      cases e with
      | start name attrs => simp [elementsAt, withOpen, Event.element?] at noRoot
      | empty name attrs => simp [elementsAt, withOpen, Event.element?] at noRoot
      | close name => simpa [withOpen, Event.isClose] using closes (0, .close name) List.mem_cons_self
      | _ => simp [Event.isTag, Event.isClose, Event.element?] at he
    | false =>
      have rest : withOpen 0 (e :: events) = (0, e) :: withOpen 0 events := by
        rw [withOpen, Event.openAfter_of_not_tag he]
      intro e' he'
      rcases List.mem_cons.mp he' with rfl | he'
      · exact he
      · refine ih (fun p hp => closes p (rest ▸ List.mem_cons_of_mem _ hp)) ?_ e' he'
        simpa [elementsAt, rest, Event.element?_of_not_tag he] using noRoot

end Conformance.Markup

namespace Conformance.Log

open Markup

/-! ## The report a payload must give -/

/-- An element's `StatusCode`, when it carries one that reads. -/
def statusOf (attrs : List Char) : Option String := (attrValue "StatusCode" attrs).join

/-- The case an element names: its trimmed, nonblank `CasePath`, when its `StatusCode` and
`CasePath` read. -/
def pathOf (attrs : List Char) : Option CaseId :=
  (statusAndPath attrs).bind fun read => read.2.bind CaseId.ofString?

/-- The attributes of the elements at depth 1. -/
def rootAttrs (events : List Event) : List (List Char) := (elementsAt 1 events).map (·.2)

/-- The attributes of the `Result` elements at depth 2. -/
def resultAttrs (events : List Event) : List (List Char) :=
  ((elementsAt 2 events).filter (·.1 == "Result".toList)).map (·.2)

/-- The attribute lists a walk reads: those of the `Result` elements right under the root,
then the root's. -/
def readAttrs (events : List Event) : List (List Char) := resultAttrs events ++ rootAttrs events

/-- Every attribute list a walk reads holds a readable `StatusCode` and `CasePath`. -/
def AttrsRead (events : List Event) : Prop := ∀ a ∈ readAttrs events, (statusAndPath a).isSome

instance (events : List Event) : Decidable (AttrsRead events) :=
  inferInstanceAs (Decidable (∀ a ∈ readAttrs events, (statusAndPath a).isSome))

/-- The status a document declares: the `StatusCode` of the first `Result` right under the
root that carries one, else the root's. -/
def declaredStatus (events : List Event) : Option String := (readAttrs events).findSome? statusOf

/-- The case a document names: the root's, when the first tag of the stream is the root's.
A walk refuses nothing before the first tag, and stops at an end tag there. -/
def rootCasePath (events : List Event) : Option CaseId :=
  ((events.find? Event.isTag).bind Event.element?).bind fun root => pathOf root.2

/-- The report a payload must give, read off the reader's events: the status the document
declares, read as an outcome, when the reader ends without an error, the tags form one tree
and the attributes read; otherwise a parse failure. The case path is the root's. -/
def expectedReport (r : Markup.Reading) : PayloadReport where
  outcome :=
    if r.error = none ∧ OneTree r.events ∧ AttrsRead r.events then
      ((declaredStatus r.events).map Outcome.parse).getD .parseFailure
    else .parseFailure
  casePath := rootCasePath r.events

theorem statusOf_of_statusAndPath {attrs : List Char} {status path : Option String}
    (h : statusAndPath attrs = some (status, path)) : statusOf attrs = status := by
  unfold statusAndPath at h
  cases hs : attrValue "StatusCode" attrs with
  | none => simp [hs] at h
  | some s =>
    cases hp : attrValue "CasePath" attrs with
    | none => simp [hs, hp] at h
    | some p =>
      simp only [hs, hp, Option.bind_eq_bind, Option.bind_some, Option.pure_def,
        Option.some.injEq, Prod.mk.injEq] at h
      rw [statusOf, hs, Option.join_some, h.1]

theorem pathOf_of_statusAndPath {attrs : List Char} {status path : Option String}
    (h : statusAndPath attrs = some (status, path)) : pathOf attrs = path.bind CaseId.ofString? := by
  rw [pathOf, h, Option.bind_some]

/-! ## The attributes and the case path as the stream grows -/

theorem rootAttrs_append_single (events : List Event) {e : Event} {name attrs : List Char}
    (he : e.element? = some (name, attrs)) :
    rootAttrs (events ++ [e]) = rootAttrs events ++ if openCount events = 0 then [attrs] else [] := by
  rw [rootAttrs, elementsAt_append_single, he]
  by_cases top : openCount events = 0 <;> simp [top, rootAttrs]

theorem resultAttrs_append_single (events : List Event) {e : Event} {name attrs : List Char}
    (he : e.element? = some (name, attrs)) :
    resultAttrs (events ++ [e]) = resultAttrs events ++
      if openCount events = 1 ∧ name = "Result".toList then [attrs] else [] := by
  rw [resultAttrs, elementsAt_append_single, he]
  by_cases below : openCount events = 1
  · by_cases result : name = "Result".toList
    · simp [below, result, resultAttrs]
    · have notResult : (name == "Result".toList) = false := beq_false_of_ne result
      rw [if_pos (show openCount events + 1 = 2 by omega),
        if_neg (show ¬(openCount events = 1 ∧ name = "Result".toList) from fun h => result h.2)]
      simp only [Option.toList_some, List.filter_append, List.filter_cons, notResult, List.filter_nil,
        Bool.false_eq_true, if_false, List.append_nil, resultAttrs]
  · have : ¬ openCount events + 1 = 2 := by omega
    simp [below, this, resultAttrs]

theorem rootAttrs_append_of_open {events : List Event} (e : Event) (h : openCount events ≠ 0) :
    rootAttrs (events ++ [e]) = rootAttrs events := by
  rw [rootAttrs, elementsAt_append_of_ne e (by omega), rootAttrs]

theorem readAttrs_append_not_element {events : List Event} {e : Event} (h : e.element? = none) :
    readAttrs (events ++ [e]) = readAttrs events := by
  simp only [readAttrs, rootAttrs, resultAttrs, elementsAt_append_not_element h]

theorem rootCasePath_append_of_tag {events : List Event} (rest : List Event)
    (h : ∃ e ∈ events, e.isTag) : rootCasePath (events ++ rest) = rootCasePath events := by
  obtain ⟨e, mem, tag⟩ := h
  cases hf : events.find? Event.isTag with
  | none => exact absurd tag (by simpa using List.find?_eq_none.mp hf e mem)
  | some e' => simp [rootCasePath, List.find?_append, hf]

theorem rootCasePath_append_of_no_tag {events : List Event} (rest : List Event)
    (h : ∀ e ∈ events, e.isTag = false) : rootCasePath (events ++ rest) = rootCasePath rest := by
  have none : events.find? Event.isTag = none := List.find?_eq_none.mpr fun e mem => by simp [h e mem]
  simp [rootCasePath, List.find?_append, none]

theorem rootCasePath_single {e : Event} {name attrs : List Char} (he : e.element? = some (name, attrs)) :
    rootCasePath [e] = pathOf attrs := by
  have tag : e.isTag = true := by simp [Event.isTag, he]
  simp [rootCasePath, tag, he]

theorem rootCasePath_append_not_element {events : List Event} {e : Event} (h : e.element? = none) :
    rootCasePath (events ++ [e]) = rootCasePath events := by
  cases hf : events.find? Event.isTag with
  | some e' => simp [rootCasePath, List.find?_append, hf]
  | none => cases he : e.isTag <;> simp [rootCasePath, List.find?_append, hf, he, h]

/-! ## The walk -/

/-- Events a walk refuses: an end tag with nothing open, a second element at depth 1, or an
attribute list it reads that does not read. -/
def Refused (events : List Event) : Prop :=
  (∃ p ∈ withOpen 0 events, p.2.isClose ∧ p.1 = 0) ∨ 1 < (elementsAt 1 events).length ∨
    ∃ a ∈ readAttrs events, statusAndPath a = none

theorem exists_tag_of_mem_readAttrs {events : List Event} {a : List Char}
    (h : a ∈ readAttrs events) : ∃ e ∈ events, e.isTag := by
  rcases List.mem_append.mp h with result | root
  · obtain ⟨x, mem, -⟩ := List.mem_map.mp result
    exact exists_tag_of_mem_elementsAt (List.mem_filter.mp mem).1
  · obtain ⟨x, mem, -⟩ := List.mem_map.mp root
    exact exists_tag_of_mem_elementsAt mem

theorem Refused.exists_tag {events : List Event} (h : Refused events) : ∃ e ∈ events, e.isTag := by
  rcases h with ⟨p, mem, close, -⟩ | many | ⟨a, mem, -⟩
  · exact ⟨p.2, mem_of_mem_withOpen mem, by simp [Event.isTag, close]⟩
  · obtain ⟨x, mem⟩ := List.exists_mem_of_ne_nil (elementsAt 1 events)
      (List.ne_nil_of_length_pos (by omega))
    exact exists_tag_of_mem_elementsAt mem
  · exact exists_tag_of_mem_readAttrs mem

theorem Refused.append_single {events : List Event} (h : Refused events) (e : Event) :
    Refused (events ++ [e]) := by
  rcases h with ⟨p, mem, close, top⟩ | many | ⟨a, mem, bad⟩
  · exact .inl ⟨p, by rw [withOpen_append_single]; exact List.mem_append_left _ mem, close, top⟩
  · refine .inr (.inl ?_)
    rw [elementsAt_append_single, List.length_append]
    omega
  · refine .inr (.inr ⟨a, ?_, bad⟩)
    simp only [readAttrs, rootAttrs, resultAttrs, elementsAt_append_single, List.filter_append,
      List.map_append, List.mem_append] at mem ⊢
    rcases mem with result | root
    · exact .inl (.inl result)
    · exact .inr (.inl root)

theorem Refused.not_wellFormed {events : List Event} (h : Refused events) :
    ¬ (OneTree events ∧ AttrsRead events) := by
  rintro ⟨tree, read⟩
  rcases h with ⟨p, mem, close, top⟩ | many | ⟨a, mem, bad⟩
  · have := tree.closesOpen p mem close
    omega
  · have := tree.oneRoot
    omega
  · have := read a mem
    simp [bad] at this

/-- What a walk has found after events none of which it refused. -/
structure Walk.Tracks (events : List Event) (w : Walk) : Prop where
  depth : w.depth = openCount events
  closesOpen : ∀ p ∈ withOpen 0 events, p.2.isClose → 0 < p.1
  roots : (elementsAt 1 events).length ≤ 1
  rootSeen : w.rootSeen = !(elementsAt 1 events).isEmpty
  attrsRead : AttrsRead events
  rootStatus : w.rootStatus = (rootAttrs events).findSome? statusOf
  resultStatus : w.resultStatus = (resultAttrs events).findSome? statusOf
  casePath : w.casePath = rootCasePath events

/-- What a walk's answer after a stream says: what it tracks if it goes on, and if it stops, a
refused stream and the root's case path. -/
def Walk.Answers (events : List Event) : Except (Option CaseId) Walk → Prop
  | .ok w => w.Tracks events
  | .error path => Refused events ∧ path = rootCasePath events

theorem Walk.tracks_initial : Walk.initial.Tracks [] where
  depth := rfl
  closesOpen := by simp [withOpen]
  roots := by simp [elementsAt, withOpen]
  rootSeen := by simp [Walk.initial, elementsAt, withOpen]
  attrsRead := by simp [AttrsRead, readAttrs, rootAttrs, resultAttrs, elementsAt, withOpen]
  rootStatus := by simp [Walk.initial, rootAttrs, elementsAt, withOpen]
  resultStatus := by simp [Walk.initial, resultAttrs, elementsAt, withOpen]
  casePath := by simp [Walk.initial, rootCasePath]

namespace Walk.Tracks

variable {events : List Event} {w : Walk} (t : w.Tracks events)
include t

theorem exists_tag (h : w.depth ≠ 0 ∨ w.rootSeen = true) : ∃ e ∈ events, e.isTag := by
  rcases h with open_ | seen
  · by_cases tag : ∃ e ∈ events, e.isTag
    · exact tag
    · have noTag : ∀ e ∈ events, e.isTag = false := fun e mem => by
        cases h : e.isTag
        · rfl
        · exact absurd ⟨e, mem, h⟩ tag
      exact absurd (t.depth.trans (openCount_of_no_tag noTag)) open_
  · rw [t.rootSeen] at seen
    obtain ⟨x, mem⟩ := List.exists_mem_of_ne_nil (elementsAt 1 events) (by simpa using seen)
    exact exists_tag_of_mem_elementsAt mem

theorem no_tag (unseen : w.rootSeen = false) : ∀ e ∈ events, e.isTag = false :=
  no_tag_of_no_root t.closesOpen (by simpa [t.rootSeen] using unseen)

theorem rootCasePath_append (h : w.depth ≠ 0 ∨ w.rootSeen = true) (rest : List Event) :
    rootCasePath (events ++ rest) = w.casePath := by
  rw [rootCasePath_append_of_tag rest (t.exists_tag h), t.casePath]

theorem not_element {e : Event} (h : e.element? = none) (closes : e.isClose → 0 < w.depth) :
    { w with depth := e.openAfter w.depth }.Tracks (events ++ [e]) where
  depth := by rw [openCount_append_single, t.depth]
  closesOpen := closesOpen_append_single t.closesOpen (t.depth ▸ closes)
  roots := by rw [elementsAt_append_not_element h]; exact t.roots
  rootSeen := by rw [elementsAt_append_not_element h]; exact t.rootSeen
  attrsRead := by rw [AttrsRead, readAttrs_append_not_element h]; exact t.attrsRead
  rootStatus := by rw [rootAttrs, elementsAt_append_not_element h]; exact t.rootStatus
  resultStatus := by rw [resultAttrs, elementsAt_append_not_element h]; exact t.resultStatus
  casePath := by rw [rootCasePath_append_not_element h]; exact t.casePath

theorem root {e : Event} {name attrs : List Char} (he : e.element? = some (name, attrs))
    (unseen : w.rootSeen = false) {status path : Option String}
    (read : statusAndPath attrs = some (status, path)) :
    { w with rootSeen := true, rootStatus := status, casePath := path.bind CaseId.ofString?,
             depth := e.openAfter w.depth }.Tracks (events ++ [e]) := by
  have noTag := t.no_tag unseen
  have top : openCount events = 0 := openCount_of_no_tag noTag
  have noElements := elementsAt_of_no_tag noTag
  have elements : elementsAt 1 (events ++ [e]) = [(name, attrs)] := by
    rw [elementsAt_append_single, noElements, if_pos (by omega), he]
    rfl
  have roots : rootAttrs (events ++ [e]) = [attrs] := by
    rw [rootAttrs, elements]
    rfl
  have results : resultAttrs (events ++ [e]) = [] := by
    rw [resultAttrs, elementsAt_append_of_ne e (by omega), noElements]
    rfl
  exact {
    depth := by rw [openCount_append_single, t.depth]
    closesOpen := closesOpen_append_single t.closesOpen (by simp [Event.not_close_of_element he])
    roots := by simp [elements]
    rootSeen := by simp [elements]
    attrsRead := by simp [AttrsRead, readAttrs, roots, results, read]
    rootStatus := by simp [roots, statusOf_of_statusAndPath read]
    resultStatus := by rw [results, t.resultStatus, resultAttrs, noElements]; rfl
    casePath := by
      rw [rootCasePath_append_of_no_tag _ noTag, rootCasePath_single he,
        pathOf_of_statusAndPath read] }

theorem below_root {e : Event} {name attrs : List Char} (he : e.element? = some (name, attrs))
    (below : w.depth ≠ 0) {status : Option String}
    (resultStatus : status = (resultAttrs (events ++ [e])).findSome? statusOf)
    (read : ∀ a ∈ resultAttrs (events ++ [e]), (statusAndPath a).isSome) :
    { w with resultStatus := status, depth := e.openAfter w.depth }.Tracks (events ++ [e]) := by
  have open_ : openCount events ≠ 0 := t.depth ▸ below
  exact {
    depth := by rw [openCount_append_single, t.depth]
    closesOpen := closesOpen_append_single t.closesOpen (by simp [Event.not_close_of_element he])
    roots := by rw [elementsAt_append_of_ne e (by omega)]; exact t.roots
    rootSeen := by rw [elementsAt_append_of_ne e (by omega)]; exact t.rootSeen
    attrsRead := by
      intro a mem
      rw [readAttrs, rootAttrs_append_of_open e open_, List.mem_append] at mem
      rcases mem with result | root
      · exact read a result
      · exact t.attrsRead a (List.mem_append_right _ root)
    rootStatus := by rw [rootAttrs_append_of_open e open_]; exact t.rootStatus
    resultStatus := resultStatus
    casePath := by rw [rootCasePath_append_of_tag _ (t.exists_tag (.inl below))]; exact t.casePath }

theorem element {e : Event} {name attrs : List Char} (he : e.element? = some (name, attrs))
    (isEmpty : Bool) (grow : e.openAfter w.depth = if isEmpty then w.depth else w.depth + 1) :
    Walk.Answers (events ++ [e]) (w.element name attrs isEmpty) := by
  by_cases top : w.depth = 0
  · -- at depth 1: the root, or a second element there
    cases seen : w.rootSeen with
    | true =>
      have value : w.element name attrs isEmpty = .error w.casePath := by
        simp only [Walk.element, if_pos top, seen, if_true]
        rfl
      have one : (elementsAt 1 events).length ≠ 0 := by simpa [t.rootSeen] using seen
      rw [value]
      refine ⟨.inr (.inl ?_), (t.rootCasePath_append (.inr seen) _).symm⟩
      rw [elementsAt_append_single, ← t.depth, if_pos (by omega), he, List.length_append]
      simp only [Option.toList_some, List.length_singleton]
      omega
    | false =>
      have noTag := t.no_tag seen
      cases read : statusAndPath attrs with
      | none =>
        have value : w.element name attrs isEmpty = .error w.casePath := by
          simp only [Walk.element, if_pos top, seen, read, Bool.false_eq_true, if_false]
          rfl
        rw [value]
        refine ⟨.inr (.inr ⟨attrs, ?_, read⟩), ?_⟩
        · rw [readAttrs, rootAttrs_append_single events he, if_pos (openCount_of_no_tag noTag)]
          simp
        · rw [t.casePath, rootCasePath_append_of_no_tag _ noTag, rootCasePath_single he, pathOf, read,
            rootCasePath, List.find?_eq_none.mpr fun e mem => by simp [noTag e mem]]
          rfl
      | some found =>
        obtain ⟨status, path⟩ := found
        have value : w.element name attrs isEmpty =
            .ok { w with rootSeen := true, rootStatus := status, casePath := path.bind CaseId.ofString?,
                         depth := e.openAfter w.depth } := by
          simp only [Walk.element, if_pos top, seen, read, Bool.false_eq_true, if_false]
          rw [grow]
          cases isEmpty <;> rfl
        rw [value]
        exact t.root he seen read
  · by_cases result : w.depth = 1 ∧ name = "Result".toList
    · -- a result right under the root
      have added : resultAttrs (events ++ [e]) = resultAttrs events ++ [attrs] := by
        rw [resultAttrs_append_single events he, ← t.depth, if_pos result]
      cases read : statusAndPath attrs with
      | none =>
        have value : w.element name attrs isEmpty = .error w.casePath := by
          simp only [Walk.element, if_neg top, if_pos result, read]
          rfl
        rw [value]
        exact ⟨.inr (.inr ⟨attrs, by simp [readAttrs, added], read⟩),
          (t.rootCasePath_append (.inl top) _).symm⟩
      | some found =>
        obtain ⟨status, path⟩ := found
        have value : w.element name attrs isEmpty =
            .ok { w with resultStatus := w.resultStatus.or status, depth := e.openAfter w.depth } := by
          simp only [Walk.element, if_neg top, if_pos result, read, Option.orElse_eq_orElse,
            Option.orElse_eq_or]
          rw [grow]
          cases isEmpty <;> rfl
        rw [value]
        refine t.below_root he top ?_ ?_
        · rw [added, List.findSome?_append, t.resultStatus, List.findSome?_singleton,
            statusOf_of_statusAndPath read]
        · intro a mem
          rw [added, List.mem_append, List.mem_singleton] at mem
          rcases mem with old | rfl
          · exact t.attrsRead a (List.mem_append_left _ old)
          · simp [read]
    · -- deeper, or not a result: nothing is read
      have same : resultAttrs (events ++ [e]) = resultAttrs events := by
        rw [resultAttrs_append_single events he, ← t.depth, if_neg result, List.append_nil]
      have value : w.element name attrs isEmpty = .ok { w with depth := e.openAfter w.depth } := by
        simp only [Walk.element, if_neg top, if_neg result]
        rw [grow]
        cases isEmpty <;> rfl
      rw [value]
      refine t.below_root he top ?_ ?_
      · rw [same, ← t.resultStatus]
      · intro a mem
        rw [same] at mem
        exact t.attrsRead a (List.mem_append_left _ mem)

theorem visit (e : Event) : Walk.Answers (events ++ [e]) (w.visit e) := by
  cases e with
  | start name attrs => exact t.element rfl false rfl
  | empty name attrs => exact t.element rfl true rfl
  | close name =>
    cases depth : w.depth with
    | zero =>
      -- an end tag with nothing open
      have value : w.visit (.close name) = .error w.casePath := by simp [Walk.visit, depth]
      rw [value]
      refine ⟨.inl ⟨(openCount events, .close name), ?_, rfl, ?_⟩, ?_⟩
      · rw [withOpen_append_single]
        exact List.mem_append_right _ (List.mem_singleton.mpr rfl)
      · rw [← t.depth, depth]
      · rw [rootCasePath_append_not_element rfl, t.casePath]
    | succ d =>
      have value : w.visit (.close name) = .ok { w with depth := (Event.close name).openAfter w.depth } := by
        simp [Walk.visit, depth, Event.openAfter]
      rw [value]
      exact t.not_element rfl fun _ => by omega
  | comment => exact t.not_element rfl (by simp [Event.isClose])
  | cdata => exact t.not_element rfl (by simp [Event.isClose])
  | doctype => exact t.not_element rfl (by simp [Event.isClose])
  | instruction => exact t.not_element rfl (by simp [Event.isClose])

theorem oneTree_iff : OneTree events ↔ w.depth = 0 ∧ w.rootSeen = true := by
  constructor
  · intro tree
    have one := tree.oneRoot
    refine ⟨t.depth.trans tree.allClosed, ?_⟩
    rw [t.rootSeen]
    cases roots : elementsAt 1 events with
    | nil => simp [roots] at one
    | cons root rest => rfl
  · rintro ⟨top, seen⟩
    have one : (elementsAt 1 events).length ≠ 0 := by simpa [t.rootSeen] using seen
    exact ⟨t.closesOpen, t.depth ▸ top, by have := t.roots; omega⟩

theorem declaredStatus_eq : declaredStatus events = w.resultStatus.or w.rootStatus := by
  rw [declaredStatus, readAttrs, List.findSome?_append, t.resultStatus, t.rootStatus]

end Walk.Tracks

theorem Walk.Answers.visit {events : List Event} {r : Except (Option CaseId) Walk}
    (h : Walk.Answers events r) (e : Event) :
    Walk.Answers (events ++ [e]) (r >>= fun w => w.visit e) := by
  cases r with
  | error path =>
    obtain ⟨refused, rfl⟩ := h
    exact ⟨refused.append_single e, (rootCasePath_append_of_tag _ refused.exists_tag).symm⟩
  | ok w => exact Walk.Tracks.visit h e

theorem Walk.Answers.foldlM {events : List Event} {r : Except (Option CaseId) Walk}
    (h : Walk.Answers events r) (rest : List Event) :
    Walk.Answers (events ++ rest) (r >>= fun w => rest.foldlM Walk.visit w) := by
  induction rest generalizing events r with
  | nil => simpa using h
  | cons e rest ih =>
    have next := ih (h.visit e)
    rw [List.append_assoc, List.singleton_append, bind_assoc] at next
    simpa [List.foldlM_cons] using next

theorem Walk.answers_foldlM (events : List Event) :
    Walk.Answers events (events.foldlM Walk.visit Walk.initial) :=
  (show Walk.Answers [] (.ok Walk.initial) from Walk.tracks_initial).foldlM events

theorem readPayload_casePath (text : String) :
    (readPayload text).casePath = rootCasePath (read text.toList).events := by
  have answers := Walk.answers_foldlM (read text.toList).events
  unfold readPayload
  cases run : (read text.toList).events.foldlM Walk.visit Walk.initial with
  | error path =>
    rw [run] at answers
    simp only [run]
    exact answers.2
  | ok w =>
    rw [run] at answers
    simp only [run]
    split
    · exact answers.casePath
    · split <;> exact answers.casePath

/-- A payload's report, read off the reader's events: the status the document declares, read
as an outcome, exactly when the reader ends without an error, the tags form one tree and every
attribute list the walk reads holds a readable `StatusCode` and `CasePath`; a parse failure
otherwise. The case path is the root's, whatever the outcome. -/
theorem readPayload_reads_one_tree (text : String) :
    readPayload text = expectedReport (read text.toList) := by
  have answers := Walk.answers_foldlM (read text.toList).events
  unfold readPayload
  cases run : (read text.toList).events.foldlM Walk.visit Walk.initial with
  | error path =>
    rw [run] at answers
    obtain ⟨refused, rfl⟩ := answers
    have fails := refused.not_wellFormed
    simp only [run, expectedReport]
    rw [if_neg fun h => fails ⟨h.2.1, h.2.2⟩]
  | ok w =>
    rw [run] at answers
    simp only [run, expectedReport, answers.oneTree_iff, answers.declaredStatus_eq, ← answers.casePath]
    by_cases dirty : ((read text.toList).error.isSome || !w.rootSeen || w.depth != 0) = true
    · -- the reader stopped early, the root is missing or an element is left open
      rw [if_pos dirty, if_neg]
      rintro ⟨noError, ⟨top, seen⟩, -⟩
      simp [noError, top, seen] at dirty
    · have clean : ((read text.toList).error = none ∧ w.rootSeen = true) ∧ w.depth = 0 := by
        simpa using dirty
      obtain ⟨⟨noError, seen⟩, top⟩ := clean
      rw [if_neg dirty, if_pos ⟨noError, ⟨top, seen⟩, answers.attrsRead⟩]
      cases status : w.resultStatus.or w.rootStatus <;> simp [status]

-- A `Result` right under the root overrides the root's status; a second root makes a parse
-- failure that still names the first root's case.
example : expectedReport (read "<T CasePath=\" a.b \" StatusCode=\"Pass\"><Result StatusCode=\"Fail\"/></T>".toList) =
    ⟨.fail, some (.mk "a.b")⟩ := by decide +kernel
example : expectedReport (read "<T CasePath=\"a.b\" StatusCode=\"Pass\"/><T/>".toList) =
    ⟨.parseFailure, some (.mk "a.b")⟩ := by decide +kernel

end Conformance.Log
