/-!
# Attributes

The attributes of a start tag follow its name: a key, an equals sign and a value in single or
double quotes, with spaces, tabs and line breaks allowed around the equals sign and between
attributes but not required between them. A key runs from its first character, whatever it
is, to the next equals sign or space. An attribute is looked up by exact key, scanning from
the left: the first attribute with that key gives the value, and a malformed attribute met
before it makes the lookup fail. Repeated keys are not an error.
-/

namespace Conformance.Markup

/-- The space characters of markup: space, tab, carriage return and line feed. -/
def isMarkupSpace (c : Char) : Bool :=
  c == ' ' || c == '\t' || c == '\r' || c == '\n'

/-- One step through an attribute list. -/
inductive AttrStep where
  /-- An attribute, its raw value, and the text after it. -/
  | attr (key value rest : List Char)
  /-- A malformed attribute. -/
  | malformed
  /-- No attribute is left. -/
  | done
  deriving DecidableEq, Repr

/-- The quoted value after an equals sign and any spaces. -/
def quotedValue (key : List Char) (cs : List Char) : AttrStep :=
  match cs.dropWhile isMarkupSpace with
  | q :: rest =>
    if q == '"' || q == '\'' then
      match rest.dropWhile (· != q) with
      | _ :: after => .attr key (rest.takeWhile (· != q)) after
      | [] => .malformed
    else .malformed
  | [] => .malformed

/-- Whether a character continues an attribute key. -/
def isKeyChar (d : Char) : Bool := d != '=' && !isMarkupSpace d

/-- The first attribute of a list, or why there is none. -/
def nextAttr (cs : List Char) : AttrStep :=
  match cs.dropWhile isMarkupSpace with
  | [] => .done
  | c :: rest =>
    let key := c :: rest.takeWhile isKeyChar
    match rest.dropWhile isKeyChar with
    | '=' :: after => quotedValue key after
    | after =>
      match after.dropWhile isMarkupSpace with
      | '=' :: after' => quotedValue key after'
      | _ => .malformed

theorem length_dropWhile_le (p : Char → Bool) (l : List Char) : (l.dropWhile p).length ≤ l.length :=
  (List.dropWhile_sublist p).length_le

theorem quotedValue_rest_length {k cs key value rest : List Char}
    (h : quotedValue k cs = .attr key value rest) : rest.length < cs.length := by
  unfold quotedValue at h
  split at h
  · rename_i q r heq
    have h0 := length_dropWhile_le isMarkupSpace cs
    rw [heq] at h0
    split at h
    · split at h
      · rename_i after heq2
        cases h
        have h1 := length_dropWhile_le (· != q) r
        rw [heq2] at h1
        simp only [List.length_cons] at h0 h1
        omega
      · cases h
    · cases h
  · cases h

theorem nextAttr_rest_length {cs key value rest : List Char}
    (h : nextAttr cs = .attr key value rest) : rest.length < cs.length := by
  unfold nextAttr at h
  split at h
  · cases h
  · rename_i c r heq
    have h0 := length_dropWhile_le isMarkupSpace cs
    rw [heq] at h0
    simp only [List.length_cons] at h0
    have h1 := length_dropWhile_le isKeyChar r
    split at h
    · rename_i after heq1
      rw [heq1] at h1
      have := quotedValue_rest_length h
      simp only [List.length_cons] at h1
      omega
    · split at h
      · rename_i after' heq2
        have h2 := length_dropWhile_le isMarkupSpace (r.dropWhile isKeyChar)
        rw [heq2] at h2
        have := quotedValue_rest_length h
        simp only [List.length_cons] at h2
        omega
      · cases h

/-- Looks up a key: `some (some v)` for the raw value of its first attribute, `some none`
when no attribute has that key, and `none` when a malformed attribute comes first. -/
def lookup (key : List Char) (cs : List Char) : Option (Option (List Char)) :=
  match h : nextAttr cs with
  | .attr k v rest =>
    have := nextAttr_rest_length h
    if k == key then some (some v) else lookup key rest
  | .malformed => none
  | .done => some none
termination_by cs.length

example : lookup "b".toList " a=\"1\" b = '2'".toList = some (some "2".toList) := by
  decide +kernel
example : lookup "c".toList " a=\"1\"/ ".toList = none := by decide +kernel
example : lookup "a".toList " a=\"1\" a=\"2\"".toList = some (some "1".toList) := by
  decide +kernel

end Conformance.Markup
