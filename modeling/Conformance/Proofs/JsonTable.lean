import Conformance.Json.Read
import Conformance.Json.Value

/-!
The string-table reader reads back every object of string arrays the printer writes, at any
indent (`readStringTable_pretty`). The reader goes one character at a time, so the printed
text is read piece by piece: each lemma below says where the reader stands after one piece
(the blanks before a token, an escaped character, a quoted string, one array item, an array,
one member) and the last one chains them over a whole object.
-/

namespace Conformance.Json

variable {members : List (String × List String)}

theorem readFrom_cons_of_step {p p' : Place} {members' : List (String × List String)} {c : Char}
    {rest : List Char} (h : step p members c = some (p', members')) :
    readFrom p members (c :: rest) = readFrom p' members' rest := by
  simp [readFrom, h]

/-! ## Blanks -/

theorem readFrom_blanks {p : Place} {cs rest : List Char}
    (stays : ∀ c, isSpace c = true → step p members c = some (p, members))
    (blank : ∀ c ∈ cs, isSpace c = true) :
    readFrom p members (cs ++ rest) = readFrom p members rest := by
  induction cs with
  | nil => rfl
  | cons c cs ih =>
    have here : isSpace c = true := blank c (List.mem_cons_self ..)
    rw [List.cons_append, readFrom, stays c here]
    exact ih fun c' hc' => blank c' (List.mem_cons_of_mem _ hc')

theorem isSpace_newline_indent (step level : Nat) :
    ∀ c ∈ ("\n" ++ indent step level).toList, isSpace c = true := by
  intro c hc
  simp only [indent, String.toList_append, String.toList_ofList, List.mem_append,
    List.mem_replicate] at hc
  rcases hc with hc | ⟨-, rfl⟩
  · have : c = '\n' := by simpa using hc
    subst this
    rfl
  · rfl

/-! ## String literals -/

theorem hexValue?_hexDigit : ∀ n, n < 16 → hexValue? (hexDigit n) = some n := by decide

section Literal

variable (inLit : Lit → Place) (next : String → Place)

theorem readFrom_escapeChar
    (reads : ∀ l c, step (inLit l) members c = (continueLit l c inLit next).map (·, members))
    (acc : List Char) (c : Char) (rest : List Char) :
    readFrom (inLit (.plain acc)) members (escapeChar c ++ rest) =
      readFrom (inLit (.plain (c :: acc))) members rest := by
  have ofNat : Char.ofNat c.toNat = c := Char.ofNat_toNat c
  by_cases quote : c = '"'
  · subst quote; simp [escapeChar, readFrom, reads, continueLit, Lit.step]
  by_cases backslash : c = '\\'
  · subst backslash; simp [escapeChar, readFrom, reads, continueLit, Lit.step]
  by_cases newline : c = '\n'
  · subst newline; simp [escapeChar, readFrom, reads, continueLit, Lit.step]
  by_cases cr : c = '\r'
  · subst cr; simp [escapeChar, readFrom, reads, continueLit, Lit.step]
  by_cases tab : c = '\t'
  · subst tab; simp [escapeChar, readFrom, reads, continueLit, Lit.step]
  by_cases bs : c.toNat = 8
  · obtain rfl : c = Char.ofNat 8 := by rw [← bs, ofNat]
    simp [escapeChar, readFrom, reads, continueLit, Lit.step]
  by_cases ff : c.toNat = 12
  · obtain rfl : c = Char.ofNat 12 := by rw [← ff, ofNat]
    simp [escapeChar, readFrom, reads, continueLit, Lit.step]
  by_cases control : c.toNat < 32
  · -- four hex digits, the first two zero: their value is the code of the character, which
    -- lies below the surrogates
    have high : hexValue? (hexDigit (c.toNat / 16)) = some (c.toNat / 16) :=
      hexValue?_hexDigit _ (by omega)
    have low : hexValue? (hexDigit (c.toNat % 16)) = some (c.toNat % 16) :=
      hexValue?_hexDigit _ (by omega)
    have value : c.toNat / 16 * 16 + c.toNat % 16 = c.toNat := by omega
    have zero : hexValue? '0' = some 0 := by decide
    have notHigh : ¬ (55296 ≤ c.toNat ∧ c.toNat ≤ 56319) := by omega
    have notLow : ¬ (56320 ≤ c.toNat ∧ c.toNat ≤ 57343) := by omega
    simp [escapeChar, quote, backslash, newline, cr, tab, bs, ff, control, readFrom, reads,
      continueLit, Lit.step, zero, high, low, value, notHigh, notLow, ofNat]
  · have plain : Lit.step (.plain acc) c = some (.inl (.plain (c :: acc))) := by
      simp [Lit.step, quote, backslash, control]
    simp [escapeChar, quote, backslash, newline, cr, tab, bs, ff, control, readFrom, reads,
      continueLit, plain]

theorem readFrom_escaped
    (reads : ∀ l c, step (inLit l) members c = (continueLit l c inLit next).map (·, members))
    (s : List Char) (acc rest : List Char) :
    readFrom (inLit (.plain acc)) members (s.flatMap escapeChar ++ rest) =
      readFrom (inLit (.plain (s.reverse ++ acc))) members rest := by
  induction s generalizing acc with
  | nil => rfl
  | cons c s ih =>
    rw [List.flatMap_cons, List.append_assoc, readFrom_escapeChar inLit next reads, ih]
    simp

theorem readFrom_literal
    (reads : ∀ l c, step (inLit l) members c = (continueLit l c inLit next).map (·, members))
    (s : String) (rest : List Char) :
    readFrom (inLit (.plain [])) members (s.toList.flatMap escapeChar ++ '"' :: rest) =
      readFrom (next s) members rest := by
  rw [readFrom_escaped inLit next reads]
  simp [readFrom, reads, continueLit, Lit.step]

end Literal

/-! ## Arrays of strings -/

theorem renderItems_str (step level : Nat) (xs : List String) :
    renderItems step level (xs.map .str) = xs.map fun s => "\n" ++ indent step level ++ quote s := by
  induction xs with
  | nil => rfl
  | cons x xs ih => simp [renderItems, render, ih]

theorem toList_commaJoin (x : String) (xs : List String) :
    (commaJoin (x :: xs)).toList = x.toList ++ xs.flatMap fun y => ',' :: y.toList := by
  induction xs generalizing x with
  | nil => simp [commaJoin]
  | cons y ys ih => simp [commaJoin, ih]

theorem toList_quote (s : String) :
    (quote s).toList = '"' :: (s.toList.flatMap escapeChar ++ ['"']) := by
  simp [quote]

theorem readFrom_item {p : Place} {k : String} {items : List String} (s : String)
    (rest : List Char) (step level : Nat)
    (stays : ∀ c, isSpace c = true → Json.step p members c = some (p, members))
    (opens : Json.step p members '"' = some (.item k items (.plain []), members)) :
    readFrom p members (("\n" ++ indent step level ++ quote s).toList ++ rest) =
      readFrom (.afterItem k (s :: items)) members rest := by
  rw [String.toList_append, List.append_assoc, readFrom_blanks stays (isSpace_newline_indent _ _),
    toList_quote, List.cons_append, readFrom_cons_of_step opens, List.append_assoc,
    List.singleton_append]
  exact readFrom_literal (.item k items) (fun s => .afterItem k (s :: items)) (fun _ _ => rfl) s rest

theorem readFrom_moreItems {k : String} {items : List String} (xs : List String)
    (rest : List Char) (step level : Nat) :
    readFrom (.afterItem k items) members
        ((xs.flatMap fun s => ',' :: ("\n" ++ indent step level ++ quote s).toList) ++ rest) =
      readFrom (.afterItem k (xs.reverse ++ items)) members rest := by
  induction xs generalizing items with
  | nil => rfl
  | cons x xs ih =>
    rw [List.flatMap_cons, List.append_assoc, List.cons_append, readFrom_cons_of_step rfl,
      readFrom_item x _ step level (fun c hc => by simp [Json.step, hc]) rfl, ih]
    simp

theorem readFrom_strs {k : String} (xs : List String) (rest : List Char) (step level : Nat) :
    readFrom (.array k) members ((render step level (strs xs)).toList ++ rest) =
      readFrom .afterMember ((k, xs) :: members) rest := by
  cases xs with
  | nil => simp [strs, render, readFrom, Json.step, isSpace]
  | cons x xs =>
    have text : (render step level (strs (x :: xs))).toList =
        '[' :: (("\n" ++ indent step (level + 1) ++ quote x).toList ++
          ((xs.flatMap fun s => ',' :: ("\n" ++ indent step (level + 1) ++ quote s).toList) ++
            (("\n" ++ indent step level).toList ++ [']']))) := by
      rw [strs, render.eq_6 _ _ _ (by simp), renderItems_str, List.map_cons, String.toList_append,
        String.toList_append, String.toList_append, String.toList_append, toList_commaJoin,
        List.flatMap_map]
      simp
    rw [text, List.cons_append, readFrom_cons_of_step rfl, List.append_assoc,
      readFrom_item x _ step _ (fun c hc => by simp [Json.step, hc]) rfl, List.append_assoc,
      readFrom_moreItems, List.append_assoc,
      readFrom_blanks (fun c hc => by simp [Json.step, hc]) (isSpace_newline_indent _ _),
      List.singleton_append, readFrom_cons_of_step rfl]
    simp

/-! ## Objects of string arrays -/

theorem renderFields_strs (step level : Nat) (ms : List (String × List String)) :
    renderFields step level (ms.map fun e => (e.1, strs e.2)) =
      ms.map fun e => "\n" ++ indent step level ++ quote e.1 ++ ": " ++ render step level (strs e.2) := by
  induction ms with
  | nil => rfl
  | cons e ms ih => simp [renderFields, ih]

theorem readFrom_member {p : Place} (e : String × List String) (rest : List Char) (step level : Nat)
    (stays : ∀ c, isSpace c = true → Json.step p members c = some (p, members))
    (opens : Json.step p members '"' = some (.key (.plain []), members)) :
    readFrom p members
        (("\n" ++ indent step level ++ quote e.1 ++ ": " ++ render step level (strs e.2)).toList ++
          rest) =
      readFrom .afterMember (e :: members) rest := by
  have text : ("\n" ++ indent step level ++ quote e.1 ++ ": " ++ render step level (strs e.2)).toList =
      ("\n" ++ indent step level).toList ++
        ('"' :: (e.1.toList.flatMap escapeChar ++ '"' :: ':' :: ' ' ::
          (render step level (strs e.2)).toList)) := by
    simp [toList_quote]
  rw [text, List.append_assoc, readFrom_blanks stays (isSpace_newline_indent _ _), List.cons_append,
    readFrom_cons_of_step opens, List.append_assoc, List.cons_append,
    readFrom_literal .key .colon (fun _ _ => rfl)]
  simp only [List.cons_append]
  rw [readFrom_cons_of_step rfl, readFrom_cons_of_step rfl, readFrom_strs]

theorem readFrom_moreMembers (ms : List (String × List String)) (rest : List Char) (step level : Nat) :
    readFrom .afterMember members
        ((ms.flatMap fun e => ',' ::
          ("\n" ++ indent step level ++ quote e.1 ++ ": " ++ render step level (strs e.2)).toList) ++
          rest) =
      readFrom .afterMember (ms.reverse ++ members) rest := by
  induction ms generalizing members with
  | nil => rfl
  | cons e ms ih =>
    rw [List.flatMap_cons, List.append_assoc, List.cons_append, readFrom_cons_of_step rfl,
      readFrom_member e _ step level (fun c hc => by simp [Json.step, hc]) rfl, ih]
    simp

/-- Every object of string arrays the printer writes, at any indent and followed by a line
break, reads back as its members in order. -/
theorem readStringTable_pretty (step : Nat) (ms : List (String × List String)) :
    readStringTable (pretty step (.obj (ms.map fun e => (e.1, strs e.2))) ++ "\n") = some ms := by
  cases ms with
  | nil => simp [readStringTable, pretty, render, readFrom, Json.step, isSpace]
  | cons e es =>
    have text : (pretty step (.obj ((e :: es).map fun e => (e.1, strs e.2))) ++ "\n").toList =
        '{' :: (("\n" ++ indent step 1 ++ quote e.1 ++ ": " ++ render step 1 (strs e.2)).toList ++
          ((es.flatMap fun e => ',' ::
            ("\n" ++ indent step 1 ++ quote e.1 ++ ": " ++ render step 1 (strs e.2)).toList) ++
            (("\n" ++ indent step 0).toList ++ ['}', '\n']))) := by
      rw [pretty, render.eq_8 _ _ _ (by simp), renderFields_strs, List.map_cons]
      simp only [String.toList_append, toList_commaJoin, List.flatMap_map]
      simp
    rw [readStringTable, text, readFrom_cons_of_step rfl,
      readFrom_member e _ step 1 (fun c hc => by simp [Json.step, hc]) rfl, readFrom_moreMembers,
      readFrom_blanks (fun c hc => by simp [Json.step, hc]) (isSpace_newline_indent _ _),
      readFrom_cons_of_step rfl, readFrom_cons_of_step rfl]
    simp [readFrom]

end Conformance.Json
