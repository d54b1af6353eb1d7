/-
  Reading TOML documents.

  * `keyPath` reads a dotted key, `value n` a value with at most `n` arrays and
    inline tables inside each other, `statement` one line of a document;
  * `statements?` reads all lines, and `parse?` the table that they describe.
-/
import DesignGraph.Toml.Scalar
import DesignGraph.Toml.Value

namespace DesignGraph.Toml

/-! ## Keys -/

/-- Whether a key without marks may hold a character. -/
def isBareKeyChar (c : Char) : Bool := c.isAlphanum || c == '_' || c == '-'

/-- A key without marks. -/
def bareKey : Reader String
  | [] => none
  | c :: r =>
    if isBareKeyChar c then
      some ⟨String.ofList (c :: r.takeWhile isBareKeyChar), r.dropWhile isBareKeyChar,
        Nat.lt_succ_of_le (List.dropWhile_suffix isBareKeyChar).length_le⟩
    else none

/-- One part of a dotted key. -/
def simpleKey : Reader String
  | '"' :: r => quotedKey ('"' :: r)
  | '\'' :: r => quotedKey ('\'' :: r)
  | cs => bareKey cs

/-- A dotted key of any length, with the blanks around its parts. -/
def keyParts (cs : List Char) : Option (Read KeyPath cs) := do
  let part ← simpleKey (skipBlank cs)
  have hpart : (skipBlank part.rest).length < cs.length :=
    Nat.lt_of_le_of_lt (length_skipBlank part.rest)
      (Nat.lt_of_lt_of_le part.shorter (length_skipBlank cs))
  match h : skipBlank part.rest with
  | '.' :: r =>
    have hr : r.length < cs.length := by grind
    let more ← keyParts r
    some ⟨⟨part.value :: more.value.parents, more.value.last⟩, more.rest,
      Nat.lt_trans more.shorter hr⟩
  | r => some ⟨⟨[], part.value⟩, r, h ▸ hpart⟩
termination_by cs.length
decreasing_by exact hr

/-- The greatest number of parts of a dotted key, and the greatest number of
    arrays and inline tables inside each other. -/
def maxDepth : Nat := 79

/-- A dotted key. -/
def keyPath : Reader KeyPath := fun cs =>
  (keyParts cs).bind fun k => if k.value.parts.length ≤ maxDepth then some k else none

/-! ## Values -/

/-- A dotted key, a value, and what stands around and between them on a line;
    `item` reads the value. -/
def pairOf (item : Reader Value) : Reader (KeyPath × Value) := fun cs => do
  let key ← keyPath cs
  match h : key.rest with
  | '=' :: r =>
    let v ← item (skipBlank r)
    some ⟨(key.value, v.value), skipBlank v.rest, by
      have := length_skipBlank v.rest
      have := length_skipBlank r
      have := v.shorter
      have := key.shorter
      grind⟩
  | _ => none

/-- The rest of an array after its opening bracket or a comma: values with
    commas between them, perhaps a comma at the end, and the closing bracket. -/
def itemsOf (item : Reader Value) (cs : List Char) : Option (Read (List Value) cs) :=
  match h : skipGap false cs with
  | ']' :: r => some ⟨[], r, by have := length_skipGap false cs; grind⟩
  | start => do
    let v ← item start
    have hstart := length_skipGap false cs
    have hv := v.shorter
    have hafter := length_skipGap false v.rest
    match ha : skipGap false v.rest with
    | ']' :: r => some ⟨[v.value], r, by grind⟩
    | ',' :: r =>
      have hr : r.length < cs.length := by grind
      let more ← itemsOf item r
      some ⟨v.value :: more.value, more.rest, Nat.lt_trans more.shorter hr⟩
    | _ => none
termination_by cs.length
decreasing_by exact hr

/-- The pairs of an inline table after its opening brace or a comma, with
    commas between them and the closing brace. -/
def pairsOf (item : Reader Value) (cs : List Char) :
    Option (Read (List (KeyPath × Value)) cs) := do
  let p ← pairOf item cs
  have hp := p.shorter
  match h : p.rest with
  | '\x7d' :: r => some ⟨[p.value], r, by grind⟩
  | ',' :: r =>
    have hr : r.length < cs.length := by grind
    let more ← pairsOf item r
    some ⟨p.value :: more.value, more.rest, Nat.lt_trans more.shorter hr⟩
  | _ => none
termination_by cs.length
decreasing_by exact hr

/-- The rest of an inline table after its opening brace. -/
def inlineTableOf (item : Reader Value) : Reader Value := fun cs =>
  match h : skipBlank cs with
  | '\x7d' :: r => some ⟨.table [], r, by have := length_skipBlank cs; grind⟩
  | _ => (pairsOf item cs).bind fun ps => (inlineTable? ps.value).map fun t => ps.map fun _ => t

/-- The value of a scalar. -/
def Scalar.toValue : Scalar → Value
  | .boolean b => .boolean b
  | .integer n => .integer n
  | .float => .float
  | .dateTime => .dateTime

/-- A value; `depth` arrays and inline tables may stand inside each other. -/
def value (depth : Nat) : Reader Value
  | '"' :: r => (quoted ('"' :: r)).map (·.map .string)
  | '\'' :: r => (quoted ('\'' :: r)).map (·.map .string)
  | '[' :: r =>
    match depth with
    | 0 => none
    | depth + 1 => (itemsOf (value depth) r).map fun x => (x.map .array).widen (by simp)
  | '\x7b' :: r =>
    match depth with
    | 0 => none
    | depth + 1 => (inlineTableOf (value depth) r).map fun x => x.widen (by simp)
  | cs => (scalar cs).map (·.map Scalar.toValue)

/-! ## Documents -/

/-- The header of a table, after its opening bracket. -/
def tableHeader : Reader KeyPath := fun cs =>
  (keyPath cs).bind fun key =>
    match h : key.rest with
    | ']' :: r => some (key.skip r (by simp [h]))
    | _ => none

/-- The header of one more table of an array, after its opening brackets. -/
def arrayHeader : Reader KeyPath := fun cs =>
  (keyPath cs).bind fun key =>
    match h : key.rest with
    | ']' :: ']' :: r => some (key.skip r (by simp only [h, List.length_cons]; omega))
    | _ => none

/-- A statement, without what may follow it on its line. -/
def statement : Reader Statement
  | '[' :: '[' :: r =>
    (arrayHeader r).map fun key => (key.map .arrayHeader).widen (Nat.le_add_right r.length 2)
  | '[' :: r =>
    (tableHeader r).map fun key => (key.map .header).widen (Nat.le_succ r.length)
  | cs => (pairOf (value maxDepth) cs).map (·.map fun (key, v) => .pair key v)

/-- One line of a document, with its line end; it may say nothing. -/
def line (c : Char) (cs : List Char) : Option (Read (Option Statement) (c :: cs)) :=
  match h : lineEnd? (c :: cs) with
  | some r => some ⟨none, r, length_lineEnd?_lt h⟩
  | none =>
    (statement (skipBlank (c :: cs))).bind fun s =>
      match h : lineEnd? s.rest with
      | some r =>
        some (((s.skip r (length_lineEnd? h)).map some).widen (length_skipBlank (c :: cs)))
      | none => none

/-- The statements of a document, line by line. -/
def statements? : List Char → Option (List Statement)
  | [] => some []
  | c :: cs => do
    let l ← line c cs
    let more ← statements? l.rest
    some (l.value.toList ++ more)
termination_by cs => cs.length
decreasing_by exact l.shorter

/-- A text without the mark of its byte order. -/
def dropByteOrderMark : List Char → List Char
  | '\ufeff' :: r => r
  | r => r

/-- The table of a document. -/
def parse? (text : String) : Option (List (String × Value)) :=
  (statements? (dropByteOrderMark text.toList)).bind tableOf?

end DesignGraph.Toml
