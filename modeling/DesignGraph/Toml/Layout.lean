/-
  Layout of TOML texts — blanks, comments and line ends, and readers.

  * `isBlank` and `isCommentChar` are the classes of characters that fill lines;
    a line ends with LF or CRLF, or with the text;
  * `skipBlank` stays in the line, `skipGap` goes over line ends and comments,
    and `lineEnd?` takes all that may follow on a line once it has said what it
    has to say;
  * `Read α cs` is what a reader takes from the front of `cs`: it leaves less
    than it was given, so reading again comes to an end.
-/

namespace DesignGraph.Toml

/-! ## Characters -/

/-- A blank within a line: a space or a tab. -/
def isBlank (c : Char) : Bool := c == ' ' || c == '\t'

/-- Whether a comment may hold a character: no control characters, a tab apart. -/
def isCommentChar (c : Char) : Bool :=
  c == '\t' || (' ' ≤ c && c ≤ '~') || '\x80' ≤ c

/-! ## Lines -/

/-- The text after leading blanks. -/
def skipBlank (cs : List Char) : List Char := cs.dropWhile isBlank

/-- The text after a line end, at which it has to start. -/
def lineBreak? : List Char → Option (List Char)
  | [] => some []
  | '\n' :: r => some r
  | '\r' :: '\n' :: r => some r
  | _ => none

/-- The text of the next line, if the rest of this one is blank or a comment. -/
def lineEnd? (cs : List Char) : Option (List Char) :=
  match skipBlank cs with
  | '#' :: r => lineBreak? (r.dropWhile isCommentChar)
  | r => lineBreak? r

/-- The text after blanks, line ends and comments; `inComment` says whether it
    starts within a comment.  A comment that holds a character it must not hold
    ends the gap. -/
def skipGap (inComment : Bool) : List Char → List Char
  | [] => []
  | '\n' :: r => skipGap false r
  | '\r' :: '\n' :: r => skipGap false r
  | c :: r =>
    if inComment then if isCommentChar c then skipGap true r else c :: r
    else if isBlank c then skipGap false r
    else if c = '#' then skipGap true r
    else c :: r

theorem length_skipBlank (cs : List Char) : (skipBlank cs).length ≤ cs.length :=
  (List.dropWhile_suffix isBlank).length_le

theorem length_lineBreak? {cs r : List Char} (h : lineBreak? cs = some r) :
    r.length ≤ cs.length := by
  unfold lineBreak? at h
  grind

theorem length_lineEnd? {cs r : List Char} (h : lineEnd? cs = some r) :
    r.length ≤ cs.length := by
  have hb := length_skipBlank cs
  unfold lineEnd? at h
  split at h
  · next t ht =>
    have := length_lineBreak? h
    have := (List.dropWhile_suffix isCommentChar (l := t)).length_le
    grind
  · have := length_lineBreak? h
    omega

/-- A line that is not the empty rest of the text has something to take. -/
theorem length_lineEnd?_lt {c : Char} {cs r : List Char} (h : lineEnd? (c :: cs) = some r) :
    r.length < (c :: cs).length := by
  have hb := length_skipBlank (c :: cs)
  unfold lineEnd? at h
  split at h
  · next t ht =>
    have := length_lineBreak? h
    have := (List.dropWhile_suffix isCommentChar (l := t)).length_le
    grind
  · unfold lineBreak? at h
    grind

theorem length_skipGap (b : Bool) (cs : List Char) : (skipGap b cs).length ≤ cs.length := by
  fun_induction skipGap b cs <;> simp_all <;> omega

/-! ## Readers -/

/-- What a reader took from the front of a text, and what it left: less than
    the whole text. -/
structure Read (α : Type) (cs : List Char) where
  value : α
  rest : List Char
  /-- Something was taken. -/
  shorter : rest.length < cs.length

/-- A reader of an `α` at the front of a text. -/
abbrev Reader (α : Type) := (cs : List Char) → Option (Read α cs)

namespace Read

variable {α β : Type} {cs ds : List Char}

/-- The same reading, with another value made from what was read. -/
def map (f : α → β) (r : Read α cs) : Read β cs := { r with value := f r.value }

/-- The same reading, as one of a longer text. -/
def widen (r : Read α ds) (h : ds.length ≤ cs.length) : Read α cs :=
  { r with shorter := Nat.lt_of_lt_of_le r.shorter h }

/-- The same reading, going on to a later place. -/
def skip (r : Read α cs) (rest : List Char) (h : rest.length ≤ r.rest.length) : Read α cs :=
  ⟨r.value, rest, Nat.lt_of_le_of_lt h r.shorter⟩

end Read

end DesignGraph.Toml
