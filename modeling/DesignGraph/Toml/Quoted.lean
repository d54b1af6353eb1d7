/-
  Quoted strings of TOML.

  There are four forms.  Basic strings stand in quotation marks and may hold
  escapes, literal strings stand in apostrophes and hold what they show; either
  may be tripled, and then it may go over several lines.

  * `basicBody` and `literalBody` read what follows the opening mark of a string
    on one line, `basicLines` and `literalLines` what follows a tripled one;
  * `quoted` reads a string of any form, `quotedKey` one of the two forms that
    stay on a line.
-/
import DesignGraph.Toml.Layout

namespace DesignGraph.Toml

/-! ## Escapes -/

/-- The value of a hexadecimal digit. -/
def hexDigit? (c : Char) : Option Nat :=
  if '0' ≤ c ∧ c ≤ '9' then some (c.toNat - '0'.toNat)
  else if 'a' ≤ c ∧ c ≤ 'f' then some (c.toNat - 'a'.toNat + 10)
  else if 'A' ≤ c ∧ c ≤ 'F' then some (c.toNat - 'A'.toNat + 10)
  else none

/-- The number with the given hexadecimal digits. -/
def hexNumber? (cs : List Char) : Option Nat :=
  cs.foldlM (fun n c => (hexDigit? c).map (16 * n + ·)) 0

/-- The character whose code point has the given hexadecimal digits. -/
def codePoint? (cs : List Char) : Option Char :=
  (hexNumber? cs).bind fun n => if n.isValidChar then some (Char.ofNat n) else none

/-- The character that a backslash and a letter stand for. -/
def shortEscape? : Char → Option Char
  | 'b' => some '\x08'
  | 't' => some '\t'
  | 'n' => some '\n'
  | 'f' => some '\x0c'
  | 'r' => some '\r'
  | '"' => some '"'
  | '\\' => some '\\'
  | _ => none

/-! ## Strings on one line -/

/-- Whether a basic string may show a character as it is. -/
def isBasicChar (c : Char) : Bool := isCommentChar c && c != '"' && c != '\\'

/-- Whether a literal string may hold a character. -/
def isLiteralChar (c : Char) : Bool := isCommentChar c && c != '\''

/-- A reading with characters put in front of what was read. -/
def Read.prepend {cs ds : List Char} (s : List Char) (r : Read (List Char) ds)
    (h : ds.length ≤ cs.length := by simp only [List.length_cons]; omega) :
    Read (List Char) cs :=
  (r.map (s ++ ·)).widen h

/-- A reading that ends here. -/
def Read.done {cs : List Char} (s r : List Char)
    (h : r.length < cs.length := by simp only [List.length_cons]; omega) :
    Read (List Char) cs :=
  ⟨s, r, h⟩

/-- The rest of a basic string, with its closing mark. -/
def basicBody : Reader (List Char)
  | [] => none
  | '"' :: r => some (.done [] r (Nat.lt_succ_self r.length))
  | '\\' :: 'u' :: a :: b :: c :: d :: r =>
    (codePoint? [a, b, c, d]).bind fun x =>
      (basicBody r).map (·.prepend [x] (List.suffix_append ['\\', 'u', a, b, c, d] r).length_le)
  | '\\' :: 'U' :: a :: b :: c :: d :: e :: f :: g :: h :: r =>
    (codePoint? [a, b, c, d, e, f, g, h]).bind fun x =>
      (basicBody r).map
        (·.prepend [x] (List.suffix_append ['\\', 'U', a, b, c, d, e, f, g, h] r).length_le)
  | '\\' :: c :: r =>
    (shortEscape? c).bind fun x =>
      (basicBody r).map (·.prepend [x] (List.suffix_append ['\\', c] r).length_le)
  | c :: r =>
    if isBasicChar c then (basicBody r).map (·.prepend [c] (List.suffix_cons c r).length_le)
    else none

/-- The rest of a literal string, with its closing mark. -/
def literalBody : Reader (List Char)
  | [] => none
  | '\'' :: r => some (.done [] r)
  | c :: r => if isLiteralChar c then (literalBody r).map (·.prepend [c]) else none

/-! ## Strings on several lines -/

/-- Where a reader is in a basic string on several lines. -/
inductive LinesState where
  /-- in the text -/
  | text
  | lineEnd
  | trim
deriving DecidableEq

/-- The rest of a basic string on several lines, with its closing marks.  One or
    two quotation marks just before the closing three belong to the string. -/
def basicLines : LinesState → Reader (List Char)
  | _, [] => none
  | .lineEnd, '\n' :: r | .trim, '\n' :: r => (basicLines .trim r).map (·.prepend [])
  | .lineEnd, '\r' :: '\n' :: r | .trim, '\r' :: '\n' :: r =>
    (basicLines .trim r).map (·.prepend [])
  | .lineEnd, ' ' :: r | .lineEnd, '\t' :: r => (basicLines .lineEnd r).map (·.prepend [])
  | .lineEnd, _ :: _ => none
  | .trim, ' ' :: r | .trim, '\t' :: r => (basicLines .trim r).map (·.prepend [])
  | _, '"' :: '"' :: '"' :: '"' :: '"' :: r => some (.done ['"', '"'] r)
  | _, '"' :: '"' :: '"' :: '"' :: r => some (.done ['"'] r)
  | _, '"' :: '"' :: '"' :: r => some (.done [] r)
  | _, '"' :: r => (basicLines .text r).map (·.prepend ['"'])
  | _, '\\' :: '\n' :: r => (basicLines .trim r).map (·.prepend [])
  | _, '\\' :: '\r' :: '\n' :: r => (basicLines .trim r).map (·.prepend [])
  | _, '\\' :: ' ' :: r | _, '\\' :: '\t' :: r => (basicLines .lineEnd r).map (·.prepend [])
  | _, '\\' :: 'u' :: a :: b :: c :: d :: r =>
    (codePoint? [a, b, c, d]).bind fun x => (basicLines .text r).map (·.prepend [x])
  | _, '\\' :: 'U' :: a :: b :: c :: d :: e :: f :: g :: h :: r =>
    (codePoint? [a, b, c, d, e, f, g, h]).bind fun x => (basicLines .text r).map (·.prepend [x])
  | _, '\\' :: c :: r => (shortEscape? c).bind fun x => (basicLines .text r).map (·.prepend [x])
  | _, '\n' :: r => (basicLines .text r).map (·.prepend ['\n'])
  | _, '\r' :: '\n' :: r => (basicLines .text r).map (·.prepend ['\n'])
  | _, c :: r => if isBasicChar c then (basicLines .text r).map (·.prepend [c]) else none

/-- The rest of a literal string on several lines, with its closing marks.  One
    or two apostrophes just before the closing three belong to the string. -/
def literalLines : Reader (List Char)
  | [] => none
  | '\'' :: '\'' :: '\'' :: '\'' :: '\'' :: r => some (.done ['\'', '\''] r)
  | '\'' :: '\'' :: '\'' :: '\'' :: r => some (.done ['\''] r)
  | '\'' :: '\'' :: '\'' :: r => some (.done [] r)
  | '\'' :: r => (literalLines r).map (·.prepend ['\''])
  | '\n' :: r => (literalLines r).map (·.prepend ['\n'])
  | '\r' :: '\n' :: r => (literalLines r).map (·.prepend ['\n'])
  | c :: r => if isLiteralChar c then (literalLines r).map (·.prepend [c]) else none

/-! ## Strings of any form -/

/-- A text without the line end right at its start. -/
def dropLineBreak : List Char → List Char
  | '\n' :: r => r
  | '\r' :: '\n' :: r => r
  | r => r

theorem length_dropLineBreak (cs : List Char) : (dropLineBreak cs).length ≤ cs.length := by
  unfold dropLineBreak
  split <;> grind

/-- A string that stays on its line. -/
def quotedKey : Reader String
  | '"' :: r => (basicBody r).map fun s => (s.map String.ofList).widen (by simp)
  | '\'' :: r => (literalBody r).map fun s => (s.map String.ofList).widen (by simp)
  | _ => none

/-- A string of any form.  A line end right after tripled marks is dropped. -/
def quoted : Reader String
  | '"' :: '"' :: '"' :: r =>
    (basicLines .text (dropLineBreak r)).map fun s => (s.map String.ofList).widen (by
      have := length_dropLineBreak r
      simp only [List.length_cons]
      omega)
  | '\'' :: '\'' :: '\'' :: r =>
    (literalLines (dropLineBreak r)).map fun s => (s.map String.ofList).widen (by
      have := length_dropLineBreak r
      simp only [List.length_cons]
      omega)
  | cs => quotedKey cs

end DesignGraph.Toml
