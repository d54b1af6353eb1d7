/-
  Printing — what can be told from the line of a record.

  A line starts with the label of the level, in colour if asked.  No label and no colour holds
  a comma, so the first comma of a line is the one before the id.  If the id holds no blank,
  the first blank behind it ends the id, and the code that ends the colouring stands before
  that blank; the message is all the rest.

  * `LogRecord.mark`: what stands before the first comma; `mark_inj`: it tells the level;
  * `line_inj`: the level, the id and the message are read off a line;
  * `insertAt`: a text with another one put into it; `line_color`: a line in colour is the
    plain one with two codes put into it;
  * `lines_tell_records` is what follows for the lines of records.
-/
import DesignGraph.Proofs.Delimiters
import DesignGraph.Log.Record

namespace DesignGraph

/-- The text `s` with `t` put into it behind its first `n` characters. -/
def insertAt (n : Nat) (t s : String) : String :=
  String.ofList (s.toList.take n ++ t.toList ++ s.toList.drop n)

theorem insertAt_length_append (s t u : String) : insertAt s.length t (s ++ u) = s ++ t ++ u := by
  rw [← String.toList_inj, insertAt, String.toList_ofList, String.toList_append,
    ← String.length_toList, List.take_left, List.drop_left]
  simp only [String.toList_append]

namespace LogRecord

variable {color : Bool} {r r' : LogRecord}

/-! ## Lines without colour and in colour -/

/-- The end of a line: four blanks and the message, then the place if asked. -/
def tail (place : Bool) (r : LogRecord) : String :=
  "    " ++ r.message ++ if place then r.placeMark else ""

theorem line_plain (place : Bool) (r : LogRecord) :
    r.line ⟨false, place⟩ = r.header ++ r.tail place := by
  simp only [line, tail, String.append_assoc, Bool.false_eq_true, if_false]

/-- **A line in colour is the plain one with two codes put into it**: that of the level in
    front of it, and behind the id the one that ends the colouring. -/
theorem line_color (place : Bool) (r : LogRecord) :
    r.line ⟨true, place⟩ =
      r.level.colorCode ++ insertAt r.header.length resetCode (r.line ⟨false, place⟩) := by
  rw [line_plain, insertAt_length_append]
  simp only [line, tail, String.append_assoc, if_true]

/-! ## Reading a line -/

/-- What stands before the first comma of a line. -/
def mark (color : Bool) (level : Level) : String :=
  (if color then level.colorCode else "") ++ level.label

/-- What stands between the id and the blanks of a line. -/
def endCode (color : Bool) : String := if color then resetCode else ""

theorem mark_inj {a b : Level} : mark color a = mark color b ↔ a = b := by
  cases color <;> cases a <;> cases b <;> decide

theorem comma_notMem_mark (color : Bool) (level : Level) : ',' ∉ (mark color level).toList := by
  cases color <;> cases level <;> decide

theorem blank_notMem_endCode (color : Bool) : ' ' ∉ (endCode color).toList := by
  cases color <;> decide

theorem toList_line (color : Bool) (r : LogRecord) : (r.line ⟨color, false⟩).toList =
    (mark color r.level).toList ++ ',' :: ((r.id.toList ++ (endCode color).toList) ++ ' ' ::
      ("   ".toList ++ r.message.toList)) := by
  cases color <;> simp [line, header, mark, endCode]

/-- **The level, the id and the message are read off a line, if the id holds no blank.** -/
theorem line_inj (hr : ' ' ∉ r.id.toList) (hr' : ' ' ∉ r'.id.toList)
    (h : r.line ⟨color, false⟩ = r'.line ⟨color, false⟩) :
    r.level = r'.level ∧ r.id = r'.id ∧ r.message = r'.message := by
  have hblank {id : LogId} (hid : ' ' ∉ id.toList) : ' ' ∉ id.toList ++ (endCode color).toList :=
    fun hmem => (List.mem_append.1 hmem).elim hid (blank_notMem_endCode color)
  have hlist := congrArg String.toList h
  rw [toList_line, toList_line] at hlist
  obtain ⟨hmark, hrest⟩ :=
    eq_of_append_cons (comma_notMem_mark color _) (comma_notMem_mark color _) hlist
  obtain ⟨hid, hmessage⟩ := eq_of_append_cons (hblank hr) (hblank hr') hrest
  refine ⟨mark_inj.1 (String.toList_inj.1 hmark), ?_, ?_⟩
  · exact String.toList_inj.1 (List.append_cancel_right hid)
  · exact String.toList_inj.1 (List.append_cancel_left hmessage)

/-! ## The lines of records -/

/-- What the lines of two records say. -/
structure Lines (r r' : LogRecord) : Prop where
  /-- The same lines are lines of the same record, in colour or not. -/
  told : ∀ color, ' ' ∉ r.id.toList → ' ' ∉ r'.id.toList →
    r.line ⟨color, false⟩ = r'.line ⟨color, false⟩ →
    r.level = r'.level ∧ r.id = r'.id ∧ r.message = r'.message
  plain : ∀ place, r.line ⟨false, place⟩ = r.level.label ++ "," ++ r.id ++ "    " ++ r.message ++
    if place then " (" ++ r.location.file ++ ":" ++ toString r.location.line ++ ")" else ""
  /-- Colour is put in front of the line and ended between the id and the blanks. -/
  coloured : ∀ place, r.line ⟨true, place⟩ = r.level.colorCode ++
    insertAt (r.level.label ++ "," ++ r.id).length resetCode (r.line ⟨false, place⟩)
  /-- The message is the end of the line as it is, and no colour reaches it. -/
  message : ∀ color, ∃ before, r.line ⟨color, false⟩ = before ++ "    " ++ r.message ∧
    (color = true → ∃ front, before = front ++ resetCode)

end LogRecord

/-- **Lines tell their records, and colouring leaves the message alone.** -/
theorem lines_tell_records (r r' : LogRecord) : LogRecord.Lines r r' := by
  refine ⟨?_, ?_, ?_, ?_⟩
  · intro color hr hr' h
    exact LogRecord.line_inj hr hr' h
  · intro place
    rw [LogRecord.line_plain]
    simp only [LogRecord.header, LogRecord.tail, LogRecord.placeMark, String.append_assoc]
  · intro place
    exact LogRecord.line_color place r
  · intro color
    rcases color with _ | _
    · refine ⟨r.header, ?_, by simp⟩
      simp [LogRecord.line]
    · refine ⟨r.level.colorCode ++ r.header ++ resetCode, ?_, fun _ => ⟨_, rfl⟩⟩
      simp [LogRecord.line]

/-- A blank in an id can pass for the ones behind it, unless a code shows where the id ends. -/
example : let r : LogRecord := ⟨.info, "a    b", "c", default⟩
    let r' : LogRecord := ⟨.info, "a", "b    c", default⟩
    r.line ⟨false, false⟩ = r'.line ⟨false, false⟩ ∧
      r.line ⟨true, false⟩ ≠ r'.line ⟨true, false⟩ := by
  decide

end DesignGraph
