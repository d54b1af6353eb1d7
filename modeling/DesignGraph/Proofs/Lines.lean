/-
  Lines — what the lines of a document say.

  A line that is written plainly is a header, `[key]`, or a pair, `key = value`.  The parts
  of a key stand bare or in quotation marks, and the value is a basic string or a truth
  value.

  * `WritesPart`, `WritesKey` and `WritesValue` are the ways to write the parts of a line;
    `reads_keyPath` and `reads_value`: they are read back;
  * `WritesLine` are the ways to write a line;
  * `Says l s`: the line `l` says `s`, whatever follows it; `says_of_writesLine`: a line says
    what is written in it;
  * `parse?_of_lines`: a document is what its lines say, in order.
-/
import DesignGraph.Proofs.Spelling

namespace DesignGraph.Toml

variable {cs w u r rest : List Char}

/-! ## Keys -/

/-- The ways to write a part of a key. -/
inductive WritesPart (name : String) : List Char → Prop
  | bare : name ≠ "" → name.toList.all isBareKeyChar → WritesPart name name.toList
  | quoted {t : List Char} : SpellsText name.toList t → WritesPart name ('"' :: (t ++ ['"']))

/-- The ways to write a dotted key. -/
inductive WritesKey : KeyPath → List Char → Prop
  | last {name : String} {w : List Char} : WritesPart name w → WritesKey ⟨[], name⟩ w
  | more {name last : String} {w v : List Char} {parents : List String} :
      WritesPart name w → WritesKey ⟨parents, last⟩ v →
      WritesKey ⟨name :: parents, last⟩ (w ++ '.' :: v)

/-- Whether a key may start with a character. -/
def startsKey (c : Char) : Bool := c == '"' || isBareKeyChar c

theorem WritesPart.exists_cons {name : String} (h : WritesPart name w) :
    ∃ c v, w = c :: v ∧ startsKey c := by
  cases h with
  | bare hne hbare =>
    rcases hl : name.toList with _ | ⟨c, v⟩
    · exact absurd (String.toList_eq_nil_iff.1 hl) hne
    · have hc := List.all_eq_true.1 hbare c (hl ▸ List.mem_cons_self)
      exact ⟨c, v, rfl, by rw [startsKey, hc, Bool.or_true]⟩
  | quoted _ => exact ⟨_, _, rfl, rfl⟩

theorem WritesKey.exists_cons {k : KeyPath} (h : WritesKey k w) :
    ∃ c v, w = c :: v ∧ startsKey c := by
  cases h with
  | last hw => exact hw.exists_cons
  | more hw _ =>
    obtain ⟨c, v, rfl, hc⟩ := hw.exists_cons
    exact ⟨c, _, rfl, hc⟩

/-- Whether a line that says something may start with a character. -/
def startsLine (c : Char) : Bool := startsKey c || c == '['

theorem startsLine_of_startsKey {c : Char} (h : startsKey c) : startsLine c := by
  rw [startsLine, h, Bool.true_or]

theorem skipBlank_of_startsLine {c : Char} (h : startsLine c) :
    skipBlank (c :: cs) = c :: cs := by
  have hspace : c ≠ ' ' := ne_of_apply_ne startsLine (by rw [h]; decide)
  have htab : c ≠ '\t' := ne_of_apply_ne startsLine (by rw [h]; decide)
  simp [skipBlank, isBlank, hspace, htab]

/-- A bare key ends where a character follows that it must not hold. -/
theorem reads_bareKey (hne : w ≠ []) (hw : ∀ c ∈ w, isBareKeyChar c)
    (hr : ∀ c ∈ r.head?, isBareKeyChar c = false) :
    Reads bareKey (w ++ r) (String.ofList w) r := by
  rcases w with _ | ⟨c, w⟩
  · exact absurd rfl hne
  · have hstop : r.takeWhile isBareKeyChar = [] ∧ r.dropWhile isBareKeyChar = r := by
      rcases r with _ | ⟨d, r⟩
      · exact ⟨rfl, rfl⟩
      · have hd : isBareKeyChar d = false := hr d rfl
        simp [hd]
    have hall : ∀ d ∈ w, isBareKeyChar d := fun d hd => hw d (List.mem_cons_of_mem c hd)
    have hlt : r.length < (c :: w ++ r).length := by
      rw [List.length_append, List.length_cons]
      omega
    refine ⟨hlt, ?_⟩
    simp only [List.cons_append, bareKey, hw c List.mem_cons_self, if_true,
      List.takeWhile_append_of_pos hall, List.dropWhile_append_of_pos hall, hstop.1, hstop.2,
      List.append_nil]

theorem reads_simpleKey {name : String} (h : WritesPart name w)
    (hr : ∀ c ∈ r.head?, isBareKeyChar c = false) : Reads simpleKey (w ++ r) name r := by
  cases h with
  | bare hne hbare =>
    have hnil : name.toList ≠ [] := fun hnil => hne (String.toList_eq_nil_iff.1 hnil)
    obtain ⟨hlt, hread⟩ := reads_bareKey hnil (List.all_eq_true.1 hbare) hr
    rw [String.ofList_toList] at hread
    refine ⟨hlt, (simpleKey.eq_3 _ ?_ ?_).trans hread⟩
    all_goals
      intro v hv
      rcases hl : name.toList with _ | ⟨c, cs⟩
      · exact hnil hl
      · have hc := List.all_eq_true.1 hbare c (hl ▸ List.mem_cons_self)
        rw [hl] at hv
        rw [(List.cons.inj hv).1] at hc
        cases hc
  | quoted ht =>
    obtain ⟨hlt, hread⟩ := reads_quotedKey ht r
    rw [String.ofList_toList] at hread
    rw [List.cons_append, List.append_assoc]
    exact ⟨hlt, hread⟩

theorem reads_keyParts_last {name : String} (h : Reads simpleKey (skipBlank cs) name r)
    (hr : ∀ c ∈ (skipBlank r).head?, c ≠ '.') :
    Reads keyParts cs ⟨[], name⟩ (skipBlank r) := by
  obtain ⟨hlt, h⟩ := h
  have hcs := length_skipBlank cs
  have hskip := length_skipBlank r
  refine ⟨by omega, ?_⟩
  rw [keyParts]
  simp only [h, Option.bind_eq_bind, Option.bind_some]
  split
  · next v hv => exact absurd rfl (hr '.' (by rw [hv]; rfl))
  · rfl

theorem reads_keyParts_more {name : String} {k : KeyPath} {v : List Char}
    (h : Reads simpleKey (skipBlank cs) name ('.' :: v)) (hv : Reads keyParts v k rest) :
    Reads keyParts cs ⟨name :: k.parents, k.last⟩ rest := by
  obtain ⟨hlt, h⟩ := h
  obtain ⟨hlt', hv⟩ := hv
  have hcs := length_skipBlank cs
  rw [List.length_cons] at hlt
  refine ⟨by omega, ?_⟩
  rw [keyParts]
  simp only [h, Option.bind_eq_bind, Option.bind_some]
  split
  · next v' hv' =>
    cases hv'
    simp only [hv, Option.bind_some]
  · next hne => exact absurd rfl (hne v)

theorem WritesKey.skipBlank {k : KeyPath} (h : WritesKey k w) (r : List Char) :
    Toml.skipBlank (w ++ r) = w ++ r := by
  obtain ⟨c, v, rfl, hc⟩ := h.exists_cons
  exact skipBlank_of_startsLine (startsLine_of_startsKey hc)

/-- A dotted key is read back, with the blanks after it, unless it goes on. -/
theorem reads_keyParts {k : KeyPath} (h : WritesKey k w)
    (hr : ∀ c ∈ r.head?, isBareKeyChar c = false) (hdot : ∀ c ∈ (skipBlank r).head?, c ≠ '.') :
    Reads keyParts (w ++ r) k (skipBlank r) := by
  induction h with
  | last hw =>
    -- Only the last part looks at what follows the key; the others end at a dot.
    refine reads_keyParts_last ?_ hdot
    rw [(WritesKey.last hw).skipBlank]
    exact reads_simpleKey hw hr
  | @more name last w v parents hw hv ih =>
    refine reads_keyParts_more (k := ⟨parents, last⟩) (v := v ++ r) ?_ ih
    rw [(WritesKey.more hw hv).skipBlank, List.append_assoc]
    exact reads_simpleKey hw fun c hc => by cases hc; rfl

theorem reads_keyPath {k : KeyPath} (h : WritesKey k w) (hk : k.parts.length ≤ maxDepth)
    (hr : ∀ c ∈ r.head?, isBareKeyChar c = false) (hdot : ∀ c ∈ (skipBlank r).head?, c ≠ '.') :
    Reads keyPath (w ++ r) k (skipBlank r) := by
  obtain ⟨hlt, h⟩ := reads_keyParts h hr hdot
  refine ⟨hlt, ?_⟩
  rw [keyPath, h, Option.bind_some, if_pos hk]

/-! ## Values -/

/-- The ways to write a value: basic strings and truth values. -/
inductive WritesValue : Value → List Char → Prop
  | string {s : String} {t : List Char} : SpellsText s.toList t →
      WritesValue (.string s) ('"' :: (t ++ ['"']))
  | boolean (b : Bool) : WritesValue (.boolean b) (toString b).toList

/-- A spelled text does not start with the mark that ends it. -/
theorem SpellsText.head_ne_quote (h : SpellsText cs w) : ∀ c ∈ w.head?, c ≠ '"' := by
  cases h with
  | nil =>
    intro d hd
    cases hd
  | cons hs _ =>
    cases hs with
    | shown hc =>
      intro d hd
      cases hd
      exact fun hquote => hc (Or.inl hquote)
    | letter | short | long =>
      intro d hd
      cases hd
      decide

/-- A basic string is not taken for a tripled one, if no mark follows it. -/
theorem reads_quoted {s : String} (h : SpellsText s.toList w) (hr : ∀ c ∈ r.head?, c ≠ '"') :
    Reads quoted ('"' :: (w ++ '"' :: r)) s r := by
  obtain ⟨hlt, hread⟩ := reads_quotedKey h r
  rw [String.ofList_toList] at hread
  refine ⟨hlt, (quoted.eq_3 _ ?_ ?_).trans hread⟩
  · intro v hv
    have htail : w ++ '"' :: r = '"' :: '"' :: v := (List.cons.inj hv).2
    rcases w with _ | ⟨c, w⟩
    · exact hr '"' (by rw [(List.cons.inj htail).2]; rfl) rfl
    · exact h.head_ne_quote c rfl (List.cons.inj htail).1
  · intro v hv
    cases hv

/-- A value is read back at the end of its line. -/
theorem reads_value {v : Value} (h : WritesValue v w) :
    Reads (value maxDepth) (w ++ '\n' :: rest) v ('\n' :: rest) := by
  cases h with
  | string h =>
    obtain ⟨hlt, hread⟩ := reads_quoted h (r := '\n' :: rest) fun c hc => by cases hc; decide
    rw [List.cons_append, List.append_assoc, List.singleton_append]
    have hquoted (r : List Char) :
        value maxDepth ('"' :: r) = (quoted ('"' :: r)).map (·.map .string) := rfl
    refine ⟨hlt, (hquoted _).trans ?_⟩
    rw [hread]
    rfl
  | boolean b =>
    cases b
    · exact ⟨by rw [List.length_append]; exact Nat.lt_add_of_pos_left (by decide), rfl⟩
    · exact ⟨by rw [List.length_append]; exact Nat.lt_add_of_pos_left (by decide), rfl⟩

theorem WritesValue.skipBlank {v : Value} (h : WritesValue v w) (r : List Char) :
    Toml.skipBlank (w ++ r) = w ++ r := by
  cases h with
  | string _ => rfl
  | boolean b => cases b <;> rfl

/-! ## Statements -/

theorem reads_pairOf {item : Reader Value} {k : KeyPath} {v : Value}
    (h : Reads keyPath cs k ('=' :: r)) (hv : Reads item (skipBlank r) v rest) :
    Reads (pairOf item) cs (k, v) (skipBlank rest) := by
  obtain ⟨hlt, h⟩ := h
  obtain ⟨hlt', hv⟩ := hv
  have hr := length_skipBlank r
  have hrest := length_skipBlank rest
  rw [List.length_cons] at hlt
  refine ⟨by omega, ?_⟩
  simp only [pairOf, h, hv, Option.bind_eq_bind, Option.bind_some]

/-- A pair is read back. -/
theorem reads_pair {k : KeyPath} {v : Value} (hk : WritesKey k w) (hv : WritesValue v u)
    (hdepth : k.parts.length ≤ maxDepth) (rest : List Char) :
    Reads statement (w ++ (" = ".toList ++ (u ++ '\n' :: rest))) (.pair k v) ('\n' :: rest) := by
  have hkey : Reads keyPath (w ++ (" = ".toList ++ (u ++ '\n' :: rest))) k
      ('=' :: ' ' :: (u ++ '\n' :: rest)) :=
    reads_keyPath hk hdepth (fun c hc => by cases hc; rfl) (fun c hc => by cases hc; decide)
  have hvalue : Reads (value maxDepth) (skipBlank (' ' :: (u ++ '\n' :: rest))) v
      ('\n' :: rest) := by
    have hblank : skipBlank (' ' :: (u ++ '\n' :: rest)) = u ++ '\n' :: rest :=
      hv.skipBlank ('\n' :: rest)
    rw [hblank]
    exact reads_value hv
  obtain ⟨hlt, hread⟩ := reads_pairOf hkey hvalue
  obtain ⟨c, w, rfl, hc⟩ := hk.exists_cons
  have hbracket : c ≠ '[' := ne_of_apply_ne startsKey (by rw [hc]; decide)
  refine ⟨hlt, (statement.eq_3 _ ?_ ?_).trans ?_⟩
  · intro v hv
    exact hbracket (List.cons.inj hv).1
  · intro v hv
    exact hbracket (List.cons.inj hv).1
  · rw [hread]
    rfl

theorem reads_tableHeader {k : KeyPath} (h : Reads keyPath cs k (']' :: r)) :
    Reads tableHeader cs k r := by
  obtain ⟨hlt, h⟩ := h
  rw [List.length_cons] at hlt
  refine ⟨by omega, ?_⟩
  simp only [tableHeader, h, Option.bind_some]
  rfl

/-- A header is read back. -/
theorem reads_header {k : KeyPath} (hk : WritesKey k w) (hdepth : k.parts.length ≤ maxDepth) :
    Reads statement ('[' :: (w ++ ']' :: r)) (.header k) r := by
  have hkey : Reads keyPath (w ++ ']' :: r) k (']' :: r) :=
    reads_keyPath hk hdepth (fun c hc => by cases hc; rfl) (fun c hc => by cases hc; decide)
  obtain ⟨hlt, hread⟩ := reads_tableHeader hkey
  obtain ⟨c, w, rfl, hc⟩ := hk.exists_cons
  have hbracket : c ≠ '[' := ne_of_apply_ne startsKey (by rw [hc]; decide)
  refine ⟨Nat.lt_succ_of_lt hlt, (statement.eq_2 _ ?_).trans ?_⟩
  · intro v hv
    exact hbracket (List.cons.inj hv).1
  · rw [hread]
    rfl

/-! ## Lines -/

theorem lineEnd?_of_startsLine {c : Char} (hc : startsLine c) (cs : List Char) :
    lineEnd? (c :: cs) = none := by
  have hne (d : Char) (hd : startsLine d = false) : c ≠ d :=
    ne_of_apply_ne startsLine (by rw [hc, hd]; decide)
  rw [lineEnd?, skipBlank_of_startsLine hc]
  split
  · next h => exact absurd (List.cons.inj h).1 (hne '#' (by decide))
  · refine lineBreak?.eq_4 _ (List.cons_ne_nil c cs) (fun r h => ?_) (fun r h => ?_)
    · exact hne '\n' (by decide) (List.cons.inj h).1
    · exact hne '\r' (by decide) (List.cons.inj h).1

theorem line_of_reads {c : Char} {s : Statement} (hc : startsLine c)
    (h : Reads statement (c :: cs) s ('\n' :: rest)) :
    ∃ hlt, line c cs = some ⟨some s, rest, hlt⟩ := by
  have hend := lineEnd?_of_startsLine hc cs
  rw [← skipBlank_of_startsLine hc] at h
  obtain ⟨hlt, h⟩ := h
  rw [skipBlank_of_startsLine hc, List.length_cons] at hlt
  refine ⟨by omega, ?_⟩
  rw [line]
  split
  · next r hr =>
    rw [hend] at hr
    cases hr
  · simp only [h, Option.bind_some]
    rfl

theorem statements?_of_reads {c : Char} {s : Statement} {sts : List Statement}
    (hc : startsLine c) (h : Reads statement (c :: cs) s ('\n' :: rest))
    (hrest : statements? rest = some sts) : statements? (c :: cs) = some (s :: sts) := by
  obtain ⟨hlt, hline⟩ := line_of_reads hc h
  rw [statements?]
  simp only [hline, hrest, Option.bind_eq_bind, Option.bind_some, Option.toList_some,
    List.singleton_append]

/-- A line says something, whatever follows it. -/
structure Says (l : List Char) (s : Statement) : Prop where
  starts : ∃ c v, l = c :: v ∧ startsLine c
  read : ∀ rest sts, statements? rest = some sts → statements? (l ++ '\n' :: rest) = some (s :: sts)

/-- The ways to write a line: a pair whose key has no dots, or a header. -/
inductive WritesLine : Statement → List Char → Prop
  | pair {name : String} {v : Value} {w u : List Char} : WritesPart name w → WritesValue v u →
      WritesLine (.pair ⟨[], name⟩ v) (w ++ (" = ".toList ++ u))
  | header {k : KeyPath} {w : List Char} : WritesKey k w → k.parts.length ≤ maxDepth →
      WritesLine (.header k) ('[' :: (w ++ [']']))

/-- **What is written in a line is read back.** -/
theorem says_of_writesLine {s : Statement} {l : List Char} (h : WritesLine s l) : Says l s := by
  cases h with
  | pair hname hv =>
    have hk := WritesKey.last hname
    obtain ⟨c, t, hw, hc⟩ := hk.exists_cons
    refine ⟨⟨c, _, by rw [hw]; rfl, startsLine_of_startsKey hc⟩, fun rest sts hrest => ?_⟩
    rw [List.append_assoc, List.append_assoc]
    have hread := reads_pair hk hv (show 1 ≤ maxDepth by decide) rest
    rw [hw] at hread ⊢
    exact statements?_of_reads (startsLine_of_startsKey hc) hread hrest
  | header hk hdepth =>
    refine ⟨⟨'[', _, rfl, rfl⟩, fun rest sts hrest => ?_⟩
    rw [List.cons_append, List.append_assoc, List.singleton_append]
    exact statements?_of_reads rfl (reads_header hk hdepth) hrest

/-! ## Documents -/

/-- The text with the given lines. -/
def unlines (ls : List (List Char)) : List Char := ls.flatMap (· ++ ['\n'])

theorem statements?_unlines {ls : List (List Char)} {sts : List Statement}
    (h : List.Forall₂ Says ls sts) : statements? (unlines ls) = some sts := by
  induction h with
  | nil => rw [unlines, List.flatMap_nil, statements?]
  | @cons l s ls sts hl _ ih =>
    rw [unlines, List.flatMap_cons, List.append_assoc, List.singleton_append]
    exact hl.read (unlines ls) sts ih

/-- What a line says is not taken for the mark of a byte order. -/
theorem dropByteOrderMark_unlines {ls : List (List Char)} {sts : List Statement}
    (h : List.Forall₂ Says ls sts) : dropByteOrderMark (unlines ls) = unlines ls := by
  cases h with
  | nil => rfl
  | cons hl _ =>
    obtain ⟨c, v, rfl, hc⟩ := hl.starts
    refine dropByteOrderMark.eq_2 _ fun r hr => ?_
    have hmark : c ≠ '\ufeff' := ne_of_apply_ne startsLine (by rw [hc]; decide)
    exact hmark (List.cons.inj hr).1

/-- **A document is what its lines say.** -/
theorem parse?_of_lines {text : String} {ls : List (List Char)} {sts : List Statement}
    (ht : text.toList = unlines ls) (h : List.Forall₂ Says ls sts) :
    parse? text = tableOf? sts := by
  rw [parse?, ht, dropByteOrderMark_unlines h, statements?_unlines h]
  rfl

end DesignGraph.Toml
