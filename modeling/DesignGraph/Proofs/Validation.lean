/-
  Validation — the ids that thresholds are set for.

  Settings that a text describes are taken if all their ids are ids, and are refused on
  account of the least one that is not.  In what order the text names them and which levels
  it gives to them makes no difference.

  * `IsId`: an id has a character and holds no white space; `idFault?_eq_none_iff` and
    `idFault?_of_not_isId`: what is said of an id that is none;
  * `Settings.IsLeastFault`: the first id, by rising id, that is none;
    `Settings.fault?_of_isLeastFault`: it is the one that is reported;
  * `Settings.levelIds`: the ids in a document, in the order in which they stand there;
    `Settings.mem_levels`: the settings that are read off it have these ids;
  * `validation_reports_the_least_fault` is what follows for texts, whatever reads them.
-/
import DesignGraph.Config.Load
import Mathlib.Tactic.SplitIfs

namespace DesignGraph

open Toml (Value)

/-! ## Ids -/

/-- Whether a text is an id: it is not empty and holds no white space. -/
def IsId (id : String) : Prop := id ≠ "" ∧ ∀ c ∈ id.toList, isSpace c = false

instance (id : String) : Decidable (IsId id) := inferInstanceAs (Decidable (_ ∧ _))

theorem not_isId_of_all {id : String} (h : id.toList.all isSpace) : ¬ IsId id := by
  rintro ⟨hne, hid⟩
  rcases hl : id.toList with _ | ⟨c, cs⟩
  · exact hne (String.toList_eq_nil_iff.1 hl)
  · have hc : c ∈ id.toList := hl ▸ List.mem_cons_self
    have hspace := List.all_eq_true.1 h c hc
    rw [hid c hc] at hspace
    cases hspace

/-- **The check of an id finds nothing wrong with ids only.** -/
theorem idFault?_eq_none_iff {id : String} : idFault? id = none ↔ IsId id := by
  unfold idFault?
  constructor
  · intro h
    split_ifs at h with hall hany
    refine ⟨?_, fun c hc => ?_⟩
    · rintro rfl
      exact hall rfl
    · rw [List.any_eq_true] at hany
      exact Bool.eq_false_iff.2 fun hspace => hany ⟨c, hc, hspace⟩
  · intro h
    rw [if_neg fun hall => not_isId_of_all hall h, if_neg]
    rw [List.any_eq_true]
    rintro ⟨c, hc, hspace⟩
    rw [h.2 c hc] at hspace
    cases hspace

/-- What is wrong with a text that is no id. -/
theorem idFault?_of_not_isId {id : String} (h : ¬ IsId id) :
    idFault? id = some (if id.toList.all isSpace then .blank else .spaced id) := by
  rw [← idFault?_eq_none_iff] at h
  unfold idFault? at h ⊢
  split_ifs at h ⊢ <;> first | rfl | exact absurd rfl h

/-- Different faults are reported in different words. -/
theorem IdFault.text_inj {f f' : IdFault} : f.text = f'.text ↔ f = f' := by
  refine ⟨fun h => ?_, congrArg _⟩
  -- The two reports part at their fourth character.
  have hpart (id : String) : IdFault.blank.text ≠ (IdFault.spaced id).text := by
    intro h
    have hl := congrArg String.toList h
    simp only [IdFault.text, String.toList_append] at hl
    exact absurd (congrArg (·[3]?) hl) (by simp)
  rcases f with _ | id <;> rcases f' with _ | id'
  · rfl
  · exact absurd h (hpart id')
  · exact absurd h.symm (hpart id)
  · simp only [IdFault.text, String.append_left_inj, String.append_right_inj] at h
    rw [h]

namespace Settings

/-! ## The least fault -/

/-- What the settings say wrongly first: the least of their ids that are none. -/
structure IsLeastFault (s : Settings) (id : String) : Prop where
  mem : id ∈ s.levels
  fault : ¬ IsId id
  least : ∀ id' ∈ s.levels, ¬ IsId id' → id ≤ id'

theorem IsLeastFault.unique {s : Settings} {id id' : String} (h : s.IsLeastFault id)
    (h' : s.IsLeastFault id') : id = id' :=
  String.le_antisymm (h.least id' h'.mem h'.fault) (h'.least id h.mem h.fault)

theorem pairwise_keys_lt (m : LevelMap) : m.keys.Pairwise (· < ·) :=
  (Std.ExtTreeMap.ordered_keys (t := m)).imp fun h => compareOfLessAndEq_eq_lt.1 h

theorem fault?_eq_none_iff {s : Settings} : s.fault? = none ↔ ∀ id ∈ s.levels, IsId id := by
  simp only [fault?, List.findSome?_eq_none_iff, Std.ExtTreeMap.mem_keys, idFault?_eq_none_iff]

/-- **The scan over the ids stops at the least one that is none.** -/
theorem exists_isLeastFault {s : Settings} {f : IdFault} (h : s.fault? = some f) :
    ∃ id, s.IsLeastFault id ∧ idFault? id = some f := by
  obtain ⟨before, id, after, hkeys, hf, hbefore⟩ := List.findSome?_eq_some_iff.1 h
  have hmem (i : String) : i ∈ s.levels ↔ i ∈ before ∨ i = id ∨ i ∈ after := by
    rw [← Std.ExtTreeMap.mem_keys, hkeys, List.mem_append, List.mem_cons]
  have hrising := pairwise_keys_lt s.levels
  rw [hkeys, List.pairwise_append, List.pairwise_cons] at hrising
  -- The ids before it are faultless, those after it are greater.
  refine ⟨id, ⟨(hmem id).2 (Or.inr (Or.inl rfl)), ?_, fun id' hid' hfault => ?_⟩, hf⟩
  · rw [← idFault?_eq_none_iff, hf]
    exact Option.some_ne_none f
  · rcases (hmem id').1 hid' with hin | rfl | hin
    · exact absurd (idFault?_eq_none_iff.1 (hbefore id' hin)) hfault
    · exact String.le_refl id'
    · exact String.lt_asymm (hrising.2.1.1 id' hin)

theorem fault?_of_isLeastFault {s : Settings} {id : String} (h : s.IsLeastFault id) :
    s.fault? = some (if id.toList.all isSpace then .blank else .spaced id) := by
  rcases hf : s.fault? with _ | f
  · exact absurd (fault?_eq_none_iff.1 hf id h.mem) h.fault
  · obtain ⟨id', hid', hf'⟩ := exists_isLeastFault hf
    rw [← hf', hid'.unique h, idFault?_of_not_isId h.fault]

/-- What is wrong with settings depends on their ids alone. -/
theorem fault?_congr {s s' : Settings} (h : ∀ id, id ∈ s.levels ↔ id ∈ s'.levels) :
    s.fault? = s'.fault? := by
  rcases hf : s.fault? with _ | f
  · exact (fault?_eq_none_iff.2 fun id hid => fault?_eq_none_iff.1 hf id ((h id).2 hid)).symm
  · obtain ⟨id, ⟨hmem, hfault, hleast⟩, hf⟩ := exists_isLeastFault hf
    have hid : s'.IsLeastFault id :=
      ⟨(h id).1 hmem, hfault, fun id' hid' => hleast id' ((h id').2 hid')⟩
    rw [fault?_of_isLeastFault hid, ← idFault?_of_not_isId hfault, hf]

/-! ## The ids in a document -/

/-- The fields in a value that settings may be read off. -/
def fieldsOf : Value → List (String × Value)
  | .table entries => entries
  | .array items => fieldNames.zip items
  | _ => []

/-- The keys of a value, if it is a table. -/
def keysOf : Value → List String
  | .table entries => entries.map Prod.fst
  | _ => []

/-- The ids that a document sets thresholds for, in the order in which they stand there. -/
def levelIds (document : List (String × Value)) : List String :=
  (((document.lookup "log").bind fun log => (fieldsOf log).lookup "levels").map keysOf).getD []

theorem mem_foldlM_levels {entries : List (String × Value)} {m m' : LevelMap}
    (h : entries.foldlM (fun m (id, v) => (level? v).map fun level => m.insert id level) m =
      some m')
    (id : String) : id ∈ m' ↔ id ∈ m ∨ id ∈ entries.map Prod.fst := by
  induction entries generalizing m with
  | nil =>
    cases h
    simp
  | cons e entries ih =>
    obtain ⟨m₁, h₁, h⟩ := Option.bind_eq_some_iff.1 h
    obtain ⟨level, -, rfl⟩ := Option.map_eq_some_iff.1 h₁
    simp only [ih h, Std.ExtTreeMap.mem_insert, Std.LawfulEqCmp.compare_eq_iff_eq, List.map_cons,
      List.mem_cons]
    rw [or_assoc, or_left_comm, eq_comm]

theorem mem_levels? {v : Value} {m : LevelMap} (h : levels? v = some m) (id : String) :
    id ∈ m ↔ id ∈ keysOf v := by
  cases v with
  | table entries => simpa [keysOf] using mem_foldlM_levels h id
  | _ => cases h

/-- **The ids of settings are those in the document.** -/
theorem mem_levels {document : List (String × Value)} {s : Settings}
    (h : ofDocument? document = some s) (id : String) :
    id ∈ s.levels ↔ id ∈ levelIds document := by
  have hentries {entries : List (String × Value)} (h : ofEntries? entries = some s) :
      id ∈ s.levels ↔ id ∈ ((entries.lookup "levels").map keysOf).getD [] := by
    simp only [ofEntries?, Option.bind_eq_bind, Option.bind_eq_some_iff] at h
    obtain ⟨_, -, _, -, _, -, _, -, levels, hlevels, hs⟩ := h
    cases hs
    rw [field?] at hlevels
    rcases hl : entries.lookup "levels" with _ | v
    · rw [hl] at hlevels
      cases hlevels
      simp
    · rw [hl] at hlevels
      exact mem_levels? hlevels id
  rw [ofDocument?, field?] at h
  rw [levelIds]
  rcases hl : document.lookup "log" with _ | v
  · rw [hl] at h
    cases h
    simp [preset]
  · rw [hl] at h
    cases v with
    | table | array | dateTime => exact hentries h
    | _ => cases h

/-! ## Texts -/

section
variable {read : String → Except String Settings} {text : String} {s : Settings}

/-- The settings that are read are checked. -/
theorem parse_of_read (h : read text = .ok s) : parse read text = s.validate := by
  rw [parse, h]
  rfl

theorem validate_eq_ok_iff {s' : Settings} :
    s.validate = .ok s' ↔ (∀ id ∈ s.levels, IsId id) ∧ s' = s := by
  rw [validate, ← fault?_eq_none_iff]
  rcases s.fault? with _ | f
  · simp [eq_comm]
  · simp

theorem parse_eq_ok_iff :
    parse read text = .ok s ↔ read text = .ok s ∧ ∀ id ∈ s.levels, IsId id := by
  rcases h : read text with e | s'
  · rw [parse, h]
    exact iff_of_false (fun h => by cases h) (fun h => by cases h.1)
  · rw [parse_of_read h, validate_eq_ok_iff, Except.ok.injEq]
    constructor
    · rintro ⟨hids, rfl⟩
      exact ⟨rfl, hids⟩
    · rintro ⟨rfl, hids⟩
      exact ⟨hids, rfl⟩

/-- Settings are refused for the fault that is found. -/
theorem validate_of_fault {f : IdFault} (h : s.fault? = some f) :
    s.validate = .error (.validation f.text) := by
  rw [validate, h]

/-- The end that checking comes to depends on the ids alone. -/
theorem validate_congr {s' : Settings} (h : ∀ id, id ∈ s.levels ↔ id ∈ s'.levels) :
    s.validate.map (fun _ => ()) = s'.validate.map (fun _ => ()) := by
  rw [validate, validate, fault?_congr h]
  rcases s'.fault? with _ | f <;> rfl

end

/-- How a text that is read as settings is checked, if `read` reads it. -/
structure Validation (read : String → Except String Settings) (text : String) : Prop where
  /-- The settings are taken if and only if each id has a character and holds no white space. -/
  taken : ∀ s, read text = .ok s →
    (parse read text = .ok s ↔ ∀ id ∈ s.levels, id ≠ "" ∧ ∀ c ∈ id.toList, isSpace c = false)
  /-- Otherwise there is a least id that breaks the rule, and the settings are refused for it. -/
  refused : ∀ s, read text = .ok s → (∀ s', parse read text ≠ .ok s') →
    (∃ id, s.IsLeastFault id) ∧ ∃ reason, parse read text = .error (.validation reason)
  /-- It is said to be empty if and only if it has nothing but white space. -/
  blank : ∀ s id, read text = .ok s → s.IsLeastFault id →
    (parse read text = .error (.validation "log.levels contains an empty log id") ↔
      ∀ c ∈ id.toList, isSpace c = true)
  /-- Otherwise it is named. -/
  spaced : ∀ s id, read text = .ok s → s.IsLeastFault id →
    (parse read text = .error (.validation ("log id '" ++ id ++ "' contains whitespace")) ↔
      ¬ ∀ c ∈ id.toList, isSpace c = true)
  /-- A text that is read as settings is never one that cannot be read. -/
  readable : ∀ s, read text = .ok s → ∀ cause, parse read text ≠ .error (.parse cause)
  /-- Two texts with the same ids come to the same end, whatever the levels of the ids. -/
  ids : ∀ text' s s', read text = .ok s → read text' = .ok s' →
    (∀ id, id ∈ s.levels ↔ id ∈ s'.levels) →
    (parse read text).map (fun _ => ()) = (parse read text').map (fun _ => ())
  /-- So do two documents, whatever the order of the ids. -/
  documents : ∀ text' document document' s s', Toml.parse? text = some document →
    Toml.parse? text' = some document' → ofDocument? document = some s →
    ofDocument? document' = some s' →
    (∀ id, id ∈ levelIds document ↔ id ∈ levelIds document') →
    (parse ofToml text).map (fun _ => ()) = (parse ofToml text').map (fun _ => ())

end Settings

/-- **Settings are checked by their ids alone, and refused for the least one that is none.** -/
theorem validation_reports_the_least_fault (read : String → Except String Settings)
    (text : String) : Settings.Validation read text := by
  have hfault {s : Settings} {id : String} (hs : read text = .ok s) (hid : s.IsLeastFault id)
      (f : IdFault) : Settings.parse read text = .error (.validation f.text) ↔
        (if id.toList.all isSpace then IdFault.blank else .spaced id) = f := by
    rw [Settings.parse_of_read hs, Settings.validate_of_fault (Settings.fault?_of_isLeastFault hid)]
    simp only [Except.error.injEq, ConfigError.validation.injEq, IdFault.text_inj]
  refine ⟨?_, ?_, ?_, ?_, ?_, ?_, ?_⟩
  · intro s hs
    rw [Settings.parse_eq_ok_iff, and_iff_right hs]
    rfl
  · intro s hs hok
    rw [Settings.parse_of_read hs] at hok ⊢
    rcases hf : s.fault? with _ | f
    · exact absurd (Settings.validate_eq_ok_iff.2 ⟨Settings.fault?_eq_none_iff.1 hf, rfl⟩) (hok s)
    · obtain ⟨id, hid, -⟩ := Settings.exists_isLeastFault hf
      exact ⟨⟨id, hid⟩, f.text, Settings.validate_of_fault hf⟩
  · intro s id hs hid
    refine (hfault hs hid .blank).trans ?_
    rw [← List.all_eq_true]
    split <;> simp_all
  · intro s id hs hid
    refine (hfault hs hid (.spaced id)).trans ?_
    rw [← List.all_eq_true]
    split <;> simp_all
  · intro s hs cause
    rw [Settings.parse_of_read hs, Settings.validate]
    rcases s.fault? with _ | f <;> simp
  · intro text' s s' hs hs' hids
    rw [Settings.parse_of_read hs, Settings.parse_of_read hs', Settings.validate_congr hids]
  · intro text' document document' s s' hd hd' hs hs' hids
    have h : Settings.ofToml text = .ok s := Settings.ofToml_eq_ok_iff.2 ⟨document, hd, hs⟩
    have h' : Settings.ofToml text' = .ok s' := Settings.ofToml_eq_ok_iff.2 ⟨document', hd', hs'⟩
    have hmem (id : String) : id ∈ s.levels ↔ id ∈ s'.levels := by
      rw [Settings.mem_levels hs, Settings.mem_levels hs', hids]
    rw [Settings.parse_of_read h, Settings.parse_of_read h', Settings.validate_congr hmem]

/-- Of two ids that are none the lesser is reported: the one with a space between letters comes
    before the one that is an ideographic space. -/
example : (match Settings.parse Settings.ofToml
      "[log.levels]\n\"\\u3000\" = \"info\"\n\"DO New\" = \"debug\"\n" with
    | .error e => e.message
    | .ok _ => "") = "validation error: log id 'DO New' contains whitespace" := by
  decide +kernel

end DesignGraph
