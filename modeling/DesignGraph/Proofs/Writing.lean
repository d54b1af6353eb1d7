/-
  Writing — settings in a text, and back.

  Whatever is chosen of the settings, there is a text that says so, and each such text is
  read back as what was chosen.  A text has a table of fields and a table of levels.  Either
  may come first and either may be left out if it is empty, the lines of both stand in any
  order, and the ids are spelled in any way.

  * `Settings.Choice`: what is given of the settings; `Choice.settings`: the settings that
    it stands for;
  * `Choice.Writes`: the texts that say it; `Choice.exists_writes`: there is one;
  * `Choice.FieldSections` and `Choice.LevelSections`: the sections of such a text;
    `Choice.consistent`: they do not contradict each other;
  * `Choice.isDocument_of_describes`: what they describe is a document of the settings;
    `Choice.exists_denotes`: the text denotes such a document;
  * `settings_are_read_back` is what follows for what reads documents off texts.
-/
import DesignGraph.Proofs.Decoding
import DesignGraph.Proofs.Validation

namespace DesignGraph

open Toml (Value)

namespace Settings

/-! ## Choices -/

/-- What is given of the settings. -/
structure Choice where
  defaultLevel : Option Level
  lineNumbers : Option Bool
  color : Option Bool
  echo : Option Bool
  levels : LevelMap
  /-- Thresholds are set for ids. -/
  ids : ∀ id ∈ levels, IsId id

namespace Choice

/-- The settings with the given parts, as they are by default in all others. -/
def settings (c : Choice) : Settings where
  defaultLevel := c.defaultLevel.getD preset.defaultLevel
  lineNumbers := c.lineNumbers.getD preset.lineNumbers
  color := c.color.getD preset.color
  echo := c.echo.getD preset.echo
  levels := c.levels

/-! ## Texts -/

/-- The lines of the table of fields. -/
def fieldLines (c : Choice) : List String :=
  (c.defaultLevel.map fun level => "default = \"" ++ level.text ++ "\"").toList ++
  (c.lineNumbers.map fun b => "linenumbers = " ++ toString b).toList ++
  (c.color.map fun b => "color = " ++ toString b).toList ++
  (c.echo.map fun b => "echo = " ++ toString b).toList

/-- The ways to write the line of an id and its level: the id is spelled in quotation marks. -/
def WritesLevel (line : String) (e : String × Level) : Prop :=
  ∃ t, Toml.SpellsText e.1.toList t ∧
    line = "\"" ++ String.ofList t ++ "\" = \"" ++ e.2.text ++ "\""

/-- The ways to write the table of fields. -/
inductive WritesFields (c : Choice) : List String → Prop
  | omitted : c.fieldLines = [] → WritesFields c []
  | table {lines : List String} : lines.Perm c.fieldLines → WritesFields c ("[log]" :: lines)

/-- The ways to write the table of levels. -/
inductive WritesLevels (c : Choice) : List String → Prop
  | omitted : c.levels = ∅ → WritesLevels c []
  | table {lines : List String} {entries : List (String × Level)} :
      entries.Perm c.levels.toList → List.Forall₂ WritesLevel lines entries →
      WritesLevels c ("[log.levels]" :: lines)

/-- The text with the given lines. -/
def textOf (lines : List String) : String := String.join (lines.map (· ++ "\n"))

/-- The ways to write a choice: the two tables, one after the other. -/
def Writes (c : Choice) (text : String) : Prop :=
  ∃ fields levels, c.WritesFields fields ∧ c.WritesLevels levels ∧
    (text = textOf (fields ++ levels) ∨ text = textOf (levels ++ fields))

theorem exists_writesLevels (entries : List (String × Level)) :
    ∃ lines, List.Forall₂ WritesLevel lines entries := by
  induction entries with
  | nil => exact ⟨[], .nil⟩
  | cons e entries ih =>
    obtain ⟨t, ht⟩ := Toml.exists_spellsText e.1.toList
    obtain ⟨lines, hlines⟩ := ih
    exact ⟨_ :: lines, .cons ⟨t, ht, rfl⟩ hlines⟩

/-- **Each choice can be written.** -/
theorem exists_writes (c : Choice) : ∃ text, c.Writes text := by
  obtain ⟨lines, hlines⟩ := exists_writesLevels c.levels.toList
  exact ⟨_, _, _, .table (List.Perm.refl _), .table (List.Perm.refl _) hlines, Or.inl rfl⟩

/-! ## Sections -/

/-- A field, if it is given. -/
def given (name : String) (v : Option Value) : List (String × Value) := (v.map (name, ·)).toList

/-- The fields that are given. -/
def fields (c : Choice) : List (String × Value) :=
  given "default" (c.defaultLevel.map (.string ·.text)) ++
  given "linenumbers" (c.lineNumbers.map .boolean) ++
  given "color" (c.color.map .boolean) ++ given "echo" (c.echo.map .boolean)

/-- The pair of an id and its level. -/
def levelPair (e : String × Level) : String × Value := (e.1, .string e.2.text)

/-- The key of the table of fields. -/
def fieldsKey : Toml.KeyPath := ⟨[], "log"⟩

/-- The key of the table of levels. -/
def levelsKey : Toml.KeyPath := ⟨["log"], "levels"⟩

/-- The sections of the fields that are given. -/
inductive FieldSections (c : Choice) : List Toml.Section → Prop
  | omitted : c.fields = [] → FieldSections c []
  | table {fs : List (String × Value)} : fs.Perm c.fields → FieldSections c [⟨fieldsKey, fs⟩]

/-- The sections of the levels. -/
inductive LevelSections (c : Choice) : List Toml.Section → Prop
  | omitted : c.levels = ∅ → LevelSections c []
  | table {ls : List (String × Level)} : ls.Perm c.levels.toList →
      LevelSections c [⟨levelsKey, ls.map levelPair⟩]

theorem lookup_given (key name : String) (v : Option Value) :
    (given name v).lookup key = if key = name then v else none := by
  cases v with
  | none => simp [given]
  | some v =>
    by_cases h : key = name
    · simp [given, h]
    · simp [given, List.lookup_cons, beq_eq_false_iff_ne.2 h, h]

theorem keys_given (name : String) (v : Option Value) :
    List.Sublist ((given name v).map Prod.fst) [name] := by
  cases v with
  | none => exact List.nil_sublist [name]
  | some v => exact List.Sublist.refl [name]

/-- Each field is given once, and none of them is the table of levels. -/
theorem sublist_keys_fields (c : Choice) :
    List.Sublist (c.fields.map Prod.fst) ["default", "linenumbers", "color", "echo"] := by
  simp only [fields, List.map_append]
  exact (((keys_given ..).append (keys_given ..)).append (keys_given ..)).append (keys_given ..)

theorem nodup_fields (c : Choice) : (c.fields.map Prod.fst).Nodup :=
  c.sublist_keys_fields.nodup (by decide)

theorem ne_levels_of_mem_fields {c : Choice} {e : String × Value} (h : e ∈ c.fields) :
    e.1 ≠ "levels" := by
  have hname := c.sublist_keys_fields.subset (List.mem_map.2 ⟨e, h, rfl⟩)
  exact ne_of_mem_of_not_mem hname (by decide)

theorem isScalar_of_mem_fields {c : Choice} {e : String × Value} (h : e ∈ c.fields) :
    e.2.IsScalar := by
  simp only [fields, given, List.mem_append, Option.mem_toList, Option.map_eq_some_iff] at h
  rcases h with ((⟨_, ⟨_, _, rfl⟩, rfl⟩ | ⟨_, ⟨_, _, rfl⟩, rfl⟩) | ⟨_, ⟨_, _, rfl⟩, rfl⟩) |
    ⟨_, ⟨_, _, rfl⟩, rfl⟩ <;> trivial

theorem nodup_levelPairs {c : Choice} {ls : List (String × Level)} (h : ls.Perm c.levels.toList) :
    ((ls.map levelPair).map Prod.fst).Nodup := by
  rw [List.map_map]
  show (ls.map Prod.fst).Nodup
  rw [(h.map Prod.fst).nodup_iff, Std.ExtTreeMap.map_fst_toList_eq_keys]
  exact (pairwise_keys_lt c.levels).imp String.ne_of_lt

section
variable {c : Choice} {fs ls : List Toml.Section} {path : List String} {v : Value}

theorem mem_values_fieldSections (h : c.FieldSections fs) :
    (path, v) ∈ fs.flatMap Toml.Section.values ↔
      ∃ name, path = ["log", name] ∧ (name, v) ∈ c.fields := by
  cases h with
  | omitted hnone => simp [hnone]
  | table hfs =>
    rw [List.flatMap_singleton, Toml.Section.values, List.mem_map]
    constructor
    · rintro ⟨e, he, heq⟩
      cases heq
      exact ⟨e.1, rfl, hfs.mem_iff.1 he⟩
    · rintro ⟨name, rfl, hmem⟩
      exact ⟨(name, v), hfs.mem_iff.2 hmem, rfl⟩

theorem mem_values_levelSections (h : c.LevelSections ls) :
    (path, v) ∈ ls.flatMap Toml.Section.values ↔
      ∃ id level, path = ["log", "levels", id] ∧ v = .string level.text ∧
        c.levels[id]? = some level := by
  cases h with
  | omitted hnone => simp [hnone]
  | table hls =>
    rw [List.flatMap_singleton, Toml.Section.values, List.map_map, List.mem_map]
    constructor
    · rintro ⟨e, he, heq⟩
      cases heq
      exact ⟨e.1, e.2, rfl, rfl,
        Std.ExtTreeMap.mem_toList_iff_getElem?_eq_some.1 (hls.mem_iff.1 he)⟩
    · rintro ⟨id, level, rfl, rfl, hid⟩
      exact ⟨(id, level),
        hls.mem_iff.2 (Std.ExtTreeMap.mem_toList_iff_getElem?_eq_some.2 hid), rfl⟩

/-- The values of a text: the fields, and the levels. -/
theorem mem_values_iff (hfs : c.FieldSections fs) (hls : c.LevelSections ls) :
    (path, v) ∈ (Toml.outlineOf (fs ++ ls)).values ↔
      (∃ name, path = ["log", name] ∧ (name, v) ∈ c.fields) ∨
      ∃ id level, path = ["log", "levels", id] ∧ v = .string level.text ∧
        c.levels[id]? = some level := by
  rw [Toml.outlineOf, List.flatMap_append, List.mem_append, mem_values_fieldSections hfs,
    mem_values_levelSections hls]

/-- The tables of a text. -/
theorem sublist_tables (hfs : c.FieldSections fs) (hls : c.LevelSections ls) :
    List.Sublist (fs.map (·.key.parts)) [["log"]] ∧
      List.Sublist (ls.map (·.key.parts)) [["log", "levels"]] := by
  constructor
  · cases hfs
    · exact List.nil_sublist _
    · exact List.Sublist.refl _
  · cases hls
    · exact List.nil_sublist _
    · exact List.Sublist.refl _

theorem eq_of_isTable (hfs : c.FieldSections fs) (hls : c.LevelSections ls)
    (h : (Toml.outlineOf (fs ++ ls)).IsTable path) :
    path = [] ∨ path = ["log"] ∨ path = ["log", "levels"] ∧ ls ≠ [] := by
  obtain ⟨hfields, hlevels⟩ := sublist_tables hfs hls
  obtain ⟨table, htable, hpath⟩ := h
  rw [Toml.outlineOf, List.map_append, List.mem_cons, List.mem_append] at htable
  rcases htable with rfl | hmem | hmem
  · exact Or.inl (List.prefix_nil.1 hpath)
  · rw [List.mem_singleton.1 (hfields.subset hmem)] at hpath
    rcases List.prefix_concat_iff.1 (show path <+: [] ++ ["log"] from hpath) with rfl | hpath
    · exact Or.inr (Or.inl rfl)
    · exact Or.inl (List.prefix_nil.1 hpath)
  · have hls : ls ≠ [] := List.ne_nil_of_mem (List.mem_map.1 hmem).choose_spec.1
    rw [List.mem_singleton.1 (hlevels.subset hmem)] at hpath
    have hlevels : path <+: ["log"] ++ ["levels"] := hpath
    rcases List.prefix_concat_iff.1 hlevels with rfl | hpath
    · exact Or.inr (Or.inr ⟨rfl, hls⟩)
    rcases List.prefix_concat_iff.1 (show path <+: [] ++ ["log"] from hpath) with rfl | hpath
    · exact Or.inr (Or.inl rfl)
    · exact Or.inl (List.prefix_nil.1 hpath)

/-- **What a text says does not contradict itself.** -/
theorem consistent (hfs : c.FieldSections fs) (hls : c.LevelSections ls) :
    (Toml.outlineOf (fs ++ ls)).Consistent := by
  refine ⟨?_, ?_, fun e he htable => ?_, fun e he => ?_⟩
  · obtain ⟨hfields, hlevels⟩ := sublist_tables hfs hls
    have htables : List.Sublist ([] :: (fs ++ ls).map (·.key.parts))
        ([] :: ([["log"]] ++ [["log", "levels"]])) := by
      rw [List.map_append]
      exact (hfields.append hlevels).cons_cons []
    exact htables.nodup (by decide)
  · rw [Toml.outlineOf, List.flatMap_append, List.map_append, List.nodup_append]
    refine ⟨?_, ?_, fun path hfield path' hlevel => ?_⟩
    · cases hfs with
      | omitted => exact List.nodup_nil
      | table hfs =>
        rw [List.flatMap_singleton]
        exact Toml.Section.nodup_values ((hfs.map Prod.fst).nodup_iff.2 c.nodup_fields)
    · cases hls with
      | omitted => exact List.nodup_nil
      | table hls =>
        rw [List.flatMap_singleton]
        exact Toml.Section.nodup_values (nodup_levelPairs hls)
    · obtain ⟨e, he, rfl⟩ := List.mem_map.1 hfield
      obtain ⟨e', he', rfl⟩ := List.mem_map.1 hlevel
      obtain ⟨name, hname, -⟩ := (mem_values_fieldSections hfs).1 he
      obtain ⟨id, level, hid, -⟩ := (mem_values_levelSections hls).1 he'
      rw [hname, hid]
      exact fun heq => by cases heq
  · rcases (mem_values_iff hfs hls).1 he with ⟨name, hname, hmem⟩ | ⟨id, level, hid, -, -⟩
    · rcases eq_of_isTable hfs hls htable with h | h | ⟨h, -⟩
      · cases hname.symm.trans h
      · cases hname.symm.trans h
      · rw [hname] at h
        cases h
        exact ne_levels_of_mem_fields hmem rfl
    · rcases eq_of_isTable hfs hls htable with h | h | ⟨h, -⟩ <;> cases hid.symm.trans h
  · rcases (mem_values_iff hfs hls).1 he with ⟨name, -, hmem⟩ | ⟨id, level, -, hvalue, -⟩
    · exact isScalar_of_mem_fields hmem
    · rw [hvalue]
      trivial

end

/-! ## Documents -/

/-- What a table says of a field that is given or not. -/
theorem isField_of_lookup {α : Type} {Is : Value → α → Prop} {preset : α} {write : α → Value}
    {es : List (String × Value)} {name : String} {a : Option α} (hwrite : ∀ a, Is (write a) a)
    (h : es.lookup name = a.map write) : IsField Is preset es name (a.getD preset) := by
  rw [IsField, h]
  cases a with
  | none => rfl
  | some a => exact hwrite a

/-- **A table of the fields that are given, and of the levels, says the settings.** -/
theorem isTable_of_lookup {c : Choice} {es : List (String × Value)}
    (hfields : ∀ name, name ≠ "levels" → es.lookup name = c.fields.lookup name)
    (hlevels : IsField IsLevelMap ∅ es "levels" c.levels) : IsTable es c.settings := by
  simp only [fields, List.lookup_append, lookup_given] at hfields
  have hlevel (l : Level) : IsLevel (.string l.text) l := rfl
  have hflag (b : Bool) : IsFlag (.boolean b) b := rfl
  refine ⟨isField_of_lookup hlevel ?_, isField_of_lookup hflag ?_, isField_of_lookup hflag ?_,
    isField_of_lookup hflag ?_, hlevels⟩
  · simpa using hfields "default" (by decide)
  · simpa using hfields "linenumbers" (by decide)
  · simpa using hfields "color" (by decide)
  · simpa using hfields "echo" (by decide)

/-- A table without fields says no more than no table at all. -/
theorem eq_preset_of_isTable_nil {s : Settings} (h : IsTable [] s) : s = preset := by
  obtain ⟨level, numbers, color, echo, levels⟩ := s
  obtain ⟨rfl, rfl, rfl, rfl, rfl⟩ := h
  rfl

section
variable {c : Choice} {fs ls : List Toml.Section} {root es : List (String × Value)}

/-- The levels in what a text describes. -/
theorem isField_levels (hfs : c.FieldSections fs) (hls : c.LevelSections ls)
    (h : (Toml.outlineOf (fs ++ ls)).Describes root)
    (hlog : (Value.table root).at? ["log"] = some (.table es)) :
    IsField IsLevelMap ∅ es "levels" c.levels := by
  have hlevels : (Value.table root).at? ["log", "levels"] = es.lookup "levels" :=
    Value.at?_concat_of_table hlog "levels"
  rw [IsField]
  rcases hv : es.lookup "levels" with _ | v <;> rw [hv] at hlevels
  · cases hls with
    | omitted hnone => exact hnone
    | table hls =>
      obtain ⟨es', hes'⟩ := h.table ["log", "levels"] (.of_mem (by
        simp [Toml.outlineOf, levelsKey, Toml.KeyPath.parts]))
      rw [hlevels] at hes'
      cases hes'
  · rcases h.only _ v hlevels with hmem | ⟨-, lv, rfl⟩
    · rcases (mem_values_iff hfs hls).1 hmem with ⟨name, hname, hmem⟩ | ⟨id, level, hid, -⟩
      · cases hname
        exact absurd rfl (ne_levels_of_mem_fields hmem)
      · cases hid
    refine ⟨lv, rfl, fun id => ?_⟩
    have hid (u : Value) : lv.lookup id = some u ↔
        ∃ level, u = .string level.text ∧ c.levels[id]? = some level := by
      have hno : ¬ (Toml.outlineOf (fs ++ ls)).IsTable ["log", "levels", id] := fun htable => by
        rcases eq_of_isTable hfs hls htable with h | h | ⟨h, -⟩ <;> cases h
      rw [← Value.at?_concat_of_table hlevels id]
      refine (h.at?_eq_some_iff hno).trans ((mem_values_iff hfs hls).trans ?_)
      simp
    rcases hlevel : c.levels[id]? with _ | level
    · rw [hlevel] at hid
      have hnone : lv.lookup id = none :=
        Option.eq_none_iff_forall_ne_some.2 fun u hu => by simpa using (hid u).1 hu
      rw [hnone]
      exact .none
    · rw [(hid _).2 ⟨level, rfl, hlevel⟩]
      exact .some rfl

/-- **What a text describes is a document of the settings.** -/
theorem isDocument_of_describes (hfs : c.FieldSections fs) (hls : c.LevelSections ls)
    (h : (Toml.outlineOf (fs ++ ls)).Describes root) : IsDocument root c.settings := by
  have hlog : (Value.table root).at? ["log"] = root.lookup "log" := Value.at?_singleton _ _
  rw [IsDocument, IsField]
  rcases hv : root.lookup "log" with _ | v <;> rw [hv] at hlog
  · -- Without a table there is nothing that is given.
    have hno (key : Toml.KeyPath) (hkey : ["log"] <+: key.parts) :
        key.parts ∉ (Toml.outlineOf (fs ++ ls)).tables := fun hmem => by
      obtain ⟨es, hes⟩ := h.table ["log"] ⟨_, hmem, hkey⟩
      rw [hlog] at hes
      cases hes
    have hfields : c.fields = [] := by
      cases hfs with
      | omitted hnone => exact hnone
      | table => exact absurd (by simp [Toml.outlineOf]) (hno fieldsKey (by decide))
    have hlevels : c.levels = ∅ := by
      cases hls with
      | omitted hnone => exact hnone
      | table => exact absurd (by simp [Toml.outlineOf]) (hno levelsKey (by decide))
    exact eq_preset_of_isTable_nil (isTable_of_lookup (fun _ _ => by rw [hfields]) hlevels)
  · rcases h.only _ v hlog with hmem | ⟨-, es, rfl⟩
    · rcases (mem_values_iff hfs hls).1 hmem with ⟨name, hname, -⟩ | ⟨id, level, hid, -⟩
      · cases hname
      · cases hid
    refine ⟨es, rfl, isTable_of_lookup (fun name hname => ?_) (isField_levels hfs hls h hlog)⟩
    have hno : ¬ (Toml.outlineOf (fs ++ ls)).IsTable ["log", name] := fun htable => by
      rcases eq_of_isTable hfs hls htable with h | h | ⟨h, -⟩ <;> cases h
      exact hname rfl
    ext u
    rw [← Value.at?_concat_of_table hlog name, Toml.lookup_eq_some_iff_mem c.nodup_fields]
    refine (h.at?_eq_some_iff hno).trans ((mem_values_iff hfs hls).trans ?_)
    simp

end

/-! ## Reading -/

/-- Whether a line is written for a pair. -/
def WritesPair (line : String) (p : String × Value) : Prop :=
  Toml.WritesLine (.pair ⟨[], p.1⟩ p.2) line.toList

theorem writesPair {line name : String} {v : Value} {w u : List Char}
    (hname : Toml.WritesPart name w) (hv : Toml.WritesValue v u)
    (hline : line.toList = w ++ (" = ".toList ++ u)) : WritesPair line (name, v) := by
  rw [WritesPair, hline]
  exact .pair hname hv

theorem writesValue_level (l : Level) :
    Toml.WritesValue (.string l.text) ('"' :: (l.text.toList ++ ['"'])) :=
  .string (Toml.spellsText_self (by cases l <;> decide))

theorem forall₂_given {α : Type} {R : String → String × Value → Prop} {line : α → String}
    {name : String} {write : α → Value} (h : ∀ a, R (line a) (name, write a)) (v : Option α) :
    List.Forall₂ R (v.map line).toList (given name (v.map write)) := by
  cases v with
  | none => exact .nil
  | some a => exact .cons (h a) .nil

/-- The lines of the table of fields are written for the fields. -/
theorem forall₂_fields (c : Choice) : List.Forall₂ WritesPair c.fieldLines c.fields := by
  have hdefault (l : Level) :
      WritesPair ("default = \"" ++ l.text ++ "\"") ("default", .string l.text) :=
    writesPair (.bare (by decide) (by decide)) (writesValue_level l) (by cases l <;> rfl)
  have hnumbers (b : Bool) :
      WritesPair ("linenumbers = " ++ toString b) ("linenumbers", .boolean b) :=
    writesPair (.bare (by decide) (by decide)) (.boolean b) (by cases b <;> rfl)
  have hcolor (b : Bool) : WritesPair ("color = " ++ toString b) ("color", .boolean b) :=
    writesPair (.bare (by decide) (by decide)) (.boolean b) (by cases b <;> rfl)
  have hecho (b : Bool) : WritesPair ("echo = " ++ toString b) ("echo", .boolean b) :=
    writesPair (.bare (by decide) (by decide)) (.boolean b) (by cases b <;> rfl)
  exact List.rel_append (List.rel_append (List.rel_append (forall₂_given hdefault _)
    (forall₂_given hnumbers _)) (forall₂_given hcolor _)) (forall₂_given hecho _)

/-- The line of an id and its level is written for them. -/
theorem writesPair_of_writesLevel {line : String} {e : String × Level} (h : WritesLevel line e) :
    WritesPair line (levelPair e) := by
  obtain ⟨t, ht, rfl⟩ := h
  refine writesPair (.quoted ht) (writesValue_level e.2) ?_
  have hmark : "\"".toList = ['"'] := rfl
  have hmiddle : "\" = \"".toList = ['"'] ++ (" = ".toList ++ ['"']) := rfl
  simp only [String.toList_append, String.toList_ofList, hmark, hmiddle, List.append_assoc,
    List.cons_append, List.nil_append]

/-- The lines are written for the sections. -/
def WritesSections (ss : List Toml.Section) (lines : List String) : Prop :=
  List.Forall₂ Toml.WritesLine (ss.flatMap Toml.Section.statements) (lines.map String.toList)

theorem writesSections_singleton {header : String} {lines : List String} {key : Toml.KeyPath}
    {kvs : List (String × Value)} (hheader : Toml.WritesLine (.header key) header.toList)
    (hlines : List.Forall₂ WritesPair lines kvs) :
    WritesSections [⟨key, kvs⟩] (header :: lines) := by
  rw [WritesSections, List.flatMap_singleton, Toml.Section.statements, List.map_cons]
  refine .cons hheader ?_
  rw [List.forall₂_map_left_iff, List.forall₂_map_right_iff]
  exact hlines.flip

theorem WritesSections.append {ss ss' : List Toml.Section} {lines lines' : List String}
    (h : WritesSections ss lines) (h' : WritesSections ss' lines') :
    WritesSections (ss ++ ss') (lines ++ lines') := by
  rw [WritesSections, List.flatMap_append, List.map_append]
  exact List.rel_append h h'

theorem exists_fieldSections {c : Choice} {lines : List String} (h : c.WritesFields lines) :
    ∃ fs, c.FieldSections fs ∧ WritesSections fs lines := by
  cases h with
  | omitted hnone =>
    have hfields := c.forall₂_fields
    rw [hnone] at hfields
    exact ⟨[], .omitted (List.forall₂_nil_left_iff.1 hfields), .nil⟩
  | @table lines hlines =>
    obtain ⟨fs, hpairs, hfs⟩ := List.perm_comp_forall₂ hlines c.forall₂_fields
    have hheader : Toml.WritesLine (.header fieldsKey) "[log]".toList :=
      .header (w := "log".toList) (.last (.bare (by decide) (by decide))) (by decide)
    exact ⟨_, .table hfs, writesSections_singleton hheader hpairs⟩

theorem exists_levelSections {c : Choice} {lines : List String} (h : c.WritesLevels lines) :
    ∃ ls, c.LevelSections ls ∧ WritesSections ls lines := by
  cases h with
  | omitted hnone => exact ⟨[], .omitted hnone, .nil⟩
  | @table lines ls hls hlines =>
    have hheader : Toml.WritesLine (.header levelsKey) "[log.levels]".toList :=
      .header (w := "log".toList ++ '.' :: "levels".toList)
        (.more (.bare (by decide) (by decide)) (.last (.bare (by decide) (by decide)))) (by decide)
    refine ⟨_, .table hls, writesSections_singleton hheader ?_⟩
    rw [List.forall₂_map_right_iff]
    exact hlines.imp fun _ _ => writesPair_of_writesLevel

theorem toList_textOf (lines : List String) :
    (textOf lines).toList = Toml.unlines (lines.map String.toList) := by
  rw [textOf, String.toList_join, Toml.unlines, List.flatMap_map, List.flatMap_map]
  exact congrArg (List.flatMap · lines) (funext fun l => String.toList_append)

/-- **A text that says a choice denotes a document of its settings.** -/
theorem exists_denotes {c : Choice} {text : String} (h : c.Writes text) :
    ∃ root, Toml.Denotes text root ∧ IsDocument root c.settings := by
  obtain ⟨fields, levels, hfields, hlevels, htext⟩ := h
  obtain ⟨fs, hfs, hfields⟩ := exists_fieldSections hfields
  obtain ⟨ls, hls, hlevels⟩ := exists_levelSections hlevels
  -- The sections of the levels may come first.
  obtain ⟨ss, lines, hperm, hlines, rfl⟩ : ∃ ss lines, (fs ++ ls).Perm ss ∧
      WritesSections ss lines ∧ text = textOf lines := by
    rcases htext with htext | htext
    · exact ⟨_, _, List.Perm.refl _, hfields.append hlevels, htext⟩
    · exact ⟨_, _, List.perm_append_comm, hlevels.append hfields, htext⟩
  obtain ⟨htables, hvalues⟩ := Toml.perm_outlineOf hperm
  have hc := (consistent hfs hls).of_perm htables hvalues
  obtain ⟨root, -, hroot⟩ := Toml.exists_describes hc
  exact ⟨root, ⟨ss, _, hlines, toList_textOf lines, hc, hroot⟩,
    isDocument_of_describes hfs hls (hroot.of_perm htables.symm hvalues.symm)⟩

end Choice

/-! ## Written settings -/

/-- What becomes of a choice of settings that is written down, and read by `read`. -/
structure Written (read : String → Except String Settings) (c : Choice) : Prop where
  /-- It can be written. -/
  written : ∃ text, c.Writes text
  /-- Each text that says it is taken, and read as what is given, with the defaults for the
      rest. -/
  taken : ∀ text, c.Writes text → parse read text = .ok {
    defaultLevel := c.defaultLevel.getD preset.defaultLevel
    lineNumbers := c.lineNumbers.getD preset.lineNumbers
    color := c.color.getD preset.color
    echo := c.echo.getD preset.echo
    levels := c.levels }
  /-- The logger that is made of it has the threshold of an id that has one, and the default
      level for all others. -/
  threshold : ∀ text s id, c.Writes text → parse read text = .ok s →
    s.logger.threshold id = c.levels[id]?.getD (c.defaultLevel.getD preset.defaultLevel)

end Settings

/-- **Settings can be written down, and are read back however they are written.** -/
theorem settings_are_read_back {read : String → Except String Settings}
    (hread : Settings.IsReader read) (c : Settings.Choice) : Settings.Written read c := by
  have hparse (text : String) (h : c.Writes text) : Settings.parse read text = .ok c.settings := by
    obtain ⟨root, htext, hroot⟩ := Settings.Choice.exists_denotes h
    exact Settings.parse_eq_ok_iff.2 ⟨hread.read_of_denotes text root _ htext hroot, c.ids⟩
  refine ⟨c.exists_writes, hparse, ?_⟩
  intro text s id h hs
  rw [hparse text h] at hs
  cases hs
  rw [Logger.threshold, Settings.overrides_logger, Settings.defaultLevel_logger]
  exact Std.ExtTreeMap.getD_eq_getD_getElem?

/-- An id of a quotation mark and a backslash is among those that are read back from TOML. -/
theorem toml_is_read_back : Settings.IsReader Settings.ofToml ∧
    Settings.Written Settings.ofToml {
      defaultLevel := none
      lineNumbers := none
      color := some false
      echo := none
      levels := (∅ : LevelMap).insert "\"DO\\" .error
      ids := by simp +contextual [IsId]; decide } :=
  ⟨Settings.isReader_ofToml, settings_are_read_back Settings.isReader_ofToml _⟩

/-- The table in which the levels stand comes last, and one of the ids is spelled. -/
example : (Settings.parse Settings.ofToml
      ("[log.levels]\n\"OStAt\" = \"info\"\n\"\\u0022DO\\\\\" = \"error\"\n" ++
        "[log]\ncolor = false\n")).toOption.map
      (fun s => (s.defaultLevel, s.color, s.echo, s.levels.toList)) =
    some (.debug, false, true, [("\"DO\\", .error), ("OStAt", .info)]) := by
  decide +kernel

end DesignGraph
