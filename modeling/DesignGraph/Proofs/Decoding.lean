/-
  Decoding — what a document says of the settings.

  What a table says of a field is what stands under its name, and is a default of the field if
  there is nothing.  Keys that are no names of fields say nothing.

  * `IsLevel`, `IsFlag` and `IsLevelMap`: what values of the fields are written as;
    `IsField`: what a table says of a field;
  * `Settings.IsTable` and `Settings.IsDocument`: what a table, and a document, say of the
    settings;
  * `Settings.IsReader`: what is relied on of what reads settings off texts;
  * `Settings.isReader_ofToml`: it holds of `Settings.ofToml`.
-/
import DesignGraph.Config.Settings
import DesignGraph.Proofs.Drafts

namespace DesignGraph

open Toml (Value)

/-! ## Fields -/

/-- A level stands in a table by its name. -/
def IsLevel (v : Value) (level : Level) : Prop := v = .string level.text

/-- A switch stands in a table as a truth value. -/
def IsFlag (v : Value) (b : Bool) : Prop := v = .boolean b

/-- Levels by id stand in a table of their own, under their ids. -/
def IsLevelMap (v : Value) (m : LevelMap) : Prop :=
  ∃ es, v = .table es ∧ ∀ id, Option.Rel IsLevel (es.lookup id) m[id]?

/-- What a table says of a field: what stands under its name, or else that it has the default
    `preset`.  `Is` says how the values of the field are written. -/
def IsField {α : Type} (Is : Value → α → Prop) (preset : α) (es : List (String × Value))
    (name : String) (a : α) : Prop :=
  match es.lookup name with
  | some v => Is v a
  | none => a = preset

namespace Settings

/-- What a table says of the settings. -/
structure IsTable (es : List (String × Value)) (s : Settings) : Prop where
  defaultLevel : IsField IsLevel presetLevel es "default" s.defaultLevel
  lineNumbers : IsField IsFlag default es "linenumbers" s.lineNumbers
  color : IsField IsFlag presetOn es "color" s.color
  echo : IsField IsFlag presetOn es "echo" s.echo
  levels : IsField IsLevelMap ∅ es "levels" s.levels

/-- What a document says of the settings. -/
def IsDocument (root : List (String × Value)) (s : Settings) : Prop :=
  IsField (fun v s => ∃ es, v = .table es ∧ IsTable es s) preset root "log" s

/-- What is relied on of a reader: it reads what a document says off a text that denotes it. -/
structure IsReader (read : String → Except String Settings) : Prop where
  read_of_denotes : ∀ text root s, Toml.Denotes text root → IsDocument root s → read text = .ok s

end Settings

/-! ## Readers of fields -/

section
variable {es es' : List (String × Value)} {v v' : Value}

theorem level?_of_isLevel {level : Level} (h : IsLevel v level) :
    Settings.level? v = some level := by
  rw [h, Settings.level?, Level.ofText?_text]

theorem flag?_of_isFlag {b : Bool} (h : IsFlag v b) : Settings.flag? v = some b := by
  rw [h, Settings.flag?]

theorem IsLevel.of_alike {level : Level} (h : IsLevel v level) (hv : Value.Alike v v') :
    IsLevel v' level := by
  rw [h] at hv
  exact hv.eq_of_not_table fun es hes => by cases hes

theorem IsFlag.of_alike {b : Bool} (h : IsFlag v b) (hv : Value.Alike v v') : IsFlag v' b := by
  rw [h] at hv
  exact hv.eq_of_not_table fun es hes => by cases hes

/-- A field is read off any table in which the same stands under its name. -/
theorem field?_of_isField {α : Type} {Is : Value → α → Prop} {preset a : α} {name : String}
    {read : Value → Option α} (h : IsField Is preset es name a)
    (hv : Option.Rel Value.Alike (es.lookup name) (es'.lookup name))
    (hread : ∀ v v', es'.lookup name = some v' → Value.Alike v v' → Is v a → read v' = some a) :
    Settings.field? es' name preset read = some a := by
  rw [IsField] at h
  rw [Settings.field?]
  revert h hv hread
  rcases es.lookup name with _ | v <;> rcases es'.lookup name with _ | v' <;> intro h hv hread
  · rw [h]
  · cases hv
  · cases hv
  · cases hv with
    | some hv => exact hread v v' rfl hv h

/-- Levels are read off a table one by one. -/
theorem foldlM_levels (m : LevelMap) (hes : (es.map Prod.fst).Nodup)
    (h : ∀ e ∈ es, ∃ level, IsLevel e.2 level) : ∃ m',
    es.foldlM (fun m (id, v) => (Settings.level? v).map fun level => m.insert id level) m =
      some m' ∧ ∀ id : String, m'[id]? = ((es.lookup id).bind Settings.level?).or m[id]? := by
  induction es generalizing m with
  | nil => exact ⟨m, rfl, fun id => Option.none_or.symm⟩
  | cons e es ih =>
    obtain ⟨level, hlevel⟩ := h e List.mem_cons_self
    rw [List.map_cons, List.nodup_cons] at hes
    obtain ⟨m', hm', hget⟩ := ih (m.insert e.1 level) hes.2 fun e he =>
      h e (List.mem_cons_of_mem _ he)
    refine ⟨m', ?_, fun id => ?_⟩
    · rw [List.foldlM_cons]
      show (Settings.level? e.2).map _ >>= _ = _
      rw [level?_of_isLevel hlevel]
      exact hm'
    · rw [hget, Toml.lookup_cons_ite, Std.ExtTreeMap.getElem?_insert]
      by_cases hid : id = e.1
      · have hnone : es.lookup id = none := by
          rw [Toml.lookup_eq_none_iff_notMem, hid]
          exact hes.1
        rw [if_pos hid, hnone, Option.bind_some, level?_of_isLevel hlevel, hid,
          if_pos Std.ReflCmp.compare_self]
        rfl
      · rw [if_neg hid, if_neg]
        rw [Std.LawfulEqCmp.compare_eq_iff_eq]
        exact Ne.symm hid

/-- What is alike says the same levels. -/
theorem rel_isLevel_of_alike {u u' : Option Value} {level : Option Level}
    (hu : Option.Rel Value.Alike u u') (h : Option.Rel IsLevel u level) :
    Option.Rel IsLevel u' level := by
  cases hu with
  | none => exact h
  | some hu =>
    cases h with
    | some h => exact .some (h.of_alike hu)

theorem bind_level?_of_rel {u : Option Value} {level : Option Level}
    (h : Option.Rel IsLevel u level) : u.bind Settings.level? = level := by
  cases h with
  | none => rfl
  | some h => exact level?_of_isLevel h

theorem levels?_of_isLevelMap {m : LevelMap} (h : IsLevelMap v m) (hv : Value.Alike v v')
    (hdistinct : v'.Distinct) : Settings.levels? v' = some m := by
  obtain ⟨es, rfl, hes⟩ := h
  obtain ⟨es', rfl⟩ := hv.exists_table
  have hes' (id : String) : Option.Rel IsLevel (es'.lookup id) m[id]? :=
    rel_isLevel_of_alike (hv.entry? id) (hes id)
  have hkeys : (es'.map Prod.fst).Nodup := hdistinct [] es' rfl
  have hall : ∀ e ∈ es', ∃ level, IsLevel e.2 level := by
    intro e he
    have hid := hes' e.1
    rw [(Toml.lookup_eq_some_iff_mem hkeys).2 he] at hid
    generalize m[e.1]? = level at hid
    cases hid with
    | some hlevel => exact ⟨_, hlevel⟩
  obtain ⟨m', hm', hget⟩ := foldlM_levels ∅ hkeys hall
  rw [Settings.levels?, hm']
  refine congrArg some (Std.ExtTreeMap.ext_getElem? fun id => ?_)
  rw [hget, bind_level?_of_rel (hes' id), Std.ExtTreeMap.getElem?_empty, Option.or_none]

end

/-! ## Readers of settings -/

namespace Settings

/-- **The settings are read off a table that says them.** -/
theorem ofEntries?_of_isTable {es es' : List (String × Value)} {s : Settings} (h : IsTable es s)
    (hes : Value.Alike (.table es) (.table es')) (hdistinct : (Value.table es').Distinct) :
    ofEntries? es' = some s := by
  have hentry := hes.entry?
  have hlevel (v v' : Value) (hv : Value.Alike v v') (h : IsLevel v s.defaultLevel) :
      level? v' = some s.defaultLevel := level?_of_isLevel (h.of_alike hv)
  have hflag {b : Bool} (v v' : Value) (hv : Value.Alike v v') (h : IsFlag v b) :
      flag? v' = some b := flag?_of_isFlag (h.of_alike hv)
  rw [ofEntries?, field?_of_isField h.defaultLevel (hentry _) fun v v' _ => hlevel v v',
    field?_of_isField h.lineNumbers (hentry _) fun v v' _ => hflag v v',
    field?_of_isField h.color (hentry _) fun v v' _ => hflag v v',
    field?_of_isField h.echo (hentry _) fun v v' _ => hflag v v',
    field?_of_isField h.levels (hentry _) fun v v' hv' hv h =>
      levels?_of_isLevelMap h hv (hdistinct.entry? hv')]
  rfl

/-- **They are read off a document that says them.** -/
theorem ofDocument?_of_isDocument {root root' : List (String × Value)} {s : Settings}
    (h : IsDocument root s) (hroot : Value.Alike (.table root) (.table root'))
    (hdistinct : (Value.table root').Distinct) : ofDocument? root' = some s := by
  refine field?_of_isField h (hroot.entry? "log") ?_
  rintro v v' hv' hv ⟨es, rfl, hes⟩
  obtain ⟨es', rfl⟩ := hv.exists_table
  exact ofEntries?_of_isTable hes hv (hdistinct.entry? hv')

/-- **The reader of this library reads what a text denotes.** -/
theorem isReader_ofToml : IsReader ofToml where
  read_of_denotes text root s htext hs := by
    obtain ⟨root', hparse, hroot, hdistinct⟩ := Toml.exists_parse?_of_denotes htext
    exact ofToml_eq_ok_iff.2 ⟨root', hparse, ofDocument?_of_isDocument hs hroot hdistinct⟩

end Settings

end DesignGraph
