/-
  Spelling — the ways to write a text as a basic string.

  A basic string may show most characters, and may spell any of them by an escape: some
  have a letter of their own, and each is spelled by the digits of its code point.
  Quotation marks, backslashes and control characters have to be spelled by an escape.

  * `Spells c s`, `SpellsText cs t`: `s` is a way to spell a character, `t` a way to spell
    a text; `exists_spellsText`: every text can be spelled;
  * `Reads r cs a rest`: the reader `r` takes `a` from the front of `cs` and leaves `rest`;
  * `reads_basicBody`: however a text is spelled, it is read back.
-/
import DesignGraph.Toml.Document
import Mathlib.Algebra.Group.Nat.Defs
import Mathlib.Data.List.Perm.Basic

namespace DesignGraph.Toml

/-! ## Characters -/

/-- Whether a basic string has to spell a character by an escape. -/
def MustEscape (c : Char) : Prop := c = '"' ∨ c = '\\' ∨ c.toNat < 0x20 ∨ c.toNat = 0x7f

instance (c : Char) : Decidable (MustEscape c) := inferInstanceAs (Decidable (_ ∨ _))

/-- The characters with a letter of their own, and the letters. -/
def escapeLetters : List (Char × Char) :=
  [('"', '"'), ('\\', '\\'), ('\x08', 'b'), ('\t', 't'), ('\n', 'n'), ('\x0c', 'f'), ('\r', 'r')]

/-- The last hexadecimal digits of a number, in small letters. -/
def hexDigits : Nat → Nat → List Char
  | 0, _ => []
  | k + 1, n => hexDigits k (n / 16) ++ [Nat.digitChar (n % 16)]

/-- The ways to spell a character in a basic string. -/
inductive Spells (c : Char) : List Char → Prop
  | shown : ¬ MustEscape c → Spells c [c]
  | letter {e : Char} : (c, e) ∈ escapeLetters → Spells c ['\\', e]
  /-- by the four digits of a small code point, in letters of either size -/
  | short {ds : List Char} : c.toNat < 0x10000 → ds.map Char.toLower = hexDigits 4 c.toNat →
      Spells c ('\\' :: 'u' :: ds)
  | long {ds : List Char} : ds.map Char.toLower = hexDigits 8 c.toNat →
      Spells c ('\\' :: 'U' :: ds)

/-- The ways to spell a text in a basic string. -/
inductive SpellsText : List Char → List Char → Prop
  | nil : SpellsText [] []
  | cons {c : Char} {s cs t : List Char} : Spells c s → SpellsText cs t →
      SpellsText (c :: cs) (s ++ t)

/-! ## Digits -/

theorem length_hexDigits (k n : Nat) : (hexDigits k n).length = k := by
  induction k generalizing n with
  | zero => rfl
  | succ k ih => rw [hexDigits, List.length_append, ih]; rfl

theorem map_toLower_hexDigits (k n : Nat) :
    (hexDigits k n).map Char.toLower = hexDigits k n := by
  have hall : ∀ d < 16, (Nat.digitChar d).toLower = Nat.digitChar d := by decide
  induction k generalizing n with
  | zero => rfl
  | succ k ih =>
    rw [hexDigits, List.map_append, ih, List.map_singleton, hall _ (Nat.mod_lt n (by decide))]

theorem hexDigit?_digitChar {d : Nat} (h : d < 16) : hexDigit? (Nat.digitChar d) = some d := by
  have hall : ∀ d < 16, hexDigit? (Nat.digitChar d) = some d := by decide
  exact hall d h

/-- The size of letters does not matter in digits. -/
theorem hexDigit?_toLower (c : Char) : hexDigit? c.toLower = hexDigit? c := by
  by_cases hc : 'A'.toNat ≤ c.toNat ∧ c.toNat ≤ 'Z'.toNat
  · have hall : ∀ n ≤ 'Z'.toNat, 'A'.toNat ≤ n →
        hexDigit? (Char.ofNat n).toLower = hexDigit? (Char.ofNat n) := by decide
    have h := hall c.toNat hc.2 hc.1
    rwa [Char.ofNat_toNat] at h
  · have hsame : c.toLower = c := dif_neg hc
    rw [hsame]

theorem hexNumber?_toLower (ds : List Char) : hexNumber? (ds.map Char.toLower) = hexNumber? ds := by
  simp only [hexNumber?, List.foldlM_map, hexDigit?_toLower]

theorem hexNumber?_hexDigits (k n : Nat) : hexNumber? (hexDigits k n) = some (n % 16 ^ k) := by
  induction k generalizing n with
  | zero => simp [hexDigits, hexNumber?, Nat.mod_one]
  | succ k ih =>
    have hd := hexDigit?_digitChar (Nat.mod_lt n (by decide : 0 < 16))
    have hk := ih (n / 16)
    rw [hexNumber?] at hk ⊢
    rw [hexDigits, List.foldlM_append, hk]
    simp only [List.foldlM_cons, List.foldlM_nil, Option.bind_eq_bind, Option.bind_some, hd,
      Option.map_some, Option.pure_def]
    rw [Nat.pow_succ', Nat.mod_mul, Nat.add_comm]

/-- Digits of a code point, in letters of either size, are read as the character. -/
theorem codePoint?_of_map_toLower {c : Char} {k : Nat} {ds : List Char} (hc : c.toNat < 16 ^ k)
    (h : ds.map Char.toLower = hexDigits k c.toNat) : codePoint? ds = some c := by
  rw [codePoint?, ← hexNumber?_toLower, h, hexNumber?_hexDigits, Nat.mod_eq_of_lt hc,
    Option.bind_some, if_pos, Char.ofNat_toNat]
  exact c.valid

/-! ## Spellings -/

theorem exists_spells (c : Char) : ∃ s, Spells c s := by
  by_cases hc : MustEscape c
  · exact ⟨_, .long (map_toLower_hexDigits 8 c.toNat)⟩
  · exact ⟨_, .shown hc⟩

theorem spellsText_self {cs : List Char} (h : cs.all (¬ MustEscape ·)) : SpellsText cs cs := by
  induction cs with
  | nil => exact .nil
  | cons c cs ih =>
    rw [List.all_cons, Bool.and_eq_true, decide_eq_true_eq] at h
    exact .cons (.shown h.1) (ih h.2)

theorem exists_spellsText (cs : List Char) : ∃ t, SpellsText cs t := by
  induction cs with
  | nil => exact ⟨[], .nil⟩
  | cons c cs ih =>
    obtain ⟨s, hs⟩ := exists_spells c
    obtain ⟨t, ht⟩ := ih
    exact ⟨s ++ t, .cons hs ht⟩

/-! ## Readers -/

/-- A reader takes a value from the front of a text, and leaves the rest. -/
def Reads {α : Type} (r : Reader α) (cs : List Char) (a : α) (rest : List Char) : Prop :=
  ∃ h, r cs = some ⟨a, rest, h⟩

section
variable {c : Char} {s cs t r rest : List Char}

theorem isBasicChar_of_not_mustEscape (h : ¬ MustEscape c) : isBasicChar c := by
  simp only [MustEscape, not_or] at h
  obtain ⟨hquote, hslash, hlow, hdelete⟩ := h
  have hcomment : isCommentChar c := by
    have h1 : ' ' ≤ c ↔ 0x20 ≤ c.toNat := Iff.rfl
    have h2 : c ≤ '~' ↔ c.toNat ≤ 0x7e := Iff.rfl
    have h3 : '\x80' ≤ c ↔ 0x80 ≤ c.toNat := Iff.rfl
    simp only [isCommentChar, Bool.or_eq_true, Bool.and_eq_true, decide_eq_true_eq, h1, h2, h3]
    omega
  simp [isBasicChar, hcomment, hquote, hslash]

/-- The text after the spelling of a character is read on as it is. -/
theorem reads_basicBody_spells (hs : Spells c s) (h : Reads basicBody r cs rest) :
    Reads basicBody (s ++ r) (c :: cs) rest := by
  obtain ⟨hlt, hr⟩ := h
  have hlonger : rest.length < (s ++ r).length := by
    rw [List.length_append]
    omega
  cases hs with
  | shown hc =>
    have hbasic := isBasicChar_of_not_mustEscape hc
    simp only [MustEscape, not_or] at hc
    have hshown := basicBody.eq_6 c r hc.1 (fun _ _ _ _ _ h => absurd h hc.2.1)
      (fun _ _ _ _ _ _ _ _ _ h => absurd h hc.2.1) (fun _ _ h => absurd h hc.2.1)
    refine ⟨hlonger, hshown.trans ?_⟩
    rw [if_pos hbasic, hr]
    rfl
  | @letter e he =>
    have hletters : ∀ p ∈ escapeLetters,
        shortEscape? p.2 = some p.1 ∧ p.2 ≠ 'u' ∧ p.2 ≠ 'U' := by decide
    obtain ⟨hshort, hu, hU⟩ := hletters _ he
    have hletter := basicBody.eq_5 e r (fun _ _ _ _ _ h => absurd h hu)
      (fun _ _ _ _ _ _ _ _ _ h => absurd h hU)
    refine ⟨hlonger, hletter.trans ?_⟩
    rw [hshort, hr]
    rfl
  | @short ds hc hds =>
    have hpoint := codePoint?_of_map_toLower (k := 4) hc hds
    have hlength : ds.length = 4 := by
      rw [← List.length_map, hds, length_hexDigits]
    match ds, hlength with
    | [d₁, d₂, d₃, d₄], _ =>
      refine ⟨hlonger, ?_⟩
      simp only [List.cons_append, List.nil_append, basicBody, hpoint, hr]
      rfl
  | @long ds hds =>
    have hc : c.toNat < 16 ^ 8 := c.val.toNat_lt
    have hpoint := codePoint?_of_map_toLower hc hds
    have hlength : ds.length = 8 := by
      rw [← List.length_map, hds, length_hexDigits]
    match ds, hlength with
    | [d₁, d₂, d₃, d₄, d₅, d₆, d₇, d₈], _ =>
      refine ⟨hlonger, ?_⟩
      simp only [List.cons_append, List.nil_append, basicBody, hpoint, hr]
      rfl

/-- **However a text is spelled, it is read back.** -/
theorem reads_basicBody (ht : SpellsText cs t) (rest : List Char) :
    Reads basicBody (t ++ '"' :: rest) cs rest := by
  induction ht with
  | nil => exact ⟨Nat.lt_succ_self _, rfl⟩
  | cons hs _ ih =>
    rw [List.append_assoc]
    exact reads_basicBody_spells hs ih

theorem reads_quotedKey (ht : SpellsText cs t) (rest : List Char) :
    Reads quotedKey ('"' :: (t ++ '"' :: rest)) (String.ofList cs) rest := by
  obtain ⟨h, hr⟩ := reads_basicBody ht rest
  refine ⟨Nat.lt_succ_of_lt h, ?_⟩
  rw [quotedKey, hr]
  rfl

end

end DesignGraph.Toml
