/-
  Interners — what keeps texts under keys — and stores of texts over them.

  An interner keeps every text once, under a key of its own.  Which interner a store
  uses makes no difference to it: `Interner` lists what one does, and `LawfulInterner`
  what is relied on.

  * `Key`: keys are made of numbers and stand for them; handles are keys as long as
    32 bits are enough;
  * `TextStore`: texts behind handles, all kept by an interner;
  * the interner of this library is `TextArena`.
-/
import DesignGraph.Text.Arena

namespace DesignGraph

/-! ## Keys -/

/-- Keys that are made of numbers. -/
class Key (κ : Type) where
  /-- The key of a number, if there is one. -/
  ofNat? : Nat → Option κ
  /-- The number that a key stands for. -/
  toNat : κ → Nat

instance : Key Sym := ⟨Sym.ofNat?, Sym.index⟩

theorem Sym.eq_of_ofNat? {n : Nat} {s : Sym} (h : Key.ofNat? n = some s) : s = ⟨n⟩ :=
  (Sym.ofNat?_eq_some_iff.1 h).2

theorem Sym.exists_ofNat? {n : Nat} (h : n < Sym.capacity) :
    Key.ofNat? n = some (⟨n⟩ : Sym) := Sym.ofNat?_eq_some_iff.2 ⟨h, rfl⟩

/-! ## Interners -/

/-- What keeps texts under keys. -/
class Interner (ρ : Type) (κ : outParam Type) where
  /-- The interner that keeps nothing. -/
  empty : ρ
  /-- The key of a text, which is kept from now on; no answer if there is no key left. -/
  intern? : ρ → String → Option (κ × ρ)
  /-- The key of a text that is kept. -/
  find? : ρ → String → Option κ
  /-- The text that is kept under a key. -/
  text? : ρ → κ → Option String
  /-- The number of texts. -/
  size : ρ → Nat
  isEmpty : ρ → Bool
  /-- The texts under their keys, oldest first. -/
  entries : ρ → List (κ × String)

/-- What is relied on of an interner: it goes by the content of texts, makes the keys of
    `0`, `1`, … in the order in which texts come first, and reads a key as a number. -/
class LawfulInterner (ρ : Type) {κ : Type} [Key κ] [Interner ρ κ] : Prop where
  entries_empty : Interner.entries (Interner.empty : ρ) = []
  find?_eq_some_iff : ∀ (r : ρ) (t : String) (k : κ),
    Interner.find? r t = some k ↔ (k, t) ∈ Interner.entries r
  /-- A text that is kept has its key already. -/
  intern?_of_find? : ∀ (r : ρ) (t : String) (k : κ), Interner.find? r t = some k →
    ∃ r', Interner.intern? r t = some (k, r') ∧ Interner.entries r' = Interner.entries r
  /-- A new text gets the next key. -/
  intern?_of_new : ∀ (r : ρ) (t : String) (k : κ), Interner.find? r t = none →
    Key.ofNat? (Interner.entries r).length = some k →
    ∃ r', Interner.intern? r t = some (k, r') ∧
      Interner.entries r' = Interner.entries r ++ [(k, t)]
  text?_eq : ∀ (r : ρ) (k : κ),
    Interner.text? r k = (Interner.entries r)[Key.toNat k]?.map Prod.snd
  size_eq : ∀ r : ρ, Interner.size r = (Interner.entries r).length
  isEmpty_eq : ∀ r : ρ, Interner.isEmpty r = (Interner.entries r).isEmpty

instance : Interner TextArena Sym where
  empty := .empty
  intern? := TextArena.insert?
  find? := TextArena.lookup
  text? := TextArena.resolve
  size := TextArena.size
  isEmpty := TextArena.isEmpty
  entries a := a.texts.toList.zipIdx.map fun (t, i) => (⟨i⟩, t)

/-! ## Stores -/

/-- Texts behind handles, kept by an interner. -/
structure TextStore (ρ : Type) where
  texts : ρ

namespace TextStore

variable {ρ : Type} [Interner ρ Sym]

/-- The store that holds no text. -/
def empty : TextStore ρ := ⟨Interner.empty⟩

/-- The handle of a text, and the store that holds it; no answer if there is no handle
    left. -/
def insert? (a : TextStore ρ) (t : String) : Option (Sym × TextStore ρ) :=
  (Interner.intern? a.texts t).map fun (s, texts) => (s, ⟨texts⟩)

/-- The handle of a text, if the store holds it. -/
def lookup (a : TextStore ρ) (t : String) : Option Sym := Interner.find? a.texts t

/-- The text of a handle. -/
def resolve (a : TextStore ρ) (s : Sym) : Option String := Interner.text? a.texts s

/-- The number of texts. -/
def size (a : TextStore ρ) : Nat := Interner.size a.texts

/-- Whether the store holds no text. -/
def isEmpty (a : TextStore ρ) : Bool := Interner.isEmpty a.texts

/-- A one-line description: how many texts there are. -/
def describe (a : TextStore ρ) : String :=
  "StringArena \x7b len: " ++ toString a.size ++ " \x7d"

end TextStore

end DesignGraph
