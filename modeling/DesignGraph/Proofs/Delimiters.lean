/-
  Delimiters — where a text is taken apart.

  A text that is put together from pieces with a character between them shows where a
  piece begins or ends, as long as the piece does not hold that character.

  * `eq_of_append_cons`: the piece before the first occurrence of a character, and
    `eq_of_append_cons_last`: the one after its last occurrence;
  * `Kind.eq_of_label` and `Level.eq_of_label`: the label at the front of a text is read
    off it, although some labels are the beginning of others.
-/
import DesignGraph.Entity.Kind
import DesignGraph.Log.Level

namespace DesignGraph

/-! ## Pieces -/

section
variable {α : Type} [BEq α] [LawfulBEq α] {d : α} {xs xs' ys ys' : List α}

theorem takeWhile_append_cons (hx : d ∉ xs) : (xs ++ d :: ys).takeWhile (· != d) = xs := by
  have hall : ∀ c ∈ xs, (c != d) = true := fun c hc => bne_iff_ne.2 (ne_of_mem_of_not_mem hc hx)
  rw [List.takeWhile_append_of_pos hall]
  simp

/-- Lists that are the same are so up to the first occurrence of an item, and after it. -/
theorem eq_of_append_cons (hx : d ∉ xs) (hx' : d ∉ xs')
    (h : xs ++ d :: ys = xs' ++ d :: ys') : xs = xs' ∧ ys = ys' := by
  have hxs := congrArg (List.takeWhile (· != d)) h
  rw [takeWhile_append_cons hx, takeWhile_append_cons hx'] at hxs
  subst hxs
  exact ⟨rfl, (List.cons.inj (List.append_cancel_left h)).2⟩

/-- So they are after the last occurrence, and before it. -/
theorem eq_of_append_cons_last (hy : d ∉ ys) (hy' : d ∉ ys')
    (h : xs ++ d :: ys = xs' ++ d :: ys') : xs = xs' ∧ ys = ys' := by
  have hreverse := congrArg List.reverse h
  simp only [List.reverse_append, List.reverse_cons, List.append_assoc,
    List.singleton_append] at hreverse
  obtain ⟨hys, hxs⟩ := eq_of_append_cons (by rwa [List.mem_reverse]) (by rwa [List.mem_reverse])
    hreverse
  exact ⟨List.reverse_inj.1 hxs, List.reverse_inj.1 hys⟩

end

/-! ## Labels -/

theorem Kind.colon_notMem_label (k : Kind) : ':' ∉ k.label.toList := by
  cases k <;> decide

/-- The kind is read off a text that starts with its label and a colon. -/
theorem Kind.eq_of_label {k k' : Kind} {ys ys' : List Char}
    (h : k.label.toList ++ ':' :: ys = k'.label.toList ++ ':' :: ys') : k = k' ∧ ys = ys' := by
  obtain ⟨hlabel, hys⟩ := eq_of_append_cons k.colon_notMem_label k'.colon_notMem_label h
  exact ⟨Kind.label_inj.1 (String.toList_inj.1 hlabel), hys⟩

theorem Level.label_inj {a b : Level} : a.label = b.label ↔ a = b := by
  cases a <;> cases b <;> decide

/-- The level is read off a text that starts with its label and a character that labels do
    not hold. -/
theorem Level.eq_of_label {a b : Level} {d : Char} {ys ys' : List Char}
    (hd : ∀ c : Level, d ∉ c.label.toList)
    (h : a.label.toList ++ d :: ys = b.label.toList ++ d :: ys') : a = b ∧ ys = ys' := by
  obtain ⟨hlabel, hys⟩ := eq_of_append_cons (hd a) (hd b) h
  exact ⟨Level.label_inj.1 (String.toList_inj.1 hlabel), hys⟩

end DesignGraph
