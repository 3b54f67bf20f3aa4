import Lox.Segment

/-!
Nothing of a source is lost or read twice: a segment and what follows it make up the source from
where the segment starts, and the segments behind it are those of what follows.
-/

namespace Lox.Segment

theorem symbol_append (kind : TokenKind) (c : Char) (rest : List Char) :
    (symbol kind c rest).1.text ++ (symbol kind c rest).2 = c :: rest := by
  unfold symbol
  split <;> simp [text]

theorem uncomment?_append {rest body after : List Char}
    (found : uncomment? rest = some (body, after)) :
    body ++ '*' :: '/' :: after = rest := by
  fun_induction uncomment? rest generalizing body with
  | case1 => simp at found
  | case2 tail =>
    simp only [Option.some.injEq, Prod.mk.injEq] at found
    obtain ⟨rfl, rfl⟩ := found
    rfl
  | case3 c tail _ ih =>
    obtain ⟨⟨inner, _⟩, innerFound, same⟩ := Option.map_eq_some_iff.mp found
    simp only [Prod.mk.injEq] at same
    obtain ⟨rfl, rfl⟩ := same
    simp [ih innerFound]

theorem comment_append (rest : List Char) :
    (comment rest).1.text ++ (comment rest).2 = '/' :: '*' :: rest := by
  unfold comment
  split
  · rename_i body after found
    simp [text, ← uncomment?_append found]
  · simp [text]

theorem quoted_append (rest : List Char) :
    (quoted rest).1.text ++ (quoted rest).2 = '"' :: rest := by
  unfold quoted
  split
  · rename_i quote after found
    have parts := List.takeWhile_append_dropWhile (p := (· ≠ '"')) (l := rest)
    rw [found] at parts
    simp only [text, List.cons_append, List.append_assoc, List.nil_append]
    rw [parts]
  · simp [text]

theorem number_append (c : Char) (rest : List Char) :
    (number c rest).1.text ++ (number c rest).2 = c :: rest := by
  have parts := List.takeWhile_append_dropWhile (p := Char.isDigit) (l := rest)
  unfold number
  split
  · rename_i digit after found
    have further := List.takeWhile_append_dropWhile (p := Char.isDigit) (l := after)
    rw [found] at parts
    split
    · simp [text, further, parts]
    · simp [text, parts]
  · simp [text, parts]

theorem word_append (c : Char) (rest : List Char) :
    (word c rest).1.text ++ (word c rest).2 = c :: rest := by
  simp [word, text, List.takeWhile_append_dropWhile]

theorem first_append (c : Char) (rest : List Char) :
    (first c rest).1.text ++ (first c rest).2 = c :: rest := by
  unfold first
  split
  · simp [text, List.takeWhile_append_dropWhile]
  · exact comment_append _
  · exact quoted_append rest
  · split
    · rfl
    · split
      · exact symbol_append _ c rest
      · split
        · exact number_append c rest
        · split
          · exact word_append c rest
          · rfl

theorem text_ne_nil (c : Char) (rest : List Char) : (first c rest).1.text ≠ [] := by
  unfold first
  split
  · simp [text]
  · unfold comment
    split <;> simp [text]
  · unfold quoted
    split <;> simp [text]
  · split
    · simp [text]
    · split
      · unfold symbol
        split <;> simp [text]
      · split
        · unfold number
          split
          · split <;> simp [text]
          · simp [text]
        · split <;> simp [word, text]

theorem length_after_first (c : Char) (rest : List Char) :
    (first c rest).2.length ≤ rest.length := by
  have sum := congrArg List.length (first_append c rest)
  have positive := List.length_pos_iff.mpr (text_ne_nil c rest)
  simp only [List.length_append, List.length_cons] at sum
  omega

theorem firstSegments_eq_ofSource (bound : Nat) (source : List Char)
    (enough : source.length ≤ bound) : firstSegments bound source = ofSource source := by
  induction bound using Nat.strongRecOn generalizing source with
  | ind bound ih =>
    cases source with
    | nil => cases bound <;> rfl
    | cons c rest =>
      have shorter := length_after_first c rest
      simp only [List.length_cons] at enough
      obtain ⟨bound, rfl⟩ := Nat.exists_eq_add_of_lt enough
      simp only [ofSource, List.length_cons, firstSegments]
      rw [ih (rest.length + bound) (by omega) _ (by omega)]
      rw [← ih rest.length (by omega) _ shorter]

theorem ofSource_cons (c : Char) (rest : List Char) :
    ofSource (c :: rest) = (first c rest).1 :: ofSource (first c rest).2 := by
  show firstSegments (rest.length + 1) (c :: rest) = _
  rw [firstSegments, firstSegments_eq_ofSource _ _ (length_after_first c rest)]

end Lox.Segment
