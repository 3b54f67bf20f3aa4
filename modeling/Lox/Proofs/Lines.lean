import Lox.Prompt

/-!
How the prompt reads: which lines the bytes of a stream are, which texts these are, and what is left
of a text without the blank space around it.
-/

namespace Lox

namespace Unicode

structure Trims (text trimmed : String) : Prop where
  around : ∃ front back, text.toList = front ++ trimmed.toList ++ back ∧
    ∀ c ∈ front ++ back, isWhiteSpace c = true
  starts : ∀ c ∈ trimmed.toList.head?, isWhiteSpace c = false
  ends : ∀ c ∈ trimmed.toList.getLast?, isWhiteSpace c = false

variable {p : Char → Bool}

theorem dropWhile_eq_self {text : List Char} (starts : ∀ c ∈ text.head?, p c = false) :
    text.dropWhile p = text := by
  cases text with
  | nil => rfl
  | cons c rest => rw [List.dropWhile_cons, starts c rfl, if_neg Bool.false_ne_true]

theorem starts_dropWhile (p : Char → Bool) (text : List Char) :
    ∀ c ∈ (text.dropWhile p).head?, p c = false := by
  intro c first
  have stops := List.head?_dropWhile_not p text
  rwa [Option.mem_def.mp first] at stops

theorem dropWhile_around {middle back : List Char} (blank : ∀ c ∈ back, p c = true)
    (starts : ∀ c ∈ middle.head?, p c = false) (ends : ∀ c ∈ middle.getLast?, p c = false) :
    ((middle ++ back).dropWhile p).reverse.dropWhile p = middle.reverse := by
  cases middle with
  | nil =>
    rw [List.nil_append, ← List.append_nil back, List.dropWhile_append_of_pos blank]
    rfl
  | cons c rest =>
    have first : ∀ d ∈ (c :: rest ++ back).head?, p d = false := starts
    have last : ∀ d ∈ (c :: rest).reverse.head?, p d = false := by
      rwa [List.head?_reverse]
    have blank : ∀ d ∈ back.reverse, p d = true := fun d member =>
      blank d (List.mem_reverse.mp member)
    rw [dropWhile_eq_self first, List.reverse_append, List.dropWhile_append_of_pos blank,
      dropWhile_eq_self last]

theorem trim_of_trims {text trimmed : String} (trims : Trims text trimmed) :
    trim text = trimmed := by
  obtain ⟨⟨front, back, whole, blank⟩, starts, ends⟩ := trims
  obtain ⟨frontBlank, backBlank⟩ := List.forall_mem_append.mp blank
  rw [trim, whole, List.append_assoc, List.dropWhile_append_of_pos frontBlank,
    dropWhile_around backBlank starts ends, List.reverse_reverse, String.ofList_toList]

theorem trims_trim (text : String) : Trims text (trim text) := by
  have front : text.toList.takeWhile isWhiteSpace ++ text.toList.dropWhile isWhiteSpace = _ :=
    List.takeWhile_append_dropWhile
  have starts := starts_dropWhile isWhiteSpace text.toList
  have trimmed : (trim text).toList =
      ((text.toList.dropWhile isWhiteSpace).reverse.dropWhile isWhiteSpace).reverse :=
    String.toList_ofList
  generalize text.toList.dropWhile isWhiteSpace = rest at front starts trimmed
  have back : (trim text).toList ++ (rest.reverse.takeWhile isWhiteSpace).reverse = rest := by
    rw [trimmed, ← List.reverse_append, List.takeWhile_append_dropWhile, List.reverse_reverse]
  refine ⟨⟨_, _, by rw [List.append_assoc, back, front], ?_⟩, ?_, ?_⟩
  · rw [List.forall_mem_append]
    simp only [List.mem_reverse]
    exact ⟨List.all_eq_true.mp List.all_takeWhile, List.all_eq_true.mp List.all_takeWhile⟩
  · intro c first
    apply starts
    rw [← back, List.head?_append, Option.mem_def.mp first]
    rfl
  · rw [trimmed, List.getLast?_reverse]
    exact starts_dropWhile isWhiteSpace rest.reverse

theorem trims_iff {text trimmed : String} : Trims text trimmed ↔ trim text = trimmed :=
  ⟨trim_of_trims, fun same => same ▸ trims_trim text⟩

end Unicode

namespace Prompt

/-- A line ends behind its newline; only the last one may have none. -/
structure Lines (bytes : List UInt8) (lines : List (List UInt8)) : Prop where
  joined : lines.flatten = bytes
  nonempty : ∀ line ∈ lines, line ≠ []
  inside : ∀ line ∈ lines, newline ∉ line.dropLast
  ended : ∀ line ∈ lines.dropLast, line.getLast? = some newline

theorem splitLines_unended {body : List UInt8} (nonempty : body ≠ []) (inside : newline ∉ body) :
    splitLines body = [body] := by
  induction body with
  | nil => contradiction
  | cons byte rest ih =>
    rw [List.mem_cons, not_or] at inside
    rw [splitLines, if_neg (Ne.symm inside.1)]
    cases rest with
    | nil => rfl
    | cons next others => rw [ih (List.cons_ne_nil _ _) inside.2]

theorem splitLines_ended {line : List UInt8} (ended : line.getLast? = some newline)
    (inside : newline ∉ line.dropLast) (rest : List UInt8) :
    splitLines (line ++ rest) = line :: splitLines rest := by
  obtain ⟨body, rfl⟩ := List.getLast?_eq_some_iff.mp ended
  rw [List.dropLast_concat] at inside
  clear ended
  induction body with
  | nil => rw [List.nil_append, List.singleton_append, splitLines, if_pos rfl]
  | cons byte others ih =>
    rw [List.mem_cons, not_or] at inside
    rw [List.cons_append, List.cons_append, splitLines, if_neg (Ne.symm inside.1), ih inside.2]

theorem newline_not_mem {line : List UInt8} (inside : newline ∉ line.dropLast)
    (unended : line.getLast? ≠ some newline) : newline ∉ line := by
  intro member
  have nonempty := List.ne_nil_of_mem member
  rw [← List.dropLast_concat_getLast nonempty, List.mem_append, List.mem_singleton] at member
  rcases member with before | isLast
  · exact inside before
  · rw [isLast] at unended
    exact unended (List.getLast?_eq_some_getLast nonempty)

theorem splitLines_of_lines {bytes : List UInt8} {lines : List (List UInt8)}
    (division : Lines bytes lines) : splitLines bytes = lines := by
  obtain ⟨rfl, nonempty, inside, ended⟩ := division
  induction lines with
  | nil => rfl
  | cons line others ih =>
    rw [List.forall_mem_cons] at nonempty inside
    rw [List.flatten_cons]
    by_cases closed : line.getLast? = some newline
    · rw [splitLines_ended closed inside.1, ih nonempty.2 inside.2]
      intro other member
      cases others with
      | nil => cases member
      | cons next later => exact ended other (List.mem_cons_of_mem _ member)
    · -- only the last line can be without a newline
      cases others with
      | nil =>
        rw [List.flatten_nil, List.append_nil]
        exact splitLines_unended nonempty.1 (newline_not_mem inside.1 closed)
      | cons next later => exact absurd (ended line List.mem_cons_self) closed

theorem Lines.empty : Lines [] [] := ⟨rfl, nofun, nofun, nofun⟩

theorem Lines.cons_newline {rest : List UInt8} {lines : List (List UInt8)}
    (division : Lines rest lines) : Lines (newline :: rest) ([newline] :: lines) where
  joined := congrArg _ division.joined
  nonempty := List.forall_mem_cons.mpr ⟨List.cons_ne_nil _ _, division.nonempty⟩
  inside := List.forall_mem_cons.mpr ⟨nofun, division.inside⟩
  ended := by
    cases lines with
    | nil => exact nofun
    | cons next later => exact List.forall_mem_cons.mpr ⟨rfl, division.ended⟩

theorem Lines.extend {byte : UInt8} {rest line : List UInt8} {others : List (List UInt8)}
    (division : Lines rest (line :: others)) (different : byte ≠ newline) :
    Lines (byte :: rest) ((byte :: line) :: others) := by
  obtain ⟨joined, nonempty, inside, ended⟩ := division
  rw [List.forall_mem_cons] at nonempty inside
  refine ⟨congrArg _ joined, ?_, ?_, ?_⟩
  · exact List.forall_mem_cons.mpr ⟨List.cons_ne_nil _ _, nonempty.2⟩
  · refine List.forall_mem_cons.mpr ⟨?_, inside.2⟩
    rw [List.dropLast_cons_of_ne_nil nonempty.1, List.mem_cons, not_or]
    exact ⟨Ne.symm different, inside.1⟩
  · cases others with
    | nil => exact nofun
    | cons next later =>
      obtain ⟨closed, ended⟩ := List.forall_mem_cons.mp ended
      refine List.forall_mem_cons.mpr ⟨?_, ended⟩
      rw [List.getLast?_cons, closed]
      rfl

theorem lines_splitLines (bytes : List UInt8) : Lines bytes (splitLines bytes) := by
  induction bytes with
  | nil => exact .empty
  | cons byte rest ih =>
    rw [splitLines]
    by_cases isNewline : byte = newline
    · rw [if_pos isNewline, isNewline]
      exact ih.cons_newline
    · rw [if_neg isNewline]
      generalize splitLines rest = lines at ih ⊢
      cases lines with
      | cons line others => exact ih.extend isNewline
      | nil =>
        obtain rfl : [] = rest := ih.joined
        refine ⟨rfl, ?_, ?_, nofun⟩
        · exact List.forall_mem_cons.mpr ⟨List.cons_ne_nil _ _, nofun⟩
        · exact List.forall_mem_cons.mpr ⟨nofun, nofun⟩

/-- The line as a text without blank space around it, or the lack of a text. -/
inductive Reads (bytes : List UInt8) : Line → Prop
  | exit {text} : text.toByteArray.data.toList = bytes → Unicode.Trims text "exit" →
      Reads bytes .exit
  | source {text trimmed} : text.toByteArray.data.toList = bytes → Unicode.Trims text trimmed →
      trimmed ≠ "exit" → Reads bytes (.source trimmed)
  | notText : (∀ text : String, text.toByteArray.data.toList ≠ bytes) → Reads bytes .notText

theorem fromUTF8?_toByteArray (text : String) : String.fromUTF8? text.toByteArray = some text := by
  rw [String.fromUTF8?, dif_pos text.isValidUTF8]
  rfl

theorem toByteArray_of_fromUTF8? {bytes : ByteArray} {text : String}
    (decoded : String.fromUTF8? bytes = some text) : text.toByteArray = bytes := by
  unfold String.fromUTF8? at decoded
  split at decoded
  · cases decoded
    rfl
  · cases decoded

theorem ofBytes_encoded (text : String) :
    Line.ofBytes text.toByteArray.data.toList =
      if Unicode.trim text = "exit" then .exit else .source (Unicode.trim text) := by
  have decoded := fromUTF8?_toByteArray text
  simp only [Line.ofBytes, Array.toArray_toList, decoded]

theorem ofBytes_of_reads {bytes : List UInt8} {line : Line} (reads : Reads bytes line) :
    Line.ofBytes bytes = line := by
  cases reads with
  | exit encoded trims =>
    rw [← encoded, ofBytes_encoded, Unicode.trims_iff.mp trims, if_pos rfl]
  | source encoded trims notExit =>
    rw [← encoded, ofBytes_encoded, Unicode.trims_iff.mp trims, if_neg notExit]
  | notText undecodable =>
    unfold Line.ofBytes
    split
    · rfl
    · rename_i text decoded
      apply absurd _ (undecodable text)
      rw [toByteArray_of_fromUTF8? decoded]

theorem reads_ofBytes (bytes : List UInt8) : Reads bytes (Line.ofBytes bytes) := by
  by_cases decodes : ∃ text : String, text.toByteArray.data.toList = bytes
  · obtain ⟨text, rfl⟩ := decodes
    rw [ofBytes_encoded]
    split
    · rename_i isExit
      exact .exit rfl (Unicode.trims_iff.mpr isExit)
    · rename_i notExit
      exact .source rfl (Unicode.trims_trim text) notExit
  · have reads : Reads bytes .notText := .notText (not_exists.mp decodes)
    rwa [ofBytes_of_reads reads]

end Prompt

end Lox
