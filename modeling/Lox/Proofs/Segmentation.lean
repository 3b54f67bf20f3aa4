import Lox.Proofs.Lexeme

/-!
A source has exactly one division into segments that reads every token as long as it can be, and the
scan makes that one.
-/

namespace Lox

/-- A segment that may stand in front of `after`, told without reference to how it is found. -/
inductive Cut : Segment → List Char → Prop
  | blank {c after} : Segment.isBlank c → Cut (.blank c) after
  | lineComment {body after} : '\n' ∉ body → (∀ c ∈ after.head?, c = '\n') →
      Cut (.lineComment body) after
  | blockComment {body after} : ¬['*', '/'] <:+: body ++ ['*'] → Cut (.blockComment body) after
  | token {kind lexeme after} : ¬OpensComment (lexeme ++ after) →
      Longest kind lexeme (lexeme ++ after) → Cut (.token kind lexeme) after
  | unexpected {c after} : Segment.isBlank c = false → c ≠ '"' →
      (∀ kind lexeme, Lexeme kind lexeme → ¬lexeme <+: c :: after) → Cut (.unexpected c) after
  | openString {body} : '"' ∉ body → Cut (.openString body) []
  | openComment {body} : ¬['*', '/'] <:+: body → Cut (.openComment body) []

inductive Segmentation : List Char → List Segment → Prop
  | nil : Segmentation [] []
  | cons {segment others after} : Cut segment after → Segmentation after others →
      Segmentation (segment.text ++ after) (segment :: others)

namespace Segment

theorem not_prefix_of_ne {a b c : Char} {rest : List Char}
    (different : ∀ after, c = a → rest = b :: after → False) : ¬[a, b] <+: c :: rest := by
  rintro ⟨after, same⟩
  obtain ⟨here, next⟩ := List.cons.inj same
  exact different after here.symm next.symm

theorem uncomment?_eq_none {rest : List Char} :
    uncomment? rest = none ↔ ¬['*', '/'] <:+: rest := by
  fun_induction uncomment? rest with
  | case1 => simp
  | case2 after => simp [List.infix_cons_iff]
  | case3 c rest noEnd ih => simp [List.infix_cons_iff, ih, not_prefix_of_ne noEnd]

theorem not_infix_of_uncomment? {rest body after : List Char}
    (found : uncomment? rest = some (body, after)) : ¬['*', '/'] <:+: body ++ ['*'] := by
  fun_induction uncomment? rest generalizing body with
  | case1 => simp at found
  | case2 tail =>
    obtain ⟨rfl, -⟩ := Prod.mk.inj (Option.some.inj found)
    decide
  | case3 c tail noEnd ih =>
    obtain ⟨⟨inner, rest⟩, innerFound, same⟩ := Option.map_eq_some_iff.mp found
    obtain ⟨rfl, rfl⟩ := Prod.mk.inj same
    have ahead : c :: inner ++ ['*'] <+: c :: tail :=
      ⟨'/' :: rest, by simp [← uncomment?_append innerFound]⟩
    rw [List.cons_append, List.infix_cons_iff, not_or]
    exact ⟨fun starts => not_prefix_of_ne noEnd (starts.trans ahead), ih innerFound⟩

theorem uncomment?_of_not_infix {body after : List Char}
    (notEarlier : ¬['*', '/'] <:+: body ++ ['*']) :
    uncomment? (body ++ '*' :: '/' :: after) = some (body, after) := by
  induction body with
  | nil => rfl
  | cons c body ih =>
    rw [List.cons_append, List.infix_cons_iff, not_or] at notEarlier
    obtain ⟨notHere, notLater⟩ := notEarlier
    rw [List.cons_append, uncomment?, ih notLater]
    · rfl
    · rintro more rfl slash
      cases body with
      | nil => simp at slash
      | cons d body =>
        obtain ⟨rfl, -⟩ := List.cons.inj slash
        exact notHere (by simp)

theorem cut_of_lexeme {c : Char} {rest : List Char} {piece : Segment × List Char}
    (noComment : ¬OpensComment (c :: rest)) (read : first c rest = piece)
    (isToken : ∃ kind lexeme after, piece = (token kind lexeme, after) ∧ Lexeme kind lexeme) :
    Cut piece.1 piece.2 := by
  obtain ⟨kind, lexeme, after, rfl, valid⟩ := isToken
  have whole : lexeme ++ after = c :: rest := by
    have parts := first_append c rest
    rwa [read] at parts
  refine .token (whole ▸ noComment) ⟨valid, List.prefix_append _ _, ?_⟩
  rw [whole]
  intro other text otherValid ahead
  obtain ⟨otherKind, more, tail, otherRead, -⟩ := first_of_lexeme otherValid ahead noComment
  obtain ⟨same, -⟩ := Prod.mk.inj (read.symm.trans otherRead)
  obtain ⟨-, rfl⟩ := Segment.token.inj same
  simp

theorem cut_comment (rest : List Char) : Cut (comment rest).1 (comment rest).2 := by
  unfold comment
  split
  · rename_i found
    exact .blockComment (not_infix_of_uncomment? found)
  · rename_i notFound
    exact .openComment (uncomment?_eq_none.mp notFound)

theorem cut_quoted {rest : List Char} (read : first '"' rest = quoted rest) :
    Cut (quoted rest).1 (quoted rest).2 := by
  have noComment : ¬OpensComment ('"' :: rest) := by simp [OpensComment]
  obtain ⟨body, after, noQuote, closed⟩ | ⟨noQuote, unclosed⟩ := quoted_cases rest
  · exact cut_of_lexeme noComment read ⟨_, _, after, closed, .string noQuote⟩
  · rw [unclosed]
    exact .openString noQuote

theorem not_prefix_of_lexeme {c : Char} {after : List Char} (notQuote : c ≠ '"')
    (notSymbol : symbol? c = none) (notDigit : ¬c.isDigit) (notName : ¬startsName c)
    {kind : TokenKind} {lexeme : List Char} (valid : Lexeme kind lexeme) :
    ¬lexeme <+: c :: after := by
  intro ahead
  obtain ⟨d, others, rfl⟩ := List.exists_cons_of_ne_nil valid.ne_nil
  obtain ⟨rfl, -⟩ := List.cons_prefix_cons.mp ahead
  rcases valid.head_cases with ⟨symbol, found, -⟩ | digit | ⟨isQuote, -⟩ | starts
  · simp [notSymbol] at found
  · exact notDigit digit
  · exact notQuote isQuote
  · exact notName starts

theorem cut_first (c : Char) (rest : List Char) : Cut (first c rest).1 (first c rest).2 := by
  have read : first c rest = first c rest := rfl
  conv at read => rhs; unfold first
  split at read
  · rename_i after
    rw [read]
    exact .lineComment (not_mem_takeWhile_ne _ _) fun _ next => starts_after_dropWhile next
  · rw [read]
    exact cut_comment _
  · rw [read]
    exact cut_quoted read
  · rename_i notQuote noLine noBlock
    have noComment : ¬OpensComment (c :: rest) := by
      rintro (line | block)
      · exact not_prefix_of_ne noLine line
      · exact not_prefix_of_ne noBlock block
    split at read
    · rename_i isBlank
      rw [read]
      exact .blank isBlank
    · rename_i notBlank
      split at read
      · rename_i kind isSymbol
        rw [read]
        exact cut_of_lexeme noComment read (lexeme_of_symbol isSymbol rest)
      · rename_i notSymbol
        split at read
        · rename_i isDigit
          rw [read]
          exact cut_of_lexeme noComment read (lexeme_of_number isDigit rest)
        · rename_i notDigit
          split at read
          · rename_i isName
            rw [read]
            exact cut_of_lexeme noComment read (lexeme_of_word isName rest)
          · rename_i notName
            rw [read]
            exact .unexpected (by simpa using notBlank) notQuote fun _ _ =>
              not_prefix_of_lexeme notQuote notSymbol notDigit notName

theorem first_of_isBlank {c : Char} (rest : List Char) (isBlank : isBlank c) :
    first c rest = (blank c, rest) := by
  unfold first
  split
  · exact absurd isBlank (by decide)
  · exact absurd isBlank (by decide)
  · exact absurd isBlank (by decide)
  · rw [if_pos isBlank]

theorem first_of_lineComment {body after : List Char} (noNewline : '\n' ∉ body)
    (lineEnds : ∀ c ∈ after.head?, c = '\n') :
    first '/' ('/' :: (body ++ after)) = (lineComment body, after) := by
  have plain := forall_ne_of_not_mem noNewline
  have stops : after.takeWhile (· ≠ '\n') = [] ∧ after.dropWhile (· ≠ '\n') = after := by
    cases after with
    | nil => exact ⟨rfl, rfl⟩
    | cons c after =>
      obtain rfl := lineEnds c rfl
      exact ⟨rfl, rfl⟩
  simp only [first, List.takeWhile_append_of_pos plain, List.dropWhile_append_of_pos plain, stops,
    List.append_nil]

theorem first_of_no_lexeme {c : Char} {rest : List Char} (notBlank : isBlank c = false)
    (notQuote : c ≠ '"')
    (noLexeme : ∀ kind lexeme, Lexeme kind lexeme → ¬lexeme <+: c :: rest) :
    first c rest = (unexpected c, rest) := by
  have notSymbol : symbol? c = none := by
    cases found : symbol? c with
    | none => rfl
    | some kind =>
      exact absurd (by simp) (noLexeme kind [c] (.operator (symbol?_mem_operators found)))
  have notDigit : ¬c.isDigit := fun digit =>
    noLexeme .number [c] (.whole (List.cons_ne_nil _ _) (by simpa using digit)) (by simp)
  have notName : ¬startsName c := fun starts =>
    noLexeme _ [c] (.word starts (by simp)) (by simp)
  unfold first
  split
  · simp [symbol?] at notSymbol
  · simp [symbol?] at notSymbol
  · exact absurd rfl notQuote
  · simp [notBlank, notSymbol, notDigit, notName]

theorem first_of_longest {c : Char} {rest lexeme after : List Char} {kind : TokenKind}
    (noComment : ¬OpensComment (c :: rest)) (longest : Longest kind lexeme (c :: rest))
    (whole : lexeme ++ after = c :: rest) : first c rest = (token kind lexeme, after) := by
  obtain ⟨valid, ahead, noLonger⟩ := longest
  obtain ⟨other, more, tail, read, same⟩ := first_of_lexeme valid ahead noComment
  have cut := cut_first c rest
  have parts : (lexeme ++ more) ++ tail = c :: rest := by
    have parts := first_append c rest
    rwa [read] at parts
  rw [read] at cut
  cases cut with
  | token _ otherLongest =>
    have bound := noLonger other (lexeme ++ more) otherLongest.1 ⟨tail, parts⟩
    have nothing : more = [] := by
      rw [List.length_append] at bound
      exact List.length_eq_zero_iff.mp (by omega)
    subst nothing
    rw [List.append_nil] at parts read
    rw [List.append_cancel_left (parts.trans whole.symm), same rfl] at read
    exact read

theorem first_of_cut {segment : Segment} {c : Char} {rest after : List Char}
    (cut : Cut segment after) (whole : segment.text ++ after = c :: rest) :
    first c rest = (segment, after) := by
  cases cut with
  | blank isBlank =>
    obtain ⟨rfl, rfl⟩ := List.cons.inj whole
    exact first_of_isBlank _ isBlank
  | lineComment noNewline lineEnds =>
    obtain ⟨rfl, rfl⟩ := List.cons.inj whole
    exact first_of_lineComment noNewline lineEnds
  | blockComment notEarlier =>
    simp only [text, List.cons_append, List.append_assoc, List.nil_append, List.cons.injEq] at whole
    obtain ⟨rfl, rfl⟩ := whole
    show comment _ = _
    rw [comment, uncomment?_of_not_infix notEarlier]
  | token noComment longest =>
    simp only [text] at whole
    rw [whole] at noComment longest
    exact first_of_longest noComment longest whole
  | unexpected notBlank notQuote noLexeme =>
    obtain ⟨rfl, rfl⟩ := List.cons.inj whole
    exact first_of_no_lexeme notBlank notQuote noLexeme
  | openString noQuote =>
    simp only [text, List.append_nil, List.cons.injEq] at whole
    obtain ⟨rfl, rfl⟩ := whole
    exact quoted_of_open noQuote
  | openComment notClosed =>
    simp only [text, List.append_nil, List.cons.injEq] at whole
    obtain ⟨rfl, rfl⟩ := whole
    show comment _ = _
    rw [comment, uncomment?_eq_none.mpr notClosed]

end Segment

theorem Cut.text_ne_nil {segment : Segment} {after : List Char} (cut : Cut segment after) :
    segment.text ≠ [] := by
  cases cut with
  | token _ longest => exact longest.1.ne_nil
  | _ => simp [Segment.text]

theorem segmentation_ofSource (source : List Char) :
    Segmentation source (Segment.ofSource source) := by
  induction length : source.length using Nat.strongRecOn generalizing source with
  | ind _ ih =>
    cases source with
    | nil => exact .nil
    | cons c rest =>
      have shorter := Segment.length_after_first c rest
      have others := ih _ (by simp at length; omega) (Segment.first c rest).2 rfl
      have divided := Segmentation.cons (Segment.cut_first c rest) others
      rwa [Segment.first_append, ← Segment.ofSource_cons] at divided

theorem Segmentation.eq_ofSource {source : List Char} {segments : List Segment}
    (divided : Segmentation source segments) : segments = Segment.ofSource source := by
  induction divided with
  | nil => rfl
  | @cons segment others after cut _ ih =>
    obtain ⟨c, tail, split⟩ := List.exists_cons_of_ne_nil cut.text_ne_nil
    have whole : segment.text ++ after = c :: (tail ++ after) := by rw [split, List.cons_append]
    rw [whole, Segment.ofSource_cons, Segment.first_of_cut cut whole, ih]

namespace Segmentation

variable {source : List Char} {segments : List Segment}

theorem iff_ofSource : Segmentation source segments ↔ segments = Segment.ofSource source :=
  ⟨eq_ofSource, fun same => same ▸ segmentation_ofSource source⟩

theorem flatMap_text (divided : Segmentation source segments) :
    segments.flatMap Segment.text = source := by
  induction divided with
  | nil => rfl
  | cons _ _ ih => rw [List.flatMap_cons, ih]

theorem exists_cut (divided : Segmentation source segments) {before behind : List Segment}
    {segment : Segment} (split : segments = before ++ segment :: behind) :
    Cut segment (behind.flatMap Segment.text) := by
  induction divided generalizing before with
  | nil => simp at split
  | cons cut others ih =>
    cases before with
    | nil =>
      obtain ⟨rfl, rfl⟩ := List.cons.inj split
      rwa [others.flatMap_text]
    | cons first before => exact ih (List.cons.inj split).2

theorem lexeme_of_mem (divided : Segmentation source segments) {kind : TokenKind}
    {lexeme : List Char} (member : .token kind lexeme ∈ segments) : Lexeme kind lexeme := by
  obtain ⟨before, behind, split⟩ := List.append_of_mem member
  cases divided.exists_cut split with
  | token _ longest => exact longest.1

end Segmentation

end Lox
