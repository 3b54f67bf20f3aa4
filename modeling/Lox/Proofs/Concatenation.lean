import Lox.Proofs.Relabelling
import Lox.Proofs.Scanning

/-!
A newline between two sources keeps their segments apart, unless the first one ends in a string or a
comment that is never closed. The second one's lines are counted on from the first one's.
-/

namespace Lox

theorem prefix_of_not_mem {c : Char} {text front back : List Char} (notInside : c ∉ text)
    (ahead : text <+: front ++ c :: back) : text <+: front := by
  rcases List.prefix_or_prefix_of_prefix ahead (List.prefix_append _ _) with inside | ⟨more, rfl⟩
  · exact inside
  · rw [List.prefix_append_right_inj] at ahead
    cases more with
    | nil => simp
    | cons d more =>
      obtain ⟨rfl, -⟩ := List.cons_prefix_cons.mp ahead
      simp at notInside

theorem Lexeme.string_unique {lexeme other input : List Char} (valid : Lexeme .string lexeme)
    (otherValid : Lexeme .string other) (ahead : lexeme <+: input) (otherAhead : other <+: input) :
    lexeme = other := by
  obtain ⟨body, noQuote, rfl⟩ := valid.quoted
  obtain ⟨otherBody, otherNoQuote, rfl⟩ := otherValid.quoted
  obtain ⟨rest, rfl⟩ := ahead
  obtain ⟨otherRest, same⟩ := otherAhead
  simp only [List.cons_append, List.append_assoc, List.nil_append, List.cons.injEq, true_and]
    at same
  have read : Segment.quoted (otherBody ++ '"' :: otherRest) = _ :=
    Segment.quoted_of_closed otherNoQuote
  rw [same, Segment.quoted_of_closed noQuote] at read
  simpa using congrArg Prod.fst read

theorem Longest.append_blank {kind : TokenKind} {lexeme after : List Char}
    (longest : Longest kind lexeme (lexeme ++ after)) {blank : Char}
    (isBlank : Segment.isBlank blank) (more : List Char) :
    Longest kind lexeme (lexeme ++ (after ++ blank :: more)) := by
  obtain ⟨valid, -, noLonger⟩ := longest
  refine ⟨valid, List.prefix_append _ _, ?_⟩
  intro other text otherValid ahead
  by_cases isString : other = .string
  · subst isString
    have sameKind : kind = .string := by
      obtain ⟨body, -, rfl⟩ := otherValid.quoted
      obtain ⟨c, tail, rfl⟩ := List.exists_cons_of_ne_nil valid.ne_nil
      obtain ⟨rfl, -⟩ := List.cons_prefix_cons.mp ahead
      exact valid.kind_of_quote
    subst sameKind
    have same := otherValid.string_unique valid ahead (List.prefix_append _ _)
    exact Nat.le_of_eq (congrArg List.length same)
  · rw [← List.append_assoc] at ahead
    exact noLonger _ _ otherValid
      (prefix_of_not_mem (otherValid.blank_not_mem isString isBlank) ahead)

theorem Cut.token_append_blank {kind : TokenKind} {lexeme after : List Char}
    (cut : Cut (.token kind lexeme) after) {blank : Char} (isBlank : Segment.isBlank blank)
    (more : List Char) : Cut (.token kind lexeme) (after ++ blank :: more) := by
  have notSlash : ∀ c, Segment.isBlank c = false → blank ∉ ['/', c] := by
    rintro c notBlank inside
    simp only [List.mem_cons, List.not_mem_nil, or_false] at inside
    rcases inside with rfl | rfl
    · exact absurd isBlank (by decide)
    · rw [isBlank] at notBlank
      contradiction
  cases cut with
  | token noComment longest =>
    refine .token ?_ (longest.append_blank isBlank more)
    rw [← List.append_assoc]
    rintro (line | block)
    · exact noComment (.inl (prefix_of_not_mem (notSlash '/' (by decide)) line))
    · exact noComment (.inr (prefix_of_not_mem (notSlash '*' (by decide)) block))

theorem Cut.append_newline {segment : Segment} {after : List Char} (cut : Cut segment after)
    (closed : segment.isOpen = false) (more : List Char) :
    Cut segment (after ++ '\n' :: more) := by
  have isBlank : Segment.isBlank '\n' := by decide
  cases cut with
  | blank isBlank => exact .blank isBlank
  | lineComment noNewline lineEnds =>
    apply Cut.lineComment noNewline
    intro c next
    cases after with
    | nil => simpa using next.symm
    | cons d after => exact lineEnds c next
  | blockComment notEarlier => exact .blockComment notEarlier
  | token noComment longest => exact (Cut.token noComment longest).token_append_blank isBlank more
  | unexpected notBlank notQuote noLexeme =>
    apply Cut.unexpected notBlank notQuote
    intro kind lexeme valid ahead
    by_cases isString : kind = .string
    · subst isString
      obtain ⟨body, -, rfl⟩ := valid.quoted
      exact notQuote (List.cons_prefix_cons.mp ahead).1.symm
    · exact noLexeme _ _ valid
        (prefix_of_not_mem (valid.blank_not_mem isString isBlank) ahead)
  | openString _ => simp [Segment.isOpen] at closed
  | openComment _ => simp [Segment.isOpen] at closed

theorem Segmentation.append_newline {source more : List Char} {segments others : List Segment}
    (divided : Segmentation source segments) (closed : ∀ s ∈ segments, s.isOpen = false)
    (second : Segmentation more others) :
    Segmentation (source ++ '\n' :: more) (segments ++ .blank '\n' :: others) := by
  induction divided with
  | nil => exact .cons (.blank (by decide)) second
  | cons cut _ ih =>
    obtain ⟨firstClosed, othersClosed⟩ := List.forall_mem_cons.mp closed
    rw [List.append_assoc, List.cons_append]
    exact .cons (cut.append_newline firstClosed more) (ih othersClosed)

theorem Segment.ofSource_append_newline {source : List Char}
    (closed : ∀ s ∈ ofSource source, s.isOpen = false) (more : List Char) :
    ofSource (source ++ '\n' :: more) = ofSource source ++ .blank '\n' :: ofSource more := by
  have first := segmentation_ofSource source
  have second := segmentation_ofSource more
  exact (first.append_newline closed second).eq_ofSource.symm

namespace Segment

theorem tokens_append (line : Nat) (segments others : List Segment) :
    tokens line (segments ++ others) =
      tokens line segments ++ tokens (endLine line segments) others := by
  induction segments generalizing line with
  | nil => rfl
  | cons segment segments ih =>
    rw [List.cons_append, tokens_cons, tokens_cons, ih, List.append_assoc]
    rfl

theorem errors_append (line : Nat) (segments others : List Segment) :
    errors line (segments ++ others) =
      errors line segments ++ errors (endLine line segments) others := by
  induction segments generalizing line with
  | nil => rfl
  | cons segment segments ih =>
    rw [List.cons_append, errors_cons, errors_cons, ih, List.append_assoc]
    rfl

theorem tokens_add (line more : Nat) (segments : List Segment) :
    tokens (line + more) segments = (tokens line segments).map (Token.onLine (· + more)) := by
  induction segments generalizing line with
  | nil => rfl
  | cons segment others ih =>
    rw [tokens_cons, tokens_cons, lineAfter_add, ih, List.map_append]
    cases segment <;> rfl

theorem errors_add (line more : Nat) (segments : List Segment) :
    errors (line + more) segments =
      (errors line segments).map fun error => { error with line := error.line + more } := by
  induction segments generalizing line with
  | nil => rfl
  | cons segment others ih =>
    rw [errors_cons, errors_cons, lineAfter_add, ih, List.map_append]
    cases segment <;> rfl

theorem not_isOpen_of_errors_eq_nil {line : Nat} {segments : List Segment}
    (clean : errors line segments = []) : ∀ segment ∈ segments, segment.isOpen = false := by
  intro segment member
  have faults := map_fault_errors line segments
  rw [clean, List.map_nil] at faults
  have noFault := List.filterMap_eq_nil_iff.mp faults.symm segment member
  cases segment with
  | openString _ | openComment _ => simp [fault?] at noFault
  | _ => rfl

section

variable {source : List Char} (closed : ∀ segment ∈ ofSource source, segment.isOpen = false)
  (more : List Char)

include closed

theorem tokens_append_newline :
    tokens 1 (ofSource (source ++ '\n' :: more)) =
      tokens 1 (ofSource source) ++
        (tokens 1 (ofSource more)).map (Token.onLine (· + (source.count '\n' + 1))) := by
  rw [ofSource_append_newline closed, tokens_append, tokens_cons, endLine_ofSource]
  have moved := tokens_add 1 (source.count '\n' + 1) (ofSource more)
  rw [← Nat.add_assoc] at moved
  exact congrArg _ moved

theorem errors_append_newline :
    errors 1 (ofSource (source ++ '\n' :: more)) =
      errors 1 (ofSource source) ++
        (errors 1 (ofSource more)).map fun error =>
          { error with line := error.line + (source.count '\n' + 1) } := by
  rw [ofSource_append_newline closed, errors_append, errors_cons, endLine_ofSource]
  have moved := errors_add 1 (source.count '\n' + 1) (ofSource more)
  rw [← Nat.add_assoc] at moved
  exact congrArg _ moved

end

end Segment

def linesBefore (source : String) : Nat := source.toList.count '\n' + 1

theorem scan_append_newline {first : String}
    (closed : ∀ segment ∈ Segment.ofSource first.toList, segment.isOpen = false)
    (second : String) :
    scan .tolerant (first ++ "\n" ++ second) =
      ⟨Segment.tokens 1 (Segment.ofSource first.toList) ++
          (Segment.tokens 1 (Segment.ofSource second.toList)).map
            (Token.onLine (· + linesBefore first)) ++
          [Token.eof (Segment.endLine 1 (Segment.ofSource (first ++ "\n" ++ second).toList))],
        Segment.errors 1 (Segment.ofSource first.toList) ++
          (Segment.errors 1 (Segment.ofSource second.toList)).map fun error =>
            { error with line := error.line + linesBefore first }⟩ := by
  have characters : (first ++ "\n" ++ second).toList =
      first.toList ++ '\n' :: second.toList := by
    simp
  have tokens := Segment.tokens_append_newline closed second.toList
  have errors := Segment.errors_append_newline closed second.toList
  rw [← characters] at tokens errors
  refine (Scan.tolerant_eq _).trans ?_
  rw [tokens, errors]
  rfl

theorem endLine_append_newline (first second : String) :
    Segment.endLine 1 (Segment.ofSource (first ++ "\n" ++ second).toList) =
      Segment.endLine 1 (Segment.ofSource second.toList) + linesBefore first := by
  simp only [Segment.endLine_ofSource, linesBefore, String.toList_append, List.count_append]
  have newline : "\n".toList.count '\n' = 1 := by decide
  omega

namespace Segment

theorem exists_error_of_fault {source : String} {segment : Segment}
    (member : segment ∈ ofSource source.toList) {fault : ScanFault}
    (found : segment.fault? = some fault) :
    ∃ error ∈ (scan .tolerant source).errors, error.fault = fault := by
  have faults : (scan .tolerant source).errors.map ScanError.fault = _ :=
    map_fault_errors 1 (ofSource source.toList)
  have reported : fault ∈ (scan .tolerant source).errors.map ScanError.fault := by
    rw [faults]
    exact List.mem_filterMap.mpr ⟨segment, member, found⟩
  exact List.mem_map.mp reported

theorem closed_of_messages {source : String}
    (closed : ∀ error ∈ (scan .tolerant source).errors,
      error.message ≠ "Unterminated string." ∧ error.message ≠ "Unterminated block comment.") :
    ∀ segment ∈ ofSource source.toList, segment.isOpen = false := by
  intro segment member
  cases segment with
  | openString _ =>
    obtain ⟨error, reported, fault⟩ := exists_error_of_fault member rfl
    exact absurd (congrArg ScanFault.message fault) (closed error reported).1
  | openComment _ =>
    obtain ⟨error, reported, fault⟩ := exists_error_of_fault member rfl
    exact absurd (congrArg ScanFault.message fault) (closed error reported).2
  | _ => rfl

end Segment

/-- Sources may be scanned one by one, faulty ones too, as long as nothing that is left open runs on
into the next one. -/
theorem scan_one_by_one {first : String}
    (closed : ∀ error ∈ (scan .tolerant first).errors,
      error.message ≠ "Unterminated string." ∧ error.message ≠ "Unterminated block comment.")
    (second : String) :
    ∃ tokens line, (scan .tolerant first).tokens = tokens ++ [Token.eof line] ∧
      scan .tolerant (first ++ "\n" ++ second) =
        ⟨tokens ++ (scan .tolerant second).tokens.map
            (Token.onLine (· + (first.toList.count '\n' + 1))),
          (scan .tolerant first).errors ++ (scan .tolerant second).errors.map fun error =>
            { error with line := error.line + (first.toList.count '\n' + 1) }⟩ := by
  refine ⟨Segment.tokens 1 (Segment.ofSource first.toList),
    Segment.endLine 1 (Segment.ofSource first.toList), rfl, ?_⟩
  have secondScan : scan .tolerant second = _ := Scan.tolerant_eq (Segment.ofSource second.toList)
  rw [scan_append_newline (Segment.closed_of_messages closed), endLine_append_newline, secondScan,
    List.map_append, List.append_assoc]
  rfl

/-- At the seam stand a point behind a number, a slash in front of a slash, and a comment that ends
with the first source; both sources are faulty. -/
theorem scan_one_by_one_stray :
    let first := "@\n1./"
    let second := "/5 // \"\n\"x"
    (∀ error ∈ (scan .tolerant first).errors,
      error.message ≠ "Unterminated string." ∧ error.message ≠ "Unterminated block comment.") ∧
    (scan .tolerant (first ++ "\n" ++ second)).tokens.map (fun t => (t.kind, t.line)) =
      [(.number, 2), (.dot, 2), (.slash, 2), (.slash, 3), (.number, 3), (.eof, 4)] ∧
    (scan .tolerant (first ++ "\n" ++ second)).errors =
      [⟨1, .unexpected '@'⟩, ⟨4, .openString⟩] := by
  intro first second
  have closed : ∀ error ∈ (scan .tolerant first).errors,
      error.message ≠ "Unterminated string." ∧ error.message ≠ "Unterminated block comment." := by
    decide +kernel
  obtain ⟨tokens, line, split, joined⟩ := scan_one_by_one closed second
  obtain rfl : tokens = (scan .tolerant first).tokens.dropLast := by rw [split, List.dropLast_concat]
  refine ⟨closed, ?_, ?_⟩
  · rw [joined]
    decide +kernel
  · rw [joined]
    decide +kernel

end Lox
