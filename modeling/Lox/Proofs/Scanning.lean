import Lox.Proofs.Segmentation
import Lox.Scan

/-!
A scan keeps the token segments of a source, in order and with their text, and reports the faulty
ones. Its line counter keeps up with the source. A strict scan differs from a tolerant one only
where there is an error.
-/

namespace Lox

namespace Segment

def isToken : Segment → Bool
  | token .. => true
  | _ => false

def isOpen : Segment → Bool
  | openString _ | openComment _ => true
  | _ => false

def tokens (line : Nat) (segments : List Segment) : List Token :=
  (onLines line segments).filterMap fun (segment, line) => segment.token? line

def errors (line : Nat) (segments : List Segment) : List ScanError :=
  (onLines line segments).filterMap fun (segment, line) => segment.error? line

theorem tokens_cons (line : Nat) (segment : Segment) (others : List Segment) :
    tokens line (segment :: others) =
      (segment.token? (segment.lineAfter line)).toList ++
        tokens (segment.lineAfter line) others := by
  cases found : segment.token? (segment.lineAfter line) <;> simp [tokens, onLines, found]

theorem errors_cons (line : Nat) (segment : Segment) (others : List Segment) :
    errors line (segment :: others) =
      (segment.error? (segment.lineAfter line)).toList ++
        errors (segment.lineAfter line) others := by
  cases found : segment.error? (segment.lineAfter line) <;> simp [errors, onLines, found]

theorem foldl_advanceLine (line : Nat) (characters : List Char) :
    characters.foldl advanceLine line = line + characters.count '\n' := by
  induction characters generalizing line with
  | nil => rfl
  | cons c others ih =>
    rw [List.foldl_cons, ih, advanceLine]
    by_cases newline : c = '\n'
    · simp only [newline, if_true, List.count_cons_self]
      omega
    · rw [if_neg newline, List.count_cons_of_ne newline]

theorem lineAfter_add (segment : Segment) (line more : Nat) :
    segment.lineAfter (line + more) = segment.lineAfter line + more := by
  have moved (characters : List Char) : characters.foldl advanceLine (line + more) =
      characters.foldl advanceLine line + more := by
    rw [foldl_advanceLine, foldl_advanceLine]
    omega
  cases segment with
  | blank c => exact moved [c]
  | token kind lexeme =>
    cases kind with
    | string => exact moved _
    | _ => rfl
  | blockComment body | openString body | openComment body => exact moved body
  | lineComment _ | unexpected _ => rfl

theorem le_lineAfter (segment : Segment) (line : Nat) : line ≤ segment.lineAfter line := by
  have moved := segment.lineAfter_add 0 line
  rw [Nat.zero_add] at moved
  omega

theorem le_endLine (line : Nat) (segments : List Segment) : line ≤ endLine line segments := by
  induction segments generalizing line with
  | nil => exact Nat.le_refl _
  | cons segment others ih => exact Nat.le_trans (segment.le_lineAfter line) (ih _)

end Segment

/-- The counter keeps up with the text: what is taken without a look for newlines has none. -/
theorem Cut.lineAfter_eq {segment : Segment} {after : List Char} (cut : Cut segment after)
    (line : Nat) : segment.lineAfter line = line + segment.text.count '\n' := by
  cases cut with
  | blank _ => exact Segment.foldl_advanceLine line [_]
  | lineComment noNewline _ =>
    have none := List.count_eq_zero.mpr noNewline
    simp [Segment.lineAfter, Segment.text, none]
  | blockComment _ | openString _ | openComment _ =>
    simp [Segment.lineAfter, Segment.text, Segment.foldl_advanceLine]
  | @token kind lexeme _ _ longest =>
    by_cases isString : kind = .string
    · subst isString
      obtain ⟨body, -, rfl⟩ := longest.1.quoted
      simp [Segment.lineAfter, Segment.text, Segment.foldl_advanceLine]
    · have isBlank : Segment.isBlank '\n' := by decide
      have noNewline := longest.1.blank_not_mem isString isBlank
      have none : lexeme.count '\n' = 0 := List.count_eq_zero.mpr noNewline
      have kept : (Segment.token kind lexeme).lineAfter line = line := by
        cases kind with
        | string => exact absurd rfl isString
        | _ => rfl
      rw [kept, Segment.text, none, Nat.add_zero]
  | @unexpected c _ notBlank _ _ =>
    have notNewline : c ≠ '\n' := by
      rintro rfl
      exact absurd notBlank (by decide)
    simp [Segment.lineAfter, Segment.text, notNewline]

theorem Segmentation.endLine_eq {source : List Char} {segments : List Segment}
    (divided : Segmentation source segments) (line : Nat) :
    Segment.endLine line segments = line + source.count '\n' := by
  induction divided generalizing line with
  | nil => rfl
  | cons cut _ ih =>
    rw [Segment.endLine, List.foldl_cons, ← Segment.endLine, ih, cut.lineAfter_eq,
      List.count_append]
    omega

theorem Segment.endLine_ofSource (line : Nat) (source : List Char) :
    endLine line (ofSource source) = line + source.count '\n' :=
  (segmentation_ofSource source).endLine_eq line

namespace Scan

theorem tolerant_eq (segments : List Segment) :
    tolerant segments =
      ⟨Segment.tokens 1 segments ++ [Token.eof (Segment.endLine 1 segments)],
        Segment.errors 1 segments⟩ := rfl

theorem untilError_eq (line : Nat) (segments : List Segment) :
    untilError line segments =
      match Segment.errors line segments with
      | [] => .ok (Segment.tokens line segments ++ [Token.eof (Segment.endLine line segments)])
      | error :: _ => .error error := by
  induction segments generalizing line with
  | nil => rfl
  | cons segment others ih =>
    rw [untilError, Segment.errors_cons, Segment.tokens_cons, ih]
    cases segment.error? (segment.lineAfter line) with
    | some error => rfl
    | none =>
      cases clean : Segment.errors (segment.lineAfter line) others with
      | nil => simp [bind, Except.bind, pure, Except.pure, Segment.endLine]
      | cons error _ => simp [bind, Except.bind]

/-- A strict scan stands for the tolerant one if there is no error, and for the first error if there
is one. -/
theorem strict_eq (segments : List Segment) :
    strict segments =
      match (tolerant segments).errors with
      | [] => tolerant segments
      | error :: _ => ⟨[], [error]⟩ := by
  rw [strict, untilError_eq, tolerant_eq]
  cases clean : Segment.errors 1 segments <;> simp

end Scan

theorem scan_of_tolerant {mode : ScanMode} {source : String}
    (clean : (scan .tolerant source).errors = []) : scan mode source = scan .tolerant source := by
  cases mode with
  | tolerant => rfl
  | strict =>
    refine (Scan.strict_eq _).trans ?_
    rw [show (Scan.tolerant (Segment.ofSource source.toList)).errors = [] from clean]
    rfl

theorem scan_of_clean {mode : ScanMode} {source : String}
    (clean : (scan mode source).errors = []) : (scan .tolerant source).errors = [] := by
  cases mode with
  | tolerant => exact clean
  | strict =>
    have strict := Scan.strict_eq (Segment.ofSource source.toList)
    cases errors : (scan .tolerant source).errors with
    | nil => rfl
    | cons error others =>
      change (Scan.tolerant (Segment.ofSource source.toList)).errors = error :: others at errors
      rw [errors] at strict
      simp [scan, strict] at clean

def Token.segment (token : Token) : Segment := .token token.kind token.lexeme.toList

/-- The value that a token holds on to. -/
inductive Denotes : TokenKind → List Char → Option Value → Prop
  | string {body} : Denotes .string ('"' :: (body ++ ['"'])) (some (.string (String.ofList body)))
  | number {digits} : Denotes .number digits (some (.number (Number.ofNumeral digits)))
  | other {kind lexeme} : kind ≠ .string → kind ≠ .number → Denotes kind lexeme none

theorem Lexeme.denotes {kind : TokenKind} {lexeme : List Char} (valid : Lexeme kind lexeme) :
    Denotes kind lexeme (kind.literal? lexeme) := by
  cases kind with
  | string =>
    obtain ⟨body, -, rfl⟩ := valid.quoted
    have inner : (('"' :: (body ++ ['"'])).drop 1).dropLast = body := by simp
    rw [TokenKind.literal?, inner]
    exact .string
  | number => exact .number
  | _ => exact .other (by decide) (by decide)

namespace Segment

theorem token?_eq_some {segment : Segment} {line : Nat} {token : Token}
    (found : segment.token? line = some token) :
    token.segment = segment ∧ token.line = line ∧
      token.literal = token.kind.literal? token.lexeme.toList := by
  cases segment with
  | token kind lexeme =>
    obtain rfl := Option.some.inj found
    simp [Token.segment]
  | _ => simp [token?] at found

theorem map_segment_tokens (line : Nat) (segments : List Segment) :
    (tokens line segments).map Token.segment = segments.filter isToken := by
  induction segments generalizing line with
  | nil => rfl
  | cons segment others ih =>
    rw [tokens_cons, List.map_append, ih, List.filter_cons]
    cases segment <;> simp [token?, isToken, Token.segment]

theorem map_fault_errors (line : Nat) (segments : List Segment) :
    (errors line segments).map ScanError.fault = segments.filterMap fault? := by
  induction segments generalizing line with
  | nil => rfl
  | cons segment others ih =>
    rw [errors_cons, List.map_append, ih, List.filterMap_cons]
    cases segment <;> simp [error?, fault?]

theorem literal_of_mem_tokens {line : Nat} {segments : List Segment} {token : Token}
    (member : token ∈ tokens line segments) :
    token.literal = token.kind.literal? token.lexeme.toList := by
  obtain ⟨⟨segment, ends⟩, -, found⟩ := List.mem_filterMap.mp member
  exact (token?_eq_some found).2.2

theorem segment_mem_of_mem_tokens {line : Nat} {segments : List Segment} {token : Token}
    (member : token ∈ tokens line segments) : token.segment ∈ segments := by
  have mapped := List.mem_map_of_mem (f := Token.segment) member
  rw [map_segment_tokens] at mapped
  exact (List.mem_filter.mp mapped).1

end Segment

namespace Segmentation

variable {source : List Char} {segments : List Segment}

theorem lexeme_of_mem_tokens (divided : Segmentation source segments) {line : Nat} {token : Token}
    (member : token ∈ Segment.tokens line segments) : Lexeme token.kind token.lexeme.toList :=
  divided.lexeme_of_mem (Segment.segment_mem_of_mem_tokens member)

theorem denotes_of_mem_tokens (divided : Segmentation source segments) {line : Nat} {token : Token}
    (member : token ∈ Segment.tokens line segments) :
    Denotes token.kind token.lexeme.toList token.literal := by
  rw [Segment.literal_of_mem_tokens member]
  exact (divided.lexeme_of_mem_tokens member).denotes

theorem text_ne_nil (divided : Segmentation source segments) :
    ∀ segment ∈ segments, segment.text ≠ [] := by
  intro segment member
  obtain ⟨before, behind, split⟩ := List.append_of_mem member
  exact (divided.exists_cut split).text_ne_nil

theorem open_last (divided : Segmentation source segments) {before behind : List Segment}
    {segment : Segment} (split : segments = before ++ segment :: behind)
    (isOpen : segment.isOpen) : behind = [] := by
  have nothing : behind.flatMap Segment.text = [] := by
    generalize same : behind.flatMap Segment.text = after
    have cut := divided.exists_cut split
    rw [same] at cut
    cases cut with
    | openString _ | openComment _ => rfl
    | _ => simp [Segment.isOpen] at isOpen
  cases behind with
  | nil => rfl
  | cons next others =>
    have some := divided.text_ne_nil next (by simp [split])
    simp [some] at nothing

end Segmentation

/-- The segments of a source are the only way to divide it, and the scan consists of them. -/
theorem scan_tolerant_of_segmentation (source : String) :
    ∃ segments, (∀ other, Segmentation source.toList other ↔ other = segments) ∧
      segments.flatMap Segment.text = source.toList ∧
      (∀ segment ∈ segments, segment.text ≠ []) ∧
      (∀ before segment behind, segments = before ++ segment :: behind → segment.isOpen →
        behind = []) ∧
      ∃ tokens line, (scan .tolerant source).tokens = tokens ++ [Token.eof line] ∧
        tokens.map Token.segment = segments.filter Segment.isToken ∧
        (∀ token ∈ tokens, ∀ kind, Lexeme kind token.lexeme.toList ↔ kind = token.kind) ∧
        (∀ token ∈ tokens, Denotes token.kind token.lexeme.toList token.literal) ∧
        (scan .tolerant source).errors.map ScanError.fault =
          segments.filterMap Segment.fault? := by
  have divided := segmentation_ofSource source.toList
  refine ⟨Segment.ofSource source.toList, fun _ => Segmentation.iff_ofSource,
    divided.flatMap_text, divided.text_ne_nil, fun _ _ _ => divided.open_last,
    Segment.tokens 1 (Segment.ofSource source.toList),
    Segment.endLine 1 (Segment.ofSource source.toList), rfl,
    Segment.map_segment_tokens _ _, ?_, fun _ => divided.denotes_of_mem_tokens,
    Segment.map_fault_errors _ _⟩
  intro token member kind
  have valid := divided.lexeme_of_mem_tokens member
  constructor
  · intro otherValid
    exact otherValid.kind_unique valid
  · rintro rfl
    exact valid

end Lox
