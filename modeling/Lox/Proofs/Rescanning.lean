import Lox.Proofs.Concatenation

/-!
Lexemes say all there is to say about the tokens of a source. Written one after the other with blank
space in between, they are scanned to the same tokens again, whatever stood around them at first.
-/

namespace Lox

theorem Lexeme.longest_alone {kind : TokenKind} {lexeme : List Char} (valid : Lexeme kind lexeme) :
    Longest kind lexeme (lexeme ++ []) := by
  refine ⟨valid, List.prefix_append _ _, ?_⟩
  intro other text _ ahead
  rw [List.append_nil] at ahead
  exact ahead.length_le

theorem Lexeme.cut {kind : TokenKind} {lexeme after : List Char} (valid : Lexeme kind lexeme)
    (apart : ∀ c ∈ after.head?, Segment.isBlank c) : Cut (.token kind lexeme) after := by
  have alone : Cut (.token kind lexeme) [] := by
    refine .token ?_ valid.longest_alone
    rw [List.append_nil]
    exact valid.not_opensComment
  cases after with
  | nil => exact alone
  | cons c more => exact alone.token_append_blank (apart c rfl) more

theorem Segmentation.blanks_append {text : List Char} {segments : List Segment}
    (divided : Segmentation text segments) {blanks : List Char}
    (blank : ∀ c ∈ blanks, Segment.isBlank c) :
    Segmentation (blanks ++ text) (blanks.map .blank ++ segments) := by
  induction blanks with
  | nil => exact divided
  | cons c blanks ih =>
    obtain ⟨first, others⟩ := List.forall_mem_cons.mp blank
    exact .cons (.blank first) (ih others)

theorem Segment.filter_isToken_blanks (blanks : List Char) :
    (blanks.map Segment.blank).filter isToken = [] := by
  rw [List.filter_eq_nil_iff, List.forall_mem_map]
  exact fun _ _ => nofun

theorem Segment.filterMap_fault?_blanks (blanks : List Char) :
    (blanks.map Segment.blank).filterMap fault? = [] := by
  rw [List.filterMap_eq_nil_iff, List.forall_mem_map]
  exact fun _ _ => rfl

def joinWith (separator : Nat → List Char) : List (List Char) → List Char
  | [] => []
  | [text] => text
  | text :: others => text ++ separator 0 ++ joinWith (fun i => separator (i + 1)) others

def Separates (separator : Nat → List Char) : Prop :=
  ∀ i, separator i ≠ [] ∧ ∀ c ∈ separator i, Segment.isBlank c

theorem segmentation_joinWith {separator : Nat → List Char} (separates : Separates separator)
    {tokens : List Token} (valid : ∀ token ∈ tokens, Lexeme token.kind token.lexeme.toList) :
    ∃ segments, Segmentation (joinWith separator (tokens.map (·.lexeme.toList))) segments ∧
      segments.filter Segment.isToken = tokens.map Token.segment ∧
      segments.filterMap Segment.fault? = [] := by
  induction tokens generalizing separator with
  | nil => exact ⟨[], .nil, rfl, rfl⟩
  | cons token others ih =>
    obtain ⟨tokenValid, othersValid⟩ := List.forall_mem_cons.mp valid
    cases others with
    | nil =>
      have whole := Segmentation.cons (tokenValid.cut (by simp)) .nil
      rw [List.append_nil] at whole
      exact ⟨[token.segment], whole, rfl, rfl⟩
    | cons next later =>
      obtain ⟨nonempty, blank⟩ := separates 0
      obtain ⟨segments, divided, isTokens, noFaults⟩ := ih (fun i => separates (i + 1)) othersValid
      have spaced := divided.blanks_append blank
      obtain ⟨c, blanks, same⟩ := List.exists_cons_of_ne_nil nonempty
      have cut : Cut token.segment (separator 0 ++ joinWith (fun i => separator (i + 1))
          ((next :: later).map (·.lexeme.toList))) := by
        apply tokenValid.cut
        simpa [same] using blank c (by simp [same])
      refine ⟨token.segment :: ((separator 0).map .blank ++ segments), ?_, ?_, ?_⟩
      · show Segmentation (token.lexeme.toList ++ separator 0 ++ _) _
        rw [List.append_assoc]
        exact .cons cut spaced
      · rw [List.filter_cons_of_pos rfl, List.filter_append, Segment.filter_isToken_blanks,
          isTokens]
        rfl
      · rw [List.filterMap_cons_none rfl, List.filterMap_append, Segment.filterMap_fault?_blanks,
          noFaults]
        rfl

namespace Segment

theorem token?_segment {token : Token}
    (literal : token.literal = token.kind.literal? token.lexeme.toList) :
    token.segment.token? 0 = some (token.onLine fun _ => 0) := by
  simp [Token.segment, token?, Token.onLine, literal]

theorem filterMap_token?_segment {tokens : List Token}
    (literals : ∀ token ∈ tokens, token.literal = token.kind.literal? token.lexeme.toList) :
    (tokens.map Token.segment).filterMap (·.token? 0) = tokens.map (Token.onLine fun _ => 0) := by
  induction tokens with
  | nil => rfl
  | cons token others ih =>
    obtain ⟨literal, otherLiterals⟩ := List.forall_mem_cons.mp literals
    rw [List.map_cons, List.filterMap_cons, token?_segment literal, ih otherLiterals, List.map_cons]

end Segment

/-- The lexemes of a source, set apart by any blank space, are scanned without an error to the
tokens that the source has. -/
theorem scan_of_lexemes (source : String) :
    ∃ tokens line, (scan .tolerant source).tokens = tokens ++ [Token.eof line] ∧
      ∀ separator, Separates separator →
        ∃ again last, scan .tolerant
            (String.ofList (joinWith separator (tokens.map (·.lexeme.toList)))) =
            ⟨again ++ [Token.eof last], []⟩ ∧
          again.map (Token.onLine fun _ => 0) = tokens.map (Token.onLine fun _ => 0) ∧
          ∀ token ∈ again, token.kind ≠ .eof := by
  have original := segmentation_ofSource source.toList
  refine ⟨Segment.tokens 1 (Segment.ofSource source.toList), _, rfl, ?_⟩
  intro separator separates
  have lexemes : ∀ token ∈ Segment.tokens 1 (Segment.ofSource source.toList),
      Lexeme token.kind token.lexeme.toList := fun _ member => original.lexeme_of_mem_tokens member
  obtain ⟨segments, divided, isTokens, noFaults⟩ := segmentation_joinWith separates lexemes
  have clean : Segment.errors 1 segments = [] := by
    rw [← Segment.map_fault_errors 1, List.map_eq_nil_iff] at noFaults
    exact noFaults
  refine ⟨Segment.tokens 1 segments, Segment.endLine 1 segments, ?_, ?_, ?_⟩
  · rw [scan, String.toList_ofList, ← divided.eq_ofSource]
    simp only [Scan.tolerant_eq, clean]
  · have literals : ∀ {line segments}, ∀ token ∈ Segment.tokens line segments,
        token.literal = token.kind.literal? token.lexeme.toList :=
      fun _ => Segment.literal_of_mem_tokens
    rw [← Segment.filterMap_token?_segment literals, Segment.map_segment_tokens, isTokens,
      Segment.filterMap_token?_segment literals]
  · intro token member
    exact (divided.lexeme_of_mem_tokens member).kind_ne_eof

/-- From a faulty source, in which hardly any two lexemes are apart. -/
theorem scan_of_lexemes_close :
    let source := "7.x/ /*c*/*\"a\n\"!@=\"open"
    let separator (i : Nat) : List Char := if i % 2 = 0 then [' '] else ['\n', '\t']
    (scan .tolerant source).errors = [⟨2, .unexpected '@'⟩, ⟨2, .openString⟩] ∧
      Separates separator ∧
      (scan .tolerant "7 .\n\tx /\n\t* \"a\n\"\n\t! =").errors = [] ∧
      (scan .tolerant "7 .\n\tx /\n\t* \"a\n\"\n\t! =").tokens.map (Token.onLine fun _ => 0) =
        (scan .tolerant source).tokens.map (Token.onLine fun _ => 0) := by
  intro source separator
  have separates : Separates separator := by
    intro i
    by_cases even : i % 2 = 0 <;> simp [separator, even, Segment.isBlank]
  obtain ⟨tokens, line, split, rescanned⟩ := scan_of_lexemes source
  obtain ⟨again, last, scanned, same, -⟩ := rescanned separator separates
  have lexemes : tokens.map (·.lexeme.toList) =
      (scan .tolerant source).tokens.dropLast.map (·.lexeme.toList) := by
    rw [split, List.dropLast_concat]
  have text : String.ofList (joinWith separator (tokens.map (·.lexeme.toList))) =
      "7 .\n\tx /\n\t* \"a\n\"\n\t! =" := by
    rw [lexemes]
    decide +kernel
  rw [text] at scanned
  refine ⟨by decide +kernel, separates, by rw [scanned], ?_⟩
  rw [scanned, split, List.map_append, List.map_append, same]
  rfl

end Lox
