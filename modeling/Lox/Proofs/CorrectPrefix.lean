import Lox.Proofs.Answers
import Lox.Proofs.Completeness.Statement

/-!
The correct-prefix property: the parser stops at the first token that no program can have in its
place, and at none before. Targets of assignments do not count, since the parser goes on after them.
-/

namespace Lox

namespace Grammar

theorem body_append {tokens : List Token} (noEnd : ∀ token ∈ tokens, token.kind ≠ .eof)
    (others : List Token) : body (tokens ++ others) = tokens ++ body others :=
  List.takeWhile_append_of_pos (by simpa using noEnd)

theorem endToken_append_end {tokens : List Token} (noEnd : ∀ token ∈ tokens, token.kind ≠ .eof)
    {last : Token} (isEnd : last.kind = .eof) (more : List Token) :
    endToken (tokens ++ last :: more) = last := by
  have none : tokens.find? (·.kind = .eof) = none := by simpa using noEnd
  simp [endToken, none, isEnd]

theorem kind_endToken (tokens : List Token) : (endToken tokens).kind = .eof := by
  unfold endToken
  cases found : tokens.find? (·.kind = .eof) with
  | none => rfl
  | some token => simpa using List.find?_some found

theorem not_eof_of_mem_body {tokens : List Token} {token : Token} (member : token ∈ body tokens) :
    token.kind ≠ .eof := by
  have all : (body tokens).all (·.kind ≠ .eof) := List.all_takeWhile
  simpa using List.all_eq_true.mp all token member

end Grammar

theorem parse_append_end {tokens : List Token} {last : Token}
    (noEnd : ∀ token ∈ tokens, token.kind ≠ .eof) (isEnd : last.kind = .eof) (more : List Token)
    {statements : List Stmt} {rest : List Token} {complaints : List Complaint}
    (run : Grammar.program tokens.length tokens = ⟨.ok statements, rest, complaints⟩) :
    parse (tokens ++ last :: more) = ⟨statements, complaints.map (·.against last)⟩ := by
  have body := Grammar.body_append_end noEnd isEnd more
  rw [parse_of_run (by rwa [body]), Grammar.endToken_append_end noEnd isEnd more]

def Program.firstStop? (program : Program) : Option ParseError :=
  program.errors.find? (·.fault ≠ .invalidTarget)

theorem firstStop?_parse (tokens : List Token) :
    let body := Grammar.body tokens
    (parse tokens).firstStop? = (firstStop? (Grammar.program body.length body).complaints).map
      (·.against (Grammar.endToken tokens)) := by
  intro body
  obtain ⟨statements, rest, complaints, run⟩ :=
    Grammar.program_ok (Grammar.body tokens).length (Grammar.body tokens)
  rw [parse_of_run run, run, Program.firstStop?, List.find?_map]
  rfl

section

variable {tokens : List Token}

theorem firstStop?_of_reads (reads : Grammar.Reads [] (Grammar.body tokens) [] []) :
    (parse tokens).firstStop? = none := by
  rw [firstStop?_parse]
  obtain ⟨smooth, -⟩ | ⟨complaint, -, refuses⟩ := Grammar.program_answers (Grammar.body tokens)
  · rw [smooth, Option.map_none]
  · exact absurd reads refuses.not_reads_all

theorem firstStop?_of_refuses {complaint : Complaint}
    (refuses : Grammar.Refuses [] (Grammar.body tokens) complaint) :
    (parse tokens).firstStop? = some (complaint.against (Grammar.endToken tokens)) := by
  rw [firstStop?_parse]
  obtain ⟨-, reads⟩ | ⟨other, stops, otherRefuses⟩ :=
    Grammar.program_answers (Grammar.body tokens)
  · exact absurd reads refuses.not_reads_all
  · rw [stops, Option.map_some, refuses.unique otherRefuses]

theorem refuses_of_firstStop? {error : ParseError}
    (stopped : (parse tokens).firstStop? = some error) :
    ∃ complaint, Grammar.Refuses [] (Grammar.body tokens) complaint ∧
      error = complaint.against (Grammar.endToken tokens) := by
  rw [firstStop?_parse] at stopped
  obtain ⟨smooth, -⟩ | ⟨complaint, stops, refuses⟩ := Grammar.program_answers (Grammar.body tokens)
  · simp [smooth] at stopped
  · rw [stops, Option.map_some, Option.some.injEq] at stopped
    exact ⟨complaint, refuses, stopped.symm⟩

end

/-- Each token has its position for a line: the parser does not look at lines. -/
def numbered (tokens : List Token) : List Token :=
  tokens.mapIdx fun position token => { token with line := position }

def stopPosition? (tokens : List Token) : Option Nat :=
  (parse (numbered tokens)).firstStop?.map (·.token.line)

theorem line_of_getElem?_numbered {tokens : List Token} {position : Nat} {token : Token}
    (found : (numbered tokens)[position]? = some token) : token.line = position := by
  rw [numbered, List.getElem?_mapIdx, Option.map_eq_some_iff] at found
  obtain ⟨original, -, rfl⟩ := found
  rfl

theorem kinds_numbered (tokens : List Token) :
    (numbered tokens).map (·.kind) = tokens.map (·.kind) := by
  apply List.ext_getElem?
  intro position
  simp [numbered, Function.comp_def]

theorem getElem?_append_last {tokens : List Token} {position : Nat}
    (within : position ≤ tokens.length) (last : Token) (more : List Token) :
    (tokens ++ last :: more)[position]? = some (tokens[position]?.getD last) := by
  by_cases inside : position < tokens.length
  · rw [List.getElem?_append_left inside]
    simp [inside]
  · obtain rfl : position = tokens.length := by omega
    simp

theorem not_eof_of_mem_numbered {tokens : List Token}
    (noEnd : ∀ token ∈ tokens, token.kind ≠ .eof) :
    ∀ token ∈ numbered tokens, token.kind ≠ .eof := by
  intro token member
  have kept : token.kind ∈ (numbered tokens).map (·.kind) := List.mem_map_of_mem member
  rw [kinds_numbered] at kept
  obtain ⟨original, inTokens, same⟩ := List.mem_map.mp kept
  rw [← same]
  exact noEnd original inTokens

theorem numbered_append_end (tokens more : List Token) {last : Token} (isEnd : last.kind = .eof) :
    ∃ ending later, numbered (tokens ++ last :: more) = numbered tokens ++ ending :: later ∧
      ending.kind = .eof := by
  rw [numbered, List.mapIdx_append, List.mapIdx_cons]
  exact ⟨_, _, rfl, isEnd⟩

namespace Grammar.RefusedAt

variable {tokens : List Token} {position : Nat} {complaint : Complaint}
variable (refused : RefusedAt tokens position complaint)
variable (noEnd : ∀ token ∈ tokens, token.kind ≠ .eof)

include refused noEnd

theorem stopPosition?_eq {last : Token} (isEnd : last.kind = .eof) (more : List Token) :
    stopPosition? (tokens ++ last :: more) = some position := by
  have numberedNoEnd := not_eof_of_mem_numbered noEnd
  obtain ⟨ending, later, split, endsNumbered⟩ := numbered_append_end tokens more isEnd
  have body := body_append_end numberedNoEnd endsNumbered later
  have isLast := endToken_append_end numberedNoEnd endsNumbered later
  have refuses := refused.of_kinds (numbered tokens) (kinds_numbered tokens)
  have within : position ≤ (numbered tokens).length := by simpa [numbered] using refused.within
  have found : (numbered (tokens ++ last :: more))[position]? =
      some ((numbered tokens)[position]?.getD ending) := by
    rw [split, getElem?_append_last within]
  rw [stopPosition?, firstStop?_of_refuses (by rwa [split, body]), split, isLast, Option.map_some]
  exact congrArg some (line_of_getElem?_numbered found)

theorem completable : ∃ others : List Token, (∀ token ∈ others, token.kind ≠ .eof) ∧
    ∀ stop : Token, stop.kind = .eof →
      (parse (tokens.take position ++ others ++ [stop])).firstStop? = none := by
  obtain ⟨others, othersNoEnd, reads⟩ := refused.completes
  refine ⟨others, othersNoEnd, fun stop isEnd => firstStop?_of_reads ?_⟩
  have front : ∀ token ∈ tokens.take position, token.kind ≠ .eof :=
    fun token member => noEnd token (List.mem_of_mem_take member)
  rwa [List.append_assoc, body_append front, body_append_end othersNoEnd isEnd]

theorem firstStop?_eq (inside : position < tokens.length) (others : List Token) :
    (parse (tokens.take (position + 1) ++ others)).firstStop? =
      some ⟨tokens[position], complaint.fault⟩ := by
  have front : ∀ token ∈ tokens.take (position + 1), token.kind ≠ .eof :=
    fun token member => noEnd token (List.mem_of_mem_take member)
  have body : body (tokens.take (position + 1) ++ others) =
      tokens.take position ++ tokens[position] :: body others := by
    rw [body_append front, ← List.take_append_getElem inside, List.append_assoc]
    rfl
  have here : tokens[position]? = some tokens[position] := List.getElem?_eq_getElem inside
  have refuses := refused.refuses (tokens[position] :: Grammar.body others) here.symm
  rw [← body] at refuses
  rw [firstStop?_of_refuses refuses, Complaint.against, refused.blamed, here, Option.getD_some]

end Grammar.RefusedAt

/-- The parser stops at the first token that no program can have there. What stands before it can
be completed, and it is blamed the same, whatever comes after it. -/
theorem correct_prefix_of_first_stop {tokens more : List Token} {last : Token} {error : ParseError}
    (noEnd : ∀ token ∈ tokens, token.kind ≠ .eof) (isEnd : last.kind = .eof)
    (stopped : (parse (tokens ++ last :: more)).firstStop? = some error) :
    ∃ position ≤ tokens.length,
      stopPosition? (tokens ++ last :: more) = some position ∧
      (tokens ++ last :: more)[position]? = some error.token ∧
      (∃ others : List Token, (∀ token ∈ others, token.kind ≠ .eof) ∧ ∀ stop : Token,
        stop.kind = .eof →
        (parse (tokens.take position ++ others ++ [stop])).firstStop? = none) ∧
      (position < tokens.length → ∀ (others : List Token) (stop : Token), stop.kind = .eof →
        (parse (tokens.take (position + 1) ++ others ++ [stop])).firstStop? = some error) := by
  obtain ⟨complaint, refuses, rfl⟩ := refuses_of_firstStop? stopped
  rw [Grammar.body_append_end noEnd isEnd] at refuses
  rw [Grammar.endToken_append_end noEnd isEnd]
  obtain ⟨position, refused⟩ := refuses.at_position
  refine ⟨position, refused.within, refused.stopPosition?_eq noEnd isEnd more, ?_,
    refused.completable noEnd, ?_⟩
  · rw [getElem?_append_last refused.within, ← refused.blamed]
    rfl
  · intro inside others stop _
    rw [List.append_assoc, refused.firstStop?_eq noEnd inside, Complaint.against, refused.blamed,
      List.getElem?_eq_getElem inside, Option.getD_some]

/-- A loop's body is no declaration: the word is blamed, and all before it could go on. -/
theorem first_stop_at_declaration_in_loop :
    let word : Token := ⟨.varWord, "var", none, 1⟩
    let loop : List Token := [⟨.whileWord, "while", none, 1⟩, ⟨.leftParen, "(", none, 1⟩,
      .name "a" 1, ⟨.rightParen, ")", none, 1⟩]
    let program := loop ++ [word, .name "b" 1, ⟨.semicolon, ";", none, 1⟩]
    (∀ token ∈ program, token.kind ≠ .eof) ∧
      (parse (program ++ [.eof 1])).firstStop? = some ⟨word, .noExpression⟩ ∧
      (∃ others : List Token, (∀ token ∈ others, token.kind ≠ .eof) ∧ ∀ stop : Token,
        stop.kind = .eof → (parse (loop ++ others ++ [stop])).firstStop? = none) ∧
      ∀ (others : List Token) (stop : Token), stop.kind = .eof →
        (parse (loop ++ [word] ++ others ++ [stop])).firstStop? = some ⟨word, .noExpression⟩ := by
  intro word loop program
  have noEnd : ∀ token ∈ program, token.kind ≠ .eof := by decide
  have stopped : (parse (program ++ [.eof 1])).firstStop? = some ⟨word, .noExpression⟩ := by
    decide +kernel
  obtain ⟨position, -, found, -, completes, stops⟩ := correct_prefix_of_first_stop noEnd rfl stopped
  have fourth : stopPosition? (program ++ [.eof 1]) = some 4 := by decide +kernel
  obtain rfl : 4 = position := Option.some.inj (fourth.symm.trans found)
  exact ⟨noEnd, stopped, completes, stops (by decide)⟩

end Lox
