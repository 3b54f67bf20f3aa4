import Lox.Proofs.CorrectPrefix
import Lox.Proofs.Seams
import Lox.Scan

/-!
Errors stay where they are made: tokens that are complete in themselves are parsed the same whatever
comes behind them, and what comes behind them is parsed as if it stood alone.
-/

namespace Lox

namespace Grammar

open Lox.Parser

/-- The complaints about some tokens that need none behind them: no complaint is about the end, and
if there is one at all, a semicolon ends the search for the next statement. -/
structure Contained (tokens : List Token) (complaints : List Complaint) : Prop where
  inside : ∀ complaint ∈ complaints, complaint.blamed ≠ none
  ended : complaints = [] ∨ ∀ token ∈ tokens.getLast?, token.kind = .semicolon

theorem getLast?_of_suffix {tokens rest : List Token} (suffix : rest <:+ tokens) {token : Token}
    (isLast : token ∈ rest.getLast?) : token ∈ tokens.getLast? := by
  obtain ⟨front, rfl⟩ := suffix
  rw [List.getLast?_append, Option.mem_def.mp isLast]
  rfl

namespace Contained

variable {tokens rest : List Token} {complaints others : List Complaint}

theorem front (contained : Contained tokens (complaints ++ others)) :
    Contained tokens complaints where
  inside := fun complaint member => contained.inside complaint (List.mem_append_left _ member)
  ended := contained.ended.imp_left fun none => (List.append_eq_nil_iff.mp none).1

theorem back (contained : Contained tokens (complaints ++ others)) (suffix : rest <:+ tokens) :
    Contained rest others where
  inside := fun complaint member => contained.inside complaint (List.mem_append_right _ member)
  ended := contained.ended.imp (fun none => (List.append_eq_nil_iff.mp none).2)
    fun ended token isLast => ended token (getLast?_of_suffix suffix isLast)

end Contained

section

variable {tail : List Token} {bound turns others : Nat}

theorem recover_before {parser other : Parser Stmt} (closes : Closes tail bound parser other)
    {tokens rest : List Token} (fits : tokens.length ≤ bound) {read : Option Stmt}
    {complaints : List Complaint} (done : recover parser tokens = ⟨.ok read, rest, complaints⟩)
    (contained : Contained tokens complaints) :
    recover other (tokens ++ tail) = ⟨.ok read, rest ++ tail, complaints⟩ := by
  have same := closes.same tokens fits
  have suffix := closes.advances tokens
  obtain ⟨s, rfl, run⟩ | ⟨fault, left, recorded, rfl, run, rfl, rfl⟩ := recover_eq_ok done
  · rw [run] at same
    exact recover_of_ok (same (.inr (.inr ⟨s, rfl⟩)))
  · rw [run] at same suffix
    obtain ⟨token, more, rfl⟩ : ∃ token more, left = token :: more := by
      cases left with
      | nil => exact absurd rfl (contained.inside ⟨none, fault⟩ (by simp))
      | cons token more => exact ⟨token, more, rfl⟩
    have ended : ∀ last ∈ (token :: more).getLast?, last.kind = .semicolon :=
      fun last isLast => (contained.ended.resolve_left (by simp)) last
        (getLast?_of_suffix suffix isLast)
    rw [recover_of_error (same (.inl (List.cons_ne_nil _ _))),
      resume_append tail (.inr ⟨List.cons_ne_nil _ _, ended⟩)]
    rfl

theorem declarations_append {declaration declaration' : Parser (Option Stmt)}
    (advances : declaration.Advances)
    (progress : ∀ tokens, tokens ≠ [] → (declaration tokens).rest.length < tokens.length)
    (seam : ∀ tokens rest read complaints, tokens.length ≤ bound →
      declaration tokens = ⟨.ok read, rest, complaints⟩ → Contained tokens complaints →
      declaration' (tokens ++ tail) = ⟨.ok read, rest ++ tail, complaints⟩)
    {second : List Stmt} {last : List Token} {later : List Complaint}
    (behind : ∀ turns, tail.length ≤ turns →
      declarations [] declaration' turns tail = ⟨.ok second, last, later⟩)
    {tokens rest : List Token} {first : List Stmt} {complaints : List Complaint}
    (fits : tokens.length ≤ bound) (enough : tokens.length ≤ turns)
    (enough' : tokens.length + tail.length ≤ others)
    (done : declarations [] declaration turns tokens = ⟨.ok first, rest, complaints⟩)
    (contained : Contained tokens complaints) :
    declarations [] declaration' others (tokens ++ tail) =
      ⟨.ok (first ++ second), last, complaints ++ later⟩ := by
  induction turns generalizing tokens others first complaints with
  | zero =>
    obtain rfl : tokens = [] := List.length_eq_zero_iff.mp (Nat.le_zero.mp enough)
    obtain ⟨rfl, -, rfl⟩ := pure_eq_ok done
    exact behind others (by omega)
  | succ turns ih =>
    obtain ⟨rfl, -, rfl, closes⟩ |
        ⟨read, middle, front, rest, back, nonempty, readDone, restDone, rfl, rfl⟩ :=
      declarations_eq_ok done
    · cases tokens with
      | nil => exact behind others (by omega)
      | cons token more => simp at closes
    · have shorter := progress tokens nonempty
      have suffix := advances tokens
      rw [readDone] at shorter suffix
      simp only at shorter suffix
      have here := seam _ _ _ _ fits readDone contained.front
      obtain ⟨others, rfl⟩ := Nat.exists_eq_add_one_of_ne_zero (show others ≠ 0 by omega)
      have there : declarations [] declaration' others (middle ++ tail) = _ :=
        ih (by omega) (by omega) (by omega) restDone (contained.back suffix)
      obtain ⟨token, more, rfl⟩ := List.exists_cons_of_ne_nil nonempty
      rw [List.cons_append] at here ⊢
      rw [declarations_cons, if_neg List.not_mem_nil, bind_of_ok here, bind_of_ok there]
      simp [pure, succeed]

theorem program_append {first second rest last : List Token} {statements later : List Stmt}
    {complaints more : List Complaint}
    (firstDone : program first.length first = ⟨.ok statements, rest, complaints⟩)
    (contained : Contained first complaints) (apart : Stops [.elseWord] second)
    (secondDone : program second.length second = ⟨.ok later, last, more⟩) :
    program (first ++ second).length (first ++ second) =
      ⟨.ok (statements ++ later), last, complaints ++ more⟩ := by
  rw [List.length_append]
  generalize total : first.length + second.length = bound
  have consumes := consumes_statement first.length
  have fits : Carries second first.length (expression first.length) (expression bound) :=
    (twins_expression (Nat.le_refl _) (by omega)).carries
  have branches : Closes second first.length (statement first.length) (statement bound) :=
    closes_statement apart (Nat.le_refl _) (by omega)
  have closes := closes_declared fits branches consumes
  have progress := progress_declaration (consumes_expression first.length) consumes
  refine declarations_append (advances_recover closes.advances) progress
    (fun _ _ _ _ fits => recover_before closes fits) ?_ (Nat.le_refl _) (Nat.le_refl _) (by omega)
    firstDone contained
  intro turns enough
  exact (program_of_turns (by omega) enough).trans secondDone

theorem endToken_append {tokens : List Token} (noEnd : ∀ token ∈ tokens, token.kind ≠ .eof)
    (others : List Token) : endToken (tokens ++ others) = endToken others := by
  have none : tokens.find? (·.kind = .eof) = none := by simpa using noEnd
  simp [endToken, none]

theorem stops_body {kinds : List TokenKind} {tokens : List Token}
    (apart : ∀ token ∈ tokens.head?, token.kind ∉ kinds) : Stops kinds (body tokens) := by
  cases tokens with
  | nil => simp [body, Stops]
  | cons token rest =>
    by_cases isEnd : token.kind = .eof
    · simp [body, isEnd, Stops]
    · simpa [body, isEnd, Stops] using apart

end

end Grammar

theorem Complaint.against_of_inside {complaint : Complaint} (inside : complaint.blamed ≠ none)
    (last other : Token) : complaint.against last = complaint.against other := by
  obtain ⟨token, blamed⟩ := Option.ne_none_iff_exists'.mp inside
  simp [against, blamed]

/-- Whatever goes wrong in the first tokens, as long as they are complete in themselves it has no
effect on the others, and the others have none on it. -/
theorem parse_append_isolated {first second : List Token} {ending : Token}
    (noEnd : ∀ token ∈ first, token.kind ≠ .eof) (isEnd : ending.kind = .eof)
    (inside : ∀ error ∈ (parse (first ++ [ending])).errors, error.token ≠ ending)
    (ended : (parse (first ++ [ending])).errors = [] ∨
      ∀ token ∈ first.getLast?, token.kind = .semicolon)
    (apart : ∀ token ∈ second.head?, token.kind ≠ .elseWord) :
    parse (first ++ second) =
      ⟨(parse (first ++ [ending])).statements ++ (parse second).statements,
        (parse (first ++ [ending])).errors ++ (parse second).errors⟩ := by
  obtain ⟨statements, rest, complaints, firstDone⟩ := Grammar.program_ok first.length first
  obtain ⟨later, last, more, secondDone⟩ :=
    Grammar.program_ok (Grammar.body second).length (Grammar.body second)
  have firstBody : Grammar.body (first ++ [ending]) = first :=
    Grammar.body_append_end noEnd isEnd []
  have firstParse : parse (first ++ [ending]) = ⟨statements, complaints.map (·.against ending)⟩ := by
    rw [parse_of_run (by rw [firstBody]; exact firstDone),
      Grammar.endToken_append_end noEnd isEnd []]
  rw [firstParse] at inside ended ⊢
  have contained : Grammar.Contained first complaints := by
    refine ⟨?_, ended.imp_left fun none => List.map_eq_nil_iff.mp none⟩
    intro complaint member atEnd
    refine inside (complaint.against ending) (List.mem_map_of_mem member) ?_
    simp [Complaint.against, atEnd]
  have stops : Parser.Stops [.elseWord] (Grammar.body second) :=
    Grammar.stops_body (by simpa using apart)
  have whole := Grammar.program_append firstDone contained stops secondDone
  rw [← Grammar.body_append noEnd second] at whole
  rw [parse_of_run whole, parse_of_run secondDone, Grammar.endToken_append noEnd, List.map_append]
  congr 2
  exact List.map_congr_left fun complaint member =>
    Complaint.against_of_inside (contained.inside complaint member) _ _

/-- The last statement of the first part is given up in the middle of an expression, and the second
part begins with a sign that could go on with one. -/
theorem parse_append_isolated_sign :
    let first := (scan .tolerant "if (a) print ; 1 = 2; var x = (3;").tokens.dropLast
    let second := (scan .tolerant "- 1; ) print 2;").tokens
    (∀ token ∈ first, token.kind ≠ .eof) ∧
      (∀ error ∈ (parse (first ++ [Token.eof 1])).errors, error.token ≠ Token.eof 1) ∧
      (∀ token ∈ first.getLast?, token.kind = .semicolon) ∧
      (∀ token ∈ second.head?, token.kind ≠ .elseWord) ∧
      (parse (first ++ second)).statements.map Stmt.text =
        ["(; 1)", "(; (- 1))", "(print 2)"] ∧
      (parse (first ++ second)).errors.map (fun error => (error.token.lexeme, error.fault)) =
        [(";", .noExpression), ("=", .invalidTarget), (";", .noParenAfterExpression),
          (")", .noExpression)] := by
  intro first second
  have noEnd : ∀ token ∈ first, token.kind ≠ .eof := by decide +kernel
  have inside : ∀ error ∈ (parse (first ++ [Token.eof 1])).errors, error.token ≠ Token.eof 1 := by
    decide +kernel
  have ended : ∀ token ∈ first.getLast?, token.kind = .semicolon := by decide +kernel
  have apart : ∀ token ∈ second.head?, token.kind ≠ .elseWord := by decide +kernel
  have isolated := parse_append_isolated noEnd rfl inside (.inr ended) apart
  refine ⟨noEnd, inside, ended, apart, ?_, ?_⟩
  · rw [isolated]
    decide +kernel
  · rw [isolated]
    decide +kernel

end Lox
