import Lox.Proofs.Accounting
import Lox.Proofs.Completeness.Statement
import Lox.Proofs.Scanning

/-!
Parsing and spelling undo each other: the parser returns exactly the programs of the right shape,
and leaves out none of the tokens it read from a source without complaining.
-/

namespace Lox

/-- Programs of the right shape are all that is returned, and every one of them is read back from
the tokens that spell it. -/
theorem parse_shaped_and_complete :
    (∀ tokens, ∀ statement ∈ (parse tokens).statements, Shaped .listed statement) ∧
      ∀ statements tokens last more, (∀ statement ∈ statements, Shaped .listed statement) →
        Spells tokens (Stmt.spellingAll statements) → last.kind = .eof →
        parse (tokens ++ last :: more) = ⟨statements, []⟩ :=
  ⟨fun _ _ member => shaped_of_mem_statements member,
    fun _ _ _ more shaped spelled isEnd => parse_of_spells shaped spelled isEnd more⟩

/-- The alternative belongs to the inner conditional of `if (a) if (b) print a; else b = -a;`. -/
theorem parse_nested_conditional :
    let a := Token.name "a" 1
    let b := Token.name "b" 1
    let minus : Token := ⟨.minus, "-", none, 1⟩
    let statement : Stmt := .ifThen (.var a) (.ifElse (.var b) (.print (.var a))
      (.expression (.assign b (.unary minus (.var a)))))
    Shaped .listed statement ∧
      parse (statement.spelling ++ [Token.eof 1]) = ⟨[statement], []⟩ := by
  intro a b minus statement
  have isA : Fits .primary (.var a) := .var rfl
  have isB : Fits .primary (.var b) := .var rfl
  have loose : ∀ {e}, Fits .unary e → Fits .assignment e := fun fits =>
    .looser (.looser (.looser (.looser (.looser (.looser fits)))))
  have value : Fits .assignment (.unary minus (.var a)) :=
    loose (.unary (by decide) (.looser isA))
  have shaped : Shaped .listed statement :=
    .ifThen (loose (.looser isA)) (.ifElse (loose (.looser isB)) (.print (loose (.looser isA))) rfl
      (.expression (.assign rfl value)))
  refine ⟨shaped, ?_⟩
  exact parse_shaped_and_complete.2 [statement] statement.spelling (Token.eof 1) []
    (by simpa using shaped) (by simp [Stmt.spellingAll, Spells.refl]) rfl

namespace Segment

theorem genuine_of_mem_tokens {line : Nat} {segments : List Segment} {token : Token}
    (member : token ∈ tokens line segments) : token.Genuine := by
  have literal := literal_of_mem_tokens member
  constructor
  · intro isNumber
    exact ⟨_, by rw [literal, isNumber]; rfl⟩
  · intro isString
    exact ⟨_, by rw [literal, isString]; rfl⟩

end Segment

theorem Token.genuine_eof (line : Nat) : (Token.eof line).Genuine :=
  Token.genuine_of_not_literal (by simp [Token.eof])

/-- Of the tokens of a source the statements keep a part, in order, and all of them exactly if the
parser reports no error. -/
theorem scanned_tokens_accounted (source : String) :
    ((Stmt.spellingAll (parse (scan .tolerant source).tokens).statements).map
        Token.essence).Sublist
      ((Grammar.body (scan .tolerant source).tokens).map Token.essence) ∧
    (Spells (Grammar.body (scan .tolerant source).tokens)
        (Stmt.spellingAll (parse (scan .tolerant source).tokens).statements) ↔
      (parse (scan .tolerant source).tokens).errors = []) := by
  apply accounted_parse
  intro token member
  rcases List.mem_append.mp member with kept | last
  · exact Segment.genuine_of_mem_tokens kept
  · rw [List.mem_singleton.mp last]
    exact Token.genuine_eof _

end Lox
