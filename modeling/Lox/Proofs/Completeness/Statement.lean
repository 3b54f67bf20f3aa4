import Lox.Proofs.Completeness.Expression

/-!
The parser reads every spelling of a statement back, and so every spelling of a program. An `else`
is the only token that could go on with a finished statement.
-/

namespace Lox

namespace Grammar

open Lox.Parser

def ReadsStatements (parser : Parser Stmt) (place : Place) (bound : Nat) : Prop :=
  ∀ s, Shaped place s → ∀ used rest, Spells used s.spelling → Closed s rest →
    used.length + rest.length ≤ bound → parser (used ++ rest) = ⟨.ok s, rest, []⟩

def branchStarts : List TokenKind :=
  [.ifWord, .whileWord, .printWord, .leftBrace] ++ Tier.unary.operators ++ primaryStarts

theorem starts_of_branch {s : Stmt} (shaped : Shaped .branch s) :
    ∃ first others, s.spelling = first :: others ∧ first.kind ∈ branchStarts := by
  cases shaped with
  | expression fits =>
    obtain ⟨first, others, same, starts⟩ := starts_of_fits fits
    refine ⟨first, others ++ [.mark .semicolon], by rw [Stmt.spelling, same, List.cons_append], ?_⟩
    rw [branchStarts, List.append_assoc]
    exact List.mem_append_right _ starts
  | print _ => exact ⟨_, _, rfl, by decide⟩
  | block _ => exact ⟨_, _, rfl, by decide⟩
  | ifThen _ _ => exact ⟨_, _, rfl, by decide⟩
  | ifElse _ _ _ _ => exact ⟨_, _, rfl, by decide⟩
  | whileLoop _ _ => exact ⟨_, _, rfl, by decide⟩

theorem starts_of_listed {s : Stmt} (shaped : Shaped .listed s) :
    ∃ first others, s.spelling = first :: others ∧ first.kind ∈ .varWord :: branchStarts := by
  obtain ⟨name, initial, rfl, -⟩ | branch := Shaped.cases_listed shaped
  · cases initial <;> exact ⟨_, _, rfl, by decide⟩
  · obtain ⟨first, others, same, starts⟩ := starts_of_branch branch
    exact ⟨first, others, same, List.mem_cons_of_mem _ starts⟩

section

variable {expression : Parser Expr} {branch : Parser Stmt} {bound : Nat}

theorem reads_terminated (reads : ReadsBack expression .assignment bound) {e : Expr}
    (fits : Fits .assignment e) {used rest : List Token}
    (spelled : Spells used (e.spelling ++ [.mark .semicolon]))
    (length : used.length + rest.length ≤ bound) (fault : SyntaxFault) (build : Expr → Stmt) :
    (expression >>= fun e => expect .semicolon fault >>= fun _ => pure (build e)) (used ++ rest) =
      ⟨.ok (build e), rest, []⟩ := by
  obtain ⟨eUsed, others, rfl, eSpelled, spelled⟩ := Spells.append_iff.mp spelled
  obtain ⟨semicolon, others, rfl, same, spelled⟩ := Spells.cons_iff.mp spelled
  obtain rfl := Spells.nil_iff.mp spelled
  have kind := Token.essence_eq_mark same
  simp only [List.length_append, List.length_cons, List.length_nil] at length
  have read := reads e fits eUsed (semicolon :: rest) eSpelled
    (stops_cons.mpr (by rw [kind]; decide)) (by simp; omega)
  rw [List.append_assoc]
  exact (bind_of_clean read).trans (bind_of_clean (expect_of_kind kind _ _))

theorem reads_varDeclaration (reads : ReadsBack expression .assignment bound) {name : Token}
    (nameKind : name.kind = .identifier) {initial : Option Expr}
    (fits : ∀ e ∈ initial, Fits .assignment e) {used rest : List Token}
    (spelled : Spells used (Stmt.varDecl name initial).spelling.tail)
    (length : used.length + rest.length ≤ bound) :
    varDeclaration expression (used ++ rest) = ⟨.ok (.varDecl name initial), rest, []⟩ := by
  cases initial with
  | none =>
    obtain ⟨nameToken, others, rfl, nameSame, afterName⟩ := Spells.cons_iff.mp spelled
    obtain ⟨semicolon, others, rfl, same, spelled⟩ := Spells.cons_iff.mp afterName
    obtain rfl := Spells.nil_iff.mp spelled
    have nameIs : nameToken = name := Token.eq_of_essence_eq nameSame (Or.inr nameKind)
    subst nameToken
    have kind := Token.essence_eq_mark same
    have noEqual : Stops [.equal] (semicolon :: rest) := stops_cons.mpr (by simp [kind])
    refine (bind_of_clean (expect_of_kind nameKind _ _)).trans ?_
    refine (bind_of_clean (accept_of_stops noEqual)).trans ?_
    exact bind_of_clean (expect_of_kind kind _ _)
  | some e =>
    obtain ⟨nameToken, others, rfl, nameSame, afterName⟩ := Spells.cons_iff.mp spelled
    obtain ⟨equals, eUsed, rfl, equalsSame, eSpelled⟩ := Spells.cons_iff.mp afterName
    have nameIs : nameToken = name := Token.eq_of_essence_eq nameSame (Or.inr nameKind)
    subst nameToken
    have kind := Token.essence_eq_mark equalsSame
    simp only [List.length_cons] at length
    refine (bind_of_clean (expect_of_kind nameKind _ _)).trans ?_
    refine (bind_of_clean (accept_of_mem (by simp [kind]) _)).trans ?_
    exact reads_terminated reads (fits e rfl) eSpelled (by omega) _ fun e => .varDecl name (some e)

theorem reads_condition (reads : ReadsBack expression .assignment bound) {condition : Expr}
    (fits : Fits .assignment condition) {used rest spelling : List Token}
    (spelled : Spells used
      (.mark .leftParen :: (condition.spelling ++ .mark .rightParen :: spelling)))
    (length : used.length + rest.length ≤ bound) :
    ∃ later, Spells later spelling ∧ later.length < used.length ∧
      ∀ (first second : SyntaxFault) (next : Expr → Parser Stmt),
        (expect .leftParen first >>= fun _ => expression >>= fun condition =>
          expect .rightParen second >>= fun _ => next condition) (used ++ rest) =
          next condition (later ++ rest) := by
  obtain ⟨left, others, rfl, leftSame, spelled⟩ := Spells.cons_iff.mp spelled
  obtain ⟨conditionUsed, others, rfl, conditionSpelled, spelled⟩ := Spells.append_iff.mp spelled
  obtain ⟨right, later, rfl, rightSame, laterSpelled⟩ := Spells.cons_iff.mp spelled
  have leftKind := Token.essence_eq_mark leftSame
  have rightKind := Token.essence_eq_mark rightSame
  simp only [List.length_append, List.length_cons] at length
  refine ⟨later, laterSpelled, by simp; omega, ?_⟩
  intro first second next
  have read := reads condition fits conditionUsed (right :: (later ++ rest)) conditionSpelled
    (stops_cons.mpr (by rw [rightKind]; decide)) (by simp; omega)
  simp only [List.cons_append, List.append_assoc]
  refine (bind_of_clean (expect_of_kind leftKind _ _)).trans ?_
  refine (bind_of_clean read).trans ?_
  exact bind_of_clean (expect_of_kind rightKind _ _)

theorem reads_ifThen (reads : ReadsBack expression .assignment bound)
    (branches : ReadsStatements branch .branch bound) {condition : Expr} {yes : Stmt}
    (conditionFits : Fits .assignment condition) (yesShaped : Shaped .branch yes)
    {used rest : List Token}
    (spelled : Spells used
      (.mark .leftParen :: (condition.spelling ++ .mark .rightParen :: yes.spelling)))
    (closed : Stops [.elseWord] rest) (length : used.length + rest.length ≤ bound) :
    ifStatement expression branch (used ++ rest) = ⟨.ok (.ifThen condition yes), rest, []⟩ := by
  obtain ⟨later, laterSpelled, shorter, reached⟩ :=
    reads_condition reads conditionFits spelled length
  have yesRead := branches yes yesShaped later rest laterSpelled (fun _ => closed) (by omega)
  refine (reached _ _ _).trans ?_
  exact (bind_of_clean yesRead).trans (bind_of_clean (accept_of_stops closed))

theorem reads_ifElse (reads : ReadsBack expression .assignment bound)
    (branches : ReadsStatements branch .branch bound) {condition : Expr} {yes no : Stmt}
    (conditionFits : Fits .assignment condition) (yesShaped : Shaped .branch yes)
    (yesEnds : yes.endsOpen = false) (noShaped : Shaped .branch no) {used rest : List Token}
    (spelled : Spells used
      (.mark .leftParen :: (condition.spelling ++ .mark .rightParen ::
        (yes.spelling ++ .mark .elseWord :: no.spelling))))
    (closed : Closed no rest) (length : used.length + rest.length ≤ bound) :
    ifStatement expression branch (used ++ rest) =
      ⟨.ok (.ifElse condition yes no), rest, []⟩ := by
  obtain ⟨later, laterSpelled, shorter, reached⟩ :=
    reads_condition reads conditionFits spelled length
  obtain ⟨yesUsed, others, rfl, yesSpelled, laterSpelled⟩ := Spells.append_iff.mp laterSpelled
  obtain ⟨word, noUsed, rfl, wordSame, noSpelled⟩ := Spells.cons_iff.mp laterSpelled
  have wordKind := Token.essence_eq_mark wordSame
  simp only [List.length_append, List.length_cons] at shorter
  have yesRead := branches yes yesShaped yesUsed (word :: (noUsed ++ rest)) yesSpelled
    (closed_of_not_endsOpen yesEnds _) (by simp; omega)
  have noRead := branches no noShaped noUsed rest noSpelled closed (by omega)
  refine (reached _ _ _).trans ?_
  simp only [List.append_assoc, List.cons_append]
  refine (bind_of_clean yesRead).trans ?_
  refine (bind_of_clean (accept_of_mem (by simp [wordKind]) _)).trans ?_
  exact bind_of_clean noRead

theorem reads_whileLoop (reads : ReadsBack expression .assignment bound)
    (branches : ReadsStatements branch .branch bound) {condition : Expr} {body : Stmt}
    (conditionFits : Fits .assignment condition) (bodyShaped : Shaped .branch body)
    {used rest : List Token}
    (spelled : Spells used
      (.mark .leftParen :: (condition.spelling ++ .mark .rightParen :: body.spelling)))
    (closed : Closed body rest) (length : used.length + rest.length ≤ bound) :
    whileStatement expression branch (used ++ rest) =
      ⟨.ok (.whileLoop condition body), rest, []⟩ := by
  obtain ⟨later, laterSpelled, shorter, reached⟩ :=
    reads_condition reads conditionFits spelled length
  have bodyRead := branches body bodyShaped later rest laterSpelled closed (by omega)
  exact (reached _ _ _).trans (bind_of_clean bodyRead)

theorem reads_declaration (reads : ReadsBack expression .assignment bound)
    (branches : ReadsStatements branch .branch bound) {s : Stmt} (shaped : Shaped .listed s)
    {used rest : List Token} (spelled : Spells used s.spelling) (closed : Closed s rest)
    (length : used.length + rest.length ≤ bound) :
    declaration expression branch (used ++ rest) = ⟨.ok (some s), rest, []⟩ := by
  obtain ⟨name, initial, rfl, nameKind, initialFits⟩ | shaped := Shaped.cases_listed shaped
  · have starts : (Stmt.varDecl name initial).spelling =
        .mark .varWord :: (Stmt.varDecl name initial).spelling.tail := by
      cases initial <;> rfl
    rw [starts] at spelled
    obtain ⟨word, later, rfl, wordSame, laterSpelled⟩ := Spells.cons_iff.mp spelled
    have wordKind := Token.essence_eq_mark wordSame
    simp only [List.length_cons] at length
    have read : varDeclaration expression (later ++ rest) = _ :=
      reads_varDeclaration reads nameKind initialFits laterSpelled (by omega)
    apply recover_of_ok
    exact (bind_of_clean (accept_of_mem (by simp [wordKind]) _)).trans read
  · obtain ⟨first, others, same, starts⟩ := starts_of_branch shaped
    obtain ⟨token, more, rfl, kind⟩ := head_of_spells spelled same
    have noWord : token.kind ∉ [TokenKind.varWord] := by
      rw [kind]
      exact (by decide : ∀ kind ∈ branchStarts, kind ∉ [TokenKind.varWord]) _ starts
    have read := branches s shaped _ rest spelled closed length
    apply recover_of_ok
    exact (bind_of_clean (accept_of_stops (stops_cons.mpr noWord))).trans read

theorem not_endsList_of_starts {kind : TokenKind} (starts : kind ∈ .varWord :: branchStarts) :
    kind ≠ .rightBrace ∧ kind ≠ .elseWord ∧ kind ≠ .eof := by
  exact (by decide : ∀ kind ∈ .varWord :: branchStarts,
    kind ≠ .rightBrace ∧ kind ≠ .elseWord ∧ kind ≠ .eof) kind starts

theorem reads_declarations {declaration : Parser (Option Stmt)} {closing : List TokenKind}
    (closings : closing ⊆ [.rightBrace])
    (reads : ∀ s, Shaped .listed s → ∀ used rest, Spells used s.spelling → Closed s rest →
      used.length + rest.length ≤ bound → declaration (used ++ rest) = ⟨.ok (some s), rest, []⟩)
    {turns : Nat} (enough : turns ≤ bound) {statements : List Stmt}
    (shaped : ∀ s ∈ statements, Shaped .listed s) {used rest : List Token}
    (spelled : Spells used (Stmt.spellingAll statements))
    (ends : ∀ token ∈ rest.head?, token.kind ∈ closing)
    (length : used.length + rest.length ≤ turns) :
    declarations closing declaration turns (used ++ rest) = ⟨.ok statements, rest, []⟩ := by
  induction statements generalizing used turns with
  | nil =>
    obtain rfl := Spells.nil_iff.mp spelled
    cases rest with
    | nil => cases turns <;> rfl
    | cons token rest =>
      cases turns with
      | zero => simp at length
      | succ turns => rw [List.nil_append, declarations_cons, if_pos (ends token rfl)]
  | cons s others ih =>
    obtain ⟨sUsed, othersUsed, rfl, sSpelled, othersSpelled⟩ := Spells.append_iff.mp spelled
    obtain ⟨first, _, same, starts⟩ := starts_of_listed (shaped s (by simp))
    obtain ⟨token, more, rfl, kind⟩ := head_of_spells sSpelled same
    simp only [List.length_append, List.length_cons] at length
    obtain ⟨turns, rfl⟩ := Nat.exists_eq_succ_of_ne_zero (show turns ≠ 0 by omega)
    have laterShaped : ∀ s ∈ others, Shaped .listed s := fun s member => shaped s (by simp [member])
    have closed : Closed s (othersUsed ++ rest) := by
      intro _
      cases others with
      | nil =>
        obtain rfl := Spells.nil_iff.mp othersSpelled
        intro token isHead isElse
        have brace := closings (ends token isHead)
        simp_all
      | cons next _ =>
        obtain ⟨first, _, same, starts⟩ := starts_of_listed (laterShaped next (by simp))
        obtain ⟨nextUsed, _, rfl, nextSpelled, _⟩ := Spells.append_iff.mp othersSpelled
        obtain ⟨token, _, rfl, kind⟩ := head_of_spells nextSpelled same
        refine stops_cons.mpr ?_
        simp [kind, (not_endsList_of_starts starts).2.1]
    have read := reads s (shaped s (by simp)) _ (othersUsed ++ rest) sSpelled closed
      (by simp; omega)
    have later : declarations closing declaration turns (othersUsed ++ rest) = _ :=
      ih (by omega) laterShaped othersSpelled (by omega)
    have goesOn : token.kind ∉ closing := by
      intro member
      have brace := List.mem_singleton.mp (closings member)
      exact (not_endsList_of_starts starts).1 (kind ▸ brace)
    simp only [List.cons_append, List.append_assoc, declarations_cons] at read ⊢
    rw [if_neg goesOn, bind_of_clean read, bind_of_clean later]
    rfl

theorem reads_block {declaration : Parser (Option Stmt)}
    (reads : ∀ s, Shaped .listed s → ∀ used rest, Spells used s.spelling → Closed s rest →
      used.length + rest.length ≤ bound → declaration (used ++ rest) = ⟨.ok (some s), rest, []⟩)
    {body : List Stmt} (shaped : ∀ s ∈ body, Shaped .listed s) {used rest : List Token}
    (spelled : Spells used (Stmt.spellingAll body ++ [.mark .rightBrace]))
    (length : used.length + rest.length ≤ bound) :
    block declaration bound (used ++ rest) = ⟨.ok (.block body), rest, []⟩ := by
  obtain ⟨bodyUsed, others, rfl, bodySpelled, spelled⟩ := Spells.append_iff.mp spelled
  obtain ⟨brace, others, rfl, braceSame, spelled⟩ := Spells.cons_iff.mp spelled
  obtain rfl := Spells.nil_iff.mp spelled
  have braceKind := Token.essence_eq_mark braceSame
  simp only [List.length_append, List.length_cons, List.length_nil] at length
  have ends : ∀ token ∈ (brace :: rest).head?, token.kind ∈ [TokenKind.rightBrace] := by
    simp [braceKind]
  have read := reads_declarations (List.Subset.refl _) reads (Nat.le_refl bound) shaped bodySpelled
    ends (by simp; omega)
  rw [List.append_assoc]
  exact (bind_of_clean read).trans (bind_of_clean (expect_of_kind braceKind _ _))

end

theorem statement_of_expression_starts {token : Token}
    (starts : token.kind ∈ Tier.unary.operators ++ primaryStarts) (bound : Nat)
    (rest : List Token) : statement (bound + 1) (token :: rest) =
      expressionStatement (expression (bound + 1)) (token :: rest) := by
  have other : token.kind ∉ [TokenKind.ifWord, .whileWord, .printWord, .leftBrace] :=
    (by decide : ∀ kind ∈ Tier.unary.operators ++ primaryStarts,
      kind ∉ [TokenKind.ifWord, .whileWord, .printWord, .leftBrace]) _ starts
  simp only [statement]
  split
  all_goals first
    | rfl
    | rename_i kind
      simp [kind] at other

theorem reads_statement (bound : Nat) : ReadsStatements (statement bound) .branch bound := by
  induction bound with
  | zero =>
    intro s shaped used rest spelled closed length
    obtain ⟨first, others, same, -⟩ := starts_of_branch shaped
    obtain ⟨token, more, rfl, -⟩ := head_of_spells spelled same
    simp at length
  | succ bound ih =>
    intro s shaped used rest spelled closed length
    have reads := readsBack_expression bound
    cases shaped with
    | @expression _ e fits =>
      obtain ⟨first, others, same, starts⟩ := starts_of_fits fits
      have whole : (Stmt.expression e).spelling = first :: (others ++ [.mark .semicolon]) := by
        rw [Stmt.spelling, same, List.cons_append]
      obtain ⟨token, more, rfl, kind⟩ := head_of_spells spelled whole
      rw [List.cons_append, statement_of_expression_starts (kind ▸ starts)]
      exact reads_terminated (readsBack_expression (bound + 1)) fits spelled length _ .expression
    | print fits =>
      obtain ⟨word, later, rfl, same, laterSpelled⟩ := Spells.cons_iff.mp spelled
      have kind : word.kind = .printWord := Token.essence_eq_mark same
      simp only [List.length_cons] at length
      simp only [List.cons_append, statement, kind]
      exact reads_terminated reads fits laterSpelled (by omega) _ .print
    | block bodyShaped =>
      obtain ⟨brace, later, rfl, same, laterSpelled⟩ := Spells.cons_iff.mp spelled
      have kind : brace.kind = .leftBrace := Token.essence_eq_mark same
      simp only [List.length_cons] at length
      simp only [List.cons_append, statement, kind]
      have declarations : ∀ s, Shaped .listed s → ∀ used rest, Spells used s.spelling →
          Closed s rest → used.length + rest.length ≤ bound →
          declaration (expression bound) (statement bound) (used ++ rest) =
            ⟨.ok (some s), rest, []⟩ :=
        fun s shaped used rest spelled closed length =>
          reads_declaration reads ih shaped spelled closed length
      exact reads_block declarations bodyShaped laterSpelled (by omega)
    | ifThen conditionFits yesShaped =>
      obtain ⟨word, later, rfl, same, laterSpelled⟩ := Spells.cons_iff.mp spelled
      have kind : word.kind = .ifWord := Token.essence_eq_mark same
      simp only [List.length_cons] at length
      simp only [List.cons_append, statement, kind]
      exact reads_ifThen reads ih conditionFits yesShaped laterSpelled (closed rfl) (by omega)
    | ifElse conditionFits yesShaped yesEnds noShaped =>
      obtain ⟨word, later, rfl, same, laterSpelled⟩ := Spells.cons_iff.mp spelled
      have kind : word.kind = .ifWord := Token.essence_eq_mark same
      simp only [List.length_cons] at length
      simp only [List.cons_append, statement, kind]
      exact reads_ifElse reads ih conditionFits yesShaped yesEnds noShaped laterSpelled closed
        (by omega)
    | whileLoop conditionFits bodyShaped =>
      obtain ⟨word, later, rfl, same, laterSpelled⟩ := Spells.cons_iff.mp spelled
      have kind : word.kind = .whileWord := Token.essence_eq_mark same
      simp only [List.length_cons] at length
      simp only [List.cons_append, statement, kind]
      exact reads_whileLoop reads ih conditionFits bodyShaped laterSpelled closed (by omega)

theorem reads_program {statements : List Stmt} (shaped : ∀ s ∈ statements, Shaped .listed s)
    {tokens : List Token} (spelled : Spells tokens (Stmt.spellingAll statements)) :
    program tokens.length tokens = ⟨.ok statements, [], []⟩ := by
  have reads : ∀ s, Shaped .listed s → ∀ used rest, Spells used s.spelling → Closed s rest →
      used.length + rest.length ≤ tokens.length →
      declaration (expression tokens.length) (statement tokens.length) (used ++ rest) =
        ⟨.ok (some s), rest, []⟩ :=
    fun s shaped used rest spelled closed length =>
      reads_declaration (readsBack_expression _) (reads_statement _) shaped spelled closed length
  have ends : ∀ token ∈ ([] : List Token).head?, token.kind ∈ [] := by simp
  have read := reads_declarations (List.nil_subset _) reads (Nat.le_refl _) shaped spelled ends
    (by simp)
  rwa [List.append_nil] at read

end Grammar

theorem Fits.not_eof {tier : Tier} {e : Expr} (fits : Fits tier e) :
    ∀ token ∈ e.spelling, token.kind ≠ .eof := by
  have operators : ∀ tier : Tier, ∀ kind ∈ tier.operators, kind ≠ .eof := by
    intro tier
    cases tier <;> decide
  induction fits with
  | literal value =>
    cases value with
    | bool b => cases b <;> simp [Expr.spelling, Value.token, Token.mark]
    | _ => simp [Expr.spelling, Value.token, Token.mark]
  | grouping _ ih => simpa [Expr.spelling, Token.mark, or_imp, forall_and] using ih
  | var kind => simp [Expr.spelling, kind]
  | unary member _ ih => simpa [Expr.spelling, operators _ _ member] using ih
  | binary _ member _ _ leftIH rightIH =>
    simpa [Expr.spelling, or_imp, forall_and, operators _ _ member] using ⟨leftIH, rightIH⟩
  | conditional _ _ _ conditionIH yesIH noIH =>
    simpa [Expr.spelling, Token.mark, or_imp, forall_and] using ⟨conditionIH, yesIH, noIH⟩
  | assign kind _ ih => simpa [Expr.spelling, Token.mark, kind] using ih
  | looser _ ih => exact ih

theorem Shaped.not_eof {place : Place} {s : Stmt} (shaped : Shaped place s) :
    ∀ token ∈ s.spelling, token.kind ≠ .eof := by
  induction shaped with
  | expression fits => simpa [Stmt.spelling, Token.mark, or_imp, forall_and] using fits.not_eof
  | print fits => simpa [Stmt.spelling, Token.mark, or_imp, forall_and] using fits.not_eof
  | @varDecl name initial kind fits =>
    cases initial with
    | none => simp [Stmt.spelling, Token.mark, kind]
    | some e =>
      simpa [Stmt.spelling, Token.mark, kind, or_imp, forall_and] using (fits e rfl).not_eof
  | @block _ body _ ih =>
    have all : ∀ token ∈ Stmt.spellingAll body, token.kind ≠ .eof := by
      intro token member
      obtain ⟨s, inBody, inSpelling⟩ := Stmt.mem_spellingAll.mp member
      exact ih s inBody token inSpelling
    simpa [Stmt.spelling, Token.mark, or_imp, forall_and] using all
  | ifThen fits _ ih =>
    simpa [Stmt.spelling, Token.mark, or_imp, forall_and] using ⟨fits.not_eof, ih⟩
  | ifElse fits _ _ _ yesIH noIH =>
    simpa [Stmt.spelling, Token.mark, or_imp, forall_and] using ⟨fits.not_eof, yesIH, noIH⟩
  | whileLoop fits _ ih =>
    simpa [Stmt.spelling, Token.mark, or_imp, forall_and] using ⟨fits.not_eof, ih⟩

theorem Spells.not_eof {tokens : List Token} {statements : List Stmt}
    (shaped : ∀ s ∈ statements, Shaped .listed s)
    (spelled : Spells tokens (Stmt.spellingAll statements)) :
    ∀ token ∈ tokens, token.kind ≠ .eof := by
  intro token member isEnd
  have essence : token.essence ∈ (Stmt.spellingAll statements).map Token.essence :=
    spelled ▸ List.mem_map_of_mem member
  obtain ⟨kept, inAll, same⟩ := List.mem_map.mp essence
  obtain ⟨s, inStatements, inSpelling⟩ := Stmt.mem_spellingAll.mp inAll
  have kinds : kept.kind = token.kind := by simpa using congrArg Token.kind same
  exact (shaped s inStatements).not_eof kept inSpelling (kinds.trans isEnd)

theorem Grammar.body_append_end {tokens : List Token}
    (noEnd : ∀ token ∈ tokens, token.kind ≠ .eof) {last : Token} (isEnd : last.kind = .eof)
    (more : List Token) : body (tokens ++ last :: more) = tokens := by
  unfold body
  rw [List.takeWhile_append_of_pos (by simpa using noEnd)]
  simp [isEnd]

/-- Every spelling of a program of the right shape is read back, whatever follows the end. -/
theorem parse_of_spells {statements : List Stmt} (shaped : ∀ s ∈ statements, Shaped .listed s)
    {tokens : List Token} (spelled : Spells tokens (Stmt.spellingAll statements)) {last : Token}
    (isEnd : last.kind = .eof) (more : List Token) :
    parse (tokens ++ last :: more) = ⟨statements, []⟩ := by
  have body := Grammar.body_append_end (spelled.not_eof shaped) isEnd more
  rw [← body] at spelled
  exact parse_of_run (Grammar.reads_program shaped spelled)

end Lox
