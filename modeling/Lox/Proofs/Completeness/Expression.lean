import Lox.Proofs.Shape

/-!
The parser reads every spelling of a tree back. Each tier takes all that belongs to its expression
and stops before a token that cannot go on with it.
-/

namespace Lox

namespace Tier

/-- The tokens that would go on with an expression of the tier. -/
def extensions : Tier → List TokenKind
  | assignment => [.equal, .question] ++ equality.operators ++ comparison.operators ++
      term.operators ++ factor.operators
  | conditional => [.question] ++ equality.operators ++ comparison.operators ++ term.operators ++
      factor.operators
  | equality => equality.operators ++ comparison.operators ++ term.operators ++ factor.operators
  | comparison => comparison.operators ++ term.operators ++ factor.operators
  | term => term.operators ++ factor.operators
  | factor => factor.operators
  | unary => []
  | primary => []

theorem extensions_tighter (tier : Tier) : tier.tighter.extensions ⊆ tier.extensions := by
  have every : ∀ kind ∈ tier.tighter.extensions, kind ∈ tier.extensions := by
    cases tier <;> decide
  exact fun kind member => every kind member

theorem operators_subset_extensions {tier : Tier} (leftAssoc : tier.isLeftAssoc) :
    tier.operators ⊆ tier.extensions := by
  have every : ∀ kind ∈ tier.operators, kind ∈ tier.extensions := by
    revert leftAssoc
    cases tier <;> decide
  exact fun kind member => every kind member

theorem operator_notMem_extensions {tier : Tier} (leftAssoc : tier.isLeftAssoc) {kind : TokenKind}
    (member : kind ∈ tier.operators) : kind ∉ tier.tighter.extensions := by
  have every : ∀ kind ∈ tier.operators, kind ∉ tier.tighter.extensions := by
    revert leftAssoc
    cases tier <;> decide
  exact every kind member

end Tier

theorem Fits.primary_cases {e : Expr} (fits : Fits .primary e) :
    (∃ value, e = .literal value) ∨ (∃ inner, e = .grouping inner ∧ Fits .assignment inner) ∨
      ∃ name, e = .var name ∧ name.kind = .identifier := by
  generalize top : Tier.primary = tier at fits
  induction fits with
  | literal value => exact Or.inl ⟨value, rfl⟩
  | grouping inner _ => exact Or.inr (Or.inl ⟨_, rfl, inner⟩)
  | var kind => exact Or.inr (Or.inr ⟨_, rfl, kind⟩)
  | looser _ ih =>
    subst top
    exact ih rfl
  | binary leftAssoc =>
    subst top
    simp [Tier.isLeftAssoc] at leftAssoc
  | _ => cases top

namespace Parser

variable {α β : Type}

theorem bind_of_clean {first : Parser α} {second : α → Parser β} {tokens rest : List Token} {a : α}
    (done : first tokens = ⟨.ok a, rest, []⟩) : (first >>= second) tokens = second a rest := by
  rw [bind_of_ok done]
  rfl

theorem Stops.mono {fewer more : List TokenKind} (subset : fewer ⊆ more) {tokens : List Token}
    (stops : Stops more tokens) : Stops fewer tokens :=
  fun token isHead member => stops token isHead (subset member)

theorem stops_cons {kinds : List TokenKind} {token : Token} {rest : List Token} :
    Stops kinds (token :: rest) ↔ token.kind ∉ kinds := by
  simp [Stops]

end Parser

namespace Grammar

open Lox.Parser

/-- The parser reads the expressions of the tier back from all their spellings, if no more than
`bound` tokens are left and the next ones go on with no such expression. -/
def ReadsBack (parser : Parser Expr) (tier : Tier) (bound : Nat) : Prop :=
  ∀ e, Fits tier e → ∀ used rest, Spells used e.spelling → Stops tier.extensions rest →
    used.length + rest.length ≤ bound → parser (used ++ rest) = ⟨.ok e, rest, []⟩

section

variable {tier : Tier} {operand : Parser Expr} {limit bound : Nat}

theorem operands_step {operator : Token} (member : operator.kind ∈ tier.operators)
    {more rest : List Token} {left right : Expr} (read : operand more = ⟨.ok right, rest, []⟩) :
    operands tier.operators operand (bound + 1) left (operator :: more) =
      operands tier.operators operand bound (.binary left operator right) rest := by
  rw [operands, bind_of_clean (accept_of_mem member more)]
  exact bind_of_clean read

theorem operands_stop {rest : List Token} (stops : Stops tier.operators rest) (left : Expr) :
    operands tier.operators operand bound left rest = ⟨.ok left, rest, []⟩ := by
  cases bound with
  | zero => rfl
  | succ bound =>
    rw [operands, bind_of_clean (accept_of_stops stops)]
    rfl

theorem leftAssoc_reaches (leftAssoc : tier.isLeftAssoc)
    (tight : ReadsBack operand tier.tighter limit) (enough : bound ≤ limit) {e : Expr}
    (fits : Fits tier e) : ∀ used rest, Spells used e.spelling →
      Stops tier.tighter.extensions rest → used.length + rest.length ≤ bound →
      ∃ turns, rest.length ≤ turns ∧
        Grammar.leftAssoc tier.operators bound operand (used ++ rest) =
          operands tier.operators operand turns e rest := by
  induction fits with
  | @binary tier left operator right _ member _ rightFits leftIH _ =>
    intro used rest spelled stops length
    obtain ⟨leftUsed, others, rfl, leftSpelled, spelled⟩ := Spells.append_iff.mp spelled
    obtain ⟨sign, rightUsed, rfl, same, rightSpelled⟩ := Spells.cons_iff.mp spelled
    have signIs : sign = operator :=
      Token.eq_of_essence_eq same (Or.inl (Tier.isOperator_of_mem member))
    subst sign
    simp only [List.length_append, List.length_cons] at length
    have signStops : Stops tier.tighter.extensions (operator :: (rightUsed ++ rest)) :=
      stops_cons.mpr (Tier.operator_notMem_extensions leftAssoc member)
    obtain ⟨turns, turnsEnough, reached⟩ := leftIH leftAssoc tight leftUsed
      (operator :: (rightUsed ++ rest)) leftSpelled signStops (by simp; omega)
    simp only [List.length_cons, List.length_append] at turnsEnough
    obtain ⟨turns, rfl⟩ := Nat.exists_eq_add_of_lt turnsEnough
    have rightRead := tight right rightFits rightUsed rest rightSpelled stops (by omega)
    refine ⟨rightUsed.length + rest.length + turns, by omega, ?_⟩
    rw [List.append_assoc, List.cons_append, reached, operands_step member rightRead]
  | @looser tier e fits _ =>
    intro used rest spelled stops length
    have read := tight e fits used rest spelled stops (by omega)
    exact ⟨bound, by omega, bind_of_clean read⟩
  | _ => simp [Tier.isLeftAssoc] at leftAssoc

theorem readsBack_leftAssoc (leftAssoc : tier.isLeftAssoc)
    (tight : ReadsBack operand tier.tighter limit) (enough : bound ≤ limit) :
    ReadsBack (Grammar.leftAssoc tier.operators bound operand) tier bound := by
  intro e fits used rest spelled stops length
  obtain ⟨turns, -, reached⟩ := leftAssoc_reaches leftAssoc tight enough fits used rest spelled
    (stops.mono tier.extensions_tighter) length
  rw [reached]
  exact operands_stop (stops.mono (Tier.operators_subset_extensions leftAssoc)) e

end

def primaryStarts : List TokenKind :=
  [.falseWord, .trueWord, .nilWord, .number, .string, .identifier, .leftParen]

theorem starts_of_primary {e : Expr} (fits : Fits .primary e) :
    ∃ first others, e.spelling = first :: others ∧ first.kind ∈ primaryStarts := by
  obtain ⟨value, rfl⟩ | ⟨inner, rfl, -⟩ | ⟨name, rfl, kind⟩ := fits.primary_cases
  · refine ⟨_, _, rfl, ?_⟩
    cases value with
    | bool b => cases b <;> decide
    | _ => simp [Value.token, Token.mark, primaryStarts]
  · exact ⟨_, _, rfl, by decide⟩
  · exact ⟨name, [], rfl, by simp [kind, primaryStarts]⟩

theorem starts_of_fits {tier : Tier} {e : Expr} (fits : Fits tier e) :
    ∃ first others, e.spelling = first :: others ∧
      first.kind ∈ Tier.unary.operators ++ primaryStarts := by
  induction fits with
  | literal value =>
    obtain ⟨first, others, same, starts⟩ := starts_of_primary (.literal value)
    exact ⟨first, others, same, List.mem_append_right _ starts⟩
  | grouping _ _ => exact ⟨_, _, rfl, by decide⟩
  | var kind => exact ⟨_, _, rfl, by simp [kind, primaryStarts]⟩
  | unary member _ _ => exact ⟨_, _, rfl, List.mem_append_left _ member⟩
  | binary _ _ _ _ ih _ =>
    obtain ⟨first, others, same, starts⟩ := ih
    exact ⟨first, _, by rw [Expr.spelling, same, List.cons_append], starts⟩
  | conditional _ _ _ ih _ _ =>
    obtain ⟨first, others, same, starts⟩ := ih
    exact ⟨first, _, by rw [Expr.spelling, same, List.cons_append], starts⟩
  | assign kind _ _ => exact ⟨_, _, rfl, by simp [kind, primaryStarts]⟩
  | looser _ ih => exact ih

theorem head_of_spells {used spelling others : List Token} {first : Token}
    (spelled : Spells used spelling) (same : spelling = first :: others) :
    ∃ token rest, used = token :: rest ∧ token.kind = first.kind := by
  subst same
  obtain ⟨token, rest, rfl, essence, -⟩ := Spells.cons_iff.mp spelled
  exact ⟨token, rest, rfl, by simpa using congrArg Token.kind essence⟩

theorem length_pos_of_spells {used : List Token} {e : Expr} (spelled : Spells used e.spelling) :
    0 < used.length := by
  cases used with
  | nil =>
    have empty : e.spelling = [] := List.map_eq_nil_iff.mp spelled.symm
    exact absurd empty e.spelling_ne_nil
  | cons _ _ => simp

theorem readsBack_unary {primary : Parser Expr} {limit bound : Nat}
    (tight : ReadsBack primary .primary limit) (enough : bound ≤ limit) :
    ReadsBack (unary primary bound) .unary bound := by
  induction bound with
  | zero =>
    intro e fits used rest spelled stops length
    have positive := length_pos_of_spells spelled
    omega
  | succ bound ih =>
    intro e fits used rest spelled stops length
    cases fits with
    | @unary operator operand member fits =>
      obtain ⟨sign, operandUsed, rfl, same, operandSpelled⟩ := Spells.cons_iff.mp spelled
      have signIs : sign = operator :=
        Token.eq_of_essence_eq same (Or.inl (Tier.isOperator_of_mem member))
      subst sign
      simp only [List.length_cons] at length
      have read := ih (by omega) operand fits operandUsed rest operandSpelled stops (by omega)
      refine (bind_of_clean (accept_of_mem member _)).trans ?_
      exact bind_of_clean read
    | looser fits =>
      obtain ⟨first, others, same, starts⟩ := starts_of_primary fits
      obtain ⟨token, more, rfl, kind⟩ := head_of_spells spelled same
      have noSign : token.kind ∉ Tier.unary.operators := by
        rw [kind]
        revert starts
        generalize first.kind = kind
        exact (by decide : ∀ kind ∈ primaryStarts, kind ∉ Tier.unary.operators) kind
      refine (bind_of_clean (accept_of_stops (stops_cons.mpr noSign))).trans ?_
      exact tight e fits _ rest spelled stops (by omega)
    | binary leftAssoc => simp [Tier.isLeftAssoc] at leftAssoc

theorem readsBack_conditional {equality : Parser Expr} {limit bound : Nat}
    (tight : ReadsBack equality .equality limit) (enough : bound ≤ limit) :
    ReadsBack (conditional equality bound) .conditional bound := by
  induction bound with
  | zero =>
    intro e fits used rest spelled stops length
    have positive := length_pos_of_spells spelled
    omega
  | succ bound ih =>
    intro e fits used rest spelled stops length
    cases fits with
    | @conditional condition yes no conditionFits yesFits noFits =>
      obtain ⟨conditionUsed, others, rfl, conditionSpelled, spelled⟩ := Spells.append_iff.mp spelled
      obtain ⟨question, others, rfl, questionSame, spelled⟩ := Spells.cons_iff.mp spelled
      obtain ⟨yesUsed, others, rfl, yesSpelled, spelled⟩ := Spells.append_iff.mp spelled
      obtain ⟨colon, noUsed, rfl, colonSame, noSpelled⟩ := Spells.cons_iff.mp spelled
      have questionKind := Token.essence_eq_mark questionSame
      have colonKind := Token.essence_eq_mark colonSame
      simp only [List.length_append, List.length_cons] at length
      have conditionRead := tight condition conditionFits conditionUsed
        (question :: (yesUsed ++ colon :: (noUsed ++ rest))) conditionSpelled
        (stops_cons.mpr (by rw [questionKind]; decide)) (by simp; omega)
      have yesRead := tight yes yesFits yesUsed (colon :: (noUsed ++ rest)) yesSpelled
        (stops_cons.mpr (by rw [colonKind]; decide)) (by simp; omega)
      have noRead := ih (by omega) no noFits noUsed rest noSpelled stops (by omega)
      simp only [List.append_assoc, List.cons_append]
      refine (bind_of_clean conditionRead).trans ?_
      refine (bind_of_clean (accept_of_mem (by simp [questionKind]) _)).trans ?_
      refine (bind_of_clean yesRead).trans ?_
      refine (bind_of_clean (expect_of_kind colonKind _ _)).trans ?_
      exact bind_of_clean noRead
    | looser fits =>
      have read := tight e fits used rest spelled
        (stops.mono (Tier.extensions_tighter .conditional)) (by omega)
      have noQuestion : Stops [.question] rest := stops.mono (by decide)
      exact (bind_of_clean read).trans (bind_of_clean (accept_of_stops noQuestion))
    | binary leftAssoc => simp [Tier.isLeftAssoc] at leftAssoc

theorem readsBack_assignment {conditional : Parser Expr} {limit bound : Nat}
    (tight : ReadsBack conditional .conditional limit) (enough : bound ≤ limit) :
    ReadsBack (assignment conditional bound) .assignment bound := by
  induction bound with
  | zero =>
    intro e fits used rest spelled stops length
    have positive := length_pos_of_spells spelled
    omega
  | succ bound ih =>
    intro e fits used rest spelled stops length
    cases fits with
    | @assign name value nameKind valueFits =>
      obtain ⟨target, others, rfl, targetSame, spelled⟩ := Spells.cons_iff.mp spelled
      obtain ⟨equals, valueUsed, rfl, equalsSame, valueSpelled⟩ := Spells.cons_iff.mp spelled
      have targetIs : target = name := Token.eq_of_essence_eq targetSame (Or.inr nameKind)
      subst target
      have equalsKind := Token.essence_eq_mark equalsSame
      simp only [List.length_cons] at length
      have nameFits : Fits .conditional (.var name) :=
        .looser (.looser (.looser (.looser (.looser (.looser (.var nameKind))))))
      have nameRead := tight (.var name) nameFits [name] (equals :: (valueUsed ++ rest))
        (Spells.refl _) (stops_cons.mpr (by rw [equalsKind]; decide)) (by simp; omega)
      have valueRead := ih (by omega) value valueFits valueUsed rest valueSpelled stops (by omega)
      refine (bind_of_clean nameRead).trans ?_
      refine (bind_of_clean (accept_of_mem (by simp [equalsKind]) _)).trans ?_
      exact bind_of_clean valueRead
    | looser fits =>
      have read := tight e fits used rest spelled
        (stops.mono (Tier.extensions_tighter .assignment)) (by omega)
      have noEqual : Stops [.equal] rest := stops.mono (by decide)
      exact (bind_of_clean read).trans (bind_of_clean (accept_of_stops noEqual))
    | binary leftAssoc => simp [Tier.isLeftAssoc] at leftAssoc

theorem atom?_of_spells_literal {token : Token} {value : Value}
    (same : token.essence = value.token.essence) :
    token.kind ≠ .leftParen ∧ atom? token = some (.literal value) := by
  have kinds : token.kind = value.token.kind := by simpa using congrArg Token.kind same
  have literals := congrArg Token.literal same
  cases value with
  | bool b =>
    cases b <;> simp [Value.token, Token.mark] at kinds <;> simp [atom?, kinds]
  | nil => simp [Value.token, Token.mark] at kinds; simp [atom?, kinds]
  | number x =>
    simp only [Value.token] at kinds
    simp [Token.essence, kinds, Value.token, TokenKind.isOperator, TokenKind.isLiteral] at literals
    simp [atom?, kinds, literals]
  | string text =>
    simp only [Value.token] at kinds
    simp [Token.essence, kinds, Value.token, TokenKind.isOperator, TokenKind.isLiteral] at literals
    simp [atom?, kinds, literals]

theorem primary_of_atom {inner : Parser Expr} {token : Token} {e : Expr}
    (noParen : token.kind ≠ .leftParen) (found : atom? token = some e) (rest : List Token) :
    primary inner (token :: rest) = ⟨.ok e, rest, []⟩ := by
  simp [primary, noParen, found]

theorem readsBack_primary {inner : Parser Expr} {bound : Nat}
    (inside : ReadsBack inner .assignment bound) :
    ReadsBack (primary inner) .primary (bound + 1) := by
  intro e fits used rest spelled stops length
  obtain ⟨value, rfl⟩ | ⟨inner, rfl, innerFits⟩ | ⟨name, rfl, nameKind⟩ := fits.primary_cases
  · obtain ⟨token, more, rfl, same, spelled⟩ := Spells.cons_iff.mp spelled
    obtain rfl := Spells.nil_iff.mp spelled
    obtain ⟨noParen, found⟩ := atom?_of_spells_literal same
    exact primary_of_atom noParen found rest
  · obtain ⟨left, others, rfl, leftSame, spelled⟩ := Spells.cons_iff.mp spelled
    obtain ⟨innerUsed, others, rfl, innerSpelled, spelled⟩ := Spells.append_iff.mp spelled
    obtain ⟨right, others, rfl, rightSame, spelled⟩ := Spells.cons_iff.mp spelled
    obtain rfl := Spells.nil_iff.mp spelled
    have leftKind := Token.essence_eq_mark leftSame
    have rightKind := Token.essence_eq_mark rightSame
    simp only [List.length_cons, List.length_append, List.length_nil] at length
    have innerRead := inside inner innerFits innerUsed (right :: rest) innerSpelled
      (stops_cons.mpr (by rw [rightKind]; decide)) (by simp; omega)
    simp only [List.cons_append, List.append_assoc, List.nil_append, primary, leftKind, if_true]
    refine (bind_of_clean innerRead).trans ?_
    exact bind_of_clean (expect_of_kind rightKind _ _)
  · obtain ⟨token, more, rfl, same, spelled⟩ := Spells.cons_iff.mp spelled
    obtain rfl := Spells.nil_iff.mp spelled
    have tokenIs : token = name := Token.eq_of_essence_eq same (Or.inr nameKind)
    subst token
    exact primary_of_atom (by simp [nameKind]) (by simp [atom?, nameKind]) rest

theorem readsBack_tiers {inner : Parser Expr} {bound : Nat}
    (inside : ReadsBack inner .assignment bound) :
    ReadsBack (tiers (bound + 1) inner) .assignment (bound + 1) := by
  have enough := Nat.le_refl (bound + 1)
  have primaries : ReadsBack (primary inner) .primary (bound + 1) := readsBack_primary inside
  have units := readsBack_unary primaries enough
  have factors : ReadsBack _ .factor (bound + 1) := readsBack_leftAssoc rfl units enough
  have terms : ReadsBack _ .term (bound + 1) := readsBack_leftAssoc rfl factors enough
  have comparisons : ReadsBack _ .comparison (bound + 1) := readsBack_leftAssoc rfl terms enough
  have equalities : ReadsBack _ .equality (bound + 1) := readsBack_leftAssoc rfl comparisons enough
  exact readsBack_assignment (readsBack_conditional equalities enough) enough

theorem readsBack_expression (bound : Nat) : ReadsBack (expression bound) .assignment bound := by
  induction bound with
  | zero =>
    intro e fits used rest spelled stops length
    have positive := length_pos_of_spells spelled
    omega
  | succ bound ih => exact readsBack_tiers ih

end Grammar

end Lox
