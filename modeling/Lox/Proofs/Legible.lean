import Lox.Proofs.NumberText
import Lox.Proofs.Outline
import Lox.Proofs.RoundTrip
import Lox.Proofs.Layout

/-!
Trees that can be told from their texts. Where no string is written and no number is infinite, the
words of a text are names, numbers and reserved words, which cannot be mistaken for each other, and
with the outline of the text they make up the tree.
-/

namespace Lox

/-! The tokens of a source are known from their lexemes. -/

structure Token.Scanned (token : Token) : Prop where
  lexeme : Lexeme token.kind token.lexeme.toList
  literal : token.literal = token.kind.literal? token.lexeme.toList

structure Token.IsOperator (token : Token) : Prop where
  scanned : token.Scanned
  kind : token.kind.isOperator

structure Token.IsName (token : Token) : Prop where
  scanned : token.Scanned
  kind : token.kind = .identifier

theorem Token.Scanned.unplaced_eq {token other : Token} (scanned : token.Scanned)
    (otherScanned : other.Scanned) (same : token.lexeme = other.lexeme) :
    token.unplaced = other.unplaced := by
  have lexeme := scanned.lexeme
  rw [same] at lexeme
  have kinds := lexeme.kind_unique otherScanned.lexeme
  have literals : token.literal = other.literal := by
    rw [scanned.literal, otherScanned.literal, kinds, same]
  simp only [Token.unplaced, Token.onLine, kinds, same, literals]

theorem Lexeme.mem_operators {kind : TokenKind} {lexeme : List Char} (valid : Lexeme kind lexeme)
    (isOperator : kind.isOperator) : (lexeme, kind) ∈ TokenKind.operators := by
  cases valid with
  | operator member => exact member
  | word _ _ =>
    have kinds : ∀ kind ∈ .identifier :: TokenKind.keywords.map Prod.snd,
        kind.isOperator = false := by decide
    rw [kinds _ (TokenKind.word_mem _)] at isOperator
    contradiction
  | _ => contradiction

namespace Token

variable {token : Token}

theorem IsOperator.mem_operators (operator : token.IsOperator) :
    (token.lexeme.toList, token.kind) ∈ TokenKind.operators :=
  operator.scanned.lexeme.mem_operators operator.kind

theorem IsOperator.isWord (operator : token.IsOperator) : IsWord token.lexeme := by
  have table : ∀ entry ∈ TokenKind.operators, entry.2.isOperator →
      entry.1 ≠ [] ∧ entry.1.all inWord := by decide
  exact table _ operator.mem_operators operator.kind

theorem IsOperator.ne_group (operator : token.IsOperator) : token.lexeme ≠ "group" := by
  have table : ∀ entry ∈ TokenKind.operators, entry.1 ≠ "group".toList := by decide
  exact fun same => table _ operator.mem_operators (congrArg String.toList same)

theorem IsOperator.ne_equal (operator : token.IsOperator) : token.lexeme ≠ "=" := by
  have table : ∀ entry ∈ TokenKind.operators, entry.2.isOperator → entry.1 ≠ "=".toList := by
    decide
  exact fun same => table _ operator.mem_operators operator.kind (congrArg String.toList same)

theorem IsName.isWord (name : token.IsName) : IsWord token.lexeme := by
  obtain ⟨first, others, same, starts, continues, -⟩ := name.scanned.lexeme.name name.kind
  refine ⟨by simp [same], List.all_eq_true.mpr fun c member => ?_⟩
  have letter : Segment.startsName c ∨ Segment.continuesName c := by
    rw [same] at member
    rcases List.mem_cons.mp member with rfl | inside
    · exact .inl starts
    · exact .inr (continues c inside)
  refine inWord_of_ne ?_ ?_ ?_ <;> rintro rfl <;> exact absurd letter (by decide)

end Token

/-! Literals that are not taken for anything else. -/

def Value.IsPlain : Value → Prop
  | bool _ | nil => True
  | number x => Number.IsFinite x
  | string _ => False

instance : DecidablePred Value.IsPlain
  | .bool _ | .nil => .isTrue trivial
  | .number x => inferInstanceAs (Decidable (Number.IsFinite x))
  | .string _ => .isFalse id

namespace Value

def words : List Value := [bool true, bool false, nil]

theorem number_or_word {value : Value} (plain : value.IsPlain) :
    (∃ x, value = number x ∧ Number.IsFinite x) ∨ value ∈ words := by
  cases value with
  | number x => exact .inl ⟨x, rfl, plain⟩
  | string text => exact plain.elim
  | bool b => cases b <;> exact .inr (by decide)
  | nil => exact .inr (by decide)

theorem isWord_text {value : Value} (plain : value.IsPlain) : IsWord value.text := by
  rcases number_or_word plain with ⟨x, rfl, finite⟩ | word
  · obtain ⟨nonempty, chars⟩ := Number.text_chars finite
    refine ⟨nonempty, List.all_eq_true.mpr fun c member => ?_⟩
    have inNumber := chars c member
    refine inWord_of_ne ?_ ?_ ?_ <;> rintro rfl <;> exact absurd inNumber (by decide)
  · have each : ∀ word ∈ words, IsWord word.text := by decide
    exact each value word

theorem number_text_ne_word {x : Float} (finite : Number.IsFinite x) {word : Value}
    (isWord : word ∈ words) : Number.text x ≠ word.text := by
  have letters : ∀ word ∈ words, word.text.toList.all Number.inNumber = false := by decide
  intro same
  have noLetter : (Number.text x).toList.all Number.inNumber :=
    List.all_eq_true.mpr (Number.text_chars finite).2
  rw [same, letters word isWord] at noLetter
  contradiction

theorem eq_of_text_eq {value other : Value} (plain : value.IsPlain) (otherPlain : other.IsPlain)
    (same : value.text = other.text) : value = other := by
  rcases number_or_word plain with ⟨x, rfl, xFinite⟩ | word
  · rcases number_or_word otherPlain with ⟨y, rfl, yFinite⟩ | otherWord
    · rw [Number.eq_of_text_eq xFinite yFinite same]
    · exact absurd same (number_text_ne_word xFinite otherWord)
  · rcases number_or_word otherPlain with ⟨y, rfl, yFinite⟩ | otherWord
    · exact absurd same.symm (number_text_ne_word yFinite word)
    · have different : ∀ first ∈ words, ∀ second ∈ words, first.text = second.text →
          first = second := by decide
      exact different _ word _ otherWord same

theorem text_ne_name {value : Value} (plain : value.IsPlain) {name : Token} (isName : name.IsName) :
    value.text ≠ name.lexeme := by
  obtain ⟨first, others, split, starts, -, free⟩ := isName.scanned.lexeme.name isName.kind
  intro same
  rcases number_or_word plain with ⟨x, rfl, finite⟩ | word
  · have member : first ∈ (Number.text x).toList := by
      rw [show Number.text x = name.lexeme from same, split]
      exact List.mem_cons_self
    have inNumber := (Number.text_chars finite).2 first member
    simp only [Number.inNumber, Bool.or_eq_true, decide_eq_true_eq] at inNumber
    rcases inNumber with (digit | rfl) | rfl
    · rw [Segment.startsName_of_isDigit digit] at starts
      contradiction
    · exact absurd starts (by decide)
    · exact absurd starts (by decide)
  · have taken : ∀ word ∈ words, (TokenKind.keyword? word.text).getD .identifier ≠ .identifier := by
      decide
    rw [String.ofList_toList, ← same] at free
    exact taken _ word free

end Value

/-! Trees that are made up of such tokens and literals. -/

namespace Expr

def literals : Expr → List Value
  | literal value => [value]
  | grouping inner => inner.literals
  | unary _ operand => operand.literals
  | binary left _ right => left.literals ++ right.literals
  | var _ => []
  | assign _ value => value.literals
  | conditional condition yes no => condition.literals ++ (yes.literals ++ no.literals)

def Legible : Expr → Prop
  | literal value => value.IsPlain
  | grouping inner => inner.Legible
  | unary operator operand => operator.IsOperator ∧ operand.Legible
  | binary left operator right => operator.IsOperator ∧ left.Legible ∧ right.Legible
  | var name => name.IsName
  | assign name value => name.IsName ∧ value.Legible
  | conditional condition yes no => condition.Legible ∧ yes.Legible ∧ no.Legible

theorem Legible.valid {e : Expr} (legible : e.Legible) : e.outline.Valid := by
  have heads : ∀ head ∈ ["group", "=", "?:"], IsWord head := by decide
  induction e with
  | literal value => exact Value.isWord_text legible
  | grouping inner ih => exact ⟨heads _ (by decide), ih legible, trivial⟩
  | unary operator operand ih => exact ⟨legible.1.isWord, ih legible.2, trivial⟩
  | binary left operator right leftIh rightIh =>
    exact ⟨legible.1.isWord, leftIh legible.2.1, rightIh legible.2.2, trivial⟩
  | var name => exact legible.isWord
  | assign name value ih => exact ⟨heads _ (by decide), legible.1.isWord, ih legible.2, trivial⟩
  | conditional condition yes no conditionIh yesIh noIh =>
    exact ⟨heads _ (by decide), conditionIh legible.1, yesIh legible.2.1, noIh legible.2.2, trivial⟩

theorem eq_of_outline_eq {e other : Expr} (legible : e.Legible) (otherLegible : other.Legible)
    (same : e.outline = other.outline) :
    e.mapTokens Token.unplaced = other.mapTokens Token.unplaced := by
  -- Most pairs of constructors differ in the number of parts; of the rest, an operator could be
  -- mistaken for the head of a group or an assignment, and a literal for a name.
  induction e generalizing other with
  | literal value =>
    cases other with
    | literal value' =>
      obtain rfl := Value.eq_of_text_eq legible otherLegible (Outline.word.inj same)
      rfl
    | var name => exact absurd (Outline.word.inj same) (Value.text_ne_name legible otherLegible)
    | _ => simp [outline] at same
  | grouping inner ih =>
    cases other with
    | grouping inner' =>
      have inside : inner'.Legible := otherLegible
      simp only [outline, Outline.group.injEq, List.cons.injEq] at same
      obtain ⟨-, inners, -⟩ := same
      rw [mapTokens, mapTokens, ih legible inside inners]
    | unary operator operand =>
      exact absurd (Outline.group.inj same).1.symm otherLegible.1.ne_group
    | _ => simp [outline] at same
  | unary operator operand ih =>
    cases other with
    | unary operator' operand' =>
      simp only [outline, Outline.group.injEq, List.cons.injEq] at same
      obtain ⟨operators, operands, -⟩ := same
      rw [mapTokens, mapTokens, ih legible.2 otherLegible.2 operands,
        legible.1.scanned.unplaced_eq otherLegible.1.scanned operators]
    | grouping inner => exact absurd (Outline.group.inj same).1 legible.1.ne_group
    | _ => simp [outline] at same
  | binary left operator right leftIh rightIh =>
    cases other with
    | binary left' operator' right' =>
      simp only [outline, Outline.group.injEq, List.cons.injEq] at same
      obtain ⟨operators, lefts, rights, -⟩ := same
      rw [mapTokens, mapTokens, leftIh legible.2.1 otherLegible.2.1 lefts,
        rightIh legible.2.2 otherLegible.2.2 rights,
        legible.1.scanned.unplaced_eq otherLegible.1.scanned operators]
    | assign name value => exact absurd (Outline.group.inj same).1 legible.1.ne_equal
    | _ => simp [outline] at same
  | var name =>
    cases other with
    | var name' =>
      rw [mapTokens, mapTokens, legible.scanned.unplaced_eq otherLegible.scanned
        (Outline.word.inj same)]
    | literal value =>
      exact absurd (Outline.word.inj same).symm (Value.text_ne_name otherLegible legible)
    | _ => simp [outline] at same
  | assign name value ih =>
    cases other with
    | assign name' value' =>
      simp only [outline, Outline.group.injEq, List.cons.injEq, Outline.word.injEq] at same
      obtain ⟨-, names, values, -⟩ := same
      rw [mapTokens, mapTokens, ih legible.2 otherLegible.2 values,
        legible.1.scanned.unplaced_eq otherLegible.1.scanned names]
    | binary left operator right =>
      exact absurd (Outline.group.inj same).1.symm otherLegible.1.ne_equal
    | _ => simp [outline] at same
  | conditional condition yes no conditionIh yesIh noIh =>
    cases other with
    | conditional condition' yes' no' =>
      simp only [outline, Outline.group.injEq, List.cons.injEq] at same
      obtain ⟨-, conditions, yeses, nos, -⟩ := same
      rw [mapTokens, mapTokens, conditionIh legible.1 otherLegible.1 conditions,
        yesIh legible.2.1 otherLegible.2.1 yeses, noIh legible.2.2 otherLegible.2.2 nos]
    | _ => simp [outline] at same

end Expr

namespace Stmt

mutual

def literals : Stmt → List Value
  | expression e => e.literals
  | print e => e.literals
  | varDecl _ none => []
  | varDecl _ (some initial) => initial.literals
  | block body => literalsAll body
  | ifThen condition yes => condition.literals ++ yes.literals
  | ifElse condition yes no => condition.literals ++ (yes.literals ++ no.literals)
  | whileLoop condition body => condition.literals ++ body.literals

def literalsAll : List Stmt → List Value
  | [] => []
  | statement :: others => statement.literals ++ literalsAll others

end

mutual

def Legible : Stmt → Prop
  | expression e => e.Legible
  | print e => e.Legible
  | varDecl name initial => name.IsName ∧ ∀ e ∈ initial, e.Legible
  | block body => LegibleAll body
  | ifThen condition yes => condition.Legible ∧ yes.Legible
  | ifElse condition yes no => condition.Legible ∧ yes.Legible ∧ no.Legible
  | whileLoop condition body => condition.Legible ∧ body.Legible

def LegibleAll : List Stmt → Prop
  | [] => True
  | statement :: others => statement.Legible ∧ LegibleAll others

end

theorem isWord_head {head : String}
    (member : head ∈ [";", "print", "var", "block", "if", "while"]) : IsWord head := by
  have heads : ∀ head ∈ [";", "print", "var", "block", "if", "while"], IsWord head := by decide
  exact heads head member

mutual

theorem Legible.valid {statement : Stmt} (legible : statement.Legible) :
    statement.outline.Valid := by
  cases statement with
  | expression e | print e => exact ⟨isWord_head (by decide), Expr.Legible.valid legible, trivial⟩
  | varDecl name initial =>
    cases initial with
    | none => exact ⟨isWord_head (by decide), legible.1.isWord, trivial⟩
    | some e => exact ⟨isWord_head (by decide), legible.1.isWord, (legible.2 e rfl).valid, trivial⟩
  | block body => exact ⟨isWord_head (by decide), LegibleAll.validAll legible⟩
  | ifThen condition yes =>
    exact ⟨isWord_head (by decide), legible.1.valid, Legible.valid legible.2, trivial⟩
  | ifElse condition yes no =>
    exact ⟨isWord_head (by decide), legible.1.valid, Legible.valid legible.2.1,
      Legible.valid legible.2.2, trivial⟩
  | whileLoop condition body =>
    exact ⟨isWord_head (by decide), legible.1.valid, Legible.valid legible.2, trivial⟩

theorem LegibleAll.validAll {statements : List Stmt} (legible : LegibleAll statements) :
    Outline.ValidAll (outlineAll statements) := by
  cases statements with
  | nil => trivial
  | cons statement others =>
    exact ⟨Legible.valid legible.1, LegibleAll.validAll legible.2⟩

end

theorem initial_eq {initial other : Option Expr} (legible : ∀ e ∈ initial, e.Legible)
    (otherLegible : ∀ e ∈ other, e.Legible)
    (same : (initial.map Expr.outline).toList = (other.map Expr.outline).toList) :
    initial.map (·.mapTokens Token.unplaced) = other.map (·.mapTokens Token.unplaced) := by
  cases initial with
  | none =>
    cases other with
    | none => rfl
    | some e => cases same
  | some e =>
    cases other with
    | none => cases same
    | some e' =>
      exact congrArg some
        (Expr.eq_of_outline_eq (legible e rfl) (otherLegible e' rfl) (List.cons.inj same).1)

mutual

theorem eq_of_outline_eq (statement : Stmt) {other : Stmt} (legible : statement.Legible)
    (otherLegible : other.Legible) (same : statement.outline = other.outline) :
    statement.mapTokens Token.unplaced = other.mapTokens Token.unplaced := by
  cases statement with
  | expression e =>
    cases other with
    | expression e' =>
      simp only [outline, Outline.group.injEq, List.cons.injEq] at same
      obtain ⟨-, values, -⟩ := same
      rw [mapTokens, mapTokens, Expr.eq_of_outline_eq legible otherLegible values]
    | _ => simp [outline] at same
  | print e =>
    cases other with
    | print e' =>
      simp only [outline, Outline.group.injEq, List.cons.injEq] at same
      obtain ⟨-, values, -⟩ := same
      rw [mapTokens, mapTokens, Expr.eq_of_outline_eq legible otherLegible values]
    | _ => simp [outline] at same
  | varDecl name initial =>
    cases other with
    | varDecl name' initial' =>
      simp only [outline, Outline.group.injEq, List.cons.injEq, Outline.word.injEq] at same
      obtain ⟨-, lexemes, initials⟩ := same
      rw [mapTokens, mapTokens, initial_eq legible.2 otherLegible.2 initials,
        legible.1.scanned.unplaced_eq otherLegible.1.scanned lexemes]
    | _ => simp [outline] at same
  | block body =>
    cases other with
    | block body' =>
      rw [mapTokens, mapTokens,
        eq_of_outlineAll_eq body legible otherLegible (Outline.group.inj same).2]
    | _ => simp [outline] at same
  | ifThen condition yes =>
    cases other with
    | ifThen condition' yes' =>
      simp only [outline, Outline.group.injEq, List.cons.injEq] at same
      obtain ⟨-, conditions, yeses, -⟩ := same
      rw [mapTokens, mapTokens, Expr.eq_of_outline_eq legible.1 otherLegible.1 conditions,
        eq_of_outline_eq yes legible.2 otherLegible.2 yeses]
    | _ => simp [outline] at same
  | ifElse condition yes no =>
    cases other with
    | ifElse condition' yes' no' =>
      simp only [outline, Outline.group.injEq, List.cons.injEq] at same
      obtain ⟨-, conditions, yeses, nos, -⟩ := same
      rw [mapTokens, mapTokens, Expr.eq_of_outline_eq legible.1 otherLegible.1 conditions,
        eq_of_outline_eq yes legible.2.1 otherLegible.2.1 yeses,
        eq_of_outline_eq no legible.2.2 otherLegible.2.2 nos]
    | _ => simp [outline] at same
  | whileLoop condition body =>
    cases other with
    | whileLoop condition' body' =>
      simp only [outline, Outline.group.injEq, List.cons.injEq] at same
      obtain ⟨-, conditions, bodies, -⟩ := same
      rw [mapTokens, mapTokens, Expr.eq_of_outline_eq legible.1 otherLegible.1 conditions,
        eq_of_outline_eq body legible.2 otherLegible.2 bodies]
    | _ => simp [outline] at same

theorem eq_of_outlineAll_eq (statements : List Stmt) {others : List Stmt}
    (legible : LegibleAll statements) (othersLegible : LegibleAll others)
    (same : outlineAll statements = outlineAll others) :
    mapTokensAll Token.unplaced statements = mapTokensAll Token.unplaced others := by
  cases statements with
  | nil =>
    cases others with
    | nil => rfl
    | cons other others => cases same
  | cons statement statements =>
    cases others with
    | nil => cases same
    | cons other others =>
      obtain ⟨first, rest⟩ := List.cons.inj same
      rw [mapTokensAll, mapTokensAll, eq_of_outline_eq statement legible.1 othersLegible.1 first,
        eq_of_outlineAll_eq statements legible.2 othersLegible.2 rest]

end

theorem eq_of_text_eq {statement other : Stmt} (legible : statement.Legible)
    (otherLegible : other.Legible) (same : statement.text = other.text) :
    statement.mapTokens Token.unplaced = other.mapTokens Token.unplaced := by
  have outlines : statement.outline = other.outline := by
    apply Outline.eq_of_text_eq legible.valid otherLegible.valid
    rw [text_outline, text_outline, same]
  exact eq_of_outline_eq statement legible otherLegible outlines

theorem eq_of_map_text_eq {statements others : List Stmt}
    (legible : ∀ statement ∈ statements, statement.Legible)
    (othersLegible : ∀ statement ∈ others, statement.Legible)
    (same : statements.map text = others.map text) :
    statements.map (mapTokens Token.unplaced) = others.map (mapTokens Token.unplaced) := by
  induction statements generalizing others with
  | nil => rw [List.map_eq_nil_iff.mp same.symm]
  | cons statement statements ih =>
    obtain ⟨other, others, rfl, text, texts⟩ := List.map_eq_cons_iff.mp same.symm
    obtain ⟨first, rest⟩ := List.forall_mem_cons.mp legible
    obtain ⟨otherFirst, otherRest⟩ := List.forall_mem_cons.mp othersLegible
    rw [List.map_cons, List.map_cons, eq_of_text_eq first otherFirst text.symm,
      ih rest otherRest texts.symm]

theorem legibleAll_iff {statements : List Stmt} :
    LegibleAll statements ↔ ∀ statement ∈ statements, statement.Legible := by
  induction statements with
  | nil => simp [LegibleAll]
  | cons statement others ih => simp [LegibleAll, ih]

theorem mem_literalsAll {value : Value} {statements : List Stmt} :
    value ∈ literalsAll statements ↔ ∃ statement ∈ statements, value ∈ statement.literals := by
  induction statements with
  | nil => simp [literalsAll]
  | cons statement others ih => simp [literalsAll, ih]

end Stmt

/-! The statements of a source are such trees. -/

def Token.Traced (token : Token) : Prop :=
  token.kind.isOperator ∨ token.kind = .identifier → token.Scanned

theorem Token.Traced.isName {token : Token} (traced : token.Traced)
    (isName : token.kind = .identifier) : token.IsName :=
  ⟨traced (.inr isName), isName⟩

theorem Token.Traced.isOperator {token : Token} {tier : Tier} (traced : token.Traced)
    (member : token.kind ∈ tier.operators) : token.IsOperator :=
  ⟨traced (.inl (Tier.isOperator_of_mem member)), Tier.isOperator_of_mem member⟩

theorem Fits.legible {tier : Tier} {e : Expr} (fits : Fits tier e)
    (traced : ∀ token ∈ e.spelling, token.Traced) (plain : ∀ value ∈ e.literals, value.IsPlain) :
    e.Legible := by
  induction fits with
  | literal value => exact plain value (List.mem_singleton_self _)
  | grouping _ inner =>
    simp only [Expr.spelling, List.forall_mem_cons, List.forall_mem_append] at traced
    obtain ⟨-, innerTraced, -⟩ := traced
    exact inner innerTraced plain
  | var isName => exact (traced _ (List.mem_singleton_self _)).isName isName
  | unary member _ operand =>
    obtain ⟨operator, operandTraced⟩ := List.forall_mem_cons.mp traced
    exact ⟨operator.isOperator member, operand operandTraced plain⟩
  | binary _ member _ _ left right =>
    simp only [Expr.spelling, List.forall_mem_cons, List.forall_mem_append] at traced
    obtain ⟨leftTraced, operator, rightTraced⟩ := traced
    obtain ⟨leftPlain, rightPlain⟩ := List.forall_mem_append.mp plain
    exact ⟨operator.isOperator member, left leftTraced leftPlain, right rightTraced rightPlain⟩
  | conditional _ _ _ condition yes no =>
    simp only [Expr.spelling, List.forall_mem_cons, List.forall_mem_append] at traced
    obtain ⟨conditionTraced, -, yesTraced, -, noTraced⟩ := traced
    simp only [Expr.literals, List.forall_mem_append] at plain
    obtain ⟨conditionPlain, yesPlain, noPlain⟩ := plain
    exact ⟨condition conditionTraced conditionPlain, yes yesTraced yesPlain, no noTraced noPlain⟩
  | assign isName _ value =>
    simp only [Expr.spelling, List.forall_mem_cons] at traced
    obtain ⟨name, -, valueTraced⟩ := traced
    exact ⟨name.isName isName, value valueTraced plain⟩
  | looser _ tighter => exact tighter traced plain

theorem Shaped.legible {place : Place} {statement : Stmt} (shaped : Shaped place statement)
    (traced : ∀ token ∈ statement.spelling, token.Traced)
    (plain : ∀ value ∈ statement.literals, value.IsPlain) : statement.Legible := by
  induction shaped with
  | expression fits =>
    exact fits.legible (List.forall_mem_append.mp traced).1 plain
  | print fits =>
    simp only [Stmt.spelling, List.forall_mem_cons, List.forall_mem_append] at traced
    obtain ⟨-, inner, -⟩ := traced
    exact fits.legible inner plain
  | @varDecl name initial isName fits =>
    cases initial with
    | none =>
      simp only [Stmt.spelling, List.forall_mem_cons] at traced
      obtain ⟨-, declared, -⟩ := traced
      exact ⟨declared.isName isName, nofun⟩
    | some e =>
      simp only [Stmt.spelling, List.forall_mem_cons, List.forall_mem_append] at traced
      obtain ⟨-, declared, -, inner, -⟩ := traced
      refine ⟨declared.isName isName, ?_⟩
      rintro _ ⟨⟩
      exact (fits e rfl).legible inner plain
  | @block place body _ inside =>
    simp only [Stmt.spelling, List.forall_mem_cons, List.forall_mem_append] at traced
    obtain ⟨-, bodyTraced, -⟩ := traced
    refine Stmt.legibleAll_iff.mpr fun statement member => inside statement member ?_ ?_
    · exact fun token spelled =>
        bodyTraced token (Stmt.mem_spellingAll.mpr ⟨statement, member, spelled⟩)
    · exact fun value literal =>
        plain value (Stmt.mem_literalsAll.mpr ⟨statement, member, literal⟩)
  | ifThen condition _ yes =>
    simp only [Stmt.spelling, List.forall_mem_cons, List.forall_mem_append] at traced
    obtain ⟨-, -, conditionTraced, -, yesTraced⟩ := traced
    obtain ⟨conditionPlain, yesPlain⟩ := List.forall_mem_append.mp plain
    exact ⟨condition.legible conditionTraced conditionPlain, yes yesTraced yesPlain⟩
  | ifElse condition _ _ _ yes no =>
    simp only [Stmt.spelling, List.forall_mem_cons, List.forall_mem_append] at traced
    obtain ⟨-, -, conditionTraced, -, yesTraced, -, noTraced⟩ := traced
    simp only [Stmt.literals, List.forall_mem_append] at plain
    obtain ⟨conditionPlain, yesPlain, noPlain⟩ := plain
    exact ⟨condition.legible conditionTraced conditionPlain, yes yesTraced yesPlain,
      no noTraced noPlain⟩
  | whileLoop condition _ body =>
    simp only [Stmt.spelling, List.forall_mem_cons, List.forall_mem_append] at traced
    obtain ⟨-, -, conditionTraced, -, bodyTraced⟩ := traced
    obtain ⟨conditionPlain, bodyPlain⟩ := List.forall_mem_append.mp plain
    exact ⟨condition.legible conditionTraced conditionPlain, body bodyTraced bodyPlain⟩

theorem tolerant_of_mem_tokens {mode : ScanMode} {source : String} {token : Token}
    (member : token ∈ (scan mode source).tokens) : token ∈ (scan .tolerant source).tokens := by
  cases mode with
  | tolerant => exact member
  | strict =>
    rw [show scan .strict source = _ from Scan.strict_eq _] at member
    split at member
    · exact member
    · cases member

theorem traced_of_mem_tokens {mode : ScanMode} {source : String} {token : Token}
    (member : token ∈ (scan mode source).tokens) : token.Traced ∧ token.Genuine := by
  rcases List.mem_append.mp (tolerant_of_mem_tokens member) with kept | last
  · have divided := segmentation_ofSource source.toList
    exact ⟨fun _ => ⟨divided.lexeme_of_mem_tokens kept, Segment.literal_of_mem_tokens kept⟩,
      Segment.genuine_of_mem_tokens kept⟩
  · rw [List.mem_singleton.mp last]
    exact ⟨fun kept => by simp [Token.eof, TokenKind.isOperator] at kept, Token.genuine_eof _⟩

theorem traced_of_mem_spellingAll {tokens : List Token}
    (traced : ∀ token ∈ tokens, token.Traced) (genuine : ∀ token ∈ tokens, token.Genuine)
    {token : Token} (member : token ∈ Stmt.spellingAll (parse tokens).statements) :
    token.Traced := by
  intro kept
  have essence := (accounted_parse genuine).1.subset (List.mem_map_of_mem member)
  obtain ⟨original, inBody, same⟩ := List.mem_map.mp essence
  obtain rfl := Token.eq_of_essence_eq same kept
  exact traced original ((List.takeWhile_sublist _).subset inBody) kept

theorem legible_of_mem_statements {mode : ScanMode} {source : String}
    (plain : ∀ value ∈ Stmt.literalsAll (parse (scan mode source).tokens).statements, value.IsPlain)
    {statement : Stmt} (member : statement ∈ (parse (scan mode source).tokens).statements) :
    statement.Legible := by
  apply (shaped_of_mem_statements member).legible
  · intro token spelled
    exact traced_of_mem_spellingAll (fun _ inTokens => (traced_of_mem_tokens inTokens).1)
      (fun _ inTokens => (traced_of_mem_tokens inTokens).2)
      (Stmt.mem_spellingAll.mpr ⟨statement, member, spelled⟩)
  · intro value literal
    exact plain value (Stmt.mem_literalsAll.mpr ⟨statement, member, literal⟩)

/-- Sources whose statements have the same texts, with no strings and no infinite numbers in them,
have the same statements, up to the lines on which the tokens stand. -/
theorem texts_tell_statements_apart {mode otherMode : ScanMode} {source other : String}
    (plain : ∀ value ∈ Stmt.literalsAll (parse (scan mode source).tokens).statements, value.IsPlain)
    (otherPlain : ∀ value ∈ Stmt.literalsAll (parse (scan otherMode other).tokens).statements,
      value.IsPlain)
    (same : (parse (scan mode source).tokens).statements.map Stmt.text =
      (parse (scan otherMode other).tokens).statements.map Stmt.text) :
    (parse (scan mode source).tokens).statements.map (Stmt.mapTokens Token.unplaced) =
      (parse (scan otherMode other).tokens).statements.map (Stmt.mapTokens Token.unplaced) :=
  Stmt.eq_of_map_text_eq (fun _ => legible_of_mem_statements plain)
    (fun _ => legible_of_mem_statements otherPlain) same

/-- Names like heads, both kinds of minus, with and without an alternative; the second source has
another layout and faults of its own. -/
theorem texts_tell_statements_apart_faulty :
    let source := "var group = 1.50 - -block; if (group) {} else while (!x) { group = 0; }"
    let other :=
      "var group =\n1.5 - - block; ) ; @ if (group) { } /**/ else\nwhile (! x) {group=0.0;}"
    let statements := (parse (scan .tolerant source).tokens).statements
    let others := (parse (scan .tolerant other).tokens).statements
    (∀ value ∈ Stmt.literalsAll statements, value.IsPlain) ∧
      (∀ value ∈ Stmt.literalsAll others, value.IsPlain) ∧
      statements.map Stmt.text = ["(var group (- 1.5 (- block)))",
        "(if group (block) (while (! x) (block (; (= group 0)))))"] ∧
      statements.map Stmt.text = others.map Stmt.text ∧
      statements.map (Stmt.mapTokens Token.unplaced) =
        others.map (Stmt.mapTokens Token.unplaced) := by
  intro source other statements others
  have plain : ∀ value ∈ Stmt.literalsAll statements, value.IsPlain := by decide +kernel
  have otherPlain : ∀ value ∈ Stmt.literalsAll others, value.IsPlain := by decide +kernel
  have texts : statements.map Stmt.text = ["(var group (- 1.5 (- block)))",
      "(if group (block) (while (! x) (block (; (= group 0)))))"] := by decide +kernel
  have same : statements.map Stmt.text = others.map Stmt.text := by decide +kernel
  exact ⟨plain, otherPlain, texts, same, texts_tell_statements_apart plain otherPlain same⟩

end Lox
