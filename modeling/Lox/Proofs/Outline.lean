import Lox.Stmt

/-!
Outlines: words in nested parentheses. The texts of expressions and statements are such, and an
outline can be read from its text, since no text goes on where another one ends.
-/

namespace Lox

inductive Outline
  | word (text : String)
  | group (head : String) (parts : List Outline)

def inWord (c : Char) : Bool := c ≠ ' ' ∧ c ≠ '(' ∧ c ≠ ')'

theorem inWord_of_ne {c : Char} (blank : c ≠ ' ') (opening : c ≠ '(') (closing : c ≠ ')') :
    inWord c :=
  decide_eq_true ⟨blank, opening, closing⟩

def IsWord (text : String) : Prop :=
  text.toList ≠ [] ∧ text.toList.all inWord

instance (text : String) : Decidable (IsWord text) :=
  inferInstanceAs (Decidable (_ ∧ _))

def EndsWord (rest : List Char) : Prop :=
  ∀ c ∈ rest.head?, inWord c = false

theorem IsWord.takeWhile_append {word : String} (isWord : IsWord word) {rest : List Char}
    (ends : EndsWord rest) : (word.toList ++ rest).takeWhile inWord = word.toList := by
  have behind : rest.takeWhile inWord = [] := by
    cases rest with
    | nil => rfl
    | cons c others => rw [List.takeWhile_cons, ends c rfl]; rfl
  rw [List.takeWhile_append_of_pos (List.all_eq_true.mp isWord.2), behind, List.append_nil]

theorem IsWord.cancel {first second : String} (firstWord : IsWord first)
    (secondWord : IsWord second) {before after : List Char} (beforeEnds : EndsWord before)
    (afterEnds : EndsWord after) (same : first.toList ++ before = second.toList ++ after) :
    first = second ∧ before = after := by
  have words : first.toList = second.toList := by
    rw [← firstWord.takeWhile_append beforeEnds, same, secondWord.takeWhile_append afterEnds]
  rw [words] at same
  exact ⟨String.toList_inj.mp words, List.append_cancel_left same⟩

namespace Outline

mutual

def text : Outline → List Char
  | word text => text.toList
  | group head parts => '(' :: (head.toList ++ textAll parts)

def textAll : List Outline → List Char
  | [] => [')']
  | part :: parts => ' ' :: (part.text ++ textAll parts)

end

mutual

def Valid : Outline → Prop
  | word text => IsWord text
  | group head parts => IsWord head ∧ ValidAll parts

def ValidAll : List Outline → Prop
  | [] => True
  | part :: parts => part.Valid ∧ ValidAll parts

end

theorem endsWord_textAll (parts : List Outline) (rest : List Char) :
    EndsWord (textAll parts ++ rest) := by
  cases parts with
  | nil => rintro c ⟨⟩; decide
  | cons part parts => rintro c ⟨⟩; decide

theorem text_word_ne_group {text head : String} (isWord : IsWord text) (parts : List Outline)
    (before after : List Char) : (word text).text ++ before ≠ (group head parts).text ++ after := by
  obtain ⟨c, others, split⟩ := List.exists_cons_of_ne_nil isWord.1
  have inside : inWord c := List.all_eq_true.mp isWord.2 c (split ▸ List.mem_cons_self)
  rw [Outline.text, Outline.text, split]
  intro same
  rw [(List.cons.inj same).1] at inside
  contradiction

mutual

/-- The text in front shows the outline, and where it ends. -/
theorem text_cancel (outline : Outline) {other : Outline} {before after : List Char}
    (valid : outline.Valid) (otherValid : other.Valid) (beforeEnds : EndsWord before)
    (afterEnds : EndsWord after) (same : outline.text ++ before = other.text ++ after) :
    outline = other ∧ before = after := by
  match outline, other with
  | word first, word second =>
    obtain ⟨rfl, rest⟩ := IsWord.cancel valid otherValid beforeEnds afterEnds same
    exact ⟨rfl, rest⟩
  | word text, group head parts => exact absurd same (text_word_ne_group valid parts _ _)
  | group head parts, word text => exact absurd same.symm (text_word_ne_group otherValid parts _ _)
  | group head parts, group otherHead others =>
    simp only [text, List.cons_append, List.append_assoc] at same
    have inside := (List.cons.inj same).2
    obtain ⟨rfl, behind⟩ := IsWord.cancel valid.1 otherValid.1 (endsWord_textAll _ _)
      (endsWord_textAll _ _) inside
    obtain ⟨rfl, rest⟩ := textAll_cancel parts valid.2 otherValid.2 behind
    exact ⟨rfl, rest⟩

theorem textAll_cancel (parts : List Outline) {others : List Outline} {before after : List Char}
    (valid : ValidAll parts) (otherValid : ValidAll others)
    (same : textAll parts ++ before = textAll others ++ after) :
    parts = others ∧ before = after := by
  match parts, others with
  | [], [] => exact ⟨rfl, (List.cons.inj same).2⟩
  | [], _ :: _ => exact absurd (List.cons.inj same).1 (by decide)
  | _ :: _, [] => exact absurd (List.cons.inj same).1 (by decide)
  | part :: parts, other :: others =>
    simp only [textAll, List.cons_append, List.append_assoc] at same
    have inside := (List.cons.inj same).2
    obtain ⟨rfl, behind⟩ := text_cancel part valid.1 otherValid.1 (endsWord_textAll _ _)
      (endsWord_textAll _ _) inside
    obtain ⟨rfl, rest⟩ := textAll_cancel parts valid.2 otherValid.2 behind
    exact ⟨rfl, rest⟩

end

theorem eq_of_text_eq {outline other : Outline} (valid : outline.Valid) (otherValid : other.Valid)
    (same : outline.text = other.text) : outline = other := by
  have nothing : EndsWord [] := fun _ first => nomatch first
  have whole : outline.text ++ [] = other.text ++ [] := by rw [same]
  exact (text_cancel outline valid otherValid nothing nothing whole).1

end Outline

def Expr.outline : Expr → Outline
  | literal value => .word value.text
  | grouping inner => .group "group" [inner.outline]
  | unary operator operand => .group operator.lexeme [operand.outline]
  | binary left operator right => .group operator.lexeme [left.outline, right.outline]
  | var name => .word name.lexeme
  | assign name value => .group "=" [.word name.lexeme, value.outline]
  | conditional condition yes no =>
    .group "?:" [condition.outline, yes.outline, no.outline]

theorem Expr.text_outline (e : Expr) : e.outline.text = e.text.toList := by
  induction e with
  | _ => simp_all [outline, text, Outline.text, Outline.textAll]

namespace Stmt

mutual

def outline : Stmt → Outline
  | expression e => .group ";" [e.outline]
  | print e => .group "print" [e.outline]
  | varDecl name initial =>
    .group "var" (.word name.lexeme :: (initial.map Expr.outline).toList)
  | block body => .group "block" (outlineAll body)
  | ifThen condition yes => .group "if" [condition.outline, yes.outline]
  | ifElse condition yes no => .group "if" [condition.outline, yes.outline, no.outline]
  | whileLoop condition body => .group "while" [condition.outline, body.outline]

def outlineAll : List Stmt → List Outline
  | [] => []
  | statement :: others => statement.outline :: outlineAll others

end

mutual

theorem text_outline (statement : Stmt) : statement.outline.text = statement.text.toList := by
  cases statement with
  | expression e | print e =>
    simp [outline, text, Outline.text, Outline.textAll, Expr.text_outline]
  | varDecl name initial =>
    cases initial <;> simp [outline, text, Outline.text, Outline.textAll, Expr.text_outline]
  | block body => simp [outline, text, Outline.text, textAll_outlineAll body]
  | ifThen condition yes =>
    simp [outline, text, Outline.text, Outline.textAll, Expr.text_outline, text_outline yes]
  | ifElse condition yes no =>
    simp [outline, text, Outline.text, Outline.textAll, Expr.text_outline, text_outline yes,
      text_outline no]
  | whileLoop condition body =>
    simp [outline, text, Outline.text, Outline.textAll, Expr.text_outline, text_outline body]

theorem textAll_outlineAll (statements : List Stmt) :
    Outline.textAll (outlineAll statements) = (bodyText statements).toList ++ [')'] := by
  cases statements with
  | nil => rfl
  | cons statement others =>
    simp [outlineAll, bodyText, Outline.textAll, text_outline statement,
      textAll_outlineAll others]

end

end Stmt

end Lox
