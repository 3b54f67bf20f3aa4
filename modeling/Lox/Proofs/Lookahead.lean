import Lox.Proofs.Completeness.Expression
import Lox.Proofs.Progress

/-!
Expressions are read with one token of lookahead: where one has ended, it ends as well in front of
any other tokens, as long as the next one is the same or can go on with no expression.
-/

namespace Lox

namespace Grammar

def signs : List TokenKind := Tier.unary.operators ++ Tier.assignment.extensions

theorem operators_subset_signs {tier : Tier} (leftAssoc : tier.isLeftAssoc) :
    tier.operators ⊆ signs := by
  have every : ∀ kind ∈ tier.operators, kind ∈ signs := by
    revert leftAssoc
    cases tier <;> decide
  exact fun kind member => every kind member

end Grammar

namespace Parser

open Lox.Grammar (signs)

variable {α β : Type}

/-- To an expression that has ended, both lists of tokens look the same. -/
def Alike (rest other : List Token) : Prop :=
  other.head? = rest.head? ∨ Stops signs other

theorem Alike.append {rest other : List Token} (alike : Alike rest other) (used : List Token) :
    Alike (used ++ rest) (used ++ other) := by
  cases used with
  | nil => exact alike
  | cons token used => exact .inl rfl

/-- A parser that ends well in front of some tokens ends the same in front of others, of which it
sees no more than the first one. -/
structure LooksAhead (parser : Parser α) : Prop where
  advances : parser.Advances
  same : ∀ used rest other a complaints, parser (used ++ rest) = ⟨.ok a, rest, complaints⟩ →
    Alike rest other → parser (used ++ other) = ⟨.ok a, other, complaints⟩

theorem Advances.split {parser : Parser α} (advances : parser.Advances)
    {used middle rest : List Token} {result : Except SyntaxFault α} {complaints : List Complaint}
    (run : parser (used ++ rest) = ⟨result, middle, complaints⟩) (suffix : rest <:+ middle) :
    ∃ before after, used = before ++ after ∧ middle = after ++ rest := by
  obtain ⟨after, rfl⟩ := suffix
  obtain ⟨before, whole⟩ : after ++ rest <:+ used ++ rest := by
    simpa [run] using advances (used ++ rest)
  rw [← List.append_assoc] at whole
  exact ⟨before, after, (List.append_cancel_right whole).symm, rfl⟩

namespace LooksAhead

theorem pure (a : α) : (Pure.pure a : Parser α).LooksAhead := by
  refine ⟨.pure a, ?_⟩
  intro used rest other b complaints done _
  obtain ⟨rfl, stays, rfl⟩ := pure_eq_ok done
  obtain rfl : used = [] := List.self_eq_append_left.mp stays
  rfl

theorem fail (fault : SyntaxFault) : (Parser.fail fault : Parser α).LooksAhead := by
  refine ⟨.fail fault, ?_⟩
  intro used rest other a complaints done
  simp [Parser.fail] at done

theorem complain (token : Token) (fault : SyntaxFault) :
    (Parser.complain token fault).LooksAhead := by
  refine ⟨.complain token fault, ?_⟩
  intro used rest other a complaints done _
  simp only [Parser.complain, Reply.mk.injEq, true_and] at done
  obtain ⟨stays, rfl⟩ := done
  obtain rfl : used = [] := List.append_left_eq_self.mp stays
  rfl

theorem expect (kind : TokenKind) (fault : SyntaxFault) :
    (Parser.expect kind fault).LooksAhead := by
  refine ⟨.expect kind fault, ?_⟩
  intro used rest other token complaints done _
  obtain ⟨isKind, taken, rfl⟩ := expect_eq_ok done
  obtain rfl : used = [token] :=
    List.append_cancel_right (show used ++ rest = [token] ++ rest from taken)
  exact expect_of_kind isKind fault other

theorem accept {kinds : List TokenKind} (areSigns : kinds ⊆ signs) :
    (Parser.accept kinds).LooksAhead := by
  refine ⟨.accept kinds, ?_⟩
  intro used rest other taken complaints done alike
  obtain ⟨rfl, ⟨rfl, stays, stops⟩ | ⟨token, rfl, member, takes⟩⟩ := accept_eq_ok done
  · obtain rfl : used = [] := List.self_eq_append_left.mp stays
    have otherStops : Stops kinds other := by
      obtain same | noSign := alike
      · rwa [Stops, same]
      · exact noSign.mono areSigns
    exact accept_of_stops otherStops
  · obtain rfl : used = [token] :=
      List.append_cancel_right (show used ++ rest = [token] ++ rest from takes)
    exact accept_of_mem member other

theorem bind {first : Parser α} {second : α → Parser β} (front : first.LooksAhead)
    (back : ∀ a, (second a).LooksAhead) : (first >>= second).LooksAhead := by
  -- The second parser has taken a token, which is then the next one for the first, or it has taken
  -- none, and both have ended in front of the same.
  refine ⟨front.advances.bind fun a => (back a).advances, ?_⟩
  intro used rest other b complaints done alike
  obtain ⟨a, middle, _, _, firstDone, secondDone, rfl⟩ := bind_eq_ok done
  have suffix : rest <:+ middle := by simpa [secondDone] using (back a).advances middle
  obtain ⟨before, after, rfl, rfl⟩ := front.advances.split firstDone suffix
  rw [List.append_assoc] at firstDone ⊢
  rw [bind_of_ok (front.same _ _ _ _ _ firstDone (alike.append after)),
    (back a).same _ _ _ _ _ secondDone alike]

end LooksAhead

end Parser

namespace Grammar

open Lox.Parser

section

variable {operand primary equality conditional inner : Parser Expr}

theorem looksAhead_operands (kinds : List TokenKind) (areSigns : kinds ⊆ signs)
    (tight : operand.LooksAhead) (bound : Nat) (left : Expr) :
    (operands kinds operand bound left).LooksAhead := by
  induction bound generalizing left with
  | zero => exact .pure left
  | succ bound ih =>
    refine .bind (.accept areSigns) ?_
    rintro (_ | operator)
    · exact .pure left
    · exact .bind tight fun right => ih _

theorem looksAhead_leftAssoc (tier : Tier) (leftAssoc : tier.isLeftAssoc)
    (tight : operand.LooksAhead) (bound : Nat) :
    (Grammar.leftAssoc tier.operators bound operand).LooksAhead :=
  .bind tight (looksAhead_operands _ (operators_subset_signs leftAssoc) tight bound)

theorem looksAhead_unary (tight : primary.LooksAhead) (bound : Nat) :
    (unary primary bound).LooksAhead := by
  induction bound with
  | zero => exact tight
  | succ bound ih =>
    refine .bind (.accept (List.subset_append_left Tier.unary.operators _)) ?_
    rintro (_ | operator)
    · exact tight
    · exact .bind ih fun _ => .pure _

theorem looksAhead_conditional (tight : equality.LooksAhead) (bound : Nat) :
    (Grammar.conditional equality bound).LooksAhead := by
  induction bound with
  | zero => exact tight
  | succ bound ih =>
    refine .bind tight fun condition => .bind (.accept (by decide)) ?_
    rintro (_ | question)
    · exact .pure _
    · refine .bind tight fun yes => .bind (.expect _ _) fun _ => ?_
      exact .bind ih fun no => .pure _

theorem looksAhead_assignment (tight : conditional.LooksAhead) (bound : Nat) :
    (assignment conditional bound).LooksAhead := by
  induction bound with
  | zero => exact tight
  | succ bound ih =>
    refine .bind tight fun target => .bind (.accept (by decide)) ?_
    rintro (_ | equals)
    · exact .pure _
    · refine .bind ih fun value => ?_
      cases target with
      | var name => exact .pure _
      | _ => exact .bind (.complain _ _) fun _ => .pure _

theorem looksAhead_primary (inside : inner.LooksAhead) (consumes : inner.Consumes) :
    (Grammar.primary inner).LooksAhead := by
  have takes := consumes_primary consumes
  refine ⟨takes.advances, ?_⟩
  intro used rest other e complaints done alike
  cases used with
  | nil => exact absurd (takes.takes _ _ _ _ done) (Nat.lt_irrefl _)
  | cons token used =>
    have grouped : (group inner).LooksAhead :=
      .bind inside fun _ => .bind (.expect _ _) fun _ => .pure _
    rw [List.cons_append, Grammar.primary] at done ⊢
    split at done
    · rename_i paren
      rw [if_pos paren]
      exact grouped.same _ _ _ _ _ done alike
    · rename_i noParen
      rw [if_neg noParen]
      cases found : atom? token with
      | some atom =>
        rw [found] at done
        exact (LooksAhead.pure atom).same _ _ _ _ _ done alike
      | none => simp [found, Parser.fail] at done

theorem looksAhead_tiers (inside : inner.LooksAhead) (consumes : inner.Consumes) (bound : Nat) :
    (tiers bound inner).LooksAhead := by
  have units := looksAhead_unary (looksAhead_primary inside consumes) bound
  have factors := looksAhead_leftAssoc .factor rfl units bound
  have terms := looksAhead_leftAssoc .term rfl factors bound
  have comparisons := looksAhead_leftAssoc .comparison rfl terms bound
  have equalities := looksAhead_leftAssoc .equality rfl comparisons bound
  exact looksAhead_assignment (looksAhead_conditional equalities bound) bound

theorem looksAhead_expression (bound : Nat) : (expression bound).LooksAhead := by
  induction bound with
  | zero => exact .fail _
  | succ bound ih => exact looksAhead_tiers ih (consumes_expression bound) (bound + 1)

end

end Grammar

end Lox
