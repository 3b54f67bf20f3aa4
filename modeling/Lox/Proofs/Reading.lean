import Lox.Grammar.Program

/-!
What every parser of the grammar does with its tokens: it takes some from the front and leaves the
rest. A parser made of two ends well just when both do.
-/

namespace Lox.Parser

variable {α β : Type}

/-- A parser leaves a suffix of its tokens, also when it stops. -/
def Advances (parser : Parser α) : Prop :=
  ∀ tokens, (parser tokens).rest <:+ tokens

theorem bind_eq_ok {first : Parser α} {second : α → Parser β} {tokens rest : List Token} {b : β}
    {complaints : List Complaint}
    (done : (first >>= second) tokens = ⟨.ok b, rest, complaints⟩) :
    ∃ a middle before after, first tokens = ⟨.ok a, middle, before⟩ ∧
      second a middle = ⟨.ok b, rest, after⟩ ∧ complaints = before ++ after := by
  cases run : first tokens with
  | mk result middle before =>
    cases result with
    | error fault =>
      rw [bind_of_error run] at done
      simp at done
    | ok a =>
      rw [bind_of_ok run] at done
      simp only [Reply.mk.injEq] at done
      obtain ⟨result, left, recorded⟩ := done
      refine ⟨a, middle, before, (second a middle).complaints, rfl, ?_, recorded.symm⟩
      rw [← result, ← left]

theorem pure_eq_ok {a b : α} {tokens rest : List Token} {complaints : List Complaint}
    (done : (pure a : Parser α) tokens = ⟨.ok b, rest, complaints⟩) :
    b = a ∧ rest = tokens ∧ complaints = [] := by
  simp only [pure, succeed, Reply.mk.injEq, Except.ok.injEq] at done
  obtain ⟨rfl, rfl, rfl⟩ := done
  exact ⟨rfl, rfl, rfl⟩

def Stops (kinds : List TokenKind) (tokens : List Token) : Prop :=
  ∀ token ∈ tokens.head?, token.kind ∉ kinds

theorem accept_eq_ok {kinds : List TokenKind} {tokens rest : List Token} {taken : Option Token}
    {complaints : List Complaint}
    (done : accept kinds tokens = ⟨.ok taken, rest, complaints⟩) :
    complaints = [] ∧ (taken = none ∧ rest = tokens ∧ Stops kinds tokens ∨
      ∃ token, taken = some token ∧ token.kind ∈ kinds ∧ tokens = token :: rest) := by
  unfold accept at done
  split at done
  · simp only [Reply.mk.injEq, Except.ok.injEq] at done
    obtain ⟨rfl, rfl, rfl⟩ := done
    exact ⟨rfl, Or.inl ⟨rfl, rfl, by simp [Stops]⟩⟩
  · rename_i token others
    split at done
    · rename_i member
      simp only [Reply.mk.injEq, Except.ok.injEq] at done
      obtain ⟨rfl, rfl, rfl⟩ := done
      exact ⟨rfl, Or.inr ⟨token, rfl, member, rfl⟩⟩
    · rename_i other
      simp only [Reply.mk.injEq, Except.ok.injEq] at done
      obtain ⟨rfl, rfl, rfl⟩ := done
      exact ⟨rfl, Or.inl ⟨rfl, rfl, by simpa [Stops] using other⟩⟩

theorem expect_eq_ok {kind : TokenKind} {fault : SyntaxFault} {tokens rest : List Token}
    {token : Token} {complaints : List Complaint}
    (done : expect kind fault tokens = ⟨.ok token, rest, complaints⟩) :
    token.kind = kind ∧ tokens = token :: rest ∧ complaints = [] := by
  unfold expect at done
  split at done
  · simp at done
  · split at done
    · rename_i same
      simp only [Reply.mk.injEq, Except.ok.injEq] at done
      obtain ⟨rfl, rfl, rfl⟩ := done
      exact ⟨same, rfl, rfl⟩
    · simp at done

theorem accept_of_stops {kinds : List TokenKind} {tokens : List Token}
    (stops : Stops kinds tokens) : accept kinds tokens = ⟨.ok none, tokens, []⟩ := by
  cases tokens with
  | nil => rfl
  | cons token rest =>
    have other : token.kind ∉ kinds := stops token rfl
    simp [accept, other]

theorem accept_of_mem {kinds : List TokenKind} {token : Token} (member : token.kind ∈ kinds)
    (rest : List Token) : accept kinds (token :: rest) = ⟨.ok (some token), rest, []⟩ := by
  simp [accept, member]

theorem expect_of_kind {kind : TokenKind} {token : Token} (same : token.kind = kind)
    (fault : SyntaxFault) (rest : List Token) :
    expect kind fault (token :: rest) = ⟨.ok token, rest, []⟩ := by
  simp [expect, same]

theorem accept_bind_of_mem {kinds : List TokenKind} {token : Token} (member : token.kind ∈ kinds)
    (next : Option Token → Parser α) (rest : List Token) :
    (accept kinds >>= next) (token :: rest) = next (some token) rest := by
  rw [bind_of_ok (accept_of_mem member rest)]
  rfl

theorem accept_bind_of_stops {kinds : List TokenKind} {tokens : List Token}
    (stops : Stops kinds tokens) (next : Option Token → Parser α) :
    (accept kinds >>= next) tokens = next none tokens := by
  rw [bind_of_ok (accept_of_stops stops)]
  rfl

namespace Advances

theorem bind {first : Parser α} {second : α → Parser β} (front : first.Advances)
    (back : ∀ a, (second a).Advances) : (first >>= second).Advances := by
  intro tokens
  have taken := front tokens
  cases run : first tokens with
  | mk result middle before =>
    rw [run] at taken
    cases result with
    | error fault => rwa [bind_of_error run]
    | ok a =>
      rw [bind_of_ok run]
      exact (back a middle).trans taken

theorem pure (a : α) : (Pure.pure a : Parser α).Advances := fun _ => List.suffix_rfl

theorem fail (fault : SyntaxFault) : (Parser.fail fault : Parser α).Advances :=
  fun _ => List.suffix_rfl

theorem complain (token : Token) (fault : SyntaxFault) : (Parser.complain token fault).Advances :=
  fun _ => List.suffix_rfl

theorem accept (kinds : List TokenKind) : (Parser.accept kinds).Advances := by
  intro tokens
  cases tokens with
  | nil => exact List.suffix_rfl
  | cons token rest =>
    rw [Parser.accept]
    split
    · exact List.suffix_cons token rest
    · exact List.suffix_rfl

theorem expect (kind : TokenKind) (fault : SyntaxFault) : (Parser.expect kind fault).Advances := by
  intro tokens
  cases tokens with
  | nil => exact List.suffix_rfl
  | cons token rest =>
    rw [Parser.expect]
    split
    · exact List.suffix_cons token rest
    · exact List.suffix_rfl

end Advances

end Lox.Parser

namespace Lox.Grammar

open Lox.Parser

variable {declaration : Parser (Option Stmt)} {closing : List TokenKind}

theorem declarations_nil (bound : Nat) :
    declarations closing declaration (bound + 1) [] = ⟨.ok [], [], []⟩ := rfl

theorem declarations_cons (bound : Nat) (token : Token) (rest : List Token) :
    declarations closing declaration (bound + 1) (token :: rest) =
      if token.kind ∈ closing then ⟨.ok [], token :: rest, []⟩
      else (declaration >>= fun first => declarations closing declaration bound >>= fun others =>
        pure (first.toList ++ others)) (token :: rest) := rfl

theorem declarations_eq_ok {bound : Nat} {tokens rest : List Token} {read : List Stmt}
    {complaints : List Complaint}
    (done : declarations closing declaration (bound + 1) tokens = ⟨.ok read, rest, complaints⟩) :
    (read = [] ∧ rest = tokens ∧ complaints = [] ∧ ∀ token ∈ tokens.head?, token.kind ∈ closing) ∨
      ∃ first middle before later after, tokens ≠ [] ∧
        declaration tokens = ⟨.ok first, middle, before⟩ ∧
        declarations closing declaration bound middle = ⟨.ok later, rest, after⟩ ∧
        read = first.toList ++ later ∧ complaints = before ++ after := by
  cases tokens with
  | nil =>
    simp only [declarations_nil, Reply.mk.injEq, Except.ok.injEq] at done
    obtain ⟨rfl, rfl, rfl⟩ := done
    exact .inl ⟨rfl, rfl, rfl, by simp⟩
  | cons token others =>
    rw [declarations_cons] at done
    split at done
    · rename_i closes
      simp only [Reply.mk.injEq, Except.ok.injEq] at done
      obtain ⟨rfl, rfl, rfl⟩ := done
      exact .inl ⟨rfl, rfl, rfl, by simpa using closes⟩
    · obtain ⟨first, middle, before, _, firstDone, afterFirst, rfl⟩ := bind_eq_ok done
      obtain ⟨later, _, after, _, laterDone, afterLater, rfl⟩ := bind_eq_ok afterFirst
      obtain ⟨rfl, rfl, rfl⟩ := pure_eq_ok afterLater
      refine .inr ⟨first, middle, before, later, after, List.cons_ne_nil _ _, firstDone, laterDone,
        rfl, ?_⟩
      rw [List.append_nil]

theorem recover_of_ok {α : Type} {parser : Parser α} {a : α} {tokens rest : List Token}
    {complaints : List Complaint} (done : parser tokens = ⟨.ok a, rest, complaints⟩) :
    recover parser tokens = ⟨.ok (some a), rest, complaints⟩ := by
  simp [recover, done]

theorem recover_of_error {α : Type} {parser : Parser α} {fault : SyntaxFault}
    {tokens rest : List Token} {complaints : List Complaint}
    (stopped : parser tokens = ⟨.error fault, rest, complaints⟩) :
    recover parser tokens =
      ⟨.ok none, resume rest, complaints ++ [⟨rest.head?, fault⟩]⟩ := by
  simp [recover, stopped]

theorem recover_eq_ok {α : Type} {parser : Parser α} {tokens rest : List Token}
    {read : Option α} {complaints : List Complaint}
    (done : recover parser tokens = ⟨.ok read, rest, complaints⟩) :
    (∃ a, read = some a ∧ parser tokens = ⟨.ok a, rest, complaints⟩) ∨
      ∃ fault left before, read = none ∧ parser tokens = ⟨.error fault, left, before⟩ ∧
        rest = resume left ∧ complaints = before ++ [⟨left.head?, fault⟩] := by
  cases run : parser tokens with
  | mk result left before =>
    cases result with
    | ok a =>
      rw [recover_of_ok run] at done
      simp only [Reply.mk.injEq, Except.ok.injEq] at done
      obtain ⟨rfl, rfl, rfl⟩ := done
      exact .inl ⟨a, rfl, rfl⟩
    | error fault =>
      rw [recover_of_error run] at done
      simp only [Reply.mk.injEq, Except.ok.injEq] at done
      obtain ⟨rfl, rfl, rfl⟩ := done
      exact .inr ⟨fault, left, before, rfl, rfl, rfl, rfl⟩

end Lox.Grammar

namespace Lox

theorem parse_of_run {tokens rest : List Token} {statements : List Stmt}
    {complaints : List Complaint}
    (run : Grammar.program (Grammar.body tokens).length (Grammar.body tokens) =
      ⟨.ok statements, rest, complaints⟩) :
    parse tokens = ⟨statements, complaints.map (·.against (Grammar.endToken tokens))⟩ := by
  simp only [parse, run]
  rfl

end Lox
