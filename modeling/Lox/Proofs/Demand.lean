import Lox.Proofs.Shape

/-!
The grammar as a stack of demands. The next token is met by the topmost demand alone, which takes
it, gives way to other demands, or refuses it. So whatever was taken before a token is refused can
be brought to a good end, and the tokens behind a refused one make no difference.
-/

namespace Lox.Grammar

/-- What the grammar asks for by itself. Neither expressions nor statements go on with these. -/
def separators : List TokenKind :=
  [.identifier, .leftParen, .rightParen, .colon, .semicolon, .rightBrace]

def atoms : List TokenKind := [.falseWord, .trueWord, .nilWord, .number, .string, .identifier]

/-- What the next tokens have to be, as far as it is settled by those before. -/
inductive Demand
  | token (kind : TokenKind) (separates : kind ∈ separators) (fault : SyntaxFault)
  | tier (tier : Tier)
  | tail (tier : Tier)
  | statement
  | alternative
  | declaration
  | initial
  | body

inductive Move
  | take (next : List Demand)
  | become (next : List Demand)
  | refuse (fault : SyntaxFault)

def Move.onKind (kinds : List TokenKind) (next : Option TokenKind) (taken : List Demand)
    (otherwise : Move) : Move :=
  if next.any (· ∈ kinds) then .take taken else otherwise

/-- How a demand meets the kind of the next token, which is none at the end. -/
def Demand.meet (next : Option TokenKind) : Demand → Move
  | token kind _ fault => .onKind [kind] next [] (.refuse fault)
  | tier .primary =>
    .onKind [.leftParen] next
      [tier .assignment, token .rightParen (by decide) .noParenAfterExpression]
      (.onKind atoms next [] (.refuse .noExpression))
  | tier .unary => .onKind Tier.unary.operators next [tier .unary] (.become [tier .primary])
  | tier loose => .become [tier loose.tighter, tail loose]
  | tail .assignment => .onKind [.equal] next [tier .assignment] (.become [])
  | tail .conditional =>
    .onKind [.question] next
      [tier .equality, token .colon (by decide) .noColon, tier .conditional] (.become [])
  | tail loose => .onKind loose.operators next [tier loose.tighter, tail loose] (.become [])
  | statement =>
    .onKind [.ifWord] next
      [token .leftParen (by decide) .noParenAfterIf, tier .assignment,
        token .rightParen (by decide) .noParenAfterIfCondition, statement, alternative] <|
    .onKind [.whileWord] next
      [token .leftParen (by decide) .noParenAfterWhile, tier .assignment,
        token .rightParen (by decide) .noParenAfterCondition, statement] <|
    .onKind [.printWord] next
      [tier .assignment, token .semicolon (by decide) .noSemicolonAfterValue] <|
    .onKind [.leftBrace] next [body] <|
    .become [tier .assignment, token .semicolon (by decide) .noSemicolonAfterExpression]
  | alternative => .onKind [.elseWord] next [statement] (.become [])
  | declaration =>
    .onKind [.varWord] next
      [token .identifier (by decide) .noVariableName, initial,
        token .semicolon (by decide) .noSemicolonAfterVariable]
      (.become [statement])
  | initial => .onKind [.equal] next [tier .assignment] (.become [])
  | body =>
    .onKind [.rightBrace] next [] <|
      if next = none then .refuse .noBraceAfterBlock else .become [declaration, body]

def nextKind (tokens : List Token) : Option TokenKind := tokens.head?.map (·.kind)

theorem nextKind_of_kinds {tokens others : List Token}
    (same : others.map (·.kind) = tokens.map (·.kind)) : nextKind others = nextKind tokens := by
  have heads := congrArg List.head? same
  rwa [List.head?_map, List.head?_map] at heads

/-- One step. Where nothing is demanded any more, a program goes on with declarations to its end. -/
def advance : List Demand → List Token → Option (List Demand × List Token)
  | [], [] => none
  | [], token :: rest => some ([.declaration], token :: rest)
  | demand :: stack, tokens =>
    match demand.meet (nextKind tokens), tokens with
    | .take next, _ :: rest => some (next ++ stack, rest)
    | .become next, tokens => some (next ++ stack, tokens)
    | _, _ => none

inductive Reads : List Demand → List Token → List Demand → List Token → Prop
  | done (stack tokens) : Reads stack tokens stack tokens
  | step {stack next last tokens rest left} : advance stack tokens = some (next, rest) →
      Reads next rest last left → Reads stack tokens last left

/-- The topmost demand refuses the next token, and complains about it. -/
def Refused (stack : List Demand) (tokens : List Token) (complaint : Complaint) : Prop :=
  ∃ demand others, stack = demand :: others ∧
    demand.meet (nextKind tokens) = .refuse complaint.fault ∧ complaint.blamed = tokens.head?

def Refuses (stack : List Demand) (tokens : List Token) (complaint : Complaint) : Prop :=
  ∃ last left, Reads stack tokens last left ∧ Refused last left complaint

namespace Move

variable {kinds : List TokenKind} {taken : List Demand} {otherwise : Move}

theorem onKind_of_mem {kind : TokenKind} (member : kind ∈ kinds) :
    onKind kinds (some kind) taken otherwise = .take taken := by
  simp [onKind, member]

theorem onKind_of_stops {tokens : List Token} (stops : Parser.Stops kinds tokens) :
    onKind kinds (nextKind tokens) taken otherwise = otherwise := by
  cases tokens with
  | nil => rfl
  | cons token rest =>
    have other : token.kind ∉ kinds := stops token rfl
    simp [onKind, nextKind, other]

end Move

section

variable {demand : Demand} {next stack : List Demand} {tokens : List Token}

theorem advance_of_take {token : Token} (meets : demand.meet (some token.kind) = .take next) :
    advance (demand :: stack) (token :: tokens) = some (next ++ stack, tokens) := by
  simp [advance, nextKind, meets]

theorem advance_of_become (meets : demand.meet (nextKind tokens) = .become next) :
    advance (demand :: stack) tokens = some (next ++ stack, tokens) := by
  simp [advance, meets]

theorem Refused.advance_eq_none {complaint : Complaint} (refused : Refused stack tokens complaint) :
    advance stack tokens = none := by
  obtain ⟨demand, others, rfl, meets, -⟩ := refused
  simp [advance, meets]

theorem advance_cases {rest : List Token} (advances : advance stack tokens = some (next, rest)) :
    (∃ token, tokens = token :: rest ∧ ∀ other others, other.kind = token.kind →
      advance stack (other :: others) = some (next, others)) ∨
    rest = tokens ∧ ∀ others, nextKind others = nextKind tokens →
      advance stack others = some (next, others) := by
  cases stack with
  | nil =>
    cases tokens with
    | nil => cases advances
    | cons token tokens =>
      cases advances
      refine Or.inr ⟨rfl, fun others same => ?_⟩
      cases others with
      | nil => cases same
      | cons _ _ => rfl
  | cons demand stack =>
    cases meets : demand.meet (nextKind tokens) with
    | take taken =>
      cases tokens with
      | nil => simp [advance, meets] at advances
      | cons token tokens =>
        obtain ⟨rfl, rfl⟩ : taken ++ stack = next ∧ tokens = rest := by
          simpa [advance, meets] using advances
        exact Or.inl ⟨token, rfl, fun other others same => advance_of_take (same ▸ meets)⟩
    | become others =>
      obtain ⟨rfl, rfl⟩ : others ++ stack = next ∧ tokens = rest := by
        simpa [advance, meets] using advances
      exact Or.inr ⟨rfl, fun tokens same => advance_of_become (same ▸ meets)⟩
    | refuse fault => simp [advance, meets] at advances

end

namespace Reads

variable {stack middle last : List Demand} {tokens rest left : List Token}

theorem trans (first : Reads stack tokens middle rest) (second : Reads middle rest last left) :
    Reads stack tokens last left := by
  induction first with
  | done _ _ => exact second
  | step advances _ ih => exact .step advances (ih second)

theorem single (advances : advance stack tokens = some (last, left)) :
    Reads stack tokens last left :=
  .step advances (.done last left)

theorem unique {other : List Demand} {otherLeft : List Token} (reads : Reads stack tokens last left)
    (ends : advance last left = none) (otherReads : Reads stack tokens other otherLeft)
    (otherEnds : advance other otherLeft = none) : other = last ∧ otherLeft = left := by
  induction reads with
  | done stack tokens =>
    cases otherReads with
    | done _ _ => exact ⟨rfl, rfl⟩
    | step advances _ => simp [ends] at advances
  | step advances _ ih =>
    cases otherReads with
    | done _ _ => simp [advances] at otherEnds
    | step otherAdvances otherReads =>
      rw [advances] at otherAdvances
      cases otherAdvances
      exact ih ends otherReads

theorem split (reads : Reads stack tokens last left) :
    ∃ used reached, tokens = used ++ left ∧
      (∀ others, Reads stack (used ++ others) reached others) ∧
      ∀ others, nextKind others = nextKind left → Reads reached others last others := by
  -- Where the last token was taken, nothing was known of those behind it. From there on only the
  -- kind of the next one matters.
  induction reads with
  | done stack tokens => exact ⟨[], stack, rfl, .done stack, fun others _ => .done stack others⟩
  | step advances _ ih =>
    obtain ⟨used, reached, rfl, toReached, toLast⟩ := ih
    obtain ⟨token, rfl, takes⟩ | ⟨rfl, keeps⟩ := advance_cases advances
    · exact ⟨token :: used, reached, rfl, fun others => .step (takes _ _ rfl) (toReached others),
        toLast⟩
    -- A step that keeps its token counts for what came before it only if another is taken later.
    · cases used with
      | nil =>
        refine ⟨[], _, rfl, .done _, fun others same => ?_⟩
        exact .step (keeps others same) ((toReached others).trans (toLast others same))
      | cons token used =>
        exact ⟨token :: used, reached, rfl, fun others => .step (keeps _ rfl) (toReached others),
          toLast⟩

theorem suffix (reads : Reads stack tokens last left) : left <:+ tokens := by
  obtain ⟨used, _, rfl, -⟩ := reads.split
  exact List.suffix_append used left

theorem of_kinds {others : List Token} (reads : Reads stack tokens last left)
    (same : others.map (·.kind) = tokens.map (·.kind)) :
    ∃ otherLeft, Reads stack others last otherLeft ∧
      otherLeft.map (·.kind) = left.map (·.kind) := by
  induction reads generalizing others with
  | done stack tokens => exact ⟨others, .done stack others, same⟩
  | step advances _ ih =>
    obtain ⟨token, rfl, takes⟩ | ⟨rfl, keeps⟩ := advance_cases advances
    · obtain ⟨other, later, rfl, kind, kinds⟩ := List.map_eq_cons_iff.mp same
      obtain ⟨otherLeft, reads, left⟩ := ih kinds
      exact ⟨otherLeft, .step (takes other later kind) reads, left⟩
    · obtain ⟨otherLeft, reads, left⟩ := ih same
      exact ⟨otherLeft, .step (keeps others (nextKind_of_kinds same)) reads, left⟩

end Reads

def Demand.fill : Demand → List Token
  | token kind _ _ => [.mark kind]
  | tier _ => [.mark .nilWord]
  | statement => [.mark .nilWord, .mark .semicolon]
  | declaration => [.mark .nilWord, .mark .semicolon]
  | body => [.mark .rightBrace]
  | tail _ => []
  | alternative => []
  | initial => []

/-- The next token is one that demands are filled with: it goes on with nothing before it. -/
def Quiet (tokens : List Token) : Prop :=
  ∀ token ∈ tokens.head?, token.kind ∈ .nilWord :: separators

theorem Quiet.stops {tokens : List Token} (quiet : Quiet tokens) {kinds : List TokenKind}
    (apart : ∀ kind ∈ .nilWord :: separators, kind ∉ kinds) : Parser.Stops kinds tokens :=
  fun token isHead => apart token.kind (quiet token isHead)

theorem quiet_fill (stack : List Demand) : Quiet (stack.flatMap Demand.fill) := by
  induction stack with
  | nil => simp [Quiet]
  | cons demand stack ih =>
    cases demand with
    | token kind separates fault =>
      simpa [Quiet, Demand.fill, Token.mark] using Or.inr separates
    | tail _ | alternative | initial => exact ih
    | _ => simp [Quiet, Demand.fill, Token.mark, separators]

theorem Demand.meet_of_quiet {demand : Demand} (optional : demand.fill = []) {tokens : List Token}
    (quiet : Quiet tokens) : demand.meet (nextKind tokens) = .become [] := by
  cases demand with
  | tail tier => cases tier <;> exact Move.onKind_of_stops (quiet.stops (by decide))
  | alternative | initial => exact Move.onKind_of_stops (quiet.stops (by decide))
  | _ => cases optional

namespace Reads

variable {tokens rest : List Token}

theorem give_way {demand : Demand} (optional : demand.fill = []) (quiet : Quiet rest)
    (stack : List Demand) : Reads (demand :: stack) rest stack rest :=
  single (advance_of_become (Demand.meet_of_quiet optional quiet))

theorem fill_loose (tier : Tier)
    (loose : ∀ next, (Demand.tier tier).meet next = .become [.tier tier.tighter, .tail tier])
    (quiet : Quiet rest)
    (tight : ∀ stack, Reads (.tier tier.tighter :: stack) (.mark .nilWord :: rest) stack rest)
    (stack : List Demand) : Reads (.tier tier :: stack) (.mark .nilWord :: rest) stack rest :=
  .step (advance_of_become (loose _)) ((tight _).trans (give_way rfl quiet stack))

theorem fill_tier (tier : Tier) (quiet : Quiet rest) (stack : List Demand) :
    Reads (.tier tier :: stack) (.mark .nilWord :: rest) stack rest := by
  have primary stack : Reads (.tier .primary :: stack) (.mark .nilWord :: rest) stack rest :=
    single rfl
  have unary stack : Reads (.tier .unary :: stack) (.mark .nilWord :: rest) stack rest :=
    .step (advance_of_become rfl) (primary stack)
  have factor stack : Reads (.tier .factor :: stack) (.mark .nilWord :: rest) stack rest :=
    fill_loose .factor (fun _ => rfl) quiet unary stack
  have term stack : Reads (.tier .term :: stack) (.mark .nilWord :: rest) stack rest :=
    fill_loose .term (fun _ => rfl) quiet factor stack
  have comparison stack : Reads (.tier .comparison :: stack) (.mark .nilWord :: rest) stack rest :=
    fill_loose .comparison (fun _ => rfl) quiet term stack
  have equality stack : Reads (.tier .equality :: stack) (.mark .nilWord :: rest) stack rest :=
    fill_loose .equality (fun _ => rfl) quiet comparison stack
  have conditional stack :
      Reads (.tier .conditional :: stack) (.mark .nilWord :: rest) stack rest :=
    fill_loose .conditional (fun _ => rfl) quiet equality stack
  cases tier with
  | primary => exact primary stack
  | unary => exact unary stack
  | factor => exact factor stack
  | term => exact term stack
  | comparison => exact comparison stack
  | equality => exact equality stack
  | conditional => exact conditional stack
  | assignment => exact fill_loose .assignment (fun _ => rfl) quiet conditional stack

theorem fill_token (kind : TokenKind) (separates : kind ∈ separators) (fault : SyntaxFault)
    (stack : List Demand) :
    Reads (.token kind separates fault :: stack) (.mark kind :: rest) stack rest := by
  have meets : (Demand.token kind separates fault).meet (some kind) = .take [] :=
    Move.onKind_of_mem (List.mem_singleton.mpr rfl)
  exact .step (advance_of_take meets) (.done stack rest)

theorem fill_statement (stack : List Demand) :
    Reads (.statement :: stack) (.mark .nilWord :: .mark .semicolon :: rest) stack rest := by
  have quiet : Quiet (.mark .semicolon :: rest) := by simp [Quiet, Token.mark, separators]
  exact .step (advance_of_become rfl)
    ((fill_tier .assignment quiet _).trans (fill_token .semicolon _ _ stack))

theorem fill_demand (demand : Demand) (quiet : Quiet rest) (stack : List Demand) :
    Reads (demand :: stack) (demand.fill ++ rest) stack rest := by
  cases demand with
  | token kind separates fault => exact fill_token kind separates fault stack
  | tier tier => exact fill_tier tier quiet stack
  | tail _ | alternative | initial => exact give_way rfl quiet stack
  | statement => exact fill_statement stack
  | declaration => exact .step (advance_of_become rfl) (fill_statement stack)
  | body => exact single rfl

theorem fill_all (stack : List Demand) : Reads stack (stack.flatMap Demand.fill) [] [] := by
  induction stack with
  | nil => exact .done [] []
  | cons demand stack ih => exact (fill_demand demand (quiet_fill stack) stack).trans ih

end Reads

theorem Demand.fill_ne_eof {demand : Demand} {token : Token} (member : token ∈ demand.fill) :
    token.kind ≠ .eof := by
  have never : ∀ kind ∈ .nilWord :: separators, kind ≠ .eof := by decide
  apply never
  cases demand with
  | token kind separates fault =>
    obtain rfl : token = .mark kind := by simpa [fill] using member
    exact List.mem_cons_of_mem _ separates
  | tail _ | alternative | initial => cases member
  | _ =>
    simp only [fill, List.mem_cons, List.not_mem_nil, or_false] at member
    rcases member with rfl | rfl <;> decide

section

variable {stack : List Demand} {tokens : List Token} {complaint : Complaint}

theorem Refused.blamed (refused : Refused stack tokens complaint) :
    complaint.blamed = tokens.head? := by
  obtain ⟨_, _, -, -, blamed⟩ := refused
  exact blamed

theorem Refused.of_head? (refused : Refused stack tokens complaint) {others : List Token}
    (same : others.head? = tokens.head?) : Refused stack others complaint := by
  obtain ⟨demand, rest, rfl, meets, blamed⟩ := refused
  refine ⟨demand, rest, rfl, ?_, blamed.trans same.symm⟩
  rwa [nextKind, same]

theorem Refuses.unique {other : Complaint} (refuses : Refuses stack tokens complaint)
    (otherRefuses : Refuses stack tokens other) : other = complaint := by
  obtain ⟨last, left, reads, refused⟩ := refuses
  obtain ⟨_, _, otherReads, otherRefused⟩ := otherRefuses
  obtain ⟨rfl, rfl⟩ :=
    reads.unique refused.advance_eq_none otherReads otherRefused.advance_eq_none
  obtain ⟨demand, rest, rfl, meets, blamed⟩ := refused
  obtain ⟨_, _, same, otherMeets, otherBlamed⟩ := otherRefused
  cases same
  rw [meets, Move.refuse.injEq] at otherMeets
  cases complaint
  cases other
  simp_all

theorem Refuses.not_reads_all (refuses : Refuses [] tokens complaint) :
    ¬ Reads [] tokens [] [] := by
  intro all
  obtain ⟨last, left, reads, refused⟩ := refuses
  obtain ⟨rfl, -⟩ := all.unique rfl reads refused.advance_eq_none
  obtain ⟨_, _, same, -⟩ := refused
  cases same

end

/-- The token at a position is the first that is wrong: those before it can be completed, and
whatever comes after it, the complaint is the same. -/
structure RefusedAt (tokens : List Token) (position : Nat) (complaint : Complaint) : Prop where
  within : position ≤ tokens.length
  blamed : complaint.blamed = tokens[position]?
  completes : ∃ others : List Token, (∀ token ∈ others, token.kind ≠ .eof) ∧
    Reads [] (tokens.take position ++ others) [] []
  refuses : ∀ others : List Token, others.head? = tokens[position]? →
    Refuses [] (tokens.take position ++ others) complaint
  of_kinds : ∀ others : List Token, others.map (·.kind) = tokens.map (·.kind) →
    Refuses [] others ⟨others[position]?, complaint.fault⟩

theorem Refuses.at_position {tokens : List Token} {complaint : Complaint}
    (refuses : Refuses [] tokens complaint) : ∃ position, RefusedAt tokens position complaint := by
  obtain ⟨last, left, reads, refused⟩ := refuses
  obtain ⟨used, reached, rfl, toReached, toLast⟩ := reads.split
  have here (used left : List Token) : (used ++ left)[used.length]? = left.head? := by
    rw [List.getElem?_append_right (Nat.le_refl _), Nat.sub_self, List.head?_eq_getElem?]
  have before : (used ++ left).take used.length = used := List.take_left
  refine ⟨used.length, ?_, ?_, ?_, ?_, ?_⟩
  · simp
  · rw [refused.blamed, here]
  · refine ⟨reached.flatMap Demand.fill, ?_, ?_⟩
    · intro token member
      obtain ⟨demand, -, fills⟩ := List.mem_flatMap.mp member
      exact Demand.fill_ne_eof fills
    · rw [before]
      exact (toReached _).trans (.fill_all reached)
  · intro others same
    rw [here] at same
    have kind : nextKind others = nextKind left := congrArg (Option.map Token.kind) same
    rw [before]
    exact ⟨last, others, (toReached others).trans (toLast others kind), refused.of_head? same⟩
  · intro others kinds
    obtain ⟨otherLeft, otherReads, otherKinds⟩ := reads.of_kinds kinds
    obtain ⟨otherUsed, rfl⟩ := otherReads.suffix
    have length := congrArg List.length kinds
    have lengthLeft := congrArg List.length otherKinds
    simp only [List.length_map, List.length_append] at length lengthLeft
    have same : otherUsed.length = used.length := by omega
    obtain ⟨demand, rest, rfl, meets, -⟩ := refused
    rw [← same, here]
    refine ⟨_, otherLeft, otherReads, demand, rest, rfl, ?_, rfl⟩
    rwa [nextKind_of_kinds otherKinds]

end Lox.Grammar
