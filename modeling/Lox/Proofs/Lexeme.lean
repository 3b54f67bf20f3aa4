import Lox.Segment.Lemmas

/-!
The lexemes of the language, and the kind of token that each makes. The first character tells to
which class a lexeme belongs.
-/

namespace Lox

def TokenKind.operators : List (List Char × TokenKind) :=
  [(['('], leftParen), ([')'], rightParen), (['{'], leftBrace), (['}'], rightBrace),
   ([','], comma), (['.'], dot), (['-'], minus), (['+'], plus), ([';'], semicolon),
   (['/'], slash), (['*'], star), (['?'], question), ([':'], colon), (['!'], bang),
   (['!', '='], bangEqual), (['='], equal), (['=', '='], equalEqual), (['>'], greater),
   (['>', '='], greaterEqual), (['<'], less), (['<', '='], lessEqual)]

inductive Lexeme : TokenKind → List Char → Prop
  | operator {text kind} : (text, kind) ∈ TokenKind.operators → Lexeme kind text
  | whole {digits} : digits ≠ [] → (∀ c ∈ digits, c.isDigit) → Lexeme .number digits
  | decimal {whole fraction} : whole ≠ [] → (∀ c ∈ whole, c.isDigit) → fraction ≠ [] →
      (∀ c ∈ fraction, c.isDigit) → Lexeme .number (whole ++ '.' :: fraction)
  | string {body} : '"' ∉ body → Lexeme .string ('"' :: (body ++ ['"']))
  | word {first others} : Segment.startsName first → (∀ c ∈ others, Segment.continuesName c) →
      Lexeme ((TokenKind.keyword? (String.ofList (first :: others))).getD .identifier)
        (first :: others)

def Longest (kind : TokenKind) (lexeme input : List Char) : Prop :=
  Lexeme kind lexeme ∧ lexeme <+: input ∧
    ∀ other text, Lexeme other text → text <+: input → text.length ≤ lexeme.length

/-- Two slashes, or a slash and a star, are never tokens. -/
def OpensComment (input : List Char) : Prop :=
  ['/', '/'] <+: input ∨ ['/', '*'] <+: input

namespace Segment

theorem symbol?_mem_operators {c : Char} {kind : TokenKind} (found : symbol? c = some kind) :
    ([c], kind) ∈ TokenKind.operators := by
  unfold symbol? at found
  split at found <;> simp only [Option.some.injEq, reduceCtorEq] at found <;> subst found <;> decide

theorem withEqual?_mem_operators {c : Char} {kind longer : TokenKind}
    (found : symbol? c = some kind) (extended : withEqual? kind = some longer) :
    ([c, '='], longer) ∈ TokenKind.operators := by
  unfold symbol? at found
  split at found <;> simp only [Option.some.injEq, reduceCtorEq] at found <;> subst found <;>
    simp only [withEqual?, Option.some.injEq, reduceCtorEq] at extended <;> subst extended <;>
    decide

theorem operators_cases {text : List Char} {kind : TokenKind}
    (member : (text, kind) ∈ TokenKind.operators) :
    ∃ c symbol, symbol? c = some symbol ∧
      (text = [c] ∧ kind = symbol ∨ text = [c, '='] ∧ withEqual? symbol = some kind) := by
  have table : ∀ entry ∈ TokenKind.operators,
      (entry.1 = [entry.1.headD ' '] ∧ symbol? (entry.1.headD ' ') = some entry.2) ∨
        (entry.1 = [entry.1.headD ' ', '='] ∧
          (symbol? (entry.1.headD ' ')).bind withEqual? = some entry.2) := by decide
  rcases table _ member with ⟨whole, found⟩ | ⟨whole, found⟩
  · exact ⟨_, kind, found, .inl ⟨whole, rfl⟩⟩
  · obtain ⟨symbol, isSymbol, extended⟩ := Option.bind_eq_some_iff.mp found
    exact ⟨_, symbol, isSymbol, .inr ⟨whole, extended⟩⟩

theorem startsName_of_isDigit {c : Char} (digit : c.isDigit) : startsName c = false := by
  have digits : ∀ n < 58, 48 ≤ n → Unicode.alphabeticBelow1000.contains n = false := by decide
  simp only [Char.isDigit, Bool.and_eq_true, decide_eq_true_eq, UInt32.le_iff_toNat_le] at digit
  have lower : 48 ≤ c.toNat := digit.1
  have upper : c.toNat ≤ 57 := digit.2
  have other : c ≠ '_' := by
    rintro rfl
    exact absurd upper (by decide)
  simp [startsName, Unicode.isAlphabetic, other, show c.toNat < 0x1000 by omega,
    digits c.toNat (by omega) lower]

theorem isBlank_eq_false {c : Char} (letter : startsName c ∨ c.isDigit) : isBlank c = false := by
  simp only [isBlank, Bool.or_eq_false_iff, decide_eq_false_iff_not]
  refine ⟨⟨⟨?_, ?_⟩, ?_⟩, ?_⟩ <;> rintro rfl <;> exact absurd letter (by decide)

theorem symbol?_eq_none {c : Char} (letter : startsName c ∨ c.isDigit) : symbol? c = none := by
  unfold symbol?
  split <;> first | rfl | exact absurd letter (by decide)

theorem first_of_letter {c : Char} (rest : List Char) (letter : startsName c ∨ c.isDigit) :
    first c rest = if c.isDigit then number c rest else word c rest := by
  unfold first
  split
  · exact absurd letter (by decide)
  · exact absurd letter (by decide)
  · exact absurd letter (by decide)
  · simp only [isBlank_eq_false letter, symbol?_eq_none letter, Bool.false_eq_true, if_false]
    rcases letter with name | digit
    · simp [name]
    · simp [digit]

theorem first_of_isDigit {c : Char} (digit : c.isDigit) (rest : List Char) :
    first c rest = number c rest := by
  rw [first_of_letter rest (.inr digit), if_pos digit]

theorem first_of_startsName {c : Char} (name : startsName c) (rest : List Char) :
    first c rest = word c rest := by
  have notDigit : ¬c.isDigit := by
    intro digit
    rw [startsName_of_isDigit digit] at name
    contradiction
  rw [first_of_letter rest (.inl name), if_neg notDigit]

theorem not_isBlank_of_symbol? {c : Char} {kind : TokenKind} (found : symbol? c = some kind) :
    isBlank c = false := by
  simp only [isBlank, Bool.or_eq_false_iff, decide_eq_false_iff_not]
  refine ⟨⟨⟨?_, ?_⟩, ?_⟩, ?_⟩ <;> rintro rfl <;> simp [symbol?] at found

theorem first_of_symbol? {c : Char} {kind : TokenKind} (rest : List Char)
    (found : symbol? c = some kind) (noComment : ¬OpensComment (c :: rest)) :
    first c rest = symbol kind c rest := by
  unfold first
  split
  · exact absurd (.inl (List.prefix_append ['/', '/'] _)) noComment
  · exact absurd (.inr (List.prefix_append ['/', '*'] _)) noComment
  · simp [symbol?] at found
  · simp [not_isBlank_of_symbol? found, found]

theorem symbol_extends {c : Char} {kind longer : TokenKind} {after : List Char}
    (extended : withEqual? kind = some longer) :
    symbol kind c ('=' :: after) = (token longer [c, '='], after) := by
  simp [symbol, extended]

theorem symbol_cases (kind : TokenKind) (c : Char) (rest : List Char) :
    (∃ longer after, withEqual? kind = some longer ∧
      symbol kind c rest = (token longer [c, '='], after)) ∨
    symbol kind c rest = (token kind [c], rest) := by
  unfold symbol
  split
  · rename_i longer after extended
    exact .inl ⟨longer, after, extended, rfl⟩
  · exact .inr rfl

theorem number_of_whole (c : Char) {digits : List Char} (allDigits : ∀ d ∈ digits, d.isDigit)
    (rest : List Char) :
    ∃ more after, number c (digits ++ rest) = (token .number (c :: digits ++ more), after) := by
  unfold number
  rw [List.takeWhile_append_of_pos allDigits, List.dropWhile_append_of_pos allDigits]
  split
  · rename_i digit after _
    split
    · refine ⟨rest.takeWhile Char.isDigit ++ '.' :: digit :: after.takeWhile Char.isDigit,
        after.dropWhile Char.isDigit, ?_⟩
      simp
    · exact ⟨rest.takeWhile Char.isDigit, '.' :: digit :: after, rfl⟩
  · exact ⟨rest.takeWhile Char.isDigit, rest.dropWhile Char.isDigit, rfl⟩

theorem number_of_decimal (c : Char) {digit : Char} {whole fraction : List Char}
    (wholeDigits : ∀ d ∈ whole, d.isDigit) (isDigit : digit.isDigit)
    (fractionDigits : ∀ d ∈ fraction, d.isDigit) (rest : List Char) :
    ∃ more after, number c (whole ++ '.' :: digit :: (fraction ++ rest)) =
      (token .number (c :: whole ++ '.' :: digit :: fraction ++ more), after) := by
  have point : '.'.isDigit = false := by decide
  unfold number
  rw [List.takeWhile_append_of_pos wholeDigits, List.dropWhile_append_of_pos wholeDigits]
  simp only [List.takeWhile_cons, List.dropWhile_cons, point, Bool.false_eq_true, if_false, isDigit,
    if_true, List.takeWhile_append_of_pos fractionDigits]
  refine ⟨rest.takeWhile Char.isDigit, (fraction ++ rest).dropWhile Char.isDigit, ?_⟩
  simp

theorem forall_ne_of_not_mem {stop : Char} {text : List Char} (absent : stop ∉ text) :
    ∀ c ∈ text, (c ≠ stop : Bool) := by
  intro c member
  rw [decide_eq_true_eq]
  rintro rfl
  exact absent member

theorem quoted_of_closed {body rest : List Char} (noQuote : '"' ∉ body) :
    quoted (body ++ '"' :: rest) = (token .string ('"' :: (body ++ ['"'])), rest) := by
  have plain := forall_ne_of_not_mem noQuote
  unfold quoted
  rw [List.takeWhile_append_of_pos plain, List.dropWhile_append_of_pos plain]
  simp

theorem starts_after_dropWhile {stop c : Char} {text : List Char}
    (next : c ∈ (text.dropWhile (· ≠ stop)).head?) : c = stop := by
  have fails := List.head?_dropWhile_not (· ≠ stop) text
  rw [Option.mem_def.mp next] at fails
  simpa using fails

theorem not_mem_takeWhile_ne (stop : Char) (text : List Char) :
    stop ∉ text.takeWhile (· ≠ stop) := by
  intro member
  simpa using List.all_eq_true.mp List.all_takeWhile stop member

theorem quoted_of_open {body : List Char} (noQuote : '"' ∉ body) :
    quoted body = (openString body, []) := by
  have plain := forall_ne_of_not_mem noQuote
  have nothing : (body ++ []).dropWhile (· ≠ '"') = [] := List.dropWhile_append_of_pos plain
  rw [List.append_nil] at nothing
  unfold quoted
  rw [nothing]

theorem quoted_cases (rest : List Char) :
    (∃ body after, '"' ∉ body ∧
      quoted rest = (token .string ('"' :: (body ++ ['"'])), after)) ∨
    ('"' ∉ rest ∧ quoted rest = (openString rest, [])) := by
  have noQuote := not_mem_takeWhile_ne '"' rest
  have parts := List.takeWhile_append_dropWhile (p := (· ≠ '"')) (l := rest)
  cases found : rest.dropWhile (· ≠ '"') with
  | cons quote after =>
    have isQuote : quote = '"' := starts_after_dropWhile (by rw [found]; rfl)
    rw [found, isQuote] at parts
    exact .inl ⟨_, after, noQuote, by rw [← quoted_of_closed noQuote, parts]⟩
  | nil =>
    rw [found, List.append_nil] at parts
    rw [parts] at noQuote
    exact .inr ⟨noQuote, quoted_of_open noQuote⟩

theorem word_of_continues {c : Char} {others rest : List Char}
    (continues : ∀ d ∈ others, continuesName d) :
    word c (others ++ rest) =
      let lexeme := c :: others ++ rest.takeWhile continuesName
      (token ((TokenKind.keyword? (String.ofList lexeme)).getD .identifier) lexeme,
        rest.dropWhile continuesName) := by
  simp [word, List.takeWhile_append_of_pos continues, List.dropWhile_append_of_pos continues]

theorem first_of_lexeme_append {kind : TokenKind} {lexeme rest : List Char}
    (valid : Lexeme kind lexeme) (noComment : ¬OpensComment (lexeme ++ rest)) :
    ∃ c others other more after, lexeme ++ rest = c :: others ∧
      first c others = (token other (lexeme ++ more), after) ∧ (more = [] → other = kind) := by
  cases valid with
  | operator member =>
    obtain ⟨c, base, found, ⟨rfl, rfl⟩ | ⟨rfl, extended⟩⟩ := operators_cases member
    · refine ⟨c, rest, ?_⟩
      rw [first_of_symbol? rest found noComment]
      obtain ⟨longer, after, _, read⟩ | read := symbol_cases kind c rest
      · exact ⟨longer, ['='], after, rfl, read, by simp⟩
      · exact ⟨kind, [], rest, rfl, read, fun _ => rfl⟩
    · refine ⟨c, '=' :: rest, kind, [], rest, rfl, ?_, fun _ => rfl⟩
      rw [first_of_symbol? ('=' :: rest) found noComment, symbol_extends extended, List.append_nil]
  | @whole digits nonempty allDigits =>
    obtain ⟨c, others, rfl⟩ := List.exists_cons_of_ne_nil nonempty
    obtain ⟨isDigit, otherDigits⟩ := List.forall_mem_cons.mp allDigits
    obtain ⟨more, after, read⟩ := number_of_whole c otherDigits rest
    exact ⟨c, others ++ rest, .number, more, after, rfl,
      (first_of_isDigit isDigit _).trans read, fun _ => rfl⟩
  | @decimal whole fraction someWhole wholeDigits someFraction fractionDigits =>
    obtain ⟨c, others, rfl⟩ := List.exists_cons_of_ne_nil someWhole
    obtain ⟨digit, fraction, rfl⟩ := List.exists_cons_of_ne_nil someFraction
    obtain ⟨isDigit, otherDigits⟩ := List.forall_mem_cons.mp wholeDigits
    obtain ⟨fractionDigit, fractionDigits⟩ := List.forall_mem_cons.mp fractionDigits
    obtain ⟨more, after, read⟩ := number_of_decimal c otherDigits fractionDigit
      fractionDigits rest
    exact ⟨c, others ++ '.' :: digit :: (fraction ++ rest), .number, more, after, by simp,
      (first_of_isDigit isDigit _).trans read, fun _ => rfl⟩
  | @string body noQuote =>
    refine ⟨'"', body ++ '"' :: rest, .string, [], rest, by simp, ?_, fun _ => rfl⟩
    rw [List.append_nil]
    exact quoted_of_closed noQuote
  | @word c others starts continues =>
    refine ⟨c, others ++ rest, _, rest.takeWhile continuesName, _, rfl,
      (first_of_startsName starts _).trans (word_of_continues continues), fun nothing => ?_⟩
    rw [nothing, List.append_nil]

theorem first_of_lexeme {kind : TokenKind} {lexeme rest : List Char} {c : Char}
    (valid : Lexeme kind lexeme) (ahead : lexeme <+: c :: rest)
    (noComment : ¬OpensComment (c :: rest)) :
    ∃ other more after,
      first c rest = (token other (lexeme ++ more), after) ∧ (more = [] → other = kind) := by
  obtain ⟨behind, whole⟩ := ahead
  rw [← whole] at noComment
  obtain ⟨d, others, other, more, after, split, read, same⟩ :=
    first_of_lexeme_append valid noComment
  obtain ⟨rfl, rfl⟩ := List.cons.inj (whole.symm.trans split)
  exact ⟨other, more, after, read, same⟩

theorem lexeme_of_symbol {c : Char} {kind : TokenKind} (found : symbol? c = some kind)
    (rest : List Char) :
    ∃ other lexeme after,
      symbol kind c rest = (token other lexeme, after) ∧ Lexeme other lexeme := by
  obtain ⟨longer, after, extended, read⟩ | read := symbol_cases kind c rest
  · exact ⟨longer, [c, '='], after, read, .operator (withEqual?_mem_operators found extended)⟩
  · exact ⟨kind, [c], rest, read, .operator (symbol?_mem_operators found)⟩

theorem lexeme_of_number {c : Char} (isDigit : c.isDigit) (rest : List Char) :
    ∃ kind lexeme after, number c rest = (token kind lexeme, after) ∧ Lexeme kind lexeme := by
  have wholeDigits : ∀ d ∈ c :: rest.takeWhile Char.isDigit, d.isDigit :=
    List.forall_mem_cons.mpr ⟨isDigit, (List.all_eq_true.mp List.all_takeWhile)⟩
  unfold number
  split
  · rename_i digit after _
    split
    · rename_i fractionDigit
      exact ⟨_, _, _, rfl, .decimal (List.cons_ne_nil _ _) wholeDigits (List.cons_ne_nil _ _)
        (List.forall_mem_cons.mpr ⟨fractionDigit, (List.all_eq_true.mp List.all_takeWhile)⟩)⟩
    · exact ⟨_, _, _, rfl, .whole (List.cons_ne_nil _ _) wholeDigits⟩
  · exact ⟨_, _, _, rfl, .whole (List.cons_ne_nil _ _) wholeDigits⟩

theorem lexeme_of_word {c : Char} (starts : startsName c) (rest : List Char) :
    ∃ kind lexeme after, word c rest = (token kind lexeme, after) ∧ Lexeme kind lexeme :=
  ⟨_, _, _, rfl, .word starts (List.all_eq_true.mp List.all_takeWhile)⟩

end Segment

theorem Lexeme.ne_nil {kind : TokenKind} {lexeme : List Char} (valid : Lexeme kind lexeme) :
    lexeme ≠ [] := by
  cases valid with
  | operator member =>
    obtain ⟨_, _, _, ⟨rfl, -⟩ | ⟨rfl, -⟩⟩ := Segment.operators_cases member <;> simp
  | whole nonempty _ => exact nonempty
  | _ => simp

theorem TokenKind.word_mem (text : String) :
    (keyword? text).getD .identifier ∈ .identifier :: keywords.map Prod.snd := by
  cases found : keyword? text with
  | none => exact List.mem_cons_self
  | some kind =>
    obtain ⟨before, after, split, -⟩ := List.lookup_eq_some_iff.mp found
    refine List.mem_cons_of_mem _ (List.mem_map.mpr ⟨(text, kind), ?_, rfl⟩)
    rw [split]
    simp

namespace Lexeme

variable {kind : TokenKind} {lexeme : List Char}

theorem kind_ne_eof (valid : Lexeme kind lexeme) : kind ≠ .eof := by
  cases valid with
  | operator member =>
    have kinds : ∀ entry ∈ TokenKind.operators, entry.2 ≠ .eof := by decide
    exact kinds _ member
  | word _ _ =>
    have kinds : ∀ kind ∈ .identifier :: TokenKind.keywords.map Prod.snd, kind ≠ .eof := by decide
    exact kinds _ (TokenKind.word_mem _)
  | _ => decide

theorem quoted (valid : Lexeme .string lexeme) : ∃ body, '"' ∉ body ∧
    lexeme = '"' :: (body ++ ['"']) := by
  generalize same : TokenKind.string = kind at valid
  cases valid with
  | operator member =>
    have kinds : ∀ entry ∈ TokenKind.operators, entry.2 ≠ .string := by decide
    exact absurd same.symm (kinds _ member)
  | @string body noQuote => exact ⟨body, noQuote, rfl⟩
  | word _ _ =>
    have kinds : ∀ kind ∈ .identifier :: TokenKind.keywords.map Prod.snd, kind ≠ .string := by
      decide
    exact absurd same.symm (kinds _ (TokenKind.word_mem _))
  | _ => contradiction

theorem name (valid : Lexeme kind lexeme) (isName : kind = .identifier) :
    ∃ first others, lexeme = first :: others ∧ Segment.startsName first ∧
      (∀ c ∈ others, Segment.continuesName c) ∧
      (TokenKind.keyword? (String.ofList lexeme)).getD .identifier = .identifier := by
  cases valid with
  | operator member =>
    have kinds : ∀ entry ∈ TokenKind.operators, entry.2 ≠ .identifier := by decide
    exact absurd isName (kinds _ member)
  | word starts continues => exact ⟨_, _, rfl, starts, continues, isName⟩
  | _ => contradiction

theorem head_cases {c : Char} {rest : List Char} (valid : Lexeme kind (c :: rest)) :
    (∃ symbol, Segment.symbol? c = some symbol ∧ (rest = [] ∨ rest = ['='])) ∨
      c.isDigit ∨ (c = '"' ∧ kind = .string) ∨ Segment.startsName c := by
  generalize whole : c :: rest = lexeme at valid
  cases valid with
  | operator member =>
    obtain ⟨d, symbol, found, ⟨rfl, -⟩ | ⟨rfl, -⟩⟩ := Segment.operators_cases member
    · obtain ⟨rfl, rfl⟩ := List.cons.inj whole
      exact .inl ⟨symbol, found, .inl rfl⟩
    · obtain ⟨rfl, rfl⟩ := List.cons.inj whole
      exact .inl ⟨symbol, found, .inr rfl⟩
  | whole nonempty digits => exact .inr (.inl (digits c (whole ▸ List.mem_cons_self)))
  | decimal nonempty digits _ _ =>
    obtain ⟨d, others, rfl⟩ := List.exists_cons_of_ne_nil nonempty
    obtain ⟨rfl, -⟩ := List.cons.inj whole
    exact .inr (.inl (digits c List.mem_cons_self))
  | string _ => exact .inr (.inr (.inl ⟨(List.cons.inj whole).1, rfl⟩))
  | word starts _ =>
    obtain ⟨rfl, -⟩ := List.cons.inj whole
    exact .inr (.inr (.inr starts))

theorem kind_of_quote {rest : List Char} (valid : Lexeme kind ('"' :: rest)) : kind = .string := by
  rcases valid.head_cases with ⟨symbol, found, -⟩ | digit | ⟨-, isString⟩ | starts
  · simp [Segment.symbol?] at found
  · exact absurd digit (by decide)
  · exact isString
  · exact absurd starts (by decide)

theorem not_opensComment (valid : Lexeme kind lexeme) : ¬OpensComment lexeme := by
  intro opens
  obtain ⟨c, rest, rfl⟩ := List.exists_cons_of_ne_nil valid.ne_nil
  simp only [OpensComment, List.cons_prefix_cons] at opens
  obtain ⟨rfl, second⟩ : c = '/' ∧ (['/'] <+: rest ∨ ['*'] <+: rest) := by
    rcases opens with ⟨slash, second⟩ | ⟨slash, second⟩
    · exact ⟨slash.symm, .inl second⟩
    · exact ⟨slash.symm, .inr second⟩
  rcases valid.head_cases with ⟨symbol, -, rfl | rfl⟩ | digit | ⟨isQuote, -⟩ | starts
  · simp at second
  · simp at second
  · exact absurd digit (by decide)
  · exact absurd isQuote (by decide)
  · exact absurd starts (by decide)

theorem kind_unique {other : TokenKind} (valid : Lexeme kind lexeme)
    (otherValid : Lexeme other lexeme) : kind = other := by
  obtain ⟨c, rest, rfl⟩ := List.exists_cons_of_ne_nil valid.ne_nil
  have noComment := valid.not_opensComment
  have alone : ∀ {kind}, Lexeme kind (c :: rest) →
      Segment.first c rest = (.token kind (c :: rest), []) := by
    intro kind valid
    obtain ⟨found, more, after, read, same⟩ :=
      Segment.first_of_lexeme valid (List.prefix_refl _) noComment
    have parts := Segment.first_append c rest
    rw [read] at parts
    simp only [Segment.text, List.append_assoc, List.append_right_eq_self,
      List.append_eq_nil_iff] at parts
    obtain ⟨rfl, rfl⟩ := parts
    rw [read, same rfl, List.append_nil]
  have both := (alone valid).symm.trans (alone otherValid)
  simpa using both

theorem blank_not_mem (valid : Lexeme kind lexeme) (notString : kind ≠ .string) {blank : Char}
    (isBlank : Segment.isBlank blank) : blank ∉ lexeme := by
  have different : ∀ {c}, Segment.isBlank c = false → blank ≠ c := by
    rintro c notBlank rfl
    rw [isBlank] at notBlank
    contradiction
  have notDigit : ∀ {digits : List Char}, (∀ c ∈ digits, c.isDigit) → blank ∉ digits :=
    fun digits member => different (Segment.isBlank_eq_false (.inr (digits _ member))) rfl
  cases valid with
  | operator member =>
    obtain ⟨c, symbol, found, ⟨rfl, -⟩ | ⟨rfl, -⟩⟩ := Segment.operators_cases member
    · simpa using different (Segment.not_isBlank_of_symbol? found)
    · simpa using ⟨different (Segment.not_isBlank_of_symbol? found), different (by decide)⟩
  | whole _ digits => exact notDigit digits
  | decimal _ whole _ fraction =>
    simp only [List.mem_append, List.mem_cons, not_or]
    exact ⟨notDigit whole, different (by decide), notDigit fraction⟩
  | string _ => exact absurd rfl notString
  | word starts continues =>
    simp only [List.mem_cons, not_or]
    refine ⟨different (Segment.isBlank_eq_false (.inl starts)), fun inside => ?_⟩
    have goesOn := continues _ inside
    simp only [Segment.isBlank, Bool.or_eq_true, decide_eq_true_eq] at isBlank
    rcases isBlank with ((rfl | rfl) | rfl) | rfl <;> exact absurd goesOn (by decide)

end Lexeme

end Lox
