import ScriptFold.Proofs.Token.Scanning

/-!
# Words of fixed spelling

Operators and reserved words.  An operator is scanned as a whole unless the code point after
it goes on with a longer one.
-/

namespace ScriptFold

namespace TokenType

/-- How a token of a type is spelled, if that does not depend on the token. -/
def spelling (type : TokenType) : String :=
  (((operators ++ keywords).find? (·.2 == type)).map Prod.fst).getD ""

/-- Whether a token type is an operator or a punctuation mark. -/
def isOperator (type : TokenType) : Bool :=
  operators.any (·.2 == type)

theorem spelling_operators : ∀ entry ∈ operators, spelling entry.2 = entry.1 := by
  decide

theorem mem_operators {type : TokenType} (isOperator : type.isOperator) :
    (type.spelling, type) ∈ operators := by
  obtain ⟨⟨text, other⟩, there, same⟩ := List.any_eq_true.mp isOperator
  obtain rfl : other = type := eq_of_beq same
  rw [spelling_operators _ there]
  exact there

/-- The code points with which a spelling goes on to something longer. -/
def extensions (spelling : String) : List CodePoint :=
  (operators.filterMap fun entry =>
    if (Text.ofString spelling).isPrefixOf (Text.ofString entry.1) then
      ((Text.ofString entry.1).drop spelling.length).head?
    else none) ++
  if spelling = "/" then [.char '/', .char '*'] else []

/-- No operator begins with one that stands before it in the list. -/
theorem operators_ordered : operators.Pairwise fun earlier later =>
    ¬ Text.ofString earlier.1 <+: Text.ofString later.1 := by
  have ordered : operators.Pairwise fun earlier later =>
      (Text.ofString earlier.1).isPrefixOf (Text.ofString later.1) = false := by
    decide
  refine ordered.imp fun notPrefix isPrefix => ?_
  rw [List.isPrefixOf_iff_prefix.mpr isPrefix] at notPrefix
  cases notPrefix

theorem length_ofString (spelling : String) : (Text.ofString spelling).length = spelling.length := by
  rw [Text.ofString, List.length_map, String.length_toList]

theorem mem_extensions {entry : String × TokenType} (there : entry ∈ operators) {spelling : String}
    {point : CodePoint} {more : Text}
    (longer : Text.ofString entry.1 = Text.ofString spelling ++ point :: more) :
    point ∈ extensions spelling := by
  rw [extensions, List.mem_append, List.mem_filterMap]
  left
  refine ⟨entry, there, ?_⟩
  rw [longer, if_pos (List.isPrefixOf_iff_prefix.mpr (List.prefix_append _ _)),
    ← length_ofString, List.drop_left]
  rfl

/-- A type is spelled in a way that nothing after it changes. -/
structure Apart (type : TokenType) (rest : Text) : Prop where
  short : ∀ point, rest.head? = some point → point ∉ extensions type.spelling
  noDigit : type = .dot ∨ type = .optionalDot → Lexer.startsIn CodePoint.isDigit rest = false

/-- An operator is found before all that is not an extension of it. -/
theorem find?_operators {type : TokenType} (isOperator : type.isOperator) {rest : Text}
    (apart : type.Apart rest) :
    operators.find? (fun entry =>
      (Text.ofString type.spelling ++ rest).startsWith entry.1
        && !(entry.2 == .optionalDot && Lexer.startsIn CodePoint.isDigit
          ((Text.ofString type.spelling ++ rest).drop 2))) = some (type.spelling, type) := by
  obtain ⟨before, after, isTable⟩ := List.append_of_mem (mem_operators isOperator)
  refine List.find?_eq_some_iff_append.mpr ⟨?_, before, after, isTable, ?_⟩
  · rw [Bool.and_eq_true]
    refine ⟨List.isPrefixOf_iff_prefix.mpr (List.prefix_append _ _), ?_⟩
    by_cases isOptional : type = .optionalDot
    · subst isOptional
      have noDigit := apart.noDigit (.inr rfl)
      have spelled : Text.ofString (spelling .optionalDot) = [.char '?', .char '.'] := by decide
      simp [spelled, noDigit]
    · simp [isOptional]
  · intro entry isBefore
    have there : entry ∈ operators := isTable ▸ List.mem_append_left _ isBefore
    have notPrefix : ¬ Text.ofString entry.1 <+: Text.ofString type.spelling := by
      have ordered := operators_ordered
      rw [isTable, List.pairwise_append] at ordered
      have before := ordered.2.2 entry isBefore (type.spelling, type) List.mem_cons_self
      exact before
    have notFits : (Text.ofString type.spelling ++ rest).startsWith entry.1 = false := by
      rw [Text.startsWith, Bool.eq_false_iff]
      intro isPrefix
      have isPrefix := List.isPrefixOf_iff_prefix.mp isPrefix
      rcases List.prefix_or_prefix_of_prefix isPrefix (List.prefix_append _ rest) with
        within | ⟨more, longer⟩
      · exact notPrefix within
      · cases more with
        | nil =>
            rw [List.append_nil] at longer
            exact notPrefix (longer ▸ List.prefix_refl _)
        | cons point more =>
            rw [← longer, List.prefix_append_right_inj] at isPrefix
            obtain ⟨others, rfl⟩ := isPrefix
            exact apart.short point rfl (mem_extensions there longer.symm)
    rw [notFits]
    rfl

/-- Operators begin with none of the code points that other tokens begin with. -/
def startsOther (text : Text) : Bool :=
  Lexer.startsIn (fun point => !Lexer.isSkipped point && !Lexer.isQuote point && !point.is '\x60'
    && !point.isDigit && !Lexer.startsWord point && !point.is '#') text

theorem operators_start : ∀ entry ∈ operators, startsOther entry.1 := by
  decide

theorem operators_noDigit : ∀ entry ∈ operators, ∀ point ∈ Text.ofString entry.1,
    point.isDigit = false := by
  decide

theorem operators_dot : ∀ entry ∈ operators, Text.ofString entry.1 = [.char '.'] →
    entry.2 = .dot := by
  decide

theorem operators_slash : ∀ entry ∈ operators, Lexer.startsIn (·.is '/') entry.1 →
    entry.2 = .slash ∨ entry.2 = .slashAssign := by
  decide

end TokenType

namespace Word

open Lexer

/-- The word of a type that has one spelling. -/
def fixed (type : TokenType) (joined : Bool) : Word :=
  ⟨type, Text.ofString type.spelling, joined⟩

/-- No comment begins with an operator. -/
theorem no_comment {type : TokenType} (isOperator : type.isOperator) {rest others : Text}
    {point : CodePoint} (apart : type.Apart rest)
    (spelled : Text.ofString type.spelling = point :: others) (isSlash : point.is '/')
    {next : CodePoint} (isNext : (others ++ rest).head? = some next) :
    next.is '/' = false ∧ next.is '*' = false := by
  have starts : startsIn (·.is '/') (Text.ofString type.spelling) := by
    rw [spelled]
    exact isSlash
  rcases TokenType.operators_slash _ (TokenType.mem_operators isOperator) starts with isType | isType
  · obtain rfl : type = .slash := isType
    cases spelled
    have short := apart.short next isNext
    have known : TokenType.extensions (TokenType.spelling .slash) =
        [.char '=', .char '/', .char '*'] := by decide
    simp only [known, List.mem_cons, List.not_mem_nil, or_false, not_or] at short
    simp [CodePoint.is, short]
  · obtain rfl : type = .slashAssign := isType
    cases spelled
    cases isNext
    decide

/-- What is open after an operator, if no substitution was open before. -/
theorem scanOperator_found {cursor : Cursor} {opened : List Opener} (plain : Plain opened)
    {spelling : String} {type : TokenType}
    (found : TokenType.operators.find? (fun entry => cursor.rest.startsWith entry.1
      && !(entry.2 == .optionalDot && startsIn CodePoint.isDigit (cursor.rest.drop 2))) =
        some (spelling, type)) :
    ∃ opened', Plain opened' ∧
      scanOperator cursor opened =
        .ok ⟨type, Text.ofString spelling, skip spelling.length cursor, opened'⟩ := by
  have pushed : Plain (.brace :: opened) := by
    intro opener isOpener
    rcases List.mem_cons.mp isOpener with rfl | isOpener
    · rfl
    · exact plain opener isOpener
  have popped : Plain opened.tail := fun opener isOpener =>
    plain opener (List.mem_of_mem_tail isOpener)
  simp only [scanOperator, found]
  cases type
  case openBrace => exact ⟨_, pushed, rfl⟩
  case closeBrace => exact ⟨_, popped, rfl⟩
  all_goals exact ⟨_, plain, rfl⟩

theorem scans_operator {type : TokenType} (isOperator : type.isOperator) (joined : Bool) {rest : Text}
    (apart : type.Apart rest) : Scans (fixed type joined) rest := by
  have there := TokenType.mem_operators isOperator
  have found := TokenType.find?_operators isOperator apart
  have starts := TokenType.operators_start _ there
  have noDigit := TokenType.operators_noDigit _ there
  obtain ⟨point, others, spelled⟩ : ∃ point others, Text.ofString type.spelling = point :: others := by
    cases spelled : Text.ofString type.spelling with
    | nil => simp [TokenType.startsOther, spelled, startsIn] at starts
    | cons point others => exact ⟨point, others, rfl⟩
  simp only [TokenType.startsOther, spelled, startsIn, List.head?_cons, Option.any_some,
    Bool.and_eq_true, Bool.not_eq_true'] at starts
  obtain ⟨⟨⟨⟨⟨notSkipped, notQuote⟩, notTick⟩, notDigit⟩, notWord⟩, notHash⟩ := starts
  refine ⟨?_, ?_⟩
  · simp only [fixed, spelled]
    exact solid_of_not_isSkipped notSkipped fun isSlash next isNext =>
      no_comment isOperator apart spelled isSlash isNext
  · intro previous opened mark follows plain
    have notNumber : (point.is '.' && startsIn CodePoint.isDigit (others ++ rest)) = false := by
      cases isDot : point.is '.' with
      | false => rfl
      | true =>
          cases others with
          | nil =>
              rw [eq_of_beq isDot] at spelled
              exact apart.noDigit (.inl (TokenType.operators_dot _ there spelled))
          | cons second more => exact noDigit second (by simp [spelled])
    have notRegex : (point.is '/' && !previous.any TokenType.endsValue) = false := by
      cases isSlash : point.is '/' with
      | false => rfl
      | true =>
          have starts : startsIn (·.is '/') (Text.ofString type.spelling) := by
            rw [spelled]
            exact isSlash
          have divides := TokenType.operators_slash _ there starts
          simp [follows.afterValue divides]
    have notPiece : (opened.head? == some .substitution) = false := by
      rw [beq_eq_false_iff_ne]
      intro isOpen
      cases plain _ (List.mem_of_head? isOpen)
    rw [spelled] at found
    obtain ⟨opened', stillPlain, scanned⟩ :=
      @scanOperator_found ⟨point :: others ++ rest, mark⟩ opened plain _ _ found
    refine ⟨opened', mark.advance type.spelling.length, stillPlain, fun _ => rfl, ?_⟩
    have skipped : skip type.spelling.length ⟨point :: others ++ rest, mark⟩ =
        ⟨rest, mark.advance type.spelling.length⟩ := by
      rw [skip, ← TokenType.length_ofString, spelled, List.drop_left]
    rw [skipped, spelled] at scanned
    rw [isQuote] at notQuote
    rw [startsWord] at notWord
    unfold scanToken
    simp only [fixed, spelled, List.cons_append] at scanned ⊢
    simp only [notQuote, notTick, notDigit, notNumber, notWord, notHash, notRegex, notPiece,
      Bool.false_or, Bool.false_and, Bool.and_false, Bool.false_eq_true, if_false, scanned]

private theorem operators_gap {entry : String × TokenType} (there : entry ∈ TokenType.operators)
    {point : CodePoint} (isNext : point ∈ TokenType.extensions entry.1) : isGap point = false := by
  have none : TokenType.operators.all (fun entry =>
      (TokenType.extensions entry.1).all fun point => !isGap point) = true := by
    decide +kernel
  have plain := List.all_eq_true.mp (List.all_eq_true.mp none entry there) point isNext
  rwa [Bool.not_eq_true'] at plain

theorem sound_operator {type : TokenType} (isOperator : type.isOperator) (joined : Bool) :
    Sound (fixed type joined) := by
  have there := TokenType.mem_operators isOperator
  have starts := TokenType.operators_start _ there
  refine ⟨?_, ?_, scans_operator isOperator joined ⟨nofun, fun _ => rfl⟩⟩
  · intro isEmpty
    have isEmpty : Text.ofString type.spelling = [] := isEmpty
    simp [TokenType.startsOther, isEmpty, startsIn] at starts
  · intro blank rest isGap
    refine scans_operator isOperator joined ⟨?_, fun _ => ?_⟩
    · intro point isHead isNext
      cases isHead
      rw [operators_gap there isNext] at isGap
      cases isGap
    · exact (isDivider_not_part (isDivider_of_isGap isGap)).2.2.1

/-- The spelling of a reserved word is scanned as one word of its type. -/
def isReserved (entry : String × TokenType) : Bool :=
  let text := Text.ofString entry.1
  startsIn (fun point => !isSkipped point && !isQuote point && !point.is '\x60' && !point.isDigit
    && startsWord point) text && (scanName text .start).rest.isEmpty
    && TokenType.ofWord text == entry.2 && entry.2.spelling == entry.1

private theorem keywords_reserved : ∀ entry ∈ TokenType.keywords, isReserved entry := by
  decide +kernel

theorem scans_keyword {type : TokenType} (isKeyword : type.isKeyword) {rest : Text}
    (ends : EndsName rest) : Scans (fixed type false) rest := by
  obtain ⟨⟨text, other⟩, there, same⟩ := List.any_eq_true.mp isKeyword
  obtain rfl : other = type := eq_of_beq same
  have reserved := keywords_reserved _ there
  simp only [isReserved, Bool.and_eq_true, beq_iff_eq, List.isEmpty_iff] at reserved
  obtain ⟨⟨⟨starts, all⟩, isType⟩, spelled⟩ := reserved
  rw [fixed, spelled]
  refine scans_isName ⟨?_, all⟩ ends fun previous follows => ?_
  · cases isText : Text.ofString text with
    | nil => simp [isText, startsIn] at starts
    | cons point others =>
        simp only [isText, startsIn, List.head?_cons, Option.any_some, Bool.and_eq_true,
          Bool.not_eq_true'] at starts
        obtain ⟨⟨⟨⟨notSkipped, notQuote⟩, notTick⟩, notDigit⟩, isWord⟩ := starts
        exact ⟨point, others, rfl, notSkipped, notQuote, notTick, notDigit, isWord⟩
  · rw [wordType, if_neg, isType]
    obtain ⟨notDot, notOptional⟩ := follows.afterDot isKeyword
    rintro (isDot | isOptional)
    · exact notDot isDot
    · exact notOptional isOptional

theorem sound_keyword {type : TokenType} (isKeyword : type.isKeyword) :
    Sound (fixed type false) := by
  refine sound_of_divided ?_ fun rest divided => scans_keyword isKeyword (.of_divided divided)
  have spelled : ∀ entry ∈ TokenType.keywords, Text.ofString entry.2.spelling ≠ [] := by
    decide +kernel
  obtain ⟨entry, there, same⟩ := List.any_eq_true.mp isKeyword
  rw [← eq_of_beq same]
  exact spelled entry there

/-- A reserved word is read from its spelling only. -/
theorem text_of_keyword {type : TokenType} (isKeyword : type.isKeyword) {text : Text}
    (lexes : LexesAs type text) : text = Text.ofString type.spelling := by
  have spelled : ∀ entry ∈ TokenType.keywords, entry.2.spelling = entry.1 := by
    decide
  have isName : type.isName := Bool.or_eq_true_iff.mpr (.inr isKeyword)
  obtain ⟨_, isType⟩ := isName_of_lexesAs lexes isName
  unfold TokenType.ofWord at isType
  split at isType
  case h_1 entry found =>
    have there := List.mem_of_find?_eq_some found
    have isText := List.find?_some found
    rw [← isType, spelled entry there]
    exact eq_of_beq isText
  case h_2 =>
    subst isType
    cases isKeyword

end Word

end ScriptFold
