import ScriptFold.Printer.Basic
import ScriptFold.Proofs.Printer.Page
import ScriptFold.Proofs.Token.Fixed

/-!
# Printing words

Printing lays out words: it takes a page that is laid out in some words to one that is laid
out in more.  A blank between two words that would be read as one is harmless, so a word only
has to stay apart from the last one if no such blank is written.
-/

namespace ScriptFold

namespace Page

theorem text_foldl_put (text : Text) (page : Page) :
    (text.foldl put page).text = page.text ++ text := by
  rw [Page.text, reversed_foldl_put, List.reverse_append, List.reverse_reverse]
  rfl

/-- Text is written as it is, or after a blank if it would fuse with the last character. -/
theorem text_write (page : Page) (written : Text) :
    (∃ last first, page.text.getLast? = some last ∧ written.head? = some first ∧
      fuses last first ∧ (page.write written).text = page.text ++ .char ' ' :: written) ∨
    ((∀ last first, page.text.getLast? = some last → written.head? = some first →
      fuses last first = false) ∧ (page.write written).text = page.text ++ written) := by
  unfold write
  split
  case h_1 first more last others isPage =>
    have isLast : page.text.getLast? = some last := by
      rw [Page.text, List.getLast?_reverse, isPage]
      rfl
    split
    case isTrue fused =>
      rw [Bool.and_eq_true] at fused
      refine .inl ⟨last, first, isLast, rfl, fused.2, ?_⟩
      rw [text_foldl_put, text_put, List.append_assoc]
      rfl
    case isFalse apart =>
      refine .inr ⟨?_, text_foldl_put _ _⟩
      intro other point isOther isPoint
      rw [isLast] at isOther
      cases isOther
      cases isPoint
      by_cases isFeed : last.is '\n'
      · rw [eq_of_beq isFeed]
        exact not_fuses_of_blank rfl first
      · simpa [isFeed] using apart
  case h_2 missing =>
    refine .inr ⟨?_, text_foldl_put _ _⟩
    intro last first isLast isFirst
    obtain ⟨more, isWritten⟩ := List.head?_eq_some_iff.mp isFirst
    cases isPage : page.reversed with
    | nil =>
        rw [Page.text, isPage] at isLast
        cases isLast
    | cons other others => exact (missing _ _ _ _ isWritten isPage).elim

theorem not_fuses_gap {blank : CodePoint} (isGap : Word.isGap blank) (last : CodePoint) :
    fuses last blank = false := by
  have plain : isWordChar blank = false ∧ blank.isOneOf ['+', '-'] = false := by
    simp only [Word.isGap, CodePoint.isOneOf, List.any_cons, List.any_nil, Bool.or_false,
      Bool.or_eq_true, CodePoint.is, beq_iff_eq] at isGap
    rcases isGap with rfl | rfl | rfl <;> exact ⟨rfl, rfl⟩
  rw [fuses, plain.1, Bool.and_false, Bool.or_false]
  by_cases same : blank = last
  · rw [← same, plain.2, Bool.false_and]
  · rw [beq_false_of_ne same, Bool.and_false]

end Page

theorem LaidOut.getLast?_text {text : Text} {words : List Word} {edge : Edge}
    (laid : LaidOut text words edge) {last : Word} (isLast : edge.last = some last)
    (noGap : edge.gap = []) {point : CodePoint} (isPoint : last.text.getLast? = some point) :
    text.getLast? = some point := by
  obtain ⟨front, isText⟩ := laid.ends
  rw [isText, isLast, noGap, List.append_nil, List.getLast?_append]
  simp only [Option.elim_some, isPoint, Option.some_or]

namespace Edge

/-- A word can be written at an edge. -/
structure Takes (edge : Edge) (word : Word) : Prop where
  follows : word.Follows (edge.last.map Word.type)
  onLine : word.joined → ∀ point, point ∈ edge.gap → point.is '\n' = false
  apart : ∀ last, edge.last = some last → edge.gap = [] →
    (∀ point first, last.text.getLast? = some point → word.text.head? = some first →
      Page.fuses point first = false) →
    ∀ more, last.Scans (word.text ++ more)

/-- After a blank all that matters is what the last word was. -/
theorem meets_of_gap {edge : Edge} {word : Word} (spaced : edge.gap ≠ [])
    (follows : word.Follows (edge.last.map Word.type))
    (onLine : word.joined → ∀ point, point ∈ edge.gap → point.is '\n' = false) :
    edge.Meets word :=
  ⟨follows, onLine, fun _ _ isGap => absurd isGap spaced⟩

/-- A text takes all that is laid out up to one edge to another, and adds words. -/
def Adds (edge : Edge) (text : Text) (words : List Word) (next : Edge) : Prop :=
  ∀ before shown, LaidOut before shown edge → LaidOut (before ++ text) (shown ++ words) next

namespace Adds

variable {edge middle next : Edge} {text more : Text} {words others : List Word}

theorem nothing : Adds edge [] [] edge := by
  intro before shown laid
  rw [List.append_nil, List.append_nil]
  exact laid

theorem gap {gap : Text} (blank : ∀ point, point ∈ gap → Word.isGap point) :
    Adds edge gap [] ⟨edge.last, edge.gap ++ gap⟩ := by
  intro before shown laid
  rw [List.append_nil]
  exact laid.addGap blank

theorem word {word : Word} (sound : word.Sound) (meets : edge.Meets word) :
    Adds edge word.text [word] ⟨some word, []⟩ :=
  fun _ _ laid => laid.addWord sound meets

theorem append (first : Adds edge text words middle) (second : Adds middle more others next) :
    Adds edge (text ++ more) (words ++ others) next := by
  intro before shown laid
  rw [← List.append_assoc, ← List.append_assoc]
  exact second _ _ (first before shown laid)

end Adds

end Edge

namespace Word

open Lexer

/-- The operators right behind which an operand is written. -/
def openings : List TokenType :=
  [.openParen, .openBracket, .not, .tilde, .plus, .minus, .ellipsis, .increment, .decrement]

/-- An opening operator goes on only with an equals sign or by doubling. -/
theorem openings_extensions : ∀ type ∈ openings, type.isOperator ∧
    ∀ point ∈ TokenType.extensions type.spelling, point.is '=' ∨
      point.isOneOf ['+', '-'] ∧ (Text.ofString type.spelling).getLast? = some point := by
  decide

structure Begins (word : Word) : Prop where
  sound : word.Sound
  free : word.joined = false
  noSlash : word.type ≠ .slash ∧ word.type ≠ .slashAssign
  starts : startsIn (·.is '=') word.text = false

/-- A word that is no operator does not begin with a code point of operators. -/
theorem not_startsIn_of_lexesAs {type : TokenType} {text : Text} (lexes : LexesAs type text)
    (isWord : isOther type = false) {c : Char} (isSign : c = '=' ∨ c = '-') :
    startsIn (·.is c) text = false := by
  obtain ⟨point, rest, rfl, starts⟩ := head_of_lexesAs lexes isWord
  show point.is c = false
  rcases starts with isQuote | isNumber | isWord
  · refine not_is_of_class isQuote ?_
    rcases isSign with rfl | rfl <;> decide
  · cases isDigit : point.isDigit with
    | true =>
        refine not_is_of_class isDigit ?_
        rcases isSign with rfl | rfl <;> decide
    | false =>
        rw [startsNumber, isDigit, Bool.false_or, Bool.and_eq_true] at isNumber
        rw [eq_of_beq isNumber.1]
        rcases isSign with rfl | rfl <;> rfl
  · refine not_is_of_class isWord ?_
    rcases isSign with rfl | rfl <;> decide

theorem begins_of_lexesAs {type : TokenType} {text : Text} (lexes : LexesAs type text)
    (isWord : isOther type = false) (sound : Sound ⟨type, text, false⟩) :
    Begins ⟨type, text, false⟩ := by
  refine ⟨sound, rfl, ⟨?_, ?_⟩, not_startsIn_of_lexesAs lexes isWord (.inl rfl)⟩
  · rintro rfl
    cases isWord
  · rintro rfl
    cases isWord

theorem begins_keyword {type : TokenType} (isKeyword : type.isKeyword) :
    Begins (fixed type false) := by
  have plain : ∀ entry ∈ TokenType.keywords, (entry.2 ≠ .slash ∧ entry.2 ≠ .slashAssign) ∧
      startsIn (·.is '=') (Text.ofString entry.2.spelling) = false := by
    decide
  obtain ⟨entry, there, same⟩ := List.any_eq_true.mp isKeyword
  obtain rfl := eq_of_beq same
  exact ⟨sound_keyword isKeyword, rfl, (plain entry there).1, (plain entry there).2⟩

theorem begins_operator {type : TokenType} (opens : type ∈ .openBrace :: openings) :
    Begins (fixed type false) := by
  have plain : ∀ type ∈ .openBrace :: openings, type.isOperator ∧
      (type ≠ .slash ∧ type ≠ .slashAssign) ∧
      startsIn (·.is '=') (Text.ofString type.spelling) = false := by
    decide
  obtain ⟨isOperator, noSlash, starts⟩ := plain type opens
  exact ⟨sound_operator isOperator false, rfl, noSlash, starts⟩

/-- A word with which an expression can end. -/
structure Closes (word : Word) : Prop where
  sound : word.Sound
  value : word.type.endsValue
  divided : ∀ rest, Divided rest → word.Scans rest

/-- A word that is not taken together with a dot or a sign after it. -/
def Links (word : Word) : Prop :=
  ∀ point rest, point.isOneOf ['.', '?', '+', '-'] → word.Scans (point :: rest)

theorem endsName_of_link {point : CodePoint} (isLink : point.isOneOf ['.', '?', '+', '-'])
    (rest : Text) : EndsName (point :: rest) := by
  simp only [CodePoint.isOneOf, List.any_cons, List.any_nil, Bool.or_false, Bool.or_eq_true,
    CodePoint.is, beq_iff_eq] at isLink
  rcases isLink with rfl | rfl | rfl | rfl <;> exact .cons (by decide) (by decide) rest

theorem closes_name {text : Text} (lexes : LexesAs .ident text) : Closes ⟨.ident, text, false⟩ :=
  ⟨sound_name lexes, rfl, fun _ divided => scans_name lexes (.of_divided divided)⟩

theorem links_name {text : Text} (lexes : LexesAs .ident text) : Links ⟨.ident, text, false⟩ :=
  fun _ rest isLink => scans_name lexes (endsName_of_link isLink rest)

theorem closes_number {text : Text} (lexes : LexesAs .number text) :
    Closes ⟨.number, text, false⟩ :=
  ⟨sound_number lexes, rfl, fun _ => scans_number lexes⟩

theorem closes_string {text : Text} (lexes : LexesAs .string text) :
    Closes ⟨.string, text, false⟩ :=
  ⟨sound_string lexes, rfl, fun rest _ => scans_string lexes rest⟩

theorem links_string {text : Text} (lexes : LexesAs .string text) : Links ⟨.string, text, false⟩ :=
  fun point rest _ => scans_string lexes (point :: rest)

theorem closes_keyword {type : TokenType} (isKeyword : type.isKeyword) (value : type.endsValue) :
    Closes (fixed type false) :=
  ⟨sound_keyword isKeyword, value, fun _ divided => scans_keyword isKeyword (.of_divided divided)⟩

theorem links_keyword {type : TokenType} (isKeyword : type.isKeyword) : Links (fixed type false) :=
  fun _ rest isLink => scans_keyword isKeyword (endsName_of_link isLink rest)

/-- The operators with which an expression can end. -/
def closings : List TokenType :=
  [.closeParen, .closeBracket, .closeBrace, .increment, .decrement]

theorem scans_closing {type : TokenType} (closes : type ∈ closings) (joined : Bool) (rest : Text) :
    Scans (fixed type joined) rest := by
  have plain : ∀ type ∈ closings, type.isOperator ∧ TokenType.extensions type.spelling = [] ∧
      type ≠ .dot ∧ type ≠ .optionalDot := by
    decide
  obtain ⟨isOperator, noExtension, notDot, notOptional⟩ := plain type closes
  refine scans_operator isOperator joined ⟨?_, ?_⟩
  · intro point _
    rw [noExtension]
    exact List.not_mem_nil
  · rintro (isDot | isOptional)
    · exact absurd isDot notDot
    · exact absurd isOptional notOptional

theorem closes_closing {type : TokenType} (closes : type ∈ closings) (joined : Bool) :
    Closes (fixed type joined) := by
  have plain : ∀ type ∈ closings, type.isOperator ∧ type.endsValue := by
    decide
  obtain ⟨isOperator, value⟩ := plain type closes
  exact ⟨sound_operator isOperator joined, value, fun rest _ => scans_closing closes joined rest⟩

theorem links_closing {type : TokenType} (closes : type ∈ closings) (joined : Bool) :
    Links (fixed type joined) :=
  fun point rest _ => scans_closing closes joined (point :: rest)

end Word

namespace Edge

open Word

/-- The edge right behind a word. -/
def after (word : Word) : Edge :=
  ⟨some word, []⟩

/-- An operand can be written at an edge. -/
structure Awaits (edge : Edge) : Prop where
  afterDot : edge.last.map Word.type ≠ some .dot ∧ edge.last.map Word.type ≠ some .optionalDot
  opening : edge.gap = [] → ∀ last, edge.last = some last →
    ∃ type joined, type ∈ openings ∧ last = fixed type joined

theorem Awaits.takes {edge : Edge} (awaits : edge.Awaits) {word : Word} (begins : word.Begins) :
    edge.Takes word := by
  refine ⟨⟨fun _ => awaits.afterDot, ?_⟩, ?_, ?_⟩
  · rintro (isSlash | isAssign)
    · exact absurd isSlash begins.noSlash.1
    · exact absurd isAssign begins.noSlash.2
  · intro joined
    rw [begins.free] at joined
    cases joined
  · intro last isLast noGap apart more
    obtain ⟨type, joined, opens, rfl⟩ := awaits.opening noGap last isLast
    obtain ⟨isOperator, extending⟩ := openings_extensions type opens
    obtain ⟨first, others, isText⟩ := List.exists_cons_of_ne_nil begins.sound.notEmpty
    have starts := begins.starts
    rw [isText] at apart starts ⊢
    refine scans_operator isOperator joined ⟨?_, ?_⟩
    · intro point isHead extension
      cases isHead
      rcases extending first extension with isEquals | ⟨isSign, doubles⟩
      · have starts : first.is '=' = false := starts
        rw [starts] at isEquals
        cases isEquals
      · have fused := apart first first doubles rfl
        simp [Page.fuses, isSign] at fused
    · rintro (rfl | rfl) <;> cases opens <;> contradiction

theorem awaits_start : Awaits ⟨none, []⟩ :=
  ⟨⟨nofun, nofun⟩, nofun⟩

theorem awaits_opening {type : TokenType} (opens : type ∈ openings) (joined : Bool) :
    Awaits (after (fixed type joined)) := by
  refine ⟨⟨?_, ?_⟩, ?_⟩
  · rintro isDot
    cases isDot
    cases opens
    contradiction
  · rintro isDot
    cases isDot
    cases opens
    contradiction
  · intro _ last isLast
    cases isLast
    exact ⟨type, joined, opens, rfl⟩

theorem awaits_gap {word : Word} (notDot : word.type ≠ .dot) (notOptional : word.type ≠ .optionalDot)
    {gap : Text} (spaced : gap ≠ []) : Awaits ⟨some word, gap⟩ := by
  refine ⟨⟨?_, ?_⟩, fun noGap => absurd noGap spaced⟩
  · intro isDot
    exact notDot (Option.some.inj isDot)
  · intro isDot
    exact notOptional (Option.some.inj isDot)

end Edge

namespace Word

open Lexer

variable {last : Word}

theorem Closes.follows (closes : last.Closes) (word : Word) : word.Follows (some last.type) := by
  refine ⟨fun _ => ⟨?_, ?_⟩, fun _ => closes.value⟩
  · intro isDot
    have value := closes.value
    rw [Option.some.inj isDot] at value
    cases value
  · intro isDot
    have value := closes.value
    rw [Option.some.inj isDot] at value
    cases value

/-- Any word can be written a blank behind an expression. -/
theorem Closes.meets (closes : last.Closes) (word : Word) : Edge.Meets ⟨some last, [.char ' ']⟩ word := by
  refine Edge.meets_of_gap (List.cons_ne_nil _ _) (closes.follows word) fun _ point there => ?_
  cases List.mem_singleton.mp there
  rfl

/-- A word that begins with a divider can be written right behind an expression. -/
theorem Closes.takes (closes : last.Closes) {word : Word} (free : word.joined = false)
    {point : CodePoint} {rest : Text} (isText : word.text = point :: rest)
    (divides : isDivider point) : (Edge.after last).Takes word := by
  refine ⟨closes.follows word, ?_, ?_⟩
  · intro joined
    rw [free] at joined
    cases joined
  · intro other isLast _ _ more
    cases isLast
    rw [isText]
    exact closes.divided _ (.cons divides _)

/-- A word that begins with a dot or a sign can be written right behind some expressions. -/
theorem Closes.takes_link (closes : last.Closes) (links : last.Links) {word : Word}
    {point : CodePoint} {rest : Text} (isText : word.text = point :: rest)
    (isLink : point.isOneOf ['.', '?', '+', '-']) : (Edge.after last).Takes word := by
  refine ⟨closes.follows word, nofun, ?_⟩
  intro other isLast _ _ more
  cases isLast
  rw [isText]
  exact links point _ isLink

end Word

namespace Printer

theorem enclose_false (body : Print Unit) : enclose false body = body :=
  bind_pure_unit

/-- An action prints words from one edge to another. -/
def Lays (action : Print Unit) (edge : Edge) (words : List Word) (next : Edge) : Prop :=
  ∀ page shown, LaidOut page.text shown edge →
    ∃ after, Turns none action page after ∧ LaidOut after.text (shown ++ words) next

namespace Lays

variable {edge middle next : Edge} {words others : List Word}

theorem nothing : Lays (pure ()) edge [] edge := by
  intro page shown laid
  refine ⟨page, rfl, ?_⟩
  rw [List.append_nil]
  exact laid

theorem andThen {first : Print Unit} {second : Unit → Print Unit}
    (begins : Lays first edge words middle) (ends : Lays (second ()) middle others next) :
    Lays (first >>= second) edge (words ++ others) next := by
  intro page shown laid
  obtain ⟨between, turned, laid⟩ := begins page shown laid
  obtain ⟨after, turnedOn, laid⟩ := ends between _ laid
  rw [List.append_assoc] at laid
  exact ⟨after, turned.andThen turnedOn, laid⟩

/-- Text that begins with a blank is written as it is. -/
theorem spaced {blank : CodePoint} {text : Text} (isGap : Word.isGap blank)
    (adds : edge.Adds (blank :: text) words next) : Lays (write (blank :: text)) edge words next := by
  intro page shown laid
  refine ⟨_, .write _, ?_⟩
  rcases page.text_write (blank :: text) with ⟨last, first, _, isFirst, fused, _⟩ | ⟨_, isText⟩
  · cases isFirst
    rw [Page.not_fuses_gap isGap] at fused
    cases fused
  · rw [isText]
    exact adds _ _ laid

/-- A word is written with more text after it. -/
theorem word {word : Word} {more : Text} (sound : word.Sound) (takes : edge.Takes word)
    (adds : Edge.Adds ⟨some word, []⟩ more words next) :
    Lays (write (word.text ++ more)) edge (word :: words) next := by
  intro page shown laid
  refine ⟨_, .write _, ?_⟩
  rcases page.text_write (word.text ++ more) with ⟨_, _, _, _, _, isPage⟩ | ⟨apart, isPage⟩
  · have spaced : edge.Adds ([.char ' '] ++ word.text) ([] ++ [word]) ⟨some word, []⟩ := by
      refine .append (.gap (by decide)) (.word sound ?_)
      refine Edge.meets_of_gap (by simp) takes.follows fun joined point there => ?_
      rcases List.mem_append.mp there with there | there
      · exact takes.onLine joined point there
      · cases List.mem_singleton.mp there
        rfl
    rw [isPage]
    exact (spaced.append adds) _ _ laid
  · have meets : edge.Meets word := by
      refine ⟨takes.follows, takes.onLine, fun last isLast noGap => ?_⟩
      refine takes.apart last isLast noGap fun point first isPoint isFirst => ?_
      refine apart point first (laid.getLast?_text isLast noGap isPoint) ?_
      rw [List.head?_append, isFirst]
      rfl
    rw [isPage]
    exact ((Edge.Adds.word sound meets).append adds) _ _ laid

end Lays

end Printer

end ScriptFold
