import Mathlib.Logic.Basic
import ScriptFold.Console.Command
import ScriptFold.Fault

/-!
# What a command does to a session

A command is always answered.  The session goes on after it and keeps its bindings, unless they
are dropped or a file is loaded.  Files that cannot be read are reported, but the session ends at
a file that is read and turns out to hold neither values nor bindings, at a document that goes
down further than the stack reaches, and at bindings that cannot be shown.
-/

namespace ScriptFold

/-! ### Documents that go down too far -/

namespace Document

def brackets (count : Nat) : Text :=
  List.replicate count (.char '[')

private theorem readValue_brackets {levels count budget offset : Nat} (deep : levels < count)
    (enough : 2 * levels < budget) :
    readValue levels budget ⟨brackets count, offset⟩ = .error .tooDeep := by
  induction levels generalizing count budget offset with
  | zero =>
      obtain ⟨count, rfl⟩ := Nat.exists_eq_add_of_lt deep
      obtain ⟨budget, rfl⟩ := Nat.exists_eq_add_of_lt enough
      rfl
  | succ levels induction =>
      obtain ⟨count, rfl⟩ : ∃ more, count = more + 2 := ⟨count - 2, by omega⟩
      obtain ⟨budget, rfl⟩ : ∃ more, budget = more + 2 := ⟨budget - 2, by omega⟩
      have items : readItems levels (budget + 1) ⟨brackets (count + 1), offset + 1⟩ =
          .error .tooDeep := by
        rw [readItems, induction (by omega) (by omega)]
        rfl
      have first : (Position.skip ⟨brackets (count + 2), offset⟩ 1).skipBlanks =
          ⟨brackets (count + 1), offset + 1⟩ := rfl
      have opens : Position.startsWith ⟨brackets (count + 2), offset⟩ '[' = true := rfl
      rw [readValue, if_neg nofun, if_pos opens]
      dsimp only
      rw [first, if_neg nofun, items]
      rfl

/-- More opening brackets than there are levels go down too far. -/
theorem read_brackets {levels count : Nat} (deep : levels < count) :
    read (brackets count) levels = .error .tooDeep := by
  obtain ⟨count, rfl⟩ := Nat.exists_eq_add_of_lt deep
  rw [read, if_neg nofun]
  exact congrArg (· >>= _) (readValue_brackets deep (by simp [brackets]; omega))

end Document

/-! ### What a listing cannot show -/

namespace Text

private theorem hasHalf_ofString (s : String) : (ofString s).hasHalf = false := by
  rw [hasHalf, List.any_eq_false]
  intro point there
  obtain ⟨c, -, rfl⟩ := List.mem_map.mp there
  exact Bool.false_ne_true

private theorem hasHalf_append (front back : Text) :
    (front ++ back).hasHalf = (front.hasHalf || back.hasHalf) :=
  List.any_append

private theorem hasHalf_join {separator : Text} (noHalf : separator.hasHalf = false) :
    (texts : List Text) →
      ((join separator texts).hasHalf = true ↔ ∃ text ∈ texts, text.hasHalf = true)
  | [] => by simp [join, hasHalf]
  | [text] => by simp [join]
  | text :: next :: rest => by
      rw [join, hasHalf_append, hasHalf_append, noHalf, Bool.or_false, Bool.or_eq_true,
        hasHalf_join noHalf (next :: rest)]
      · simp
      · nofun

end Text

open Calculation (Fails not_fails_ok fails_bind_iff fails_map_iff)

namespace Value

/-- An integer that stands somewhere in a value. -/
inductive HoldsInteger (n : Int) : Value → Prop where
  | here : HoldsInteger n (.num (.int n))
  | inList {items : List Value} {item : Value} (there : item ∈ items)
      (holds : HoldsInteger n item) : HoldsInteger n (.list items)
  | inTuple {items : List Value} {item : Value} (there : item ∈ items)
      (holds : HoldsInteger n item) : HoldsInteger n (.tuple items)
  | inKey {entries : List (Value × Value)} {entry : Value × Value} (there : entry ∈ entries)
      (holds : HoldsInteger n entry.1) : HoldsInteger n (.record entries)
  | inEntry {entries : List (Value × Value)} {entry : Value × Value} (there : entry ∈ entries)
      (holds : HoldsInteger n entry.2) : HoldsInteger n (.record entries)

/-- A value that holds an integer with more digits than are written. -/
def HoldsLongInteger (value : Value) : Prop :=
  ∃ n, value.HoldsInteger n ∧ Numeral.greatestDecimalWidth < (digitsOf n.natAbs).length

variable {value : Value} {items : List Value} {entries : List (Value × Value)}

private theorem listings_fails_iff : Fails (listings items) ↔ ∃ item ∈ items, Fails item.listing
    := by
  induction items with
  | nil => simp [listings, not_fails_ok]
  | cons item rest induction =>
      cases isListed : item.listing with
      | error fault => simp [listings, isListed, Fails, Bind.bind, Except.bind]
      | ok first =>
          simp [listings, isListed, not_fails_ok, fails_map_iff, induction]

private theorem entryListings_fails_iff :
    Fails (entryListings entries) ↔
      ∃ entry ∈ entries, Fails entry.1.listing ∨ Fails entry.2.listing := by
  induction entries with
  | nil => simp [entryListings, not_fails_ok]
  | cons entry rest induction =>
      obtain ⟨key, value⟩ := entry
      cases isKey : key.listing with
      | error fault => simp [entryListings, isKey, Fails, Bind.bind, Except.bind]
      | ok name =>
          cases isListed : value.listing with
          | error fault => simp [entryListings, isKey, isListed, Fails, Bind.bind, Except.bind]
          | ok content =>
              simp [entryListings, isKey, isListed, not_fails_ok, fails_map_iff, induction]

private theorem listing_tuple_fails_iff :
    Fails (listing (.tuple items)) ↔ Fails (listings items) := by
  match items with
  | [] => exact iff_of_false not_fails_ok not_fails_ok
  | [item] => simp [listing, listings, fails_map_iff, fails_bind_iff, not_fails_ok]
  | _ :: _ :: _ => simp [listing, fails_map_iff]

private theorem holdsLong_of_fails (value : Value) (fails : Fails value.listing) :
    value.HoldsLongInteger := by
  cases value with
  | undefined | null | bool | str | function | sealed =>
      rw [listing] at fails
      exact absurd fails not_fails_ok
  | num n =>
      rw [listing] at fails
      cases n with
      | int n =>
          refine ⟨n, .here, Nat.not_le.mp fun short => ?_⟩
          rw [Num.listingText, if_pos short] at fails
          exact not_fails_ok fails
      | float x => exact absurd fails not_fails_ok
  | list items =>
      rw [listing, bind_pure_comp, fails_map_iff, listings_fails_iff] at fails
      obtain ⟨item, there, fails⟩ := fails
      obtain ⟨n, holds, long⟩ := holdsLong_of_fails item fails
      exact ⟨n, .inList there holds, long⟩
  | tuple items =>
      rw [listing_tuple_fails_iff, listings_fails_iff] at fails
      obtain ⟨item, there, fails⟩ := fails
      obtain ⟨n, holds, long⟩ := holdsLong_of_fails item fails
      exact ⟨n, .inTuple there holds, long⟩
  | record entries =>
      rw [listing, bind_pure_comp, fails_map_iff, entryListings_fails_iff] at fails
      obtain ⟨⟨key, content⟩, there, fails | fails⟩ := fails
      · obtain ⟨n, holds, long⟩ := holdsLong_of_fails key fails
        exact ⟨n, .inKey there holds, long⟩
      · obtain ⟨n, holds, long⟩ := holdsLong_of_fails content fails
        exact ⟨n, .inEntry there holds, long⟩
termination_by sizeOf value
decreasing_by
  all_goals
    have := List.sizeOf_lt_of_mem there
    simp_all
    omega

/-- A value cannot be shown just if it holds an integer with too many digits. -/
theorem listing_fails_iff : Fails value.listing ↔ value.HoldsLongInteger := by
  refine ⟨holdsLong_of_fails value, ?_⟩
  rintro ⟨n, holds, long⟩
  induction holds with
  | here =>
      rw [listing, Num.listingText, if_neg (Nat.not_le.mpr long)]
      exact ⟨_, rfl⟩
  | inList there _ fails =>
      rw [listing, bind_pure_comp, fails_map_iff, listings_fails_iff]
      exact ⟨_, there, fails⟩
  | inTuple there _ fails =>
      rw [listing_tuple_fails_iff, listings_fails_iff]
      exact ⟨_, there, fails⟩
  | inKey there _ fails =>
      rw [listing, bind_pure_comp, fails_map_iff, entryListings_fails_iff]
      exact ⟨_, there, .inl fails⟩
  | inEntry there _ fails =>
      rw [listing, bind_pure_comp, fails_map_iff, entryListings_fails_iff]
      exact ⟨_, there, .inr fails⟩

end Value

namespace Files

variable {files : Files} {path : Text} {ending : Ending}

theorem fileMessage_of_contains (failed : files.contains path = .error ending) :
    ending.fileMessage? ≠ none := by
  unfold contains at failed
  split at failed <;> cases failed
  exact Option.some_ne_none _

theorem fileMessage_of_read (failed : files.read path = .error ending) :
    ending.fileMessage? ≠ none := by
  unfold read at failed
  split at failed <;> cases failed <;> exact Option.some_ne_none _

theorem fileMessage_of_readText (failed : files.readText path = .error ending) :
    ending.fileMessage? ≠ none := by
  unfold readText at failed
  cases isRead : files.read path with
  | error other =>
      rw [isRead] at failed
      cases failed
      exact fileMessage_of_read isRead
  | ok content =>
      rw [isRead] at failed
      cases content <;> cases failed

/-- A name with the suffix of prepared bindings has no shorter one of bindings. -/
theorem endsWith_of_isPrepared {name suffix : Text}
    (isPrepared : name.endsWith preparedSuffix = true)
    (isShorter : suffix.length ≤ preparedSuffix.length)
    (differs : ¬ suffix <:+ preparedSuffix) : name.endsWith suffix = false := by
  rw [Bool.eq_false_iff]
  intro isSuffix
  exact differs (List.suffix_of_suffix_length_le (List.isSuffixOf_iff_suffix.mp isSuffix)
    (List.isSuffixOf_iff_suffix.mp isPrepared) isShorter)

end Files

namespace Session

/-- A file at which the session ends when it is loaded: a document of something else than a
record or one that goes down too far, bindings in a form that is made by machines, or a file
whose name has no suffix of bindings. -/
inductive Unusable (files : Files) (path : Text) : Prop where
  | document {text : Text} {value : Value} (isDocument : path.endsWith ".json" = true)
      (isText : files.readText path = .ok text) (isRead : Document.read text = .ok value)
      (notRecord : ∀ entries, value ≠ .record entries)
  | tooDeep {text : Text} (isDocument : path.endsWith ".json" = true)
      (isText : files.readText path = .ok text) (goesDown : Document.read text = .error .tooDeep)
  | library (notDocument : path.endsWith ".json" = false)
      (isLibrary : (Files.bindingsName path).endsWith Files.librarySuffix = true)
  | prepared {content : FileContent} (notDocument : path.endsWith ".json" = false)
      (isPrepared : (Files.bindingsName path).endsWith Files.preparedSuffix = true)
      (isRead : files.read path = .ok content)
  | other (notDocument : path.endsWith ".json" = false)
      (notBindings : ∀ suffix ∈ [Files.librarySuffix, Files.bindingsSuffix, Files.preparedSuffix],
        (Files.bindingsName path).endsWith suffix = false)

variable {files : Files} {path : Text} {bindings : Bindings}

theorem unusable_of_readValues {ending : Ending} (isDocument : path.endsWith ".json" = true)
    (failed : files.readValues path = .error ending) (unreported : ending.fileMessage? = none) :
    Unusable files path := by
  unfold Files.readValues at failed
  cases isText : files.readText path with
  | error other =>
      rw [isText] at failed
      cases failed
      exact absurd unreported (Files.fileMessage_of_readText isText)
  | ok text =>
      rw [isText, Calculation.ok_bind] at failed
      split at failed
      case h_1 goesDown => exact .tooDeep isDocument isText goesDown
      case h_2 =>
        cases failed
        cases unreported
      case h_3 => cases failed
      case h_4 value notRecord isRead => exact .document isDocument isText isRead notRecord

theorem unusable_of_readBindings {ending : Ending} (notDocument : path.endsWith ".json" = false)
    (failed : files.readBindings path = .error ending) (unreported : ending.fileMessage? = none) :
    Unusable files path := by
  unfold Files.readBindings at failed
  dsimp only at failed
  split at failed
  case isTrue isLibrary => exact .library notDocument isLibrary
  split at failed
  case isTrue =>
    cases isRead : files.read path with
    | error other =>
        rw [isRead] at failed
        cases failed
        exact absurd unreported (Files.fileMessage_of_read isRead)
    | ok content =>
        rw [isRead] at failed
        cases content <;> cases failed
  split at failed
  case isTrue isPrepared =>
    cases isRead : files.read path with
    | error other =>
        rw [isRead] at failed
        cases failed
        exact absurd unreported (Files.fileMessage_of_read isRead)
    | ok content => exact .prepared notDocument isPrepared isRead
  case isFalse notLibrary notScript notPrepared =>
    refine .other notDocument ?_
    simp only [Bool.not_eq_true] at notLibrary notScript notPrepared
    simp [notLibrary, notScript, notPrepared]

/-- A file whose load is not reported is one at which the session ends. -/
theorem unusable_of_loadFile {ending : Ending}
    (failed : loadFile files path bindings = .error ending)
    (unreported : ending.fileMessage? = none) : Unusable files path := by
  unfold loadFile at failed
  split at failed
  case isTrue isDocument =>
    cases isRead : files.readValues path with
    | error other =>
        rw [isRead] at failed
        cases failed
        exact unusable_of_readValues isDocument isRead unreported
    | ok values =>
        rw [isRead] at failed
        cases failed
  case isFalse notDocument =>
    cases isRead : files.readBindings path with
    | error other =>
        rw [isRead] at failed
        cases failed
        exact unusable_of_readBindings (Bool.eq_false_iff.mpr notDocument) isRead unreported
    | ok new =>
        rw [isRead] at failed
        cases failed

/-- The load of a file at which the session ends fails, and not in a way that is reported. -/
theorem Unusable.loadFile_eq (unusable : Unusable files path) (bindings : Bindings) :
    ∃ ending, loadFile files path bindings = .error ending ∧ ending.fileMessage? = none := by
  cases unusable with
  | @document text value isDocument isText isRead notRecord =>
      refine ⟨.message (path ++ Text.ofString ": expected a JSON object of values"), ?_, rfl⟩
      rw [loadFile, if_pos isDocument, Files.readValues, isText, Calculation.ok_bind, isRead]
      cases value <;> first | rfl | exact absurd rfl (notRecord _)
  | tooDeep isDocument isText goesDown =>
      refine ⟨.failure (.fault .stackExhausted), ?_, rfl⟩
      rw [loadFile, if_pos isDocument, Files.readValues, isText, Calculation.ok_bind, goesDown]
      rfl
  | library notDocument isLibrary =>
      refine ⟨.unloadable, ?_, rfl⟩
      rw [loadFile, if_neg (by simp [notDocument]), Files.readBindings, if_pos isLibrary]
      rfl
  | prepared notDocument isPrepared isRead =>
      have notLibrary : (Files.bindingsName path).endsWith Files.librarySuffix = false :=
        Files.endsWith_of_isPrepared isPrepared (by decide) (by decide)
      have notScript : (Files.bindingsName path).endsWith Files.bindingsSuffix = false :=
        Files.endsWith_of_isPrepared isPrepared (by decide) (by decide)
      refine ⟨.unloadable, ?_, rfl⟩
      rw [loadFile, if_neg (by simp [notDocument]), Files.readBindings,
        if_neg (by simp [notLibrary]),
        if_neg (by simp [notScript]), if_pos isPrepared, isRead]
      rfl
  | other notDocument notBindings =>
      refine ⟨.message (Text.ofString "Cannot load bindings from " ++ path), ?_, rfl⟩
      rw [loadFile, if_neg (by simp [notDocument]), Files.readBindings,
        if_neg (by simp [notBindings]), if_neg (by simp [notBindings]),
        if_neg (by simp [notBindings])]
      rfl

/-- Loading what a path leads to fails without a report just if something stands there that is
unusable. -/
theorem loadPath_unreported_iff :
    (∃ ending, loadPath files path bindings = .error ending ∧ ending.fileMessage? = none) ↔
      files.contains path = .ok true ∧ Unusable files path := by
  unfold loadPath
  constructor
  · rintro ⟨ending, failed, unreported⟩
    generalize isThere : files.contains path = there at failed ⊢
    cases there with
    | error other =>
        cases failed
        exact absurd unreported (Files.fileMessage_of_contains isThere)
    | ok there =>
        cases there with
        | false => cases failed
        | true =>
            generalize isLoaded : loadFile files path bindings = loaded at failed
            cases loaded with
            | error other =>
                cases failed
                exact ⟨rfl, unusable_of_loadFile isLoaded unreported⟩
            | ok new => cases failed
  · rintro ⟨isThere, unusable⟩
    obtain ⟨ending, failed, unreported⟩ := unusable.loadFile_eq bindings
    refine ⟨ending, ?_, unreported⟩
    rw [isThere, Calculation.ok_bind, if_pos rfl, failed]
    rfl

/-! ### Bindings that cannot be shown -/

/-- Bindings that cannot all be shown: a value goes down further than the stack reaches or holds
an integer with too many digits, or a name holds a lone half. -/
inductive Unshowable (bindings : Bindings) : Prop where
  | deep {entry : Text × Value} (there : entry ∈ bindings.values)
      (goesDown : Stack.limit < entry.2.depth)
  | digits {entry : Text × Value} (there : entry ∈ bindings.values)
      (holdsLong : entry.2.HoldsLongInteger)
  | valueName {entry : Text × Value} (there : entry ∈ bindings.values)
      (hasHalf : entry.1.hasHalf = true)
  | otherName {name : Text}
      (there : name ∈ bindings.functions.map Prod.fst ++ bindings.macros.map Prod.fst
        ++ bindings.fragments.map Prod.fst) (hasHalf : name.hasHalf = true)

variable {session after : Session} {lines : List (Except Fault Output)} {entry : Text × Value}

/-- Lines are written up to the first that cannot be. -/
theorem writeLines_ends_iff :
    (∃ ending, (session.writeLines lines).next = .error ending) ↔ ∃ line ∈ lines, Fails line := by
  induction lines with
  | nil => simp [writeLines, answer]
  | cons line rest induction =>
      cases line with
      | error fault => simp [writeLines, Fails]
      | ok output => simpa [writeLines, not_fails_ok] using induction

/-- The session does not change while lines are written. -/
theorem writeLines_keeps (goesOn : (session.writeLines lines).next = .ok after) :
    after = session := by
  induction lines with
  | nil => exact (Except.ok.inj goesOn).symm
  | cons line rest induction =>
      cases line with
      | error fault => cases goesOn
      | ok output => exact induction goesOn

private theorem writtenLine_fails_iff {text : Text} :
    Fails (Output.writtenLine text) ↔ text.hasHalf = true := by
  unfold Output.writtenLine
  split
  case isTrue hasHalf => exact ⟨fun _ => hasHalf, fun _ => ⟨_, rfl⟩⟩
  case isFalse noHalf =>
    exact ⟨fun fails => absurd fails not_fails_ok, fun hasHalf => absurd hasHalf noHalf⟩

private theorem listed_fails_iff {value : Value} :
    Fails value.listed ↔ Stack.limit < value.depth ∨ value.HoldsLongInteger := by
  unfold Value.listed
  by_cases fits : value.depth ≤ Stack.limit
  · rw [Stack.within_of_le fits, Value.listing_fails_iff, or_iff_right (Nat.not_lt.mpr fits)]
  · rw [Stack.within_of_lt (Nat.not_le.mp fits)]
    exact ⟨fun _ => .inl (Nat.not_le.mp fits), fun _ => ⟨_, rfl⟩⟩

private theorem valueLine_fails_iff :
    Fails (valueLine entry) ↔
      entry.1.hasHalf = true ∨ Stack.limit < entry.2.depth ∨ entry.2.HoldsLongInteger := by
  unfold valueLine
  rw [← listed_fails_iff, fails_bind_iff]
  simp only [writtenLine_fails_iff, Text.hasHalf_append, Text.hasHalf_ofString, Bool.or_false]
  cases isListed : entry.2.listed with
  | error fault => simp [Fails]
  | ok shown => simp [not_fails_ok]

private theorem listNames_hasHalf_iff {α : Type} {sort : String} {table : Table α} :
    (∃ text ∈ listNames sort table, text.hasHalf = true) ↔
      ∃ name ∈ table.map Prod.fst, name.hasHalf = true := by
  unfold listNames
  split
  case isTrue isEmpty =>
    rw [List.isEmpty_iff.mp isEmpty]
    simp
  case isFalse =>
    simp only [List.mem_singleton, exists_eq_left, Text.hasHalf_append, Text.hasHalf_ofString,
      Bool.false_or]
    exact Text.hasHalf_join (Text.hasHalf_ofString _) _

/-- Some line that shows what is bound cannot be written just if the bindings cannot all be
shown. -/
theorem bindingLines_fails_iff :
    (∃ line ∈ bindingLines bindings, Fails line) ↔ Unshowable bindings := by
  have names : (∃ line ∈ (listNames "functions" bindings.functions ++
      listNames "macros" bindings.macros ++ listNames "asts" bindings.fragments).map
        Output.writtenLine, Fails line) ↔
      ∃ name ∈ bindings.functions.map Prod.fst ++ bindings.macros.map Prod.fst
        ++ bindings.fragments.map Prod.fst, name.hasHalf = true := by
    simp only [List.mem_map, exists_exists_and_eq_and, writtenLine_fails_iff, List.mem_append,
      or_and_right, exists_or, listNames_hasHalf_iff]
  have values : (∃ line ∈ bindings.values.map valueLine, Fails line) ↔
      ∃ entry ∈ bindings.values, entry.1.hasHalf = true ∨ Stack.limit < entry.2.depth ∨
        entry.2.HoldsLongInteger := by
    simp only [List.mem_map, exists_exists_and_eq_and, valueLine_fails_iff]
  have none : ¬ ∃ line ∈ (if bindings.values.isEmpty then [Output.writtenLine "(no values)"]
      else []), Fails line := by
    split <;> simp [writtenLine_fails_iff, Text.hasHalf_ofString]
  unfold bindingLines
  dsimp only
  generalize listNames "functions" bindings.functions ++ listNames "macros" bindings.macros
    ++ listNames "asts" bindings.fragments = rest at names ⊢
  simp only [List.mem_append, or_and_right, exists_or]
  rw [or_iff_right none, values, names]
  constructor
  · rintro (⟨entry, there, hasHalf | goesDown | holdsLong⟩ | ⟨name, there, hasHalf⟩)
    · exact .valueName there hasHalf
    · exact .deep there goesDown
    · exact .digits there holdsLong
    · exact .otherName there hasHalf
  · rintro (⟨there, goesDown⟩ | ⟨there, holdsLong⟩ | ⟨there, hasHalf⟩ | ⟨there, hasHalf⟩)
    · exact .inl ⟨_, there, .inr (.inl goesDown)⟩
    · exact .inl ⟨_, there, .inr (.inr holdsLong)⟩
    · exact .inl ⟨_, there, .inl hasHalf⟩
    · exact .inr ⟨_, there, hasHalf⟩

/-! ### What a command does -/

/-- What a command does that ends the session: it asks for a file at which the session ends, or
for bindings that cannot be shown. -/
inductive EndsAt (files : Files) (word argument : Text) (bindings : Bindings) : Prop where
  | load (isLoad : word.isString "/load" = true) (notEmpty : argument.isEmpty = false)
      (isThere : files.contains argument = .ok true) (unusable : Unusable files argument)
  | values (isValues : word.isString "/values" = true) (unshowable : Unshowable bindings)

/-- What the answer to a command does to the session.  It ends only at a file that asks for it
and at bindings that cannot be shown.  Otherwise the bindings stay as they are, unless they are
dropped, or a file is loaded and either reported as loaded or has a path that cannot be written. -/
structure Answers (files : Files) (word argument : Text) (session : Session) (reply : Reply) :
    Prop where
  ends_iff : (∃ ending, reply.next = .error ending) ↔
    EndsAt files word argument session.bindings
  keeps : ∀ after, reply.next = .ok after →
    after.bindings = session.bindings ∨
      (word.isString "/reset" = true ∧ after.bindings = {}) ∨
      (word.isString "/load" = true ∧
        reply.output = [.line (loadedText argument after.bindings)]) ∨
      (word.isString "/load" = true ∧ argument.hasHalf = true ∧ reply.output =
        [.errorLine ("Error: " ++ (loadedText argument after.bindings).encodingError)])

variable {word argument : Text}

/-- An answer after which the session goes on. -/
theorem answers_of_goesOn {output : List Output}
    (goesOn : ¬ EndsAt files word argument session.bindings)
    (keeps : after.bindings = session.bindings ∨
      (word.isString "/reset" = true ∧ after.bindings = {}) ∨
      (word.isString "/load" = true ∧
        output = [.line (loadedText argument after.bindings)]) ∨
      (word.isString "/load" = true ∧ argument.hasHalf = true ∧ output =
        [.errorLine ("Error: " ++ (loadedText argument after.bindings).encodingError)])) :
    Answers files word argument session (after.answer output) := by
  constructor
  · refine ⟨?_, fun ends => absurd ends goesOn⟩
    rintro ⟨ending, isError⟩
    cases isError
  · rintro _ ⟨⟩
    exact keeps

/-- The word of a command is read as that command only. -/
theorem CommandWord.ofWord?_eq_some_iff {command : CommandWord} :
    ofWord? word = some command ↔ word.isString command.word = true := by
  constructor
  · intro found
    have isWord := List.find?_some found
    exact isWord
  · intro isWord
    rw [eq_of_beq isWord]
    cases command <;> decide

/-- Only two commands end a session. -/
theorem not_endsAt_of_ofWord? (notLoad : CommandWord.ofWord? word ≠ some .load)
    (notValues : CommandWord.ofWord? word ≠ some .values) :
    ¬ EndsAt files word argument bindings
  | .load isLoad _ _ _ => notLoad (CommandWord.ofWord?_eq_some_iff.mpr isLoad)
  | .values isValues _ => notValues (CommandWord.ofWord?_eq_some_iff.mpr isValues)

/-- A command that loads a file ends the session only at that file. -/
private theorem endsAt_load_iff (isLoad : word.isString "/load" = true) :
    EndsAt files word argument bindings ↔ argument.isEmpty = false ∧
      ∃ ending, loadPath files argument bindings = .error ending ∧ ending.fileMessage? = none := by
  rw [loadPath_unreported_iff]
  constructor
  · rintro (⟨-, notEmpty, unusable⟩ | ⟨isValues, -⟩)
    · exact ⟨notEmpty, ‹_›, ‹_›⟩
    · rw [eq_of_beq isLoad] at isValues
      cases isValues
  · exact fun ⟨notEmpty, isThere, unusable⟩ => .load isLoad notEmpty isThere unusable

theorem load_answers (isLoad : word.isString "/load" = true) :
    Answers files word argument session (session.load files argument) := by
  unfold load
  split
  case isTrue isEmpty =>
    refine answers_of_goesOn ?_ (.inl rfl)
    rw [endsAt_load_iff isLoad, isEmpty]
    exact fun ⟨notEmpty, _⟩ => nomatch notEmpty
  case isFalse notEmpty =>
    have goesOn (reported : ∀ ending, loadPath files argument session.bindings = .error ending →
        ending.fileMessage? ≠ none) : ¬ EndsAt files word argument session.bindings := by
      rw [endsAt_load_iff isLoad]
      exact fun ⟨_, ending, failed, noMessage⟩ => reported ending failed noMessage
    split
    case h_1 isMissing => exact answers_of_goesOn (goesOn (by simp [isMissing])) (.inl rfl)
    case h_2 bindings isLoaded =>
      have goesOn := goesOn (by simp [isLoaded])
      dsimp only
      split
      case h_1 line isWritten =>
        have isLine : line = .line (loadedText argument bindings) := by
          unfold Output.writtenLine at isWritten
          split at isWritten <;> cases isWritten
          rfl
        exact answers_of_goesOn goesOn (.inr (.inr (.inl ⟨isLoad, by rw [isLine]⟩)))
      case h_2 fault unwritten =>
        have hasHalf := writtenLine_fails_iff.mp ⟨fault, unwritten⟩
        simp only [loadedText, Text.hasHalf_append, Text.hasHalf_ofString, Bool.false_or,
          Bool.or_false] at hasHalf
        exact answers_of_goesOn goesOn (.inr (.inr (.inr ⟨isLoad, hasHalf, rfl⟩)))
    case h_3 ending failed =>
      split
      case h_1 message isReported =>
        exact answers_of_goesOn (goesOn (by simp [failed, isReported])) (.inl rfl)
      case h_2 unreported =>
        constructor
        · exact ⟨fun _ => (endsAt_load_iff isLoad).mpr
            ⟨Bool.eq_false_iff.mpr notEmpty, ending, failed, unreported⟩, fun _ => ⟨ending, rfl⟩⟩
        · nofun

private theorem listBindings_answers (isValues : word.isString "/values" = true) :
    Answers files word argument session
      (session.writeLines (bindingLines session.bindings)) := by
  constructor
  · rw [writeLines_ends_iff, bindingLines_fails_iff]
    refine ⟨.values isValues, ?_⟩
    rintro (⟨isLoad, _, _, _⟩ | ⟨-, unshowable⟩)
    · rw [eq_of_beq isValues] at isLoad
      cases isLoad
    · exact unshowable
  · intro after goesOn
    rw [writeLines_keeps goesOn]
    exact .inl rfl

/-- A command does to the session what its word asks for. -/
theorem obey_answers {command : CommandWord} (isWord : CommandWord.ofWord? word = some command) :
    Answers files word argument session (session.obey files command argument) := by
  have goesOn (notLoad : command ≠ .load) (notValues : command ≠ .values) :
      ¬ EndsAt files word argument session.bindings :=
    not_endsAt_of_ofWord? (by rw [isWord]; exact fun same => notLoad (Option.some.inj same))
      (by rw [isWord]; exact fun same => notValues (Option.some.inj same))
  have written := CommandWord.ofWord?_eq_some_iff.mp isWord
  cases command with
  | clear => exact answers_of_goesOn (goesOn nofun nofun) (.inl rfl)
  | load => exact load_answers written
  | values => exact listBindings_answers written
  | traceback =>
      unfold obey switchTraces
      dsimp only
      split
      case h_1 => exact answers_of_goesOn (goesOn nofun nofun) (.inl rfl)
      case h_2 on _ =>
        refine answers_of_goesOn (goesOn nofun nofun) (.inl ?_)
        cases on <;> rfl
  | reset =>
      exact answers_of_goesOn (goesOn nofun nofun) (.inr (.inl ⟨written, rfl⟩))

/-- Every entry that is a command is answered, and the answer does to the session what the word
and the argument of the command ask for. -/
theorem handleCommand_answers {entry : Text}
    (isCommand : Entry.isCommand (entry.trim CodePoint.isBlank) = true)
    (isSplit : splitWord (entry.trim CodePoint.isBlank) = (word, argument)) :
    ∃ reply, session.handleCommand files entry = some reply ∧
      Answers files word argument session reply := by
  unfold handleCommand
  rw [if_neg (by simp [isCommand]), isSplit]
  dsimp only
  split
  case h_1 command isWord => exact ⟨_, rfl, obey_answers isWord⟩
  case h_2 notWord =>
    have goesOn : ¬ EndsAt files word argument session.bindings :=
      not_endsAt_of_ofWord? (by rw [notWord]; nofun) (by rw [notWord]; nofun)
    exact ⟨_, rfl, answers_of_goesOn goesOn (.inl rfl)⟩

/-- A document of values, one of a list, and bindings of a script. -/
def commandFiles : Files :=
  [("v.json", .text "\x7b\"one\": 1\x7d"), ("list.json", .text "[1]"), ("b.py", .bindings {})]

theorem loadValues_answers :
    ∃ reply, (Session.mk {} []).handleCommand commandFiles " /load  v.json " = some reply ∧
      Answers commandFiles "/load" "v.json" (Session.mk {} []) reply :=
  handleCommand_answers (by decide +kernel) (by decide +kernel)

/-- A document of a list ends the session instead of being reported. -/
theorem loadList_ends :
    (Session.mk {} []).handleCommand commandFiles "/load list.json" =
      some ⟨[], .error (.message "list.json: expected a JSON object of values")⟩ := by
  rfl

end Session

end ScriptFold
