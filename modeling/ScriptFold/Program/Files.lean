import ScriptFold.Program.Setting

/-!
# Files

A path is followed step by step through the directories.  Texts are read with every
line end as a line feed.  Values come from documents, and bindings from files with the
suffix of bindings.
-/

namespace ScriptFold

/-- A text with every line end as a line feed. -/
def Text.normalizeLineEnds : Text → Text
  | .char '\r' :: .char '\n' :: rest => .char '\n' :: normalizeLineEnds rest
  | .char '\r' :: rest => .char '\n' :: normalizeLineEnds rest
  | point :: rest => point :: normalizeLineEnds rest
  | [] => []

namespace Files

/-- What stands at a place: an entry, or a directory that holds one. -/
def at? (files : Files) (location : Location) : Option FileContent :=
  match files.find? fun file => Location.ofPath file.1 == location with
  | some file => some file.2
  | none =>
      let isDirectory := location.names.isEmpty
        || files.any fun file => (Location.ofPath file.1).liesIn location
      if isDirectory then some .directory else none

/-- What a path leads to: a place and what stands there.  Nothing stands there if the
path ends in a new name of a directory. -/
structure Found where
  location : Location
  content : Option FileContent

def follow (files : Files) (location : Location) : List Text → Except PathError Found
  | [] => .ok ⟨location, some .directory⟩
  | step :: rest =>
      if Path.isUpward step then follow files location.up rest
      else if Path.greatestNameSize < Path.size step then .error .tooLong
      else
        let next := location.enter step
        match files.at? next with
        | some .directory => follow files next rest
        | some content =>
            if rest.isEmpty then .ok ⟨next, some content⟩ else .error .notDirectory
        | none => if rest.isEmpty then .ok ⟨next, none⟩ else .error .missing

/-- Follow a path. -/
def resolve (files : Files) (path : Text) : Except PathError Found :=
  if path.any Path.isUnnamable then .error .notEncodable
  else if path.any (·.is '\x00') then .error .badName
  else if Path.greatestSize < Path.size (Path.normalize path) then .error .tooLong
  else files.follow (Path.start path) (Path.steps path)

/-- Whether a path leads to something.  That of a path that is too long is not known. -/
def contains (files : Files) (path : Text) : Except Ending Bool :=
  match files.resolve path with
  | .ok found => .ok found.content.isSome
  | .error .tooLong => .error (.file .tooLong path)
  | .error _ => .ok false

/-- The place of a path that is to be written to. -/
def locate (files : Files) (path : Text) : Except Ending Location :=
  match files.resolve path with
  | .error cause => .error (.file cause path)
  | .ok ⟨_, some .directory⟩ => .error (.file .isDirectory path)
  | .ok found => .ok found.location

/-- The content of the file at a path. -/
def read (files : Files) (path : Text) : Except Ending FileContent :=
  match files.resolve path with
  | .error cause => .error (.file cause path)
  | .ok ⟨_, none⟩ => .error (.file .missing path)
  | .ok ⟨_, some .directory⟩ => .error (.file .isDirectory path)
  | .ok ⟨_, some content⟩ => .ok content

/-- The text at a path.  The bindings of a file are no text. -/
def readText (files : Files) (path : Text) : Except Ending Text := do
  match ← files.read path with
  | .text text => return text.normalizeLineEnds
  | _ => return []

def readValues (files : Files) (path : Text) : Except Ending (Table Value) := do
  let document ← files.readText path
  match Document.read document with
  | .error .tooDeep => throw (.failure (.fault .stackExhausted))
  | .error cause => throw (.document document cause)
  | .ok (.record entries) =>
      return entries.filterMap fun entry =>
        match entry.1 with
        | .str name => some (name, entry.2)
        | _ => none
  | .ok _ => throw (.message (path ++ Text.ofString ": expected a JSON object of values"))

/-- The suffix of files that hold bindings. -/
def bindingsSuffix : Text := ".py"

/-- The suffix of bindings that a machine has prepared. -/
def preparedSuffix : Text := ".pyc"

/-- The suffix of bindings that are machine code. -/
def librarySuffix : Text := ".so"

/-- A path without the slashes at its end, unless it starts at the top. -/
def bindingsName (path : Text) : Text :=
  if Path.isAbsolute path then path else Text.trimEnd (·.is '/') path

/-- The bindings of a file.  Its suffix says what form they have. -/
def readBindings (files : Files) (path : Text) : Except Ending Bindings := do
  let name := bindingsName path
  if name.endsWith librarySuffix then throw .unloadable
  else if name.endsWith bindingsSuffix then
    match ← files.read path with
    | .bindings bindings => return bindings
    | _ => return {}
  else if name.endsWith preparedSuffix then
    let _ ← files.read path
    throw .unloadable
  else throw (.message (Text.ofString "Cannot load bindings from " ++ path))

end Files

namespace Bindings

def addValues (values : Table Value) (bindings : Bindings) : Bindings :=
  { bindings with values := bindings.values.insertAll values }

def add (bindings new : Bindings) : Bindings :=
  ⟨bindings.values.insertAll new.values, bindings.functions.insertAll new.functions,
    bindings.macros.insertAll new.macros, bindings.fragments.insertAll new.fragments⟩

end Bindings

end ScriptFold
