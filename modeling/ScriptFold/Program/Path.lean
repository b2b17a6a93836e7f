import ScriptFold.Text.Quoted

/-!
# Paths

A path is a text of steps between slashes.  Empty steps and steps that stay in place
lead nowhere, and the step `..` leads one directory up.  A path that begins with a slash
starts at the top of all directories, any other one at the working directory.
-/

namespace ScriptFold

/-- Why a path cannot be used. -/
inductive PathError where
  /-- Nothing stands there. -/
  | missing
  /-- A directory stands where a file is wanted. -/
  | isDirectory
  /-- A step leads on from a file. -/
  | notDirectory
  /-- A name, or the path as a whole, is longer than names may be. -/
  | tooLong
  /-- A name holds the character that ends names. -/
  | badName
  /-- A name holds a half that stands for no byte. -/
  | notEncodable
  deriving DecidableEq, Repr

/-- The directories from which the names of a place are counted. -/
inductive Origin where
  /-- So many directories above the working directory, which is itself at level zero. -/
  | above (levels : Nat)
  /-- The top of all directories. -/
  | top
  deriving DecidableEq

/-- A place among the files: the names that lead there from an origin. -/
structure Location where
  origin : Origin
  names : List Text
  deriving DecidableEq

namespace Path

/-- The steps of a path that lead somewhere. -/
def steps (path : Text) : List Text :=
  (path.splitAt '/').filter fun step => !step.isOneOf ["", "."]

/-- Whether a path starts at the top of all directories. -/
def isAbsolute (path : Text) : Bool :=
  path.head?.any (·.is '/')

/-- The slashes at the start of a path.  Two of them are kept; more are one. -/
def root (path : Text) : Text :=
  let slashes := path.takeWhile (·.is '/')
  if slashes.length = 2 then slashes else slashes.take 1

/-- A path without the steps that lead nowhere. -/
def normalize (path : Text) : Text :=
  match root path ++ Text.join [.char '/'] (steps path) with
  | [] => "."
  | path => path

/-- The last step of a path. -/
def fileName (path : Text) : Text :=
  (steps path).getLastD []

/-- A path with all its starts that end where a step ends. -/
def stages (path : Text) : List Text :=
  (List.range (steps path).length).map fun count =>
    root path ++ Text.join [.char '/'] ((steps path).take (count + 1))

/-- Whether a step leads one directory up. -/
def isUpward (step : Text) : Bool :=
  step.isString ".."

/-- The number of bytes that a text takes in a file system. -/
def size (text : Text) : Nat :=
  text.toString.utf8ByteSize

/-- Whether a code point stands for no bytes in the name of a file: of the halves, only those
from U+DC80 to U+DCFF stand for bytes that are no text. -/
def isUnnamable : CodePoint → Bool
  | .char _ => false
  | .half n => !(0x480 ≤ n.val && n.val < 0x500)

/-- The longest name of a file, in bytes. -/
def greatestNameSize : Nat := 255

/-- The longest path, in bytes. -/
def greatestSize : Nat := 4095

def start (path : Text) : Location :=
  ⟨if isAbsolute path then .top else .above 0, []⟩

end Path

namespace Location

/-- The directory around a place; the top has none and stays. -/
def up (location : Location) : Location :=
  match location.names, location.origin with
  | [], .above levels => ⟨.above (levels + 1), []⟩
  | [], .top => location
  | names, origin => ⟨origin, names.dropLast⟩

/-- The place of a name in a directory. -/
def enter (location : Location) (name : Text) : Location :=
  ⟨location.origin, location.names ++ [name]⟩

/-- The place that a step leads to. -/
def follow (location : Location) (step : Text) : Location :=
  if Path.isUpward step then location.up else location.enter step

/-- The place that a path leads to if all its steps can be taken. -/
def ofPath (path : Text) : Location :=
  (Path.steps path).foldl follow (Path.start path)

/-- Whether a place lies in the directory at another place, at any depth. -/
def liesIn (inner outer : Location) : Bool :=
  inner.origin == outer.origin && outer.names.isPrefixOf inner.names.dropLast

/-- Whether a place lies in the working directory. -/
def isLocal (location : Location) : Bool :=
  location.origin == .above 0

def toPath (location : Location) : Text :=
  let names := Text.join [.char '/'] location.names
  match location.origin with
  | .top => .char '/' :: names
  | .above levels => (List.replicate levels (Text.ofString "../")).flatten ++ names

end Location

def PathError.message (path : Text) : PathError → Text
  | .missing => "[Errno 2] No such file or directory: " ++ path.quoted
  | .isDirectory => "[Errno 21] Is a directory: " ++ path.quoted
  | .notDirectory => "[Errno 20] Not a directory: " ++ path.quoted
  | .tooLong => "[Errno 36] File name too long: " ++ path.quoted
  | .badName => "embedded null byte"
  | .notEncodable => path.encodingError

end ScriptFold
