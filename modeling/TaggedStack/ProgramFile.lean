import TaggedStack.HexText
import TaggedStack.Text.Utf8
import TaggedStack.Wire

/-!
# Program files

A file whose name ends in `.hex` holds hexadecimal text in UTF-8; any other file holds the
bytes of a program. Only what is found under a path is looked at here, so reading is a
function of the path and of what the file system says about it.

* `ProgramFile.plainPath`: a path without empty and `.` components.
* `ProgramFile.suffix`: the part of a path's last component that tells its format.
* `ProgramFile.read`: the words of a file.
-/

namespace TaggedStack.ProgramFile

/-- What the system says about a path under which there is no readable file: its number for the
obstacle, and its words. -/
structure Obstacle where
  number : Nat
  text : String
  deriving DecidableEq, Repr

namespace Obstacle

/-- There is nothing under the path. -/
def missing : Obstacle := ⟨2, "No such file or directory"⟩

def denied : Obstacle := ⟨13, "Permission denied"⟩

def notDirectory : Obstacle := ⟨20, "Not a directory"⟩

def isDirectory : Obstacle := ⟨21, "Is a directory"⟩

def nameTooLong : Obstacle := ⟨36, "File name too long"⟩

def linkLoop : Obstacle := ⟨40, "Too many levels of symbolic links"⟩

/-- The obstacle of a number. The usual ones have words of their own, whatever the given ones. -/
def ofNumber (number : Nat) (text : String) : Obstacle :=
  let usual := [missing, denied, notDirectory, isDirectory, nameTooLong, linkLoop]
  (usual.find? (·.number = number)).getD ⟨number, text⟩

end Obstacle

/-- Why a file has no words. -/
inductive ReadError
  | obstacle (cause : Obstacle) (path : String)
  | nullCharacter
  | encoding (cause : Utf8.DecodeError)
  | line (cause : HexText.LineError)
  | truncated (cause : Wire.Truncated)
  deriving DecidableEq, Repr

/-- The wording of a read error. -/
def ReadError.message : ReadError → String
  | obstacle cause path => s!"[Errno {cause.number}] {cause.text}: {quotedString path}"
  | nullCharacter => "embedded null byte"
  | encoding cause => cause.message
  | line cause => cause.message
  | truncated cause => cause.message

/-- The components of a path that say something. -/
def components (path : String) : List String :=
  (path.splitOn "/").filter fun part ↦ part ≠ "" ∧ part ≠ "."

/-- The slashes an absolute path keeps: two if it has exactly two, else one. -/
def rootOf (path : String) : String :=
  match path.toList.takeWhile (· = '/') with
  | [] => ""
  | [_, _] => "//"
  | _ => "/"

/-- A path without empty and `.` components; the empty path is the current directory. -/
def plainPath (path : String) : String :=
  let plain := rootOf path ++ "/".intercalate (components path)
  if plain = "" then "." else plain

/-- The part of a path's last component from its last dot on; none if that dot is the first or
the last character. -/
def suffix (path : String) : List Char :=
  let name := ((components path).getLast?.getD "").toList
  let tail := (name.reverse.takeWhile (· ≠ '.')).reverse
  if tail ≠ [] ∧ tail.length + 1 < name.length then '.' :: tail else []

/-- Whether a path names a file of hexadecimal text. -/
def isHexPath (path : String) : Bool := suffix path = ".hex".toList

/-- The words held by the bytes of a file. -/
def decode (hex : Bool) (bytes : List UInt8) : Except ReadError (List Int) :=
  if hex then
    match Utf8.decode bytes with
    | .ok text => (HexText.parse (text.map .ofChar)).mapError .line
    | .error e => .error (.encoding e)
  else (Wire.read bytes).mapError .truncated

/-- The words of a file, given what is found under its plain path. -/
def read (path : String) (found : Except Obstacle (List UInt8)) : Except ReadError (List Int) :=
  if path.contains '\x00' then .error .nullCharacter
  else
    match found with
    | .ok bytes => decode (isHexPath path) bytes
    | .error cause => .error (.obstacle cause (plainPath path))

end TaggedStack.ProgramFile
