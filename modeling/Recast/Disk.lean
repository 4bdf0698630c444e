-- A disk with text files: what can be asked of it, and how that can fail.
-- The actions run in any monad, so that one program works on the disk of
-- the machine and on a tree of files in memory.
import Recast.Path

namespace Recast

/-- Why a file could not be read or written. -/
inductive IoFailure
  | notFound
  | notADirectory
  | isADirectory
  | alreadyThere
  | nameTooLong
  | nulInName
  /-- The bytes of the file are not the bytes of a text. -/
  | notText
  /-- Any other cause, in its own words. -/
  | refused (reason : String)
deriving Repr, DecidableEq, Inhabited

def IoFailure.message : IoFailure → String
  | .notFound => "No such file or directory (os error 2)"
  | .notADirectory => "Not a directory (os error 20)"
  | .isADirectory => "Is a directory (os error 21)"
  | .alreadyThere => "File exists (os error 17)"
  | .nameTooLong => "File name too long (os error 36)"
  | .nulInName => "file name contained an unexpected NUL byte"
  | .notText => "stream did not contain valid UTF-8"
  | .refused reason => reason

/-- An action that may fail for a cause of type `ε`. -/
abbrev Attempt (m : Type → Type) (ε α : Type) := ExceptT ε m α

/-- The files that a program reads and writes. -/
structure Disk (m : Type → Type) where
  /-- The whole text of a file. -/
  read : Path → Attempt m IoFailure String
  /-- Whether there is a file or a directory. -/
  present : Path → m Bool
  /-- Puts a text in the place of whatever a file holds. -/
  write : Path → String → Attempt m IoFailure Unit
  /-- Makes a directory, and those around it that are missing. -/
  createDirs : Path → Attempt m IoFailure Unit

/-- A place that texts are written to, one after the other. -/
structure TextStream (m : Type → Type) where
  write : String → Attempt m IoFailure Unit
  flush : Attempt m IoFailure Unit

/-- Writes a text. Of an empty text there is nothing to write. -/
def TextStream.put [Monad m] (stream : TextStream m) (s : String) : Attempt m IoFailure Unit :=
  if s.isEmpty then pure () else stream.write s

/-- Writes texts until one is refused. -/
def TextStream.putAll [Monad m] (stream : TextStream m) :
    List String → Attempt m IoFailure Unit
  | [] => pure ()
  | s :: rest => do
    stream.put s
    stream.putAll rest

end Recast
