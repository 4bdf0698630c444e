-- The program on the machine it runs on.
import Recast.Command.Basic

namespace Recast

/-- The program keeps its markers and the list of written files. -/
abbrev Program := StateT MarkerMap (StateT Written IO)

/-- The cause of a failure, by the number that the machine gives it. -/
def failureOfCode (code : UInt32) (other : String) : IoFailure :=
  match code.toNat with
  | 2 => .notFound
  | 17 => .alreadyThere
  | 20 => .notADirectory
  | 21 => .isADirectory
  | 36 => .nameTooLong
  | _ => .refused other

def failureOf (e : IO.Error) : IoFailure :=
  match e with
  | .noFileOrDirectory _ _ _ => .notFound
  | .alreadyExists _ code details => failureOfCode code details
  | .inappropriateType _ code details => failureOfCode code details
  | .invalidArgument _ code details => failureOfCode code details
  | .otherError code details => failureOfCode code details
  | e => .refused (toString e)

/-- An action on the machine. A path with a zero byte leads nowhere. -/
def onMachine (p : Path) (action : IO α) : Attempt Program IoFailure α :=
  if Text.hasChar '\x00' p.text then throw .nulInName
  else ExceptT.mk do
    match ← (action.toBaseIO : BaseIO _) with
    | .ok a => return .ok a
    | .error e => return .error (failureOf e)

def machineDisk : Disk Program where
  read p := do
    match String.fromUTF8? (← onMachine p (IO.FS.readBinFile p.text)) with
    | some s => return s
    | none => throw .notText
  present p := do
    match ← (onMachine p (IO.FS.Handle.mk p.text .read)).run with
    | .ok _ => return true
    | .error _ => return false
  write p content := onMachine p (IO.FS.writeFile p.text content)
  createDirs p := if p.isEmpty then pure () else onMachine p (IO.FS.createDirAll p.text)

def machineStream (stream : IO.FS.Stream) : TextStream Program where
  write s := onMachine ⟨""⟩ (stream.putStr s)
  flush := onMachine ⟨""⟩ stream.flush

/-- An absent or empty value names no directory. -/
def homeOf (value : Option String) : Option Path :=
  match value with
  | some s => if s.isEmpty then none else some ⟨s⟩
  | none => none

end Recast

open Recast in
def main (args : List String) : IO UInt32 := do
  let world : Command.World Program := {
    disk := machineDisk
    out := machineStream (← IO.getStdout)
    err := machineStream (← IO.getStderr)
    surroundings :=
      ⟨(← IO.getEnv "XDG_CONFIG_HOME").map Recast.Path.mk, homeOf (← IO.getEnv "HOME")⟩
    root := ⟨(← IO.currentDir).toString⟩
    wording := ⟨fun _ => "no source unit", fun _ => "no markers", fun _ => "no settings"⟩ }
  let ((code, _), _) ← ((Command.execute world args).run .empty).run ⟨[]⟩
  return code
