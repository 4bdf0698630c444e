-- What recasting notes on its way: the namespaces that the unit needs,
-- and the constructs that the target language does not have.
import Recast.Bindings
import Recast.Builtin
import Recast.Span

namespace Recast

/-! ## Constructs that are lost -/

/-- A construct of the source that has no counterpart. -/
inductive Loss
  | nativeMethod (name : String)
  | synchronizedMethod (name : String)
  | label (name : String)
  | anonymousClass (base : String)
deriving Repr, DecidableEq, Inhabited

namespace Loss

/-- What the warning tells. -/
def message : Loss → String
  | .nativeMethod name => s!"native method '{name}' cannot be translated"
  | .synchronizedMethod name => s!"synchronized modifier on '{name}' was dropped"
  | .label name => s!"labeled statement '{name}' has no equivalent, label dropped"
  | .anonymousClass base => s!"anonymous class of '{base}' is not supported"

/-- The note of the placeholder that stands for the construct. -/
def note : Loss → String
  | .nativeMethod name => s!"native method {name}"
  | .synchronizedMethod _ => "synchronized method"
  | .label name => s!"label {name}"
  | .anonymousClass base => s!"anonymous {base}"

end Loss

/-- A lost construct and its place. -/
structure Warning where
  span : Span
  loss : Loss
deriving Repr, DecidableEq, Inhabited

def Warning.message (w : Warning) : String := w.loss.message

namespace Recasting

/-! ## Notes -/

structure Notes where
  usings : Text.NameSet
  /-- The warnings, oldest first. -/
  warnings : List Warning
deriving Repr, DecidableEq, Inhabited

def Notes.empty : Notes := ⟨.empty, []⟩

/-- A step of recasting. -/
abbrev Noting := StateM Notes

/-- Notes that a construct is lost, as `WarningHandler` is told. -/
def warn (span : Span) (loss : Loss) : Noting Unit :=
  modify fun notes => { notes with warnings := notes.warnings ++ [⟨span, loss⟩] }

def use (space : String) : Noting Unit :=
  modify fun notes => { notes with usings := notes.usings.insert space }

/-! ## Names -/

/-- What names of one unit are read against. -/
structure Scope where
  bindings : Bindings
  /-- The namespace of the unit itself. -/
  space : Option String
deriving Repr, DecidableEq, Inhabited

/-- What a type identity refers to: what it is bound to, or else a type
of the platform. -/
def Scope.type? (scope : Scope) (identity : String) : Option TargetRef :=
  (scope.bindings.find? identity).or (Builtin.type? identity)

/-- The printed name of a type (`type_name`). The namespace it is in is noted,
unless it is the unit's own. A type that nobody knows keeps its simple name. -/
def typeName (scope : Scope) (identity : String) : Noting String :=
  match scope.type? identity with
  | none => pure (simpleName identity)
  | some ref => do
    match ref.space with
    | none => pure ()
    | some space => if scope.space = some space then pure () else use space
    return ref.name

/-- The printed name of the method with a dotted identity (`member_name`): what
it is bound to, a method of the platform, or else its simple name in pascal
case. -/
def Scope.memberName (scope : Scope) (identity : String) : String :=
  match scope.bindings.find? (memberKeyOfBinding identity) with
  | some ref => ref.name
  | none => (Builtin.member? identity).getD (pascalCase (simpleName identity))

end Recasting

end Recast
