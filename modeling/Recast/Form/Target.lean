-- The JSON form of target units and references.
import Recast.Form.Body
import Recast.Form.Problem
import Recast.Target

namespace Recast.Form

open Target

def targetKinds : List (String × TypeKind) :=
  [("class", .classType), ("interface", .interfaceType), ("enum", .enumType)]

/-! ## References -/

def writeTargetRef : TargetRef → Json
  | .type space name =>
    .tagged "type" (.object [("namespace", .ofOption .text space), ("name", .text name)])
  | .member owner name => .tagged "member" (.object [("owner", .text owner), ("name", .text name)])

def targetRef : Json.Reader TargetRef := fun room j =>
  match Json.Reader.choice room j with
  | some (.tagged tag payload room) =>
    match tag with
    | "type" =>
      Json.Reader.record ["namespace", "name"] (fun room f => do
        return .type (← f.nullable "namespace" .text room) (← f.required "name" .text room))
        room payload
    | "member" =>
      Json.Reader.record ["owner", "name"] (fun room f => do
        return .member (← f.required "owner" .text room) (← f.required "name" .text room))
        room payload
    | _ => none
  | _ => none

/-! ## Writing units -/

def writeTexts (ss : List String) : Json := .array (ss.map .text)

def writeTargetParam (p : Param) : Json :=
  .object [("name", .text p.name), ("ty", writeTypeRef p.ty)]

mutual

def writeTargetType : TypeDecl → Json
  | ⟨name, kind, mods, bases, constants, members⟩ =>
    .object [("name", .text name), ("kind", .text (tagOf targetKinds kind)),
      ("modifiers", writeTexts mods), ("bases", .array (writeTypeRefs bases)),
      ("constants", writeTexts constants), ("members", .array (writeTargetMembers members))]

def writeTargetMember : Member → Json
  | .field name ty mods init =>
    .tagged "field" (.object [("name", .text name), ("ty", writeTypeRef ty),
      ("modifiers", writeTexts mods), ("init", .ofOption writeExpr init)])
  | .method name params returnType mods body =>
    .tagged "method" (.object [("name", .text name),
      ("params", .array (params.map writeTargetParam)),
      ("return_type", .ofOption writeTypeRef returnType), ("modifiers", writeTexts mods),
      ("body", .ofOption (fun body => .array (writeStmts body)) body)])
  | .constructor name params mods body =>
    .tagged "constructor" (.object [("name", .text name),
      ("params", .array (params.map writeTargetParam)), ("modifiers", writeTexts mods),
      ("body", .array (writeStmts body))])
  | .type d => .tagged "type" (writeTargetType d)
  | .placeholder note => .tagged "placeholder" (.text note)

def writeTargetMembers : List Member → List Json
  | [] => []
  | m :: ms => writeTargetMember m :: writeTargetMembers ms

end

def writeTargetUnit (u : TargetUnit) : Json :=
  .object [("path", .text u.path.text), ("namespace", .ofOption .text u.space),
    ("usings", writeTexts u.usings.names), ("types", .array (u.types.map writeTargetType)),
    ("suppressed", .bool u.suppressed)]

/-! ## Reading units -/

def targetParam : Json.Reader Param :=
  .record ["name", "ty"] fun room f => do
    return ⟨← f.required "name" .text room, ← f.required "ty" typeRef room⟩

/-- A member whose nested types are read by `nested`. -/
def targetMemberWith (nested : Json.Reader TypeDecl) : Json.Reader Member := fun room j =>
  match Json.Reader.choice room j with
  | some (.tagged tag payload room) =>
    match tag with
    | "field" =>
      Json.Reader.record ["name", "ty", "modifiers", "init"] (fun room f => do
        return .field (← f.required "name" .text room) (← f.required "ty" typeRef room)
          (← f.required "modifiers" (.list .text) room) (← f.nullable "init" expr room))
        room payload
    | "method" =>
      Json.Reader.record ["name", "params", "return_type", "modifiers", "body"] (fun room f => do
        return .method (← f.required "name" .text room)
          (← f.required "params" (.list targetParam) room)
          (← f.nullable "return_type" typeRef room)
          (← f.required "modifiers" (.list .text) room)
          (← f.nullable "body" (.list stmt) room))
        room payload
    | "constructor" =>
      Json.Reader.record ["name", "params", "modifiers", "body"] (fun room f => do
        return .constructor (← f.required "name" .text room)
          (← f.required "params" (.list targetParam) room)
          (← f.required "modifiers" (.list .text) room)
          (← f.required "body" (.list stmt) room))
        room payload
    | "type" => (nested room payload).map .type
    | "placeholder" => (Json.Reader.text room payload).map .placeholder
    | _ => none
  | _ => none

def targetTypeWith (nested : Json.Reader TypeDecl) : Json.Reader TypeDecl :=
  .record ["name", "kind", "modifiers", "bases", "constants", "members"] fun room f => do
    return {
      name := ← f.required "name" .text room
      kind := ← f.required "kind" (.oneOf targetKinds) room
      modifiers := ← f.required "modifiers" (.list .text) room
      bases := ← f.required "bases" (.list typeRef) room
      constants := ← f.required "constants" (.list .text) room
      members := ← f.required "members" (.list (targetMemberWith nested)) room }

def targetTypeDeep : Nat → Json.Reader TypeDecl
  | 0 => fun _ _ => none
  | depth + 1 => targetTypeWith (targetTypeDeep depth)

/-- Each nested type takes room, so the room bounds the nesting. -/
def targetType : Json.Reader TypeDecl := fun room j => targetTypeDeep room room j

def targetUnit : Json.Reader TargetUnit :=
  .record ["path", "namespace", "usings", "types", "suppressed"] fun room f => do
    return {
      path := ← f.required "path" path room
      space := ← f.nullable "namespace" .text room
      usings := .ofList (← f.required "usings" (.list .text) room)
      types := ← f.required "types" (.list targetType) room
      suppressed := ← f.required "suppressed" .bool room }

end Recast.Form
