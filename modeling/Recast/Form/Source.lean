-- The JSON form of source units.
import Recast.Form.Body
import Recast.Form.Problem
import Recast.Source

namespace Recast.Form

open Source

def sourceKinds : List (String × TypeKind) :=
  [("class", .classType), ("interface", .interfaceType), ("enum", .enumType),
    ("annotation", .annotationType)]

def modifiers : List (String × Modifier) :=
  [("public", .pub), ("protected", .prot), ("private", .priv), ("static", .static),
    ("final", .final), ("abstract", .abstract), ("native", .native),
    ("synchronized", .synchronized)]

/-! ## Writing -/

def writeModifiers (ms : List Modifier) : Json := .array (ms.map fun m => .text (tagOf modifiers m))

def writeSourceParam (p : Param) : Json :=
  .object [("name", .text p.name), ("ty", writeTypeRef p.ty)]

def writeField (d : FieldDecl) : Json :=
  .object [("name", .text d.name), ("ty", writeTypeRef d.ty),
    ("modifiers", writeModifiers d.modifiers), ("init", .ofOption writeExpr d.init),
    ("span", writeSpan d.span)]

def writeMethod (d : MethodDecl) : Json :=
  .object [("name", .text d.name), ("params", .array (d.params.map writeSourceParam)),
    ("return_type", .ofOption writeTypeRef d.returnType),
    ("modifiers", writeModifiers d.modifiers),
    ("body", .ofOption (fun body => .array (writeStmts body)) d.body),
    ("span", writeSpan d.span)]

mutual

def writeSourceType : TypeDecl → Json
  | ⟨name, kind, mods, base, interfaces, constants, members, span⟩ =>
    .object [("name", .text name), ("kind", .text (tagOf sourceKinds kind)),
      ("modifiers", writeModifiers mods), ("extends", .ofOption writeTypeRef base),
      ("implements", .array (writeTypeRefs interfaces)),
      ("constants", .array (constants.map .text)), ("members", .array (writeSourceMembers members)),
      ("span", writeSpan span)]

def writeSourceMember : Member → Json
  | .field d => .tagged "field" (writeField d)
  | .method d => .tagged "method" (writeMethod d)
  | .constructor d => .tagged "constructor" (writeMethod d)
  | .type d => .tagged "type" (writeSourceType d)

def writeSourceMembers : List Member → List Json
  | [] => []
  | m :: ms => writeSourceMember m :: writeSourceMembers ms

end

def writeSourceUnit (u : SourceUnit) : Json :=
  .object [("path", .text u.path.text), ("package", .ofOption .text u.package),
    ("imports", .array (u.imports.map .text)), ("types", .array (u.types.map writeSourceType)),
    ("problems", .array (u.problems.map writeProblem))]

/-! ## Reading -/

def sourceParam : Json.Reader Param :=
  .record ["name", "ty"] fun room f => do
    return ⟨← f.required "name" .text room, ← f.required "ty" typeRef room⟩

def field : Json.Reader FieldDecl :=
  .record ["name", "ty", "modifiers", "init", "span"] fun room f => do
    return {
      name := ← f.required "name" .text room
      ty := ← f.required "ty" typeRef room
      modifiers := ← f.defaulted "modifiers" (.list (.oneOf modifiers)) room []
      init := ← f.optional "init" expr room
      span := ← f.defaulted "span" span room Span.none }

def method : Json.Reader MethodDecl :=
  .record ["name", "params", "return_type", "modifiers", "body", "span"] fun room f => do
    return {
      name := ← f.required "name" .text room
      params := ← f.defaulted "params" (.list sourceParam) room []
      returnType := ← f.optional "return_type" typeRef room
      modifiers := ← f.defaulted "modifiers" (.list (.oneOf modifiers)) room []
      body := ← f.optional "body" (.list stmt) room
      span := ← f.defaulted "span" span room Span.none }

/-- A member whose nested types are read by `nested`. -/
def sourceMemberWith (nested : Json.Reader TypeDecl) : Json.Reader Member := fun room j =>
  match Json.Reader.choice room j with
  | some (.tagged tag payload room) =>
    match tag with
    | "field" => (field room payload).map .field
    | "method" => (method room payload).map .method
    | "constructor" => (method room payload).map .constructor
    | "type" => (nested room payload).map .type
    | _ => none
  | _ => none

def sourceTypeWith (nested : Json.Reader TypeDecl) : Json.Reader TypeDecl :=
  .record ["name", "kind", "modifiers", "extends", "implements", "constants", "members", "span"]
    fun room f => do
      return {
        name := ← f.required "name" .text room
        kind := ← f.required "kind" (.oneOf sourceKinds) room
        modifiers := ← f.defaulted "modifiers" (.list (.oneOf modifiers)) room []
        base := ← f.optional "extends" typeRef room
        interfaces := ← f.defaulted "implements" (.list typeRef) room []
        constants := ← f.defaulted "constants" (.list .text) room []
        members := ← f.defaulted "members" (.list (sourceMemberWith nested)) room []
        span := ← f.defaulted "span" span room Span.none }

def sourceTypeDeep : Nat → Json.Reader TypeDecl
  | 0 => fun _ _ => none
  | depth + 1 => sourceTypeWith (sourceTypeDeep depth)

/-- Each nested type takes room, so the room bounds the nesting. -/
def sourceType : Json.Reader TypeDecl := fun room j => sourceTypeDeep room room j

def sourceUnit : Json.Reader SourceUnit :=
  .record ["path", "package", "imports", "types", "problems"] fun room f => do
    return {
      path := ← f.defaulted "path" path room ⟨""⟩
      package := ← f.optional "package" .text room
      imports := ← f.defaulted "imports" (.list .text) room []
      types := ← f.defaulted "types" (.list sourceType) room []
      problems := ← f.defaulted "problems" (.list problem) room [] }

end Recast.Form
