-- Declarations and whole units of the target language, as `CSharpWriter`
-- prints them.
import Recast.CSharp.Stmt
import Recast.Target

namespace Recast.CSharp

open Target

/-! ## Parts of declarations -/

/-- The modifiers, each with a blank behind it. -/
def modifierTexts (modifiers : List String) : String := String.join (modifiers.map (· ++ " "))

def paramText (p : Param) : String := typeText p.ty ++ " " ++ p.name

/-- Parameters in their brackets (`write_params`). -/
def paramTexts (params : List Param) : String :=
  "(" ++ Text.joinWith ", " (params.map paramText) ++ ")"

def kindText : TypeKind → String
  | .classType => "class"
  | .interfaceType => "interface"
  | .enumType => "enum"

/-- The constants of an enumeration, each on its own line. -/
def constantTexts (level : Nat) : List String → String
  | [] => ""
  | [c] => indent level ++ c ++ "\n"
  | c :: cs => indent level ++ c ++ ",\n" ++ constantTexts level cs

def basesText (bases : List TypeRef) : String :=
  if bases.isEmpty then "" else " : " ++ typeTexts bases

def isField : Member → Bool
  | .field .. => true
  | _ => false

/-- The empty line before a member that follows something else. Fields
that follow each other stand together. -/
def gap (afterField : Option Bool) (m : Member) : String :=
  match afterField with
  | none => ""
  | some afterField => if afterField && isField m then "" else "\n"

/-! ## Types and members -/

mutual

/-- A type on lines of its own (`write_type`). -/
def typeDeclText (level : Nat) : TypeDecl → String
  | ⟨name, kind, modifiers, bases, constants, members⟩ =>
    indent level ++ modifierTexts modifiers ++ kindText kind ++ " " ++ name ++ basesText bases ++
      "\n" ++ indent level ++ "\x7b\n" ++ constantTexts (level + 1) constants ++
      memberTexts (level + 1) (if constants.isEmpty then none else some false) members ++
      indent level ++ "\x7d\n"

/-- A member on lines of its own (`write_member`). -/
def memberText (level : Nat) : Member → String
  | .field name ty modifiers init =>
    indent level ++ modifierTexts modifiers ++ typeText ty ++ " " ++ name ++ initText init ++ ";\n"
  | .method name params returnType modifiers body =>
    indent level ++ modifierTexts modifiers ++
      (match returnType with
        | some ty => typeText ty
        | none => "void") ++
      " " ++ name ++ paramTexts params ++
      (match body with
        | some ss => "\n" ++ bodyText level ss
        | none => ";\n")
  | .constructor name params modifiers body =>
    indent level ++ modifierTexts modifiers ++ name ++ paramTexts params ++ "\n" ++
      bodyText level body
  | .type decl => typeDeclText level decl
  | .placeholder note => indent level ++ untranslated note

/-- The members with the empty lines between them. `afterField` says
whether something stands before them, and whether that is a field. -/
def memberTexts (level : Nat) (afterField : Option Bool) : List Member → String
  | [] => ""
  | m :: ms => gap afterField m ++ memberText level m ++ memberTexts level (some (isField m)) ms

end

/-- Types with an empty line between each two (`write_types`). -/
def typeDeclTexts (level : Nat) : List TypeDecl → String
  | [] => ""
  | [t] => typeDeclText level t
  | t :: ts => typeDeclText level t ++ "\n" ++ typeDeclTexts level ts

/-! ## Units -/

def usingTexts (usings : Text.NameSet) : String :=
  String.join (usings.names.map fun name => "using " ++ name ++ ";\n")

/-- The usings, and then the types, in their namespace if there is one
(`write_unit`). -/
def unitText (u : TargetUnit) : String :=
  usingTexts u.usings ++ (if u.usings.isEmpty || u.types.isEmpty then "" else "\n") ++
    (match u.space with
      | some space =>
        "namespace " ++ space ++ "\n\x7b\n" ++ typeDeclTexts 1 u.types ++ "\x7d\n"
      | none => typeDeclTexts 0 u.types)

/-- The header as it is, and then the unit (`emit`). -/
def render (header : String) (u : TargetUnit) : String := header ++ unitText u

end Recast.CSharp
