-- The JSON form of types, expressions and statements. A form without
-- data is written as its tag alone; any other form is an object with the
-- tag as its one key. Every field is written, but empty type arguments,
-- zero dimensions and an unknown binding are left out.
import Recast.Json.Reader
import Recast.Number.Decimal
import Recast.Stmt

namespace Recast.Form

open Json.Reader (Fields)

/-! ## Spans and type references -/

def writeSpan (s : Span) : Json :=
  .object [("start", .ofNat s.start.toNat), ("len", .ofNat s.len.toNat),
    ("line", .ofNat s.line.toNat)]

def span : Json.Reader Span :=
  .record ["start", "len", "line"] fun room f => do
    return ⟨← f.required "start" .uint64 room, ← f.required "len" .uint64 room,
      ← f.required "line" .uint32 room⟩

mutual

def writeTypeRef : TypeRef → Json
  | ⟨name, args, dims⟩ =>
    .object ([("name", .text name)] ++
      (if args.isEmpty then [] else [("args", .array (writeTypeRefs args))]) ++
      (if dims = 0 then [] else [("dims", .ofNat dims.toNat)]))

def writeTypeRefs : List TypeRef → List Json
  | [] => []
  | t :: ts => writeTypeRef t :: writeTypeRefs ts

end

/-- A type reference whose arguments are read by `arg`. -/
def typeRefWith (arg : Json.Reader TypeRef) : Json.Reader TypeRef :=
  .record ["name", "args", "dims"] fun room f => do
    return ⟨← f.required "name" .text room, ← f.defaulted "args" (.list arg) room [],
      ← f.defaulted "dims" .uint8 room 0⟩

def typeRefDeep : Nat → Json.Reader TypeRef
  | 0 => fun _ _ => none
  | depth + 1 => typeRefWith (typeRefDeep depth)

/-- Each type reference takes room, so the room bounds the nesting. -/
def typeRef : Json.Reader TypeRef := fun room j => typeRefDeep room room j

/-! ## Expressions -/

def writeLiteral : Literal → Json
  | .null => .text "null"
  | .bool b => .tagged "bool" (.bool b)
  | .int n => .tagged "int" (.ofInt n.toInt)
  | .float x => .tagged "float" (if x.isFinite then .number x.text else .null)
  | .char c => .tagged "char" (.text (String.ofList [c]))
  | .string s => .tagged "string" (.text s)

def literal : Json.Reader Literal := fun room j =>
  match Json.Reader.choice room j with
  | some (.bare "null") => some .null
  | some (.tagged "null" .null _) => some .null
  | some (.tagged tag payload room) =>
    match tag with
    | "bool" => (Json.Reader.bool room payload).map .bool
    | "int" => (Json.Reader.int64 room payload).map .int
    | "float" => (Json.Reader.float room payload).map .float
    | "char" => (Json.Reader.char room payload).map .char
    | "string" => (Json.Reader.text room payload).map .string
    | _ => none
  | _ => none

def binaryOps : List (String × BinaryOp) :=
  [("add", .add), ("sub", .sub), ("mul", .mul), ("div", .div), ("mod", .mod), ("eq", .eq),
    ("ne", .ne), ("lt", .lt), ("le", .le), ("gt", .gt), ("ge", .ge), ("and", .and), ("or", .or),
    ("bit_and", .bitAnd), ("bit_or", .bitOr), ("bit_xor", .bitXor), ("shl", .shl), ("shr", .shr)]

def unaryOps : List (String × UnaryOp) := [("neg", .neg), ("not", .not), ("bit_not", .bitNot)]

/-- The tag that a table gives to a value. -/
def tagOf [BEq α] (table : List (String × α)) (a : α) : String :=
  match table.find? (·.2 == a) with
  | some (tag, _) => tag
  | none => ""

mutual

def writeExpr : Expr → Json
  | .literal value => .tagged "literal" (writeLiteral value)
  | .ident name => .tagged "ident" (.text name)
  | .self => .text "this"
  | .type ty => .tagged "type" (writeTypeRef ty)
  | .field object name =>
    .tagged "field" (.object [("object", writeExpr object), ("name", .text name)])
  | .call target method binding args =>
    .tagged "call" (.object ([("target", writeOptExpr target), ("method", .text method)] ++
      (match binding with
        | some b => [("binding", .text b)]
        | none => []) ++
      [("args", .array (writeExprs args))]))
  | .new ty args =>
    .tagged "new" (.object [("ty", writeTypeRef ty), ("args", .array (writeExprs args))])
  | .binary left op right =>
    .tagged "binary" (.object [("left", writeExpr left), ("op", .text (tagOf binaryOps op)),
      ("right", writeExpr right)])
  | .unary op operand =>
    .tagged "unary" (.object [("op", .text (tagOf unaryOps op)), ("expr", writeExpr operand)])
  | .assign target value =>
    .tagged "assign" (.object [("target", writeExpr target), ("value", writeExpr value)])
  | .conditional test consequent alternate =>
    .tagged "conditional" (.object [("test", writeExpr test),
      ("consequent", writeExpr consequent), ("alternate", writeExpr alternate)])
  | .cast ty operand =>
    .tagged "cast" (.object [("ty", writeTypeRef ty), ("expr", writeExpr operand)])
  | .instanceOf operand ty =>
    .tagged "instance_of" (.object [("expr", writeExpr operand), ("ty", writeTypeRef ty)])
  | .anonymousClass ty span =>
    .tagged "anonymous_class" (.object [("ty", writeTypeRef ty), ("span", writeSpan span)])
  | .placeholder note => .tagged "placeholder" (.text note)

def writeOptExpr : Option Expr → Json
  | none => .null
  | some e => writeExpr e

def writeExprs : List Expr → List Json
  | [] => []
  | e :: es => writeExpr e :: writeExprs es

end

/-- An expression whose parts are read by `part`. -/
def exprWith (part : Json.Reader Expr) : Json.Reader Expr := fun room j =>
  match Json.Reader.choice room j with
  | some (.bare "this") => some .self
  | some (.tagged "this" .null _) => some .self
  | some (.tagged tag payload room) =>
    match tag with
    | "literal" => (literal room payload).map .literal
    | "ident" => (Json.Reader.text room payload).map .ident
    | "type" => (typeRef room payload).map .type
    | "field" =>
      Json.Reader.record ["object", "name"] (fun room f => do
        return .field (← f.required "object" part room) (← f.required "name" .text room))
        room payload
    | "call" =>
      Json.Reader.record ["target", "method", "binding", "args"] (fun room f => do
        return .call (← f.optional "target" part room) (← f.required "method" .text room)
          (← f.optional "binding" .text room) (← f.defaulted "args" (.list part) room []))
        room payload
    | "new" =>
      Json.Reader.record ["ty", "args"] (fun room f => do
        return .new (← f.required "ty" typeRef room)
          (← f.defaulted "args" (.list part) room []))
        room payload
    | "binary" =>
      Json.Reader.record ["left", "op", "right"] (fun room f => do
        return .binary (← f.required "left" part room) (← f.required "op" (.oneOf binaryOps) room)
          (← f.required "right" part room))
        room payload
    | "unary" =>
      Json.Reader.record ["op", "expr"] (fun room f => do
        return .unary (← f.required "op" (.oneOf unaryOps) room) (← f.required "expr" part room))
        room payload
    | "assign" =>
      Json.Reader.record ["target", "value"] (fun room f => do
        return .assign (← f.required "target" part room) (← f.required "value" part room))
        room payload
    | "conditional" =>
      Json.Reader.record ["test", "consequent", "alternate"] (fun room f => do
        return .conditional (← f.required "test" part room) (← f.required "consequent" part room)
          (← f.required "alternate" part room))
        room payload
    | "cast" =>
      Json.Reader.record ["ty", "expr"] (fun room f => do
        return .cast (← f.required "ty" typeRef room) (← f.required "expr" part room))
        room payload
    | "instance_of" =>
      Json.Reader.record ["expr", "ty"] (fun room f => do
        return .instanceOf (← f.required "expr" part room) (← f.required "ty" typeRef room))
        room payload
    | "anonymous_class" =>
      Json.Reader.record ["ty", "span"] (fun room f => do
        return .anonymousClass (← f.required "ty" typeRef room) (← f.required "span" span room))
        room payload
    | "placeholder" => (Json.Reader.text room payload).map .placeholder
    | _ => none
  | _ => none

def exprDeep : Nat → Json.Reader Expr
  | 0 => exprWith fun _ _ => none
  | depth + 1 => exprWith (exprDeep depth)

/-- Each part of an expression takes room, so the room bounds the nesting. -/
def expr : Json.Reader Expr := fun room j => exprDeep room room j

/-! ## Statements -/

mutual

def writeStmt : Stmt → Json
  | .expr e => .tagged "expr" (writeExpr e)
  | .declare name ty init =>
    .tagged "local" (.object [("name", .text name), ("ty", writeTypeRef ty),
      ("init", writeOptExpr init)])
  | .block body => .tagged "block" (.array (writeStmts body))
  | .ifElse test consequent alternate =>
    .tagged "if" (.object [("test", writeExpr test), ("consequent", writeStmt consequent),
      ("alternate",
        match alternate with
        | none => .null
        | some s => writeStmt s)])
  | .whileLoop test body =>
    .tagged "while" (.object [("test", writeExpr test), ("body", writeStmt body)])
  | .forLoop init test update body =>
    .tagged "for" (.object [("init", .array (writeStmts init)), ("test", writeOptExpr test),
      ("update", .array (writeExprs update)), ("body", writeStmt body)])
  | .forEach variableName ty iterable body =>
    .tagged "for_each" (.object [("variable", .text variableName), ("ty", writeTypeRef ty),
      ("iterable", writeExpr iterable), ("body", writeStmt body)])
  | .returns value => .tagged "return" (writeOptExpr value)
  | .breakLoop => .text "break"
  | .continueLoop => .text "continue"
  | .throws value => .tagged "throw" (writeExpr value)
  | .tryCatch body catches cleanup =>
    .tagged "try" (.object [("body", .array (writeStmts body)),
      ("catches", .array (writeCatches catches)),
      ("finally",
        match cleanup with
        | none => .null
        | some ss => .array (writeStmts ss))])
  | .labeled label body span =>
    .tagged "labeled" (.object [("label", .text label), ("body", writeStmt body),
      ("span", writeSpan span)])
  | .placeholder note => .tagged "placeholder" (.text note)

def writeStmts : List Stmt → List Json
  | [] => []
  | s :: ss => writeStmt s :: writeStmts ss

def writeCatch : CatchClause → Json
  | ⟨param, ty, body⟩ =>
    .object [("param", .text param), ("ty", writeTypeRef ty), ("body", .array (writeStmts body))]

def writeCatches : List CatchClause → List Json
  | [] => []
  | c :: cs => writeCatch c :: writeCatches cs

end

/-- A catch clause whose statements are read by `part`. -/
def catchWith (part : Json.Reader Stmt) : Json.Reader CatchClause :=
  .record ["param", "ty", "body"] fun room f => do
    return ⟨← f.required "param" .text room, ← f.required "ty" typeRef room,
      ← f.required "body" (.list part) room⟩

/-- A statement whose parts are read by `part`. -/
def stmtWith (part : Json.Reader Stmt) : Json.Reader Stmt := fun room j =>
  match Json.Reader.choice room j with
  | some (.bare "break") => some .breakLoop
  | some (.tagged "break" .null _) => some .breakLoop
  | some (.bare "continue") => some .continueLoop
  | some (.tagged "continue" .null _) => some .continueLoop
  | some (.tagged tag payload room) =>
    match tag with
    | "expr" => (expr room payload).map .expr
    | "local" =>
      Json.Reader.record ["name", "ty", "init"] (fun room f => do
        return .declare (← f.required "name" .text room) (← f.required "ty" typeRef room)
          (← f.optional "init" expr room))
        room payload
    | "block" => (Json.Reader.list part room payload).map .block
    | "if" =>
      Json.Reader.record ["test", "consequent", "alternate"] (fun room f => do
        return .ifElse (← f.required "test" expr room) (← f.required "consequent" part room)
          (← f.optional "alternate" part room))
        room payload
    | "while" =>
      Json.Reader.record ["test", "body"] (fun room f => do
        return .whileLoop (← f.required "test" expr room) (← f.required "body" part room))
        room payload
    | "for" =>
      Json.Reader.record ["init", "test", "update", "body"] (fun room f => do
        return .forLoop (← f.defaulted "init" (.list part) room [])
          (← f.optional "test" expr room) (← f.defaulted "update" (.list expr) room [])
          (← f.required "body" part room))
        room payload
    | "for_each" =>
      Json.Reader.record ["variable", "ty", "iterable", "body"] (fun room f => do
        return .forEach (← f.required "variable" .text room) (← f.required "ty" typeRef room)
          (← f.required "iterable" expr room) (← f.required "body" part room))
        room payload
    | "return" => (Json.Reader.nullable expr room payload).map .returns
    | "throw" => (expr room payload).map .throws
    | "try" =>
      Json.Reader.record ["body", "catches", "finally"] (fun room f => do
        return .tryCatch (← f.required "body" (.list part) room)
          (← f.defaulted "catches" (.list (catchWith part)) room [])
          (← f.optional "finally" (.list part) room))
        room payload
    | "labeled" =>
      Json.Reader.record ["label", "body", "span"] (fun room f => do
        return .labeled (← f.required "label" .text room) (← f.required "body" part room)
          (← f.required "span" span room))
        room payload
    | "placeholder" => (Json.Reader.text room payload).map .placeholder
    | _ => none
  | _ => none

def stmtDeep : Nat → Json.Reader Stmt
  | 0 => stmtWith fun _ _ => none
  | depth + 1 => stmtWith (stmtDeep depth)

/-- Each part of a statement takes room, so the room bounds the nesting. -/
def stmt : Json.Reader Stmt := fun room j => stmtDeep room room j

end Recast.Form
