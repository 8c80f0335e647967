import DeltaLang.Text.Quoted
import DeltaLang.Tree.Render
import DeltaLang.TypeInfo

/-!
Outlines of trees and of type information, for people to read: a part on a line of its own, with the
parts of it indented below. What has no content is left out.
-/

namespace DeltaLang

namespace Outline

/-- Indents the lines of a part below its owner. -/
def indent (lines : List String) : List String :=
  lines.map ("  " ++ ·)

/-- The parts of something between braces, each followed by a comma. -/
def block (head : String) (parts : List (List String)) : List String :=
  (head ++ "\x7b") :: (parts.map fun lines => indent (close lines)).flatten ++ ["\x7d"]
where
  close (lines : List String) : List String :=
    match lines.reverse with
    | [] => []
    | last :: before => (((last ++ ",") :: before)).reverse

/-- A part with the name of the field that holds it. -/
def labelled (label : String) (lines : List String) : List String :=
  match lines with
  | [] => []
  | first :: rest => (label ++ ": " ++ first) :: rest

/-- A part that is left out if it has no lines. -/
def field (label : String) (lines : List String) : List (List String) :=
  if lines.isEmpty then [] else [labelled label lines]

/-- A list of parts, which is left out if it is empty. -/
def listField (label type : String) (parts : List (List String)) : List (List String) :=
  if parts.isEmpty then [] else [labelled label (block ("[]" ++ type) parts)]

def textField (label text : String) : List (List String) :=
  if text.isEmpty then [] else [[label ++ ": " ++ Quoted.quote text]]

end Outline

open Outline

namespace Operator

/-- The field of an operator. Addition is what is assumed. -/
def outlineField (op : Operator) : List (List String) :=
  if op = .add then [] else [["Op: ast.BinaryOperator(" ++ op.spelling ++ ")"]]

end Operator

namespace Expr

def outline : Expr → List String
  | .hole => []
  | .var name => ["ast.Variable(" ++ Quoted.quote name ++ ")"]
  | .lit value type =>
    block "ast.Literal"
      (textField "Value" value ++
        if type = .number then [] else [["Type: types.PrimitiveType(" ++ type.name ++ ")"]])
  | .binary left op right =>
    block "ast.Binary"
      (field "Left" left.outline ++ op.outlineField ++ field "Right" right.outline)

end Expr

namespace Stmt

mutual

def outline (s : Stmt) : List String :=
  match s with
  | .hole => ["nil"]
  | .declare name value =>
    block "ast.Declaration" (textField "Name" name ++ field "Expression" value.outline)
  | .evaluate expr => block "ast.ExpressionStatement" (field "Expression" expr.outline)
  | .branch condition body =>
    block "ast.ControlFlowStatement"
      [labelled "ControlFlow"
        (block "ast.If"
          (field "Condition" condition.outline ++
            listField "Body" "ast.Statement" (outlines body)))]
  | .flowHole => block "ast.ControlFlowStatement" []

def outlines (body : List Stmt) : List (List String) :=
  match body with
  | [] => []
  | s :: rest => s.outline :: outlines rest

end

end Stmt

namespace Function

def outline (f : Function) : List String :=
  block ""
    (textField "Name" f.name ++
      listField "Arguments" "string" (f.arguments.map fun name => [Quoted.quote name]) ++
      field "ReturnType" (f.result.elim [] fun name => ["&" ++ Quoted.quote name]) ++
      listField "Body" "ast.Statement" (Stmt.outlines f.body))

end Function

namespace Module

def outline (m : Module) : List String :=
  match m with
  | .hole => ["nil"]
  | .functions members =>
    block "&ast.Module" (listField "Functions" "ast.Function" (members.map Function.outline))

end Module

namespace TypeInfo

/-- The outline of the types of the functions, in the order of their names. A table without entries
is on one line. -/
def outline (info : TypeInfo) : List String :=
  let entry (function type : String) := [Quoted.quote function ++ ": " ++ Quoted.quote type]
  let table : List (List String) :=
    match info.functions with
    | none => []
    | some [] => [["Functions: map[string]string\x7b  \x7d"]]
    | some entries =>
      [labelled "Functions"
        (block "map[string]string" (entries.map fun (function, type) => entry function type))]
  block "irgen.TypeInfo" table

end TypeInfo

end DeltaLang
