import DeltaLang.Json.Printer
import DeltaLang.Json.Value
import DeltaLang.Tree

/-!
Type information: the result type of every function of a module. It travels with the generated
module as a text.
-/

namespace DeltaLang

/-- The result type of each function, in the order of the names. There is none where a text says
nothing about functions. -/
structure TypeInfo where
  functions : Option (List (String × String))
  deriving DecidableEq, Repr

namespace TypeInfo

/-- Sets the value of a key in a list that is sorted by keys. -/
def set (key value : String) : List (String × String) → List (String × String)
  | [] => [(key, value)]
  | (k, v) :: rest =>
    if key < k then (key, value) :: (k, v) :: rest
    else if key = k then (key, value) :: rest
    else (k, v) :: set key value rest

/-- The result type of a function that declares none is `void`. -/
def resultOf (f : Function) : String :=
  f.result.getD "void"

/-- Of functions with the same name the last one counts. -/
def ofFunctions (functions : List Function) : TypeInfo :=
  ⟨some (functions.foldl (fun known f => set f.name (resultOf f) known) [])⟩

def toJson (info : TypeInfo) : String :=
  Json.object
    [("functions",
      match info.functions with
      | none => "null"
      | some functions => Json.object (functions.map fun entry => (entry.1, Json.quote entry.2)))]

/-- The global that carries the type information of a module. -/
def symbol : String := "__delta_types"

/-- The bytes of that global, with a zero byte at the end. -/
def bytes (info : TypeInfo) : List UInt8 :=
  Utf8.encode info.toJson ++ [0]

/-- The names of fields are compared without regard to case. -/
def foldCase (c : Char) : Char :=
  if c.toNat = 0x17F then 's' else c.toLower

def isFunctions (field : String) : Bool :=
  field.toList.map foldCase == "functions".toList

/-- The result type in a field. A null stands for the empty text. -/
def resultType? : Json.Value → Option String
  | .string text => some text
  | .null => some ""
  | _ => none

/-- Adds the functions of an object to those that are known. -/
def addFunctions (known : List (String × String)) :
    List (String × Json.Value) → Option (List (String × String))
  | [] => some known
  | (name, value) :: rest => do
    let type ← resultType? value
    addFunctions (set name type known) rest

/-- The functions after another field of the document. A null forgets those before it. -/
def addField (known : Option (List (String × String))) (field : String × Json.Value) :
    Option (Option (List (String × String))) :=
  if isFunctions field.1 then
    match field.2 with
    | .null => some none
    | .object functions => (addFunctions (known.getD []) functions).map some
    | _ => none
  else some known

def ofJson? : Json.Value → Option TypeInfo
  | .null => some ⟨none⟩
  | .object fields => (fields.foldlM addField none).map .mk
  | _ => none

/-- Drops one zero byte at the end. -/
def dropZero (bytes : List UInt8) : List UInt8 :=
  if bytes.getLast? = some 0 then bytes.dropLast else bytes

/-- Reads the bytes of the global back. -/
def ofBytes? (bytes : List UInt8) : Option TypeInfo := do
  let value ← Json.parse? (Utf8.decode (dropZero bytes))
  ofJson? value

end TypeInfo

end DeltaLang
