import DeltaLang.Backend
import DeltaLang.Text.Quoted
import DeltaLang.Yaml.Document
import DeltaLang.Yaml.Scalar.Tag
import DeltaLang.Yaml.Scalar.Writer

/-!
The manifest of a module: what is compiled, how, and with which tools. It is a YAML document. What a
manifest leaves out has a default, but for the name of the package.
-/

namespace DeltaLang

open Yaml (Document Node)

structure Manifest where
  package : String
  source : String
  entry : String
  backend : String
  compiler : String
  flags : List String
  deriving DecidableEq, Repr, Inhabited

namespace Manifest

/-- The file that holds the manifest of a directory. -/
def fileName : String :=
  "Delta Module Information"

/-- The manifest of a package that says nothing else. -/
def ofPackage (name : String) : Manifest :=
  { package := name, source := "main.delta", entry := "main", backend := Backend.assembly.name,
    compiler := "cc", flags := [] }

/-- A manifest with nothing in it. -/
def blank : Manifest :=
  ⟨"", "", "", "", "", []⟩

inductive Fault where
  | notYaml
  | wrongShape
  | missingPackage
  | unknownBackend (name : String)
  deriving DecidableEq, Repr

namespace Fault

def message : Fault → String
  | .notYaml => "yaml: malformed document"
  | .wrongShape => "yaml: unmarshal errors"
  | .missingPackage => fileName ++ ": missing Package"
  | .unknownBackend name => fileName ++ ": unknown Backend " ++ Quoted.quote name

end Fault

/-- What the nodes of a document say. Reading goes on behind a node of the wrong shape, and `fits`
says that there was none. -/
structure Reading where
  manifest : Manifest
  fits : Bool

namespace Reading

def misfit (r : Reading) : Reading :=
  { r with fits := false }

end Reading

/-- What a document says about a field. Fails where a scalar is not what its tag says. -/
abbrev Field :=
  Node → Reading → Option Reading

/-- The text that a node stands for, where a null is the empty text, or nothing where it is no
scalar. Fails where a scalar is not what its tag says. -/
def text? (document : Document) (node : Node) : Option (Option String) :=
  match document.follow node with
  | .scalar text isPlain tag =>
    (Yaml.Scalar.resolve? tag text isPlain).map fun value => some (value.getD "")
  | _ => some none

/-- Stores a text, or notes that the node is none. -/
def readText (document : Document) (store : String → Manifest → Manifest) : Field :=
  fun node r => do
    match ← text? document node with
    | some text => some { r with manifest := store text r.manifest }
    | none => some r.misfit

/-- What a scalar does in place of a collection: a null clears the field, and all else is of the
wrong shape. -/
def readNull (clear : Manifest → Manifest) : Field := fun node r =>
  match node with
  | .scalar text isPlain tag => do
    match ← Yaml.Scalar.resolve? tag text isPlain with
    | none => some { r with manifest := clear r.manifest }
    | some _ => some r.misfit
  | _ => some r.misfit

/-- Stores the texts of a sequence. -/
def readFlags (document : Document) : Field := fun node r =>
  match document.follow node with
  | .sequence items => do
    let texts ← items.mapM (text? document)
    some
      { manifest := { r.manifest with flags := texts.filterMap id }
        fits := r.fits && texts.all Option.isSome }
  | node => readNull (fun m => { m with flags := [] }) node r

/-- Stores what a mapping says under a name. -/
abbrev Fields :=
  String → Field

/-- Whether a key calls for the entries of other mappings. -/
def isMerge : Node → Bool
  | .scalar text isPlain tag => text == "<<" && (isPlain || tag == Yaml.Tag.common ++ "merge")
  | _ => false

/-- Reads the entries of a mapping in their order, so that the last of several with the same name
counts. Fails where the entries of something that is no mapping are called for, or where an alias
comes up inside of what it stands for: `inside` are the aliases around. `fuel` bounds the nesting of
such calls. -/
def readEntries (document : Document) (fields : Fields) (fuel : Nat) (inside : List Nat)
    (entries : List (Node × Node)) (r : Reading) : Option Reading :=
  match fuel with
  | 0 => none
  | fuel + 1 =>
    let readOther (r : Reading) (node : Node) : Option Reading :=
      match node, document.follow node with
      | .alias number _, .mapping others =>
        if inside.contains number then none
        else readEntries document fields fuel (number :: inside) others r
      | _, .mapping others => readEntries document fields fuel inside others r
      | _, _ => none
    entries.foldlM
      (fun r (key, value) =>
        if isMerge key then
          match value with
          | .sequence items => items.reverse.foldlM readOther r
          | _ => readOther r value
        else do
          match ← text? document key with
          | some name => fields name value r
          | none => some r.misfit)
      r

/-- How deep calls for the entries of other mappings nest at most: between two aliases they go down
the document, and no alias comes twice. -/
def mergeDepth (document : Document) : Nat :=
  (document.size + 1) * (document.size + 1)

/-- Reads a mapping. A null has no entries, and stores what `clear` says. -/
def readMapping (document : Document) (fields : Fields) (clear : Manifest → Manifest) : Field :=
  fun node r =>
    match document.follow node with
    | .mapping entries => readEntries document fields (mergeDepth document) [] entries r
    | node => readNull clear node r

def toolchainFields (document : Document) : Fields := fun name =>
  match name with
  | "Compiler" => readText document fun text m => { m with compiler := text }
  | "Flags" => readFlags document
  | _ => fun _ => some

def moduleFields (document : Document) : Fields := fun name =>
  match name with
  | "Package" => readText document fun text m => { m with package := text }
  | "Source" => readText document fun text m => { m with source := text }
  | "Entry" => readText document fun text m => { m with entry := text }
  | "Backend" => readText document fun text m => { m with backend := text }
  | "Toolchain" =>
    readMapping document (toolchainFields document) fun m => { m with compiler := "", flags := [] }
  | _ => fun _ => some

/-- What a document says, with empty texts for what it leaves out. A text without document says
nothing. -/
def ofDocument (document : Option Document) : Except Fault Manifest :=
  match document with
  | none => .ok blank
  | some document =>
    match readMapping document (moduleFields document) (fun _ => blank) document.root
        ⟨blank, true⟩ with
    | none => .error .notYaml
    | some r => if r.fits then .ok r.manifest else .error .wrongShape

/-- Puts the defaults in place of empty texts, and checks that the rest makes sense. -/
def complete (m : Manifest) : Except Fault Manifest :=
  let default := ofPackage m.package
  let or (text other : String) : String := if text.isEmpty then other else text
  let backend := or m.backend default.backend
  if m.package.isEmpty then .error .missingPackage
  else if (Backend.ofName? backend).isSome then
    .ok { m with
      source := or m.source default.source
      entry := or m.entry default.entry
      backend
      compiler := or m.compiler default.compiler }
  else .error (.unknownBackend backend)

/-- Reads a manifest. -/
def parse (bytes : List UInt8) : Except Fault Manifest :=
  match Document.ofBytes? bytes with
  | none => .error .notYaml
  | some document => do complete (← ofDocument document)

/-- A line with a text field, at an indentation. -/
def field (indent : Nat) (name value : String) : List Char :=
  List.replicate indent ' ' ++ name.toList ++ [':', ' '] ++
    Yaml.Scalar.write (indent + 2) (indent + name.length + 2) value

/-- Writes a manifest. -/
def render (m : Manifest) : String :=
  let flag (value : String) := "  - ".toList ++ Yaml.Scalar.write 4 4 value
  let flags := if m.flags.isEmpty then [] else "  Flags:\n".toList ++ (m.flags.map flag).flatten
  String.ofList
    (field 0 "Package" m.package ++ field 0 "Source" m.source ++ field 0 "Entry" m.entry ++
      field 0 "Backend" m.backend ++ "Toolchain:\n".toList ++ field 2 "Compiler" m.compiler ++
      flags)

end Manifest

end DeltaLang
