import DeltaLang.Manifest
import DeltaLang.Proofs.Yaml.Node
import Mathlib.Algebra.BigOperators.Group.List.Basic

namespace DeltaLang.Manifest

open Yaml (Document Node Input Scanner)
open Yaml.Scanner (keyTokens itemTokens itemLines blockLine entryLine entryTokens)
open Yaml.Scalar (Printed newLine write)

def texts (m : Manifest) : List String :=
  m.package :: m.source :: m.entry :: m.backend :: m.compiler :: m.flags

def OneLine (m : Manifest) : Prop :=
  ∀ text ∈ m.texts, Yaml.Scalar.OneLine text

theorem OneLine.flags {m : Manifest} (oneLine : m.OneLine) :
    ∀ flag ∈ m.flags, Yaml.Scalar.OneLine flag := by
  intro flag member
  exact oneLine flag (by simp [texts, member])

/-- A manifest with the defaults in the place of empty texts. -/
def withDefaults (m : Manifest) : Manifest :=
  { m with
    source := if m.source = "" then "main.delta" else m.source
    entry := if m.entry = "" then "main" else m.entry
    backend := if m.backend = "" then "asm" else m.backend
    compiler := if m.compiler = "" then "cc" else m.compiler }

section Written

/-- The lines behind the compiler, and how far the first of them is indented. -/
def flagLines : List String → Nat × List Char
  | [] => (0, [])
  | flag :: others =>
    (2, blockLine "Flags" 2 ('-' :: ' ' ::
      (write 4 4 flag ++ (itemLines 2 others ++ (List.replicate 0 ' ' ++ [])))))

def toolchainLines (m : Manifest) : List Char :=
  blockLine "Toolchain" 2
    (entryLine 2 "Compiler" m.compiler (flagLines m.flags).1 (flagLines m.flags).2)

theorem field_append (indent : Nat) (name value : String) (place : Nat) (next : List Char) :
    field indent name value ++ (List.replicate place ' ' ++ next) =
      List.replicate indent ' ' ++ entryLine indent name value place next := by
  simp only [field, entryLine, List.append_assoc, List.cons_append, List.nil_append]

theorem field_top (name value : String) (next : List Char) :
    field 0 name value ++ next = entryLine 0 name value 0 next :=
  field_append 0 name value 0 next

theorem item_line (flag : String) :
    "  - ".toList ++ write 4 4 flag = List.replicate 2 ' ' ++ '-' :: ' ' :: write 4 4 flag :=
  rfl

theorem flags_eq (flags : List String) :
    (if flags.isEmpty then []
      else "  Flags:\n".toList ++
        (flags.map fun value => "  - ".toList ++ write 4 4 value).flatten) =
      List.replicate (flagLines flags).1 ' ' ++ (flagLines flags).2 := by
  cases flags with
  | nil => rfl
  | cons flag others =>
    have items : (others.map fun value => "  - ".toList ++ write 4 4 value).flatten =
        itemLines 2 others := by
      rw [itemLines, List.flatMap_def]
      simp only [item_line]
    rw [List.isEmpty_cons, List.map_cons, List.flatten_cons, items, flagLines, item_line]
    simp only [List.append_assoc, List.replicate_zero, List.append_nil]
    rfl

theorem toList_render (m : Manifest) :
    m.render.toList =
      entryLine 0 "Package" m.package 0 (entryLine 0 "Source" m.source 0
        (entryLine 0 "Entry" m.entry 0
          (entryLine 0 "Backend" m.backend 0 (toolchainLines m)))) := by
  have toolchain : "Toolchain:\n".toList ++ (field 2 "Compiler" m.compiler ++
      (List.replicate (flagLines m.flags).1 ' ' ++ (flagLines m.flags).2)) = toolchainLines m := by
    rw [field_append]
    rfl
  rw [render, String.toList_ofList]
  simp only [flags_eq, List.append_assoc]
  rw [toolchain, field_top, field_top, field_top, field_top]

end Written

section Scanned

/-- The names under which a manifest holds its texts. -/
def fieldNames : List String :=
  ["Package", "Source", "Entry", "Backend", "Toolchain", "Compiler", "Flags"]

theorem isName_field : ∀ name ∈ fieldNames, Scanner.IsName name := by
  have letters : ∀ name ∈ fieldNames, name.toList.all Char.isAlpha = true := by decide
  have filled : ∀ name ∈ fieldNames, name.toList ≠ [] := by decide
  have short : ∀ name ∈ fieldNames, name.length ≤ 9 := by decide
  have allowed : 9 ≤ Yaml.maxKeySize := by decide
  exact fun name member =>
    ⟨List.all_eq_true.mp (letters name member), filled name member,
      Nat.le_trans (short name member) allowed⟩

theorem next_field {name : String} (member : name ∈ fieldNames) (rest : List Char) (place : Nat) :
    Yaml.NextLine (name.toList ++ rest) place := by
  have isName := isName_field name member
  obtain ⟨c, others, shape⟩ := List.exists_cons_of_ne_nil isName.filled
  have letter : c.isAlpha = true := isName.letters c (shape ▸ List.mem_cons_self)
  rw [shape]
  exact .token (Scanner.notSpace_of_letter letter) (Scanner.ne_of_letter letter rfl)

theorem next_flagLines (flags : List String) :
    Yaml.NextLine (flagLines flags).2 (flagLines flags).1 := by
  cases flags with
  | nil => exact .ended
  | cons flag others => exact next_field (by decide) _ _

def flagTokens : List String → List Yaml.Token
  | [] => []
  | flag :: others => keyTokens false "Flags" ++ itemTokens (flag :: others)

def tokens (m : Manifest) : List Yaml.Token :=
  entryTokens true "Package" m.package ++ entryTokens false "Source" m.source ++
    entryTokens false "Entry" m.entry ++ entryTokens false "Backend" m.backend ++
    keyTokens false "Toolchain" ++ entryTokens true "Compiler" m.compiler ++ flagTokens m.flags ++
    [.blockEnd, .blockEnd] ++ [.streamEnd]

theorem scans_flags {s : Scanner} {flags : List String} {tokens : List Yaml.Token}
    (oneLine : ∀ flag ∈ flags, Yaml.Scalar.OneLine flag) (unfinished : .streamEnd ∉ tokens)
    (before : s.Before (flagLines flags).2 (flagLines flags).1 true [2, 0] tokens) :
    s.Scans (2 * flags.length + 4)
      (tokens ++ flagTokens flags ++ [.blockEnd, .blockEnd] ++ [.streamEnd]) := by
  cases flags with
  | nil =>
    -- without flags only the end of the text is left, and the fuel for their key is to spare
    intro fuel asked enough
    rw [flagTokens, List.append_nil]
    exact before.scans_end unfinished fuel asked (by omega)
  | cons flag others =>
    have steps : 2 * (flag :: others).length + 4 = 2 + 2 * (flag :: others).length + 2 := by omega
    rw [steps]
    refine before.scans_block (isName_field _ (by decide)) .stays unfinished
      (.token rfl (by decide)) ?_
    intro s before
    refine before.scans_items oneLine (by simpa using unfinished) .ended (Nat.zero_le 2) ?_
    intro s before
    rw [List.append_assoc] at before
    exact before.scans_end (by simpa using unfinished)

theorem scans_render {input : Input} {m : Manifest} (oneLine : m.OneLine)
    (reads : input.Reads m.render.toList) :
    Scanner.Scans (2 * m.flags.length + 21) (Scanner.ofInput input) m.tokens := by
  -- the first key of a mapping opens its block, and the others stay in it
  have start := Scanner.before_start reads (by rw [toList_render]; exact next_field (by decide) _ _)
  rw [toList_render] at start
  refine start.scans_entry (isName_field _ (by decide)) (oneLine _ (by simp [texts])) (.opens rfl)
    (by simp) (next_field (by decide) _ _) (Nat.le_refl 0) ?_
  intro s before
  refine before.scans_entry (isName_field _ (by decide)) (oneLine _ (by simp [texts])) .stays
    (by simp) (next_field (by decide) _ _) (Nat.le_refl 0) ?_
  intro s before
  refine before.scans_entry (isName_field _ (by decide)) (oneLine _ (by simp [texts])) .stays
    (by simp) (next_field (by decide) _ _) (Nat.le_refl 0) ?_
  intro s before
  refine before.scans_entry (isName_field _ (by decide)) (oneLine _ (by simp [texts])) .stays
    (by simp) (next_field (by decide) _ _) (Nat.le_refl 0) ?_
  intro s before
  refine before.scans_block (isName_field _ (by decide)) .stays (by simp)
    (next_field (by decide) _ _) ?_
  intro s before
  refine before.scans_entry (isName_field _ (by decide)) (oneLine _ (by simp [texts])) (.opens rfl)
    (by simp) (next_flagLines m.flags) ?_ ?_
  · cases m.flags <;> simp [flagLines]
  intro s before
  exact scans_flags oneLine.flags (by simp) before

theorem printed_field {name : String} (member : name ∈ fieldNames) : Printed name.toList := by
  have printed : ∀ name ∈ fieldNames, name.toList.all Yaml.isPlainlyWritten = true := by decide
  exact List.all_eq_true.mp (printed name member)

theorem printed_marks : Yaml.isPlainlyWritten ':' = true ∧ Yaml.isPlainlyWritten '-' = true ∧
    Yaml.isPlainlyWritten ' ' = true := by
  decide

theorem printed_entryLine {name value : String} {next : List Char} (member : name ∈ fieldNames)
    (oneLine : Yaml.Scalar.OneLine value) (printed : Printed next) (column place : Nat) :
    Printed (entryLine column name value place next) := by
  simp [entryLine, printed_field member, printed_marks, Yaml.Scalar.printed_write oneLine, printed]

theorem printed_blockLine {name : String} {next : List Char} (member : name ∈ fieldNames)
    (printed : Printed next) (place : Nat) : Printed (blockLine name place next) := by
  simp [blockLine, printed_field member, printed_marks, printed]

theorem printed_itemLines {values : List String} (oneLine : ∀ v ∈ values, Yaml.Scalar.OneLine v)
    (column : Nat) : Printed (itemLines column values) := by
  intro c member
  obtain ⟨value, inside, here⟩ := List.mem_flatMap.mp member
  have line : Printed (List.replicate column ' ' ++ '-' :: ' ' ::
      write (column + 2) (column + 2) value) := by
    simp [printed_marks, Yaml.Scalar.printed_write (oneLine value inside)]
  exact line c here

theorem printed_flagLines {flags : List String}
    (oneLine : ∀ flag ∈ flags, Yaml.Scalar.OneLine flag) : Printed (flagLines flags).2 := by
  cases flags with
  | nil => exact Yaml.Scalar.printed_nil
  | cons flag others =>
    have first := Yaml.Scalar.printed_write (oneLine flag List.mem_cons_self) 4 4
    have later := printed_itemLines (fun v member => oneLine v (List.mem_cons_of_mem _ member)) 2
    exact printed_blockLine (by decide) (by simp [printed_marks, first, later]) 2

theorem printed_render {m : Manifest} (oneLine : m.OneLine) : Printed m.render.toList := by
  have compiler := printed_entryLine (by decide : "Compiler" ∈ fieldNames)
    (oneLine m.compiler (by simp [texts])) (printed_flagLines oneLine.flags) 2 (flagLines m.flags).1
  have toolchain : Printed (toolchainLines m) := printed_blockLine (by decide) compiler 2
  rw [toList_render]
  exact printed_entryLine (by decide) (oneLine _ (by simp [texts]))
    (printed_entryLine (by decide) (oneLine _ (by simp [texts]))
      (printed_entryLine (by decide) (oneLine _ (by simp [texts]))
        (printed_entryLine (by decide) (oneLine _ (by simp [texts])) toolchain 0 0) 0 0) 0 0) 0 0

theorem reads_render {m : Manifest} (oneLine : m.OneLine) :
    (Input.ofBytes (Utf8.encode m.render)).Reads m.render.toList := by
  have printed := printed_render oneLine
  obtain ⟨rest, shape⟩ : ∃ rest, m.render.toList = 'P' :: rest := ⟨_, (toList_render m).trans rfl⟩
  rw [← @String.ofList_toList m.render, String.toList_ofList]
  rw [shape] at printed ⊢
  exact Input.reads_encode (by decide) printed.allowed printed.common

theorem length_entryLine {name : String} (member : name ∈ fieldNames) (column : Nat)
    (value : String) (place : Nat) (next : List Char) :
    next.length + 3 ≤ (entryLine column name value place next).length := by
  have filled := List.length_pos_iff.mpr (isName_field name member).filled
  simp only [entryLine, List.length_append, List.length_cons]
  omega

theorem length_blockLine (name : String) (place : Nat) (next : List Char) :
    next.length + place + 2 ≤ (blockLine name place next).length := by
  simp only [blockLine, newLine, List.length_append, List.length_cons, List.length_replicate]
  omega

theorem length_flagLines (flags : List String) : 2 * flags.length ≤ (flagLines flags).2.length := by
  have items (values : List String) : 2 * values.length ≤ (itemLines 2 values).length := by
    induction values with
    | nil => exact Nat.le_refl 0
    | cons value others ih =>
      simp only [itemLines, List.flatMap_cons, List.length_append, List.length_cons] at ih ⊢
      omega
  cases flags with
  | nil => exact Nat.le_refl 0
  | cons flag others =>
    have later := items others
    refine Nat.le_trans ?_ (length_blockLine _ _ _)
    simp only [List.length_append, List.length_cons]
    omega

theorem length_toolchainLines (m : Manifest) :
    2 * m.flags.length + 7 ≤ (toolchainLines m).length := by
  have flags := length_flagLines m.flags
  have compiler := length_entryLine (by decide : "Compiler" ∈ fieldNames) 2 m.compiler
    (flagLines m.flags).1 (flagLines m.flags).2
  exact Nat.le_trans (by omega) (length_blockLine _ _ _)

theorem length_render (m : Manifest) : 2 * m.flags.length + 19 ≤ m.render.toList.length := by
  have toolchain := length_toolchainLines m
  rw [toList_render]
  calc 2 * m.flags.length + 19 ≤ (toolchainLines m).length + 3 + 3 + 3 + 3 := by omega
    _ ≤ _ := Nat.add_le_add_right (length_entryLine (by decide) 0 m.backend 0 _) 9
    _ ≤ _ := Nat.add_le_add_right (length_entryLine (by decide) 0 m.entry 0 _) 6
    _ ≤ _ := Nat.add_le_add_right (length_entryLine (by decide) 0 m.source 0 _) 3
    _ ≤ _ := length_entryLine (by decide) 0 m.package 0 _

theorem scan_render {m : Manifest} (oneLine : m.OneLine) :
    Yaml.Token.scan (Input.ofBytes (Utf8.encode m.render)) = m.tokens := by
  have reads := reads_render oneLine
  have size := length_render m
  exact Scanner.scan_eq reads (scans_render oneLine reads) (by omega)

end Scanned

section Nodes

def named (entries : List (String × Node)) : Node :=
  .mapping (entries.map fun (name, value) => (.scalar name true "", value))

def flagEntries : List String → List (String × Node)
  | [] => []
  | flag :: others => [("Flags", .sequence ((flag :: others).map .ofText))]

/-- The mapping that a manifest is written as. -/
def root (m : Manifest) : Node :=
  named [("Package", .ofText m.package), ("Source", .ofText m.source), ("Entry", .ofText m.entry),
    ("Backend", .ofText m.backend),
    ("Toolchain", named (("Compiler", .ofText m.compiler) :: flagEntries m.flags))]

theorem reads_flags (flags : List String) (rest : List Yaml.Token) :
    ∃ nodes, Node.Reads (flags.length + 3) .blockEntries (flagTokens flags ++ .blockEnd :: rest)
      nodes rest ∧
      Node.pairs nodes =
        (flagEntries flags).map fun (name, value) => (.scalar name true "", value) := by
  have ended := Node.reads_blockEnd rest
  cases flags with
  | nil => exact ⟨[], ended.mono (by omega), rfl⟩
  | cons flag others =>
    have sequence := @Node.reads_sequence (flag :: others) (by simp) rest
    exact ⟨_, Node.reads_entry rfl sequence (ended.mono (by omega)) (by omega), rfl⟩

theorem tokens_eq (m : Manifest) :
    m.tokens = .blockMappingStart :: (entryTokens false "Package" m.package ++
      (entryTokens false "Source" m.source ++ (entryTokens false "Entry" m.entry ++
        (entryTokens false "Backend" m.backend ++ .key :: .scalar "Toolchain" true :: .value ::
          .blockMappingStart :: (entryTokens false "Compiler" m.compiler ++
            (flagTokens m.flags ++ [.blockEnd, .blockEnd, .streamEnd])))))) := by
  simp [tokens, entryTokens, keyTokens]

theorem reads_tokens (m : Manifest) :
    Node.Reads (m.flags.length + 11) (.node true false) m.tokens [m.root] [.streamEnd] := by
  obtain ⟨flags, readFlags, flagPairs⟩ := reads_flags m.flags [.blockEnd, .streamEnd]
  have compiler := Node.reads_scalarEntry "Compiler" m.compiler readFlags (by omega)
  have toolchain := @Node.reads_mapping _ _ _ _ true compiler
  have ended := (Node.reads_blockEnd [.streamEnd]).mono (by omega : 1 ≤ m.flags.length + 5)
  have backend := Node.reads_scalarEntry "Backend" m.backend
    (@Node.reads_entry _ _ _ _ "Toolchain" _ _ rfl toolchain ended (by omega)) (by omega)
  have entry := Node.reads_scalarEntry "Entry" m.entry backend (by omega)
  have source := Node.reads_scalarEntry "Source" m.source entry (by omega)
  have package := Node.reads_scalarEntry "Package" m.package source (by omega)
  have whole := @Node.reads_mapping _ _ _ _ false package
  simp only [Node.pairs, flagPairs] at whole
  rw [tokens_eq]
  exact whole

/-- The text of a manifest is a document. -/
theorem ofBytes?_render {m : Manifest} (oneLine : m.OneLine) :
    ∃ size, Document.ofBytes? (Utf8.encode m.render) = some (some ⟨m.root, [], size⟩) := by
  have reads := reads_tokens m
  rw [tokens_eq] at reads
  rw [Document.ofBytes?, scan_render oneLine, tokens_eq]
  refine ⟨_, Document.ofTokens?_mapping reads ?_⟩
  have flags : m.flags.length ≤ (flagTokens m.flags).length := by
    cases m.flags with
    | nil => exact Nat.le_refl 0
    | cons flag others =>
      simp [flagTokens, keyTokens, itemTokens]
      omega
  simp only [entryTokens, keyTokens, List.length_append, List.length_cons, List.length_nil]
  omega

end Nodes

section Read

variable {document : Document}

/-- Whatever its style, a written scalar stands for its text. -/
theorem text?_ofText {value : String} (oneLine : Yaml.Scalar.OneLine value) :
    text? document (.ofText value) = some (some value) := by
  have styled := Yaml.Scalar.styled oneLine
  simp only [text?, Node.ofText, Document.follow, Yaml.Scalar.resolve?]
  generalize Yaml.Scalar.style value = style at styled
  cases styled with
  | plain isText => simp [isText]
  | singleQuoted => simp
  | doubleQuoted => simp

theorem text?_name {name : String} (member : name ∈ fieldNames) :
    text? document (.scalar name true "") = some (some name) := by
  have words : ∀ name ∈ fieldNames, name ∉ ["", "~", "null", "Null", "NULL"] := by decide
  have kind := Yaml.Scalar.kindOf_ne_null (words name member)
  simp [text?, Document.follow, Yaml.Scalar.resolve?, kind]

theorem isMerge_name {name : String} (member : name ∈ fieldNames) :
    isMerge (.scalar name true "") = false := by
  have others : ∀ name ∈ fieldNames, (name == "<<") = false := by decide
  simp [isMerge, others name member]

theorem readEntries_named {fields : Fields} {entries : List (String × Node)}
    (members : ∀ entry ∈ entries, entry.1 ∈ fieldNames) (fuel : Nat) (inside : List Nat)
    (r : Reading) :
    readEntries document fields (fuel + 1) inside
        (entries.map fun (name, value) => (.scalar name true "", value)) r =
      entries.foldlM (fun r (name, value) => fields name value r) r := by
  rw [readEntries]
  induction entries generalizing r with
  | nil => rfl
  | cons entry others ih =>
    obtain ⟨name, value⟩ := entry
    have member : name ∈ fieldNames := members (name, value) List.mem_cons_self
    have later := ih fun entry member => members entry (List.mem_cons_of_mem _ member)
    rw [List.map_cons, List.foldlM_cons, List.foldlM_cons]
    simp only [isMerge_name member, text?_name member, Bool.false_eq_true, ↓reduceIte,
      Option.bind_eq_bind, Option.bind_some]
    exact congrArg (Option.bind (fields name value r) ·) (funext later)

theorem readMapping_named {fields : Fields} {entries : List (String × Node)}
    (members : ∀ entry ∈ entries, entry.1 ∈ fieldNames) (clear : Manifest → Manifest)
    (r : Reading) :
    readMapping document fields clear (named entries) r =
      entries.foldlM (fun r (name, value) => fields name value r) r := by
  obtain ⟨fuel, depth⟩ : ∃ fuel, mergeDepth document = fuel + 1 :=
    Nat.exists_eq_succ_of_ne_zero (by simp [mergeDepth])
  simp only [readMapping, Document.follow, named, depth]
  exact readEntries_named members fuel [] r

theorem readText_ofText {value : String} (oneLine : Yaml.Scalar.OneLine value)
    (store : String → Manifest → Manifest) (r : Reading) :
    readText document store (.ofText value) r =
      some { r with manifest := store value r.manifest } := by
  simp [readText, text?_ofText oneLine]

theorem readFlags_ofTexts {flags : List String} (oneLine : ∀ flag ∈ flags, Yaml.Scalar.OneLine flag)
    (r : Reading) :
    readFlags document (.sequence (flags.map .ofText)) r =
      some { r with manifest := { r.manifest with flags } } := by
  have all : (flags.map Node.ofText).mapM (text? document) = some (flags.map some) := by
    induction flags with
    | nil => rfl
    | cons flag others ih =>
      have first := @text?_ofText document flag (oneLine flag List.mem_cons_self)
      have later := ih fun v member => oneLine v (List.mem_cons_of_mem _ member)
      rw [List.map_cons, List.mapM_cons, first, later]
      rfl
  simp only [readFlags, Document.follow, all]
  simp

theorem readToolchain {m : Manifest} (oneLine : m.OneLine) (clear : Manifest → Manifest)
    (r : Reading) (bare : r.manifest.flags = []) :
    readMapping document (toolchainFields document) clear
        (named (("Compiler", .ofText m.compiler) :: flagEntries m.flags)) r =
      some { r with manifest := { r.manifest with compiler := m.compiler, flags := m.flags } } := by
  have compiler := oneLine m.compiler (by simp [texts])
  have oneLineFlags := oneLine.flags
  cases flags : m.flags with
  | nil =>
    rw [flagEntries, readMapping_named (by simp [fieldNames])]
    simp only [List.foldlM_cons, List.foldlM_nil, toolchainFields, readText_ofText compiler]
    simp [← bare]
  | cons flag others =>
    rw [flags] at oneLineFlags
    rw [flagEntries, readMapping_named (by simp [fieldNames])]
    simp only [List.foldlM_cons, List.foldlM_nil, toolchainFields, readText_ofText compiler,
      Option.bind_eq_bind, Option.bind_some, readFlags_ofTexts oneLineFlags]
    rfl

/-- A manifest stands for what it was written for. -/
theorem ofDocument_root {m : Manifest} (oneLine : m.OneLine) (size : Nat) :
    ofDocument (some ⟨m.root, [], size⟩) = .ok m := by
  have package := oneLine m.package (by simp [texts])
  have source := oneLine m.source (by simp [texts])
  have entry := oneLine m.entry (by simp [texts])
  have backend := oneLine m.backend (by simp [texts])
  have read : readMapping ⟨m.root, [], size⟩ (moduleFields ⟨m.root, [], size⟩) (fun _ => blank)
      m.root ⟨blank, true⟩ = some ⟨m, true⟩ := by
    rw [show m.root = named _ from rfl, readMapping_named (by simp [fieldNames])]
    simp only [List.foldlM_cons, List.foldlM_nil, moduleFields, readText_ofText package,
      readText_ofText source, readText_ofText entry, readText_ofText backend, Option.bind_eq_bind,
      Option.bind_some]
    rw [readToolchain oneLine _ _ rfl]
    rfl
  simp [ofDocument, read]

theorem complete_eq (m : Manifest) :
    complete m =
      if m.package = "" then .error .missingPackage
      else if m.backend ∈ ["", "asm", "llvm"] then .ok m.withDefaults
      else .error (.unknownBackend m.backend) := by
  obtain ⟨package, source, entry, backend, compiler, flags⟩ := m
  simp only [complete, ofPackage, withDefaults, Backend.name, String.isEmpty_iff]
  by_cases missing : package = ""
  · simp [missing]
  · simp only [missing, ↓reduceIte]
    by_cases empty : backend = ""
    · simp [empty, Backend.ofName?]
    · simp only [empty, ↓reduceIte, List.mem_cons, false_or, List.not_mem_nil, or_false]
      by_cases known : backend = "asm" ∨ backend = "llvm"
      · have found : (Backend.ofName? backend).isSome = true := by
          rcases known with rfl | rfl <;> rfl
        simp [known, found]
      · have none : (Backend.ofName? backend).isSome = false := by
          rw [not_or] at known
          simp [Backend.ofName?, known]
        simp [known, none]

theorem complete_eq_ok_iff {m loaded : Manifest} :
    complete m = .ok loaded ↔
      (m.package ≠ "" ∧ m.backend ∈ ["", "asm", "llvm"]) ∧ loaded = m.withDefaults := by
  rw [complete_eq]
  by_cases missing : m.package = ""
  · simp [missing]
  · by_cases known : m.backend ∈ ["", "asm", "llvm"]
    · simp only [missing, known, ↓reduceIte, Except.ok.injEq, ne_eq, not_false_eq_true, and_self,
        true_and]
      exact eq_comm
    · simp [missing, known]

theorem withDefaults_withDefaults (m : Manifest) :
    m.withDefaults.withDefaults = m.withDefaults := by
  have keeps (text other : String) (filled : other ≠ "") :
      (if (if text = "" then other else text) = "" then other
        else if text = "" then other else text) = if text = "" then other else text := by
    by_cases empty : text = "" <;> simp [empty, filled]
  simp only [withDefaults, mk.injEq, true_and, and_true]
  exact ⟨keeps _ _ (by decide), keeps _ _ (by decide), keeps _ _ (by decide), keeps _ _ (by decide)⟩

/-- What has been read is complete. -/
theorem complete_of_parse {bytes : List UInt8} {m : Manifest} (parsed : parse bytes = .ok m) :
    complete m = .ok m := by
  obtain ⟨loaded, completed⟩ : ∃ loaded, complete loaded = .ok m := by
    unfold parse at parsed
    split at parsed
    · cases parsed
    · next document _ =>
      cases loaded : ofDocument document with
      | error fault =>
        rw [loaded] at parsed
        cases parsed
      | ok loaded' =>
        rw [loaded] at parsed
        exact ⟨loaded', parsed⟩
  obtain ⟨⟨filled, known⟩, rfl⟩ := complete_eq_ok_iff.mp completed
  have known' : loaded.withDefaults.backend ∈ ["", "asm", "llvm"] := by
    by_cases empty : loaded.backend = ""
    · simp [withDefaults, empty]
    · simpa [withDefaults, empty] using known
  exact complete_eq_ok_iff.mpr ⟨⟨filled, known'⟩, (withDefaults_withDefaults loaded).symm⟩

theorem parse_render {m : Manifest} (oneLine : m.OneLine) :
    parse (Utf8.encode m.render) = complete m := by
  obtain ⟨size, document⟩ := ofBytes?_render oneLine
  rw [parse, document]
  exact congrArg (· >>= complete) (ofDocument_root oneLine size)

end Read

/-- Saving and loading a manifest loses nothing. What is written is a document with the texts of the
manifest under their names. It is refused exactly if the name of the package is missing or the
backend is unknown, and otherwise read back with the defaults in the place of empty texts. So what
has been read once is read again as it is. -/
theorem load_save_lossless (m : Manifest) (oneLine : m.OneLine) :
    (∃ size, Document.ofBytes? (Utf8.encode m.render) = some (some ⟨m.root, [], size⟩)) ∧
    ((∃ fault, parse (Utf8.encode m.render) = .error fault) ↔
      m.package = "" ∨ m.backend ∉ ["", "asm", "llvm"]) ∧
    (∀ loaded, parse (Utf8.encode m.render) = .ok loaded → loaded = m.withDefaults) ∧
    ∀ bytes, parse bytes = .ok m → parse (Utf8.encode m.render) = .ok m := by
  have parsed := parse_render oneLine
  refine ⟨ofBytes?_render oneLine, ?_, ?_, ?_⟩
  · rw [parsed, ← not_iff_not, not_or, not_not, ← ne_eq]
    constructor
    · intro accepted
      cases completed : complete m with
      | error fault => exact absurd ⟨fault, completed⟩ accepted
      | ok loaded => exact (complete_eq_ok_iff.mp completed).1
    · rintro good ⟨fault, refused⟩
      rw [complete_eq_ok_iff.mpr ⟨good, rfl⟩] at refused
      cases refused
  · intro loaded read
    rw [parsed] at read
    exact (complete_eq_ok_iff.mp read).2
  · intro bytes read
    rw [parsed]
    exact complete_of_parse read

theorem load_save_lookalikes :
    OneLine ⟨"~", "- x", "a: b", "", " #", ["it's", "a\tb", "0x1F", "", "true"]⟩ ∧
    parse (Utf8.encode
      (render ⟨"~", "- x", "a: b", "", " #", ["it's", "a\tb", "0x1F", "", "true"]⟩)) =
      .ok ⟨"~", "- x", "a: b", "asm", " #", ["it's", "a\tb", "0x1F", "", "true"]⟩ := by
  have oneLine : OneLine ⟨"~", "- x", "a: b", "", " #", ["it's", "a\tb", "0x1F", "", "true"]⟩ := by
    intro text member
    simp only [texts, List.mem_cons, List.not_mem_nil, or_false] at member
    unfold Yaml.Scalar.OneLine
    rcases member with rfl | rfl | rfl | rfl | rfl | rfl | rfl | rfl | rfl | rfl <;>
      simp [Yaml.Scalar.isLineEnd, Yaml.isBreak]
  obtain ⟨-, refused, loads, -⟩ := load_save_lossless _ oneLine
  refine ⟨oneLine, ?_⟩
  cases read : parse (Utf8.encode
      (render ⟨"~", "- x", "a: b", "", " #", ["it's", "a\tb", "0x1F", "", "true"]⟩)) with
  | error fault => exact absurd (refused.mp ⟨fault, read⟩) (by decide)
  | ok loaded =>
    rw [loads loaded read]
    rfl

end DeltaLang.Manifest
