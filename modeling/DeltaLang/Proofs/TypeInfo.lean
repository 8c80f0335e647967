import DeltaLang.Ir.TypeInfo
import DeltaLang.Proofs.Ir.Symbols
import DeltaLang.Proofs.Json
import DeltaLang.Proofs.Text.Utf8
import Mathlib.Data.String.Basic

namespace DeltaLang.TypeInfo

section Entries

/-- The names are in order, and each of them occurs once. -/
def Sorted (entries : List (String × String)) : Prop :=
  entries.Pairwise fun first second => first.1 < second.1

theorem Sorted.nodup {entries : List (String × String)} (sorted : Sorted entries) :
    (entries.map Prod.fst).Nodup :=
  List.pairwise_map.2 (sorted.imp fun before => before.ne)

theorem lookup_cons (name : String) (entry : String × String) (rest : List (String × String)) :
    (entry :: rest).lookup name = if name = entry.1 then some entry.2 else rest.lookup name := by
  by_cases same : name = entry.1
  · rw [if_pos same, same, List.lookup_cons_self]
  · rw [if_neg same, List.lookup_cons, beq_false_of_ne same]

theorem lookup_set (key value name : String) (entries : List (String × String)) :
    (set key value entries).lookup name =
      if name = key then some value else entries.lookup name := by
  fun_induction set key value entries with
  | case1 => exact lookup_cons ..
  | case2 k v rest before => exact lookup_cons ..
  | case3 v rest before =>
    by_cases same : name = key <;> simp [lookup_cons, same]
  | case4 k v rest before other ih =>
    rw [lookup_cons, ih, lookup_cons]
    by_cases here : name = k
    · have : name ≠ key := fun same => other (same.symm.trans here)
      rw [if_pos here, if_neg this, if_pos here]
    · rw [if_neg here, if_neg here]

theorem mem_set {key value : String} {entries : List (String × String)} {entry : String × String}
    (mem : entry ∈ set key value entries) : entry = (key, value) ∨ entry ∈ entries := by
  fun_induction set key value entries with
  | case1 => simpa using mem
  | case2 k v rest before => simpa using mem
  | case3 v rest before =>
    rcases List.mem_cons.1 mem with here | later
    · exact .inl here
    · exact .inr (List.mem_cons_of_mem _ later)
  | case4 k v rest before other ih =>
    rcases List.mem_cons.1 mem with here | later
    · exact .inr (here ▸ List.mem_cons_self)
    · exact (ih later).imp_right (List.mem_cons_of_mem _)

theorem Sorted.set {entries : List (String × String)} (sorted : Sorted entries)
    (key value : String) : Sorted (set key value entries) := by
  fun_induction TypeInfo.set key value entries with
  | case1 => exact List.pairwise_singleton ..
  | case2 k v rest before =>
    refine List.pairwise_cons.2 ⟨fun entry mem => ?_, sorted⟩
    rcases List.mem_cons.1 mem with rfl | later
    · exact before
    · exact before.trans ((List.pairwise_cons.1 sorted).1 entry later)
  | case3 v rest before => exact List.pairwise_cons.2 (List.pairwise_cons.1 sorted)
  | case4 k v rest before other ih =>
    obtain ⟨first, sorted⟩ := List.pairwise_cons.1 sorted
    refine List.pairwise_cons.2 ⟨fun entry mem => ?_, ih sorted⟩
    rcases mem_set mem with rfl | known
    · exact lt_of_le_of_ne (not_lt.1 before) (Ne.symm other)
    · exact first entry known

theorem set_last {key value : String} {entries : List (String × String)}
    (last : ∀ entry ∈ entries, entry.1 < key) :
    set key value entries = entries ++ [(key, value)] := by
  fun_induction set key value entries with
  | case1 => rfl
  | case2 k v rest before => exact absurd before (last (k, v) List.mem_cons_self).asymm
  | case3 v rest before => exact absurd (last (key, v) List.mem_cons_self) before
  | case4 k v rest before other ih =>
    rw [ih fun entry mem => last entry (List.mem_cons_of_mem _ mem), List.cons_append]

end Entries

section Functions

theorem lookup_functions (functions : List Function) (known : List (String × String))
    (name : String) :
    (functions.foldl (fun known f => set f.name (resultOf f) known) known).lookup name =
      ((functions.reverse.find? fun f => f.name = name).map resultOf).or (known.lookup name) := by
  induction functions generalizing known with
  | nil => rfl
  | cons f rest ih =>
    rw [List.foldl_cons, ih, lookup_set, List.reverse_cons, List.find?_append]
    cases found : rest.reverse.find? fun f => f.name = name with
    | some other => rfl
    | none =>
      by_cases same : f.name = name
      · simp [same]
      · simp [same, Ne.symm same]

theorem sorted_functions (functions : List Function) {known : List (String × String)}
    (sorted : Sorted known) :
    Sorted (functions.foldl (fun known f => set f.name (resultOf f) known) known) := by
  induction functions generalizing known with
  | nil => exact sorted
  | cons f rest ih => exact ih (sorted.set f.name (resultOf f))

end Functions

section Document

def field (entry : String × String) : Json.Field :=
  ⟨entry.1, Json.quote entry.2, .string entry.2⟩

/-- The table of all entries, which is the only field of the document. -/
def table (entries : List (String × String)) : Json.Field :=
  ⟨"functions", Json.object (entries.map fun entry => (entry.1, Json.quote entry.2)),
    .object (entries.map fun entry => (entry.1, .string entry.2))⟩

-- The fields come in order, so each of them is added at the end.
theorem addFunctions_sorted {known entries : List (String × String)}
    (sorted : Sorted (known ++ entries)) :
    addFunctions known (entries.map fun entry => (entry.1, .string entry.2)) =
      some (known ++ entries) := by
  induction entries generalizing known with
  | nil => rw [List.append_nil]; rfl
  | cons entry rest ih =>
    have last : ∀ other ∈ known, other.1 < entry.1 := fun other mem =>
      (List.pairwise_append.1 sorted).2.2 other mem entry List.mem_cons_self
    rw [List.append_cons] at sorted ⊢
    rw [← ih sorted, ← set_last last]
    rfl

theorem ofJson?_table {entries : List (String × String)} (sorted : Sorted entries) :
    ofJson? (.object [("functions", (table entries).value)]) = some ⟨some entries⟩ := by
  have added : addFunctions [] (entries.map fun entry => (entry.1, .string entry.2)) =
      some entries := addFunctions_sorted sorted
  have named : isFunctions "functions" = true := by decide
  simp [table, ofJson?, addField, named, added]

theorem denotes_table (entries : List (String × String)) :
    Json.Denotes (table entries).text.toList (table entries).value := by
  have quoted : ∀ f ∈ entries.map field, Json.Denotes f.text.toList f.value := by
    intro f mem
    obtain ⟨entry, -, rfl⟩ := List.mem_map.1 mem
    exact Json.denotes_quote entry.2
  have read := Json.denotes_object quoted
  rw [List.map_map, List.map_map] at read
  exact read

theorem parse?_toJson (entries : List (String × String)) :
    Json.parse? (toJson ⟨some entries⟩).toList =
      some (.object [("functions", (table entries).value)]) := by
  have fields : ∀ f ∈ [table entries], Json.Denotes f.text.toList f.value := by
    intro f mem
    rw [List.mem_singleton.1 mem]
    exact denotes_table entries
  have read := Json.denotes_object fields
  exact Json.parse?_of_denotes read

theorem dropZero_concat (bytes : List UInt8) : dropZero (bytes ++ [0]) = bytes := by
  rw [dropZero, if_pos List.getLast?_concat, List.dropLast_concat]

theorem ofBytes?_bytes {entries : List (String × String)} (sorted : Sorted entries) :
    ofBytes? (bytes ⟨some entries⟩) = some ⟨some entries⟩ := by
  rw [ofBytes?, bytes, dropZero_concat, Utf8.decode_encode, parse?_toJson]
  exact ofJson?_table sorted

end Document

/-- The globals are searched for the symbol, and the bytes of the first one are read. -/
theorem ofGlobals_eq_ok {globals : List Ir.Reader.ReadGlobal} {ident : Ir.Ident}
    {bytes : List UInt8} {info : TypeInfo}
    (found : (globals.find? fun g => g.ident = .named symbol) = some ⟨ident, some bytes⟩)
    (read : ofBytes? bytes = some info) : ofGlobals globals = .ok info := by
  simp only [ofGlobals, found, read]

end DeltaLang.TypeInfo

namespace DeltaLang.Ir

/-- A global as it is found by a reader that keeps names and bytes. -/
def Global.asRead (g : Global) : Reader.ReadGlobal :=
  ⟨.named g.name, some g.bytes⟩

-- The texts of a module come before its type information, but their names have dots.
theorem find?_typeGlobal {options : Options} {members : List Function}
    {parts : List (Definition × List Global)}
    (lowered : List.Forall₂ (fun f part => function options f = .ok part) members parts) :
    (((joined members parts).globals.map Global.asRead).find? fun g =>
      g.ident = .named TypeInfo.symbol) = some (typeGlobal (.functions members)).asRead := by
  have none_before : (((parts.map Prod.snd).flatten.map Global.asRead).find? fun g =>
      g.ident = .named TypeInfo.symbol) = none := by
    rw [List.find?_eq_none]
    intro g mem same
    obtain ⟨text, inside, rfl⟩ := List.mem_map.1 mem
    have dotted := parts_dotted lowered text inside
    have named : text.name = TypeInfo.symbol := by simpa [Global.asRead] using same
    rw [named] at dotted
    exact reserved_dotless TypeInfo.symbol List.mem_cons_self dotted
  rw [joined, List.map_append, List.find?_append, none_before]
  rfl

end DeltaLang.Ir

namespace DeltaLang

open Ir

/-- The type information of a generated module says for each name what the last function with that
name returns, and nothing else. -/
theorem typeInfo_survives {options : Options} {m : Module} {module : Ir.Module}
    (generated : Ir.generate options m = .ok module) :
    ∃ entries, TypeInfo.ofGlobals (module.globals.map Global.asRead) = .ok ⟨some entries⟩ ∧
      (entries.map Prod.fst).Nodup ∧
      ∀ name, entries.lookup name =
        (m.members.reverse.find? fun f => f.name = name).map fun f => f.result.getD "void" := by
  obtain ⟨parts, lowered, rfl⟩ := generate_parts generated
  have sorted := TypeInfo.sorted_functions m.members List.Pairwise.nil
  refine ⟨_, ?_, sorted.nodup, ?_⟩
  · exact TypeInfo.ofGlobals_eq_ok (find?_typeGlobal lowered) (TypeInfo.ofBytes?_bytes sorted)
  · intro name
    rw [TypeInfo.lookup_functions, List.lookup_nil, Option.or_none]
    rfl

/-- Names are kept that need escapes. Of two functions with one name the second counts, and the text
that prints a variable is passed over. -/
theorem typeInfo_survives_escapes :
    ∃ module, Ir.generate ⟨"a", 0, true⟩ (.functions [⟨"<\"\\é", [], some "u8", []⟩,
        ⟨"a", [], some "\u2028\n&", [.declare "x" (.lit "1" .number)]⟩,
        ⟨"<\"\\é", [], none, []⟩]) = .ok module ∧
      ∃ entries, TypeInfo.ofGlobals (module.globals.map Global.asRead) = .ok ⟨some entries⟩ ∧
        entries.lookup "<\"\\é" = some "void" ∧ entries.lookup "a" = some "\u2028\n&" ∧
        entries.lookup "x" = none := by
  obtain ⟨module, generated⟩ : ∃ module, Ir.generate ⟨"a", 0, true⟩
      (.functions [⟨"<\"\\é", [], some "u8", []⟩,
        ⟨"a", [], some "\u2028\n&", [.declare "x" (.lit "1" .number)]⟩,
        ⟨"<\"\\é", [], none, []⟩]) = .ok module := ⟨_, rfl⟩
  obtain ⟨entries, read, -, results⟩ := typeInfo_survives generated
  refine ⟨module, generated, entries, read, ?_, ?_, ?_⟩
  · rw [results]
    decide
  · rw [results]
    decide
  · rw [results]
    decide

end DeltaLang
