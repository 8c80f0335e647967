import DeltaLang.Proofs.Functions
import DeltaLang.Proofs.Ir.Correctness
import DeltaLang.Proofs.Text.Identifier

namespace DeltaLang.Ir

/-- The names that all of a program shares, in the order in which they are printed. -/
def Module.symbols (module : Module) : List String :=
  module.globals.map Global.name ++ (builtins ++ module.definitions.map Definition.name)

section Texts

theorem dumpGlobal_text (owner : String) (cell : Cell) :
    (dumpGlobal owner cell).name.toList =
      ("dump." ++ owner).toList ++ '.' :: Nat.toDigits 10 cell.index := by
  simp [dumpGlobal]

theorem dumpGlobal_dotted (owner : String) (cell : Cell) :
    '.' ∈ (dumpGlobal owner cell).name.toList := by
  rw [dumpGlobal_text]
  exact List.mem_append_right _ List.mem_cons_self

theorem dump_names_nodup {cells : List Cell} (numbered : Numbered cells) (owner : String) :
    ((cells.map (dumpGlobal owner)).map Global.name).Nodup := by
  rw [List.map_map]
  apply List.Nodup.map_on _ numbered.nodup
  intro first isFirst second isSecond same
  obtain ⟨i, there⟩ := List.mem_iff_getElem?.mp isFirst
  obtain ⟨j, other⟩ := List.mem_iff_getElem?.mp isSecond
  have texts := congrArg String.toList same
  simp only [Function.comp, dumpGlobal_text] at texts
  have index := (numbered_inj (by decide) (by decide) texts).2.2
  rw [(numbered i first there).1, (numbered j second other).1] at index
  rw [index, other] at there
  exact (Option.some.inj there).symm

variable {options : Options} {f : Function} {part : Definition × List Global}
  (lowered : function options f = .ok part)

include lowered

/-- Only the entry function prints its variables, with texts of different names. -/
theorem function_texts :
    (f.name ≠ options.entryName → part.2 = []) ∧ (part.2.map Global.name).Nodup ∧
      ∀ text ∈ part.2, '.' ∈ text.name.toList := by
  obtain ⟨-, state, emitted, rfl⟩ := function_eq_ok lowered
  have numbered := (statements_wellFormed .start emitted).numbered
  unfold finished
  by_cases other : f.name ≠ options.entryName
  · rw [if_pos other]
    exact ⟨fun _ => rfl, List.nodup_nil, nofun⟩
  · rw [if_neg other]
    refine ⟨fun contrary => absurd contrary other, ?_, ?_⟩
    · cases options.dumpLocals with
      | true => exact dump_names_nodup numbered f.name
      | false => exact List.nodup_nil
    · intro text member
      obtain ⟨cell, -, rfl⟩ := List.mem_map.mp member
      exact dumpGlobal_dotted f.name cell

theorem function_name : part.1.name = f.name := by
  obtain ⟨-, state, -, rfl⟩ := function_eq_ok lowered
  exact finished_name options f state

end Texts

section Parts

variable {options : Options} {members : List Function} {parts : List (Definition × List Global)}
  (lowered : List.Forall₂ (fun f part => function options f = .ok part) members parts)

include lowered

theorem parts_names : (parts.map Prod.fst).map Definition.name = members.map Function.name := by
  induction lowered with
  | nil => rfl
  | cons first later ih =>
    simp only [List.map_cons, ih]
    rw [function_name first]

theorem parts_dotted : ∀ text ∈ (parts.map Prod.snd).flatten, '.' ∈ text.name.toList := by
  intro text member
  obtain ⟨texts, isPart, inside⟩ := List.mem_flatten.mp member
  obtain ⟨part, found, rfl⟩ := List.mem_map.mp isPart
  obtain ⟨f, -, lowers⟩ := forall₂_exists_left lowered found
  exact (function_texts lowers).2.2 text inside

theorem parts_silent (others : ∀ f ∈ members, f.name ≠ options.entryName) :
    (parts.map Prod.snd).flatten = [] := by
  rw [List.flatten_eq_nil_iff]
  intro texts isPart
  obtain ⟨part, found, rfl⟩ := List.mem_map.mp isPart
  obtain ⟨f, member, lowers⟩ := forall₂_exists_left lowered found
  exact (function_texts lowers).1 (others f member)

/-- Functions have different names, so at most one of them prints its variables. -/
theorem parts_texts_nodup (once : (members.map Function.name).Nodup) :
    ((parts.map Prod.snd).flatten.map Global.name).Nodup := by
  induction lowered with
  | nil => exact List.nodup_nil
  | @cons f part rest others first later ih =>
    obtain ⟨alone, once⟩ := List.nodup_cons.mp once
    obtain ⟨silent, distinct, -⟩ := function_texts first
    -- the entry function prints alone, so the texts of different functions never meet
    by_cases entry : f.name = options.entryName
    · have restSilent : (others.map Prod.snd).flatten = [] := by
        apply parts_silent later
        intro g member same
        apply alone
        rw [entry, ← same]
        exact List.mem_map_of_mem member
      rw [List.map_cons, List.flatten_cons, restSilent, List.append_nil]
      exact distinct
    · rw [List.map_cons, List.flatten_cons, silent entry, List.nil_append]
      exact ih once

theorem joined_symbols : (joined members parts).symbols =
    (parts.map Prod.snd).flatten.map Global.name ++
      ((TypeInfo.symbol :: builtins) ++ members.map Function.name) := by
  rw [← parts_names lowered, Module.symbols, joined, List.map_append, List.append_assoc]
  rfl

end Parts

theorem reserved_dotless : ∀ name ∈ TypeInfo.symbol :: builtins, '.' ∉ name.toList := by
  decide

/-- Besides its texts a module has dotless symbols only. They are different if no function takes a
builtin or the type information. -/
theorem names_nodup_iff {members : List Function} (distinct : Distinct members)
    (clear : ∀ name ∈ builtins, ∀ f ∈ members, f.name ≠ name) :
    ((TypeInfo.symbol :: builtins) ++ members.map Function.name).Nodup ↔
      ∀ f ∈ members, f.name ≠ TypeInfo.symbol := by
  have reserved : (TypeInfo.symbol :: builtins).Nodup := by decide
  rw [List.nodup_append]
  constructor
  · rintro ⟨-, -, apart⟩ f member same
    exact apart TypeInfo.symbol List.mem_cons_self f.name (List.mem_map_of_mem member) same.symm
  · intro free
    refine ⟨reserved, distinct.once, ?_⟩
    intro name isReserved other isFunction same
    obtain ⟨f, member, rfl⟩ := List.mem_map.mp isFunction
    rcases List.mem_cons.mp isReserved with rfl | builtin
    · exact free f member same.symm
    · exact clear name builtin f member same.symm

end DeltaLang.Ir

namespace DeltaLang

open Ir

/-- The symbols of a generated module are different, unless a function has the name of the type
information. -/
theorem symbols_nodup_iff {options : Options} {m : Module} {module : Ir.Module}
    (generated : Ir.generate options m = .ok module) (distinct : Distinct m.members) :
    module.symbols.Nodup ↔ ∀ f ∈ m.members, f.name ≠ TypeInfo.symbol := by
  obtain ⟨parts, lowered, rfl⟩ := generate_parts generated
  obtain ⟨_, checked, -⟩ := bind_eq_ok.mp generated
  obtain ⟨-, clear⟩ := Module.check_eq_ok checked
  have apart : ∀ text ∈ (parts.map Prod.snd).flatten.map Global.name,
      ∀ name ∈ (TypeInfo.symbol :: builtins) ++ m.members.map Function.name, text ≠ name := by
    intro text isText name isName same
    obtain ⟨global, found, rfl⟩ := List.mem_map.mp isText
    have dotted := parts_dotted lowered global found
    rw [same] at dotted
    rcases List.mem_append.mp isName with isReserved | isFunction
    · exact reserved_dotless name isReserved dotted
    · obtain ⟨f, member, rfl⟩ := List.mem_map.mp isFunction
      exact isIdentifier_dotless (distinct.identifiers f member) dotted
  rw [joined_symbols lowered, List.nodup_append,
    names_nodup_iff distinct fun name builtin => (clear name builtin).2]
  constructor
  · exact fun all => all.2.1
  · exact fun free => ⟨parts_texts_nodup lowered distinct.once, free, apart⟩

/-- A function that takes the name of the type information is accepted. -/
theorem symbols_clash_types :
    ∃ module, Ir.generate ⟨"", 0, false⟩ (.functions [⟨"__delta_types", [], none, []⟩]) =
        .ok module ∧
      Distinct [⟨"__delta_types", [], none, []⟩] ∧
      module.symbols = ["__delta_types", "exit", "printf", "__delta_types"] ∧
      ¬module.symbols.Nodup := by
  obtain ⟨module, generated⟩ : ∃ module, Ir.generate ⟨"", 0, false⟩
      (.functions [⟨"__delta_types", [], none, []⟩]) = .ok module := ⟨_, rfl⟩
  have distinct : Distinct [⟨"__delta_types", [], none, []⟩] := ⟨by decide, by decide⟩
  refine ⟨module, generated, distinct, ?_, ?_⟩
  · cases generated
    rfl
  · rw [symbols_nodup_iff generated distinct]
    intro free
    exact free _ List.mem_cons_self rfl

end DeltaLang
