import DeltaLang.Proofs.Frame

namespace DeltaLang.Assembly

abbrev Word := BitVec 64

abbrev Memory := Word → BitVec 8

namespace Memory

/-- The number in `count` bytes from an address upwards. -/
def read (memory : Memory) (address : Word) : Nat → Nat
  | 0 => 0
  | count + 1 => (memory address).toNat + 256 * read memory (address + 1) count

/-- Writes `count` bytes of a number from an address upwards. -/
def write (memory : Memory) (address : Word) (count value : Nat) : Memory :=
  fun place =>
    let distance := (place - address).toNat
    if distance < count then BitVec.ofNat 8 (value / 256 ^ distance) else memory place

theorem read_lt (memory : Memory) (address : Word) (count : Nat) :
    memory.read address count < 256 ^ count := by
  induction count generalizing address with
  | zero => exact Nat.one_pos
  | succ count ih =>
    have rest := ih (address + 1)
    have first := (memory address).isLt
    rw [read, Nat.pow_succ]
    omega

theorem read_congr {memory other : Memory} {address : Word} {count : Nat}
    (same : ∀ i < count, memory (address + BitVec.ofNat 64 i) =
      other (address + BitVec.ofNat 64 i)) :
    memory.read address count = other.read address count := by
  induction count generalizing address with
  | zero => rfl
  | succ count ih =>
    have first := same 0 (by omega)
    simp only [BitVec.add_zero] at first
    rw [read, read, first, ih]
    intro i below
    have next := same (i + 1) (by omega)
    rwa [Nat.add_comm i 1, BitVec.ofNat_add, ← BitVec.add_assoc] at next

theorem read_of_bytes {memory : Memory} {address : Word} {count value : Nat}
    (bytes : ∀ i < count,
      memory (address + BitVec.ofNat 64 i) = BitVec.ofNat 8 (value / 256 ^ i)) :
    memory.read address count = value % 256 ^ count := by
  induction count generalizing address value with
  | zero => simp [read, Nat.mod_one]
  | succ count ih =>
    have first := bytes 0 (by omega)
    simp only [BitVec.add_zero, Nat.pow_zero, Nat.div_one] at first
    have rest : memory.read (address + 1) count = value / 256 % 256 ^ count := by
      apply ih
      intro i below
      have next := bytes (i + 1) (by omega)
      rwa [Nat.add_comm i 1, BitVec.ofNat_add, ← BitVec.add_assoc, Nat.pow_add, Nat.pow_one,
        ← Nat.div_div_eq_div_mul] at next
    have split : value % 256 ^ (count + 1) = value % 256 + 256 * (value / 256 % 256 ^ count) := by
      rw [Nat.pow_succ', Nat.mod_mul]
    rw [read, rest, first, split]
    rfl

theorem read_write_same (memory : Memory) (address : Word) {count : Nat} (value : Nat)
    (short : count ≤ 2 ^ 64) :
    (memory.write address count value).read address count = value % 256 ^ count := by
  apply read_of_bytes
  intro i below
  have distance : (address + BitVec.ofNat 64 i - address).toNat = i := by
    rw [BitVec.add_comm, BitVec.add_sub_cancel, BitVec.toNat_ofNat]
    exact Nat.mod_eq_of_lt (by omega)
  simp only [write, distance, below, ↓reduceIte]

end Memory

/-- Which addresses the bytes of a slot have, told by how far they are below the frame pointer. -/
theorem slot_distance_lt_iff (base place : Word) {offset count : Nat} (inside : count ≤ offset)
    (short : offset < 2 ^ 64) :
    (place - (base - BitVec.ofNat 64 offset)).toNat < count ↔
      offset < (base - place).toNat + count ∧ (base - place).toNat ≤ offset := by
  have turned : place - (base - BitVec.ofNat 64 offset) =
      BitVec.ofNat 64 offset - (base - place) := by bv_omega
  have bounded := (base - place).isLt
  rw [turned, BitVec.toNat_sub, BitVec.toNat_ofNat, Nat.mod_eq_of_lt short]
  omega

theorem slot_byte_distance (base : Word) {offset i : Nat} (inside : i ≤ offset)
    (short : offset < 2 ^ 64) :
    (base - (base - BitVec.ofNat 64 offset + BitVec.ofNat 64 i)).toNat = offset - i := by
  have turned : base - (base - BitVec.ofNat 64 offset + BitVec.ofNat 64 i) =
      BitVec.ofNat 64 offset - BitVec.ofNat 64 i := by bv_omega
  rw [turned, BitVec.toNat_sub, BitVec.toNat_ofNat, BitVec.toNat_ofNat, Nat.mod_eq_of_lt short]
  omega

def InSlot (base : Word) (slot : Slot) (place : Word) : Prop :=
  (place - (base - BitVec.ofNat 64 slot.offset)).toNat < slot.width

/-- The values in the slots of a frame are those of the variables declared so far. -/
structure Holds (slots : List Slot) (base : Word) (memory : Memory) (store : Store) : Prop where
  length : store.length ≤ slots.length
  entry : ∀ (i : Nat) (slot : Slot) (v : String × Constant),
    slots[i]? = some slot → store[i]? = some v →
    v.1 = slot.name ∧ v.2.type = slot.type ∧
      memory.read (base - BitVec.ofNat 64 slot.offset) slot.width = v.2.toNat

/-- A frame whose slots all have addresses of their own. -/
structure Addressable (frame : Frame) : Prop where
  wellFormed : frame.WellFormed
  fits : frame.size < 2 ^ 64

namespace Addressable

variable {frame : Frame} (addressable : Addressable frame)
include addressable

theorem bounds {slot : Slot} (member : slot ∈ frame.slots) :
    8 + slot.width ≤ slot.offset ∧ slot.offset ≤ frame.size ∧ frame.size + 16 ≤ 2 ^ 64 := by
  have below := (addressable.wellFormed.stacked.below slot member).2
  have inside := addressable.wellFormed.offset_le_size member
  obtain ⟨units, whole⟩ := addressable.wellFormed.aligned
  have fits := addressable.fits
  have start : Frame.returnSlot = 8 := rfl
  refine ⟨by omega, inside, by omega⟩

/-- A byte of a slot belongs to no other slot. -/
theorem apart {i j : Nat} {slot other : Slot} (here : frame.slots[i]? = some slot)
    (there : frame.slots[j]? = some other) (different : i ≠ j) (base : Word) {k : Nat}
    (inside : k < slot.width) :
    ¬InSlot base other (base - BitVec.ofNat 64 slot.offset + BitVec.ofNat 64 k) := by
  obtain ⟨iBound, rfl⟩ := List.getElem?_eq_some_iff.mp here
  obtain ⟨jBound, rfl⟩ := List.getElem?_eq_some_iff.mp there
  have first := addressable.bounds (List.getElem_mem iBound)
  have second := addressable.bounds (List.getElem_mem jBound)
  have ordered := List.pairwise_iff_getElem.mp addressable.wellFormed.stacked.pairwise
  unfold InSlot
  rw [slot_distance_lt_iff base _ (by omega) (by omega),
    slot_byte_distance base (by omega) (by omega)]
  rcases Nat.lt_or_gt_of_ne different with before | after
  · have gap := ordered i j iBound jBound before
    omega
  · have gap := ordered j i jBound iBound after
    omega

end Addressable

theorem Holds.values {slots : List Slot} {base : Word} {memory other : Memory} {store : Store}
    (held : Holds slots base memory store)
    (same : ∀ slot ∈ slots, ∀ k < slot.width,
      other (base - BitVec.ofNat 64 slot.offset + BitVec.ofNat 64 k) =
        memory (base - BitVec.ofNat 64 slot.offset + BitVec.ofNat 64 k)) :
    Holds slots base other store := by
  refine ⟨held.length, fun i slot v here value => ?_⟩
  obtain ⟨name, type, read⟩ := held.entry i slot v here value
  refine ⟨name, type, (Memory.read_congr ?_).trans read⟩
  exact same slot (List.mem_of_getElem? here)

namespace Addressable

variable {frame : Frame} (addressable : Addressable frame)
include addressable

/-- Writing a slot gives its variable a new value and leaves all others alone. -/
theorem holds_write {base : Word} {memory : Memory} {store after : Store} {i : Nat} {slot : Slot}
    {value : Constant} (held : Holds frame.slots base memory store)
    (here : frame.slots[i]? = some slot) (typed : value.type = slot.type)
    (small : value.toNat < 256 ^ slot.width) (length : after.length ≤ frame.slots.length)
    (written : after[i]? = some (slot.name, value))
    (kept : ∀ j v, j ≠ i → after[j]? = some v → store[j]? = some v) :
    Holds frame.slots base
      (memory.write (base - BitVec.ofNat 64 slot.offset) slot.width value.toNat) after := by
  refine ⟨length, fun j other v there present => ?_⟩
  by_cases same : j = i
  · subst same
    rw [here] at there
    rw [written] at present
    cases there
    cases present
    have bounds := addressable.bounds (List.mem_of_getElem? here)
    refine ⟨rfl, typed, ?_⟩
    rw [Memory.read_write_same _ _ _ (by omega), Nat.mod_eq_of_lt small]
  · obtain ⟨name, type, read⟩ := held.entry j other v there (kept j v same present)
    refine ⟨name, type, (Memory.read_congr fun k inside => ?_).trans read⟩
    have outside := addressable.apart there here same base inside
    unfold InSlot at outside
    simp only [Memory.write, outside, ↓reduceIte]

theorem holds_declare {base : Word} {memory : Memory} {store : Store} {slot : Slot}
    {value : Constant} (held : Holds frame.slots base memory store)
    (here : frame.slots[store.length]? = some slot) (typed : value.type = slot.type)
    (small : value.toNat < 256 ^ slot.width) :
    Holds frame.slots base
      (memory.write (base - BitVec.ofNat 64 slot.offset) slot.width value.toNat)
      (store.declare slot.name value) := by
  have inside := (List.getElem?_eq_some_iff.mp here).1
  refine addressable.holds_write held here typed small ?_ ?_ ?_
  · simp only [Store.declare, List.length_append, List.length_singleton]
    omega
  · simp [Store.declare]
  · intro j v different present
    have bound := (List.getElem?_eq_some_iff.mp present).1
    simp only [Store.declare, List.length_append, List.length_singleton] at bound
    rwa [Store.declare, List.getElem?_append_left (by omega)] at present

theorem holds_assign {base : Word} {memory : Memory} {store : Store} {i : Nat} {slot : Slot}
    {value : Constant} (held : Holds frame.slots base memory store)
    (here : frame.slots[i]? = some slot) (inside : i < store.length)
    (typed : value.type = slot.type) (small : value.toNat < 256 ^ slot.width) :
    Holds frame.slots base
      (memory.write (base - BitVec.ofNat 64 slot.offset) slot.width value.toNat)
      (store.set i (slot.name, value)) := by
  refine addressable.holds_write held here typed small ?_ ?_ ?_
  · rw [List.length_set]
    exact held.length
  · rw [List.getElem?_set_self inside]
  · intro j v different present
    rwa [List.getElem?_set_ne different.symm] at present

end Addressable

end DeltaLang.Assembly
