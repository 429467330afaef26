import StackMachine.Proofs.CborItems
import StackMachine.Snapshot.Codec

/-!
# Stored snapshots

The stored form of a snapshot is one item, `Snapshot.item`, and that item stands for the snapshot
again. So what is stored can be read if its arrays keep to the limit on their length. A stack or a
program that is absent stays absent, and does not become an empty one.
-/

namespace StackMachine

namespace Cbor

/-! ### Items of records -/

namespace Item

/-- An array, or null if there is none. -/
def ofArray {α : Type} (element : α → Item) : Option (List α) → Item
  | none => null
  | some as => array (as.map element)

def ofInstruction (i : Instruction) : Item :=
  map [ofText "Opcode", ofInt i.tag.toNat, ofText "Operand", ofInt i.operand.toInt]

end Item

open Snapshot (encodeArray encodeInstruction optional?)

theorem yields_word (v : Int32) : Yields 0 (encodeInt v.toInt) (.ofInt v.toInt) := by
  have lower := v.le_toInt
  have upper := v.toInt_lt
  exact yields_encodeInt (by omega) (by omega)

theorem yields_encodeInstruction (i : Instruction) :
    Yields 1 (encodeInstruction i) (.ofInstruction i) := by
  have tag := i.tag.toNat_lt
  have fields :=
    (yields_encodeText "Opcode" (by decide)).cons <|
    (yields_encodeInt (n := i.tag.toNat) (by omega) (by omega)).cons <|
    (yields_encodeText "Operand" (by decide)).cons <|
    (yields_word i.operand).cons yieldsAll_nil
  simpa [encodeInstruction, Item.ofInstruction] using fields.map (n := 2) rfl (by decide)

theorem yields_encodeArray {α : Type} {height : Nat} {encode : α → List UInt8} {item : α → Item}
    (each : ∀ a, Yields height (encode a) (item a)) {as : Option (List α)}
    (short : (as.getD []).length ≤ maxLength) :
    Yields (height + 1) (encodeArray encode as) (.ofArray item as) := by
  cases as with
  | none => exact yields_encodeNull.mono (Nat.zero_le _)
  | some as =>
    have elements := yieldsAll_flatMap each as
    have array := elements.array (by simpa using short)
    rwa [List.length_map] at array

/-! ### Values of items -/

section Values

variable {α : Type} {absent : α} {wanted : Key → Bool} {read : Item → Option α} {n lo hi : Int}

theorem read?_ofInt (n : Int) : (Item.ofInt n).read? absent read = read (.ofInt n) := by
  unfold Item.ofInt
  split <;> rfl

theorem integer?_ofInt (h : lo ≤ n ∧ n ≤ hi) : (Item.ofInt n).integer? lo hi = some n := by
  unfold Item.ofInt
  split
  · have same : (n.toNat : Int) = n := by omega
    simp only [Item.integer?, same, if_pos h]
  · have same : -1 - ((-1 - n).toNat : Int) = n := by omega
    simp only [Item.integer?, same, if_pos h]

theorem word?_ofInt (v : Int32) : word? (.ofInt v.toInt) = some v := by
  rw [word?, read?_ofInt, integer?_ofInt ⟨v.minValue_le_toInt, v.toInt_le⟩]
  simp

theorem tag?_ofInt (tag : UInt8) : tag? (.ofInt tag.toNat) = some tag := by
  have upper := tag.toNat_lt
  rw [tag?, read?_ofInt, integer?_ofInt (by omega)]
  simp

theorem index?_ofInt (h : Int64.minValue.toInt ≤ n ∧ n ≤ Int64.maxValue.toInt) :
    index? (.ofInt n) = some n := by
  rw [index?, read?_ofInt, integer?_ofInt h]

theorem read?_ofBool (b : Bool) : (Item.ofBool b).read? false Item.bool? = some b := by
  cases b <;> rfl

theorem field?_of_wanted {key : Key} (h : wanted key = true) (item : Item)
    (entries : List (Key × Item)) :
    field? wanted absent read ((key, item) :: entries) = read item := by
  simp [field?, h]

theorem field?_of_not_wanted {key : Key} (h : wanted key = false) (item : Item)
    (entries : List (Key × Item)) :
    field? wanted absent read ((key, item) :: entries) = field? wanted absent read entries := by
  simp [field?, h]

end Values

theorem entries?_ofInstruction (tag operand : Item) :
    Item.entries? [.ofText "Opcode", tag, .ofText "Operand", operand] =
      some [(.name "Opcode", tag), (.name "Operand", operand)] := by
  have first : (Item.ofText "Opcode").key? = some (.name "Opcode") := by decide +kernel
  have second : (Item.ofText "Operand").key? = some (.name "Operand") := by decide +kernel
  simp only [Item.entries?, first, second]

theorem instruction?_ofInstruction (i : Instruction) :
    instruction? (.ofInstruction i) = some i := by
  simp only [instruction?, Item.ofInstruction, Item.read?, Item.content?, Item.isNull,
    entries?_ofInstruction]
  rw [field?_of_wanted (by decide), tag?_ofInt, field?_of_not_wanted (by decide),
    field?_of_wanted (by decide), word?_ofInt]
  rfl

theorem optional?_ofArray {α : Type} {element : Item → Option α} {item : α → Item}
    (each : ∀ a, element (item a) = some a) (as : Option (List α)) :
    optional? element (.ofArray item as) = some as := by
  cases as with
  | none => rfl
  | some as =>
    have elements : (as.map item).mapM element = some as := by
      induction as with
      | nil => rfl
      | cons a as ih => simp [each, ih]
    simp [optional?, Item.ofArray, Item.read?, Item.content?, Item.isNull, Item.array?, elements]

end Cbor

namespace Snapshot

open Cbor

/-- The item that a snapshot is stored as. -/
def item (s : Snapshot) : Item :=
  .map [
    .ofInt 1, .ofArray (fun v => .ofInt v.toInt) s.stack,
    .ofInt 2, .ofArray .ofInstruction s.program,
    .ofInt 3, .ofInt s.pc,
    .ofInt 4, .ofBool s.halted]

theorem yields_encode {s : Snapshot} (stack : (s.stack.getD []).length ≤ maxLength)
    (program : (s.program.getD []).length ≤ maxLength)
    (pc : Int64.minValue.toInt ≤ s.pc ∧ s.pc ≤ Int64.maxValue.toInt) :
    Yields 3 s.encode s.item := by
  have least : Int64.minValue.toInt = -2 ^ 63 := by decide
  have greatest : Int64.maxValue.toInt = 2 ^ 63 - 1 := by decide
  have key (n : Nat) (h : n < 24) : Yields 2 (encodeInt n) (.ofInt n) :=
    (yields_encodeInt (by omega) (by omega)).mono (by decide)
  have fields :=
    (key 1 (by decide)).cons <|
    ((yields_encodeArray yields_word stack).mono (by decide)).cons <|
    (key 2 (by decide)).cons <|
    (yields_encodeArray yields_encodeInstruction program).cons <|
    (key 3 (by decide)).cons <|
    ((yields_encodeInt (n := s.pc) (by omega) (by omega)).mono (by decide)).cons <|
    (key 4 (by decide)).cons <|
    ((yields_encodeBool s.halted).mono (by decide)).cons yieldsAll_nil
  simpa [encode, item] using fields.map (n := 4) rfl (by decide)

theorem ofItem?_item {s : Snapshot}
    (pc : Int64.minValue.toInt ≤ s.pc ∧ s.pc ≤ Int64.maxValue.toInt) :
    ofItem? s.item = some s := by
  have entries : ofItem? s.item = ofEntries? [
      (.number 1, .ofArray (fun v => .ofInt v.toInt) s.stack),
      (.number 2, .ofArray .ofInstruction s.program),
      (.number 3, .ofInt s.pc),
      (.number 4, .ofBool s.halted)] := rfl
  rw [entries, ofEntries?]
  simp (disch := decide) only [field?_of_wanted, field?_of_not_wanted,
    optional?_ofArray word?_ofInt, optional?_ofArray instruction?_ofInstruction, index?_ofInt pc,
    read?_ofBool]

/-- A snapshot is stored as one item, and reading what is stored gives the snapshot back, with an
empty stack or program kept apart from an absent one. An array may have 131072 elements. -/
theorem decode_stored_form (s : Snapshot) (stack : (s.stack.getD []).length ≤ 131072)
    (program : (s.program.getD []).length ≤ 131072)
    (pc : Int64.minValue.toInt ≤ s.pc ∧ s.pc ≤ Int64.maxValue.toInt) :
    Item.decode? s.encode = some s.item ∧ decode s.encode = .ok s := by
  have stored : Item.decode? s.encode = some s.item :=
    (yields_encode stack program pc).decode? (by decide)
  refine ⟨stored, ?_⟩
  simp [decode, decode?, stored, ofItem?_item pc]

/-- A machine at the least index, without a stack, and with an instruction that has no meaning. -/
theorem decode_stored_form_least :
    let s : Snapshot := { program := some [⟨255, -1⟩], pc := -9223372036854775808, halted := true }
    (s.stack.getD []).length = 0 ∧ (s.program.getD []).length = 1 ∧ s.pc = Int64.minValue.toInt ∧
      s.stack ≠ some [] ∧ Item.decode? s.encode = some s.item ∧ decode s.encode = .ok s := by
  intro s
  have stored := decode_stored_form s (by decide) (by decide) (by decide)
  exact ⟨rfl, rfl, by decide, by decide, stored⟩

end Snapshot

end StackMachine
