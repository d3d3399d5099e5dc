import Mathlib.Data.List.Basic

/-!
# Objects in memory

Objects live at addresses; new ones are placed at the next free addresses, and a write
replaces what is at an address.  A relation that every write respects relates the memory
before and after any list of writes.
-/

namespace Foundation.ObjectHeap

structure Heap (Value : Type) where
  cells : Nat → Value
  next : Nat

variable {Value : Type}

namespace Heap

def alloc (heap : Heap Value) (values : List Value) : Heap Value × List Nat :=
  ({ cells := fun address =>
      if address < heap.next then heap.cells address
      else (values[address - heap.next]?).getD (heap.cells address)
     next := heap.next + values.length },
    List.range' heap.next values.length)

def read (heap : Heap Value) (addresses : List Nat) : List (Nat × Value) :=
  addresses.map fun address => (address, heap.cells address)

def write (heap : Heap Value) (objects : List (Nat × Value)) : Heap Value :=
  objects.foldl
    (fun heap object => { heap with cells := Function.update heap.cells object.1 object.2 }) heap

variable (heap : Heap Value) (values : List Value)

@[simp] theorem next_alloc :
    (heap.alloc values).1.next = heap.next + values.length := rfl

theorem cells_alloc_of_lt {address : Nat} (old : address < heap.next) :
    (heap.alloc values).1.cells address = heap.cells address := if_pos old

theorem map_cells_alloc :
    (heap.alloc values).2.map (heap.alloc values).1.cells = values := by
  apply List.ext_getElem
  · simp [alloc]
  · intro position inRefs inValues
    have fresh : ¬heap.next + position < heap.next := by omega
    simp [alloc, inValues, fresh]

theorem mem_alloc {values : List Value} {address : Nat} (member : address ∈ (heap.alloc values).2) :
    heap.next ≤ address ∧ address < (heap.alloc values).1.next := by
  simpa [alloc, List.mem_range'_1] using member

/-- Two memories with the same next address: each address has the same new value in both, or
its old value in each. -/
theorem cells_alloc_cases (other : Heap Value) (same : heap.next = other.next) (values : List Value)
    (address : Nat) :
    (heap.alloc values).1.cells address = (other.alloc values).1.cells address ∨
      (heap.alloc values).1.cells address = heap.cells address ∧
        (other.alloc values).1.cells address = other.cells address := by
  unfold alloc
  dsimp only
  rw [same]
  split
  · exact .inr ⟨rfl, rfl⟩
  · cases values[address - other.next]? with
    | none => exact .inr ⟨rfl, rfl⟩
    | some value => exact .inl rfl

@[simp] theorem next_write (objects : List (Nat × Value)) :
    (heap.write objects).next = heap.next := by
  induction objects generalizing heap with
  | nil => rfl
  | cons object rest ih => exact ih _

theorem write_append (first second : List (Nat × Value)) :
    heap.write (first ++ second) = (heap.write first).write second :=
  List.foldl_append

theorem map_snd_read (addresses : List Nat) :
    (heap.read addresses).map Prod.snd = addresses.map heap.cells := by
  simp [read]

theorem write_related (relation : Value → Value → Prop) (original : Heap Value) (objects : List (Nat × Value))
    (start : ∀ address, relation (heap.cells address) (original.cells address))
    (respects : ∀ object ∈ objects, relation object.2 (original.cells object.1)) (address : Nat) :
    relation ((heap.write objects).cells address) (original.cells address) := by
  induction objects generalizing heap with
  | nil => exact start address
  | cons object rest ih =>
    refine ih _ (fun other => ?_) fun later member => respects later (List.mem_cons_of_mem _ member)
    by_cases here : other = object.1
    · subst here
      simpa using respects object List.mem_cons_self
    · simpa [Function.update_of_ne here] using start other

theorem cells_write_cases (other : Heap Value) (objects : List (Nat × Value)) (address : Nat) :
    (heap.write objects).cells address = (other.write objects).cells address ∨
      (heap.write objects).cells address = heap.cells address ∧
        (other.write objects).cells address = other.cells address := by
  induction objects generalizing heap other with
  | nil => exact .inr ⟨rfl, rfl⟩
  | cons object rest ih =>
    rcases ih { heap with cells := Function.update heap.cells object.1 object.2 }
      { other with cells := Function.update other.cells object.1 object.2 } with same | ⟨first, second⟩
    · exact .inl same
    · by_cases here : address = object.1
      · subst here
        refine .inl ((first.trans ?_).trans second.symm)
        simp
      · refine .inr ⟨first.trans ?_, second.trans ?_⟩ <;> exact Function.update_of_ne here _ _

end Heap

end Foundation.ObjectHeap
