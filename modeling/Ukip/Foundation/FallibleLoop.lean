import Mathlib.Algebra.Group.Defs
import Mathlib.Data.List.Forall2

/-!
# Loops that stop at the first error

A loop whose body may raise is a monadic fold: its result is the state after the last item,
or the first error.  The rules below say what such a loop keeps, when it is through, and when
a second run over the same items changes nothing.  A loop that collects one answer for each
item has them all, or none.
-/

namespace Foundation.FallibleLoop

variable {State Item Error : Type}

variable {body : State → Item → Except Error State} {start final : State}

theorem bind_eq_ok {Answer Next : Type} {first : Except Error Answer}
    {later : Answer → Except Error Next} {result : Next} :
    first >>= later = .ok result ↔ ∃ answer, first = .ok answer ∧ later answer = .ok result := by
  cases first with
  | error raised => exact ⟨nofun, fun ⟨_, wrong, _⟩ => (nomatch wrong)⟩
  | ok answer =>
    constructor
    · intro finished
      exact ⟨answer, rfl, finished⟩
    · rintro ⟨_, same, finished⟩
      obtain rfl := Except.ok.inj same
      exact finished

theorem foldlM_cons_ok {item : Item} {rest : List Item} :
    (item :: rest).foldlM body start = .ok final ↔
      ∃ next, body start item = .ok next ∧ rest.foldlM body next = .ok final := by
  rw [List.foldlM_cons]
  exact bind_eq_ok

variable {items : List Item}

/-- The invariant rule: what the start has and every completed turn keeps, the result has. -/
theorem foldlM_kept {inv : State → Prop}
    (kept : ∀ state, inv state → ∀ item ∈ items, ∀ after, body state item = .ok after → inv after)
    (initial : inv start) (finished : items.foldlM body start = .ok final) : inv final := by
  induction items generalizing start with
  | nil =>
    obtain rfl := Except.ok.inj finished
    exact initial
  | cons item rest ih =>
    obtain ⟨next, turn, finished⟩ := foldlM_cons_ok.mp finished
    have here : inv next := kept start initial item List.mem_cons_self next turn
    have later : ∀ state, inv state → ∀ other ∈ rest, ∀ after,
        body state other = .ok after → inv after := fun state holds other member =>
      kept state holds other (List.mem_cons_of_mem item member)
    exact ih later here finished

/-- Where each turn is through exactly if its item is accepted, as long as the state is ready
for the item, and a turn leaves the state ready for the other items, the loop is through
exactly if every item is accepted. -/
theorem foldlM_ok_iff {Ready : State → Item → Prop} {Accepts : Item → Prop}
    {Apart : Item → Item → Prop} (decides : ∀ state item, Ready state item →
      ((∃ after, body state item = .ok after) ↔ Accepts item))
    (stays : ∀ state item after other, body state item = .ok after → Apart item other →
      Ready state other → Ready after other) (apart : items.Pairwise Apart) {start : State}
    (ready : ∀ item ∈ items, Ready start item) :
    (∃ final, items.foldlM body start = .ok final) ↔ ∀ item ∈ items, Accepts item := by
  induction items generalizing start with
  | nil => exact iff_of_true ⟨start, rfl⟩ nofun
  | cons item rest ih =>
    obtain ⟨here, later⟩ := List.pairwise_cons.mp apart
    have first := decides start item (ready item List.mem_cons_self)
    have others : ∀ next, body start item = .ok next → ∀ other ∈ rest, Ready next other :=
      fun next turn other member => stays start item next other turn (here other member)
        (ready other (List.mem_cons_of_mem item member))
    simp only [foldlM_cons_ok, List.forall_mem_cons]
    constructor
    · rintro ⟨final, next, turn, finished⟩
      exact ⟨first.mp ⟨next, turn⟩, (ih later (others next turn)).mp ⟨final, finished⟩⟩
    · rintro ⟨accepted, rest⟩
      obtain ⟨next, turn⟩ := first.mpr accepted
      obtain ⟨final, finished⟩ := (ih later (others next turn)).mpr rest
      exact ⟨final, next, turn, finished⟩

/-- What a turn leaves settled for its item, and the turns of the others do not unsettle, is
settled for every item at the end. -/
theorem foldlM_settles {Settled : State → Item → Prop} {Apart : Item → Item → Prop}
    (settles : ∀ state item after, body state item = .ok after → Settled after item)
    (stays : ∀ state item after other, body state item = .ok after → Apart other item →
      Settled state other → Settled after other) (apart : items.Pairwise Apart)
    (finished : items.foldlM body start = .ok final) : ∀ item ∈ items, Settled final item := by
  induction items generalizing start with
  | nil => exact nofun
  | cons item rest ih =>
    obtain ⟨here, later⟩ := List.pairwise_cons.mp apart
    obtain ⟨next, turn, finished⟩ := foldlM_cons_ok.mp finished
    refine List.forall_mem_cons.mpr ⟨?_, ih later finished⟩
    have kept : ∀ state, Settled state item → ∀ other ∈ rest, ∀ after,
        body state other = .ok after → Settled after item :=
      fun state settled other member after turn =>
        stays state other after item turn (here other member) settled
    have settled := foldlM_kept kept (settles start item next turn) finished
    exact settled

theorem foldlM_unseen {View : Type} {Settled : State → Item → Prop} (view : State → View)
    (absorbed : ∀ state item, Settled state item →
      ∃ after, body state item = .ok after ∧ view after = view state)
    (seen : ∀ first second item, view first = view second → Settled first item →
      Settled second item) {start : State} (settled : ∀ item ∈ items, Settled start item) :
    ∃ final, items.foldlM body start = .ok final ∧ view final = view start := by
  induction items generalizing start with
  | nil => exact ⟨start, rfl, rfl⟩
  | cons item rest ih =>
    obtain ⟨next, turn, same⟩ := absorbed start item (settled item List.mem_cons_self)
    obtain ⟨final, finished, later⟩ := ih fun other member =>
      seen start next other same.symm (settled other (List.mem_cons_of_mem item member))
    exact ⟨final, foldlM_cons_ok.mpr ⟨next, turn, finished⟩, later.trans same⟩

theorem foldlM_part {Part : Type} (part : State → Part) (moves : Part → Item → Part)
    (moved : ∀ state item after, body state item = .ok after → part after = moves (part state) item)
    (finished : items.foldlM body start = .ok final) :
    part final = items.foldl moves (part start) := by
  induction items generalizing start with
  | nil =>
    obtain rfl := Except.ok.inj finished
    rfl
  | cons item rest ih =>
    obtain ⟨next, turn, finished⟩ := foldlM_cons_ok.mp finished
    rw [List.foldl_cons, ← moved start item next turn]
    exact ih finished

section Collected

variable {Answer : Type} {items : List Item} {answers : List Answer}

variable {read : Item → Option Answer}

theorem forall₂_of_mapM (all : items.mapM read = some answers) :
    List.Forall₂ (fun item answer => item ∈ items ∧ read item = some answer) items answers := by
  induction items generalizing answers with
  | nil =>
    cases all
    exact .nil
  | cons head rest ih =>
    rw [List.mapM_cons] at all
    obtain ⟨first, reads, others⟩ := Option.bind_eq_some_iff.mp all
    obtain ⟨later, readRest, same⟩ := Option.bind_eq_some_iff.mp others
    cases same
    refine .cons ⟨List.mem_cons_self, reads⟩ ((ih readRest).imp fun item answer here => ?_)
    exact ⟨List.mem_cons_of_mem head here.1, here.2⟩

theorem mem_of_mapM_some (all : items.mapM read = some answers) {answer : Answer}
    (member : answer ∈ answers) : ∃ item ∈ items, read item = some answer := by
  induction items generalizing answers with
  | nil =>
    cases all
    cases member
  | cons head rest ih =>
    rw [List.mapM_cons] at all
    obtain ⟨first, reads, others⟩ := Option.bind_eq_some_iff.mp all
    obtain ⟨later, readRest, same⟩ := Option.bind_eq_some_iff.mp others
    cases same
    rcases List.mem_cons.mp member with rfl | inLater
    · exact ⟨head, List.mem_cons_self, reads⟩
    · obtain ⟨item, inside, reads⟩ := ih readRest inLater
      exact ⟨item, List.mem_cons_of_mem head inside, reads⟩

variable {f : Item → Except Error Answer}

theorem mapM_cons_ok {item : Item} {rest : List Item} (run : (item :: rest).mapM f = .ok answers) :
    ∃ first later, f item = .ok first ∧ rest.mapM f = .ok later ∧ first :: later = answers := by
  rw [List.mapM_cons] at run
  obtain ⟨first, head, run⟩ := bind_eq_ok.mp run
  obtain ⟨later, tail, run⟩ := bind_eq_ok.mp run
  exact ⟨first, later, head, tail, Except.ok.inj run⟩

theorem mem_of_mapM_ok (run : items.mapM f = .ok answers) {answer : Answer}
    (member : answer ∈ answers) : ∃ item ∈ items, f item = .ok answer := by
  induction items generalizing answers with
  | nil =>
    cases run
    cases member
  | cons item rest ih =>
    obtain ⟨first, others, head, tail, rfl⟩ := mapM_cons_ok run
    rcases List.mem_cons.mp member with rfl | later
    · exact ⟨item, List.mem_cons_self, head⟩
    · obtain ⟨found, foundMember, answered⟩ := ih tail later
      exact ⟨found, List.mem_cons_of_mem item foundMember, answered⟩

variable {value : Item → Answer}

theorem mapM_eq_ok_map (items : List Item) (answered : ∀ item ∈ items, f item = .ok (value item)) :
    items.mapM f = .ok (items.map value) := by
  induction items with
  | nil => rfl
  | cons item rest ih =>
    have later := ih fun other member => answered other (List.mem_cons_of_mem item member)
    rw [List.mapM_cons, answered item List.mem_cons_self, later]
    rfl

theorem exists_of_mapM_ok (run : items.mapM f = .ok answers) :
    ∀ item ∈ items, ∃ answer ∈ answers, f item = .ok answer := by
  induction items generalizing answers with
  | nil => exact nofun
  | cons item rest ih =>
    obtain ⟨first, others, head, tail, rfl⟩ := mapM_cons_ok run
    refine List.forall_mem_cons.mpr ⟨⟨first, List.mem_cons_self, head⟩, fun other member => ?_⟩
    obtain ⟨answer, inOthers, answered⟩ := ih tail other member
    exact ⟨answer, List.mem_cons_of_mem first inOthers, answered⟩

theorem mapM_eq_some_map (items : List Item) (reads : ∀ item ∈ items, read item = some (value item)) :
    items.mapM read = some (items.map value) := by
  induction items with
  | nil => rfl
  | cons item rest ih =>
    have later := ih fun other member => reads other (List.mem_cons_of_mem item member)
    rw [List.mapM_cons, reads item List.mem_cons_self, later]
    rfl

theorem mapM_map_of_forall {write : Item → Answer} {read : Answer → Option Item} (items : List Item)
    (back : ∀ item ∈ items, read (write item) = some item) :
    (items.map write).mapM read = some items := by
  rw [List.mapM_map]
  exact (mapM_eq_some_map items back).trans (by rw [List.map_id'])

theorem zipIdx_positions (items : List Item) :
    items.zipIdx.map Prod.snd = List.range items.length := by
  rw [List.zipIdx_map_snd, ← List.range_eq_range']

theorem zipIdx_items (value : Item → Answer) (items : List Item) :
    items.zipIdx.map (fun entry => value entry.1) = items.map value := by
  conv_rhs => rw [← List.zipIdx_map_fst 0 items, List.map_map]
  rfl

theorem mapM_range {read : Nat → Option Answer} (items : List Item)
    (reads : ∀ position item, items[position]? = some item → read position = some (value item)) :
    (List.range items.length).mapM read = some (items.map value) := by
  rw [← zipIdx_positions, List.mapM_map, ← zipIdx_items]
  refine mapM_eq_some_map _ fun entry member => ?_
  exact reads entry.2 entry.1 (List.mem_zipIdx_iff_getElem?.mp member)

theorem foldlM_range_add {Amount : Type} [AddMonoid Amount] {add : Amount → Nat → Option Amount}
    {amount : Item → Amount} (items : List Item) (adds : ∀ position item,
      items[position]? = some item → ∀ sum, add sum position = some (sum + amount item))
    (start : Amount) :
    (List.range items.length).foldlM add start = some (start + (items.map amount).sum) := by
  have added : ∀ entries : List (Item × Nat), (∀ entry ∈ entries, entry ∈ items.zipIdx) →
      ∀ sum, (entries.map Prod.snd).foldlM add sum =
        some (sum + (entries.map fun entry => amount entry.1).sum) := by
    intro entries within
    induction entries with
    | nil => exact fun sum => congrArg some (add_zero sum).symm
    | cons entry rest ih =>
      intro sum
      obtain ⟨here, later⟩ := List.forall_mem_cons.mp within
      rw [List.map_cons, List.foldlM_cons,
        adds entry.2 entry.1 (List.mem_zipIdx_iff_getElem?.mp here) sum, List.map_cons, List.sum_cons,
        ← add_assoc]
      exact ih later _
  rw [← zipIdx_positions items, ← zipIdx_items amount items]
  exact added _ (fun _ member => member) start

end Collected

end Foundation.FallibleLoop
