import Ukip.Foundation.GlobPattern
import Ukip.Foundation.KeyedTable

/-!
# The two cache backends

`cache/inprocess_backend.py` and `cache/redis_backend.py` behind one interface, without expiry,
eviction or a failing connection.  One compares the start of its keys, the other asks the server
for the keys that a pattern matches.
-/

namespace Ukip.Cache.Backends

open Foundation.GlobPattern Foundation.KeyedTable

variable {Value Wire : Type}

inductive Call (Value : Type) where
  | get (key : String)
  | set (key : String) (value : Value)
  | delete (key : String)
  | invalidatePrefix (start : String)
  | existsPrefix (start : String)

inductive Answer (Value : Type) where
  | found (value : Value)
  | miss
  | none
  | deleted (there : Bool)
  | removed (count : Nat)
  | present (there : Bool)
  deriving DecidableEq

def answers {State Request Reply : Type} (step : State → Request → Reply × State) :
    State → List Request → List Reply
  | _, [] => []
  | state, call :: rest => (step state call).1 :: answers step (step state call).2 rest

def startsWith (key start : String) : Bool := start.toList.isPrefixOf key.toList

def hasKey {Entry : Type} (store : List (String × Entry)) (key : String) : Bool :=
  store.any fun entry => entry.1 == key

/-- `del store[key]` -/
def remove {Entry : Type} (store : List (String × Entry)) (key : String) : List (String × Entry) :=
  store.filter fun entry => entry.1 != key

/-- `InProcessBackend` -/
def inProcess (store : List (String × Value)) : Call Value → Answer Value × List (String × Value)
  | .get key =>
    match store.lookup key with
    | some value => (.found value, store)
    | none => (.miss, store)
  | .set key value => (.none, assign Prod.fst store (key, value))
  | .delete key =>
    if hasKey store key then (.deleted true, remove store key) else (.deleted false, store)
  | .invalidatePrefix start =>
    let matching := (store.map Prod.fst).filter fun key => startsWith key start
    (.removed matching.length, matching.foldl remove store)
  | .existsPrefix start => (.present (store.any fun entry => startsWith entry.1 start), store)

/-- The serializer and deserializer of a cache and the two functions of `json`; `none` is a
TypeError or ValueError. -/
structure Codec (Value Wire : Type) where
  serialize : Value → Wire
  deserialize : Wire → Option Value
  dumps : Wire → Option String
  loads : String → Option Wire

/-- A value that comes out of JSON as it went in. -/
def Representable (codec : Codec Value Wire) (value : Value) : Prop :=
  ∃ payload, codec.dumps (codec.serialize value) = some payload ∧
    (codec.loads payload).bind codec.deserialize = some value

/-- `SCAN … MATCH`, as `scan_iter` iterates it: each key that matches comes at least once. -/
structure Server where
  scan : String → List String → List String
  scan_matches : ∀ (pattern : String) (keys : List String) (key : String),
    key ∈ scan pattern keys ↔ key ∈ keys ∧ matchesGlob pattern.toList key.toList = true

/-- `DEL` of several keys, with the number of those that were there. -/
def deleteKeys (store : List (String × String)) : List String → Nat × List (String × String)
  | [] => (0, store)
  | key :: rest =>
    let later := deleteKeys (remove store key) rest
    ((if hasKey store key then 1 else 0) + later.1, later.2)

def scanBatch : Nat := 256

/-- The loop of `invalidate_prefix` over the scanned keys. -/
def deleteScanned (store : List (String × String)) (batch : List String) (count : Nat) :
    List String → Nat × List (String × String)
  | [] =>
    if batch = [] then (count, store)
    else (count + (deleteKeys store batch).1, (deleteKeys store batch).2)
  | key :: rest =>
    if scanBatch ≤ (batch ++ [key]).length then
      deleteScanned (deleteKeys store (batch ++ [key])).2 []
        (count + (deleteKeys store (batch ++ [key])).1) rest
    else deleteScanned store (batch ++ [key]) count rest

/-- `f"{config.GLOBAL_PREFIX}:{namespace}:"` -/
def scopeOf (globalPrefix namespaceName : String) : String :=
  globalPrefix ++ ":" ++ namespaceName ++ ":"

variable (codec : Codec Value Wire) (server : Server) (scope : String)

/-- `RedisBackend` -/
def redis (store : List (String × String)) : Call Value → Answer Value × List (String × String)
  | .get key =>
    match store.lookup (scope ++ key) with
    | none => (.miss, store)
    | some raw =>
      match (codec.loads raw).bind codec.deserialize with
      | some value => (.found value, store)
      | none => (.miss, (deleteKeys store [scope ++ key]).2)
  | .set key value =>
    match codec.dumps (codec.serialize value) with
    | none => (.none, store)
    | some payload => (.none, assign Prod.fst store (scope ++ key, payload))
  | .delete key =>
    (.deleted ((deleteKeys store [scope ++ key]).1 ≠ 0), (deleteKeys store [scope ++ key]).2)
  | .invalidatePrefix start =>
    let outcome := deleteScanned store [] 0
      (server.scan (scope ++ start ++ "*") (store.map Prod.fst))
    (.removed outcome.1, outcome.2)
  | .existsPrefix start =>
    (.present !(server.scan (scope ++ start ++ "*") (store.map Prod.fst)).isEmpty, store)

variable {Entry : Type} (keys : List String) (store : List (String × Entry))

theorem foldl_remove :
    keys.foldl remove store = store.filter fun entry => !keys.contains entry.1 := by
  induction keys generalizing store with
  | nil => simp
  | cons key rest ih =>
    rw [List.foldl_cons, ih, remove, List.filter_filter]
    refine List.filter_congr fun entry _ => ?_
    rw [List.contains_cons, Bool.not_or, Bool.and_comm]
    rfl

theorem deleteKeys_store (store : List (String × String)) :
    (deleteKeys store keys).2 = keys.foldl remove store := by
  induction keys generalizing store with
  | nil => rfl
  | cons key rest ih => exact ih (remove store key)

theorem remove_length {store : List (String × Entry)} (key : String)
    (distinct : (store.map Prod.fst).Nodup) :
    (if hasKey store key then 1 else 0) + (remove store key).length = store.length := by
  have split := store.length_eq_length_filter_add fun entry => entry.1 == key
  have once : (store.filter fun entry => entry.1 == key).length =
      if hasKey store key then 1 else 0 := by
    rw [← List.countP_eq_length_filter]
    have counted : store.countP (fun entry => entry.1 == key) = (store.map Prod.fst).count key := by
      rw [List.count, List.countP_map]
      rfl
    have there : key ∈ store.map Prod.fst ↔ hasKey store key = true := by
      simp [hasKey, List.any_eq_true]
    rw [counted, distinct.count, if_congr there rfl rfl]
  rw [once] at split
  exact split.symm

theorem deleteKeys_count {store : List (String × String)} (distinct : (store.map Prod.fst).Nodup) :
    (deleteKeys store keys).1 = (store.filter fun entry => keys.contains entry.1).length := by
  have total : (deleteKeys store keys).1 + (deleteKeys store keys).2.length = store.length := by
    induction keys generalizing store with
    | nil => simp [deleteKeys]
    | cons key rest ih =>
      have first := remove_length key distinct
      have later := ih (distinct.sublist (List.filter_sublist.map Prod.fst) :
        ((remove store key).map Prod.fst).Nodup)
      simp only [deleteKeys]
      omega
  have split := store.length_eq_length_filter_add fun entry => keys.contains entry.1
  rw [deleteKeys_store, foldl_remove] at total
  omega

theorem deleteKeys_append (first second : List String) (store : List (String × String)) :
    deleteKeys store (first ++ second) =
      ((deleteKeys store first).1 + (deleteKeys (deleteKeys store first).2 second).1,
        (deleteKeys (deleteKeys store first).2 second).2) := by
  induction first generalizing store with
  | nil => simp [deleteKeys]
  | cons key rest ih => simp [deleteKeys, ih, Nat.add_assoc]

theorem deleteScanned_eq (keys batch : List String) (count : Nat) (store : List (String × String)) :
    deleteScanned store batch count keys =
      (count + (deleteKeys store (batch ++ keys)).1, (deleteKeys store (batch ++ keys)).2) := by
  induction keys generalizing store batch count with
  | nil =>
    unfold deleteScanned
    split
    · rename_i empty
      simp [empty, deleteKeys]
    · rw [List.append_nil]
  | cons key rest ih =>
    have joined : batch ++ key :: rest = (batch ++ [key]) ++ rest := by simp
    unfold deleteScanned
    split
    · rw [ih, joined, deleteKeys_append (batch ++ [key]), List.nil_append, Nat.add_assoc]
    · rw [ih, joined]

variable {codec server scope}

theorem startsWith_iff {key start : String} :
    startsWith key start = true ↔ start.toList <+: key.toList := List.isPrefixOf_iff_prefix

theorem startsWith_scope (scope key start : String) :
    startsWith (scope ++ key) (scope ++ start) = startsWith key start := by
  refine Bool.eq_iff_iff.mpr ?_
  simp only [startsWith_iff, String.toList_append, List.prefix_append_right_inj]

theorem scope_injective {scope first second : String} (same : scope ++ first = scope ++ second) :
    first = second := by
  have lists := congrArg String.toList same
  rw [String.toList_append, String.toList_append] at lists
  exact String.toList_inj.mp (List.append_cancel_left lists)

def payloadOf (codec : Codec Value Wire) (value : Value) : String :=
  (codec.dumps (codec.serialize value)).getD ""

def wired (codec : Codec Value Wire) (scope : String) (entry : String × Value) : String × String :=
  (scope ++ entry.1, payloadOf codec entry.2)

/-- Under the scope Redis holds what the process holds, in the same order. -/
structure Mirrors (codec : Codec Value Wire) (scope : String) (cached : List (String × Value))
    (stored : List (String × String)) : Prop where
  distinct : (stored.map Prod.fst).Nodup
  own : (stored.filter fun entry => startsWith entry.1 scope) = cached.map (wired codec scope)
  decodes : ∀ entry ∈ cached,
    (codec.loads (payloadOf codec entry.2)).bind codec.deserialize = some entry.2

theorem own_key (scope key : String) : startsWith (scope ++ key) scope = true := by
  rw [startsWith_iff, String.toList_append]
  exact List.prefix_append scope.toList key.toList

theorem lookup_filter {keeps : String × Entry → Bool} {key : String}
    (kept : ∀ entry, entry.1 = key → keeps entry = true) :
    (store.filter keeps).lookup key = store.lookup key := by
  induction store with
  | nil => rfl
  | cons entry rest ih =>
    obtain ⟨stored, value⟩ := entry
    by_cases here : key = stored
    · subst here
      simp [kept (key, value) rfl, List.lookup]
    · have apart : (key == stored) = false := by simpa using here
      rw [List.filter_cons]
      split
      · simp only [List.lookup, apart, ih]
      · simp only [List.lookup, apart, ih]

theorem lookup_wired (codec : Codec Value Wire) (scope key : String) (cached : List (String × Value)) :
    (cached.map (wired codec scope)).lookup (scope ++ key) =
      (cached.lookup key).map (payloadOf codec) := by
  induction cached with
  | nil => rfl
  | cons entry rest ih =>
    obtain ⟨stored, value⟩ := entry
    by_cases here : key = stored
    · subst here
      simp [wired, List.lookup]
    · have apart : (key == stored) = false := by simpa using here
      have wiredApart : (scope ++ key == scope ++ stored) = false := by
        simpa using fun same : scope ++ key = scope ++ stored => here (scope_injective same)
      simp only [List.map_cons, wired, List.lookup, apart, wiredApart]
      exact ih

theorem Mirrors.lookup {cached : List (String × Value)} {stored : List (String × String)}
    (mirrors : Mirrors codec scope cached stored) (key : String) :
    stored.lookup (scope ++ key) = (cached.lookup key).map (payloadOf codec) := by
  rw [← lookup_wired, ← mirrors.own, lookup_filter stored fun entry same => by
    rw [same]
    exact own_key scope key]

variable {cached : List (String × Value)} {stored : List (String × String)}

theorem hasKey_eq (key : String) :
    hasKey store key = (store.lookup key).isSome := by
  refine Bool.eq_iff_iff.mpr ?_
  rw [List.lookup_isSome_iff, hasKey, List.any_eq_true]
  simp only [Bool.beq_comm (a := key)]

theorem Mirrors.hasKey (mirrors : Mirrors codec scope cached stored) (key : String) :
    hasKey stored (scope ++ key) = hasKey cached key := by
  rw [hasKey_eq, hasKey_eq, mirrors.lookup, Option.isSome_map]

theorem remove_absent {store : List (String × Entry)} {key : String}
    (absent : hasKey store key = false) : remove store key = store := by
  refine List.filter_eq_self.mpr fun entry member => ?_
  have other := List.any_eq_false.mp absent entry member
  simpa using other

theorem Mirrors.filter (mirrors : Mirrors codec scope cached stored) (keeps keepsKey : String → Bool)
    (same : ∀ key, keeps (scope ++ key) = keepsKey key) :
    Mirrors codec scope (cached.filter fun entry => keepsKey entry.1)
      (stored.filter fun entry => keeps entry.1) := by
  refine ⟨mirrors.distinct.sublist (List.filter_sublist.map Prod.fst), ?_, fun entry member =>
    mirrors.decodes entry (List.mem_filter.mp member).1⟩
  rw [List.filter_comm, mirrors.own, List.filter_map]
  congr 1
  exact List.filter_congr fun entry _ => same entry.1

theorem Mirrors.assign (mirrors : Mirrors codec scope cached stored) (key : String) {value : Value}
    {payload : String} (dumped : codec.dumps (codec.serialize value) = some payload)
    (loaded : (codec.loads payload).bind codec.deserialize = some value) :
    Mirrors codec scope (assign Prod.fst cached (key, value))
      (assign Prod.fst stored (scope ++ key, payload)) := by
  have written : payloadOf codec value = payload := by simp [payloadOf, dumped]
  refine ⟨assign_keys_nodup stored _ mirrors.distinct, ?_, fun entry member => ?_⟩
  · rw [assign_filter stored fun old same => by
      rw [same]
      exact own_key scope key, mirrors.own]
    have row : (scope ++ key, payload) = wired codec scope (key, value) := by simp [wired, written]
    rw [row]
    refine (assign_map cached (key, value) fun old => ?_).symm
    exact ⟨scope_injective, congrArg (scope ++ ·)⟩
  · rcases mem_assign member with old | rfl
    · exact mirrors.decodes entry old
    · rw [written]
      exact loaded

theorem Mirrors.matching (mirrors : Mirrors codec scope cached stored) (start : String) :
    (stored.filter fun entry => startsWith entry.1 (scope ++ start)) =
      (cached.filter fun entry => startsWith entry.1 start).map (wired codec scope) := by
  have within : ∀ entry : String × String, startsWith entry.1 (scope ++ start) =
      (startsWith entry.1 (scope ++ start) && startsWith entry.1 scope) := by
    intro entry
    refine Bool.eq_iff_iff.mpr ?_
    simp only [Bool.and_eq_true, startsWith_iff, String.toList_append, iff_self_and]
    exact (List.prefix_append scope.toList start.toList).trans
  rw [List.filter_congr fun entry _ => within entry, ← List.filter_filter, mirrors.own,
    List.filter_map]
  congr 1
  exact List.filter_congr fun entry _ => startsWith_scope scope entry.1 start

/-- The values of a call are JSON values, and its prefix is one of those allowed. -/
def Fits (codec : Codec Value Wire) (starts : String → Prop) : Call Value → Prop
  | .get _ => True
  | .set _ value => Representable codec value
  | .delete _ => True
  | .invalidatePrefix start => starts start
  | .existsPrefix start => starts start

theorem scanned_iff (server : Server) {base : String} (plain : Plain base.toList)
    (keys : List String) (key : String) :
    key ∈ server.scan (base ++ "*") keys ↔ key ∈ keys ∧ startsWith key base = true := by
  rw [server.scan_matches, String.toList_append]
  exact and_congr_right fun _ => iff_of_eq (congrArg (· = true) (matchesGlob_plain _ _ plain))

theorem scan_nonempty (server : Server) (pattern : String) (keys : List String) :
    (!(server.scan pattern keys).isEmpty) =
      keys.any fun key => matchesGlob pattern.toList key.toList := by
  refine Bool.eq_iff_iff.mpr ?_
  rw [Bool.not_eq_true', List.isEmpty_eq_false_iff_exists_mem, List.any_eq_true]
  exact exists_congr fun key => server.scan_matches pattern keys key

theorem redis_invalidate (server : Server) {start : String} (plain : Plain (scope ++ start).toList)
    (mirrors : Mirrors codec scope cached stored) :
    redis codec server scope stored (.invalidatePrefix start) =
      (.removed (cached.filter fun entry => startsWith entry.1 start).length,
        stored.filter fun entry => !startsWith entry.1 (scope ++ start)) := by
  have scanned : ∀ entry ∈ stored,
      (server.scan (scope ++ start ++ "*") (stored.map Prod.fst)).contains entry.1 =
        startsWith entry.1 (scope ++ start) := by
    intro entry member
    refine Bool.eq_iff_iff.mpr ?_
    rw [List.contains_iff_mem, scanned_iff server plain]
    exact and_iff_right (List.mem_map_of_mem member)
  have count := congrArg List.length (mirrors.matching start)
  rw [List.length_map] at count
  simp only [redis, deleteScanned_eq, List.nil_append, Nat.zero_add, deleteKeys_count _ mirrors.distinct,
    deleteKeys_store, foldl_remove]
  rw [List.filter_congr scanned, count]
  congr 1
  exact List.filter_congr fun entry member => congrArg (!·) (scanned entry member)

theorem inProcess_invalidate (cached : List (String × Value)) (start : String) :
    inProcess cached (.invalidatePrefix start) =
      (.removed (cached.filter fun entry => startsWith entry.1 start).length,
        cached.filter fun entry => !startsWith entry.1 start) := by
  have gone : ((cached.map Prod.fst).filter fun key => startsWith key start).foldl remove cached =
      cached.filter fun entry => !startsWith entry.1 start := by
    rw [foldl_remove]
    refine List.filter_congr fun entry member => congrArg (!·) (Bool.eq_iff_iff.mpr ?_)
    rw [List.contains_iff_mem, List.mem_filter]
    exact and_iff_right (List.mem_map_of_mem member)
  simp only [inProcess, gone]
  rw [List.filter_map, List.length_map]
  rfl

variable {starts : String → Prop}

theorem step_alike (server : Server) (plain : ∀ start, starts start → Plain (scope ++ start).toList)
    (mirrors : Mirrors codec scope cached stored) (call : Call Value)
    (fits : Fits codec starts call) :
    (redis codec server scope stored call).1 = (inProcess cached call).1 ∧
      Mirrors codec scope (inProcess cached call).2 (redis codec server scope stored call).2 := by
  cases call with
  | get key =>
    simp only [redis, inProcess, mirrors.lookup key]
    cases found : cached.lookup key with
    | none => exact ⟨rfl, mirrors⟩
    | some value =>
      obtain ⟨before, after, split, _⟩ := List.lookup_eq_some_iff.mp found
      have member : (key, value) ∈ cached := by simp [split]
      have decoded := mirrors.decodes (key, value) member
      simp only [Option.map_some, decoded]
      exact ⟨trivial, mirrors⟩
  | set key value =>
    obtain ⟨payload, dumped, loaded⟩ := fits
    simp only [redis, inProcess, dumped]
    exact ⟨trivial, mirrors.assign key dumped loaded⟩
  | delete key =>
    have same := mirrors.hasKey key
    have apart : ∀ other, (scope ++ other != scope ++ key) = (other != key) := by
      intro other
      refine Bool.eq_iff_iff.mpr ?_
      rw [bne_iff_ne, bne_iff_ne]
      exact not_congr ⟨scope_injective, congrArg (scope ++ ·)⟩
    have kept : Mirrors codec scope (remove cached key) (remove stored (scope ++ key)) :=
      mirrors.filter (· != scope ++ key) (· != key) apart
    simp only [redis, inProcess, deleteKeys, same]
    cases there : hasKey cached key with
    | true => exact ⟨rfl, kept⟩
    | false =>
      rw [remove_absent there] at kept
      exact ⟨rfl, kept⟩
  | invalidatePrefix start =>
    have keeps : ∀ key, (!startsWith (scope ++ key) (scope ++ start)) = !startsWith key start :=
      fun key => congrArg (!·) (startsWith_scope scope key start)
    rw [redis_invalidate server (plain start fits) mirrors, inProcess_invalidate]
    exact ⟨rfl, mirrors.filter (!startsWith · (scope ++ start)) (!startsWith · start) keeps⟩
  | existsPrefix start =>
    refine ⟨congrArg Answer.present ?_, mirrors⟩
    have sameTest : ∀ key : String, matchesGlob (scope ++ start ++ "*").toList key.toList =
        startsWith key (scope ++ start) := fun key => by
      rw [String.toList_append]
      exact matchesGlob_plain _ _ (plain start fits)
    have same := congrArg (List.any · fun _ => true) (mirrors.matching start)
    have starting : (stored.any fun entry => startsWith entry.1 (scope ++ start)) =
        cached.any fun entry => startsWith entry.1 start := by
      simpa [List.any_filter, List.any_map, Function.comp_def] using same
    rw [scan_nonempty, List.any_map]
    simp only [Function.comp_def, sameTest]
    exact starting

theorem answers_alike (server : Server)
    (plain : ∀ start, starts start → Plain (scope ++ start).toList) (calls : List (Call Value))
    (fits : ∀ call ∈ calls, Fits codec starts call) (mirrors : Mirrors codec scope cached stored) :
    answers (redis codec server scope) stored calls = answers inProcess cached calls := by
  induction calls generalizing cached stored with
  | nil => rfl
  | cons call rest ih =>
    obtain ⟨fitsHere, fitsLater⟩ := List.forall_mem_cons.mp fits
    obtain ⟨same, later⟩ := step_alike server plain mirrors call fitsHere
    simp only [answers, same, ih fitsLater later]

/-- Whatever the calls are, the empty caches answer them alike.  Redis may hold the keys of
others, and the prefixes are among those allowed. -/
def Alike (codec : Codec Value Wire) (server : Server) (scope : String) (starts : String → Prop) :
    Prop :=
  ∀ (others : List (String × String)) (calls : List (Call Value)),
    (others.map Prod.fst).Nodup → (∀ entry ∈ others, startsWith entry.1 scope = false) →
      (∀ call ∈ calls, Fits codec starts call) →
        answers (redis codec server scope) others calls = answers inProcess [] calls

/-- A text that tells a prefix from its pattern makes a key that the backends disagree on: their
own key, or one of others that the pattern reaches. -/
theorem not_alike (codec : Codec Value Wire) (server : Server) (scope start : String)
    {value : Value} (representable : Representable codec value) (allowed : starts start)
    (key : String) (tells : matchesGlob (scope ++ start ++ "*").toList key.toList ≠
      startsWith key (scope ++ start)) : ¬ Alike codec server scope starts := by
  intro alike
  have existsFits : Fits codec starts (Call.existsPrefix start : Call Value) := allowed
  by_cases own : startsWith key scope = true
  · obtain ⟨rest, joined⟩ := startsWith_iff.mp own
    have owned : key = scope ++ String.ofList rest := by
      apply String.toList_inj.mp
      rw [String.toList_append, String.toList_ofList, joined]
    subst owned
    rw [startsWith_scope] at tells
    obtain ⟨payload, dumped, _⟩ := id representable
    have same := alike [] [.set (String.ofList rest) value, .existsPrefix start] List.nodup_nil
      (fun _ wrong => nomatch wrong) (by
        intro call member
        rcases List.mem_cons.mp member with rfl | member
        · exact representable
        · rw [List.mem_singleton.mp member]
          exact existsFits)
    simp only [answers, redis, dumped, inProcess, scan_nonempty] at same
    have apart : matchesGlob (scope ++ start ++ "*").toList (scope ++ String.ofList rest).toList =
        startsWith (String.ofList rest) start := by
      simpa [assign] using same
    exact tells apart
  · have foreign : startsWith key scope = false := Bool.eq_false_iff.mpr own
    have notStarting : startsWith key (scope ++ start) = false := by
      refine Bool.eq_false_iff.mpr fun starting => own ?_
      rw [startsWith_iff, String.toList_append] at starting
      exact startsWith_iff.mpr ((List.prefix_append _ _).trans starting)
    have same := alike [(key, "")] [.existsPrefix start] (List.nodup_singleton key)
      (List.forall_mem_singleton.mpr foreign) (List.forall_mem_singleton.mpr existsFits)
    simp only [answers, redis, inProcess, scan_nonempty] at same
    rw [notStarting] at tells
    have apart : matchesGlob (scope ++ start ++ "*").toList key.toList = false := by
      simpa using same
    exact tells apart

/-- The backends are alike exactly for prefixes that no special character of a pattern is in,
nor in the scope before them. -/
theorem backends_alike_iff (codec : Codec Value Wire) (server : Server)
    (globalPrefix namespaceName : String) (starts : String → Prop) (value : Value)
    (representable : Representable codec value) :
    Alike codec server (scopeOf globalPrefix namespaceName) starts ↔
      ∀ start, starts start → Plain (scopeOf globalPrefix namespaceName ++ start).toList := by
  constructor
  · intro alike start allowed
    by_contra special
    obtain ⟨text, tells⟩ := special_tells _ special
    refine not_alike codec server _ start representable allowed (String.ofList text) ?_ alike
    rw [startsWith, String.toList_ofList, String.toList_append]
    exact tells
  · intro plain others calls distinct foreign fits
    refine answers_alike server plain calls fits ⟨distinct, ?_, nofun⟩
    refine List.filter_eq_nil_iff.mpr fun entry member => ?_
    simp [foreign entry member]

def textCodec : Codec String String := ⟨id, some, some, some⟩

def globServer : Server where
  scan := fun pattern keys => keys.filter fun key => matchesGlob pattern.toList key.toList
  scan_matches := fun _ _ _ => List.mem_filter

theorem backends_alike_iff_domain :
    Alike textCodec globServer (scopeOf "ukip" "analytics") (· = "dom:") ↔
      ∀ start, start = "dom:" → Plain (scopeOf "ukip" "analytics" ++ start).toList :=
  backends_alike_iff textCodec globServer "ukip" "analytics" (· = "dom:") "3" ⟨"3", rfl, rfl⟩

/-- A question mark in a prefix takes entries of another key, and a bracket misses those of its
own. -/
theorem pattern_for_prefix :
    answers (redis textCodec globServer (scopeOf "ukip" "analytics")) []
        [.set "q1:a" "3", .set "[2]:a" "5", .invalidatePrefix "q?:", .get "q1:a",
          .existsPrefix "[2]:"] =
      [.none, .none, .removed 1, .miss, .present false] ∧
    answers inProcess []
        [.set "q1:a" "3", .set "[2]:a" "5", .invalidatePrefix "q?:", .get "q1:a",
          .existsPrefix "[2]:"] =
      [.none, .none, .removed 0, .found "3", .present true] := by
  decide

end Ukip.Cache.Backends
