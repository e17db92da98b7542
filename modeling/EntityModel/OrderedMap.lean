/-!
# Finite maps in insertion order

Names are declared in an order that the output keeps, so every table of the library is an
`OrderedMap`: a list of entries with distinct keys. Giving a key a new value leaves it at its place
(`upsert`, `insert`), a new key goes to the end, and `entries` is the view the operations are
described through.
-/

namespace EntityModel

universe u v w

/-- A finite map whose entries stand in the order in which their keys were first given. -/
structure OrderedMap (κ : Type u) (α : Type v) where
  entries : List (κ × α)
  nodup_keys : (entries.map Prod.fst).Nodup

namespace OrderedMap

section
variable {κ : Type u} {α : Type v}

theorem ext_entries {m n : OrderedMap κ α} (h : m.entries = n.entries) : m = n := by
  cases m; cases n; cases h; rfl

instance [DecidableEq κ] [DecidableEq α] : DecidableEq (OrderedMap κ α) := fun m n =>
  if h : m.entries = n.entries then isTrue (ext_entries h)
  else isFalse fun e => h (congrArg entries e)

/-- The map without entries. -/
def empty : OrderedMap κ α := ⟨[], List.nodup_nil⟩

instance : Inhabited (OrderedMap κ α) := ⟨empty⟩

/-- The keys in order. -/
def keys (m : OrderedMap κ α) : List κ := m.entries.map Prod.fst

/-- The values in the order of their keys. -/
def values (m : OrderedMap κ α) : List α := m.entries.map Prod.snd

/-- The number of entries. -/
def size (m : OrderedMap κ α) : Nat := m.entries.length

/-- Whether there is no entry. -/
def isEmpty (m : OrderedMap κ α) : Bool := m.entries.isEmpty

/-- Replaces every value, keys and order kept. -/
def mapValues {β : Type w} (f : κ → α → β) (m : OrderedMap κ α) : OrderedMap κ β where
  entries := m.entries.map fun e => (e.1, f e.1 e.2)
  nodup_keys := by
    have h : (m.entries.map fun e => (e.1, f e.1 e.2)).map Prod.fst = m.entries.map Prod.fst := by
      rw [List.map_map]; rfl
    exact h ▸ m.nodup_keys

@[simp] theorem keys_mapValues {β : Type w} (f : κ → α → β) (m : OrderedMap κ α) :
    (m.mapValues f).keys = m.keys := by
  simp only [keys, mapValues, List.map_map]; rfl

/-- The entries whose keys satisfy a condition. -/
def filterKeys (p : κ → Bool) (m : OrderedMap κ α) : OrderedMap κ α where
  entries := m.entries.filter fun e => p e.1
  nodup_keys := m.nodup_keys.sublist ((List.filter_sublist ..).map _)

end

section
variable {κ : Type u} {α : Type v} [DecidableEq κ]

/-- The value in a list of entries at a key. -/
def lookupIn (k : κ) : List (κ × α) → Option α
  | [] => none
  | (k', v) :: rest => if k' = k then some v else lookupIn k rest

/-- The value at a key. -/
def find? (m : OrderedMap κ α) (k : κ) : Option α := lookupIn k m.entries

/-- Whether the key has a value. -/
def contains (m : OrderedMap κ α) (k : κ) : Bool := m.keys.contains k

/-- Gives the key the value `f old` at its place, or appends it with the value `f none`. -/
def upsertIn (k : κ) (f : Option α → α) : List (κ × α) → List (κ × α)
  | [] => [(k, f none)]
  | (k', v) :: rest => if k' = k then (k', f (some v)) :: rest else (k', v) :: upsertIn k f rest

theorem keys_upsertIn (k : κ) (f : Option α → α) (es : List (κ × α)) :
    (upsertIn k f es).map Prod.fst =
      if k ∈ es.map Prod.fst then es.map Prod.fst else es.map Prod.fst ++ [k] := by
  induction es with
  | nil => simp [upsertIn]
  | cons e rest ih =>
    obtain ⟨k', v⟩ := e
    by_cases h : k' = k
    · simp [upsertIn, h]
    · have h' : ¬ k = k' := fun e => h e.symm
      simp only [upsertIn, if_neg h, List.map_cons, ih, List.mem_cons, h', false_or]
      split <;> simp

theorem lookupIn_upsertIn (k k' : κ) (f : Option α → α) (es : List (κ × α)) :
    lookupIn k' (upsertIn k f es) =
      if k = k' then some (f (lookupIn k es)) else lookupIn k' es := by
  induction es with
  | nil => simp [upsertIn, lookupIn]
  | cons e rest ih =>
    obtain ⟨k₀, v⟩ := e
    by_cases h : k₀ = k
    · subst h
      by_cases h' : k₀ = k' <;> simp [upsertIn, lookupIn, h']
    · by_cases h' : k₀ = k'
      · subst h'
        simp [upsertIn, lookupIn, h, Ne.symm h]
      · simp [upsertIn, lookupIn, h, h', ih]

/-- A key that is looked up with success is a key of an entry, and the other way round. -/
theorem isSome_lookupIn (k : κ) (es : List (κ × α)) :
    (lookupIn k es).isSome = true ↔ k ∈ es.map Prod.fst := by
  induction es with
  | nil => simp [lookupIn]
  | cons e rest ih =>
    obtain ⟨k₀, v⟩ := e
    by_cases h : k₀ = k
    · simp [lookupIn, h]
    · simp [lookupIn, h, ih, Ne.symm h]

theorem nodup_upsertIn (k : κ) (f : Option α → α) {es : List (κ × α)}
    (h : (es.map Prod.fst).Nodup) : ((upsertIn k f es).map Prod.fst).Nodup := by
  rw [keys_upsertIn]
  split
  · exact h
  · next hk =>
    rw [List.nodup_append]
    refine ⟨h, List.nodup_cons.2 ⟨List.not_mem_nil, List.nodup_nil⟩, fun a ha b hb => ?_⟩
    rw [List.mem_singleton] at hb
    exact fun e => hk (hb ▸ e ▸ ha)

/-- Sets the value at a key from the old one: an old key keeps its place, a new one comes last. -/
def upsert (m : OrderedMap κ α) (k : κ) (f : Option α → α) : OrderedMap κ α :=
  ⟨upsertIn k f m.entries, nodup_upsertIn k f m.nodup_keys⟩

/-- Sets the value at a key: an old key keeps its place, a new one comes last. -/
def insert (m : OrderedMap κ α) (k : κ) (v : α) : OrderedMap κ α := m.upsert k fun _ => v

@[simp] theorem keys_upsert (m : OrderedMap κ α) (k : κ) (f : Option α → α) :
    (m.upsert k f).keys = if k ∈ m.keys then m.keys else m.keys ++ [k] :=
  keys_upsertIn k f m.entries

@[simp] theorem keys_insert (m : OrderedMap κ α) (k : κ) (v : α) :
    (m.insert k v).keys = if k ∈ m.keys then m.keys else m.keys ++ [k] :=
  keys_upsert m k _

@[simp] theorem find?_upsert (m : OrderedMap κ α) (k k' : κ) (f : Option α → α) :
    (m.upsert k f).find? k' = if k = k' then some (f (m.find? k)) else m.find? k' :=
  lookupIn_upsertIn k k' f m.entries

@[simp] theorem find?_insert (m : OrderedMap κ α) (k k' : κ) (v : α) :
    (m.insert k v).find? k' = if k = k' then some v else m.find? k' :=
  find?_upsert m k k' _

/-- The keys are what has a value. -/
theorem isSome_find? (m : OrderedMap κ α) (k : κ) : (m.find? k).isSome = true ↔ k ∈ m.keys :=
  isSome_lookupIn k m.entries

/-- Changes the value at a key, if there is one. -/
def modify (m : OrderedMap κ α) (k : κ) (f : α → α) : OrderedMap κ α :=
  m.mapValues fun k' v => if k' = k then f v else v

/-- The map of a list of entries: of a repeated key the first place and the last value count. -/
def ofList (es : List (κ × α)) : OrderedMap κ α :=
  es.foldl (fun m e => m.insert e.1 e.2) empty

/-- Whether both maps give the same keys values related by `same`, the order left aside. -/
def agrees (same : α → α → Bool) (m n : OrderedMap κ α) : Bool :=
  m.size == n.size && m.entries.all fun e => (n.find? e.1).any (same e.2)

end

end OrderedMap

end EntityModel
