import EntityModel.Naming
import EntityModel.Proofs.Text.Words
import Mathlib.Data.Set.Operations

/-!
# The identifiers of an entity

The getter of an entity starts with a small g, which no class and no connection does, and the type
ends with an e where a connection ends with an n, whatever the name (`getterName_ne_pascalCase`,
`typeName_ne_connectionName`). So only some kinds of identifiers can meet, and it is enough to keep
those apart (`Apart`).

The words that are added to a name are set off by a blank, so the identifiers are made of the
converted name and the added word (`getterName_eq`, `connectionName_eq`, `typeName_eq`), unless the
first or the last character of the name takes the blank for its own, which no character of ASCII
does (`identifiers_cohere`). In ASCII, entities with one type, getter or connection therefore have
one class (`injOn_of_className`).
-/

namespace EntityModel

/-- The characters of a converted text. -/
@[simp] theorem toList_pascalCase (s : String) :
    (pascalCase s).toList = Text.pascalCase s.toList :=
  String.toList_ofList

@[simp] theorem toList_camelCase (s : String) :
    (camelCase s).toList = Text.camelCase s.toList :=
  String.toList_ofList

namespace Naming

variable {e a b : String}

/-- All characters of a text are those of ASCII. -/
def IsAscii (s : String) : Prop := ∀ c ∈ s.toList, Text.IsAscii c

instance (s : String) : Decidable (IsAscii s) := List.decidableBAll _ s.toList

theorem toList_getterName (e : String) :
    (getterName e).toList = Text.camelCase (['g', 'e', 't'] ++ ' ' :: e.toList) := by
  rw [getterName, toList_camelCase, String.toList_append]
  rfl

theorem toList_typeName (e : String) :
    (typeName e).toList = Text.camelCase (e.toList ++ ' ' :: ['t', 'y', 'p', 'e']) := by
  rw [typeName, toList_camelCase, String.toList_append]
  rfl

theorem toList_connectionName (e : String) :
    (connectionName e).toList =
      Text.pascalCase (e.toList ++ ' ' :: ['c', 'o', 'n', 'n', 'e', 'c', 't', 'i', 'o', 'n']) := by
  rw [connectionName, toList_pascalCase, String.toList_append]
  rfl

/-! ## What identifiers start and end with -/

/-- A getter starts with a small g. -/
theorem head?_getterName (e : String) : (getterName e).toList.head? = some 'g' := by
  obtain ⟨ds, h⟩ := Text.exists_camelCase_eq (x := 'g') (y := 'e') (z := 't') (by decide)
    (by decide) (by decide) (fun after => by cases after <;> rfl) (by decide) (' ' :: e.toList)
  have hchars : (getterName e).toList = Text.lowerChar 'g' ++ ds := (toList_getterName e).trans h
  rw [hchars]
  rfl

/-- No getter is made of capitalized words, as classes and connections are. -/
theorem getterName_ne_pascalCase (e s : String) : getterName e ≠ pascalCase s := by
  intro h
  refine Text.head?_pascalCase_ne s.toList ?_
  rw [← toList_pascalCase, ← h, head?_getterName]

/-- A type ends with an e. -/
theorem getLast?_typeName (e : String) : (typeName e).toList.getLast? = some 'e' := by
  obtain ⟨-, ds, h⟩ := Text.exists_joined_eq (x := 'y') (y := 'p') (z := 'e') (by decide)
    (by decide) (by decide) (by decide) (by decide) (by decide) (e.toList ++ [' ', 't'])
  rw [List.append_assoc] at h
  have hchars : (typeName e).toList = ds ++ Text.lowerChar 'e' := (toList_typeName e).trans h
  rw [hchars]
  exact List.getLast?_concat

/-- A connection ends with an n. -/
theorem getLast?_connectionName (e : String) :
    (connectionName e).toList.getLast? = some 'n' := by
  obtain ⟨⟨ds, h⟩, -⟩ := Text.exists_joined_eq (x := 'i') (y := 'o') (z := 'n') (by decide)
    (by decide) (by decide) (by decide) (by decide) (by decide)
    (e.toList ++ [' ', 'c', 'o', 'n', 'n', 'e', 'c', 't'])
  rw [List.append_assoc] at h
  have hchars : (connectionName e).toList = ds ++ Text.lowerChar 'n' :=
    (toList_connectionName e).trans h
  rw [hchars]
  exact List.getLast?_concat

/-- No type is a connection. -/
theorem typeName_ne_connectionName (a b : String) : typeName a ≠ connectionName b := by
  intro h
  have hlast := getLast?_typeName a
  rw [h, getLast?_connectionName] at hlast
  exact absurd hlast (by decide)

/-! ## Identifiers and the words added to them -/

/-- A getter is the class behind a word. -/
theorem getterName_eq (h : ∀ c ∈ e.toList.head?, Text.joins ' ' c = false) :
    getterName e = "get" ++ className e := by
  have hget : Text.words ['g', 'e', 't'] = [[['g'], ['e'], ['t']]] := by decide
  have hwords : Text.words (['g', 'e', 't'] ++ ' ' :: e.toList) =
      Text.words ['g', 'e', 't'] ++ Text.words e.toList :=
    Text.words_blank (by rintro _ ⟨⟩; decide) h
  rw [hget] at hwords
  refine String.toList_injective ?_
  rw [toList_getterName, String.toList_append, className, toList_pascalCase, Text.camelCase, hwords]
  rfl

section
variable (h : ∀ c ∈ e.toList.getLast?, Text.joins c ' ' = false)
include h

/-- A connection is the class in front of a word. -/
theorem connectionName_eq : connectionName e = className e ++ "Connection" := by
  have hlast : (Text.words ['c', 'o', 'n', 'n', 'e', 'c', 't', 'i', 'o', 'n']).flatMap
      Text.capitalized = "Connection".toList := by
    decide
  refine String.toList_injective ?_
  rw [toList_connectionName, String.toList_append, className, toList_pascalCase, Text.pascalCase,
    Text.words_blank h (by rintro _ ⟨⟩; decide), List.flatMap_append, hlast]
  rfl

/-- A type is the name, with a small first letter, in front of a word. -/
theorem typeName_eq : typeName e = camelCase e ++ "Type" := by
  have hlast : (Text.words ['t', 'y', 'p', 'e']).flatMap Text.capitalized = "Type".toList := by
    decide
  obtain ⟨w, ws, hwords⟩ : ∃ w ws, Text.words e.toList = w :: ws := Text.exists_wordsFrom [] _
  refine String.toList_injective ?_
  rw [toList_typeName, String.toList_append, toList_camelCase, Text.camelCase, Text.camelCase,
    Text.words_blank h (by rintro _ ⟨⟩; decide), hwords, ← hlast]
  simp

end

/-! ## ASCII -/

/-- In ASCII, no character takes a blank beside it for its own. -/
theorem IsAscii.joins_blank (h : IsAscii e) :
    (∀ c ∈ e.toList.head?, Text.joins ' ' c = false) ∧
      ∀ c ∈ e.toList.getLast?, Text.joins c ' ' = false := by
  have hblank : Text.IsAscii ' ' := by decide
  constructor
  · intro c hc
    refine Bool.eq_false_iff.2 fun hjoins => ?_
    exact absurd (hblank.of_joins (h c (List.mem_of_mem_head? hc)) hjoins).1 (by decide)
  · intro c hc
    refine Bool.eq_false_iff.2 fun hjoins => ?_
    exact absurd ((h c (List.mem_of_mem_getLast? hc)).of_joins hblank hjoins).2 (by decide)

/-- In ASCII, the getter and the connection are the class with a word in front of it or behind it,
and the type is the name with a small first letter and a word behind it, also where the name is all
separators and nothing of it is left. -/
theorem identifiers_cohere (h : IsAscii e) :
    getterName e = "get" ++ className e ∧ connectionName e = className e ++ "Connection" ∧
      typeName e = camelCase e ++ "Type" :=
  ⟨getterName_eq h.joins_blank.1, connectionName_eq h.joins_blank.2, typeName_eq h.joins_blank.2⟩

/-- Separators at both ends and in a row, an acronym and a digit. The first word is empty, so the
small first letter is not to be seen. -/
theorem identifiers_cohere_of_acronym :
    let e := "__HTTPServer2- x_"
    (IsAscii e ∧ className e = "HttpServer2X" ∧ camelCase e = "HttpServer2X") ∧
      getterName e = "get" ++ className e ∧ connectionName e = className e ++ "Connection" ∧
      typeName e = camelCase e ++ "Type" :=
  have h : IsAscii "__HTTPServer2- x_" := by decide
  ⟨⟨h, by decide +kernel, by decide +kernel⟩, identifiers_cohere h⟩

-- beyond ASCII, a mark in front of a name makes one cluster with the blank, which then is no
-- separator
example : getterName "\u0301x" ≠ "get" ++ className "\u0301x" := by decide +kernel

section
variable (ha : IsAscii a) (hb : IsAscii b)
include ha hb

/-- In ASCII, one getter is that of one class. -/
theorem className_eq_of_getterName (h : getterName a = getterName b) :
    className a = className b := by
  rw [getterName_eq ha.joins_blank.1, getterName_eq hb.joins_blank.1] at h
  exact (String.append_right_inj _).1 h

/-- In ASCII, one connection is that of one class. -/
theorem className_eq_of_connectionName (h : connectionName a = connectionName b) :
    className a = className b := by
  rw [connectionName_eq ha.joins_blank.2, connectionName_eq hb.joins_blank.2] at h
  exact (String.append_left_inj _).1 h

/-- In ASCII, one type is that of one class. -/
theorem className_eq_of_typeName (h : typeName a = typeName b) : className a = className b := by
  rw [typeName_eq ha.joins_blank.2, typeName_eq hb.joins_blank.2] at h
  have hcamel : Text.camelCase a.toList = Text.camelCase b.toList := by
    rw [← toList_camelCase, (String.append_left_inj _).1 h, toList_camelCase]
  refine String.toList_injective ?_
  rw [className, className, toList_pascalCase, toList_pascalCase, Text.pascalCase_ascii ha,
    Text.pascalCase_ascii hb, hcamel]

end

/-- In ASCII, entities that do not share classes share no getter, type or connection either. -/
theorem injOn_of_className {names : List String} (hascii : ∀ n ∈ names, IsAscii n)
    (h : Set.InjOn className {n | n ∈ names}) :
    Set.InjOn getterName {n | n ∈ names} ∧ Set.InjOn typeName {n | n ∈ names} ∧
      Set.InjOn connectionName {n | n ∈ names} := by
  refine ⟨fun a ha b hb heq => ?_, fun a ha b hb heq => ?_, fun a ha b hb heq => ?_⟩
  · exact h ha hb (className_eq_of_getterName (hascii a ha) (hascii b hb) heq)
  · exact h ha hb (className_eq_of_typeName (hascii a ha) (hascii b hb) heq)
  · exact h ha hb (className_eq_of_connectionName (hascii a ha) (hascii b hb) heq)

/-! ## Identifiers that do not meet -/

/-- The identifiers of an entity, by what they name. -/
inductive Kind where
  | ofClass
  | ofGetter
  | ofType
  | ofConnection
  deriving DecidableEq

/-- The identifier of a kind. -/
def Kind.identifier : Kind → String → String
  | .ofClass => className
  | .ofGetter => getterName
  | .ofType => typeName
  | .ofConnection => connectionName

/-- The identifier of an entity is in use; that of its connection only if the entity is paged. -/
def InUse (names : List String) (paged : String → Prop) (k : Kind) (n : String) : Prop :=
  n ∈ names ∧ (k = .ofConnection → paged n)

/-- The identifiers in use that may meet do not: no two entities share a class, a getter, a type or
a connection, and no class is also a type or a connection and no getter also a type. -/
structure Apart (names : List String) (paged : String → Prop) : Prop where
  classes : Set.InjOn className {n | n ∈ names}
  getters : Set.InjOn getterName {n | n ∈ names}
  types : Set.InjOn typeName {n | n ∈ names}
  connections : Set.InjOn connectionName {n | n ∈ names ∧ paged n}
  class_type : ∀ a ∈ names, ∀ b ∈ names, className a ≠ typeName b
  class_connection : ∀ a ∈ names, ∀ b ∈ names, paged b → className a ≠ connectionName b
  getter_type : ∀ a ∈ names, ∀ b ∈ names, getterName a ≠ typeName b

section
variable {names : List String} {paged : String → Prop}

/-- Identifiers that may meet are all that has to be compared. -/
theorem Apart.eq_of_identifier (h : Apart names paged) {k k' : Kind} (ha : InUse names paged k a)
    (hb : InUse names paged k' b) (heq : k.identifier a = k'.identifier b) : k = k' ∧ a = b := by
  obtain ⟨ha, hpa⟩ := ha
  obtain ⟨hb, hpb⟩ := hb
  cases k with
  | ofClass =>
    cases k' with
    | ofClass => exact ⟨rfl, h.classes ha hb heq⟩
    | ofGetter => exact (getterName_ne_pascalCase b _ heq.symm).elim
    | ofType => exact (h.class_type a ha b hb heq).elim
    | ofConnection => exact (h.class_connection a ha b hb (hpb rfl) heq).elim
  | ofGetter =>
    cases k' with
    | ofClass => exact (getterName_ne_pascalCase a _ heq).elim
    | ofGetter => exact ⟨rfl, h.getters ha hb heq⟩
    | ofType => exact (h.getter_type a ha b hb heq).elim
    | ofConnection => exact (getterName_ne_pascalCase a _ heq).elim
  | ofType =>
    cases k' with
    | ofClass => exact (h.class_type b hb a ha heq.symm).elim
    | ofGetter => exact (h.getter_type b hb a ha heq.symm).elim
    | ofType => exact ⟨rfl, h.types ha hb heq⟩
    | ofConnection => exact (typeName_ne_connectionName a b heq).elim
  | ofConnection =>
    cases k' with
    | ofClass => exact (h.class_connection b hb a ha (hpa rfl) heq.symm).elim
    | ofGetter => exact (getterName_ne_pascalCase b _ heq.symm).elim
    | ofType => exact (typeName_ne_connectionName b a heq.symm).elim
    | ofConnection => exact ⟨rfl, h.connections ⟨ha, hpa rfl⟩ ⟨hb, hpb rfl⟩ heq⟩

/-- Identifiers that are all distinct do not meet. -/
theorem Apart.of_identifier (h : ∀ k a, InUse names paged k a → ∀ k' b, InUse names paged k' b →
    k.identifier a = k'.identifier b → k = k' ∧ a = b) : Apart names paged where
  classes a ha b hb heq := (h .ofClass a ⟨ha, nofun⟩ .ofClass b ⟨hb, nofun⟩ heq).2
  getters a ha b hb heq := (h .ofGetter a ⟨ha, nofun⟩ .ofGetter b ⟨hb, nofun⟩ heq).2
  types a ha b hb heq := (h .ofType a ⟨ha, nofun⟩ .ofType b ⟨hb, nofun⟩ heq).2
  connections a ha b hb heq :=
    (h .ofConnection a ⟨ha.1, fun _ => ha.2⟩ .ofConnection b ⟨hb.1, fun _ => hb.2⟩ heq).2
  class_type a ha b hb heq :=
    nomatch (h .ofClass a ⟨ha, nofun⟩ .ofType b ⟨hb, nofun⟩ heq).1
  class_connection a ha b hb hpb heq :=
    nomatch (h .ofClass a ⟨ha, nofun⟩ .ofConnection b ⟨hb, fun _ => hpb⟩ heq).1
  getter_type a ha b hb heq :=
    nomatch (h .ofGetter a ⟨ha, nofun⟩ .ofType b ⟨hb, nofun⟩ heq).1

end

end Naming

end EntityModel
