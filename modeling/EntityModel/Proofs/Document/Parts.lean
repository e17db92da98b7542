import EntityModel.Document.Basic

/-!
# Documents and their parts

What is said of a document as a whole is said of its parts (`Document.HasPart`): all of it is
readable, no table repeats a name, its numbers are whole. Reading JSON gives a `Parsed` document,
and a `Plain` one consists of what is written without a loss: it has no part that belongs to reading
only, and none of its numbers is rounded. Both say how deeply brackets may be nested.
-/

namespace EntityModel

/-- A whole number of 64 bits, with a sign or without one. The zero with a minus sign is not a whole
number like the others, but it has none of their digits to lose either. -/
def Number.Whole : Number → Prop
  | .int k => -0x8000000000000000 ≤ k ∧ k < 0x10000000000000000
  | .real x => x = ⟨true, .zero⟩

namespace Document

/-! ## Parts -/

/-- What holds of a list or a table if it holds of what stands in it holds of every document. -/
@[elab_as_elim]
theorem rec_parts {P : Document → Prop} (null : P .null) (bool : ∀ b, P (.bool b))
    (number : ∀ n, P (.number n)) (text : ∀ s, P (.text s))
    (list : ∀ items : List Document, (∀ d ∈ items, P d) → P (.list items))
    (table : ∀ members : List (String × Document), (∀ m ∈ members, P m.2) → P (.table members))
    (notFinite : P .notFinite) (unreadable : P .unreadable) (d : Document) : P d :=
  d.rec null bool number text list table notFinite unreadable (fun _ h => nomatch h)
    (fun _ _ hd hrest _ h => (List.mem_cons.1 h).elim (fun e => e ▸ hd) (hrest _))
    (fun _ h => nomatch h)
    (fun _ _ hm hrest _ h => (List.mem_cons.1 h).elim (fun e => e ▸ hm) (hrest _))
    fun _ _ h => h

/-- What stands in a list or a table. -/
inductive Holds : Document → Document → Prop
  | item {items : List Document} {d : Document} : d ∈ items → Holds (.list items) d
  | member {members : List (String × Document)} {m : String × Document} : m ∈ members →
    Holds (.table members) m.2

/-- A document and what stands in its lists and tables, at any depth. -/
inductive HasPart : Document → Document → Prop
  | self {d : Document} : HasPart d d
  | inside {d e f : Document} : d.Holds e → HasPart e f → HasPart d f

/-- No part of the document is unreadable. -/
def Readable (d : Document) : Prop := ¬ d.HasPart .unreadable

/-- No table of the document gives a name twice. -/
def DistinctNames (d : Document) : Prop :=
  ∀ members, d.HasPart (.table members) → (members.map Prod.fst).Nodup

/-- The numbers of the document are whole numbers of 64 bits. -/
def WholeNumbers (d : Document) : Prop := ∀ n, d.HasPart (.number n) → n.Whole

section
variable {d e : Document} {items : List Document} {members : List (String × Document)}

theorem Readable.of_holds (h : d.Readable) (he : d.Holds e) : e.Readable :=
  fun hpart => h (.inside he hpart)

theorem DistinctNames.of_holds (h : d.DistinctNames) (he : d.Holds e) : e.DistinctNames :=
  fun _ hpart => h _ (.inside he hpart)

theorem WholeNumbers.of_holds (h : d.WholeNumbers) (he : d.Holds e) : e.WholeNumbers :=
  fun _ hpart => h _ (.inside he hpart)

theorem readable_list : (list items).Readable ↔ ∀ d ∈ items, d.Readable := by
  constructor
  · exact fun h d hd => h.of_holds (.item hd)
  · rintro h (_ | ⟨⟨hd⟩, hpart⟩)
    exact h _ hd hpart

theorem readable_table : (table members).Readable ↔ ∀ m ∈ members, m.2.Readable := by
  constructor
  · exact fun h m hm => h.of_holds (.member hm)
  · rintro h (_ | ⟨_ | hm, hpart⟩)
    exact h _ hm hpart

end

/-! ## Documents that were read -/

/-- A document as JSON is read, whose brackets are nested at most so deeply: each of its numbers is
finite. -/
inductive Parsed : Nat → Document → Prop
  | null {n : Nat} : Parsed n .null
  | bool {n : Nat} (b : Bool) : Parsed n (.bool b)
  | number {n : Nat} (k : Number) : Parsed n (.number k)
  | text {n : Nat} (s : String) : Parsed n (.text s)
  | unreadable {n : Nat} : Parsed n .unreadable
  | list {n : Nat} {items : List Document} : (∀ d ∈ items, Parsed n d) →
    Parsed (n + 1) (.list items)
  | table {n : Nat} {members : List (String × Document)} : (∀ m ∈ members, Parsed n m.2) →
    Parsed (n + 1) (.table members)

theorem Parsed.of_holds {n : Nat} {d e : Document} (h : d.Parsed (n + 1)) (he : d.Holds e) :
    e.Parsed n := by
  cases he with
  | item hd =>
    cases h with
    | list h => exact h _ hd
  | member hm =>
    cases h with
    | table h => exact h _ hm

/-! ## Plain documents -/

/-- A document of null, truth values, texts and whole numbers whose brackets are nested at most so
deeply. -/
inductive Plain : Nat → Document → Prop
  | null {n : Nat} : Plain n .null
  | bool {n : Nat} (b : Bool) : Plain n (.bool b)
  | number {n : Nat} {k : Number} : k.Whole → Plain n (.number k)
  | text {n : Nat} (s : String) : Plain n (.text s)
  | list {n : Nat} {items : List Document} : (∀ d ∈ items, Plain n d) → Plain (n + 1) (.list items)
  | table {n : Nat} {members : List (String × Document)} : (∀ m ∈ members, Plain n m.2) →
    Plain (n + 1) (.table members)

theorem plain_list {n : Nat} {items : List Document} :
    (list items).Plain (n + 1) ↔ ∀ d ∈ items, d.Plain n :=
  ⟨fun | .list h => h, .list⟩

theorem plain_table {n : Nat} {members : List (String × Document)} :
    (table members).Plain (n + 1) ↔ ∀ m ∈ members, m.2.Plain n :=
  ⟨fun | .table h => h, .table⟩

theorem Plain.mono {n n' : Nat} {d : Document} (h : d.Plain n) (hn : n ≤ n') : d.Plain n' := by
  induction h generalizing n' with
  | null => exact .null
  | bool b => exact .bool b
  | number hk => exact .number hk
  | text s => exact .text s
  | list _ ih =>
    obtain ⟨n', rfl⟩ : ∃ k, n' = k + 1 := ⟨n' - 1, by omega⟩
    exact .list fun d hd => ih d hd (by omega)
  | table _ ih =>
    obtain ⟨n', rfl⟩ : ∃ k, n' = k + 1 := ⟨n' - 1, by omega⟩
    exact .table fun m hm => ih m hm (by omega)

/-- The numbers of a plain document are whole. -/
theorem Plain.wholeNumbers {n : Nat} {d : Document} (h : d.Plain n) : d.WholeNumbers := by
  induction h with
  | number hk =>
    rintro k (_ | ⟨⟨⟩, _⟩)
    exact hk
  | list _ ih =>
    rintro k (_ | ⟨⟨hd⟩, hpart⟩)
    exact ih _ hd k hpart
  | table _ ih =>
    rintro k (_ | ⟨_ | hm, hpart⟩)
    exact ih _ hm k hpart
  | _ => rintro k (_ | ⟨⟨⟩, _⟩)

/-- Without brackets there are no names. -/
theorem Plain.distinctNames {d : Document} (h : d.Plain 0) : d.DistinctNames := by
  cases h <;> rintro members (_ | ⟨⟨⟩, _⟩)

theorem distinctNames_list {items : List Document} :
    (list items).DistinctNames ↔ ∀ d ∈ items, d.DistinctNames := by
  constructor
  · exact fun h d hd => h.of_holds (.item hd)
  · rintro h members (_ | ⟨⟨hd⟩, hpart⟩)
    exact h _ hd members hpart

theorem distinctNames_table {members : List (String × Document)} :
    (table members).DistinctNames ↔
      (members.map Prod.fst).Nodup ∧ ∀ m ∈ members, m.2.DistinctNames := by
  constructor
  · exact fun h => ⟨h members .self, fun m hm => h.of_holds (.member hm)⟩
  · rintro ⟨hnames, h⟩ ms (_ | ⟨_ | hm, hpart⟩)
    · exact hnames
    · exact h _ hm ms hpart

end Document

end EntityModel
