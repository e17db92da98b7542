import EntityModel.ErrorRecord
import EntityModel.Proofs.OrderedMap

/-!
# The rows of an error record

An error record is nested; what it holds is its rows. `ErrorRecord.mem_rows` says that a row is
there where its message is found by look-ups, and `ErrorRecord.mem_rows_add` that filing a row adds
this row only. A record that filing alone has made (`WellFiled`) has no row twice, and no entity in
it without a row, so that it is empty exactly if it has no row.
-/

namespace EntityModel.ErrorRecord

/-! ## Rows by look-ups -/

/-- A row about the items of a category is a message found under its item. -/
theorem mem_itemRows {entity : String} {c : Category} {is : ItemErrors} {row : ErrorRow} :
    row ∈ itemRows entity c is ↔
      row.entity = entity ∧ row.category = c ∧
        ∃ ms, is.find? row.item = some ms ∧ row.message ∈ ms := by
  simp only [itemRows, List.mem_flatMap, List.mem_map]
  constructor
  · rintro ⟨⟨i, ms⟩, hi, m, hm, rfl⟩
    exact ⟨rfl, rfl, ms, is.mem_entries.1 hi, hm⟩
  · rintro ⟨rfl, rfl, ms, hi, hm⟩
    exact ⟨(row.item, ms), is.mem_entries.2 hi, row.message, hm, rfl⟩

/-- A row about an entity is a message found under its category and item. -/
theorem mem_entityRows {entity : String} {e : EntityErrors} {row : ErrorRow} :
    row ∈ entityRows entity e ↔
      row.entity = entity ∧ ∃ is ms, e.find? row.category = some is ∧
        is.find? row.item = some ms ∧ row.message ∈ ms := by
  simp only [entityRows, List.mem_flatMap, mem_itemRows]
  constructor
  · rintro ⟨⟨c, is⟩, hc, rfl, rfl, ms, hi, hm⟩
    exact ⟨rfl, is, ms, e.mem_entries.1 hc, hi, hm⟩
  · rintro ⟨rfl, is, ms, hc, hi, hm⟩
    exact ⟨(row.category, is), e.mem_entries.2 hc, rfl, rfl, ms, hi, hm⟩

/-- A message of a record is found under an entity, a category and an item. -/
theorem mem_messages {r : ErrorRecord} {entity item m : String} {c : Category} :
    m ∈ r.messages entity c item ↔
      ∃ e is ms, r.entries.find? entity = some e ∧ e.find? c = some is ∧
        is.find? item = some ms ∧ m ∈ ms := by
  unfold messages
  cases he : r.entries.find? entity with
  | none => simp
  | some e =>
    cases hc : e.find? c with
    | none => simp [hc]
    | some is => cases hi : is.find? item <;> simp [hc, hi]

/-- A row is in a record if its message is found under what it is filed under. -/
theorem mem_rows {r : ErrorRecord} {row : ErrorRow} :
    row ∈ r.rows ↔ row.message ∈ r.messages row.entity row.category row.item := by
  simp only [rows, List.mem_flatMap, mem_entityRows, mem_messages]
  constructor
  · rintro ⟨⟨entity, e⟩, he, rfl, is, ms, hc, hi, hm⟩
    exact ⟨e, is, ms, r.entries.mem_entries.1 he, hc, hi, hm⟩
  · rintro ⟨e, is, ms, he, hc, hi, hm⟩
    exact ⟨(row.entity, e), r.entries.mem_entries.2 he, rfl, is, ms, hc, hi, hm⟩

/-- The empty record has no rows. -/
@[simp] theorem rows_empty : empty.rows = [] := rfl

/-! ## Counting rows -/

/-- The messages about the items of a category are counted by their rows. -/
theorem length_itemRows (entity : String) (c : Category) (is : ItemErrors) :
    (itemRows entity c is).length = itemSize is :=
  (is.foldl_values_eq_length List.length _ fun _ => List.length_map ..).symm

/-- The messages about an entity are counted by its rows. -/
theorem length_entityRows (entity : String) (e : EntityErrors) :
    (entityRows entity e).length = entitySize e :=
  (e.foldl_values_eq_length itemSize _ fun _ => length_itemRows ..).symm

/-- The messages of a record are counted by its rows. -/
theorem length_rows (r : ErrorRecord) : r.rows.length = r.size :=
  (r.entries.foldl_values_eq_length entitySize _ fun _ => length_entityRows ..).symm

/-! ## Selecting rows -/

/-- The rows about an entity. -/
theorem filter_rows (r : ErrorRecord) (entity : String) (p : ErrorRow → Bool) :
    r.rows.filter (fun row => decide (row.entity = entity) && p row) =
      (r.entries.find? entity).elim [] fun e => (entityRows entity e).filter p :=
  r.entries.filter_flatMap_entries ErrorRow.entity (fun _ _ hrow => (mem_entityRows.1 hrow).1)
    entity p

/-- The rows about an entity in a category. -/
theorem filter_entityRows (entity : String) (e : EntityErrors) (c : Category)
    (p : ErrorRow → Bool) :
    (entityRows entity e).filter (fun row => decide (row.category = c) && p row) =
      (e.find? c).elim [] fun is => (itemRows entity c is).filter p :=
  e.filter_flatMap_entries ErrorRow.category (fun _ _ hrow => (mem_itemRows.1 hrow).2.1) c p

/-- The rows about an item. -/
theorem filter_itemRows (entity : String) (c : Category) (is : ItemErrors) (item : String) :
    (itemRows entity c is).filter (fun row => decide (row.item = item)) =
      (is.find? item).elim [] fun ms => ms.map fun m => ⟨entity, c, item, m⟩ := by
  have h := is.filter_flatMap_entries ErrorRow.item
    (f := fun i => i.2.map fun m => ⟨entity, c, i.1, m⟩) (by simp) item fun _ => true
  simpa [itemRows] using h

/-- The messages about an item are those of its rows. -/
theorem messages_eq (r : ErrorRecord) (entity : String) (c : Category) (item : String) :
    r.messages entity c item =
      (r.rows.filter fun row => row.entity = entity ∧ row.category = c ∧ row.item = item).map
        ErrorRow.message := by
  simp only [Bool.decide_and, filter_rows, filter_entityRows, filter_itemRows, messages]
  cases he : r.entries.find? entity with
  | none => rfl
  | some e =>
    cases hc : e.find? c with
    | none => simp [hc]
    | some is => cases hi : is.find? item <;> simp [hc, hi, Function.comp_def]

/-- The messages about an entity in a category are counted by their rows. -/
theorem count_eq (r : ErrorRecord) (entity : String) (c : Category) :
    r.count entity c =
      (r.rows.filter fun row => row.entity = entity ∧ row.category = c).length := by
  have hrows : (r.rows.filter fun row => row.entity = entity ∧ row.category = c) =
      (r.entries.find? entity).elim [] fun e =>
        (e.find? c).elim [] fun is => itemRows entity c is := by
    have hcategory := fun e => filter_entityRows entity e c fun _ => true
    simp only [Bool.and_true, List.filter_true] at hcategory
    simp only [Bool.decide_and, filter_rows, hcategory]
  rw [hrows, count]
  cases he : r.entries.find? entity with
  | none => rfl
  | some e => cases hc : e.find? c <;> simp [hc, length_itemRows]

/-! ## Filing a row -/

/-- A message is added to a list that does not hold it. -/
theorem mem_addMessage {m m' : String} {ms : List String} :
    m' ∈ addMessage m ms ↔ m' = m ∨ m' ∈ ms := by
  unfold addMessage
  split
  · next h =>
    have hm : m ∈ ms := by simpa using h
    exact ⟨.inr, fun h' => h'.elim (fun he => he ▸ hm) id⟩
  · rw [List.mem_append, List.mem_singleton]
    exact or_comm

/-- Adding a message makes no message stand twice. -/
theorem nodup_addMessage {m : String} {ms : List String} (h : ms.Nodup) :
    (addMessage m ms).Nodup := by
  unfold addMessage
  split
  · exact h
  · next hm =>
    have hm : m ∉ ms := by simpa using hm
    exact List.nodup_append.2
      ⟨h, List.nodup_singleton m, fun a ha b hb hab => hm (List.mem_singleton.1 hb ▸ hab ▸ ha)⟩

/-- Filing a row touches the messages that it is filed under, and no others. -/
theorem messages_add (r : ErrorRecord) (row : ErrorRow) (entity item : String) (c : Category) :
    (r.add row).messages entity c item =
      if row.entity = entity ∧ row.category = c ∧ row.item = item then
        addMessage row.message (r.messages entity c item)
      else r.messages entity c item := by
  unfold messages add
  by_cases he : row.entity = entity
  · subst he
    by_cases hc : row.category = c
    · subst hc
      by_cases hi : row.item = item
      · subst hi
        simp [OrderedMap.find?_getD_empty]
      · simp [hi, OrderedMap.find?_getD_empty]
    · simp [hc, OrderedMap.find?_getD_empty]
  · simp [he]

/-- Filing a row adds this row only. -/
theorem mem_rows_add {r : ErrorRecord} {row row' : ErrorRow} :
    row' ∈ (r.add row).rows ↔ row' = row ∨ row' ∈ r.rows := by
  obtain ⟨entity, c, item, m⟩ := row
  obtain ⟨entity', c', item', m'⟩ := row'
  rw [mem_rows, mem_rows, messages_add]
  split
  · next h =>
    obtain ⟨rfl, rfl, rfl⟩ := h
    simp [mem_addMessage]
  · next h =>
    rw [ErrorRow.mk.injEq]
    exact ⟨.inr, fun h' => h'.elim (fun he => absurd ⟨he.1.symm, he.2.1.symm, he.2.2.1.symm⟩ h) id⟩

/-- Filing a row that is there changes nothing. -/
theorem add_of_mem {r : ErrorRecord} {row : ErrorRow} (h : row ∈ r.rows) : r.add row = r := by
  obtain ⟨e, is, ms, he, hc, hi, hm⟩ := mem_messages.1 (mem_rows.1 h)
  have hmessage : addMessage row.message ms = ms := by simp [addMessage, hm]
  have hitems := OrderedMap.upsert_eq_self (f := fun ms => addMessage row.message (ms.getD []))
    hi hmessage
  have hentity := OrderedMap.upsert_eq_self (f := fun is => (is.getD .empty).upsert row.item
    fun ms => addMessage row.message (ms.getD [])) hc hitems
  exact congrArg ErrorRecord.mk (OrderedMap.upsert_eq_self he hentity)

/-- The entities of a record after filing a row. -/
theorem mem_entities_add {r : ErrorRecord} {row : ErrorRow} {entity : String} :
    entity ∈ (r.add row).entities ↔ entity = row.entity ∨ entity ∈ r.entities := by
  simp only [entities, add, OrderedMap.keys_upsert]
  split
  · next h => exact ⟨.inr, fun h' => h'.elim (fun he => he ▸ h) id⟩
  · rw [List.mem_append, List.mem_singleton]
    exact or_comm

/-! ## Records made by filing -/

/-- What holds of records made by filing: no message stands twice under an item, and every entity
has a row. -/
structure WellFiled (r : ErrorRecord) : Prop where
  nodup_messages : ∀ entity c item, (r.messages entity c item).Nodup
  exists_row : ∀ entity ∈ r.entities, ∃ row ∈ r.rows, row.entity = entity

/-- The empty record is well filed. -/
theorem WellFiled.empty : WellFiled empty where
  nodup_messages _ _ _ := List.nodup_nil
  exists_row entity h := by simp [entities, ErrorRecord.empty] at h

/-- Filing a row keeps a record well filed. -/
theorem WellFiled.add {r : ErrorRecord} (h : WellFiled r) (row : ErrorRow) :
    WellFiled (r.add row) where
  nodup_messages entity c item := by
    rw [messages_add]
    split
    · exact nodup_addMessage (h.nodup_messages entity c item)
    · exact h.nodup_messages entity c item
  exists_row entity he := by
    rcases mem_entities_add.1 he with rfl | he
    · exact ⟨row, mem_rows_add.2 (.inl rfl), rfl⟩
    · obtain ⟨row', hrow', rfl⟩ := h.exists_row entity he
      exact ⟨row', mem_rows_add.2 (.inr hrow'), rfl⟩

/-- A well-filed record has no row twice. -/
theorem WellFiled.nodup_rows {r : ErrorRecord} (h : WellFiled r) : r.rows.Nodup := by
  refine r.entries.nodup_flatMap_entries _ ErrorRow.entity ?_
    fun e row hrow => (mem_entityRows.1 hrow).1
  rintro ⟨entity, e⟩ he
  refine e.nodup_flatMap_entries _ ErrorRow.category ?_ fun c row hrow => (mem_itemRows.1 hrow).2.1
  rintro ⟨c, is⟩ hc
  refine is.nodup_flatMap_entries _ ErrorRow.item ?_ ?_
  · rintro ⟨item, ms⟩ hi
    have hms : r.messages entity c item = ms := by
      simp only [messages, r.entries.mem_entries.1 he, e.mem_entries.1 hc, is.mem_entries.1 hi,
        Option.bind_some, Option.getD_some]
    refine List.Nodup.map ?_ (hms ▸ h.nodup_messages entity c item)
    exact fun a b hab => by injection hab
  · rintro ⟨item, ms⟩ row hrow
    obtain ⟨m, -, rfl⟩ := List.mem_map.1 hrow
    rfl

/-- A record with a row is not empty. -/
theorem isEmpty_of_mem {r : ErrorRecord} {row : ErrorRow} (h : row ∈ r.rows) :
    r.isEmpty = false := by
  obtain ⟨e, _, _, he, _⟩ := mem_messages.1 (mem_rows.1 h)
  rw [Bool.eq_false_iff, ne_eq, isEmpty, OrderedMap.isEmpty_eq_true]
  exact List.ne_nil_of_mem (OrderedMap.mem_keys_of_find? he)

/-- A well-filed record is empty if it has no row. -/
theorem WellFiled.isEmpty_iff {r : ErrorRecord} (h : WellFiled r) :
    r.isEmpty = true ↔ ∀ row, row ∉ r.rows := by
  constructor
  · intro hempty row hrow
    exact absurd hempty (Bool.eq_false_iff.1 (isEmpty_of_mem hrow))
  · intro hnone
    rw [isEmpty, OrderedMap.isEmpty_eq_true, List.eq_nil_iff_forall_not_mem]
    intro entity he
    obtain ⟨row, hrow, -⟩ := h.exists_row entity he
    exact hnone row hrow

/-- Files rows one after the other. -/
def addAll (r : ErrorRecord) (rows : List ErrorRow) : ErrorRecord := rows.foldl add r

@[simp] theorem addAll_nil (r : ErrorRecord) : r.addAll [] = r := rfl

@[simp] theorem addAll_cons (r : ErrorRecord) (row : ErrorRow) (rows : List ErrorRow) :
    r.addAll (row :: rows) = (r.add row).addAll rows := rfl

/-- Rows are filed in parts. -/
theorem addAll_append (r : ErrorRecord) (rows rows' : List ErrorRow) :
    r.addAll (rows ++ rows') = (r.addAll rows).addAll rows' :=
  List.foldl_append

/-- Filing rows adds these rows only. -/
theorem mem_rows_addAll {r : ErrorRecord} {rows : List ErrorRow} {row : ErrorRow} :
    row ∈ (r.addAll rows).rows ↔ row ∈ rows ∨ row ∈ r.rows := by
  induction rows generalizing r with
  | nil => simp
  | cons row' rows ih =>
    rw [addAll_cons, ih, mem_rows_add, List.mem_cons]
    tauto

/-- Filing rows that are there changes nothing. -/
theorem addAll_of_subset {r : ErrorRecord} {rows : List ErrorRow} (h : ∀ row ∈ rows, row ∈ r.rows) :
    r.addAll rows = r := by
  induction rows with
  | nil => rfl
  | cons row rows ih =>
    rw [addAll_cons, add_of_mem (h row (List.mem_cons_self ..))]
    exact ih fun row' hrow' => h row' (List.mem_cons_of_mem _ hrow')

/-- Filing the same rows again changes nothing. -/
theorem addAll_addAll (r : ErrorRecord) (rows : List ErrorRow) :
    (r.addAll rows).addAll rows = r.addAll rows :=
  addAll_of_subset fun _ hrow => mem_rows_addAll.2 (.inl hrow)

/-- Filing rows keeps a record well filed. -/
theorem WellFiled.addAll {r : ErrorRecord} (h : WellFiled r) (rows : List ErrorRow) :
    WellFiled (r.addAll rows) := by
  induction rows generalizing r with
  | nil => exact h
  | cons row rows ih => exact ih (h.add row)

/-- A record is empty after filing rows if it was before and there were none. -/
theorem WellFiled.isEmpty_addAll {r : ErrorRecord} (h : WellFiled r) {rows : List ErrorRow} :
    (r.addAll rows).isEmpty = true ↔ rows = [] ∧ r.isEmpty = true := by
  rw [(h.addAll rows).isEmpty_iff, h.isEmpty_iff, List.eq_nil_iff_forall_not_mem]
  simp only [mem_rows_addAll, not_or, forall_and]

/-- A name that is not empty is what errors about it are filed under. -/
theorem fileName_some {name : String} (h : name ≠ "") : fileName (some name) = name := by
  simp [fileName, h]

end EntityModel.ErrorRecord
