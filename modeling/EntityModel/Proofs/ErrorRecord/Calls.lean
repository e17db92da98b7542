import EntityModel.Proofs.ErrorRecord
import EntityModel.Proofs.ErrorRecord.Filing

/-!
# Error records under any calls

`ErrorRecord.Call` lists the functions that put messages into a record. Each of them files rows, one
after the other (`perform_eq`), so a record that calls have made shows what was filed
(`ErrorRecord.Shows`), one more message is a row at one place or nothing (`ErrorRecord.Files`), and
filing the rows of a record makes the same record again, with every order in it (`addAll_rows`).
`record_of_calls` puts this together.
-/

namespace EntityModel.ErrorRecord

/-! ## Messages under an item -/

/-- Adding messages to none leaves the first of each. -/
theorem foldl_addMessage (ms : List String) :
    ms.foldl (fun ms m => addMessage m ms) [] = ms.eraseDups := by
  simpa [addMessage] using foldl_append_new ms

/-- Different messages are all added, in order. -/
theorem foldl_addMessage_of_nodup {ms : List String} (h : ms.Nodup) :
    ms.foldl (fun ms m => addMessage m ms) [] = ms := by
  induction ms using List.reverseRecOn with
  | nil => rfl
  | append_singleton ms m ih =>
    obtain ⟨hms, -, hm⟩ := List.nodup_append.1 h
    have hnew : m ∉ ms := fun hmem => hm m hmem m List.mem_cons_self rfl
    rw [List.foldl_append, ih hms]
    simp [addMessage, hnew]

/-- Files messages under an item. -/
def messageFiling : Filing (List String) String where
  start := []
  file ms m := addMessage m ms
  parts ms := ms

/-- Filed messages are different, and a new one comes last. -/
theorem messageFiling_faithful : messageFiling.Faithful fun ms => ms ≠ [] ∧ ms.Nodup where
  parts_start := rfl
  made_first m := ⟨List.cons_ne_nil _ _, List.nodup_singleton m⟩
  made_next ms m hms := by
    refine ⟨?_, nodup_addMessage hms.2⟩
    exact List.ne_nil_of_mem (mem_addMessage.2 (.inl rfl))
  ne_nil ms hms := hms.1
  inserted ms m hm := by
    have hm : m ∉ ms := hm
    exact ⟨ms, [], (List.append_nil ms).symm, by simp [messageFiling, addMessage, hm]⟩
  replayed ms hms := foldl_addMessage_of_nodup hms.2

/-! ## The three levels -/

/-- Files messages under entities, categories and items. -/
def rowFiling : Filing (OrderedMap String EntityErrors) (String × Category × String × String) :=
  messageFiling.nest.nest.nest

/-- Each level lists a new message at one place, and is made again by what it lists. -/
theorem rowFiling_faithful : ∃ Made, rowFiling.Faithful Made :=
  ⟨_, messageFiling_faithful.nest.nest.nest⟩

/-- The row of a message with what it is filed under. -/
def rowOf (p : String × Category × String × String) : ErrorRow := ⟨p.1, p.2.1, p.2.2.1, p.2.2.2⟩

/-- The message of a row with what it is filed under. -/
def partOf (row : ErrorRow) : String × Category × String × String :=
  (row.entity, row.category, row.item, row.message)

/-- The rows of a record are what is filed in its entries. -/
theorem rows_eq (r : ErrorRecord) : r.rows = (rowFiling.parts r.entries).map rowOf := by
  simp [rows, entityRows, itemRows, rowFiling, Filing.nest, messageFiling, List.map_flatMap,
    Function.comp_def, rowOf]

/-- Rows are filed in the entries. -/
theorem entries_addAll (r : ErrorRecord) (rows : List ErrorRow) :
    (r.addAll rows).entries = (rows.map partOf).foldl rowFiling.file r.entries := by
  induction rows generalizing r with
  | nil => rfl
  | cons row rows ih => exact ih (r.add row)

/-- A new row is inserted among the rows of the record. -/
theorem inserted_add {r : ErrorRecord} {row : ErrorRow} (h : row ∉ r.rows) :
    Inserted row r.rows (r.add row).rows := by
  obtain ⟨_, hfaithful⟩ := rowFiling_faithful
  have hnew : partOf row ∉ rowFiling.parts r.entries := by
    intro hpart
    rw [rows_eq] at h
    exact h (List.mem_map_of_mem hpart)
  have hadd : (r.add row).rows =
      (rowFiling.parts (rowFiling.file r.entries (partOf row))).map rowOf := rows_eq _
  rw [rows_eq, hadd]
  exact (hfaithful.inserted r.entries (partOf row) hnew).map rowOf

/-- A record that rows were filed in is made again by filing its own rows. -/
theorem addAll_rows (rows : List ErrorRow) :
    empty.addAll (empty.addAll rows).rows = empty.addAll rows := by
  obtain ⟨_, hfaithful⟩ := rowFiling_faithful
  have hparts : ((empty.addAll rows).rows.map partOf) =
      rowFiling.parts ((rows.map partOf).foldl rowFiling.file rowFiling.start) := by
    rw [rows_eq, entries_addAll, List.map_map]
    exact List.map_id _
  refine congrArg ErrorRecord.mk ?_
  show (empty.addAll (empty.addAll rows).rows).entries = (empty.addAll rows).entries
  rw [entries_addAll, hparts, entries_addAll]
  exact hfaithful.replayed_foldl _

/-! ## Calls -/

/-- A call that puts messages into a record. -/
inductive Call where
  | record (entity : Option String) (c : Category) (item message : String)
  | attribute (entity item message : String)
  | reference (entity item message : String)
  | object (entity message : String)
  | extend (other : ErrorRecord)
  deriving DecidableEq, Inhabited

/-- What a call makes of the record. -/
def perform (r : ErrorRecord) : Call → ErrorRecord
  | .record entity c item message => r.record entity c item message
  | .attribute entity item message => r.recordAttribute entity item message
  | .reference entity item message => r.recordReference entity item message
  | .object entity message => r.recordObject entity message
  | .extend other => r.extend other

/-- The record that calls make of the empty one. -/
def built (calls : List Call) : ErrorRecord := calls.foldl perform empty

/-- A row of another record as it is filed: with an entity, if it names none. -/
def refiled (row : ErrorRow) : ErrorRow := { row with entity := fileName (some row.entity) }

/-- The rows that a call files. -/
def Call.rows : Call → List ErrorRow
  | .record entity c item message => [⟨fileName entity, c, item, message⟩]
  | .attribute entity item message => [⟨fileName (some entity), .attributeItem, item, message⟩]
  | .reference entity item message => [⟨fileName (some entity), .referenceItem, item, message⟩]
  | .object entity message => [⟨fileName (some entity), .wholeObject, wholeEntity, message⟩]
  | .extend other => other.rows.map refiled

/-- Extending a record files the rows of the other one. -/
theorem extend_eq (r other : ErrorRecord) : r.extend other = r.addAll (other.rows.map refiled) := by
  rw [addAll, List.foldl_map]
  rfl

/-- A call files its rows. -/
theorem perform_eq (r : ErrorRecord) (call : Call) : r.perform call = r.addAll call.rows := by
  cases call with
  | extend other => exact r.extend_eq other
  | _ => rfl

/-- Calls file their rows one after the other. -/
theorem built_eq (calls : List Call) : built calls = empty.addAll (calls.flatMap Call.rows) := by
  suffices h : ∀ r : ErrorRecord, calls.foldl perform r = r.addAll (calls.flatMap Call.rows) from
    h empty
  induction calls with
  | nil => exact fun r => rfl
  | cons call calls ih =>
    intro r
    rw [List.foldl_cons, ih, perform_eq, List.flatMap_cons, addAll_append]

/-- What is filed under is not empty. -/
theorem fileName_ne_empty (entity : Option String) : fileName entity ≠ "" := by
  unfold fileName
  split
  · decide
  · split
    · decide
    · next h => simpa using h

/-- The rows of a call name an entity. -/
theorem Call.entity_ne_empty {call : Call} {row : ErrorRow} (h : row ∈ call.rows) :
    row.entity ≠ "" := by
  cases call with
  | extend other =>
    obtain ⟨row, -, rfl⟩ := List.mem_map.1 h
    exact fileName_ne_empty (some row.entity)
  | _ =>
    obtain rfl := List.mem_singleton.1 h
    dsimp only
    exact fileName_ne_empty _

/-- The rows of a record that calls have made are filed in another one as they are. -/
theorem map_refiled_built (calls : List Call) :
    (built calls).rows.map refiled = (built calls).rows := by
  refine (List.map_congr_left fun row hrow => ?_).trans (List.map_id _)
  rw [built_eq, mem_rows_addAll] at hrow
  obtain ⟨call, -, hrow⟩ := List.mem_flatMap.1 (hrow.resolve_right List.not_mem_nil)
  show ErrorRow.mk (fileName (some row.entity)) _ _ _ = row
  rw [fileName_some (Call.entity_ne_empty hrow)]

/-! ## What a record shows -/

/-- What can be seen of a record that rows were filed in, one after the other. -/
structure Shows (r : ErrorRecord) (filed : List ErrorRow) : Prop where
  nodup_rows : r.rows.Nodup
  mem_rows : ∀ row, row ∈ r.rows ↔ row ∈ filed
  messages_filed : ∀ entity c item, r.messages entity c item =
    ((filed.filter fun row => row.entity = entity ∧ row.category = c ∧ row.item = item).map
      ErrorRow.message).eraseDups
  messages : ∀ entity c item, r.messages entity c item =
    (r.rows.filter fun row => row.entity = entity ∧ row.category = c ∧ row.item = item).map
      ErrorRow.message
  count : ∀ entity c, r.count entity c =
    (r.rows.filter fun row => row.entity = entity ∧ row.category = c).length
  size : r.size = r.rows.length
  isEmpty : r.isEmpty = true ↔ r.size = 0

/-- What filing one message does: a message that is there changes nothing, a new one is a row at one
place and the last message of its item. The messages of other items stay as they are. -/
structure Files (r : ErrorRecord) (entity : Option String) (c : Category) (item message : String) :
    Prop where
  isNew : (r.file entity c item message).1 = true ↔ ⟨fileName entity, c, item, message⟩ ∉ r.rows
  unchanged : ⟨fileName entity, c, item, message⟩ ∈ r.rows → (r.file entity c item message).2 = r
  inserted : ⟨fileName entity, c, item, message⟩ ∉ r.rows →
    Inserted ⟨fileName entity, c, item, message⟩ r.rows (r.file entity c item message).2.rows ∧
      (r.file entity c item message).2.messages (fileName entity) c item =
        r.messages (fileName entity) c item ++ [message]
  others : ∀ entity' c' item', ¬ (fileName entity = entity' ∧ c = c' ∧ item = item') →
    (r.file entity c item message).2.messages entity' c' item' = r.messages entity' c' item'

/-- What extending a record by another does: the rows are those of both, and the same record once
more changes nothing. -/
structure Extends (r other : ErrorRecord) : Prop where
  mem_rows : ∀ row, row ∈ (r.extend other).rows ↔ row ∈ r.rows ∨ row ∈ other.rows
  again : (r.extend other).extend other = r.extend other

/-- Of filed messages, the first of each stands under its item. -/
theorem messages_addAll (r : ErrorRecord) (rows : List ErrorRow) (entity : String) (c : Category)
    (item : String) :
    (r.addAll rows).messages entity c item =
      ((rows.filter fun row => row.entity = entity ∧ row.category = c ∧ row.item = item).map
        ErrorRow.message).foldl (fun ms m => addMessage m ms) (r.messages entity c item) := by
  induction rows generalizing r with
  | nil => rfl
  | cons row rows ih =>
    rw [addAll_cons, ih, messages_add]
    by_cases h : row.entity = entity ∧ row.category = c ∧ row.item = item <;> simp [h]

/-- What is seen of a record is what was filed. -/
theorem shows_addAll (filed : List ErrorRow) : (empty.addAll filed).Shows filed where
  nodup_rows := (WellFiled.empty.addAll filed).nodup_rows
  mem_rows row := by simp [mem_rows_addAll]
  messages_filed entity c item := by
    rw [messages_addAll]
    exact foldl_addMessage _
  messages := messages_eq _
  count := count_eq _
  size := (length_rows _).symm
  isEmpty := by
    rw [(WellFiled.empty.addAll filed).isEmpty_iff, ← length_rows, List.length_eq_zero_iff,
      List.eq_nil_iff_forall_not_mem]

/-- Filing a message is filing a row, or nothing. -/
theorem files (r : ErrorRecord) (entity : Option String) (c : Category) (item message : String) :
    r.Files entity c item message where
  isNew := by
    rw [mem_rows]
    simp [file, contains]
  unchanged h := add_of_mem h
  inserted h := by
    refine ⟨inserted_add h, ?_⟩
    have hm : message ∉ r.messages (fileName entity) c item := fun hm => h (mem_rows.2 hm)
    show (r.add _).messages _ _ _ = _
    rw [messages_add]
    simp [addMessage, hm]
  others entity' c' item' h := by
    show (r.add _).messages _ _ _ = _
    rw [messages_add, if_neg h]

/-- Extending a record by one that calls have made files the rows of it. -/
theorem extends_built (r : ErrorRecord) (calls : List Call) : r.Extends (built calls) where
  mem_rows row := by
    rw [extend_eq, map_refiled_built, mem_rows_addAll]
    exact or_comm
  again := by
    rw [extend_eq, extend_eq]
    exact addAll_addAll r _

/-- A record that any calls have made shows the rows that they filed, each once and the messages of
an item in the order of their first filing. One more message is new exactly if its row is not there,
and is then this row at one place. Extending by another such record gives the rows of both, once and
for all; extending by itself changes nothing, and extending the empty record makes it again. -/
theorem record_of_calls (calls : List Call) :
    (built calls).Shows (calls.flatMap Call.rows) ∧
    (∀ entity c item message, (built calls).Files entity c item message) ∧
    (∀ calls', (built calls).Extends (built calls')) ∧
    (built calls).extend (built calls) = built calls ∧
    empty.extend (built calls) = built calls := by
  refine ⟨built_eq calls ▸ shows_addAll _, files _, extends_built _, ?_, ?_⟩
  · rw [extend_eq, map_refiled_built]
    exact addAll_of_subset fun _ hrow => hrow
  · rw [extend_eq, map_refiled_built, built_eq]
    exact addAll_rows _

end EntityModel.ErrorRecord
