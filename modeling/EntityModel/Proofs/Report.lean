import EntityModel.Proofs.Document.Records
import EntityModel.Proofs.Document.Values
import EntityModel.Proofs.Json.RoundTrip
import EntityModel.Report

/-!
# Reports are read back

The file of a report loses nothing: the written form of each of its parts is read as that part, and
the form as a whole is plain, so that its JSON is read as it (`Report.read?_toJson`). What a report
counts has to fit into 64 bits, and the parts of its version into 32 bits.
-/

namespace EntityModel

/-! ## Error records -/

namespace ErrorRecord

theorem ofName?_name (c : Category) : Category.ofName? c.name = some c := by
  cases c <;> rfl

/-- The messages about one entity are read back from what they are written as. -/
theorem entityOfDocument?_table (e : EntityErrors) :
    entityOfDocument? (.table (e.entries.map fun c => (c.1.name, c.2.toDocument Document.texts))) =
      some e := by
  have hitems : ∀ is : ItemErrors, (is.toDocument Document.texts).asMapOf?
      (Document.asListOf? Document.asText?) = some is := fun is =>
    Document.asMapOf?_toDocument fun i _ => Document.asListOf?_texts i.2
  have hcategories : (e.entries.map fun c => (c.1.name, c.2.toDocument Document.texts)).mapM
      (fun m => do return (← Category.ofName? m.1,
        ← m.2.asMapOf? (Document.asListOf? Document.asText?))) = some e.entries := by
    rw [List.mapM_map, mapM_eq_some]
    refine List.forall₂_same.2 fun c _ => ?_
    simp [ofName?_name, hitems]
  rw [entityOfDocument?, hcategories]
  exact congrArg some (OrderedMap.ofList_entries e)

/-- A record is read back from what it is written as. -/
theorem ofDocument?_toDocument (r : ErrorRecord) : ofDocument? r.toDocument = some r := by
  rw [ofDocument?, toDocument, Document.asMapOf?_toDocument fun e _ => entityOfDocument?_table e.2]
  rfl

/-- A record is written with four levels of brackets. -/
theorem plain_toDocument (r : ErrorRecord) : r.toDocument.Plain 4 :=
  Document.plain_toDocument fun _ _ => .table (List.forall_mem_map.2 fun _ _ =>
    Document.plain_toDocument fun i _ => Document.plain_texts i.2)

end ErrorRecord

/-- Whether the parts of a version fit into 32 bits. -/
def ReportVersion.Fits (v : ReportVersion) : Prop := v.major < UInt32.size ∧ v.minor < UInt32.size

/-- Whether all that was counted fits into 64 bits. -/
def ReportSummary.Fits (s : ReportSummary) : Prop :=
  s.entities < UInt64.size ∧ s.attributes < UInt64.size ∧ s.references < UInt64.size ∧
    s.errors < UInt64.size

namespace Report

/-! ## The parts of a report -/

/-- The table a version is written as. -/
def versionDocument (v : ReportVersion) : Document :=
  .table [("major", .nat v.major), ("minor", .nat v.minor)]

/-- The table that what was counted is written as. -/
def summaryDocument (s : ReportSummary) : Document :=
  .table [("entities", .nat s.entities), ("attributes", .nat s.attributes),
    ("references", .nat s.references), ("errors", .nat s.errors)]

theorem toDocument_eq (r : Report) :
    r.toDocument = .table ([("version", versionDocument r.version),
      ("timestamp", .text r.timestamp), ("valid", .bool r.valid),
      ("summary", summaryDocument r.summary), ("errors", r.errors.toDocument)] ++
      Document.optionalMember "order" outcomeDocument r.order) :=
  rfl

/-- A version is read from its two parts. The bounds stay out of sight here: the parts are not known
to be numbers. -/
theorem versionOf?_of_fields {d major minor : Document} {v : ReportVersion}
    (hfields : d.fields? ["major", "minor"] false = some [some major, some minor])
    (hmajor : major.asNatBelow? UInt32.size = some v.major)
    (hminor : minor.asNatBelow? UInt32.size = some v.minor) : versionOf? d = some v := by
  rw [versionOf?, hfields]
  simp [Document.required?, hmajor, hminor]

theorem versionOf?_versionDocument {v : ReportVersion} (h : v.Fits) :
    versionOf? (versionDocument v) = some v :=
  versionOf?_of_fields rfl (Document.asNatBelow?_nat h.1) (Document.asNatBelow?_nat h.2)

/-- A summary is read from its four counts. -/
theorem summaryOf?_of_fields {d entities attributes references errors : Document}
    {s : ReportSummary}
    (hfields : d.fields? ["entities", "attributes", "references", "errors"] false =
      some [some entities, some attributes, some references, some errors])
    (hentities : entities.asNatBelow? UInt64.size = some s.entities)
    (hattributes : attributes.asNatBelow? UInt64.size = some s.attributes)
    (hreferences : references.asNatBelow? UInt64.size = some s.references)
    (herrors : errors.asNatBelow? UInt64.size = some s.errors) : summaryOf? d = some s := by
  rw [summaryOf?, hfields]
  simp [Document.required?, hentities, hattributes, hreferences, herrors]

theorem summaryOf?_summaryDocument {s : ReportSummary} (h : s.Fits) :
    summaryOf? (summaryDocument s) = some s :=
  have ⟨hentities, hattributes, hreferences, herrors⟩ := h
  summaryOf?_of_fields rfl (Document.asNatBelow?_nat hentities)
    (Document.asNatBelow?_nat hattributes) (Document.asNatBelow?_nat hreferences)
    (Document.asNatBelow?_nat herrors)

theorem plain_outcomeDocument (o : OrderOutcome) : (outcomeDocument o).Plain 2 := by
  cases o with
  | ordered order =>
    refine .table (List.forall_mem_cons.2 ⟨.text _, ?_⟩)
    exact List.forall_mem_singleton.2 (Document.plain_texts order)
  | cyclic c =>
    refine .table (List.forall_mem_cons.2 ⟨.text _, List.forall_mem_cons.2 ⟨?_, ?_⟩⟩)
    · exact Document.plain_texts c.resolved
    · exact List.forall_mem_singleton.2 (Document.plain_texts c.unresolved)

/-- The outcome of the ordering is read back. Its table is looked at as a value first, which it has
because it is plain. -/
theorem outcomeOf?_outcomeDocument (o : OrderOutcome) :
    outcomeOf? (outcomeDocument o) = some o := by
  obtain ⟨v, hv⟩ := Document.exists_toValue?.2 (plain_outcomeDocument o).readable
  rw [outcomeOf?, hv]
  cases o with
  | ordered order =>
    have hstatus : statusOf? (outcomeDocument (.ordered order)) =
        some ("ordered", .table [("order", .texts order)]) := rfl
    have hfields : (Document.table [("order", .texts order)]).fields? ["order"] false =
        some [some (.texts order)] := rfl
    rw [hstatus]
    simp [hfields, namesOf?, Document.required?, Document.asListOf?_texts]
  | cyclic c =>
    have hstatus : statusOf? (outcomeDocument (.cyclic c)) = some ("cyclic",
        .table [("resolved", .texts c.resolved), ("unresolved", .texts c.unresolved)]) := rfl
    have hfields : (Document.table [("resolved", .texts c.resolved),
        ("unresolved", .texts c.unresolved)]).fields? ["resolved", "unresolved"] false =
        some [some (.texts c.resolved), some (.texts c.unresolved)] := rfl
    rw [hstatus]
    simp [hfields, namesOf?, Document.required?, Document.asListOf?_texts]

/-- What is written for the outcome is read back, also if nothing is. -/
theorem orderOf?_map (o : Option OrderOutcome) :
    orderOf? false (o.map outcomeDocument) = some o := by
  cases o with
  | none => rfl
  | some o =>
    have hread : Document.optional? outcomeOf? (some (outcomeDocument o)) =
        (outcomeOf? (outcomeDocument o)).map some := by
      cases o <;> rfl
    exact hread.trans (congrArg (Option.map some) (outcomeOf?_outcomeDocument o))

/-! ## The report as a whole -/

section
variable {r : Report}

/-- A report is written with at most five levels of brackets. -/
theorem plain_toDocument (hversion : r.version.Fits) (hsummary : r.summary.Fits) :
    r.toDocument.Plain 5 := by
  have hsize : ∀ n < UInt32.size, n < UInt64.size := fun n hn => Nat.lt_trans hn (by decide)
  have hversion : (versionDocument r.version).Plain 4 := by
    refine .table (List.forall_mem_cons.2 ⟨?_, List.forall_mem_singleton.2 ?_⟩)
    · exact Document.plain_nat (hsize _ hversion.1)
    · exact Document.plain_nat (hsize _ hversion.2)
  have hsummary : (summaryDocument r.summary).Plain 4 := by
    obtain ⟨hentities, hattributes, hreferences, herrors⟩ := hsummary
    refine .table ?_
    simp only [List.forall_mem_cons]
    exact ⟨Document.plain_nat hentities, Document.plain_nat hattributes,
      Document.plain_nat hreferences, Document.plain_nat herrors, List.forall_mem_nil _⟩
  have horder : ∀ m ∈ Document.optionalMember "order" outcomeDocument r.order, m.2.Plain 4 :=
    Document.plain_optionalMember fun o _ =>
      (plain_outcomeDocument o).mono (show 2 ≤ 4 by decide)
  rw [toDocument_eq]
  refine .table (List.forall_mem_append.2 ⟨?_, horder⟩)
  simp only [List.forall_mem_cons]
  exact ⟨hversion, .text _, .bool _, hsummary, r.errors.plain_toDocument, List.forall_mem_nil _⟩

/-- A report is read from the fields of a table. -/
theorem ofDocument?_of_fields {members : List (String × Document)}
    {version timestamp valid summary errors : Document} {order : Option Document}
    (hfields : (Document.table members).fields?
      ["version", "timestamp", "valid", "summary", "errors", "order"] false =
      some [some version, some timestamp, some valid, some summary, some errors, order])
    (hversion : versionOf? version = some r.version)
    (htimestamp : timestamp.asText? = some r.timestamp) (hvalid : valid.asBool? = some r.valid)
    (hsummary : summaryOf? summary = some r.summary)
    (herrors : ErrorRecord.ofDocument? errors = some r.errors)
    (horder : orderOf? false order = some r.order) : ofDocument? (.table members) = some r := by
  unfold ofDocument?
  simp [hfields, Document.required?, hversion, htimestamp, hvalid, hsummary, herrors, horder]

/-- A report is read back from the table that it is written as. -/
theorem ofDocument?_toDocument (hversion : r.version.Fits) (hsummary : r.summary.Fits) :
    ofDocument? r.toDocument = some r := by
  have hfields : r.toDocument.fields?
      ["version", "timestamp", "valid", "summary", "errors", "order"] false =
      some [some (versionDocument r.version), some (.text r.timestamp), some (.bool r.valid),
        some (summaryDocument r.summary), some r.errors.toDocument,
        r.order.map outcomeDocument] := by
    obtain ⟨version, timestamp, valid, summary, errors, _ | order⟩ := r <;> rfl
  exact ofDocument?_of_fields hfields (versionOf?_versionDocument hversion) rfl rfl
    (summaryOf?_summaryDocument hsummary) (ErrorRecord.ofDocument?_toDocument r.errors)
    (orderOf?_map r.order)

/-- The file of a report loses nothing, whatever stands in its texts. -/
theorem read?_toJson (hversion : r.version.Fits) (hsummary : r.summary.Fits) :
    read? r.toJson = some r := by
  have hplain := (plain_toDocument hversion hsummary).mono
    (show 5 ≤ Json.greatestDepth by decide)
  rw [read?, toJson, Json.read?_pretty hplain, Option.bind_some,
    ofDocument?_toDocument hversion hsummary]

end

/-- The greatest numbers, names and messages that have to be escaped, and empty maps. -/
theorem read?_toJson_of_cyclic :
    let errors : ErrorRecord := ⟨.ofList [
      ("Ü\x22\\", .ofList [(.wholeObject, .ofList [("-", ["line\nfeed\x00", "", "\x7f😀"])]),
        (.attributeItem, .empty), (.referenceItem, .ofList [("", []), ("\t", ["\x1f"])])]),
      ("", .empty)]⟩
    let r : Report := ⟨⟨4294967295, 0⟩, "2024-01-01T00:00:00+00:00\r", true,
      ⟨18446744073709551615, 0, 3, 4⟩, errors, some (.cyclic ⟨["a", "a"], []⟩)⟩
    r.version.Fits ∧ r.summary.Fits ∧ read? r.toJson = some r := by
  intro errors r
  have hversion : r.version.Fits := ⟨by decide, by decide⟩
  have hsummary : r.summary.Fits := ⟨by decide, by decide, by decide, by decide⟩
  exact ⟨hversion, hsummary, read?_toJson hversion hsummary⟩

end Report

end EntityModel
