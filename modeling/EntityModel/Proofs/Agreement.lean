import EntityModel.Proofs.Generator.Builder
import EntityModel.Proofs.Order.Emission
import EntityModel.Proofs.Schema.Builder
import EntityModel.Report

/-!
# Agreement of the outputs with the validator

The report of a model, its GraphQL schema and its generator file come from parses of their own. The
two outputs run a validator inside, and check targets as references come, where the report checks
them in the end. All three reach the same normalized model and the same graph, and find the same
rows (`outputs_agree_with_validator`).
-/

namespace EntityModel

/-! ## The validators inside the outputs -/

section
variable {σ : Type} {accept : σ → Event → σ} {inner : σ → Validator}

/-- The parse of a named model by a consumer with a fresh validator inside ends with what a
validator has after a parse and a check of all targets. -/
theorem Model.Named.inner_parseWith [Consumer σ]
    (haccept : ∀ c ev, ev.nameError? = none → Consumer.handle c ev = .ok (accept c ev))
    (hinner : ∀ c ev, inner (accept c ev) = ((inner c).acceptChecked ev).2) {m : Model}
    (h : m.Named) {t : ValidationTables} {c : σ} (hc : inner c = .ofTables t) :
    m.parseWith c = (m.events.foldl accept c, none) ∧
      (inner (m.events.foldl accept c)).model = (m.validated t).model ∧
      (inner (m.events.foldl accept c)).graph = (m.validated t).graph ∧
      (∀ row, row ∈ (inner (m.events.foldl accept c)).errors.rows ↔
        row ∈ (m.validated t).checkTargets.2.errors.rows) ∧
      (inner (m.events.foldl accept c)).errors.isEmpty =
        (m.validated t).checkTargets.2.errors.isEmpty := by
  refine ⟨feed_eq_foldl haccept h.nameError?_eq_none c, ?_⟩
  rw [Validator.inner_foldl hinner, hc, Model.foldl_acceptChecked_events]
  exact ⟨rfl, rfl, fun row => m.mem_rows_checked t, m.isEmpty_checked t⟩

end

/-! ## Reports -/

/-- The report of a named model is made of the validator with all its targets checked. -/
theorem Model.Named.check_eq {m : Model} (h : m.Named) (t : ValidationTables)
    (timestamp : String) :
    Report.check timestamp t m = .ok ((Report.ofModel timestamp m
      (m.validated t).checkTargets.2.errors).withOrder (.ofOrder (m.validated t).order)) := by
  rw [← Validator.order_checkTargets]
  simp only [Report.check, h.parseWith_validator]

/-- A named model has a report, which is valid if no error is left once its targets are checked. -/
theorem Model.Named.exists_report {m : Model} (h : m.Named) (t : ValidationTables)
    (timestamp : String) :
    ∃ report, Report.check timestamp t m = .ok report ∧
      report.valid = (m.validated t).checkTargets.2.errors.isEmpty ∧
      report.order = some (.ofOrder (m.validated t).order) := by
  have hcheck := h.check_eq t timestamp
  generalize (m.validated t).checkTargets.2.errors = errors at *
  exact ⟨_, hcheck, rfl, rfl⟩

/-- A report with the outcome of an ordering is a success if there are no errors and there is an
order. -/
theorem Report.isSuccess_iff {r : Report} {o : Except CycleDetected (List String)}
    (ho : r.order = some (.ofOrder o)) :
    r.isSuccess = true ↔ r.valid = true ∧ ∃ order, o = .ok order := by
  rw [isSuccess, ho]
  cases o <;> simp [OrderOutcome.ofOrder]

/-- What is put in order after the parse of a model are its entities. -/
theorem Model.mem_names_of_order {t : ValidationTables} {m : Model} {order : List String}
    (h : (m.validated t).order = .ok order) : ∀ n ∈ order, n ∈ m.names := by
  intro n hn
  have hmem := mem_placedNames_emissionOrder (m.validated t).graph.nodes
    (m.validated t).graph.edges n
  have hplaced : placedNames (emissionOrder (m.validated t).graph.nodes
      (m.validated t).graph.edges) = order := congrArg placedNames h
  rw [hplaced, nodes_validated] at hmem
  exact (hmem.1 hn).1

/-! ## Main statement -/

/-- The three consumers of a named model agree on it: its normalized model, its graph and what is
wrong with it. So it is reported as valid exactly if either output is, and as a success exactly if
its schema is not refused, which then has the objects in the order reported. -/
theorem outputs_agree_with_validator (t : ValidationTables) (options : SchemaOptions)
    (generatorOptions : GeneratorOptions) {start : Schema.Builder}
    (hstart : Schema.Builder.ofOptions t options = .ok start) {m : Model} (h : m.Named) :
    ∃ v b g, m.parseWith (Validator.ofTables t) = (v, none) ∧ m.parseWith start = (b, none) ∧
      m.parseWith (Generator.Builder.ofOptions t generatorOptions) = (g, none) ∧
      (b.validator.model = v.model ∧ b.validator.graph = v.graph) ∧
      (g.validator.model = v.model ∧ g.validator.graph = v.graph) ∧
      (∀ row, row ∈ (Consumer.errors b).rows ↔ row ∈ v.checkTargets.2.errors.rows) ∧
      (∀ row, row ∈ (Consumer.errors g).rows ↔ row ∈ v.checkTargets.2.errors.rows) ∧
      ∀ timestamp, ∃ report, Report.check timestamp t m = .ok report ∧
        report.valid = Consumer.isValid b ∧ report.valid = Consumer.isValid g ∧
        (∀ source, report.isSuccess = true ↔
          (∀ n, b.render source ≠ .error (.invalidModel n)) ∧
            ∀ c, b.render source ≠ .error (.cycle c)) ∧
        (report.isSuccess = true → ∃ order objects, report.order = some (.ordered order) ∧
          objects.map Schema.Object.name = order ∧
          order.map b.objects.find? = objects.map some ∧
          ∀ source, b.render source = (Template.render Template.schemaFilters source
            (Schema.scope b.idField objects)).mapError .template) := by
  obtain ⟨hvalidator, hobjects⟩ := Schema.Builder.of_ofOptions hstart
  obtain ⟨hb, hbmodel, hbgraph, hbrows, hbvalid⟩ :=
    h.inner_parseWith Schema.Builder.handle_eq_ok Schema.Builder.validator_accept hvalidator
  obtain ⟨hg, hgmodel, hggraph, hgrows, hgvalid⟩ :=
    h.inner_parseWith Generator.Builder.handle_eq_ok Generator.Builder.validator_accept
      (c := .ofOptions t generatorOptions) (t := t) rfl
  obtain ⟨hkeys, hnamed⟩ := Schema.Builder.objects_foldl_events hobjects m
  generalize m.events.foldl Schema.Builder.accept start = b at *
  generalize m.events.foldl Generator.Builder.accept _ = g at *
  have horder : b.validator.order = (m.validated t).order := congrArg DependencyGraph.order hbgraph
  refine ⟨m.validated t, b, g, h.parseWith_validator t, hb, hg, ⟨hbmodel, hbgraph⟩,
    ⟨hgmodel, hggraph⟩, hbrows, hgrows, fun timestamp => ?_⟩
  obtain ⟨report, hcheck, hvalid, hreport⟩ := h.exists_report t timestamp
  have hsuccess := Report.isSuccess_iff hreport
  rw [hvalid, ← hbvalid, ← horder] at hsuccess
  refine ⟨report, hcheck, hvalid.trans hbvalid.symm, hvalid.trans hgvalid.symm,
    fun source => hsuccess.trans (b.not_refused_iff source).symm, fun hs => ?_⟩
  obtain ⟨hempty, order, ho⟩ := hsuccess.1 hs
  rw [← horder, ho] at hreport
  have hnames : ∀ n ∈ order, n ∈ b.objects.keys :=
    hkeys ▸ Model.mem_names_of_order (horder.symm.trans ho)
  obtain ⟨hordered, hfound⟩ := hnamed.objects_of_order hnames
  exact ⟨order, _, hreport, hordered, hfound, Schema.Builder.render_of_order hempty ho⟩

/-- A reference to nothing, found by both outputs. -/
theorem outputs_agree_on_unknown_target :
    let t := ValidationTables.builtIn
    let m := Model.empty.insert "Person"
      (Entity.empty.withReference "boss" (.shorthand (.text "Ghost")))
    let row : ErrorRow := ⟨"Person", .referenceItem, "boss",
      "The reference target 'Ghost' is not a defined object"⟩
    m.Named ∧ ∃ start b g,
      Schema.Builder.ofOptions t { SchemaOptions.builtIn with template := some "" } = .ok start ∧
      m.parseWith start = (b, none) ∧
      m.parseWith (Generator.Builder.ofOptions t .builtIn) = (g, none) ∧
      row ∈ (Consumer.errors b).rows ∧ row ∈ (Consumer.errors g).rows ∧
      ∀ timestamp, ∃ report, Report.check timestamp t m = .ok report ∧
        report.valid = Consumer.isValid b := by
  intro t m row
  have hnamed : m.Named := by decide
  have hstart : Schema.Builder.ofOptions t { SchemaOptions.builtIn with template := some "" } =
      .ok ⟨.ofTables t, "", "graphql", "__id_unique", .empty⟩ := rfl
  obtain ⟨v, b, g, hv, hb, hg, -, -, hbrows, hgrows, hreport⟩ :=
    outputs_agree_with_validator t _ .builtIn hstart hnamed
  have hrow : row ∈ (m.parseWith (Validator.ofTables t)).1.checkTargets.2.errors.rows := by
    decide +kernel
  rw [hv] at hrow
  refine ⟨hnamed, _, b, g, hstart, hb, hg, (hbrows row).2 hrow, (hgrows row).2 hrow,
    fun timestamp => ?_⟩
  obtain ⟨report, hcheck, hvalid, -⟩ := hreport timestamp
  exact ⟨report, hcheck, hvalid⟩

end EntityModel
