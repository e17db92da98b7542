import EntityModel.Proofs.Schema.Identifiers
import EntityModel.Proofs.Schema.RelayNodes
import EntityModel.Proofs.Template.Pieces

/-!
# The text of a Relay schema

What the bundled template is rendered to, piece by piece (`Relay.pieces`): its fixed parts, and
between them what it places for each object and each field. The template cannot fail on the objects
of a schema (`Relay.piecesAll_nodes`), so only an invalid model or a cycle is refused, and the text
is that of the pieces (`relay_text_of_objects`).
-/

namespace EntityModel

namespace Schema

namespace Relay

open Template Template.Piece

/-! ## Pieces -/

/-- The imported names of an object. -/
def importEntry (o : Object) : List Piece :=
  [fixed "  ", placed o.className, fixed ",\n  ", placed o.getterName, fixed ",\n"]

/-- The case that loads an object. -/
def loadingCase (o : Object) : List Piece :=
  [fixed "    if (type === '", placed o.className, fixed "') \x7b\n      return ",
    placed o.getterName, fixed "(id);\n    \x7d\n"]

/-- The case that tells the type of an object. -/
def typingCase (o : Object) : List Piece :=
  [fixed "    if (obj instanceof ", placed o.className, fixed ") \x7b\n      return ",
    placed o.typeName, fixed ";\n    \x7d\n"]

/-- The entry of a field; that of a connection has arguments and a resolver. -/
def fieldEntry (f : Field) : List Piece :=
  [fixed "    ", placed (camelCase f.name), fixed ": \x7b\n      type: ", placed f.graphqlType,
    fixed ",\n      description: '", placed (Naming.escapeLiteral f.description)] ++
  if f.kind = .reference .connection then
    [fixed paging, placed f.name, fixed ".map((id) => ", placed (f.getter.getD ""),
      fixed "(id)),\n        args\n      ),\n    \x7d,\n"]
  else [fixed "',\n    \x7d,\n"]

/-- The definition of the connection of an object, if it has one. -/
def connectionBlock (o : Object) : List Piece :=
  match o.connection with
  | none => []
  | some connection =>
    [fixed "\nconst \x7b connectionType: ", placed connection,
      fixed " \x7d = connectionDefinitions(\x7b\n  name: '", placed o.className,
      fixed "',\n  nodeType: ", placed o.typeName, fixed ",\n\x7d);\n"]

/-- The declaration of the type of an object, with an entry for each field, and behind it the
definition of its connection. -/
def declaration (idField : String) (o : Object) : List Piece :=
  [fixed "\nconst ", placed o.typeName, fixed " = new GraphQLObjectType(\x7b\n  name: '",
    placed o.className, fixed "',\n  description: '", placed (Naming.escapeLiteral o.description),
    fixed "',\n  fields: () => (\x7b\n    id: globalIdField('", placed o.className,
    fixed "', (obj) => obj.", placed idField, fixed "),\n"] ++
  o.fields.flatMap fieldEntry ++
  fixed closing :: connectionBlock o

/-- The pieces of the schema of objects. -/
def pieces (idField : String) (objects : List Object) : List Piece :=
  fixed opening :: objects.flatMap importEntry ++
  fixed loading :: objects.flatMap loadingCase ++
  fixed typing :: objects.flatMap typingCase ++
  fixed declaring :: objects.flatMap (declaration idField) ++ [fixed ending]

/-! ## Rendering -/

section
variable {scope : List (String × Template.Value)}

/-- Only a connection has the name of a connection. -/
theorem name_eq_connection_iff (k : FieldKind) :
    k.name = "connection" ↔ k = .reference .connection := by
  rcases k with _ | _ | _ | _ <;> decide

/-- The entry of a field. -/
theorem piecesAll_fieldEntryNodes (f : Field) :
    piecesAll schemaFilters (("field", f.toValue) :: scope) fieldEntryNodes =
      .ok (fieldEntry f) := by
  have htest : (Expression.equal (.member (.name "field") "kind")
      (.literal (.text "connection"))).eval schemaFilters (("field", f.toValue) :: scope) =
      .ok (.bool (f.kind.name == "connection")) := by
    obtain ⟨-, -, -, -, _ | g⟩ := f <;> rfl
  have hcommon : piecesAll schemaFilters (("field", f.toValue) :: scope) fieldNodes =
      .ok [fixed "    ", placed (camelCase f.name), fixed ": \x7b\n      type: ",
        placed f.graphqlType, fixed ",\n      description: '",
        placed (Naming.escapeLiteral f.description)] := by
    obtain ⟨-, -, -, -, _ | g⟩ := f <;> rfl
  have hpaged : piecesAll schemaFilters (("field", f.toValue) :: scope) pagedNodes =
      .ok [fixed paging, placed f.name, fixed ".map((id) => ", placed (f.getter.getD ""),
        fixed "(id)),\n        args\n      ),\n    \x7d,\n"] := by
    obtain ⟨-, -, -, -, _ | g⟩ := f <;> rfl
  refine piecesAll_singleton ((pieces_condition htest).trans ?_)
  simp only [Value.isTrue, beq_iff_eq, name_eq_connection_iff]
  by_cases hkind : f.kind = .reference .connection
  · rw [if_pos hkind, fieldEntry, if_pos hkind]
    exact piecesAll_append hcommon hpaged
  · rw [if_neg hkind, fieldEntry, if_neg hkind]
    exact piecesAll_append hcommon rfl

/-- The definition of the connection of an object. -/
theorem pieces_connection (o : Object) (h : o.connection ≠ some "") :
    (Node.condition (.member (.name "object") "connection") connectionNodes []).pieces schemaFilters
      (("object", o.toValue) :: scope) = .ok (connectionBlock o) := by
  have htest : (Expression.member (.name "object") "connection").eval schemaFilters
      (("object", o.toValue) :: scope) = .ok (.ofOption o.connection) := rfl
  refine (pieces_condition htest).trans ?_
  obtain ⟨_, _, _, _, _, _, _ | connection⟩ := o
  · rfl
  · have hne : connection ≠ "" := fun hc => h (congrArg some hc)
    rw [if_pos (by simpa [Value.ofOption, Value.isTrue] using hne)]
    rfl

/-- The declaration of the type of an object, and the definition of its connection. -/
theorem piecesAll_declarationNodes {idField : String} {objects : List Object} (o : Object)
    (h : o.connection ≠ some "") :
    piecesAll schemaFilters (("object", o.toValue) :: Schema.scope idField objects)
      declarationNodes = .ok (declaration idField o) := by
  have hfields : (Node.loop "field" (.member (.name "object") "fields") fieldEntryNodes []).pieces
      schemaFilters (("object", o.toValue) :: Schema.scope idField objects) =
      .ok (o.fields.flatMap fieldEntry) :=
    pieces_loop rfl fun f _ => piecesAll_fieldEntryNodes f
  have hrest := piecesAll_cons hfields (piecesAll_cons (n := .text closing) rfl
    (piecesAll_singleton (pieces_connection o h)))
  rw [declaration, List.append_assoc]
  exact piecesAll_append rfl hrest

/-- A loop over all objects. -/
theorem pieces_eachObject {idField : String} {objects : List Object} {body : List Node}
    {ps : Object → List Piece}
    (hbody : ∀ o ∈ objects, piecesAll schemaFilters
      (("object", o.toValue) :: Schema.scope idField objects) body = .ok (ps o)) :
    (eachObject body).pieces schemaFilters (Schema.scope idField objects) =
      .ok (objects.flatMap ps) :=
  pieces_loop rfl hbody

/-- The bundled template cannot fail on objects whose connections have names. -/
theorem piecesAll_nodes (idField : String) {objects : List Object}
    (h : ∀ o ∈ objects, o.connection ≠ some "") :
    piecesAll schemaFilters (Schema.scope idField objects) nodes =
      .ok (pieces idField objects) := by
  have hdeclarations : (eachObject declarationNodes).pieces schemaFilters
      (Schema.scope idField objects) = .ok (objects.flatMap (declaration idField)) :=
    pieces_eachObject fun o ho => piecesAll_declarationNodes o (h o ho)
  have himports : (eachObject importNodes).pieces schemaFilters (Schema.scope idField objects) =
      .ok (objects.flatMap importEntry) := pieces_eachObject fun _ _ => rfl
  have hloading : (eachObject loadingNodes).pieces schemaFilters (Schema.scope idField objects) =
      .ok (objects.flatMap loadingCase) := pieces_eachObject fun _ _ => rfl
  have htyping : (eachObject typingNodes).pieces schemaFilters (Schema.scope idField objects) =
      .ok (objects.flatMap typingCase) := pieces_eachObject fun _ _ => rfl
  have hall := piecesAll_cons (n := .text opening) rfl <| piecesAll_cons himports <|
    piecesAll_cons (n := .text loading) rfl <| piecesAll_cons hloading <|
    piecesAll_cons (n := .text typing) rfl <| piecesAll_cons htyping <|
    piecesAll_cons (n := .text declaring) rfl <| piecesAll_cons hdeclarations <|
    piecesAll_singleton (n := .text ending) rfl
  rw [nodes, hall]
  simp [pieces]

end

end Relay

/-! ## Fields of connections -/

/-- The field of an event has a getter exactly if it is a connection. -/
theorem Field.isSome_getter_iff {t : ValidationTables} {ns : String}
    {known : Option NormalizedReference} {ev : Event} {f : Field}
    (h : ev.field? t ns known = some f) :
    f.getter.isSome = true ↔ f.kind = .reference .connection := by
  cases ev with
  | declareAttribute entity name c =>
    cases h
    simp [Field.ofAttribute]
  | declareReference entity name c =>
    obtain ⟨r, -, rfl⟩ := Option.map_eq_some_iff.1 h
    cases r.cardinality ns <;> simp [Field.ofReference]
  | _ => cases h

namespace Builder

/-- In the objects of a builder, exactly the fields of connections have getters. -/
def GettersSet (b : Builder) : Prop :=
  ∀ n o, b.objects.find? n = some o → ∀ f ∈ o.fields,
    (f.getter.isSome = true ↔ f.kind = .reference .connection)

/-- A fresh builder has no fields. -/
theorem GettersSet.of_ofOptions {t : ValidationTables} {options : SchemaOptions} {b : Builder}
    (h : ofOptions t options = .ok b) : b.GettersSet := by
  intro n o ho
  rw [(Builder.of_ofOptions h).2] at ho
  cases ho

/-- An event adds fields that have getters exactly if they are connections. -/
theorem GettersSet.accept {b : Builder} (h : b.GettersSet) (ev : Event) :
    (b.accept ev).GettersSet := by
  intro n o ho f hf
  by_cases hn : n ∈ ev.declares
  · cases ev with
    | declareEntity name e =>
      obtain rfl := List.mem_singleton.1 hn
      rw [find?_accept_declared] at ho
      cases ho
      cases hf
    | _ => cases hn
  · rw [b.find?_accept hn] at ho
    obtain ⟨o', ho', rfl⟩ := Option.map_eq_some_iff.1 ho
    rcases List.mem_append.1 hf with hold | hnew
    · exact h n o' ho' f hold
    · split at hnew
      · exact Field.isSome_getter_iff (Option.mem_toList.1 hnew)
      · cases hnew

/-- Events add fields that have getters exactly if they are connections. -/
theorem GettersSet.foldl {b : Builder} (h : b.GettersSet) (evs : List Event) :
    (evs.foldl Builder.accept b).GettersSet := by
  induction evs generalizing b with
  | nil => exact h
  | cons ev evs ih => exact ih (h.accept ev)

/-! ## Schemas of models -/

/-- The objects are refused for an invalid model or a cycle. -/
theorem refused_of_orderedObjects {b : Builder} {e : RenderError}
    (h : b.orderedObjects = .error e) : (∃ n, e = .invalidModel n) ∨ ∃ c, e = .cycle c := by
  unfold orderedObjects at h
  split at h
  · cases h
    exact .inl ⟨_, rfl⟩
  · split at h
    · cases h
      exact .inr ⟨_, rfl⟩
    · cases h

/-- A schema that is refused is not rendered. -/
theorem render_of_refused {b : Builder} {e : RenderError} (h : b.orderedObjects = .error e)
    (source : String) : b.render source = .error e := by
  simp only [render, h]

/-- A schema that is not refused is the text of its template. -/
theorem render_of_text {b : Builder} {objects : List Object} (h : b.orderedObjects = .ok objects)
    {source text : String} (htext : Template.render Template.schemaFilters source
      (scope b.idField objects) = .ok text) : b.render source = .ok text := by
  simp only [render, h, htext]

section
variable {t : ValidationTables} {options : SchemaOptions} {start : Builder}
  (hstart : ofOptions t options = .ok start) (m : Model)

include hstart

/-- The attribute of the unique id is that of the options. -/
theorem idField_parseWith : (m.parseWith start).1.idField = options.idField := by
  rw [parseWith_fst, foldl_eq]
  unfold ofOptions at hstart
  split at hstart
  · cases hstart
  · cases hstart
    rfl

/-- After the parse of a model, the bundled template is rendered to the pieces of the objects,
unless the schema is refused. -/
theorem render_relayTemplate : (m.parseWith start).1.render relayTemplate =
    (m.parseWith start).1.orderedObjects.map fun objects =>
      Template.Piece.join (Relay.pieces options.idField objects) := by
  cases hobjects : (m.parseWith start).1.orderedObjects with
  | error e => exact render_of_refused hobjects relayTemplate
  | ok objects =>
    have hconnection : ∀ o ∈ objects, o.connection ≠ some "" := by
      intro o ho hempty
      have hname := (((objects_of_parse hstart m hobjects).2 o ho).2 "").1 hempty
      have hlast := Naming.getLast?_connectionName o.name
      simp [hname.2] at hlast
    refine render_of_text hobjects ?_
    rw [idField_parseWith hstart, Template.render_eq_pieces _ _ Relay.read?_relayTemplate,
      Relay.piecesAll_nodes _ hconnection]
    rfl

end

end Builder

end Schema

/-! ## Main statement -/

/-- After the parse of a model, also a stopped one, the bundled template fails only for an invalid
model or a cycle. What it is rendered to is put together from its fixed parts and what it places for
the objects, which are all there, each once and in emission order; and exactly the fields that are
connections have a getter. -/
theorem relay_text_of_objects {t : ValidationTables} {options : SchemaOptions}
    {start : Schema.Builder} (hstart : Schema.Builder.ofOptions t options = .ok start) (m : Model) :
    let b := (m.parseWith start).1
    (∀ e, b.render Schema.relayTemplate = .error e →
      (∃ n, e = .invalidModel n) ∨ ∃ c, e = .cycle c) ∧
    ∀ text, b.render Schema.relayTemplate = .ok text →
      ∃ objects order, b.orderedObjects = .ok objects ∧ b.validator.order = .ok order ∧
        order.map b.objects.find? = objects.map some ∧ objects.Perm b.objects.values ∧
        objects.Nodup ∧
        (∀ o ∈ objects, ∀ f ∈ o.fields,
          (f.getter.isSome = true ↔ f.kind = .reference .connection)) ∧
        text = Template.Piece.join (Schema.Relay.pieces options.idField objects) := by
  intro b
  have hrender : b.render Schema.relayTemplate = b.orderedObjects.map _ :=
    Schema.Builder.render_relayTemplate hstart m
  have hevents : b = m.delivered.foldl Schema.Builder.accept start := start.parseWith_fst m
  have hcovered : b.Covered := hevents ▸
    (Schema.Builder.Covered.of_ofOptions hstart).foldl_accept m.delivered
  have hgetters : b.GettersSet := hevents ▸
    (Schema.Builder.GettersSet.of_ofOptions hstart).foldl m.delivered
  cases hobjects : b.orderedObjects with
  | error refusal =>
    rw [hobjects] at hrender
    constructor
    · intro e he
      cases hrender.symm.trans he
      exact Schema.Builder.refused_of_orderedObjects hobjects
    · intro text htext
      cases hrender.symm.trans htext
  | ok objects =>
    rw [hobjects] at hrender
    constructor
    · intro e he
      cases hrender.symm.trans he
    · intro text htext
      cases hrender.symm.trans htext
      obtain ⟨order, horder, hfound, hperm, hnodup⟩ := hcovered.objects_in_order hobjects
      refine ⟨objects, order, rfl, horder, hfound, hperm, hnodup, fun o ho => ?_, rfl⟩
      obtain ⟨n, hn⟩ := (hcovered.mem_orderedObjects hobjects).1 ho
      exact hgetters n o hn

/-- A role that pages through accounts: the text has the account before the role. -/
theorem relay_text_of_role :
    let key := AttributeDecl.full (AttributeConfig.empty.withFlag "in_key_hash" (.bool true))
    let keyed := Entity.empty.withAttribute "key" key
    let paged : Annotation := .ofParts none (some .connection)
    let accounts :=
      ReferenceConfig.withAnnotation (.ofTarget (.text "account")) "graphql" paged
    let m := (Model.empty.insert "user_role" (keyed.withReference "all_accounts"
      (.full accounts))).insert "account" keyed
    let start : Schema.Builder := ⟨.ofTables .builtIn, "", "graphql", "__id_unique", .empty⟩
    Schema.Builder.ofOptions .builtIn { SchemaOptions.builtIn with template := some "" } =
        .ok start ∧
      ∃ objects, (m.parseWith start).1.render Schema.relayTemplate =
          .ok (Template.Piece.join (Schema.Relay.pieces "__id_unique" objects)) ∧
        objects.map Schema.Object.name = ["account", "user_role"] := by
  intro key keyed paged accounts m start
  have hstart : Schema.Builder.ofOptions .builtIn
      { SchemaOptions.builtIn with template := some "" } = .ok start := rfl
  have hvalid : (m.parseWith start).1.validator.isValid = true := by decide +kernel
  have horder : (m.parseWith start).1.validator.order = .ok ["account", "user_role"] := by
    decide +kernel
  have hnames : ((m.parseWith start).1.orderedObjects.toOption.map
      (List.map Schema.Object.name)) = some ["account", "user_role"] := by
    decide +kernel
  obtain ⟨hmodel, hcycle⟩ := (Schema.Builder.not_refused_iff Schema.relayTemplate).2
    ⟨hvalid, _, horder⟩
  obtain ⟨hrefused, htext⟩ := relay_text_of_objects hstart m
  cases hrender : (m.parseWith start).1.render Schema.relayTemplate with
  | error e =>
    rcases hrefused e hrender with ⟨n, rfl⟩ | ⟨c, rfl⟩
    · exact absurd hrender (hmodel n)
    · exact absurd hrender (hcycle c)
  | ok text =>
    obtain ⟨objects, -, hobjects, -, -, -, -, -, rfl⟩ := htext text hrender
    rw [hobjects] at hnames
    exact ⟨hstart, objects, rfl, Option.some.inj hnames⟩

end EntityModel
