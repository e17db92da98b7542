import EntityModel.Config.Document
import EntityModel.Proofs.Model.Grammar

/-!
# The grammar of configurations

What reading each part of a configuration comes down to, field by field (`ofDocument?_eq_some`). A
table that is given is the one that counts: it has the names that are given, in their order, and no
built-in one; a built-in table only stands in for one that is missing
(`ValidationTables.suppliedBy_of_ofDocument?`).
-/

namespace EntityModel

namespace Document

/-- A map that may be missing, which a built-in one stands in for only then. -/
inductive MapOr {α : Type} (builtIn : OrderedMap String α) (R : Document → α → Prop) :
    Option Document → OrderedMap String α → Prop
  | missing : MapOr builtIn R none builtIn
  | given {members : List (String × Document)} {m : OrderedMap String α} : MapOf R members m →
    MapOr builtIn R (some (.table members)) m

section
variable {α : Type} {read : Document → Option α} {o : Option Document}

/-- What holds of the default and of whatever is read holds of a field. -/
theorem of_withDefault? {P : α → Prop} {default a : α} (h : withDefault? default read o = some a)
    (hdefault : P default) (hread : ∀ d a, read d = some a → P a) : P a := by
  cases o with
  | none => exact Option.some.inj h ▸ hdefault
  | some d => exact hread d a h

variable {default m : OrderedMap String α}

theorem mapOr_of_withDefault? (h : withDefault? default (asMapOf? read) o = some m) :
    MapOr default (fun d a => read d = some a) o m := by
  cases o with
  | none =>
    obtain rfl := Option.some.inj h
    exact .missing
  | some d =>
    cases d with
    | table members => exact .given (mapOf_of_asMapOf? h fun _ _ => id)
    | _ => cases h

/-- What holds of the values of the default and of whatever is read holds of the values of a map. -/
theorem forall_values_of_withDefault? {P : α → Prop}
    (h : withDefault? default (asMapOf? read) o = some m) (hdefault : ∀ a ∈ default.values, P a)
    (hread : ∀ d a, read d = some a → P a) : ∀ a ∈ m.values, P a := by
  refine of_withDefault? (P := fun m => ∀ a ∈ m.values, P a) h hdefault fun d m hm a ha => ?_
  obtain ⟨e, he, rfl⟩ := List.mem_map.1 ha
  obtain ⟨d', -, hd'⟩ := exists_of_mem_asMapOf? hm he
  exact hread d' e.2 hd'

end

end Document

variable {n : Notation} {d : Document}

namespace FlagDefault

/-- The fields of what is known about a flag. -/
def fields : List String := ["kind", "value", "description"]

theorem ofDocument?_eq_some {f : FlagDefault} :
    ofDocument? n d = some f ↔ d.IsRecordIn n.allowsSurplus fields ∧
      Document.required? (FlagKind.ofDocument? n) (d.field? fields "kind") = some f.kind ∧
      Document.required? Document.toValue? (d.field? fields "value") = some f.value ∧
      Document.withDefault? "" Document.asText? (d.field? fields "description") =
        some f.description := by
  refine (Document.bind_fields?_eq_some (show fields.Nodup by decide)).trans
    (and_congr_right fun _ => ?_)
  simp only [fields, List.map_cons, List.map_nil, Option.bind_eq_bind, Option.bind_eq_some_iff,
    Option.pure_def, Option.some.injEq]
  constructor
  · rintro ⟨_, hkind, _, hvalue, _, hdescription, rfl⟩
    exact ⟨hkind, hvalue, hdescription⟩
  · rintro ⟨hkind, hvalue, hdescription⟩
    exact ⟨_, hkind, _, hvalue, _, hdescription, rfl⟩

end FlagDefault

namespace ValidationTables

/-- The fields of the tables of validation. -/
def fields : List String := ["types", "flags", "default_attributes"]

theorem ofDocument?_eq_some {t : ValidationTables} :
    ofDocument? n d = some t ↔ d.IsRecordIn n.allowsSurplus fields ∧
      Document.withDefault? builtInTypes (Document.asMapOf? Document.asText?)
        (d.field? fields "types") = some t.types ∧
      Document.withDefault? builtInFlags (Document.asMapOf? (FlagDefault.ofDocument? n))
        (d.field? fields "flags") = some t.flags ∧
      Document.withDefault? builtInAttributes (Document.asMapOf? AttributeConfig.ofDocument?)
        (d.field? fields "default_attributes") = some t.attributes := by
  refine (Document.bind_fields?_eq_some (show fields.Nodup by decide)).trans
    (and_congr_right fun _ => ?_)
  simp only [fields, List.map_cons, List.map_nil, Option.bind_eq_bind, Option.bind_eq_some_iff,
    Option.pure_def, Option.some.injEq]
  constructor
  · rintro ⟨_, htypes, _, hflags, _, hattributes, rfl⟩
    exact ⟨htypes, hflags, hattributes⟩
  · rintro ⟨htypes, hflags, hattributes⟩
    exact ⟨_, htypes, _, hflags, _, hattributes, rfl⟩

/-- The tables are those that a document gives, and the built-in ones where it gives none. -/
structure SuppliedBy (n : Notation) (d : Document) (t : ValidationTables) : Prop where
  types : Document.MapOr builtInTypes (fun e s => e.asText? = some s) (d.field? fields "types")
    t.types
  flags : Document.MapOr builtInFlags (fun e f => FlagDefault.ofDocument? n e = some f)
    (d.field? fields "flags") t.flags
  attributes : Document.MapOr builtInAttributes (fun e c => AttributeConfig.ofDocument? e = some c)
    (d.field? fields "default_attributes") t.attributes

theorem suppliedBy_of_ofDocument? {t : ValidationTables} (h : ofDocument? n d = some t) :
    SuppliedBy n d t :=
  have ⟨_, htypes, hflags, hattributes⟩ := ofDocument?_eq_some.1 h
  ⟨Document.mapOr_of_withDefault? htypes, Document.mapOr_of_withDefault? hflags,
    Document.mapOr_of_withDefault? hattributes⟩

end ValidationTables

namespace SchemaOptions

/-- The fields of the options of the GraphQL schema. -/
def fields : List String := ["template", "annotation", "id_field"]

theorem ofDocument?_eq_some {o : SchemaOptions} :
    ofDocument? n d = some o ↔ d.IsRecordIn n.allowsSurplus fields ∧
      Document.optional? Document.asText? (d.field? fields "template") = some o.template ∧
      Document.withDefault? builtIn.ns Document.asText? (d.field? fields "annotation") =
        some o.ns ∧
      Document.withDefault? builtIn.idField Document.asText? (d.field? fields "id_field") =
        some o.idField := by
  refine (Document.bind_fields?_eq_some (show fields.Nodup by decide)).trans
    (and_congr_right fun _ => ?_)
  simp only [fields, List.map_cons, List.map_nil, Option.bind_eq_bind, Option.bind_eq_some_iff,
    Option.pure_def, Option.some.injEq]
  constructor
  · rintro ⟨_, htemplate, _, hns, _, hidField, rfl⟩
    exact ⟨htemplate, hns, hidField⟩
  · rintro ⟨htemplate, hns, hidField⟩
    exact ⟨_, htemplate, _, hns, _, hidField, rfl⟩

end SchemaOptions

namespace GeneratorOptions

/-- The fields of the options of the test data generator. -/
def fields : List String := ["annotation", "iterations"]

theorem ofDocument?_eq_some {o : GeneratorOptions} :
    ofDocument? n d = some o ↔ d.IsRecordIn n.allowsSurplus fields ∧
      Document.withDefault? builtIn.ns Document.asText? (d.field? fields "annotation") =
        some o.ns ∧
      Document.withDefault? builtIn.iterations (Document.asNatBelow? iterationBound)
        (d.field? fields "iterations") = some o.iterations := by
  refine (Document.bind_fields?_eq_some (show fields.Nodup by decide)).trans
    (and_congr_right fun _ => ?_)
  simp only [fields, List.map_cons, List.map_nil, Option.bind_eq_bind, Option.bind_eq_some_iff,
    Option.pure_def, Option.some.injEq]
  constructor
  · rintro ⟨_, hns, _, hiterations, rfl⟩
    exact ⟨hns, hiterations⟩
  · rintro ⟨hns, hiterations⟩
    exact ⟨_, hns, _, hiterations, rfl⟩

end GeneratorOptions

namespace Config

/-- The fields of a configuration. -/
def fields : List String := ["validation", "graphql", "tdg"]

theorem ofDocument?_eq_some {c : Config} :
    ofDocument? n d = some c ↔ d.IsRecordIn n.allowsSurplus fields ∧
      Document.withDefault? .builtIn (ValidationTables.ofDocument? n)
        (d.field? fields "validation") = some c.validation ∧
      Document.withDefault? .builtIn (SchemaOptions.ofDocument? n)
        (d.field? fields "graphql") = some c.graphql ∧
      Document.withDefault? .builtIn (GeneratorOptions.ofDocument? n)
        (d.field? fields "tdg") = some c.generator := by
  refine (Document.bind_fields?_eq_some (show fields.Nodup by decide)).trans
    (and_congr_right fun _ => ?_)
  simp only [fields, List.map_cons, List.map_nil, Option.bind_eq_bind, Option.bind_eq_some_iff,
    Option.pure_def, Option.some.injEq]
  constructor
  · rintro ⟨_, hvalidation, _, hgraphql, _, hgenerator, rfl⟩
    exact ⟨hvalidation, hgraphql, hgenerator⟩
  · rintro ⟨hvalidation, hgraphql, hgenerator⟩
    exact ⟨_, hvalidation, _, hgraphql, _, hgenerator, rfl⟩

end Config

end EntityModel
