import EntityModel.Generator
import EntityModel.Schema.Builder

/-!
# The consumers of the library

One parse may have several consumers at once: validators, schemas and generator files in any number
and any order. `Participant` is any one of them.
-/

namespace EntityModel

/-- A consumer of the library. -/
inductive Participant where
  | validator (v : Validator)
  | schema (b : Schema.Builder)
  | generator (b : Generator.Builder)
  deriving DecidableEq, Inhabited

namespace Participant

instance : Consumer Participant where
  name
    | .validator v => Consumer.name v
    | .schema b => Consumer.name b
    | .generator b => Consumer.name b
  handle p e :=
    match p with
    | .validator v => (Consumer.handle v e).map .validator
    | .schema b => (Consumer.handle b e).map .schema
    | .generator b => (Consumer.handle b e).map .generator
  errors
    | .validator v => Consumer.errors v
    | .schema b => Consumer.errors b
    | .generator b => Consumer.errors b

end Participant

end EntityModel
