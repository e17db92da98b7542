import EntityModel.ErrorRecord
import EntityModel.Parse.Event

/-!
# Dispatching events to consumers

A consumer takes events one by one and records the problems it finds. `dispatch` delivers every
event to all consumers in their order before it goes on to the next one, and stops at the first
event without a name and at the first consumer that fails; `Run.calls` is the trace of what was
delivered. `feed` is the run of a single consumer.
-/

namespace EntityModel

/-- What takes part in a parse. A handler that fails leaves the state as it was. -/
class Consumer (σ : Type) where
  name : σ → String
  handle : σ → Event → Except FatalError σ
  errors : σ → ErrorRecord

namespace Consumer

/-- Whether a consumer has found no problem. -/
def isValid {σ : Type} [Consumer σ] (c : σ) : Bool := (errors c).isEmpty

end Consumer

/-- How a parse went: the consumers as they are then, each call with the place of its consumer, and
what stopped the parse. -/
structure Run (σ : Type) where
  consumers : List σ
  calls : List (Nat × Event)
  failure : Option FatalError

section
variable {σ : Type} [Consumer σ]

/-- Delivers an event to consumers, of which the first has the given place. -/
def deliverFrom (e : Event) : Nat → List σ → Run σ
  | _, [] => ⟨[], [], none⟩
  | i, c :: cs =>
    match Consumer.handle c e with
    | .error f => ⟨c :: cs, [(i, e)], some f⟩
    | .ok c' =>
      let r := deliverFrom e (i + 1) cs
      ⟨c' :: r.consumers, (i, e) :: r.calls, r.failure⟩

/-- Delivers an event to all consumers, unless it is about an element without a name. -/
def deliver (e : Event) (cs : List σ) : Run σ :=
  match e.nameError? with
  | some f => ⟨cs, [], some f⟩
  | none => deliverFrom e 0 cs

/-- Delivers events one after the other until something fails. -/
def dispatch : List Event → List σ → Run σ
  | [], cs => ⟨cs, [], none⟩
  | e :: es, cs =>
    let r := deliver e cs
    match r.failure with
    | some _ => r
    | none =>
      let rest := dispatch es r.consumers
      ⟨rest.consumers, r.calls ++ rest.calls, rest.failure⟩

/-- Delivers events to a single consumer until something fails. -/
def feed : List Event → σ → σ × Option FatalError
  | [], c => (c, none)
  | e :: es, c =>
    match e.nameError? with
    | some f => (c, some f)
    | none =>
      match Consumer.handle c e with
      | .error f => (c, some f)
      | .ok c' => feed es c'

/-- Parses a model with several consumers. -/
def Model.parse (m : Model) (cs : List σ) : Run σ := dispatch m.events cs

/-- Parses a model with a single consumer. -/
def Model.parseWith (m : Model) (c : σ) : σ × Option FatalError := feed m.events c

end

end EntityModel
