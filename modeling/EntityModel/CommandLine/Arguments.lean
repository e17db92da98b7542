import EntityModel.Number.Basic

/-!
# Arguments

The arguments of the program are options, the name of a command, and the options and operands of the
command. An option is given by its name behind two dashes or by its letter behind one; letters of
options without a value may be written together. After two dashes alone all arguments are operands.
-/

namespace EntityModel.CommandLine

/-- What an option takes. -/
inductive OptionKind where
  | flag
  | path
  | count
  deriving DecidableEq, Repr

/-- An option. -/
structure OptionSpec where
  name : String
  letter : Option Char
  kind : OptionKind

/-- Why no command results from arguments: help was asked for, or the arguments are wrong. -/
inductive Refusal where
  | help
  | version
  | invalid
  deriving DecidableEq, Repr

/-- The options and operands that were given. -/
structure Given where
  options : List (String × String)
  operands : List String

/-- The count that a text stands for: a natural number of 32 bits, possibly with a sign. -/
def count? (s : String) : Option Nat :=
  let digits? (cs : List Char) : Option Nat :=
    if cs.isEmpty || !cs.all Char.isDigit then none
    else some (cs.foldl (fun n c => 10 * n + (c.toNat - 48)) 0)
  let bounded? (n : Nat) : Option Nat := if n < UInt32.size then some n else none
  match s.toList with
  | '+' :: cs => (digits? cs).bind bounded?
  | '-' :: cs => (digits? cs).bind fun n => if n = 0 then some 0 else none
  | cs => (digits? cs).bind bounded?

/-- Whether an option can have a value. -/
def OptionKind.admits : OptionKind → String → Bool
  | .flag, _ => false
  | .path, value => value != ""
  | .count, value => (count? value).isSome

/-- The scanner of arguments: the option whose value comes next, whether only operands follow, and
what was given so far. -/
structure Scan where
  pending : Option OptionSpec
  operandsOnly : Bool
  given : Given

namespace Scan

/-- The scanner in front of all arguments. -/
def start : Scan := ⟨none, false, ⟨[], []⟩⟩

/-- Notes an option, which may not be given twice. -/
def note (s : Scan) (name value : String) : Except Refusal Scan :=
  if name = "help" then .error .help
  else if name = "version" then .error .version
  else if s.given.options.any fun o => o.1 == name then .error .invalid
  else .ok { s with
    pending := none
    given := { s.given with options := s.given.options ++ [(name, value)] } }

/-- Notes an option with a value. -/
def noteValue (s : Scan) (o : OptionSpec) (value : String) : Except Refusal Scan :=
  if o.kind.admits value then s.note o.name value else .error .invalid

/-- Notes an operand, which may not be empty. -/
def noteOperand (s : Scan) (value : String) : Except Refusal Scan :=
  if value = "" then .error .invalid
  else .ok { s with given := { s.given with operands := s.given.operands ++ [value] } }

/-- Scans letters behind one dash; what follows the letter of an option with a value is the value.
-/
def letters (options : List OptionSpec) (s : Scan) : List Char → Except Refusal Scan
  | [] => .ok s
  | c :: rest =>
    match options.find? fun o => o.letter == some c with
    | none => .error .invalid
    | some o =>
      if o.kind = .flag then
        match s.note o.name "" with
        | .error e => .error e
        | .ok s => letters options s rest
      else
        match rest with
        | [] => .ok { s with pending := some o }
        | '=' :: value => s.noteValue o (String.ofList value)
        | value => s.noteValue o (String.ofList value)

/-- Scans a name behind two dashes, and possibly a value behind an equality sign. -/
def long (options : List OptionSpec) (s : Scan) (cs : List Char) : Except Refusal Scan :=
  let name := String.ofList (cs.takeWhile (· ≠ '='))
  match options.find? fun o => o.name == name, cs.dropWhile (· ≠ '=') with
  | none, _ => .error .invalid
  | some o, [] => if o.kind = .flag then s.note o.name "" else .ok { s with pending := some o }
  | some o, _ :: value => s.noteValue o (String.ofList value)

/-- Scans an argument. -/
def step (options : List OptionSpec) (s : Scan) (argument : String) : Except Refusal Scan :=
  if s.operandsOnly then s.noteOperand argument
  else
    match argument.toList, s.pending with
    | '-' :: _ :: _, some _ => .error .invalid
    | ['-', '-'], none => .ok { s with operandsOnly := true }
    | '-' :: '-' :: cs, none => s.long options cs
    | '-' :: c :: cs, none => s.letters options (c :: cs)
    | _, some o => s.noteValue o argument
    | _, none => s.noteOperand argument

/-- Scans all arguments. -/
def all (options : List OptionSpec) (arguments : List String) : Except Refusal Given := do
  let s ← arguments.foldlM (step options) start
  if s.pending.isSome then .error .invalid else .ok s.given

/-- Scans arguments up to the first operand, which has to be the name of a command. -/
def untilCommand (options : List OptionSpec) (s : Scan) :
    List String → Except Refusal (Given × String × List String)
  | [] => .error .invalid
  | argument :: rest => do
    let s ← s.step options argument
    match s.given.operands with
    | [] => untilCommand options s rest
    | name :: _ => if s.operandsOnly then .error .invalid else .ok (s.given, name, rest)

end Scan

namespace Given

/-- The value of an option. -/
def option? (g : Given) (name : String) : Option String := g.options.lookup name

/-- Whether an option was given. -/
def has (g : Given) (name : String) : Bool := (g.option? name).isSome

end Given

end EntityModel.CommandLine
