import EntityModel.CommandLine.Arguments

/-!
# Commands

What the program can be asked for, and how arguments ask for it.
-/

namespace EntityModel.CommandLine

/-- A command. -/
inductive Command where
  | check (model : String) (report : Option String)
  | order (model : String) (json : Bool)
  | graphql (model : String) (template : Option String) (output : String)
  | generator (model output : String) (iterations : Option Nat)
  | initConfig (path : String)
  deriving DecidableEq, Repr

/-- A command with the configuration file it is to use, and whether it tells what it does. -/
structure Invocation where
  config : Option String
  verbose : Bool
  command : Command
  deriving DecidableEq, Repr

/-- The configuration file that is used where no other one is given. -/
def defaultConfigPath : String := "metamodel.toml"

/-- The options that stand before and behind the name of a command. -/
def globalOptions : List OptionSpec :=
  [⟨"config", some 'c', .path⟩, ⟨"verbose", some 'v', .flag⟩, ⟨"help", some 'h', .flag⟩]

/-- The options in front of the name of a command. -/
def rootOptions : List OptionSpec := globalOptions ++ [⟨"version", some 'V', .flag⟩]

/-- The options of each command. -/
def commandOptions : List (String × List OptionSpec) :=
  [("check", [⟨"report", some 'r', .path⟩]),
   ("order", [⟨"json", none, .flag⟩]),
   ("graphql", [⟨"template", some 't', .path⟩, ⟨"output", some 'o', .path⟩]),
   ("tdg", [⟨"output", some 'o', .path⟩, ⟨"iterations", some 'n', .count⟩]),
   ("init-config", [])]

/-- The command that a name stands for with what was given behind it. -/
def command? (name : String) (g : Given) : Option Command :=
  match name, g.operands with
  | "check", [model] => some (.check model (g.option? "report"))
  | "order", [model] => some (.order model (g.has "json"))
  | "graphql", [model] => (g.option? "output").map (.graphql model (g.option? "template"))
  | "tdg", [model] =>
    (g.option? "output").map fun output =>
      .generator model output ((g.option? "iterations").bind count?)
  | "init-config", [] => some (.initConfig defaultConfigPath)
  | "init-config", [path] => some (.initConfig path)
  | _, _ => none

/-- What the command for help says about the names behind it. -/
def helpFor : List String → Refusal
  | [] => .help
  | [name] => if name = "help" ∨ (commandOptions.lookup name).isSome then .help else .invalid
  | _ => .invalid

/-- The invocation that arguments stand for. What a command is given twice, in front of its name and
behind it, counts behind. -/
def Invocation.ofArguments (arguments : List String) : Except Refusal Invocation := do
  let (root, name, rest) ← Scan.start.untilCommand rootOptions arguments
  if name = "help" then .error (helpFor rest)
  else
    match commandOptions.lookup name with
    | none => .error .invalid
    | some options =>
      let given ← Scan.all (globalOptions ++ options) rest
      match command? name given with
      | none => .error .invalid
      | some command =>
        return {
          config := (given.option? "config").or (root.option? "config")
          verbose := root.has "verbose" || given.has "verbose"
          command }

/-- How the program is used. -/
def usage : String :=
  "Usage: metamodel [OPTIONS] <COMMAND>\n\n" ++
  "Commands:\n" ++
  "  check MODEL [-r FILE]              Validate a model and compute its emission order\n" ++
  "  order MODEL [--json]               Print the emission order of a model\n" ++
  "  graphql MODEL [-t FILE] -o FILE    Generate a GraphQL/Relay schema\n" ++
  "  tdg MODEL -o FILE [-n COUNT]       Generate the test data generator import config\n" ++
  "  init-config [FILE]                 Write a default config file and the bundled template\n\n" ++
  "Options:\n" ++
  "  -c, --config FILE    Config file (default: $METAMODEL_CONFIG or metamodel.toml)\n" ++
  "  -v, --verbose        Enable verbose output\n" ++
  "  -h, --help           Print help\n" ++
  "  -V, --version        Print version"

/-- The version of the program. -/
def version : String := "metamodel 0.1.0"

end EntityModel.CommandLine
