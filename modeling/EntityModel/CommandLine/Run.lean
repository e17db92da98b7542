import EntityModel.CommandLine.Command
import EntityModel.CommandLine.Environment
import EntityModel.CommandLine.Machine
import EntityModel.CommandLine.Summary
import EntityModel.Config.Document
import EntityModel.Generator
import EntityModel.Schema.Render

/-!
# Running commands

Each command reads the configuration and the model before it does anything else, and what stops it
is a `CommandError`. `run` is the whole program in any `Machine`: its result is the exit status.
-/

namespace EntityModel.CommandLine

/-- Why a command stopped. -/
inductive CommandError where
  | configUnreadable (e : FileError)
  | configMalformed
  | configUnwritable
  | configPresent (path : String)
  | modelUnreadable (path : String) (e : FileError)
  | modelMalformed
  | fatal (f : FatalError)
  | template (e : Template.Error)
  | output (path : String) (e : FileError)
  | file (e : FileError)
  | reported
  deriving DecidableEq, Repr

/-- The lines that are printed about an error: none where it was reported before. -/
def CommandError.lines : CommandError → List String
  | .configUnreadable e => ["Error: IO error: " ++ e.message]
  | .configMalformed => ["Error: Parse error: the text is not a configuration"]
  | .configUnwritable => ["Error: Serialize error: the configuration cannot be written"]
  | .configPresent path => ["Error: Config file already exists at " ++ path]
  | .modelUnreadable path e => ["Error: Failed to read model file " ++ path ++ ": " ++ e.message]
  | .modelMalformed => ["Error: Failed to parse model: the text is not a model"]
  | .fatal f => ["Error: " ++ f.message]
  | .template e => ["Error: Template error: " ++ e.message]
  | .output path e =>
    ["Error: IO error on " ++ path ++ ": " ++ e.message, "", "Caused by:", "    " ++ e.message]
  | .file e => ["Error: " ++ e.message]
  | .reported => []

section
variable {m : Type → Type} [Monad m] [Machine m]

/-- Does something with files, of which failing stops the command. -/
def attempt {α : Type} (cause : FileError → CommandError) (x : m (Except FileError α)) :
    ExceptT CommandError m α :=
  ExceptT.mk do return (← x).mapError cause

/-- Stops the command if there is an error. -/
def stopAt {ε α : Type} (cause : ε → CommandError) : Except ε α → ExceptT CommandError m α
  | .ok x => pure x
  | .error e => throw (cause e)

/-- Prints lines. -/
def printAll (lines : List String) : ExceptT CommandError m Unit :=
  lines.forM fun line => (Machine.print line : m Unit)

/-- Prints a line to the second stream. -/
def warn (line : String) : ExceptT CommandError m Unit := (Machine.warn line : m Unit)

/-- Prints what is done, if that is asked for. -/
def tell (verbose : Bool) (line : String) : ExceptT CommandError m Unit :=
  if verbose then warn line else pure ()

/-! ## Reading -/

/-- A template path of a configuration file is seen from the directory of the file. -/
def resolveTemplate (path : String) (c : Config) : Config :=
  match Path.parent? path with
  | none => c
  | some directory =>
    { c with graphql := { c.graphql with
        template := c.graphql.template.map (Path.join directory) } }

/-- The configuration file to use: the one given, the one of the environment, or the default one if
there is one. -/
def configPath? (given environment : Option String) : ExceptT CommandError m (Option String) := do
  match given, environment.filter (· ≠ "") with
  | some path, _ => return some path
  | none, some path => return some path
  | none, none =>
    return if ← (Machine.isPresent defaultConfigPath : m Bool) then some defaultConfigPath else none

/-- The configuration to use. -/
def loadConfig (environment : Option String) (i : Invocation) : ExceptT CommandError m Config := do
  match ← configPath? i.config environment with
  | none => do
    tell i.verbose "No config file found, using defaults"
    return .builtIn
  | some path => do
    tell i.verbose ("Using config: " ++ path)
    let text ← attempt .configUnreadable (Machine.readText path : m _)
    match Config.ofToml? text with
    | none => throw .configMalformed
    | some c => return resolveTemplate path c

/-- The model of a file. -/
def loadModel (path : String) (verbose : Bool) : ExceptT CommandError m Model := do
  tell verbose ("Loading model from: " ++ path)
  let text ← attempt (.modelUnreadable path) (Machine.readText path : m _)
  match Model.read? text with
  | none => throw .modelMalformed
  | some model => return model

/-- Parses a model with a consumer. -/
def parsed {σ : Type} [Consumer σ] (model : Model) (c : σ) : ExceptT CommandError m σ :=
  match model.parseWith c with
  | (c, none) => pure c
  | (_, some f) => throw (.fatal f)

/-! ## Writing -/

/-- Makes the directory that a file is to be written to. -/
def makeParent (cause : String → FileError → CommandError) (path : String) :
    ExceptT CommandError m Unit :=
  match Path.parent? path with
  | none => pure ()
  | some directory =>
    if directory = "" then pure ()
    else attempt (cause directory) (Machine.makeDirectories directory : m _)

/-- Writes an output and says so. -/
def writeOutput (path text : String) : ExceptT CommandError m Unit := do
  makeParent .output path
  attempt (.output path) (Machine.writeText path text : m _)
  printAll ["✓ Written: " ++ path]

/-- Reports that nothing is written for a model that is not valid. -/
def refuseInvalid {α : Type} (errors : ErrorRecord) : ExceptT CommandError m α := do
  printAll (("✗ " ++ toString errors.size ++ " validation errors") :: errorLines errors)
  throw .reported

/-- Reports that the entities could not be ordered. -/
def refuseCycle {α : Type} (c : CycleDetected) : ExceptT CommandError m α := do
  printAll (cycleLines c)
  throw .reported

/-! ## The commands -/

/-- Checks a model, and writes a report if one is asked for. -/
def check (config : Config) (verbose : Bool) (path : String) (report : Option String) :
    ExceptT CommandError m Unit := do
  let model ← loadModel path verbose
  let r ← stopAt .fatal (Report.check (← (Machine.now : m String)) config.validation model)
  printAll (summaryLines r)
  match report with
  | none => pure ()
  | some path => do
    makeParent (fun _ => .file) path
    attempt .file (Machine.writeText path r.toJson : m _)
    warn ("Report saved to: " ++ path)
  if r.isSuccess then pure () else throw .reported

/-- Prints the emission order of a model. -/
def order (config : Config) (path : String) (json : Bool) : ExceptT CommandError m Unit := do
  let v ← parsed (← loadModel path false) (Validator.ofTables config.validation)
  if v.isValid then pure ()
  else warn ("Warning: the model has " ++ toString v.errors.size ++ " validation errors")
  match v.order with
  | .error c => refuseCycle c
  | .ok names => printAll (if json then [Json.pretty (Document.texts names)] else numbered names)

/-- Writes the schema of a model. -/
def graphql (config : Config) (verbose : Bool) (path : String) (template : Option String)
    (output : String) : ExceptT CommandError m Unit := do
  let model ← loadModel path verbose
  let options := { config.graphql with template := template.or config.graphql.template }
  let b ← stopAt .fatal (Schema.Builder.ofOptions config.validation options)
  tell verbose ("Using template: " ++ b.template)
  let b ← parsed model b
  let source ← attempt (.output b.template) (Machine.readText b.template : m _)
  match b.render source with
  | .ok text => writeOutput output text
  | .error (.invalidModel _) => refuseInvalid b.validator.errors
  | .error (.cycle c) => refuseCycle c
  | .error (.template e) => throw (.template e)

/-- Writes the import file of the test data generator. -/
def generator (config : Config) (verbose : Bool) (path output : String) (iterations : Option Nat) :
    ExceptT CommandError m Unit := do
  let model ← loadModel path verbose
  let options :=
    { config.generator with iterations := iterations.getD config.generator.iterations }
  let b ← parsed model (Generator.Builder.ofOptions config.validation options)
  if b.validator.isValid then writeOutput output b.toJson else refuseInvalid b.validator.errors

/-- The name of the file of the bundled template. -/
def bundledTemplateName : String := "relay_schema.js.jinja"

/-- Writes the built-in configuration, and beside it the bundled template. -/
def initConfig (verbose : Bool) (path : String) : ExceptT CommandError m Unit := do
  if ← (Machine.isPresent path : m Bool) then throw (.configPresent path)
  makeParent (fun _ => .file) path
  let config := { Config.builtIn with
    graphql := { SchemaOptions.builtIn with template := some bundledTemplateName } }
  match config.toToml? with
  | none => throw .configUnwritable
  | some text => attempt .configUnreadable (Machine.writeText path text : m _)
  printAll ["✓ Config written: " ++ path]
  let template := Path.join ((Path.parent? path).getD "") bundledTemplateName
  if ← (Machine.isPresent template : m Bool) then
    tell verbose ("Keeping existing template: " ++ template)
  else
    attempt .file (Machine.writeText template Schema.relayTemplate : m _)
    printAll ["✓ Template written: " ++ template]

/-- Runs a command. -/
def Invocation.run (environment : Option String) (i : Invocation) :
    ExceptT CommandError m Unit := do
  match i.command with
  | .check path report => check (← loadConfig environment i) i.verbose path report
  | .order path json => order (← loadConfig environment i) path json
  | .graphql path template output =>
    graphql (← loadConfig environment i) i.verbose path template output
  | .generator path output iterations =>
    generator (← loadConfig environment i) i.verbose path output iterations
  | .initConfig path => initConfig i.verbose path

/-! ## The program -/

/-- The variable that names the configuration file. -/
def configVariable : String := "METAMODEL_CONFIG"

/-- The file of variables that stands in for the environment. -/
def environmentFile : String := ".env"

/-- The value of the variable that names the configuration file. -/
def environmentConfig (fromSystem : Option String) : m (Option String) := do
  match fromSystem with
  | some value => return some value
  | none =>
    match ← Machine.readText environmentFile with
    | .ok text => return Environment.lookup? text configVariable
    | .error _ => return none

/-- Runs the program with the value of its variable in the environment and its arguments; gives the
exit status. -/
def run (fromSystem : Option String) (arguments : List String) : m UInt32 := do
  let environment ← environmentConfig fromSystem
  match Invocation.ofArguments arguments with
  | .error .help => do
    Machine.print usage
    return 0
  | .error .version => do
    Machine.print version
    return 0
  | .error .invalid => do
    Machine.warn usage
    return 2
  | .ok i =>
    match ← (i.run environment).run with
    | .ok _ => return 0
    | .error e => do
      e.lines.forM Machine.warn
      return 1

end

end EntityModel.CommandLine
