import EntityModel.Report

/-!
# What commands print

The lines that tell a reader how a check went, in which order entities are emitted, and what is
wrong.
-/

namespace EntityModel.CommandLine

/-- A line without the carriage return that belongs to its line end. -/
def withoutReturn (line : String) : String :=
  match line.toList.reverse with
  | '\r' :: earlier => String.ofList earlier.reverse
  | _ => line

/-- The lines of a text; behind the last line end stands a line only if it is not empty. -/
def linesOf (s : String) : List String :=
  let pieces := s.splitOn "\n"
  pieces.dropLast.map withoutReturn ++ pieces.getLast?.toList.filter (· ≠ "")

/-- A number with blanks in front of it where it has fewer than three digits. -/
def aligned (n : Nat) : String :=
  let s := toString n
  String.ofList (List.replicate (3 - s.length) ' ') ++ s

/-- A numbered list of names. -/
def numbered (names : List String) : List String :=
  names.zipIdx.map fun n => aligned (n.2 + 1) ++ ". " ++ n.1

/-- Lines set off by two blanks. -/
def indented (lines : List String) : List String := lines.map ("  " ++ ·)

/-- The lines about errors. -/
def errorLines (r : ErrorRecord) : List String := "Errors:" :: indented (linesOf r.tree)

/-- The lines about an order that was not found. -/
def cycleLines (c : CycleDetected) : List String :=
  "Some objects could not be ordered (cycle or unknown target)" :: indented (linesOf c.diagnostic)

/-- A line across the page. -/
def ruler : String := String.ofList (List.replicate 60 '=')

/-- The lines about the outcome of the ordering. -/
def outcomeLines : Option OrderOutcome → List String
  | some (.ordered order) => "Emission order:" :: indented (numbered order)
  | some (.cyclic c) => cycleLines c
  | none => []

/-- The lines that sum up a report. -/
def summaryLines (r : Report) : List String :=
  ["", ruler, "Model Check Report", ruler, "",
    "Summary:",
    "  Entities:   " ++ toString r.summary.entities,
    "  Attributes: " ++ toString r.summary.attributes,
    "  References: " ++ toString r.summary.references,
    "  Errors:     " ++ toString r.summary.errors,
    ""] ++
  (if r.errors.isEmpty then ["✓ No validation errors"] else errorLines r.errors) ++ [""] ++
  outcomeLines r.order ++ ["", ruler]

end EntityModel.CommandLine
