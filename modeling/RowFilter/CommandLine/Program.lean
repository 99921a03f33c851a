import RowFilter.CommandLine.Options
import RowFilter.Session

/-!
# RowFilter — one run of the program

A run reads the limits, the dataset and the named lists from files, answers one request and prints the
answer as indented JSON. Files are given as a function from paths to their texts, so a run is a function
of its arguments and of what it reads.

Exit codes are 0 for an answer, 1 for an error and 2 for arguments at fault.
-/

namespace RowFilter.CommandLine

/-- What a run leaves behind: its exit code, its output and its error report. -/
structure Result where
  code : UInt8
  output : String
  report : Option String
deriving Repr

/-- Why a run fails. -/
inductive Failure
  | limits (cause : PageLimitsError)
  | datasetUnreadable (path : String)
  | datasetInvalid (path : String)
  | listsUnreadable (path : String)
  | listsMalformed (path : String)
  | listInvalid (name : String) (found : Json)
  | filter (cause : FilterError)
deriving Repr

/-- The first line of a report. -/
def Failure.message : Failure → String
  | limits cause => cause.message
  | datasetUnreadable path => "Failed to read dataset " ++ path
  | datasetInvalid path => "Invalid dataset " ++ path
  | listsUnreadable path => "Failed to read lists " ++ path
  | listsMalformed path => "Lists file " ++ path ++ " must be a JSON object"
  | listInvalid name found =>
    "list '" ++ name ++ "' must be an array, found " ++ found.compact
  | filter _ => "Filter failed"

/-- A text with four spaces in front of each of its lines. -/
def indented (s : String) : String :=
  String.ofList ("    ".toList ++ s.toList.flatMap fun c => if c = '\n' then "\n    ".toList else [c])

/-- The text of a report. The cause of a failed filter is indented below its first line. -/
def Failure.report (f : Failure) : String :=
  "Error: " ++ f.message
    ++ match f with
      | filter cause => "\n\nCaused by:\n" ++ indented cause.message
      | _ => ""

/-- A line that was collected from its end: one carriage return at its end belongs to the line break. -/
def lineOf : List Char → String
  | '\r' :: line => String.ofList line.reverse
  | line => String.ofList line.reverse

/-- The lines of a text, given the part of the current line that is already read, backwards. -/
def linesFrom (line : List Char) : List Char → List String
  | [] => [lineOf line]
  | c :: rest => if c = '\n' then lineOf line :: linesFrom [] rest else linesFrom (c :: line) rest

/-- The lines of a text that is printed with a line feed after it. A line ends at a line feed, with or
without a carriage return in front of it; a carriage return elsewhere is text. -/
def lines (s : String) : List String := linesFrom [] s.toList

example : lines "a\r\nb\rc\n\nd\r" = ["a", "b\rc", "", "d"] := by decide +kernel

/-- The name under which the dataset is registered. -/
def datasetName : String := "cli"

/-- Reads the table of a dataset. -/
def loadTable (read : String → Option String) (path : String) : Except Failure Table :=
  match read path with
  | none => .error (.datasetUnreadable path)
  | some s => match Table.ofText s with
    | .ok t => .ok t
    | .error _ => .error (.datasetInvalid path)

/-- Adds one list of a user. -/
def addList (user : String) (lists : Literal.NamedLists) (m : String × Json) :
    Except Failure Literal.NamedLists :=
  match m.2 with
  | .array items => .ok (lists.insert (user, m.1) (items.map Value.ofJson))
  | found => .error (.listInvalid m.1 found)

/-- Reads the named lists of a user. -/
def loadLists (read : String → Option String) (user path : String) :
    Except Failure Literal.NamedLists :=
  match read path with
  | none => .error (.listsUnreadable path)
  | some s => match Json.read? s with
    | some (.object ms) => ms.foldlM (addList user) .empty
    | _ => .error (.listsMalformed path)

/-- Reads the page limits. -/
def loadLimits (read : String → Option String) : Option String → Except Failure PageLimits
  | none => .ok .usual
  | some path => match PageLimits.load path (read path) with
    | .ok l => .ok l
    | .error cause => .error (.limits cause)

/-- The answer of a run. -/
def answer [Calendar.Parsers] (read : String → Option String) (o : Options) : Except Failure Json := do
  let limits ← loadLimits read o.config
  let table ← loadTable read o.data
  let lists ← match o.lists with
    | none => pure .empty
    | some path => loadLists read o.user path
  let session := Session.ofCatalog (Catalog.register .empty datasetName ⟨table, none⟩) lists limits
  let outcome :=
    if o.count then
      (session.count o.user datasetName o.query).outcome.map fun n =>
        Json.object [("total_count", .int n)]
    else
      (session.filter ⟨o.user, datasetName, o.query, o.offset, o.limit⟩).outcome.map Page.toJson
  match outcome with
  | .ok j => .ok j
  | .error cause => .error (.filter cause)

/-- The version of the program. -/
def versionLine : String := "vibefilter 0.1.0\n"

/-- The options of the program. -/
def helpText : String :=
  "Usage: vibefilter [OPTIONS] --data <DATA> --query <QUERY>\n\n"
    ++ "Options:\n"
    ++ "  -D, --data <DATA>      JSON file holding an array of records\n"
    ++ "  -q, --query <QUERY>    Filter query\n"
    ++ "  -L, --lists <LISTS>    JSON file mapping list names to arrays of values\n"
    ++ "  -u, --user <USER>      Owner of the named lists [default: cli]\n"
    ++ "  -o, --offset <OFFSET>  Number of matching rows to skip [default: 0]\n"
    ++ "  -l, --limit <LIMIT>    Page size\n"
    ++ "  -c, --config <CONFIG>  JSON page-size config file\n"
    ++ "      --count            Print only the number of matching rows\n"
    ++ "  -d, --debug            Enable debug logging\n"
    ++ "  -h, --help             Print help\n"
    ++ "  -V, --version          Print version\n"

/-- Runs the program on its arguments. -/
def run [Calendar.Parsers] (read : String → Option String) (args : List String) : Result :=
  match readArguments args with
  | .help => ⟨0, helpText, none⟩
  | .version => ⟨0, versionLine, none⟩
  | .refuse => ⟨2, "", some "error: invalid arguments"⟩
  | .run o =>
    match answer read o with
    | .ok j => ⟨0, j.pretty ++ "\n", none⟩
    | .error f => ⟨1, "", some f.report⟩

end RowFilter.CommandLine
