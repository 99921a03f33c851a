import RowFilter.Literal.Cast

/-!
# RowFilter — options of the command line

Arguments are read from left to right, and the first fault ends the reading; a request for help or for
the version counts from where it stands. An option takes its value from the next argument, or behind an
equals sign, or, for a short name, right behind the letter. Letters of switches may be joined. A value in
an argument of its own does not start with a hyphen, unless it is a hyphen alone. No option may be given
twice, and no other arguments are taken.
-/

namespace RowFilter.CommandLine

/-- The options that take a value. -/
inductive Setting
  | data
  | query
  | lists
  | user
  | offset
  | limit
  | config
deriving DecidableEq, Repr

/-- The options without a value. -/
inductive Switch
  | count
  | debug
  | help
  | version
deriving DecidableEq, Repr

/-- What was read so far. -/
structure Given where
  settings : List (Setting × String)
  switches : List Switch
deriving Repr

/-- The options of one run. -/
structure Options where
  data : String
  query : String
  lists : Option String
  user : String
  offset : UInt64
  limit : Option UInt64
  config : Option String
  count : Bool
  debug : Bool
deriving Repr

/-- What the arguments ask for. -/
inductive Wish
  | run (options : Options)
  | help
  | version
  /-- The arguments are at fault. -/
  | refuse
deriving Repr

/-! ## Names -/

/-- The option with a long name. -/
def ofLong? (name : String) : Option (Setting ⊕ Switch) :=
  match name with
  | "data" => some (.inl .data)
  | "query" => some (.inl .query)
  | "lists" => some (.inl .lists)
  | "user" => some (.inl .user)
  | "offset" => some (.inl .offset)
  | "limit" => some (.inl .limit)
  | "config" => some (.inl .config)
  | "count" => some (.inr .count)
  | "debug" => some (.inr .debug)
  | "help" => some (.inr .help)
  | "version" => some (.inr .version)
  | _ => none

/-- The option with a letter. -/
def ofShort? (letter : Char) : Option (Setting ⊕ Switch) :=
  match letter with
  | 'D' => some (.inl .data)
  | 'q' => some (.inl .query)
  | 'L' => some (.inl .lists)
  | 'u' => some (.inl .user)
  | 'o' => some (.inl .offset)
  | 'l' => some (.inl .limit)
  | 'c' => some (.inl .config)
  | 'd' => some (.inr .debug)
  | 'h' => some (.inr .help)
  | 'V' => some (.inr .version)
  | _ => none

/-! ## Values -/

/-- Reads a number that fits a word; a plus sign may stand in front. -/
def readWord? (s : String) : Option UInt64 :=
  let ds := match s.toList with
    | '+' :: rest => rest
    | ds => ds
  if ds.isEmpty || !ds.all Decimal.isDigit then none
  else toWord? (Decimal.digitsValue 0 ds)

/-- May an option have this value? Paths are not empty, and counts are numbers. -/
def accepts (o : Setting) (value : String) : Bool :=
  match o with
  | .data | .lists | .config => !value.isEmpty
  | .offset | .limit => (readWord? value).isSome
  | .query | .user => true

namespace Given

/-- Nothing was read. -/
def empty : Given := ⟨[], []⟩

/-- The value of an option. -/
def value? (g : Given) (o : Setting) : Option String := g.settings.lookup o

/-- Takes the value of an option that was not given before. -/
def set (g : Given) (o : Setting) (value : String) : Option Given :=
  if (g.value? o).isSome || !accepts o value then none
  else some { g with settings := g.settings ++ [(o, value)] }

/-- Takes a switch that was not given before. -/
def turnOn (g : Given) (w : Switch) : Option Given :=
  if w ∈ g.switches then none else some { g with switches := g.switches ++ [w] }

/-- The options at the end of the arguments; a dataset and a query are needed. -/
def options? (g : Given) : Option Options := do
  let data ← g.value? .data
  let query ← g.value? .query
  return ⟨data, query, g.value? .lists, (g.value? .user).getD "cli",
    ((g.value? .offset).bind readWord?).getD 0, (g.value? .limit).bind readWord?,
    g.value? .config, .count ∈ g.switches, .debug ∈ g.switches⟩

end Given

/-! ## Arguments -/

/-- What one argument leads to: more arguments, a value in the next one, or the end of the reading. -/
inductive Step
  | go (g : Given)
  | await (g : Given) (o : Setting)
  | stop (w : Wish)

/-- A wish that a switch stands for, or the switch itself. -/
def switchStep (g : Given) (w : Switch) : Step :=
  match w with
  | .help => .stop .help
  | .version => .stop .version
  | w => match g.turnOn w with
    | some g => .go g
    | none => .stop .refuse

/-- An option with its value in the same argument. -/
def settingStep (g : Given) (o : Setting) (value : String) : Step :=
  match g.set o value with
  | some g => .go g
  | none => .stop .refuse

/-- Splits a text at its first equals sign. -/
def splitEquals (s : List Char) : List Char × Option (List Char) :=
  (s.takeWhile (· ≠ '='), (s.dropWhile (· ≠ '=')).tail?)

/-- Reads an argument behind two hyphens. -/
def longStep (g : Given) (s : List Char) : Step :=
  let (name, value) := splitEquals s
  match ofLong? (String.ofList name), value with
  | some (.inl o), some v => settingStep g o (String.ofList v)
  | some (.inl o), none => .await g o
  | some (.inr w), none => switchStep g w
  | _, _ => .stop .refuse

/-- Reads the letters behind one hyphen. -/
def shortStep (g : Given) : List Char → Step
  | [] => .go g
  | c :: rest =>
    match ofShort? c with
    | some (.inl o) =>
      match rest with
      | [] => .await g o
      | '=' :: value => settingStep g o (String.ofList value)
      | value => settingStep g o (String.ofList value)
    | some (.inr w) =>
      match switchStep g w with
      | .go g => shortStep g rest
      | s => s
    | none => .stop .refuse

/-- Reads one argument that is no value. -/
def argumentStep (g : Given) (arg : List Char) : Step :=
  match arg with
  | '-' :: '-' :: rest => longStep g rest
  | '-' :: c :: rest => shortStep g (c :: rest)
  | _ => .stop .refuse

/-- What the options at the end ask for. -/
def finish (g : Given) : Wish :=
  match g.options? with
  | some o => .run o
  | none => .refuse

/-- Reads the rest of the arguments; `due` is the option whose value comes next. -/
def readFrom (g : Given) (due : Option Setting) : List String → Wish
  | [] => if due.isSome then .refuse else finish g
  | arg :: rest =>
    match due with
    | some o =>
      if arg.startsWith "-" && arg ≠ "-" then .refuse
      else match g.set o arg with
        | some g => readFrom g none rest
        | none => .refuse
    | none =>
      if arg = "--" then if rest.isEmpty then finish g else .refuse
      else match argumentStep g arg.toList with
        | .go g => readFrom g none rest
        | .await g o => readFrom g (some o) rest
        | .stop w => w

/-- Reads all arguments. -/
def readArguments (args : List String) : Wish := readFrom .empty none args

end RowFilter.CommandLine
