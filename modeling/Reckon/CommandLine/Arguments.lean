import Reckon.Text.Digit

/-! The arguments of the command line. A long switch may be cut short as long as it
stays unique, and may carry its value behind an equals sign. -/

namespace Reckon.CommandLine

inductive Switch where
  | help
  | radians
  | dataPath
  | expressionColumn
  | saveResults
  | outputPath
  | interactive
  | verbose
deriving DecidableEq, Repr

namespace Switch

def spellings : List (String × Switch) :=
  [("-h", help), ("--help", help), ("--radians", radians), ("--data_path", dataPath),
    ("--expression_column", expressionColumn), ("--save_results", saveResults),
    ("--output_path", outputPath), ("--interactive", interactive), ("--verbose", verbose)]

def takesValue : Switch → Bool
  | dataPath | expressionColumn | outputPath => true
  | _ => false

end Switch

/-- What the arguments ask for. -/
structure Settings where
  expression : Option String := none
  radians : Bool := false
  dataPath : Option String := none
  expressionColumn : Option String := none
  saveResults : Bool := false
  outputPath : Option String := none
  interactive : Bool := false
  verbose : Bool := false
deriving DecidableEq, Repr

inductive Parsed where
  | accepted (settings : Settings)
  | help
  | rejected
deriving DecidableEq, Repr

/-- What a single argument is. -/
inductive Piece where
  | operand (text : String)
  | separator
  | switch (switch : Switch) (attached : Option String)
  | unknown
deriving DecidableEq, Repr

/-- A minus and a number: digits, or digits behind a point. One line feed may follow. -/
def isSignedNumber (text : List Char) : Bool :=
  match text with
  | '-' :: body =>
    let line := if body.getLast? = some '\n' then body.dropLast else body
    let (whole, rest) := line.span Text.isDigit
    match rest with
    | [] => !whole.isEmpty
    | '.' :: fraction => !fraction.isEmpty && fraction.all Text.isDigit
    | _ => false
  | _ => false

/-- The name in front of the first equals sign, and the value behind it. -/
def cutValue (text : List Char) : String × Option String :=
  match text.span (· != '=') with
  | (name, []) => (String.ofList name, none)
  | (name, _ :: value) => (String.ofList name, some (String.ofList value))

/-- The short form of the switch for help may be repeated in one argument, and nothing
else may follow it there. -/
def shortHelp (more : List Char) : Piece :=
  .switch .help (if more.all (· == 'h') then none else some (String.ofList more))

/-- What an argument can mean that begins with a minus and spells no switch in full. Only
the switch for help has a short form. -/
def candidates (text : List Char) : List Piece :=
  match text with
  | '-' :: '-' :: _ =>
    let (name, value) := cutValue text
    (Switch.spellings.filter fun entry => entry.1.startsWith name).map fun entry =>
      .switch entry.2 value
  | '-' :: 'h' :: more => [shortHelp more]
  | _ => []

/-- Nothing is returned when an argument could mean more than one switch. -/
def interpret? (text : String) : Option Piece :=
  match text.toList with
  | '-' :: rest =>
    let (name, value) := cutValue text.toList
    match Switch.spellings.lookup text, Switch.spellings.lookup name with
    | some switch, _ => some (.switch switch none)
    | none, some switch =>
      let attached := value.getD ""
      if name == "-h" && attached != "" then some (shortHelp attached.toList)
      else some (.switch switch value)
    | none, none =>
      if rest.isEmpty then some (.operand text)
      else
        match candidates text.toList with
        | [piece] => some piece
        | [] =>
          if isSignedNumber text.toList || text.toList.contains ' ' then some (.operand text)
          else some .unknown
        | _ => none
  | _ => some (.operand text)

/-- Behind the separator everything is an operand. -/
def pieces? : List String → Option (List Piece)
  | [] => some []
  | text :: rest =>
    if text == "--" then some (.separator :: rest.map .operand)
    else (interpret? text).bind fun piece => (piece :: ·) <$> pieces? rest

def Settings.turnOn (settings : Settings) : Switch → Settings
  | .radians => { settings with radians := true }
  | .saveResults => { settings with saveResults := true }
  | .interactive => { settings with interactive := true }
  | .verbose => { settings with verbose := true }
  | _ => settings

def Settings.assign (settings : Settings) (value : String) : Switch → Settings
  | .dataPath => { settings with dataPath := some value }
  | .expressionColumn => { settings with expressionColumn := some value }
  | .outputPath => { settings with outputPath := some value }
  | _ => settings

/-- A separator behind an equals sign stands for no value at all. -/
def attachedValue (value : String) : String :=
  if value = "--" then "" else value

/-- There is room for one operand. -/
def Settings.place (settings : Settings) (taken : Bool) (text : String) : Settings :=
  if taken then settings else { settings with expression := some text }

/-- Reads the pieces from left to right. An operand takes the separator beside it along;
`taken` says that its place was filled, and `surplus` that something was met that has no
place. -/
def consume (taken surplus : Bool) (settings : Settings) : List Piece → Parsed
  | [] => if surplus then .rejected else .accepted settings
  | .unknown :: rest => consume taken true settings rest
  | .operand text :: .separator :: rest =>
    consume true (surplus || taken) (settings.place taken text) rest
  | .operand text :: rest => consume true (surplus || taken) (settings.place taken text) rest
  | .separator :: .operand text :: rest =>
    consume true (surplus || taken) (settings.place taken text) rest
  | .separator :: rest => consume true (surplus || taken) settings rest
  | .switch switch (some value) :: rest =>
    if switch.takesValue then
      consume taken surplus (settings.assign (attachedValue value) switch) rest
    else .rejected
  | .switch switch none :: rest =>
    if switch = .help then .help
    else if switch.takesValue then
      match rest with
      | .operand value :: others => consume taken surplus (settings.assign value switch) others
      | _ => .rejected
    else consume taken surplus (settings.turnOn switch) rest

def parse (arguments : List String) : Parsed :=
  match pieces? arguments with
  | none => .rejected
  | some pieces => consume false false {} pieces

end Reckon.CommandLine
