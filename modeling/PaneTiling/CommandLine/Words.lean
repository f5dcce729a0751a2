import PaneTiling.CommandLine.Basic
import PaneTiling.Decimal.Numeral

/-!
Reading a command line word by word. An option waits for its value, and what it was given is looked
at only when the next option comes or the words end; the options before a subcommand come last of
all. So of several faults the one that is met first on this way is told.
-/

namespace PaneTiling.CommandLine

inductive OptionName
  | logLevel
  | config
  | session
  | width
  | height
  | gap
deriving DecidableEq, Repr, Inhabited

namespace OptionName

def all : List OptionName := [logLevel, config, session, width, height, gap]

def text : OptionName → String
  | logLevel => "log-level"
  | config => "config"
  | session => "session"
  | width => "width"
  | height => "height"
  | gap => "gap"

end OptionName

inductive Scope
  | top
  | layout
  | check
deriving DecidableEq, Repr, Inhabited

namespace Scope

/-- Some options may stand anywhere, others belong to a subcommand. -/
def Takes : Scope → OptionName → Prop
  | _, .logLevel | _, .config => True
  | .top, _ => False
  | .layout, _ => True
  | .check, name => name = .session

instance : (scope : Scope) → (name : OptionName) → Decidable (scope.Takes name) := by
  intro scope name
  cases scope <;> cases name <;> simp only [Takes] <;> infer_instance

def option? (scope : Scope) (text : String) : Option OptionName :=
  OptionName.all.find? fun name => decide (scope.Takes name) && name.text = text

def ofName? (word : String) : Option Scope :=
  if word = "layout" then some layout else if word = "check" then some check else none

end Scope

inductive Value
  | level (level : LogLevel)
  | path (path : String)
  | number (x : Float)
deriving BEq, Repr, Inhabited

/-- A number in decimal, or the name of an infinity or of what is no number. -/
def number? (text : String) : Option Float :=
  match Decimal.Numeral.ofChars? text.toList with
  | some n => if n.hasDigits then some n.toFloat else none
  | none =>
    let (sign, name) := Decimal.splitSign (text.toList.map Char.toLower)
    if name = "inf".toList ∨ name = "infinity".toList then
      some (if sign = some '-' then -1.0 / 0.0 else 1.0 / 0.0)
    else if name = "nan".toList then some (0.0 / 0.0)
    else none

def readValue (name : OptionName) (text : String) : Except UsageError Value :=
  match name with
  | .logLevel =>
    match LogLevel.ofNameInAnyCase? text with
    | some level => .ok (.level level)
    | none => .error .invalidValue
  | .config | .session => if text = "" then .error .missingValue else .ok (.path text)
  | .width | .height | .gap =>
    match number? text with
    | some x => .ok (.number x)
    | none => .error .invalidValue

/-- The options read so far in one scope. The last one may still wait for its value. -/
structure Options where
  scope : Scope
  values : List (OptionName × Value)
  pending : Option (OptionName × Option String)
deriving Repr, Inhabited

namespace Options

def start (scope : Scope) : Options := ⟨scope, [], none⟩

def give (o : Options) (name : OptionName) (text : String) : Except UsageError Options :=
  if o.values.any (·.1 = name) then .error .repeatedOption
  else do return { o with values := (name, ← readValue name text) :: o.values, pending := none }

def resolve (o : Options) : Except UsageError Options :=
  match o.pending with
  | none => .ok o
  | some (_, none) => .error .missingValue
  | some (name, some text) => o.give name text

def awaitsValue (o : Options) : Bool :=
  match o.pending with
  | some (_, none) => true
  | _ => false

def fill (o : Options) (text : String) : Options :=
  { o with pending := o.pending.map fun (name, _) => (name, some text) }

def long (o : Options) (text : String) (value : Option String) : Except UsageError Options :=
  match o.scope.option? text with
  | some name => do
    let o ← o.resolve
    match value with
    | some value => o.give name value
    | none => return { o with pending := some (name, none) }
  | none =>
    if text = "help" ∨ text = "version" ∧ o.scope = .top then
      if value.isSome then .error .unexpectedValue
      else do
        let _ ← o.resolve
        throw (if text = "help" then .help else .version)
    else .error .unknownArgument

def short (o : Options) (letter : Char) : Except UsageError Options :=
  if letter = 'h' ∨ letter = 'V' ∧ o.scope = .top then do
    let _ ← o.resolve
    throw (if letter = 'h' then .help else .version)
  else .error .unknownArgument

def level? (o : Options) (name : OptionName) : Option LogLevel :=
  match o.values.lookup name with
  | some (.level level) => some level
  | _ => none

def path? (o : Options) (name : OptionName) : Option String :=
  match o.values.lookup name with
  | some (.path path) => some path
  | _ => none

def number? (o : Options) (name : OptionName) : Option Float :=
  match o.values.lookup name with
  | some (.number x) => some x
  | _ => none

end Options

inductive Word
  /-- Two dashes alone, after which no word is an option. -/
  | dashes
  | long (name : String) (value : Option String)
  | short (letter : Char)
  | text (text : String)
deriving DecidableEq, Repr, Inhabited

def Word.ofString (word : String) : Word :=
  match word.toList with
  | ['-', '-'] => dashes
  | '-' :: '-' :: rest =>
    let name := String.ofList (rest.takeWhile (· ≠ '='))
    match rest.dropWhile (· ≠ '=') with
    | [] => long name none
    | _ :: value => long name (some (String.ofList value))
  | '-' :: letter :: _ => short letter
  | _ => text word

def readSubcommand (o : Options) : List String → Except UsageError Options
  | [] => o.resolve
  | word :: rest =>
    match Word.ofString word with
    | .dashes => if rest.isEmpty then o.resolve else .error .unknownArgument
    | .long name value => do readSubcommand (← o.long name value) rest
    | .short letter => do readSubcommand (← o.short letter) rest
    | .text text =>
      if o.awaitsValue then readSubcommand (o.fill text) rest else .error .unknownArgument

def readHelp (topic : List String) : UsageError :=
  match topic with
  | [] => .help
  | [word] => if (Scope.ofName? word).isSome ∨ word = "help" then .help else .unknownSubcommand
  | _ => .unknownSubcommand

def invocation (outer inner : Options) : Invocation where
  command := match inner.scope with
    | .check => .check
    | _ => .layout ((inner.number? .width).getD 1280.0) ((inner.number? .height).getD 800.0)
      (inner.number? .gap)
  session := inner.path? .session
  config := (inner.path? .config).or (outer.path? .config)
  logLevel := (inner.level? .logLevel).or (outer.level? .logLevel)

def withoutSubcommand (o : Options) : UsageError :=
  match o.resolve with
  | .error e => e
  | .ok o => if o.values.isEmpty then .helpInstead else .missingSubcommand

def readTop (o : Options) : List String → Except UsageError Invocation
  | [] => .error (withoutSubcommand o)
  | word :: rest =>
    match Word.ofString word with
    | .dashes =>
      .error <| match rest with
        | [] => withoutSubcommand o
        | word :: _ =>
          if (Scope.ofName? word).isSome ∨ word = "help" then .unknownArgument
          else .unknownSubcommand
    | .long name value => do readTop (← o.long name value) rest
    | .short letter => do readTop (← o.short letter) rest
    | .text text =>
      if o.awaitsValue then readTop (o.fill text) rest
      else if text = "help" then .error (readHelp rest)
      else
        match Scope.ofName? text with
        | some scope => do
          let inner ← readSubcommand (.start scope) rest
          return invocation (← o.resolve) inner
        | none => .error .unknownSubcommand

def read (words : List String) : Except UsageError Invocation := readTop (.start .top) words

end PaneTiling.CommandLine
