/-! # Command lines

The arguments of a program are options only. An option has a long name, maybe a letter, and an
**`Arity`** that says whether it takes a value. Values follow in the next argument, or attached:
`--step=3`, `-s3` and `-s=3` all say `--step 3`, and letters without values may share an argument, as
in `-vq`. **`Arguments.parse`** gives the options in order with their values, or nothing when an
argument does not fit. The arguments are read up to an option that asks for help, and the help of a
program is made from its options: **`OptionSpec.help`**. -/

namespace RaftJournal

/-- What follows an option. -/
inductive Arity
  /-- Nothing; the option stands once at most. -/
  | flag
  /-- Nothing; the option may be repeated. -/
  | counted
  /-- A value that does not look like an option. -/
  | value
  /-- Any value. -/
  | anyValue
  /-- Nothing; the program tells its help, and what follows is not read. -/
  | help
  deriving DecidableEq, Repr

/-- Whether an option takes a value. -/
def Arity.takesValue : Arity → Bool
  | .flag | .counted | .help => false
  | .value | .anyValue => true

/-- What becomes of an option that is not given. -/
inductive Absence
  /-- The arguments do not fit. -/
  | misfit
  /-- Nothing. -/
  | nothing
  /-- It has its usual value. -/
  | usual (text : String)
  deriving DecidableEq, Repr

/-- An option of a program. -/
structure OptionSpec where
  /-- The name after two hyphens. -/
  long : String
  /-- The letter after one hyphen. -/
  short : Option Char
  arity : Arity
  absence : Absence
  /-- What the help says about it. -/
  about : String
  deriving DecidableEq, Repr

/-- The options given, in order; an option without a value has an empty one. -/
abbrev Arguments := List (String × String)

namespace Arguments

/-- Whether a text looks like an option: a hyphen and more. -/
def looksLikeOption (text : String) : Bool :=
  match text.toList with
  | '-' :: _ :: _ => true
  | _ => false

/-- Whether a text may be the value of an option that takes one. -/
def mayFollow (arity : Arity) (text : String) : Bool :=
  arity = .anyValue || !looksLikeOption text

/-- What one argument says. -/
inductive Said
  /-- Options, all of them complete. -/
  | complete (given : Arguments)
  /-- Options, and a last one that still wants its value. -/
  | wanting (given : Arguments) (last : OptionSpec)
  /-- Options, and the last of them asks for help. -/
  | asking (given : Arguments)
  /-- Nothing; it does not fit. -/
  | misfit

/-- Puts an option in front. -/
def Said.push (option : String × String) : Said → Said
  | .complete given => .complete (option :: given)
  | .wanting given last => .wanting (option :: given) last
  | .asking given => .asking (option :: given)
  | .misfit => .misfit

/-- Reads the letters of one argument, up to one that asks for help; what follows a letter that takes a value
is the value. -/
def readLetters (specs : List OptionSpec) : List Char → Said
  | [] => .complete []
  | c :: more =>
    match specs.find? (·.short = some c) with
    | none => .misfit
    | some spec =>
      if spec.arity.takesValue then
        match more with
        | [] => .wanting [] spec
        | '=' :: value => .complete [(spec.long, String.ofList value)]
        | value => .complete [(spec.long, String.ofList value)]
      else if spec.arity = .help then .asking [(spec.long, "")]
      else (readLetters specs more).push (spec.long, "")

/-- A long option: its name, and its value if one is attached. -/
def splitLong (text : List Char) : String × Option String :=
  match text.span (· ≠ '=') with
  | (name, []) => (String.ofList name, none)
  | (name, _ :: value) => (String.ofList name, some (String.ofList value))

/-- Reads a long option. -/
def readLong (specs : List OptionSpec) (text : List Char) : Said :=
  match specs.find? (·.long = (splitLong text).1) with
  | none => .misfit
  | some spec =>
    match spec.arity.takesValue, (splitLong text).2 with
    | true, some value => .complete [(spec.long, value)]
    | true, none => .wanting [] spec
    | false, some _ => .misfit
    | false, none =>
      if spec.arity = .help then .asking [(spec.long, "")] else .complete [(spec.long, "")]

/-- Reads one argument that is no value. -/
def readOne (specs : List OptionSpec) (text : String) : Said :=
  match text.toList with
  | '-' :: '-' :: long => readLong specs long
  | '-' :: c :: letters => readLetters specs (c :: letters)
  | _ => .misfit

/-- Reads the arguments in order, up to one that asks for help; `wanted` is an option whose value comes
next. Behind two hyphens there may be nothing. -/
def read (specs : List OptionSpec) (wanted : Option OptionSpec) : List String → Option Arguments
  | [] => if wanted.isNone then some [] else none
  | text :: rest =>
    match wanted with
    | some spec =>
      if mayFollow spec.arity text then
        (read specs none rest).map ((spec.long, text) :: ·)
      else none
    | none =>
      if text.toList = ['-', '-'] then if rest = [] then some [] else none
      else
        match readOne specs text with
        | .complete given => (read specs none rest).map (given ++ ·)
        | .wanting given spec => (read specs (some spec) rest).map (given ++ ·)
        | .asking given => some given
        | .misfit => none

/-- The number of times that an option is given. -/
def occurrences (arguments : Arguments) (long : String) : Nat :=
  arguments.countP (·.1 = long)

/-- Whether an option is given. -/
def has (arguments : Arguments) (long : String) : Bool := 0 < arguments.occurrences long

/-- The usual values of the options that are not given. -/
def usual (specs : List OptionSpec) (given : Arguments) : Arguments :=
  specs.filterMap fun spec =>
    match spec.absence with
    | .usual text => if given.has spec.long then none else some (spec.long, text)
    | .misfit | .nothing => none

/-- The options given, and the usual values of the others; only counted options may be repeated. -/
def parse (specs : List OptionSpec) (texts : List String) : Option Arguments :=
  (read specs none texts).bind fun given =>
    if specs.all fun spec => spec.arity = .counted || occurrences given spec.long ≤ 1 then
      some (given ++ usual specs given)
    else none

/-- The value of an option that may be absent: nothing when it is, and no answer when it is not and its
value cannot be read. -/
def optional {α : Type} (arguments : Arguments) (long : String) (value? : String → Option α) :
    Option (Option α) :=
  match arguments.lookup long with
  | none => some none
  | some text => (value? text).map some

/-- The value of an option that is given or has a usual value. -/
def value {α : Type} (arguments : Arguments) (long : String) (value? : String → Option α) : Option α :=
  (arguments.lookup long).bind value?

end Arguments

namespace OptionSpec

/-! ## help -/

/-- The option that asks for help. -/
def asksHelp : OptionSpec := ⟨"help", 'h', .help, .nothing, "Print help"⟩

/-- What stands for the value: the name of the option in capitals. -/
def valueName (spec : OptionSpec) : String :=
  String.ofList (spec.long.toList.map fun c => if c = '-' then '_' else c.toUpper)

/-- The option as it is given. -/
def form (spec : OptionSpec) : String :=
  "--" ++ spec.long ++
    match spec.arity with
    | .flag | .help => ""
    | .counted => "..."
    | .value | .anyValue => " <" ++ spec.valueName ++ ">"

/-- The option with its letter in front, or with room for one. -/
def heading (spec : OptionSpec) : String :=
  (match spec.short with
    | some c => String.ofList ['-', c, ',', ' ']
    | none => "    ") ++ spec.form

/-- What the help says about the option and its usual value. -/
def remark (spec : OptionSpec) : String :=
  match spec.absence with
  | .usual text => spec.about ++ " [default: " ++ text ++ "]"
  | .misfit | .nothing => spec.about

/-- The line of the option, with what is said about it `width` characters behind its start. -/
def helpLine (width : Nat) (spec : OptionSpec) : String :=
  "  " ++ spec.heading ++ String.ofList (List.replicate (width - spec.heading.length) ' ') ++ "  " ++
    spec.remark

/-- The lines of a program's help: what it is for, how it is called, and its options. -/
def help (program about : String) (specs : List OptionSpec) : List String :=
  let width := (specs.map (·.heading.length)).foldl max 0
  let must := (specs.filter (·.absence = .misfit)).map fun spec => " " ++ spec.form
  [about, "", "Usage: " ++ program ++ " [OPTIONS]" ++ String.join must, "", "Options:"] ++
    specs.map (helpLine width)

end OptionSpec

/-! ## what is asked for -/

/-- What the arguments of a program ask for. -/
inductive Asked (α : Type)
  /-- The help of the program. -/
  | help
  /-- What the program is for. -/
  | request (what : α)
  deriving DecidableEq, Repr

/-- The request, unless help is asked for. -/
def Asked.request? {α : Type} : Asked α → Option α
  | .help => none
  | .request what => some what

end RaftJournal
