import GossipGames.Json.Layout

/-!
# Arguments of the command

The arguments are looked at from left to right.  The first one that asks for help or for the version
ends this, and so does the first one that is at fault.  The value of an option is the rest of its
argument or, when nothing is left of it, the next argument, which must not look like an option.
-/

namespace GossipGames
namespace CommandLine

structure Run where
  count : String
  style : Option Json.Style
  config : Option String
  lint : Bool
  strict : Bool
deriving DecidableEq

inductive Request where
  | run (r : Run)
  | summary
  | help
  | version
deriving DecidableEq

inductive UsageError where
  | unknownOption (argument : String)
  | unexpectedValue (option : String)
  | missingValue (option : String)
  | invalidValue (option value : String)
  | repeated (option : String)
  | extraArgument (argument : String)
  | missingCount
deriving DecidableEq

def UsageError.message : UsageError → String
  | unknownOption argument => "unexpected argument '" ++ argument ++ "' found"
  | unexpectedValue option => "unexpected value for '" ++ option ++ "' found"
  | missingValue option => "a value is required for '" ++ option ++ "' but none was supplied"
  | invalidValue option value => "invalid value '" ++ value ++ "' for '" ++ option ++ "'"
  | repeated option => "the argument '" ++ option ++ "' cannot be used multiple times"
  | extraArgument argument => "unexpected argument '" ++ argument ++ "' found"
  | missingCount => "the following required arguments were not provided: <COUNT>"

inductive Valued where
  | style
  | config
deriving DecidableEq

def Valued.name : Valued → String
  | style => "--style <STYLE>"
  | config => "--config <CONFIG>"

structure Progress where
  count : Option String := none
  style : Option Json.Style := none
  config : Option String := none
  lint : Bool := false
  strict : Bool := false
  /-- The option whose value has to come next. -/
  pending : Option Valued := none
  /-- Whether all further arguments are plain. -/
  plain : Bool := false

/-- What is known after an argument: the request, or that more is to be read. -/
inductive Step where
  | request (r : Request)
  | more (p : Progress)

namespace Progress

def setValue (p : Progress) (value : String) : Valued → Except UsageError Progress
  | Valued.style =>
      if p.style.isSome then .error (.repeated Valued.style.name)
      else
        match Json.Style.ofName? value with
        | some s => .ok { p with style := some s, pending := none }
        | none => .error (.invalidValue Valued.style.name value)
  | Valued.config =>
      if p.config.isSome then .error (.repeated Valued.config.name)
      else if value.isEmpty then .error (.missingValue Valued.config.name)
      else .ok { p with config := some value, pending := none }

def setLint (p : Progress) : Except UsageError Progress :=
  if p.lint then .error (.repeated "--lint") else .ok { p with lint := true }

def setStrict (p : Progress) : Except UsageError Progress :=
  if p.strict then .error (.repeated "--strict") else .ok { p with strict := true }

def setCount (p : Progress) (argument : String) : Except UsageError Progress :=
  if p.count.isSome then .error (.extraArgument argument)
  else .ok { p with count := some argument }

def setValued (p : Progress) (o : Valued) (value : Option String) : Except UsageError Step :=
  match value with
  | some v => (p.setValue v o).map Step.more
  | none => .ok (.more { p with pending := some o })

def long (p : Progress) (name : String) (value : Option String) : Except UsageError Step :=
  if name = "style" then p.setValued Valued.style value
  else if name = "config" then p.setValued Valued.config value
  else if name = "lint" ∨ name = "strict" ∨ name = "help" ∨ name = "version" then
    if value.isSome then .error (.unexpectedValue ("--" ++ name))
    else if name = "lint" then p.setLint.map Step.more
    else if name = "strict" then p.setStrict.map Step.more
    else .ok (.request (if name = "help" then Request.help else Request.version))
  else .error (.unknownOption ("--" ++ name))

/-- The value that follows a short option in its argument; an equals sign before it is dropped. -/
def attached : List Char → Option String
  | [] => none
  | '=' :: s => some (String.ofList s)
  | s => some (String.ofList s)

def short (p : Progress) : List Char → Except UsageError Step
  | [] => .ok (.more p)
  | 'l' :: s =>
      match p.setLint with
      | .error e => .error e
      | .ok q => short q s
  | 'h' :: _ => .ok (.request Request.summary)
  | 'V' :: _ => .ok (.request Request.version)
  | 's' :: s => p.setValued Valued.style (attached s)
  | 'c' :: s => p.setValued Valued.config (attached s)
  | c :: _ => .error (.unknownOption ("-" ++ String.singleton c))

def splitValue (s : List Char) : String × Option String :=
  (String.ofList (s.takeWhile (· != '=')),
    match s.dropWhile (· != '=') with
    | [] => none
    | _ :: v => some (String.ofList v))

def noValue (p : Progress) (next : Except UsageError Step) : Except UsageError Step :=
  match p.pending with
  | some o => .error (.missingValue o.name)
  | none => next

def next (p : Progress) (argument : String) : Except UsageError Step :=
  if p.plain then p.noValue ((p.setCount argument).map Step.more)
  else
    match argument.toList with
    | ['-', '-'] => .ok (.more { p with plain := true })
    | '-' :: '-' :: s =>
        let (name, value) := splitValue s
        p.noValue (p.long name value)
    | '-' :: c :: s => p.noValue (p.short (c :: s))
    | _ =>
        match p.pending with
        | some o => (p.setValue argument o).map Step.more
        | none => (p.setCount argument).map Step.more

def finish (p : Progress) : Except UsageError Request :=
  match p.pending, p.count with
  | some o, _ => .error (.missingValue o.name)
  | none, none => .error .missingCount
  | none, some count => .ok (.run ⟨count, p.style, p.config, p.lint, p.strict⟩)

def read (p : Progress) : List String → Except UsageError Request
  | [] => p.finish
  | a :: as =>
      match p.next a with
      | .error e => .error e
      | .ok (.request r) => .ok r
      | .ok (.more q) => read q as

end Progress

def Request.ofArguments (arguments : List String) : Except UsageError Request :=
  ({} : Progress).read arguments

end CommandLine
end GossipGames
