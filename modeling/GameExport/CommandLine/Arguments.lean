/-! # Arguments of a command line

Splitting a command line into options and operands. Options are written long or short, their
values after them or joined to them, and short ones can be written together. The first argument
that does not fit ends the reading, and so does a request for help.
-/

namespace GameExport.CommandLine

inductive OptionName
  | verbose
  | settings
  | temporary
  | output
  | target
  | compress
  | optimize
  | jobLimit
  | plain
  | asJson
  | scene
  | help
  | version
  deriving DecidableEq, Repr

structure OptionForm where
  name : OptionName
  long : String
  short : Option Char
  /-- Whether a value has the right form; an option without this takes no value. -/
  accepts : Option (String → Bool)
  repeats : Bool

structure Grammar where
  options : List OptionForm
  operands : Nat
  acceptsOperand : String → Bool
  /-- Whether reading stops at the first operand, which is then that of another grammar. -/
  stopsAtOperand : Bool

inductive EarlyEnd
  | usage
  | help
  | version
  deriving DecidableEq, Repr

structure Given where
  options : List (OptionName × String)
  operands : List String
  deriving DecidableEq, Repr

namespace Given

def nothing : Given := ⟨[], []⟩

def values (given : Given) (name : OptionName) : List String :=
  (given.options.filter fun option => option.1 == name).map (·.2)

def has (given : Given) (name : OptionName) : Bool := !(given.values name).isEmpty

def addOption (given : Given) (form : OptionForm) (value : String) : Except EarlyEnd Given :=
  let fits := match form.accepts with
    | some accepts => accepts value
    | none => true
  if (given.has form.name && !form.repeats) || !fits then .error .usage
  else if form.name = .help then .error .help
  else if form.name = .version then .error .version
  else .ok { given with options := given.options ++ [(form.name, value)] }

def addOperand (given : Given) (grammar : Grammar) (operand : String) : Except EarlyEnd Given :=
  if given.operands.length < grammar.operands && grammar.acceptsOperand operand then
    .ok { given with operands := given.operands ++ [operand] }
  else .error .usage

def addOperands (given : Given) (grammar : Grammar) : List String → Except EarlyEnd Given
  | [] => .ok given
  | operand :: rest => do addOperands (← given.addOperand grammar operand) grammar rest

end Given

inductive ArgumentShape
  | separator
  | long (name : String) (value : Option String)
  | short (letters : List Char)
  | operand
  deriving DecidableEq, Repr

def ArgumentShape.of (argument : String) : ArgumentShape :=
  match argument.toList with
  | ['-', '-'] => .separator
  | '-' :: '-' :: rest =>
      let name := rest.takeWhile (· != '=')
      let value := match rest.dropWhile (· != '=') with
        | [] => none
        | _ :: value => some (String.ofList value)
      .long (String.ofList name) value
  | '-' :: letter :: rest => .short (letter :: rest)
  | _ => .operand

def nextValue : List String → Except EarlyEnd (String × List String)
  | [] => .error .usage
  | value :: rest =>
      if ArgumentShape.of value = .operand then .ok (value, rest) else .error .usage

def readLong (grammar : Grammar) (given : Given) (name : String) (value : Option String)
    (rest : List String) : Except EarlyEnd (Given × List String) := do
  match grammar.options.find? fun form => form.long == name with
  | none => .error .usage
  | some form =>
      match form.accepts.isSome, value with
      | true, some value => .ok (← given.addOption form value, rest)
      | true, none =>
          let (value, rest) ← nextValue rest
          .ok (← given.addOption form value, rest)
      | false, some _ => .error .usage
      | false, none => .ok (← given.addOption form "", rest)

/-- Read short options that are written together. What follows the letter of one that takes a
value is its value. -/
def readShort (grammar : Grammar) (given : Given) (rest : List String) :
    List Char → Except EarlyEnd (Given × List String)
  | [] => .ok (given, rest)
  | letter :: letters => do
      match grammar.options.find? fun form => form.short == some letter with
      | none => .error .usage
      | some form =>
          if form.accepts.isSome then
            match letters with
            | [] =>
                let (value, rest) ← nextValue rest
                .ok (← given.addOption form value, rest)
            | '=' :: value => .ok (← given.addOption form (String.ofList value), rest)
            | value => .ok (← given.addOption form (String.ofList value), rest)
          else readShort grammar (← given.addOption form "") rest letters

/-- Read arguments. Those that are left are what comes from the operand on at which the grammar
stops. `steps` bounds the number of arguments. -/
def readArguments (grammar : Grammar) :
    (steps : Nat) → Given → List String → Except EarlyEnd (Given × List String)
  | 0, given, rest => .ok (given, rest)
  | _, given, [] => .ok (given, [])
  | steps + 1, given, argument :: rest => do
      match ArgumentShape.of argument with
      | .separator => .ok (← given.addOperands grammar rest, [])
      | .long name value =>
          let (given, rest) ← readLong grammar given name value rest
          readArguments grammar steps given rest
      | .short letters =>
          let (given, rest) ← readShort grammar given rest letters
          readArguments grammar steps given rest
      | .operand =>
          if grammar.stopsAtOperand then .ok (given, argument :: rest)
          else readArguments grammar steps (← given.addOperand grammar argument) rest

end GameExport.CommandLine
