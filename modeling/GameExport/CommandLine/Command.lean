import GameExport.CommandLine.Arguments
import GameExport.Path
import GameExport.Target
import GameExport.Text.DurationReader

/-! # Commands

The commands of the tool, each with its options, and how a command line says which one is meant.
Some options may stand before the command or after it; what is given after it counts.
-/

namespace GameExport.CommandLine

inductive CommandName
  | build
  | dependencies
  | decrypt
  | inspect
  | info
  deriving DecidableEq, Repr

namespace CommandName

def all : List CommandName := [.build, .dependencies, .decrypt, .inspect, .info]

def text : CommandName → String
  | .build => "build"
  | .dependencies => "deps"
  | .decrypt => "decrypt"
  | .inspect => "inspect"
  | .info => "info"

def ofText? (text : String) : Option CommandName := all.find? fun name => name.text == text

end CommandName

def isPath (text : String) : Bool := text != ""

def flagForm (name : OptionName) (long : String) : OptionForm := ⟨name, long, none, none, false⟩

def helpForm : OptionForm := ⟨.help, "help", some 'h', none, false⟩

def commonForms : List OptionForm := [
  helpForm,
  ⟨.verbose, "verbose", some 'v', none, true⟩,
  ⟨.settings, "config", none, some isPath, false⟩,
  ⟨.temporary, "temp-dir", none, some isPath, false⟩]

def toolGrammar : Grammar where
  options := commonForms ++ [⟨.version, "version", some 'V', none, false⟩]
  operands := 0
  acceptsOperand := fun _ => true
  stopsAtOperand := true

def ownForms : CommandName → List OptionForm
  | .build => [
      ⟨.output, "out", some 'o', some isPath, false⟩,
      ⟨.target, "target", some 't', some fun text => (Target.ofName? text).isSome, true⟩,
      flagForm .compress "compress",
      flagForm .optimize "optimize",
      ⟨.jobLimit, "job-timeout", none, some fun text => (Duration.read? text).isSome, false⟩,
      flagForm .plain "plain",
      flagForm .asJson "json"]
  | .dependencies => [
      ⟨.scene, "scene", some 's', some fun _ => true, false⟩,
      flagForm .asJson "json"]
  | .decrypt => [⟨.output, "output", some 'o', some isPath, false⟩]
  | .inspect => [flagForm .asJson "json"]
  | .info => []

def commandGrammar (name : CommandName) : Grammar where
  options := commonForms ++ ownForms name
  operands := if name = .info then 0 else 1
  acceptsOperand := isPath
  stopsAtOperand := false

structure BuildArguments where
  project : Path
  output : Path
  /-- No target stands for the default ones. -/
  targets : List Target
  compress : Bool
  optimize : Bool
  jobLimit : Option Duration
  isPlain : Bool
  asJson : Bool
  deriving DecidableEq, Repr

inductive Command
  | build (arguments : BuildArguments)
  | dependencies (project : Path) (scene : Option String) (asJson : Bool)
  | decrypt (input : Path) (output : Option Path)
  | inspect (container : Path) (asJson : Bool)
  | info
  deriving DecidableEq, Repr

structure Invocation where
  settings : Option Path
  temporary : Option Path
  command : Command
  deriving DecidableEq, Repr

def needed {α : Type} : Option α → Except EarlyEnd α
  | some value => .ok value
  | none => .error .usage

def Given.path? (given : Given) (name : OptionName) : Option Path :=
  (given.values name).head?.map Path.mk

def commandOf (name : CommandName) (given : Given) : Except EarlyEnd Command := do
  let operand := needed (given.operands.head?.map Path.mk)
  match name with
  | .build =>
      .ok (.build {
        project := ← operand
        output := ← needed (given.path? .output)
        targets := (given.values .target).filterMap Target.ofName?
        compress := given.has .compress
        optimize := given.has .optimize
        jobLimit := (given.values .jobLimit).head?.bind Duration.read?
        isPlain := given.has .plain
        asJson := given.has .asJson })
  | .dependencies =>
      .ok (.dependencies (← operand) (given.values .scene).head? (given.has .asJson))
  | .decrypt => .ok (.decrypt (← operand) (given.path? .output))
  | .inspect => .ok (.inspect (← operand) (given.has .asJson))
  | .info => .ok .info

def helpText : String := "help"

/-- How a command line ends that asks for help: only on one command, if it exists. -/
def helpEnd : List String → EarlyEnd
  | [] => .help
  | [name] => if name = helpText ∨ (CommandName.ofText? name).isSome then .help else .usage
  | _ => .usage

def read (arguments : List String) : Except EarlyEnd Invocation := do
  let steps := arguments.length.succ
  match ← readArguments toolGrammar steps .nothing arguments with
  | (_, []) => .error .usage
  | (before, word :: rest) =>
      if word = helpText then .error (helpEnd rest)
      else
        let name ← needed (CommandName.ofText? word)
        let (after, _) ← readArguments (commandGrammar name) steps .nothing rest
        let path? (option : OptionName) := (after.path? option).or (before.path? option)
        .ok ⟨path? .settings, path? .temporary, ← commandOf name after⟩

end GameExport.CommandLine
