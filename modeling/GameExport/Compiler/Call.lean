import GameExport.Settings.Basic

/-! # Compiler calls

What the compiler is asked to do, and the arguments that say so: compile one source into an
object, or link objects into a shared library.
-/

namespace GameExport

inductive JobKind
  | compile
  | link
  deriving DecidableEq, Repr

structure CompilerCall where
  kind : JobKind
  /-- The source to compile, or an object to link. -/
  input : Option Path
  output : Path
  optimize : Bool
  forRuntime : Bool
  generated : Bool
  objects : List Path
  libraries : List String
  libraryDirectories : List Path
  deriving DecidableEq, Repr

namespace CompilerCall

def compile (input output : Path) : CompilerCall where
  kind := .compile
  input := some input
  output := output
  optimize := false
  forRuntime := true
  generated := false
  objects := []
  libraries := []
  libraryDirectories := []

def link (output : Path) : CompilerCall :=
  { compile ⟨""⟩ output with kind := .link, input := none }

def option (wanted : Bool) (argument : String) : List String := if wanted then [argument] else []

def arguments (call : CompilerCall) (settings : CompilerSettings) : List String :=
  let input := call.input.toList.map Path.text
  match call.kind with
  | .compile =>
      settings.compileFlags ++
        settings.includeDirectories.map (fun directory => "-I" ++ directory.text) ++
        option call.forRuntime "-DGD_RUNTIME" ++
        -- Warnings in generated code are nothing that a user could act on.
        option call.generated "-w" ++
        option call.optimize "-O2" ++
        ["-c"] ++ input ++ ["-o", call.output.text]
  | .link =>
      ["-shared"] ++ option call.optimize "-s" ++ ["-o", call.output.text] ++ input ++
        call.objects.map Path.text ++
        call.libraryDirectories.map (fun directory => "-L" ++ directory.text) ++
        call.libraries.map ("-l" ++ ·) ++ settings.linkFlags

end CompilerCall

end GameExport
