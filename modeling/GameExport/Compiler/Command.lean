import GameExport.Compiler.Call
import GameExport.FileTree.Operations

/-! # Running the compiler

A compiler takes a call and the files, and either ends, with or without success, or breaks
down, or hangs. Success says nothing about the output: whoever needs it looks for it. The
compiler of the settings is a program; what it prints goes to a log, which is emptied first.
-/

namespace GameExport

inductive CallError
  | log (path : Path) (cause : FileError)
  | start (program : String) (cause : FileError)
  | exited (program : String) (code : Option Nat)
  deriving DecidableEq, Repr

def CallError.message : CallError → String
  | .log path cause => s!"failed to open compiler log {path.text}: {cause.message}"
  | .start program cause => s!"failed to run {program}: {cause.message}"
  | .exited program (some code) => s!"{program} exited with code Some({code})"
  | .exited program none => s!"{program} exited with code None"

inductive CompilerRun
  | ended (files : FileTree) (result : Except CallError Unit)
  | broken (files : FileTree)
  /-- The call never ends by itself; the files are as it has left them so far. -/
  | hangs (files : FileTree)

def CompilerRun.files : CompilerRun → FileTree
  | .ended files _ | .broken files | .hangs files => files

abbrev Compiler := CompilerCall → (log : Path) → FileTree → CompilerRun

structure ProgramRun where
  files : FileTree
  output : Bytes
  /-- The code it ended with; a program that is killed has none. -/
  code : Option Nat
  deriving Repr

abbrev ProgramRunner :=
  (program : String) → (arguments : List String) → FileTree → Except FileError ProgramRun

def ProgramRunner.checked (run : ProgramRunner) : ProgramRunner :=
  fun program arguments files =>
    if (program :: arguments).any (·.toList.contains '\x00') then .error .zeroInCommand
    else run program arguments files

def CompilerSettings.compiler (settings : CompilerSettings) (run : ProgramRunner) : Compiler :=
  fun call log files =>
    match files.writable log with
    | .error cause => .ended files (.error (.log log cause))
    | .ok location =>
        let files := files.put location (.file [])
        match run.checked settings.program (call.arguments settings) files with
        | .error cause => .ended files (.error (.start settings.program cause))
        | .ok ended =>
            let result := match ended.code with
              | some 0 => .ok ()
              | code => .error (.exited settings.program code)
            .ended (ended.files.append location ended.output) result

end GameExport
