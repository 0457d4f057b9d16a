import GameExport.Generation.Statement
import GameExport.Proofs.Json.Decoding
import GameExport.Proofs.Native.Reading
import Mathlib.Data.List.DropRight

/-! # Reading calls

An instruction becomes a call whose arguments are literals. Main statement: whatever texts an
instruction is made of, its call is one line whose literals end at their own quotes, what follows
it is read as if it stood alone, and the instruction can be read back from it.
-/

namespace GameExport.Generation

open Native

/-! ## The tokens of a call -/

def argumentTokens : Argument → List Lexeme
  | .value text => [.literal (literal text)]
  | .file path =>
      [.word "ctx".toList, .symbol ['.'], .word "Resource".toList, .symbol ['('],
        .literal (literal path), .symbol [')']]

def argumentsTokens (arguments : List Argument) : List Lexeme :=
  [Lexeme.symbol [',']].intercalate (arguments.map argumentTokens)

def expressionTokens (instruction : Instruction) : List Lexeme :=
  [.word "ctx".toList, .symbol ['.'], .word "Call".toList, .symbol ['('],
    .literal (literal instruction.name), .symbol [','], .symbol ['\x7b']] ++
    argumentsTokens instruction.arguments ++ [.symbol ['\x7d'], .symbol [')']]

def callTokens (instruction : Instruction) : List Lexeme :=
  expressionTokens instruction ++ [.symbol [';']]

theorem isLine_escape (char : Char) : IsLine (escape char) := by
  unfold escape
  split_ifs with isQuote isBackslash isFeed isReturn isTab
  all_goals try decide
  exact ⟨by simpa using Ne.symm isFeed, by simpa using Ne.symm isReturn⟩

theorem isLine_literal (text : String) : IsLine (literal text) := by
  have escaped : IsLine (text.toList.flatMap escape) := by
    constructor
    · intro member
      rcases List.mem_flatMap.mp member with ⟨char, _, member⟩
      exact (isLine_escape char).1 member
    · intro member
      rcases List.mem_flatMap.mp member with ⟨char, _, member⟩
      exact (isLine_escape char).2 member
  have mark : IsLine ['"'] := by decide
  exact (mark.append escaped).append mark

theorem isLine_argument (one : Argument) : IsLine (argument one) := by
  cases one with
  | value text => exact isLine_literal text
  | file path =>
      have opening : IsLine "ctx.Resource(".toList := by decide
      have closing : IsLine [')'] := by decide
      exact (opening.append (isLine_literal path)).append closing

theorem isLine_commaSeparated {texts : List (List Char)} (lines : ∀ text ∈ texts, IsLine text) :
    IsLine (commaSeparated texts) := by
  fun_induction commaSeparated texts with
  | case1 => decide
  | case2 text => exact lines text (List.mem_singleton_self text)
  | case3 text rest _ induction =>
      have comma : IsLine [',', ' '] := by decide
      have first := lines text List.mem_cons_self
      have later := induction fun other member => lines other (List.mem_cons_of_mem _ member)
      simpa using (first.append comma).append later

theorem isLine_call (instruction : Instruction) : IsLine (call instruction) := by
  have arguments : IsLine (commaSeparated (instruction.arguments.map argument)) := by
    apply isLine_commaSeparated
    simpa using fun one _ => isLine_argument one
  have opening : IsLine "ctx.Call(".toList := by decide
  have between : IsLine ", \x7b".toList := by decide
  have closing : IsLine "\x7d);".toList := by decide
  exact (((opening.append (isLine_literal _)).append between).append arguments).append closing

/-! ## Reading a call -/

theorem read_escape (done : List Char) (char : Char) :
    (Place.quoted done '"' false).read (escape char) =
      ([], .quoted (done ++ escape char) '"' false) := by
  unfold escape
  split_ifs with isQuote isBackslash isFeed isReturn isTab
  all_goals simp_all [Place.read, Place.step]

theorem read_escapes (done text : List Char) :
    (Place.quoted done '"' false).read (text.flatMap escape) =
      ([], .quoted (done ++ text.flatMap escape) '"' false) := by
  induction text generalizing done with
  | nil => simp [Place.read]
  | cons char rest induction =>
      rw [List.flatMap_cons, ← List.append_assoc]
      exact Place.read_append_eq (read_escape done char) (induction _)

theorem read_literal {place : Place} (breaks : place.Breaks '"') (text : String) :
    place.read (literal text) = (place.tokens, .closed (literal text)) := by
  have opens : place.read ['"'] = (place.tokens, .quoted ['"'] '"' false) := by
    rw [Place.read_cons_of_breaks breaks]
    exact Prod.ext (List.append_nil _) rfl
  have closes (done : List Char) :
      (Place.quoted done '"' false).read ['"'] = ([], .closed (done ++ ['"'])) := by
    simp [Place.read, Place.step]
  have reads := Place.read_append_eq opens
    (Place.read_append_eq (read_escapes _ text.toList) (closes _))
  simpa [literal] using reads

/-- A reader is at the end of a token, whatever of the arguments of a call comes next. -/
structure EndsBeforeArguments (place : Place) : Prop where
  value : place.Breaks '"'
  file : place.Breaks 'c'
  nothing : place.Breaks '\x7d'

theorem read_argument {place : Place} (ends : EndsBeforeArguments place) (one : Argument)
    {mark : Char} (isMark : mark = ',' ∨ mark = '\x7d') :
    place.read (argument one ++ [mark]) =
      (place.tokens ++ argumentTokens one, .symbol [mark]) := by
  have detached : (startsWord mark || mark.isDigit) = false := by
    rcases isMark with rfl | rfl <;> decide
  have behind : (Place.symbol [')']).Breaks mark ∧ Place.start mark = .symbol [mark] := by
    rcases isMark with rfl | rfl <;> decide
  have marked (text : List Char) :
      (Place.closed text).read [mark] = ([.literal text], .symbol [mark]) := by
    rw [Place.read_cons_of_breaks (Place.closed_breaks detached), behind.2]
    rfl
  cases one with
  | value text => exact Place.read_append_eq (read_literal ends.value text) (marked _)
  | file path =>
      have opens : place.read "ctx.Resource(".toList = (place.tokens ++
          [.word "ctx".toList, .symbol ['.'], .word "Resource".toList], .symbol ['(']) := by
        have later : (Place.start 'c').read "tx.Resource(".toList =
            ([.word "ctx".toList, .symbol ['.'], .word "Resource".toList], .symbol ['(']) := by
          decide +kernel
        rw [show "ctx.Resource(".toList = 'c' :: "tx.Resource(".toList by decide,
          Place.read_cons_of_breaks ends.file, later]
      have breaks : (Place.symbol ['(']).Breaks '"' := by decide
      have named := read_literal breaks path
      have closes : (Place.closed (literal path)).read [')', mark] =
          ([.literal (literal path), .symbol [')']], .symbol [mark]) := by
        rw [Place.read_cons_of_breaks (Place.closed_breaks (by decide)),
          show Place.start ')' = .symbol [')'] by decide, Place.read_cons_of_breaks behind.1,
          behind.2]
        rfl
      have reads := Place.read_append_eq opens (Place.read_append_eq named closes)
      unfold argument
      simpa [argumentTokens, Place.tokens] using reads

theorem read_arguments {place : Place} (ends : EndsBeforeArguments place)
    (arguments : List Argument) :
    place.read (commaSeparated (arguments.map argument) ++ ['\x7d']) =
      (place.tokens ++ argumentsTokens arguments, .symbol ['\x7d']) := by
  induction arguments generalizing place with
  | nil =>
      rw [List.map_nil, commaSeparated, List.nil_append,
        Place.read_cons_of_breaks ends.nothing]
      rfl
  | cons first rest induction =>
      cases rest with
      | nil =>
          rw [List.map_singleton, commaSeparated, read_argument ends first (.inr rfl)]
          simp [argumentsTokens]
      | cons second rest =>
          have between : EndsBeforeArguments .between := ⟨rfl, rfl, rfl⟩
          have marked := read_argument ends first (.inl rfl)
          have blank : (Place.symbol [',']).read [' '] = ([.symbol [',']], .between) := by decide
          have separated : commaSeparated ((first :: second :: rest).map argument) ++ ['\x7d'] =
              argument first ++ [','] ++ ([' '] ++
                (commaSeparated ((second :: rest).map argument) ++ ['\x7d'])) := by
            simp [commaSeparated]
          have reads := Place.read_append_eq marked
            (Place.read_append_eq blank (induction between))
          rw [separated, reads]
          simp [argumentsTokens, Place.tokens, List.intercalate_cons_of_ne_nil]

theorem read_call (instruction : Instruction) :
    Place.between.read (call instruction) = (expressionTokens instruction, .symbol [';']) := by
  have opens : Place.between.read "ctx.Call(".toList =
      ([.word "ctx".toList, .symbol ['.'], .word "Call".toList], .symbol ['(']) := by
    decide +kernel
  have breaks : (Place.symbol ['(']).Breaks '"' := by decide
  have named := read_literal breaks instruction.name
  have separates (text : List Char) : (Place.closed text).read ", \x7b".toList =
      ([.literal text, .symbol [',']], .symbol ['\x7b']) := by
    have later : (Place.start ',').read " \x7b".toList = ([.symbol [',']], .symbol ['\x7b']) := by
      decide
    rw [show ", \x7b".toList = ',' :: " \x7b".toList by decide,
      Place.read_cons_of_breaks (Place.closed_breaks (by decide)), later]
    rfl
  have opened : EndsBeforeArguments (.symbol ['\x7b']) :=
    ⟨by decide, by decide, by decide⟩
  have given := read_arguments opened instruction.arguments
  have closes : (Place.symbol ['\x7d']).read ");".toList =
      ([.symbol ['\x7d'], .symbol [')']], .symbol [';']) := by decide
  have closing : "\x7d);".toList = ['\x7d'] ++ ");".toList := by decide
  have reads := Place.read_append_eq opens (Place.read_append_eq named
    (Place.read_append_eq (separates _) (Place.read_append_eq given closes)))
  unfold call
  simpa [closing, expressionTokens, Place.tokens] using reads

theorem tokens_call (instruction : Instruction) :
    tokens (call instruction) = callTokens instruction := by
  rw [tokens, (isLine_call instruction).plain_eq, read_call]
  rfl

theorem getLast?_call (instruction : Instruction) : (call instruction).getLast? = some ';' := by
  unfold call
  rw [List.getLast?_append, show "\x7d);".toList.getLast? = some ';' by decide]
  rfl

/-- A reader that is between tokens before the line of a call is so behind it. -/
theorem read_callLine (depth : Nat) (instruction : Instruction) :
    Place.between.read (plain (Placed.text ⟨depth, .perform instruction⟩)) =
      (callTokens instruction, .between) := by
  have blanks := Place.read_blanks (4 * depth)
  have ended : (Place.symbol [';']).read ['\n'] = ([.symbol [';']], .between) := by decide
  have reads := Place.read_append_eq blanks (Place.read_append_eq (read_call instruction) ended)
  have isLine : IsLine (List.replicate (4 * depth) ' ' ++ call instruction) :=
    (isLine_blanks _).append (isLine_call instruction)
  have last : (List.replicate (4 * depth) ' ' ++ call instruction).getLast? ≠ some '\\' := by
    simp [List.getLast?_append, getLast?_call]
  rw [← List.append_assoc, ← isLine.plain_line last] at reads
  exact reads

theorem tokens_callLine (depth : Nat) (instruction : Instruction) (code : List Char) :
    tokens (Placed.text ⟨depth, .perform instruction⟩ ++ code) =
      callTokens instruction ++ tokens code := by
  have told := tokens_append (read_callLine depth instruction) code
  simpa [Placed.text] using told

/-! ## Reading an instruction back -/

def escapes : List (Char × Char) :=
  [('"', '"'), ('\\', '\\'), ('n', '\n'), ('r', '\r'), ('t', '\t')]

def unescape? : List Char → Option (List Char)
  | [] => none
  | ['"'] => some []
  | '\\' :: char :: rest =>
      (escapes.lookup char).bind fun original => (unescape? rest).map (original :: ·)
  | char :: rest => if char = '"' then none else (unescape? rest).map (char :: ·)

def text? : List Char → Option String
  | '"' :: rest => (unescape? rest).map String.ofList
  | _ => none

def argument? : List Lexeme → Option Argument
  | [.literal text] => (text? text).map .value
  | [context, dot, function, opening, .literal path, closing] =>
      if [context, dot, function, opening, closing] = [.word "ctx".toList, .symbol ['.'],
          .word "Resource".toList, .symbol ['('], .symbol [')']] then
        (text? path).map .file
      else none
  | _ => none

def arguments? (tokens : List Lexeme) : Option (List Argument) :=
  if tokens = [] then some [] else (tokens.splitOn (.symbol [','])).mapM argument?

def instruction? : List Lexeme → Option Instruction
  | context :: dot :: function :: opening :: .literal name :: comma :: brace :: rest =>
      let closing := [Lexeme.symbol ['\x7d'], .symbol [')'], .symbol [';']]
      if [context, dot, function, opening, comma, brace] = [.word "ctx".toList, .symbol ['.'],
          .word "Call".toList, .symbol ['('], .symbol [','], .symbol ['\x7b']] ∧
          closing.isSuffixOf rest then do
        return ⟨← text? name, ← arguments? (rest.rdrop closing.length)⟩
      else none
  | _ => none

theorem unescape?_escape (char : Char) (rest : List Char) :
    unescape? (escape char ++ rest) = (unescape? rest).map (char :: ·) := by
  unfold escape
  split_ifs with isQuote isBackslash isFeed isReturn isTab
  · subst isQuote
    have found : escapes.lookup '"' = some '"' := by decide
    simp [unescape?, found]
  · subst isBackslash
    have found : escapes.lookup '\\' = some '\\' := by decide
    simp [unescape?, found]
  · subst isFeed
    have found : escapes.lookup 'n' = some '\n' := by decide
    simp [unescape?, found]
  · subst isReturn
    have found : escapes.lookup 'r' = some '\r' := by decide
    simp [unescape?, found]
  · subst isTab
    have found : escapes.lookup 't' = some '\t' := by decide
    simp [unescape?, found]
  · rw [List.singleton_append, unescape?, if_neg isQuote]
    · simp [isQuote]
    · simp [isBackslash]

theorem unescape?_literal (text : List Char) :
    unescape? (text.flatMap escape ++ ['"']) = some text := by
  induction text with
  | nil => rfl
  | cons char rest induction =>
      rw [List.flatMap_cons, List.append_assoc, unescape?_escape, induction]
      rfl

theorem text?_literal (text : String) : text? (literal text) = some text := by
  simp [literal, text?, unescape?_literal]

theorem argument?_argumentTokens (one : Argument) : argument? (argumentTokens one) = some one := by
  cases one with
  | value text => simp [argumentTokens, argument?, text?_literal]
  | file path => simp [argumentTokens, argument?, text?_literal]

theorem argumentTokens_ne_nil (one : Argument) : argumentTokens one ≠ [] := by
  cases one <;> simp [argumentTokens]

theorem comma_notMem_argumentTokens (one : Argument) : .symbol [','] ∉ argumentTokens one := by
  cases one <;> simp [argumentTokens]

theorem arguments?_argumentsTokens (arguments : List Argument) :
    arguments? (argumentsTokens arguments) = some arguments := by
  cases arguments with
  | nil => rfl
  | cons first rest =>
      have given : argumentsTokens (first :: rest) ≠ [] := by
        cases rest <;> simp [argumentsTokens, argumentTokens_ne_nil]
      have apart : (argumentsTokens (first :: rest)).splitOn (.symbol [',']) =
          (first :: rest).map argumentTokens := by
        apply List.splitOn_intercalate
        · simpa using ⟨comma_notMem_argumentTokens first,
            fun one _ => comma_notMem_argumentTokens one⟩
        · simp
      rw [arguments?, if_neg given, apart]
      exact Json.mapM_map_eq_some fun one _ => argument?_argumentTokens one

theorem instruction?_callTokens (instruction : Instruction) :
    instruction? (callTokens instruction) = some instruction := by
  have inner : (argumentsTokens instruction.arguments ++
      [Lexeme.symbol ['\x7d'], .symbol [')'], .symbol [';']]).rdrop 3 =
      argumentsTokens instruction.arguments := by
    simp [List.rdrop]
  simp [callTokens, expressionTokens, instruction?, text?_literal, inner,
    arguments?_argumentsTokens]

example : instruction? (tokens "ctx.Call(\"a\\\\\", \x7bctx.Resource(\"b\\\"\")\x7d);".toList) =
    some ⟨"a\\", [.file "b\""]⟩ := by decide +kernel

/-! ## Staying in the call -/

def literals (tokens : List Lexeme) : List (List Char) :=
  tokens.filterMap fun
    | .literal text => some text
    | _ => none

def argumentLiteral : Argument → List Char
  | .value text | .file text => literal text

theorem literals_argumentTokens (one : Argument) :
    literals (argumentTokens one) = [argumentLiteral one] := by
  cases one <;> rfl

theorem literals_argumentsTokens (arguments : List Argument) :
    literals (argumentsTokens arguments) = arguments.map argumentLiteral := by
  induction arguments with
  | nil => rfl
  | cons first rest induction =>
      have alone := literals_argumentTokens first
      cases rest with
      | nil => simpa [argumentsTokens] using alone
      | cons second rest =>
          have separated : argumentsTokens (first :: second :: rest) =
              argumentTokens first ++ .symbol [','] :: argumentsTokens (second :: rest) := by
            simp [argumentsTokens, List.intercalate_cons_of_ne_nil]
          simp only [literals] at alone induction ⊢
          rw [separated, List.filterMap_append, List.filterMap_cons_none rfl, alone, induction]
          rfl

/-- The texts of an instruction do not break out of its call, and the call tells them. -/
structure StaysInCall (instruction : Instruction) : Prop where
  isLine : IsLine (call instruction)
  reads : tokens (call instruction) = callTokens instruction
  /-- Each literal ends at its own quote: there is one for the name and one for each argument. -/
  literals : literals (callTokens instruction) =
    literal instruction.name :: instruction.arguments.map argumentLiteral
  /-- What follows the line of the call is read as if it stood alone. -/
  line : ∀ depth code, tokens (Placed.text ⟨depth, .perform instruction⟩ ++ code) =
    callTokens instruction ++ tokens code
  readsBack : instruction? (tokens (call instruction)) = some instruction
  only : ∀ other, call other = call instruction → other = instruction

/-- Every instruction stays in its call, whatever its texts are. -/
theorem staysInCall (instruction : Instruction) : StaysInCall instruction where
  isLine := isLine_call instruction
  reads := tokens_call instruction
  literals := by
    have given := literals_argumentsTokens instruction.arguments
    simp only [literals] at given
    simp [literals, callTokens, expressionTokens, given]
  line := fun depth code => tokens_callLine depth instruction code
  readsBack := by rw [tokens_call, instruction?_callTokens]
  only := by
    intro other same
    have told := congrArg (instruction? <| tokens ·) same
    simpa [tokens_call, instruction?_callTokens] using told

end GameExport.Generation
