import Mathlib.Data.List.Basic

/-! # Reading native code

Native code is read in the phases of its language: line ends are told, a line that ends in a
backslash is joined with the next one, then characters become tokens and comments are left out.
Left out are digraphs, the effect of directives, and that lines of a raw literal stay apart. Main
statements: code is read line by line, and a comment to the end of its line is read as nothing.
-/

namespace GameExport.Native

/-! ## Lines -/

def lineEnds : List Char → List Char
  | [] => []
  | char :: rest =>
      if char ≠ '\r' then char :: lineEnds rest
      else if rest.head? = some '\n' then lineEnds rest
      else '\n' :: lineEnds rest

def splice : List Char → List Char
  | [] => []
  | '\\' :: '\n' :: rest => splice rest
  | char :: rest => char :: splice rest

def plain (text : List Char) : List Char := splice (lineEnds text)

theorem lineEnds_append (front back : List Char) :
    lineEnds (front ++ '\n' :: back) = lineEnds (front ++ ['\n']) ++ lineEnds back := by
  induction front with
  | nil => rfl
  | cons char rest induction =>
      have next : (rest ++ '\n' :: back).head? = (rest ++ ['\n']).head? := by
        cases rest with
        | nil => rfl
        | cons => rfl
      simp only [List.cons_append, lineEnds, next, induction]
      split_ifs <;> rfl

theorem lineEnds_eq_self {text : List Char} (noReturn : '\r' ∉ text) : lineEnds text = text := by
  induction text with
  | nil => rfl
  | cons char rest induction =>
      rw [List.mem_cons, not_or] at noReturn
      rw [lineEnds, if_pos (Ne.symm noReturn.1), induction noReturn.2]

theorem splice_cons {char : Char} {rest : List Char}
    (unpaired : char ≠ '\\' ∨ rest.head? ≠ some '\n') :
    splice (char :: rest) = char :: splice rest := by
  rw [splice]
  rintro other rfl rfl
  simp at unpaired

theorem splice_append (front back : List Char) :
    splice (front ++ '\n' :: back) = splice (front ++ ['\n']) ++ splice back := by
  fun_induction splice front with
  | case1 => rfl
  | case2 rest induction => exact induction
  | case3 char rest notPair induction =>
      cases rest with
      | nil =>
          -- The line feed may be taken away by the last character before it.
          by_cases isBackslash : char = '\\'
          · subst isBackslash
            rfl
          · simp [splice_cons, isBackslash, splice]
      | cons next rest =>
          have unpaired : char ≠ '\\' ∨ next ≠ '\n' := by
            refine or_iff_not_imp_left.mpr fun isBackslash isFeed => ?_
            exact notPair rest (not_not.mp isBackslash) (isFeed ▸ rfl)
          have step (after : List Char) :
              splice (char :: next :: after) = char :: splice (next :: after) := by
            apply splice_cons
            simpa using unpaired
          simp only [List.cons_append, step] at induction ⊢
          rw [induction]

theorem splice_eq_self {text : List Char} (oneLine : '\n' ∉ text) : splice text = text := by
  induction text with
  | nil => rfl
  | cons char rest induction =>
      have unpaired : char ≠ '\\' ∨ rest.head? ≠ some '\n' :=
        .inr fun first => oneLine (List.mem_cons_of_mem _ (List.mem_of_mem_head? first))
      rw [splice_cons unpaired, induction (fun member => oneLine (List.mem_cons_of_mem _ member))]

theorem splice_line {line : List Char} (oneLine : '\n' ∉ line)
    (ended : line.getLast? ≠ some '\\') : splice (line ++ ['\n']) = line ++ ['\n'] := by
  induction line with
  | nil => rfl
  | cons char rest induction =>
      rw [List.mem_cons, not_or] at oneLine
      cases rest with
      | nil =>
          have unpaired : char ≠ '\\' := by simpa using ended
          rw [List.cons_append, splice_cons (.inl unpaired)]
          rfl
      | cons next rest =>
          have unpaired : next ≠ '\n' := fun isFeed => oneLine.2 (isFeed ▸ List.mem_cons_self)
          rw [List.cons_append, splice_cons (.inr (by simpa using unpaired)),
            induction oneLine.2 (by simpa using ended)]

theorem plain_append (front back : List Char) :
    plain (front ++ '\n' :: back) = plain (front ++ ['\n']) ++ plain back := by
  have feeds : ∃ before, lineEnds (front ++ ['\n']) = before ++ ['\n'] := by
    induction front with
    | nil => exact ⟨[], rfl⟩
    | cons char rest induction =>
        rcases induction with ⟨before, same⟩
        rw [List.cons_append, lineEnds, same]
        split_ifs
        · exact ⟨char :: before, rfl⟩
        · exact ⟨before, rfl⟩
        · exact ⟨'\n' :: before, rfl⟩
  rcases feeds with ⟨before, same⟩
  rw [plain, lineEnds_append, same, List.append_assoc, List.singleton_append, splice_append,
    plain, same, plain]

def IsLine (text : List Char) : Prop := '\n' ∉ text ∧ '\r' ∉ text

instance (text : List Char) : Decidable (IsLine text) := inferInstanceAs (Decidable (_ ∧ _))

theorem isLine_blanks (count : Nat) : IsLine (List.replicate count ' ') := by
  constructor <;> simp [List.mem_replicate]

theorem IsLine.append {front back : List Char} (isLine : IsLine front) (isLineToo : IsLine back) :
    IsLine (front ++ back) := by
  constructor
  · simp [isLine.1, isLineToo.1]
  · simp [isLine.2, isLineToo.2]

theorem IsLine.plain_eq {text : List Char} (isLine : IsLine text) : plain text = text := by
  rw [plain, lineEnds_eq_self isLine.2, splice_eq_self isLine.1]

theorem IsLine.plain_line {line : List Char} (isLine : IsLine line)
    (ended : line.getLast? ≠ some '\\') : plain (line ++ ['\n']) = line ++ ['\n'] := by
  have noReturn : '\r' ∉ line ++ ['\n'] := by simp [isLine.2]
  rw [plain, lineEnds_eq_self noReturn, splice_line isLine.1 ended]

/-! ## Tokens -/

/-- A token, as it is spelled. -/
inductive Lexeme
  | word (text : List Char)
  | number (text : List Char)
  | literal (text : List Char)
  | symbol (text : List Char)
  deriving DecidableEq, Repr

inductive Place
  | between
  | word (text : List Char)
  | number (text : List Char)
  | symbol (text : List Char)
  | quoted (text : List Char) (mark : Char) (escaped : Bool)
  /-- Behind the closing quote, where letters may be attached. -/
  | closed (text : List Char)
  /-- Behind the opening quote of a raw literal, in the word that its end repeats. -/
  | rawWord (text key : List Char)
  | raw (text ending : List Char)
  | lineComment
  | blockComment (starred : Bool)
  deriving DecidableEq, Repr

def isBlank (char : Char) : Bool := [' ', '\t', '\n', '\x0b', '\x0c'].contains char

def startsWord (char : Char) : Bool := char.isAlpha || char = '_' || 0x80 ≤ char.toNat

def isQuote (char : Char) : Bool := char = '"' || char = '\x27'

def operators : List (List Char) :=
  ["::", "->", "->*", ".*", "..", "...", "++", "--", "+=", "-=", "*=", "/=", "%=", "^=", "&=",
    "|=", "<<", ">>", "<<=", ">>=", "==", "!=", "<=", ">=", "<=>", "&&", "||", "##"].map
    String.toList

def encodings : List (List Char) := ["u8", "u", "U", "L"].map String.toList

def rawEncodings : List (List Char) := ["R", "u8R", "uR", "UR", "LR"].map String.toList

namespace Place

def start (char : Char) : Place :=
  if isBlank char then .between
  else if startsWord char then .word [char]
  else if char.isDigit then .number [char]
  else if isQuote char then .quoted [char] char false
  else .symbol [char]

def tokens : Place → List Lexeme
  | .between | .lineComment | .blockComment _ => []
  | .word text => [.word text]
  | .number text => [.number text]
  | .symbol text => [.symbol text]
  | .quoted text _ _ | .closed text | .raw text _ => [.literal text]
  | .rawWord text key => [.literal (text ++ key)]

def step (place : Place) (char : Char) : List Lexeme × Place :=
  let next := (place.tokens, start char)
  match place with
  | .between => next
  | .word text =>
      if startsWord char || char.isDigit then ([], .word (text ++ [char]))
      else if char = '"' ∧ text ∈ rawEncodings then ([], .rawWord (text ++ [char]) [])
      else if isQuote char ∧ text ∈ encodings then ([], .quoted (text ++ [char]) char false)
      else next
  | .number text =>
      let signed := (char = '+' || char = '-') && ['e', 'E', 'p', 'P'].any (text.getLast? == some ·)
      if startsWord char || char.isDigit || char = '.' || char = '\x27' || signed then
        ([], .number (text ++ [char]))
      else next
  | .symbol text =>
      if text ++ [char] ∈ operators then ([], .symbol (text ++ [char]))
      else if text = ['.'] ∧ char.isDigit then ([], .number (text ++ [char]))
      else if text = ['/'] ∧ char = '/' then ([], .lineComment)
      else if text = ['/'] ∧ char = '*' then ([], .blockComment false)
      else next
  | .quoted text mark escaped =>
      -- What is not closed ends with its line.
      if char = '\n' then next
      else if escaped then ([], .quoted (text ++ [char]) mark false)
      else if char = mark then ([], .closed (text ++ [char]))
      else ([], .quoted (text ++ [char]) mark (char = '\\'))
  | .closed text =>
      if startsWord char || char.isDigit then ([], .closed (text ++ [char])) else next
  | .rawWord text key =>
      if char = '(' then ([], .raw (text ++ key ++ [char]) (')' :: key ++ ['"']))
      else ([], .rawWord text (key ++ [char]))
  | .raw text ending =>
      if ending.isSuffixOf (text ++ [char]) then ([], .closed (text ++ [char]))
      else ([], .raw (text ++ [char]) ending)
  | .lineComment => ([], if char = '\n' then .between else .lineComment)
  | .blockComment starred =>
      ([], if starred ∧ char = '/' then .between else .blockComment (char = '*'))

def Breaks (place : Place) (char : Char) : Prop := place.step char = (place.tokens, start char)

instance (place : Place) (char : Char) : Decidable (place.Breaks char) :=
  inferInstanceAs (Decidable (_ = _))

def read (place : Place) : List Char → List Lexeme × Place
  | [] => ([], place)
  | char :: rest =>
      let (ended, next) := place.step char
      let (later, last) := next.read rest
      (ended ++ later, last)

end Place

def tokens (code : List Char) : List Lexeme :=
  let (ended, last) := Place.between.read (plain code)
  ended ++ last.tokens

namespace Place

theorem read_append (place : Place) (front back : List Char) :
    place.read (front ++ back) = ((place.read front).1 ++ ((place.read front).2.read back).1,
      ((place.read front).2.read back).2) := by
  induction front generalizing place with
  | nil => rfl
  | cons char rest induction =>
      simp only [List.cons_append, read, induction, List.append_assoc]

theorem read_cons_of_breaks {place : Place} {char : Char} (breaks : place.Breaks char)
    (rest : List Char) :
    place.read (char :: rest) =
      (place.tokens ++ ((start char).read rest).1, ((start char).read rest).2) := by
  rw [read, breaks]

theorem closed_breaks {text : List Char} {char : Char}
    (detached : (startsWord char || char.isDigit) = false) : (closed text).Breaks char := by
  simp only [Breaks, step, detached, Bool.false_eq_true, if_false]

/-- What ends in two texts, read one after the other. -/
theorem read_append_eq {place middle last : Place} {front back : List Char}
    {ended later : List Lexeme} (first : place.read front = (ended, middle))
    (second : middle.read back = (later, last)) :
    place.read (front ++ back) = (ended ++ later, last) := by
  rw [read_append, first, second]

theorem read_blanks (count : Nat) :
    between.read (List.replicate count ' ') = ([], between) := by
  induction count with
  | zero => rfl
  | succ count induction =>
      rw [List.replicate_succ]
      exact induction

theorem read_lineComment {text : List Char} (oneLine : '\n' ∉ text) :
    lineComment.read text = ([], lineComment) := by
  induction text with
  | nil => rfl
  | cons char rest induction =>
      rw [List.mem_cons, not_or] at oneLine
      simp [read, step, Ne.symm oneLine.1, induction oneLine.2]

theorem read_comment {text : List Char} (isLine : IsLine text)
    (ended : text.getLast? ≠ some '\\') (depth : Nat) :
    between.read (plain (List.replicate depth ' ' ++ ('/' :: '/' :: text) ++ ['\n'])) =
      ([], between) := by
  have whole : IsLine (List.replicate depth ' ' ++ ('/' :: '/' :: text)) := by
    have marks : IsLine ['/', '/'] := by decide
    exact (isLine_blanks depth).append (marks.append isLine)
  have endedToo : (List.replicate depth ' ' ++ ('/' :: '/' :: text)).getLast? ≠ some '\\' := by
    cases text with
    | nil => simp
    | cons char rest => simpa using ended
  rw [whole.plain_line endedToo, List.append_assoc]
  have opens : between.read ['/', '/'] = ([], lineComment) := rfl
  have closes : lineComment.read ['\n'] = ([], between) := rfl
  have reads : between.read ('/' :: '/' :: text ++ ['\n']) = ([], between) := by
    exact read_append_eq opens (read_append_eq (read_lineComment isLine.1) closes)
  exact read_append_eq (read_blanks depth) reads

/-! ## Bare text -/

end Place

def isBare (char : Char) : Bool :=
  !(isQuote char || char = '/' || char = '\\' || char = '\n' || char = '\r')

namespace Place

/-- Outside of comments and literals, and not behind what may open one. -/
def IsBare : Place → Prop
  | .between | .word _ | .number _ => True
  | .symbol text => text ≠ ['/']
  | _ => False

theorem isBare_start {char : Char} (bare : isBare char = true) : (start char).IsBare := by
  unfold start
  simp [isBare] at bare
  split_ifs with isBlank isWord isDigit quote
  · trivial
  · trivial
  · trivial
  · simp [bare] at quote
  · simp [IsBare, bare]

theorem isBare_step {place : Place} (isBarePlace : place.IsBare) {char : Char}
    (bare : isBare char = true) : (place.step char).2.IsBare := by
  have starts := isBare_start bare
  simp only [isBare, Bool.not_eq_true', Bool.or_eq_false_iff, decide_eq_false_iff_not] at bare
  cases place with
  | between => exact starts
  | word text =>
      simp only [step]
      split_ifs with stays raw quoted
      · trivial
      · simp [isQuote, raw.1] at bare
      · simp [quoted.1] at bare
      · exact starts
  | number text =>
      simp only [step]
      split_ifs
      · trivial
      · exact starts
  | symbol text =>
      simp only [step]
      split_ifs with longer number line block
      · intro same
        have isSlash := congrArg List.getLast? same
        simp [bare] at isSlash
      · trivial
      · exact absurd line.1 isBarePlace
      · exact absurd block.1 isBarePlace
      · exact starts
  | _ => cases isBarePlace

theorem step_newline {place : Place} (isBarePlace : place.IsBare) :
    (place.step '\n').2 = .between := by
  have notOperator : ∀ operator ∈ operators, operator.getLast? ≠ some '\n' := by decide
  cases place with
  | between => rfl
  | word text => rfl
  | number text => rfl
  | symbol text =>
      have shorter : text ++ ['\n'] ∉ operators := by
        intro member
        simpa using notOperator _ member
      have slash : text ≠ ['/'] := isBarePlace
      simp only [step, shorter, slash, false_and, if_false]
      split_ifs with number
      · simp at number
      · rfl
  | _ => cases isBarePlace

theorem isBare_read {place : Place} (isBarePlace : place.IsBare) {text : List Char}
    (bare : ∀ char ∈ text, isBare char = true) : (place.read text).2.IsBare := by
  induction text generalizing place with
  | nil => exact isBarePlace
  | cons char rest induction =>
      exact induction (isBare_step isBarePlace (bare char List.mem_cons_self))
        fun other member => bare other (List.mem_cons_of_mem _ member)

/-- A line that ends in bare text, read from outside of comments and literals, is left between
tokens. -/
theorem read_bareEnd {front back : List Char} (isLine : IsLine front)
    (ended : front.getLast? ≠ some '\\') (reads : (between.read front).2.IsBare)
    (bare : ∀ char ∈ back, isBare char = true) :
    (between.read (plain (front ++ back ++ ['\n']))).2 = between := by
  have isLineToo : IsLine back := by
    constructor
    · intro member
      simpa [isBare] using bare _ member
    · intro member
      simpa [isBare] using bare _ member
  have endedToo : (front ++ back).getLast? ≠ some '\\' := by
    intro last
    rw [List.getLast?_append, Option.or_eq_some_iff] at last
    rcases last with last | ⟨_, last⟩
    · simpa [isBare] using bare _ (List.mem_of_getLast? last)
    · exact ended last
  rw [(isLine.append isLineToo).plain_line endedToo, read_append, read_append]
  exact step_newline (isBare_read reads bare)

theorem read_bareLine {line : List Char} (bare : ∀ char ∈ line, isBare char = true) :
    (between.read (plain (line ++ ['\n']))).2 = between := by
  have empty : IsLine [] := by decide
  exact read_bareEnd empty (by decide) trivial bare

end Place

theorem tokens_append {line : List Char} {ended : List Lexeme}
    (reads : Place.between.read (plain (line ++ ['\n'])) = (ended, .between)) (code : List Char) :
    tokens (line ++ '\n' :: code) = ended ++ tokens code := by
  simp only [tokens]
  rw [plain_append, Place.read_append, reads, List.append_assoc]

example : tokens "x+=R\"(\")\"; // \\\nx\nf(1e+2,\"//\")/**/".toList =
    [.word ['x'], .symbol ['+', '='], .literal "R\"(\")\"".toList, .symbol [';'], .word ['f'],
      .symbol ['('], .number "1e+2".toList, .symbol [','], .literal "\"//\"".toList,
      .symbol [')']] := by decide

end GameExport.Native
