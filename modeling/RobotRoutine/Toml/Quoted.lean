import RobotRoutine.Number.Integer

/-!
Quoted strings in settings files.

A string stands between double quotes, with escapes, or between single quotes, without; three
quotes at each end let it run over several lines, whose ends are read as they are written.  Writing
takes the first of these forms that shows the text as it is, tabulators apart, and escapes what it
must where none does.
-/

namespace RobotRoutine.Toml

def doubleQuote : Char := Char.ofNat 0x22

def singleQuote : Char := Char.ofNat 0x27

def backslash : Char := Char.ofNat 0x5C

/-- True of characters that may stand for themselves within a line. -/
def isPlain (c : Char) : Bool := c == '\t' || (0x20 ≤ c.toNat && c.toNat != 0x7F)

/-! Reading. -/

def letterEscape? (c : Char) : Option Char :=
  if c == 'b' then some (Char.ofNat 0x08)
  else if c == 't' then some '\t'
  else if c == 'n' then some '\n'
  else if c == 'f' then some (Char.ofNat 0x0C)
  else if c == 'r' then some '\r'
  else if c == 'e' then some (Char.ofNat 0x1B)
  else if c == doubleQuote || c == backslash then some c
  else none

/-- The number of hexadecimal digits that follow the letter of an escape. -/
def escapeWidth? (c : Char) : Option Nat :=
  if c == 'x' then some 2
  else if c == 'u' then some 4
  else if c == 'U' then some 8
  else none

def hexValue? (c : Char) : Option Nat :=
  if c.isDigit then some (c.toNat - 48)
  else if 'a' ≤ c && c ≤ 'f' then some (c.toNat - 87)
  else if 'A' ≤ c && c ≤ 'F' then some (c.toNat - 55)
  else none

def character? (n : Nat) : Option Char :=
  if n.isValidChar then some (Char.ofNat n) else none

def before (c : Char) (read : Option (List Char × List Char)) : Option (List Char × List Char) :=
  read.map fun (content, rest) => (c :: content, rest)

/-- What the reader of a string with escapes is in the middle of. -/
inductive EscapeState where
  | plain
  /-- Just behind a backslash. -/
  | escape
  /-- Within the digits of an escape, of which so many are still to come. -/
  | digits (left value : Nat)
  deriving DecidableEq, Repr

/-- Reads a string with escapes on one line, up to its closing quote. -/
def readBasic : EscapeState → List Char → Option (List Char × List Char)
  | _, [] => none
  | .plain, c :: rest =>
      if c == doubleQuote then some ([], rest)
      else if c == backslash then readBasic .escape rest
      else if isPlain c then before c (readBasic .plain rest)
      else none
  | .escape, c :: rest =>
      match letterEscape? c, escapeWidth? c with
      | some meant, _ => before meant (readBasic .plain rest)
      | none, some width => readBasic (.digits width 0) rest
      | none, none => none
  | .digits left value, c :: rest =>
      match hexValue? c with
      | none => none
      | some digit =>
          let value := value * 16 + digit
          if left = 1 then
            match character? value with
            | some meant => before meant (readBasic .plain rest)
            | none => none
          else readBasic (.digits (left - 1) value) rest

/-- Reads a string without escapes on one line, up to its closing quote. -/
def readLiteral : List Char → Option (List Char × List Char)
  | [] => none
  | c :: rest =>
      if c == singleQuote then some ([], rest)
      else if isPlain c then before c (readLiteral rest)
      else none

def dropLineEnd : List Char → List Char
  | '\n' :: rest => rest
  | '\r' :: '\n' :: rest => rest
  | cs => cs

/-- What follows three closing quotes: up to two more belong to the content. -/
def afterClosing (quote : Char) : List Char → List Char × List Char
  | a :: b :: rest =>
      if a == quote && b == quote then ([quote, quote], rest)
      else if a == quote then ([quote], b :: rest)
      else ([], a :: b :: rest)
  | [a] => if a == quote then ([quote], []) else ([], [a])
  | [] => ([], [])

def startsClosing (quote : Char) : List Char → Bool
  | a :: b :: c :: _ => a == quote && b == quote && c == quote
  | _ => false

def startsLineEnd : List Char → Bool
  | ' ' :: rest => startsLineEnd rest
  | '\t' :: rest => startsLineEnd rest
  | '\n' :: _ => true
  | '\r' :: '\n' :: _ => true
  | _ => false

/-- What the reader of a string over several lines is in the middle of. -/
inductive LineState where
  /-- Between characters.  After a backslash at the end of a line, blanks and line ends are
  skipped. -/
  | between (skipping : Bool)
  | escape
  | digits (left value : Nat)
  deriving DecidableEq, Repr

/-- Reads a string with escapes over several lines, up to its closing quotes. -/
def readLines : LineState → List Char → Option (List Char × List Char)
  | _, [] => none
  | .between skipping, c :: rest =>
      if startsClosing doubleQuote (c :: rest) then
        some (afterClosing doubleQuote (rest.drop 2))
      else if skipping && (c == ' ' || c == '\t' || c == '\n') then readLines (.between true) rest
      else if c == '\r' then
        if rest.head? != some '\n' then none
        else if skipping then readLines (.between true) rest
        else before c (readLines (.between false) rest)
      else if c == backslash then
        if startsLineEnd rest then readLines (.between true) rest else readLines .escape rest
      else if isPlain c || c == '\n' then before c (readLines (.between false) rest)
      else none
  | .escape, c :: rest =>
      match letterEscape? c, escapeWidth? c with
      | some meant, _ => before meant (readLines (.between false) rest)
      | none, some width => readLines (.digits width 0) rest
      | none, none => none
  | .digits left value, c :: rest =>
      match hexValue? c with
      | none => none
      | some digit =>
          let value := value * 16 + digit
          if left = 1 then
            match character? value with
            | some meant => before meant (readLines (.between false) rest)
            | none => none
          else readLines (.digits (left - 1) value) rest

/-- Reads a string without escapes over several lines, up to its closing quotes. -/
def readLiteralLines : List Char → Option (List Char × List Char)
  | [] => none
  | c :: rest =>
      if startsClosing singleQuote (c :: rest) then
        some (afterClosing singleQuote (rest.drop 2))
      else if c == '\r' then
        if rest.head? = some '\n' then before c (readLiteralLines rest) else none
      else if isPlain c || c == '\n' then before c (readLiteralLines rest)
      else none

def readQuoted (cs : List Char) : Option (String × List Char) :=
  let content :=
    if startsClosing doubleQuote cs then readLines (.between false) (dropLineEnd (cs.drop 3))
    else if startsClosing singleQuote cs then readLiteralLines (dropLineEnd (cs.drop 3))
    else
      match cs with
      | [] => none
      | c :: rest =>
          if c == doubleQuote then readBasic .plain rest
          else if c == singleQuote then readLiteral rest
          else none
  content.map fun (content, rest) => (String.ofList content, rest)

/-! Writing. -/

/-- True of control characters that can only be written by an escape. -/
def needsEscape (c : Char) : Bool := !isPlain c && c != '\n'

/-- The longest run of a character, where `run` of them have just been seen. -/
def longestRun (quote : Char) (run : Nat) : List Char → Nat
  | [] => run
  | c :: rest =>
      if c == quote then longestRun quote (run + 1) rest
      else max run (longestRun quote 0 rest)

def hexCapital (n : Nat) : Char := (Nat.digitChar n).toUpper

/-- A character between double quotes, on one line or, if `lines` holds, over several. -/
def escapeCharacter (lines : Bool) (c : Char) : List Char :=
  if c == '\n' then if lines then ['\n'] else [backslash, 'n']
  else if c == '\t' then [backslash, 't']
  else if c == '\r' then [backslash, 'r']
  else if c == Char.ofNat 0x08 then [backslash, 'b']
  else if c == Char.ofNat 0x0C then [backslash, 'f']
  else if c == backslash then [backslash, backslash]
  else if isPlain c then [c]
  else [backslash, 'u', '0', '0', hexCapital (c.toNat / 16), hexCapital (c.toNat % 16)]

/-- The number of double quotes that may stand together in a string. -/
def quotesTogether (lines : Bool) : Nat := if lines then 2 else 0

/-- A text between double quotes, where `run` of them have just been written.  As many as may stand
together stand as they are, the next one is escaped. -/
def escapeText (lines : Bool) (run : Nat) : List Char → List Char
  | [] => []
  | c :: rest =>
      if c == doubleQuote then
        if run < quotesTogether lines then c :: escapeText lines (run + 1) rest
        else backslash :: c :: escapeText lines 0 rest
      else escapeCharacter lines c ++ escapeText lines 0 rest

/-- Three quotes, with a line end behind them if the content has one. -/
def openLines (quote : Char) (content : List Char) : List Char :=
  [quote, quote, quote] ++ (if content.contains '\n' then ['\n'] else [])

def quoteBasic (content : List Char) : List Char :=
  [doubleQuote] ++ escapeText false 0 content ++ [doubleQuote]

def quoteLines (content : List Char) : List Char :=
  openLines doubleQuote content ++ escapeText true 0 content ++
    [doubleQuote, doubleQuote, doubleQuote]

/-- A text in the first form that shows it as it is, or with escapes. -/
def quoteChars (content : List Char) : List Char :=
  let coded := content.any needsEscape
  let slashed := content.contains backslash
  let lines := content.contains '\n'
  let doubles := longestRun doubleQuote 0 content
  let singles := longestRun singleQuote 0 content
  if !coded && !slashed && doubles == 0 && !lines then quoteBasic content
  else if !coded && singles == 0 && !lines then [singleQuote] ++ content ++ [singleQuote]
  else if !coded && !slashed && doubles ≤ 2 then quoteLines content
  else if !coded && singles ≤ 2 then
    openLines singleQuote content ++ content ++ [singleQuote, singleQuote, singleQuote]
  else if lines then quoteLines content
  else quoteBasic content

def quote (text : String) : String := String.ofList (quoteChars text.toList)

end RobotRoutine.Toml
