import DeskCalculator.Text.Digit

/-!
# Command line options

An option has a letter and a word.  The word may be shortened as long as it stays distinct.  A value
may be attached to an option, to its letter directly or after an equals sign, to its word after an
equals sign only; what is attached to the letter of an option without a value is the letters of
further options.  A value may also follow: `-e` takes everything that follows, `-p` at most one
argument that is no option.
`Options.read` gives the options of a list of arguments, or the reason why there is nothing to run.
-/

namespace DeskCalculator

/-- The options. -/
inductive Flag where
  | help
  | verbose
  | expression
  | prompt
  | rawGrammar
  | dump
  deriving DecidableEq, Repr

namespace Flag

/-- All options. -/
def all : List Flag :=
  [help, verbose, expression, prompt, rawGrammar, dump]

/-- The letter of an option. -/
def letter : Flag → Char
  | help => 'h'
  | verbose => 'v'
  | expression => 'e'
  | prompt => 'p'
  | rawGrammar => 'G'
  | dump => 'D'

/-- The word of an option. -/
def word : Flag → Text
  | help => ['h', 'e', 'l', 'p']
  | verbose => ['v', 'e', 'r', 'b', 'o', 's', 'e']
  | expression => ['e', 'x', 'p', 'r', 'e', 's', 's', 'i', 'o', 'n']
  | prompt => ['p', 'r', 'o', 'm', 'p', 't']
  | rawGrammar => ['r', 'a', 'w', '-', 'g', 'r', 'a', 'm', 'm', 'a', 'r']
  | dump => ['d', 'u', 'm', 'p']

/-- Whether an option has a value. -/
def takesValue : Flag → Bool
  | expression | prompt => true
  | _ => false

/-- The option of a letter. -/
def ofLetter? (c : Char) : Option Flag :=
  all.find? fun flag => flag.letter == c

/-- The options whose words begin like this. -/
def abbreviatedBy (start : Text) : List Flag :=
  all.filter fun flag => start.isPrefixOf flag.word

end Flag

/-- What is attached to an option in its own argument. -/
inductive Attachment where
  | nothing
  | toLetter (attached : Text)
  | toWord (attached : Text)
  deriving DecidableEq, Repr

/-- How an argument reads on its own. -/
inductive Argument where
  /-- No option. -/
  | plain
  | option (flag : Flag) (attachment : Attachment)
  /-- Looks like an option and is none. -/
  | unknown
  /-- Could be short for several options. -/
  | ambiguous
  deriving DecidableEq, Repr

namespace Argument

/-- What is before the first equals sign and, if there is one, what is after it. -/
def splitAssignment (text : Text) : Text × Option Text :=
  match text.dropWhile (· != '=') with
  | [] => (text, none)
  | _ :: value => (text.takeWhile (· != '='), some value)

/-- Whether a text after a hyphen makes a negative number: digits, or a point with digits after it.
A line feed at the end does not count. -/
def isMagnitude (text : Text) : Bool :=
  let text := if text.getLast? = some '\n' then text.dropLast else text
  match text.dropWhile isDecimalDigit with
  | [] => !text.isEmpty
  | point :: decimals => point == '.' && !decimals.isEmpty && decimals.all isDecimalDigit

/-- An argument that begins with a hyphen and is not read as an option: a negative number, or a text
with a space. -/
def orUnknown (argument : Text) : Argument :=
  if isMagnitude (argument.drop 1) || argument.contains ' ' then plain else unknown

/-- How an argument after two hyphens reads: as a word, which may be shortened, and what is attached
to it. -/
def ofWord (argument word : Text) : Argument :=
  let (start, value) := splitAssignment word
  let attachment := value.elim .nothing .toWord
  match Flag.abbreviatedBy start with
  | [] => orUnknown argument
  | [flag] => .option flag attachment
  | _ => .ambiguous

/-- How an argument after one hyphen reads: as a letter and what is attached to it.  An equals sign
directly after this letter is left out. -/
def ofLetter (argument : Text) (letter : Char) (attached : Text) : Argument :=
  match Flag.ofLetter? letter with
  | none => orUnknown argument
  | some flag =>
    match attached with
    | [] => .option flag .nothing
    | '=' :: value => .option flag (.toLetter value)
    | _ => .option flag (.toLetter attached)

/-- How an argument reads. -/
def ofText (argument : Text) : Argument :=
  match argument with
  | '-' :: '-' :: word => ofWord argument word
  | '-' :: letter :: attached => ofLetter argument letter attached
  | _ => plain

end Argument

namespace Flag

/-- An option with a value attached to it; nothing if it has no values. -/
def withValue? (flag : Flag) (value : Text) : Option (List (Flag × Option Text)) :=
  if flag.takesValue then some [(flag, some value)] else none

/-- An option and what is attached to its letter: its value, or else the letters of further options,
of which there has to be one. -/
def bundle? (flag : Flag) : Text → Option (List (Flag × Option Text))
  | [] => flag.withValue? []
  | c :: rest =>
    if flag.takesValue then flag.withValue? (c :: rest)
    else
      match ofLetter? c, rest with
      | none, _ => none
      | some next, [] => some [(flag, none), (next, none)]
      | some next, _ => (next.bundle? rest).map ((flag, none) :: ·)

/-- The options of one argument with the values attached to them; nothing if something is attached
where it does not belong. -/
def withAttachment? (flag : Flag) : Attachment → Option (List (Flag × Option Text))
  | .nothing => some [(flag, none)]
  | .toWord value => flag.withValue? value
  | .toLetter attached => flag.bundle? attached

end Flag

/-- A special task, in place of evaluating. -/
inductive Task where
  | grammar
  | dump
  deriving DecidableEq, Repr

/-- What a run was asked for. -/
structure Options where
  verbose : Bool := false
  /-- The expressions given as arguments. -/
  expressions : Option (List Text) := none
  prompt : Option Text := none
  task : Option Task := none
  deriving DecidableEq, Repr

/-- Why there is nothing to run. -/
inductive Refusal where
  | helpWanted
  | misuse
  deriving DecidableEq, Repr

namespace Options

/-- The prompt where none is given. -/
def defaultPrompt : Text :=
  ['>', ' ']

/-- With an option set.  Expressions and a prompt exclude each other, and so do the special
tasks. -/
def set (options : Options) (values : List Text) : Flag → Except Refusal Options
  | .help => .error .helpWanted
  | .verbose => .ok { options with verbose := true }
  | .expression =>
    if options.prompt.isSome then .error .misuse
    else .ok { options with expressions := some values }
  | .prompt =>
    if options.expressions.isSome then .error .misuse
    else .ok { options with prompt := some (values.headD defaultPrompt) }
  | .rawGrammar =>
    if options.task = some .dump then .error .misuse
    else .ok { options with task := some .grammar }
  | .dump =>
    if options.task = some .grammar then .error .misuse
    else .ok { options with task := some .dump }

/-- How many of the arguments that follow it an option takes. -/
def takes (following : List (Text × Argument)) : Flag → Nat
  | .expression => following.length
  | .prompt =>
    match following with
    | (_, .plain) :: _ => 1
    | _ => 0
  | _ => 0

/-- With the options of one argument set in order, and the number of the following arguments
taken. -/
def setAll (following : List (Text × Argument)) (options : Options) :
    List (Flag × Option Text) → Except Refusal (Options × Nat)
  | [] => .ok (options, 0)
  | (flag, some value) :: flags =>
    match options.set [value] flag with
    | .error refusal => .error refusal
    | .ok options => setAll following options flags
  | (flag, none) :: flags =>
    let taken := takes following flag
    match options.set ((following.take taken).map Prod.fst) flag with
    | .error refusal => .error refusal
    | .ok options =>
      match setAll following options flags with
      | .error refusal => .error refusal
      | .ok (options, further) => .ok (options, taken + further)

/-- With the options of all arguments set.  What belongs to no option is a misuse, but only if no
help is wanted before the end. -/
def readFrom (options : Options) (stray : Bool) : List (Text × Argument) → Except Refusal Options
  | [] => if stray then .error .misuse else .ok options
  | (_, .option flag attachment) :: following =>
    match flag.withAttachment? attachment with
    | none => .error .misuse
    | some flags =>
      match options.setAll following flags with
      | .error refusal => .error refusal
      | .ok (options, taken) => readFrom options stray (following.drop taken)
  | _ :: following => readFrom options true following
termination_by arguments => arguments.length
decreasing_by
  · simp only [List.length_drop, List.length_cons]; omega
  · exact Nat.lt_succ_self _

/-- The options of the arguments of a run.  What stands after two hyphens belongs to no option. -/
def read (arguments : List Text) : Except Refusal Options :=
  let before := arguments.takeWhile (· != ['-', '-'])
  let read := before.map fun argument => (argument, Argument.ofText argument)
  if read.any (·.2 == .ambiguous) then .error .misuse
  else readFrom {} (before.length < arguments.length) read

end Options

end DeskCalculator
