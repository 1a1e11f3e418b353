import MiniLisp.Cli.Similar
import MiniLisp.Session

/-! # The command line's arguments and its usage messages

The `eva` command takes one optional program file and five options. This module names them,
spells them as help and errors do, and writes every message that refuses a command line.

* `Arg`: the arguments; `Arg.spelled`: how an error names one.
* `Usage.render`: the usage line of the arguments met so far, or the general one.
* `UsageError.message`: the text of each refusal; all of them end the run with status 2.
* `helpText`, `versionText`: what `--help` and `--version` print.
-/

namespace MiniLisp.Cli

/-- The arguments of the command line. -/
inductive Arg where
  /-- The program file, the one positional argument. -/
  | file
  /-- `-e`/`--eval`: program text given on the command line. -/
  | eval
  /-- `--ast`: the program is JSON. -/
  | ast
  /-- `--dump-ast`: print the program's expressions instead of running it. -/
  | dumpAst
  /-- `--max-depth`: the deepest nesting of calls. -/
  | maxDepth
  | help
  | version
  deriving DecidableEq, Repr

namespace Arg

/-- The options, in the order help lists them. -/
def options : List Arg := [eval, ast, dumpAst, maxDepth, help, version]

/-- The long name of an option. -/
def long? : Arg → Option String
  | file => none
  | eval => some "eval"
  | ast => some "ast"
  | dumpAst => some "dump-ast"
  | maxDepth => some "max-depth"
  | help => some "help"
  | version => some "version"

/-- The one-letter name of an option. -/
def short? : Arg → Option Char
  | eval => some 'e'
  | help => some 'h'
  | version => some 'V'
  | _ => none

/-- The option of a long name. -/
def ofLong? (name : String) : Option Arg := options.find? (·.long? == some name)

/-- The option of a one-letter name. -/
def ofShort? (c : Char) : Option Arg := options.find? (·.short? == some c)

/-- The options that take a value. -/
def takesValue : Arg → Bool
  | eval | maxDepth => true
  | _ => false

/-- How errors name an argument. -/
def spelled : Arg → String
  | file => "[FILE]"
  | eval => "--eval <EVAL>"
  | ast => "--ast"
  | dumpAst => "--dump-ast"
  | maxDepth => "--max-depth <MAX_DEPTH>"
  | help => "--help"
  | version => "--version"

/-- The program's own arguments, as against `--help` and `--version`. A usage line may show
them together as one group. -/
def ownsGroup : Arg → Bool
  | help | version => false
  | _ => true

/-- The program's own arguments, in the order they are declared. -/
def group : List Arg := [file, eval, ast, dumpAst, maxDepth]

/-- Two arguments that may not be given together: a program text and a file, or reading JSON
and printing it. -/
def clashes : Arg → Arg → Bool
  | eval, file | file, eval | ast, dumpAst | dumpAst, ast => true
  | _, _ => false

end Arg

/-- What a usage line shows: the arguments used, in the order they were met, and whether the
program's own arguments are shown together as one group. -/
structure Usage where
  used : List Arg := []
  grouped : Bool := false
  deriving Repr

/-- The usage line that shows no argument in particular. -/
def Usage.general : Usage := {}

/-- The usage line of the arguments met so far, where every argument the program itself
declares is shown as one group once any of them has been met. -/
def Usage.ofMet (met : List Arg) (extra : List Arg := []) : Usage :=
  { used := met ++ extra, grouped := met.any Arg.ownsGroup }

/-- The group of the program's own arguments, as a usage line writes it. -/
def groupText : String :=
  "<" ++ "|".intercalate (Arg.group.map fun a => if a = .file then "FILE" else a.spelled) ++ ">"

/-- The usage line: with nothing used, the general one. Otherwise the options used, in the
order they were met, and then the group, or else the file, bracketed when it was not given. -/
def Usage.render (u : Usage) : String :=
  if u.used.isEmpty && !u.grouped then "eva [OPTIONS] [FILE]"
  else
    let shown := u.used.eraseDups.filter fun a => a != .file && !(u.grouped && a.ownsGroup)
    let tail :=
      if u.grouped then " " ++ groupText
      else if u.used.contains .file then " <FILE>" else " [FILE]"
    "eva" ++ String.join (shown.map (" " ++ ·.spelled)) ++ tail

/-- Why a number of calls could not be read. -/
inductive DepthError where
  | empty
  | invalidDigit
  | tooLarge
  deriving DecidableEq, Repr

/-- The reason a refused number gives. -/
def DepthError.message : DepthError → String
  | .empty => "cannot parse integer from empty string"
  | .invalidDigit => "invalid digit found in string"
  | .tooLarge => "number too large to fit in target type"

/-- Reads a depth: an optional `+` and decimal digits, below `2 ^ 64`. -/
def readDepth (s : String) : Except DepthError Nat :=
  let cs := s.toList
  let digits := match cs with
    | '+' :: r => r
    | r => r
  if cs.isEmpty then .error .empty
  else if digits.isEmpty || !digits.all Char.isDigit then .error .invalidDigit
  else
    let n := digits.foldl (fun n c => 10 * n + (c.toNat - '0'.toNat)) 0
    if n < Nat.pow 2 64 then .ok n else .error .tooLarge

/-- A command line that is refused. -/
inductive UsageError where
  /-- A word that names no argument, the option it is most like, whether to say how to pass it
  as a value, and the usage line. -/
  | unknown (word : String) (similar : Option String) (valueTip : Bool) (usage : Usage)
  /-- An option that takes a value was given none. -/
  | noValue (a : Arg)
  /-- An option's value could not be read. -/
  | badValue (a : Arg) (value : String) (why : DepthError)
  /-- Two arguments that clash, and the arguments used apart from the second. -/
  | conflict (a b : Arg) (used : List Arg)
  /-- An option given twice. -/
  | repeated (a : Arg)
  /-- A value given to an option that takes none, and the usage line. -/
  | extraValue (a : Arg) (value : String) (usage : Usage)
  deriving Repr

/-- The end of every refusal. -/
def moreHelp : String := "\n\nFor more information, try '--help'.\n"

/-- The text of a refusal. -/
def UsageError.message : UsageError → String
  | .unknown w similar valueTip usage =>
    let similarTip := match similar with
      | some s => "\n\n  tip: a similar argument exists: '" ++ s ++ "'"
      | none => ""
    let valueText := if valueTip then
        (if similar.isSome then "" else "\n") ++ "\n  tip: to pass '" ++ w ++ "' as a value, use '-- " ++ w ++ "'"
      else ""
    "error: unexpected argument '" ++ w ++ "' found" ++ similarTip ++ valueText ++
      "\n\nUsage: " ++ usage.render ++ moreHelp
  | .noValue a => "error: a value is required for '" ++ a.spelled ++ "' but none was supplied" ++ moreHelp
  | .badValue a v why =>
    "error: invalid value '" ++ v ++ "' for '" ++ a.spelled ++ "': " ++ why.message ++ moreHelp
  | .conflict a b used =>
    "error: the argument '" ++ a.spelled ++ "' cannot be used with '" ++ b.spelled ++ "'" ++
      "\n\nUsage: " ++ ({ used } : Usage).render ++ moreHelp
  | .repeated a =>
    "error: the argument '" ++ a.spelled ++ "' cannot be used multiple times" ++
      "\n\nUsage: " ++ Usage.general.render ++ moreHelp
  | .extraValue a v usage =>
    "error: unexpected value '" ++ v ++ "' for '" ++ a.spelled ++ "' found; no more were expected" ++
      "\n\nUsage: " ++ usage.render ++ moreHelp

/-- What `--version` prints. -/
def versionText : String := "eva " ++ version ++ "\n"

/-- What `--help` prints. -/
def helpText : String :=
  "Evaluates Eva programs from a file, the command line or an interactive prompt\n\n" ++
  "Usage: eva [OPTIONS] [FILE]\n\n" ++
  "Arguments:\n" ++
  "  [FILE]  Program to run. Without a file or `--eval`, starts a prompt on stdin\n\n" ++
  "Options:\n" ++
  "  -e, --eval <EVAL>            Program text to run; the value of its last expression is printed\n" ++
  "      --ast                    Read the program as JSON nested-array expressions instead of source text\n" ++
  "      --dump-ast               Print the parsed program as JSON expressions and exit\n" ++
  "      --max-depth <MAX_DEPTH>  Deepest nesting of function calls before a recursion error [default: " ++
    toString defaultMaxDepth ++ "]\n" ++
  "  -h, --help                   Print help\n" ++
  "  -V, --version                Print version\n"

end MiniLisp.Cli
