import MiniLisp.Cli.Request
import MiniLisp.Cli.Files
import MiniLisp.Json.Reader
import MiniLisp.Json.Writer
import MiniLisp.Text.Blank

/-! # The `eva` command

A run of the command, as a function of its arguments and what it can see: its standard input,
the files it can read, and the time its log line is stamped with. The answer is the exit status
and the text of both output streams.

* The program comes from `--eval` (its last value is printed), from a file, or, with neither,
  from a prompt that reads standard input line by line.
* It is read as source text, or with `--ast` as JSON values one after the other; text that
  does not read ends the run with status 1 before anything runs.
* `--dump-ast` prints each expression as JSON instead of running it.
* Each expression runs in one session; a failure is reported on the error stream, makes the
  status 1, and the run goes on with the next expression.

* `Cli.run`: the whole run; `promptStep`: one line of the prompt.
-/

namespace MiniLisp

/-- The line that reports a failed evaluation: its kind and its message. -/
def Halt.report : Halt → String
  | .error e => e.kindName ++ ": " ++ e.message
  | .exhausted => "Exhausted: the evaluation ran out of fuel"
  | .fault f => "Fault: " ++ f.message

/-- The message of a failed evaluation. -/
def Halt.describe : Halt → String
  | .error e => e.message
  | .exhausted => "the evaluation ran out of fuel"
  | .fault f => f.message

end MiniLisp

namespace MiniLisp.Cli

/-- The working directory of a run on a usual system. -/
def workDirectory : List String := ["work"]

/-- What a run can see besides its arguments. -/
structure World where
  stdin : String := ""
  /-- The text of the file at a path. -/
  readFile : String → Except FileError String := (FileTree.system workDirectory).read
  /-- The time that stamps a log line. -/
  clock : String := ""

/-- A world on a usual system with some more files, each named by exactly one path. -/
def World.ofFiles (stdin : String) (files : List (String × String)) (clock : String) : World where
  stdin := stdin
  readFile path := match files.lookup path with
    | some text => .ok text
    | none => (FileTree.system workDirectory).read path
  clock := clock

/-- What a run leaves: its exit status and the text of its two output streams. -/
structure Transcript where
  status : Nat := 0
  stdout : String := ""
  stderr : String := ""
  deriving Repr, DecidableEq

/-- How a failure to start reads on the error stream: a message and, below it, its cause. -/
def failure (msg : String) (cause : Option String := none) : String :=
  "Error: " ++ msg ++ (match cause with
    | some c => "\n\nCaused by:\n    " ++ c
    | none => "") ++ "\n"

/-- The expressions of a program text: source text, or JSON values when `json` is set. A text
that does not read gives the line that says why. -/
def load (text : String) (json : Bool) : Except String (List Expr) :=
  if json then
    match Expr.ofJsonStream? text with
    | .ok es => .ok es
    | .error e => .error (failure "invalid JSON expression" (some e.message))
  else
    match Expr.readMany text with
    | .ok es => .ok es
    | .error e => .error (failure (EvalError.unreadable e).message)

/-- Runs one expression of a program: its printing goes to the output, its failure is reported
and makes the status 1; keeps the last value reached. -/
def runStep : Session × Option Value × Transcript → Expr → Session × Option Value × Transcript
  | (s, last, t), e =>
    let o := s.evaluate e
    let t := { t with stdout := t.stdout ++ o.out }
    match o.result with
    | .ok v => (o.session, some v, t)
    | .error h => (o.session, last, { t with stderr := t.stderr ++ h.report ++ "\n", status := 1 })

/-- Runs the expressions of a program in order in one session. Each failure is reported and
makes the status 1; with `printLast` the value of the last expression that gave one is
printed at the end. -/
def runForms (s : Session) (forms : List Expr) (printLast : Bool) : Transcript :=
  let (_, last, t) := forms.foldl runStep (s, none, {})
  match printLast, last with
  | true, some v => { t with stdout := t.stdout ++ v.render ++ "\n" }
  | _, _ => t

/-- The text of a program's expressions as JSON, one line each. -/
def dumpForms (forms : List Expr) : String := String.join (forms.map (·.toJson ++ "\n"))

/-- The prompt written before each line. -/
def promptMark : String := "eva> "

/-- Answers one line of the prompt: nothing for a blank line, else what the line printed and
its value or failure on a line of its own; and the session after it. -/
def promptStep (s : Session) (line : String) : String × Session :=
  if Text.isBlankText line then ("", s)
  else
    let o := s.evaluateText line
    let shown := match o.result with
      | .ok v => v.render
      | .error h => h.report
    (o.out ++ shown ++ "\n", o.session)

/-- The lines of a text, each with its line feed; the last may have none. -/
def inputLines (text : String) : List String :=
  match text.splitOn "\n" with
  | [] => []
  | first :: rest =>
    let pieces := first :: rest
    let lines := (pieces.dropLast.map (· ++ "\n")) ++ [pieces.getLast?.getD ""]
    lines.filter (!·.isEmpty)

/-- Writes the mark and answers one line of the prompt after what was written before. -/
def promptLine : String × Session → String → String × Session
  | (out, s), line =>
    let (text, s) := promptStep s line
    (out ++ promptMark ++ text, s)

/-- The prompt over all lines of an input: a mark before each line and one more at the end of
the input, answered by a line feed. -/
def prompt (s : Session) (input : String) : String :=
  (((inputLines input).foldl promptLine ("", s)).1) ++ promptMark ++ "\n"

/-- The log line written when a JSON option is given with nothing to apply it to. -/
def promptWarning (clock : String) : String :=
  clock ++ "  WARN eva: --ast and --dump-ast need a file or --eval; starting the prompt instead\n"

/-- Where the program comes from: its text and whether its last value is printed, or none for
the prompt, or the reason it cannot be read. -/
def source (w : World) (o : Options) : Option (Except String (String × Bool)) :=
  match o.eval, o.file with
  | some text, _ => some (.ok (text, true))
  | none, some path =>
    match w.readFile path with
    | .ok text => some (.ok (text, false))
    | .error e => some (.error (failure ("could not read " ++ path) (some e.message)))
  | none, none => none

/-- Runs the command with these options. -/
def runOptions (w : World) (o : Options) : Transcript :=
  let s := Session.new o.maxDepth
  match source w o with
  | none =>
    { stdout := prompt s w.stdin,
      stderr := if o.ast || o.dumpAst then promptWarning w.clock else "" }
  | some (.error msg) => { status := 1, stderr := msg }
  | some (.ok (text, printLast)) =>
    match load text o.ast with
    | .error msg => { status := 1, stderr := msg }
    | .ok forms =>
      if o.dumpAst then { stdout := dumpForms forms } else runForms s forms printLast

/-- Runs the command with these arguments. -/
def run (w : World) (args : List String) : Transcript :=
  match Request.ofArgs args with
  | .help => { stdout := helpText }
  | .version => { stdout := versionText }
  | .refuse e => { status := 2, stderr := e.message }
  | .run o => runOptions w o

end MiniLisp.Cli
