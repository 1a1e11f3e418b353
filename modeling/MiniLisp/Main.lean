import MiniLisp.Cli.Program

/-! # The `eva` executable

Reads the file a command line names, runs the command, and writes what it answers. With
neither a file nor `--eval`, the prompt answers each line as it is typed.
-/

open MiniLisp MiniLisp.Cli

/-- The text of a file, or why it could not be read. -/
def readSource (path : String) : IO (Except FileError String) := do
  try
    let text ← IO.FS.readFile ⟨path⟩
    pure (.ok text)
  catch e =>
    match e with
    | .noFileOrDirectory .. => pure (.error .notFound)
    | .inappropriateType _ 20 _ => pure (.error .notDirectory)
    | .inappropriateType _ 21 _ => pure (.error .isDirectory)
    | .invalidArgument _ 36 _ => pure (.error .nameTooLong)
    | e => pure (.error (.other (toString e)))

/-- Answers the prompt line by line until the input ends. -/
partial def promptLoop (stdin stdout : IO.FS.Stream) (s : Session) : IO Unit := do
  stdout.putStr promptMark
  stdout.flush
  let line ← stdin.getLine
  if line.isEmpty then
    stdout.putStr "\n"
    stdout.flush
  else
    let (text, s) := promptStep s line
    stdout.putStr text
    stdout.flush
    promptLoop stdin stdout s

/-- Writes a transcript and gives its status. -/
def emit (t : Transcript) : IO UInt32 := do
  IO.print t.stdout
  IO.eprint t.stderr
  pure t.status.toUInt32

def main (args : List String) : IO UInt32 := do
  match Request.ofArgs args with
  | .run o =>
    if o.eval.isNone && o.file.isNone then
      if o.ast || o.dumpAst then IO.eprint (promptWarning "")
      promptLoop (← IO.getStdin) (← IO.getStdout) (Session.new o.maxDepth)
      pure 0
    else
      let text ← match o.file with
        | some path => readSource path
        | none => pure (.error .notFound)
      emit (runOptions { readFile := fun path => if o.file == some path then text else .error .notFound } o)
  | _ => emit (run {} args)
