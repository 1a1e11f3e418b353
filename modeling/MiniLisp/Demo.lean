import MiniLisp.Cli.Program

/-! # Two small programs that use the library

* `Demo.session`: four fixed lines run twice, first as text in one session, then read up
  front and evaluated in a fresh global scope. A function may name a variable that is defined
  only after it.
* `Demo.prompt`: a bare prompt: every line of the input, an empty one too, is run in one
  session, and its value or its failure is printed.
-/

namespace MiniLisp.Demo

open Cli

/-- The lines the session program runs. -/
def lines : List String := ["(def spam () (* eggs 3))", "(spam)", "(var eggs 20)", "(spam)"]

/-- A line with its value, or with the message of its failure. -/
def answerLine (src : String) (o : Outcome Value) : String :=
  src ++ ": " ++ (match o.result with
    | .ok v => v.render
    | .error h => h.describe) ++ "\n"

/-- Runs a line as text after what was written before. -/
def textStep : String × Session → String → String × Session
  | (out, s), src =>
    let o := s.evaluateText src
    (out ++ o.out ++ answerLine src o, o.session)

/-- Evaluates an expression read up front, with its line, after what was written before. -/
def exprStep : String × Session → String × Expr → String × Session
  | (out, s), (src, e) =>
    let o := s.evaluate e
    (out ++ o.out ++ answerLine src o, o.session)

/-- Runs each line as text in one session. -/
def runTexts (s : Session) (srcs : List String) : String := (srcs.foldl textStep ("", s)).1

/-- Evaluates expressions that were read up front, each with its line, in one session. -/
def runExprs (s : Session) (forms : List (String × Expr)) : String :=
  (forms.foldl exprStep ("", s)).1

/-- The session program. -/
def session : Transcript :=
  let first := runTexts (Session.new) lines
  match lines.mapM fun src => (Expr.read src).map fun e => (src, e) with
  | .ok forms => { stdout := first ++ runExprs (Session.new) forms }
  | .error e => { status := 101, stdout := first, stderr := (EvalError.unreadable e).message ++ "\n" }

/-- A line without the carriage return that ended it, if one did. -/
def dropReturn (l : String) : String :=
  if l.endsWith "\r" then String.ofList l.toList.dropLast else l

/-- The lines of an input: those ended by a line feed lose it and a carriage return just before
it; a last line with no line feed is kept whole, and is no line at all when empty. -/
def inputLines (text : String) : List String :=
  let pieces := text.splitOn "\n"
  let ended := pieces.dropLast.map dropReturn
  match pieces.getLast? with
  | some last => if last.isEmpty then ended else ended ++ [last]
  | none => ended

/-- Writes `> ` and answers one line of the prompt program after what was written before. -/
def promptLine : String × Session → String → String × Session
  | (out, s), line =>
    let o := s.evaluateText line
    let shown := match o.result with
      | .ok v => v.render
      | .error h => "Error: " ++ h.describe
    (out ++ "> " ++ o.out ++ shown ++ "\n", o.session)

/-- The prompt program: `> ` before each line and once more at the end of the input. -/
def prompt (input : String) : Transcript :=
  { stdout := ((inputLines input).foldl promptLine ("", Session.new)).1 ++ "> " }

end MiniLisp.Demo
