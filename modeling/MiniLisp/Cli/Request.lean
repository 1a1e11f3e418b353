import MiniLisp.Cli.Usage

/-! # Reading the command line

The words of the command line are read left to right. A word that starts with `--` names a long
option, and may carry its value after `=`; one that starts with a single `-` is a cluster of
one-letter options, where an option that takes a value takes the rest of the cluster, less one
leading `=`, if any is left. An option that takes a value and has none attached takes the next
word that names no option. Any other word is the file; after a bare `--` every word is. A lone
`-` is a word like any other.

An option is settled (its value read, checked against repetition) when the next option or file
is met, or at the end. `--help` and `--version` answer at once when they are met, once the
option before them has been settled. Clashing arguments are refused after all words are read,
naming first the one given first.

* `Request.ofArgs`: what a command line asks for.
-/

namespace MiniLisp.Cli

/-- What the command line asks to run. -/
structure Options where
  file : Option String := none
  eval : Option String := none
  ast : Bool := false
  dumpAst : Bool := false
  maxDepth : Nat := defaultMaxDepth
  deriving Repr

/-- What a command line asks for. -/
inductive Request where
  | run (o : Options)
  | help
  | version
  | refuse (e : UsageError)
  deriving Repr

/-- The arguments read so far. -/
structure Reading where
  /-- The arguments settled, in the order they were met, with their values. -/
  taken : List (Arg × Option String) := []
  /-- An argument not yet settled, with the values it has. -/
  pending : Option (Arg × List String) := none
  /-- A bare `--` has been met. -/
  escaped : Bool := false

namespace Reading

/-- The arguments settled, in the order they were met. -/
def used (r : Reading) : List Arg := r.taken.map (·.1)

/-- Settles an argument with its values: it must have a value if it takes one, must not have
been given before, and a depth must read. An argument whose value does not read is still
counted as used. -/
def take (r : Reading) (a : Arg) (vals : List String) : Reading × Option UsageError :=
  match vals with
  | [] =>
    if a.takesValue then (r, some (.noValue a))
    else if r.used.contains a then (r, some (.repeated a))
    else ({ r with taken := r.taken ++ [(a, none)] }, none)
  | v :: _ =>
    if r.used.contains a then (r, some (.repeated a))
    else
      let r := { r with taken := r.taken ++ [(a, some v)] }
      if a = .maxDepth then
        match readDepth v with
        | .ok _ => (r, none)
        | .error why => (r, some (.badValue a v why))
      else (r, none)

/-- Settles the pending argument, if any. -/
def settle (r : Reading) : Reading × Option UsageError :=
  match r.pending with
  | none => (r, none)
  | some (a, vals) => take { r with pending := none } a vals

/-- Settles the pending argument, then takes `a` with `vals`. -/
def settleThenTake (r : Reading) (a : Arg) (vals : List String) : Reading × Option UsageError :=
  match r.settle with
  | (r, some e) => (r, some e)
  | (r, none) => r.take a vals

/-- The argument that waits for a value. -/
def waiting? (r : Reading) : Option Arg :=
  match r.pending with
  | some (a, []) => if a.takesValue then some a else none
  | _ => none

/-- The options given, once every word is read and no two clash. -/
def finish (r : Reading) : Request :=
  match r.settle with
  | (_, some e) => .refuse e
  | (r, none) =>
    let used := r.used
    match used.findSome? fun a => (used.find? (Arg.clashes a)).map fun b => (a, b) with
    | some (a, b) => .refuse (.conflict a b (used.filter (· != b)))
    | none =>
      let value (a : Arg) : Option String := (r.taken.lookup a).join
      .run {
        file := value .file
        eval := value .eval
        ast := used.contains .ast
        dumpAst := used.contains .dumpAst
        maxDepth := ((value .maxDepth).bind fun v => (readDepth v).toOption).getD defaultMaxDepth }

end Reading

/-- What a step of the reading leads to: more words, or an answer. -/
inductive Step where
  | next (r : Reading)
  | done (q : Request)

/-- Meets an option with the values attached to it. -/
def meetOption (r : Reading) (a : Arg) (attached : Option String) : Step :=
  if a = .help || a = .version then
    match attached, r.settle with
    | some v, _ => .done (.refuse (.extraValue a v (Usage.ofMet r.used [a])))
    | none, (_, some e) => .done (.refuse e)
    | none, (_, none) => .done (if a = .help then .help else .version)
  else
    match attached with
    | some v =>
      if a.takesValue then
        match r.settleThenTake a [v] with
        | (_, some e) => .done (.refuse e)
        | (r, none) => .next r
      else .done (.refuse (.extraValue a v (Usage.ofMet r.used [a])))
    | none =>
      if a.takesValue then
        match r.settle with
        | (_, some e) => .done (.refuse e)
        | (r, none) => .next { r with pending := some (a, []) }
      else
        match r.settleThenTake a [] with
        | (_, some e) => .done (.refuse e)
        | (r, none) => .next r

/-- Meets a long option: the name, and the value after `=`, if any. -/
def meetLong (r : Reading) (name : String) (attached : Option String) : Step :=
  match Arg.ofLong? name with
  | some a => meetOption r a attached
  | none =>
    let r := r.settle.1
    let similar := closest name (Arg.options.filterMap Arg.long?)
    let met := match similar.bind Arg.ofLong? with
      | some a => if r.used.contains a then r.used else r.used ++ [a]
      | none => r.used
    .done (.refuse (.unknown ("--" ++ name) (similar.map ("--" ++ ·)) similar.isNone (Usage.ofMet met)))

/-- Meets a cluster of one-letter options. -/
def meetShorts (r : Reading) : List Char → Step
  | [] => .next r
  | c :: rest =>
    match Arg.ofShort? c with
    | none => .done (.refuse (.unknown ("-" ++ c.toString) none true Usage.general))
    | some a =>
      if a.takesValue then
        match rest with
        | [] => meetOption r a none
        | '=' :: v => meetOption r a (some (String.ofList v))
        | v => meetOption r a (some (String.ofList v))
      else
        match meetOption r a none with
        | .next r => meetShorts r rest
        | .done q => .done q

/-- Meets a word that is a value: of the option waiting for one, else the file. -/
def meetValue (r : Reading) (w : String) : Step :=
  match r.waiting?, r.escaped with
  | some a, false => .next { r with pending := some (a, [w]) }
  | _, _ =>
    let fileTaken := r.used.contains .file || (r.pending.map (·.1 == .file)).getD false
    if fileTaken then .done (.refuse (.unknown w none false Usage.general))
    else
      match r.settle with
      | (_, some e) => .done (.refuse e)
      | (r, none) => .next { r with pending := some (.file, [w]) }

/-- Meets one word. -/
def meetWord (r : Reading) (w : String) : Step :=
  if r.escaped then meetValue r w
  else
    match w.toList with
    | ['-', '-'] => .next { r with escaped := true }
    | '-' :: '-' :: name =>
      match name.span (· != '=') with
      | (n, '=' :: v) => meetLong r (String.ofList n) (some (String.ofList v))
      | (n, _) => meetLong r (String.ofList n) none
    | '-' :: c :: cs => meetShorts r (c :: cs)
    | _ => meetValue r w

/-- Reads the words after the command's name from `r` on. -/
def readWords (r : Reading) : List String → Request
  | [] => r.finish
  | w :: ws =>
    match meetWord r w with
    | .next r => readWords r ws
    | .done q => q

/-- What a command line asks for. -/
def Request.ofArgs (args : List String) : Request := readWords {} args

end MiniLisp.Cli
