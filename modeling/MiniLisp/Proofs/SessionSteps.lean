import Mathlib
import MiniLisp.Proofs.Lockstep
import MiniLisp.Proofs.Syntax.Printing
import MiniLisp.Session

/-! # Session steps compose

A step of a session reads a program text and evaluates its forms one after another, each in the
global scope with no call active, from the session's store, printing into a fresh text. Two texts
that read, joined by separators, make one step that does what the two steps do in turn: the second
runs from the session the first left, only if the first gave a value, and the text printed is the
text of the first followed by that of the second.

* `OutputFrame x`: a run of `x` does not read the text printed before it and only adds to it.
  It is a `Lockstep` relation, so every evaluation has it (`eval_outputFrame`).
* `Outcome.andThen`, `Session.run_bind`: a step that runs `x` and then `f` is the step running
  `x` followed by the step running `f` from the session it left.
* `evaluateText_join`: the composition of steps, and the step of a text that does not read.
-/

namespace MiniLisp

variable {α β : Type}

/-! ## Runs that do not read their printed text -/

/-- `m` with `o` printed before its text. -/
def Machine.after (o : String) (m : Machine) : Machine := { m with out := o ++ m.out }

@[simp]
theorem Machine.store_after (o : String) (m : Machine) : (m.after o).store = m.store := rfl

/-- A run of `x` does not read the text printed before it and only adds to it: from a machine
with `o` printed in front, it runs as from the machine alone, with `o` still in front. -/
def OutputFrame (x : EvalM α) : Prop :=
  ∀ o m, x.run.run (m.after o) = ((x.run.run m).1, (x.run.run m).2.after o)

namespace OutputFrame

theorem bind {x : EvalM α} {f : α → EvalM β} (hx : OutputFrame x)
    (hf : ∀ a, OutputFrame (f a)) : OutputFrame (x >>= f) := by
  intro o m
  rw [run_bind, run_bind, hx o m]
  rcases x.run.run m with ⟨_ | a, m₁⟩
  · rfl
  · exact hf a o m₁

theorem lookup (env : ScopeId) (name : String) : OutputFrame (EvalM.lookup env name) := by
  intro o m
  rw [EvalM.run_lookup, EvalM.run_lookup, Machine.store_after]
  cases m.store.lookup env name <;> rfl

theorem assign (env : ScopeId) (name : String) (v : Value) :
    OutputFrame (EvalM.assign env name v) := by
  intro o m
  rw [EvalM.run_assign, EvalM.run_assign, Machine.store_after]
  cases m.store.resolve env name <;> rfl

theorem emit (text : String) : OutputFrame (EvalM.emit text) := by
  intro o m
  simp only [EvalM.run_emit, Machine.after, String.append_assoc]

/-- Every step of evaluation leaves the text printed before it alone (a property of one
computation, so the relation ignores its second side). -/
theorem lockstep : Lockstep (fun x _ => OutputFrame x) where
  pure _ _ _ := rfl
  bind hx hf := bind hx hf
  exhausted _ _ := rfl
  fail _ _ _ := rfl
  lookup := lookup
  define _ _ _ _ _ := rfl
  assign := assign
  newScope _ _ _ := rfl
  makeClosure _ _ _ _ _ _ := rfl
  emit := emit

end OutputFrame

theorem eval_outputFrame (L fuel depth : Nat) (env : ScopeId) (e : Expr) :
    OutputFrame (eval L fuel depth env e) :=
  OutputFrame.lockstep.eval_rel_self (fun _ _ => rfl) fuel depth env e

/-! ## Steps one after another -/

/-- One step of a session followed, only if it gave a value, by the step `next` makes of that value
from the session the first one left; the text printed is that of both. -/
def Outcome.andThen (first : Outcome α) (next : α → Session → Outcome β) : Outcome β :=
  match first.result with
  | .ok a =>
    let second := next a first.session
    { second with out := first.out ++ second.out }
  | .error h => { result := .error h, out := first.out, session := first.session }

namespace Session

theorem run_pure (s : Session) (a : α) :
    s.run (pure a : EvalM α) = { result := .ok a, out := "", session := s } := rfl

@[simp]
theorem maxDepth_run (s : Session) (x : EvalM α) : (s.run x).session.maxDepth = s.maxDepth := rfl

/-- A step that runs `x` and then `f` is the step running `x` followed by the step running `f`,
when `f` leaves the text printed before it alone. -/
theorem run_bind {x : EvalM α} {f : α → EvalM β} (hf : ∀ a, OutputFrame (f a))
    (s : Session) : s.run (x >>= f) = (s.run x).andThen fun a s' => s'.run (f a) := by
  unfold Session.run Outcome.andThen
  rw [MiniLisp.run_bind]
  rcases x.run.run { store := s.store, out := "" } with ⟨_ | a, m₁⟩
  · rfl
  · -- the second step starts where the first stopped: its printed text in front of nothing
    have hm₁ : m₁ = Machine.after m₁.out { store := m₁.store, out := "" } := by
      cases m₁
      simp [Machine.after]
    have key := hf a m₁.out { store := m₁.store, out := "" }
    rw [← hm₁] at key
    dsimp only
    rw [key]
    rfl

theorem foldlM_evalForm_init (s : Session) {es : List Expr} (hes : es ≠ []) (v w : Value) :
    es.foldlM (fun _ e => s.evalForm e) v = es.foldlM (fun _ e => s.evalForm e) w := by
  obtain ⟨e, es, rfl⟩ := List.exists_cons_of_ne_nil hes
  rw [List.foldlM_cons, List.foldlM_cons]

theorem run_evalForms_append (s : Session) (es₁ es₂ : List Expr) :
    s.run (s.evalForms (es₁ ++ es₂)) =
      (s.run (s.evalForms es₁)).andThen fun v s' =>
        s'.run (es₂.foldlM (fun _ e => s.evalForm e) v) := by
  rw [evalForms, List.foldlM_append, Session.run_bind]
  · rfl
  · exact fun v => OutputFrame.lockstep.foldlM_rel (g := fun _ e => s.evalForm e) es₂ v
      fun _ e _ => eval_outputFrame _ _ _ _ e

/-- Text that does not read evaluates nothing: the session is as it was and nothing is printed. -/
theorem evaluateText_of_error {s : Session} {src : String} {err : SyntaxError}
    (h : Expr.readMany src = .error err) :
    s.evaluateText src =
      { result := .error (.error (.unreadable err)), out := "", session := s } := by
  simp only [evaluateText, h]

end Session

/-! ## Session steps compose -/

/-- **Session steps compose**: two program texts joined by separators are evaluated as the first,
then the second from the session it left. -/
theorem evaluateText_join (s : Session) :
    (∀ {src₁ src₂ w : String} {es₁ es₂ : List Expr},
      Expr.readMany src₁ = .ok es₁ → Expr.readMany src₂ = .ok es₂ →
      w ≠ "" → (∀ c ∈ w.toList, Token.isSpace c) →
      let first := s.evaluateText src₁
      let joined := s.evaluateText (src₁ ++ w ++ src₂)
      (∀ h, first.result = .error h → joined = first) ∧
      (∀ v, first.result = .ok v →
        let second := first.session.evaluateText src₂
        joined.out = first.out ++ second.out ∧ joined.session = second.session ∧
          joined.result = if es₂ = [] then .ok v else second.result)) ∧
    (∀ {src : String} {err : SyntaxError}, Expr.readMany src = .error err →
      s.evaluateText src = { result := .error (.error (.unreadable err)), out := "", session := s }) := by
  refine ⟨fun {src₁ src₂ w es₁ es₂} h₁ h₂ hw hblank => ?_, Session.evaluateText_of_error⟩
  intro first joined
  have hfirst : first = s.run (s.evalForms es₁) := by
    simp only [first, Session.evaluateText, h₁]
  have hjoined : joined = first.andThen fun v s' =>
      s'.run (es₂.foldlM (fun _ e => s.evalForm e) v) := by
    simp only [joined, Session.evaluateText, Expr.readMany_join h₁ h₂ hw hblank,
      Session.run_evalForms_append, hfirst]
  refine ⟨fun h hh => ?_, fun v hv => ?_⟩
  · rw [hjoined]
    simp only [Outcome.andThen, hh]
    rw [← hh]
  · intro second
    -- the second step evaluates the same forms with the same limit, from `undefined`
    have hsecond :
        second = first.session.run (es₂.foldlM (fun _ e => s.evalForm e) .undefined) := by
      simp only [second, Session.evaluateText, h₂, Session.evalForms, Session.evalForm, hfirst,
        Session.maxDepth_run]
    rw [hjoined, hsecond]
    simp only [Outcome.andThen, hv]
    by_cases hes : es₂ = []
    · subst hes
      simp only [List.foldlM_nil, Session.run_pure, String.append_empty, if_true, and_self]
    · rw [Session.foldlM_evalForm_init s hes v .undefined]
      simp only [hes, if_false, and_self]

/-- A definition, then a line break, then a print of what it defined, in a new session. -/
theorem evaluateText_join_var_print :
    Expr.readMany "(var x \"hi\")" = .ok [.list [.sym "var", .sym "x", .str "\"hi\""]] ∧
    Expr.readMany "(print x)" = .ok [.list [.sym "print", .sym "x"]] ∧
    "\n" ≠ "" ∧ (∀ c ∈ "\n".toList, Token.isSpace c) ∧
    let first := Session.new.evaluateText "(var x \"hi\")"
    let joined := Session.new.evaluateText ("(var x \"hi\")" ++ "\n" ++ "(print x)")
    (∀ h, first.result = .error h → joined = first) ∧
    (∀ v, first.result = .ok v →
      let second := first.session.evaluateText "(print x)"
      joined.out = first.out ++ second.out ∧ joined.session = second.session ∧
        joined.result = if [Expr.list [.sym "print", .sym "x"]] = [] then .ok v else second.result) := by
  have hx : (Expr.sym "x").WellFormed :=
    .sym ⟨by decide, by simp [show "x".toList = ['x'] by decide, Token.isWordChar]⟩ (by decide)
  have h₁ : Expr.readMany "(var x \"hi\")" = .ok [.list [.sym "var", .sym "x", .str "\"hi\""]] := by
    have hwf : (Expr.list [.sym "var", .sym "x", .str "\"hi\""]).WellFormed := by
      refine .list fun e he => ?_
      simp only [List.mem_cons, List.not_mem_nil, or_false] at he
      rcases he with rfl | rfl | rfl
      · exact .sym ⟨by decide, by simp [show "var".toList = ['v', 'a', 'r'] by decide,
          Token.isWordChar]⟩ (by decide)
      · exact hx
      · rw [show "\"hi\"" = "\"" ++ "hi" ++ "\"" by decide]
        exact .str (by decide)
    have h := @Expr.readMany_intercalate_render [_] fun e he => (List.mem_singleton.1 he) ▸ hwf
    rwa [show " ".intercalate ([Expr.list [.sym "var", .sym "x", .str "\"hi\""]].map Expr.render) =
      "(var x \"hi\")" by decide] at h
  have h₂ : Expr.readMany "(print x)" = .ok [.list [.sym "print", .sym "x"]] := by
    have hwf : (Expr.list [.sym "print", .sym "x"]).WellFormed := by
      refine .list fun e he => ?_
      simp only [List.mem_cons, List.not_mem_nil, or_false] at he
      rcases he with rfl | rfl
      · refine .sym ⟨by decide, ?_⟩ (by decide)
        simp [show "print".toList = ['p', 'r', 'i', 'n', 't'] by decide, Token.isWordChar]
      · exact hx
    have h := @Expr.readMany_intercalate_render [_] fun e he => (List.mem_singleton.1 he) ▸ hwf
    rwa [show " ".intercalate ([Expr.list [.sym "print", .sym "x"]].map Expr.render) =
      "(print x)" by decide] at h
  have hblank : ∀ c ∈ "\n".toList, Token.isSpace c := by
    simp [show "\n".toList = ['\n'] by decide, Token.isSpace]
  exact ⟨h₁, h₂, by decide, hblank, (evaluateText_join Session.new).1 h₁ h₂ (by decide) hblank⟩

end MiniLisp
