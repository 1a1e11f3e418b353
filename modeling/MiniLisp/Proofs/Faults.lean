import MiniLisp.Proofs.CallCounter
import MiniLisp.Proofs.Lockstep
import MiniLisp.Proofs.Syntax.Reading

/-! # No run reaches a fault

A fault (`Fault`) is a case the interpreter's own checks rule out, kept in the model as an outcome
of its own. Each is guarded in another function than the one that would reach it, and the guards
hold on every input:

* the value of a string literal is cut from its text only when the text has both quotes, and
  then the cut is on character boundaries (`literalValue_eq_error`);
* `==` is compared before the arithmetic on numbers (`Operator.apply_error_cases`);
* the atom reader is given only the tokens it takes (`Token.atom?_ne_error`).

So stopping at no fault is a lockstep relation (`StopsWithin.lockstep`), and:

* `eval_noFault`: no evaluation faults, of any expression, a string literal without its quotes
  included, in any scope, at any depth;
* `Counted.eval_noFault`: nor does evaluation with the call counter kept as a machine word, whose
  counter never overflows or underflows and is handed back as it was found;
* `readForm_ne_fault`, `Expr.read_ne_fault`, `Expr.readMany_ne_fault`: reading never faults;
* `reading_and_evaluation_never_fault`: all of it together.
-/

namespace MiniLisp

/-! ## Evaluation -/

/-- **No evaluation faults**, of any expression in any scope at any depth. -/
theorem eval_noFault (L fuel depth : Nat) (env : ScopeId) (e : Expr) :
    StopsWithin (fun h => ∀ f, h ≠ .fault f) (eval L fuel depth env e) :=
  (StopsWithin.lockstep nofun fun _ _ => nofun).eval_rel_self
    (fun _ _ h => Except.error.inj h ▸ nofun) fuel depth env e

/-- Counted evaluation under a limit that is a machine word never faults, and hands the counter
back as it found it. -/
theorem Counted.eval_noFault {limit : Nat} (hlimit : limit ≤ wordMax) (fuel : Nat)
    (n : Calls limit) (env : ScopeId) (e : Expr) (m : Machine) :
    let r := (Counted.eval limit fuel env e).run.run (m, n)
    (∀ f, r.1 ≠ .error (.fault f)) ∧ (∀ f, r.1 ≠ .error (.halt (.fault f))) ∧ r.2.2 = n := by
  intro r
  have hr : r = (((MiniLisp.eval limit fuel n.val env e).run.run m).1.mapError .halt,
      (((MiniLisp.eval limit fuel n.val env e).run.run m).2, n)) := by
    rw [← Counted.run_lift_eq]
    exact Counted.Agrees.eval hlimit fuel n env e m
  have heval := MiniLisp.eval_noFault limit fuel n.val env e m
  refine ⟨fun f hf => ?_, fun f hf => ?_, by rw [hr]⟩ <;> rw [hr] at hf
  · -- a stop of the evaluation is handed on as a stop, never as a fault of the counter
    cases h : ((MiniLisp.eval limit fuel n.val env e).run.run m).1 <;>
      simp [h, Except.mapError] at hf
  · cases h : ((MiniLisp.eval limit fuel n.val env e).run.run m).1 with
    | ok v => simp [h, Except.mapError] at hf
    | error h' =>
      simp only [h, Except.mapError, Except.error.injEq, Stop.halt.injEq] at hf
      exact heval h' h f hf

/-! ## Reading -/

/-- Reading a form never faults: the atom reader is given only the tokens it takes. -/
theorem readForm_ne_fault (ts : List Token) (f : Fault) : readForm ts ≠ .error (.fault f) := by
  intro h
  rw [readForm.eq_def] at h
  split at h
  · cases h
  · split at h
    · cases h
    · rename_i f' hf
      exact Token.atom?_ne_error _ f' hf
    · split at h
      · -- a list: its errors are about its closing parenthesis
        generalize readItems _ = p at h
        obtain ⟨items, after, hlen⟩ := p
        cases after with
        | nil => cases h
        | cons t tail => cases t <;> cases h
      · cases h

namespace Expr

theorem read_ne_fault (src : String) (f : Fault) : read src ≠ .error (.fault f) := by
  intro h
  unfold read at h
  cases htok : tokenize src with
  | error e =>
    simp only [htok, bind, Except.bind] at h
    obtain ⟨s, o, rfl⟩ := tokenize_eq_error htok
    cases h
  | ok ts =>
    simp only [htok, bind, Except.bind] at h
    cases hform : readForm ts with
    | error e =>
      rw [hform] at h
      cases h
      exact readForm_ne_fault ts f hform
    | ok p =>
      obtain ⟨e, rest, _⟩ := p
      rw [hform] at h
      cases rest <;> cases h

theorem readMany_ne_fault (src : String) (f : Fault) : readMany src ≠ .error (.fault f) := by
  intro h
  unfold readMany at h
  cases htok : tokenize src with
  | error e =>
    simp only [htok, bind, Except.bind] at h
    obtain ⟨s, o, rfl⟩ := tokenize_eq_error htok
    cases h
  | ok ts =>
    simp only [htok, bind, Except.bind] at h
    -- what the items leave is read once more only to report why it starts no form
    split at h
    · cases h
    · split at h
      · rename_i rest _ e hform
        cases h
        exact readForm_ne_fault _ f hform
      · cases h

end Expr

/-! ## No run reaches a fault -/

/-- **Reading and evaluation never fault**: no evaluation of any expression, counted or not,
and no reading of any tokens or program text reaches a case the interpreter's checks rule out. -/
theorem reading_and_evaluation_never_fault :
    (∀ (L fuel depth : Nat) (env : ScopeId) (e : Expr) (m : Machine) (f : Fault),
      ((eval L fuel depth env e).run.run m).1 ≠ .error (.fault f)) ∧
    (∀ (limit : Nat), limit ≤ wordMax → ∀ (fuel : Nat) (n : Calls limit) (env : ScopeId)
      (e : Expr) (m : Machine),
      let r := (Counted.eval limit fuel env e).run.run (m, n)
      (∀ f, r.1 ≠ .error (.fault f)) ∧ (∀ f, r.1 ≠ .error (.halt (.fault f))) ∧ r.2.2 = n) ∧
    (∀ (ts : List Token) (f : Fault), readForm ts ≠ .error (.fault f)) ∧
    (∀ (src : String) (f : Fault),
      Expr.read src ≠ .error (.fault f) ∧ Expr.readMany src ≠ .error (.fault f)) :=
  ⟨fun L fuel depth env e m f hf => eval_noFault L fuel depth env e m _ hf f rfl,
    fun _ hlimit fuel n env e m => Counted.eval_noFault hlimit fuel n env e m,
    readForm_ne_fault, fun src f => ⟨Expr.read_ne_fault src f, Expr.readMany_ne_fault src f⟩⟩

/-- A lone double quote held as a string literal is no form the language knows: counted
evaluation fails on it as such, not at a fault. -/
theorem reading_and_evaluation_never_fault_quote :
    let r := (Counted.eval 1 1 globalScope (.str "\"")).run.run (default, ⟨0, Nat.zero_le 1⟩)
    1 ≤ wordMax ∧ r.1 = .error (.halt (.error (.unimplemented (.str "\"")))) ∧
      (∀ f, r.1 ≠ .error (.fault f)) ∧ (∀ f, r.1 ≠ .error (.halt (.fault f))) ∧
        r.2.2 = ⟨0, Nat.zero_le 1⟩ :=
  ⟨by decide, rfl, reading_and_evaluation_never_fault.2.1 1 (by decide) 1 ⟨0, Nat.zero_le 1⟩
    globalScope (.str "\"") default⟩

end MiniLisp
