import MiniLisp.Proofs.ChainedMap

/-! # A list is evaluated by its head

What a list does is decided by its head, in this order: an operator symbol makes an operator
form, whatever the scope binds to that symbol; a keyword makes a special form; anything else is
evaluated and called. This module states what the first two ways do.

* `eval_operator`, `eval_keyword`, `run_eval_call_operator`: an operator form, a special form, and
  a call through a variable bound to an operator's builtin, each as one equation.
* `operator_form_is_builtin_call`: an operator form does what a call of the operator's builtin
  does, through any variable bound to it that spells no other operator;
  `rebound_minus_stays_subtraction`: through a variable that spells another operator, it does not.
* `Keyword.fits`: the operands each special form needs; `special_of_misfit`: a special form of
  the wrong shape fails with the whole form and runs none of its parts;
  `malformed_forms_fail_first`: evaluating it fails at once and changes nothing.
-/

namespace MiniLisp

/-! ## Heads -/

namespace Expr

theorem operator?_symbol (o : Operator) : (Expr.sym o.symbol).operator? = some o := by
  cases o <;> decide

theorem operator?_keyword (kw : Keyword) : (Expr.sym kw.word).operator? = none := by
  cases kw <;> decide

theorem keyword?_keyword (kw : Keyword) : (Expr.sym kw.word).keyword? = some kw := by
  cases kw <;> decide

theorem keyword?_of_isNameWord {g : String} (hg : isNameWord g = true) :
    (Expr.sym g).keyword? = none := by
  simp only [isNameWord, Bool.and_eq_true, Option.isNone_iff_eq_none] at hg
  simp [keyword?, symbol?, hg.2]

theorem varName?_isSome (e : Expr) : e.varName?.isSome = e.isVariableName := by
  cases e with
  | sym n => by_cases h : isNameWord n <;> simp [varName?, isVariableName, symbol?, h]
  | _ => simp [varName?, isVariableName]

theorem isVariableName_of_varName? {e : Expr} {name : String} (h : e.varName? = some name) :
    e.isVariableName = true := by
  rw [← varName?_isSome, h]
  rfl

end Expr

/-! ## Operator forms -/

/-- The global scope of a new session binds each operator's symbol to the operator's builtin. -/
theorem Store.initial_lookup_operator (o : Operator) :
    Store.initial.lookup globalScope o.symbol = some (.builtin (.op o)) := by
  rw [Store.lookup_of_chain (.root rfl rfl)]
  cases o <;> rfl

/-- An operator form evaluates its operands in order and applies the operator to them. -/
theorem eval_operator (L fuel depth : Nat) (env : ScopeId) (o : Operator) (es : List Expr) :
    eval L (fuel + 1) depth env (.list (.sym o.symbol :: es)) =
      es.mapM (eval L fuel depth env) >>= fun args => EvalM.ofExcept (o.apply args) := by
  rw [eval, Expr.operator?_symbol]

theorem eval_sym_of_isNameWord (L fuel depth : Nat) (env : ScopeId) {g : String}
    (hg : Expr.isNameWord g = true) : eval L (fuel + 1) depth env (.sym g) = EvalM.lookup env g := by
  simp [eval, hg]

/-- A call through a variable bound to an operator's builtin looks the variable up, which
changes nothing, then evaluates the operands in order and applies the operator to them. -/
theorem run_eval_call_operator {L fuel depth : Nat} {env : ScopeId} {m : Machine} {g : String}
    {o : Operator} (es : List Expr) (hg : Expr.isNameWord g = true)
    (hop : Operator.ofSymbol? g = none) (hlook : m.store.lookup env g = some (.builtin (.op o))) :
    (eval L (fuel + 2) depth env (.list (.sym g :: es))).run.run m =
      (es.mapM (eval L (fuel + 1) depth env) >>= fun args => EvalM.ofExcept (o.apply args)).run.run m := by
  have hhead : (Expr.sym g).operator? = none := by simp [Expr.operator?, Expr.symbol?, hop]
  rw [eval, hhead, Expr.keyword?_of_isNameWord hg]
  rw [run_bind, eval_sym_of_isNameWord L fuel depth env hg, EvalM.run_lookup, hlook]
  rfl

/-- **An operator form is a call of the operator's builtin**, through any variable bound to it
that spells no other operator. -/
theorem operator_form_is_builtin_call (L fuel depth : Nat) (env : ScopeId) (m : Machine)
    (o : Operator) (g : String) (es : List Expr) (hname : Expr.isNameWord g = true)
    (hother : ∀ o' : Operator, o'.symbol = g → o' = o)
    (hlook : m.store.lookup env g = Store.initial.lookup globalScope o.symbol) :
    (eval L (fuel + 2) depth env (.list (.sym o.symbol :: es))).run.run m =
      (eval L (fuel + 2) depth env (.list (.sym g :: es))).run.run m := by
  rw [Store.initial_lookup_operator] at hlook
  cases hop : Operator.ofSymbol? g with
  | some o' =>
    -- `g` spells an operator, which can only be `o`: the two forms are the same form
    have hsym := Operator.symbol_of_ofSymbol? hop
    obtain rfl := hother o' hsym
    rw [hsym]
  | none => rw [eval_operator, run_eval_call_operator es hname hop hlook]

/-- After `(var plus +)` in a new session, `(+ "a" 1)` and `(plus "a" 1)` evaluate alike. -/
theorem operator_form_is_builtin_call_plus :
    let m : Machine :=
      { store := Store.initial.define globalScope "plus" (.builtin (.op .add)), out := "" }
    let es := [Expr.str "\"a\"", Expr.num 1]
    Expr.isNameWord "plus" = true ∧ (∀ o' : Operator, o'.symbol = "plus" → o' = .add) ∧
    m.store.lookup globalScope "plus" = Store.initial.lookup globalScope Operator.add.symbol ∧
    (eval defaultMaxDepth (ample + 2) 0 globalScope (.list (.sym Operator.add.symbol :: es))).run.run m =
      (eval defaultMaxDepth (ample + 2) 0 globalScope (.list (.sym "plus" :: es))).run.run m := by
  intro m es
  have hname : Expr.isNameWord "plus" = true := by decide
  have hother : ∀ o' : Operator, o'.symbol = "plus" → o' = .add := by
    intro o' h
    cases o' <;> exact absurd h (by decide)
  have hlook : m.store.lookup globalScope "plus" = Store.initial.lookup globalScope Operator.add.symbol := by
    rw [Store.lookup_of_chain (Store.chain_define.2 (.root rfl rfl)), Store.initial_lookup_operator]
    rfl
  exact ⟨hname, hother, hlook,
    operator_form_is_builtin_call defaultMaxDepth ample 0 globalScope m .add "plus" es hname hother hlook⟩

/-- After `(set - +)` in a new session, `(- "a" "b")` still subtracts, so it fails where
`(+ "a" "b")` joins. -/
theorem rebound_minus_stays_subtraction :
    let m : Machine :=
      { store := Store.initial.define globalScope "-" (.builtin (.op .add)), out := "" }
    let es := [Expr.str "\"a\"", Expr.str "\"b\""]
    m.store.lookup globalScope "-" = Store.initial.lookup globalScope Operator.add.symbol ∧
    (eval defaultMaxDepth ample 0 globalScope (.list (.sym "+" :: es))).run.run m =
      (.ok (.str "ab"), m) ∧
    (eval defaultMaxDepth ample 0 globalScope (.list (.sym "-" :: es))).run.run m =
      (.error (.error (.typeMismatch .sub .string)), m) ∧
    (eval defaultMaxDepth ample 0 globalScope (.list (.sym "+" :: es))).run.run m ≠
      (eval defaultMaxDepth ample 0 globalScope (.list (.sym "-" :: es))).run.run m := by
  intro m es
  have hlook : m.store.lookup globalScope "-" = Store.initial.lookup globalScope Operator.add.symbol := by
    rw [Store.lookup_of_chain (Store.chain_define.2 (.root rfl rfl)), Store.initial_lookup_operator]
    rfl
  have hadd : (eval defaultMaxDepth ample 0 globalScope (.list (.sym "+" :: es))).run.run m =
      (.ok (.str "ab"), m) := rfl
  have hsub : (eval defaultMaxDepth ample 0 globalScope (.list (.sym "-" :: es))).run.run m =
      (.error (.error (.typeMismatch .sub .string)), m) := rfl
  refine ⟨hlook, hadd, hsub, fun h => ?_⟩
  rw [hadd, hsub] at h
  cases h

/-! ## Special forms of the wrong shape -/

/-- A parenthesised list of variable names, as parameters are written. -/
def Expr.isParamList : Expr → Bool
  | .list ps => ps.all Expr.isVariableName
  | _ => false

/-- The operands each special form needs: a block at least one form; `var` and `set` a variable
name and a value; `if` three operands and `while` two; `def` a variable name, a parameter list
and a body; `lambda` a parameter list and a body. -/
def Keyword.fits : Keyword → List Expr → Bool
  | .begin, es => !es.isEmpty
  | .var, [n, _] => n.isVariableName
  | .set, [n, _] => n.isVariableName
  | .cond, es => es.length == 3
  | .loop, es => es.length == 2
  | .define, [n, ps, _] => n.isVariableName && ps.isParamList
  | .lambda, [ps, _] => ps.isParamList
  | _, _ => false

theorem Expr.mapM_varName?_isSome :
    ∀ ps : List Expr, (ps.mapM Expr.varName?).isSome = ps.all Expr.isVariableName
  | [] => rfl
  | p :: ps => by
    rw [List.mapM_cons, List.all_cons, ← varName?_isSome p, ← mapM_varName?_isSome ps]
    cases p.varName? <;> cases ps.mapM Expr.varName? <;> rfl

theorem Expr.paramNames?_isSome (ps : Expr) : ps.paramNames?.isSome = ps.isParamList := by
  cases ps with
  | list ps => exact mapM_varName?_isSome ps
  | _ => rfl

theorem Expr.isParamList_of_paramNames? {ps : Expr} {names : List String}
    (h : ps.paramNames? = some names) : ps.isParamList = true := by
  rw [← paramNames?_isSome, h]
  rfl

/-- A special form of the wrong shape fails with the whole form, whatever evaluates its parts:
none of them is evaluated. -/
theorem special_of_misfit (ev : ScopeId → Expr → EvalM Value) (rounds : Nat) (env : ScopeId)
    (form : Expr) {kw : Keyword} {rest : List Expr} (h : kw.fits rest = false) :
    special ev rounds env form kw rest = EvalM.fail (.unimplemented form) := by
  -- every arm of `special` that runs a part is one of a shape that `fits` accepts
  unfold special
  split
  · simp [Keyword.fits] at h
  · split
    · rename_i n _ _ hn
      simp [Keyword.fits, Expr.isVariableName_of_varName? hn] at h
    · rfl
  · split
    · rename_i n _ _ hn
      simp [Keyword.fits, Expr.isVariableName_of_varName? hn] at h
    · rfl
  · simp [Keyword.fits] at h
  · simp [Keyword.fits] at h
  · split
    · rename_i n ps _ _ _ hn hps
      simp [Keyword.fits, Expr.isVariableName_of_varName? hn,
        Expr.isParamList_of_paramNames? hps] at h
    · rfl
  · split
    · rename_i ps _ _ hps
      simp [Keyword.fits, Expr.isParamList_of_paramNames? hps] at h
    · rfl
  · rfl

theorem eval_keyword (L fuel depth : Nat) (env : ScopeId) (kw : Keyword) (rest : List Expr) :
    eval L (fuel + 1) depth env (.list (.sym kw.word :: rest)) =
      special (eval L fuel depth) fuel env (.list (.sym kw.word :: rest)) kw rest := by
  rw [eval, Expr.operator?_keyword, Expr.keyword?_keyword]

/-- **Malformed special forms fail before evaluating anything**, with the whole form. -/
theorem malformed_forms_fail_first (L fuel depth : Nat) (env : ScopeId) (m : Machine) :
    (∀ (kw : Keyword) (rest : List Expr), kw.fits rest = false →
      (∀ (ev : ScopeId → Expr → EvalM Value) (rounds : Nat),
        special ev rounds env (.list (.sym kw.word :: rest)) kw rest =
          EvalM.fail (.unimplemented (.list (.sym kw.word :: rest)))) ∧
      (eval L (fuel + 1) depth env (.list (.sym kw.word :: rest))).run.run m =
        (.error (.error (.unimplemented (.list (.sym kw.word :: rest)))), m)) ∧
    (eval L (fuel + 1) depth env (.list [])).run.run m =
      (.error (.error (.unimplemented (.list []))), m) := by
  refine ⟨fun kw rest h => ⟨fun ev rounds => special_of_misfit ev rounds env _ h, ?_⟩, rfl⟩
  rw [eval_keyword, special_of_misfit _ _ _ _ h, EvalM.run_fail]

/-- `(if x y)` lacks its third operand: in a new session it fails at once, with the whole form. -/
theorem malformed_forms_fail_first_if :
    Keyword.cond.fits [.sym "x", .sym "y"] = false ∧
    (eval defaultMaxDepth (ample + 1) 0 globalScope (.list [.sym "if", .sym "x", .sym "y"])).run.run
        { store := Store.initial, out := "" } =
      (.error (.error (.unimplemented (.list [.sym "if", .sym "x", .sym "y"]))),
        { store := Store.initial, out := "" }) := by
  have h : Keyword.cond.fits [.sym "x", .sym "y"] = false := by decide
  exact ⟨h, ((malformed_forms_fail_first defaultMaxDepth ample 0 globalScope
    { store := Store.initial, out := "" }).1 .cond _ h).2⟩

end MiniLisp
