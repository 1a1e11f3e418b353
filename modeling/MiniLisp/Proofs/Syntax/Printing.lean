import MiniLisp.Proofs.Decimal.NumberText
import MiniLisp.Proofs.Syntax.Reading

/-! # Printing and reading are inverse

An expression is well-formed (`Expr.WellFormed`) when its numbers are finite, its string
literals are a text without a quote between two quotes, and its symbols are words that do not
start like a number. These are exactly what reading
produces, and each reads back from its written form.

* `Expr.scan_render`, `Expr.tokenize_render`: the written form scans to the expression's tokens
  (`Expr.tokens`), items one space apart to their tokens one after another.
* `Expr.readForm_tokens`: reading those tokens gives the expression back and leaves the rest.
* `read_wellFormed`: reading well-formed tokens gives well-formed expressions.
* `read_print_inverse`: the two together, for one form and for a program.
-/

namespace MiniLisp

/-! ## Well-formed expressions and their tokens -/


/-- An expression that reading can produce: finite numbers, string literals that quote a text
without a quote, and symbols that are words no number reading would take. -/
inductive Expr.WellFormed : Expr → Prop
  | num {x : Float} : x.isFinite = true → WellFormed (.num x)
  | str {s : String} : '"' ∉ s.toList → WellFormed (.str ("\"" ++ s ++ "\""))
  | sym {n : String} : IsWord n.toList → looksNumeric n = false → WellFormed (.sym n)
  | list {items : List Expr} : (∀ e ∈ items, WellFormed e) → WellFormed (.list items)

mutual
/-- The tokens of an expression's written form. -/
def Expr.tokens : Expr → List Token
  | .num x => [.word (showNumber x)]
  | .str t => [.text (String.ofList (t.toList.drop 1).dropLast)]
  | .sym n => [.word n]
  | .list items => .openParen :: Expr.tokensItems items ++ [.closeParen]

/-- The tokens of expressions written one after another. -/
def Expr.tokensItems : List Expr → List Token
  | [] => []
  | e :: es => e.tokens ++ Expr.tokensItems es
end

namespace Expr

/-- A string literal is one text token, the text between its quotes. -/
theorem tokens_quote (s : String) : (Expr.str ("\"" ++ s ++ "\"")).tokens = [.text s] := by
  simp [tokens, String.toList_append]

theorem renderItems_eq_intercalate (es : List Expr) :
    renderItems es = " ".intercalate (es.map render) := by
  induction es with
  | nil => rfl
  | cons e es ih =>
    cases es with
    | nil => simp [renderItems]
    | cons e' es' =>
      rw [renderItems.eq_3 _ _ (List.cons_ne_nil _ _), ih]
      simp only [List.map_cons]
      rw [String.intercalate_cons_cons]

theorem scan_renderItems {es : List Expr}
    (hes : ∀ e ∈ es, ∀ pos done, scan e.render.toList pos .nothing done = .ok (done ++ e.tokens.toArray))
    (pos : Nat) (done : Array Token) :
    scan (renderItems es).toList pos .nothing done = .ok (done ++ (tokensItems es).toArray) := by
  induction es generalizing pos done with
  | nil => simp [renderItems, tokensItems, scan]
  | cons e es ih =>
    have he := hes e List.mem_cons_self
    cases es with
    | nil => simpa [renderItems, tokensItems] using he pos done
    | cons e' es' =>
      -- the item's tokens, then a space that ends it, then the other items
      rw [renderItems.eq_3 _ _ (List.cons_ne_nil _ _), String.toList_append, String.toList_append]
      obtain ⟨pos', h⟩ := scan_append_of_ok (he pos done) (c := ' ') (by simp [Token.isWordChar])
        (renderItems (e' :: es')).toList
      have hsp : " ".toList = [' '] := by decide
      rw [List.append_assoc, hsp, List.singleton_append, h, scan_space (by simp [Token.isSpace]),
        ih (fun e he => hes e (List.mem_cons_of_mem _ he))]
      simp [tokensItems]

/-- **Writing scans to the expression's tokens.** -/
theorem scan_render {e : Expr} (he : e.WellFormed) (pos : Nat) (done : Array Token) :
    scan e.render.toList pos .nothing done = .ok (done ++ e.tokens.toArray) := by
  induction he generalizing pos done with
  | num hx =>
    have hw : IsWord (showNumber _).toList :=
      ⟨showNumber_toList_ne_nil hx, fun c hc => isWordChar_of_mem_showNumber hx hc⟩
    rw [render, scan_word hw, String.ofList_toList]
    rfl
  | @str s hs =>
    have htext : ("\"" ++ s ++ "\"").toList = '"' :: (s.toList ++ ['"']) := by
      simp [String.toList_append]
    rw [render, htext, scan_text hs, String.ofList_toList, tokens_quote]
    rfl
  | sym hw _ =>
    rw [render, scan_word hw, String.ofList_toList]
    rfl
  | @list items _ ih =>
    have htext : ("(" ++ renderItems items ++ ")").toList =
        '(' :: ((renderItems items).toList ++ [')']) := by
      simp [String.toList_append]
    rw [render, htext, scan_openParen]
    obtain ⟨pos', h⟩ := scan_append_of_ok (scan_renderItems ih _ _) (c := ')')
      (by simp [Token.isWordChar]) []
    rw [h, scan_closeParen]
    simp [scan, tokens]

theorem tokenize_render {e : Expr} (he : e.WellFormed) : tokenize e.render = .ok e.tokens := by
  simp [tokenize, scan_render he, Except.map]

theorem tokenize_renderItems {es : List Expr} (hes : ∀ e ∈ es, e.WellFormed) :
    tokenize (renderItems es) = .ok (tokensItems es) := by
  simp [tokenize, scan_renderItems fun e he => scan_render (hes e he), Except.map]

end Expr

/-! ## Reading the tokens back -/

namespace Expr

theorem atom?_word_showNumber {x : Float} (hx : x.isFinite = true) :
    (Token.word (showNumber x)).atom? = .ok (some (.num x)) := by
  simp [looksNumeric_showNumber hx, readNumber?_showNumber hx]

theorem readItems_tokensItems {es : List Expr}
    (hes : ∀ e ∈ es, ∀ rest, ∃ h, readForm (e.tokens ++ rest) = .ok (e, ⟨rest, h⟩))
    {rest : List Token} {err : SyntaxError} (hstop : readForm rest = .error err) :
    (readItems (tokensItems es ++ rest)).1 = es ∧ (readItems (tokensItems es ++ rest)).2.1 = rest := by
  induction es with
  | nil => simp [tokensItems, readItems_of_error hstop]
  | cons e es ih =>
    obtain ⟨_, hform⟩ := hes e List.mem_cons_self (tokensItems es ++ rest)
    obtain ⟨hA, hB⟩ := ih fun e he => hes e (List.mem_cons_of_mem _ he)
    obtain ⟨hA', hB'⟩ := readItems_of_ok hform
    rw [tokensItems, List.append_assoc, hA', hB', hA, hB]
    exact ⟨rfl, rfl⟩

/-- **Reading a written expression's tokens** gives the expression and leaves the rest. -/
theorem readForm_tokens {e : Expr} (he : e.WellFormed) (rest : List Token) :
    ∃ h, readForm (e.tokens ++ rest) = .ok (e, ⟨rest, h⟩) := by
  induction he generalizing rest with
  | num hx => exact readForm_atom (atom?_word_showNumber hx) rest
  | @str s _ =>
    rw [tokens_quote]
    exact readForm_atom rfl rest
  | sym hw hn => exact readForm_atom (by simp [hn]) rest
  | @list items _ ih =>
    obtain ⟨hitems, hrest⟩ := readItems_tokensItems ih (readForm_closeParen rest)
    have htoks : (list items).tokens ++ rest =
        .openParen :: (tokensItems items ++ .closeParen :: rest) := by
      simp [tokens]
    rw [htoks]
    exact readForm_list hitems hrest

end Expr

/-! ## What reading produces -/

theorem isFinite_of_readNumber? {w : String} {x : Float} (h : readNumber? w = some x) :
    x.isFinite = true := by
  unfold readNumber? at h
  split at h
  · dsimp only at h
    split_ifs at h with hf
    cases h
    exact hf
  · cases h

theorem atom?_wellFormed {t : Token} {e : Expr} (h : t.atom? = .ok (some e)) (ht : t.WellFormed) :
    e.WellFormed := by
  cases t with
  | openParen => cases h
  | closeParen => cases h
  | text s =>
    cases h
    exact .str ht
  | word w =>
    rw [Token.atom?_word, Except.ok.injEq] at h
    split_ifs at h with hn
    · obtain ⟨x, hx, rfl⟩ := Option.map_eq_some_iff.1 h
      exact .num (isFinite_of_readNumber? hx)
    · cases h
      exact .sym ht (by simpa using hn)

/-- **Reading produces well-formed expressions**, from the tokens the scanner makes, and leaves
such tokens behind. -/
theorem read_wellFormed :
    (∀ ts, (∀ t ∈ ts, t.WellFormed) → ∀ e r, readForm ts = .ok (e, r) →
      e.WellFormed ∧ ∀ t ∈ r.val, t.WellFormed) ∧
    (∀ ts, (∀ t ∈ ts, t.WellFormed) →
      (∀ e ∈ (readItems ts).1, e.WellFormed) ∧ ∀ t ∈ (readItems ts).2.val, t.WellFormed) := by
  refine readForm.mutual_induct
    (fun ts => (∀ t ∈ ts, t.WellFormed) → ∀ e r, readForm ts = .ok (e, r) →
      e.WellFormed ∧ ∀ t ∈ r.val, t.WellFormed)
    (fun ts => (∀ t ∈ ts, t.WellFormed) →
      (∀ e ∈ (readItems ts).1, e.WellFormed) ∧ ∀ t ∈ (readItems ts).2.val, t.WellFormed)
    ?_ ?_ ?_ ?_ ?_ ?_ ?_ ?_ ?_
  · -- no token: nothing is read
    intro _ e r h
    rw [readForm.eq_1] at h
    cases h
  · -- an atom
    intro t rest e ht hts e' r h
    obtain ⟨_, h'⟩ := readForm_atom ht rest
    rw [h'] at h
    cases h
    exact ⟨atom?_wellFormed ht (hts t List.mem_cons_self),
      fun t' h => hts t' (List.mem_cons_of_mem _ h)⟩
  · -- the atom reader never faults
    intro t rest f hf
    exact absurd hf (Token.atom?_ne_error t f)
  · -- a list closed by its parenthesis: its items come from the inner reading
    intro rest items r _ _ hlen hitems ih hts e r' h
    obtain ⟨r'', hr'', rfl, rfl⟩ := readForm_openParen_eq_ok h
    obtain ⟨hitemsWF, hrestWF⟩ := ih fun t ht => hts t (List.mem_cons_of_mem _ ht)
    rw [hr''] at hrestWF
    exact ⟨.list hitemsWF, fun t ht => hrestWF t (List.mem_cons_of_mem _ ht)⟩
  · -- a list not closed: an error
    intro rest items t' tail _ hne _ hlen hitems _ _ e r h
    obtain ⟨r', hr', -, -⟩ := readForm_openParen_eq_ok h
    rw [hitems] at hr'
    cases hr'
    exact absurd rfl hne
  · intro rest items _ _ hlen hitems _ _ e r h
    obtain ⟨r', hr', -, -⟩ := readForm_openParen_eq_ok h
    rw [hitems] at hr'
    cases hr'
  · -- a token that starts no form
    intro rest t hne hnone _ e r h
    rw [readForm.eq_def] at h
    simp only [hnone] at h
    cases h
  · -- items: the first form, then the items after it
    intro ts e r hr hform items after hlen hrec ihF ihI hts
    obtain ⟨heWF, hrWF⟩ := ihF hts e ⟨r, hr⟩ hform
    obtain ⟨hA, hB⟩ := readItems_of_ok hform
    obtain ⟨h1, h2⟩ := ihI hrWF
    rw [hA, hB]
    refine ⟨fun e' he' => ?_, h2⟩
    rcases List.mem_cons.1 he' with rfl | he'
    · exact heWF
    · exact h1 e' he'
  · -- items end where a form fails
    intro ts err herr _ hts
    rw [readItems_of_error herr]
    exact ⟨fun e he => absurd he List.not_mem_nil, hts⟩

namespace Expr

theorem wellFormed_of_read {src : String} {e : Expr} (h : read src = .ok e) : e.WellFormed := by
  unfold read at h
  cases htok : tokenize src with
  | error err => simp only [htok, bind, Except.bind, reduceCtorEq] at h
  | ok ts =>
    cases hform : readForm ts with
    | error err => simp only [htok, hform, bind, Except.bind, reduceCtorEq] at h
    | ok p =>
      obtain ⟨e', r⟩ := p
      have he' := (read_wellFormed.1 ts (tokenize_wellFormed htok) e' r hform).1
      simp only [htok, hform, bind, Except.bind] at h
      split at h
      · cases h
        exact he'
      · cases h

theorem wellFormed_of_readMany {src : String} {es : List Expr} (h : readMany src = .ok es) :
    ∀ e ∈ es, e.WellFormed := by
  obtain ⟨ts, htok, rfl, -⟩ := readMany_eq_ok.1 h
  exact (read_wellFormed.2 ts (tokenize_wellFormed htok)).1

/-- **Printing then reading gives the expression back**, numbers bit for bit. -/
theorem read_render {e : Expr} (he : e.WellFormed) : read e.render = .ok e := by
  have key := readForm_tokens he []
  rw [List.append_nil] at key
  obtain ⟨_, hform⟩ := key
  simp only [read, tokenize_render he, hform, bind, Except.bind]
  rfl

theorem readMany_intercalate_render {es : List Expr} (hes : ∀ e ∈ es, e.WellFormed) :
    readMany (" ".intercalate (es.map render)) = .ok es := by
  obtain ⟨hA, hB⟩ := readItems_tokensItems (fun e he => readForm_tokens (hes e he)) (readForm.eq_1)
  rw [List.append_nil] at hA hB
  rw [← renderItems_eq_intercalate]
  exact readMany_eq_ok.2 ⟨_, tokenize_renderItems hes, hA, hB⟩

end Expr

/-! ## Printing and reading are inverse -/

/-- **Printing and reading are inverse** on well-formed expressions, which are all that reading
yields. -/
theorem read_print_inverse :
    (∀ src e, Expr.read src = .ok e → e.WellFormed) ∧
    (∀ src es, Expr.readMany src = .ok es → ∀ e ∈ es, e.WellFormed) ∧
    (∀ e : Expr, e.WellFormed → Expr.read e.render = .ok e) ∧
    (∀ es : List Expr, (∀ e ∈ es, e.WellFormed) →
      Expr.readMany (" ".intercalate (es.map Expr.render)) = .ok es) :=
  ⟨fun _ _ => Expr.wellFormed_of_read, fun _ _ => Expr.wellFormed_of_readMany,
    fun _ => Expr.read_render, fun _ => Expr.readMany_intercalate_render⟩

/-- A list holding a symbol that reads like a sign, a negative zero and a string literal with
parentheses and a space in it is well-formed and reads back from its text. -/
theorem read_print_inverse_negZero :
    (Expr.list [.sym "-", .num (-0.0), .str "\"a (b)\""]).WellFormed ∧
      Expr.read (Expr.list [.sym "-", .num (-0.0), .str "\"a (b)\""]).render =
        .ok (Expr.list [.sym "-", .num (-0.0), .str "\"a (b)\""]) := by
  have hwf : (Expr.list [.sym "-", .num (-0.0), .str "\"a (b)\""]).WellFormed := by
    refine .list fun e he => ?_
    simp only [List.mem_cons, List.not_mem_nil, or_false] at he
    rcases he with rfl | rfl | rfl
    · refine .sym ⟨by decide, fun c hc => ?_⟩ (by decide)
      rw [show "-".toList = ['-'] by decide, List.mem_singleton] at hc
      subst hc
      simp [Token.isWordChar]
    · exact .num (by decide)
    · rw [show "\"a (b)\"" = "\"" ++ "a (b)" ++ "\"" by decide]
      exact .str (by decide)
  exact ⟨hwf, read_print_inverse.2.2.1 _ hwf⟩

end MiniLisp
