import MiniLisp.Proofs.Syntax.Reading

/-! # Reading follows the grammar of forms

The forms of program text have the grammar `form ::= text | word | ( form* )`. A string
literal spells a text form; a word spells a number when it looks like one and is the literal of
a finite double, and a symbol when it does not look like a number; a word that looks like a
number but spells none spells nothing. `Derives ts e` says that the tokens `ts` spell the form
`e`, and `DerivesAll ts es` that they split into spellings of the forms `es`, in order.

Reading is correct for this grammar, on token lists of any length and nesting:

* `read_sound`: what reading takes from the front of the tokens spells what it returns.
* `readForm_complete`, `readItems_complete`: a spelling is read back whatever follows it; items
  are read up to tokens that start no form.
* `Derives.unique`: a token list spells at most one form, and no other form is spelled by a
  prefix of it.
* `reading_follows_grammar`: reading one form, one program text and a whole program is exactly
  the grammar.
-/

namespace MiniLisp

mutual
/-- `Derives ts e`: the tokens `ts` spell the form `e`. -/
inductive Derives : List Token → Expr → Prop
  | text (s : String) : Derives [.text s] (.str ("\"" ++ s ++ "\""))
  | number {w : String} {x : Float} :
      looksNumeric w = true → readNumber? w = some x → Derives [.word w] (.num x)
  | symbol {w : String} : looksNumeric w = false → Derives [.word w] (.sym w)
  | list {ts : List Token} {es : List Expr} :
      DerivesAll ts es → Derives (.openParen :: ts ++ [.closeParen]) (.list es)

/-- `DerivesAll ts es`: the tokens `ts` split into spellings of the forms `es`, in order. -/
inductive DerivesAll : List Token → List Expr → Prop
  | nil : DerivesAll [] []
  | cons {ts ts' : List Token} {e : Expr} {es : List Expr} :
      Derives ts e → DerivesAll ts' es → DerivesAll (ts ++ ts') (e :: es)
end

theorem derives_of_atom? {t : Token} {e : Expr} (h : t.atom? = .ok (some e)) : Derives [t] e := by
  cases t with
  | openParen => cases h
  | closeParen => cases h
  | text s =>
    cases h
    exact .text s
  | word w =>
    rw [Token.atom?_word, Except.ok.injEq] at h
    split_ifs at h with hn
    · obtain ⟨x, hx, rfl⟩ := Option.map_eq_some_iff.1 h
      exact .number hn hx
    · cases h
      exact .symbol (by simpa using hn)

/-! ## Reading takes spellings -/

/-- **Reading is sound**: a form read from the front of the tokens is spelled by the tokens it
took, and the items read are spelled by theirs. -/
theorem read_sound :
    (∀ ts e (r : Rest ts), readForm ts = .ok (e, r) → ∃ ts₀, ts = ts₀ ++ r.val ∧ Derives ts₀ e) ∧
    (∀ ts, ∃ ts₀, ts = ts₀ ++ (readItems ts).2.val ∧ DerivesAll ts₀ (readItems ts).1) := by
  refine readForm.mutual_induct
    (fun ts => ∀ e (r : Rest ts), readForm ts = .ok (e, r) →
      ∃ ts₀, ts = ts₀ ++ r.val ∧ Derives ts₀ e)
    (fun ts => ∃ ts₀, ts = ts₀ ++ (readItems ts).2.val ∧ DerivesAll ts₀ (readItems ts).1)
    ?_ ?_ ?_ ?_ ?_ ?_ ?_ ?_ ?_
  · -- no token: nothing is read
    intro e r h
    rw [readForm.eq_1] at h
    cases h
  · -- an atom takes its one token
    intro t rest e ht e' r h
    obtain ⟨_, h'⟩ := readForm_atom ht rest
    rw [h'] at h
    cases h
    exact ⟨[t], rfl, derives_of_atom? ht⟩
  · -- the atom reader never faults
    intro t rest f hf
    exact absurd hf (Token.atom?_ne_error t f)
  · -- a closed list takes its parentheses and the tokens of its items
    intro rest items r _ _ hlen hitems ih e r' h
    obtain ⟨r'', hr'', rfl, rfl⟩ := readForm_openParen_eq_ok h
    obtain ⟨ts₀, hts, hall⟩ := ih
    rw [hr''] at hts
    exact ⟨.openParen :: ts₀ ++ [.closeParen], by simp [hts], .list hall⟩
  · -- a list not closed reads nothing
    intro rest items t' tail _ hne _ hlen hitems _ e r h
    obtain ⟨r', hr', -, -⟩ := readForm_openParen_eq_ok h
    rw [hitems] at hr'
    cases hr'
    exact absurd rfl hne
  · intro rest items _ _ hlen hitems _ e r h
    obtain ⟨r', hr', -, -⟩ := readForm_openParen_eq_ok h
    rw [hitems] at hr'
    cases hr'
  · -- a token that starts no form
    intro rest t hne hnone e r h
    rw [readForm.eq_def] at h
    simp only [hnone] at h
    cases h
  · -- items: the first form's tokens, then those of the items after it
    intro ts e r hr hform items after hlen hrec ihF ihI
    obtain ⟨ts₁, hts₁, hd⟩ := ihF e ⟨r, hr⟩ hform
    obtain ⟨ts₂, hts₂, hall⟩ := ihI
    obtain ⟨hA, hB⟩ := readItems_of_ok hform
    rw [hA, hB]
    refine ⟨ts₁ ++ ts₂, ?_, .cons hd hall⟩
    rw [hts₁, List.append_assoc, ← hts₂]
  · -- items end at once
    intro ts err herr _
    rw [readItems_of_error herr]
    exact ⟨[], rfl, .nil⟩

/-! ## Spellings are read -/

mutual
/-- **Reading is complete**: a form is read back from its spelling, whatever follows it. -/
theorem readForm_complete {ts : List Token} {e : Expr} :
    Derives ts e → ∀ r : List Token, ∃ h, readForm (ts ++ r) = .ok (e, ⟨r, h⟩)
  | .text s, r => readForm_atom rfl r
  | .number hn hx, r => readForm_atom (by simp [hn, hx]) r
  | .symbol hn, r => readForm_atom (by simp [hn]) r
  | @Derives.list items _ hall, r => by
    -- the items stop at the closing parenthesis, which starts no form
    obtain ⟨hitems, hrest⟩ :=
      readItems_complete hall (.closeParen :: r) ⟨_, readForm_closeParen r⟩
    have htoks : Token.openParen :: items ++ [.closeParen] ++ r =
        .openParen :: (items ++ .closeParen :: r) := by simp
    rw [htoks]
    exact readForm_list hitems hrest

theorem readItems_complete {ts : List Token} {es : List Expr} :
    DerivesAll ts es → ∀ r : List Token, (∃ err, readForm r = .error err) →
      (readItems (ts ++ r)).1 = es ∧ (readItems (ts ++ r)).2.val = r
  | .nil, r, ⟨_, hr⟩ => by simp [readItems_of_error hr]
  | .cons hd hall, r, hr => by
    obtain ⟨_, hform⟩ := readForm_complete hd (_ ++ r)
    obtain ⟨hA, hB⟩ := readItems_of_ok hform
    obtain ⟨h1, h2⟩ := readItems_complete hall r hr
    rw [List.append_assoc, hA, hB, h1, h2]
    exact ⟨rfl, rfl⟩
end

/-- A token list spells at most one form, and when a form is spelled by a prefix of the tokens,
that prefix is the only one. -/
theorem Derives.unique {ts₁ ts₂ r₁ r₂ : List Token} {e₁ e₂ : Expr} (h₁ : Derives ts₁ e₁)
    (h₂ : Derives ts₂ e₂) (h : ts₁ ++ r₁ = ts₂ ++ r₂) : ts₁ = ts₂ ∧ e₁ = e₂ := by
  obtain ⟨_, hf₁⟩ := readForm_complete h₁ r₁
  have hf₂ := readForm_complete h₂ r₂
  -- both are readings of the same tokens, so they take the same form and leave the same rest
  rw [← h] at hf₂
  obtain ⟨_, hf₂⟩ := hf₂
  rw [hf₁] at hf₂
  cases hf₂
  exact ⟨List.append_cancel_right h, rfl⟩

theorem readItems_snd_of_fst_nil {ts : List Token} (h : (readItems ts).1 = []) :
    (readItems ts).2.val = ts := by
  cases hf : readForm ts with
  | error err => rw [readItems_of_error hf]
  | ok p =>
    obtain ⟨e, r, hr⟩ := p
    rw [(readItems_of_ok hf).1] at h
    cases h

/-! ## Reading is the grammar -/

/-- Reading one form from the front of the tokens is taking a spelling of it. -/
theorem readForm_eq_ok_iff {ts r : List Token} {e : Expr} :
    (∃ h, readForm ts = .ok (e, ⟨r, h⟩)) ↔ ∃ ts₀, ts = ts₀ ++ r ∧ Derives ts₀ e := by
  constructor
  · rintro ⟨h, hform⟩
    exact read_sound.1 ts e ⟨r, h⟩ hform
  · rintro ⟨ts₀, rfl, hd⟩
    exact readForm_complete hd r

/-- Reading one form fails exactly when no prefix of the tokens spells a form. -/
theorem readForm_eq_error_iff {ts : List Token} :
    (∃ err, readForm ts = .error err) ↔ ¬ ∃ ts₀ r e, ts = ts₀ ++ r ∧ Derives ts₀ e := by
  constructor
  · rintro ⟨err, herr⟩ ⟨ts₀, r, e, rfl, hd⟩
    obtain ⟨_, hform⟩ := readForm_complete hd r
    rw [hform] at herr
    cases herr
  · intro hnone
    cases hform : readForm ts with
    | error err => exact ⟨err, rfl⟩
    | ok p =>
      obtain ⟨e, r⟩ := p
      obtain ⟨ts₀, hts, hd⟩ := read_sound.1 ts e r hform
      exact absurd ⟨ts₀, r.val, e, hts, hd⟩ hnone

/-- All forms of the tokens are read exactly when the tokens split into spellings of forms. -/
theorem readItems_eq_iff {ts : List Token} {es : List Expr} :
    ((readItems ts).1 = es ∧ (readItems ts).2.val = []) ↔ DerivesAll ts es := by
  constructor
  · rintro ⟨rfl, hrest⟩
    obtain ⟨ts₀, hts, hall⟩ := read_sound.2 ts
    rw [hrest, List.append_nil] at hts
    subst hts
    exact hall
  · intro hall
    have := readItems_complete hall [] ⟨_, readForm.eq_1⟩
    rwa [List.append_nil] at this

namespace Expr

theorem read_eq_ok {src : String} {e : Expr} :
    read src = .ok e ↔ ∃ ts h, tokenize src = .ok ts ∧ readForm ts = .ok (e, ⟨[], h⟩) := by
  constructor
  · intro h
    unfold read at h
    cases htok : tokenize src with
    | error err => simp only [htok, bind, Except.bind, reduceCtorEq] at h
    | ok ts =>
      cases hform : readForm ts with
      | error err => simp only [htok, hform, bind, Except.bind, reduceCtorEq] at h
      | ok p =>
        obtain ⟨e', r, hr⟩ := p
        simp only [htok, hform, bind, Except.bind] at h
        cases r with
        | nil =>
          cases h
          exact ⟨ts, hr, rfl, hform⟩
        | cons t r => cases h
  · rintro ⟨ts, hr, htok, hform⟩
    simp only [read, htok, hform, bind, Except.bind]
    rfl

/-- A text reads as one form exactly when it reads as a program of that one form. -/
theorem read_eq_ok_iff_readMany {src : String} {e : Expr} :
    read src = .ok e ↔ readMany src = .ok [e] := by
  rw [read_eq_ok, readMany_eq_ok]
  have hnil : readItems [] = ([], ⟨[], Nat.le_refl _⟩) := readItems_of_error readForm.eq_1
  constructor
  · rintro ⟨ts, hr, htok, hform⟩
    -- the form takes every token, and no item follows it
    obtain ⟨h1, h2⟩ := readItems_of_ok hform
    exact ⟨ts, htok, by simp [h1, hnil], by simp [h2, hnil]⟩
  · rintro ⟨ts, htok, hes, hrest⟩
    cases hf : readForm ts with
    | error err =>
      rw [readItems_of_error hf] at hes
      cases hes
    | ok p =>
      obtain ⟨e', r, hr⟩ := p
      obtain ⟨h1, h2⟩ := readItems_of_ok hf
      rw [h1] at hes
      obtain ⟨rfl, hnone⟩ := List.cons_eq_cons.1 hes
      -- no item is read after the form, so it took every token
      have hr' : r = [] := by rw [← readItems_snd_of_fst_nil hnone, ← h2, hrest]
      subst hr'
      exact ⟨ts, hr, htok, hf⟩

end Expr

/-- **Reading follows the grammar of forms**: it succeeds exactly on a spelling of a form, which
is unique. -/
theorem reading_follows_grammar :
    (∀ (ts r : List Token) (e : Expr),
      (∃ h, readForm ts = .ok (e, ⟨r, h⟩)) ↔ ∃ ts₀, ts = ts₀ ++ r ∧ Derives ts₀ e) ∧
    (∀ ts : List Token,
      (∃ err, readForm ts = .error err) ↔ ¬ ∃ ts₀ r e, ts = ts₀ ++ r ∧ Derives ts₀ e) ∧
    (∀ (ts₁ ts₂ r₁ r₂ : List Token) (e₁ e₂ : Expr),
      Derives ts₁ e₁ → Derives ts₂ e₂ → ts₁ ++ r₁ = ts₂ ++ r₂ → ts₁ = ts₂ ∧ e₁ = e₂) ∧
    (∀ (src : String) (e : Expr),
      Expr.read src = .ok e ↔ ∃ ts, tokenize src = .ok ts ∧ Derives ts e) ∧
    (∀ (src : String) (es : List Expr),
      Expr.readMany src = .ok es ↔ ∃ ts, tokenize src = .ok ts ∧ DerivesAll ts es) := by
  refine ⟨fun _ _ _ => readForm_eq_ok_iff, fun _ => readForm_eq_error_iff,
    fun _ _ _ _ _ _ h₁ h₂ h => Derives.unique h₁ h₂ h, fun src e => ?_, fun src es => ?_⟩
  · rw [Expr.read_eq_ok]
    constructor
    · rintro ⟨ts, hr, htok, hform⟩
      obtain ⟨ts₀, hts, hd⟩ := readForm_eq_ok_iff.1 ⟨hr, hform⟩
      rw [List.append_nil] at hts
      exact ⟨ts, htok, hts ▸ hd⟩
    · rintro ⟨ts, htok, hd⟩
      obtain ⟨hr, hform⟩ := readForm_eq_ok_iff.2 ⟨ts, (List.append_nil ts).symm, hd⟩
      exact ⟨ts, hr, htok, hform⟩
  · rw [Expr.readMany_eq_ok]
    constructor
    · rintro ⟨ts, htok, hes, hrest⟩
      exact ⟨ts, htok, readItems_eq_iff.1 ⟨hes, hrest⟩⟩
    · rintro ⟨ts, htok, hall⟩
      exact ⟨ts, htok, readItems_eq_iff.2 hall⟩

/-- The tokens of `(a -1.5)` spell a list of a symbol and a number, and reading them takes all
of them. -/
theorem reading_follows_grammar_list :
    Derives [.openParen, .word "a", .word "-1.5", .closeParen] (.list [.sym "a", .num (-1.5)]) ∧
      ∃ h, readForm [.openParen, .word "a", .word "-1.5", .closeParen] =
        .ok (.list [.sym "a", .num (-1.5)], ⟨[], h⟩) := by
  have ha : Derives [.word "a"] (.sym "a") := .symbol (by decide)
  have hn : Derives [.word "-1.5"] (.num (-1.5)) := .number (by decide) (by decide)
  have hd : Derives [.openParen, .word "a", .word "-1.5", .closeParen]
      (.list [.sym "a", .num (-1.5)]) := .list (.cons ha (.cons hn .nil))
  exact ⟨hd, (reading_follows_grammar.1 _ _ _).2 ⟨_, (List.append_nil _).symm, hd⟩⟩

/-! ## One form and whole programs -/

/-- **One form and whole programs read alike**, and joined programs read as one. -/
theorem read_one_and_many_agree :
    (∀ (src : String) (e : Expr), Expr.read src = .ok e ↔ Expr.readMany src = .ok [e]) ∧
    (∀ (src₁ src₂ w : String) (es₁ es₂ : List Expr), Expr.readMany src₁ = .ok es₁ →
      Expr.readMany src₂ = .ok es₂ → w ≠ "" → (∀ c ∈ w.toList, Token.isSpace c) →
      Expr.readMany (src₁ ++ w ++ src₂) = .ok (es₁ ++ es₂)) :=
  ⟨fun _ _ => Expr.read_eq_ok_iff_readMany,
    fun _ _ _ _ _ h₁ h₂ hw hblank => Expr.readMany_join h₁ h₂ hw hblank⟩

/-- The programs `(a)` and `b`, joined by a tab, read as the list and then the symbol. -/
theorem read_one_and_many_agree_tab :
    Expr.readMany "(a)" = .ok [.list [.sym "a"]] ∧ Expr.readMany "b" = .ok [.sym "b"] ∧
    "\t" ≠ "" ∧ (∀ c ∈ "\t".toList, Token.isSpace c) ∧
    Expr.readMany ("(a)" ++ "\t" ++ "b") = .ok ([.list [.sym "a"]] ++ [.sym "b"]) := by
  have ha : Derives [.word "a"] (.sym "a") := .symbol (by decide)
  have hb : Derives [.word "b"] (.sym "b") := .symbol (by decide)
  have ht₁ : tokenize "(a)" = .ok [.openParen, .word "a", .closeParen] := by
    simp [tokenize, show "(a)".toList = ['(', 'a', ')'] by decide, scan, startToken,
      Token.isSpace, Token.isWordChar, Except.map, show String.ofList ['a'] = "a" by decide]
  have ht₂ : tokenize "b" = .ok [.word "b"] := by
    simp [tokenize, show "b".toList = ['b'] by decide, scan, startToken, Token.isSpace,
      Token.isWordChar, Except.map, show String.ofList ['b'] = "b" by decide]
  have h₁ : Expr.readMany "(a)" = .ok [.list [.sym "a"]] :=
    Expr.readMany_eq_ok.2 ⟨_, ht₁, readItems_eq_iff.2 (.cons (.list (.cons ha .nil)) .nil)⟩
  have h₂ : Expr.readMany "b" = .ok [.sym "b"] :=
    Expr.readMany_eq_ok.2 ⟨_, ht₂, readItems_eq_iff.2 (.cons hb .nil)⟩
  have hblank : ∀ c ∈ "\t".toList, Token.isSpace c := by
    simp [show "\t".toList = ['\t'] by decide, Token.isSpace]
  exact ⟨h₁, h₂, by decide, hblank,
    read_one_and_many_agree.2 _ _ _ _ _ h₁ h₂ (by decide) hblank⟩

end MiniLisp
