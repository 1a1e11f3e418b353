import Mathlib
import MiniLisp.Syntax.Reader
import MiniLisp.Proofs.Syntax.Lexing

/-! # Reading tokens

What `readForm` and `readItems` do, one lemma for each way a form can start, so that later proofs
take reading apart without unfolding it; and what follows for program texts.

* `readForm_atom`, `readForm_list`, `readItems_of_ok`, `readItems_of_error`: the reader's steps.
* `readItems_stops`: items end only where no form can be read.
* `readForm_append_readItems_append`: reading looks at no token past the end of what it reads.
* `Expr.readMany_eq_ok`, `Expr.readMany_join`: a program text reads when its items take every
  token, and two texts that read, joined by separators, read as the forms of one then the other.
-/

namespace MiniLisp

/-! ## The steps of reading -/

@[simp] theorem Token.atom?_text (s : String) :
    (Token.text s).atom? = .ok (some (.str ("\"" ++ s ++ "\""))) := rfl

@[simp] theorem Token.atom?_word (w : String) :
    (Token.word w).atom? =
      .ok (if looksNumeric w then (readNumber? w).map .num else some (.sym w)) := rfl

@[simp] theorem Token.atom?_openParen : Token.openParen.atom? = .ok none := rfl

@[simp] theorem Token.atom?_closeParen : Token.closeParen.atom? = .ok none := rfl

/-- The atom reader takes only the tokens it accepts, so it never faults. -/
theorem Token.atom?_ne_error (t : Token) (f : Fault) : t.atom? ≠ .error f := by
  cases t <;> simp

theorem readForm_atom {t : Token} {e : Expr} (ht : t.atom? = .ok (some e)) (rest : List Token) :
    ∃ h, readForm (t :: rest) = .ok (e, ⟨rest, h⟩) :=
  ⟨by simp, by rw [readForm.eq_def]; simp only [ht]⟩

theorem readForm_list {rest r : List Token} {items : List Expr}
    (hitems : (readItems rest).1 = items) (hrest : (readItems rest).2.1 = .closeParen :: r) :
    ∃ h, readForm (.openParen :: rest) = .ok (.list items, ⟨r, h⟩) := by
  have hlen := (readItems rest).2.2
  rw [hrest] at hlen
  refine ⟨by simp at hlen ⊢; omega, ?_⟩
  rw [readForm.eq_def]
  simp only [Token.atom?]
  generalize readItems rest = p at hitems hrest
  obtain ⟨items', after, h⟩ := p
  dsimp only at hitems hrest
  subst hitems hrest
  rfl

theorem readForm_closeParen (rest : List Token) :
    readForm (.closeParen :: rest) = .error (.expectedOpen (some .closeParen)) := by
  rw [readForm.eq_def]
  rfl

theorem readItems_of_error {ts : List Token} {err : SyntaxError} (h : readForm ts = .error err) :
    readItems ts = ([], ⟨ts, Nat.le_refl _⟩) := by
  rw [readItems]
  split
  · next h' => rw [h] at h'; cases h'
  · rfl

theorem readItems_of_ok {ts : List Token} {e : Expr} {r : List Token} {hr : r.length < ts.length}
    (h : readForm ts = .ok (e, ⟨r, hr⟩)) :
    (readItems ts).1 = e :: (readItems r).1 ∧ (readItems ts).2.1 = (readItems r).2.1 := by
  rw [readItems]
  split
  · next e' r' hr' h' =>
    rw [h] at h'
    cases h'
    exact ⟨rfl, rfl⟩
  · next h' => rw [h] at h'; cases h'

/-- A list is read only up to its closing parenthesis. -/
theorem readForm_openParen_eq_ok {rest : List Token} {e : Expr} {r : Rest (.openParen :: rest)}
    (h : readForm (.openParen :: rest) = .ok (e, r)) :
    ∃ r', (readItems rest).2.val = .closeParen :: r' ∧ e = .list (readItems rest).1 ∧
      r.val = r' := by
  rw [readForm.eq_def] at h
  simp only [Token.atom?] at h
  generalize readItems rest = p at h ⊢
  obtain ⟨items, after, hlen⟩ := p
  cases after with
  | nil => cases h
  | cons t tail =>
    cases t <;> try cases h
    exact ⟨tail, rfl, rfl, rfl⟩

/-! ## Reading past the end of a form -/

/-- Items end only at tokens that start no form. -/
theorem readItems_stops (ts : List Token) :
    ∃ err, readForm (readItems ts).2.val = .error err := by
  cases hf : readForm ts with
  | error err => exact ⟨err, by rw [readItems_of_error hf]; exact hf⟩
  | ok p =>
    obtain ⟨e, r, hr⟩ := p
    rw [(readItems_of_ok hf).2]
    exact readItems_stops r
termination_by ts.length

/-- Reading a form never looks past its end: the tokens after it are left behind untouched. -/
theorem readForm_append_readItems_append :
    (∀ ts e (r : Rest ts), readForm ts = .ok (e, r) →
      ∀ ts', ∃ h, readForm (ts ++ ts') = .ok (e, ⟨r.val ++ ts', h⟩)) ∧
    (∀ ts, ∀ ts', (readItems (ts ++ ts')).1 =
        (readItems ts).1 ++ (readItems ((readItems ts).2.val ++ ts')).1 ∧
      (readItems (ts ++ ts')).2.val = (readItems ((readItems ts).2.val ++ ts')).2.val) := by
  refine readForm.mutual_induct
    (fun ts => ∀ e (r : Rest ts), readForm ts = .ok (e, r) →
      ∀ ts', ∃ h, readForm (ts ++ ts') = .ok (e, ⟨r.val ++ ts', h⟩))
    (fun ts => ∀ ts', (readItems (ts ++ ts')).1 =
        (readItems ts).1 ++ (readItems ((readItems ts).2.val ++ ts')).1 ∧
      (readItems (ts ++ ts')).2.val = (readItems ((readItems ts).2.val ++ ts')).2.val)
    ?_ ?_ ?_ ?_ ?_ ?_ ?_ ?_ ?_
  · intro e r h
    rw [readForm.eq_1] at h
    cases h
  · -- an atom: what follows it is left as it was
    intro t rest e ht e' r h ts'
    obtain ⟨_, h'⟩ := readForm_atom ht rest
    rw [h'] at h
    cases h
    exact readForm_atom ht (rest ++ ts')
  · -- the atom reader never faults
    intro t rest f hf
    exact absurd hf (Token.atom?_ne_error t f)
  · -- a list: its items stop at the same closing parenthesis, before the added tokens
    intro rest items r _ _ hlen hitems ih e r' h ts'
    obtain ⟨r'', hr'', rfl, rfl⟩ := readForm_openParen_eq_ok h
    obtain ⟨hA, hB⟩ := ih ts'
    rw [hr'', List.cons_append, readItems_of_error (readForm_closeParen _)] at hA hB
    exact readForm_list (by simpa using hA) hB
  · -- the forms that fail read nothing
    intro rest items t' tail _ hne _ hlen hitems _ e r h
    obtain ⟨r', hr', -, -⟩ := readForm_openParen_eq_ok h
    rw [hitems] at hr'
    cases hr'
    exact absurd rfl hne
  · intro rest items _ _ hlen hitems _ e r h
    obtain ⟨r', hr', -, -⟩ := readForm_openParen_eq_ok h
    rw [hitems] at hr'
    cases hr'
  · intro rest t hne hnone e r h
    rw [readForm.eq_def] at h
    simp only [hnone] at h
    cases h
  · -- items: the first form reads alike, and the items after it by induction
    intro ts e r hr hform items after hlen hrec ihF ihI ts'
    obtain ⟨_, hform'⟩ := ihF e ⟨r, hr⟩ hform ts'
    obtain ⟨hA, hB⟩ := readItems_of_ok hform
    obtain ⟨hA', hB'⟩ := readItems_of_ok hform'
    obtain ⟨h1, h2⟩ := ihI ts'
    rw [hA', hB', hA, hB, h1, h2]
    exact ⟨rfl, rfl⟩
  · -- items end at once: reading starts afresh on the joined tokens
    intro ts err herr _ ts'
    rw [readItems_of_error herr]
    exact ⟨rfl, rfl⟩

/-! ## Program texts -/

namespace Expr

theorem readMany_eq_ok {src : String} {es : List Expr} :
    readMany src = .ok es ↔
      ∃ ts, tokenize src = .ok ts ∧ (readItems ts).1 = es ∧ (readItems ts).2.val = [] := by
  constructor
  · intro h
    unfold readMany at h
    cases htok : tokenize src with
    | error err => simp only [htok, bind, Except.bind, reduceCtorEq] at h
    | ok ts =>
      refine ⟨ts, rfl, ?_⟩
      simp only [htok, bind, Except.bind] at h
      obtain ⟨err, herr⟩ := readItems_stops ts
      rcases hp : readItems ts with ⟨es', rest, hrest⟩
      rw [hp] at h herr
      cases rest with
      | nil =>
        cases h
        exact ⟨rfl, rfl⟩
      | cons t rest =>
        simp only at herr h
        rw [herr] at h
        cases h
  · rintro ⟨ts, htok, hes, hrest⟩
    unfold readMany
    simp only [htok, bind, Except.bind]
    generalize readItems ts = p at hes hrest ⊢
    obtain ⟨es', rest, _⟩ := p
    dsimp only at hes hrest
    subst hes hrest
    rfl

/-- **Two programs joined by separators read as one**: the forms of the first, then those of the
second. -/
theorem readMany_join {src₁ src₂ w : String} {es₁ es₂ : List Expr}
    (h₁ : readMany src₁ = .ok es₁) (h₂ : readMany src₂ = .ok es₂) (hw : w ≠ "")
    (hblank : ∀ c ∈ w.toList, Token.isSpace c) :
    readMany (src₁ ++ w ++ src₂) = .ok (es₁ ++ es₂) := by
  obtain ⟨ts₁, htok₁, hes₁, hrest₁⟩ := readMany_eq_ok.1 h₁
  obtain ⟨ts₂, htok₂, hes₂, hrest₂⟩ := readMany_eq_ok.1 h₂
  -- the items of the first text take all its tokens, so reading goes on into the second
  obtain ⟨hA, hB⟩ := readForm_append_readItems_append.2 ts₁ ts₂
  rw [hrest₁, List.nil_append] at hA hB
  exact readMany_eq_ok.2 ⟨ts₁ ++ ts₂, tokenize_join htok₁ htok₂ hw hblank,
    by rw [hA, hes₁, hes₂], by rw [hB, hrest₂]⟩

end Expr

end MiniLisp
