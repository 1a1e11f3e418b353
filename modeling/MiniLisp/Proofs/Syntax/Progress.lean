import MiniLisp.Proofs.Syntax.Grammar
import MiniLisp.Proofs.Syntax.Printing

/-! # Reading always moves forward

`readForm` and `readItems` recurse on the number of tokens left: a form read hands back a rest
that is shorter than the tokens it was given, and the items hand back one that is no longer.
That is what makes them total. This module says what the rest is: the tokens after a prefix,
which for a form is never empty. So the loop that reads items stops after at most as many rounds
as there are tokens, and a program of any nesting reads to an answer.

* `Derives.ne_nil`, `DerivesAll.length_le`: a form is spelled by at least one token, so forms
  spelled one after another are no more than their tokens.
* `readForm_strict_suffix`: a form read leaves a strict suffix of the tokens.
* `readItems_suffix`: the items read leave a suffix, and are no more than the tokens they took.
* `read_nestedCalls`: `(f (f … (f x)))` reads back, to any depth.
* `reading_always_advances`: the three together.
-/

namespace MiniLisp

/-! ## Spellings take tokens -/

theorem Derives.ne_nil {ts : List Token} {e : Expr} (h : Derives ts e) : ts ≠ [] := by
  cases h <;> simp

theorem DerivesAll.length_le {ts : List Token} {es : List Expr} :
    DerivesAll ts es → es.length ≤ ts.length
  | .nil => Nat.le_refl 0
  | .cons hd hall => by
    have hpos := List.length_pos_of_ne_nil hd.ne_nil
    have ih := DerivesAll.length_le hall
    simp only [List.length_cons, List.length_append]
    omega

/-! ## What reading leaves -/

/-- **A form read leaves a strict suffix** of the tokens: it takes a nonempty prefix. -/
theorem readForm_strict_suffix {ts : List Token} {e : Expr} {r : Rest ts}
    (h : readForm ts = .ok (e, r)) : ∃ ts₀, ts₀ ≠ [] ∧ ts = ts₀ ++ r.val := by
  obtain ⟨ts₀, hts, hd⟩ := read_sound.1 ts e r h
  exact ⟨ts₀, hd.ne_nil, hts⟩

/-- The items read leave a suffix of the tokens, and there are no more of them than tokens
taken: each round of the loop that reads them takes a token at least. -/
theorem readItems_suffix (ts : List Token) :
    ∃ ts₀, ts = ts₀ ++ (readItems ts).2.val ∧ (readItems ts).1.length ≤ ts₀.length := by
  obtain ⟨ts₀, hts, hall⟩ := read_sound.2 ts
  exact ⟨ts₀, hts, hall.length_le⟩

/-! ## Nesting -/

/-- `n` calls of `f` around `x`: `(f (f … (f x)))`. -/
def Expr.nestedCalls : Nat → Expr
  | 0 => .sym "x"
  | n + 1 => .list [.sym "f", nestedCalls n]

/-- The text of `n` calls of `f` around `x`. -/
def nestedCallsText (n : Nat) : String :=
  String.join (List.replicate n "(f ") ++ "x" ++ String.join (List.replicate n ")")

theorem Expr.render_nestedCalls (n : Nat) : (nestedCalls n).render = nestedCallsText n := by
  induction n with
  | zero => simp [nestedCalls, nestedCallsText, render]
  | succ n ih =>
    -- one more call opens on the left and closes on the right
    have hclose : String.join (List.replicate (n + 1) ")") =
        String.join (List.replicate n ")") ++ ")" := by
      rw [List.replicate_succ', String.join_append]
      simp
    rw [nestedCalls, render, renderItems.eq_3 _ _ (List.cons_ne_nil _ _), renderItems, ih,
      nestedCallsText, nestedCallsText, hclose, List.replicate_succ, String.join_cons]
    simp only [render, ← String.append_assoc, show "(" ++ "f" ++ " " = "(f " by decide]

theorem Expr.wellFormed_nestedCalls (n : Nat) : (nestedCalls n).WellFormed := by
  -- both symbols are one letter, which is a word and starts no number
  have hsym : ∀ c ∈ ['x', 'f'], (Expr.sym (String.singleton c)).WellFormed := by
    intro c hc
    refine .sym ⟨by simp, fun d hd => ?_⟩ ?_
    · simp only [String.toList_singleton, List.mem_singleton] at hd
      subst hd
      simp only [List.mem_cons, List.not_mem_nil, or_false] at hc
      rcases hc with rfl | rfl <;> decide
    · simp only [List.mem_cons, List.not_mem_nil, or_false] at hc
      rcases hc with rfl | rfl <;> decide
  induction n with
  | zero => exact hsym 'x' (by simp)
  | succ n ih =>
    refine .list fun e he => ?_
    simp only [List.mem_cons, List.not_mem_nil, or_false] at he
    rcases he with rfl | rfl
    · exact hsym 'f' (by simp)
    · exact ih

/-- Lists nested to any depth read back, one form and as a program. -/
theorem read_nestedCalls (n : Nat) :
    Expr.read (nestedCallsText n) = .ok (.nestedCalls n) ∧
      Expr.readMany (nestedCallsText n) = .ok [.nestedCalls n] := by
  have h := Expr.read_render (Expr.wellFormed_nestedCalls n)
  rw [Expr.render_nestedCalls] at h
  exact ⟨h, Expr.read_eq_ok_iff_readMany.1 h⟩

/-! ## Reading always advances -/

/-- **Reading always advances**: each form read takes a token, and text nested to any depth
reads. -/
theorem reading_always_advances :
    (∀ (ts : List Token) (e : Expr) (r : Rest ts), readForm ts = .ok (e, r) →
      ∃ ts₀, ts₀ ≠ [] ∧ ts = ts₀ ++ r.val) ∧
    (∀ ts : List Token,
      ∃ ts₀, ts = ts₀ ++ (readItems ts).2.val ∧ (readItems ts).1.length ≤ ts₀.length) ∧
    (∀ n : Nat, Expr.read (nestedCallsText n) = .ok (.nestedCalls n) ∧
      Expr.readMany (nestedCallsText n) = .ok [.nestedCalls n]) :=
  ⟨fun _ _ _ h => readForm_strict_suffix h, readItems_suffix, read_nestedCalls⟩

/-- Reading the symbol `x` off `x y` leaves `y`, after the one token it took. -/
theorem reading_always_advances_atom :
    ∃ h, readForm [.word "x", .word "y"] = .ok (.sym "x", ⟨[.word "y"], h⟩) ∧
      ∃ ts₀, ts₀ ≠ [] ∧ [Token.word "x", .word "y"] = ts₀ ++ [.word "y"] := by
  obtain ⟨h, hform⟩ := readForm_atom (t := .word "x") (e := .sym "x")
    (by simp [show looksNumeric "x" = false by decide]) [.word "y"]
  exact ⟨h, hform, reading_always_advances.1 _ _ _ hform⟩

end MiniLisp
