import MiniLisp.Proofs.Json.Values
import MiniLisp.Proofs.Syntax.Printing
import MiniLisp.Cli.Program

/-! # Expressions and their JSON form are inverse

The JSON form of an expression is read back as the expression, for every expression that
either reader produces, provided lists nest at most 127 deep and the text the writer gives each
number reads back as that number (`Json.ReadsBack`), which is a property of how doubles are
written and read and not of the JSON form.

* `Json.Fits b e`: the shape of an expression that reads back with `b` levels of nesting left,
  numbers aside: lists at most `b - 1` deep (`Fits.depth_le`), string literals with both their
  quotes and symbols whose name is no quoted text, since a symbol and a string literal are
  written alike as JSON strings.
* `Fits.of_wellFormed`, `Fits.of_readValue`: both readers produce such expressions, the
  language's reader at any depth bound that holds and the JSON reader always.
* `Fits.readsAt`: the JSON form of such an expression is read back, from anywhere and whatever
  follows it that cannot continue a number (`Json.ReadsAt`).
* `load_dumpForms`: the forms of a program written one JSON line each load back as a stream.
* `json_form_round_trip`: all of it for the two readers.
-/

namespace MiniLisp

namespace Expr

mutual
/-- How deep lists nest in an expression: an atom at depth 0, a list one below its deepest
item. -/
def depth : Expr → Nat
  | .num _ => 0
  | .str _ => 0
  | .sym _ => 0
  | .list items => depthItems items + 1

/-- The depth of the deepest of some expressions, 0 for none. -/
def depthItems : List Expr → Nat
  | [] => 0
  | e :: es => max e.depth (depthItems es)
end

mutual
/-- The numbers of an expression in the order they are written. -/
def numbers : Expr → List Float
  | .num x => [x]
  | .str _ => []
  | .sym _ => []
  | .list items => numbersItems items

/-- The numbers of some expressions, one after the other. -/
def numbersItems : List Expr → List Float
  | [] => []
  | e :: es => e.numbers ++ numbersItems es
end

theorem depth_le_depthItems {e : Expr} {es : List Expr} (h : e ∈ es) : e.depth ≤ depthItems es := by
  induction es with
  | nil => cases h
  | cons e' es ih =>
    simp only [depthItems]
    rcases List.mem_cons.1 h with rfl | h
    · exact Nat.le_max_left _ _
    · exact Nat.le_trans (ih h) (Nat.le_max_right _ _)

theorem depthItems_le {es : List Expr} {k : Nat} (h : ∀ e ∈ es, e.depth ≤ k) :
    depthItems es ≤ k := by
  induction es with
  | nil => exact Nat.zero_le _
  | cons e es ih =>
    simp only [depthItems]
    exact Nat.max_le.2 ⟨h e List.mem_cons_self, ih fun e' he' => h e' (List.mem_cons_of_mem _ he')⟩

theorem numbers_subset {e : Expr} {es : List Expr} (h : e ∈ es) : e.numbers ⊆ numbersItems es := by
  induction es with
  | nil => cases h
  | cons e' es ih =>
    simp only [numbersItems]
    rcases List.mem_cons.1 h with rfl | h
    · exact List.subset_append_left _ _
    · exact List.Subset.trans (ih h) (List.subset_append_right _ _)

theorem toJsonItems_cons (e : Expr) (es : List Expr) :
    toJsonItems (e :: es) = e.toJson ++ String.join (es.map fun e => "," ++ e.toJson) := by
  induction es generalizing e with
  | nil => simp [toJsonItems]
  | cons e' es ih =>
    simp only [toJsonItems, ih, List.map_cons, String.join_cons, String.append_assoc]

end Expr

namespace Json

theorem Cursor.eq_of_rest {c : Cursor} {cs : List Char} (h : c.rest = cs) : c = ⟨cs, c.pos⟩ := by
  obtain ⟨r, p⟩ := c
  simp only at h
  subst h
  rfl

theorem Cursor.skipBlanks_of_rest {c : Cursor} {x : Char} {cs : List Char}
    (h : c.rest = x :: cs) (hx : isBlank x = false) : c.skipBlanks = ⟨x :: cs, c.pos⟩ := by
  rw [Cursor.skipBlanks, h, skipBlanksFrom_cons hx]

theorem endsNumber_of_head {x : Char} (r : List Char)
    (hx : x = ',' ∨ x = ']' ∨ x = '\n') : EndsNumber (x :: r) := by
  refine EndsNumber.cons ?_ r
  rcases hx with rfl | rfl | rfl <;> decide

/-! ## What reads back -/

/-- The writer's text of a number reads back as the number, to its end. -/
def ReadsBack (x : Float) : Prop :=
  ∃ d, readValue depthBudget (Cursor.ofString (numberText.render x)) = .ok (.num x, d) ∧
    d.val.rest = []

/-- The JSON form of `e` is read back as `e` with `b` levels of nesting left, from anywhere and
whatever follows it that cannot continue a number. -/
def ReadsAt (b : Nat) (e : Expr) : Prop :=
  ∀ (c : Cursor) (rest : List Char), c.rest = e.toJson.toList ++ rest → EndsNumber rest →
    ∃ d, readValue b c = .ok (e, d) ∧ d.val.rest = rest

/-- The shape of an expression whose JSON form reads back with `b` levels of nesting left,
numbers aside: lists nest at most `b - 1` deep, every string literal has its quotes and no
symbol's name is quoted text. -/
inductive Fits : Nat → Expr → Prop
  | num (b : Nat) (x : Float) : Fits b (.num x)
  | str {b : Nat} {t : String} : exprOfString t = .str t → Fits b (.str t)
  | sym {b : Nat} {n : String} : exprOfString n = .sym n → Fits b (.sym n)
  | list {b : Nat} {items : List Expr} : 1 < b → (∀ e ∈ items, Fits (b - 1) e) →
      Fits b (.list items)

/-- A JSON string stands for a string literal or for the symbol of the same name. -/
theorem exprOfString_cases (s : String) :
    exprOfString s = .str s ∨ exprOfString s = .sym s := by
  unfold exprOfString
  split
  · exact .inl rfl
  · exact .inr rfl

theorem Fits.of_exprOfString (b : Nat) (s : String) : Fits b (exprOfString s) := by
  rcases exprOfString_cases s with hs | hs
  · rw [hs]
    exact .str hs
  · rw [hs]
    exact .sym hs

theorem Fits.depth_le {b : Nat} {e : Expr} (h : Fits b e) : e.depth ≤ b - 1 := by
  induction h with
  | num => exact Nat.zero_le _
  | str => exact Nat.zero_le _
  | sym => exact Nat.zero_le _
  | list hb _ ih =>
    have := Expr.depthItems_le ih
    simp only [Expr.depth]
    omega

theorem exprOfString_of_isWord {n : String} (hw : IsWord n.toList) : exprOfString n = .sym n := by
  have hq : Expr.isQuotedText n = false := by
    unfold Expr.isQuotedText
    split
    · rename_i r hr
      have hq := hw.2 '"' (by rw [hr]; exact List.mem_cons_self)
      rw [isWordChar_eq_false (.inr (.inr (.inr rfl)))] at hq
      cases hq
    · rfl
  simp [exprOfString, hq]

/-- **What the language's reader produces fits**, at any depth bound its lists keep to. -/
theorem Fits.of_wellFormed {e : Expr} (he : e.WellFormed) {b : Nat} (hd : e.depth ≤ b - 1) :
    Fits b e := by
  induction he generalizing b with
  | num => exact .num b _
  | str => exact .str (exprOfString_quoted _)
  | sym hw => exact .sym (exprOfString_of_isWord hw)
  | list _ ih =>
    simp only [Expr.depth] at hd
    refine .list (by omega) fun e he => ih e he ?_
    have := Expr.depth_le_depthItems he
    omega

theorem fits_of_readItems {b : Nat}
    (hv : ∀ (c : Cursor) (e : Expr) (d : Ahead c), readValue b c = .ok (e, d) → Fits b e) :
    ∀ (n : Nat) {first : Bool} {c : Cursor} {acc es : Array Expr} {d : NotBehind c},
      c.rest.length = n → readItems b first c acc = .ok (es, d) →
      (∀ e ∈ acc.toList, Fits b e) → ∀ e ∈ es.toList, Fits b e := by
  intro n
  -- the items are read from further and further on: induction on what is left of the text
  induction n using Nat.strong_induction_on with
  | _ n ih =>
    intro first c acc es d hn h hacc
    rcases readItems_eq_ok h with rfl | ⟨c', e, d', d'', hc', he, hi⟩
    · exact hacc
    · refine ih _ ?_ rfl hi ?_
      · have := d'.property
        omega
      · intro e' he'
        rw [Array.toList_push, List.mem_append, List.mem_singleton] at he'
        rcases he' with he' | rfl
        · exact hacc e' he'
        · exact hv _ _ _ he

/-- **What the JSON reader produces fits**: with `b` levels of nesting left it reads lists at
most `b - 1` deep, and a symbol only from a string that is no quoted text. -/
theorem Fits.of_readValue (b : Nat) :
    ∀ (c : Cursor) (e : Expr) (d : Ahead c), readValue b c = .ok (e, d) → Fits b e := by
  -- an array's items are read with one level less: induction on the levels left
  induction b using Nat.strong_induction_on with
  | _ b ih =>
    intro c e d h
    rcases readValue_eq_ok h with ⟨x, -, rfl, -⟩ | ⟨x, -, -, rfl, -⟩ | ⟨s, -, rfl, -⟩ |
        ⟨r, items, d', rfl, hb, -, hi, -⟩
    · exact .num b x
    · exact .num b x
    · exact .of_exprOfString b s
    · refine .list hb fun e he => ?_
      exact fits_of_readItems (ih (b - 1) (by omega)) _ rfl hi (by simp) e (by simpa using he)

/-! ## Reading back the JSON form -/

section ReadBack

variable {b : Nat} {c : Cursor} {rest : List Char}

/-- A number whose text reads back is read back with anything after it that cannot continue
it, whatever blanks the text may start with. -/
theorem ReadsBack.readsAt {x : Float} (hx : ReadsBack x) (b : Nat) : ReadsAt b (.num x) := by
  intro c rest hc hr
  simp only [Expr.toJson] at hc
  obtain ⟨d, hd, hend⟩ := hx
  -- what is skipped before the number depends neither on where the text starts nor on what
  -- follows it
  have hskip : ∀ {y : Char} {r : List Char},
      (Cursor.ofString (numberText.render x)).skipBlanks.rest = y :: r →
      c.skipBlanks = ⟨y :: (r ++ rest), c.skipBlanks.pos⟩ := by
    intro y r h
    have h' : (skipBlanksFrom (numberText.render x).toList c.pos).rest = y :: r := by
      rw [rest_skipBlanksFrom _ _ Pos.start]
      exact h
    apply Cursor.eq_of_rest
    rw [Cursor.skipBlanks, hc, skipBlanksFrom_append (by rw [h']; simp), h', List.cons_append]
  rcases readValue_eq_ok hd with ⟨x', r, hxe, hr0, hn⟩ | ⟨x', y, r, hxe, hr0, hy, hn⟩ |
      ⟨s, r, hxe, -⟩ | ⟨r, items, d', hxe, -⟩
  · cases hxe
    rw [Cursor.eq_of_rest hend] at hn
    obtain ⟨q, hq⟩ := readNumber_append hn hr (c.skipBlanks.pos.next '-')
    obtain ⟨d₁, h₁, hd₁⟩ := readValue_of_minus (b := b) (by rw [hskip hr0]) hq
    exact ⟨d₁, h₁, by rw [hd₁]⟩
  · cases hxe
    rw [Cursor.eq_of_rest hend, Cursor.eq_of_rest hr0] at hn
    obtain ⟨q, hq⟩ := readNumber_append hn hr c.skipBlanks.pos
    obtain ⟨d₁, h₁, hd₁⟩ :=
      readValue_of_digit (b := b) (by rw [hskip hr0]) hy (by rw [hskip hr0]; exact hq)
    exact ⟨d₁, h₁, by rw [hd₁]⟩
  · rcases exprOfString_cases s with ht | ht <;> rw [ht] at hxe <;> cases hxe
  · cases hxe

/-- A JSON string is read back as the expression it stands for. -/
theorem readValue_quote {t : String} (hc : c.rest = (quote t).toList ++ rest) :
    ∃ d, readValue b c = .ok (exprOfString t, d) ∧ d.val.rest = rest := by
  have hc' : c.rest = '"' :: ((String.join (t.toList.map escapeChar)).toList ++ '"' :: rest) := by
    rw [hc]
    simp [quote]
  have hs := congrArg Cursor.rest (Cursor.skipBlanks_of_rest hc' (by decide))
  have hread := readChars_escaped t.toList rest (c.skipBlanks.pos.next '"') []
  simp only [List.reverse_nil, List.nil_append, String.ofList_toList] at hread
  obtain ⟨d, h, hd⟩ := readValue_of_quote hs hread
  exact ⟨d, h, by rw [hd]⟩

theorem endsNumber_commaItems (es : List Expr) (rest : List Char) :
    EndsNumber ((String.join (es.map fun e => "," ++ e.toJson)).toList ++ ']' :: rest) := by
  cases es with
  | nil =>
    have h := endsNumber_of_head (x := ']') rest (.inr (.inl rfl))
    simpa using h
  | cons e es =>
    have h := endsNumber_of_head (x := ',')
      (e.toJson.toList ++ ((String.join (es.map fun e => "," ++ e.toJson)).toList ++ ']' :: rest))
      (.inl rfl)
    simpa using h

theorem readItems_commaItems : ∀ {es : List Expr}, (∀ e ∈ es, ReadsAt b e) →
    ∀ {c : Cursor} {acc : Array Expr} {rest : List Char},
      c.rest = (String.join (es.map fun e => "," ++ e.toJson)).toList ++ ']' :: rest →
      ∃ d, readItems b false c acc = .ok (acc ++ es.toArray, d) ∧ d.val.rest = ']' :: rest
  | [], _, c, acc, rest, hc => by
    have hs := Cursor.skipBlanks_of_rest (by simpa using hc) (by decide)
    obtain ⟨d, h, hd⟩ : ∃ d, readItems b false c acc = .ok (acc, d) ∧ d.val = c.skipBlanks :=
      readItems_of_close (by rw [hs])
    exact ⟨d, by simpa using h, by rw [hd, hs]⟩
  | e :: es, hes, c, acc, rest, hc => by
    have hc' : c.rest =
        ',' :: (e.toJson.toList ++ ((String.join (es.map fun e => "," ++ e.toJson)).toList ++
          ']' :: rest)) := by
      rw [hc]
      simp
    have hs := congrArg Cursor.rest (Cursor.skipBlanks_of_rest hc' (by decide))
    obtain ⟨d₁, h₁, hd₁⟩ := hes e List.mem_cons_self ⟨_, c.skipBlanks.pos.next ','⟩ _ rfl
      (endsNumber_commaItems es rest)
    obtain ⟨d₁', h₁', hd₁'⟩ := readValue_skipBlanks h₁
    obtain ⟨y, r, hy, hyc⟩ := readValue_eq_ok_head h₁
    obtain ⟨d₂, h₂, hd₂⟩ : ∃ d, readItems b false d₁'.val (acc.push e) =
        .ok (acc.push e ++ es.toArray, d) ∧ d.val.rest = ']' :: rest :=
      readItems_commaItems (fun e' he' => hes e' (List.mem_cons_of_mem _ he')) (by rw [hd₁', hd₁])
    obtain ⟨d, h, hd⟩ := readItems_of_comma hs hy hyc h₁' h₂
    refine ⟨d, ?_, by rw [hd, hd₂]⟩
    rw [h]
    simp

theorem readItems_toJsonItems {items : List Expr} (hes : ∀ e ∈ items, ReadsAt b e)
    {acc : Array Expr} (hc : c.rest = (Expr.toJsonItems items).toList ++ ']' :: rest) :
    ∃ d, readItems b true c acc = .ok (acc ++ items.toArray, d) ∧ d.val.rest = ']' :: rest := by
  cases items with
  | nil =>
    have hs := Cursor.skipBlanks_of_rest (by simpa [Expr.toJsonItems] using hc) (by decide)
    obtain ⟨d, h, hd⟩ : ∃ d, readItems b true c acc = .ok (acc, d) ∧ d.val = c.skipBlanks :=
      readItems_of_close (by rw [hs])
    exact ⟨d, by simpa using h, by rw [hd, hs]⟩
  | cons e es =>
    rw [Expr.toJsonItems_cons] at hc
    obtain ⟨d₁, h₁, hd₁⟩ := hes e List.mem_cons_self c _ (by rw [hc]; simp)
      (endsNumber_commaItems es rest)
    obtain ⟨d₁', h₁', hd₁'⟩ := readValue_skipBlanks h₁
    obtain ⟨y, r, hy, hyc⟩ := readValue_eq_ok_head h₁
    obtain ⟨d₂, h₂, hd₂⟩ : ∃ d, readItems b false d₁'.val (acc.push e) =
        .ok (acc.push e ++ es.toArray, d) ∧ d.val.rest = ']' :: rest :=
      readItems_commaItems (fun e' he' => hes e' (List.mem_cons_of_mem _ he')) (by rw [hd₁', hd₁])
    obtain ⟨d, h, hd⟩ := readItems_of_first hy hyc h₁' h₂
    refine ⟨d, ?_, by rw [hd, hd₂]⟩
    rw [h]
    simp

/-- **The JSON form of an expression that fits reads back**, when its numbers' texts do. -/
theorem Fits.readsAt {e : Expr} (h : Fits b e) (hx : ∀ x ∈ e.numbers, ReadsBack x) :
    ReadsAt b e := by
  induction h with
  | num b x => exact (hx x (by simp [Expr.numbers])).readsAt b
  | str ht =>
    intro c rest hc _
    simp only [Expr.toJson] at hc
    rw [← ht]
    exact readValue_quote hc
  | sym hn =>
    intro c rest hc _
    simp only [Expr.toJson] at hc
    rw [← hn]
    exact readValue_quote hc
  | @list b items hb _ ih =>
    intro c rest hc _
    have hc' : c.rest = '[' :: ((Expr.toJsonItems items).toList ++ ']' :: rest) := by
      rw [hc]
      simp [Expr.toJson]
    have hs := congrArg Cursor.rest (Cursor.skipBlanks_of_rest hc' (by decide))
    have hitems : ∀ e ∈ items, ReadsAt (b - 1) e := fun e he =>
      ih e he fun x hxe => hx x (Expr.numbers_subset he hxe)
    obtain ⟨d', h', hd'⟩ : ∃ d, readItems (b - 1) true
        ⟨(Expr.toJsonItems items).toList ++ ']' :: rest, c.skipBlanks.pos.next '['⟩ #[] =
          .ok (#[] ++ items.toArray, d) ∧ d.val.rest = ']' :: rest :=
      readItems_toJsonItems hitems rfl
    have hend := endList_of_close (congrArg Cursor.rest (Cursor.skipBlanks_of_rest hd' (by decide)))
    obtain ⟨d, h, hd⟩ := readValue_of_bracket hs hb h' hend
    refine ⟨d, by simpa using h, by rw [hd]⟩

end ReadBack

end Json

open Json

namespace Expr

/-- The JSON form of an expression that fits with the reader's levels, and whose numbers' texts
read back, is read back as the expression. -/
theorem ofJson?_toJson {e : Expr} (hf : Fits depthBudget e) (hx : ∀ x ∈ e.numbers, ReadsBack x) :
    ofJson? e.toJson = .ok e := by
  obtain ⟨d, h, hd⟩ := hf.readsAt hx (Cursor.ofString e.toJson) [] (by simp [Cursor.ofString])
    EndsNumber.nil
  have hs : d.val.skipBlanks.rest = [] := by
    rw [Cursor.skipBlanks, hd]
    rfl
  simp only [ofJson?, h, bind, Except.bind, hs]
  rfl

theorem fits_of_ofJson? {text : String} {e : Expr} (h : ofJson? text = .ok e) :
    Fits depthBudget e := by
  unfold ofJson? at h
  cases hv : readValue depthBudget (Cursor.ofString text) with
  | error err => simp [hv, bind, Except.bind] at h
  | ok p =>
    obtain ⟨e', d, hd⟩ := p
    simp only [hv, bind, Except.bind] at h
    split at h
    · cases h
      exact Fits.of_readValue _ _ _ _ hv
    · simp [failAt] at h

end Expr

/-! ## Programs as JSON lines -/

namespace Json

theorem readStream_skipBlanks (c : Cursor) (acc : Array Expr) :
    readStream c.skipBlanks acc = readStream c acc := by
  rw [readStream.eq_def c.skipBlanks, readStream.eq_def c]
  dsimp only
  rw [Cursor.skipBlanks_skipBlanks]

/-- The forms of a program written one JSON line each are read back as a stream. -/
theorem readStream_dumpForms : ∀ {es : List Expr}, (∀ e ∈ es, ReadsAt depthBudget e) →
    ∀ {c : Cursor} {acc : Array Expr}, c.rest = (Cli.dumpForms es).toList →
      readStream c acc = .ok (acc ++ es.toArray)
  | [], _, c, acc, hc => by
    rw [readStream.eq_def]
    simp [Cli.dumpForms] at hc
    simp [Cursor.skipBlanks, hc, skipBlanksFrom]
  | e :: es, hes, c, acc, hc => by
    have hc' : c.rest = e.toJson.toList ++ '\n' :: (Cli.dumpForms es).toList := by
      rw [hc]
      simp [Cli.dumpForms]
    obtain ⟨d₁, h₁, hd₁⟩ := hes e List.mem_cons_self c _ hc' (endsNumber_of_head _ (by simp))
    obtain ⟨d₁', h₁', hd₁'⟩ := readValue_skipBlanks h₁
    obtain ⟨y, r, hy, -⟩ := readValue_eq_ok_head h₁
    -- after the value comes the line break, a blank that ends it and that the next read skips
    have hnext : readStream d₁'.val (acc.push e) = .ok (acc ++ (e :: es).toArray) := by
      have hd : d₁'.val.skipBlanks =
          Cursor.skipBlanks ⟨(Cli.dumpForms es).toList, d₁'.val.pos.next '\n'⟩ := by
        rw [Cursor.skipBlanks, hd₁', hd₁]
        rfl
      rw [← readStream_skipBlanks, hd, readStream_skipBlanks,
        readStream_dumpForms (fun e' he' => hes e' (List.mem_cons_of_mem _ he')) rfl]
      simp
    rw [readStream.eq_def]
    dsimp only
    split
    · rename_i hr
      rw [hr] at hy
      cases hy
    · split
      · rename_i err hv
        rw [h₁'] at hv
        cases hv
      · rename_i e' d hd hv
        rw [h₁'] at hv
        cases hv
        dsimp only at hd₁' hnext
        split
        · rename_i z zs hz
          rw [hd₁', hd₁] at hz
          cases hz
          rw [if_pos (by simp [endsValue, isBlank])]
          exact hnext
        · rename_i hz
          rw [hd₁', hd₁] at hz
          cases hz

end Json

namespace Cli

theorem load_dumpForms {es : List Expr} (hes : ∀ e ∈ es, ReadsAt depthBudget e) :
    load (dumpForms es) true = .ok es := by
  have h : readStream (Cursor.ofString (dumpForms es)) #[] = .ok (#[] ++ es.toArray) :=
    readStream_dumpForms hes rfl
  simp [load, Expr.ofJsonStream?, h, Except.map]

end Cli

/-- **The JSON form and the expression tree are inverse** on what either reader produces, and a
program dumped as JSON lines loads back as itself. -/
theorem json_form_round_trip :
    (∀ src e, Expr.read src = .ok e → e.depth ≤ 127 → (∀ x ∈ e.numbers, ReadsBack x) →
      Expr.ofJson? e.toJson = .ok e) ∧
    (∀ src es, Expr.readMany src = .ok es → ∀ e ∈ es, e.depth ≤ 127 →
      (∀ x ∈ e.numbers, ReadsBack x) → Expr.ofJson? e.toJson = .ok e) ∧
    (∀ text e, Expr.ofJson? text = .ok e → e.depth ≤ 127 ∧
      ((∀ x ∈ e.numbers, ReadsBack x) → Expr.ofJson? e.toJson = .ok e)) ∧
    (∀ src es, Expr.readMany src = .ok es →
      (∀ e ∈ es, e.depth ≤ 127 ∧ ∀ x ∈ e.numbers, ReadsBack x) →
      Cli.load (Cli.dumpForms es) true = .ok es) := by
  refine ⟨fun src e h hd hx => ?_, fun src es h e he hd hx => ?_, fun text e h => ?_,
    fun src es h hes => ?_⟩
  · exact Expr.ofJson?_toJson (Fits.of_wellFormed (Expr.wellFormed_of_read h) hd) hx
  · exact Expr.ofJson?_toJson (Fits.of_wellFormed (Expr.wellFormed_of_readMany h e he) hd) hx
  · have hf := Expr.fits_of_ofJson? h
    exact ⟨hf.depth_le, Expr.ofJson?_toJson hf⟩
  · refine Cli.load_dumpForms fun e he => ?_
    exact (Fits.of_wellFormed (Expr.wellFormed_of_readMany h e he) (hes e he).1).readsAt
      (hes e he).2

/-- A program of a list with a symbol and a string literal, and a number, is read, dumped and loaded
back: the number's text `1.5` reads back as the number. -/
theorem json_form_round_trip_program :
    Expr.readMany "(a \"b c\") 1.5" = .ok [.list [.sym "a", .str "\"b c\""], .num 1.5] ∧
    (∀ e ∈ [Expr.list [.sym "a", .str "\"b c\""], .num 1.5],
      e.depth ≤ 127 ∧ ∀ x ∈ e.numbers, ReadsBack x) ∧
    Cli.load (Cli.dumpForms [.list [.sym "a", .str "\"b c\""], .num 1.5]) true =
      .ok [.list [.sym "a", .str "\"b c\""], .num 1.5] := by
  have hwf : ∀ e ∈ [Expr.list [.sym "a", .str "\"b c\""], .num 1.5], e.WellFormed := by
    intro e he
    simp only [List.mem_cons, List.not_mem_nil, or_false] at he
    rcases he with rfl | rfl
    · refine .list fun e he => ?_
      simp only [List.mem_cons, List.not_mem_nil, or_false] at he
      rcases he with rfl | rfl
      · refine .sym ⟨by decide, fun c hc => ?_⟩ (by decide)
        rw [show "a".toList = ['a'] by decide, List.mem_singleton] at hc
        subst hc
        decide
      · rw [show "\"b c\"" = "\"" ++ "b c" ++ "\"" by decide]
        exact .str (by decide)
    · exact .num (by decide)
  have hread := Expr.readMany_intercalate_render hwf
  rw [show " ".intercalate ([Expr.list [.sym "a", .str "\"b c\""], .num 1.5].map Expr.render) =
    "(a \"b c\") 1.5" by decide +kernel] at hread
  have hback : ReadsBack 1.5 := by
    have hr : Json.numberText.render 1.5 = "1.5" := by decide +kernel
    have h0 : (Cursor.ofString "1.5").skipBlanks.rest = '1' :: ['.', '5'] := by decide
    have hs : (Cursor.ofString "1.5").skipBlanks = ⟨"1.5".toList, Pos.start⟩ := by decide
    have hn : readNumber false (Cursor.ofString "1.5").skipBlanks = .ok (1.5, ⟨[], ⟨1, 3⟩⟩) := by
      rw [hs]
      rfl
    obtain ⟨d, h, hd⟩ := readValue_of_digit (b := depthBudget) h0 (by decide) hn
    unfold ReadsBack
    rw [hr]
    exact ⟨d, h, by rw [hd]⟩
  have hcond : ∀ e ∈ [Expr.list [.sym "a", .str "\"b c\""], .num 1.5],
      e.depth ≤ 127 ∧ ∀ x ∈ e.numbers, ReadsBack x := by
    intro e he
    simp only [List.mem_cons, List.not_mem_nil, or_false] at he
    rcases he with rfl | rfl
    · exact ⟨by decide, by simp [Expr.numbers, Expr.numbersItems]⟩
    · exact ⟨by decide, by simp [Expr.numbers, hback]⟩
  exact ⟨hread, hcond, json_form_round_trip.2.2.2 _ _ hread hcond⟩

end MiniLisp
