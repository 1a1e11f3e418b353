import Mathlib
import MiniLisp.Syntax.Token

/-! # Scanning program text

Facts about `scan`, the character loop of `tokenize`, that reading and sessions build on.

* `scan_word`, `scan_text`: a word alone scans to one word token, a quoted text without a quote
  inside to one text token.
* `scan_append_of_ok`: a scan that finishes goes on unchanged past any character that no word
  takes; `scan_shift`: it finishes alike from any offset and after any tokens.
* `tokenize_join`: the tokens of two texts joined by separators are the tokens of each.
* `scan_wellFormed`, `tokenize_wellFormed`: every word token is a nonempty run of word
  characters and no text token holds a quote.
* `scan_eq_error`, `tokenize_eq_error`: scanning fails only at text that starts no token.
-/

namespace MiniLisp

/-! ## Character classes -/


/-- A word token's text: nonempty, of word characters only. -/
def IsWord (w : List Char) : Prop := w ≠ [] ∧ ∀ c ∈ w, Token.isWordChar c

theorem isWord_reverse {w : List Char} : IsWord w.reverse ↔ IsWord w := by
  simp [IsWord]

theorem isWordChar_eq_false {c : Char}
    (h : Token.isSpace c ∨ c = '(' ∨ c = ')' ∨ c = '"') : Token.isWordChar c = false := by
  simp only [Token.isSpace, Bool.or_eq_true, decide_eq_true_eq] at h
  rcases h with ((((rfl | rfl) | rfl) | rfl) | rfl) | rfl | rfl | rfl <;> simp [Token.isWordChar]

theorem startToken_word {c : Char} (hc : Token.isWordChar c) (pos : Nat) (done : Array Token) :
    startToken c pos done = .ok (.word [c], done) := by
  have hs : Token.isSpace c = false := by
    cases h : Token.isSpace c
    · rfl
    · rw [isWordChar_eq_false (.inl h)] at hc
      cases hc
  have hne : ∀ d, (d = '(' ∨ d = ')' ∨ d = '"') → c ≠ d := by
    rintro d hd rfl
    rw [isWordChar_eq_false (.inr hd)] at hc
    cases hc
  simp [startToken, hs, hne '(' (by simp), hne ')' (by simp), hne '"' (by simp), hc]

/-! ## Runs of characters -/

theorem scan_words {cs : List Char} (hcs : ∀ c ∈ cs, Token.isWordChar c) (rest : List Char) :
    ∀ pos w done, ∃ pos',
      scan (cs ++ rest) pos (.word w) done = scan rest pos' (.word (cs.reverse ++ w)) done := by
  induction cs with
  | nil => exact fun pos w done => ⟨pos, rfl⟩
  | cons c cs ih =>
    intro pos w done
    have hc : Token.isWordChar c := hcs c List.mem_cons_self
    obtain ⟨pos', h⟩ := ih (fun c' h' => hcs c' (List.mem_cons_of_mem _ h')) (pos + 1) (c :: w) done
    refine ⟨pos', ?_⟩
    rw [List.cons_append, scan, if_pos hc, h, List.reverse_cons, List.append_assoc,
      List.singleton_append]

theorem scan_texts {cs : List Char} (hcs : '"' ∉ cs) (rest : List Char) :
    ∀ pos start t done, ∃ pos',
      scan (cs ++ rest) pos (.text start t) done = scan rest pos' (.text start (cs.reverse ++ t)) done := by
  induction cs with
  | nil => exact fun pos start t done => ⟨pos, rfl⟩
  | cons c cs ih =>
    intro pos start t done
    have hc : c ≠ '"' := fun h => hcs (h ▸ List.mem_cons_self)
    obtain ⟨pos', h⟩ := ih (fun h' => hcs (List.mem_cons_of_mem _ h')) (pos + c.utf8Size) start (c :: t) done
    refine ⟨pos', ?_⟩
    rw [List.cons_append, scan, if_neg hc, h, List.reverse_cons, List.append_assoc,
      List.singleton_append]

theorem scan_word {w : List Char} (hw : IsWord w) (pos : Nat) (done : Array Token) :
    scan w pos .nothing done = .ok (done.push (.word (String.ofList w))) := by
  obtain ⟨hne, hchars⟩ := hw
  obtain ⟨c, cs, rfl⟩ := List.exists_cons_of_ne_nil hne
  have hc : Token.isWordChar c := hchars c List.mem_cons_self
  obtain ⟨pos', h⟩ := scan_words (fun c' h' => hchars c' (List.mem_cons_of_mem _ h')) []
    (pos + c.utf8Size) [c] done
  rw [scan, startToken_word hc]
  dsimp only
  rw [← List.append_nil cs, h]
  simp [scan]

theorem scan_text {s : List Char} (hs : '"' ∉ s) (pos : Nat) (done : Array Token) :
    scan ('"' :: (s ++ ['"'])) pos .nothing done = .ok (done.push (.text (String.ofList s))) := by
  have hq : startToken '"' pos done = .ok (.text pos [], done) := rfl
  obtain ⟨pos', h⟩ := scan_texts hs ['"'] (pos + '"'.utf8Size) pos [] done
  rw [scan, hq]
  dsimp only
  rw [h]
  simp [scan]

/-! ## What the scanner produces -/

/-- A token as the scanner makes it: a word of word characters, a text without a quote. -/
def Token.WellFormed : Token → Prop
  | .word w => IsWord w.toList
  | .text s => '"' ∉ s.toList
  | _ => True

/-- The pending token as the scanner keeps it. -/
def Pending.WellFormed : Pending → Prop
  | .nothing => True
  | .word w => IsWord w
  | .text _ t => '"' ∉ t

theorem startToken_wellFormed {c : Char} {pos : Nat} {done done' : Array Token} {p : Pending}
    (h : startToken c pos done = .ok (p, done')) (hdone : ∀ t ∈ done, t.WellFormed) :
    p.WellFormed ∧ ∀ t ∈ done', t.WellFormed := by
  unfold startToken at h
  split_ifs at h with hs hl hr hq hw <;> cases h
  · exact ⟨trivial, hdone⟩
  · refine ⟨trivial, fun t ht => ?_⟩
    rcases Array.mem_push.1 ht with ht | rfl
    · exact hdone t ht
    · trivial
  · refine ⟨trivial, fun t ht => ?_⟩
    rcases Array.mem_push.1 ht with ht | rfl
    · exact hdone t ht
    · trivial
  · exact ⟨List.not_mem_nil, hdone⟩
  · exact ⟨⟨List.cons_ne_nil _ _, by simpa using hw⟩, hdone⟩

/-- **The scanner's invariant**: from well-formed tokens and a well-formed pending token, every
token the rest of the scan produces is well-formed. -/
theorem scan_wellFormed {cs : List Char} {pos : Nat} {p : Pending} {done r : Array Token}
    (h : scan cs pos p done = .ok r) (hp : p.WellFormed) (hdone : ∀ t ∈ done, t.WellFormed) :
    ∀ t ∈ r, t.WellFormed := by
  fun_induction scan cs pos p done with
  | case1 pos done => cases h; exact hdone
  | case2 pos w done =>
    cases h
    intro t ht
    rcases Array.mem_push.1 ht with ht | rfl
    · exact hdone t ht
    · simpa [Token.WellFormed, Pending.WellFormed, isWord_reverse] using hp
  | case3 => cases h
  | case4 rest pos start t done ih =>
    refine ih h trivial fun t' ht => ?_
    rcases Array.mem_push.1 ht with ht | rfl
    · exact hdone t' ht
    · simpa [Token.WellFormed, Pending.WellFormed] using hp
  | case5 c rest pos start t done hq ih =>
    refine ih h ?_ hdone
    simpa [Pending.WellFormed, Ne.symm hq] using hp
  | case6 c rest pos w done hw ih =>
    refine ih h ⟨List.cons_ne_nil _ _, ?_⟩ hdone
    simpa [hw] using hp.2
  | case7 c rest pos w done hw p done' hs ih =>
    have hword : Token.WellFormed (.word (String.ofList w.reverse)) := by
      simpa [Token.WellFormed, Pending.WellFormed, isWord_reverse] using hp
    obtain ⟨hp', hdone'⟩ := startToken_wellFormed hs fun t ht => by
      rcases Array.mem_push.1 ht with ht | rfl
      · exact hdone t ht
      · exact hword
    exact ih h hp' hdone'
  | case8 => cases h
  | case9 c rest pos done p done' hs ih =>
    obtain ⟨hp', hdone'⟩ := startToken_wellFormed hs hdone
    exact ih h hp' hdone'
  | case10 => cases h

/-! ## Where the scanner fails -/

theorem startToken_eq_error {c : Char} {pos : Nat} {done : Array Token} {e : SyntaxError}
    (h : startToken c pos done = .error e) : e = .unexpectedText c.toString pos := by
  unfold startToken at h
  split_ifs at h
  cases h
  rfl

/-- **The scanner fails only at text that starts no token**, a character or an unclosed string
literal, never at a case of its own. -/
theorem scan_eq_error {cs : List Char} {pos : Nat} {p : Pending} {done : Array Token}
    {e : SyntaxError} (h : scan cs pos p done = .error e) : ∃ s o, e = .unexpectedText s o := by
  fun_induction scan cs pos p done with
  | case1 => cases h
  | case2 => cases h
  | case3 => cases h; exact ⟨_, _, rfl⟩
  | case4 _ _ _ _ _ ih => exact ih h
  | case5 _ _ _ _ _ _ _ ih => exact ih h
  | case6 _ _ _ _ _ _ ih => exact ih h
  | case7 _ _ _ _ _ _ _ _ _ ih => exact ih h
  | case8 c _ pos _ _ _ _ hs => cases h; exact ⟨_, _, startToken_eq_error hs⟩
  | case9 _ _ _ _ _ _ _ ih => exact ih h
  | case10 c _ pos _ _ hs => cases h; exact ⟨_, _, startToken_eq_error hs⟩

theorem tokenize_eq_error {src : String} {e : SyntaxError} (h : tokenize src = .error e) :
    ∃ s o, e = .unexpectedText s o := by
  unfold tokenize at h
  cases hs : scan src.toList 0 .nothing #[] with
  | ok r => rw [hs] at h; cases h
  | error e' =>
    rw [hs] at h
    cases h
    exact scan_eq_error hs

theorem tokenize_wellFormed {src : String} {ts : List Token} (h : tokenize src = .ok ts) :
    ∀ t ∈ ts, t.WellFormed := by
  unfold tokenize at h
  cases hs : scan src.toList 0 .nothing #[] with
  | error e => rw [hs] at h; cases h
  | ok r =>
    rw [hs] at h
    cases h
    intro t ht
    exact scan_wellFormed hs trivial (by simp) t (by simpa using ht)

/-! ## Joining scans -/

theorem scan_word_stop {c : Char} (hc : Token.isWordChar c = false) (rest : List Char) (pos : Nat)
    (w : List Char) (done : Array Token) :
    scan (c :: rest) pos (.word w) done =
      scan (c :: rest) pos .nothing (done.push (.word (String.ofList w.reverse))) := by
  simp only [scan, hc, Bool.false_eq_true, ↓reduceIte]

theorem scan_space {c : Char} (hc : Token.isSpace c) (rest : List Char) (pos : Nat)
    (done : Array Token) : scan (c :: rest) pos .nothing done = scan rest (pos + c.utf8Size) .nothing done := by
  simp [scan, startToken, hc]

theorem scan_openParen (rest : List Char) (pos : Nat) (done : Array Token) :
    scan ('(' :: rest) pos .nothing done = scan rest (pos + 1) .nothing (done.push .openParen) := rfl

theorem scan_closeParen (rest : List Char) (pos : Nat) (done : Array Token) :
    scan (')' :: rest) pos .nothing done = scan rest (pos + 1) .nothing (done.push .closeParen) := rfl

/-- A scan that finishes can be continued past its end at any character that no word takes:
the tokens it found stand, and the scan goes on from that character with nothing pending. -/
theorem scan_append_of_ok {cs₁ : List Char} {pos : Nat} {p : Pending} {done d₁ : Array Token}
    (h : scan cs₁ pos p done = .ok d₁) {c : Char} (hc : Token.isWordChar c = false)
    (cs₂ : List Char) :
    ∃ pos', scan (cs₁ ++ c :: cs₂) pos p done = scan (c :: cs₂) pos' .nothing d₁ := by
  fun_induction scan cs₁ pos p done with
  | case1 pos done => cases h; exact ⟨pos, rfl⟩
  | case2 pos w done => cases h; exact ⟨pos, scan_word_stop hc _ _ _ _⟩
  | case3 => cases h
  | case4 rest pos start t done ih =>
    obtain ⟨pos', h'⟩ := ih h
    exact ⟨pos', by rw [List.cons_append, scan, if_pos rfl]; exact h'⟩
  | case5 c' rest pos start t done hq ih =>
    obtain ⟨pos', h'⟩ := ih h
    exact ⟨pos', by rw [List.cons_append, scan, if_neg hq]; exact h'⟩
  | case6 c' rest pos w done hw ih =>
    obtain ⟨pos', h'⟩ := ih h
    exact ⟨pos', by rw [List.cons_append, scan, if_pos hw]; exact h'⟩
  | case7 c' rest pos w done hw p done' hs ih =>
    obtain ⟨pos', h'⟩ := ih h
    exact ⟨pos', by rw [List.cons_append, scan, if_neg hw, hs]; exact h'⟩
  | case8 => cases h
  | case9 c' rest pos done p done' hs ih =>
    obtain ⟨pos', h'⟩ := ih h
    exact ⟨pos', by rw [List.cons_append, scan, hs]; exact h'⟩
  | case10 => cases h

/-! ## Scans from anywhere -/

/-- A pending token without the offset at which a string literal opened, which only errors
report. -/
def Pending.unplaced : Pending → Pending
  | .text _ t => .text 0 t
  | p => p

theorem startToken_shift {c : Char} {pos : Nat} {done done' : Array Token} {p : Pending}
    (h : startToken c pos done = .ok (p, done')) (pos' : Nat) (d : Array Token) :
    ∃ p', startToken c pos' (d ++ done) = .ok (p', d ++ done') ∧ p'.unplaced = p.unplaced := by
  unfold startToken at h ⊢
  split_ifs at h ⊢ <;> cases h
  · exact ⟨.nothing, rfl, rfl⟩
  · exact ⟨.nothing, by rw [Array.push_append], rfl⟩
  · exact ⟨.nothing, by rw [Array.push_append], rfl⟩
  · exact ⟨.text pos' [], rfl, rfl⟩
  · exact ⟨.word [c], rfl, rfl⟩

/-- A scan that finishes does so from any offset and after any tokens: offsets only name
errors. -/
theorem scan_shift {cs : List Char} {pos : Nat} {p : Pending} {done r : Array Token}
    (h : scan cs pos p done = .ok r) :
    ∀ pos' p', p'.unplaced = p.unplaced →
      ∀ d, scan cs pos' p' (d ++ done) = .ok (d ++ r) := by
  fun_induction scan cs pos p done with
  | case1 pos done =>
    cases h
    intro pos' p' hp d
    cases p' <;> simp [Pending.unplaced] at hp
    rfl
  | case2 pos w done =>
    cases h
    intro pos' p' hp d
    cases p' <;> simp [Pending.unplaced] at hp
    subst hp
    simp only [scan, Array.push_append]
  | case3 => cases h
  | case4 rest pos start t done ih =>
    intro pos' p' hp d
    cases p' <;> simp [Pending.unplaced] at hp
    subst hp
    rw [scan, if_pos rfl, Array.push_append]
    refine ih h _ _ ?_ d
    rfl
  | case5 c rest pos start t done hq ih =>
    intro pos' p' hp d
    cases p' <;> simp [Pending.unplaced] at hp
    subst hp
    rw [scan, if_neg hq]
    refine ih h _ _ ?_ d
    rfl
  | case6 c rest pos w done hw ih =>
    intro pos' p' hp d
    cases p' <;> simp [Pending.unplaced] at hp
    subst hp
    rw [scan, if_pos hw]
    refine ih h _ _ ?_ d
    rfl
  | case7 c rest pos w done hw p done' hs ih =>
    intro pos' p' hp d
    cases p' <;> simp [Pending.unplaced] at hp
    subst hp
    obtain ⟨p'', hs', hp''⟩ := startToken_shift hs pos' d
    rw [scan, if_neg hw, Array.push_append, hs']
    exact ih h _ _ hp'' d
  | case8 => cases h
  | case9 c rest pos done p done' hs ih =>
    intro pos' p' hp d
    cases p' <;> simp [Pending.unplaced] at hp
    obtain ⟨p'', hs', hp''⟩ := startToken_shift hs pos' d
    rw [scan, hs']
    exact ih h _ _ hp'' d
  | case10 => cases h

theorem scan_spaces {cs : List Char} (hcs : ∀ c ∈ cs, Token.isSpace c) (rest : List Char)
    (pos : Nat) (done : Array Token) :
    ∃ pos', scan (cs ++ rest) pos .nothing done = scan rest pos' .nothing done := by
  induction cs generalizing pos with
  | nil => exact ⟨pos, rfl⟩
  | cons c cs ih =>
    obtain ⟨pos', h⟩ :=
      ih (fun c' hc' => hcs c' (List.mem_cons_of_mem _ hc')) (pos + c.utf8Size)
    exact ⟨pos', by rw [List.cons_append, scan_space (hcs c List.mem_cons_self), h]⟩

theorem tokenize_eq_ok {src : String} {ts : List Token} (h : tokenize src = .ok ts) :
    ∃ r : Array Token, scan src.toList 0 .nothing #[] = .ok r ∧ r.toList = ts := by
  unfold tokenize at h
  cases hs : scan src.toList 0 .nothing #[] with
  | error e => rw [hs] at h; cases h
  | ok r =>
    rw [hs] at h
    cases h
    exact ⟨r, rfl, rfl⟩

/-- **Texts joined by separators scan to the tokens of each.** -/
theorem tokenize_join {src₁ src₂ w : String} {ts₁ ts₂ : List Token}
    (h₁ : tokenize src₁ = .ok ts₁) (h₂ : tokenize src₂ = .ok ts₂) (hw : w ≠ "")
    (hblank : ∀ c ∈ w.toList, Token.isSpace c) :
    tokenize (src₁ ++ w ++ src₂) = .ok (ts₁ ++ ts₂) := by
  obtain ⟨r₁, hs₁, rfl⟩ := tokenize_eq_ok h₁
  obtain ⟨r₂, hs₂, rfl⟩ := tokenize_eq_ok h₂
  obtain ⟨c, cs, hc⟩ := List.exists_cons_of_ne_nil (String.toList_eq_nil_iff.not.2 hw)
  have hspace : Token.isSpace c := hblank c (hc ▸ List.mem_cons_self)
  -- past the first text, at the first separator
  obtain ⟨pos, hpos⟩ :=
    scan_append_of_ok hs₁ (isWordChar_eq_false (.inl hspace)) (cs ++ src₂.toList)
  -- past the separators, at the second text
  obtain ⟨pos', hpos'⟩ :=
    scan_spaces (fun c' hc' => hblank c' (hc ▸ List.mem_cons_of_mem _ hc'))
      src₂.toList (pos + c.utf8Size) r₁
  have hs : scan (src₁ ++ w ++ src₂).toList 0 .nothing #[] = .ok (r₁ ++ r₂) := by
    rw [String.toList_append, String.toList_append, hc, List.append_assoc, List.cons_append, hpos,
      scan_space hspace, hpos', ← (Array.append_empty : r₁ ++ #[] = r₁)]
    simpa using scan_shift hs₂ pos' .nothing rfl r₁
  unfold tokenize
  rw [hs]
  simp [Except.map]

end MiniLisp
