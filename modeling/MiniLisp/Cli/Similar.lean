/-! # Similar words

The Jaro similarity of two words, used to suggest the option a mistyped one was meant to be.
Two characters match when they are equal and at most `⌊max(|a|, |b|) / 2⌋ - 1` places apart,
each character taken once, in order; half the matched pairs that stand in a different order
are transpositions. With `m` matches and `t` transpositions the similarity is
`(m / |a| + m / |b| + (m - t) / m) / 3`, computed in doubles.

* `jaro`: the similarity; `closest`: the most similar candidate above a bar.
-/

namespace MiniLisp.Cli

/-- Marks the `i`-th character of `a` and the first unmarked equal character of `b` within
`range` places of it, if there is one; counts the pairs marked. -/
def markStep (a b : Array Char) (range : Nat) :
    Array Bool × Array Bool × Nat → Nat → Array Bool × Array Bool × Nat
  | (am, bm, m), i =>
    let lo := i - range
    let hi := min b.size (i + range + 1)
    let ch := a.getD i ' '
    match (List.range' lo (hi - lo)).find? fun j => b.getD j ' ' == ch && !bm.getD j true with
    | some j => (am.set! i true, bm.set! j true, m + 1)
    | none => (am, bm, m)

/-- Marks, for each character of `a` in turn, the first unmarked equal character of `b` within
`range` places; the marks on `a`, the marks on `b`, and how many were made. -/
def matchMarks (a b : Array Char) (range : Nat) : Array Bool × Array Bool × Nat :=
  (List.range a.size).foldl (markStep a b range)
    (Array.replicate a.size false, Array.replicate b.size false, 0)

/-- The characters of a word whose mark is set, in order. -/
def marked (w : Array Char) (marks : Array Bool) : List Char :=
  ((w.toList.zip marks.toList).filter (·.2)).map (·.1)

/-- The Jaro similarity of two words. -/
def jaro (a b : String) : Float :=
  let as := a.toList.toArray
  let bs := b.toList.toArray
  if as.size = 0 && bs.size = 0 then 1.0
  else if as.size = 0 || bs.size = 0 then 0.0
  else
    let range := max as.size bs.size / 2 - 1
    let (am, bm, m) := matchMarks as bs range
    if m = 0 then 0.0
    else
      let t := (((marked as am).zip (marked bs bm)).filter fun (x, y) => x != y).length / 2
      ((m.toFloat / as.size.toFloat) + (m.toFloat / bs.size.toFloat) +
        ((m - t).toFloat / m.toFloat)) / 3.0

/-- Keeps the better of the best candidate so far and `c`, with its similarity to `w`: `c` if it
is similar above `0.7` and at least as similar. -/
def closer (w : String) (best : Option (String × Float)) (c : String) : Option (String × Float) :=
  let score := jaro w c
  if score > 0.7 then
    match best with
    | some (b, s) => if s ≤ score then some (c, score) else some (b, s)
    | none => some (c, score)
  else best

/-- The candidate most similar to `w`, if one is similar above `0.7`; of equally similar ones
the last. -/
def closest (w : String) (candidates : List String) : Option String :=
  (candidates.foldl (closer w) none).map (·.1)

end MiniLisp.Cli
