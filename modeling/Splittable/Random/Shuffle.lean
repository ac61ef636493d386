/-!
# Shuffles

A random order, drawn from any source of 32-bit words.  Several small choices share one drawn word
as long as their product fits in it.

* `Random.below`     a choice among a number of cases, from one or two words;
* `Random.Choices`   the choices of a shuffle, the first among one case, the next among two, …;
* `Random.shuffle`   a random order of an array (`shuffle_perm`).
-/

namespace Splittable.Random

variable {σ α : Type}

/-- A choice among `bound` cases: the high half of a product, mended by a second word where the
low half says that the first one alone is uneven. -/
def below (next : σ → UInt32 × σ) (bound : UInt32) (s : σ) : UInt32 × σ :=
  let (w, s) := next s
  let product := w.toUInt64 * bound.toUInt64
  let high := (product >>> 32).toUInt32
  let low := product.toUInt32
  if 0 - bound < low then
    let (w, s) := next s
    let high' := ((w.toUInt64 * bound.toUInt64) >>> 32).toUInt32
    if UInt32.size ≤ low.toNat + high'.toNat then (high + 1, s) else (high, s)
  else (high, s)

/-- The product of as many factors `n * (n + 1) * …` as fit in a word, and their number; `fuel`
bounds it. -/
def chunkBound : (fuel product factor count : Nat) → Nat × Nat
  | 0, product, _, count => (product, count)
  | fuel + 1, product, factor, count =>
    if product * factor < UInt32.size then
      chunkBound fuel (product * factor) (factor + 1) (count + 1)
    else (product, count)

/-- how many choices are made, and the drawn word that the next ones share -/
structure Choices (σ : Type) where
  made : Nat
  chunk : Nat
  left : Nat
  source : σ

/-- The first choice has one case and draws nothing. -/
def Choices.start (s : σ) : Choices σ := ⟨0, 0, 1, s⟩

/-- the next choice, among one case more than there are choices made -/
def Choices.next (next : σ → UInt32 × σ) (c : Choices σ) : Nat × Choices σ :=
  let cases := c.made + 1
  let c :=
    match c.left with
    | 0 =>
      let (bound, count) := chunkBound 32 cases (cases + 1) 1
      let (chunk, source) := below next bound.toUInt32 c.source
      { c with chunk := chunk.toNat, left := count, source := source }
    | _ => c
  let left := c.left - 1
  if left = 0 then (c.chunk, { c with made := cases, left := 0 })
  else (c.chunk % cases, { c with made := cases, chunk := c.chunk / cases, left := left })

/-- Exchange each place with one chosen among those up to it. -/
def shuffleFrom (next : σ → UInt32 × σ) : (count : Nat) → Choices σ → Array α →
    Array α × Choices σ
  | 0, c, items => (items, c)
  | count + 1, c, items =>
    let i := c.made
    let (j, c) := c.next next
    shuffleFrom next count c (items.swapIfInBounds i j)

def shuffle (next : σ → UInt32 × σ) (s : σ) (items : Array α) : Array α × σ :=
  if items.size ≤ 1 then (items, s)
  else
    let (items, c) := shuffleFrom next items.size (.start s) items
    (items, c.source)

theorem swapIfInBounds_perm (items : Array α) (i j : Nat) :
    (items.swapIfInBounds i j).toList.Perm items.toList := by
  unfold Array.swapIfInBounds
  split
  · split
    · exact (Array.swap_perm _ _).toList
    · exact .refl _
  · exact .refl _

theorem shuffleFrom_perm (next : σ → UInt32 × σ) (count : Nat) (c : Choices σ) (items : Array α) :
    (shuffleFrom next count c items).1.toList.Perm items.toList := by
  induction count generalizing c items with
  | zero => exact .refl _
  | succ count ih => exact (ih _ _).trans (swapIfInBounds_perm _ _ _)

/-- **A shuffle only reorders.** -/
theorem shuffle_perm (next : σ → UInt32 × σ) (s : σ) (items : Array α) :
    (shuffle next s items).1.toList.Perm items.toList := by
  unfold shuffle
  split
  · exact .refl _
  · exact shuffleFrom_perm _ _ _ _

end Splittable.Random
