/-!
# Likeness of texts

Two texts are alike by the characters that they share in order: those of the longest block that stands in
both, and those that the parts before it and the parts after it share in the same way.

* `Likeness.shared` — the number of characters that two texts share;
* `Likeness.closest` — the words most like a text.
-/

namespace RouteDoc.Likeness

/-- The length of the common beginning of two texts. -/
def commonPrefix : List Char → List Char → Nat
  | a :: as, b :: bs => if a == b then commonPrefix as bs + 1 else 0
  | _, _ => 0

/-- The longest block that begins at the start of the first text, by its place in the second one and its
length; the earliest of several. -/
def longestAtStart (a : List Char) : List Char → Nat × Nat
  | [] => (0, 0)
  | b :: bs =>
    let here := commonPrefix a (b :: bs)
    let (place, length) := longestAtStart a bs
    if length ≤ here then (0, here) else (place + 1, length)

/-- The longest block of two texts, by its places in them and its length; the earliest of several. -/
def longestBlock (b : List Char) : List Char → Nat × Nat × Nat
  | [] => (0, 0, 0)
  | a :: as =>
    let (place, here) := longestAtStart (a :: as) b
    let (first, second, length) := longestBlock b as
    if length ≤ here then (0, place, here) else (first + 1, second, length)

/-- The number of characters that two texts share; the count bounds the depth of the search. -/
def sharedWithin : Nat → List Char → List Char → Nat
  | 0, _, _ => 0
  | count + 1, a, b =>
    let (i, j, length) := longestBlock b a
    if length = 0 then 0
    else
      sharedWithin count (a.take i) (b.take j) + length
        + sharedWithin count (a.drop (i + length)) (b.drop (j + length))

/-- The number of characters that two texts share. -/
def shared (a b : String) : Nat := sharedWithin (a.length + 1) a.toList b.toList

/-- Does a word share at least three tenths of all characters with a text?  Of two equal texts it is half. -/
def isClose (text word : String) : Bool := 3 * (word.length + text.length) ≤ 10 * shared word text

/-- Is the first of two words more like a text than the second, or as much like it and later in order? -/
def isCloser (text a b : String) : Bool :=
  let atA := shared a text * (b.length + text.length)
  let atB := shared b text * (a.length + text.length)
  atB < atA || (atA == atB && b ≤ a)

/-- The words most like a text, at most three of those that are close to it, in order. -/
def closest (text : String) (words : List String) : List String :=
  (((words.filter (isClose text)).mergeSort (isCloser text)).take 3).mergeSort fun a b => a ≤ b

end RouteDoc.Likeness
